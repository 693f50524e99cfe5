import Trueup.Models.OpenedAccount
import Trueup.Orders.TradeUpdateHandler

/-! # Repeated and failed deliveries

The broker's messages are delivered at least once. The unique `execution_id` of the event log makes
the second successful delivery of a fill impossible, whatever its content: the event insertion of a
repeat raises (`fill_not_repeated`), and what raises leaves no trace. A sequence of fill deliveries
therefore ends in the same database as the sequence without the repeats
(`deliveries_without_repeats`). -/

namespace Trueup.Orders

open Trueup.Core Trueup.Models Trueup.Lib Trueup.Lib.Transaction Trueup.Ledger Trueup.Lots

/-- One delivery of a message: what it reads from outside, and where it is interrupted, if so. -/
structure Delivery where
  env : Env
  fault : Option HandleStage
  message : TradeUpdate

/-- The body of a delivery. -/
def deliver (d : Delivery) : Tx (Option OrderStatus) := handle d.env d.fault d.message

/-- The message is a fill or a partial fill. -/
def Delivery.isFill (d : Delivery) : Bool := eventTypeOf d.message.event = some .fill

/-- The delivery is handled to the end. -/
def succeeds (d : Delivery) (db : Database) : Bool := (UnitOfWork.perform (deliver d) db).1.isOk

/-- The deliveries of a sequence, less those of an execution id that was already handled to the end;
`handled` are the ids handled so far. -/
def withoutRepeats : List Delivery → Database → List ExecutionId → List Delivery
  | [], _, _ => []
  | d :: ds, db, handled =>
    let db' := (UnitOfWork.perform (deliver d) db).2
    if ∃ x ∈ d.message.executionId, x ∈ handled then withoutRepeats ds db' handled
    else if succeeds d db then
      d :: withoutRepeats ds db' (d.message.executionId.toList ++ handled)
    else d :: withoutRepeats ds db' handled

/-! ### The execution ids of the log -/

theorem mem_executionIds {db : Database} {x : ExecutionId} :
    x ∈ db.executionIds ↔ ∃ e ∈ db.orderEvents, e.executionId = some x := by
  simp [Database.executionIds, Table.mem_iff]

theorem Handled.orderEvents {env : Env} {eventType : OrderEventType} {message : TradeUpdate}
    {order : Order} {state : OrderProjectionState} {db db' : Database}
    (h : Handled env eventType message order state db db') :
    (∀ x ∈ (eventOfMessage env order eventType message).executionId, x ∉ db.executionIds) ∧
      db.orderEvents.insert (eventOfMessage env order eventType message) =
        some db'.orderEvents := by
  obtain ⟨-, -, mid, hevent, hlots⟩ := h
  obtain ⟨events, holds, hinsert, hfresh, -, -, rfl⟩ := applyNewEvent_ok hevent
  refine ⟨hfresh, ?_⟩
  rcases hlots with ⟨-, rfl⟩ | ⟨-, x, q, p, -, -, -, hlots⟩
  · exact hinsert
  · rw [hinsert]
    exact congrArg (fun t => some t.2.1) hlots.orderSide.symm

theorem executionIds_of_insert {db db' : Database} {event : OrderEvent}
    (h : db.orderEvents.insert event = some db'.orderEvents) (x : ExecutionId) :
    x ∈ db'.executionIds ↔ x ∈ db.executionIds ∨ event.executionId = some x := by
  simp only [mem_executionIds, Table.mem_insert h]
  constructor
  · rintro ⟨e, he | rfl, hx⟩
    · exact Or.inl ⟨e, he, hx⟩
    · exact Or.inr hx
  · rintro (⟨e, he, hx⟩ | hx)
    · exact ⟨e, Or.inl he, hx⟩
    · exact ⟨event, Or.inr rfl, hx⟩

/-- A fill that is handled to the end is new, and its execution id is in the log afterwards. -/
theorem deliver_fill_ok {d : Delivery} {db db' : Database} {pushed : Option OrderStatus}
    (hfill : d.isFill) (h : (deliver d).run db = .ok (pushed, db')) :
    ∃ x, d.message.executionId = some x ∧ x ∉ db.executionIds ∧
      ∀ y, y ∈ db'.executionIds ↔ y ∈ db.executionIds ∨ y = x := by
  simp only [Delivery.isFill, decide_eq_true_eq] at hfill
  rcases handle_ok h with ⟨hnone, -⟩ | ⟨eventType, order, state, htype, hhandled⟩
  · rw [hnone] at hfill; cases hfill
  · rw [hfill] at htype
    cases htype
    obtain ⟨hfresh, hinsert⟩ := hhandled.orderEvents
    obtain ⟨-, -, mid, -, hlots⟩ := hhandled
    rcases hlots with ⟨hne, -⟩ | ⟨-, x, q, p, hx, -⟩
    · exact absurd rfl hne
    · refine ⟨x, hx, hfresh x (by simp [eventOfMessage, hx]), fun y => ?_⟩
      rw [executionIds_of_insert hinsert]
      simp [eventOfMessage, hx, eq_comm]

/-- **A fill is not repeated**: a delivery whose execution id is in the log changes nothing. -/
theorem fill_not_repeated {d : Delivery} {db : Database} (hfill : d.isFill) {x : ExecutionId}
    (hx : d.message.executionId = some x) (hlog : x ∈ db.executionIds) :
    atomically (deliver d) db = db := by
  rcases atomically_cases (deliver d) db with ⟨pushed, db', hrun, -⟩ | ⟨e, -, heq⟩
  · obtain ⟨y, hy, hfresh, -⟩ := deliver_fill_ok hfill hrun
    rw [hx] at hy
    cases hy
    exact absurd hlog hfresh
  · exact heq

theorem executionIds_mono {d : Delivery} {db : Database} (hfill : d.isFill) {x : ExecutionId}
    (hx : x ∈ db.executionIds) : x ∈ (atomically (deliver d) db).executionIds := by
  rcases atomically_cases (deliver d) db with ⟨pushed, db', hrun, heq⟩ | ⟨e, -, heq⟩
  · obtain ⟨y, -, -, hiff⟩ := deliver_fill_ok hfill hrun
    rw [heq]
    exact (hiff x).mpr (Or.inl hx)
  · rw [heq]; exact hx

/-- After a delivery handled to the end its execution id is in the log. -/
theorem executionIds_of_succeeds {d : Delivery} {db : Database} (hfill : d.isFill)
    (hs : succeeds d db) {x : ExecutionId} (hx : x ∈ d.message.executionId.toList) :
    x ∈ (atomically (deliver d) db).executionIds := by
  rcases atomically_cases (deliver d) db with ⟨pushed, db', hrun, heq⟩ | ⟨e, hrun, -⟩
  · obtain ⟨y, hy, -, hiff⟩ := deliver_fill_ok hfill hrun
    rw [heq, hiff]
    rw [hy] at hx
    simp at hx
    exact Or.inr hx
  · rw [succeeds, UnitOfWork.perform] at hs
    rw [show (deliver d).run (UnitOfWork.enter db).session = _ from hrun] at hs
    cases hs

/-! ### Whole sequences -/

/-- The sequence and the sequence without repeats end in the same database, if the ids taken as
handled are in the log. -/
theorem runs_withoutRepeats : ∀ {ds : List Delivery} {db : Database} {handled : List ExecutionId},
    (∀ d ∈ ds, d.isFill) → (∀ x ∈ handled, x ∈ db.executionIds) →
      runs deliver (withoutRepeats ds db handled) db = runs deliver ds db
  | [], _, _, _, _ => rfl
  | d :: ds, db, handled, hfill, hlog => by
    have hd := hfill d (by simp)
    have hds : ∀ d' ∈ ds, d'.isFill := fun d' h => hfill d' (by simp [h])
    have hlog' : ∀ x ∈ handled, x ∈ (atomically (deliver d) db).executionIds :=
      fun x hx => executionIds_mono hd (hlog x hx)
    simp only [withoutRepeats, UnitOfWork.perform_snd, runs_cons]
    split_ifs with hrepeat hs
    · obtain ⟨x, hx, hmem⟩ := hrepeat
      rw [fill_not_repeated hd hx (hlog x hmem)]
      exact runs_withoutRepeats hds hlog
    · rw [runs_cons]
      refine runs_withoutRepeats hds fun x hx => ?_
      rcases List.mem_append.mp hx with hx | hx
      · exact executionIds_of_succeeds hd hs hx
      · exact hlog' x hx
    · rw [runs_cons]
      exact runs_withoutRepeats hds hlog'

theorem interrupted_raises {d : Delivery} (db : Database) (hfill : d.isFill)
    (hfault : d.fault ≠ none) : ∃ e, (UnitOfWork.perform (deliver d) db).1 = .error e := by
  cases hrun : (deliver d).run db with
  | error e =>
    refine ⟨e, ?_⟩
    rw [UnitOfWork.perform, show (deliver d).run (UnitOfWork.enter db).session = _ from hrun]
  | ok r =>
    exfalso
    obtain ⟨pushed, db'⟩ := r
    simp only [Delivery.isFill, decide_eq_true_eq] at hfill
    simp only [deliver, handle, hfill, handleTracked, interruptible, bind_ok, require_ok] at hrun
    obtain ⟨_, _, -, _, _, -, _, _, ⟨h1, -⟩, _, _, -, _, _, ⟨h2, -⟩, _, _, -, _, _, ⟨h3, -⟩, -⟩ :=
      hrun
    cases hstage : d.fault with
    | none => exact hfault hstage
    | some stage => cases stage <;> simp_all

/-- **No duplicated fill.** A sequence of fill deliveries, with repetitions of any content, ends in
the same database as the sequence without the deliveries of an execution id after its first
successful one; and a delivery that fails, at whichever point, leaves the database as it was. -/
theorem deliveries_without_repeats (ds : List Delivery) (hfill : ∀ d ∈ ds, d.isFill)
    (db : Database) :
    runs deliver ds db = runs deliver (withoutRepeats ds db []) db ∧
      (∀ d ∈ ds, ∀ db e, (UnitOfWork.perform (deliver d) db).1 = .error e →
        (UnitOfWork.perform (deliver d) db).2 = db) ∧
      (∀ d ∈ ds, ∀ db, d.fault ≠ none → (UnitOfWork.perform (deliver d) db).2 = db) := by
  refine ⟨(runs_withoutRepeats hfill (by simp)).symm, fun d _ db e he => ?_, fun d hd db hf => ?_⟩
  · exact UnitOfWork.perform_of_error he
  · obtain ⟨e, he⟩ := interrupted_raises db (hfill d hd) hf
    exact UnitOfWork.perform_of_error he

/-- The account of customer 1 with an order of ten shares, just submitted. -/
def accountWithOrder (side : OrderSide) : Database :=
  { openedAccount 1 with
    orders := ⟨[⟨2, 1, 7, side, shares 10, .submitted, 0, none, none, .trueup 2⟩], by simp⟩
    orderEvents := ⟨[⟨2, 0, .submitted, none, .submission "broker-2", ⟨0, true⟩⟩], by simp⟩
    approvalHolds := ⟨[⟨2, 1, dollars 1000, .released, some ⟨0, true⟩,
      some .approvedAndSubmitted⟩], by simp⟩ }

/-- A fill of the order at microsecond `t`, at 100 a share. -/
def fillDelivery (t : Instant) (executionId : ExecutionId) (quantity : ℚ) : Delivery :=
  ⟨envAt t t.toNat, none,
    ⟨.partialFill, some executionId, .trueup 2, ⟨t, true⟩, some 100, some quantity⟩⟩

/-- A fill delivered twice, the second time with another time and another quantity: it is recorded
once. -/
theorem deliveries_without_repeats_altered :
    withoutRepeats [fillDelivery 5 "exec-1" 4, fillDelivery 6 "exec-1" 3]
        (accountWithOrder .buy) [] = [fillDelivery 5 "exec-1" 4] ∧
      runs deliver [fillDelivery 5 "exec-1" 4, fillDelivery 6 "exec-1" 3] (accountWithOrder .buy) =
        runs deliver [fillDelivery 5 "exec-1" 4] (accountWithOrder .buy) := by
  have hdrop : withoutRepeats [fillDelivery 5 "exec-1" 4, fillDelivery 6 "exec-1" 3]
      (accountWithOrder .buy) [] = [fillDelivery 5 "exec-1" 4] := by
    have h1 : succeeds (fillDelivery 5 "exec-1" 4) (accountWithOrder .buy) = true := by
      decide +kernel
    simp only [withoutRepeats, h1]
    simp [fillDelivery]
  refine ⟨hdrop, ?_⟩
  have h := (deliveries_without_repeats
    [fillDelivery 5 "exec-1" 4, fillDelivery 6 "exec-1" 3] (by decide) (accountWithOrder .buy)).1
  rw [hdrop] at h
  exact h

end Trueup.Orders
