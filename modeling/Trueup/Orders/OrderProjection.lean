import Mathlib.Data.List.Sort
import Trueup.Core.Money
import Trueup.Models.Database

/-! # The order projection

`services/orders/order_projection_service.py` and `approval_hold_service.py`. The status, the filled
quantity and the average price of an order are folded from its events in the order of their `seq`;
a new event is stored, the order is folded again, and the hold is released when the folded status
asks for it.

* `fold_filledQuantity`: the filled quantity is the sum of the fills, in any order.
* `applyNewEvent_ok`: what the arrival of one event did. -/

namespace Trueup.Orders

open Trueup.Core Trueup.Models Trueup.Lib Trueup.Lib.Transaction

/-- `OrderProjectionState`. -/
structure OrderProjectionState where
  status : OrderStatus
  filledQuantity : Units
  averageFillPrice : Option Price
  deriving DecidableEq

/-- The accumulators of `fold`. -/
structure Folded where
  status : OrderStatus
  filledQuantity : Units
  totalNotional : Money
  deriving DecidableEq

/-- The start of `fold`. -/
def Folded.start : Folded := ⟨.approved, 0, 0⟩

/-- The texts of the quantity and the price of a fill. -/
def fillTexts : EventPayload → Option ℚ × Option ℚ
  | .fill quantity price => (quantity, price)
  | _ => (none, none)

/-- The quantity and the price of a fill event. -/
def fillOf (event : OrderEvent) : Except Error (Units × Price) := do
  let quantity ← QuantizedDecimal.ofText (fillTexts event.payload).1
  let price ← QuantizedDecimal.ofText (fillTexts event.payload).2
  return (quantity, price)

/-- The status after a fill. -/
def fillStatus (filledQuantity quantityRequested : Units) : OrderStatus :=
  if quantityRequested ≤ filledQuantity then .filled else .partiallyFilled

/-- One turn of `fold`. -/
def foldStep (quantityRequested : Units) (acc : Folded) (event : OrderEvent) :
    Except Error Folded :=
  match event.eventType with
  | .submitted => .ok { acc with status := .submitted }
  | .accepted => .ok { acc with status := .accepted }
  | .fill => do
    let (fillQuantity, fillPrice) ← fillOf event
    let filledQuantity ← acc.filledQuantity.add fillQuantity
    let notional ← Price.times fillPrice fillQuantity
    let totalNotional ← acc.totalNotional.add notional
    return { status := fillStatus filledQuantity quantityRequested, filledQuantity, totalNotional }
  | .rejected => .ok { acc with status := .rejected }
  | .canceled => .ok { acc with status := .canceled }
  | .expired => .ok { acc with status := .expired }

/-- The loop of `fold` over sorted events. -/
def foldEvents (quantityRequested : Units) : List OrderEvent → Folded → Except Error Folded
  | [], acc => .ok acc
  | event :: events, acc => do
    foldEvents quantityRequested events (← foldStep quantityRequested acc event)

/-- `sorted(events, key=lambda e: e.seq)`. -/
def sortBySeq (events : List OrderEvent) : List OrderEvent :=
  events.insertionSort fun a b => a.seq ≤ b.seq

/-- The average price of the fills, once there are any. -/
def averageFillPrice (acc : Folded) : Except Error (Option Price) :=
  if 0 < acc.filledQuantity then (Money.perUnit acc.totalNotional acc.filledQuantity).map some
  else .ok none

/-- `fold`. -/
def fold (events : List OrderEvent) (quantityRequested : Units) :
    Except Error OrderProjectionState := do
  let acc ← foldEvents quantityRequested (sortBySeq events) .start
  let average ← averageFillPrice acc
  return {
    status := acc.status, filledQuantity := acc.filledQuantity, averageFillPrice := average }

/-! ### Holds -/

/-- `ApprovalHoldService.open`. -/
def openHold (orderId customerId : Uuid) (amountMoney : Money) : Tx Unit :=
  addApprovalHold {
    orderId, customerId, amountMoney, status := .active, releasedAt := none, releaseReason := none }

/-- `ApprovalHoldService.release`: a hold that is not there or already released is left alone. -/
def releaseHold (env : Env) (orderId : Uuid) (reason : ApprovalHoldReleaseReason) : Tx Unit := do
  let found ← read fun db => .ok (db.approvalHolds.find orderId)
  match found with
  | none => return ()
  | some hold =>
    whenever (hold.status = .active) do
      setApprovalHold { hold with
        status := .released, releasedAt := some (env.now .releasedAt), releaseReason := some reason }

/-- The release a folded status asks for: `_release_hold_if_warranted` with
`_RELEASE_REASON_BY_TERMINAL_STATUS`. -/
def releaseReason : OrderStatus → Option ApprovalHoldReleaseReason
  | .submitted => some .approvedAndSubmitted
  | .rejected => some .rejected
  | .canceled => some .canceled
  | .expired => some .expired
  | _ => none

/-- `_release_hold_if_warranted`. -/
def releaseHoldIfWarranted (env : Env) (orderId : Uuid) (status : OrderStatus) : Tx Unit :=
  match releaseReason status with
  | some reason => releaseHold env orderId reason
  | none => return ()

/-! ### The arrival of an event -/

/-- `list_for_order`. -/
def eventsOf (db : Database) (orderId : Uuid) : List OrderEvent :=
  sortBySeq (db.orderEvents.rows.filter (·.orderId = orderId))

/-- `apply_new_event`. -/
def applyNewEvent (env : Env) (order : Order) (event : OrderEvent) : Tx OrderProjectionState := do
  addOrderEvent event
  let state ← read fun db => fold (eventsOf db order.id) order.quantityRequested
  setOrder { order with
    status := state.status
    filledQuantity := state.filledQuantity
    averageFillPrice := state.averageFillPrice }
  releaseHoldIfWarranted env order.id state.status
  return state

/-! ### What the fold computes -/

/-- The quanta of the quantity of a fill event; nothing for other events. -/
def fillQuanta (event : OrderEvent) : ℤ :=
  match event.eventType, fillOf event with
  | .fill, .ok (quantity, _) => quantity.quanta
  | _, _ => 0

theorem fillQuanta_of_ne {event : OrderEvent} (h : event.eventType ≠ .fill) :
    fillQuanta event = 0 := by
  cases htype : event.eventType with
  | fill => exact absurd htype h
  | _ => simp [fillQuanta, htype]

/-- The quanta of the notional of a fill event; nothing for other events. -/
def fillNotional (event : OrderEvent) : ℤ :=
  match event.eventType, fillOf event with
  | .fill, .ok (quantity, price) => notional price quantity
  | _, _ => 0

theorem foldStep_ok {quantityRequested : Units} {acc acc' : Folded} {event : OrderEvent}
    (h : foldStep quantityRequested acc event = .ok acc') :
    acc'.filledQuantity.quanta = acc.filledQuantity.quanta + fillQuanta event ∧
      acc'.totalNotional.quanta = acc.totalNotional.quanta + fillNotional event ∧
      (event.eventType = .fill →
        acc'.status = fillStatus acc'.filledQuantity quantityRequested) := by
  unfold foldStep at h
  split at h
  case h_3 hfill =>
    simp only [except_bind_ok] at h
    obtain ⟨⟨q, p⟩, hq, f, hf, n, hn, t, ht, h⟩ := h
    cases h
    refine ⟨?_, ?_, fun _ => rfl⟩
    · simp only [fillQuanta, hfill, hq]; exact Units.add_ok.mp hf
    · simp only [fillNotional, hfill, hq, ← Price.times_ok.mp hn]; exact Money.add_ok.mp ht
  all_goals
    rename_i htype
    cases h
    simp [fillQuanta, fillNotional, htype]

theorem foldEvents_ok {quantityRequested : Units} : ∀ {events : List OrderEvent}
    {acc acc' : Folded}, foldEvents quantityRequested events acc = .ok acc' →
      acc'.filledQuantity.quanta = acc.filledQuantity.quanta + (events.map fillQuanta).sum ∧
        acc'.totalNotional.quanta = acc.totalNotional.quanta + (events.map fillNotional).sum
  | [], acc, acc', h => by cases h; simp
  | event :: events, acc, acc', h => by
    rw [foldEvents, except_bind_ok] at h
    obtain ⟨acc1, h1, h2⟩ := h
    obtain ⟨hq, hn, -⟩ := foldStep_ok h1
    obtain ⟨hq', hn'⟩ := foldEvents_ok h2
    rw [hq', hn', hq, hn]
    simp [add_assoc]

theorem sortBySeq_perm (events : List OrderEvent) : (sortBySeq events).Perm events :=
  List.perm_insertionSort _ _

theorem fold_ok {events : List OrderEvent} {quantityRequested : Units}
    {state : OrderProjectionState} (h : fold events quantityRequested = .ok state) :
    ∃ acc, foldEvents quantityRequested (sortBySeq events) .start = .ok acc ∧
      state.status = acc.status ∧ state.filledQuantity = acc.filledQuantity := by
  simp only [fold, except_bind_ok] at h
  obtain ⟨acc, hacc, avg, -, h⟩ := h
  cases h
  exact ⟨acc, hacc, rfl, rfl⟩

/-- **The filled quantity is the sum of the fills**, whatever the order of the events. -/
theorem fold_filledQuantity {events : List OrderEvent} {quantityRequested : Units}
    {state : OrderProjectionState} (h : fold events quantityRequested = .ok state) :
    state.filledQuantity.quanta = (events.map fillQuanta).sum := by
  obtain ⟨acc, hacc, -, hfill⟩ := fold_ok h
  rw [hfill, (foldEvents_ok hacc).1, ((sortBySeq_perm events).map fillQuanta).sum_eq]
  simp [Folded.start]

theorem averageFillPrice_of_unfilled {events : List OrderEvent} {quantityRequested : Units}
    {state : OrderProjectionState} (h : fold events quantityRequested = .ok state)
    (hfilled : state.filledQuantity.quanta = 0) : state.averageFillPrice = none := by
  simp only [fold, except_bind_ok] at h
  obtain ⟨acc, -, average, haverage, h⟩ := h
  cases h
  have hnot : ¬ 0 < acc.filledQuantity := by
    rw [QuantizedDecimal.lt_def, hfilled]
    exact lt_irrefl _
  rw [averageFillPrice, if_neg hnot] at haverage
  exact (Except.ok.inj haverage).symm

/-! ### What the arrival of an event did -/

theorem releaseHold_ok {env : Env} {orderId : Uuid} {reason : ApprovalHoldReleaseReason}
    {db db' : Database} {u : Unit} (h : (releaseHold env orderId reason).run db = .ok (u, db')) :
    (db' = db ∧ ∀ hold ∈ db.approvalHolds, hold.orderId = orderId → hold.status = .released) ∨
      ∃ hold ∈ db.approvalHolds, hold.orderId = orderId ∧ hold.status = .active ∧
        db' = { db with approvalHolds := db.approvalHolds.set { hold with
          status := .released, releasedAt := some (env.now .releasedAt)
          releaseReason := some reason } } := by
  simp only [releaseHold, bind_ok, read_ok] at h
  obtain ⟨found, _, ⟨hfound, rfl⟩, h⟩ := h
  cases hfound
  split at h
  · rename_i hnone
    obtain ⟨-, rfl⟩ := pure_ok.mp h
    refine Or.inl ⟨rfl, fun hold hmem hid => absurd (Table.has_of_mem hmem) ?_⟩
    rw [hid]
    exact Table.find_eq_none.mp hnone
  · rename_i hold hsome
    obtain ⟨hmem, hid⟩ := Table.find_eq_some.mp hsome
    rw [whenever] at h
    split_ifs at h with hactive
    · exact Or.inr ⟨hold, hmem, hid, hactive, setApprovalHold_ok.mp h⟩
    · obtain ⟨-, rfl⟩ := pure_ok.mp h
      refine Or.inl ⟨rfl, fun hold' hmem' hid' => ?_⟩
      obtain rfl := Table.eq_of_key_eq hmem' hmem (hid'.trans hid.symm)
      cases hs : hold'.status with
      | active => exact absurd hs hactive
      | released => rfl

/-- What a release that a status asks for can do to the holds. -/
def HoldReleased (env : Env) (orderId : Uuid) (status : OrderStatus)
    (holds holds' : Table ApprovalHold.orderId) : Prop :=
  (holds' = holds ∧ (releaseReason status = none ∨
      ∀ hold ∈ holds, hold.orderId = orderId → hold.status = .released)) ∨
    ∃ hold ∈ holds, ∃ reason, hold.orderId = orderId ∧ hold.status = .active ∧
      releaseReason status = some reason ∧ holds' = holds.set { hold with
        status := .released, releasedAt := some (env.now .releasedAt)
        releaseReason := some reason }

/-- The holds after a release are decided by the holds before it. -/
theorem HoldReleased.unique {env : Env} {orderId : Uuid} {status : OrderStatus}
    {holds a b : Table ApprovalHold.orderId} (ha : HoldReleased env orderId status holds a)
    (hb : HoldReleased env orderId status holds b) : a = b := by
  have hone : ∀ hold ∈ holds, hold.orderId = orderId → hold.status = .active →
      ¬ ∀ hold ∈ holds, hold.orderId = orderId → hold.status = .released := by
    intro hold hmem hid hactive hall
    rw [hall hold hmem hid] at hactive
    cases hactive
  rcases ha with ⟨rfl, hkept⟩ | ⟨hold, hmem, reason, hid, hactive, hreason, rfl⟩
  · rcases hb with ⟨rfl, -⟩ | ⟨hold, hmem, reason, hid, hactive, hreason, -⟩
    · rfl
    · rw [hreason] at hkept
      exact absurd (hkept.resolve_left (by simp)) (hone hold hmem hid hactive)
  · rcases hb with ⟨-, hkept⟩ | ⟨hold', hmem', reason', hid', -, hreason', rfl⟩
    · rw [hreason] at hkept
      exact absurd (hkept.resolve_left (by simp)) (hone hold hmem hid hactive)
    · obtain rfl := Table.eq_of_key_eq hmem hmem' (hid.trans hid'.symm)
      obtain rfl := Option.some.inj (hreason.symm.trans hreason')
      rfl

theorem releaseHoldIfWarranted_ok {env : Env} {orderId : Uuid} {status : OrderStatus}
    {db db' : Database} {u : Unit}
    (h : (releaseHoldIfWarranted env orderId status).run db = .ok (u, db')) :
    ∃ holds, HoldReleased env orderId status db.approvalHolds holds ∧
      db' = { db with approvalHolds := holds } := by
  unfold releaseHoldIfWarranted at h
  split at h
  · rename_i reason hreason
    rcases releaseHold_ok h with ⟨rfl, hrel⟩ | ⟨hold, hmem, hid, hactive, rfl⟩
    · exact ⟨_, Or.inl ⟨rfl, Or.inr hrel⟩, rfl⟩
    · exact ⟨_, Or.inr ⟨hold, hmem, reason, hid, hactive, hreason, rfl⟩, rfl⟩
  · rename_i hnone
    obtain ⟨-, rfl⟩ := pure_ok.mp h
    exact ⟨_, Or.inl ⟨rfl, Or.inl hnone⟩, rfl⟩

/-- The order with the folded fields. -/
def projected (order : Order) (state : OrderProjectionState) : Order :=
  { order with
    status := state.status
    filledQuantity := state.filledQuantity
    averageFillPrice := state.averageFillPrice }

/-- **What the arrival of an event did**: the event is stored under a fresh `seq` and execution id,
the order carries the fold of all its events, and its hold may be released. -/
theorem applyNewEvent_ok {env : Env} {order : Order} {event : OrderEvent} {db db' : Database}
    {state : OrderProjectionState}
    (h : (applyNewEvent env order event).run db = .ok (state, db')) :
    ∃ events holds, db.orderEvents.insert event = some events ∧
      (∀ x ∈ event.executionId, x ∉ db.executionIds) ∧
      fold (sortBySeq (events.rows.filter (·.orderId = order.id))) order.quantityRequested =
        .ok state ∧
      HoldReleased env order.id state.status db.approvalHolds holds ∧
      db' = { db with
        orderEvents := events
        orders := db.orders.set (projected order state)
        approvalHolds := holds } := by
  simp only [applyNewEvent, bind_ok, addOrderEvent_ok, read_ok, setOrder_ok, pure_ok] at h
  obtain ⟨_, _, ⟨-, hexec, events, hevents, rfl⟩, st, _, ⟨hfold, rfl⟩, _, _, rfl, _, _, hrel, rfl,
    rfl⟩ := h
  obtain ⟨holds, hholds, rfl⟩ := releaseHoldIfWarranted_ok hrel
  exact ⟨events, holds, hevents, hexec, hfold, hholds, rfl⟩

end Trueup.Orders
