import Trueup.Cash.Commitments

/-! # Stranded holds

A hold is released as a side effect of the folded status of its order: when the status is
`submitted` or terminal at the moment some event arrives. An acceptance or a fill that arrives
before the order's own `submitted` event is committed skips that moment, and nothing releases the
hold afterwards: the retried submission finds the order no longer approved and returns.

`no_stranded_hold`: as long as no acceptance and no fill is delivered to an order that still waits,
an active hold is the hold of an order that waits. A unit of work may be cut off before its commit
at any point of the run, in particular a submission after the broker took the order. -/

namespace Trueup.Cash

open Trueup.Core Trueup.Models Trueup.Lib Trueup.Lib.Transaction Trueup.Orders Trueup.System

/-- A unit of work, and whether the process dies after its last statement, before the commit. -/
structure Attempt where
  step : Step
  crashes : Bool

/-- The body of an attempt. -/
def attempt (a : Attempt) : Tx Unit := do
  body a.step
  require (a.crashes = false) .interrupted

/-- An active hold is the hold of an order that waits. -/
def NoStrandedHold (db : Database) : Prop :=
  ∀ hold ∈ db.approvalHolds, hold.status = .active →
    ∀ order ∈ db.orders, order.id = hold.orderId → IsWaiting order

/-- An acceptance or a fill, which leaves a status that releases no hold. -/
def skipsRelease (message : TradeUpdate) : Bool :=
  eventTypeOf message.event = some .accepted ∨ eventTypeOf message.event = some .fill

/-- No acceptance and no fill is delivered to an order that waits. -/
def SubmittedFirst (db : Database) (a : Attempt) : Prop :=
  match a.step.op with
  | .tradeUpdate _ message => skipsRelease message →
      ∀ order ∈ findByClientOrderId db message.clientOrderId,
        order.status ≠ .awaitingApproval ∧ order.status ≠ .approved
  | _ => True

instance (db : Database) (a : Attempt) : Decidable (SubmittedFirst db a) := by
  unfold SubmittedFirst; split <;> infer_instance

/-- No hold is stranded, and an order that waits has no events. -/
structure HoldsWait (db : Database) : Prop where
  none_stranded : NoStrandedHold db
  quiet : ∀ o ∈ db.orders, IsWaiting o → ∀ e ∈ db.orderEvents, e.orderId ≠ o.id
  events_known : ∀ e ∈ db.orderEvents, db.orders.Has e.orderId

theorem HoldsWait.frame {db db' : Database} (h : HoldsWait db)
    (hside : orderSide db' = orderSide db) : HoldsWait db' := by
  simp only [orderSide, Prod.mk.injEq] at hside
  obtain ⟨horders, hevents, hholds⟩ := hside
  constructor
  · unfold NoStrandedHold
    rw [horders, hholds]
    exact h.none_stranded
  · rw [horders, hevents]; exact h.quiet
  · rw [horders, hevents]; exact h.events_known

/-! ### Orders -/

theorem HoldsWait.placed {db db' : Database} {env : Env} {request : OrderCreationRequest}
    {designatedLotIds : Option (List Uuid)} {placed : Order} (h : HoldsWait db)
    (hrun : (placeOrder env request designatedLotIds).run db = .ok (placed, db')) :
    HoldsWait db' := by
  obtain ⟨created, mid, hcreate, hplaced, heq⟩ := placeOrder_ok hrun
  obtain ⟨amount, orders, holds, -, hcreated, -, horders, hholds, hmid⟩ := createOrder_ok hcreate
  have hid : placed.id = created.id := by rw [hplaced]
  have hwaiting : IsWaiting placed := by
    rw [IsWaiting, hplaced, hcreated]
    simp only [newOrder, initialStatus]
    split_ifs <;> simp
  have hfree := (Table.insert_eq_some.mp horders).1
  have hheld := (Table.insert_eq_some.mp hholds).1
  have hmem : ∀ o ∈ db'.orders, (o ∈ db.orders ∧ o.id ≠ placed.id) ∨ o = placed := by
    intro o ho
    rw [heq, hmid] at ho
    rcases Table.mem_set.mp ho with ⟨ho, hne⟩ | ⟨rfl, -⟩
    · rcases (Table.mem_insert horders).mp ho with ho | rfl
      · exact Or.inl ⟨ho, hne⟩
      · exact absurd hid.symm hne
    · exact Or.inr rfl
  constructor
  · intro hold hhold hactive o ho hkey
    rcases hmem o ho with ⟨ho, hne⟩ | rfl
    · rw [heq, hmid] at hhold
      rcases (Table.mem_insert hholds).mp hhold with hhold | rfl
      · exact h.none_stranded hold hhold hactive o ho hkey
      · exact absurd (hkey.trans hid.symm) hne
    · exact hwaiting
  · intro o ho hw e he
    rw [heq, hmid] at he
    rcases hmem o ho with ⟨ho, -⟩ | rfl
    · exact h.quiet o ho hw e he
    · rw [hid]
      exact fun heq => hfree (heq ▸ h.events_known e he)
  · intro e he
    rw [heq, hmid] at he ⊢
    exact (Table.has_set _).mpr ((Table.has_insert horders _).mpr (Or.inl (h.events_known e he)))

theorem HoldsWait.approved {db db' : Database} {orderId : Uuid} {order : Order} (h : HoldsWait db)
    (hrun : (approve orderId).run db = .ok (order, db')) : HoldsWait db' := by
  obtain ⟨before, hbefore, -, hstatus, horder, heq⟩ := approve_ok hrun
  have hid : before.id = order.id := by rw [horder]
  have hmem : ∀ o ∈ db'.orders, o ∈ db.orders ∨ o = order := by
    intro o ho
    rw [heq] at ho
    rcases Table.mem_set.mp ho with ⟨ho, -⟩ | ⟨rfl, -⟩
    · exact Or.inl ho
    · exact Or.inr rfl
  constructor
  · intro hold hhold hactive o ho hkey
    rw [heq] at hhold
    rcases hmem o ho with ho | rfl
    · exact h.none_stranded hold hhold hactive o ho hkey
    · rw [horder]; exact Or.inr rfl
  · intro o ho hw e he
    rw [heq] at he
    rcases hmem o ho with ho | rfl
    · exact h.quiet o ho hw e he
    · rw [← hid]; exact h.quiet before hbefore (Or.inl hstatus) e he
  · intro e he
    rw [heq] at he ⊢
    exact (Table.has_set _).mpr (h.events_known e he)

/-! ### The arrival of an event -/

section Arrival
variable {env : Env} {order : Order} {event : OrderEvent} {db db' : Database}
  {state : OrderProjectionState}

/-- A release that the status asks for leaves no active hold of the order. -/
theorem hold_released_of_reason {holds holds' : Table ApprovalHold.orderId} {orderId : Uuid}
    {status : OrderStatus} (hreason : releaseReason status ≠ none)
    (h : HoldReleased env orderId status holds holds') :
    ∀ hold ∈ holds', hold.orderId = orderId → hold.status = .released := by
  intro hold hhold hkey
  rcases h with ⟨rfl, hsame⟩ | ⟨before, hmem, reason, hid, -, -, rfl⟩
  · exact hsame.resolve_left hreason hold hhold hkey
  · rcases Table.mem_set.mp hhold with ⟨-, hne⟩ | ⟨rfl, -⟩
    · exact absurd (hkey.trans hid.symm) hne
    · rfl

/-- An event keeps the holds in order if its order no longer waits, or the event is one that
releases the hold of an order that waits. -/
theorem HoldsWait.arrival (h : HoldsWait db) (hmem : order ∈ db.orders)
    (hid : event.orderId = order.id)
    (hrelease : IsWaiting order → event.eventType ≠ .accepted ∧ event.eventType ≠ .fill)
    (hrun : (applyNewEvent env order event).run db = .ok (state, db')) : HoldsWait db' := by
  have hnot := applyNewEvent_not_waiting hid hrun
  obtain ⟨events, holds, hevents, -, -, hrel, heq⟩ := applyNewEvent_ok hrun
  have horders : ∀ o ∈ db'.orders,
      (o ∈ db.orders ∧ o.id ≠ order.id) ∨ o = projected order state := by
    intro o ho
    rw [heq] at ho
    rcases Table.mem_set.mp ho with hold | ⟨rfl, -⟩
    · exact Or.inl hold
    · exact Or.inr rfl
  have hrel' : HoldReleased env order.id state.status db.approvalHolds db'.approvalHolds := by
    rw [heq]; exact hrel
  constructor
  · intro hold hhold hactive o ho hkey
    rcases horders o ho with ⟨ho, hne⟩ | rfl
    · obtain ⟨before, hbefore, -, hsame⟩ := hold_before_release hrel' hhold
      obtain rfl := hsame (hkey.symm.trans_ne hne)
      exact h.none_stranded hold hbefore hactive o ho hkey
    · -- the hold of the event's own order is released, before the event or by it
      exfalso
      have hreleased : ∀ hold ∈ db'.approvalHolds, hold.orderId = order.id →
          hold.status = .released := by
        by_cases hw : IsWaiting order
        · refine hold_released_of_reason ?_ hrel'
          have hquiet := h.quiet order hmem hw
          rw [applyNewEvent_newest hid (fun e he heid => absurd heid (hquiet e he)) hrun]
          obtain ⟨hne, hne'⟩ := hrelease hw
          cases htype : event.eventType with
          | accepted => exact absurd htype hne
          | fill => exact absurd htype hne'
          | _ => simp [statusAfter, htype, releaseReason]
        · have hbefore : ∀ hold ∈ db.approvalHolds, hold.orderId = order.id →
              hold.status = .released := by
            intro hold hhold hkey
            cases hs : hold.status with
            | active => exact absurd (h.none_stranded hold hhold hs order hmem hkey.symm) hw
            | released => rfl
          rcases hrel' with ⟨hsame, -⟩ | ⟨hold, hhold, reason, hkey, hactive, -, -⟩
          · rw [hsame]; exact hbefore
          · rw [hbefore hold hhold hkey] at hactive
            cases hactive
      rw [hreleased hold hhold hkey.symm] at hactive
      cases hactive
  · intro o ho hw e he
    rcases horders o ho with ⟨ho, hne⟩ | rfl
    · rw [heq] at he
      rcases (Table.mem_insert hevents).mp he with he | rfl
      · exact h.quiet o ho hw e he
      · rw [hid]; exact fun e => hne e.symm
    · exact absurd hw hnot
  · intro e he
    rw [heq] at he ⊢
    rw [Table.has_set]
    rcases (Table.mem_insert hevents).mp he with he | rfl
    · exact h.events_known e he
    · rw [hid]; exact Table.has_of_mem hmem

end Arrival

theorem handle_holdsWait {env : Env} {fault : Option HandleStage} {message : TradeUpdate}
    {db db' : Database} {pushed : Option OrderStatus} (h : HoldsWait db)
    (hfirst : skipsRelease message → ∀ order ∈ findByClientOrderId db message.clientOrderId,
      order.status ≠ .awaitingApproval ∧ order.status ≠ .approved)
    (hrun : (handle env fault message).run db = .ok (pushed, db')) : HoldsWait db' := by
  rcases handle_ok hrun with ⟨-, rfl⟩ | ⟨eventType, order, state, htype, hmem, hfound, mid, happly,
    hlots⟩
  · exact h
  have hmid : HoldsWait mid := by
    refine h.arrival hmem rfl (fun hw => ?_) happly
    constructor
    all_goals
      rintro rfl
      obtain ⟨hne, hne'⟩ := hfirst (by simp [skipsRelease, htype]) order hfound
      exact hw.elim hne hne'
  rcases hlots with ⟨-, rfl⟩ | ⟨-, x, q, p, -, -, -, hlots⟩
  · exact hmid
  · exact hmid.frame hlots.orderSide

/-! ### Runs -/

/-- **The step lemma.** -/
theorem attempt_holdsWait {db db' : Database} {a : Attempt} {u : Unit} (h : HoldsWait db)
    (hfirst : SubmittedFirst db a) (hrun : (attempt a).run db = .ok (u, db')) : HoldsWait db' := by
  obtain ⟨_, _, hbody, hrequire⟩ := bind_ok.mp hrun
  obtain ⟨-, rfl⟩ := require_ok.mp hrequire
  obtain ⟨⟨env, op⟩, crashes⟩ := a
  cases op with
  | initiateDeposit customerId amount =>
    obtain ⟨r, hrun⟩ := discard_ok hbody
    exact h.frame (initiateDeposit_posts hrun).2.orders.1
  | confirmSettlement obligationId =>
    obtain ⟨v, -, hs⟩ := confirmSettlement_settles hbody
    exact h.frame hs.orders.1
  | applyAchReturn obligationId =>
    obtain ⟨v, mid, -, hs, hp⟩ := applyAchReturn_settles hbody
    exact (h.frame hs.orders.1).frame hp.orders.1
  | initiateWithdrawal customerId amount =>
    obtain ⟨r, hrun⟩ := discard_ok hbody
    exact h.frame (initiateWithdrawal_posts hrun).orders.1
  | placeOrder request designatedLotIds =>
    obtain ⟨r, hrun⟩ := discard_ok hbody
    exact h.placed hrun
  | approve orderId =>
    obtain ⟨r, hrun⟩ := discard_ok hbody
    exact h.approved hrun
  | submitToBroker orderId broker =>
    rcases submitToBroker_ok hbody with rfl | ⟨order, hmem, event, state, hstatus, hid, -, htype,
      happly⟩
    · exact h
    · refine h.arrival hmem hid (fun _ => ?_) happly
      rcases htype with htype | htype <;> simp [htype]
  | tradeUpdate fault message =>
    obtain ⟨r, hrun⟩ := discard_ok hbody
    exact handle_holdsWait h hfirst hrun
  | applySplit securityId ratio effectiveDate => exact h.frame (applySplit_unseen hbody).2.1

theorem holdsWait_of_fresh {db : Database} (h : Fresh db) : HoldsWait db := by
  constructor
  · intro hold hhold; rw [h.approvalHolds] at hhold; cases hhold
  · intro o ho; rw [h.orders] at ho; cases ho
  · intro e he; rw [h.orderEvents] at he; cases he

/-- **No stranded hold** in a run in which no acceptance and no fill is delivered to an order that
waits: an active hold is the hold of an order that awaits approval or submission. -/
theorem no_stranded_hold (attempts : List Attempt) {db : Database} (h : Fresh db)
    (hfirst : RunMeets attempt SubmittedFirst attempts db) :
    ∀ hold ∈ (runs attempt attempts db).approvalHolds, hold.status = .active →
      ∀ order ∈ (runs attempt attempts db).orders, order.id = hold.orderId →
        order.status = .awaitingApproval ∨ order.status = .approved := by
  have hwait : HoldsWait (runs attempt attempts db) := by
    refine runs_keeps_of_meets ?_ attempts (holdsWait_of_fresh h) hfirst
    intro mid a u mid' hmid hstep hrun
    exact attempt_holdsWait hmid hstep hrun
  exact hwait.none_stranded

/-- Customer 1 deposits 1500 and orders ten shares at 100; the first attempt to submit is cut off
after the broker took the order, and `events` follow. -/
def crashedSubmission (events : List Attempt) : List Attempt := [
  ⟨⟨envAt 1 1, .initiateDeposit 1 (dollars 1500)⟩, false⟩,
  ⟨⟨envAt 2 2, .confirmSettlement 1⟩, false⟩,
  ⟨⟨envAt 3 3, .placeOrder ⟨1, 7, .buy, shares 10, dollarsPerShare 100⟩ none⟩, false⟩,
  ⟨⟨envAt 4 4, .submitToBroker 3 (.ok "b")⟩, true⟩] ++ events

/-- The retried submission. -/
def retry (t : Instant) : Attempt := ⟨⟨envAt t 5, .submitToBroker 3 (.ok "b")⟩, false⟩

/-- The broker's acceptance of the order. -/
def acceptance (t : Instant) : Attempt :=
  ⟨⟨envAt t 6, .tradeUpdate none ⟨.new, none, .trueup 3, ⟨t, true⟩, none, none⟩⟩, false⟩

theorem no_stranded_hold_retry_first :
    (runs attempt (crashedSubmission [retry 5, acceptance 6]) (openedAccount 1)).orders.rows.map
        (·.status) = [.accepted] ∧
    ∀ hold ∈ (runs attempt (crashedSubmission [retry 5, acceptance 6])
      (openedAccount 1)).approvalHolds, hold.status = .active →
      ∀ order ∈ (runs attempt (crashedSubmission [retry 5, acceptance 6]) (openedAccount 1)).orders,
        order.id = hold.orderId → order.status = .awaitingApproval ∨ order.status = .approved :=
  ⟨by decide +kernel, no_stranded_hold _ (fresh_openedAccount 1) (by decide +kernel)⟩

/-- The acceptance comes in before the retry: the order is accepted, its hold stays active, and the
retry changes nothing. -/
theorem acceptance_before_retry_strands :
    ¬ ∀ hold ∈ (runs attempt (crashedSubmission [acceptance 5, retry 6])
      (openedAccount 1)).approvalHolds, hold.status = .active →
      ∀ order ∈ (runs attempt (crashedSubmission [acceptance 5, retry 6]) (openedAccount 1)).orders,
        order.id = hold.orderId → order.status = .awaitingApproval ∨ order.status = .approved := by
  intro h
  have hrows : ∃ hold ∈ (runs attempt (crashedSubmission [acceptance 5, retry 6])
      (openedAccount 1)).approvalHolds.rows, hold.status = .active ∧
      ∃ order ∈ (runs attempt (crashedSubmission [acceptance 5, retry 6])
        (openedAccount 1)).orders.rows, order.id = hold.orderId ∧ order.status = .accepted := by
    decide +kernel
  obtain ⟨hold, hhold, hactive, order, horder, hkey, hstatus⟩ := hrows
  have hwaiting := h hold hhold hactive order horder hkey
  rw [hstatus] at hwaiting
  simp at hwaiting

end Trueup.Cash
