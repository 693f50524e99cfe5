import Trueup.Cash.Settled
import Trueup.Orders.OrderStatus

/-! # What the orders lay claim to

An order lays claim to cash twice in its life: by its active hold until it is submitted, and by what
it may still draw while it is open. The first is `holdQuanta`, the second `drawQuanta`: the amount
of the hold less what the fills have cost.

`Backed` says how the two hand over: an order that waits has an active hold and no events, and no
open buy order has drawn more than its hold. `applyNewEvent_submission` and `applyNewEvent_fill`
say what the arrival of an event does to the claims. -/

namespace Trueup.Cash

open Trueup.Core Trueup.Models Trueup.Lib Trueup.Lib.Transaction Trueup.Ledger Trueup.Orders

/-- The amount of the hold of an order, active or released. -/
def heldFor (db : Database) (orderId : Uuid) : ℤ :=
  ((db.approvalHolds.find orderId).map (·.amountMoney.quanta)).getD 0

/-- The share of an event in what the fills of an order have cost. -/
def spentShare (orderId : Uuid) (event : OrderEvent) : ℤ :=
  if event.orderId = orderId then fillNotional event else 0

/-- What the fills of an order have cost. -/
def spentOn (db : Database) (orderId : Uuid) : ℤ := db.orderEvents.total (spentShare orderId)

/-- What an order may still draw. -/
def unspent (db : Database) (orderId : Uuid) : ℤ := heldFor db orderId - spentOn db orderId

/-- The share of an order in what the open buy orders of a customer may still draw. -/
def drawShare (db : Database) (customerId : Uuid) (order : Order) : ℤ :=
  if order.customerId = customerId ∧ order.side = .buy ∧ order.status.isOpen then
    unspent db order.id else 0

/-- What the open buy orders of a customer may still draw. -/
def drawQuanta (db : Database) (customerId : Uuid) : ℤ := db.orders.total (drawShare db customerId)

/-- An order that is not submitted yet. -/
def IsWaiting (order : Order) : Prop :=
  order.status = .awaitingApproval ∨ order.status = .approved

theorem IsWaiting.not_isOpen {order : Order} (h : IsWaiting order) : order.status.isOpen = false := by
  rcases h with h | h <;> rw [h] <;> rfl

/-- Every order has its hold, an order that waits has an active one and no events, and no open buy
order has drawn more than its hold. -/
structure Backed (db : Database) : Prop where
  held : ∀ o ∈ db.orders, ∃ hold ∈ db.approvalHolds,
    hold.orderId = o.id ∧ hold.customerId = o.customerId
  holds_nonneg : ∀ hold ∈ db.approvalHolds, 0 ≤ hold.amountMoney.quanta
  events_known : ∀ e ∈ db.orderEvents, db.orders.Has e.orderId
  active : ∀ o ∈ db.orders, IsWaiting o → ∀ hold ∈ db.approvalHolds, hold.orderId = o.id →
    hold.status = .active
  quiet : ∀ o ∈ db.orders, IsWaiting o → ∀ e ∈ db.orderEvents, e.orderId ≠ o.id
  unspent_nonneg : ∀ o ∈ db.orders, o.side = .buy → o.status.isOpen → 0 ≤ unspent db o.id

section Figures
variable {db : Database}

theorem heldFor_of_mem {hold : ApprovalHold} (h : hold ∈ db.approvalHolds) :
    heldFor db hold.orderId = hold.amountMoney.quanta := by
  rw [heldFor, Table.find_eq_some.mpr ⟨h, rfl⟩]
  rfl

theorem Backed.heldFor_nonneg (h : Backed db) {o : Order} (ho : o ∈ db.orders) :
    0 ≤ heldFor db o.id := by
  obtain ⟨hold, hhold, hid, -⟩ := h.held o ho
  rw [← hid, heldFor_of_mem hhold]
  exact h.holds_nonneg hold hhold

theorem spentOn_of_quiet {orderId : Uuid} (h : ∀ e ∈ db.orderEvents, e.orderId ≠ orderId) :
    spentOn db orderId = 0 := by
  have hzero : ∀ e ∈ db.orderEvents, spentShare orderId e = 0 := fun e he => if_neg (h e he)
  rw [spentOn, Table.total_congr hzero]
  simp [Table.total]

theorem drawQuanta_nonneg (h : Backed db) (customerId : Uuid) : 0 ≤ drawQuanta db customerId := by
  refine Table.total_nonneg fun o ho => ?_
  unfold drawShare
  split_ifs with hopen
  · exact h.unspent_nonneg o ho hopen.2.1 hopen.2.2
  · exact le_rfl

theorem holdQuanta_nonneg (h : Backed db) (customerId : Uuid) : 0 ≤ holdQuanta db customerId := by
  refine Table.total_nonneg fun hold hhold => ?_
  unfold holdShare
  split_ifs
  · exact h.holds_nonneg hold hhold
  · exact le_rfl

theorem drawShare_of_waiting {o : Order} (h : IsWaiting o) (customerId : Uuid) :
    drawShare db customerId o = 0 := by
  rw [drawShare, if_neg]
  rintro ⟨-, -, hopen⟩
  rw [h.not_isOpen] at hopen
  cases hopen

end Figures

/-! ### Frames -/

section Frames
variable {db db' : Database} (hside : orderSide db' = orderSide db)
include hside

theorem claims_congr (customerId : Uuid) : holdQuanta db' customerId = holdQuanta db customerId ∧
    drawQuanta db' customerId = drawQuanta db customerId := by
  simp only [orderSide, Prod.mk.injEq] at hside
  obtain ⟨horders, hevents, hholds⟩ := hside
  constructor
  · rw [holdQuanta, hholds, holdQuanta]
  · rw [drawQuanta, drawQuanta, horders]
    refine Table.total_congr fun o _ => ?_
    simp only [drawShare, unspent, heldFor, spentOn, hevents, hholds]

theorem Backed.frame (h : Backed db) : Backed db' := by
  simp only [orderSide, Prod.mk.injEq] at hside
  obtain ⟨horders, hevents, hholds⟩ := hside
  constructor
  · rw [horders, hholds]; exact h.held
  · rw [hholds]; exact h.holds_nonneg
  · rw [horders, hevents]; exact h.events_known
  · rw [horders, hholds]; exact h.active
  · rw [horders, hevents]; exact h.quiet
  · simp only [unspent, heldFor, spentOn, horders, hevents, hholds]; exact h.unspent_nonneg

end Frames

/-! ### A release -/

section Release
variable {env : Env} {orderId : Uuid} {status : OrderStatus} {db db' : Database}
  (h : HoldReleased env orderId status db.approvalHolds db'.approvalHolds)
include h

/-- Either no hold changes, or one goes from active to released. -/
theorem released_cases :
    (db'.approvalHolds = db.approvalHolds ∧ (releaseReason status = none ∨
      ∀ hold ∈ db.approvalHolds, hold.orderId = orderId → hold.status = .released)) ∨
    ∃ hold ∈ db.approvalHolds, ∃ hold', hold.orderId = orderId ∧ hold.status = .active ∧
      hold'.orderId = hold.orderId ∧ hold'.customerId = hold.customerId ∧
      hold'.amountMoney = hold.amountMoney ∧ hold'.status = .released ∧
      db'.approvalHolds = db.approvalHolds.set hold' := by
  rcases h with hsame | ⟨hold, hmem, reason, hid, hactive, -, heq⟩
  · exact Or.inl hsame
  · refine Or.inr ⟨hold, hmem, { hold with
      status := .released, releasedAt := some (env.now .releasedAt)
      releaseReason := some reason }, hid, hactive, rfl, rfl, rfl, rfl, heq⟩

theorem held_of_released {o : Order}
    (ho : ∃ hold ∈ db.approvalHolds, hold.orderId = o.id ∧ hold.customerId = o.customerId) :
    ∃ hold ∈ db'.approvalHolds, hold.orderId = o.id ∧ hold.customerId = o.customerId := by
  rcases released_cases h with ⟨heq, -⟩ | ⟨hold, hmem, hold', -, -, hkey, hcustomer, -, -, heq⟩
  · rw [heq]; exact ho
  · rw [heq]
    refine Table.exists_mem_set hmem hkey.symm (fun hown => ?_) ho
    exact ⟨hkey.trans hown.1, hcustomer.trans hown.2⟩

/-- A hold after the release is one from before, and another order's hold is as it was. -/
theorem hold_before_release {hold' : ApprovalHold} (hmem' : hold' ∈ db'.approvalHolds) :
    ∃ hold ∈ db.approvalHolds, hold'.amountMoney = hold.amountMoney ∧
      (hold'.orderId ≠ orderId → hold' = hold) := by
  rcases released_cases h with ⟨heq, -⟩ | ⟨hold, hmem, changed, hid, -, hkey, -, hamount, -, heq⟩
  · rw [heq] at hmem'
    exact ⟨hold', hmem', rfl, fun _ => rfl⟩
  · rw [heq] at hmem'
    rcases Table.mem_set.mp hmem' with ⟨hbefore, -⟩ | ⟨rfl, -⟩
    · exact ⟨hold', hbefore, rfl, fun _ => rfl⟩
    · exact ⟨hold, hmem, hamount, fun hne => absurd (hkey.trans hid) hne⟩

theorem heldFor_released (id : Uuid) : heldFor db' id = heldFor db id := by
  rcases released_cases h with ⟨heq, -⟩ | ⟨hold, hmem, changed, -, -, hkey, -, hamount, -, heq⟩
  · rw [heldFor, heq, heldFor]
  · rw [heldFor, heq, Table.find_set (hkey ▸ Table.has_of_mem hmem)]
    split_ifs with hid
    · rw [← hid, hkey, heldFor_of_mem hmem, ← hamount]
      rfl
    · rfl

theorem holdQuanta_released_le (hb : Backed db) (customerId : Uuid) :
    holdQuanta db' customerId ≤ holdQuanta db customerId := by
  rcases released_cases h with ⟨heq, -⟩ | ⟨hold, hmem, changed, -, -, hkey, -, -, hstatus, heq⟩
  · rw [holdQuanta, heq, holdQuanta]
  · have hnonneg := hb.holds_nonneg hold hmem
    rw [holdQuanta, heq, Table.total_set hmem hkey.symm, holdQuanta, holdShare, holdShare, hstatus]
    simp only [reduceCtorEq, and_false, if_false]
    split_ifs <;> omega

/-- The active hold of an order whose status asks for the release no longer counts. -/
theorem holdQuanta_released {order : Order} (hb : Backed db) (hmem : order ∈ db.orders)
    (hid : order.id = orderId) (hwaiting : IsWaiting order) (hreason : releaseReason status ≠ none)
    (customerId : Uuid) : holdQuanta db' customerId = holdQuanta db customerId -
      if order.customerId = customerId then heldFor db orderId else 0 := by
  subst hid
  obtain ⟨hold, hhold, hkey, hcustomer⟩ := hb.held order hmem
  have hactive := hb.active order hmem hwaiting hold hhold hkey
  rcases released_cases h with ⟨-, hnone | hall⟩ | ⟨hold', hhold', changed, hkey', -, hkey'', -, -,
    hstatus, heq⟩
  · exact absurd hnone hreason
  · have hreleased := hall hold hhold hkey
    rw [hactive] at hreleased
    cases hreleased
  · obtain rfl := Table.eq_of_key_eq hhold' hhold (hkey'.trans hkey.symm)
    rw [holdQuanta, heq, Table.total_set hhold' hkey''.symm, holdQuanta, ← hkey,
      heldFor_of_mem hhold', holdShare, holdShare, hstatus]
    simp only [hactive, hcustomer, and_true, reduceCtorEq, and_false, if_false, add_zero]

end Release

/-! ### The arrival of an event -/

section Arrival
variable {env : Env} {order : Order} {event : OrderEvent} {db db' : Database}
  {state : OrderProjectionState} (hb : Backed db) (hmem : order ∈ db.orders)
  (hid : event.orderId = order.id)
  (h : (applyNewEvent env order event).run db = .ok (state, db'))
include hid h

/-- Only the order of the event has another amount to draw. -/
theorem applyNewEvent_unspent (id : Uuid) : unspent db' id =
    unspent db id - if order.id = id then fillNotional event else 0 := by
  obtain ⟨events, holds, hevents, -, -, hrel, rfl⟩ := applyNewEvent_ok h
  have hspent : spentOn { db with
      orderEvents := events, orders := db.orders.set (projected order state)
      approvalHolds := holds } id =
      spentOn db id + if order.id = id then fillNotional event else 0 := by
    rw [spentOn, Table.total_insert hevents, spentShare, hid]
    rfl
  rw [unspent, unspent, hspent, heldFor_released hrel]
  omega

theorem applyNewEvent_not_waiting : ¬ IsWaiting (projected order state) := by
  obtain ⟨events, holds, hevents, -, hfold, -, -⟩ := applyNewEvent_ok h
  set arrived := sortBySeq (events.rows.filter (·.orderId = order.id)) with harrived
  have hmem : event ∈ arrived :=
    mem_arrived.mpr ⟨(Table.mem_insert hevents).mpr (Or.inr rfl), hid⟩
  have hne : sortBySeq arrived ≠ [] := List.ne_nil_of_mem ((sortBySeq_perm _).mem_iff.mpr hmem)
  have hlast := statusAfter_not_waiting ((sortBySeq arrived).getLast hne) state.filledQuantity
    order.quantityRequested
  rw [← status_of_getLast hfold hne] at hlast
  exact fun hw => hw.elim hlast.1 hlast.2

include hmem in
/-- The order's share of the draw is exchanged for its new one. -/
theorem applyNewEvent_draw (customerId : Uuid) : drawQuanta db' customerId =
    drawQuanta db customerId - drawShare db customerId order +
      drawShare db' customerId (projected order state) := by
  have hunspent := applyNewEvent_unspent hid h
  obtain ⟨events, holds, -, -, -, -, heq⟩ := applyNewEvent_ok h
  rw [drawQuanta, show db'.orders = db.orders.set (projected order state) by rw [heq]]
  refine Table.total_set_congr (r := projected order state) hmem rfl fun o _ hne => ?_
  have hne' : order.id ≠ o.id := fun e => hne e.symm
  rw [drawShare, hunspent, if_neg hne', sub_zero, drawShare]

include hb hmem in
/-- What is backed stays so if the order has not drawn more than its hold. -/
theorem Backed.arrival (hdraw : order.side = .buy → state.status.isOpen →
    fillNotional event ≤ unspent db order.id) : Backed db' := by
  have hunspent := applyNewEvent_unspent hid h
  have hnot := applyNewEvent_not_waiting hid h
  obtain ⟨events, holds, hevents, -, -, hrel, heq⟩ := applyNewEvent_ok h
  have horders : ∀ o ∈ db'.orders,
      (o ∈ db.orders ∧ o.id ≠ order.id) ∨ o = projected order state := by
    intro o ho
    rw [heq] at ho
    rcases Table.mem_set.mp ho with hold | ⟨rfl, -⟩
    · exact Or.inl hold
    · exact Or.inr rfl
  have hrel' : HoldReleased env order.id state.status db.approvalHolds db'.approvalHolds := by
    rw [heq]; exact hrel
  refine ⟨fun o ho => ?_, fun hold hhold => ?_, fun e he => ?_, fun o ho hw hold hhold hkey => ?_,
    fun o ho hw e he => ?_, fun o ho hbuy hopen => ?_⟩
  · refine held_of_released hrel' ?_
    rcases horders o ho with ⟨ho, -⟩ | rfl
    · exact hb.held o ho
    · exact hb.held order hmem
  · obtain ⟨before, hbefore, hamount, -⟩ := hold_before_release hrel' hhold
    rw [hamount]
    exact hb.holds_nonneg before hbefore
  · rw [heq] at he ⊢
    rw [Table.has_set]
    rcases (Table.mem_insert hevents).mp he with he | rfl
    · exact hb.events_known e he
    · rw [hid]; exact Table.has_of_mem hmem
  · rcases horders o ho with ⟨ho, hne⟩ | rfl
    · obtain ⟨before, hbefore, -, hsame⟩ := hold_before_release hrel' hhold
      obtain rfl := hsame (hkey.trans_ne hne)
      exact hb.active o ho hw hold hbefore hkey
    · exact absurd hw hnot
  · rcases horders o ho with ⟨ho, hne⟩ | rfl
    · rw [heq] at he
      rcases (Table.mem_insert hevents).mp he with he | rfl
      · exact hb.quiet o ho hw e he
      · rw [hid]; exact fun e => hne e.symm
    · exact absurd hw hnot
  · rw [hunspent]
    rcases horders o ho with ⟨ho, hne⟩ | rfl
    · rw [if_neg fun e => hne e.symm, sub_zero]
      exact hb.unspent_nonneg o ho hbuy hopen
    · have := hdraw hbuy hopen
      rw [if_pos (show order.id = (projected order state).id from rfl)]
      exact sub_nonneg.mpr this

include hb hmem in
/-- **A submission or a rejection** hands the claim of the hold over, and raises none. -/
theorem applyNewEvent_submission (hwaiting : IsWaiting order)
    (htype : event.eventType = .rejected ∨ event.eventType = .submitted) :
    Backed db' ∧ ∀ customerId, holdQuanta db' customerId + drawQuanta db' customerId ≤
      holdQuanta db customerId + drawQuanta db customerId := by
  have hnotional : fillNotional event = 0 := by
    rcases htype with htype | htype <;> simp [fillNotional, htype]
  have hspent := spentOn_of_quiet (hb.quiet order hmem hwaiting)
  have hheld := hb.heldFor_nonneg hmem
  have hunspent : unspent db order.id = heldFor db order.id := by rw [unspent, hspent, sub_zero]
  refine ⟨hb.arrival hmem hid h fun _ _ => by rw [hnotional, hunspent]; exact hheld,
    fun customerId => ?_⟩
  have hdraw := applyNewEvent_draw hmem hid h customerId
  have hunspent' := applyNewEvent_unspent hid h order.id
  obtain ⟨events, holds, hevents, -, -, hrel, heq⟩ := applyNewEvent_ok h
  have hstatus : releaseReason state.status ≠ none := by
    have hquiet := hb.quiet order hmem hwaiting
    rw [applyNewEvent_newest hid (fun e he heid => absurd heid (hquiet e he)) h]
    rcases htype with htype | htype <;> simp [statusAfter, htype, releaseReason]
  have hrel' : HoldReleased env order.id state.status db.approvalHolds db'.approvalHolds := by
    rw [heq]; exact hrel
  rw [hdraw, holdQuanta_released hrel' hb hmem rfl hwaiting hstatus, drawShare_of_waiting hwaiting,
    drawShare]
  rw [hnotional, ite_self, sub_zero, hunspent] at hunspent'
  simp only [projected, hunspent']
  split_ifs with hcustomer hopen hopen
  · omega
  · omega
  · exact absurd hopen.1 hcustomer
  · omega

include hb hmem in
/-- **A fill** of an open buy order draws on the order's hold. -/
theorem applyNewEvent_fill (hbuy : order.side = .buy) (hopen : order.status.isOpen)
    (hcost : fillNotional event ≤ unspent db order.id) :
    Backed db' ∧ ∀ customerId, holdQuanta db' customerId + drawQuanta db' customerId ≤
      holdQuanta db customerId + drawQuanta db customerId -
        if order.customerId = customerId then fillNotional event else 0 := by
  refine ⟨hb.arrival hmem hid h fun _ _ => hcost, fun customerId => ?_⟩
  have hdraw := applyNewEvent_draw hmem hid h customerId
  have hunspent := applyNewEvent_unspent hid h order.id
  obtain ⟨events, holds, -, -, -, hrel, heq⟩ := applyNewEvent_ok h
  have hrel' : HoldReleased env order.id state.status db.approvalHolds db'.approvalHolds := by
    rw [heq]; exact hrel
  have hheld := holdQuanta_released_le hrel' hb customerId
  rw [if_pos rfl] at hunspent
  rw [hdraw, drawShare, drawShare]
  simp only [projected, hbuy, hopen, and_self, and_true, true_and, hunspent]
  split_ifs with hcustomer hstill hstill
  · omega
  · omega
  · exact absurd hstill.1 hcustomer
  · omega

end Arrival

end Trueup.Cash
