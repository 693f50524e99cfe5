import Trueup.Cash.Holds
import Trueup.Cash.OrderSteps

/-! # The share of one order

`investable` is a sum over the customer's ledger, holds and open buy orders, `investableQuanta`. A
step of one order replaces its row and its hold and leaves the others alone (`OrderMoved`), so it
exchanges the order's own share of the sum for its new one (`OrderMoved.investable`). The creation
of an order takes its notional, whichever side it is on (`createOrder_investable`). -/

namespace Trueup.Cash

open Trueup.Core Trueup.Models Trueup.Lib Trueup.Lib.Transaction Trueup.Ledger Trueup.Orders

instance (order : Order) : Decidable (IsWaiting order) := inferInstanceAs (Decidable (_ ∨ _))

/-! ### The commitments as an integer sum -/

/-- The share of an order in the open commitments of a customer. -/
def commitmentShare (db : Database) (customerId : Uuid) (order : Order) : ℤ :=
  if order.customerId = customerId ∧ order.side = .buy ∧ order.status.isOpen then
    match commitment db order with
    | .ok amount => amount.quanta
    | .error _ => 0
  else 0

/-- The open commitments of a customer, in quanta. -/
def committedQuanta (db : Database) (customerId : Uuid) : ℤ :=
  db.orders.total (commitmentShare db customerId)

/-- `withdrawable`, in quanta. -/
def withdrawableQuanta (db : Database) (customerId : Uuid) : ℤ :=
  settledCashQuanta db customerId - holdQuanta db customerId

/-- `investable`, in quanta. -/
def investableQuanta (db : Database) (customerId : Uuid) : ℤ :=
  settledCashQuanta db customerId + unsettledQuanta db customerId .tradeSell +
    unsettledQuanta db customerId .deposit - committedQuanta db customerId - holdQuanta db customerId

section Sums
variable {db : Database} {customerId : Uuid}

theorem sumCommitments_ok : ∀ {orders : List Order} {total t : Money},
    sumCommitments db orders total = .ok t →
      t.quanta = total.quanta + (orders.map fun o =>
        match commitment db o with
        | .ok amount => amount.quanta
        | .error _ => 0).sum
  | [], total, t, h => by cases h; simp
  | order :: orders, total, t, h => by
    rw [sumCommitments, except_bind_ok] at h
    obtain ⟨amount, hamount, h⟩ := h
    rw [except_bind_ok] at h
    obtain ⟨total', htotal, h⟩ := h
    rw [sumCommitments_ok h, Money.add_ok.mp htotal, List.map_cons, List.sum_cons, hamount]
    ring

theorem openBuyCommitments_ok {m : Money} (h : openBuyCommitments db customerId = .ok m) :
    m.quanta = committedQuanta db customerId := by
  rw [sumCommitments_ok h, openBuyOrders, sum_filter_map, QuantizedDecimal.quanta_zero, zero_add]
  unfold committedQuanta Table.total
  refine congrArg List.sum (List.map_congr_left fun o _ => ?_)
  simp only [commitmentShare, decide_eq_true_eq]

/-- **`investable` is the integer sum.** -/
theorem investable_quanta {i : Money} (h : investable db customerId = .ok i) :
    i.quanta = investableQuanta db customerId := by
  obtain ⟨committed, hcommitted, hquanta⟩ := investable_ok h
  rw [hquanta, openBuyCommitments_ok hcommitted, investableQuanta]

theorem commitmentShare_of_not_open {o : Order} (h : o.status.isOpen = false) :
    commitmentShare db customerId o = 0 := by
  rw [commitmentShare, if_neg]
  rintro ⟨-, -, hopen⟩
  rw [h] at hopen
  cases hopen

theorem commitmentShare_of_sell {o : Order} (h : o.side = .sell) :
    commitmentShare db customerId o = 0 := by
  rw [commitmentShare, if_neg]
  rintro ⟨-, hbuy, -⟩
  rw [h] at hbuy
  cases hbuy

end Sums

/-! ### The ledger side -/

/-- The tables of the ledger that the cash policy reads. -/
def ledgerSide (db : Database) :
    List Posting × Table JournalEntry.id × Table SettlementObligation.id :=
  (db.postings, db.journalEntries, db.settlementObligations)

theorem ledger_congr {db db' : Database} (h : ledgerSide db' = ledgerSide db) (customerId : Uuid) :
    settledCashQuanta db' customerId = settledCashQuanta db customerId ∧
      ∀ k, unsettledQuanta db' customerId k = unsettledQuanta db customerId k := by
  simp only [ledgerSide, Prod.mk.injEq] at h
  obtain ⟨hpostings, hentries, hobligations⟩ := h
  constructor
  · unfold settledCashQuanta isSettled
    rw [hpostings, hobligations]
  · intro k
    unfold unsettledQuanta isUnsettled
    rw [hentries, hobligations]

/-! ### One order and its hold -/

/-- An order of the database, with its hold. -/
structure Tracked (o : Order) (hold : ApprovalHold) (db : Database) : Prop where
  mem : o ∈ db.orders
  mem_hold : hold ∈ db.approvalHolds
  key : hold.orderId = o.id
  customer : hold.customerId = o.customerId
  derived : ∀ o' ∈ db.orders, o'.clientOrderId = .trueup o'.id

/-- The fields of the order that its events fold are the only ones that may differ. -/
def SameTerms (o o' : Order) : Prop :=
  o' = projected o ⟨o'.status, o'.filledQuantity, o'.averageFillPrice⟩

/-- The order and its hold are replaced, the other orders and holds and the ledger are as they
were. -/
structure OrderMoved (o : Order) (hold : ApprovalHold) (o' : Order) (hold' : ApprovalHold)
    (db db' : Database) : Prop where
  ledger : ledgerSide db' = ledgerSide db
  orders : db'.orders = db.orders.set o'
  holds : db'.approvalHolds = db.approvalHolds.set hold'
  terms : SameTerms o o'
  holdKey : hold'.orderId = hold.orderId
  holdCustomer : hold'.customerId = hold.customerId
  holdAmount : hold'.amountMoney = hold.amountMoney

theorem Tracked.idle {o : Order} {hold : ApprovalHold} {db : Database} (h : Tracked o hold db) :
    OrderMoved o hold o hold db db :=
  ⟨rfl, (Table.set_self h.mem).symm, (Table.set_self h.mem_hold).symm, rfl, rfl, rfl, rfl⟩

section Moved
variable {o o' : Order} {hold hold' : ApprovalHold} {db db' : Database}

theorem SameTerms.id (h : SameTerms o o') : o'.id = o.id := by
  rw [SameTerms] at h; rw [h]; rfl

theorem SameTerms.customerId (h : SameTerms o o') : o'.customerId = o.customerId := by
  rw [SameTerms] at h; rw [h]; rfl

theorem SameTerms.side (h : SameTerms o o') : o'.side = o.side := by
  rw [SameTerms] at h; rw [h]; rfl

theorem SameTerms.clientOrderId (h : SameTerms o o') : o'.clientOrderId = o.clientOrderId := by
  rw [SameTerms] at h; rw [h]; rfl

theorem SameTerms.trans {o₁ o₂ o₃ : Order} (h : SameTerms o₁ o₂) (h' : SameTerms o₂ o₃) :
    SameTerms o₁ o₃ := by
  unfold SameTerms at *
  rw [h] at h'
  exact h'

variable (h : Tracked o hold db) (hm : OrderMoved o hold o' hold' db db')
include h hm

theorem Tracked.moved : Tracked o' hold' db' where
  mem := by rw [hm.orders]; exact Table.mem_set_self h.mem hm.terms.id.symm
  mem_hold := by rw [hm.holds]; exact Table.mem_set_self h.mem_hold hm.holdKey.symm
  key := by rw [hm.holdKey, h.key, hm.terms.id]
  customer := by rw [hm.holdCustomer, h.customer, hm.terms.customerId]
  derived := by
    intro x hx
    rw [hm.orders] at hx
    rcases Table.mem_set.mp hx with ⟨hx, -⟩ | ⟨rfl, -⟩
    · exact h.derived x hx
    · rw [hm.terms.clientOrderId, hm.terms.id]
      exact h.derived o h.mem

theorem OrderMoved.commitment_other {x : Order} (hx : x.id ≠ o.id) :
    commitment db' x = commitment db x := by
  have hfind : db'.approvalHolds.find x.id = db.approvalHolds.find x.id := by
    rw [hm.holds, Table.find_set, if_neg]
    · rw [hm.holdKey, h.key]
      exact hx.symm
    · rw [hm.holdKey]
      exact Table.has_of_mem h.mem_hold
  unfold commitment
  rw [hfind]

theorem OrderMoved.holdQuanta (customerId : Uuid) : holdQuanta db' customerId =
    holdQuanta db customerId - holdShare customerId hold + holdShare customerId hold' := by
  rw [Ledger.holdQuanta, hm.holds, Table.total_set h.mem_hold hm.holdKey.symm, Ledger.holdQuanta]

/-- **The order's share is exchanged for its new one.** -/
theorem OrderMoved.investable (customerId : Uuid) :
    investableQuanta db' customerId + holdShare customerId hold' +
        commitmentShare db' customerId o' =
      investableQuanta db customerId + holdShare customerId hold +
        commitmentShare db customerId o := by
  have hcommitted : committedQuanta db' customerId =
      committedQuanta db customerId - commitmentShare db customerId o +
        commitmentShare db' customerId o' := by
    rw [committedQuanta, hm.orders]
    refine Table.total_set_congr h.mem hm.terms.id.symm fun x _ hx => ?_
    rw [hm.terms.id] at hx
    rw [commitmentShare, hm.commitment_other h hx, commitmentShare]
  obtain ⟨hsettled, hunsettled⟩ := ledger_congr hm.ledger customerId
  unfold investableQuanta
  rw [hsettled, hunsettled, hunsettled, hm.holdQuanta h, hcommitted]
  ring

end Moved

/-! ### The steps of the order -/

section Steps
variable {o : Order} {hold : ApprovalHold} {db db' : Database}

theorem Tracked.approve (h : Tracked o hold db) :
    OrderMoved o hold { o with status := .approved } hold db
      { db with orders := db.orders.set { o with status := .approved } } :=
  ⟨rfl, rfl, (Table.set_self h.mem_hold).symm, rfl, rfl, rfl, rfl⟩

/-- **An event of the order** moves it; afterwards its hold is released, or as it was under a status
that asks for no release. -/
theorem Tracked.arrival (h : Tracked o hold db) {env : Env} {event : OrderEvent}
    {state : OrderProjectionState}
    (hrun : (applyNewEvent env o event).run db = .ok (state, db')) :
    ∃ hold', OrderMoved o hold (projected o state) hold' db db' ∧
      (hold'.status = .released ∨ (hold' = hold ∧ releaseReason state.status = none)) := by
  obtain ⟨events, holds, -, -, -, hrel, rfl⟩ := applyNewEvent_ok hrun
  rcases hrel with ⟨rfl, hkept⟩ | ⟨before, hbefore, reason, hid, -, -, rfl⟩
  · refine ⟨hold, ⟨rfl, rfl, (Table.set_self h.mem_hold).symm, rfl, rfl, rfl, rfl⟩, ?_⟩
    rcases hkept with hnone | hreleased
    · exact Or.inr ⟨rfl, hnone⟩
    · exact Or.inl (hreleased hold h.mem_hold h.key)
  · obtain rfl := Table.eq_of_key_eq hbefore h.mem_hold (hid.trans h.key.symm)
    exact ⟨_, ⟨rfl, rfl, rfl, rfl, rfl, rfl, rfl⟩, Or.inl rfl⟩

/-- A step that concerns the order does nothing, approves it, or brings an event to it. -/
theorem Tracked.own_step (h : Tracked o hold db) {step : System.Step}
    (hown : Concerns o.id step.op) (hstep : OrderStep step db db') :
    db' = db ∨
      (o.status = .awaitingApproval ∧
        db' = { db with orders := db.orders.set { o with status := .approved } }) ∨
      ∃ event state mid, event.orderId = o.id ∧ Brings step o event ∧
        (applyNewEvent step.env o event).run db = .ok (state, mid) ∧
        Followed step.env o event mid db' := by
  cases hstep with
  | idle hsame => exact Or.inl hsame
  | elsewhere hnot => exact absurd hown (hnot _)
  | placed hnot => exact absurd hown (hnot _)
  | approved order hmem hop hstatus heq =>
    rw [hop] at hown
    obtain rfl := Table.eq_of_key_eq hmem h.mem hown
    exact Or.inr (Or.inl ⟨hstatus, heq⟩)
  | arrived order event state mid hmem hid hbrings hrun hfollowed =>
    have hsame : order = o := by
      refine Table.eq_of_key_eq hmem h.mem ?_
      unfold Brings at hbrings
      unfold Concerns at hown
      cases hop : step.op with
      | submitToBroker id broker =>
        rw [hop] at hown hbrings
        exact hbrings.1.symm.trans hown
      | tradeUpdate fault message =>
        rw [hop] at hown hbrings
        have hclient := hbrings.1.symm.trans hown
        rw [h.derived order hmem] at hclient
        exact ClientOrderId.trueup.inj hclient
      | _ => rw [hop] at hbrings; exact hbrings.elim
    subst hsame
    exact Or.inr (Or.inr ⟨event, state, mid, hid, hbrings, hrun, hfollowed⟩)

theorem Tracked.set_other (h : Tracked o hold db) {x : Order}
    (horders : db'.orders = db.orders.set x) (hx : x.id ≠ o.id)
    (hclient : x.clientOrderId = .trueup x.id) (hhold : hold ∈ db'.approvalHolds) :
    Tracked o hold db' where
  mem := by rw [horders]; exact Table.mem_set.mpr (Or.inl ⟨h.mem, hx.symm⟩)
  mem_hold := hhold
  key := h.key
  customer := h.customer
  derived := by
    intro o' ho'
    rw [horders] at ho'
    rcases Table.mem_set.mp ho' with ⟨ho', -⟩ | ⟨rfl, -⟩
    · exact h.derived o' ho'
    · exact hclient

theorem Tracked.frame (h : Tracked o hold db) (hside : orderSide db' = orderSide db) :
    Tracked o hold db' := by
  simp only [orderSide, Prod.mk.injEq] at hside
  obtain ⟨horders, -, hholds⟩ := hside
  exact ⟨by rw [horders]; exact h.mem, by rw [hholds]; exact h.mem_hold, h.key, h.customer,
    by rw [horders]; exact h.derived⟩

theorem Tracked.placed (h : Tracked o hold db) {env : Env} {request : OrderCreationRequest}
    {designatedLotIds : Option (List Uuid)} {order : Order}
    (hrun : (placeOrder env request designatedLotIds).run db = .ok (order, db')) :
    Tracked o hold db' ∧ db'.orderEvents = db.orderEvents := by
  obtain ⟨created, mid, hcreate, rfl, rfl⟩ := placeOrder_ok hrun
  obtain ⟨amount, orders, holds, -, rfl, -, horders, hholds, rfl⟩ := createOrder_ok hcreate
  have hne : (newOrder env request amount).id ≠ o.id := by
    intro heq
    exact (Table.insert_eq_some.mp horders).1 (heq ▸ Table.has_of_mem h.mem)
  have hmid : Tracked o hold { db with orders := orders, approvalHolds := holds } :=
    { mem := (Table.mem_insert horders).mpr (Or.inl h.mem)
      mem_hold := (Table.mem_insert hholds).mpr (Or.inl h.mem_hold)
      key := h.key
      customer := h.customer
      derived := by
        intro o' ho'
        rcases (Table.mem_insert horders).mp ho' with ho' | rfl
        · exact h.derived o' ho'
        · rfl }
  exact ⟨hmid.set_other rfl hne rfl hmid.mem_hold, rfl⟩

/-- **A step that concerns another order, or none**, leaves the order, its hold and its events. -/
theorem Tracked.other_step (h : Tracked o hold db) {step : System.Step}
    (hother : ¬ Concerns o.id step.op) (hstep : OrderStep step db db') :
    Tracked o hold db' ∧ ∀ e, e.orderId = o.id → (e ∈ db'.orderEvents ↔ e ∈ db.orderEvents) := by
  cases hstep with
  | idle hsame => subst hsame; exact ⟨h, fun _ _ => Iff.rfl⟩
  | elsewhere hnot hside =>
    refine ⟨h.frame hside, fun e _ => ?_⟩
    simp only [orderSide, Prod.mk.injEq] at hside
    rw [hside.2.1]
  | placed hnot request designatedLotIds order hrun =>
    obtain ⟨htracked, hevents⟩ := h.placed hrun
    exact ⟨htracked, fun e _ => by rw [hevents]⟩
  | approved order hmem hop hstatus heq =>
    have hne : order.id ≠ o.id := by
      rw [hop] at hother
      exact hother
    subst heq
    exact ⟨h.set_other rfl hne (h.derived order hmem) h.mem_hold, fun _ _ => Iff.rfl⟩
  | arrived order event state mid hmem hid hbrings hrun hfollowed =>
    have hne : order.id ≠ o.id := by
      intro heq
      apply hother
      unfold Brings at hbrings
      unfold Concerns
      cases hop : step.op with
      | submitToBroker id broker => rw [hop] at hbrings; exact hbrings.1.trans heq
      | tradeUpdate fault message =>
        rw [hop] at hbrings
        exact hbrings.1.trans ((h.derived order hmem).trans (congrArg _ heq))
      | _ => rw [hop] at hbrings; exact hbrings.elim
    have hside : orderSide db' = orderSide mid := hfollowed.orderSide
    obtain ⟨events, holds, hevents, -, -, hrel, rfl⟩ := applyNewEvent_ok hrun
    -- the hold of the tracked order is not the one the event may release
    have hhold : hold ∈ holds := by
      rcases hrel with ⟨rfl, -⟩ | ⟨before, hbefore, reason, hkey, -, -, rfl⟩
      · exact h.mem_hold
      · refine Table.mem_set.mpr (Or.inl ⟨h.mem_hold, ?_⟩)
        rw [h.key]
        exact fun heq => hne (hkey.symm.trans heq.symm)
    have hmid : Tracked o hold { db with
        orderEvents := events, orders := db.orders.set (projected order state)
        approvalHolds := holds } :=
      h.set_other rfl hne (h.derived order hmem) hhold
    refine ⟨hmid.frame hside, fun e he => ?_⟩
    simp only [orderSide, Prod.mk.injEq] at hside
    rw [hside.2.1, Table.mem_insert hevents]
    refine or_iff_left fun heq => hne ?_
    rw [← hid, ← heq, he]

end Steps

/-! ### The creation -/

section Creation
variable {env : Env} {request : OrderCreationRequest} {db db' : Database} {order : Order}

/-- A new order holds its notional, whichever side it is on. -/
theorem createOrder_holdQuanta (hcreate : (createOrder env request).run db = .ok (order, db')) :
    holdQuanta db' request.customerId = holdQuanta db request.customerId +
      notional request.referencePrice request.quantity := by
  obtain ⟨amount, orders, holds, hamount, rfl, -, -, hholds, rfl⟩ := createOrder_ok hcreate
  have hshare : holdShare request.customerId
      (newHold (newOrder env request amount).id request.customerId amount) = amount.quanta :=
    if_pos ⟨rfl, rfl⟩
  rw [holdQuanta, Table.total_insert hholds, hshare, hamount, holdQuanta]

/-- **A new order takes its notional** out of what is investable. -/
theorem createOrder_investable (hcreate : (createOrder env request).run db = .ok (order, db')) :
    investableQuanta db' request.customerId = investableQuanta db request.customerId -
      notional request.referencePrice request.quantity := by
  have hheld := createOrder_holdQuanta hcreate
  obtain ⟨amount, orders, holds, -, rfl, -, horders, hholds, rfl⟩ := createOrder_ok hcreate
  set db' : Database := { db with orders := orders, approvalHolds := holds } with hdb'
  obtain ⟨hfree, -⟩ := Table.insert_eq_some.mp horders
  have hcommitted : committedQuanta db' request.customerId =
      committedQuanta db request.customerId := by
    have hnew : commitmentShare db' request.customerId (newOrder env request amount) = 0 := by
      refine commitmentShare_of_not_open ?_
      simp only [newOrder, initialStatus]
      split_ifs <;> rfl
    rw [committedQuanta, hdb', Table.total_insert horders, ← hdb', hnew, add_zero, committedQuanta]
    refine Table.total_congr fun o ho => ?_
    have hfind : holds.find o.id = db.approvalHolds.find o.id := by
      rw [Table.find_insert hholds, if_neg]
      intro heq
      have hid : (newOrder env request amount).id = o.id := heq
      exact hfree (hid ▸ Table.has_of_mem ho)
    rw [commitmentShare, commitment, hdb', hfind, commitmentShare, commitment]
  obtain ⟨hsettled, hunsettled⟩ :=
    ledger_congr (show ledgerSide db' = ledgerSide db from rfl) request.customerId
  unfold investableQuanta
  rw [hsettled, hunsettled, hunsettled, hheld, hcommitted]
  ring

theorem createOrder_withdrawable (hcreate : (createOrder env request).run db = .ok (order, db')) :
    withdrawableQuanta db' request.customerId = withdrawableQuanta db request.customerId -
      notional request.referencePrice request.quantity := by
  have hheld := createOrder_holdQuanta hcreate
  obtain ⟨amount, orders, holds, -, -, -, -, -, rfl⟩ := createOrder_ok hcreate
  have hsettled : settledCashQuanta { db with orders := orders, approvalHolds := holds }
      request.customerId = settledCashQuanta db request.customerId := rfl
  unfold withdrawableQuanta
  rw [hsettled, hheld]
  ring

theorem createOrder_tracked (hderived : ∀ o ∈ db.orders, o.clientOrderId = .trueup o.id)
    (hcreate : (createOrder env request).run db = .ok (order, db')) :
    ∃ hold, Tracked order hold db' ∧ hold.status = .active ∧ IsWaiting order ∧
      order.customerId = request.customerId ∧ order.side = request.side ∧
      hold.amountMoney.quanta = notional request.referencePrice request.quantity := by
  obtain ⟨amount, orders, holds, hamount, rfl, -, horders, hholds, rfl⟩ := createOrder_ok hcreate
  have hwaiting : IsWaiting (newOrder env request amount) := by
    simp only [IsWaiting, newOrder, initialStatus]
    split_ifs <;> simp
  refine ⟨newHold (env.uuid4 .order) request.customerId amount, ?_, rfl, hwaiting, rfl, rfl, hamount⟩
  refine ⟨(Table.mem_insert horders).mpr (Or.inr rfl), (Table.mem_insert hholds).mpr (Or.inr rfl), rfl,
    rfl, fun o ho => ?_⟩
  rcases (Table.mem_insert horders).mp ho with ho | rfl
  · exact hderived o ho
  · rfl

end Creation

end Trueup.Cash
