import Trueup.Cash.Commitments

/-! # No overdraft

The cash of a customer covers the claims of the orders: the active holds, and what the open buy
orders may still draw (`Covered`). The gate of an order protects this as long as
`open_buy_commitments` is not below what the open orders may draw; the gate of a withdrawal does not
look at the open orders at all, and a fill is rounded by itself. `CoversDraws` says of a step that
none of the three is in the way.

`no_overdraft`: in a run whose steps all do, the cash never falls below zero. -/

namespace Trueup.Cash

open Trueup.Core Trueup.Models Trueup.Lib Trueup.Lib.Transaction Trueup.Ledger Trueup.Lots
open Trueup.Identity Trueup.Orders Trueup.System

/-- The condition on a step: no deposit is negative; a buy order is positive and is placed while
`open_buy_commitments` covers what the open buy orders may draw; a withdrawal leaves of
`withdrawable` what they may draw; a fill is one of an open buy order and costs no more than the
order may draw. No other kind of step is in the run. -/
def CoversDraws (db : Database) (step : Step) : Prop :=
  match step.op with
  | .initiateDeposit _ amount => 0 ≤ amount.quanta
  | .confirmSettlement _ => True
  | .placeOrder request _ => request.side = .buy ∧ 0 < request.quantity.quanta ∧
      0 < request.referencePrice.quanta ∧
      ∀ commitments ∈ (openBuyCommitments db request.customerId).toOption,
        drawQuanta db request.customerId ≤ commitments.quanta
  | .approve _ => True
  | .submitToBroker _ _ => True
  | .initiateWithdrawal customerId amount =>
      ∀ available ∈ (withdrawable db customerId).toOption,
        amount.quanta + drawQuanta db customerId ≤ available.quanta
  | .tradeUpdate _ message => eventTypeOf message.event = some .fill ∧
      ∀ order ∈ findByClientOrderId db message.clientOrderId,
        order.side = .buy ∧ order.status.isOpen ∧
        ∀ quantity ∈ (QuantizedDecimal.ofText message.qty).toOption,
          ∀ price ∈ (QuantizedDecimal.ofText message.price).toOption,
            notional price quantity ≤ unspent db order.id
  | .applyAchReturn _ => False
  | .applySplit _ _ _ => False

instance (db : Database) : ∀ step, Decidable (CoversDraws db step)
  | ⟨_, .initiateDeposit _ amount⟩ => inferInstanceAs (Decidable (0 ≤ amount.quanta))
  | ⟨_, .confirmSettlement _⟩ => isTrue trivial
  | ⟨_, .placeOrder _ _⟩ => inferInstanceAs (Decidable (_ ∧ _ ∧ _ ∧ _))
  | ⟨_, .approve _⟩ => isTrue trivial
  | ⟨_, .submitToBroker _ _⟩ => isTrue trivial
  | ⟨_, .initiateWithdrawal customerId amount⟩ =>
    inferInstanceAs (Decidable (∀ available ∈ (withdrawable db customerId).toOption,
      amount.quanta + drawQuanta db customerId ≤ available.quanta))
  | ⟨_, .tradeUpdate _ _⟩ => inferInstanceAs (Decidable (_ ∧ ∀ _ ∈ _, _))
  | ⟨_, .applyAchReturn _⟩ => isFalse id
  | ⟨_, .applySplit _ _ _⟩ => isFalse id

/-- The cash covers the claims of the orders. -/
structure Covered (db : Database) : Prop where
  mirrored : Mirrored db
  backed : Backed db
  covers : ∀ customerId,
    holdQuanta db customerId + drawQuanta db customerId ≤ cashQuanta db customerId

theorem Covered.cash_nonneg {db : Database} (h : Covered db) (customerId : Uuid) :
    0 ≤ cashQuanta db customerId := by
  have hholds := holdQuanta_nonneg h.backed customerId
  have hdraws := drawQuanta_nonneg h.backed customerId
  have hcovers := h.covers customerId
  omega

/-! ### Funding -/

section Funding
variable {db db' : Database} (h : Covered db)
include h

/-- A step that writes neither orders nor holds, and takes no more cash than is free. -/
theorem Covered.ofCash (hmirrored : Mirrored db') (hside : orderSide db' = orderSide db)
    (hcash : ∀ customerId, holdQuanta db customerId + drawQuanta db customerId ≤
      cashQuanta db' customerId) : Covered db' := by
  refine ⟨hmirrored, h.backed.frame hside, fun customerId => ?_⟩
  obtain ⟨hholds, hdraws⟩ := claims_congr hside customerId
  rw [hholds, hdraws]
  exact hcash customerId

theorem initiateDeposit_covered {env : Env} {customerId : Uuid} {amount : Money}
    {r : DepositResult} (hamount : 0 ≤ amount.quanta)
    (hrun : (initiateDeposit env customerId amount).run db = .ok (r, db')) : Covered db' := by
  have hmirrored := initiateDeposit_mirrored env customerId amount db r db' h.mirrored hrun
  obtain ⟨-, hposts⟩ := initiateDeposit_posts hrun
  refine h.ofCash hmirrored hposts.orders.1 fun c => ?_
  have hcovers := h.covers c
  rw [cash_posts hposts, List.map_singleton, List.sum_singleton, customerShare]
  split_ifs
  · rw [show (depositView env customerId amount).cashRow.amount = amount.quanta from rfl]
    omega
  · omega

theorem initiateWithdrawal_covered {env : Env} {customerId : Uuid} {amount : Money}
    {r : WithdrawalResult} (hamount : ∀ available ∈ (withdrawable db customerId).toOption,
      amount.quanta + drawQuanta db customerId ≤ available.quanta)
    (hrun : (initiateWithdrawal env customerId amount).run db = .ok (r, db')) : Covered db' := by
  have hposts := initiateWithdrawal_posts hrun
  refine h.ofCash (h.mirrored.posts hposts (by simp)) hposts.orders.1 fun c => ?_
  have hcovers := h.covers c
  rw [cash_posts hposts, List.map_singleton, List.sum_singleton, customerShare]
  split_ifs with hc
  · obtain rfl : customerId = c := Option.some.inj hc
    obtain ⟨available, entry, cash, equity, entries, hav, -⟩ := initiateWithdrawal_ok hrun
    have hleft := hamount available (by rw [hav]; rfl)
    have hsettled := settledCash_le db customerId
    rw [withdrawable_ok hav] at hleft
    dsimp only
    omega
  · omega

theorem confirmSettlement_covered {env : Env} {obligationId : Uuid} {u : Unit}
    (hrun : (confirmSettlement env obligationId).run db = .ok (u, db')) : Covered db' := by
  obtain ⟨v, -, hsettles⟩ := confirmSettlement_settles hrun
  refine h.ofCash (h.mirrored.settles hsettles) hsettles.orders.1 fun c => ?_
  rw [cashQuanta_rows, hsettles.cash, ← cashQuanta_rows]
  exact h.covers c

end Funding

/-! ### Orders -/

section Placed
variable {db db' : Database} {order : Order} {amount : Money}
  {orders : Table Order.id} (hb : Backed db) (hwaiting : IsWaiting order)
  (horders : ∀ o, o ∈ db'.orders ↔ o ∈ db.orders ∨ o = order)
  (hfree : ¬ db.orders.Has order.id)
  (hholds : db.approvalHolds.insert (newHold order.id order.customerId amount) =
    some db'.approvalHolds)
  (hevents : db'.orderEvents = db.orderEvents)
include hfree hholds hevents

theorem unspent_placed {o : Order} (ho : o ∈ db.orders) : unspent db' o.id = unspent db o.id := by
  have hne : order.id ≠ o.id := fun e => hfree (e ▸ Table.has_of_mem ho)
  rw [unspent, heldFor, Table.find_insert hholds,
    if_neg (show (newHold order.id order.customerId amount).orderId ≠ o.id from hne), unspent,
    spentOn, hevents]
  rfl

include hb hwaiting horders in
theorem Backed.placed (hamount : 0 ≤ amount.quanta) : Backed db' := by
  have hne : ∀ o ∈ db.orders, order.id ≠ o.id := fun o ho e => hfree (e ▸ Table.has_of_mem ho)
  refine ⟨fun o ho => ?_, fun hold hhold => ?_, fun e he => ?_, fun o ho hw hold hhold hkey => ?_,
    fun o ho hw e he => ?_, fun o ho hbuy hopen => ?_⟩
  · rcases (horders o).mp ho with ho | rfl
    · obtain ⟨hold, hhold, hown⟩ := hb.held o ho
      exact ⟨hold, (Table.mem_insert hholds).mpr (Or.inl hhold), hown⟩
    · exact ⟨_, (Table.mem_insert hholds).mpr (Or.inr rfl), rfl, rfl⟩
  · rcases (Table.mem_insert hholds).mp hhold with hhold | rfl
    · exact hb.holds_nonneg hold hhold
    · exact hamount
  · rw [hevents] at he
    obtain ⟨o, ho, hid⟩ := Table.has_iff.mp (hb.events_known e he)
    exact Table.has_iff.mpr ⟨o, (horders o).mpr (Or.inl ho), hid⟩
  · rcases (Table.mem_insert hholds).mp hhold with hhold | rfl
    · rcases (horders o).mp ho with ho | rfl
      · exact hb.active o ho hw hold hhold hkey
      · refine absurd (Table.has_of_mem hhold) ?_
        rw [hkey]
        exact (Table.insert_eq_some.mp hholds).1
    · rfl
  · rw [hevents] at he
    rcases (horders o).mp ho with ho | rfl
    · exact hb.quiet o ho hw e he
    · exact fun hid => hfree (hid ▸ hb.events_known e he)
  · rcases (horders o).mp ho with ho | rfl
    · rw [unspent_placed hfree hholds hevents ho]
      exact hb.unspent_nonneg o ho hbuy hopen
    · rw [hwaiting.not_isOpen] at hopen
      cases hopen

end Placed

section Orders
variable {db db' : Database} (h : Covered db)
include h

theorem placeOrder_covered {env : Env} {request : OrderCreationRequest}
    {designatedLotIds : Option (List Uuid)} {placed : Order} (hbuy : request.side = .buy)
    (hquantity : 0 < request.quantity.quanta) (hprice : 0 < request.referencePrice.quanta)
    (hcommitments : ∀ commitments ∈ (openBuyCommitments db request.customerId).toOption,
      drawQuanta db request.customerId ≤ commitments.quanta)
    (hrun : (placeOrder env request designatedLotIds).run db = .ok (placed, db')) :
    Covered db' := by
  obtain ⟨created, mid, hcreate, hplaced, heq⟩ := placeOrder_ok hrun
  obtain ⟨amount, orders, holds, hamount, hcreated, hgate, horders, hholds, hmid⟩ :=
    createOrder_ok hcreate
  have hnonneg : 0 ≤ amount.quanta := hamount ▸ notional_nonneg hprice.le hquantity.le
  have hid : placed.id = created.id := by rw [hplaced]
  have hcustomer : placed.customerId = request.customerId := by rw [hplaced, hcreated]; rfl
  have hwaiting : IsWaiting placed := by
    rw [IsWaiting, hplaced, hcreated]
    simp only [newOrder, initialStatus]
    split_ifs <;> simp
  have hfree : ¬ db.orders.Has placed.id := hid ▸ (Table.insert_eq_some.mp horders).1
  have hset : db'.orders = orders.set placed := by rw [heq, hmid]
  have hcreatedmem : created ∈ orders := (Table.mem_insert horders).mpr (Or.inr rfl)
  have hmem : ∀ o, o ∈ db'.orders ↔ o ∈ db.orders ∨ o = placed := by
    intro o
    rw [hset, Table.mem_set, Table.mem_insert horders]
    constructor
    · rintro (⟨ho | rfl, hne⟩ | ⟨rfl, -⟩)
      · exact Or.inl ho
      · exact absurd hid.symm hne
      · exact Or.inr rfl
    · rintro (ho | rfl)
      · exact Or.inl ⟨Or.inl ho, fun e => hfree (e ▸ Table.has_of_mem ho)⟩
      · exact Or.inr ⟨rfl, hid ▸ Table.has_of_mem hcreatedmem⟩
  have hholds' : db.approvalHolds.insert (newHold placed.id placed.customerId amount) =
      some db'.approvalHolds := by
    rw [hid, hcustomer, heq, hmid]; exact hholds
  have hevents : db'.orderEvents = db.orderEvents := by rw [heq, hmid]
  refine ⟨h.mirrored.same (placeOrder_sameCash hrun),
    h.backed.placed hwaiting hmem hfree hholds' hevents hnonneg, fun c => ?_⟩
  have hcovers := h.covers c
  have hcash : cashQuanta db' c = cashQuanta db c := by rw [heq, hmid]; rfl
  have hheld : holdQuanta db' c = holdQuanta db c +
      if request.customerId = c then amount.quanta else 0 := by
    rw [holdQuanta, Table.total_insert hholds', hcustomer]
    simp only [holdShare, newHold, and_true]
    rfl
  have hdraw : drawQuanta db' c = drawQuanta db c := by
    have hcreatedw : IsWaiting created := by
      rw [IsWaiting, show created.status = placed.status by rw [hplaced]]
      exact hwaiting
    have hsame : orders.total (drawShare db' c) = db.orders.total (drawShare db c) := by
      rw [Table.total_insert horders, drawShare_of_waiting hcreatedw, add_zero]
      refine Table.total_congr fun o ho => ?_
      rw [drawShare, unspent_placed hfree hholds' hevents ho, drawShare]
    rw [drawQuanta, hset, Table.total_set hcreatedmem hid.symm, hsame,
      drawShare_of_waiting hcreatedw, drawShare_of_waiting hwaiting, drawQuanta]
    omega
  rw [hcash, hheld, hdraw]
  split_ifs with hc
  · subst hc
    -- the gate left room for the new hold
    obtain ⟨available, hav, hle⟩ := hgate hbuy
    obtain ⟨commitments, hcom, hinvestable⟩ := investable_ok hav
    have hroom := hcommitments commitments (by rw [hcom]; rfl)
    have hpending := settled_add_unsettled_le h.mirrored request.customerId
      (show JournalEntryType.tradeSell ≠ .deposit by decide)
    rw [QuantizedDecimal.le_def, hinvestable] at hle
    omega
  · omega

theorem approve_covered {orderId : Uuid} {approved : Order}
    (hrun : (approve orderId).run db = .ok (approved, db')) : Covered db' := by
  obtain ⟨before, hmem, -, hstatus, happroved, heq⟩ := approve_ok hrun
  have hid : before.id = approved.id := by rw [happroved]
  have hbefore : IsWaiting before := Or.inl hstatus
  have hwaiting : IsWaiting approved := by rw [happroved]; exact Or.inr rfl
  have horders : ∀ o ∈ db'.orders, o ∈ db.orders ∨ o = approved := by
    intro o ho
    rw [heq] at ho
    rcases Table.mem_set.mp ho with ⟨ho, -⟩ | ⟨rfl, -⟩
    · exact Or.inl ho
    · exact Or.inr rfl
  have hb := h.backed
  have hunspent : ∀ id, unspent db' id = unspent db id := by intro id; rw [heq]; rfl
  refine ⟨h.mirrored.same (approve_sameCash hrun),
    ⟨fun o ho => ?_, ?_, fun e he => ?_, fun o ho hw => ?_, fun o ho hw => ?_,
      fun o ho hbuy hopen => ?_⟩, fun c => ?_⟩
  · rw [heq]
    rcases horders o ho with ho | rfl
    · exact hb.held o ho
    · rw [happroved]; exact hb.held before hmem
  · rw [heq]; exact hb.holds_nonneg
  · rw [heq] at he ⊢
    exact (Table.has_set e.orderId).mpr (hb.events_known e he)
  · rw [heq]
    rcases horders o ho with ho | rfl
    · exact hb.active o ho hw
    · rw [happroved]; exact hb.active before hmem hbefore
  · rw [heq]
    rcases horders o ho with ho | rfl
    · exact hb.quiet o ho hw
    · rw [happroved]; exact hb.quiet before hmem hbefore
  · rw [hunspent]
    rcases horders o ho with ho | rfl
    · exact hb.unspent_nonneg o ho hbuy hopen
    · rw [hwaiting.not_isOpen] at hopen; cases hopen
  · have hdraw : drawQuanta db' c = drawQuanta db c := by
      rw [drawQuanta, show db'.orders = db.orders.set approved by rw [heq],
        Table.total_set_congr (g := drawShare db c) hmem hid (fun o _ _ => by
          rw [drawShare, hunspent, drawShare]),
        drawShare_of_waiting hbefore, drawShare_of_waiting hwaiting, drawQuanta]
      omega
    have hsame : holdQuanta db' c = holdQuanta db c ∧ cashQuanta db' c = cashQuanta db c := by
      rw [heq]; exact ⟨rfl, rfl⟩
    rw [hsame.1, hsame.2, hdraw]
    exact h.covers c

theorem submitToBroker_covered {env : Env} {orderId : Uuid} {broker : Except Error String}
    {u : Unit} (hrun : (submitToBroker env orderId broker).run db = .ok (u, db')) :
    Covered db' := by
  rcases submitToBroker_ok hrun with rfl | ⟨order, hmem, event, state, hstatus, hid, -, htype,
    happly⟩
  · exact h
  · obtain ⟨hbacked, hclaims⟩ := applyNewEvent_submission h.backed hmem hid happly (Or.inr hstatus)
      htype
    have hsame := applyNewEvent_sameCash happly
    refine ⟨h.mirrored.same hsame, hbacked, fun c => ?_⟩
    rw [cash_same hsame]
    exact (hclaims c).trans (h.covers c)

end Orders

/-! ### Fills -/

theorem handle_covered {env : Env} {fault : Option HandleStage} {message : TradeUpdate}
    {db db' : Database} {pushed : Option OrderStatus} (h : Covered db)
    (hfill : eventTypeOf message.event = some .fill)
    (hdraws : ∀ order ∈ findByClientOrderId db message.clientOrderId,
      order.side = .buy ∧ order.status.isOpen ∧
      ∀ quantity ∈ (QuantizedDecimal.ofText message.qty).toOption,
        ∀ price ∈ (QuantizedDecimal.ofText message.price).toOption,
          notional price quantity ≤ unspent db order.id)
    (hrun : (handle env fault message).run db = .ok (pushed, db')) : Covered db' := by
  have hmirrored := handle_mirrored env fault message db pushed db' h.mirrored hrun
  rcases handle_ok hrun with ⟨-, rfl⟩ | ⟨eventType, order, state, htype, hmem, hfound, mid, happly,
    hlots⟩
  · exact h
  obtain rfl : eventType = .fill := Option.some.inj (htype.symm.trans hfill)
  obtain ⟨hne, -⟩ | ⟨-, x, quantity, price, -, hq, hp, hlots⟩ := hlots
  · exact absurd rfl hne
  obtain ⟨hbuy, hopen, hcost⟩ := hdraws order hfound
  have hcost := hcost quantity (by rw [hq]; rfl) price (by rw [hp]; rfl)
  have hnotional : fillNotional (eventOfMessage env order .fill message) =
      notional price quantity := by
    simp [fillNotional, eventOfMessage, fillOf, fillTexts, hq, hp, bind, Except.bind, pure,
      Except.pure]
  obtain ⟨hbacked, hclaims⟩ := applyNewEvent_fill h.backed hmem rfl happly hbuy hopen
    (by rw [hnotional]; exact hcost)
  have hside := hlots.orderSide
  refine ⟨hmirrored, hbacked.frame hside, fun c => ?_⟩
  obtain ⟨hholds, hdraw⟩ := claims_congr hside c
  have hclaim := hclaims c
  have hcovers := h.covers c
  -- what the order may draw falls by the cost of the fill, and so does the cash
  have hpaid : cashQuanta db' c = cashQuanta mid c +
      if some order.customerId = some c then -notional price quantity else 0 := by
    rw [cash_posts (lotFilled_posts hlots), List.map_singleton, List.sum_singleton, hbuy]
    rfl
  rw [hnotional] at hclaim
  rw [hholds, hdraw, hpaid, cash_same (applyNewEvent_sameCash happly)]
  simp only [Option.some.injEq]
  split_ifs at hclaim ⊢ <;> omega

/-! ### Runs -/

/-- **The step lemma.** -/
theorem body_covered {db db' : Database} {step : Step} {u : Unit} (h : Covered db)
    (hstep : CoversDraws db step) (hrun : (body step).run db = .ok (u, db')) : Covered db' := by
  obtain ⟨env, op⟩ := step
  cases op with
  | initiateDeposit customerId amount =>
    obtain ⟨r, hrun⟩ := discard_ok hrun
    exact initiateDeposit_covered h hstep hrun
  | confirmSettlement obligationId => exact confirmSettlement_covered h hrun
  | applyAchReturn obligationId => exact hstep.elim
  | initiateWithdrawal customerId amount =>
    obtain ⟨r, hrun⟩ := discard_ok hrun
    exact initiateWithdrawal_covered h hstep hrun
  | placeOrder request designatedLotIds =>
    obtain ⟨r, hrun⟩ := discard_ok hrun
    obtain ⟨hbuy, hquantity, hprice, hcommitments⟩ := hstep
    exact placeOrder_covered h hbuy hquantity hprice hcommitments hrun
  | approve orderId =>
    obtain ⟨r, hrun⟩ := discard_ok hrun
    exact approve_covered h hrun
  | submitToBroker orderId broker => exact submitToBroker_covered h hrun
  | tradeUpdate fault message =>
    obtain ⟨r, hrun⟩ := discard_ok hrun
    exact handle_covered h hstep.1 hstep.2 hrun
  | applySplit securityId ratio effectiveDate => exact hstep.elim

theorem covered_of_fresh {db : Database} (h : Fresh db) : Covered db where
  mirrored := mirrored_of_fresh h
  backed := by
    constructor
    · intro o ho; rw [h.orders] at ho; cases ho
    · intro hold hhold; rw [h.approvalHolds] at hhold; cases hhold
    · intro e he; rw [h.orderEvents] at he; cases he
    · intro o ho; rw [h.orders] at ho; cases ho
    · intro o ho; rw [h.orders] at ho; cases ho
    · intro o ho; rw [h.orders] at ho; cases ho
  covers c := by
    rw [holdQuanta, h.approvalHolds, drawQuanta, h.orders, cashQuanta, h.postings]
    exact le_rfl

/-- **No overdraft** in a run of deposits, confirmations, buy orders, approvals, submissions,
withdrawals and fills whose steps leave the open buy orders what they may draw. -/
theorem no_overdraft (steps : List Step) {db : Database} (h : Fresh db)
    (hsteps : RunMeets body CoversDraws steps db) (customerId : Uuid) :
    0 ≤ cashQuanta (run steps db) customerId := by
  have hcovered : Covered (run steps db) := by
    refine runs_keeps_of_meets ?_ steps (covered_of_fresh h) hsteps
    intro mid step u mid' hmid hstep hrun
    exact body_covered hmid hstep hrun
  exact hcovered.cash_nonneg customerId

/-- An order of ten shares at 100 is placed and submitted, 500 of the 1500 there are withdrawn, and
the order filled in two parts. -/
def coveredRun : List Step := [
  ⟨envAt 1 1, .initiateDeposit 1 (dollars 1500)⟩, ⟨envAt 2 2, .confirmSettlement 1⟩,
  ⟨envAt 3 3, .placeOrder ⟨1, 7, .buy, shares 10, dollarsPerShare 100⟩ none⟩,
  ⟨envAt 4 4, .submitToBroker 3 (.ok "b")⟩, ⟨envAt 5 5, .initiateWithdrawal 1 (dollars 500)⟩,
  ⟨envAt 6 6, .tradeUpdate none
    ⟨.partialFill, some "x", .trueup 3, ⟨6, true⟩, some 100, some 4⟩⟩,
  ⟨envAt 7 7, .tradeUpdate none ⟨.fill, some "y", .trueup 3, ⟨7, true⟩, some 90, some 6⟩⟩]

theorem no_overdraft_covered_run : cashQuanta (run coveredRun (openedAccount 1)) 1 = 600000 ∧
    0 ≤ cashQuanta (run coveredRun (openedAccount 1)) 1 :=
  ⟨by decide +kernel,
    no_overdraft coveredRun (fresh_openedAccount 1) (by decide +kernel) 1⟩

/-- A deposit of 1000 is confirmed, a buy of ten shares at 100 placed and submitted, the 1000
withdrawn, and the order filled at 100. -/
def overdrawnRun : List Step := [
  ⟨envAt 1 1, .initiateDeposit 1 (dollars 1000)⟩, ⟨envAt 2 2, .confirmSettlement 1⟩,
  ⟨envAt 3 3, .placeOrder ⟨1, 7, .buy, shares 10, dollarsPerShare 100⟩ none⟩,
  ⟨envAt 4 4, .submitToBroker 3 (.ok "b")⟩, ⟨envAt 5 5, .initiateWithdrawal 1 (dollars 1000)⟩,
  ⟨envAt 6 6, .tradeUpdate none ⟨.fill, some "x", .trueup 3, ⟨6, true⟩, some 100, some 10⟩⟩]

/-- The submission released the hold, so the withdrawal was let through: the fill leaves the cash at
minus 1000. -/
theorem withdrawal_before_fill_overdraws : Fresh (openedAccount 1) ∧
    cashQuanta (run overdrawnRun (openedAccount 1)) 1 = -10000000 :=
  ⟨fresh_openedAccount 1, by decide +kernel⟩

end Trueup.Cash
