import Trueup.Cash.Investable
import Trueup.Cash.Settled
import Trueup.Rebalance.RebalanceOrderService

/-! # What a sell order holds

`create_order` opens a hold over the notional whichever side the order is on. A sell order therefore
lowers what is withdrawable and what is investable from its creation to its submission, and the
sells of a rebalance lower what its buys are capped by.

* `SaleKept.step`: the steps of a sell order whose notional rounds to nothing never lower the
  figures.
* `placeSells_investable`: what the sells of a rebalance take.
* `sell_keeps_spendable_cash_iff`: the figures are kept exactly when the notional rounds to
  nothing. -/

namespace Trueup.Cash

open Trueup.Core Trueup.Models Trueup.Lib Trueup.Lib.Transaction Trueup.Ledger Trueup.Lots
open Trueup.Orders Trueup.Rebalance Trueup.System

/-! ### The lots of a fill -/

section Frames
variable {db db' : Database} (hside : orderSide db' = orderSide db)
include hside

theorem committed_congr (customerId : Uuid) :
    committedQuanta db' customerId = committedQuanta db customerId := by
  simp only [orderSide, Prod.mk.injEq] at hside
  obtain ⟨horders, -, hholds⟩ := hside
  rw [committedQuanta, committedQuanta, horders]
  refine Table.total_congr fun o _ => ?_
  simp only [commitmentShare, commitment, hholds]

end Frames

/-- **A sale that is filled** settles nothing yet, and its proceeds are investable. -/
theorem soldFill_figures {env : Env} {order : Order} {fill : Fill} {db db' : Database}
    (h : LedgerKnown db) (hsell : order.side = .sell) (hlots : LotFilled env order fill db db')
    (hproceeds : 0 ≤ notional fill.price fill.quantity) (customerId : Uuid) :
    withdrawableQuanta db' customerId = withdrawableQuanta db customerId ∧
      investableQuanta db customerId ≤ investableQuanta db' customerId := by
  have hposts := lotFilled_posts hlots
  rw [hsell] at hposts
  have hside := hlots.orderSide
  have hholds := (claims_congr hside customerId).1
  have hcommitted := committed_congr hside customerId
  have hsettled : settledCashQuanta db' customerId = settledCashQuanta db customerId := by
    rw [settledCash_postsPending customerId h rfl hposts]
    simp only [tradeView, tradeCash, min_eq_left hproceeds, ite_self, add_zero]
  have hunsettled : ∀ k, unsettledQuanta db customerId k ≤ unsettledQuanta db' customerId k := by
    intro k
    rw [unsettled_posts hposts customerId h k]
    simp only [Option.toList_some, List.map_singleton, List.sum_singleton, pendingShare, tradeView,
      tradeCash]
    split_ifs
    · omega
    · omega
  have hsells := hunsettled .tradeSell
  have hdeposits := hunsettled .deposit
  unfold withdrawableQuanta investableQuanta
  constructor
  · omega
  · omega

/-! ### The steps of a sell order -/

/-- The quantity and the price of a fill are not negative. -/
def NonnegFill (op : Op) : Prop :=
  match op with
  | .tradeUpdate _ message => ∀ (quantity : Units) (price : Price),
      QuantizedDecimal.ofText message.qty = .ok quantity →
      QuantizedDecimal.ofText message.price = .ok price → 0 ≤ quantity.quanta ∧ 0 ≤ price.quanta
  | _ => True

/-- A sell order whose hold is over nothing, in a database in which the figures of its customer are
not lower than in `db₀`. -/
structure SaleKept (db₀ : Database) (o : Order) (hold : ApprovalHold) (db : Database) : Prop
    extends Tracked o hold db where
  sell : o.side = .sell
  nothing : hold.amountMoney.quanta = 0
  ledger : LedgerKnown db
  withdrawable : withdrawableQuanta db₀ o.customerId ≤ withdrawableQuanta db o.customerId
  investable : investableQuanta db₀ o.customerId ≤ investableQuanta db o.customerId

theorem holdShare_of_nothing {hold : ApprovalHold} (h : hold.amountMoney.quanta = 0)
    (customerId : Uuid) : holdShare customerId hold = 0 := by
  unfold holdShare
  split_ifs
  · exact h
  · rfl

section Kept
variable {db₀ db db' : Database} {o : Order} {hold : ApprovalHold} (h : SaleKept db₀ o hold db)
include h

theorem SaleKept.moved {o' : Order} {hold' : ApprovalHold}
    (hm : OrderMoved o hold o' hold' db db') : SaleKept db₀ o' hold' db' := by
  have hsell : o'.side = .sell := hm.terms.side.trans h.sell
  have hnothing : hold'.amountMoney.quanta = 0 := by rw [hm.holdAmount]; exact h.nothing
  have hholds := hm.holdQuanta h.toTracked o.customerId
  have hinvestable := hm.investable h.toTracked o.customerId
  rw [holdShare_of_nothing h.nothing, holdShare_of_nothing hnothing] at hholds hinvestable
  rw [commitmentShare_of_sell h.sell, commitmentShare_of_sell hsell] at hinvestable
  have hsettled := (ledger_congr hm.ledger o.customerId).1
  have hledger : LedgerKnown db' := by
    have hside := hm.ledger
    simp only [ledgerSide, Prod.mk.injEq] at hside
    exact h.ledger.same (SameCash.of_eq hside.2.1 hside.1 hside.2.2)
  have hwithdrawable' := h.withdrawable
  have hinvestable' := h.investable
  refine ⟨h.toTracked.moved hm, hsell, hnothing, hledger, ?_, ?_⟩
  · rw [hm.terms.customerId]
    unfold withdrawableQuanta at *
    omega
  · rw [hm.terms.customerId]
    omega

/-- **The step lemma.** -/
theorem SaleKept.step {step : Step} {u : Unit} (hown : Concerns o.id step.op)
    (hfill : NonnegFill step.op) (hrun : (body step).run db = .ok (u, db')) :
    ∃ o' hold', SaleKept db₀ o' hold' db' ∧ SameTerms o o' := by
  rcases h.toTracked.own_step hown (body_orders hrun) with rfl | ⟨hstatus, rfl⟩ | ⟨event, state, mid,
    hid, hbrings, harrived, hfollowed⟩
  · exact ⟨o, hold, h, rfl⟩
  · exact ⟨_, hold, h.moved h.toTracked.approve, rfl⟩
  · obtain ⟨hold', hmoved, -⟩ := h.toTracked.arrival harrived
    have hmid := h.moved hmoved
    rcases hfollowed with ⟨-, rfl⟩ | ⟨fill, hparsed, hcustomer, htype, hlots⟩
    · exact ⟨_, hold', hmid, hmoved.terms⟩
    · have hproceeds : 0 ≤ notional fill.price fill.quantity := by
        unfold Brings at hbrings
        unfold NonnegFill at hfill
        cases hop : step.op with
        | submitToBroker id broker =>
          rw [hop] at hbrings
          rcases hbrings.2.2.2 with hne | hne <;> rw [htype] at hne <;> cases hne
        | tradeUpdate fault message =>
          rw [hop] at hbrings hfill
          obtain ⟨-, eventType, -, rfl⟩ := hbrings
          obtain rfl : eventType = .fill := htype
          obtain ⟨hquantity, hprice⟩ := fillOf_eventOfMessage.mp hparsed
          obtain ⟨hq, hp⟩ := hfill _ _ hquantity hprice
          exact notional_nonneg hp hq
        | _ => rw [hop] at hbrings; exact hbrings.elim
      have hlots' : LotFilled step.env (projected o state) fill mid db' := hlots
      obtain ⟨hwithdrawable, hinvestable⟩ :=
        soldFill_figures hmid.ledger hmid.sell hlots' hproceeds (projected o state).customerId
      refine ⟨_, hold', ⟨hmid.toTracked.frame hlots.orderSide, hmid.sell, hmid.nothing,
        hmid.ledger.posts (lotFilled_posts hlots), ?_, ?_⟩, hmoved.terms⟩
      · rw [hwithdrawable]
        exact hmid.withdrawable
      · exact hmid.investable.trans hinvestable

/-- **The run lemma.** -/
theorem SaleKept.along {steps : List Step} (hsteps : RunMeets body
      (fun _ step => Concerns o.id step.op ∧ NonnegFill step.op) steps db) :
    ∃ o' hold', SaleKept db₀ o' hold' (run steps db) ∧ SameTerms o o' := by
  refine runs_keeps_of_meets (I := fun mid => ∃ o' hold', SaleKept db₀ o' hold' mid ∧ SameTerms o o')
    ?_ steps ⟨o, hold, h, rfl⟩ hsteps
  rintro mid step u mid' ⟨o₁, hold₁, h₁, hterms⟩ ⟨hown, hfill⟩ hrun
  rw [← hterms.id] at hown
  obtain ⟨o₂, hold₂, h₂, hterms'⟩ := h₁.step hown hfill hrun
  exact ⟨o₂, hold₂, h₂, hterms.trans hterms'⟩

end Kept

/-! ### The placement -/

/-- The designation of lots changes no share of a sell order. -/
theorem committed_set_sell {db : Database} {o o' : Order} (ho : o ∈ db.orders) (hid : o.id = o'.id)
    (hsell : o.side = .sell) (hsell' : o'.side = .sell) (customerId : Uuid) :
    committedQuanta { db with orders := db.orders.set o' } customerId =
      committedQuanta db customerId := by
  have hexchange := Table.total_set ho hid (commitmentShare db customerId)
  rw [commitmentShare_of_sell hsell, commitmentShare_of_sell hsell', sub_zero, add_zero] at hexchange
  exact hexchange

/-- A sell order that is placed takes its notional from both figures until it is submitted. -/
theorem placeOrder_sell {env : Env} {request : OrderCreationRequest}
    {designatedLotIds : Option (List Uuid)} {db db' : Database} {order : Order}
    (hderived : ∀ o ∈ db.orders, o.clientOrderId = .trueup o.id) (hsell : request.side = .sell)
    (hplace : (placeOrder env request designatedLotIds).run db = .ok (order, db')) :
    ∃ hold, Tracked order hold db' ∧ order.side = .sell ∧ order.customerId = request.customerId ∧
      ledgerSide db' = ledgerSide db ∧
      hold.amountMoney.quanta = notional request.referencePrice request.quantity ∧
      withdrawableQuanta db' request.customerId = withdrawableQuanta db request.customerId -
        notional request.referencePrice request.quantity ∧
      investableQuanta db' request.customerId = investableQuanta db request.customerId -
        notional request.referencePrice request.quantity := by
  obtain ⟨created, mid, hcreate, rfl, rfl⟩ := placeOrder_ok hplace
  obtain ⟨hold, htracked, -, -, hcustomer, hside, hamount⟩ := createOrder_tracked hderived hcreate
  have hwithdrawable := createOrder_withdrawable hcreate
  have hinvestable := createOrder_investable hcreate
  have hledger : ledgerSide mid = ledgerSide db := by
    obtain ⟨-, -, -, -, -, -, -, -, rfl⟩ := createOrder_ok hcreate
    rfl
  have hdesignated := @committed_set_sell mid created { created with designatedLotIds } htracked.mem rfl
    (hside.trans hsell) (hside.trans hsell) request.customerId
  refine ⟨hold, ⟨Table.mem_set_self htracked.mem rfl, htracked.mem_hold, htracked.key,
    htracked.customer, fun o ho => ?_⟩, hside.trans hsell, hcustomer, hledger, hamount, hwithdrawable,
    ?_⟩
  · rcases Table.mem_set.mp ho with ⟨ho, -⟩ | ⟨rfl, -⟩
    · exact htracked.derived o ho
    · exact htracked.derived created htracked.mem
  · rw [← hinvestable]
    unfold investableQuanta
    rw [hdesignated]
    rfl

/-- **The sells of a rebalance** take their notionals out of what is investable. -/
theorem placeSells_investable {readings : ℕ → Env} {customerId : Uuid} :
    ∀ {entries : List DriftEntry} {i : ℕ} {db db' : Database} {orders : List Order},
      (placeSells readings customerId entries i).run db = .ok (orders, db') →
        investableQuanta db' customerId = investableQuanta db customerId -
          ((entries.filter (·.direction = .sell)).map sellNotional).sum
  | [], _, db, db', _, h => by
    obtain ⟨-, rfl⟩ := pure_ok.mp h
    simp
  | entry :: entries, i, db, db', _, h => by
    rw [placeSells, RebalanceOrderService.placeSells] at h
    split_ifs at h with hsell
    · rw [bind_ok] at h
      obtain ⟨order, mid, hplace, h⟩ := h
      rw [bind_ok] at h
      obtain ⟨rest, _, hrest, h⟩ := h
      obtain ⟨-, rfl⟩ := pure_ok.mp h
      obtain ⟨request, rfl, -, hnotional, hcreate⟩ := placeSell_ok hplace
      rw [placeSells_investable hrest, createOrder_investable hcreate, hnotional,
        List.filter_cons_of_pos (by simpa using hsell), List.map_cons, List.sum_cons]
      ring
    · rw [placeSells_investable h, List.filter_cons_of_neg (by simpa using hsell)]

theorem sale_keeps_iff {env : Env} {request : OrderCreationRequest}
    {designatedLotIds : Option (List Uuid)} {db db₁ : Database} {order : Order}
    (hledger : LedgerKnown db) (hderived : ∀ o ∈ db.orders, o.clientOrderId = .trueup o.id)
    (hsell : request.side = .sell) (hquantity : 0 < request.quantity)
    (hprice : 0 < request.referencePrice)
    (hplace : (placeOrder env request designatedLotIds).run db = .ok (order, db₁)) :
    (∀ steps, RunMeets body (fun _ step => Concerns order.id step.op ∧ NonnegFill step.op) steps db₁ →
        withdrawableQuanta db request.customerId ≤
          withdrawableQuanta (run steps db₁) request.customerId ∧
        investableQuanta db request.customerId ≤
          investableQuanta (run steps db₁) request.customerId) ↔
      notional request.referencePrice request.quantity = 0 := by
  obtain ⟨hold, htracked, hside, hcustomer, hsame, hamount, hwithdrawable, hinvestable⟩ :=
    placeOrder_sell hderived hsell hplace
  constructor
  · -- the placement alone takes the notional
    intro hkept
    have hfirst := (hkept [] trivial).1
    rw [show run [] db₁ = db₁ from rfl, hwithdrawable] at hfirst
    have hnonneg := notional_nonneg (le_of_lt hprice) (le_of_lt hquantity)
    omega
  · intro hnothing steps hsteps
    simp only [ledgerSide, Prod.mk.injEq] at hsame
    have hkept : SaleKept db order hold db₁ := by
      refine ⟨htracked, hside, hamount.trans hnothing,
        hledger.same (SameCash.of_eq hsame.2.1 hsame.1 hsame.2.2), ?_, ?_⟩
      · rw [hcustomer]; omega
      · rw [hcustomer]; omega
    obtain ⟨o', hold', h', hterms⟩ := hkept.along hsteps
    have hwithdrawable' := h'.withdrawable
    have hinvestable' := h'.investable
    rw [hterms.customerId, hcustomer] at hwithdrawable' hinvestable'
    exact ⟨hwithdrawable', hinvestable'⟩

theorem placeSells_keeps_iff {readings : ℕ → Env} {customerId : Uuid} {entries : List DriftEntry}
    {i : ℕ} {db db' : Database} {orders : List Order}
    (hsells : (placeSells readings customerId entries i).run db = .ok (orders, db'))
    (hover : ∀ entry ∈ entries, entry.direction = .sell →
      entry.targetMarketValue ≤ entry.currentMarketValue ∧ ∀ price ∈ entry.price, 0 ≤ price) :
    investableQuanta db customerId ≤ investableQuanta db' customerId ↔
      ∀ entry ∈ entries, entry.direction = .sell → sellNotional entry = 0 := by
  have hmem : ∀ entry, entry ∈ entries.filter (·.direction = .sell) ↔
      entry ∈ entries ∧ entry.direction = .sell := by
    intro entry
    rw [List.mem_filter, decide_eq_true_eq]
  have hnonneg : ∀ n ∈ (entries.filter (·.direction = .sell)).map sellNotional, 0 ≤ n := by
    intro n hn
    obtain ⟨entry, hentry, rfl⟩ := List.mem_map.mp hn
    obtain ⟨hflag, hdirection⟩ := (hmem entry).mp hentry
    obtain ⟨hle, hprice⟩ := hover entry hflag hdirection
    exact sellNotional_nonneg hle hprice
  rw [placeSells_investable hsells]
  constructor
  · intro hkept entry hflag hdirection
    have hsum := List.sum_nonneg hnonneg
    refine List.all_zero_of_le_zero_le_of_sum_eq_zero hnonneg (by omega) ?_
    exact List.mem_map_of_mem ((hmem entry).mpr ⟨hflag, hdirection⟩)
  · intro hnothing
    have hsum : ((entries.filter (·.direction = .sell)).map sellNotional).sum = 0 := by
      refine List.sum_eq_zero fun n hn => ?_
      obtain ⟨entry, hentry, rfl⟩ := List.mem_map.mp hn
      obtain ⟨hflag, hdirection⟩ := (hmem entry).mp hentry
      exact hnothing entry hflag hdirection
    omega

/-- **Selling and spendable cash.** The steps of a sell order, at a positive quantity and price and
with fills that are not negative, never leave `withdrawable` or `investable` lower than before the
order exactly when its notional rounds to nothing; and the sells of a rebalance leave the buys no
less to spend exactly when all their notionals do. -/
theorem sell_keeps_spendable_cash_iff {env : Env} {request : OrderCreationRequest}
    {designatedLotIds : Option (List Uuid)} {db db₁ : Database} {order : Order}
    (hledger : LedgerKnown db) (hderived : ∀ o ∈ db.orders, o.clientOrderId = .trueup o.id)
    (hsell : request.side = .sell) (hquantity : 0 < request.quantity)
    (hprice : 0 < request.referencePrice)
    (hplace : (placeOrder env request designatedLotIds).run db = .ok (order, db₁)) :
    ((∀ steps, RunMeets body (fun _ step => Concerns order.id step.op ∧ NonnegFill step.op) steps db₁ →
        withdrawableQuanta db request.customerId ≤
          withdrawableQuanta (run steps db₁) request.customerId ∧
        investableQuanta db request.customerId ≤
          investableQuanta (run steps db₁) request.customerId) ↔
      notional request.referencePrice request.quantity = 0) ∧
    ∀ readings cashBufferPct evaluation orders db₂,
      (generateOrders readings cashBufferPct evaluation).run db = .ok (orders, db₂) →
      (∀ entry ∈ securityFlags evaluation, entry.direction = .sell →
        entry.targetMarketValue ≤ entry.currentMarketValue ∧ ∀ price ∈ entry.price, 0 ≤ price) →
      ∃ sells mid, (placeSells readings evaluation.customerId (securityFlags evaluation) 0).run db =
          .ok (sells, mid) ∧
        (investableQuanta db evaluation.customerId ≤ investableQuanta mid evaluation.customerId ↔
          ∀ entry ∈ securityFlags evaluation, entry.direction = .sell → sellNotional entry = 0) := by
  refine ⟨sale_keeps_iff hledger hderived hsell hquantity hprice hplace, ?_⟩
  intro readings cashBufferPct evaluation orders db₂ hgenerate hover
  obtain ⟨sells, mid, hsells, -⟩ := generateOrders_ok hgenerate
  exact ⟨sells, mid, hsells, placeSells_keeps_iff hsells hover⟩

/-- A deposit of 2000, confirmed, of which ten shares are bought at 100. -/
def investedAccount : Database := run [
  ⟨envAt 1 1, .initiateDeposit 1 (dollars 2000)⟩, ⟨envAt 2 2, .confirmSettlement 1⟩,
  ⟨envAt 3 3, .placeOrder ⟨1, 7, .buy, shares 10, dollarsPerShare 100⟩ none⟩,
  ⟨envAt 4 4, .submitToBroker 3 (.ok "b")⟩,
  ⟨envAt 5 5, .tradeUpdate none ⟨.fill, some "x", .trueup 3, ⟨5, true⟩, some 100, some 10⟩⟩]
  (openedAccount 1)

theorem reachable_investedAccount : Reachable investedAccount :=
  ⟨openedAccount 1, _, fresh_openedAccount 1, rfl⟩

/-- A millionth of a share is sold at 1. -/
def sellMicroshare : Tx Order :=
  placeOrder (envAt 6 6) ⟨1, 7, .sell, microshare, dollarsPerShare 1⟩ none

theorem sell_keeps_spendable_cash_microshare : ∃ order,
    sellMicroshare.run investedAccount = .ok (order, atomically sellMicroshare investedAccount) ∧
    ∀ steps, RunMeets body (fun _ step => Concerns order.id step.op ∧ NonnegFill step.op) steps
        (atomically sellMicroshare investedAccount) →
      withdrawableQuanta investedAccount 1 ≤
        withdrawableQuanta (run steps (atomically sellMicroshare investedAccount)) 1 ∧
      investableQuanta investedAccount 1 ≤
        investableQuanta (run steps (atomically sellMicroshare investedAccount)) 1 := by
  obtain ⟨order, hplace⟩ :=
    run_of_isOk (x := sellMicroshare) (s := investedAccount) (by decide +kernel)
  have hderived : ∀ o ∈ investedAccount.orders.rows, o.clientOrderId = .trueup o.id := by
    decide +kernel
  refine ⟨order, hplace, ?_⟩
  exact (sell_keeps_spendable_cash_iff (mirrored_of_reachable reachable_investedAccount).known hderived
    rfl (by decide) (by decide) hplace).1.mpr (by decide +kernel)

/-- The ten shares are sold at 100. -/
def sellTen : Tx Order :=
  placeOrder (envAt 6 6) ⟨1, 7, .sell, shares 10, dollarsPerShare 100⟩ none

/-- The ten shares are to be replaced by shares of security 8, at the same value. -/
def replaceTen : DriftEvaluation := ⟨1, 1, 6, false, dollars 2000, [
  ⟨some 7, dollars 1000, 0, 1 / 2, 0, some (dollarsPerShare 100), true, .sell⟩,
  ⟨some 8, 0, dollars 1000, 0, 1 / 2, some (dollarsPerShare 100), true, .buy⟩]⟩

/-- Placing the sale takes its 1000 from what is withdrawable and investable, and a rebalance that
sells the ten shares has nothing left to buy with, though 1000 were there. -/
theorem sell_order_lowers_cash : Reachable investedAccount ∧
    withdrawable investedAccount 1 = .ok (dollars 1000) ∧
    withdrawable (atomically sellTen investedAccount) 1 = .ok 0 ∧ ¬ dollars 1000 ≤ 0 ∧
    investable investedAccount 1 = .ok (dollars 1000) ∧
    investable (atomically sellTen investedAccount) 1 = .ok 0 ∧
    (atomically (generateOrders (fun i => envAt 6 (6 + i)) 0 replaceTen) investedAccount).orders.rows.map
      (fun o => (o.securityId, o.side)) = [(7, .buy), (7, .sell)] :=
  ⟨reachable_investedAccount, by decide +kernel, by decide +kernel, by decide, by decide +kernel,
    by decide +kernel, by decide +kernel⟩

end Trueup.Cash
