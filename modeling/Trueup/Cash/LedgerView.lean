import Trueup.System

/-! # The ledger as the cash policy sees it

Of a posting the policy reads the entry, the customer and the amount, if the account is a cash
account; of an obligation the entry, the customer, the amount and the status.
`settledCashQuanta_rows` and `unsettledQuanta_views` give the figures in these terms.

A step of the system leaves what the policy sees of the ledger alone (`SameCash`), adds one entry to
it (`Posts`), or settles an obligation (`Settles`), and what it adds is decided by its inputs:
`initiateDeposit_posts`, `initiateWithdrawal_posts`, `lotFilled_posts`, `confirmSettlement_settles`
and `applyAchReturn_settles`. -/

namespace Trueup.Cash

open Trueup.Core Trueup.Models Trueup.Lib Trueup.Lib.Transaction Trueup.Ledger Trueup.Lots
open Trueup.Identity Trueup.Orders Trueup.System

/-- A posting on a cash account. -/
structure CashRow where
  entryId : Uuid
  customerId : Option Uuid
  amount : ℤ
  deriving DecidableEq

/-- What is read of an obligation. -/
structure ObligationView where
  id : Uuid
  entryId : Uuid
  customerId : Option Uuid
  role : AccountRole
  amount : ℤ
  status : SettlementObligationStatus
  deriving DecidableEq

/-- The cash an obligation stands for. -/
def ObligationView.cashRow (v : ObligationView) : CashRow := ⟨v.entryId, v.customerId, v.amount⟩

@[simp] theorem ObligationView.cashRow_entryId (v : ObligationView) :
    v.cashRow.entryId = v.entryId := rfl

@[simp] theorem ObligationView.cashRow_customerId (v : ObligationView) :
    v.cashRow.customerId = v.customerId := rfl

@[simp] theorem ObligationView.cashRow_amount (v : ObligationView) :
    v.cashRow.amount = v.amount := rfl

def cashRowOf (p : Posting) : CashRow :=
  ⟨p.journalEntryId, p.account.customerId, p.amount.moneyQuanta⟩

theorem cashRowOf_eq (p : Posting) : (cashRowOf p).customerId = p.account.customerId ∧
    (cashRowOf p).amount = p.amount.moneyQuanta := ⟨rfl, rfl⟩

/-- The cash rows among some postings. -/
def cashRowsOf (postings : List Posting) : List CashRow :=
  (postings.filter (·.account.role = .cash)).map cashRowOf

def cashRows (db : Database) : List CashRow := cashRowsOf db.postings

def viewOf (o : SettlementObligation) : ObligationView :=
  ⟨o.id, o.journalEntryId, o.account.customerId, o.account.role, o.amountMoney.quanta, o.status⟩

def views (db : Database) : List ObligationView := db.settlementObligations.rows.map viewOf

/-- The type of an entry, if there is one of that id. -/
def entryTypeOf (db : Database) (entryId : Uuid) : Option JournalEntryType :=
  (db.journalEntries.find entryId).map (·.entryType)

theorem views_unique {db : Database} {v w : ObligationView} (hv : v ∈ views db) (hw : w ∈ views db)
    (h : v.id = w.id) : v = w := by
  obtain ⟨o, ho, rfl⟩ := List.mem_map.mp hv
  obtain ⟨o', ho', rfl⟩ := List.mem_map.mp hw
  rw [Table.eq_of_key_eq ho ho' h]

/-! ### The figures -/

/-- The filter of `settled_cash` on a cash row. -/
def rowSettled (vs : List ObligationView) (row : CashRow) : Bool :=
  (∀ v ∈ vs, v.entryId ≠ row.entryId) ∨
    (∃ v ∈ vs, v.entryId = row.entryId ∧ v.status = .confirmed) ∨ row.amount < 0

theorem rowSettled_iff {vs : List ObligationView} {row : CashRow} : rowSettled vs row = true ↔
    (∀ v ∈ vs, v.entryId ≠ row.entryId) ∨
      (∃ v ∈ vs, v.entryId = row.entryId ∧ v.status = .confirmed) ∨ row.amount < 0 :=
  decide_eq_true_iff

/-- The share of a cash row in the settled cash of a customer. -/
def rowShare (vs : List ObligationView) (customerId : Uuid) (row : CashRow) : ℤ :=
  if row.customerId = some customerId ∧ rowSettled vs row then row.amount else 0

theorem settledCashQuanta_rows (db : Database) (customerId : Uuid) :
    settledCashQuanta db customerId = ((cashRows db).map (rowShare (views db) customerId)).sum := by
  rw [settledCashQuanta, sum_filter_map, cashRows, cashRowsOf, List.map_map, sum_filter_map]
  refine congrArg List.sum (List.map_congr_left fun p _ => ?_)
  have hsettled : isSettled db p = rowSettled (views db) (cashRowOf p) := by
    simp [isSettled, rowSettled, views, viewOf, cashRowOf]
  by_cases hrole : p.account.role = .cash
  · simp [isCashOf, rowShare, hrole, hsettled, cashRowOf_eq p]
  · simp [isCashOf, hrole]

/-- The share of an obligation in the unsettled inflows of a customer, of one type of entry. -/
def pendingShare (typeOf : Uuid → Option JournalEntryType) (customerId : Uuid)
    (entryType : JournalEntryType) (v : ObligationView) : ℤ :=
  if v.customerId = some customerId ∧ v.status = .pending ∧ typeOf v.entryId = some entryType then
    v.amount else 0

theorem unsettledQuanta_views (db : Database) (customerId : Uuid) (entryType : JournalEntryType) :
    unsettledQuanta db customerId entryType =
      ((views db).map (pendingShare (entryTypeOf db) customerId entryType)).sum := by
  rw [unsettledQuanta, sum_filter_map, views, List.map_map]
  refine congrArg List.sum (List.map_congr_left fun o _ => ?_)
  simp only [isUnsettled, decide_eq_true_eq]
  rfl

/-! ### What a step can do to it -/

/-- Nothing that is seen of the ledger has changed. -/
structure SameCash (db db' : Database) : Prop where
  cash : cashRows db' = cashRows db
  obligations : views db' = views db
  known : ∀ id, db.journalEntries.Has id → db'.journalEntries.Has id
  types : ∀ id, db.journalEntries.Has id → entryTypeOf db' id = entryTypeOf db id

/-- The orders and the customers are the same. -/
def SameOrders (db db' : Database) : Prop :=
  orderSide db' = orderSide db ∧ db'.customers = db.customers

/-- One entry is new, with its cash rows and perhaps an obligation. -/
structure Posts (db db' : Database) (entryId : Uuid) (entryType : JournalEntryType)
    (rows : List CashRow) (obligation : Option ObligationView) : Prop where
  fresh : ¬ db.journalEntries.Has entryId
  cash : cashRows db' = cashRows db ++ rows
  rows_entry : ∀ row ∈ rows, row.entryId = entryId
  obligations : views db' = views db ++ obligation.toList
  obligation_entry : ∀ v ∈ obligation, v.entryId = entryId
  known : ∀ id, db.journalEntries.Has id → db'.journalEntries.Has id
  types : ∀ id, db.journalEntries.Has id → entryTypeOf db' id = entryTypeOf db id
  entry_known : db'.journalEntries.Has entryId
  entry_type : entryTypeOf db' entryId = some entryType
  orders : SameOrders db db'

/-- The view of an obligation whose status is changed. -/
def settleView (obligationId : Uuid) (status : SettlementObligationStatus) (v : ObligationView) :
    ObligationView :=
  if v.id = obligationId then { v with status } else v

/-- A pending obligation gets another status. -/
structure Settles (db db' : Database) (v : ObligationView)
    (status : SettlementObligationStatus) : Prop where
  mem : v ∈ views db
  pending : v.status = .pending
  cash : cashRows db' = cashRows db
  obligations : views db' = (views db).map (settleView v.id status)
  entries : db'.journalEntries = db.journalEntries
  orders : SameOrders db db'

theorem settleView_entryId (id : Uuid) (status : SettlementObligationStatus) (v : ObligationView) :
    (settleView id status v).entryId = v.entryId := by
  unfold settleView
  split_ifs <;> rfl

section Compose
variable {db mid db' : Database} {entryId : Uuid} {entryType : JournalEntryType}
  {rows : List CashRow} {obligation : Option ObligationView}

theorem SameCash.refl (db : Database) : SameCash db db :=
  ⟨rfl, rfl, fun _ h => h, fun _ _ => rfl⟩

theorem SameCash.trans (h : SameCash db mid) (h' : SameCash mid db') : SameCash db db' where
  cash := h'.cash.trans h.cash
  obligations := h'.obligations.trans h.obligations
  known id hid := h'.known id (h.known id hid)
  types id hid := (h'.types id (h.known id hid)).trans (h.types id hid)

theorem SameOrders.trans (h : SameOrders db mid) (h' : SameOrders mid db') : SameOrders db db' :=
  ⟨h'.1.trans h.1, h'.2.trans h.2⟩

theorem SameOrders.symm (h : SameOrders db db') : SameOrders db' db := ⟨h.1.symm, h.2.symm⟩

/-- Two databases with the same orders still have them after steps that leave the orders alone. -/
theorem SameOrders.square {db₁ db₂ db₁' db₂' : Database} (h : SameOrders db₁ db₂)
    (h₁ : SameOrders db₁ db₁') (h₂ : SameOrders db₂ db₂') : SameOrders db₁' db₂' :=
  h₁.symm.trans (h.trans h₂)

theorem SameCash.trans_posts (h : SameCash db mid) (ho : SameOrders db mid)
    (h' : Posts mid db' entryId entryType rows obligation) :
    Posts db db' entryId entryType rows obligation :=
  { h' with
    fresh := fun hid => h'.fresh (h.known entryId hid)
    cash := by rw [h'.cash, h.cash]
    obligations := by rw [h'.obligations, h.obligations]
    known := fun id hid => h'.known id (h.known id hid)
    types := fun id hid => (h'.types id (h.known id hid)).trans (h.types id hid)
    orders := ho.trans h'.orders }

theorem Posts.trans_same (h : Posts db mid entryId entryType rows obligation)
    (h' : SameCash mid db') (ho : SameOrders mid db') :
    Posts db db' entryId entryType rows obligation :=
  { h with
    cash := by rw [h'.cash, h.cash]
    obligations := by rw [h'.obligations, h.obligations]
    known := fun id hid => h'.known id (h.known id hid)
    types := fun id hid => (h'.types id (h.known id hid)).trans (h.types id hid)
    entry_known := h'.known entryId h.entry_known
    entry_type := (h'.types entryId h.entry_known).trans h.entry_type
    orders := h.orders.trans ho }

theorem SameCash.of_eq (hentries : db'.journalEntries = db.journalEntries)
    (hpostings : db'.postings = db.postings)
    (hobl : db'.settlementObligations = db.settlementObligations) : SameCash db db' where
  cash := by rw [cashRows, hpostings, cashRows]
  obligations := by rw [views, hobl, views]
  known id hid := by rw [hentries]; exact hid
  types id _ := by rw [entryTypeOf, hentries, entryTypeOf]

end Compose

section Entry
variable {db db' : Database} {entry : JournalEntry} {ps : List Posting}
  (hentries : db.journalEntries.insert entry = some db'.journalEntries)
  (hpostings : db'.postings = db.postings ++ ps)
include hentries

theorem known_of_insert (id : Uuid) (h : db.journalEntries.Has id) : db'.journalEntries.Has id :=
  (Table.has_insert hentries id).mpr (Or.inl h)

theorem types_of_insert (id : Uuid) (h : db.journalEntries.Has id) :
    entryTypeOf db' id = entryTypeOf db id := by
  rw [entryTypeOf, Table.find_insert_of_has hentries h, entryTypeOf]

include hpostings

omit hentries in
theorem cashRows_append : cashRows db' = cashRows db ++ cashRowsOf ps := by
  rw [cashRows, hpostings, cashRowsOf, List.filter_append, List.map_append]
  rfl

theorem SameCash.of_entry (hps : cashRowsOf ps = [])
    (hobl : db'.settlementObligations = db.settlementObligations) : SameCash db db' where
  cash := by rw [cashRows_append hpostings, hps, List.append_nil]
  obligations := by rw [views, hobl, views]
  known := known_of_insert hentries
  types := types_of_insert hentries

theorem Posts.of_entry {rows : List CashRow} {obligation : Option ObligationView}
    (hrows : cashRowsOf ps = rows) (hrows_entry : ∀ row ∈ rows, row.entryId = entry.id)
    (hobl : views db' = views db ++ obligation.toList)
    (hobl_entry : ∀ v ∈ obligation, v.entryId = entry.id) (ho : SameOrders db db') :
    Posts db db' entry.id entry.entryType rows obligation where
  fresh := (Table.insert_eq_some.mp hentries).1
  cash := by rw [cashRows_append hpostings, hrows]
  rows_entry := hrows_entry
  obligations := hobl
  obligation_entry := hobl_entry
  known := known_of_insert hentries
  types := types_of_insert hentries
  entry_known := (Table.has_insert hentries _).mpr (Or.inr rfl)
  entry_type := by rw [entryTypeOf, Table.find_insert hentries, if_pos rfl]; rfl
  orders := ho

end Entry

theorem views_insert {db : Database} (db' : Database) {o : SettlementObligation}
    (h : db.settlementObligations.insert o = some db'.settlementObligations) :
    views db' = views db ++ [viewOf o] := by
  rw [views, Table.rows_insert h, List.map_append]
  rfl

theorem cashRowsOf_cash {cash : Account} {owner : Uuid} (hcash : IsAccountOf cash owner .cash none)
    (entryId : Uuid) (amount : Money) :
    cashRowsOf [⟨entryId, cash, .money amount⟩] = [⟨entryId, some owner, amount.quanta⟩] := by
  simp [cashRowsOf, cashRowOf, hcash.role, hcash.customer, Amount.moneyQuanta]

theorem cashRowsOf_other {l : List Posting} (h : ∀ p ∈ l, p.account.role ≠ .cash) :
    cashRowsOf l = [] := by
  rw [cashRowsOf, List.map_eq_nil_iff, List.filter_eq_nil_iff]
  intro p hp
  simpa using h p hp

theorem cashRowsOf_append (ps qs : List Posting) :
    cashRowsOf (ps ++ qs) = cashRowsOf ps ++ cashRowsOf qs := by
  simp [cashRowsOf]

/-! ### Funding -/

/-- The view of the obligation of a deposit. -/
def depositView (env : Env) (customerId : Uuid) (amount : Money) : ObligationView :=
  ⟨env.uuid4 .settlementObligation, env.uuid4 .journalEntry, some customerId, .cash, amount.quanta,
    .pending⟩

theorem initiateDeposit_posts {env : Env} {customerId : Uuid} {amount : Money} {db db' : Database}
    {r : DepositResult} (h : (initiateDeposit env customerId amount).run db = .ok (r, db')) :
    r.settlementObligationId = env.uuid4 .settlementObligation ∧
    Posts db db' (env.uuid4 .journalEntry) .deposit
      [(depositView env customerId amount).cashRow] (some (depositView env customerId amount)) := by
  obtain ⟨entry, cash, equity, entries, obligations, hentry, hcash, hequity, hentries, hobl, heq,
    hr, -⟩ := initiateDeposit_ok h
  refine ⟨hr, ?_⟩
  have hrows : cashRowsOf [⟨entry.id, cash, .money amount⟩, ⟨entry.id, equity, .money amount.neg⟩] =
      [(depositView env customerId amount).cashRow] := by
    rw [← List.singleton_append, cashRowsOf_append, cashRowsOf_cash hcash,
      cashRowsOf_other (by simp [hequity.role]), List.append_nil, hentry]
    rfl
  have hview : views db' = views db ++ [depositView env customerId amount] := by
    rw [views_insert db' (by rw [heq]; exact hobl), viewOf]
    simp only [depositObligation, depositView, hcash.customer, hcash.role, hentry]
  have hposts : Posts db db' entry.id _ _ (some (depositView env customerId amount)) :=
    Posts.of_entry (by rw [heq]; exact hentries) (by rw [heq]) hrows
      (by simp [depositView, hentry]) hview (by simp [depositView, hentry])
      (by rw [heq]; exact ⟨rfl, rfl⟩)
  rw [hentry] at hposts
  exact hposts

theorem initiateWithdrawal_posts {env : Env} {customerId : Uuid} {amount : Money}
    {db db' : Database} {r : WithdrawalResult}
    (h : (initiateWithdrawal env customerId amount).run db = .ok (r, db')) :
    Posts db db' (env.uuid4 .journalEntry) .withdrawal
      [⟨env.uuid4 .journalEntry, some customerId, -amount.quanta⟩] none := by
  obtain ⟨available, entry, cash, equity, entries, -, -, hentry, hcash, hequity, hentries, heq⟩ :=
    initiateWithdrawal_ok h
  have hrows : cashRowsOf [⟨entry.id, cash, .money amount.neg⟩, ⟨entry.id, equity, .money amount⟩] =
      [⟨entry.id, some customerId, -amount.quanta⟩] := by
    rw [← List.singleton_append, cashRowsOf_append, cashRowsOf_cash hcash,
      cashRowsOf_other (by simp [hequity.role]), List.append_nil, QuantizedDecimal.quanta_neg]
  have hposts : Posts db db' entry.id _ _ none :=
    Posts.of_entry (by rw [heq]; exact hentries) (by rw [heq]) hrows (by simp)
      (by rw [heq]; simp [views]) (by simp) (by rw [heq]; exact ⟨rfl, rfl⟩)
  rw [hentry] at hposts
  exact hposts

theorem settles_of_set {db db' : Database} {o : SettlementObligation} (o' : SettlementObligation)
    (ho : o ∈ db.settlementObligations) (hpending : o.status = .pending) (hid : o.id = o'.id)
    (hview : viewOf o' = { viewOf o with status := o'.status })
    (hobl : db'.settlementObligations = db.settlementObligations.set o')
    (hpostings : db'.postings = db.postings) (hentries : db'.journalEntries = db.journalEntries)
    (hsame : SameOrders db db') : Settles db db' (viewOf o) o'.status where
  orders := hsame
  mem := List.mem_map_of_mem ho
  pending := hpending
  cash := by rw [cashRows, hpostings, cashRows]
  entries := hentries
  obligations := by
    rw [views, hobl, Table.rows_set, views, List.map_map, List.map_map]
    refine List.map_congr_left fun r hr => ?_
    simp only [Function.comp_apply, settleView]
    by_cases hkey : r.id = o.id
    · obtain rfl := Table.eq_of_key_eq hr ho hkey
      rw [if_pos hid, if_pos rfl, hview]
    · rw [if_neg fun e => hkey (e.trans hid.symm),
        if_neg (show (viewOf r).id ≠ (viewOf o).id from hkey)]

theorem confirmSettlement_settles {env : Env} {obligationId : Uuid} {db db' : Database} {u : Unit}
    (h : (confirmSettlement env obligationId).run db = .ok (u, db')) :
    ∃ v, v.id = obligationId ∧ Settles db db' v .confirmed := by
  obtain ⟨o, ho, hpending, rfl⟩ := confirmSettlement_ok h
  obtain ⟨hmem, hid⟩ := Table.find_eq_some.mp ho
  exact ⟨viewOf o, hid, settles_of_set { o with
    status := .confirmed, confirmedAt := some (env.now .confirmedAt) } hmem hpending rfl rfl rfl
    rfl rfl ⟨rfl, rfl⟩⟩

/-- The cash row of the correction of a bounced obligation. -/
def correctionRows (entryId : Uuid) (v : ObligationView) : List CashRow :=
  if v.role = .cash then [⟨entryId, v.customerId, -v.amount⟩] else []

theorem applyAchReturn_settles {env : Env} {obligationId : Uuid} {db db' : Database} {u : Unit}
    (h : (applyAchReturn env obligationId).run db = .ok (u, db')) :
    ∃ v mid, v.id = obligationId ∧ Settles db mid v .failed ∧
      Posts mid db' (env.uuid4 .journalEntry) .correction
        (correctionRows (env.uuid4 .journalEntry) v) none := by
  obtain ⟨o, customerId, entry, receivable, accounts, entries, ho, hpending, -, hentry, hrec,
    hentries, heq⟩ := applyAchReturn_ok h
  obtain ⟨hmem, hid⟩ := Table.find_eq_some.mp ho
  let o' : SettlementObligation := { o with
    status := .failed, failedAt := some (env.now .failedAt), failureReason := some "ach_return" }
  let mid : Database := { db with settlementObligations := db.settlementObligations.set o' }
  refine ⟨viewOf o, mid, hid,
    settles_of_set o' hmem hpending rfl rfl rfl rfl rfl ⟨rfl, rfl⟩, ?_⟩
  have hrows : cashRowsOf [⟨entry.id, o.account, .money o.amountMoney.neg⟩,
      ⟨entry.id, receivable, .money o.amountMoney⟩] = correctionRows entry.id (viewOf o) := by
    rw [← List.singleton_append, cashRowsOf_append,
      cashRowsOf_other (l := [⟨entry.id, receivable, .money o.amountMoney⟩])
        (by simp [hrec.role]), List.append_nil, correctionRows]
    by_cases hrole : o.account.role = .cash
    · simp [cashRowsOf, cashRowOf, viewOf, hrole, Amount.moneyQuanta]
    · simp [cashRowsOf, viewOf, hrole]
  have hentryrow : ∀ row ∈ correctionRows entry.id (viewOf o), row.entryId = entry.id := by
    intro row hrow
    unfold correctionRows at hrow
    split_ifs at hrow
    · rw [List.mem_singleton.mp hrow]
    · cases hrow
  have hposts : Posts mid db' entry.id _ _ none :=
    Posts.of_entry (by rw [heq]; exact hentries) (by rw [heq]) hrows hentryrow
      (by rw [heq]; simp [views, mid, o']) (by simp) (by rw [heq]; exact ⟨rfl, rfl⟩)
  rw [hentry] at hposts
  exact hposts

/-! ### Trading -/

/-- The lots, the wash-sale adjustments and the splits are out of sight: neither the cash policy nor
the orders see them. -/
def Unseen (db db' : Database) : Prop := SameCash db db' ∧ SameOrders db db'

theorem Unseen.refl (db : Database) : Unseen db db := ⟨SameCash.refl db, rfl, rfl⟩

theorem Unseen.trans {db mid db' : Database} (h : Unseen db mid) (h' : Unseen mid db') :
    Unseen db db' := ⟨h.1.trans h'.1, h.2.trans h'.2⟩

theorem washSaleInvariant_unseen (db₀ : Database) : WashSaleInvariant (Unseen db₀) := by
  intro db db' consumption lot hdb _ _ _ hadj
  obtain ⟨basis, realized, entry, gainLoss, cost, accounts, entries, adjustments, returns, events,
    disclosures, -, -, hgain, hcost, -, hentries, -, heq⟩ := hadj
  refine hdb.trans ⟨?_, by rw [heq]; exact ⟨rfl, rfl⟩⟩
  exact SameCash.of_entry (by rw [heq]; exact hentries) (by rw [heq])
    (cashRowsOf_other (by simp [hgain.role, hcost.role])) (by rw [heq])

/-- The type of the entry of a fill. -/
def tradeType : OrderSide → JournalEntryType
  | .buy => .tradeBuy
  | .sell => .tradeSell

/-- What a fill does to the cash. -/
def tradeCash (side : OrderSide) (fill : Fill) : ℤ :=
  match side with
  | .buy => -notional fill.price fill.quantity
  | .sell => notional fill.price fill.quantity

section Fills
variable {env : Env} {fill : Fill} {db db' : Database}

/-- The view of the obligation of a fill. -/
def tradeView (env : Env) (side : OrderSide) (fill : Fill) : ObligationView :=
  ⟨env.uuid4 .settlementObligation, env.uuid4 .journalEntry, some fill.customerId, .cash,
    tradeCash side fill, .pending⟩

theorem buyPosted_posts {lot : TaxLot} (h : BuyPosted env fill lot db db') :
    Posts db db' (env.uuid4 .journalEntry) .tradeBuy
      [(tradeView env .buy fill).cashRow] (some (tradeView env .buy fill)) := by
  obtain ⟨cost, entry, units, costs, cash, accounts, entries, settlementDate, obligations, lots,
    hcost, hid, htype, -, hunits, hcosts, hcash, -, -, -, -, -, -, -, hentries, hobl, -, heq⟩ := h
  have hrows : cashRowsOf [⟨entry.id, units, .units fill.quantity⟩, ⟨entry.id, costs, .money cost⟩,
      ⟨entry.id, cash, .money cost.neg⟩] =
      [(tradeView env .buy fill).cashRow] := by
    rw [show [(⟨entry.id, units, .units fill.quantity⟩ : Posting), ⟨entry.id, costs, .money cost⟩,
        ⟨entry.id, cash, .money cost.neg⟩] = [⟨entry.id, units, .units fill.quantity⟩,
        ⟨entry.id, costs, .money cost⟩] ++ [⟨entry.id, cash, .money cost.neg⟩] from rfl,
      cashRowsOf_append, cashRowsOf_other (by simp [hunits.role, hcosts.role]),
      cashRowsOf_cash hcash, QuantizedDecimal.quanta_neg, hcost, hid]
    rfl
  have hview : views db' = views db ++ [tradeView env .buy fill] := by
    rw [views_insert db' (by rw [heq]; exact hobl), viewOf]
    simp only [tradeObligation, tradeView, hcash.customer, hcash.role, hid, tradeCash,
      QuantizedDecimal.quanta_neg, hcost]
  have hposts : Posts db db' entry.id _ _ (some _) :=
    Posts.of_entry (by rw [heq]; exact hentries) (by rw [heq]) hrows (by simp [tradeView, hid])
      hview (by simp [tradeView, hid]) (by rw [heq]; exact ⟨rfl, rfl⟩)
  rw [hid, htype] at hposts
  exact hposts

theorem sellPosted_posts {sale : Sale} (h : SellPosted env fill sale db db') :
    Posts db db' (env.uuid4 .journalEntry) .tradeSell
      [(tradeView env .sell fill).cashRow] (some (tradeView env .sell fill)) := by
  obtain ⟨proceeds, entry, units, costs, cash, gainLoss, accounts, entries, settlementDate,
    obligations, hproceeds, hid, htype, -, hunits, hcosts, hcash, hgain, -, hentries, hobl, heq⟩ := h
  have hrows : cashRowsOf [⟨entry.id, units, .units fill.quantity.neg⟩,
      ⟨entry.id, costs, .money sale.consumedBasisTotal.neg⟩, ⟨entry.id, cash, .money proceeds⟩,
      ⟨entry.id, gainLoss, .money sale.realizedTotal.neg⟩] =
      [(tradeView env .sell fill).cashRow] := by
    rw [show [(⟨entry.id, units, .units fill.quantity.neg⟩ : Posting),
        ⟨entry.id, costs, .money sale.consumedBasisTotal.neg⟩, ⟨entry.id, cash, .money proceeds⟩,
        ⟨entry.id, gainLoss, .money sale.realizedTotal.neg⟩] =
        [⟨entry.id, units, .units fill.quantity.neg⟩,
          ⟨entry.id, costs, .money sale.consumedBasisTotal.neg⟩] ++
        ([⟨entry.id, cash, .money proceeds⟩] ++
          [⟨entry.id, gainLoss, .money sale.realizedTotal.neg⟩]) from rfl,
      cashRowsOf_append, cashRowsOf_append,
      cashRowsOf_other (l := [_, _]) (by simp [hunits.role, hcosts.role]),
      cashRowsOf_other (l := [⟨entry.id, gainLoss, .money sale.realizedTotal.neg⟩])
        (by simp [hgain.role]), cashRowsOf_cash hcash, List.nil_append, List.append_nil, hproceeds,
      hid]
    rfl
  have hview : views db' = views db ++ [tradeView env .sell fill] := by
    rw [views_insert db' (by rw [heq]; exact hobl), viewOf]
    simp only [tradeObligation, tradeView, hcash.customer, hcash.role, hid, tradeCash, hproceeds]
  have hposts : Posts db db' entry.id _ _ (some _) :=
    Posts.of_entry (by rw [heq]; exact hentries) (by rw [heq]) hrows (by simp [tradeView, hid])
      hview (by simp [tradeView, hid]) (by rw [heq]; exact ⟨rfl, rfl⟩)
  rw [hid, htype] at hposts
  exact hposts

/-- **The cash of a fill** is decided by its side, its price and its quantity. -/
theorem lotFilled_posts {order : Order} (h : LotFilled env order fill db db') :
    Posts db db' (env.uuid4 .journalEntry) (tradeType order.side)
      [(tradeView env order.side fill).cashRow] (some (tradeView env order.side fill)) := by
  rcases h with ⟨hside, clock, lot, hrun⟩ | ⟨hside, clock, ids, hrun⟩
  · obtain ⟨mid, hposted, hwash⟩ := recordBuyFill_rule hrun
    obtain ⟨hcash, horders⟩ := hwash (washSaleInvariant_unseen mid) (Unseen.refl mid)
    rw [hside]
    exact (buyPosted_posts hposted).trans_same hcash horders
  · obtain ⟨fillDate, lotIds, sale, db1, db2, db3, hselect, -, hloop, -, hposted, hwash⟩ :=
      recordSellFill_rule hrun
    have hsold : Unseen db db2 := by
      refine soldLots_keeps (I := Unseen db) (fun hs _ => ?_) (fun hs hc => ?_) hselect hloop
        (Unseen.refl db)
      · exact hs.trans ⟨SameCash.of_eq rfl rfl rfl, rfl, rfl⟩
      · obtain ⟨table, -, rfl⟩ := hc.wrote
        exact hs.trans ⟨SameCash.of_eq rfl rfl rfl, rfl, rfl⟩
    obtain ⟨hcash, horders⟩ := hwash (washSaleInvariant_unseen db3) (Unseen.refl db3)
    rw [hside]
    exact hsold.1.trans_posts hsold.2 ((sellPosted_posts hposted).trans_same hcash horders)

end Fills

theorem applyNewEvent_sameCash {env : Env} {order : Order} {event : OrderEvent}
    {state : OrderProjectionState} {db db' : Database}
    (h : (applyNewEvent env order event).run db = .ok (state, db')) : SameCash db db' := by
  obtain ⟨events, holds, -, -, -, -, rfl⟩ := applyNewEvent_ok h
  exact SameCash.of_eq rfl rfl rfl

theorem placeOrder_sameCash {env : Env} {request : OrderCreationRequest}
    {designatedLotIds : Option (List Uuid)} {placed : Order} {db db' : Database}
    (h : (placeOrder env request designatedLotIds).run db = .ok (placed, db')) :
    SameCash db db' := by
  obtain ⟨created, mid, hcreate, rfl, rfl⟩ := placeOrder_ok h
  obtain ⟨amount, orders, holds, -, rfl, -, -, -, rfl⟩ := createOrder_ok hcreate
  exact SameCash.of_eq rfl rfl rfl

theorem approve_sameCash {orderId : Uuid} {approved : Order} {db db' : Database}
    (h : (approve orderId).run db = .ok (approved, db')) : SameCash db db' := by
  obtain ⟨before, -, -, -, rfl, rfl⟩ := approve_ok h
  exact SameCash.of_eq rfl rfl rfl

theorem submitToBroker_sameCash {env : Env} {orderId : Uuid} {broker : Except Error String}
    {db db' : Database} {u : Unit} (h : (submitToBroker env orderId broker).run db = .ok (u, db')) :
    SameCash db db' := by
  rcases submitToBroker_ok h with rfl | ⟨order, -, event, state, -, -, -, -, happly⟩
  · exact SameCash.refl _
  · exact applyNewEvent_sameCash happly

theorem applySplit_unseen {env : Env} {securityId : Uuid} {ratio : SplitRatio}
    {effectiveDate : Date} {db db' : Database} {u : Unit}
    (h : (applySplit env securityId ratio effectiveDate).run db = .ok (u, db')) :
    Unseen db db' := by
  have hkeeps : Keeps (Unseen db) (applySplit env securityId ratio effectiveDate) := by
    refine keeps_bind (keeps_require _ _) fun _ => keeps_bind (keeps_read _) fun _ =>
      keeps_each fun c _ s u s' hs hrun => ?_
    rcases splitCustomer_ok hrun with rfl | ⟨mid, priorTotal, added, entry, units, accounts, entries,
      returns, events, disclosures, -, hscale, -, -, hunits, hentries, heq⟩
    · exact hs
    · have hmid : Unseen db mid := by
        refine keeps_each (I := Unseen db) (fun lotId _ s u s' hs hrun => ?_) s () mid hs hscale
        obtain ⟨lot, -, lot', -, -, rfl⟩ := scaleLot_ok hrun
        exact hs.trans ⟨SameCash.of_eq rfl rfl rfl, rfl, rfl⟩
      refine hmid.trans ⟨?_, by rw [heq]; exact ⟨rfl, rfl⟩⟩
      exact SameCash.of_entry (by rw [heq]; exact hentries) (by rw [heq])
        (cashRowsOf_other (by simp [hunits.role])) (by rw [heq])
  exact hkeeps db u db' (Unseen.refl db) h

end Trueup.Cash
