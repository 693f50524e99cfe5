import Trueup.Ledger.Conservation
import Trueup.Lib.Sums
import Trueup.Models.OpenedAccount
import Trueup.Valuation.ValuationService

/-! # The balance of the assistant

`v_customer_balance` of `models/chat/curated_views.py`, next to `_cash_balance` of the valuation,
both over the tables of the sessions. The view leaves out the entries that supersede another one,
the valuation adds up all entries.

`balance_agrees_iff`: they agree on a customer exactly when the cash legs of the customer's
corrections add up to zero. -/

namespace Trueup.Chat

open Trueup.Core Trueup.Models Trueup.Lib Trueup.Lib.Transaction Trueup.Ledger

/-- `app.role` of a session. -/
inductive SessionRole
  | customer | adviser | admin
  deriving DecidableEq

/-- What `_TENANT_PREDICATE` reads: `app.role` and `app.customer_id`. -/
structure Tenant where
  role : SessionRole
  customerId : Option Uuid

/-- `_TENANT_PREDICATE`; a null is equal to nothing. -/
def Tenant.admits (tenant : Tenant) (customerId : Option Uuid) : Bool :=
  tenant.role = .adviser ∨ tenant.role = .admin ∨
    (customerId.isSome ∧ customerId = tenant.customerId)

/-- The entry of a posting: the join on `journal_entry`. -/
def entryOf (tables : LedgerTables) (row : PostingRow) : Option JournalEntry :=
  tables.entries.find? (·.id = row.journalEntryId)

/-- `customer_id` and `amount_money` of a row of `v_customer_balance`. -/
structure BalanceRow where
  customerId : Option Uuid
  amountMoney : Option Money
  deriving DecidableEq

/-- `v_customer_balance`. -/
def vCustomerBalance (tenant : Tenant) (tables : LedgerTables) : List BalanceRow :=
  (tables.postings.filter fun row =>
    row.account.role = .cash ∧ (∃ entry ∈ entryOf tables row, entry.supersededBy = none) ∧
      tenant.admits row.account.customerId).map fun row => ⟨row.account.customerId, row.amountMoney⟩

/-- `COALESCE(SUM(amount_money), 0)` over the customer's rows of the view, in quanta. -/
def viewBalance (tenant : Tenant) (tables : LedgerTables) (customerId : Uuid) : ℤ :=
  (((vCustomerBalance tenant tables).filter (·.customerId = some customerId)).map fun row =>
    (row.amountMoney.map (·.quanta)).getD 0).sum

/-- A posting of the customer's cash, by the denormalized customer. -/
def isCash (customerId : Uuid) (row : PostingRow) : Bool :=
  row.customerId = some customerId ∧ row.account.role = .cash

/-- `_cash_balance`. -/
def cashBalance (tables : LedgerTables) (customerId : Uuid) (asOfDate : Date) : Except Error Money :=
  QuantizedDecimal.ofSum ((tables.postings.filter fun row => isCash customerId row &&
    decide (∃ entry ∈ entryOf tables row, entry.effectiveDate ≤ asOfDate)).map
      PostingRow.moneyQuanta).sum

/-- It is that of the valuation service. -/
theorem cashBalance_ledgerTables (db : Database) (customerId : Uuid) (asOfDate : Date) :
    cashBalance (ledgerTables db) customerId asOfDate =
      Valuation.cashBalance db customerId asOfDate := by
  have hentry : ∀ p, entryOf (ledgerTables db) (postingRow p) =
      db.journalEntries.find p.journalEntryId := fun _ => rfl
  have hmoney : PostingRow.moneyQuanta ∘ postingRow = fun p => p.amount.moneyQuanta := by
    funext p
    obtain ⟨_, _, amount⟩ := p
    cases amount <;> rfl
  unfold cashBalance Valuation.cashBalance
  rw [show (ledgerTables db).postings = db.postings.map postingRow from rfl, List.filter_map,
    List.map_map, hmoney]
  congr 4

/-! ### What both add up -/

/-- The cash legs of a call for a customer, in quanta. -/
def cashOf (customerId : Uuid) (call : PostingCall) : ℤ :=
  ((call.legs.filter fun leg =>
    leg.account.customerId = some customerId ∧ leg.account.role = .cash).map
      PostingLeg.moneyQuanta).sum

/-- A call of `correct`. -/
def isCorrection : PostingCall → Bool
  | .post .. => false
  | .correct .. => true

theorem isCorrection_iff (call : PostingCall) :
    isCorrection call = true ↔ call.entry.supersededBy ≠ none := by
  cases call with
  | post => exact ⟨fun h => Bool.noConfusion h, fun h => absurd rfl h⟩
  | correct => exact ⟨fun _ => Option.some_ne_none _, fun _ => rfl⟩

section Run
variable {steps : List (ℕ × SessionAction)}

theorem entryOf_row {call : PostingCall} (hcall : call ∈ (runSessions steps).shared.committed)
    {row : PostingRow} (hrow : row ∈ call.rows) :
    entryOf (runSessions steps).shared.tables row = some call.entry := by
  have hentry : call.entry ∈ (runSessions steps).shared.tables.entries := by
    rw [(tablesOk_run steps).1.entries]
    exact List.mem_map_of_mem hcall
  obtain ⟨leg, -, rfl⟩ := List.mem_map.mp hrow
  unfold entryOf
  cases hfind : (runSessions steps).shared.tables.entries.find?
      (·.id = ((leg.row call.entry.id).denormalized).journalEntryId) with
  | none => exact absurd (List.find?_eq_none.mp hfind call.entry hentry) (by simp; rfl)
  | some entry =>
    have hid : entry.id = call.entry.id := by
      have hfound := List.find?_some hfind
      exact of_decide_eq_true hfound
    exact congrArg some (List.inj_on_of_nodup_map (idsOk_run steps)
      (List.mem_of_find?_eq_some hfind) hentry hid)

theorem sum_postings (keep : Option JournalEntry → PostingRow → Bool) :
    (((runSessions steps).shared.tables.postings.filter fun row =>
        keep (entryOf (runSessions steps).shared.tables row) row).map PostingRow.moneyQuanta).sum =
      ((runSessions steps).shared.committed.map fun call =>
        ((call.rows.filter (keep (some call.entry))).map PostingRow.moneyQuanta).sum).sum := by
  rw [(tablesOk_run steps).1.postings, List.filter_flatMap, List.map_flatMap, List.flatMap,
    List.sum_flatten, List.map_map]
  refine congrArg List.sum (List.map_congr_left fun call hcall => ?_)
  rw [Function.comp_apply]
  refine congrArg (fun rows => (rows.map PostingRow.moneyQuanta).sum)
    (List.filter_congr fun row hrow => ?_)
  rw [entryOf_row hcall hrow]

theorem sum_cash_rows (customerId : Uuid) (call : PostingCall) :
    ((call.rows.filter (isCash customerId)).map PostingRow.moneyQuanta).sum =
      cashOf customerId call := by
  unfold cashOf PostingCall.rows
  rw [List.filter_map, List.map_map]
  rfl

/-- `_cash_balance` adds up the cash legs of all calls. -/
theorem cashBalance_eq {customerId : Uuid} {asOfDate : Date}
    (hasOf : ∀ entry ∈ (runSessions steps).shared.tables.entries, entry.effectiveDate ≤ asOfDate) :
    cashBalance (runSessions steps).shared.tables customerId asOfDate = QuantizedDecimal.ofSum
      (((runSessions steps).shared.committed.map (cashOf customerId)).sum) := by
  unfold cashBalance
  rw [sum_postings fun found row => isCash customerId row &&
    decide (∃ entry ∈ found, entry.effectiveDate ≤ asOfDate)]
  refine congrArg (fun calls => QuantizedDecimal.ofSum (List.sum calls))
    (List.map_congr_left fun call hcall => ?_)
  have hdate : call.entry.effectiveDate ≤ asOfDate := by
    refine hasOf call.entry ?_
    rw [(tablesOk_run steps).1.entries]
    exact List.mem_map_of_mem hcall
  rw [← sum_cash_rows]
  simp [hdate]

/-- The view adds up the cash legs of the calls that correct nothing. -/
theorem viewBalance_eq {tenant : Tenant} {customerId : Uuid}
    (hadmits : tenant.admits (some customerId) = true) :
    viewBalance tenant (runSessions steps).shared.tables customerId =
      (((runSessions steps).shared.committed.filter fun call => !isCorrection call).map
        (cashOf customerId)).sum := by
  unfold viewBalance vCustomerBalance
  rw [List.filter_map, List.filter_filter, List.map_map,
    sum_filter_map fun call => !isCorrection call]
  refine (sum_postings fun found row => decide (row.account.customerId = some customerId) &&
    decide (row.account.role = .cash ∧ (∃ entry ∈ found, entry.supersededBy = none) ∧
      tenant.admits row.account.customerId)).trans ?_
  refine congrArg List.sum (List.map_congr_left fun call _ => ?_)
  by_cases hcorrects : isCorrection call
  · -- the view shows none of the rows
    have hsupersedes := (isCorrection_iff call).mp hcorrects
    rw [List.filter_eq_nil_iff.mpr (by simp [hsupersedes])]
    simp [hcorrects]
  · have hpost : call.entry.supersededBy = none := by
      by_contra hsupersedes
      exact hcorrects ((isCorrection_iff call).mpr hsupersedes)
    rw [if_pos (by simpa using hcorrects), ← sum_cash_rows]
    refine congrArg (fun rows => (rows.map PostingRow.moneyQuanta).sum)
      (List.filter_congr fun row hrow => ?_)
    obtain ⟨leg, -, rfl⟩ := List.mem_map.mp hrow
    by_cases hcustomer : leg.account.customerId = some customerId
    · simp [isCash, PostingRow.denormalized, PostingLeg.row, hcustomer, hpost, hadmits]
    · simp [isCash, PostingRow.denormalized, PostingLeg.row, hcustomer]

end Run

/-- **The assistant's balance and the balance screen's.** After every run of sessions, for every
customer and every session that may read the customer's rows, with an `as_of_date` at or after every
effective date: when `_cash_balance` returns, the sum over `v_customer_balance` is its result
exactly when the cash legs of the customer's accepted corrections add up to zero. -/
theorem balance_agrees_iff (steps : List (ℕ × SessionAction)) (customerId : Uuid) (tenant : Tenant)
    (hadmits : tenant.admits (some customerId) = true) (asOfDate : Date)
    (hasOf : ∀ entry ∈ (runSessions steps).shared.tables.entries, entry.effectiveDate ≤ asOfDate)
    {balance : Money}
    (hbalance : cashBalance (runSessions steps).shared.tables customerId asOfDate = .ok balance) :
    viewBalance tenant (runSessions steps).shared.tables customerId = balance.quanta ↔
      (((runSessions steps).shared.committed.filter isCorrection).map (cashOf customerId)).sum = 0 := by
  have hsum := Money.ofSum_ok.mp ((cashBalance_eq hasOf).symm.trans hbalance)
  have hsplit : (((runSessions steps).shared.committed.filter fun call => !isCorrection call).map
        (cashOf customerId)).sum +
      (((runSessions steps).shared.committed.filter isCorrection).map (cashOf customerId)).sum =
        ((runSessions steps).shared.committed.map (cashOf customerId)).sum := by
    simpa using sum_filter_add_filter_not (isCorrection · = true) (cashOf customerId)
      (runSessions steps).shared.committed
  rw [viewBalance_eq hadmits, hsum]
  omega

/-- The legs of a deposit of customer 1, negated when it is taken back. -/
def depositLegs (amount : Money) : List PostingLeg :=
  [.money (.ofCustomer 1 .cash) amount, .money (.ofCustomer 1 .customerEquity) amount.neg]

/-- A deposit of 100, and a correction with the given legs, in one transaction. -/
def correctedDeposit (legs : List PostingLeg) : List (ℕ × SessionAction) :=
  let deposit : PostingCall :=
    .post 1 .deposit 0 (.depositInitiated 1 (dollars 100)) (depositLegs (dollars 100))
  [(0, .call deposit false),
    (0, .call (.correct 2 deposit.entry 0 (.depositInitiated 1 (dollars 100)) legs "amount") false),
    (0, .commit false)]

/-- A correction between two other accounts leaves the two balances equal. -/
theorem balance_agrees_iff_reclassified :
    viewBalance ⟨.customer, some 1⟩ (runSessions (correctedDeposit
        [.money (.ofCustomer 1 .customerEquity) (dollars 40),
          .money (.ofCustomer 1 .dividendIncome) (dollars 40).neg])).shared.tables 1 =
      (dollars 100).quanta :=
  (balance_agrees_iff _ 1 ⟨.customer, some 1⟩ (by decide) 0 (by decide +kernel)
    (by decide +kernel)).mpr (by decide +kernel)

/-- A deposit that is taken back by a correction: the view still shows it. -/
theorem corrected_deposit_still_shown :
    viewBalance ⟨.customer, some 1⟩ (runSessions (correctedDeposit
        (depositLegs (dollars 100).neg))).shared.tables 1 = (dollars 100).quanta ∧
      (∀ entry ∈ (runSessions (correctedDeposit
        (depositLegs (dollars 100).neg))).shared.tables.entries, entry.effectiveDate ≤ 0) ∧
      cashBalance (runSessions (correctedDeposit
        (depositLegs (dollars 100).neg))).shared.tables 1 0 = .ok 0 := by
  decide +kernel

end Trueup.Chat
