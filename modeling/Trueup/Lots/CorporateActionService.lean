import Trueup.Lots.LotConsumptionService

/-! # Splits and dividends

`services/lots/corporate_action_service.py`. A split multiplies, for every holder, each open lot by
the ratio, and one units-only entry posts what the whole position gained. A dividend is recognized
on its ex-date, for every holder, and paid later.

`scaleLot_ok` says what becomes of one lot, `splitCustomer_ok` what the split of one holder did. -/

namespace Trueup.Lots

open Trueup.Core Trueup.Models Trueup.Lib Trueup.Lib.Transaction Trueup.Ledger Trueup.Restatement

/-- A split ratio: an `int` or a `Decimal`. -/
inductive SplitRatio
  | int (n : ℤ)
  | decimal (q : ℚ)
  deriving DecidableEq

/-- The number the ratio stands for. -/
def SplitRatio.value : SplitRatio → ℚ
  | .int n => n
  | .decimal q => q

/-- `ratio - 1`: exact on an `int`, in the decimal context on a `Decimal`. -/
def SplitRatio.minusOne : SplitRatio → ℚ
  | .int n => n - 1
  | .decimal q => context (q - 1)

/-- `list_customers_holding`. -/
def listCustomersHolding (db : Database) (securityId : Uuid) : List Uuid :=
  ((db.taxLots.rows.filter fun lot => lot.securityId = securityId ∧
    0 < lot.quantityRemaining).map (·.customerId)).dedup

/-- `lock_open_for_security`. -/
def openForSecurity (db : Database) (customerId securityId : Uuid) : List TaxLot :=
  db.taxLots.rows.filter fun lot => lot.customerId = customerId ∧ lot.securityId = securityId ∧
    0 < lot.quantityRemaining

/-- `total += quantity` over a list. -/
def sumUnits : List Units → Units → Except Error Units
  | [], total => .ok total
  | quantity :: quantities, total => do sumUnits quantities (← total.add quantity)

/-- One lot, multiplied by the ratio. -/
def scaleLot (ratio : SplitRatio) (lotId : Uuid) : Tx Unit := do
  let lot ← getTaxLot lotId
  let opened ← lift (Units.scale lot.quantityOpened ratio.value)
  let remaining ← lift (Units.scale lot.quantityRemaining ratio.value)
  let lot' ← lift (lot.withQuantities opened remaining)
  setTaxLot lot'

/-- The body of `apply_split` for one holder. -/
def splitCustomer (env : Env) (securityId : Uuid) (ratio : SplitRatio) (effectiveDate : Date)
    (customerId : Uuid) : Tx Unit := do
  let lots ← read fun db => .ok (openForSecurity db customerId securityId)
  whenever (lots ≠ []) do
    let priorTotal ← lift (sumUnits (lots.map (·.quantityRemaining)) 0)
    each (scaleLot ratio) (lots.map (·.id))
    let addedUnits ← lift (Units.scale priorTotal ratio.minusOne)
    let unitsAccount ← getOrCreateCustomerAccount customerId .positionUnits securityId
    let entry ← post (env.uuid4 (.splitEntry customerId)) .split effectiveDate
      (.split customerId securityId ratio.value) [.units unitsAccount addedUnits]
    restate env true customerId effectiveDate .split entry.sourceEvent

/-- `apply_split`. -/
def applySplit (env : Env) (securityId : Uuid) (ratio : SplitRatio) (effectiveDate : Date) :
    Tx Unit := do
  require (1 < ratio.value) .valueError
  let customers ← read fun db => .ok (listCustomersHolding db securityId)
  each (splitCustomer env securityId ratio effectiveDate) customers

/-! ### Dividends -/

/-- `total_remaining`. -/
def totalRemaining (db : Database) (customerId securityId : Uuid) : Except Error Units :=
  sumUnits ((openForSecurity db customerId securityId).map (·.quantityRemaining)) 0

/-- The body of `declare_dividend_ex_date` for one holder. -/
def declareDividendFor (env : Env) (incomeAccount : Account) (securityId : Uuid)
    (perShareAmount : Price) (exDate : Date) (customerId : Uuid) : Tx Unit := do
  let quantityHeld ← read fun db => totalRemaining db customerId securityId
  whenever (0 < quantityHeld) do
    let amount ← lift (Price.times perShareAmount quantityHeld)
    let receivableAccount ← getOrCreateCustomerAccount customerId .dividendReceivable none
    let entry ← post (env.uuid4 (.dividendEntry customerId)) .dividend exDate
      (.dividendExDate customerId securityId quantityHeld perShareAmount)
      [.money receivableAccount amount, .money incomeAccount amount.neg]
    restate env true customerId exDate .lateDividend entry.sourceEvent

/-- `declare_dividend_ex_date`. -/
def declareDividendExDate (env : Env) (securityId : Uuid) (perShareAmount : Price)
    (exDate : Date) : Tx Unit := do
  let incomeAccount ← getOrCreateHouseAccount .dividendIncome
  let customers ← read fun db => .ok (listCustomersHolding db securityId)
  each (declareDividendFor env incomeAccount securityId perShareAmount exDate) customers

/-- The obligation of a paid dividend. -/
def dividendObligation (env : Env) (customerId : Uuid) (amount : Money) (entryId : Uuid)
    (cashAccount : Account) (payDate : Date) : SettlementObligation where
  id := env.uuid4 .settlementObligation
  journalEntryId := entryId
  account := cashAccount
  amountMoney := amount
  expectedSettlementDate := payDate
  status := .pending
  confirmedAt := none
  failedAt := none
  failureReason := none
  sourceEvent := .dividendPayDateSettlementExpected customerId amount

/-- `pay_dividend`. -/
def payDividend (env : Env) (customerId : Uuid) (amount : Money) (payDate : Date) : Tx Unit := do
  let cashAccount ← requireCustomerAccount customerId .cash
  let receivableAccount ← getOrCreateCustomerAccount customerId .dividendReceivable none
  let entry ← post (env.uuid4 .journalEntry) .dividend payDate (.dividendPayDate customerId amount)
    [.money cashAccount amount, .money receivableAccount amount.neg]
  addSettlementObligation (dividendObligation env customerId amount entry.id cashAccount payDate)
  restate env false customerId payDate .lateDividend entry.sourceEvent

/-! ### What a split wrote -/

theorem sumUnits_ok : ∀ {quantities : List Units} {total t : Units},
    sumUnits quantities total = .ok t → t.quanta = total.quanta + (quantities.map (·.quanta)).sum
  | [], total, t, h => by cases h; simp
  | q :: qs, total, t, h => by
    rw [sumUnits, except_bind_ok] at h
    obtain ⟨total', ht, h⟩ := h
    rw [sumUnits_ok h, Units.add_ok.mp ht]
    simp [add_assoc]

/-- A lot is multiplied: `lot` becomes `lot'`. -/
structure Scaled (ratio : SplitRatio) (lot lot' : TaxLot) : Prop where
  id : lot'.id = lot.id
  customerId : lot'.customerId = lot.customerId
  securityId : lot'.securityId = lot.securityId
  execution : lot'.openingFillExecutionId = lot.openingFillExecutionId
  basis : lot'.adjustedBasis = lot.adjustedBasis
  rest : lot' = { lot with
    quantityOpened := lot'.quantityOpened, quantityRemaining := lot'.quantityRemaining
    remaining_nonneg := lot'.remaining_nonneg }
  opened : Units.scale lot.quantityOpened ratio.value = .ok lot'.quantityOpened
  remaining : Units.scale lot.quantityRemaining ratio.value = .ok lot'.quantityRemaining

theorem scaleLot_ok {ratio : SplitRatio} {lotId : Uuid} {db db' : Database} {u : Unit}
    (h : (scaleLot ratio lotId).run db = .ok (u, db')) :
    ∃ lot ∈ db.taxLots, ∃ lot', lot.id = lotId ∧ Scaled ratio lot lot' ∧
      db' = { db with taxLots := db.taxLots.set lot' } := by
  simp only [scaleLot, bind_ok, getTaxLot_ok, lift_ok, setTaxLot_ok] at h
  obtain ⟨lot, _, ⟨⟨hlot, hid⟩, rfl⟩, opened, _, ⟨hopened, rfl⟩, remaining, _, ⟨hremaining, rfl⟩,
    lot', _, ⟨hlot', rfl⟩, rfl⟩ := h
  refine ⟨lot, hlot, lot', hid, ?_, rfl⟩
  obtain ⟨-, rfl⟩ := TaxLot.withQuantities_ok hlot'
  exact ⟨rfl, rfl, rfl, rfl, rfl, rfl, hopened, hremaining⟩

/-- **What the split of one holder did**: nothing, or the loop over the lots, one units-only entry
and a restatement. -/
theorem splitCustomer_ok {env : Env} {securityId : Uuid} {ratio : SplitRatio}
    {effectiveDate : Date} {customerId : Uuid} {db db' : Database} {u : Unit}
    (h : (splitCustomer env securityId ratio effectiveDate customerId).run db = .ok (u, db')) :
    db' = db ∨ ∃ (mid : Database) (priorTotal addedUnits : Units) (entry : JournalEntry)
        (units : Account) (accounts : List Account) (entries : Table JournalEntry.id)
        (returns : Table SubPeriodReturn.key) (events : List RestatementEvent)
        (disclosures : List FeeRestatementDisclosure),
      priorTotal.quanta =
        ((openForSecurity db customerId securityId).map (·.quantityRemaining.quanta)).sum ∧
      (each (scaleLot ratio) ((openForSecurity db customerId securityId).map (·.id))).run db =
        .ok ((), mid) ∧
      Units.scale priorTotal ratio.minusOne = .ok addedUnits ∧
      entry.entryType = .split ∧
      IsAccountOf units customerId .positionUnits (some securityId) ∧
      mid.journalEntries.insert entry = some entries ∧
      db' = { mid with
        accounts := accounts
        journalEntries := entries
        postings := mid.postings ++ [⟨entry.id, units, .units addedUnits⟩]
        subPeriodReturns := returns
        restatementEvents := events
        feeRestatementDisclosures := disclosures } := by
  simp only [splitCustomer, bind_ok, read_ok, whenever] at h
  obtain ⟨lots, _, ⟨hlots, rfl⟩, h⟩ := h
  cases hlots
  split_ifs at h
  · simp only [bind_ok, lift_ok] at h
    obtain ⟨priorTotal, _, ⟨hprior, rfl⟩, _, mid, hscale, added, _, ⟨hadded, rfl⟩, units, _, hrun,
      entry, _, hpost, hrestate⟩ := h
    obtain ⟨hunits, accounts, rfl⟩ := getOrCreateCustomerAccount_ok hrun
    obtain ⟨-, rfl, entries, hentries, rfl⟩ := post_ok hpost
    obtain ⟨returns, events, disclosures, rfl⟩ := restate_ok hrestate
    refine Or.inr ⟨mid, priorTotal, added, _, units, accounts, entries, returns, events,
      disclosures, ?_, hscale, hadded, rfl, hunits, hentries, rfl⟩
    rw [sumUnits_ok hprior, List.map_map]
    simp only [QuantizedDecimal.quanta_zero, zero_add]
    rfl
  · exact Or.inl (pure_ok.mp h).2.symm

end Trueup.Lots
