import Trueup.Lib.History
import Trueup.Rebalance.Sells

/-! # The holdings page

`services/rebalance/portfolio_holdings_service.py`: the entries of the drift evaluation, shown to
the customer. The units of a line are not read either: they are the rounded market value divided by
the price, and rounded again. They are what the ledger has exactly when the first rounding is worth
no more than half a millionth of a share (`Recoverable`).

* `recoverable_of_hundred`: from a hundred dollars a share it never is.
* `holdings_units_iff`: the page shows what is held exactly when each holding is recoverable. -/

namespace Trueup.Rebalance

open Trueup.Core Trueup.Models Trueup.Lib Trueup.Lib.Rounding Trueup.Lib.Transaction Trueup.Ledger
open Trueup.Valuation Trueup.Cash

structure HoldingLine where
  securityId : Option Uuid
  units : Option Units
  price : Option Price
  marketValue : Money
  currentWeightPct : ℚ
  targetWeightPct : ℚ
  driftPct : ℚ
  isFlagged : Bool
  deriving DecidableEq

structure PortfolioHoldings where
  customerId : Uuid
  asOfDate : Date
  isPartial : Bool
  totalValue : Money
  holdings : List HoldingLine
  deriving DecidableEq

/-- `_to_line`; the cash has no price and no units. -/
def toLine (entry : DriftEntry) : Except Error HoldingLine := do
  let units ← entry.price.mapM entry.currentMarketValue.perPrice
  return {
    securityId := entry.securityId
    units
    price := entry.price
    marketValue := entry.currentMarketValue
    currentWeightPct := entry.currentWeightPct
    targetWeightPct := entry.targetWeightPct
    driftPct := context (entry.currentWeightPct - entry.targetWeightPct)
    isFlagged := entry.isFlagged }

/-- `holdings`. -/
def holdings (driftBandPct : ℚ) (tables : RebalanceTables) (customerId : Uuid) (asOfDate : Date) :
    Except Error PortfolioHoldings := do
  let evaluation ← evaluate driftBandPct tables customerId asOfDate
  let lines ← evaluation.entries.mapM toLine
  return {
    customerId := evaluation.customerId
    asOfDate := evaluation.asOfDate
    isPartial := evaluation.isPartial
    totalValue := evaluation.totalValue
    holdings := lines }

/-! ### What the market value tells of the holding -/

/-- The market value is within half a millionth of a share of what the holding is worth. -/
def Recoverable (price : Price) (units : ℤ) : Prop :=
  2 * |worth price units * 10 ^ 8 - price.quanta * units| < price.quanta ∨
    2 * |worth price units * 10 ^ 8 - price.quanta * units| = price.quanta ∧ units % 2 = 0

instance (price : Price) (units : ℤ) : Decidable (Recoverable price units) :=
  inferInstanceAs (Decidable (_ ∨ _ ∧ _))

section Prices
variable {price : Price} {units : ℤ}

theorem recoverable_iff (hprice : 0 < price) :
    Recoverable price units ↔ microshares price (worth price units) = units := by
  have hpos : 0 < price.quanta := hprice
  have hp : (0 : ℚ) < price.quanta := by exact_mod_cast hpos
  set error := worth price units * 10 ^ 8 - price.quanta * units with herror
  have hdist : |(units : ℚ) - (worth price units : ℚ) * 10 ^ 8 / price.quanta| =
      ((|error| : ℤ) : ℚ) / price.quanta := by
    have hquotient : (units : ℚ) - (worth price units : ℚ) * 10 ^ 8 / price.quanta =
        -((error : ℚ) / price.quanta) := by
      rw [herror]
      push_cast
      field_simp
      ring
    rw [hquotient, abs_neg, abs_div, abs_of_pos hp, Int.cast_abs]
  have hle : ((|error| : ℤ) : ℚ) / price.quanta ≤ 1 / 2 ↔ 2 * |error| ≤ price.quanta := by
    rw [div_le_div_iff₀ hp (by norm_num), one_mul, mul_comm]
    exact_mod_cast Iff.rfl
  have heq : ((|error| : ℤ) : ℚ) / price.quanta = 1 / 2 ↔ 2 * |error| = price.quanta := by
    rw [div_eq_div_iff hp.ne' (by norm_num), one_mul, mul_comm]
    exact_mod_cast Iff.rfl
  rw [microshares, roundHalfEven_eq_iff, hdist, hle, heq, Recoverable, ← herror]
  constructor
  · rintro (hlt | ⟨htie, heven⟩)
    · exact ⟨hlt.le, fun htie => absurd htie hlt.ne⟩
    · exact ⟨htie.le, fun _ => heven⟩
  · rintro ⟨hnear, htie⟩
    exact (lt_or_eq_of_le hnear).imp_right fun h => ⟨h, htie h⟩

/-- **From a hundred dollars a share** the market value always tells the holding. -/
theorem recoverable_of_hundred (hprice : 10 ^ 8 ≤ price.quanta) : Recoverable price units := by
  have hpos : 0 < price := QuantizedDecimal.lt_def.mpr (lt_of_lt_of_le (by norm_num) hprice)
  exact (recoverable_iff hpos).mpr (microshares_worth hprice)

theorem recoverable_zero (hprice : 0 < price) : Recoverable price 0 := by
  have hzero : worth price 0 = 0 := by
    simpa [worth] using roundHalfEven_intCast 0
  exact Or.inl (by rw [hzero]; simpa using QuantizedDecimal.lt_def.mp hprice)

end Prices

/-! ### The page -/

theorem toLine_ok {entry : DriftEntry} {line : HoldingLine} (h : toLine entry = .ok line) :
    line.securityId = entry.securityId ∧ ∀ price ∈ entry.price, ∃ units, line.units = some units ∧
      units.quanta = microshares price entry.currentMarketValue.quanta := by
  obtain ⟨units, hunits, hpure⟩ := except_bind_ok.mp h
  cases hpure
  refine ⟨rfl, fun price hprice => ?_⟩
  rw [show entry.price = some price from hprice] at hunits
  obtain ⟨quantity, hquotient, hpure⟩ := except_bind_ok.mp hunits
  cases hpure
  exact ⟨quantity, rfl, (quantityFor_ok.mp hquotient).2⟩

section Page
variable {driftBandPct : ℚ} {tables : RebalanceTables} {customerId : Uuid} {asOfDate : Date}

/-- The line shows what the ledger has of its security. -/
def ShowsHeld (tables : RebalanceTables) (customerId : Uuid) (asOfDate : Date) (line : HoldingLine) :
    Prop :=
  ∀ s ∈ line.securityId, ∃ units, line.units = some units ∧
    units.quanta = ledgerUnits tables.db customerId asOfDate s

/-- The line of a security shows what is held of it exactly when that is recoverable. -/
theorem showsHeld_iff {evaluation : DriftEvaluation}
    (h : evaluate driftBandPct tables customerId asOfDate = .ok evaluation) {entry : DriftEntry}
    (hentry : entry ∈ evaluation.entries) {line : HoldingLine} (hline : toLine entry = .ok line)
    {s : Uuid} (hs : entry.securityId = some s)
    (hpositive : ∀ close, latestConfirmed tables.db s asOfDate = some close → 0 < close.closePrice) :
    ShowsHeld tables customerId asOfDate line ↔
      ∀ close, latestConfirmed tables.db s asOfDate = some close →
        Recoverable close.closePrice (ledgerUnits tables.db customerId asOfDate s) := by
  obtain ⟨close, hclose, hprice, hworth⟩ := evaluate_entry h hentry hs
  obtain ⟨hsecurity, hunits⟩ := toLine_ok hline
  obtain ⟨units, hsome, hquanta⟩ := hunits close.closePrice hprice
  have hrecovered := @recoverable_iff close.closePrice
    (ledgerUnits tables.db customerId asOfDate s) (hpositive close hclose)
  rw [hworth] at hquanta
  rw [← hquanta] at hrecovered
  rw [hs] at hsecurity
  constructor
  · intro hshows close' hclose'
    obtain rfl : close = close' := Option.some.inj (hclose.symm.trans hclose')
    obtain ⟨units', hsome', hheld⟩ := hshows s hsecurity
    obtain rfl : units = units' := Option.some.inj (hsome.symm.trans hsome')
    exact hrecovered.mpr hheld
  · intro hrecoverable s' hs'
    obtain rfl : s = s' := Option.some.inj (hsecurity.symm.trans hs')
    exact ⟨units, hsome, hrecovered.mp (hrecoverable close hclose)⟩

/-- **The holdings page shows what is held** exactly when each holding can be recovered from its
market value. -/
theorem holdings_units_iff {page : PortfolioHoldings}
    (h : holdings driftBandPct tables customerId asOfDate = .ok page)
    (hcomplete : page.isPartial = false)
    (hpositive : ∀ s close, latestConfirmed tables.db s asOfDate = some close →
      0 < close.closePrice) :
    (∀ line ∈ page.holdings, ShowsHeld tables customerId asOfDate line) ↔
      (page.totalValue ≠ 0 → ∀ s close, latestConfirmed tables.db s asOfDate = some close →
        Recoverable close.closePrice (ledgerUnits tables.db customerId asOfDate s)) := by
  obtain ⟨evaluation, hevaluation, h⟩ := except_bind_ok.mp h
  obtain ⟨lines, hlines, hpure⟩ := except_bind_ok.mp h
  cases hpure
  dsimp only at hcomplete ⊢
  constructor
  · intro hshows hvalue s close hclose
    have hlisted := (partitions_of_complete hevaluation hcomplete hvalue).listed s
    obtain ⟨-, -, -, -, hcustomer, hdate, -⟩ := evaluate_cases hevaluation
    rw [hcustomer, hdate] at hlisted
    by_cases hheld : ledgerUnits tables.db customerId asOfDate s = 0
    · rw [hheld]
      exact recoverable_zero (hpositive s close hclose)
    · obtain ⟨entry, hentry, hs⟩ := List.mem_filterMap.mp (hlisted.mpr (Or.inr hheld))
      obtain ⟨line, hline, hok⟩ := exists_of_mapM_ok hlines hentry
      exact (showsHeld_iff hevaluation hentry hok hs (hpositive s)).mp (hshows line hline) close hclose
  · intro hrecoverable line hline
    obtain ⟨entry, hentry, hok⟩ := mem_of_mapM_ok hlines hline
    have hvalue : evaluation.totalValue ≠ 0 := by
      intro hzero
      obtain ⟨book, _, -, -, -, -, htotal, hcases⟩ := evaluate_cases hevaluation
      rw [htotal] at hzero
      rcases hcases with ⟨-, -, hnone⟩ | ⟨hsome, -⟩ | ⟨hsome, -⟩
      · rw [hnone] at hentry
        cases hentry
      · exact hsome (Or.inr hzero)
      · exact hsome (Or.inr hzero)
    cases hs : entry.securityId with
    | none =>
      intro s hs'
      rw [(toLine_ok hok).1, hs] at hs'
      cases hs'
    | some s =>
      exact (showsHeld_iff hevaluation hentry hok hs (hpositive s)).mpr (hrecoverable hvalue s)

end Page

/-! ### The ten shares -/

theorem latestConfirmed_mem {db : Database} {s : Uuid} {asOfDate : Date} {close : DailyClose}
    (h : latestConfirmed db s asOfDate = some close) :
    close ∈ db.dailyCloses ∧ close.securityId = s := by
  have hmem := List.mem_filter.mp (History.mem_of_latest h).1
  exact ⟨hmem.1, (of_decide_eq_true hmem.2).1⟩

theorem positive_of_closes {tables : RebalanceTables} {asOfDate : Date}
    (h : ∀ close ∈ tables.db.dailyCloses, 0 < close.closePrice) :
    ∀ s close, latestConfirmed tables.db s asOfDate = some close → 0 < close.closePrice :=
  fun _ _ hclose => h _ (latestConfirmed_mem hclose).1

/-- At 100 a share the page shows the ten shares. -/
theorem holdings_units_iff_ten : ∃ page, holdings (5 / 100) investedTables 1 6 = .ok page ∧
    ∀ line ∈ page.holdings, ShowsHeld investedTables 1 6 line := by
  have hrun : (holdings (5 / 100) investedTables 1 6).isOk := by decide +kernel
  obtain ⟨page, hpage⟩ := exists_ok_of_isOk hrun
  have hcomplete : ∀ p ∈ (holdings (5 / 100) investedTables 1 6).toOption, p.isPartial = false := by
    decide +kernel
  have hcloses : ∀ close ∈ investedTables.db.dailyCloses, 0 < close.closePrice ∧
      Recoverable close.closePrice (ledgerUnits investedTables.db 1 6 close.securityId) := by
    decide +kernel
  refine ⟨page, hpage, (holdings_units_iff hpage (hcomplete page (by rw [hpage]; rfl))
    (positive_of_closes fun close hclose => (hcloses close hclose).1)).mpr ?_⟩
  intro _ s close hclose
  obtain ⟨hmem, rfl⟩ := latestConfirmed_mem hclose
  exact (hcloses close hmem).2

/-- At 1.000006 a share the page shows 10.00004 shares of the ten. -/
theorem holdings_show_more : ¬ ∀ (driftBandPct : ℚ) (tables : RebalanceTables) (customerId : Uuid)
    (asOfDate : Date) (page : PortfolioHoldings),
      holdings driftBandPct tables customerId asOfDate = .ok page → page.isPartial = false →
      (∀ s close, latestConfirmed tables.db s asOfDate = some close → 0 < close.closePrice) →
      ∀ line ∈ page.holdings, ShowsHeld tables customerId asOfDate line := by
  intro h
  have hrun : (holdings (5 / 100) cheapTables 1 6).isOk := by decide +kernel
  obtain ⟨page, hpage⟩ := exists_ok_of_isOk hrun
  have hmore : ∀ p ∈ (holdings (5 / 100) cheapTables 1 6).toOption, p.isPartial = false ∧
      ∃ line ∈ p.holdings, line.securityId = some 7 ∧ line.units = some ⟨10000040, by decide⟩ := by
    decide +kernel
  obtain ⟨hcomplete, line, hline, hs, hunits⟩ := hmore page (by rw [hpage]; rfl)
  have hcloses : ∀ close ∈ cheapTables.db.dailyCloses, 0 < close.closePrice := by
    decide
  obtain ⟨units, hsome, hheld⟩ := h _ _ _ _ _ hpage hcomplete (positive_of_closes hcloses) line hline
    7 hs
  obtain rfl := Option.some.inj (hunits.symm.trans hsome)
  have hten : ledgerUnits cheapTables.db 1 6 7 = 10000000 := by decide +kernel
  rw [hten] at hheld
  revert hheld
  decide

end Trueup.Rebalance
