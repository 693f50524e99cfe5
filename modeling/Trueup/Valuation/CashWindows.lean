import Trueup.Valuation.BookValue
import Trueup.Valuation.SubPeriods

/-! # Windows of cash

Between two days without a deposit or a withdrawal inside, the cash of a customer grows by the flows
of the second day and by what is no flow (`ledgerCash_window`). Without positions the value of the
book is the cash, so that the return of such a window is what the other cash makes of the opening
cash, `cashReturn` (`returnPct_cash`). The windows of a period have no flow inside
(`noFlowInside_boundaries`). -/

namespace Trueup.Valuation

open Trueup.Core Trueup.Models Trueup.Lib Trueup.Lib.Rounding Trueup.Lib.Transaction Trueup.Ledger

/-- The cash of the customer's deposits and withdrawals of a day. -/
def flowQuantaOn (db : Database) (customerId : Uuid) (day : Date) : ℤ :=
  ((db.postings.filter fun p => isCashOf customerId p &&
    decide (∃ entry ∈ db.journalEntries.find p.journalEntryId,
      isExternalFlow entry ∧ entry.effectiveDate = day)).map (·.amount.moneyQuanta)).sum

/-- The customer's cash of the entries after one day up to another that are no deposits or
withdrawals. -/
def otherQuanta (db : Database) (customerId : Uuid) (vBegin vEnd : Date) : ℤ :=
  ((db.postings.filter fun p => isCashOf customerId p &&
    decide (∃ entry ∈ db.journalEntries.find p.journalEntryId, isExternalFlow entry = false ∧
      vBegin < entry.effectiveDate ∧ entry.effectiveDate ≤ vEnd)).map (·.amount.moneyQuanta)).sum

/-- The return of a window that opens with `opening` in cash and gains `other` without a flow. -/
def cashReturn (opening other : ℤ) : ℚ :=
  if opening = 0 then 0 else roundHalfEven (context ((other : ℚ) / opening) * 10 ^ 10) / 10 ^ 10

/-- The days of the customer's deposits and withdrawals. -/
def FlowDay (db : Database) (customerId : Uuid) (day : Date) : Prop :=
  ∃ p ∈ db.postings, p.account.customerId = some customerId ∧
    ∃ entry ∈ db.journalEntries.find p.journalEntryId, isExternalFlow entry ∧
      entry.effectiveDate = day

/-- A window from the list: no flow inside. -/
def NoFlowInside (db : Database) (customerId : Uuid) (window : Date × Date) : Prop :=
  window.1 < window.2 ∧ ∀ day, FlowDay db customerId day → day ≤ window.1 ∨ window.2 ≤ day

/-! ### A book without positions -/

section Windows
variable {db : Database} {customerId : Uuid}

/-- **Between two days without a flow inside**, the cash grows by the flows of the second and by
what is no flow. -/
theorem ledgerCash_window {vBegin vEnd : Date}
    (hinside : NoFlowInside db customerId (vBegin, vEnd)) : ledgerCash db customerId vEnd =
      ledgerCash db customerId vBegin + flowQuantaOn db customerId vEnd +
        otherQuanta db customerId vBegin vEnd := by
  obtain ⟨hlt, hgap⟩ := hinside
  have hlt' : vBegin < vEnd := hlt
  rw [ledgerCash, ledgerCash, flowQuantaOn, otherQuanta, sum_filter_map, sum_filter_map,
    sum_filter_map, sum_filter_map, ← List.sum_map_add, ← List.sum_map_add]
  congr 1
  refine List.map_congr_left fun p hp => ?_
  by_cases hcash : isCashOf customerId p
  swap
  · simp [hcash]
  have hc : p.account.customerId = some customerId := by
    simp only [isCashOf, Bool.decide_and, Bool.and_eq_true, decide_eq_true_eq] at hcash
    exact hcash.1
  cases hentry : db.journalEntries.find p.journalEntryId with
  | none => simp [isEffectiveBy, hentry]
  | some entry =>
    simp only [hcash, isEffectiveBy, hentry, Option.mem_some_iff, exists_eq_left', Bool.true_and,
      decide_eq_true_eq]
    by_cases hflow : isExternalFlow entry
    · have hday := hgap entry.effectiveDate ⟨p, hp, hc, entry, hentry, hflow, rfl⟩
      simp only [hflow, Bool.true_eq_false, false_and, if_false, add_zero, true_and]
      rcases hday with hle | hge
      · have hle' : entry.effectiveDate ≤ vBegin := hle
        rw [if_pos (hle'.trans hlt'.le), if_pos hle', if_neg (hle'.trans_lt hlt').ne, add_zero]
      · have hge' : vEnd ≤ entry.effectiveDate := hge
        rw [if_neg (hlt'.trans_le hge').not_ge, zero_add]
        exact if_congr ⟨fun hle => le_antisymm hle hge', fun he => he.le⟩ rfl rfl
    · rw [Bool.not_eq_true] at hflow
      simp only [hflow, true_and, Bool.false_eq_true, false_and, if_false, add_zero]
      rcases le_or_gt entry.effectiveDate vBegin with hle | hgt
      · rw [if_pos (hle.trans hlt'.le), if_pos hle, if_neg fun h => absurd h.1 (not_lt.mpr hle),
          add_zero]
      · rw [if_neg (not_le.mpr hgt), zero_add]
        exact if_congr ⟨fun hle => ⟨hgt, hle⟩, fun h => h.2⟩ rfl rfl

theorem positionUnits_cash (hunits : ∀ p ∈ db.postings, isUnitsOf customerId p = false)
    (day : Date) : positionUnits db customerId day = .ok [] := by
  have hnone : (db.postings.filter fun p => isUnitsOf customerId p && isEffectiveBy db day p) = [] := by
    refine List.filter_eq_nil_iff.mpr fun p hp => ?_
    simp [hunits p hp]
  simp only [positionUnits, hnone]
  rfl

theorem valueBook_cash (hunits : ∀ p ∈ db.postings, isUnitsOf customerId p = false) {day : Date}
    {book : BookValuation} (hbook : valueBook db customerId day = .ok book) :
    book.totalValue.quanta = ledgerCash db customerId day := by
  simp only [valueBook, except_bind_ok, positionUnits_cash hunits day] at hbook
  obtain ⟨cash, hcash, positions, hpos, hadd⟩ := hbook
  cases hpos
  cases hadd
  exact Money.ofSum_ok.mp hcash

theorem quantizeReturn_ok {q r : ℚ} (h : quantizeReturn q = .ok r) :
    r = roundHalfEven (q * 10 ^ 10) / 10 ^ 10 := by
  simp only [quantizeReturn, except_bind_ok] at h
  obtain ⟨-, -, h⟩ := h
  cases h
  rfl

theorem quantizeReturn_eq_zero {q : ℚ} (h : roundHalfEven (q * 10 ^ 10) = 0) :
    quantizeReturn q = .ok 0 := by
  simp only [quantizeReturn, h, except_bind_ok, check_ok]
  exact ⟨(), by norm_num [contextPrecision], by simp [pure, Except.pure]⟩

theorem quantizeReturn_zero : quantizeReturn 0 = .ok 0 :=
  quantizeReturn_eq_zero (by simpa using roundHalfEven_intCast 0)

theorem context_one : context 1 = 1 :=
  roundSig_eq_self (by norm_num) (m := 1) (k := 0) (by decide) (by norm_num) ⟨1, by norm_num⟩

theorem link_zero {rows : List SubPeriodReturn} (h : ∀ row ∈ rows, row.returnPct = 0) :
    link rows = .ok 0 := by
  have hfold : rows.foldl (fun linked row => context (linked * context (1 + row.returnPct))) 1 =
      (1 : ℚ) := by
    induction rows with
    | nil => rfl
    | cons row rows ih =>
      rw [List.foldl_cons, h row (by simp), add_zero, context_one, mul_one, context_one]
      exact ih fun row' hrow' => h row' (by simp [hrow'])
  rw [link, hfold, sub_self, context, roundSig_zero, quantizeReturn_zero]

theorem cashReturn_zero (opening : ℤ) : cashReturn opening 0 = 0 := by
  unfold cashReturn
  split_ifs
  · rfl
  · have hzero : roundHalfEven (0 * 10 ^ 10) = 0 := by simpa using roundHalfEven_intCast 0
    rw [Int.cast_zero, zero_div, context, roundSig_zero, hzero]
    simp

/-- **The return of a window** without a flow inside is what the other cash makes of the opening
cash. -/
theorem returnPct_cash (hunits : ∀ p ∈ db.postings, isUnitsOf customerId p = false) {env : Env}
    {vBegin vEnd : Date} {row : SubPeriodReturn}
    (hinside : NoFlowInside db customerId (vBegin, vEnd))
    (hrow : currentSubPeriod db env customerId vBegin vEnd = .ok row) :
    row.returnPct = cashReturn (ledgerCash db customerId vBegin)
      (otherQuanta db customerId vBegin vEnd) := by
  obtain ⟨bookBegin, bookEnd, flow, r, hbegin, hend, hflow, hreturn, rfl⟩ :=
    currentSubPeriod_eq_ok.mp hrow
  have hopening := valueBook_cash hunits hbegin
  unfold returnOf at hreturn
  split_ifs at hreturn with hzero
  · rw [cashReturn, if_pos]
    · rw [quantizeReturn_zero] at hreturn
      exact (Except.ok.inj hreturn).symm
    · rw [← hopening, hzero]
      rfl
  · simp only [except_bind_ok] at hreturn
    obtain ⟨change, hchange, gain, hgain, ratio, hratio, hr⟩ := hreturn
    have hother : gain.quanta = otherQuanta db customerId vBegin vEnd := by
      have hflow' : flow.quanta = flowQuantaOn db customerId vEnd := Money.ofSum_ok.mp hflow
      rw [Money.sub_ok.mp hgain, Money.sub_ok.mp hchange, hflow', hopening,
        valueBook_cash hunits hend, ledgerCash_window hinside]
      ring
    have hne : ledgerCash db customerId vBegin ≠ 0 := by
      rw [← hopening]
      exact fun heq => hzero (QuantizedDecimal.ext heq)
    rw [Money.ratio] at hratio
    split_ifs at hratio
    cases hratio
    have hquotient : gain.value / bookBegin.totalValue.value =
        (otherQuanta db customerId vBegin vEnd : ℚ) / ledgerCash db customerId vBegin := by
      rw [QuantizedDecimal.value, QuantizedDecimal.value, hother, hopening,
        div_div_div_cancel_right₀ (by norm_num)]
    rw [quantizeReturn_ok hr, hquotient, cashReturn, if_neg hne]

theorem noFlowInside_boundaries {periodStart periodEnd : Date} (hle : periodStart ≤ periodEnd) :
    ∀ window ∈ pairwise (boundaries db customerId periodStart periodEnd),
      NoFlowInside db customerId window := by
  rintro ⟨vBegin, vEnd⟩ hwindow
  obtain ⟨hbegin, hend, hlt, hgap⟩ := mem_pairwise (boundaries_sorted _ _ _ _) hwindow
  have hwithin : ∀ day ∈ boundaries db customerId periodStart periodEnd,
      periodStart ≤ day ∧ day ≤ periodEnd := by
    intro day hday
    rcases mem_boundaries.mp hday with rfl | rfl | hflow
    · exact ⟨le_rfl, hle⟩
    · exact ⟨hle, le_rfl⟩
    · obtain ⟨_, -, -, _, -, -, hafter, hbefore, rfl⟩ := mem_flowDates.mp hflow
      exact ⟨hafter.le, hbefore.le⟩
  refine ⟨hlt, fun day hday => ?_⟩
  rcases le_or_gt day periodStart with hearly | hafter
  · exact Or.inl (hearly.trans (hwithin _ hbegin).1)
  rcases lt_or_ge day periodEnd with hbefore | hlate
  · obtain ⟨p, hp, hc, entry, hfind, hflow, rfl⟩ := hday
    exact hgap _ (mem_boundaries.mpr (Or.inr (Or.inr (mem_flowDates.mpr
      ⟨p, hp, hc, entry, hfind, hflow, hafter, hbefore, rfl⟩))))
  · exact Or.inr ((hwithin _ hend).2.trans hlate)

/-- **The rows of such windows**: one for each, with the return of its cash. -/
theorem subPeriodReturns_cash {env : Env} : ∀ {windows : List (Date × Date)}
    {db db' : Database} {rows : List SubPeriodReturn},
    (subPeriodReturns env customerId windows).run db = .ok (rows, db') →
    (∀ p ∈ db.postings, isUnitsOf customerId p = false) →
    (∀ window ∈ windows, NoFlowInside db customerId window) →
    rows.map (·.returnPct) = windows.map fun window =>
      cashReturn (ledgerCash db customerId window.1) (otherQuanta db customerId window.1 window.2)
  | [], db, db', rows, hrun, _, _ => by
    obtain ⟨rfl, rfl⟩ := pure_ok.mp hrun
    rfl
  | (vBegin, vEnd) :: windows, db, db', rows, hrun, hunits, hgap => by
    simp only [subPeriodReturns, bind_ok, pure_ok] at hrun
    obtain ⟨row, db₁, hrow, rest, _, hrest, rfl, rfl⟩ := hrun
    obtain ⟨current, hcurrent, hcases⟩ := subPeriodReturn_ok hrow
    have hpct := returnPct_cash hunits (hgap (vBegin, vEnd) (by simp)) hcurrent
    have hlater : ∀ window ∈ windows, NoFlowInside db customerId window :=
      fun window hmem => hgap window (by simp [hmem])
    rw [List.map_cons, List.map_cons]
    rcases hcases with ⟨-, hsame, rfl⟩ | ⟨rfl, t, -, rfl⟩
    · simp only [sameFigures, Bool.decide_and, Bool.and_eq_true, decide_eq_true_eq] at hsame
      rw [hsame.1, hpct, subPeriodReturns_cash hrest hunits hlater]
    · have hlast := subPeriodReturns_cash hrest hunits hlater
      rw [hpct]
      exact congrArg _ hlast

end Windows

end Trueup.Valuation
