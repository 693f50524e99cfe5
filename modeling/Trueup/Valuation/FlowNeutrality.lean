import Trueup.Reporting
import Trueup.Valuation.CashWindows

/-! # Are flows neutral?

The return of a period is linked from windows that are cut at the deposits and withdrawals. An ACH
return takes its cash back by a `correction`, which cuts no window and is subtracted from none: a
window that opens with cash takes it for a loss, `cashReturn`.

* `link_lt_zero`: one window with a loss makes the linked return a loss, as long as no window loses
  more than it opened with.
* `CashFits.subPeriodReturns_returns`: amounts that fit a `Money` together never stop the
  computation.
* `flow_neutral_iff`: the return of a period is zero when no ACH return counts in one of its
  windows, and only then unless some window loses more than it opened with.
* `cashHistory_of_run`: deposits, withdrawals and ACH returns make such histories. -/

namespace Trueup.Valuation

open Trueup.Core Trueup.Models Trueup.Lib Trueup.Lib.Rounding Trueup.Lib.Transaction Trueup.Ledger
open Trueup.Identity Trueup.System

/-! ### Linked losses -/

theorem context_mono {p q : ℚ} (hp : 0 ≤ p) (h : p ≤ q) : context p ≤ context q :=
  roundSig_mono (by norm_num) (by decide) hp h

theorem context_nonneg {p : ℚ} (hp : 0 ≤ p) : 0 ≤ context p := roundSig_nonneg hp

/-- The smallest stored return. -/
def returnQuantum : ℚ := 1 / 10 ^ 10

theorem context_returnQuantum : context returnQuantum = returnQuantum :=
  roundSig_eq_self (by norm_num) (m := 0) (k := 10) (by decide)
    (by rw [returnQuantum, abs_of_pos (by positivity)]; norm_num) ⟨1, by norm_num [returnQuantum]⟩

theorem context_one_sub_returnQuantum : context (1 - returnQuantum) = 1 - returnQuantum := by
  refine roundSig_eq_self (by norm_num) (m := 0) (k := 10) (by decide) ?_
    ⟨10 ^ 10 - 1, by norm_num [returnQuantum]⟩
  rw [abs_of_pos (by norm_num [returnQuantum])]
  norm_num [returnQuantum]

/-- A stored return that loses something, but not more than all. -/
def IsLoss (pct : ℚ) : Prop := -1 ≤ pct ∧ pct ≤ 0 ∧ (pct ≠ 0 → pct ≤ -returnQuantum)

/-- The loop of `link`. -/
def linkedUp (rows : List SubPeriodReturn) (linked : ℚ) : ℚ :=
  rows.foldl (fun linked row => context (linked * context (1 + row.returnPct))) linked

theorem linkedUp_cons (row : SubPeriodReturn) (rows : List SubPeriodReturn) (linked : ℚ) :
    linkedUp (row :: rows) linked =
      linkedUp rows (context (linked * context (1 + row.returnPct))) := rfl

theorem context_one_add_le {pct bound : ℚ} (hloss : IsLoss pct) (hbound : context bound = bound)
    (hle : 1 + pct ≤ bound) : 0 ≤ context (1 + pct) ∧ context (1 + pct) ≤ bound := by
  have hnonneg : 0 ≤ 1 + pct := by linarith [hloss.1]
  refine ⟨context_nonneg hnonneg, ?_⟩
  rw [← hbound]
  exact context_mono hnonneg hle

/-- Losses never lift the product over a number the context keeps. -/
theorem linkedUp_le {rows : List SubPeriodReturn} {bound : ℚ} (hbound : context bound = bound)
    (hloss : ∀ row ∈ rows, IsLoss row.returnPct) :
    ∀ {linked : ℚ}, 0 ≤ linked → linked ≤ bound →
      0 ≤ linkedUp rows linked ∧ linkedUp rows linked ≤ bound := by
  induction rows with
  | nil => intro linked h0 hle; exact ⟨h0, hle⟩
  | cons row rows ih =>
    intro linked h0 hle
    obtain ⟨hnonneg, hone⟩ := context_one_add_le (hloss row (by simp)) context_one
      (by linarith [(hloss row (by simp)).2.1])
    have hproduct : linked * context (1 + row.returnPct) ≤ bound :=
      (mul_le_of_le_one_right h0 hone).trans hle
    rw [linkedUp_cons]
    refine ih (fun r hr => hloss r (by simp [hr])) (context_nonneg (mul_nonneg h0 hnonneg)) ?_
    rw [← hbound]
    exact context_mono (mul_nonneg h0 hnonneg) hproduct

/-- One real loss takes at least a quantum off the product. -/
theorem linkedUp_le_of_mem {rows : List SubPeriodReturn} {row : SubPeriodReturn}
    (hloss : ∀ r ∈ rows, IsLoss r.returnPct) (hrow : row ∈ rows) (hne : row.returnPct ≠ 0) :
    0 ≤ linkedUp rows 1 ∧ linkedUp rows 1 ≤ 1 - returnQuantum := by
  obtain ⟨front, back, rfl⟩ := List.append_of_mem hrow
  have hsplit : linkedUp (front ++ row :: back) 1 =
      linkedUp back (context (linkedUp front 1 * context (1 + row.returnPct))) := by
    unfold linkedUp
    rw [List.foldl_append, List.foldl_cons]
  obtain ⟨hfront0, hfront⟩ := linkedUp_le context_one
    (fun r hr => hloss r (List.mem_append_left _ hr)) zero_le_one le_rfl
  have hown := hloss row hrow
  obtain ⟨hnonneg, hfactor⟩ := context_one_add_le hown context_one_sub_returnQuantum
    (by linarith [hown.2.2 hne])
  have hproduct : linkedUp front 1 * context (1 + row.returnPct) ≤ 1 - returnQuantum :=
    (mul_le_of_le_one_left hnonneg hfront).trans hfactor
  rw [hsplit]
  refine linkedUp_le context_one_sub_returnQuantum
    (fun r hr => hloss r (List.mem_append_right _ (List.mem_cons_of_mem _ hr)))
    (context_nonneg (mul_nonneg hfront0 hnonneg)) ?_
  rw [← context_one_sub_returnQuantum]
  exact context_mono (mul_nonneg hfront0 hnonneg) hproduct

/-- **A linked loss.** -/
theorem link_lt_zero {rows : List SubPeriodReturn} {row : SubPeriodReturn} {twr : ℚ}
    (hloss : ∀ r ∈ rows, IsLoss r.returnPct) (hrow : row ∈ rows) (hne : row.returnPct ≠ 0)
    (hlink : link rows = .ok twr) : twr < 0 := by
  obtain ⟨-, hle⟩ := linkedUp_le_of_mem hloss hrow hne
  have hquantum : returnQuantum ≤ context (1 - linkedUp rows 1) := by
    rw [← context_returnQuantum]
    exact context_mono (by norm_num [returnQuantum]) (by linarith)
  have hcontext : context (linkedUp rows 1 - 1) = -context (1 - linkedUp rows 1) := by
    rw [← neg_sub, context, roundSig_neg]
    rfl
  have hscaled : context (linkedUp rows 1 - 1) * 10 ^ 10 ≤ ((-1 : ℤ) : ℚ) := by
    rw [hcontext]
    have hone : returnQuantum * 10 ^ 10 = 1 := by norm_num [returnQuantum]
    push_cast
    linarith
  have hround : roundHalfEven (context (linkedUp rows 1 - 1) * 10 ^ 10) ≤ -1 := by
    have hmono := roundHalfEven_mono hscaled
    rwa [roundHalfEven_intCast] at hmono
  have htwr : twr = roundHalfEven (context (linkedUp rows 1 - 1) * 10 ^ 10) / 10 ^ 10 :=
    quantizeReturn_ok hlink
  rw [htwr]
  have hcast : (roundHalfEven (context (linkedUp rows 1 - 1) * 10 ^ 10) : ℚ) ≤ -1 := by
    exact_mod_cast hround
  exact div_neg_of_neg_of_pos (by linarith) (by positivity)

/-! ### The returns of cash -/

/-- What a window loses, if it loses no more than it opens with. -/
theorem isLoss_cashReturn {opening other : ℤ} (hother : other ≤ 0)
    (hwithin : opening ≠ 0 → -other ≤ opening) : IsLoss (cashReturn opening other) := by
  unfold cashReturn
  split_ifs with hzero
  · exact ⟨by norm_num, le_rfl, fun h => absurd rfl h⟩
  have hle := hwithin hzero
  have hpos : 0 < opening := by omega
  have hposQ : (0 : ℚ) < opening := by exact_mod_cast hpos
  -- the rounded quotient, with the sign turned
  set lost : ℚ := ((-other : ℤ) : ℚ) / opening with hlost
  have hlost0 : 0 ≤ lost := div_nonneg (by exact_mod_cast (by omega : (0 : ℤ) ≤ -other)) hposQ.le
  have hlost1 : lost ≤ 1 := by
    rw [hlost, div_le_one hposQ]
    exact_mod_cast hle
  have hquotient : context ((other : ℚ) / opening) = -context lost := by
    have hneg : (other : ℚ) / opening = -lost := by
      rw [hlost]
      push_cast
      ring
    rw [hneg, context, roundSig_neg]
    rfl
  have hround : roundHalfEven (context ((other : ℚ) / opening) * 10 ^ 10) =
      -roundHalfEven (context lost * 10 ^ 10) := by
    rw [hquotient, neg_mul, roundHalfEven_neg]
  have hcontext := context_mono hlost0 hlost1
  rw [context_one] at hcontext
  have hlow : 0 ≤ roundHalfEven (context lost * 10 ^ 10) :=
    roundHalfEven_nonneg (mul_nonneg (context_nonneg hlost0) (by positivity))
  have hhigh : roundHalfEven (context lost * 10 ^ 10) ≤ 10 ^ 10 := by
    have hmono := roundHalfEven_mono
      (show context lost * 10 ^ 10 ≤ ((10 ^ 10 : ℤ) : ℚ) by push_cast; linarith)
    rwa [roundHalfEven_intCast] at hmono
  rw [hround]
  set n := roundHalfEven (context lost * 10 ^ 10) with hn
  have hlowQ : (0 : ℚ) ≤ n := by exact_mod_cast hlow
  have hhighQ : (n : ℚ) ≤ 10 ^ 10 := by exact_mod_cast hhigh
  push_cast
  refine ⟨?_, ?_, fun hne => ?_⟩
  · rw [le_div_iff₀ (by positivity)]
    linarith
  · exact div_nonpos_of_nonpos_of_nonneg (by linarith) (by positivity)
  · have hn0 : n ≠ 0 := by
      intro h0
      apply hne
      rw [h0]
      simp
    have hone : (1 : ℚ) ≤ n := by exact_mod_cast (by omega : 1 ≤ n)
    rw [returnQuantum, neg_div, neg_le_neg_iff]
    exact div_le_div_of_nonneg_right hone (by positivity)

/-! ### The period -/

/-- A customer without positions whose cash is that of deposits, withdrawals and ACH returns. -/
structure CashHistory (db : Database) (customerId : Uuid) : Prop where
  units : ∀ p ∈ db.postings, isUnitsOf customerId p = false
  cash : ∀ p ∈ db.postings, isCashOf customerId p →
    ∀ entry ∈ db.journalEntries.find p.journalEntryId,
      isExternalFlow entry ∨ (entry.entryType = .correction ∧ p.amount.moneyQuanta ≤ 0)

theorem CashHistory.otherQuanta_le {db : Database} {customerId : Uuid} (h : CashHistory db customerId)
    (vBegin vEnd : Date) : otherQuanta db customerId vBegin vEnd ≤ 0 := by
  refine (List.sum_le_card_nsmul _ 0 fun n hn => ?_).trans (by simp)
  obtain ⟨p, hp, rfl⟩ := List.mem_map.mp hn
  obtain ⟨hmem, hother⟩ := List.mem_filter.mp hp
  simp only [Bool.and_eq_true, decide_eq_true_eq] at hother
  obtain ⟨hcash, entry, hentry, hnot, -⟩ := hother
  rcases h.cash p hmem hcash entry hentry with hflow | ⟨-, hle⟩
  · rw [hflow] at hnot
    cases hnot
  · exact hle

/-- **No ACH return counts**: in every window of the period, what was returned makes nothing of the
cash the window opens with, in ten places. -/
def NoReturnCounts (db : Database) (customerId : Uuid) (periodStart periodEnd : Date) : Prop :=
  ∀ window ∈ pairwise (boundaries db customerId periodStart periodEnd),
    cashReturn (ledgerCash db customerId window.1)
      (otherQuanta db customerId window.1 window.2) = 0

/-- No window that opens with cash loses more than that to ACH returns. -/
def ReturnsWithinOpening (db : Database) (customerId : Uuid) (periodStart periodEnd : Date) : Prop :=
  ∀ window ∈ pairwise (boundaries db customerId periodStart periodEnd),
    ledgerCash db customerId window.1 ≠ 0 →
      -otherQuanta db customerId window.1 window.2 ≤ ledgerCash db customerId window.1

/-! ### The computation returns -/

/-- The customer's postings of cash, however they are added and subtracted, fit a `Money`. -/
def CashFits (db : Database) (customerId : Uuid) : Prop :=
  ((db.postings.filter (isCashOf customerId)).map fun p => |p.amount.moneyQuanta|).sum < 10 ^ 18

section Returns
variable {db : Database} {customerId : Uuid}

theorem CashFits.abs_lt (h : CashFits db customerId) {f : Posting → ℤ}
    (hf : ∀ p, |f p| ≤ if isCashOf customerId p then |p.amount.moneyQuanta| else 0) :
    |(db.postings.map f).sum| < 10 ^ 18 := by
  rw [CashFits, sum_filter_map] at h
  exact (abs_sum_map_le fun p _ => hf p).trans_lt h

theorem CashFits.abs_filter_lt (h : CashFits db customerId) (selected : Posting → Bool) :
    |((db.postings.filter fun p => isCashOf customerId p && selected p).map
      (·.amount.moneyQuanta)).sum| < 10 ^ 18 := by
  rw [sum_filter_map]
  refine h.abs_lt fun p => ?_
  by_cases hcash : isCashOf customerId p
  · by_cases hselected : selected p <;> simp [hcash, hselected]
  · simp [hcash]

theorem CashFits.abs_change_lt (h : CashFits db customerId) (vBegin vEnd : Date) :
    |ledgerCash db customerId vEnd - ledgerCash db customerId vBegin| < 10 ^ 18 := by
  set share : Date → Posting → ℤ := fun day p =>
    if isCashOf customerId p && isEffectiveBy db day p then p.amount.moneyQuanta else 0 with hshare
  have hby : ∀ day, ledgerCash db customerId day = (db.postings.map (share day)).sum := fun day => by
    rw [ledgerCash, sum_filter_map]
  have hchange : (db.postings.map (share vEnd)).sum = (db.postings.map (share vBegin)).sum +
      (db.postings.map fun p => share vEnd p - share vBegin p).sum := by
    rw [← List.sum_map_add]
    exact congrArg List.sum (List.map_congr_left fun p _ => by ring)
  rw [hby, hby, hchange, add_sub_cancel_left]
  refine h.abs_lt fun p => ?_
  by_cases hcash : isCashOf customerId p
  · by_cases hbegin : isEffectiveBy db vBegin p <;> by_cases hend : isEffectiveBy db vEnd p <;>
      simp [hshare, hcash, hbegin, hend]
  · simp [hshare, hcash]

theorem CashFits.valueBook_returns (h : CashFits db customerId)
    (hunits : ∀ p ∈ db.postings, isUnitsOf customerId p = false) (day : Date) :
    ∃ book, valueBook db customerId day = .ok book := by
  have hcash : cashBalance db customerId day =
      .ok ⟨ledgerCash db customerId day, h.abs_filter_lt (isEffectiveBy db day)⟩ :=
    Money.ofSum_ok.mpr rfl
  exact ⟨_, except_bind_ok.mpr ⟨_, hcash, except_bind_ok.mpr ⟨_, positionUnits_cash hunits day, rfl⟩⟩⟩

/-- The row of a window in which no ACH return counts. -/
theorem CashFits.currentSubPeriod_returns (h : CashFits db customerId)
    (hunits : ∀ p ∈ db.postings, isUnitsOf customerId p = false) (env : Env) {vBegin vEnd : Date}
    (hinside : NoFlowInside db customerId (vBegin, vEnd))
    (hzero : cashReturn (ledgerCash db customerId vBegin)
      (otherQuanta db customerId vBegin vEnd) = 0) :
    ∃ row, currentSubPeriod db env customerId vBegin vEnd = .ok row := by
  obtain ⟨bookBegin, hbegin⟩ := h.valueBook_returns hunits vBegin
  obtain ⟨bookEnd, hend⟩ := h.valueBook_returns hunits vEnd
  have hopening := valueBook_cash hunits hbegin
  have hclosing := valueBook_cash hunits hend
  obtain ⟨flow, hflow, hquanta⟩ : ∃ flow, flowAmountOn db customerId vEnd = .ok flow ∧
      flow.quanta = flowQuantaOn db customerId vEnd :=
    ⟨⟨_, h.abs_filter_lt _⟩, Money.ofSum_ok.mpr rfl, rfl⟩
  suffices hreturn : returnOf bookBegin.totalValue bookEnd.totalValue flow = .ok 0 from
    ⟨_, currentSubPeriod_eq_ok.mpr ⟨bookBegin, bookEnd, flow, 0, hbegin, hend, hflow, hreturn, rfl⟩⟩
  unfold returnOf
  by_cases hnothing : bookBegin.totalValue = 0
  · rw [if_pos hnothing, quantizeReturn_zero]
  have hne : ledgerCash db customerId vBegin ≠ 0 := by
    rw [← hopening]
    exact fun heq => hnothing (QuantizedDecimal.ext heq)
  obtain ⟨change, hchange, hchangeQuanta⟩ : ∃ change : Money,
      bookEnd.totalValue.sub bookBegin.totalValue = .ok change ∧ change.quanta =
        ledgerCash db customerId vEnd - ledgerCash db customerId vBegin :=
    ⟨⟨_, h.abs_change_lt vBegin vEnd⟩, Money.sub_ok.mpr (by rw [hopening, hclosing]), rfl⟩
  have hother : |otherQuanta db customerId vBegin vEnd| < 10 ^ 18 := h.abs_filter_lt _
  obtain ⟨gain, hgain, hgainQuanta⟩ : ∃ gain : Money, change.sub flow = .ok gain ∧
      gain.quanta = otherQuanta db customerId vBegin vEnd := by
    refine ⟨⟨_, hother⟩, Money.sub_ok.mpr ?_, rfl⟩
    rw [hchangeQuanta, hquanta, ledgerCash_window hinside]
    ring
  have hratio : Money.ratio gain bookBegin.totalValue =
      .ok (context ((otherQuanta db customerId vBegin vEnd : ℚ) / ledgerCash db customerId vBegin)) := by
    rw [Money.ratio, if_neg (hopening ▸ hne), QuantizedDecimal.value, QuantizedDecimal.value,
      hgainQuanta, hopening, div_div_div_cancel_right₀ (by norm_num)]
  have hrounded : roundHalfEven (context ((otherQuanta db customerId vBegin vEnd : ℚ) /
      ledgerCash db customerId vBegin) * 10 ^ 10) = 0 := by
    rw [cashReturn, if_neg hne, div_eq_zero_iff, or_iff_left (by positivity)] at hzero
    exact_mod_cast hzero
  simp only [if_neg hnothing, except_bind_ok]
  exact ⟨change, hchange, gain, hgain, _, hratio, quantizeReturn_eq_zero hrounded⟩

/-- A recomputation returns unless a row of its window and its transaction is there already. -/
theorem CashFits.subPeriodReturn_returns (h : CashFits db customerId)
    (hunits : ∀ p ∈ db.postings, isUnitsOf customerId p = false) (env : Env) {vBegin vEnd : Date}
    (hinside : NoFlowInside db customerId (vBegin, vEnd))
    (hzero : cashReturn (ledgerCash db customerId vBegin)
      (otherQuanta db customerId vBegin vEnd) = 0)
    (hfree : ¬ db.subPeriodReturns.Has (customerId, vBegin, vEnd, env.transactionStart)) :
    ∃ row db', (subPeriodReturn env customerId vBegin vEnd).run db = .ok (row, db') := by
  obtain ⟨row, hrow⟩ := h.currentSubPeriod_returns hunits env hinside hzero
  have hpct : row.returnPct = 0 := (returnPct_cash hunits hinside hrow).trans hzero
  obtain ⟨hcustomer, hbegin, hend, hrecorded⟩ := currentSubPeriod_ok hrow
  have hkey : SubPeriodReturn.key row = (customerId, vBegin, vEnd, env.transactionStart) := by
    rw [SubPeriodReturn.key, hcustomer, hbegin, hend, hrecorded]
  obtain ⟨t, ht⟩ := Table.exists_insert (r := row) (hkey ▸ hfree)
  simp only [subPeriodReturn, bind_ok, read_ok]
  cases hexisting : (latestForSubPeriod db customerId vBegin vEnd).filter (sameFigures row) with
  | some e =>
    refine ⟨e, db, row, db, ⟨hrow, rfl⟩, _, db, ⟨rfl, rfl⟩, ?_⟩
    rw [hexisting]
    exact pure_ok.mpr ⟨rfl, rfl⟩
  | none =>
    refine ⟨row, { db with subPeriodReturns := t }, row, db, ⟨hrow, rfl⟩, _, db, ⟨rfl, rfl⟩, ?_⟩
    rw [hexisting]
    exact bind_ok.mpr ⟨(), _, addSubPeriodReturn_ok.mpr ⟨by rw [hpct]; norm_num, t, ht, rfl⟩,
      pure_ok.mpr ⟨rfl, rfl⟩⟩

/-- **The loop returns** over windows that are pairwise different. -/
theorem CashFits.subPeriodReturns_returns {env : Env} : ∀ {windows : List (Date × Date)} {db : Database},
    CashFits db customerId → (∀ p ∈ db.postings, isUnitsOf customerId p = false) →
    (∀ window ∈ windows, NoFlowInside db customerId window ∧
      cashReturn (ledgerCash db customerId window.1)
        (otherQuanta db customerId window.1 window.2) = 0) →
    windows.Nodup →
    (∀ window ∈ windows,
      ¬ db.subPeriodReturns.Has (customerId, window.1, window.2, env.transactionStart)) →
    ∃ rows db', (subPeriodReturns env customerId windows).run db = .ok (rows, db')
  | [], db, _, _, _, _, _ => ⟨[], db, rfl⟩
  | (vBegin, vEnd) :: windows, db, hfits, hunits, hwindows, hnodup, hfree => by
    obtain ⟨hnew, hnodup⟩ := List.nodup_cons.mp hnodup
    obtain ⟨hinside, hzero⟩ := hwindows (vBegin, vEnd) List.mem_cons_self
    obtain ⟨row, db₁, hrow⟩ := hfits.subPeriodReturn_returns hunits env hinside hzero
      (hfree (vBegin, vEnd) List.mem_cons_self)
    have hrest : ∃ rows db', (subPeriodReturns env customerId windows).run db₁ = .ok (rows, db') := by
      obtain ⟨current, hcurrent, ⟨-, -, rfl⟩ | ⟨-, t, ht, rfl⟩⟩ := subPeriodReturn_ok hrow
      · exact CashFits.subPeriodReturns_returns hfits hunits
          (fun window hmem => hwindows window (List.mem_cons_of_mem _ hmem)) hnodup
          fun window hmem => hfree window (List.mem_cons_of_mem _ hmem)
      · refine CashFits.subPeriodReturns_returns hfits hunits
          (fun window hmem => hwindows window (List.mem_cons_of_mem _ hmem)) hnodup
          fun window hmem hhas => ?_
        obtain ⟨hcustomer, hbegin, hend, hrecorded⟩ := currentSubPeriod_ok hcurrent
        rcases (Table.has_insert ht _).mp hhas with hold | hkey
        · exact hfree window (List.mem_cons_of_mem _ hmem) hold
        · rw [SubPeriodReturn.key, hbegin, hend] at hkey
          simp only [Prod.mk.injEq] at hkey
          obtain rfl : window = (vBegin, vEnd) := Prod.ext hkey.2.1 hkey.2.2.1
          exact hnew hmem
    obtain ⟨rows, db', hrows⟩ := hrest
    exact ⟨row :: rows, db', bind_ok.mpr ⟨row, db₁, hrow, bind_ok.mpr ⟨rows, db', hrows, rfl⟩⟩⟩

end Returns

section Period
variable {db db' : Database} {customerId : Uuid} {env : Env} {periodStart periodEnd : Date}
  {rows : List SubPeriodReturn}

theorem CashHistory.returnPcts (h : CashHistory db customerId) (hle : periodStart ≤ periodEnd)
    (hrows : (subPeriodReturns env customerId
      (pairwise (boundaries db customerId periodStart periodEnd))).run db = .ok (rows, db')) :
    rows.map (·.returnPct) = (pairwise (boundaries db customerId periodStart periodEnd)).map
      fun window => cashReturn (ledgerCash db customerId window.1)
        (otherQuanta db customerId window.1 window.2) :=
  subPeriodReturns_cash hrows h.units (noFlowInside_boundaries hle)

/-- Windows without a return that counts are linked to zero. -/
theorem CashHistory.link_eq_zero (h : CashHistory db customerId) (hle : periodStart ≤ periodEnd)
    (hnone : NoReturnCounts db customerId periodStart periodEnd)
    (hrows : (subPeriodReturns env customerId
      (pairwise (boundaries db customerId periodStart periodEnd))).run db = .ok (rows, db')) :
    link rows = .ok 0 := by
  refine link_zero fun row hrow => ?_
  have hmem := List.mem_map_of_mem (f := fun r : SubPeriodReturn => r.returnPct) hrow
  rw [h.returnPcts hle hrows] at hmem
  obtain ⟨window, hwindow, hpct⟩ := List.mem_map.mp hmem
  rw [← hpct]
  exact hnone window hwindow

/-- A window in which a return counts is a loss, and a loss is never made up for. -/
theorem CashHistory.link_lt_zero (h : CashHistory db customerId) (hle : periodStart ≤ periodEnd)
    (hwithin : ReturnsWithinOpening db customerId periodStart periodEnd)
    (hcounts : ¬ NoReturnCounts db customerId periodStart periodEnd)
    (hrows : (subPeriodReturns env customerId
      (pairwise (boundaries db customerId periodStart periodEnd))).run db = .ok (rows, db'))
    {twr : ℚ} (hlink : link rows = .ok twr) : twr < 0 := by
  have hpcts := h.returnPcts hle hrows
  unfold NoReturnCounts at hcounts
  push Not at hcounts
  obtain ⟨window, hwindow, hne⟩ := hcounts
  have hloss : ∀ row ∈ rows, IsLoss row.returnPct := by
    intro row hrow
    have hmem := List.mem_map_of_mem (f := fun r : SubPeriodReturn => r.returnPct) hrow
    rw [hpcts] at hmem
    obtain ⟨other, hother, hpct⟩ := List.mem_map.mp hmem
    rw [← hpct]
    exact isLoss_cashReturn (h.otherQuanta_le _ _) (hwithin other hother)
  obtain ⟨row, hrow, hpct⟩ : ∃ row ∈ rows, row.returnPct = cashReturn
      (ledgerCash db customerId window.1) (otherQuanta db customerId window.1 window.2) := by
    have hmem := List.mem_map_of_mem (f := fun window : Date × Date => cashReturn
      (ledgerCash db customerId window.1) (otherQuanta db customerId window.1 window.2)) hwindow
    rw [← hpcts] at hmem
    exact List.mem_map.mp hmem
  exact Valuation.link_lt_zero hloss hrow (hpct ▸ hne) hlink

theorem CashHistory.computeTwr_returns (h : CashHistory db customerId) (hle : periodStart ≤ periodEnd)
    (hnone : NoReturnCounts db customerId periodStart periodEnd) (hfits : CashFits db customerId)
    (hnew : ∀ row ∈ db.subPeriodReturns, row.recordedAt ≠ env.transactionStart) :
    ∃ rows db', (computeTwr env customerId periodStart periodEnd).run db = .ok ((0, rows), db') := by
  have hnodup := pairwise_nodup
    ((boundaries_sorted db customerId periodStart periodEnd).imp fun {_ _} hlt => hlt.ne)
  have hwindows : ∀ window ∈ pairwise (boundaries db customerId periodStart periodEnd),
      NoFlowInside db customerId window ∧ cashReturn (ledgerCash db customerId window.1)
        (otherQuanta db customerId window.1 window.2) = 0 := fun window hwindow =>
    ⟨noFlowInside_boundaries hle window hwindow, hnone window hwindow⟩
  have hfree : ∀ window ∈ pairwise (boundaries db customerId periodStart periodEnd),
      ¬ db.subPeriodReturns.Has (customerId, window.1, window.2, env.transactionStart) := by
    intro window _ hhas
    obtain ⟨row, hrow, hkey⟩ := Table.has_iff.mp hhas
    exact hnew row hrow (congrArg (·.2.2.2) hkey)
  obtain ⟨rows, db', hrows⟩ := hfits.subPeriodReturns_returns h.units hwindows hnodup hfree
  exact ⟨rows, db', computeTwr_ok.mpr ⟨hrows, h.link_eq_zero hle hnone hrows⟩⟩

end Period

/-- **The return of a customer who holds only cash.** When no ACH return counts in a window of the
period, it is computed and it is zero; and unless some window loses more than it opened with, it is
zero only then. -/
theorem flow_neutral_iff {db : Database} {customerId : Uuid} (h : CashHistory db customerId)
    {env : Env} {periodStart periodEnd : Date} (hle : periodStart ≤ periodEnd) :
    (NoReturnCounts db customerId periodStart periodEnd → CashFits db customerId →
      (∀ row ∈ db.subPeriodReturns, row.recordedAt ≠ env.transactionStart) →
      ∃ rows db', (computeTwr env customerId periodStart periodEnd).run db =
        .ok ((0, rows), db')) ∧
    ∀ twr rows db', (computeTwr env customerId periodStart periodEnd).run db = .ok ((twr, rows), db') →
      (NoReturnCounts db customerId periodStart periodEnd → twr = 0) ∧
        (ReturnsWithinOpening db customerId periodStart periodEnd →
          (twr = 0 ↔ NoReturnCounts db customerId periodStart periodEnd)) := by
  refine ⟨fun hnone hfits hnew => h.computeTwr_returns hle hnone hfits hnew, fun twr rows db' hrun => ?_⟩
  obtain ⟨hrows, hlink⟩ := computeTwr_ok.mp hrun
  have hzero : NoReturnCounts db customerId periodStart periodEnd → twr = 0 := fun hnone =>
    Except.ok.inj (hlink.symm.trans (h.link_eq_zero hle hnone hrows))
  refine ⟨hzero, fun hwithin => ⟨fun htwr => ?_, hzero⟩⟩
  by_contra hcounts
  exact absurd htwr (h.link_lt_zero hle hwithin hcounts hrows hlink).ne

/-! ### The histories -/

/-- A deposit that is not negative, its settlement or its return, or a withdrawal. -/
def MovesCash (op : Op) : Prop :=
  match op with
  | .initiateDeposit _ amount => 0 ≤ amount
  | .confirmSettlement _ | .applyAchReturn _ | .initiateWithdrawal .. => True
  | _ => False

instance (op : Op) : Decidable (MovesCash op) := by
  unfold MovesCash; split <;> infer_instance

/-- A posting of the given entry that moves no units, and cash only as a deposit, a withdrawal or a
return does. -/
def IsCashLeg (entry : JournalEntry) (p : Posting) : Prop :=
  p.account.role ≠ .positionUnits ∧ (p.account.role = .cash →
    isExternalFlow entry ∨ (entry.entryType = .correction ∧ p.amount.moneyQuanta ≤ 0))

/-- All postings are such, and every obligation stands for cash that came in. -/
structure CashBooks (db : Database) : Prop where
  known : PostingsKnown db
  legs : ∀ p ∈ db.postings, ∀ entry ∈ db.journalEntries.find p.journalEntryId, IsCashLeg entry p
  obligations : ∀ o ∈ db.settlementObligations, o.account.role = .cash ∧ 0 ≤ o.amountMoney.quanta

theorem CashBooks.history {db : Database} (h : CashBooks db) (customerId : Uuid) :
    CashHistory db customerId := by
  refine ⟨fun p hp => ?_, fun p hp hcash entry hentry => ?_⟩
  · obtain ⟨entry, hentry⟩ := Option.ne_none_iff_exists'.mp fun hnone =>
      Table.find_eq_none.mp hnone (h.known p hp)
    simp [isUnitsOf, (h.legs p hp entry hentry).1]
  · refine (h.legs p hp entry hentry).2 ?_
    simp only [isCashOf, Bool.decide_and, Bool.and_eq_true, decide_eq_true_eq] at hcash
    exact hcash.2

section Run
variable {db db' : Database}

theorem CashBooks.append (h : CashBooks db) {entry : JournalEntry}
    {entries : Table JournalEntry.id} {postings : List Posting}
    (hinsert : db.journalEntries.insert entry = some entries) (hentries : db'.journalEntries = entries)
    (hpostings : db'.postings = db.postings ++ postings)
    (hnew : ∀ p ∈ postings, p.journalEntryId = entry.id ∧ IsCashLeg entry p)
    (hobligations : ∀ o ∈ db'.settlementObligations,
      o.account.role = .cash ∧ 0 ≤ o.amountMoney.quanta) : CashBooks db' := by
  refine ⟨fun p hp => ?_, fun p hp e he => ?_, hobligations⟩
  · rw [hentries, Table.has_insert hinsert]
    rcases List.mem_append.mp (hpostings ▸ hp) with hp | hp
    · exact Or.inl (h.known p hp)
    · exact Or.inr (hnew p hp).1
  · rw [hentries] at he
    rcases List.mem_append.mp (hpostings ▸ hp) with hp | hp
    · rw [Table.find_insert_of_has hinsert (h.known p hp)] at he
      exact h.legs p hp e he
    · rw [(hnew p hp).1, Table.find_insert hinsert, if_pos rfl] at he
      cases he
      exact (hnew p hp).2

theorem obligations_set {t : Table SettlementObligation.id} {o o' : SettlementObligation}
    (h : ∀ x ∈ t, x.account.role = .cash ∧ 0 ≤ x.amountMoney.quanta) (hmem : o ∈ t)
    (haccount : o'.account = o.account) (hamount : o'.amountMoney = o.amountMoney) :
    ∀ x ∈ t.set o', x.account.role = .cash ∧ 0 ≤ x.amountMoney.quanta := by
  intro x hx
  rcases Table.mem_set.mp hx with ⟨hx, -⟩ | ⟨rfl, -⟩
  · exact h x hx
  · rw [haccount, hamount]
    exact h o hmem

/-- **The step lemma.** -/
theorem keeps_cashBooks {step : Step} (hop : MovesCash step.op) : Keeps CashBooks (body step) := by
  intro db u db' h hrun
  obtain ⟨env, op⟩ := step
  cases op with
  | initiateDeposit customerId amount =>
    obtain ⟨r, hrun⟩ := discard_ok hrun
    obtain ⟨entry, cash, equity, entries, obligations, rfl, hcash, hequity, hentries, hobl, rfl, -⟩ :=
      initiateDeposit_ok hrun
    refine h.append hentries rfl rfl (fun p hp => ?_) fun o ho => ?_
    · simp only [List.mem_cons, List.not_mem_nil, or_false] at hp
      rcases hp with rfl | rfl
      · exact ⟨rfl, by simp [hcash.role], fun _ => Or.inl rfl⟩
      · exact ⟨rfl, by simp [hequity.role], fun _ => Or.inl rfl⟩
    · rcases (Table.mem_insert hobl).mp ho with ho | rfl
      · exact h.obligations o ho
      · exact ⟨hcash.role, hop⟩
  | confirmSettlement obligationId =>
    obtain ⟨o, hfind, -, rfl⟩ := confirmSettlement_ok hrun
    exact ⟨h.known, h.legs,
      obligations_set h.obligations (Table.find_eq_some.mp hfind).1 rfl rfl⟩
  | applyAchReturn obligationId =>
    obtain ⟨o, customerId, entry, receivable, accounts, entries, hfind, -, -, rfl, hreceivable,
      hentries, rfl⟩ := applyAchReturn_ok hrun
    have hmem := (Table.find_eq_some.mp hfind).1
    obtain ⟨hrole, hamount⟩ := h.obligations o hmem
    refine h.append hentries rfl rfl (fun p hp => ?_) (obligations_set h.obligations hmem rfl rfl)
    simp only [List.mem_cons, List.not_mem_nil, or_false] at hp
    rcases hp with rfl | rfl
    · refine ⟨rfl, by simp [hrole], fun _ => Or.inr ⟨rfl, ?_⟩⟩
      simp only [Amount.moneyQuanta, QuantizedDecimal.neg]
      omega
    · exact ⟨rfl, by simp [hreceivable.role], fun hc => by simp [hreceivable.role] at hc⟩
  | initiateWithdrawal customerId amount =>
    obtain ⟨r, hrun⟩ := discard_ok hrun
    obtain ⟨_, entry, cash, equity, entries, -, -, rfl, hcash, hequity, hentries, rfl⟩ :=
      initiateWithdrawal_ok hrun
    refine h.append hentries rfl rfl (fun p hp => ?_) h.obligations
    simp only [List.mem_cons, List.not_mem_nil, or_false] at hp
    rcases hp with rfl | rfl
    · exact ⟨rfl, by simp [hcash.role], fun _ => Or.inl rfl⟩
    · exact ⟨rfl, by simp [hequity.role], fun _ => Or.inl rfl⟩
  | placeOrder request designatedLotIds => exact hop.elim
  | approve orderId => exact hop.elim
  | submitToBroker orderId broker => exact hop.elim
  | tradeUpdate fault message => exact hop.elim
  | applySplit securityId ratio effectiveDate => exact hop.elim

end Run

/-- **Deposits, withdrawals and ACH returns** make a history in cash, of every customer. -/
theorem cashHistory_of_run {db : Database} (hfresh : Fresh db) {steps : List Step}
    (hsteps : ∀ step ∈ steps, MovesCash step.op) (customerId : Uuid) :
    CashHistory (run steps db) customerId := by
  have hbooks : CashBooks db := by
    refine ⟨fun p hp => ?_, fun p hp => ?_, fun o ho => ?_⟩
    · rw [hfresh.postings] at hp; cases hp
    · rw [hfresh.postings] at hp; cases hp
    · rw [hfresh.settlementObligations] at ho; cases ho
  exact (runs_keeps steps (fun step hstep => keeps_cashBooks (hsteps step hstep)) hbooks).history
    customerId

instance (db : Database) (customerId : Uuid) (periodStart periodEnd : Date) :
    Decidable (NoReturnCounts db customerId periodStart periodEnd) := by
  unfold NoReturnCounts; infer_instance

/-- On day 0 deposits of 1000 and 500; on day 1 the first settles and the second is returned; on day
2 a withdrawal of 200. -/
def returnedDeposit : List Step := [
  ⟨envAt 1 1, .initiateDeposit 1 (dollars 1000)⟩, ⟨envAt 2 2, .initiateDeposit 1 (dollars 500)⟩,
  ⟨envAt 86400000001 3, .confirmSettlement 1⟩, ⟨envAt 86400000002 4, .applyAchReturn 2⟩,
  ⟨envAt 172800000001 5, .initiateWithdrawal 1 (dollars 200)⟩]

/-- The account with that history. -/
def returnedAccount : Database := run returnedDeposit (openedAccount 1)

theorem cashHistory_returnedAccount : CashHistory returnedAccount 1 :=
  cashHistory_of_run (fresh_openedAccount 1) (by decide) 1

/-- The return of a period, computed on day 3. -/
def twrOf (periodStart periodEnd : Date) : Tx (ℚ × List SubPeriodReturn) :=
  computeTwr (envAt 259200000001 6) 1 periodStart periodEnd

/-- From day 1 on there is no ACH return, and the withdrawal is no loss. -/
theorem flow_neutral_after_return : ∃ rows db',
    (twrOf 1 3).run returnedAccount = .ok ((0, rows), db') :=
  (flow_neutral_iff cashHistory_returnedAccount (by decide)).1 (by decide +kernel)
    (show _ < _ by decide +kernel) (by decide +kernel)

/-- From day 0 to day 2 the ACH return of 500 counts as a loss of a third. -/
theorem ach_return_is_a_loss : CashHistory returnedAccount 1 ∧
    ((twrOf 0 2).run returnedAccount).toOption.map (·.1.1) = some (-3333333333 / 10 ^ 10) ∧
    (-3333333333 / 10 ^ 10 : ℚ) ≠ 0 :=
  ⟨cashHistory_returnedAccount, by decide +kernel, by norm_num⟩

end Trueup.Valuation
