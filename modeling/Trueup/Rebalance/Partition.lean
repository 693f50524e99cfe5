import Trueup.Cash.SaleHolds
import Trueup.Rebalance.DriftEvaluationService
import Trueup.Valuation.BookValue

/-! # The entries of a drift evaluation

`evaluate` values the book and then goes over the targets, over what is held besides, and takes the
cash. Both passes see the same positions at the same closes, so that the entries share out the value
of the book (`Partitions`), and the cash takes what the targets leave of the weights.

* `securityEntries_ok`: an entry for each security, or none when one has no close.
* `evaluate_cases`: what an evaluation comes to; `evaluate_entry`: what an entry of it has seen.
* `evaluate_partitions`: the entries partition the book, and without a close there are none. -/

namespace Trueup.Rebalance

open Trueup.Core Trueup.Models Trueup.Lib Trueup.Lib.Rounding Trueup.Lib.Transaction Trueup.Ledger
open Trueup.Valuation Trueup.Cash

/-! ### The entries of the securities -/

/-- The entry of a security, of what is held of it and of its weight. -/
structure EntryOf (db : Database) (totalValue : Money) (asOfDate : Date)
    (security : Uuid × Units × ℚ) (entry : DriftEntry) : Prop where
  securityId : entry.securityId = some security.1
  price : ∃ close, latestConfirmed db security.1 asOfDate = some close ∧
    entry.price = some close.closePrice
  currentValue : entry.currentMarketValue.quanta =
    marketQuanta db asOfDate (security.1, security.2.1)
  targetValue : totalValue.scale security.2.2 = .ok entry.targetMarketValue
  targetWeight : entry.targetWeightPct = security.2.2
  direction : entry.direction = .sell ↔ entry.targetMarketValue < entry.currentMarketValue

theorem buildEntry_ok {driftBandPct : ℚ} {totalValue : Money} {securityId : Option Uuid}
    {currentValue : Money} {targetWeightPct : ℚ} {price : Option Price} {entry : DriftEntry}
    (h : buildEntry driftBandPct totalValue securityId currentValue targetWeightPct price = .ok entry) :
    totalValue.scale targetWeightPct = .ok entry.targetMarketValue ∧ entry.securityId = securityId ∧
      entry.currentMarketValue = currentValue ∧ entry.targetWeightPct = targetWeightPct ∧
      entry.price = price ∧
      (entry.direction = .sell ↔ entry.targetMarketValue < entry.currentMarketValue) := by
  obtain ⟨targetValue, htarget, h⟩ := except_bind_ok.mp h
  obtain ⟨currentWeightPct, -, h⟩ := except_bind_ok.mp h
  cases h
  refine ⟨htarget, rfl, rfl, rfl, rfl, ?_⟩
  dsimp only
  split_ifs with hlt <;> simp [hlt]

/-- **The loop over the securities**: an entry for each, or none at all when one has no close. -/
theorem securityEntries_ok {driftBandPct : ℚ} {db : Database} {totalValue : Money} {asOfDate : Date} :
    ∀ {securities : List (Uuid × Units × ℚ)} {result : Option (List DriftEntry)},
      securityEntries driftBandPct db totalValue asOfDate securities = .ok result →
        (result = none ↔ ∃ x ∈ securities, latestConfirmed db x.1 asOfDate = none) ∧
          ∀ entries, result = some entries →
            List.Forall₂ (EntryOf db totalValue asOfDate) securities entries
  | [], result, h => by
    cases h
    simp
  | (s, u, w) :: securities, result, h => by
    unfold securityEntries at h
    cases hclose : latestConfirmed db s asOfDate with
    | none =>
      rw [hclose] at h
      cases h
      simp [hclose]
    | some close =>
      simp only [hclose, except_bind_ok] at h
      obtain ⟨value, hvalue, entry, hentry, rest, hrest, hpure⟩ := h
      cases hpure
      obtain ⟨hnone, hsome⟩ := securityEntries_ok hrest
      obtain ⟨htarget, hsecurity, hcurrent, hweight, hprice, hdirection⟩ := buildEntry_ok hentry
      constructor
      · rw [Option.map_eq_none_iff, hnone]
        simp [hclose]
      · intro entries hentries
        obtain ⟨others, rfl, rfl⟩ := Option.map_eq_some_iff.mp hentries
        refine .cons ⟨hsecurity, ⟨close, hclose, hprice⟩, ?_, htarget, hweight, hdirection⟩
          (hsome others rfl)
        rw [hcurrent, Price.times_ok.mp hvalue]
        simp [marketQuanta, hclose]

/-! ### What an evaluation comes to -/

/-- The model of the evaluation has a target for the security. -/
def Targeted (tables : RebalanceTables) (modelPortfolioId securityId : Uuid) : Prop :=
  ∃ target ∈ listForModel tables modelPortfolioId, target.securityId = securityId

/-- The securities that an evaluation goes over: the targets, and what is held besides. -/
def evaluated (targets : List TargetWeight) (held : List (Uuid × Units)) : List (Uuid × Units × ℚ) :=
  targets.map (fun target =>
      (target.securityId, unitsOf held target.securityId, target.weightPct.value)) ++
    (held.filter fun position => position.1 ∉ targets.map TargetWeight.securityId).map
      fun position => (position.1, position.2, 0)

section Evaluated
variable {db : Database} {customerId : Uuid} {asOfDate : Date} {held : List (Uuid × Units)}

theorem quanta_unitsOf (h : heldUnits db customerId asOfDate = .ok held) (securityId : Uuid) :
    (unitsOf held securityId).quanta = ledgerUnits db customerId asOfDate securityId := by
  obtain ⟨-, hheld⟩ := heldUnits_ok h
  unfold unitsOf
  cases hfind : held.find? (·.1 = securityId) with
  | none =>
    have hmiss := List.find?_eq_none.mp hfind
    have hnot : securityId ∉ held.map Prod.fst := by
      intro hmem
      obtain ⟨position, hposition, hsecurity⟩ := List.mem_map.mp hmem
      exact hmiss position hposition (decide_eq_true hsecurity)
    rw [mem_held_iff h, not_ne_iff] at hnot
    rw [hnot]
    rfl
  | some position =>
    have hsecurity : position.1 = securityId := by simpa using List.find?_some hfind
    obtain ⟨hquanta, -⟩ := (hheld position.1 position.2).mp (List.mem_of_find?_eq_some hfind)
    rw [← hsecurity, ← hquanta]
    rfl

/-- Each evaluated security is seen with what the ledger has of it. -/
theorem evaluated_units (h : heldUnits db customerId asOfDate = .ok held)
    {targets : List TargetWeight} {x : Uuid × Units × ℚ} (hx : x ∈ evaluated targets held) :
    x.2.1.quanta = ledgerUnits db customerId asOfDate x.1 := by
  rcases List.mem_append.mp hx with hx | hx
  · obtain ⟨target, -, rfl⟩ := List.mem_map.mp hx
    exact quanta_unitsOf h target.securityId
  · obtain ⟨position, hposition, rfl⟩ := List.mem_map.mp hx
    exact (((heldUnits_ok h).2 _ _).mp (List.mem_of_mem_filter hposition)).1

theorem mem_evaluated (h : heldUnits db customerId asOfDate = .ok held) {targets : List TargetWeight}
    {securityId : Uuid} : securityId ∈ (evaluated targets held).map Prod.fst ↔
      (∃ target ∈ targets, target.securityId = securityId) ∨
        ledgerUnits db customerId asOfDate securityId ≠ 0 := by
  rw [← mem_held_iff h]
  simp only [evaluated, List.map_append, List.mem_append, List.map_map, List.mem_map,
    List.mem_filter, decide_eq_true_eq, Function.comp_apply]
  constructor
  · rintro (⟨target, htarget, hid⟩ | ⟨position, ⟨hposition, -⟩, hid⟩)
    · exact Or.inl ⟨target, htarget, hid⟩
    · exact Or.inr ⟨position, hposition, hid⟩
  · rintro (⟨target, htarget, hid⟩ | ⟨position, hposition, hid⟩)
    · exact Or.inl ⟨target, htarget, hid⟩
    · by_cases htargeted : ∃ target ∈ targets, target.securityId = position.1
      · obtain ⟨target, htarget, heq⟩ := htargeted
        exact Or.inl ⟨target, htarget, heq.trans hid⟩
      · exact Or.inr ⟨position, ⟨hposition, htargeted⟩, hid⟩

theorem nodup_evaluated (h : heldUnits db customerId asOfDate = .ok held) {targets : List TargetWeight}
    (hdistinct : (targets.map TargetWeight.securityId).Nodup) :
    ((evaluated targets held).map Prod.fst).Nodup := by
  obtain ⟨hnodup, -⟩ := heldUnits_ok h
  rw [evaluated, List.map_append, List.map_map, List.map_map]
  refine List.Nodup.append hdistinct (hnodup.sublist (List.filter_sublist.map _)) fun s hs hs' => ?_
  obtain ⟨position, hposition, rfl⟩ := List.mem_map.mp hs'
  obtain ⟨-, hnot⟩ := List.mem_filter.mp hposition
  exact of_decide_eq_true hnot hs

end Evaluated

/-- **What an evaluation comes to**: without a value, or with a position that has no close, there
are no entries; nor with a target that has none; else an entry for each evaluated security and one
for the cash. -/
theorem evaluate_cases {driftBandPct : ℚ} {tables : RebalanceTables} {customerId : Uuid}
    {asOfDate : Date} {evaluation : DriftEvaluation}
    (h : evaluate driftBandPct tables customerId asOfDate = .ok evaluation) :
    ∃ book held, valueBook tables.db customerId asOfDate = .ok book ∧
      heldUnits tables.db customerId asOfDate = .ok held ∧
      evaluation.customerId = customerId ∧ evaluation.asOfDate = asOfDate ∧
      evaluation.totalValue = book.totalValue ∧
      ((book.isPartial ∨ book.totalValue = 0) ∧ evaluation.isPartial = book.isPartial ∧
          evaluation.entries = [] ∨
        ¬ (book.isPartial ∨ book.totalValue = 0) ∧ evaluation.isPartial = true ∧
          evaluation.entries = [] ∧
          (∃ x ∈ evaluated (listForModel tables evaluation.modelPortfolioId) held,
            latestConfirmed tables.db x.1 asOfDate = none) ∨
        ¬ (book.isPartial ∨ book.totalValue = 0) ∧ evaluation.isPartial = false ∧
          ∃ entries cash, evaluation.entries = entries ++ [cash] ∧
            List.Forall₂ (EntryOf tables.db book.totalValue asOfDate)
              (evaluated (listForModel tables evaluation.modelPortfolioId) held) entries ∧
            cash.securityId = none ∧
            cash.currentMarketValue.quanta = ledgerCash tables.db customerId asOfDate ∧
            cash.targetWeightPct =
              context (1 - accountedTargetPct (listForModel tables evaluation.modelPortfolioId)) ∧
            ∀ x ∈ evaluated (listForModel tables evaluation.modelPortfolioId) held,
              latestConfirmed tables.db x.1 asOfDate ≠ none) := by
  obtain ⟨assignment, -, h⟩ := except_bind_ok.mp h
  obtain ⟨book, hbook, h⟩ := except_bind_ok.mp h
  obtain ⟨held, hheld⟩ : ∃ held, heldUnits tables.db customerId asOfDate = .ok held := by
    obtain ⟨positions, hpositions, -⟩ := valueBook_ok hbook
    exact ⟨_, except_bind_ok.mpr ⟨positions, hpositions, rfl⟩⟩
  refine ⟨book, held, hbook, hheld, ?_⟩
  dsimp only at h
  split_ifs at h with hnothing
  · cases h
    exact ⟨rfl, rfl, rfl, Or.inl ⟨hnothing, rfl, rfl⟩⟩
  obtain ⟨found, hfound, h⟩ := except_bind_ok.mp h
  simp only [driftEntries, except_bind_ok] at hfound
  obtain ⟨held', hheld', cash, hcash, entries, hentries, hfound⟩ := hfound
  obtain rfl : held = held' := Except.ok.inj (hheld.symm.trans hheld')
  obtain ⟨hnone, hsome⟩ := securityEntries_ok hentries
  cases entries with
  | none =>
    cases hfound
    cases h
    exact ⟨rfl, rfl, rfl, Or.inr (Or.inl ⟨hnothing, rfl, rfl, hnone.mp rfl⟩)⟩
  | some entries =>
    obtain ⟨cashEntry, hcashEntry, hpure⟩ := except_bind_ok.mp hfound
    cases hpure
    cases h
    obtain ⟨-, hsecurity, hcurrent, hweight, -⟩ := buildEntry_ok hcashEntry
    refine ⟨rfl, rfl, rfl, Or.inr (Or.inr ⟨hnothing, rfl, entries, cashEntry, rfl, hsome entries rfl,
      hsecurity, ?_, hweight, fun x hx hmiss => ?_⟩)⟩
    · rw [hcurrent, cashBalance_quanta hcash]
    · cases hnone.mpr ⟨x, hx, hmiss⟩

/-! ### An entry of a security -/

/-- The market value of some millionths of a share, in quanta. -/
def worth (price : Price) (units : ℤ) : ℤ :=
  roundHalfEven (((price.quanta * units : ℤ) : ℚ) / 10 ^ 8)

/-- **An entry of a security** is at the day's close, and sees what the ledger has of it. -/
theorem evaluate_entry {driftBandPct : ℚ} {tables : RebalanceTables} {customerId : Uuid}
    {asOfDate : Date} {evaluation : DriftEvaluation}
    (h : evaluate driftBandPct tables customerId asOfDate = .ok evaluation) {entry : DriftEntry}
    (hentry : entry ∈ evaluation.entries) {securityId : Uuid}
    (hsecurity : entry.securityId = some securityId) :
    ∃ close, latestConfirmed tables.db securityId asOfDate = some close ∧
      entry.price = some close.closePrice ∧ entry.currentMarketValue.quanta =
        worth close.closePrice (ledgerUnits tables.db customerId asOfDate securityId) := by
  obtain ⟨book, held, -, hheld, -, -, -, hcases⟩ := evaluate_cases h
  rcases hcases with ⟨-, -, hnone⟩ | ⟨-, -, hnone, -⟩ | ⟨-, -, entries, cash, hentries, hall, hcash, -⟩
  · rw [hnone] at hentry
    cases hentry
  · rw [hnone] at hentry
    cases hentry
  · rw [hentries, List.mem_append, List.mem_singleton] at hentry
    rcases hentry with hentry | rfl
    · obtain ⟨x, hx, hof⟩ := exists_of_forall₂ hall hentry
      have hid : securityId = x.1 := Option.some.inj (hsecurity.symm.trans hof.securityId)
      subst hid
      obtain ⟨close, hclose, hprice⟩ := hof.price
      refine ⟨close, hclose, hprice, ?_⟩
      rw [hof.currentValue, marketQuanta, hclose]
      dsimp only
      rw [notional, evaluated_units hheld hx, worth]
    · rw [hcash] at hsecurity
      cases hsecurity

/-! ### The sums -/

theorem nodup_listForModel (tables : RebalanceTables) (modelPortfolioId : Uuid) :
    ((listForModel tables modelPortfolioId).map TargetWeight.securityId).Nodup := by
  have hkeys : ((listForModel tables modelPortfolioId).map TargetWeight.key).Nodup :=
    tables.targetWeights.nodup.sublist (List.filter_sublist.map _)
  refine List.Nodup.of_map (fun securityId => (modelPortfolioId, securityId)) ?_
  rw [List.map_map]
  convert hkeys using 1
  refine List.map_congr_left fun target htarget => ?_
  have hmodel : target.modelPortfolioId = modelPortfolioId := by
    simpa using (List.mem_filter.mp htarget).2
  rw [← hmodel]
  rfl

theorem sum_evaluated {db : Database} {customerId : Uuid} {asOfDate : Date}
    {held : List (Uuid × Units)} (h : heldUnits db customerId asOfDate = .ok held)
    {targets : List TargetWeight} (hdistinct : (targets.map TargetWeight.securityId).Nodup) :
    ((evaluated targets held).map fun x => marketQuanta db asOfDate (x.1, x.2.1)).sum =
      (held.map (marketQuanta db asOfDate)).sum := by
  obtain ⟨hnodup, hheld⟩ := heldUnits_ok h
  -- a position by its security; nothing for a security that is not held
  set value : Uuid → ℤ := fun s => marketQuanta db asOfDate (s, unitsOf held s) with hvalue
  have hposition : ∀ position ∈ held, marketQuanta db asOfDate position = value position.1 := by
    rintro ⟨s, u⟩ hmem
    have hunits : u = unitsOf held s :=
      QuantizedDecimal.ext (((hheld s u).mp hmem).1.trans (quanta_unitsOf h s).symm)
    rw [hvalue, hunits]
  have hmiss : ∀ s, s ∉ held.map Prod.fst → value s = 0 := by
    intro s hs
    refine marketQuanta_zero (QuantizedDecimal.ext ?_)
    rw [quanta_unitsOf h s]
    by_contra hne
    exact hs (List.mem_map.mpr ⟨(s, unitsOf held s), (hheld s _).mpr ⟨quanta_unitsOf h s, hne⟩, rfl⟩)
  have hall : (held.map (marketQuanta db asOfDate)).sum = ((held.map Prod.fst).map value).sum := by
    rw [List.map_map]
    exact congrArg List.sum (List.map_congr_left hposition)
  have htargets : ((targets.map TargetWeight.securityId).map value).sum =
      (((held.map Prod.fst).filter (· ∈ targets.map TargetWeight.securityId)).map value).sum := by
    have hsplit := sum_filter_add_filter_not (· ∈ held.map Prod.fst) value
      (targets.map TargetWeight.securityId)
    have hzero : (((targets.map TargetWeight.securityId).filter
        (¬ · ∈ held.map Prod.fst)).map value).sum = 0 := by
      refine List.sum_eq_zero fun x hx => ?_
      obtain ⟨s, hs, rfl⟩ := List.mem_map.mp hx
      exact hmiss s (of_decide_eq_true (List.mem_filter.mp hs).2)
    have hperm : ((targets.map TargetWeight.securityId).filter (· ∈ held.map Prod.fst)).Perm
        ((held.map Prod.fst).filter (· ∈ targets.map TargetWeight.securityId)) := by
      refine (List.perm_ext_iff_of_nodup (hdistinct.filter _) (hnodup.filter _)).mpr fun s => ?_
      simp only [List.mem_filter, decide_eq_true_eq]
      exact and_comm
    rw [← (hperm.map value).sum_eq]
    omega
  have hdropped : (((held.filter fun position =>
        position.1 ∉ targets.map TargetWeight.securityId).map fun position =>
          (position.1, position.2, (0 : ℚ))).map fun x => marketQuanta db asOfDate (x.1, x.2.1)).sum =
      (((held.map Prod.fst).filter (¬ · ∈ targets.map TargetWeight.securityId)).map value).sum := by
    rw [List.filter_map, List.map_map, List.map_map]
    refine congrArg List.sum (List.map_congr_left fun position hmem => ?_)
    exact hposition position (List.mem_of_mem_filter hmem)
  have hsplit := sum_filter_add_filter_not (· ∈ targets.map TargetWeight.securityId) value
    (held.map Prod.fst)
  have htargeted : ((targets.map fun target =>
        (target.securityId, unitsOf held target.securityId, target.weightPct.value)).map
          fun x => marketQuanta db asOfDate (x.1, x.2.1)).sum =
      ((targets.map TargetWeight.securityId).map value).sum := by
    rw [List.map_map, List.map_map]
    rfl
  rw [evaluated, List.map_append, List.sum_append, htargeted, hdropped, htargets, hall]
  omega

/-- The weights of the targets, in ten-thousandths. -/
def weightQuanta (targets : List TargetWeight) : ℤ := (targets.map (·.weightPct.quanta)).sum

theorem abs_weightQuanta_le (targets : List TargetWeight) :
    |weightQuanta targets| ≤ 10 ^ 5 * targets.length := by
  have hfits : ∀ t ∈ targets, |t.weightPct.quanta| ≤ (fun _ => (10 : ℤ) ^ 5) t :=
    fun t _ => t.weightPct.fits.le
  have h := abs_sum_map_le hfits
  rw [List.map_const', List.sum_replicate, nsmul_eq_mul, mul_comm] at h
  exact h

/-- Ten-thousandths of at most 28 digits are kept by the context. -/
theorem context_tenThousandths {n : ℤ} (h : |n| < 10 ^ 28) :
    context ((n : ℚ) / 10 ^ 4) = (n : ℚ) / 10 ^ 4 :=
  roundSig_of_digits (b := 10) (by norm_num) (by exact_mod_cast h) 4

theorem foldl_accounted : ∀ {targets : List TargetWeight} {n : ℤ},
    |n| + 10 ^ 5 * targets.length < 10 ^ 28 →
      targets.foldl (fun accounted target => context (accounted + target.weightPct.value))
        ((n : ℚ) / 10 ^ 4) = ((n + weightQuanta targets : ℤ) : ℚ) / 10 ^ 4
  | [], n, _ => by simp [weightQuanta]
  | target :: targets, n, h => by
    have hfit := target.weightPct.fits
    have htriangle := abs_add_le n target.weightPct.quanta
    rw [List.length_cons] at h
    push_cast at h
    have hsum : (n : ℚ) / 10 ^ 4 + target.weightPct.value =
        ((n + target.weightPct.quanta : ℤ) : ℚ) / 10 ^ 4 := by
      unfold QuantizedDecimal.value
      push_cast
      ring
    have hnonneg : (0 : ℤ) ≤ targets.length := Int.natCast_nonneg _
    rw [List.foldl_cons, hsum, context_tenThousandths (by omega), foldl_accounted (by omega)]
    simp only [weightQuanta, List.map_cons, List.sum_cons, add_assoc]

theorem cashWeight_eq {targets : List TargetWeight} (hfew : targets.length < 10 ^ 22) :
    context (1 - accountedTargetPct targets) = 1 - (weightQuanta targets : ℚ) / 10 ^ 4 := by
  have hlength : (targets.length : ℤ) < 10 ^ 22 := by exact_mod_cast hfew
  have hbound := abs_weightQuanta_le targets
  have haccounted : accountedTargetPct targets = (weightQuanta targets : ℚ) / 10 ^ 4 := by
    have h := @foldl_accounted targets 0 (by rw [abs_zero]; omega)
    rw [zero_add, Int.cast_zero, zero_div] at h
    exact h
  have hrest : 1 - (weightQuanta targets : ℚ) / 10 ^ 4 =
      ((10 ^ 4 - weightQuanta targets : ℤ) : ℚ) / 10 ^ 4 := by
    push_cast
    ring
  have htriangle := abs_sub (10 ^ 4) (weightQuanta targets)
  rw [haccounted, hrest, context_tenThousandths]
  rw [abs_of_pos (by norm_num : (0 : ℤ) < 10 ^ 4)] at htriangle
  omega

theorem sum_weights (targets : List TargetWeight) (held : List (Uuid × Units)) :
    ((evaluated targets held).map fun x => x.2.2).sum = (weightQuanta targets : ℚ) / 10 ^ 4 := by
  have htargets : (targets.map fun target => target.weightPct.value).sum =
      (weightQuanta targets : ℚ) / 10 ^ 4 := by
    unfold weightQuanta
    induction targets with
    | nil => simp
    | cons target targets ih =>
      rw [List.map_cons, List.sum_cons, ih, List.map_cons, List.sum_cons, QuantizedDecimal.value]
      push_cast
      ring
  rw [evaluated, List.map_append, List.sum_append, List.map_map, List.map_map]
  have hdropped : ((held.filter fun position =>
      position.1 ∉ targets.map TargetWeight.securityId).map
        ((fun x : Uuid × Units × ℚ => x.2.2) ∘ fun position => (position.1, position.2, 0))).sum = 0 := by
    refine List.sum_eq_zero fun x hx => ?_
    obtain ⟨position, -, rfl⟩ := List.mem_map.mp hx
    rfl
  rw [hdropped, add_zero]
  exact htargets

/-! ### The partition -/

/-- The entries share out the book: every targeted or held security once, the cash once, the whole
value and the whole weight (28 digits are enough for the weights of 10 ^ 22 targets). -/
structure Partitions (tables : RebalanceTables) (evaluation : DriftEvaluation) : Prop where
  once : (evaluation.entries.filterMap DriftEntry.securityId).Nodup
  listed : ∀ s, s ∈ evaluation.entries.filterMap DriftEntry.securityId ↔
    Targeted tables evaluation.modelPortfolioId s ∨
      ledgerUnits tables.db evaluation.customerId evaluation.asOfDate s ≠ 0
  cash : (evaluation.entries.filter (·.securityId = none)).length = 1
  values : (evaluation.entries.map (·.currentMarketValue.quanta)).sum = evaluation.totalValue.quanta
  weights : (listForModel tables evaluation.modelPortfolioId).length < 10 ^ 22 →
    (evaluation.entries.map DriftEntry.targetWeightPct).sum = 1

theorem securityIds_eq {db : Database} {totalValue : Money} {asOfDate : Date} :
    ∀ {securities : List (Uuid × Units × ℚ)} {entries : List DriftEntry},
      List.Forall₂ (EntryOf db totalValue asOfDate) securities entries →
        entries.filterMap DriftEntry.securityId = securities.map Prod.fst ∧
        entries.filter (·.securityId = none) = [] ∧
        (entries.map (·.currentMarketValue.quanta)).sum =
          (securities.map fun x => marketQuanta db asOfDate (x.1, x.2.1)).sum ∧
        (entries.map DriftEntry.targetWeightPct).sum = (securities.map fun x => x.2.2).sum
  | _, _, .nil => by simp
  | _, _, .cons hentry hrest => by
    obtain ⟨hids, hcash, hvalues, hweights⟩ := securityIds_eq hrest
    refine ⟨?_, ?_, ?_, ?_⟩
    · rw [List.filterMap_cons, hentry.securityId, hids, List.map_cons]
    · rw [List.filter_cons_of_neg (by simp [hentry.securityId]), hcash]
    · rw [List.map_cons, List.sum_cons, hentry.currentValue, hvalues, List.map_cons, List.sum_cons]
    · rw [List.map_cons, List.sum_cons, hentry.targetWeight, hweights, List.map_cons, List.sum_cons]

section Evaluation
variable {driftBandPct : ℚ} {tables : RebalanceTables} {customerId : Uuid} {asOfDate : Date}
  {evaluation : DriftEvaluation}

/-- The entries of a complete evaluation of something partition the book. -/
theorem partitions_of_complete
    (h : evaluate driftBandPct tables customerId asOfDate = .ok evaluation)
    (hcomplete : evaluation.isPartial = false) (hvalue : evaluation.totalValue ≠ 0) :
    Partitions tables evaluation := by
  obtain ⟨book, held, hbook, hheld, hcustomer, hdate, htotal, hcases⟩ := evaluate_cases h
  obtain ⟨positions, hpositions, hbookValue, -⟩ := valueBook_ok hbook
  rcases hcases with ⟨hnothing, hcompleteness, -⟩ | ⟨-, hcompleteness, -⟩ |
    ⟨-, -, entries, cash, hentries, hall, hid, hcash, hweight, -⟩
  · rw [hcomplete] at hcompleteness
    rw [htotal] at hvalue
    rw [← hcompleteness] at hnothing
    simp [hvalue] at hnothing
  · rw [hcomplete] at hcompleteness
    cases hcompleteness
  · obtain ⟨hids, hnone, hvalues, hweights⟩ := securityIds_eq hall
    have hdistinct := nodup_listForModel tables evaluation.modelPortfolioId
    have hlisted : evaluation.entries.filterMap DriftEntry.securityId =
        (evaluated (listForModel tables evaluation.modelPortfolioId) held).map Prod.fst := by
      rw [hentries, List.filterMap_append, hids, List.filterMap_cons, hid]
      simp
    constructor
    · rw [hlisted]
      exact nodup_evaluated hheld hdistinct
    · intro s
      rw [hlisted, mem_evaluated hheld, hcustomer, hdate]
      exact Iff.rfl
    · rw [hentries, List.filter_append, hnone]
      simp [hid]
    · have hheldValues : (held.map (marketQuanta tables.db asOfDate)).sum =
          (positions.map (marketQuanta tables.db asOfDate)).sum := by
        obtain ⟨positions', hpositions', hpure⟩ := except_bind_ok.mp hheld
        obtain rfl : positions = positions' := Except.ok.inj (hpositions.symm.trans hpositions')
        cases hpure
        exact sum_marketQuanta_held
      rw [hentries, List.map_append, List.sum_append, hvalues, sum_evaluated hheld hdistinct,
        hheldValues, htotal, hbookValue]
      simp only [List.map_cons, List.map_nil, List.sum_cons, List.sum_nil, add_zero, hcash]
      omega
    · intro hfew
      rw [hentries, List.map_append, List.sum_append, hweights, sum_weights]
      simp only [List.map_cons, List.map_nil, List.sum_cons, List.sum_nil, add_zero, hweight,
        cashWeight_eq hfew]
      ring

/-- **A drift evaluation partitions the book**, and lists nothing when a position has no close, or a
target has none and there is something to evaluate. -/
theorem evaluate_partitions
    (h : evaluate driftBandPct tables customerId asOfDate = .ok evaluation) :
    (evaluation.isPartial = false → evaluation.totalValue ≠ 0 → Partitions tables evaluation) ∧
    ((∃ s, ledgerUnits tables.db customerId asOfDate s ≠ 0 ∧
        latestConfirmed tables.db s asOfDate = none) →
      evaluation.isPartial = true ∧ evaluation.entries = []) ∧
    (evaluation.totalValue ≠ 0 → (∃ s, Targeted tables evaluation.modelPortfolioId s ∧
        latestConfirmed tables.db s asOfDate = none) →
      evaluation.isPartial = true ∧ evaluation.entries = []) := by
  refine ⟨partitions_of_complete h, ?_⟩
  obtain ⟨book, held, hbook, hheld, -, -, htotal, hcases⟩ := evaluate_cases h
  obtain ⟨-, -, -, hincomplete⟩ := valueBook_ok hbook
  have hmiss : ∀ s, (Targeted tables evaluation.modelPortfolioId s ∨
      ledgerUnits tables.db customerId asOfDate s ≠ 0) → ∃ x ∈ evaluated (listForModel tables
        evaluation.modelPortfolioId) held, x.1 = s := by
    intro s hs
    obtain ⟨x, hx, rfl⟩ := List.mem_map.mp ((mem_evaluated hheld).mpr hs)
    exact ⟨x, hx, rfl⟩
  rw [htotal]
  rcases hcases with ⟨hnothing, hcompleteness, hentries⟩ | ⟨-, hcompleteness, hentries, -⟩ |
    ⟨-, -, -, -, -, -, -, -, -, hcloses⟩
  · refine ⟨fun hheldMiss => ?_, fun hne _ => ?_⟩
    · exact ⟨hcompleteness.trans (hincomplete.mpr hheldMiss), hentries⟩
    · exact ⟨hcompleteness.trans (hnothing.resolve_right hne), hentries⟩
  · exact ⟨fun _ => ⟨hcompleteness, hentries⟩, fun _ _ => ⟨hcompleteness, hentries⟩⟩
  · refine ⟨fun hheldMiss => ?_, fun _ htargetMiss => ?_⟩
    · obtain ⟨s, hne, hclose⟩ := hheldMiss
      obtain ⟨x, hx, rfl⟩ := hmiss s (Or.inr hne)
      exact absurd hclose (hcloses x hx)
    · obtain ⟨s, htargeted, hclose⟩ := htargetMiss
      obtain ⟨x, hx, rfl⟩ := hmiss s (Or.inl htargeted)
      exact absurd hclose (hcloses x hx)

end Evaluation

/-! ### A book of cash and one position -/

/-- The tables of a book, with a model of one target and the closes of a day. -/
def modelOf (db : Database) (target : TargetWeight) (closes : List DailyClose) : RebalanceTables where
  db := { db with dailyCloses := closes }
  customerModelAssignments := .singleton ⟨1, 1⟩
  targetWeights := .singleton target
  submissions := ∅

/-- A model of three fifths in security 8. -/
def threeFifths : TargetWeight := ⟨1, 8, ⟨6000, by decide⟩⟩

/-- Ten shares of security 7 and 1000 in cash, for that model. -/
def investedTables : RebalanceTables := modelOf investedAccount threeFifths
  [⟨7, 6, dollarsPerShare 100, .confirmed, 3⟩, ⟨8, 6, dollarsPerShare 50, .confirmed, 3⟩]

theorem evaluate_partitions_invested : ∃ evaluation,
    evaluate (5 / 100) investedTables 1 6 = .ok evaluation ∧ Partitions investedTables evaluation := by
  have hrun : (evaluate (5 / 100) investedTables 1 6).isOk := by decide +kernel
  obtain ⟨evaluation, h⟩ := exists_ok_of_isOk hrun
  have hcomplete : ∀ e ∈ (evaluate (5 / 100) investedTables 1 6).toOption,
      e.isPartial = false ∧ e.totalValue ≠ 0 := by
    decide +kernel
  obtain ⟨hincomplete, hvalue⟩ := hcomplete evaluation (by rw [h]; rfl)
  exact ⟨evaluation, h, (evaluate_partitions h).1 hincomplete hvalue⟩

/-- **A book without value** is complete and has no entries, though its model's one target has no
close. -/
theorem empty_book_not_partial : ¬ ∀ (driftBandPct : ℚ) (tables : RebalanceTables) (customerId : Uuid)
    (asOfDate : Date) (evaluation : DriftEvaluation),
      evaluate driftBandPct tables customerId asOfDate = .ok evaluation →
      (∃ s, (Targeted tables evaluation.modelPortfolioId s ∨
        ledgerUnits tables.db customerId asOfDate s ≠ 0) ∧
          latestConfirmed tables.db s asOfDate = none) →
      evaluation.isPartial = true ∧ evaluation.entries = [] := by
  intro h
  have hrun : evaluate (5 / 100) (modelOf (openedAccount 1) ⟨1, 8, ⟨6000, by decide⟩⟩ []) 1 6 =
      .ok ⟨1, 1, 6, false, 0, []⟩ := by
    decide +kernel
  obtain ⟨hincomplete, -⟩ := h _ _ _ _ _ hrun
    ⟨8, Or.inl ⟨⟨1, 8, ⟨6000, by decide⟩⟩, by decide, rfl⟩, rfl⟩
  cases hincomplete

end Trueup.Rebalance
