import Trueup.Lib.DeferredSums
import Trueup.Rebalance.Partition

/-! # The weights of a model

`models/rebalance/target_weight.py`: the trigger `check_target_weight_sum`, deferred to the commit,
under any statements of any number of sessions.

* `weights_stay_one`: the committed weights of a model go on to add up to one, if no update moves a
  weight to another model.
* `moved_weight_unchecked`: after one that does, the model it was moved from is not checked.
* `filled_twice`: two sessions that fill a model without weights at once both pass the check.
* `cash_has_no_target`: so a drift evaluation targets the securities with the whole book, and the cash
  with nothing. -/

namespace Trueup.Rebalance

open Trueup.Core Trueup.Models Trueup.Lib Trueup.Lib.DeferredSums Trueup.Lib.Transaction

/-! ### The trigger -/

/-- `mp_id := COALESCE(NEW.model_portfolio_id, OLD.model_portfolio_id)`. -/
def checkedModel : Change TargetWeight → Uuid
  | .inserted new => new.modelPortfolioId
  | .updated _ new => new.modelPortfolioId
  | .deleted old => old.modelPortfolioId

/-- The ten-thousandths that a weight counts for a model. -/
def weightOf (modelPortfolioId : Uuid) (target : TargetWeight) : ℤ :=
  if target.modelPortfolioId = modelPortfolioId then target.weightPct.quanta else 0

/-- `target_weight_sum`. -/
def targetWeightSum : Trigger TargetWeight Uuid := ⟨checkedModel, weightOf, 10000⟩

/-- The weights of a model, in ten-thousandths. -/
def modelWeight (targetWeights : Table TargetWeight.key) (modelPortfolioId : Uuid) : ℤ :=
  targetWeights.total (weightOf modelPortfolioId)

abbrev WeightAction := Action (Uuid × Uuid) TargetWeight

/-- The committed weights, after some statements of the sessions `ι`. -/
def committedWeights {ι : Type} [DecidableEq ι] (targetWeights : Table TargetWeight.key)
    (steps : List (ι × WeightAction)) : Table TargetWeight.key :=
  (Processes.run (program targetWeightSum) steps (start targetWeights)).shared.rows

/-- No weight is moved to another model. -/
def KeepsModels : WeightAction → Prop
  | .update _ set => ∀ old, (set old).modelPortfolioId = old.modelPortfolioId
  | _ => True

theorem isCovered_of_keepsModels {a : WeightAction} (h : KeepsModels a) (modelPortfolioId : Uuid) :
    a.IsCovered targetWeightSum modelPortfolioId := by
  have hother : ∀ target : TargetWeight, target.modelPortfolioId ≠ modelPortfolioId →
      targetWeightSum.amount modelPortfolioId target = 0 := fun target hne => if_neg hne
  cases a with
  | insert row =>
    by_cases hmodel : row.modelPortfolioId = modelPortfolioId
    · exact Or.inr hmodel
    · exact Or.inl (hother row hmodel)
  | delete k =>
    intro old
    by_cases hmodel : old.modelPortfolioId = modelPortfolioId
    · exact Or.inr hmodel
    · exact Or.inl (neg_eq_zero.mpr (hother old hmodel))
  | update k set =>
    intro old
    have hsame := h old
    by_cases hmodel : old.modelPortfolioId = modelPortfolioId
    · exact Or.inr (hsame.trans hmodel)
    · have hnew := hother (set old) (by rwa [hsame])
      have hold := hother old hmodel
      have heffect : (Change.updated old (set old)).effect (targetWeightSum.amount modelPortfolioId) =
          0 := by
        rw [Change.effect, hnew, hold, sub_zero]
      exact Or.inl heffect
  | begin | commit | check | finish | rollback => trivial

/-- **The weights of a model stay one.** However the statements of any number of sessions interleave,
and whichever of them crash, if none moves a weight to another model: the committed weights of a model
that add up to one go on to do so, and those that add up to a whole number, such as none at all, to a
whole number. -/
theorem weights_stay_one {ι : Type} [DecidableEq ι] (targetWeights : Table TargetWeight.key)
    (steps : List (ι × WeightAction)) (hsteps : ∀ step ∈ steps, KeepsModels step.2)
    (modelPortfolioId : Uuid) :
    (modelWeight targetWeights modelPortfolioId = 10000 →
      modelWeight (committedWeights targetWeights steps) modelPortfolioId = 10000) ∧
    (10000 ∣ modelWeight targetWeights modelPortfolioId →
      10000 ∣ modelWeight (committedWeights targetWeights steps) modelPortfolioId) := by
  have hstays := fun d => sums_stay targetWeightSum d modelPortfolioId targetWeights steps
    fun step hstep => isCovered_of_keepsModels (hsteps step hstep) modelPortfolioId
  constructor
  · intro hone
    have hzero := hstays 0 (by rw [zero_dvd_iff]; exact sub_eq_zero.mpr hone)
    exact sub_eq_zero.mp (zero_dvd_iff.mp hzero)
  · intro hwhole
    have hdvd := hstays 10000 (dvd_sub hwhole (dvd_refl _))
    exact (dvd_sub_left (dvd_refl _)).mp hdvd

/-! ### Runs of two sessions -/

theorem fits_tenThousandths (n : Fin 10001) : |((n : ℕ) : ℤ)| < 10 ^ 5 := by
  have hlt := n.isLt
  rw [abs_of_nonneg (by omega)]
  omega

/-- A weight of up to one. -/
def weight (modelPortfolioId securityId : Uuid) (n : Fin 10001) : TargetWeight :=
  ⟨modelPortfolioId, securityId, ⟨(n : ℕ), fits_tenThousandths n⟩⟩

/-- `SET weight_pct`. -/
def setWeightPct (n : Fin 10001) (target : TargetWeight) : TargetWeight :=
  { target with weightPct := ⟨(n : ℕ), fits_tenThousandths n⟩ }

/-- Two models, of security 8 alone. -/
def twoModels : Table TargetWeight.key := ⟨[weight 1 8 10000, weight 2 8 10000], by decide⟩

/-- A session gives the first model security 7 as well, while another one would delete its weights. -/
def rebalanced : List (Bool × WeightAction) := [
  (false, .begin), (true, .begin), (false, .update (1, 8) (setWeightPct 6000)),
  (true, .delete (1, 8)), (false, .insert (weight 1 7 4000)), (false, .commit), (false, .check),
  (false, .check), (false, .finish), (true, .delete (1, 8)), (true, .commit), (true, .check),
  (true, .finish)]

theorem keepsModels_rebalanced : ∀ step ∈ rebalanced, KeepsModels step.2 := by
  simp [rebalanced, KeepsModels, setWeightPct]

theorem weights_stay_one_rebalanced :
    modelWeight (committedWeights twoModels rebalanced) 1 = 10000 ∧
      (committedWeights twoModels rebalanced).rows =
        [weight 1 8 6000, weight 2 8 10000, weight 1 7 4000] :=
  ⟨(weights_stay_one twoModels rebalanced keepsModels_rebalanced 1).1 (by decide), by decide⟩

/-- **A weight that is moved is checked for its new model only**: the old one has none left. -/
theorem moved_weight_unchecked :
    modelWeight twoModels 1 = 10000 ∧ modelWeight (committedWeights twoModels [
      (false, .begin), (false, .delete (2, 8)),
      (false, .update (1, 8) fun target => { target with modelPortfolioId := 2 }),
      (false, .commit), (false, .check), (false, .check), (false, .finish)]) 1 = 0 := by
  decide

/-- **Two sessions that fill a model at once** do not see each other's weights, which then add up to
two. -/
theorem filled_twice : modelWeight (committedWeights ∅ [
    (false, .begin), (false, .insert (weight 1 7 10000)), (false, .commit), (true, .begin),
    (true, .insert (weight 1 8 10000)), (true, .commit), (false, .check), (true, .check),
    (false, .finish), (true, .finish)]) 1 = 20000 := by
  decide

/-! ### What is targeted -/

theorem weightQuanta_listForModel (tables : RebalanceTables) (modelPortfolioId : Uuid) :
    weightQuanta (listForModel tables modelPortfolioId) =
      modelWeight tables.targetWeights modelPortfolioId := by
  unfold weightQuanta listForModel modelWeight Table.total weightOf
  induction tables.targetWeights.rows with
  | nil => rfl
  | cons target targets ih =>
    by_cases hmodel : target.modelPortfolioId = modelPortfolioId
    · rw [List.filter_cons_of_pos (by simpa using hmodel), List.map_cons, List.map_cons, List.sum_cons,
        List.sum_cons, ih, if_pos hmodel]
    · rw [List.filter_cons_of_neg (by simpa using hmodel), List.map_cons, List.sum_cons, ih,
        if_neg hmodel, zero_add]

/-- **The cash has no target.** In every state that such runs reach, a drift evaluation with a model
whose weights add up to one at the start targets the securities with the whole book: the weights of
their entries add up to one, and that of the cash is zero. -/
theorem cash_has_no_target {ι : Type} [DecidableEq ι] {driftBandPct : ℚ} {tables : RebalanceTables}
    {customerId : Uuid} {asOfDate : Date} {evaluation : DriftEvaluation}
    (targetWeights : Table TargetWeight.key) (steps : List (ι × WeightAction))
    (hsteps : ∀ step ∈ steps, KeepsModels step.2)
    (htables : tables.targetWeights = committedWeights targetWeights steps)
    (hevaluate : evaluate driftBandPct tables customerId asOfDate = .ok evaluation)
    (hone : modelWeight targetWeights evaluation.modelPortfolioId = 10000)
    (hfew : (listForModel tables evaluation.modelPortfolioId).length < 10 ^ 22)
    (hentries : evaluation.entries ≠ []) :
    ((evaluation.entries.filter (·.securityId ≠ none)).map DriftEntry.targetWeightPct).sum = 1 ∧
      ∀ entry ∈ evaluation.entries, entry.securityId = none → entry.targetWeightPct = 0 := by
  have hweight : weightQuanta (listForModel tables evaluation.modelPortfolioId) = 10000 := by
    rw [weightQuanta_listForModel, htables]
    exact (weights_stay_one targetWeights steps hsteps evaluation.modelPortfolioId).1 hone
  obtain ⟨book, held, -, -, -, -, -, hcases⟩ := evaluate_cases hevaluate
  rcases hcases with ⟨-, -, hnone⟩ | ⟨-, -, hnone, -⟩ |
    ⟨-, -, entries, cash, hall, hof, hcash, -, htarget, -⟩
  · exact absurd hnone hentries
  · exact absurd hnone hentries
  · obtain ⟨hids, hnone, -, hweights⟩ := securityIds_eq hof
    have hsecurities : ∀ entry ∈ entries, entry.securityId ≠ none := by
      intro entry hmem hno
      have hmem' : entry ∈ entries.filter (·.securityId = none) :=
        List.mem_filter.mpr ⟨hmem, decide_eq_true hno⟩
      rw [hnone] at hmem'
      exact absurd hmem' List.not_mem_nil
    have hkept : (entries ++ [cash]).filter (·.securityId ≠ none) = entries := by
      rw [List.filter_append, List.filter_cons_of_neg (by simp [hcash]), List.filter_nil,
        List.append_nil]
      exact List.filter_eq_self.mpr fun entry hmem => decide_eq_true (hsecurities entry hmem)
    rw [hall, hkept, hweights, sum_weights, hweight]
    refine ⟨by norm_num, fun entry hmem hno => ?_⟩
    rcases List.mem_append.mp hmem with hmem | hmem
    · exact absurd hno (hsecurities entry hmem)
    · obtain rfl := List.mem_singleton.mp hmem
      rw [htarget, cashWeight_eq hfew, hweight]
      norm_num

/-- Ten shares of security 7 and 1000 in cash, for the first model after `rebalanced`. -/
def rebalancedTables : RebalanceTables :=
  { investedTables with targetWeights := committedWeights twoModels rebalanced }

theorem cash_has_no_target_rebalanced : ∃ evaluation,
    evaluate (5 / 100) rebalancedTables 1 6 = .ok evaluation ∧ evaluation.entries.length = 3 ∧
      ∀ entry ∈ evaluation.entries, entry.securityId = none → entry.targetWeightPct = 0 := by
  have hrun : (evaluate (5 / 100) rebalancedTables 1 6).isOk := by decide +kernel
  obtain ⟨evaluation, h⟩ := exists_ok_of_isOk hrun
  have hfound : ∀ e ∈ (evaluate (5 / 100) rebalancedTables 1 6).toOption,
      e.modelPortfolioId = 1 ∧ e.entries.length = 3 := by
    decide +kernel
  obtain ⟨hmodel, hlength⟩ := hfound evaluation (by rw [h]; rfl)
  have hfew : (listForModel rebalancedTables 1).length < 10 ^ 22 := by decide
  refine ⟨evaluation, h, hlength, (cash_has_no_target twoModels rebalanced keepsModels_rebalanced rfl h
    (by rw [hmodel]; decide) (by rw [hmodel]; exact hfew) fun hnil => ?_).2⟩
  rw [hnil] at hlength
  cases hlength

end Trueup.Rebalance
