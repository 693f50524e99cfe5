import Trueup.Fees.ChargeCalls

/-! # How many attempts dunning makes

A provider that declines every call for a charge, in `services/fees/dunning_service.py`: the first
decline that is recorded starts the dunning of the charge, and `record_retry_failure` counts the
others and gives up at the last one.

* `Declining.next`: one step keeps the count, unless it starts a dunning of a single attempt.
* `attempts_exact_iff`: over every run, the count comes out right exactly when more than one attempt
  is allowed or no decline is recorded. -/

namespace Trueup.Fees.Charging

open Trueup.Core Trueup.Models Trueup.Lib Trueup.Lib.Transaction

/-- A decline has been recorded. -/
def Event.isDecline : Event → Bool
  | .recorded .failure => true
  | _ => false

/-- How many declines have been recorded. -/
def declines (trace : List Event) : ℕ := trace.countP Event.isDecline

@[simp] theorem declines_append_presented (trace : List Event) (key : Uuid) (answer : Answer) :
    declines (trace ++ [.presented key answer]) = declines trace := by
  simp [declines, Event.isDecline]

@[simp] theorem declines_append_failure (trace : List Event) :
    declines (trace ++ [.recorded .failure]) = declines trace + 1 := by
  simp [declines, Event.isDecline]

@[simp] theorem declines_append_success (trace : List Event) (stripeChargeId : String) :
    declines (trace ++ [.recorded (.success stripeChargeId)]) = declines trace := by
  simp [declines, Event.isDecline]

/-- Exactly `maxAttempts` attempts, in a state: the charge is in dunning and its dunning exhausted
from the last of them on, there is no further attempt, and the provider is not called then. -/
structure AttemptsExact (maxAttempts : ℕ) (feeChargeId : Uuid) (w : Calls) : Prop where
  dunning : (w.db.feeCharges.find feeChargeId).map (·.status) = some .dunning ↔
    maxAttempts ≤ declines w.trace
  exhausted : (w.db.dunningStates.find feeChargeId).map (·.status) = some .exhausted ↔
    maxAttempts ≤ declines w.trace
  recorded : declines w.trace ≤ maxAttempts
  attempts : ∀ d, w.db.dunningStates.find feeChargeId = some d → d.attemptNumber ≤ maxAttempts
  calls : ∀ before key answer after, w.trace = before ++ .presented key answer :: after →
    declines before < maxAttempts

/-- An attempt that is recorded when it is due puts the next one off. -/
def PostponesRetry (feeChargeId : Uuid) (step : CallStep feeChargeId) (w w' : Calls) : Prop :=
  ∀ env i d d', step = .apply env i → w.db.dunningStates.find feeChargeId = some d →
    w'.db.dunningStates.find feeChargeId = some d' → d.attemptNumber < d'.attemptNumber →
    d'.status = .retrying → d.nextRetryAt.instant ≤ (env.now .nextRetryAt).instant →
    d.nextRetryAt.instant < d'.nextRetryAt.instant

/-- A step with a provider that declines. -/
abbrev DecliningStep (feeChargeId : Uuid) : Type :=
  {step : CallStep feeChargeId // ∀ answer, step = .present answer → answer = .declined}

/-- What it does. -/
def decliningBody {feeChargeId : Uuid} (maxAttempts : ℕ) (step : DecliningStep feeChargeId) :
    Transaction.Tx Error Calls Unit :=
  step.1.perform maxAttempts

/-- The rows of a charge after a number of declines. -/
inductive Standing (maxAttempts : ℕ) : ℕ → Option FeeCharge × Option DunningState → Prop
  | untried (charge : FeeCharge) (hstatus : charge.status = .pending) :
      Standing maxAttempts 0 (some charge, none)
  | retrying {n : ℕ} (charge : FeeCharge) (d : DunningState) (hpos : 0 < n) (hmore : n < maxAttempts)
      (hstatus : charge.status = .failed) (hattempt : d.attemptNumber = n)
      (hmax : d.maxAttempts = maxAttempts) (hretrying : d.status = .retrying) :
      Standing maxAttempts n (some charge, some d)
  | exhausted (charge : FeeCharge) (d : DunningState) (hstatus : charge.status = .dunning)
      (hattempt : d.attemptNumber = maxAttempts) (hexhausted : d.status = .exhausted) :
      Standing maxAttempts maxAttempts (some charge, some d)

/-- The invariant of the runs that count right. -/
structure Declining (maxAttempts : ℕ) (feeChargeId : Uuid) (w : Calls) : Prop where
  standing : Standing maxAttempts (declines w.trace) (chargeRows w.db feeChargeId)
  calls : ∀ before key answer after, w.trace = before ++ .presented key answer :: after →
    declines before < maxAttempts
  waiting : ∀ answer ∈ w.waiting, answer = .declined

theorem computeBackoff_pos (attemptNumber : ℕ) : 0 < computeBackoff attemptNumber := by
  unfold computeBackoff
  positivity

section Standing
variable {maxAttempts n : ℕ} {charge : FeeCharge} {dunning : Option DunningState}

theorem Standing.lt_of_chargeable (h : Standing maxAttempts n (some charge, dunning))
    (hmax : 1 ≤ maxAttempts) (hchargeable : isChargeable charge = true) : n < maxAttempts := by
  cases h with
  | untried _ hstatus => omega
  | retrying _ d hpos hmore hstatus => exact hmore
  | exhausted _ d hstatus => simp [isChargeable, hstatus] at hchargeable

/-- **One more decline**, of a charge that is retried or may be. -/
theorem Standing.failed (env : Env) (h : Standing maxAttempts n (some charge, dunning))
    (hmax : 2 ≤ maxAttempts) (hopen : isClosed charge = false) :
    Standing maxAttempts (n + 1) (some (failedRows env maxAttempts charge dunning).1,
      some (failedRows env maxAttempts charge dunning).2) := by
  cases h with
  | untried _ hstatus => exact .retrying _ _ (by omega) (by omega) rfl rfl rfl rfl
  | retrying _ d hpos hmore hstatus hattempt hdmax hretrying =>
    by_cases hlast : d.maxAttempts ≤ d.attemptNumber + 1
    · have hn : n + 1 = maxAttempts := by omega
      simp only [failedRows, if_pos hlast, hn]
      exact .exhausted _ _ rfl (by simp only [hattempt, hn]) rfl
    · simp only [failedRows, if_neg hlast]
      exact .retrying _ _ (by omega) (by omega) hstatus (by simp only [hattempt]) hdmax hretrying
  | exhausted _ d hstatus => simp [isClosed, hstatus] at hopen

end Standing

section Attempts
variable {maxAttempts : ℕ} {feeChargeId : Uuid} {w : Calls}

theorem Declining.exact (h : Declining maxAttempts feeChargeId w) (hmax : 1 ≤ maxAttempts) :
    AttemptsExact maxAttempts feeChargeId w := by
  obtain ⟨hstanding, hcalls, -⟩ := h
  generalize hn : declines w.trace = n at hstanding
  generalize hrows : chargeRows w.db feeChargeId = rows at hstanding
  have hcharge : w.db.feeCharges.find feeChargeId = rows.1 := by rw [← hrows]; rfl
  have hdunning : w.db.dunningStates.find feeChargeId = rows.2 := by rw [← hrows]; rfl
  refine ⟨?_, ?_, ?_, fun d hd => ?_, hcalls⟩
  · rw [hcharge, hn]
    cases hstanding with
    | untried charge hstatus => simp [hstatus]; omega
    | retrying charge d hpos hmore hstatus => simp [hstatus, hmore]
    | exhausted charge d hstatus => simp [hstatus]
  · rw [hdunning, hn]
    cases hstanding with
    | untried charge hstatus => simp; omega
    | retrying charge d hpos hmore hstatus hattempt hdmax hretrying => simp [hretrying, hmore]
    | exhausted charge d hstatus hattempt hexhausted => simp [hexhausted]
  · rw [hn]
    cases hstanding <;> omega
  · rw [hdunning] at hd
    cases hstanding with
    | untried charge hstatus => cases hd
    | retrying charge d hpos hmore hstatus hattempt =>
      cases hd
      omega
    | exhausted charge d hstatus hattempt =>
      cases hd
      omega

/-- **What a step does to the count**: it keeps it, unless the one attempt that is allowed is
recorded as a first one. -/
theorem Declining.next (h : Declining maxAttempts feeChargeId w) (hmax : 1 ≤ maxAttempts)
    (step : DecliningStep feeChargeId)
    (hstep : 2 ≤ maxAttempts ∨ declines (step.1.next maxAttempts w).trace = declines w.trace) :
    Declining maxAttempts feeChargeId (step.1.next maxAttempts w) := by
  obtain ⟨hstanding, hcalls, hwaiting⟩ := h
  have hhappened := next_happened maxAttempts step.1 w
  obtain ⟨step, hdeclined⟩ := step
  dsimp only at hhappened hstep ⊢
  generalize step.next maxAttempts w = w' at hhappened hstep
  cases hhappened with
  | nothing hrows hsub htrace =>
    exact ⟨by rw [htrace, hrows]; exact hstanding, by rw [htrace]; exact hcalls,
      fun answer hmem => hwaiting answer (hsub hmem)⟩
  | presented answer charge hfind hchargeable hdb hwaits htrace =>
    refine ⟨?_, fun before key answer' after hsplit => ?_, fun answer' hmem => ?_⟩
    · rw [htrace, hdb, declines_append_presented]
      exact hstanding
    · rw [htrace] at hsplit
      rcases presented_last hsplit with rfl | ⟨mid, hmid⟩
      · rw [chargeRows, hfind] at hstanding
        exact hstanding.lt_of_chargeable hmax hchargeable
      · exact hcalls before key answer' mid hmid
    · rw [hwaits] at hmem
      rcases List.mem_cons.mp hmem with rfl | hmem
      · exact hdeclined _ rfl
      · exact hwaiting answer' hmem
  | declined env i charge hanswer hfind hopen hrows hsub htrace =>
    have hmany : 2 ≤ maxAttempts := by
      rcases hstep with hmany | hsame
      · exact hmany
      · rw [htrace, declines_append_failure] at hsame
        omega
    refine ⟨?_, fun before key answer' after hsplit => ?_, fun answer' hmem =>
      hwaiting answer' (hsub hmem)⟩
    · rw [chargeRows, hfind] at hstanding
      rw [htrace, declines_append_failure, hrows]
      exact hstanding.failed env hmany hopen
    · rw [htrace] at hsplit
      obtain ⟨mid, hmid⟩ := presented_before hsplit
      exact hcalls before key answer' mid hmid
  | succeeded env i charge handle hanswer hrows hsub htrace =>
    have hnever := hwaiting _ hanswer
    cases hnever

/-- **A dunning of one attempt** goes on after it. -/
theorem Declining.kept_of_exact (h : Declining maxAttempts feeChargeId w) (hone : maxAttempts = 1)
    (step : DecliningStep feeChargeId)
    (hexact : AttemptsExact maxAttempts feeChargeId (step.1.next maxAttempts w)) :
    declines (step.1.next maxAttempts w).trace = declines w.trace := by
  obtain ⟨step, hdeclined⟩ := step
  have hhappened := next_happened maxAttempts step w
  dsimp only at hexact ⊢
  generalize step.next maxAttempts w = w' at hhappened hexact ⊢
  cases hhappened with
  | nothing hrows hsub htrace => rw [htrace]
  | presented answer charge hfind hchargeable hdb hwaits htrace =>
    rw [htrace, declines_append_presented]
  | declined env i charge hanswer hfind hopen hrows hsub htrace =>
    have hstanding := h.standing
    rw [chargeRows, hfind] at hstanding
    have hfirst : w.db.dunningStates.find feeChargeId = none := by
      generalize hdunning : w.db.dunningStates.find feeChargeId = dunning at hstanding
      generalize declines w.trace = n at hstanding
      cases hstanding with
      | untried _ hstatus => rfl
      | retrying _ d hpos hmore => omega
      | exhausted _ d hstatus => simp [isClosed, hstatus] at hopen
    have hfailed : (w'.db.feeCharges.find feeChargeId).map (·.status) = some .failed := by
      have hcharge := congrArg Prod.fst hrows
      rw [hfirst] at hcharge
      have hcharge' : w'.db.feeCharges.find feeChargeId =
          some (failedRows env maxAttempts charge none).1 := hcharge
      rw [hcharge']
      rfl
    have hdunning := hexact.dunning.mpr (by rw [htrace, declines_append_failure]; omega)
    rw [hfailed] at hdunning
    cases hdunning
  | succeeded env i charge handle hanswer hrows hsub htrace =>
    have hnever := h.waiting _ hanswer
    cases hnever

/-- **The next attempt** is later than one that was due. -/
theorem next_postponesRetry (step : CallStep feeChargeId) (w : Calls) :
    PostponesRetry feeChargeId step w (step.next maxAttempts w) := by
  have hhappened := next_happened maxAttempts step w
  generalize step.next maxAttempts w = w' at hhappened ⊢
  intro env i d d' hstep hbefore hafter hmore hretrying hdue
  have hkept : chargeRows w'.db feeChargeId = chargeRows w.db feeChargeId → False := fun hrows => by
    have hsame := congrArg Prod.snd hrows
    have hd : d' = d := by
      have hsame' : w'.db.dunningStates.find feeChargeId = w.db.dunningStates.find feeChargeId := hsame
      rw [hbefore, hafter] at hsame'
      exact Option.some.inj hsame'
    rw [hd] at hmore
    omega
  cases hhappened with
  | nothing hrows => exact (hkept hrows).elim
  | presented answer charge hfind hchargeable hdb => exact (hkept (by rw [hdb])).elim
  | declined env' i' charge hanswer hfind hopen hrows =>
    cases hstep
    have hrow := congrArg Prod.snd hrows
    rw [hbefore] at hrow
    have hd' : w'.db.dunningStates.find feeChargeId =
        some (failedRows env maxAttempts charge (some d)).2 := hrow
    rw [hafter] at hd'
    obtain rfl := Option.some.inj hd'
    have hbackoff := computeBackoff_pos (d.attemptNumber + 1)
    by_cases hlast : d.maxAttempts ≤ d.attemptNumber + 1
    · simp [failedRows, hlast] at hretrying
    · have hnext : (failedRows env maxAttempts charge (some d)).2.nextRetryAt.instant =
          (env.now .nextRetryAt).instant + computeBackoff (d.attemptNumber + 1) := by
        simp [failedRows, hlast, nextRetryAt]
      rw [hnext]
      exact lt_of_le_of_lt hdue (lt_add_of_pos_right _ hbackoff)
  | succeeded env' i' charge handle hanswer hrows =>
    have hgone : w'.db.dunningStates.find feeChargeId = none := congrArg Prod.snd hrows
    rw [hafter] at hgone
    cases hgone

theorem declines_le_next (maxAttempts : ℕ) (step : DecliningStep feeChargeId) (w : Calls) :
    declines w.trace ≤ declines (step.1.next maxAttempts w).trace := by
  obtain ⟨step, hdeclined⟩ := step
  have hhappened := next_happened maxAttempts step w
  dsimp only
  generalize step.next maxAttempts w = w' at hhappened ⊢
  cases hhappened with
  | nothing hrows hsub htrace => rw [htrace]
  | presented answer charge hfind hchargeable hdb hwaits htrace =>
    rw [htrace, declines_append_presented]
  | declined env i charge hanswer hfind hopen hrows hsub htrace =>
    rw [htrace, declines_append_failure]
    omega
  | succeeded env i charge handle hanswer hrows hsub htrace =>
    rw [htrace, declines_append_success]

theorem declines_le_runs (maxAttempts : ℕ) (steps : List (DecliningStep feeChargeId)) (w : Calls) :
    declines w.trace ≤ declines (runs (decliningBody maxAttempts) steps w).trace := by
  induction steps generalizing w with
  | nil => exact le_refl _
  | cons step steps ih =>
    have hfirst := declines_le_next maxAttempts step w
    have hrest := ih (step.1.next maxAttempts w)
    rw [runs_cons, decliningBody, CallStep.atomically_perform]
    exact hfirst.trans hrest

theorem runMeets_counts_iff (steps : List (DecliningStep feeChargeId)) (w : Calls) :
    RunMeets (decliningBody maxAttempts) (fun w step => 2 ≤ maxAttempts ∨
        declines (step.1.next maxAttempts w).trace = declines w.trace) steps w ↔
      2 ≤ maxAttempts ∨
        declines (runs (decliningBody maxAttempts) steps w).trace = declines w.trace := by
  induction steps generalizing w with
  | nil => exact iff_of_true trivial (Or.inr rfl)
  | cons step steps ih =>
    have hfirst := declines_le_next maxAttempts step w
    have hrest := declines_le_runs maxAttempts steps (step.1.next maxAttempts w)
    rw [RunMeets, runs_cons, decliningBody, CallStep.atomically_perform, ih]
    omega

/-- **Exactly `max_attempts` attempts**, over every run with a provider that declines: so it is if
more than one is allowed, and for a single one if nothing is recorded at all. -/
theorem attempts_exact_iff {db : Database} (hmax : 1 ≤ maxAttempts) (huntried : Untried db feeChargeId)
    (steps : List (DecliningStep feeChargeId)) :
    RunMeets (decliningBody maxAttempts)
        (fun w step => AttemptsExact maxAttempts feeChargeId (step.1.next maxAttempts w) ∧
          PostponesRetry feeChargeId step.1 w (step.1.next maxAttempts w)) steps ⟨db, [], []⟩ ↔
      2 ≤ maxAttempts ∨ declines (runs (decliningBody maxAttempts) steps ⟨db, [], []⟩).trace = 0 := by
  have hstart : Declining maxAttempts feeChargeId ⟨db, [], []⟩ := by
    obtain ⟨hpending, hnone⟩ := huntried
    obtain ⟨charge, hfind, hstatus⟩ := Option.map_eq_some_iff.mp hpending
    refine ⟨?_, fun before key answer after hsplit => ?_, fun answer hmem => by cases hmem⟩
    · rw [chargeRows, hfind, hnone]
      exact .untried charge hstatus
    · simp at hsplit
  refine Iff.trans ?_ (runMeets_counts_iff steps ⟨db, [], []⟩)
  refine runMeets_iff (fun w step hw => ⟨fun hexact => ?_, fun hcounts =>
    ⟨(hw.next hmax step hcounts).exact hmax, next_postponesRetry step.1 w⟩⟩)
    (fun w step hw hcounts => ?_) hstart
  · by_cases hmany : 2 ≤ maxAttempts
    · exact Or.inl hmany
    · exact Or.inr (hw.kept_of_exact (by omega) step hexact.1)
  · rw [decliningBody, CallStep.atomically_perform]
    exact hw.next hmax step hcounts

end Attempts

/-- Two calls, a day apart, are declined. -/
def declinedTwice : List (DecliningStep 16) := [
  ⟨.present .declined, fun _ h => by cases h; rfl⟩,
  ⟨.apply (envAt 0 17) 0, fun _ h => by cases h⟩,
  ⟨.present .declined, fun _ h => by cases h; rfl⟩,
  ⟨.apply (envAt 86400000000 18) 0, fun _ h => by cases h⟩]

/-- Two attempts are allowed, and two are made. -/
theorem attempts_exact_two :
    declines (runs (decliningBody 2) declinedTwice ⟨feeOwed ⟨50000, by decide⟩, [], []⟩).trace = 2 ∧
      RunMeets (decliningBody 2) (fun w step => AttemptsExact 2 16 (step.1.next 2 w) ∧
        PostponesRetry 16 step.1 w (step.1.next 2 w)) declinedTwice
        ⟨feeOwed ⟨50000, by decide⟩, [], []⟩ :=
  ⟨by decide,
    (attempts_exact_iff (by decide) (untried_feeOwed _) declinedTwice).mpr (Or.inl (le_refl 2))⟩

/-- **A single attempt**: the charge is not in dunning after it, but goes on being retried. -/
theorem single_attempt_retried : ¬ ∀ (maxAttempts : ℕ) (db : Database)
    (steps : List (DecliningStep 16)), 1 ≤ maxAttempts → Untried db 16 →
      RunMeets (decliningBody maxAttempts)
        (fun w step => AttemptsExact maxAttempts 16 (step.1.next maxAttempts w) ∧
          PostponesRetry 16 step.1 w (step.1.next maxAttempts w)) steps ⟨db, [], []⟩ := by
  intro h
  obtain ⟨-, ⟨hfirst, -⟩, -⟩ :=
    h 1 (feeOwed ⟨50000, by decide⟩) declinedTwice (le_refl 1) (untried_feeOwed _)
  exact absurd (hfirst.dunning.mpr (by decide)) (by decide)

end Trueup.Fees.Charging
