import Trueup.Fees.ChargeCalls

/-! # The keys that the provider is presented with

`charge_fee` presents `str(fee_charge_id)` at every call: to the outbox worker that does not know
how its last call ended, and to the dunning job that asks for another attempt. A provider that
replays the outcome it has stored under a key answers both alike.

* `retry_keys_iff`: the keys are right over a run exactly when no call reaches the provider after a
  recorded decline.
* `never_collected_after_decline`: with a provider that replays, a charge that was declined at first
  is never collected. -/

namespace Trueup.Fees.Charging

open Trueup.Core Trueup.Models Trueup.Lib Trueup.Lib.Transaction

/-- A call that is made after a recorded decline has a key that no declined call has had. -/
def FreshAfterDecline (trace : List Event) : Prop :=
  ∀ before key answer after, trace = before ++ .presented key answer :: after →
    .recorded .failure ∈ before → .presented key .declined ∉ before

/-- Calls without a recorded outcome in between have one key. -/
def SameUntilRecorded (trace : List Event) : Prop :=
  ∀ before key answer mid key' answer' after,
    trace = before ++ .presented key answer :: mid ++ .presented key' answer' :: after →
    (∀ outcome, .recorded outcome ∉ mid) → key' = key

/-- The keys are right. -/
def KeysRight (trace : List Event) : Prop := FreshAfterDecline trace ∧ SameUntilRecorded trace

/-- A call that reaches the provider finds the charge pending. -/
def PresentsPending {feeChargeId : Uuid} (w : Calls) (step : CallStep feeChargeId) : Prop :=
  ∀ answer request, step = .present answer →
    chargeRequest w.db feeChargeId = .ok (some request) →
    (w.db.feeCharges.find feeChargeId).map (·.status) = some .pending

/-- What the trace has to do with the rows of the charge. -/
structure Traced (feeChargeId : Uuid) (w : Calls) : Prop where
  keys : ∀ key answer, .presented key answer ∈ w.trace → key = feeChargeId
  waiting : .declined ∈ w.waiting → .presented feeChargeId .declined ∈ w.trace
  pending : (w.db.feeCharges.find feeChargeId).map (·.status) = some .pending →
    w.db.dunningStates.find feeChargeId = none ∧ .recorded .failure ∉ w.trace
  failed : (w.db.feeCharges.find feeChargeId).map (·.status) = some .failed →
    .recorded .failure ∈ w.trace ∧ .presented feeChargeId .declined ∈ w.trace

theorem FreshAfterDecline.of_append {trace rest : List Event} (h : FreshAfterDecline (trace ++ rest)) :
    FreshAfterDecline trace := by
  intro before key answer after hsplit
  refine h before key answer (after ++ rest) ?_
  rw [hsplit, List.append_assoc, List.cons_append]

theorem FreshAfterDecline.recorded {trace : List Event} (h : FreshAfterDecline trace)
    (outcome : Outcome) : FreshAfterDecline (trace ++ [.recorded outcome]) := by
  intro before key answer after hsplit
  obtain ⟨mid, hmid⟩ := presented_before hsplit
  exact h before key answer mid hmid

section Keys
variable {maxAttempts : ℕ} {feeChargeId : Uuid} {w : Calls}

theorem Traced.sameUntilRecorded (h : Traced feeChargeId w) : SameUntilRecorded w.trace := by
  intro before key answer mid key' answer' after hsplit _
  rw [h.keys key answer (by simp [hsplit]), h.keys key' answer' (by simp [hsplit])]

/-- **One step** keeps what the trace says of the rows. -/
theorem Traced.next (h : Traced feeChargeId w) (maxAttempts : ℕ) (step : CallStep feeChargeId) :
    Traced feeChargeId (step.next maxAttempts w) := by
  have hhappened := next_happened maxAttempts step w
  generalize step.next maxAttempts w = w' at hhappened ⊢
  cases hhappened with
  | nothing hrows hsub htrace =>
    have hcharge : w'.db.feeCharges.find feeChargeId = w.db.feeCharges.find feeChargeId :=
      congrArg Prod.fst hrows
    have hdunning : w'.db.dunningStates.find feeChargeId = w.db.dunningStates.find feeChargeId :=
      congrArg Prod.snd hrows
    refine ⟨?_, fun hmem => ?_, ?_, ?_⟩
    · rw [htrace]; exact h.keys
    · rw [htrace]; exact h.waiting (hsub hmem)
    · rw [hcharge, hdunning, htrace]; exact h.pending
    · rw [hcharge, htrace]; exact h.failed
  | presented answer charge hfind hchargeable hdb hwaits htrace =>
    refine ⟨fun key answer' hmem => ?_, fun hmem => ?_, fun hpending => ?_, fun hfailed => ?_⟩
    · rw [htrace, List.mem_append, List.mem_singleton] at hmem
      rcases hmem with hmem | heq
      · exact h.keys key answer' hmem
      · cases heq
        rfl
    · rw [hwaits] at hmem
      rw [htrace, List.mem_append, List.mem_singleton]
      rcases List.mem_cons.mp hmem with rfl | hmem
      · exact Or.inr rfl
      · exact Or.inl (h.waiting hmem)
    · rw [hdb] at hpending ⊢
      obtain ⟨hnone, hunrecorded⟩ := h.pending hpending
      exact ⟨hnone, by simpa [htrace] using hunrecorded⟩
    · rw [hdb] at hfailed
      obtain ⟨hrecorded, hpresented⟩ := h.failed hfailed
      rw [htrace]
      exact ⟨List.mem_append_left _ hrecorded, List.mem_append_left _ hpresented⟩
  | declined env i charge hanswer hfind hopen hrows hsub htrace =>
    have hcharge : w'.db.feeCharges.find feeChargeId =
        some (failedRows env maxAttempts charge (w.db.dunningStates.find feeChargeId)).1 :=
      congrArg Prod.fst hrows
    refine ⟨fun key answer' hmem => ?_, fun hmem => ?_, fun hpending => ?_, fun _ => ?_⟩
    · exact h.keys key answer' (by simpa [htrace] using hmem)
    · rw [htrace]
      exact List.mem_append_left _ (h.waiting (hsub hmem))
    · -- a pending charge is not in dunning, so that its first failure leaves it failed
      exfalso
      rw [hcharge] at hpending
      cases hdunning : w.db.dunningStates.find feeChargeId with
      | none => simp [hdunning, failedRows] at hpending
      | some d =>
        have hstatus : charge.status ≠ .pending := fun hstatus => by
          have hnone := (h.pending (by rw [hfind]; exact congrArg some hstatus)).1
          rw [hdunning] at hnone
          cases hnone
        by_cases hlast : d.maxAttempts ≤ d.attemptNumber + 1
        · simp [hdunning, failedRows, hlast] at hpending
        · simp [hdunning, failedRows, hlast, hstatus] at hpending
    · rw [htrace]
      exact ⟨by simp, List.mem_append_left _ (h.waiting hanswer)⟩
  | succeeded env i charge handle hanswer hrows hsub htrace =>
    have hcharge : w'.db.feeCharges.find feeChargeId =
        some (succeededRow env charge handle.stripeChargeId) := congrArg Prod.fst hrows
    refine ⟨fun key answer' hmem => ?_, fun hmem => ?_, fun hpending => ?_, fun hfailed => ?_⟩
    · exact h.keys key answer' (by simpa [htrace] using hmem)
    · rw [htrace]
      exact List.mem_append_left _ (h.waiting (hsub hmem))
    · rw [hcharge] at hpending
      cases hpending
    · rw [hcharge] at hfailed
      cases hfailed

/-- **The key of one call**: it is right exactly when the charge is pending. -/
theorem Traced.fresh_iff (h : Traced feeChargeId w) (hfresh : FreshAfterDecline w.trace)
    (maxAttempts : ℕ) (step : CallStep feeChargeId) :
    FreshAfterDecline (step.next maxAttempts w).trace ↔ PresentsPending w step := by
  cases step with
  | present answer =>
    cases hrequest : chargeRequest w.db feeChargeId with
    | error e =>
      refine iff_of_true ?_ fun answer' request hstep hok => ?_
      · simpa only [CallStep.next, hrequest] using hfresh
      · rw [hrequest] at hok
        cases hok
    | ok request =>
      cases request with
      | none =>
        refine iff_of_true ?_ fun answer' request hstep hok => ?_
        · simpa only [CallStep.next, hrequest] using hfresh
        · rw [hrequest] at hok
          cases hok
      | some request =>
        obtain ⟨charge, method, hfind, hchargeable, -, rfl⟩ := chargeRequest_ok.mp hrequest
        simp only [CallStep.next, hrequest]
        constructor
        · intro hfresh' answer' request hstep hok
          rw [hfind, Option.map_some]
          have hnot : charge.status ≠ .failed := fun hstatus => by
            obtain ⟨hrecorded, hpresented⟩ := h.failed (by rw [hfind]; exact congrArg some hstatus)
            exact hfresh' w.trace feeChargeId answer [] rfl hrecorded hpresented
          simp only [isChargeable, decide_eq_true_eq] at hchargeable
          rcases hchargeable with hpending | hfailed
          · rw [hpending]
          · exact absurd hfailed hnot
        · intro hpending before key answer' after hsplit hrecorded
          obtain ⟨-, hunrecorded⟩ := h.pending (hpending answer _ rfl hrequest)
          rcases presented_last hsplit with rfl | ⟨mid, hmid⟩
          · exact absurd hrecorded hunrecorded
          · exact hfresh before key answer' mid hmid hrecorded
  | apply env i =>
    refine iff_of_true ?_ fun answer request hstep => by cases hstep
    have hhappened := next_happened maxAttempts (.apply env i : CallStep feeChargeId) w
    generalize (CallStep.apply env i : CallStep feeChargeId).next maxAttempts w = w' at hhappened ⊢
    cases hhappened with
    | nothing hrows hsub htrace => rw [htrace]; exact hfresh
    | declined _ _ charge hanswer hfind hopen hrows hsub htrace =>
      rw [htrace]; exact hfresh.recorded .failure
    | succeeded _ _ charge handle hanswer hrows hsub htrace =>
      rw [htrace]; exact hfresh.recorded _
  | crash i => exact iff_of_true hfresh fun answer request hstep => by cases hstep
  | other change rows => exact iff_of_true hfresh fun answer request hstep => by cases hstep

theorem next_trace (maxAttempts : ℕ) (step : CallStep feeChargeId) (w : Calls) :
    ∃ events, (step.next maxAttempts w).trace = w.trace ++ events := by
  have hhappened := next_happened maxAttempts step w
  generalize step.next maxAttempts w = w' at hhappened ⊢
  cases hhappened with
  | nothing hrows hsub htrace => exact ⟨[], by rw [htrace, List.append_nil]⟩
  | presented answer charge hfind hchargeable hdb hwaits htrace => exact ⟨_, htrace⟩
  | declined env i charge hanswer hfind hopen hrows hsub htrace => exact ⟨_, htrace⟩
  | succeeded env i charge handle hanswer hrows hsub htrace => exact ⟨_, htrace⟩

theorem runs_trace (maxAttempts : ℕ) (steps : List (CallStep feeChargeId)) (w : Calls) :
    ∃ events, (runs (CallStep.perform maxAttempts) steps w).trace = w.trace ++ events := by
  induction steps generalizing w with
  | nil => exact ⟨[], (List.append_nil _).symm⟩
  | cons step steps ih =>
    obtain ⟨first, hfirst⟩ := next_trace maxAttempts step w
    obtain ⟨rest, hrest⟩ := ih (step.next maxAttempts w)
    refine ⟨first ++ rest, ?_⟩
    rw [runs_cons, CallStep.atomically_perform, hrest, hfirst, List.append_assoc]

/-- The keys of a run that goes on from a state in which they were right. -/
theorem Traced.runs_iff (steps : List (CallStep feeChargeId)) {w : Calls} (h : Traced feeChargeId w)
    (hfresh : FreshAfterDecline w.trace) :
    KeysRight (runs (CallStep.perform maxAttempts) steps w).trace ↔
      RunMeets (CallStep.perform maxAttempts) PresentsPending steps w := by
  induction steps generalizing w with
  | nil => exact iff_of_true ⟨hfresh, h.sameUntilRecorded⟩ trivial
  | cons step steps ih =>
    have hnext := h.next maxAttempts step
    have hstep := h.fresh_iff hfresh maxAttempts step
    rw [RunMeets, runs_cons, CallStep.atomically_perform]
    constructor
    · intro hright
      obtain ⟨events, hevents⟩ := runs_trace maxAttempts steps
        (step.next maxAttempts w)
      have hright' := hright.1
      rw [hevents] at hright'
      have hmid := hright'.of_append
      exact ⟨hstep.mp hmid, (ih hnext hmid).mp hright⟩
    · rintro ⟨hmeets, hrest⟩
      exact (ih hnext (hstep.mpr hmeets)).mpr hrest

theorem Untried.traced {db : Database} (h : Untried db feeChargeId) :
    Traced feeChargeId ⟨db, [], []⟩ := by
  obtain ⟨hpending, hnone⟩ := h
  refine ⟨by simp, by simp, fun _ => ⟨hnone, by simp⟩, fun hfailed => ?_⟩
  rw [hpending] at hfailed
  cases hfailed

/-- **The keys of the calls**, over every run from a pending charge: they are right exactly when
every call that reaches the provider finds the charge pending. -/
theorem retry_keys_iff {db : Database} (huntried : Untried db feeChargeId)
    (steps : List (CallStep feeChargeId)) :
    KeysRight (runs (CallStep.perform maxAttempts) steps ⟨db, [], []⟩).trace ↔
      RunMeets (CallStep.perform maxAttempts) PresentsPending steps ⟨db, [], []⟩ := by
  refine huntried.traced.runs_iff steps fun before key answer after hsplit => ?_
  simp at hsplit

end Keys

/-! ### A provider that replays -/

/-- Every answer to a key is the first one. -/
def Replays (trace : List Event) : Prop :=
  ∀ key answer answer', .presented key answer ∈ trace → .presented key answer' ∈ trace →
    answer = answer'

/-- What is waiting or has been recorded was an answer to the key of the charge. -/
structure Answered (feeChargeId : Uuid) (w : Calls) : Prop where
  waiting : ∀ answer ∈ w.waiting, .presented feeChargeId answer ∈ w.trace
  failure : .recorded .failure ∈ w.trace → .presented feeChargeId .declined ∈ w.trace
  success : ∀ stripeChargeId, .recorded (.success stripeChargeId) ∈ w.trace →
    ∃ handle, .presented feeChargeId (.handle handle) ∈ w.trace

section Replays
variable {maxAttempts : ℕ} {feeChargeId : Uuid} {w : Calls}

theorem Answered.next (h : Answered feeChargeId w) (maxAttempts : ℕ) (step : CallStep feeChargeId) :
    Answered feeChargeId (step.next maxAttempts w) := by
  have hhappened := next_happened maxAttempts step w
  obtain ⟨events, hevents⟩ := next_trace maxAttempts step w
  generalize step.next maxAttempts w = w' at hhappened hevents ⊢
  have hkept : ∀ event ∈ w.trace, event ∈ w'.trace := fun event hmem => by
    rw [hevents]
    exact List.mem_append_left _ hmem
  have hstill : ∀ answer ∈ w.waiting, .presented feeChargeId answer ∈ w'.trace := fun answer hmem =>
    hkept _ (h.waiting answer hmem)
  cases hhappened with
  | nothing hrows hsub htrace =>
    refine ⟨fun answer hmem => hstill answer (hsub hmem), ?_, ?_⟩
    · rw [htrace]; exact h.failure
    · rw [htrace]; exact h.success
  | presented answer charge hfind hchargeable hdb hwaits htrace =>
    refine ⟨fun answer' hmem => ?_, fun hmem => ?_, fun stripeChargeId hmem => ?_⟩
    · rw [hwaits] at hmem
      rcases List.mem_cons.mp hmem with rfl | hmem
      · simp [htrace]
      · exact hstill answer' hmem
    · exact hkept _ (h.failure (by simpa [htrace] using hmem))
    · obtain ⟨handle, hpresented⟩ := h.success stripeChargeId (by simpa [htrace] using hmem)
      exact ⟨handle, hkept _ hpresented⟩
  | declined env i charge hanswer hfind hopen hrows hsub htrace =>
    refine ⟨fun answer hmem => hstill answer (hsub hmem), fun _ => hstill _ hanswer,
      fun stripeChargeId hmem => ?_⟩
    obtain ⟨handle, hpresented⟩ := h.success stripeChargeId (by simpa [htrace] using hmem)
    exact ⟨handle, hkept _ hpresented⟩
  | succeeded env i charge handle hanswer hrows hsub htrace =>
    exact ⟨fun answer hmem => hstill answer (hsub hmem),
      fun hmem => hkept _ (h.failure (by simpa [htrace] using hmem)),
      fun _ _ => ⟨handle, hstill _ hanswer⟩⟩

theorem Answered.runs (maxAttempts : ℕ) (steps : List (CallStep feeChargeId)) {w : Calls}
    (h : Answered feeChargeId w) :
    Answered feeChargeId (runs (CallStep.perform maxAttempts) steps w) := by
  induction steps generalizing w with
  | nil => exact h
  | cons step steps ih =>
    rw [runs_cons, CallStep.atomically_perform]
    exact ih (h.next maxAttempts step)

/-- **A declined charge is never collected** from a provider that replays what it has answered to a
key. -/
theorem never_collected_after_decline (db : Database) (steps : List (CallStep feeChargeId))
    (hreplays : Replays (runs (CallStep.perform maxAttempts) steps ⟨db, [], []⟩).trace)
    (hdeclined : .recorded .failure ∈ (runs (CallStep.perform maxAttempts) steps ⟨db, [], []⟩).trace)
    (stripeChargeId : String) :
    .recorded (.success stripeChargeId) ∉
      (runs (CallStep.perform maxAttempts) steps ⟨db, [], []⟩).trace := by
  intro hcollected
  have hstart : Answered feeChargeId ⟨db, [], []⟩ := ⟨by simp, by simp, by simp⟩
  have hanswered := hstart.runs maxAttempts steps
  obtain ⟨handle, hpresented⟩ := hanswered.success stripeChargeId hcollected
  have hsame := hreplays feeChargeId _ _ hpresented (hanswered.failure hdeclined)
  cases hsame

end Replays

/-- A crash loses the outcome of the first call; the second one is declined. -/
def crashedThenDeclined : List (CallStep 16) :=
  [.present .error, .crash 0, .present .declined, .apply (envAt 0 17) 0]

/-- The repeated call has the key of the first. -/
theorem retry_keys_crashed :
    KeysRight (runs (CallStep.perform 4) crashedThenDeclined
      ⟨feeOwed ⟨50000, by decide⟩, [], []⟩).trace := by
  refine (retry_keys_iff (untried_feeOwed _) crashedThenDeclined).mpr ⟨?_, ?_, ?_, ?_, trivial⟩
  · intro _ _ _ _; decide
  · intro _ _ hstep; cases hstep
  · intro _ _ _ _; decide
  · intro _ _ hstep; cases hstep

/-- **A dunning retry** presents the key of the call that was declined. -/
theorem dunning_retry_repeats_key : ¬ ∀ (maxAttempts : ℕ) (db : Database) (steps : List (CallStep 16)),
    Untried db 16 → KeysRight (runs (CallStep.perform maxAttempts) steps ⟨db, [], []⟩).trace := by
  intro h
  obtain ⟨hfresh, -⟩ := h 4 (feeOwed ⟨50000, by decide⟩)
    [.present .declined, .apply (envAt 0 17) 0, .present .declined] (untried_feeOwed _)
  exact hfresh [.presented 16 .declined, .recorded .failure] 16 .declined [] rfl (by simp) (by simp)

end Trueup.Fees.Charging
