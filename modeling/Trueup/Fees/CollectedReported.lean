import Trueup.Fees.CollectedOnce

/-! # A fee is booked as collected when the provider has reported it

`charge_fee` applies every handle as a success, whatever its `status`; `_apply_verdict` reads the
status of a verdict. The stored charge id ties a verdict to the charge it is about.

`collected_was_reported`: if every handle that comes back says `succeeded`, or is about a charge
that has been reported before, then only charges that have been reported are booked as collected.
`processing_is_collected`: a handle that says `processing` is booked as collected. -/

namespace Trueup.Fees.Charging

open Trueup.Core Trueup.Models Trueup.Lib Trueup.Lib.Transaction

/-- The provider has returned the charge id for the fee. -/
def ChargedAs (w : World) (feeChargeId : Uuid) (stripeChargeId : String) : Prop :=
  ∃ entry ∈ w.handles, entry.1 = feeChargeId ∧ entry.2.stripeChargeId = stripeChargeId

/-- The provider has reported the fee as `succeeded`, in a handle or in a verdict on a charge id
that it has returned for the fee. -/
def ReportedSucceeded (w : World) (feeChargeId : Uuid) : Prop :=
  (∃ entry ∈ w.handles, entry.1 = feeChargeId ∧ entry.2.status = "succeeded") ∨
    ∃ entry ∈ w.handles, entry.1 = feeChargeId ∧ (entry.2.stripeChargeId, "succeeded") ∈ w.verdicts

instance (w : World) (feeChargeId : Uuid) : Decidable (ReportedSucceeded w feeChargeId) := by
  unfold ReportedSucceeded
  infer_instance

/-- A handle that comes back says `succeeded`, or the fee has been reported before. -/
def HandleFinal (a : Action) (w : World) (p : Process) : Prop :=
  match p.phase, a with
  | .calling feeChargeId, .answer (.handle handle) =>
    handle.status = "succeeded" ∨ ReportedSucceeded w feeChargeId
  | _, _ => True

instance (a : Action) (w : World) (p : Process) : Decidable (HandleFinal a w p) := by
  obtain ⟨job, phase⟩ := p
  unfold HandleFinal
  dsimp only
  split <;> infer_instance

/-- What is booked as collected has been reported, and a stored charge id is the provider's. -/
structure CollectedReported (w : World) : Prop where
  status : ∀ charge ∈ w.db.feeCharges, charge.status = .succeeded → ReportedSucceeded w charge.id
  posted : ∀ id, collections w.db id ≠ 0 → ReportedSucceeded w id
  stored : ∀ charge ∈ w.db.feeCharges, ∀ stripeChargeId,
    charge.stripeChargeId = some stripeChargeId → ChargedAs w charge.id stripeChargeId

/-- A success that is about to be applied has been reported. -/
def SuccessReported (w : World) (feeChargeId : Uuid) : Outcome → Prop
  | .success stripeChargeId => ReportedSucceeded w feeChargeId ∧ ChargedAs w feeChargeId stripeChargeId
  | .failure => True

/-- The execution works with what the provider has said. -/
def WasTold (w : World) (p : Process) : Prop :=
  match p.phase with
  | .applying feeChargeId outcome => SuccessReported w feeChargeId outcome
  | .verdict stripeChargeId status => (stripeChargeId, status) ∈ w.verdicts
  | .seen charge outcome => SuccessReported w charge.id outcome
  | .deciding charge _ outcome => SuccessReported w charge.id outcome
  | _ => True

section Step
variable {w w' : World} {p : Process} {charge : FeeCharge} {dunning : Option DunningState}
  {outcome : Outcome} {feeChargeId : Uuid}

theorem ReportedSucceeded.mono (hhandles : w.handles ⊆ w'.handles)
    (hverdicts : w.verdicts ⊆ w'.verdicts) (h : ReportedSucceeded w feeChargeId) :
    ReportedSucceeded w' feeChargeId := by
  rcases h with ⟨entry, hentry, hid, hstatus⟩ | ⟨entry, hentry, hid, hverdict⟩
  · exact Or.inl ⟨entry, hhandles hentry, hid, hstatus⟩
  · exact Or.inr ⟨entry, hhandles hentry, hid, hverdicts hverdict⟩

theorem ChargedAs.mono {stripeChargeId : String} (hhandles : w.handles ⊆ w'.handles)
    (h : ChargedAs w feeChargeId stripeChargeId) : ChargedAs w' feeChargeId stripeChargeId := by
  obtain ⟨entry, hentry, hid⟩ := h
  exact ⟨entry, hhandles hentry, hid⟩

theorem SuccessReported.mono (hhandles : w.handles ⊆ w'.handles) (hverdicts : w.verdicts ⊆ w'.verdicts)
    (h : SuccessReported w feeChargeId outcome) : SuccessReported w' feeChargeId outcome := by
  cases outcome with
  | success stripeChargeId => exact ⟨h.1.mono hhandles hverdicts, h.2.mono hhandles⟩
  | failure => trivial

theorem WasTold.mono (hhandles : w.handles ⊆ w'.handles) (hverdicts : w.verdicts ⊆ w'.verdicts)
    (h : WasTold w p) : WasTold w' p := by
  obtain ⟨job, phase⟩ := p
  cases phase with
  | applying feeChargeId outcome => exact SuccessReported.mono hhandles hverdicts h
  | verdict stripeChargeId status => exact hverdicts h
  | seen charge outcome => exact SuccessReported.mono hhandles hverdicts h
  | deciding charge dunning outcome => exact SuccessReported.mono hhandles hverdicts h
  | _ => trivial

/-- What has been reported stays reported; the rows may change in other columns. -/
theorem CollectedReported.of_rows (h : CollectedReported w) (hhandles : w.handles ⊆ w'.handles)
    (hverdicts : w.verdicts ⊆ w'.verdicts)
    (hrows : ∀ charge' ∈ w'.db.feeCharges, ∃ charge ∈ w.db.feeCharges, charge'.id = charge.id ∧
      charge'.stripeChargeId = charge.stripeChargeId ∧
      (charge'.status = .succeeded → charge.status = .succeeded))
    (hcollections : ∀ id, collections w'.db id = collections w.db id) : CollectedReported w' := by
  refine ⟨fun charge' hcharge' hstatus => ?_, fun id hpos => ?_,
    fun charge' hcharge' stripeChargeId hstripe => ?_⟩
  · obtain ⟨charge, hcharge, hid, -, hsucceeded⟩ := hrows charge' hcharge'
    rw [hid]
    exact (h.status charge hcharge (hsucceeded hstatus)).mono hhandles hverdicts
  · rw [hcollections id] at hpos
    exact (h.posted id hpos).mono hhandles hverdicts
  · obtain ⟨charge, hcharge, hid, hstored, -⟩ := hrows charge' hcharge'
    rw [hid]
    exact (h.stored charge hcharge stripeChargeId (hstored ▸ hstripe)).mono hhandles

theorem rows_set_status {row : FeeCharge} {status : FeeChargeStatus} (hrow : row ∈ w.db.feeCharges)
    (hstatus : status ≠ .succeeded)
    (hcharges : w'.db.feeCharges =
      w.db.feeCharges.set { row with status := flushed charge.status status row.status }) :
    ∀ charge' ∈ w'.db.feeCharges, ∃ charge ∈ w.db.feeCharges, charge'.id = charge.id ∧
      charge'.stripeChargeId = charge.stripeChargeId ∧
      (charge'.status = .succeeded → charge.status = .succeeded) := by
  intro charge' hcharge'
  rw [hcharges] at hcharge'
  rcases Table.mem_set.mp hcharge' with ⟨hmem, -⟩ | ⟨rfl, -⟩
  · exact ⟨charge', hmem, rfl, rfl, id⟩
  · refine ⟨row, hrow, rfl, rfl, fun hsucceeded => ?_⟩
    have hflushed : flushed charge.status status row.status = .succeeded := hsucceeded
    unfold flushed at hflushed
    split_ifs at hflushed with hsame
    · exact hflushed
    · exact absurd hflushed hstatus

/-- **A commit** books what has been reported. -/
theorem CollectedReported.applied (h : CollectedReported w)
    (happlied : Applied charge w.db w'.db dunning outcome)
    (htold : SuccessReported w charge.id outcome) (hhandles : w.handles ⊆ w'.handles)
    (hverdicts : w.verdicts ⊆ w'.verdicts) : CollectedReported w' := by
  cases happlied with
  | collected entryId row hrow hcharges hdunnings hcollections =>
    rename_i stripeChargeId
    obtain ⟨hmem, hid⟩ := Table.find_eq_some.mp hrow
    obtain ⟨hreported, hcharged⟩ := SuccessReported.mono hhandles hverdicts htold
    refine ⟨fun charge' hcharge' hstatus => ?_, fun id hpos => ?_,
      fun charge' hcharge' stripeChargeId' hstripe => ?_⟩
    · rw [hcharges] at hcharge'
      rcases Table.mem_set.mp hcharge' with ⟨hmem', -⟩ | ⟨rfl, -⟩
      · exact (h.status charge' hmem' hstatus).mono hhandles hverdicts
      · exact hid ▸ hreported
    · rw [hcollections id] at hpos
      by_cases hthis : charge.id = id
      · exact hthis ▸ hreported
      · rw [if_neg hthis, add_zero] at hpos
        exact (h.posted id hpos).mono hhandles hverdicts
    · rw [hcharges] at hcharge'
      rcases Table.mem_set.mp hcharge' with ⟨hmem', -⟩ | ⟨rfl, -⟩
      · exact (h.stored charge' hmem' _ hstripe).mono hhandles
      · have hflushed : flushed charge.stripeChargeId (some stripeChargeId) row.stripeChargeId =
            some stripeChargeId' := hstripe
        unfold flushed at hflushed
        split_ifs at hflushed with hsame
        · exact (h.stored row hmem _ hflushed).mono hhandles
        · obtain rfl := Option.some.inj hflushed
          exact hid ▸ hcharged
  | failed row d hrow hcharges hid hstatus hdunnings hcollections =>
    have hmem := (Table.find_eq_some.mp hrow).1
    exact h.of_rows hhandles hverdicts (rows_set_status hmem (by decide) hcharges) hcollections
  | exhausted row row' drow hrow hcharges hdrow hdunnings hid hlast hcollections =>
    have hmem := (Table.find_eq_some.mp hrow).1
    exact h.of_rows hhandles hverdicts (rows_set_status hmem (by decide) hcharges) hcollections
  | retried row' drow hcharges hdrow hdunnings hid hstatus hmore hcollections =>
    refine h.of_rows hhandles hverdicts (fun charge' hcharge' => ?_) hcollections
    rw [hcharges] at hcharge'
    exact ⟨charge', hcharge', rfl, rfl, id⟩

theorem verdictOutcome_success {stripeChargeId stripeChargeId' status : String}
    (h : verdictOutcome stripeChargeId status = some (.success stripeChargeId')) :
    status = "succeeded" ∧ stripeChargeId' = stripeChargeId := by
  unfold verdictOutcome at h
  split_ifs at h with hsuccess
  · cases h
    exact ⟨hsuccess, rfl⟩
  · cases h

/-- **What an execution works with** after an action. -/
theorem WasTold.moves {a : Action} {p' : Process} (h : CollectedReported w) (htold : WasTold w p)
    (hok : HandleFinal a w p) (hhandles : w.handles ⊆ w'.handles) (hverdicts : w.verdicts ⊆ w'.verdicts)
    (hmoves : Moves a w w' p p') : WasTold w' p' := by
  have hkept := htold.mono hhandles hverdicts
  cases hmoves with
  | stays => exact hkept
  | hears stripeChargeId status hverdict => exact hverdict
  | succeeds feeChargeId handle haction hphase hhandle =>
    subst haction
    unfold HandleFinal at hok
    rw [hphase] at hok
    refine ⟨?_, (feeChargeId, handle), hhandle, rfl, rfl⟩
    rcases hok with hstatus | hreported
    · exact Or.inl ⟨(feeChargeId, handle), hhandle, rfl, hstatus⟩
    · exact hreported.mono hhandles hverdicts
  | reads charge outcome hphase hfind hopen =>
    unfold WasTold at hkept
    rw [hphase] at hkept
    exact hkept
  | finds charge stripeChargeId status outcome hphase hcharge hstripe hverdict hopen =>
    unfold WasTold at hkept
    rw [hphase] at hkept
    cases outcome with
    | success stripeChargeId' =>
      obtain ⟨rfl, rfl⟩ := verdictOutcome_success hverdict
      have hcharged := (h.stored charge hcharge _ hstripe).mono hhandles
      obtain ⟨entry, hentry, hid, hstored⟩ := hcharged
      refine ⟨Or.inr ⟨entry, hentry, hid, ?_⟩, entry, hentry, hid, hstored⟩
      rw [hstored]
      exact hkept
    | failure => trivial
  | decides charge outcome hphase =>
    unfold WasTold at hkept
    rw [hphase] at hkept
    exact hkept
  | _ => trivial

end Step

theorem collectedReported_stable : Processes.Stable program (fun _ : ℕ => HandleFinal)
    CollectedReported (fun _ => WasTold) where
  shared i a w p hok h htold := by
    obtain ⟨hhandles, hverdicts⟩ := program_said i a w p
    have hsame : SameCharges w.db (program i a w p).1.db → CollectedReported (program i a w p).1 := by
      intro hsame
      refine h.of_rows hhandles hverdicts (fun charge' hcharge' => ?_) hsame.collections
      rw [hsame.charges] at hcharge'
      exact ⟨charge', hcharge', rfl, rfl, id⟩
    cases program_change i a w p with
    | kept hkept => exact hsame hkept
    | job hkept => exact hsame hkept
    | created charge job hstatus hstripe hcharges hpayload hpending hjobs hdunnings hcollections =>
      refine ⟨fun row hrow hsucceeded => ?_, fun id hpos => ?_, fun row hrow stripeChargeId hid => ?_⟩
      · rcases (Table.mem_insert hcharges).mp hrow with hmem | rfl
        · exact (h.status row hmem hsucceeded).mono hhandles hverdicts
        · rw [hstatus] at hsucceeded
          cases hsucceeded
      · rw [hcollections id] at hpos
        exact (h.posted id hpos).mono hhandles hverdicts
      · rcases (Table.mem_insert hcharges).mp hrow with hmem | rfl
        · exact (h.stored row hmem _ hid).mono hhandles
        · rw [hstripe] at hid
          cases hid
    | committed charge dunning outcome haction hphase happlied hjobs =>
      unfold WasTold at htold
      rw [hphase] at htold
      exact h.applied happlied htold hhandles hverdicts
  own i a w p hok h htold := by
    obtain ⟨hhandles, hverdicts⟩ := program_said i a w p
    exact htold.moves h hok hhandles hverdicts (program_moves i a w p)
  other i _ a w p _ _ _ _ _ htold := by
    obtain ⟨hhandles, hverdicts⟩ := program_said i a w p
    exact htold.mono hhandles hverdicts

/-- **A fee is booked as collected only if it was reported.** In every run of executions of
`charge_fee` and of webhooks, in any interleaving, in which each handle that comes back says
`succeeded` or is about a fee that has been reported before: a charge that has succeeded, or has a
collection entry, has been reported as `succeeded` by the provider. -/
theorem collected_was_reported {db₀ : Database} (hstart : NoCharges db₀) {steps : List (ℕ × Action)}
    (hfinal : Processes.Along program (fun _ => HandleFinal) steps (start db₀)) :
    ∀ charge ∈ (Processes.run program steps (start db₀)).shared.db.feeCharges,
      (charge.status = .succeeded ∨
        collections (Processes.run program steps (start db₀)).shared.db charge.id ≠ 0) →
      ReportedSucceeded (Processes.run program steps (start db₀)).shared charge.id := by
  have hbegin : Processes.Holds CollectedReported (fun _ => WasTold) (start db₀) := by
    refine ⟨⟨fun charge hcharge => ?_, fun id hpos => ?_, fun charge hcharge => ?_⟩, fun _ => trivial⟩
    · exact absurd hcharge (hstart.not_mem charge)
    · exact absurd (hstart.collections id) hpos
    · exact absurd hcharge (hstart.not_mem charge)
  have hend := (collectedReported_stable.run hfinal hbegin).1
  intro charge hcharge hbooked
  rcases hbooked with hstatus | hposted
  · exact hend.status charge hcharge hstatus
  · exact hend.posted charge.id hposted

/-- The charge of `chargedOnce` has succeeded, and was reported. -/
theorem collected_was_reported_by_the_handle :
    ∃ charge ∈ (Processes.run program chargedOnce (start feeAccrued)).shared.db.feeCharges,
      charge.status = .succeeded ∧
        ReportedSucceeded (Processes.run program chargedOnce (start feeAccrued)).shared charge.id := by
  have hstart : NoCharges feeAccrued :=
    ⟨by decide +kernel, by decide +kernel, by decide +kernel, by decide +kernel⟩
  have hsucceeded : ∃ charge ∈
      (Processes.run program chargedOnce (start feeAccrued)).shared.db.feeCharges.rows,
      charge.status = .succeeded := by decide +kernel
  obtain ⟨charge, hcharge, hstatus⟩ := hsucceeded
  exact ⟨charge, hcharge, hstatus,
    collected_was_reported hstart (by decide +kernel) charge hcharge (Or.inl hstatus)⟩

/-- The worker's call comes back with a payment that is still processing; the payment is canceled
later, and the webhook says so. -/
def chargedProcessing : List (ℕ × Action) :=
  billedAndClaimed ++ twoStatements 0 17 ++ [(0, .answer (.handle ⟨"ch", "processing"⟩))] ++
    twoStatements 0 18 ++ [commits 0 19 true, (1, .applyVerdict "ch" "canceled")] ++ twoStatements 1 20

/-- **A payment that is processing is collected**, and its cancellation changes nothing. -/
theorem processing_is_collected :
    (∃ charge ∈
        (Processes.run program chargedProcessing (start feeAccrued)).shared.db.feeCharges.rows,
      charge.id = 16 ∧ charge.status = .succeeded) ∧
      collections (Processes.run program chargedProcessing (start feeAccrued)).shared.db 16 = 1 ∧
      ¬ ReportedSucceeded (Processes.run program chargedProcessing (start feeAccrued)).shared 16 := by
  decide +kernel

end Trueup.Fees.Charging
