import Trueup.Fees.ChargeExecutions

/-! # One collection per charge

Executions of `charge_fee` and verdicts of the webhook read the charge, and commit later. An outcome
that changes the status of a charge which has succeeded since it was read is `Overtaken`.

`collected_once`: without overtaken commits, a charge has at most one collection entry.
`overlapping_charges_collect_twice`: the worker and the dunning job charge one fee at the same time,
the provider returns the same charge to both, and both post it. -/

namespace Trueup.Fees.Charging

open Trueup.Core Trueup.Models Trueup.Lib Trueup.Lib.Transaction

/-- The commit writes the status of the charge. -/
def writesStatus (charge : FeeCharge) : Option DunningState → Outcome → Bool
  | _, .success _ => true
  | none, .failure => charge.status ≠ .failed
  | some dunning, .failure => dunning.maxAttempts ≤ dunning.attemptNumber + 1

/-- The charge has succeeded since the execution read it, and its status is about to be written. -/
def Overtaken (w : World) (p : Process) : Prop :=
  match p.phase with
  | .deciding charge dunning outcome =>
    writesStatus charge dunning outcome ∧
      ∃ row ∈ w.db.feeCharges, row.id = charge.id ∧ row.status = .succeeded
  | _ => False

/-- The action is not an overtaken commit. -/
def InTime (a : Action) (w : World) (p : Process) : Prop :=
  match a with
  | .proceed _ _ _ => ¬ Overtaken w p
  | _ => True

instance (w : World) (p : Process) : Decidable (Overtaken w p) := by
  unfold Overtaken
  split
  · exact inferInstanceAs (Decidable (_ ∧ ∃ row ∈ w.db.feeCharges.rows, _))
  · infer_instance

instance (a : Action) (w : World) (p : Process) : Decidable (InTime a w p) := by
  unfold InTime
  split <;> infer_instance

/-- A charge has at most one collection entry, and has succeeded then. -/
def CollectedOnce (db : Database) : Prop :=
  ∀ id, collections db id ≤ 1 ∧
    (collections db id ≠ 0 → ∃ charge ∈ db.feeCharges, charge.id = id ∧ charge.status = .succeeded)

/-- The execution has found the charge open. -/
def FoundOpen (p : Process) : Prop :=
  match p.phase with
  | .seen charge outcome => isSettled charge outcome = false
  | .deciding charge _ outcome => isSettled charge outcome = false
  | _ => True

section Step
variable {db db' : Database} {charge : FeeCharge} {dunning : Option DunningState} {outcome : Outcome}

theorem CollectedOnce.of_same (h : CollectedOnce db) (hsame : SameCharges db db') :
    CollectedOnce db' := by
  intro id
  rw [hsame.collections id, hsame.charges]
  exact h id

theorem isSettled_ne_succeeded (h : isSettled charge outcome = false) :
    charge.status ≠ .succeeded := by
  intro hstatus
  cases outcome <;> simp [isSettled, isClosed, hstatus] at h

/-- A failure that is in time leaves the charges that have succeeded alone. -/
theorem CollectedOnce.set_status (h : CollectedOnce db) {row : FeeCharge} {status : FeeChargeStatus}
    (hrow : row ∈ db.feeCharges)
    (hintime : row.status = .succeeded → charge.status = status)
    (hcharges : db'.feeCharges =
      db.feeCharges.set { row with status := flushed charge.status status row.status })
    (hcollections : ∀ id, collections db' id = collections db id) : CollectedOnce db' := by
  intro id
  rw [hcollections id, hcharges]
  refine (h id).imp_right fun hsome hpos => ?_
  have hkey : row.id = ({ row with
    status := flushed charge.status status row.status } : FeeCharge).id := rfl
  refine Table.exists_mem_set hrow hkey (fun hP => ⟨hP.1, ?_⟩) (hsome hpos)
  show flushed charge.status status row.status = .succeeded
  rw [flushed, if_pos (hintime hP.2).symm]
  exact hP.2

/-- **A commit in time** keeps one collection per charge. -/
theorem CollectedOnce.applied (h : CollectedOnce db) (happlied : Applied charge db db' dunning outcome)
    (hopen : isSettled charge outcome = false)
    (hintime : ¬ (writesStatus charge dunning outcome ∧
      ∃ row ∈ db.feeCharges, row.id = charge.id ∧ row.status = .succeeded)) :
    CollectedOnce db' := by
  have hbefore := isSettled_ne_succeeded hopen
  cases happlied with
  | collected entryId row hrow hcharges hdunnings hcollections =>
    rename_i stripeChargeId
    obtain ⟨hmem, hid⟩ := Table.find_eq_some.mp hrow
    have hkey : row.id = (succeededCharge charge stripeChargeId entryId row).id := rfl
    have hstatus : (succeededCharge charge stripeChargeId entryId row).status = .succeeded := by
      show flushed charge.status .succeeded row.status = .succeeded
      rw [flushed, if_neg (Ne.symm hbefore)]
    intro id
    rw [hcollections id, hcharges]
    by_cases hthis : charge.id = id
    · have hzero : collections db id = 0 := by
        by_contra hpos
        obtain ⟨row', hrow', hid', hstatus'⟩ := (h id).2 hpos
        exact hintime ⟨rfl, row', hrow', hid'.trans hthis.symm, hstatus'⟩
      rw [if_pos hthis, hzero]
      exact ⟨le_rfl, fun _ => ⟨_, Table.mem_set_self hmem hkey, hid.trans hthis, hstatus⟩⟩
    · rw [if_neg hthis, add_zero]
      refine (h id).imp_right fun hsome hpos => ?_
      exact Table.exists_mem_set hmem hkey (fun hP => ⟨hP.1, hstatus⟩) (hsome hpos)
  | failed row d hrow hcharges hid hstatus hdunnings hcollections =>
    obtain ⟨hmem, hkey⟩ := Table.find_eq_some.mp hrow
    refine h.set_status hmem (fun hsucceeded => ?_) hcharges hcollections
    by_contra hne
    exact hintime ⟨by simp [writesStatus, hne], row, hmem, hkey, hsucceeded⟩
  | exhausted row row' drow hrow hcharges hdrow hdunnings hid hlast hcollections =>
    obtain ⟨hmem, hkey⟩ := Table.find_eq_some.mp hrow
    refine h.set_status hmem (fun hsucceeded => ?_) hcharges hcollections
    exact absurd ⟨by simpa [writesStatus] using hlast, row, hmem, hkey, hsucceeded⟩ hintime
  | retried row' drow hcharges hdrow hdunnings hid hstatus hmore hcollections =>
    intro id
    rw [hcollections id, hcharges]
    exact h id

theorem CollectedOnce.created (h : CollectedOnce db)
    (hcharges : db.feeCharges.insert charge = some db'.feeCharges)
    (hcollections : ∀ id, collections db' id = collections db id) : CollectedOnce db' := by
  intro id
  rw [hcollections id]
  refine (h id).imp_right fun hsome hpos => ?_
  obtain ⟨row, hrow, hid⟩ := hsome hpos
  exact ⟨row, (Table.mem_insert hcharges).mpr (Or.inl hrow), hid⟩

end Step

theorem collectedOnce_stable : Processes.Stable program (fun _ : ℕ => InTime)
    (fun w => CollectedOnce w.db) (fun _ _ => FoundOpen) where
  shared i a w p hok h hopen := by
    cases program_change i a w p with
    | kept hsame => exact h.of_same hsame
    | job hsame => exact h.of_same hsame
    | created charge job hstatus hstripe hcharges hpayload hpending hjobs hdunnings hcollections =>
      exact h.created hcharges hcollections
    | committed charge dunning outcome haction hphase happlied hjobs =>
      obtain ⟨env, maxAttempts, acknowledged, rfl⟩ := haction
      unfold InTime Overtaken at hok
      unfold FoundOpen at hopen
      rw [hphase] at hok hopen
      exact h.applied happlied hopen hok
  own i a w p _ _ hopen := by
    generalize hp' : (program i a w p).2 = p'
    have hmoves := program_moves i a w p
    rw [hp'] at hmoves
    cases hmoves with
    | stays => exact hopen
    | reads charge outcome hphase hfind hsettled => exact hsettled
    | finds charge stripeChargeId status outcome hphase hcharge hstripe hverdict hsettled =>
      exact hsettled
    | decides charge outcome hphase =>
      unfold FoundOpen at hopen
      rw [hphase] at hopen
      exact hopen
    | _ => trivial
  other _ _ _ _ _ _ _ _ _ _ hopen := hopen

/-- **One collection posting per charge.** In every run of executions of `charge_fee`, of the
webhook and of everything around them, in any interleaving, in which no commit is overtaken, every
charge has at most one `fee_charge_succeeded` entry. -/
theorem collected_once {db₀ : Database} (hstart : NoCharges db₀) {steps : List (ℕ × Action)}
    (hintime : Processes.Along program (fun _ => InTime) steps (start db₀)) (feeChargeId : Uuid) :
    collections (Processes.run program steps (start db₀)).shared.db feeChargeId ≤ 1 := by
  have hbegin : Processes.Holds (fun w => CollectedOnce w.db) (fun _ _ => FoundOpen) (start db₀) := by
    refine ⟨fun id => ?_, fun _ => trivial⟩
    show collections db₀ id ≤ 1 ∧ _
    rw [hstart.collections id]
    exact ⟨by omega, fun hpos => absurd (hstart.collections id) hpos⟩
  have hend := collectedOnce_stable.run hintime hbegin
  exact (hend.1 feeChargeId).1

/-! ### One fee, twice -/

/-- A fee has accrued in January. -/
def feeAccrued : Database :=
  feeRun [.offLedger fiveCloses, accrualOf 0 11, accrualOf 1 12] boughtShare

/-- A payment method of the customer. -/
def methodAttached : OffCharges where
  change := withMethod
  charges := feeCharges_withMethod
  dunnings _ := rfl
  jobs _ := rfl
  collections _ _ := rfl

/-- The fee is billed; process `0`, a worker, claims its row. -/
def billedAndClaimed : List (ℕ × Action) := [
  (0, .createPendingCharge (envAt (86400000000 * 31) 16) 1 firstOfFebruary),
  (0, .offCharges methodAttached), (0, .claim 16 "worker" (86400000000 * 31))]

/-- Two statements of a process. -/
def twoStatements (i : ℕ) (id : Uuid) : List (ℕ × Action) :=
  [(i, .proceed (envAt (86400000000 * 31) id) 4 true),
    (i, .proceed (envAt (86400000000 * 31) id) 4 true)]

/-- A commit of a process. -/
def commits (i : ℕ) (id : Uuid) (acknowledged : Bool) : ℕ × Action :=
  (i, .proceed (envAt (86400000000 * 31) id) 4 acknowledged)

/-- The provider has charged the payment method. -/
def chargeSucceeds (i : ℕ) : ℕ × Action := (i, .answer (.handle ⟨"ch", "succeeded"⟩))

/-- The worker charges the fee; the webhook and the dunning job come late. -/
def chargedOnce : List (ℕ × Action) :=
  billedAndClaimed ++ twoStatements 0 17 ++ [chargeSucceeds 0] ++ twoStatements 0 18 ++
    [commits 0 19 true, (0, .record 0 5), (1, .applyVerdict "ch" "succeeded")] ++ twoStatements 1 20 ++
    [(2, .chargeFee 16)] ++ twoStatements 2 21

theorem collected_once_by_the_worker :
    collections (Processes.run program chargedOnce (start feeAccrued)).shared.db 16 = 1 ∧
      ∀ feeChargeId,
        collections (Processes.run program chargedOnce (start feeAccrued)).shared.db feeChargeId ≤ 1 := by
  have hstart : NoCharges feeAccrued :=
    ⟨by decide +kernel, by decide +kernel, by decide +kernel, by decide +kernel⟩
  exact ⟨by decide +kernel, collected_once hstart (by decide +kernel)⟩

/-- The first charge is declined, and the worker does not learn that the failure was committed, so
that its row is pending again. Then the worker and the dunning job charge the fee at the same
time. -/
def chargedTwice : List (ℕ × Action) :=
  billedAndClaimed ++ twoStatements 0 17 ++ [(0, .answer .declined)] ++ twoStatements 0 18 ++
    [commits 0 19 false, (0, .record 0 5), (0, .claim 16 "worker" (86400000000 * 32)),
      (1, .chargeFee 16)] ++
    twoStatements 0 20 ++ twoStatements 1 21 ++ [chargeSucceeds 0, chargeSucceeds 1] ++
    twoStatements 0 22 ++ twoStatements 1 23 ++ [commits 0 24 true, commits 1 25 true]

/-- **Two overlapping executions collect one fee twice**, although the provider has charged it
once. -/
theorem overlapping_charges_collect_twice :
    (∀ h ∈ (Processes.run program chargedTwice (start feeAccrued)).shared.handles,
        h = (16, ⟨"ch", "succeeded"⟩)) ∧
      collections (Processes.run program chargedTwice (start feeAccrued)).shared.db 16 = 2 ∧
      payableQuanta (Processes.run program chargedTwice (start feeAccrued)).shared.db 1 =
        - payableQuanta feeAccrued 1 := by
  decide +kernel

end Trueup.Fees.Charging
