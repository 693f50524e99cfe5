import Trueup.Workers.OutboxWorkers

/-! # Rows in processing

A claim is committed before the handler runs, and only pending rows are claimed. A worker that stops
with a claimed row in hand, because it crashes or because it cannot record the outcome, leaves the
row in processing.

`processing_row_is_executed`: while no worker stops with a claimed row in hand, a row in processing
is executed by the worker that has locked it. `abandoned_row_stays`: a row in processing that nobody
executes stays so for ever. -/

namespace Trueup.OutboxWorkers

open Trueup.Core Trueup.Models Trueup.Lib

variable {π ι : Type}

/-- The worker does not stop with a row that it has claimed. -/
def FinishesRow (a : Action π) (phase : Phase π) : Bool :=
  match a, phase with
  | .crash, .idle => true
  | .crash, .claiming _ => true
  | .crash, _ => false
  | _, _ => true

section Step
variable {maxAttempts : ℕ} {w : String} {a : Action π} {q q' : Queue π} {phase phase' : Phase π}
  {row : JobOutbox π}

theorem lockedByWorker_of_owns (howns : Owns q w row) (hstatus : row.status = .processing) :
    lockedByWorker q row.id w = some row := by
  rcases howns.owner with hprocessing | ⟨hpending, -⟩
  · exact Outbox.lockedByWorker_eq_some.mpr ⟨⟨howns.mem, rfl⟩, hprocessing⟩
  · rw [hstatus] at hpending
    cases hpending

theorem finds_eq {found : JobOutbox π} (hrow : row ∈ q.rows)
    (hfound : lockedByWorker q row.id w = some found) : found = row :=
  (Table.eq_of_key_eq hrow (Outbox.lockedByWorker_eq_some.mp hfound).1.1
    (Outbox.lockedByWorker_eq_some.mp hfound).1.2.symm).symm

theorem mem_set_processing {hand hand' : JobOutbox π} (hrow : row ∈ q.rows.set hand')
    (hid : hand'.id = hand.id) (hstatus' : hand'.status ≠ .processing)
    (hstatus : row.status = .processing) : row ∈ q.rows ∧ some hand ≠ some row := by
  rcases Table.mem_set.mp hrow with ⟨hold, hne⟩ | ⟨rfl, -⟩
  · refine ⟨hold, fun heq => hne ?_⟩
    rw [hid, Option.some.inj heq]
  · exact absurd hstatus hstatus'

/-- **A row in processing after a step** is in hand, or it was in processing before and was not in
hand. -/
theorem Step.processing (h : Step maxAttempts w a q phase q' phase') (hhand : Holding q w phase)
    (hfinishes : FinishesRow a phase) (hrow : row ∈ q'.rows) (hstatus : row.status = .processing) :
    phase'.row = some row ∨ row ∈ q.rows ∧ phase.row ≠ some row := by
  have hsame : row ∈ q.rows → (phase.row = some row → phase'.row = some row) →
      phase'.row = some row ∨ row ∈ q.rows ∧ phase.row ≠ some row := by
    intro hmem hkept
    by_cases hinhand : phase.row = some row
    · exact Or.inl (hkept hinhand)
    · exact Or.inr ⟨hmem, hinhand⟩
  cases h with
  | stays => exact hsame hrow id
  | enqueues _ new rows hrows hattempts hpending =>
    rcases (Table.mem_insert hrows).mp hrow with hold | rfl
    · exact hsame hold id
    · rw [hstatus] at hpending
      cases hpending
  | selects new hnew hpending hfree => exact hsame hrow fun hnone => by cases hnone
  | claims hand current hcurrent =>
    obtain ⟨howns, hpending⟩ := hhand
    obtain rfl := current_eq howns.mem hcurrent
    rcases Table.mem_set.mp hrow with ⟨hold, hne⟩ | ⟨rfl, -⟩
    · exact Or.inr ⟨hold, fun heq => hne (congrArg JobOutbox.id (Option.some.inj heq)).symm⟩
    · exact Or.inl rfl
  | invokes hand => exact hsame hrow id
  | returns hand => exact hsame hrow id
  | raises hand => exact hsame hrow id
  | finds hand seen _ _ hphase hseen =>
    rcases hphase with ⟨rfl, rfl⟩ | ⟨rfl, _, rfl⟩
    · obtain rfl := finds_eq hhand.1.mem hseen
      exact hsame hrow id
    · obtain rfl := finds_eq hhand.1.mem hseen
      exact hsame hrow id
  | quits hand _ hphase hnone =>
    refine hsame hrow fun hinhand => ?_
    -- a row in processing is found by its worker
    obtain rfl := Option.some.inj (hphase.symm.trans hinhand)
    rw [lockedByWorker_of_owns (hhand.owns hand hphase) hstatus] at hnone
    cases hnone
  | completes seen current hcurrent =>
    obtain rfl := current_eq hhand.1.mem hcurrent
    rw [flush_self] at hrow
    exact Or.inr (mem_set_processing hrow rfl (fun h => by cases h) hstatus)
  | fails seen current nextAttemptAt hcurrent =>
    obtain rfl := current_eq hhand.1.mem hcurrent
    rw [flush_self] at hrow
    refine Or.inr (mem_set_processing hrow rfl ?_ hstatus)
    unfold JobOutbox.retried
    split_ifs
    · exact fun h => by cases h
    · exact fun h => by cases h
  | crashes _ haction =>
    subst haction
    refine hsame hrow fun hinhand => ?_
    cases phase with
    | claiming hand =>
      obtain rfl := Option.some.inj hinhand
      have hpending := hhand.2
      rw [hstatus] at hpending
      cases hpending
    | idle => cases hinhand
    | _ => cases hfinishes

theorem Step.not_in_hand (h : Step maxAttempts w a q phase q' phase') (hhand : Holding q w phase)
    (hrow : row ∈ q.rows) (hstatus : row.status = .processing) (hnot : phase.row ≠ some row) :
    phase'.row ≠ some row := by
  cases h with
  | stays => exact hnot
  | enqueues => exact hnot
  | selects new hnew hpending hfree =>
    rintro ⟨⟩
    rw [hstatus] at hpending
    cases hpending
  | claims hand current hcurrent =>
    obtain rfl := current_eq hhand.1.mem hcurrent
    intro heq
    refine hnot ?_
    have hsame : current.flush (current.claimed w) current = row := Option.some.inj heq
    have hid : current.id = row.id := by rw [← hsame, flush_id]
    exact congrArg some (Table.eq_of_key_eq hhand.1.mem hrow hid)
  | invokes hand => exact hnot
  | returns hand => exact hnot
  | raises hand => exact hnot
  | finds hand seen _ _ hphase hseen =>
    rcases hphase with ⟨rfl, rfl⟩ | ⟨rfl, _, rfl⟩
    · obtain rfl := finds_eq hhand.1.mem hseen
      exact hnot
    · obtain rfl := finds_eq hhand.1.mem hseen
      exact hnot
  | quits => exact fun h => by cases h
  | completes => exact fun h => by cases h
  | fails => exact fun h => by cases h
  | crashes => exact fun h => by cases h

end Step

section Run
variable [DecidableEq ι] (fleet : Fleet ι)

/-- The row is executed by the worker that has locked it. -/
def Executed (c : Processes.Config ι (Queue π) (Phase π)) (row : JobOutbox π) : Prop :=
  ∃ i, (c.locals i).row = some row ∧ row.lockedBy = some (fleet.workerId i)

/-- **One action** that does not leave a row behind. -/
theorem executed_act {c : Processes.Config ι (Queue π) (Phase π)} {step : ι × Action π}
    (hok : Ok fleet c) (hfinishes : FinishesRow step.2 (c.locals step.1))
    (h : ∀ row ∈ c.shared.rows, row.status = .processing → ∃ i, (c.locals i).row = some row) :
    ∀ row ∈ (Processes.act (program fleet) step c).shared.rows, row.status = .processing →
      ∃ i, ((Processes.act (program fleet) step c).locals i).row = some row := by
  intro row hrow hstatus
  have hstep := program_step fleet step.1 step.2 c.shared (c.locals step.1)
  rcases hstep.processing (hok.2 step.1) hfinishes hrow hstatus with hinhand | ⟨hold, hnot⟩
  · refine ⟨step.1, ?_⟩
    show (Function.update c.locals step.1 _ step.1).row = some row
    rw [Function.update_self]
    exact hinhand
  · obtain ⟨j, hj⟩ := h row hold hstatus
    have hne : j ≠ step.1 := fun heq => hnot (heq ▸ hj)
    refine ⟨j, ?_⟩
    show (Function.update c.locals step.1 _ j).row = some row
    rw [Function.update_of_ne hne]
    exact hj

/-- **No stuck outbox work**, in every interleaving of workers none of which stops with a claimed
row in hand: a row is pending, final, or in processing and executed by the worker that has locked
it. -/
theorem processing_row_is_executed {steps : List (ι × Action π)}
    (hfinish : Processes.Along (program fleet)
      (fun _ a _ phase => FinishesRow a phase) steps (start : Processes.Config ι (Queue π) (Phase π))) :
    ∀ row ∈ (Processes.run (program fleet) steps start).shared.rows,
      row.status = .pending ∨ row.isFinal ∨
        row.status = .processing ∧ Executed fleet (Processes.run (program fleet) steps start) row := by
  have hkept := Processes.run_keeps
    (I := fun c => Ok fleet c ∧
      ∀ row ∈ c.shared.rows, row.status = .processing → ∃ i, (c.locals i).row = some row)
    (fun step c hok hc =>
      ⟨(outbox_stable fleet).act trivial hc.1, executed_act fleet hc.1 hok hc.2⟩)
    hfinish ⟨ok_start fleet, fun row hrow => by cases hrow⟩
  obtain ⟨hok, hexecuted⟩ := hkept
  intro row hrow
  cases hstatus : row.status with
  | pending => exact Or.inl rfl
  | completed => exact Or.inr (Or.inl (by simp [JobOutbox.isFinal, hstatus]))
  | deadLetter => exact Or.inr (Or.inl (by simp [JobOutbox.isFinal, hstatus]))
  | processing =>
    obtain ⟨i, hi⟩ := hexecuted row hrow hstatus
    refine Or.inr (Or.inr ⟨rfl, i, hi, ?_⟩)
    rcases ((hok.2 i).owns row hi).owner with ⟨-, hlocked⟩ | ⟨hpending, -⟩
    · exact hlocked
    · rw [hstatus] at hpending
      cases hpending

/-- **An abandoned row** is never touched again, whatever the workers do. -/
theorem abandoned_row_stays {c : Processes.Config ι (Queue π) (Phase π)} {row : JobOutbox π}
    (hok : Ok fleet c) (hrow : row ∈ c.shared.rows) (hstatus : row.status = .processing)
    (hnobody : ∀ i, (c.locals i).row ≠ some row) (steps : List (ι × Action π)) :
    row ∈ (Processes.run (program fleet) steps c).shared.rows ∧
      ∀ i, ((Processes.run (program fleet) steps c).locals i).row ≠ some row := by
  have hkept := Processes.run_keeps
    (I := fun c => Ok fleet c ∧ row ∈ c.shared.rows ∧ ∀ i, (c.locals i).row ≠ some row)
    (fun step c _ hc => by
      obtain ⟨hok, hrow, hnobody⟩ := hc
      refine ⟨(outbox_stable fleet).act trivial hok,
        mem_act fleet hok hrow step fun hand hhand heq => hnobody step.1 (heq ▸ hhand), fun i => ?_⟩
      show (Function.update c.locals step.1 _ i).row ≠ some row
      by_cases hi : i = step.1
      · subst hi
        rw [Function.update_self]
        exact (program_step fleet step.1 step.2 c.shared _).not_in_hand (hok.2 step.1) hrow hstatus
          (hnobody step.1)
      · rw [Function.update_of_ne hi]
        exact hnobody i)
    (Processes.along_true (program fleet) steps c) ⟨hok, hrow, hnobody⟩
  exact hkept.2

end Run

/-- One worker crashes while it claims a row; the other one executes it. -/
def crashBeforeClaim : List (Bool × Action Unit) :=
  [(false, .enqueue 1 () 0), (false, .select 0), (false, .crash)] ++ (drainOnce true 0 true).take 3

theorem processing_row_is_executed_by_the_other :
    ∃ row ∈ (Processes.run (program twoWorkers) crashBeforeClaim start).shared.rows,
      row.status = .processing ∧
        Executed twoWorkers (Processes.run (program twoWorkers) crashBeforeClaim start) row := by
  have hprocessing : ∃ row ∈
      (Processes.run (program twoWorkers) crashBeforeClaim start).shared.rows.rows,
      row.status = .processing := by decide
  obtain ⟨row, hrow, hstatus⟩ := hprocessing
  have hfinish : Processes.Along (program twoWorkers) (fun _ a _ phase => FinishesRow a phase)
      crashBeforeClaim start := by decide
  have hcases := processing_row_is_executed twoWorkers hfinish row hrow
  refine ⟨row, hrow, hstatus, ?_⟩
  rcases hcases with hpending | hfinal | hexecuted
  · rw [hstatus] at hpending
    cases hpending
  · simp [JobOutbox.isFinal, hstatus] at hfinal
  · exact hexecuted.2

/-- A worker crashes while its handler runs. -/
def crashInHandler : List (Bool × Action Unit) :=
  (false, .enqueue 1 () 0) :: (drainOnce false 0 true).take 3 ++ [(false, .crash)]

/-- The row it had claimed. -/
def claimedRow : JobOutbox Unit := ⟨1, (), 1, 0, .processing, some "outbox-worker-1", 0⟩

/-- **A crash strands the row**: it is in processing, nobody executes it, and this stays so whatever
the workers do afterwards. -/
theorem crash_strands_a_row :
    claimedRow ∈ (Processes.run (program twoWorkers) crashInHandler start).shared.rows ∧
      ∀ more, claimedRow ∈ (Processes.run (program twoWorkers) more
          (Processes.run (program twoWorkers) crashInHandler start)).shared.rows ∧
        ¬ Executed twoWorkers (Processes.run (program twoWorkers) more
          (Processes.run (program twoWorkers) crashInHandler start)) claimedRow := by
  have hrow : claimedRow ∈
      (Processes.run (program twoWorkers) crashInHandler start).shared.rows.rows := by decide
  have hnobody : ∀ i, ((Processes.run (program twoWorkers) crashInHandler start).locals i).row ≠
      some claimedRow := by decide
  refine ⟨hrow, fun more => ?_⟩
  have hstays := abandoned_row_stays twoWorkers (ok_run twoWorkers crashInHandler (ok_start twoWorkers))
    hrow rfl hnobody more
  refine ⟨hstays.1, ?_⟩
  rintro ⟨i, hi, -⟩
  exact hstays.2 i hi

end Trueup.OutboxWorkers
