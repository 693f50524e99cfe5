import Mathlib.Data.List.Basic
import Trueup.Core.Calendar
import Trueup.Core.Clock
import Trueup.Lib.Locks
import Trueup.Lib.Processes

/-! # Scheduled jobs

`ScheduledJob.run` by any number of processes, in any order of their statements, with jobs that raise,
processes that are interrupted or die, and an unlock that may run on another connection of the pool
than the one that took the lock.

`perform` commits its own transactions, and `run` records its `job_run` row in one more.

* `Step`: what a statement does.
* `Sound`, `Knows`: what the tables say and what a process knows; no statement breaks them
  (`scheduledJob_stable`).
* `performs_are_serial`: the transactions of two runs of a job are never mixed.
* `recorded_run_is_final`: a row, once there, stays as it is; a daily or monthly key is answered
  `completed` at most once, and then its row says so, so a key whose row is `failed` never is. -/

namespace Trueup.Jobs

open Trueup.Core Trueup.Models Trueup.Lib

deriving instance DecidableEq for CalendarDate

/-! ### The table -/

inductive JobCadence
  | daily | monthly | continuous
  deriving DecidableEq, Repr

inductive JobRunStatus
  | started | completed | failed | skipped
  deriving DecidableEq, Repr

inductive JobOutcome
  | completed | skipped
  deriving DecidableEq, Repr

/-- A job; what its `perform` does are the transactions it commits. -/
structure ScheduledJob where
  jobName : String
  cadence : JobCadence
  deriving DecidableEq

structure JobRun where
  jobName : String
  cadence : JobCadence
  marketDate : CalendarDate
  status : JobRunStatus
  completedAt : Option Instant
  error : Option String
  deriving DecidableEq

/-- The row as `run` builds it. -/
def JobRun.started (job : ScheduledJob) (marketDate : CalendarDate) : JobRun :=
  ⟨job.jobName, job.cadence, marketDate, .started, none, none⟩

def JobRun.complete (run : JobRun) (now : Instant) : JobRun :=
  { run with status := .completed, completedAt := some now }

def JobRun.fail (run : JobRun) (now : Instant) (error : String) : JobRun :=
  { run with status := .failed, completedAt := some now, error := some error }

/-- An entry of the partial unique indexes. -/
inductive IndexEntry
  | uqJobRunDailyNameMarketDate (jobName : String) (marketDate : CalendarDate)
  /-- the second column is `job_run_month_start(market_date)` -/
  | uqJobRunMonthlyNameMarketMonth (jobName : String) (marketMonth : CalendarDate)
  deriving DecidableEq

def JobRun.entry (run : JobRun) : Option IndexEntry :=
  match run.cadence with
  | .daily => some (.uqJobRunDailyNameMarketDate run.jobName run.marketDate)
  | .monthly => some (.uqJobRunMonthlyNameMarketMonth run.jobName run.marketDate.firstOfMonth)
  | .continuous => none

/-! ### The processes -/

/-- A call of `run`: the process, the number of calls before it, and the row as it builds it. -/
structure Call (ι : Type) where
  process : ι
  number : ℕ
  run : JobRun
  deriving DecidableEq

inductive Answer
  | returned (outcome : JobOutcome)
  | raised
  deriving DecidableEq

/-- The committed rows with the calls that wrote them, the session-level advisory locks, the calls so
far, the transactions of the `perform`s and the answers given. -/
structure Shared (ι τ : Type) where
  runs : List (Call ι × JobRun)
  locks : Locks ℤ ι
  calls : List (Call ι)
  work : List (Call ι × τ)
  answers : List (Call ι × Answer)

/-- Where a process is. -/
inductive Phase (ι : Type)
  | idle
  | performing (call : Call ι)
  /-- at the `finally`, with what `run` is about to answer -/
  | releasing (call : Call ι) (answer : Answer)

/-- What the statement of `release_advisory_lock` meets. -/
inductive Unlock
  | unlocked
  /-- another connection of the pool, which does not have the lock -/
  | notOwned
  /-- a session that can no longer execute -/
  | raised
  deriving DecidableEq

inductive Action (τ : Type)
  /-- `try_advisory_lock`, on the connection of an earlier run of the process or on another -/
  | tryAdvisoryLock (job : ScheduledJob) (marketDate : CalendarDate) (sameConnection : Bool)
  /-- `perform` commits a transaction -/
  | work (transaction : τ)
  /-- `perform` returns -/
  | complete (now : Instant)
  /-- `perform` raises an `Exception` -/
  | fail (now : Instant) (error : String)
  /-- `perform` raises another `BaseException`, or the row cannot be committed -/
  | interrupt
  | releaseAdvisoryLock (unlock : Unlock)
  /-- the process ends, and its connections with it -/
  | exit

section Program
variable {ι τ : Type} [DecidableEq ι] (hashtext : String → ℤ)

/-- The advisory lock of a call. -/
def Call.key (call : Call ι) : ℤ := hashtext call.run.jobName

/-- `pg_try_advisory_lock`: the lock is free, or it is held by the same connection. -/
def Shared.Gets (shared : Shared ι τ) (i : ι) (k : ℤ) (sameConnection : Bool) : Prop :=
  shared.locks k = none ∨ shared.locks k = some i ∧ sameConnection = true

instance (shared : Shared ι τ) (i : ι) (k : ℤ) (sameConnection : Bool) :
    Decidable (shared.Gets i k sameConnection) := inferInstanceAs (Decidable (_ ∨ _))

/-- The row violates a unique index. -/
def Shared.Violates (shared : Shared ι τ) (run : JobRun) : Prop :=
  ∃ row ∈ shared.runs, row.2.entry = run.entry ∧ run.entry ≠ none

instance (shared : Shared ι τ) (run : JobRun) : Decidable (shared.Violates run) :=
  inferInstanceAs (Decidable (∃ _ ∈ _, _))

/-- The commit of the row; where it fails `run` raises, and so does the commit of its handler. -/
def Shared.commit (shared : Shared ι τ) (call : Call ι) (run : JobRun) (answer : Answer) :
    Shared ι τ × Phase ι :=
  if shared.Violates run then (shared, .releasing call .raised)
  else ({ shared with runs := shared.runs ++ [(call, run)] }, .releasing call answer)

/-- `run` answers. -/
def Shared.answer (shared : Shared ι τ) (call : Call ι) (answer : Answer) : Shared ι τ :=
  { shared with answers := shared.answers ++ [(call, answer)] }

/-- `ScheduledJob.run`, statement by statement. -/
def program : Processes.Program ι (Action τ) (Shared ι τ) (Phase ι)
  | i, .tryAdvisoryLock job marketDate sameConnection, shared, .idle =>
    let call : Call ι := ⟨i, shared.calls.length, .started job marketDate⟩
    let called := { shared with calls := shared.calls ++ [call] }
    if shared.Gets i (call.key hashtext) sameConnection then
      ({ called with locks := shared.locks.take i [call.key hashtext] }, .performing call)
    else (called.answer call (.returned .skipped), .idle)
  | _, .work transaction, shared, .performing call =>
    ({ shared with work := shared.work ++ [(call, transaction)] }, .performing call)
  | _, .complete now, shared, .performing call =>
    shared.commit call (call.run.complete now) (.returned .completed)
  | _, .fail now error, shared, .performing call => shared.commit call (call.run.fail now error) .raised
  | _, .interrupt, shared, .performing call => (shared, .releasing call .raised)
  | _, .releaseAdvisoryLock unlock, shared, .releasing call answer =>
    match unlock with
    | .unlocked => ({ shared.answer call answer with
        locks := Function.update shared.locks (call.key hashtext) none }, .idle)
    | .notOwned => (shared.answer call answer, .idle)
    | .raised => (shared.answer call .raised, .idle)
  | i, .exit, shared, _ => ({ shared with locks := shared.locks.release i }, .idle)
  | _, _, shared, phase => (shared, phase)

end Program

/-- Empty tables, and idle processes. -/
def start {ι τ : Type} : Processes.Config ι (Shared ι τ) (Phase ι) :=
  ⟨⟨[], fun _ => none, [], [], []⟩, fun _ => .idle⟩

/-! ### What a statement did -/

section Invariant
variable {ι τ : Type} {hashtext : String → ℤ} {i j : ι} {a : Action τ} {shared shared' : Shared ι τ}
  {phase phase' other : Phase ι}

/-- The row of a run of the call, and what `run` answers with it. -/
structure Ended (call : Call ι) (run : JobRun) (answer : Answer) : Prop where
  entry : run.entry = call.run.entry
  completed : answer = .returned .completed → run.status = .completed
  performed : answer ≠ .returned .skipped

/-- What a statement of the process `i` did to the tables and to the process. -/
inductive Step (hashtext : String → ℤ) (i : ι) (shared : Shared ι τ) :
    Phase ι → Shared ι τ → Phase ι → Prop
  | stays (phase : Phase ι) : Step hashtext i shared phase shared phase
  | gets (run : JobRun) (free : shared.locks.FreeFor i (hashtext run.jobName)) :
      Step hashtext i shared .idle
        { shared with
          calls := shared.calls ++ [⟨i, shared.calls.length, run⟩]
          locks := shared.locks.take i [hashtext run.jobName] }
        (.performing ⟨i, shared.calls.length, run⟩)
  | skips (run : JobRun) :
      Step hashtext i shared .idle
        { shared with
          calls := shared.calls ++ [⟨i, shared.calls.length, run⟩]
          answers := shared.answers ++ [(⟨i, shared.calls.length, run⟩, .returned .skipped)] } .idle
  | works (call : Call ι) (transaction : τ) :
      Step hashtext i shared (.performing call)
        { shared with work := shared.work ++ [(call, transaction)] } (.performing call)
  | records (call : Call ι) (run : JobRun) (answer : Answer) (ended : Ended call run answer)
      (fits : ¬ shared.Violates run) :
      Step hashtext i shared (.performing call) { shared with runs := shared.runs ++ [(call, run)] }
        (.releasing call answer)
  | raises (call : Call ι) : Step hashtext i shared (.performing call) shared (.releasing call .raised)
  | answers (call : Call ι) (pending answer : Answer) (same : answer = pending ∨ answer = .raised)
      (locks : Locks ℤ ι) (freed : ∀ k, locks k = shared.locks k ∨
        k = hashtext call.run.jobName ∧ locks k = none) :
      Step hashtext i shared (.releasing call pending) { shared.answer call answer with locks } .idle
  | exits (phase : Phase ι) (locks : Locks ℤ ι)
      (freed : ∀ k, locks k = shared.locks k ∨ shared.locks k = some i ∧ locks k = none) :
      Step hashtext i shared phase { shared with locks } .idle

theorem step_commit {call : Call ι} {run : JobRun} {answer : Answer} (ended : Ended call run answer) :
    Step hashtext i shared (.performing call) (shared.commit call run answer).1
      (shared.commit call run answer).2 := by
  unfold Shared.commit
  split_ifs with hviolates
  · exact .raises call
  · exact .records call run answer ended hviolates

/-- **What a statement did.** -/
theorem program_step [DecidableEq ι] (i : ι) (a : Action τ) (shared : Shared ι τ) (phase : Phase ι) :
    Step hashtext i shared phase (program hashtext i a shared phase).1
      (program hashtext i a shared phase).2 := by
  unfold program
  split
  · rename_i job marketDate sameConnection
    dsimp only
    split_ifs with hgets
    · exact .gets (.started job marketDate) (hgets.imp_right And.left)
    · exact .skips (.started job marketDate)
  · exact .works _ _
  · exact step_commit ⟨rfl, fun _ => rfl, by decide⟩
  · exact step_commit ⟨rfl, fun h => (by cases h), by decide⟩
  · exact .raises _
  · rename_i unlock call answer
    cases unlock with
    | unlocked =>
      refine .answers call answer answer (Or.inl rfl) _ fun k => ?_
      by_cases hk : k = call.key hashtext
      · exact Or.inr ⟨hk, hk ▸ Function.update_self _ _ _⟩
      · exact Or.inl (Function.update_of_ne hk _ _)
    | notOwned => exact .answers call answer answer (Or.inl rfl) shared.locks fun _ => Or.inl rfl
    | raised => exact .answers call answer .raised (Or.inr rfl) shared.locks fun _ => Or.inl rfl
  · refine .exits _ _ fun k => ?_
    unfold Locks.release
    split_ifs with hown
    · exact Or.inr ⟨hown, rfl⟩
    · exact Or.inl rfl
  · exact .stays _

/-! ### What the tables say -/

/-- The call is one of those so far. -/
def Shared.Called (shared : Shared ι τ) (call : Call ι) : Prop :=
  shared.calls[call.number]? = some call

theorem Shared.Called.eq {call call' : Call ι} (h : shared.Called call) (h' : shared.Called call')
    (hnumber : call.number = call'.number) : call = call' := by
  unfold Shared.Called at h h'
  rw [hnumber, h'] at h
  exact (Option.some.inj h).symm

theorem Shared.Called.lt {call : Call ι} (h : shared.Called call) :
    call.number < shared.calls.length := (List.getElem?_eq_some_iff.mp h).1

/-- The two calls are of the same job. -/
def Call.SameJob (call call' : Call ι) : Prop := call.run.jobName = call'.run.jobName

/-- What the tables say. -/
structure Sound (shared : Shared ι τ) : Prop where
  runs : ∀ row ∈ shared.runs, shared.Called row.1 ∧ row.2.entry = row.1.run.entry
  entries : shared.runs.Pairwise fun row row' => row.2.entry = none ∨ row.2.entry ≠ row'.2.entry
  work : ∀ w ∈ shared.work, shared.Called w.1
  serial : shared.work.Pairwise fun w w' => w.1.SameJob w'.1 → w.1.number ≤ w'.1.number
  answers : ∀ answered ∈ shared.answers, shared.Called answered.1
  once : (shared.answers.map (·.1.number)).Nodup
  completed : ∀ answered ∈ shared.answers, answered.2 = .returned .completed →
    ∃ run, (answered.1, run) ∈ shared.runs ∧ run.status = .completed
  skipped : ∀ answered ∈ shared.answers, answered.2 = .returned .skipped →
    (∀ w ∈ shared.work, w.1 ≠ answered.1) ∧ ∀ row ∈ shared.runs, row.1 ≠ answered.1

/-- The process is in the call, has its lock and has not answered it. -/
structure Holding (hashtext : String → ℤ) (i : ι) (shared : Shared ι τ) (call : Call ι) : Prop where
  process : call.process = i
  called : shared.Called call
  lock : shared.locks (hashtext call.run.jobName) = some i
  unanswered : ∀ answered ∈ shared.answers, answered.1.number ≠ call.number

/-- What a process knows. -/
def Knows (hashtext : String → ℤ) (i : ι) (shared : Shared ι τ) : Phase ι → Prop
  | .idle => True
  | .performing call => Holding hashtext i shared call ∧
      ∀ w ∈ shared.work, w.1.SameJob call → w.1.number ≤ call.number
  | .releasing call answer => Holding hashtext i shared call ∧ answer ≠ .returned .skipped ∧
      (answer = .returned .completed → ∃ run, (call, run) ∈ shared.runs ∧ run.status = .completed)

/-- What a statement of the process `i` leaves alone: the calls and rows that are there, the locks of
the others, and the answers and the work of the calls that are not its own. -/
structure Frame (hashtext : String → ℤ) (i : ι) (shared shared' : Shared ι τ) : Prop where
  calls : ∀ call, shared.Called call → shared'.Called call
  runs : ∀ row ∈ shared.runs, row ∈ shared'.runs
  locks : ∀ j, i ≠ j → shared.locks.Keeps shared'.locks j
  answers : ∀ answered ∈ shared'.answers, answered ∈ shared.answers ∨ answered.1.process = i
  work : ∀ w ∈ shared'.work, w ∈ shared.work ∨ shared.locks (hashtext w.1.run.jobName) = some i

theorem called_append {call : Call ι} (calls : List (Call ι)) (h : shared.Called call) :
    (shared.calls ++ calls)[call.number]? = some call := by
  rw [List.getElem?_append_left h.lt]
  exact h

theorem called_last (call : Call ι) (h : call.number = shared.calls.length) :
    (shared.calls ++ [call])[call.number]? = some call := by
  rw [h, List.getElem?_concat_length]

theorem Sound.answered_lt (hsound : Sound shared) {answered : Call ι × Answer}
    (h : answered ∈ shared.answers) : answered.1.number < shared.calls.length :=
  (hsound.answers answered h).lt

/-- **A statement leaves the others' calls alone.** -/
theorem Step.frame (h : Step hashtext i shared phase shared' phase')
    (hknows : Knows hashtext i shared phase) : Frame hashtext i shared shared' := by
  have hsame : Frame hashtext i shared shared :=
    ⟨fun _ h => h, fun _ h => h, fun j _ => .refl _ j, fun _ h => Or.inl h, fun _ h => Or.inl h⟩
  cases h with
  | stays => exact hsame
  | raises => exact hsame
  | gets run free =>
    exact { hsame with
      calls := fun call hcall => called_append _ hcall
      locks := fun j hij => Locks.keeps_take_other (by simpa using free) hij }
  | skips run =>
    refine { hsame with calls := fun call hcall => called_append _ hcall, answers := fun _ hmem => ?_ }
    refine (List.mem_append.mp hmem).imp_right fun hnew => ?_
    rw [List.mem_singleton.mp hnew]
  | works call transaction =>
    refine { hsame with work := fun w hw => (List.mem_append.mp hw).imp_right fun hnew => ?_ }
    rw [List.mem_singleton.mp hnew]
    exact hknows.1.lock
  | records call run answer ended fits =>
    exact { hsame with runs := fun row hrow => List.mem_append_left _ hrow }
  | answers call pending answer same locks freed =>
    refine { hsame with locks := fun j hij k hk => ?_, answers := fun _ hmem => ?_ }
    · rcases freed k with heq | ⟨rfl, -⟩
      · exact heq.trans hk
      · exact absurd (Option.some.inj (hknows.1.lock.symm.trans hk)) hij
    · refine (List.mem_append.mp hmem).imp_right fun hnew => ?_
      rw [List.mem_singleton.mp hnew]
      exact hknows.1.process
  | exits phase locks freed =>
    refine { hsame with locks := fun j hij k hk => ?_ }
    rcases freed k with heq | ⟨hown, -⟩
    · exact heq.trans hk
    · exact absurd (Option.some.inj (hown.symm.trans hk)) hij

/-- **What the tables say** after a statement. -/
theorem Step.sound (h : Step hashtext i shared phase shared' phase')
    (hknows : Knows hashtext i shared phase) (hsound : Sound shared) : Sound shared' := by
  have hcalls := (h.frame hknows).calls
  cases h with
  | stays => exact hsound
  | raises => exact hsound
  | exits => exact ⟨hsound.runs, hsound.entries, hsound.work, hsound.serial, hsound.answers, hsound.once,
      hsound.completed, hsound.skipped⟩
  | gets run free =>
    exact { hsound with
      runs := fun row hrow => (hsound.runs row hrow).imp_left (hcalls _)
      work := fun w hw => hcalls _ (hsound.work w hw)
      answers := fun answered h => hcalls _ (hsound.answers answered h) }
  | skips run =>
    refine { hsound with
      runs := fun row hrow => (hsound.runs row hrow).imp_left (hcalls _)
      work := fun w hw => hcalls _ (hsound.work w hw)
      answers := fun answered hmem => ?_
      once := ?_
      completed := fun answered hmem hcompleted => ?_
      skipped := fun answered hmem hskipped => ?_ }
    · rcases List.mem_append.mp hmem with hold | hnew
      · exact hcalls _ (hsound.answers answered hold)
      · rw [List.mem_singleton.mp hnew]
        exact called_last _ rfl
    · rw [List.map_append]
      refine List.nodup_append'.mpr ⟨hsound.once, List.nodup_singleton _, fun n hold hnew => ?_⟩
      obtain ⟨answered, hmem, rfl⟩ := List.mem_map.mp hold
      exact (hsound.answered_lt hmem).ne (List.mem_singleton.mp hnew)
    · rcases List.mem_append.mp hmem with hold | hnew
      · exact hsound.completed answered hold hcompleted
      · rw [List.mem_singleton.mp hnew] at hcompleted
        cases hcompleted
    · rcases List.mem_append.mp hmem with hold | hnew
      · exact hsound.skipped answered hold hskipped
      · -- the number of the call is new
        rw [List.mem_singleton.mp hnew]
        refine ⟨fun w hw heq => (hsound.work w hw).lt.ne ?_, fun row hrow heq =>
          (hsound.runs row hrow).1.lt.ne ?_⟩ <;> rw [heq]
  | works call transaction =>
    obtain ⟨hholding, hlast⟩ := hknows
    refine { hsound with work := fun w hw => ?_, serial := ?_, skipped := fun answered hmem h => ?_ }
    · rcases List.mem_append.mp hw with hold | hnew
      · exact hsound.work w hold
      · rw [List.mem_singleton.mp hnew]
        exact hholding.called
    · refine List.pairwise_append.mpr ⟨hsound.serial, List.pairwise_singleton _ _, ?_⟩
      intro w hw w' hw' hjob
      rw [List.mem_singleton.mp hw'] at hjob ⊢
      exact hlast w hw hjob
    · refine (hsound.skipped answered hmem h).imp_left fun hwork w hw => ?_
      rcases List.mem_append.mp hw with hold | hnew
      · exact hwork w hold
      · rw [List.mem_singleton.mp hnew]
        exact fun heq => hholding.unanswered answered hmem (by rw [← heq])
  | records call run answer ended fits =>
    refine { hsound with
      runs := fun row hrow => ?_
      entries := ?_
      completed := fun answered h hc => ?_
      skipped := fun answered hmem h => ?_ }
    · rcases List.mem_append.mp hrow with hold | hnew
      · exact hsound.runs row hold
      · rw [List.mem_singleton.mp hnew]
        exact ⟨hknows.1.called, ended.entry⟩
    · refine List.pairwise_append.mpr ⟨hsound.entries, List.pairwise_singleton _ _, ?_⟩
      intro row hrow row' hrow'
      rw [List.mem_singleton.mp hrow']
      by_contra hboth
      obtain ⟨hentry, heq⟩ := not_or.mp hboth
      rw [not_not] at heq
      exact fits ⟨row, hrow, heq, fun hnone => hentry (heq.trans hnone)⟩
    · obtain ⟨run', hrow, hstatus⟩ := hsound.completed answered h hc
      exact ⟨run', List.mem_append_left _ hrow, hstatus⟩
    · refine (hsound.skipped answered hmem h).imp_right fun hruns row hrow => ?_
      rcases List.mem_append.mp hrow with hold | hnew
      · exact hruns row hold
      · rw [List.mem_singleton.mp hnew]
        exact fun heq => hknows.1.unanswered answered hmem (by rw [← heq])
  | answers call pending answer same locks freed =>
    obtain ⟨hholding, hperformed, hpending⟩ := hknows
    refine ⟨hsound.runs, hsound.entries, hsound.work, hsound.serial, fun answered hmem => ?_, ?_,
      fun answered hmem hcompleted => ?_, fun answered hmem hskipped => ?_⟩
    · rcases List.mem_append.mp hmem with hold | hnew
      · exact hsound.answers answered hold
      · rw [List.mem_singleton.mp hnew]
        exact hholding.called
    · unfold Shared.answer
      rw [List.map_append]
      refine List.nodup_append'.mpr ⟨hsound.once, List.nodup_singleton _, fun n hold hnew => ?_⟩
      obtain ⟨answered, hmem, rfl⟩ := List.mem_map.mp hold
      exact hholding.unanswered answered hmem (List.mem_singleton.mp hnew)
    · rcases List.mem_append.mp hmem with hold | hnew
      · exact hsound.completed answered hold hcompleted
      · rw [List.mem_singleton.mp hnew] at hcompleted ⊢
        rcases same with rfl | rfl
        · exact hpending hcompleted
        · cases hcompleted
    · rcases List.mem_append.mp hmem with hold | hnew
      · exact hsound.skipped answered hold hskipped
      · rw [List.mem_singleton.mp hnew] at hskipped
        rcases same with rfl | rfl
        · exact absurd hskipped hperformed
        · cases hskipped

/-- **What a process knows** after a statement of its own. -/
theorem Step.knows (h : Step hashtext i shared phase shared' phase') (hsound : Sound shared)
    (hknows : Knows hashtext i shared phase) : Knows hashtext i shared' phase' := by
  cases h with
  | stays => exact hknows
  | gets run free =>
    refine ⟨⟨rfl, called_last _ rfl, Locks.take_mem (by simp), fun answered hmem => ?_⟩, fun w hw _ => ?_⟩
    · exact (hsound.answered_lt hmem).ne
    · exact (hsound.work w hw).lt.le
  | works call transaction =>
    obtain ⟨hholding, hlast⟩ := hknows
    refine ⟨⟨hholding.process, hholding.called, hholding.lock, hholding.unanswered⟩, fun w hw hjob => ?_⟩
    rcases List.mem_append.mp hw with hold | hnew
    · exact hlast w hold hjob
    · rw [List.mem_singleton.mp hnew]
  | records call run answer ended fits =>
    obtain ⟨hholding, -⟩ := hknows
    exact ⟨⟨hholding.process, hholding.called, hholding.lock, hholding.unanswered⟩,
      ended.performed, fun hcompleted => ⟨run, List.mem_append_right _ (List.mem_singleton_self _),
        ended.completed hcompleted⟩⟩
  | raises call => exact ⟨hknows.1, by decide, fun h => (by cases h)⟩
  | skips => trivial
  | answers => trivial
  | exits => trivial

/-- **A process does not interfere with another.** -/
theorem Knows.undisturbed (hij : i ≠ j) (hframe : Frame hashtext i shared shared')
    (hsound : Sound shared') (h : Knows hashtext j shared other) : Knows hashtext j shared' other := by
  have hholding : ∀ call, Holding hashtext j shared call → Holding hashtext j shared' call := by
    intro call hcall
    have hcalled := hframe.calls call hcall.called
    refine ⟨hcall.process, hcalled, hframe.locks j hij _ hcall.lock, fun answered hmem hnumber => ?_⟩
    rcases hframe.answers answered hmem with hold | hnew
    · exact hcall.unanswered answered hold hnumber
    · -- one number is one call, and the answer is of a call of the other process
      have heq := (hsound.answers answered hmem).eq hcalled hnumber
      rw [heq, hcall.process] at hnew
      exact hij hnew.symm
  cases other with
  | idle => trivial
  | performing call =>
    refine ⟨hholding call h.1, fun w hw hjob => ?_⟩
    rcases hframe.work w hw with hold | hlock
    · exact h.2 w hold hjob
    · rw [show w.1.run.jobName = call.run.jobName from hjob, h.1.lock] at hlock
      exact absurd (Option.some.inj hlock).symm hij
  | releasing call answer =>
    refine ⟨hholding call h.1, h.2.1, fun hcompleted => ?_⟩
    obtain ⟨run, hrow, hstatus⟩ := h.2.2 hcompleted
    exact ⟨run, hframe.runs _ hrow, hstatus⟩

end Invariant

section Runs
variable {ι τ : Type} [DecidableEq ι] (hashtext : String → ℤ)

/-- **No statement breaks the invariant.** -/
theorem scheduledJob_stable : Processes.Stable (program (ι := ι) (τ := τ) hashtext)
    (fun _ _ _ _ => True) Sound (Knows hashtext) where
  shared i a shared phase _ hsound hknows := (program_step i a shared phase).sound hknows hsound
  own i a shared phase _ hsound hknows := (program_step i a shared phase).knows hsound hknows
  other i _ a shared phase _ hij _ hsound hknows hother :=
    have hstep := program_step i a shared phase
    hother.undisturbed hij (hstep.frame hknows) (hstep.sound hknows hsound)

omit [DecidableEq ι] in
theorem holds_start : Processes.Holds Sound (Knows hashtext) (start (ι := ι) (τ := τ)) :=
  ⟨⟨by simp [start], List.Pairwise.nil, by simp [start], List.Pairwise.nil, by simp [start],
    List.nodup_nil, by simp [start], by simp [start]⟩, fun _ => trivial⟩

theorem holds_run (steps : List (ι × Action τ)) :
    Processes.Holds Sound (Knows hashtext) (Processes.run (program hashtext) steps start) :=
  (scheduledJob_stable hashtext).run (Processes.along_true _ _ _) (holds_start hashtext)

omit [DecidableEq ι] in
/-- An entry of an index is of one row. -/
theorem Sound.eq_of_entry {shared : Shared ι τ} (hsound : Sound shared) {entry : IndexEntry}
    {row row' : Call ι × JobRun} (hrow : row ∈ shared.runs) (hrow' : row' ∈ shared.runs)
    (hentry : row.2.entry = some entry) (hentry' : row'.2.entry = some entry) : row = row' := by
  have hpairwise : shared.runs.Pairwise fun row row' =>
      row.2.entry = some entry → row'.2.entry = some entry → row = row' := by
    refine hsound.entries.imp fun hdistinct h h' => ?_
    rcases hdistinct with hnone | hne
    · rw [hnone] at h
      cases h
    · exact absurd (h.trans h'.symm) hne
  exact List.Pairwise.forall_of_forall_of_flip (fun _ _ _ _ => rfl) hpairwise
    (hpairwise.imp fun h hx hy => (h hy hx).symm) hrow hrow' hentry hentry'

theorem rows_stay (steps : List (ι × Action τ)) {c : Processes.Config ι (Shared ι τ) (Phase ι)}
    (hc : Processes.Holds Sound (Knows hashtext) c) {row : Call ι × JobRun} (hrow : row ∈ c.shared.runs) :
    row ∈ (Processes.run (program hashtext) steps c).shared.runs :=
  (Processes.run_keeps
    (I := fun c => Processes.Holds Sound (Knows hashtext) c ∧ row ∈ c.shared.runs)
    (fun step _ _ h => ⟨(scheduledJob_stable hashtext).act trivial h.1,
      ((program_step step.1 step.2 _ _).frame (h.1.2 step.1)).runs _ h.2⟩)
    (Processes.along_true _ steps c) ⟨hc, hrow⟩).2

/-- **Runs of a job are serial.** However any number of processes run jobs, no two are in the `perform`
of the same job; between two transactions of one run of a job there is none of another run of it; and a
run that answers `skipped` has committed nothing. -/
theorem performs_are_serial (steps : List (ι × Action τ)) :
    let c := Processes.run (program hashtext) steps (start (ι := ι) (τ := τ))
    (∀ i j call call', c.locals i = .performing call → c.locals j = .performing call' →
      call.SameJob call' → i = j) ∧
    (∀ first between last, [first, between, last].Sublist c.shared.work → first.1 = last.1 →
      between.1.SameJob first.1 → between.1 = first.1) ∧
    ∀ answered ∈ c.shared.answers, answered.2 = .returned .skipped →
      (∀ w ∈ c.shared.work, w.1 ≠ answered.1) ∧ ∀ row ∈ c.shared.runs, row.1 ≠ answered.1 := by
  intro _
  obtain ⟨hsound, hknows⟩ := holds_run hashtext steps
  refine ⟨fun i j call call' hi hj hjob => ?_, fun first between last hsub heq hjob => ?_, hsound.skipped⟩
  · have hlock := hknows i
    have hlock' := hknows j
    rw [hi] at hlock
    rw [hj] at hlock'
    have hsame := hlock'.1.lock
    rw [← show call.run.jobName = call'.run.jobName from hjob, hlock.1.lock] at hsame
    exact Option.some.inj hsame
  · have hserial := hsound.serial.sublist hsub
    have hcalled := hsound.work between (hsub.subset (by simp))
    simp only [List.pairwise_cons, List.mem_cons, List.not_mem_nil, or_false] at hserial
    have hle := hserial.1 between (Or.inl rfl) hjob.symm
    have hge := hserial.2.1 last rfl (heq ▸ hjob)
    rw [← heq] at hge
    exact hcalled.eq (hsound.work first (hsub.subset (by simp))) (le_antisymm hge hle)

def fifthOfSeptember : CalendarDate := ⟨2026, 9, 5, by decide, by decide⟩

/-- A run that finds another one at work, which commits twice more. -/
def overlapping : List (ℕ × Action ℕ) :=
  [(0, .tryAdvisoryLock ⟨"noop", .daily⟩ fifthOfSeptember false), (0, .work 1),
    (1, .tryAdvisoryLock ⟨"noop", .daily⟩ fifthOfSeptember false), (0, .work 2), (0, .work 3),
    (0, .complete 10), (0, .releaseAdvisoryLock .unlocked)]

/-- The call of a process of `overlapping`. -/
def overlappingCall (i : ℕ) : Call ℕ := ⟨i, i, .started ⟨"noop", .daily⟩ fifthOfSeptember⟩

theorem performs_are_serial_overlapping :
    let work := (Processes.run (program fun _ => 0) overlapping start).shared.work
    (∀ between, [(overlappingCall 0, 1), between, (overlappingCall 0, 3)].Sublist work →
      between.1.run.jobName = "noop" → between.1 = overlappingCall 0) ∧
    ∀ w ∈ work, w.1 ≠ overlappingCall 1 :=
  ⟨fun between hsub hjob => (performs_are_serial (fun _ => 0) overlapping).2.1 (overlappingCall 0, 1)
      between (overlappingCall 0, 3) hsub rfl hjob,
    ((performs_are_serial (fun _ => 0) overlapping).2.2 (overlappingCall 1, .returned .skipped)
      (by decide) rfl).1⟩

/-- **A recorded run is final.** Once the row of a daily or monthly key is committed, it stays, as the
only row of the key, in every continuation, and a call of the key is answered `completed` only if it
is the one that wrote the row, with status `completed`, and then once: where the row is `failed`,
every run of the key raises, or is `skipped` where another has the lock. -/
theorem recorded_run_is_final (steps rest : List (ι × Action τ)) (row : Call ι × JobRun)
    (entry : IndexEntry)
    (hrow : row ∈ (Processes.run (program hashtext) steps (start (ι := ι) (τ := τ))).shared.runs)
    (hentry : row.2.entry = some entry) :
    let c := Processes.run (program hashtext) rest
      (Processes.run (program hashtext) steps (start (ι := ι) (τ := τ)))
    (row ∈ c.shared.runs ∧ ∀ row' ∈ c.shared.runs, row'.2.entry = some entry ↔ row' = row) ∧
    (∀ answered ∈ c.shared.answers, answered.2 = .returned .completed →
      answered.1.run.entry = some entry → answered.1 = row.1 ∧ row.2.status = .completed) ∧
    (row.2.status = .failed → ∀ answered ∈ c.shared.answers, answered.1.run.entry = some entry →
      answered.2 = .raised ∨ answered.2 = .returned .skipped) ∧
    (c.shared.answers.filter fun answered =>
      answered.2 = .returned .completed ∧ answered.1.run.entry = some entry).length ≤ 1 := by
  intro _
  have hholds := (scheduledJob_stable hashtext).run (Processes.along_true _ rest _)
    (holds_run (τ := τ) hashtext steps)
  have hstays := rows_stay hashtext rest (holds_run hashtext steps) hrow
  have hsound := hholds.1
  have hcompleted : ∀ answered ∈ (Processes.run (program hashtext) rest
      (Processes.run (program hashtext) steps start)).shared.answers,
      answered.2 = .returned .completed → answered.1.run.entry = some entry →
        answered.1 = row.1 ∧ row.2.status = .completed := by
    intro answered hmem hanswer hkey
    obtain ⟨run, hrun, hstatus⟩ := hsound.completed answered hmem hanswer
    have heq := hsound.eq_of_entry hrun hstays ((hsound.runs _ hrun).2.trans hkey) hentry
    rw [← heq]
    exact ⟨rfl, hstatus⟩
  refine ⟨⟨hstays, fun row' hrow' => ⟨fun hkey => hsound.eq_of_entry hrow' hstays hkey hentry,
    fun heq => heq ▸ hentry⟩⟩, hcompleted, fun hfailed answered hmem hkey => ?_, ?_⟩
  · cases hanswer : answered.2 with
    | raised => exact Or.inl rfl
    | returned outcome =>
      cases outcome with
      | completed =>
        have hstatus := (hcompleted answered hmem hanswer hkey).2
        rw [hfailed] at hstatus
        cases hstatus
      | skipped => exact Or.inr rfl
  -- answers of one call, of which there is at most one
  have hnodup := hsound.once.sublist (List.filter_sublist (p := fun answered : Call ι × Answer =>
    answered.2 = .returned .completed ∧ answered.1.run.entry = some entry) |>.map (·.1.number))
  rw [List.eq_replicate_of_mem (a := row.1.number) (l := List.map _ _) fun n hn => by
    obtain ⟨answered, hmem, rfl⟩ := List.mem_map.mp hn
    obtain ⟨hmem, hof⟩ := List.mem_filter.mp hmem
    obtain ⟨hanswer, hkey⟩ := of_decide_eq_true hof
    rw [(hcompleted answered hmem hanswer hkey).1]] at hnodup
  simpa using List.nodup_replicate.mp hnodup

/-- A run that raises. -/
def raising : List (ℕ × Action ℕ) :=
  [(0, .tryAdvisoryLock ⟨"noop", .daily⟩ fifthOfSeptember false), (0, .fail 5 "ValueError"),
    (0, .releaseAdvisoryLock .unlocked)]

/-- Its retry, whose lock another connection fails to release; a further run is skipped. -/
def retrying : List (ℕ × Action ℕ) :=
  [(1, .tryAdvisoryLock ⟨"noop", .daily⟩ fifthOfSeptember false), (1, .work 1), (1, .complete 10),
    (1, .releaseAdvisoryLock .notOwned),
    (2, .tryAdvisoryLock ⟨"noop", .daily⟩ fifthOfSeptember false)]

/-- The failed row of `raising`. -/
def failedRow : Call ℕ × JobRun :=
  (overlappingCall 0, (JobRun.started ⟨"noop", .daily⟩ fifthOfSeptember).fail 5 "ValueError")

theorem recorded_run_is_final_retrying :
    let c := Processes.run (program fun _ => 0) retrying
      (Processes.run (program fun _ => 0) raising start)
    failedRow ∈ c.shared.runs ∧ (∀ answered ∈ c.shared.answers,
      answered.1.run.entry = some (.uqJobRunDailyNameMarketDate "noop" fifthOfSeptember) →
        answered.2 = .raised ∨ answered.2 = .returned .skipped) ∧
      c.shared.answers.map (·.2) = [.raised, .raised, .returned .skipped] := by
  obtain ⟨⟨hstays, -⟩, -, hfailed, -⟩ := recorded_run_is_final (fun _ => 0) raising retrying failedRow
    (.uqJobRunDailyNameMarketDate "noop" fifthOfSeptember) (by decide) rfl
  exact ⟨hstays, hfailed rfl, by decide⟩

end Runs

end Trueup.Jobs
