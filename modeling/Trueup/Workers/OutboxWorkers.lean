import Trueup.Lib.Processes
import Trueup.Models.Ops

/-! # Many outbox workers

`workers/outbox.py` over `models/ops/job_outbox.py`, with any number of workers that may crash at
any point, for any kind of task. A worker claims a row in one transaction, runs the handler in none,
and records the outcome in a second one; a transaction is a `SELECT`, and a commit that writes the
changed columns over the current row. `SELECT … FOR UPDATE SKIP LOCKED` passes over the rows that
other claims have locked.

The queue keeps, beside the table, how often each row was claimed, how often its handler was
invoked, and which of its claimed executions failed: the handler raised, and the worker has recorded
it.

* `Step`: what an action does.
* `Holding`, `QueueOk`: what a worker knows about the row it has in hand, and what the counters and
  the statuses say; no step breaks them (`outbox_stable`).
* `outbox_safety`: who holds a row, and what its counter and its status say about its executions. -/

namespace Trueup.OutboxWorkers

open Trueup.Core Trueup.Models Trueup.Lib

variable {π ι : Type}

/-! ### The workers -/

/-- The workers, with their ids, and `outbox_max_attempts`. -/
structure Fleet (ι : Type) where
  workerId : ι → String
  distinct : Function.Injective workerId
  maxAttempts : ℕ
  one_le : 1 ≤ maxAttempts

/-- The outbox, the row locks of the claims, and what has happened to each row. -/
structure Queue (π : Type) where
  rows : Outbox π
  locks : Uuid → Option String
  claims : Uuid → ℕ
  invocations : Uuid → ℕ
  failures : List (Uuid × ℕ)

/-- Where a worker is in `drain_once`. -/
inductive Phase (π : Type)
  | idle
  | claiming (row : JobOutbox π)
  | claimed (row : JobOutbox π)
  | handling (row : JobOutbox π)
  | returned (row : JobOutbox π)
  | raised (row : JobOutbox π)
  | completing (seen : JobOutbox π)
  | failing (seen : JobOutbox π) (nextAttemptAt : Instant)

/-- The row a worker has in hand. -/
def Phase.row : Phase π → Option (JobOutbox π)
  | .idle => none
  | .claiming row => some row
  | .claimed row => some row
  | .handling row => some row
  | .returned row => some row
  | .raised row => some row
  | .completing seen => some seen
  | .failing seen _ => some seen

inductive Action (π : Type)
  /-- anybody's `enqueue` -/
  | enqueue (id : Uuid) (payload : π) (now : Instant)
  /-- the `SELECT` of `claim_next` -/
  | select (now : Instant)
  | commitClaim
  | invokeHandler
  /-- the handler returns, or raises -/
  | handled (returned : Bool)
  /-- the `SELECT` of `_locked_by_worker` -/
  | lookUp (now : Instant)
  | commitOutcome
  | crash

/-- The rows `claim_next` may claim, oldest first. -/
def claimable (q : Queue π) (now : Instant) : List (JobOutbox π) :=
  q.rows.claimable (fun id => (q.locks id).isSome) now

/-- `_locked_by_worker`; `none` is its `RuntimeError`. -/
def lockedByWorker (q : Queue π) (outboxId : Uuid) (workerId : String) : Option (JobOutbox π) :=
  q.rows.lockedByWorker outboxId workerId

/-- `clock() + timedelta(seconds=2 ** (attempts - 1))`. -/
def delayed (now : Instant) (attempts : ℕ) : Instant := now + 1000000 * 2 ^ (attempts - 1)

/-- The writes of a transaction that has read `seen`. They wait while the row is locked. -/
def written (q : Queue π) (seen new : JobOutbox π) : Option (Outbox π) :=
  if q.locks seen.id = none then (q.rows.find seen.id).map fun current =>
    q.rows.set (seen.flush new current)
  else none

/-- What an action of a worker does; one that it is not ready for does nothing. -/
def program (fleet : Fleet ι) : Processes.Program ι (Action π) (Queue π) (Phase π)
  | _, .enqueue id payload now, q, phase =>
    ({ q with rows := (q.rows.insert (.enqueued id payload now)).getD q.rows }, phase)
  | i, .select now, q, .idle =>
    match (claimable q now).head? with
    | none => (q, .idle)
    | some row =>
      ({ q with locks := Function.update q.locks row.id (some (fleet.workerId i)) }, .claiming row)
  | i, .commitClaim, q, .claiming row =>
    match q.rows.find row.id with
    | none => (q, .claiming row)
    | some current =>
      let row' := row.flush (row.claimed (fleet.workerId i)) current
      ({ q with
          rows := q.rows.set row'
          locks := Function.update q.locks row.id none
          claims := Function.update q.claims row.id (q.claims row.id + 1) }, .claimed row')
  | _, .invokeHandler, q, .claimed row =>
    ({ q with invocations := Function.update q.invocations row.id (q.invocations row.id + 1) },
      .handling row)
  | _, .handled true, q, .handling row => (q, .returned row)
  | _, .handled false, q, .handling row => (q, .raised row)
  | i, .lookUp _, q, .returned row =>
    match lockedByWorker q row.id (fleet.workerId i) with
    | none => (q, .idle)
    | some seen => (q, .completing seen)
  | i, .lookUp now, q, .raised row =>
    match lockedByWorker q row.id (fleet.workerId i) with
    | none => (q, .idle)
    | some seen => (q, .failing seen (delayed now row.attempts))
  | _, .commitOutcome, q, .completing seen =>
    match written q seen seen.completed with
    | none => (q, .completing seen)
    | some rows => ({ q with rows }, .idle)
  | _, .commitOutcome, q, .failing seen nextAttemptAt =>
    match written q seen (seen.retried nextAttemptAt fleet.maxAttempts) with
    | none => (q, .failing seen nextAttemptAt)
    | some rows =>
      ({ q with rows, failures := q.failures ++ [(seen.id, seen.attempts)] }, .idle)
  | i, .crash, q, _ =>
    ({ q with locks := fun id =>
        if q.locks id = some (fleet.workerId i) then none else q.locks id }, .idle)
  | _, _, q, phase => (q, phase)

/-- An empty outbox and idle workers. -/
def start : Processes.Config ι (Queue π) (Phase π) :=
  ⟨⟨∅, fun _ => none, fun _ => 0, fun _ => 0, []⟩, fun _ => .idle⟩

/-! ### What an action did -/

/-- What the action did to the queue and to the worker with the id `w`. -/
inductive Step (maxAttempts : ℕ) (w : String) (a : Action π) (q : Queue π) :
    Phase π → Queue π → Phase π → Prop
  | stays (phase : Phase π) : Step maxAttempts w a q phase q phase
  | enqueues (phase : Phase π) (row : JobOutbox π) (rows : Outbox π)
      (hrows : q.rows.insert row = some rows) (hattempts : row.attempts = 0)
      (hpending : row.status = .pending) : Step maxAttempts w a q phase { q with rows } phase
  | selects (row : JobOutbox π) (hrow : row ∈ q.rows) (hpending : row.status = .pending)
      (hfree : q.locks row.id = none) :
      Step maxAttempts w a q .idle { q with locks := Function.update q.locks row.id (some w) }
        (.claiming row)
  | claims (row current : JobOutbox π) (hcurrent : q.rows.find row.id = some current) :
      Step maxAttempts w a q (.claiming row)
        { q with
          rows := q.rows.set (row.flush (row.claimed w) current)
          locks := Function.update q.locks row.id none
          claims := Function.update q.claims row.id (q.claims row.id + 1) }
        (.claimed (row.flush (row.claimed w) current))
  | invokes (row : JobOutbox π) :
      Step maxAttempts w a q (.claimed row)
        { q with invocations := Function.update q.invocations row.id (q.invocations row.id + 1) }
        (.handling row)
  | returns (row : JobOutbox π) : Step maxAttempts w a q (.handling row) q (.returned row)
  | raises (row : JobOutbox π) : Step maxAttempts w a q (.handling row) q (.raised row)
  | finds (row seen : JobOutbox π) (phase phase' : Phase π)
      (hphase : phase = .returned row ∧ phase' = .completing seen ∨
        phase = .raised row ∧ ∃ nextAttemptAt, phase' = .failing seen nextAttemptAt)
      (hseen : lockedByWorker q row.id w = some seen) : Step maxAttempts w a q phase q phase'
  | quits (row : JobOutbox π) (phase : Phase π) (hphase : phase.row = some row)
      (hnone : lockedByWorker q row.id w = none) : Step maxAttempts w a q phase q .idle
  | completes (seen current : JobOutbox π) (hcurrent : q.rows.find seen.id = some current) :
      Step maxAttempts w a q (.completing seen)
        { q with rows := q.rows.set (seen.flush seen.completed current) } .idle
  | fails (seen current : JobOutbox π) (nextAttemptAt : Instant)
      (hcurrent : q.rows.find seen.id = some current) :
      Step maxAttempts w a q (.failing seen nextAttemptAt)
        { q with
          rows := q.rows.set (seen.flush (seen.retried nextAttemptAt maxAttempts) current)
          failures := q.failures ++ [(seen.id, seen.attempts)] } .idle
  | crashes (phase : Phase π) (haction : a = .crash) :
      Step maxAttempts w a q phase
        { q with locks := fun id => if q.locks id = some w then none else q.locks id } .idle

theorem claimable_head {q : Queue π} {now : Instant} {row : JobOutbox π}
    (h : (claimable q now).head? = some row) :
    row ∈ q.rows ∧ row.status = .pending ∧ q.locks row.id = none := by
  obtain ⟨hrow, ⟨hpending, -⟩, hfree⟩ := Outbox.mem_claimable.mp (List.mem_of_mem_head? h)
  exact ⟨hrow, hpending, Option.not_isSome_iff_eq_none.mp (by rw [hfree]; exact Bool.false_ne_true)⟩

theorem written_eq {q : Queue π} {seen new : JobOutbox π} {rows : Outbox π}
    (h : written q seen new = some rows) :
    ∃ current, q.rows.find seen.id = some current ∧ rows = q.rows.set (seen.flush new current) := by
  unfold written at h
  split_ifs at h
  obtain ⟨current, hcurrent, rfl⟩ := Option.map_eq_some_iff.mp h
  exact ⟨current, hcurrent, rfl⟩

/-- **What an action did.** -/
theorem program_step (fleet : Fleet ι) (i : ι) (a : Action π) (q : Queue π) (phase : Phase π) :
    Step fleet.maxAttempts (fleet.workerId i) a q phase (program fleet i a q phase).1
      (program fleet i a q phase).2 := by
  unfold program
  split
  · rename_i id payload now
    cases hrows : q.rows.insert (.enqueued id payload now) with
    | none => exact .stays phase
    | some rows => exact .enqueues phase _ rows hrows rfl rfl
  · split
    · exact .stays .idle
    · rename_i row hrow
      obtain ⟨hmem, hpending, hfree⟩ := claimable_head hrow
      exact .selects row hmem hpending hfree
  · split
    · exact .stays _
    · rename_i current hcurrent
      exact .claims _ current hcurrent
  · exact .invokes _
  · exact .returns _
  · exact .raises _
  · split
    · rename_i hnone
      exact .quits _ _ rfl hnone
    · rename_i seen hseen
      exact .finds _ seen _ _ (Or.inl ⟨rfl, rfl⟩) hseen
  · split
    · rename_i hnone
      exact .quits _ _ rfl hnone
    · rename_i seen hseen
      exact .finds _ seen _ _ (Or.inr ⟨rfl, _, rfl⟩) hseen
  · split
    · exact .stays _
    · rename_i rows hrows
      obtain ⟨current, hcurrent, rfl⟩ := written_eq hrows
      exact .completes _ current hcurrent
  · split
    · exact .stays _
    · rename_i rows hrows
      obtain ⟨current, hcurrent, rfl⟩ := written_eq hrows
      exact .fails _ current _ hcurrent
  · exact .crashes phase rfl
  · exact .stays phase

/-! ### Who holds a row -/

/-- The worker with the id `w` has claimed the row, or has it locked to claim it. -/
structure Owns (q : Queue π) (w : String) (row : JobOutbox π) : Prop where
  mem : row ∈ q.rows
  owner : row.status = .processing ∧ row.lockedBy = some w ∨
    row.status = .pending ∧ q.locks row.id = some w

theorem Owns.ne {q : Queue π} {w w' : String} {row row' : JobOutbox π} (h : Owns q w row)
    (h' : Owns q w' row') (hw : w ≠ w') : row.id ≠ row'.id := by
  intro hid
  obtain rfl := Table.eq_of_key_eq h.mem h'.mem hid
  rcases h.owner with ⟨hstatus, howner⟩ | ⟨hstatus, howner⟩ <;>
    rcases h'.owner with ⟨hstatus', howner'⟩ | ⟨hstatus', howner'⟩
  · exact hw (Option.some.inj (howner.symm.trans howner'))
  · rw [hstatus] at hstatus'
    cases hstatus'
  · rw [hstatus] at hstatus'
    cases hstatus'
  · exact hw (Option.some.inj (howner.symm.trans howner'))

/-- What a step of the worker with the id `w` leaves alone: everything about the rows that it has
not in hand. -/
structure Frame (w : String) (phase : Phase π) (q q' : Queue π) : Prop where
  rows : ∀ row ∈ q.rows, (∀ hand ∈ phase.row, hand.id ≠ row.id) → row ∈ q'.rows
  locks : ∀ id w', w' ≠ w → q.locks id = some w' → (∀ hand ∈ phase.row, hand.id ≠ id) →
    q'.locks id = some w'
  invocations : ∀ id, (∀ hand ∈ phase.row, hand.id ≠ id) → q'.invocations id = q.invocations id

theorem Frame.refl (w : String) (phase : Phase π) (q : Queue π) : Frame w phase q q :=
  ⟨fun _ h _ => h, fun _ _ _ h _ => h, fun _ _ => rfl⟩

section Keep
variable {q : Queue π} {row row' : JobOutbox π} {id : Uuid}

theorem mem_set_of_ne (h : row ∈ q.rows) (hid : row'.id ≠ row.id) : row ∈ q.rows.set row' :=
  Table.mem_set.mpr (Or.inl ⟨h, Ne.symm hid⟩)

end Keep

@[simp] theorem flush_id (seen new current : JobOutbox π) : (seen.flush new current).id = current.id :=
  rfl

@[simp] theorem flush_payload (seen new current : JobOutbox π) :
    (seen.flush new current).payload = current.payload := rfl

theorem flush_self (seen new : JobOutbox π) :
    seen.flush new seen = { seen with
      attempts := new.attempts, nextAttemptAt := new.nextAttemptAt, status := new.status
      lockedBy := new.lockedBy } := by
  simp [JobOutbox.flush]

section Step
variable {maxAttempts : ℕ} {w : String} {a : Action π} {q q' : Queue π} {phase phase' : Phase π}

/-- **A step leaves the rows of others alone.** -/
theorem Step.frame (h : Step maxAttempts w a q phase q' phase') : Frame w phase q q' := by
  have hset : ∀ {seen current : JobOutbox π} (new : JobOutbox π),
      q.rows.find seen.id = some current → ∀ row ∈ q.rows, seen.id ≠ row.id →
        row ∈ q.rows.set (seen.flush new current) := by
    intro seen current new hcurrent row hrow hne
    have hid := (Table.find_eq_some.mp hcurrent).2
    exact mem_set_of_ne hrow (by rw [flush_id, hid]; exact hne)
  cases h with
  | stays => exact .refl w _ q
  | enqueues _ row rows hrows hattempts hpending =>
    exact ⟨fun r hr _ => (Table.mem_insert hrows).mpr (Or.inl hr), fun _ _ _ h _ => h,
      fun _ _ => rfl⟩
  | selects row hrow hpending hfree =>
    refine ⟨fun _ h _ => h, fun id w' _ hlock _ => ?_, fun _ _ => rfl⟩
    have hne : id ≠ row.id := fun hid => by
      rw [hid, hfree] at hlock
      cases hlock
    exact (Function.update_of_ne hne _ _).trans hlock
  | claims row current hcurrent =>
    refine ⟨fun r hr hhand => hset _ hcurrent r hr (hhand row rfl),
      fun id w' _ hlock hhand => ?_, fun _ _ => rfl⟩
    exact (Function.update_of_ne (Ne.symm (hhand row rfl)) _ _).trans hlock
  | invokes row =>
    refine ⟨fun _ h _ => h, fun _ _ _ h _ => h, fun id hhand => ?_⟩
    exact Function.update_of_ne (Ne.symm (hhand row rfl)) _ _
  | returns row => exact .refl w _ q
  | raises row => exact .refl w _ q
  | finds row seen phase phase' hphase hseen => exact .refl w _ q
  | quits row phase hphase hnone => exact .refl w _ q
  | completes seen current hcurrent =>
    exact ⟨fun r hr hhand => hset _ hcurrent r hr (hhand seen rfl), fun _ _ _ h _ => h,
      fun _ _ => rfl⟩
  | fails seen current nextAttemptAt hcurrent =>
    exact ⟨fun r hr hhand => hset _ hcurrent r hr (hhand seen rfl), fun _ _ _ h _ => h,
      fun _ _ => rfl⟩
  | crashes =>
    refine ⟨fun _ h _ => h, fun id w' hne hlock _ => ?_, fun _ _ => rfl⟩
    have hother : q.locks id ≠ some w := fun hown => hne (Option.some.inj (hlock.symm.trans hown))
    exact (if_neg hother).trans hlock

end Step

/-! ### The claims -/

/-- What a worker knows about the row it has in hand. -/
def Holding (q : Queue π) (w : String) : Phase π → Prop
  | .idle => True
  | .claiming row => Owns q w row ∧ row.status = .pending
  | .claimed row => Owns q w row ∧ row.status = .processing ∧ q.invocations row.id < row.attempts
  | .handling row => Owns q w row ∧ row.status = .processing
  | .returned row => Owns q w row ∧ row.status = .processing
  | .raised row => Owns q w row ∧ row.status = .processing
  | .completing seen => Owns q w seen ∧ seen.status = .processing
  | .failing seen _ => Owns q w seen ∧ seen.status = .processing

/-- What the counters and the status of a row say. -/
structure RowOk (maxAttempts : ℕ) (q : Queue π) (row : JobOutbox π) : Prop where
  attempts : row.attempts = q.claims row.id
  invocations : q.invocations row.id ≤ row.attempts
  bound : row.attempts ≤ maxAttempts
  pending : row.status = .pending → row.attempts < maxAttempts
  deadLetter : row.status = .deadLetter ↔ (row.id, maxAttempts) ∈ q.failures

/-- Nothing has happened to a row that is not there. -/
structure Untouched (q : Queue π) (id : Uuid) : Prop where
  claims : q.claims id = 0
  invocations : q.invocations id = 0
  failures : ∀ attempt, (id, attempt) ∉ q.failures

structure QueueOk (maxAttempts : ℕ) (q : Queue π) : Prop where
  rows : ∀ row ∈ q.rows, RowOk maxAttempts q row
  absent : ∀ id, ¬ q.rows.Has id → Untouched q id

/-- Nothing more has happened to the row. -/
structure SameHistory (q q' : Queue π) (id : Uuid) : Prop where
  claims : q'.claims id = q.claims id
  invocations : q'.invocations id = q.invocations id
  failures : ∀ attempt, (id, attempt) ∈ q'.failures ↔ (id, attempt) ∈ q.failures

section Claims
variable {maxAttempts : ℕ} {w w' : String} {a : Action π} {q q' : Queue π} {phase phase' : Phase π}
  {row row' : JobOutbox π}

theorem RowOk.of_same (h : RowOk maxAttempts q row) (hsame : SameHistory q q' row.id) :
    RowOk maxAttempts q' row := by
  refine ⟨?_, ?_, h.bound, h.pending, ?_⟩
  · rw [hsame.claims]
    exact h.attempts
  · rw [hsame.invocations]
    exact h.invocations
  · rw [hsame.failures]
    exact h.deadLetter

theorem Untouched.of_same {id : Uuid} (h : Untouched q id) (hsame : SameHistory q q' id) :
    Untouched q' id := by
  refine ⟨?_, ?_, fun attempt => ?_⟩
  · rw [hsame.claims]
    exact h.claims
  · rw [hsame.invocations]
    exact h.invocations
  · rw [hsame.failures]
    exact h.failures attempt

theorem QueueOk.of_same (h : QueueOk maxAttempts q) (hrows : q'.rows = q.rows)
    (hsame : ∀ id, SameHistory q q' id) : QueueOk maxAttempts q' := by
  refine ⟨fun row hrow => ?_, fun id hid => ?_⟩
  · rw [hrows] at hrow
    exact (h.rows row hrow).of_same (hsame _)
  · rw [hrows] at hid
    exact (h.absent id hid).of_same (hsame id)

theorem QueueOk.write (h : QueueOk maxAttempts q) (hmem : row ∈ q.rows)
    (hrows : q'.rows = q.rows.set row') (hid : row'.id = row.id) (hok : RowOk maxAttempts q' row')
    (hothers : ∀ id, id ≠ row.id → SameHistory q q' id) : QueueOk maxAttempts q' := by
  refine ⟨fun r hr => ?_, fun id habsent => ?_⟩
  · rw [hrows] at hr
    rcases Table.mem_set.mp hr with ⟨hold, hne⟩ | ⟨rfl, -⟩
    · exact (h.rows r hold).of_same (hothers _ (hid ▸ hne))
    · exact hok
  · rw [hrows, Table.has_set] at habsent
    have hne : id ≠ row.id := fun heq => habsent (heq ▸ Table.has_of_mem hmem)
    exact (h.absent id habsent).of_same (hothers id hne)

theorem Holding.owns (h : Holding q w phase) : ∀ hand ∈ phase.row, Owns q w hand := by
  intro hand hhand
  cases phase with
  | idle => cases hhand
  | claiming row => cases hhand; exact h.1
  | claimed row => cases hhand; exact h.1
  | handling row => cases hhand; exact h.1
  | returned row => cases hhand; exact h.1
  | raised row => cases hhand; exact h.1
  | completing seen => cases hhand; exact h.1
  | failing seen nextAttemptAt => cases hhand; exact h.1

theorem Holding.mono (hrows : ∀ row, Owns q w row → Owns q' w row)
    (hinvocations : ∀ row, Owns q w row → q'.invocations row.id = q.invocations row.id)
    (h : Holding q w phase) : Holding q' w phase := by
  cases phase with
  | idle => trivial
  | claiming row => exact ⟨hrows row h.1, h.2⟩
  | claimed row => exact ⟨hrows row h.1, h.2.1, by rw [hinvocations row h.1]; exact h.2.2⟩
  | handling row => exact ⟨hrows row h.1, h.2⟩
  | returned row => exact ⟨hrows row h.1, h.2⟩
  | raised row => exact ⟨hrows row h.1, h.2⟩
  | completing seen => exact ⟨hrows seen h.1, h.2⟩
  | failing seen nextAttemptAt => exact ⟨hrows seen h.1, h.2⟩

/-- **A worker does not interfere with another.** -/
theorem Holding.other (hw : w ≠ w') (hhand : Holding q w phase) (hframe : Frame w phase q q')
    (h : Holding q w' phase') : Holding q' w' phase' := by
  have hfar : ∀ row, Owns q w' row → ∀ hand ∈ phase.row, hand.id ≠ row.id :=
    fun row hrow hand hmem => (hhand.owns hand hmem).ne hrow hw
  refine h.mono (fun row hrow => ⟨hframe.rows row hrow.mem (hfar row hrow), ?_⟩)
    fun row hrow => hframe.invocations row.id (hfar row hrow)
  refine hrow.owner.imp_right fun hlocked => ⟨hlocked.1, ?_⟩
  exact hframe.locks row.id w' (Ne.symm hw) hlocked.2 (hfar row hrow)

theorem current_eq {current : JobOutbox π} (hrow : row ∈ q.rows)
    (hcurrent : q.rows.find row.id = some current) : current = row := by
  obtain ⟨hmem, hid⟩ := Table.find_eq_some.mp hcurrent
  exact Table.eq_of_key_eq hmem hrow hid

theorem lockedByWorker_owns {id : Uuid} (h : lockedByWorker q id w = some row) :
    Owns q w row ∧ row.status = .processing := by
  obtain ⟨⟨hrow, -⟩, hlocked⟩ := Outbox.lockedByWorker_eq_some.mp h
  exact ⟨⟨hrow, Or.inl hlocked⟩, hlocked.1⟩

/-- **What a worker knows** after its step. -/
theorem Step.holding (h : Step maxAttempts w a q phase q' phase') (hq : QueueOk maxAttempts q)
    (hhand : Holding q w phase) : Holding q' w phase' := by
  cases h with
  | stays => exact hhand
  | enqueues _ row rows hrows hattempts hpending =>
    refine Holding.mono (q := q) (fun r hr => ⟨?_, hr.owner⟩) (fun _ _ => rfl) hhand
    exact (Table.mem_insert hrows).mpr (Or.inl hr.mem)
  | selects row hrow hpending hfree =>
    exact ⟨⟨hrow, Or.inr ⟨hpending, Function.update_self _ _ _⟩⟩, hpending⟩
  | claims row current hcurrent =>
    obtain ⟨howns, hpending⟩ := hhand
    obtain rfl := current_eq howns.mem hcurrent
    rw [flush_self]
    have hbelow := (hq.rows current howns.mem).invocations
    exact ⟨⟨Table.mem_set_self howns.mem rfl, Or.inl ⟨rfl, rfl⟩⟩, rfl, Nat.lt_succ_of_le hbelow⟩
  | invokes row => exact ⟨⟨hhand.1.mem, hhand.1.owner⟩, hhand.2.1⟩
  | returns row => exact hhand
  | raises row => exact hhand
  | finds row seen phase phase' hphase hseen =>
    have howns := lockedByWorker_owns hseen
    rcases hphase with ⟨-, rfl⟩ | ⟨-, _, rfl⟩
    · exact howns
    · exact howns
  | quits row phase hphase hnone => trivial
  | completes seen current hcurrent => trivial
  | fails seen current nextAttemptAt hcurrent => trivial
  | crashes => trivial

/-- **What the counters and the statuses say** after a step. -/
theorem Step.queueOk (hone : 1 ≤ maxAttempts) (h : Step maxAttempts w a q phase q' phase')
    (hq : QueueOk maxAttempts q) (hhand : Holding q w phase) : QueueOk maxAttempts q' := by
  cases h with
  | stays => exact hq
  | enqueues _ row rows hrows hattempts hpending =>
    refine ⟨fun r hr => ?_, fun id hid => ?_⟩
    · rcases (Table.mem_insert hrows).mp hr with hold | rfl
      · exact (hq.rows r hold).of_same ⟨rfl, rfl, fun _ => Iff.rfl⟩
      · obtain ⟨hclaims, hinvocations, hfailures⟩ := hq.absent r.id (Table.insert_eq_some.mp hrows).1
        refine ⟨hattempts.trans hclaims.symm, ?_, ?_, fun _ => ?_, iff_of_false ?_ (hfailures _)⟩
        · exact hinvocations.trans_le (Nat.zero_le _)
        · rw [hattempts]
          exact Nat.zero_le _
        · rw [hattempts]
          exact hone
        · rw [hpending]
          decide
    · have habsent : ¬ q.rows.Has id := fun hhas =>
        hid ((Table.has_insert hrows id).mpr (Or.inl hhas))
      exact (hq.absent id habsent).of_same ⟨rfl, rfl, fun _ => Iff.rfl⟩
  | selects row hrow hpending hfree => exact hq.of_same rfl fun _ => ⟨rfl, rfl, fun _ => Iff.rfl⟩
  | claims row current hcurrent =>
    obtain ⟨howns, hpending⟩ := hhand
    obtain rfl := current_eq howns.mem hcurrent
    rw [flush_self]
    obtain ⟨hattempts, hinvocations, -, hbound, hdead⟩ := hq.rows current howns.mem
    refine hq.write howns.mem rfl rfl ⟨?_, ?_, ?_, ?_, ?_⟩ fun id hne => ?_
    · show current.attempts + 1 = Function.update q.claims current.id _ current.id
      rw [Function.update_self, hattempts]
    · exact hinvocations.trans (Nat.le_succ _)
    · exact hbound hpending
    · intro hstatus
      cases hstatus
    · refine iff_of_false (fun hstatus => by cases hstatus) fun hfailed => ?_
      have hdeadLetter := hdead.mpr hfailed
      rw [hpending] at hdeadLetter
      cases hdeadLetter
    · exact ⟨Function.update_of_ne hne _ _, rfl, fun _ => Iff.rfl⟩
  | invokes row =>
    obtain ⟨howns, hprocessing, hbelow⟩ := hhand
    refine ⟨fun r hr => ?_, fun id hid => ?_⟩
    · obtain ⟨hattempts, hinvocations, hbound, hpending, hdead⟩ := hq.rows r hr
      refine ⟨hattempts, ?_, hbound, hpending, hdead⟩
      show Function.update q.invocations row.id _ r.id ≤ r.attempts
      by_cases hthis : r.id = row.id
      · obtain rfl := Table.eq_of_key_eq hr howns.mem hthis
        rw [Function.update_self]
        exact hbelow
      · rw [Function.update_of_ne hthis]
        exact hinvocations
    · have hne : id ≠ row.id := fun heq => hid (heq ▸ Table.has_of_mem howns.mem)
      exact (hq.absent id hid).of_same ⟨rfl, Function.update_of_ne hne _ _, fun _ => Iff.rfl⟩
  | returns row => exact hq
  | raises row => exact hq
  | finds row seen phase phase' hphase hseen => exact hq
  | quits row phase hphase hnone => exact hq
  | completes seen current hcurrent =>
    obtain ⟨howns, hprocessing⟩ := hhand
    obtain rfl := current_eq howns.mem hcurrent
    rw [flush_self]
    obtain ⟨hattempts, hinvocations, hbound, -, hdead⟩ := hq.rows current howns.mem
    refine hq.write howns.mem rfl rfl ⟨hattempts, hinvocations, hbound, ?_, ?_⟩
      fun id _ => ⟨rfl, rfl, fun _ => Iff.rfl⟩
    · intro hstatus
      cases hstatus
    · refine iff_of_false (fun hstatus => by cases hstatus) fun hfailed => ?_
      have hdeadLetter := hdead.mpr hfailed
      rw [hprocessing] at hdeadLetter
      cases hdeadLetter
  | fails seen current nextAttemptAt hcurrent =>
    obtain ⟨howns, hprocessing⟩ := hhand
    obtain rfl := current_eq howns.mem hcurrent
    rw [flush_self]
    obtain ⟨hattempts, hinvocations, hbound, -, hdead⟩ := hq.rows current howns.mem
    have hothers : ∀ id, id ≠ current.id → ∀ attempt,
        (id, attempt) ∈ q.failures ++ [(current.id, current.attempts)] ↔
          (id, attempt) ∈ q.failures := by
      intro id hne attempt
      simp [hne]
    refine hq.write howns.mem rfl rfl ?_ fun id hne => ⟨rfl, rfl, hothers id hne⟩
    unfold JobOutbox.retried
    split_ifs with hlast
    · -- the last attempt
      have hmax : current.attempts = maxAttempts := le_antisymm hbound hlast
      refine ⟨hattempts, hinvocations, hbound, fun hstatus => (by cases hstatus), ?_⟩
      exact iff_of_true rfl (List.mem_append.mpr (Or.inr (by simp [hmax])))
    · have hmore : current.attempts < maxAttempts := Nat.lt_of_not_le hlast
      refine ⟨hattempts, hinvocations, hbound, fun _ => hmore, ?_⟩
      refine iff_of_false (fun hstatus => by cases hstatus) fun hfailed => ?_
      rcases List.mem_append.mp hfailed with hold | hnew
      · have hdeadLetter := hdead.mpr hold
        rw [hprocessing] at hdeadLetter
        cases hdeadLetter
      · simp only [List.mem_singleton, Prod.mk.injEq] at hnew
        omega
  | crashes => exact hq.of_same rfl fun _ => ⟨rfl, rfl, fun _ => Iff.rfl⟩

end Claims

/-! ### Safety -/

theorem outbox_stable (fleet : Fleet ι) :
    Processes.Stable (program (π := π) fleet) (fun _ _ _ _ => True) (QueueOk fleet.maxAttempts)
      (fun i q phase => Holding q (fleet.workerId i) phase) where
  shared i a q phase _ hq hhand := (program_step fleet i a q phase).queueOk fleet.one_le hq hhand
  own i a q phase _ hq hhand := (program_step fleet i a q phase).holding hq hhand
  other i j a q phase phase' hij _ _ hhand hother := by
    have hw : fleet.workerId i ≠ fleet.workerId j := fun hid => hij (fleet.distinct hid)
    exact hhand.other hw (program_step fleet i a q phase).frame hother

section Safety
variable [DecidableEq ι] (fleet : Fleet ι)

/-- The claims hold. -/
def Ok (c : Processes.Config ι (Queue π) (Phase π)) : Prop :=
  Processes.Holds (QueueOk fleet.maxAttempts) (fun i q phase => Holding q (fleet.workerId i) phase) c

theorem ok_run (steps : List (ι × Action π)) {c : Processes.Config ι (Queue π) (Phase π)}
    (h : Ok fleet c) : Ok fleet (Processes.run (program fleet) steps c) :=
  (outbox_stable fleet).run (Processes.along_true _ _ _) h

omit [DecidableEq ι] in
theorem ok_start : Ok fleet (start : Processes.Config ι (Queue π) (Phase π)) :=
  ⟨⟨fun _ hrow => (by cases hrow), fun _ _ => ⟨rfl, rfl, fun _ hfailed => (by cases hfailed)⟩⟩,
    fun _ => trivial⟩

theorem mem_act {c : Processes.Config ι (Queue π) (Phase π)} {row : JobOutbox π} (h : Ok fleet c)
    (hrow : row ∈ c.shared.rows) (step : ι × Action π)
    (hhand : ∀ hand ∈ (c.locals step.1).row, hand ≠ row) :
    row ∈ (Processes.act (program fleet) step c).shared.rows := by
  have hframe := (program_step fleet step.1 step.2 c.shared (c.locals step.1)).frame
  refine hframe.rows row hrow fun hand hmem hid => hhand hand hmem ?_
  exact Table.eq_of_key_eq ((h.2 step.1).owns hand hmem).mem hrow hid

omit [DecidableEq ι] in
theorem not_in_hand_of_final {c : Processes.Config ι (Queue π) (Phase π)} {row : JobOutbox π}
    (h : Ok fleet c) (hfinal : row.isFinal) (i : ι) : ∀ hand ∈ (c.locals i).row, hand ≠ row := by
  rintro hand hmem rfl
  rcases ((h.2 i).owns hand hmem).owner with ⟨hstatus, -⟩ | ⟨hstatus, -⟩ <;>
    simp [JobOutbox.isFinal, hstatus] at hfinal

/-- **Final rows stay.** -/
theorem final_row_stays {c : Processes.Config ι (Queue π) (Phase π)} {row : JobOutbox π}
    (h : Ok fleet c) (hrow : row ∈ c.shared.rows) (hfinal : row.isFinal)
    (steps : List (ι × Action π)) :
    row ∈ (Processes.run (program fleet) steps c).shared.rows := by
  have hkept := Processes.run_keeps (I := fun c => Ok fleet c ∧ row ∈ c.shared.rows)
    (fun step c _ hc => ⟨(outbox_stable fleet).act trivial hc.1,
      mem_act fleet hc.1 hc.2 step (not_in_hand_of_final fleet hc.1 hfinal step.1)⟩)
    (Processes.along_true (program fleet) steps c) ⟨h, hrow⟩
  exact hkept.2

/-- What the outbox guarantees. -/
structure Safe (c : Processes.Config ι (Queue π) (Phase π)) : Prop where
  /-- a row is in the hand of one worker at most -/
  exclusive : ∀ i j, ∀ rowi ∈ (c.locals i).row, ∀ rowj ∈ (c.locals j).row, rowi.id = rowj.id → i = j
  /-- and is locked by the worker that executes it -/
  locked : ∀ i, ∀ row ∈ (c.locals i).row, row ∈ c.shared.rows ∧
    (row.status = .processing → row.lockedBy = some (fleet.workerId i))
  attempts : ∀ row ∈ c.shared.rows, row.attempts = c.shared.claims row.id
  invocations : ∀ id, c.shared.invocations id ≤ fleet.maxAttempts
  final : ∀ more, ∀ row ∈ c.shared.rows, row.isFinal →
    row ∈ (Processes.run (program fleet) more c).shared.rows
  deadLetter : ∀ row ∈ c.shared.rows,
    row.status = .deadLetter ↔ (row.id, fleet.maxAttempts) ∈ c.shared.failures

/-- **Outbox safety.** In every interleaving of any number of workers with distinct ids, each of
which may crash at any point, and of anybody's enqueues: a row is held by one worker at most, its
counter is the number of its claims, its handler is invoked at most `max_attempts` times, a final
row stays as it is, and a row is dead-lettered exactly when its `max_attempts`-th claimed execution
has failed. -/
theorem outbox_safety (steps : List (ι × Action π)) :
    Safe fleet (Processes.run (program fleet) steps start) := by
  have hok := ok_run fleet steps (ok_start (π := π) fleet)
  refine ⟨fun i j rowi hi rowj hj hid => ?_, fun i row hrow => ?_, fun row hrow => ?_, fun id => ?_,
    fun more row hrow hfinal => ?_, fun row hrow => ?_⟩
  · by_contra hij
    have hw : fleet.workerId i ≠ fleet.workerId j := fun heq => hij (fleet.distinct heq)
    exact ((hok.2 i).owns rowi hi).ne ((hok.2 j).owns rowj hj) hw hid
  · have howns := (hok.2 i).owns row hrow
    refine ⟨howns.mem, fun hprocessing => ?_⟩
    rcases howns.owner with ⟨-, hlocked⟩ | ⟨hpending, -⟩
    · exact hlocked
    · rw [hprocessing] at hpending
      cases hpending
  · exact (hok.1.rows row hrow).attempts
  · by_cases hhas : (Processes.run (program fleet) steps start).shared.rows.Has id
    · obtain ⟨row, hrow, rfl⟩ := Table.has_iff.mp hhas
      have hrowOk := hok.1.rows row hrow
      exact hrowOk.invocations.trans hrowOk.bound
    · rw [(hok.1.absent id hhas).invocations]
      exact Nat.zero_le _
  · exact final_row_stays fleet hok hrow hfinal more
  · exact (hok.1.rows row hrow).deadLetter

end Safety

/-- Two workers, two attempts. -/
def twoWorkers : Fleet Bool where
  workerId second := if second then "outbox-worker-2" else "outbox-worker-1"
  distinct := by decide
  maxAttempts := 2
  one_le := by decide

/-- A call of `drain_once` whose handler returns or raises. -/
def drainOnce (second : Bool) (now : Instant) (returned : Bool) : List (Bool × Action Unit) :=
  [(second, .select now), (second, .commitClaim), (second, .invokeHandler),
    (second, .handled returned), (second, .lookUp now), (second, .commitOutcome)]

/-- The second worker finds the row locked; after two failures the row is given up. -/
example :
    let steps := [(false, .enqueue 1 () 0), (false, .select 0), (true, .select 0)] ++
      (drainOnce false 0 false).tail ++ drainOnce true 1000000 false
    (Processes.run (program twoWorkers) steps start).shared.rows.rows =
      [⟨1, (), 2, 1000000, .deadLetter, none, 0⟩] := by
  decide

end Trueup.OutboxWorkers
