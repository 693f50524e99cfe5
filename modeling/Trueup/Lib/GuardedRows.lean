import Mathlib.Logic.Relation
import Trueup.Lib.Locks
import Trueup.Lib.Processes

/-! # Tables with a trigger on each update

A table from which nothing is deleted, and whose updates pass a trigger that sees the row before and
after. Any number of sessions insert and update rows at READ COMMITTED, with any values, in any order
of their statements; an updated or inserted row is locked until the transaction ends.

* `Step`: what a statement does; `Owns`: what a session knows of its own versions.
* `versions_evolve`: the committed versions of a row are a path of updates that the trigger allows.
* `final_stays`, `Path.field`: so a row stays that the trigger allows no update of, and so do the
  fields that it allows no change of. -/

namespace Trueup.Lib.GuardedRows

variable {ι κ ρ : Type}

/-- The committed rows, and who has a row locked. -/
structure Shared (ι κ ρ : Type) where
  rows : κ → Option ρ
  locks : Locks κ ι

/-- A session, with the versions that its transaction has written. -/
inductive Phase (κ ρ : Type)
  | idle
  | inside (own : κ → Option ρ)

inductive Action (κ ρ : Type)
  | begin
  | insert (row : ρ)
  /-- `UPDATE` of a row, by columns other than its key -/
  | update (k : κ) (set : ρ → ρ)
  | commit
  /-- or a crash -/
  | rollback

/-- The row as the transaction sees it. -/
def visible (shared : Shared ι κ ρ) (own : κ → Option ρ) (k : κ) : Option ρ := (own k).or (shared.rows k)

section Program
variable [DecidableEq ι] [DecidableEq κ] (key : ρ → κ) (allows : ρ → ρ → Bool)

/-- The transaction ends, and writes nothing. -/
def Shared.abort (shared : Shared ι κ ρ) (i : ι) : Shared ι κ ρ × Phase κ ρ :=
  ({ shared with locks := shared.locks.release i }, .idle)

/-- The transaction writes a version of a row that it has locked. -/
def Shared.write (shared : Shared ι κ ρ) (i : ι) (own : κ → Option ρ) (k : κ) (row : ρ) :
    Shared ι κ ρ × Phase κ ρ :=
  ({ shared with locks := shared.locks.take i [k] }, .inside (Function.update own k (some row)))

/-- `INSERT`: it waits for a transaction that has inserted the key. -/
def insertRow (i : ι) (shared : Shared ι κ ρ) (own : κ → Option ρ) (row : ρ) : Shared ι κ ρ × Phase κ ρ :=
  if ¬ shared.locks.FreeFor i (key row) then (shared, .inside own)
  else if (visible shared own (key row)).isSome then shared.abort i
  else shared.write i own (key row) row

/-- `UPDATE`: it waits for a transaction that has written the row, and sees what that one committed. -/
def updateRow (i : ι) (shared : Shared ι κ ρ) (own : κ → Option ρ) (k : κ) (set : ρ → ρ) :
    Shared ι κ ρ × Phase κ ρ :=
  if ¬ shared.locks.FreeFor i k then (shared, .inside own)
  else
    match visible shared own k with
    | none => (shared, .inside own)
    | some old =>
      if allows old (set old) then shared.write i own k (set old) else shared.abort i

/-- The statements of the sessions. -/
def program : Processes.Program ι (Action κ ρ) (Shared ι κ ρ) (Phase κ ρ)
  | _, .begin, shared, .idle => (shared, .inside fun _ => none)
  | i, .insert row, shared, .inside own => insertRow key i shared own row
  | i, .update k set, shared, .inside own => updateRow allows i shared own k set
  | i, .commit, shared, .inside own => (⟨visible shared own, shared.locks.release i⟩, .idle)
  | i, .rollback, shared, _ => shared.abort i
  | _, _, shared, phase => (shared, phase)

end Program

/-- The rows at the start, and idle sessions. -/
def start (rows : κ → Option ρ) : Processes.Config ι (Shared ι κ ρ) (Phase κ ρ) :=
  ⟨⟨rows, fun _ => none⟩, fun _ => .idle⟩

/-! ### What a statement did -/

section Invariant
variable [DecidableEq ι] [DecidableEq κ] {key : ρ → κ} {allows : ρ → ρ → Bool} {i j : ι}
  {shared shared' : Shared ι κ ρ} {phase phase' other : Phase κ ρ}

/-- A path of updates that the trigger allows. -/
def Path (allows : ρ → ρ → Bool) : ρ → ρ → Prop := Relation.ReflTransGen fun old new => allows old new

omit [DecidableEq ι] [DecidableEq κ] in
theorem Path.field {τ : Type} {f : ρ → τ} (hkept : ∀ old new, allows old new → f new = f old)
    {old new : ρ} (h : Path allows old new) : f new = f old := by
  induction h with
  | refl => rfl
  | tail _ hallowed ih => exact (hkept _ _ hallowed).trans ih

/-- What a statement of the session `i` did to the table and to the session. -/
inductive Step (allows : ρ → ρ → Bool) (i : ι) (shared : Shared ι κ ρ) :
    Phase κ ρ → Shared ι κ ρ → Phase κ ρ → Prop
  | stays (phase : Phase κ ρ) : Step allows i shared phase shared phase
  | begins : Step allows i shared .idle shared (.inside fun _ => none)
  | writes (own : κ → Option ρ) (k : κ) (row : ρ) (free : shared.locks.FreeFor i k)
      (allowed : ∀ old, visible shared own k = some old → allows old row) :
      Step allows i shared (.inside own) { shared with locks := shared.locks.take i [k] }
        (.inside (Function.update own k (some row)))
  | commits (own : κ → Option ρ) :
      Step allows i shared (.inside own) ⟨visible shared own, shared.locks.release i⟩ .idle
  | aborts (phase : Phase κ ρ) :
      Step allows i shared phase { shared with locks := shared.locks.release i } .idle

/-- **What a statement did.** -/
theorem program_step (i : ι) (a : Action κ ρ) (shared : Shared ι κ ρ) (phase : Phase κ ρ) :
    Step allows i shared phase (program key allows i a shared phase).1
      (program key allows i a shared phase).2 := by
  unfold program
  split
  · exact .begins
  · rename_i row own
    unfold insertRow
    split_ifs with hfree hthere
    · exact .aborts _
    · refine .writes own (key row) row hfree fun old hold => ?_
      rw [hold] at hthere
      exact absurd rfl hthere
    · exact .stays _
  · rename_i k set own
    unfold updateRow
    split_ifs with hfree
    · cases hvisible : visible shared own k with
      | none => exact .stays _
      | some old =>
        dsimp only
        split_ifs with hallowed
        · refine .writes own k (set old) hfree fun old' hold' => ?_
          cases hvisible.symm.trans hold'
          exact hallowed
        · exact .aborts _
    · exact .stays _
  · exact .commits _
  · exact .aborts _
  · exact .stays _

/-! ### What it keeps -/

/-- What a session knows of the versions it has written: their rows are locked, and they come from the
committed ones by a path of updates. -/
def Owns (allows : ρ → ρ → Bool) (i : ι) (shared : Shared ι κ ρ) : Phase κ ρ → Prop
  | .idle => True
  | .inside own => ∀ k new, own k = some new →
      shared.locks k = some i ∧ ∀ old, shared.rows k = some old → Path allows old new

/-- The rows come from those of `base` by paths of updates. -/
def Evolved (allows : ρ → ρ → Bool) (base : κ → Option ρ) (shared : Shared ι κ ρ) : Prop :=
  ∀ k old, base k = some old → ∃ new, shared.rows k = some new ∧ Path allows old new

/-- What a statement of the session `i` leaves alone: the rows that others have locked, and their
locks. -/
structure Frame (i : ι) (shared shared' : Shared ι κ ρ) : Prop where
  rows : ∀ j, i ≠ j → ∀ k, shared.locks k = some j → shared'.rows k = shared.rows k
  locks : ∀ j, i ≠ j → shared.locks.Keeps shared'.locks j

omit [DecidableEq ι] [DecidableEq κ] in
/-- What a transaction sees of a committed row comes from it by a path of updates. -/
theorem Owns.visible {own : κ → Option ρ} (h : Owns allows i shared (.inside own)) {k : κ} {old : ρ}
    (hold : shared.rows k = some old) :
    ∃ new, visible shared own k = some new ∧ Path allows old new := by
  unfold GuardedRows.visible
  cases hown : own k with
  | none => exact ⟨old, hold, .refl⟩
  | some new => exact ⟨new, rfl, (h k new hown).2 old hold⟩

/-- **A statement leaves the others what they have locked.** -/
theorem Step.frame (h : Step allows i shared phase shared' phase') (howns : Owns allows i shared phase) :
    Frame i shared shared' := by
  have hrelease : ∀ j, i ≠ j → shared.locks.Keeps (shared.locks.release i) j :=
    fun j hij => Locks.keeps_release hij
  cases h with
  | stays | begins => exact ⟨fun _ _ _ _ => rfl, fun j _ => .refl _ j⟩
  | writes own k row free allowed =>
    exact ⟨fun _ _ _ _ => rfl, fun j hij => Locks.keeps_take_other (by simpa using free) hij⟩
  | aborts => exact ⟨fun _ _ _ _ => rfl, hrelease⟩
  | commits own =>
    refine ⟨fun j hij k hk => ?_, hrelease⟩
    show (own k).or (shared.rows k) = shared.rows k
    cases hown : own k with
    | none => rfl
    | some new => exact absurd (Option.some.inj ((howns k new hown).1.symm.trans hk)) hij

/-- **The rows evolve** with a statement. -/
theorem Step.evolved {base : κ → Option ρ} (h : Step allows i shared phase shared' phase')
    (howns : Owns allows i shared phase) (hevolved : Evolved allows base shared) :
    Evolved allows base shared' := by
  cases h with
  | stays | begins | writes | aborts => exact hevolved
  | commits own =>
    intro k old hold
    obtain ⟨mid, hmid, hpath⟩ := hevolved k old hold
    obtain ⟨new, hnew, hpath'⟩ := howns.visible hmid
    exact ⟨new, hnew, hpath.trans hpath'⟩

/-- **What a session knows** after a statement of its own. -/
theorem Step.owns (h : Step allows i shared phase shared' phase') (howns : Owns allows i shared phase) :
    Owns allows i shared' phase' := by
  cases h with
  | stays => exact howns
  | commits | aborts => trivial
  | begins => exact fun _ _ h => by cases h
  | writes own k row free allowed =>
    intro k' new hnew
    by_cases hk : k' = k
    · subst hk
      rw [Function.update_self] at hnew
      cases hnew
      refine ⟨Locks.take_mem (by simp), fun old hold => ?_⟩
      obtain ⟨mid, hmid, hpath⟩ := howns.visible hold
      exact hpath.tail (allowed mid hmid)
    · rw [Function.update_of_ne hk] at hnew
      exact ⟨Locks.keeps_take_own _ (howns k' new hnew).1, (howns k' new hnew).2⟩

omit [DecidableEq ι] [DecidableEq κ] in
/-- **A session does not interfere with another.** -/
theorem Owns.undisturbed (hij : i ≠ j) (hframe : Frame i shared shared') (h : Owns allows j shared other) :
    Owns allows j shared' other := by
  cases other with
  | idle => trivial
  | inside own =>
    intro k new hnew
    obtain ⟨hlock, hpath⟩ := h k new hnew
    refine ⟨hframe.locks j hij k hlock, ?_⟩
    rw [hframe.rows j hij k hlock]
    exact hpath

end Invariant

section Runs
variable [DecidableEq ι] [DecidableEq κ] {key : ρ → κ} {allows : ρ → ρ → Bool}

/-- **No statement breaks the invariant.** -/
theorem statements_stable (base : κ → Option ρ) :
    Processes.Stable (program (ι := ι) key allows) (fun _ _ _ _ => True) (Evolved allows base)
      (Owns allows) where
  shared i a shared phase _ hevolved howns := (program_step i a shared phase).evolved howns hevolved
  own i a shared phase _ _ howns := (program_step i a shared phase).owns howns
  other i _ a shared phase _ hij _ _ howns hother :=
    hother.undisturbed hij ((program_step i a shared phase).frame howns)

omit [DecidableEq ι] [DecidableEq κ] in
theorem holds_start (rows : κ → Option ρ) :
    Processes.Holds (Evolved allows rows) (Owns allows) (start (ι := ι) rows) :=
  ⟨fun _ old hold => ⟨old, hold, .refl⟩, fun _ => trivial⟩

/-- **The history of a row.** Whatever is executed between two moments, a row that was committed at the
first is there at the second, and has come there by updates that the trigger allows. -/
theorem versions_evolve (rows : κ → Option ρ) (before rest : List (ι × Action κ ρ)) {k : κ} {old : ρ}
    (hold : (Processes.run (program key allows) before (start rows)).shared.rows k = some old) :
    ∃ new, (Processes.run (program key allows) (before ++ rest) (start rows)).shared.rows k = some new ∧
      Path allows old new := by
  have hrun : Processes.run (program key allows) (before ++ rest) (start rows) =
      Processes.run (program key allows) rest (Processes.run (program key allows) before (start rows)) :=
    List.foldl_append ..
  have hmid := (statements_stable rows).run (Processes.along_true (program key allows) before _)
    (holds_start rows)
  have hbase : Processes.Holds
      (Evolved allows (Processes.run (program key allows) before (start rows)).shared.rows) (Owns allows)
      (Processes.run (program key allows) before (start rows)) :=
    ⟨fun _ old hold => ⟨old, hold, .refl⟩, hmid.2⟩
  rw [hrun]
  exact ((statements_stable _).run (Processes.along_true (program key allows) rest _) hbase).1 k old hold

/-- **A row stays** that the trigger allows no update of. -/
theorem final_stays (rows : κ → Option ρ) (before rest : List (ι × Action κ ρ)) {k : κ} {old : ρ}
    (hfinal : ∀ new, allows old new = false)
    (hold : (Processes.run (program key allows) before (start rows)).shared.rows k = some old) :
    (Processes.run (program key allows) (before ++ rest) (start rows)).shared.rows k = some old := by
  obtain ⟨new, hnew, hpath⟩ := versions_evolve rows before rest hold
  rcases hpath.cases_head with rfl | ⟨mid, hallowed, -⟩
  · exact hnew
  · rw [hfinal mid] at hallowed
    cases hallowed

end Runs

end Trueup.Lib.GuardedRows
