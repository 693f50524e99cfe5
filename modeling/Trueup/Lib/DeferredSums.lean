import Trueup.Lib.Locks
import Trueup.Lib.Processes
import Trueup.Lib.Table

/-! # Sums that are checked at the commit

A table with a deferred constraint trigger: at the commit, for every row that was written, the sum of
one group of rows is checked to be a target, by a query that sees what is committed by then and what the
transaction has written. Any number of sessions insert, update and delete rows at READ COMMITTED, in any
order of their statements; a row that is written is locked until the transaction ends.

* `total_applyAll_sub`: what a transaction adds to a sum depends on the rows that it writes only.
* `Step`: what a statement does; `Knows`: what a session knows of the sum of a group.
* `sums_stay`: a sum that is the target, up to multiples of a number, stays so, if the trigger checks
  the group whenever a row that counts for it is written. -/

namespace Trueup.Lib.DeferredSums

variable {ι κ ρ γ : Type} {key : ρ → κ}

/-! ### Writes -/

/-- A version that a transaction has written. -/
inductive Write (κ ρ : Type)
  | put (row : ρ)
  | remove (k : κ)
  deriving DecidableEq

def Write.keyOf (key : ρ → κ) : Write κ ρ → κ
  | .put row => key row
  | .remove k => k

def Write.row : Write κ ρ → Option ρ
  | .put row => some row
  | .remove _ => none

/-- What a row counts, if it is there. -/
def countOf (f : ρ → ℤ) (row : Option ρ) : ℤ := (row.map f).getD 0

section Writes
variable [DecidableEq κ] {t u : Table key} {f : ρ → ℤ}

def Write.apply (table : Table key) : Write κ ρ → Table key
  | .put row => table.upsert row
  | .remove k => table.erase k

/-- The table as a transaction sees it. -/
def applyAll (table : Table key) (own : List (Write κ ρ)) : Table key := own.foldl Write.apply table

theorem applyAll_append (table : Table key) (own own' : List (Write κ ρ)) :
    applyAll table (own ++ own') = applyAll (applyAll table own) own' := List.foldl_append ..

theorem upsert_of_has {row : ρ} (h : t.Has (key row)) : t.upsert row = t.set row := by
  unfold Table.upsert
  rw [Table.insert_eq_none.mpr h, Option.getD_none]

theorem find_apply (w : Write κ ρ) (k : κ) :
    (w.apply t).find k = if w.keyOf key = k then w.row else t.find k := by
  cases w with
  | remove k' =>
    show (t.erase k').find k = _
    rw [Table.find_erase]
    simp only [Write.keyOf, Write.row, eq_comm]
  | put row =>
    show (t.upsert row).find k = if key row = k then some row else t.find k
    by_cases hhas : t.Has (key row)
    · rw [upsert_of_has hhas, Table.find_set hhas]
    · obtain ⟨v, hv⟩ := Table.exists_insert hhas
      have hupsert : t.upsert row = v := by
        unfold Table.upsert
        rw [hv, Option.getD_some]
      rw [hupsert, Table.find_insert hv]

/-- A write changes a sum by what the row counts afterwards, less what it has counted. -/
theorem total_apply (w : Write κ ρ) :
    (w.apply t).total f = t.total f + countOf f w.row - countOf f (t.find (w.keyOf key)) := by
  cases w with
  | remove k =>
    show (t.erase k).total f = t.total f + 0 - countOf f (t.find k)
    cases hfind : t.find k with
    | none =>
      have hmiss : ¬ t.Has k := Table.find_eq_none.mp hfind
      have hrows : (t.erase k).rows = t.rows := List.filter_eq_self.mpr fun row hrow =>
        decide_eq_true fun hk => hmiss (hk ▸ Table.has_of_mem hrow)
      simp [Table.total, hrows, countOf]
    | some row =>
      obtain ⟨hmem, rfl⟩ := Table.find_eq_some.mp hfind
      obtain ⟨front, back, hrows, -, hothers⟩ := Table.exists_rows_set hmem (r := row) rfl
      have hkept : ∀ l : List ρ, (∀ row' ∈ l, row' ∈ front ++ back) →
          l.filter (fun row' => key row' ≠ key row) = l := fun l hl =>
        List.filter_eq_self.mpr fun row' hrow' => decide_eq_true (hothers row' (hl row' hrow')).2
      have herase : (t.erase (key row)).rows = front ++ back := by
        show t.rows.filter (fun row' => key row' ≠ key row) = front ++ back
        rw [hrows, List.filter_append, List.filter_cons_of_neg (by simp),
          hkept front fun _ => List.mem_append_left back, hkept back fun _ => List.mem_append_right front]
      have hcount : countOf f (some row) = f row := rfl
      simp only [Table.total, herase, hrows, List.map_append, List.map_cons, List.sum_append,
        List.sum_cons, hcount]
      omega
  | put row =>
    show (t.upsert row).total f = t.total f + f row - countOf f (t.find (key row))
    by_cases hhas : t.Has (key row)
    · obtain ⟨old, hold⟩ := Option.ne_none_iff_exists'.mp fun hnone => Table.find_eq_none.mp hnone hhas
      obtain ⟨hmem, hkey⟩ := Table.find_eq_some.mp hold
      have hset := Table.total_set hmem hkey f
      have hcount : countOf f (some old) = f old := rfl
      rw [upsert_of_has hhas, hset, hold, hcount]
      omega
    · obtain ⟨v, hv⟩ := Table.exists_insert hhas
      have hupsert : t.upsert row = v := by
        unfold Table.upsert
        rw [hv, Option.getD_some]
      have hcount : countOf f (none : Option ρ) = 0 := rfl
      rw [hupsert, Table.total_insert hv, Table.find_eq_none.mpr hhas, hcount]
      omega

theorem find_applyAll {own : List (Write κ ρ)} {k : κ} (h : ∀ w ∈ own, w.keyOf key ≠ k) :
    (applyAll t own).find k = t.find k := by
  induction own generalizing t with
  | nil => rfl
  | cons w own ih =>
    have hrest := ih (t := w.apply t) fun w' hw' => h w' (List.mem_cons_of_mem _ hw')
    have hne := h w List.mem_cons_self
    exact hrest.trans ((find_apply w k).trans (if_neg hne))

/-- **What a transaction adds to a sum** is the same over tables that agree on the rows it writes. -/
theorem total_applyAll_sub {own : List (Write κ ρ)}
    (h : ∀ w ∈ own, t.find (w.keyOf key) = u.find (w.keyOf key)) :
    (applyAll t own).total f - t.total f = (applyAll u own).total f - u.total f := by
  induction own generalizing t u with
  | nil => simp [applyAll]
  | cons w own ih =>
    have hrest := ih (t := w.apply t) (u := w.apply u) fun w' hw' => by
      rw [find_apply, find_apply, h w' (List.mem_cons_of_mem _ hw')]
    have hfirst := h w List.mem_cons_self
    have ht := total_apply (t := t) (f := f) w
    have hu := total_apply (t := u) (f := f) w
    rw [hfirst] at ht
    show (applyAll (w.apply t) own).total f - _ = (applyAll (w.apply u) own).total f - _
    omega

end Writes

/-! ### Sessions -/

/-- What a statement has done to a row. -/
inductive Change (ρ : Type)
  | inserted (new : ρ)
  | updated (old new : ρ)
  | deleted (old : ρ)

/-- What it adds to a sum. -/
def Change.effect (f : ρ → ℤ) : Change ρ → ℤ
  | .inserted new => f new
  | .updated old new => f new - f old
  | .deleted old => - f old

/-- The trigger: the group it checks for a change, what the rows count for a group, and the target. -/
structure Trigger (ρ γ : Type) where
  watch : Change ρ → γ
  amount : γ → ρ → ℤ
  target : ℤ

/-- The committed rows, and who has a row locked. -/
structure Shared (ι : Type) (key : ρ → κ) where
  rows : Table key
  locks : Locks κ ι

/-- A session, with what its transaction has written and the checks that are left. -/
inductive Phase (κ ρ γ : Type)
  | idle
  | inside (own : List (Write κ ρ)) (pending : List γ)
  | checking (own : List (Write κ ρ)) (pending : List γ)

inductive Action (κ ρ : Type)
  | begin
  | insert (row : ρ)
  | update (k : κ) (set : ρ → ρ)
  | delete (k : κ)
  /-- `COMMIT`, whose checks come first -/
  | commit
  | check
  | finish
  /-- or a crash -/
  | rollback

section Program
variable [DecidableEq ι] [DecidableEq κ] (trigger : Trigger ρ γ)

/-- The transaction ends, and writes nothing. -/
def Shared.abort (shared : Shared ι key) (i : ι) : Shared ι key × Phase κ ρ γ :=
  ({ shared with locks := shared.locks.release i }, .idle)

/-- The transaction writes versions of rows that it locks. -/
def Shared.write (shared : Shared ι key) (i : ι) (own : List (Write κ ρ)) (pending : List γ)
    (ws : List (Write κ ρ)) (change : Change ρ) : Shared ι key × Phase κ ρ γ :=
  ({ shared with locks := shared.locks.take i (ws.map (Write.keyOf key)) },
    .inside (own ++ ws) (pending ++ [trigger.watch change]))

/-- `INSERT`: it waits for a transaction that has written the key. -/
def insertRow (i : ι) (shared : Shared ι key) (own : List (Write κ ρ)) (pending : List γ) (row : ρ) :
    Shared ι key × Phase κ ρ γ :=
  if ¬ shared.locks.FreeFor i (key row) then (shared, .inside own pending)
  else if (applyAll shared.rows own).Has (key row) then shared.abort i
  else shared.write trigger i own pending [.put row] (.inserted row)

/-- `UPDATE` of a row: it waits for the transactions that have written the old key or the new one. -/
def updateRow (i : ι) (shared : Shared ι key) (own : List (Write κ ρ)) (pending : List γ) (k : κ)
    (set : ρ → ρ) : Shared ι key × Phase κ ρ γ :=
  if ¬ shared.locks.FreeFor i k then (shared, .inside own pending)
  else
    match (applyAll shared.rows own).find k with
    | none => (shared, .inside own pending)
    | some old =>
      let new := set old
      if key new = k then shared.write trigger i own pending [.put new] (.updated old new)
      else if ¬ shared.locks.FreeFor i (key new) then (shared, .inside own pending)
      else if (applyAll shared.rows own).Has (key new) then shared.abort i
      else shared.write trigger i own pending [.remove k, .put new] (.updated old new)

/-- `DELETE` of a row. -/
def deleteRow (i : ι) (shared : Shared ι key) (own : List (Write κ ρ)) (pending : List γ) (k : κ) :
    Shared ι key × Phase κ ρ γ :=
  if ¬ shared.locks.FreeFor i k then (shared, .inside own pending)
  else
    match (applyAll shared.rows own).find k with
    | none => (shared, .inside own pending)
    | some old => shared.write trigger i own pending [.remove k] (.deleted old)

/-- A check of the commit. -/
def checkGroup (i : ι) (shared : Shared ι key) (own : List (Write κ ρ)) (g : γ) (pending : List γ) :
    Shared ι key × Phase κ ρ γ :=
  if (applyAll shared.rows own).total (trigger.amount g) = trigger.target then
    (shared, .checking own pending)
  else shared.abort i

/-- The statements of the sessions. -/
def program : Processes.Program ι (Action κ ρ) (Shared ι key) (Phase κ ρ γ)
  | _, .begin, shared, .idle => (shared, .inside [] [])
  | i, .insert row, shared, .inside own pending => insertRow trigger i shared own pending row
  | i, .update k set, shared, .inside own pending => updateRow trigger i shared own pending k set
  | i, .delete k, shared, .inside own pending => deleteRow trigger i shared own pending k
  | _, .commit, shared, .inside own pending => (shared, .checking own pending)
  | i, .check, shared, .checking own (g :: pending) => checkGroup trigger i shared own g pending
  | i, .finish, shared, .checking own [] => (⟨applyAll shared.rows own, shared.locks.release i⟩, .idle)
  | i, .rollback, shared, _ => shared.abort i
  | _, _, shared, phase => (shared, phase)

end Program

/-- The rows at the start, and idle sessions. -/
def start (rows : Table key) : Processes.Config ι (Shared ι key) (Phase κ ρ γ) :=
  ⟨⟨rows, fun _ => none⟩, fun _ => .idle⟩

/-- The trigger checks the group if the change counts for it. -/
def Trigger.Covers (trigger : Trigger ρ γ) (g : γ) (change : Change ρ) : Prop :=
  change.effect (trigger.amount g) = 0 ∨ trigger.watch change = g

/-- Whatever the statement changes counts for no group that the trigger does not check. -/
def Action.IsCovered (trigger : Trigger ρ γ) (g : γ) : Action κ ρ → Prop
  | .insert row => trigger.Covers g (.inserted row)
  | .update _ set => ∀ old, trigger.Covers g (.updated old (set old))
  | .delete _ => ∀ old, trigger.Covers g (.deleted old)
  | _ => True

/-! ### What a statement did -/

section Invariant
variable [DecidableEq ι] [DecidableEq κ] {trigger : Trigger ρ γ} {i j : ι} {a : Action κ ρ}
  {shared shared' : Shared ι key} {phase phase' other : Phase κ ρ γ}

/-- What a statement of the session `i` did to the table and to the session. -/
inductive Step (trigger : Trigger ρ γ) (i : ι) (a : Action κ ρ) (shared : Shared ι key) :
    Phase κ ρ γ → Shared ι key → Phase κ ρ γ → Prop
  | stays (phase : Phase κ ρ γ) : Step trigger i a shared phase shared phase
  | begins : Step trigger i a shared .idle shared (.inside [] [])
  | writes (own : List (Write κ ρ)) (pending : List γ) (ws : List (Write κ ρ)) (change : Change ρ)
      (free : ∀ k ∈ ws.map (Write.keyOf key), shared.locks.FreeFor i k)
      (adds : ∀ f, (applyAll (applyAll shared.rows own) ws).total f =
        (applyAll shared.rows own).total f + change.effect f)
      (covered : ∀ g, a.IsCovered trigger g → trigger.Covers g change) :
      Step trigger i a shared (.inside own pending)
        { shared with locks := shared.locks.take i (ws.map (Write.keyOf key)) }
        (.inside (own ++ ws) (pending ++ [trigger.watch change]))
  | commits (own : List (Write κ ρ)) (pending : List γ) :
      Step trigger i a shared (.inside own pending) shared (.checking own pending)
  | checks (own : List (Write κ ρ)) (g : γ) (pending : List γ)
      (holds : (applyAll shared.rows own).total (trigger.amount g) = trigger.target) :
      Step trigger i a shared (.checking own (g :: pending)) shared (.checking own pending)
  | finishes (own : List (Write κ ρ)) :
      Step trigger i a shared (.checking own [])
        ⟨applyAll shared.rows own, shared.locks.release i⟩ .idle
  | aborts (phase : Phase κ ρ γ) :
      Step trigger i a shared phase { shared with locks := shared.locks.release i } .idle

theorem total_put (t : Table key) (row : ρ) (f : ρ → ℤ) :
    (applyAll t [.put row]).total f = t.total f + f row - countOf f (t.find (key row)) :=
  total_apply (.put row)

theorem step_write {own : List (Write κ ρ)} {pending : List γ} {ws : List (Write κ ρ)}
    {change : Change ρ} (hfree : ∀ k ∈ ws.map (Write.keyOf key), shared.locks.FreeFor i k)
    (hadds : ∀ f, (applyAll (applyAll shared.rows own) ws).total f =
      (applyAll shared.rows own).total f + change.effect f)
    (hcovered : ∀ g, a.IsCovered trigger g → trigger.Covers g change) :
    Step trigger i a shared (.inside own pending) (shared.write trigger i own pending ws change).1
      (shared.write trigger i own pending ws change).2 :=
  .writes own pending ws change hfree hadds hcovered

/-- **What a statement did.** -/
theorem program_step (i : ι) (a : Action κ ρ) (shared : Shared ι key) (phase : Phase κ ρ γ) :
    Step trigger i a shared phase (program trigger i a shared phase).1
      (program trigger i a shared phase).2 := by
  unfold program
  split
  · exact .begins
  · rename_i row own pending
    unfold insertRow
    split_ifs with hfree hthere
    · exact .aborts _
    · refine step_write (by simpa [Write.keyOf] using hfree) (fun f => ?_) fun _ h => h
      have hcount : countOf f (none : Option ρ) = 0 := rfl
      rw [total_put, Table.find_eq_none.mpr hthere, hcount, Change.effect]
      omega
    · exact .stays _
  · rename_i k set own pending
    unfold updateRow
    split_ifs with hfree
    · cases hfind : (applyAll shared.rows own).find k with
      | none => exact .stays _
      | some old =>
        dsimp only
        have hcount : ∀ f : ρ → ℤ, countOf f (some old) = f old := fun _ => rfl
        split_ifs with hsame hnew hthere
        · refine step_write (by simpa [Write.keyOf, hsame] using hfree) (fun f => ?_) fun _ h => h old
          rw [total_put, hsame, hfind, hcount, Change.effect]
          omega
        · exact .aborts _
        · refine step_write (by simpa [Write.keyOf] using ⟨hfree, hnew⟩) (fun f => ?_) fun _ h => h old
          have hremoved := total_apply (t := applyAll shared.rows own) (f := f) (.remove k)
          have hput := total_put ((Write.remove k).apply (applyAll shared.rows own)) (set old) f
          have hmissing : ((Write.remove k).apply (applyAll shared.rows own)).find (key (set old)) =
              none := by
            rw [find_apply]
            split_ifs
            · rfl
            · exact Table.find_eq_none.mpr hthere
          have hnone : countOf f (none : Option ρ) = 0 := rfl
          rw [hmissing, hnone] at hput
          simp only [Write.row, Write.keyOf, hfind, hcount, hnone] at hremoved
          show (applyAll ((Write.remove k).apply (applyAll shared.rows own)) [.put (set old)]).total f = _
          rw [hput, hremoved, Change.effect]
          omega
        · exact .stays _
    · exact .stays _
  · rename_i k own pending
    unfold deleteRow
    split_ifs with hfree
    · cases hfind : (applyAll shared.rows own).find k with
      | none => exact .stays _
      | some old =>
        refine step_write (by simpa [Write.keyOf] using hfree) (fun f => ?_) fun _ h => h old
        have hremoved := total_apply (t := applyAll shared.rows own) (f := f) (.remove k)
        have hnone : countOf f (none : Option ρ) = 0 := rfl
        have hcount : countOf f (some old) = f old := rfl
        simp only [Write.row, Write.keyOf, hfind, hcount, hnone] at hremoved
        show ((Write.remove k).apply (applyAll shared.rows own)).total f = _
        rw [hremoved, Change.effect]
        omega
    · exact .stays _
  · exact .commits _ _
  · rename_i own g pending
    unfold checkGroup
    split_ifs with hholds
    · exact .checks own g pending hholds
    · exact .aborts _
  · exact .finishes _
  · exact .aborts _
  · exact .stays _

/-! ### What it keeps -/

/-- The sum of the group is the target, up to multiples of `d`. -/
def Sound (trigger : Trigger ρ γ) (d : ℤ) (g : γ) (shared : Shared ι key) : Prop :=
  d ∣ shared.rows.total (trigger.amount g) - trigger.target

/-- What a transaction knows: it has its rows locked, and it adds nothing to the sum, up to multiples
of `d`, unless the check of the group is left. -/
def Adds (trigger : Trigger ρ γ) (d : ℤ) (g : γ) (i : ι) (shared : Shared ι key)
    (own : List (Write κ ρ)) (pending : List γ) : Prop :=
  (∀ w ∈ own, shared.locks (w.keyOf key) = some i) ∧
    (g ∈ pending ∨ d ∣ (applyAll shared.rows own).total (trigger.amount g) -
      shared.rows.total (trigger.amount g))

def Knows (trigger : Trigger ρ γ) (d : ℤ) (g : γ) (i : ι) (shared : Shared ι key) :
    Phase κ ρ γ → Prop
  | .idle => True
  | .inside own pending | .checking own pending => Adds trigger d g i shared own pending

/-- What a statement of the session `i` leaves alone: the rows that others have locked, and their
locks. -/
structure Frame (i : ι) (shared shared' : Shared ι key) : Prop where
  rows : ∀ j, i ≠ j → ∀ k, shared.locks k = some j → shared'.rows.find k = shared.rows.find k
  locks : ∀ j, i ≠ j → shared.locks.Keeps shared'.locks j

variable {d : ℤ} {g : γ}

/-- **A statement leaves the others what they have locked.** -/
theorem Step.frame (h : Step trigger i a shared phase shared' phase')
    (hknows : Knows trigger d g i shared phase) : Frame i shared shared' := by
  have hrelease : ∀ j, i ≠ j → shared.locks.Keeps (shared.locks.release i) j :=
    fun j hij => Locks.keeps_release hij
  cases h with
  | stays | begins | commits | checks => exact ⟨fun _ _ _ _ => rfl, fun j _ => .refl _ j⟩
  | writes own pending ws change free =>
    exact ⟨fun _ _ _ _ => rfl, fun j hij => Locks.keeps_take_other free hij⟩
  | aborts => exact ⟨fun _ _ _ _ => rfl, hrelease⟩
  | finishes own =>
    refine ⟨fun j hij k hk => find_applyAll fun w hw hkey => hij ?_, hrelease⟩
    have hlock := hknows.1 w hw
    rw [hkey, hk] at hlock
    exact (Option.some.inj hlock).symm

/-- **The sum stays** with a statement. -/
theorem Step.sound (h : Step trigger i a shared phase shared' phase')
    (hknows : Knows trigger d g i shared phase) (hsound : Sound trigger d g shared) :
    Sound trigger d g shared' := by
  cases h with
  | stays | begins | writes | commits | checks | aborts => exact hsound
  | finishes own =>
    have hadds := hknows.2.resolve_left List.not_mem_nil
    have hsum := Int.dvd_add hadds hsound
    unfold Sound
    rwa [sub_add_sub_cancel] at hsum

/-- **What a session knows** after a statement of its own. -/
theorem Step.knows (h : Step trigger i a shared phase shared' phase')
    (hcovered : a.IsCovered trigger g) (hknows : Knows trigger d g i shared phase)
    (hsound : Sound trigger d g shared) : Knows trigger d g i shared' phase' := by
  cases h with
  | stays => exact hknows
  | begins => exact ⟨fun _ h => absurd h List.not_mem_nil, Or.inr (by simp [applyAll])⟩
  | finishes | aborts => trivial
  | commits => exact hknows
  | checks own g' pending holds =>
    obtain ⟨hlocks, hadds⟩ := hknows
    refine ⟨hlocks, ?_⟩
    rcases hadds with hmem | hadds
    · rcases List.mem_cons.mp hmem with rfl | hmem
      · have hneg := (Int.dvd_neg (a := d)).mpr hsound
        rw [neg_sub] at hneg
        rw [holds]
        exact Or.inr hneg
      · exact Or.inl hmem
    · exact Or.inr hadds
  | writes own pending ws change free adds covered =>
    obtain ⟨hlocks, hadds⟩ := hknows
    refine ⟨fun w hw => ?_, ?_⟩
    · rcases List.mem_append.mp hw with hold | hnew
      · exact Locks.keeps_take_own _ (hlocks w hold)
      · exact Locks.take_mem (List.mem_map_of_mem hnew)
    · rcases hadds with hmem | hadds
      · exact Or.inl (List.mem_append_left _ hmem)
      · rcases covered g hcovered with hnone | hwatch
        · rw [applyAll_append, adds, hnone, add_zero]
          exact Or.inr hadds
        · exact Or.inl (List.mem_append_right _ (List.mem_singleton.mpr hwatch.symm))

omit [DecidableEq ι] in
theorem Adds.undisturbed {own : List (Write κ ρ)} {pending : List γ} (hij : i ≠ j)
    (hframe : Frame i shared shared') (h : Adds trigger d g j shared own pending) :
    Adds trigger d g j shared' own pending := by
  obtain ⟨hlocks, hadds⟩ := h
  have hsub : (applyAll shared'.rows own).total (trigger.amount g) -
        shared'.rows.total (trigger.amount g) =
      (applyAll shared.rows own).total (trigger.amount g) - shared.rows.total (trigger.amount g) :=
    total_applyAll_sub fun w hw => hframe.rows j hij _ (hlocks w hw)
  exact ⟨fun w hw => hframe.locks j hij _ (hlocks w hw), hsub ▸ hadds⟩

omit [DecidableEq ι] in
/-- **A session does not interfere with another.** -/
theorem Knows.undisturbed (hij : i ≠ j) (hframe : Frame i shared shared')
    (h : Knows trigger d g j shared other) : Knows trigger d g j shared' other := by
  cases other with
  | idle => trivial
  | inside | checking => exact Adds.undisturbed hij hframe h

end Invariant

section Runs
variable [DecidableEq ι] [DecidableEq κ]

/-- **No statement breaks the invariant.** -/
theorem sums_stable (trigger : Trigger ρ γ) (d : ℤ) (g : γ) :
    Processes.Stable (program trigger : Processes.Program ι (Action κ ρ) (Shared ι key) (Phase κ ρ γ))
      (fun _ a _ _ => a.IsCovered trigger g) (Sound trigger d g) (Knows trigger d g) where
  shared i a shared phase _ hsound hknows := (program_step i a shared phase).sound hknows hsound
  own i a shared phase hcovered hsound hknows :=
    (program_step i a shared phase).knows hcovered hknows hsound
  other i _ a shared phase _ hij _ _ hknows hother :=
    hother.undisturbed hij ((program_step i a shared phase).frame hknows)

/-- **A checked sum stays.** In every run whose statements write no row that counts for the group
unless the trigger checks it, the sum of the group is the target, up to multiples of `d`, if it is at
the start. -/
theorem sums_stay (trigger : Trigger ρ γ) (d : ℤ) (g : γ) (rows : Table key)
    (steps : List (ι × Action κ ρ)) (hcovered : ∀ step ∈ steps, step.2.IsCovered trigger g)
    (hstart : d ∣ rows.total (trigger.amount g) - trigger.target) :
    d ∣ (Processes.run (program trigger) steps (start rows)).shared.rows.total (trigger.amount g) -
      trigger.target := by
  have halong : Processes.Along (program trigger) (fun _ a _ _ => a.IsCovered trigger g) steps
      (start (ι := ι) rows) := by
    refine (Processes.along_iff _).mpr fun before step rest heq => hcovered step ?_
    simp [heq]
  exact ((sums_stable trigger d g).run halong ⟨hstart, fun _ => trivial⟩).1

end Runs

end Trueup.Lib.DeferredSums
