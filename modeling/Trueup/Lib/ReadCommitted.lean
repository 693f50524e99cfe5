import Mathlib.Logic.Function.Basic
import Trueup.Lib.Transaction

/-! # Transactions at read committed

Transactions that run statement by statement, in any order. A statement sees what is committed at
that moment and what its own transaction has written; the writes of a transaction are committed at
once, on top of what is committed then.

The state has a log: rows that are only ever appended, stamped with the start of the transaction
that appends them and looked up by a key. The order of the stamps is not the order of the commits.
What a transaction sees at a key, up to its own stamp, is therefore not what is seen there later, if
a transaction that started no later than it commits a row of the key after it has looked
(`LateCommit`).

* `step_cases`: what a step does.
* `Agrees`: up to its stamp, the transaction `p` has seen what is committed; every step that is not
  a late commit keeps it (`Agrees.step`).
* `Overtaken`: a row is committed that `p` has not seen, and for ever (`Overtaken.step`).
* `sees_same_iff`: what a transaction sees at the keys `p` has looked at, up to the stamp of `p`, is
  what `p` saw exactly when there was no late commit and it has written no such row itself. -/

namespace Trueup.Lib.ReadCommitted

open Transaction

/-- A log of a state: its rows, the key a row is looked up by, and its stamp. -/
structure Log (σ ρ κ τ : Type) where
  rows : σ → List ρ
  key : ρ → κ
  time : ρ → τ

variable {ε σ ρ κ τ ι : Type}

/-- The rows of a key. -/
def Log.ofKey [DecidableEq κ] (log : Log σ ρ κ τ) (k : κ) (s : σ) : List ρ :=
  (log.rows s).filter (log.key · = k)

/-- A write of a transaction that started at `start`: the rows it appends to the log are fixed when
it is made, are new to the log, and are stamped with the start. -/
structure Write (ε : Type) (log : Log σ ρ κ τ) (start : τ) where
  run : σ → Except ε σ
  rows : List ρ
  appends : ∀ {s s' : σ}, run s = .ok s' → log.rows s' = log.rows s ++ rows
  fresh : ∀ {s s' : σ}, run s = .ok s' → ∀ row ∈ rows, row ∉ log.rows s
  stamped : ∀ row ∈ rows, log.time row = start

namespace Write

variable {log : Log σ ρ κ τ} {start : τ}

/-- No write. -/
def none : Write ε log start where
  run := .ok
  rows := []
  appends h := by cases h; simp
  fresh _ row h := by cases h
  stamped row h := by cases h

/-- One write after another. -/
def andThen (w w' : Write ε log start) : Write ε log start where
  run s := w.run s >>= w'.run
  rows := w.rows ++ w'.rows
  appends h := by
    obtain ⟨t, ht, hs⟩ := except_bind_ok.mp h
    rw [w'.appends hs, w.appends ht, List.append_assoc]
  fresh h row hrow := by
    obtain ⟨t, ht, hs⟩ := except_bind_ok.mp h
    rcases List.mem_append.mp hrow with hrow | hrow
    · exact w.fresh ht row hrow
    · intro hmem
      exact w'.fresh hs row hrow (by rw [w.appends ht]; exact List.mem_append_left _ hmem)
  stamped row hrow := by
    rcases List.mem_append.mp hrow with hrow | hrow
    · exact w.stamped row hrow
    · exact w'.stamped row hrow

/-- A write of the rest of the state. -/
def ofRest (run : σ → Except ε σ) (h : ∀ {s s'}, run s = .ok s' → log.rows s' = log.rows s) :
    Write ε log start where
  run := run
  rows := []
  appends hrun := by rw [h hrun, List.append_nil]
  fresh _ row hrow := by cases hrow
  stamped row hrow := by cases hrow

end Write

/-- The state that a body without a value leaves. -/
def after (x : Tx ε σ Unit) (s : σ) : Except ε σ := (x.run s).map (·.2)

theorem after_ok {x : Tx ε σ Unit} {s s' : σ} : after x s = .ok s' ↔ x.run s = .ok ((), s') := by
  rw [after, except_map_ok]
  constructor
  · rintro ⟨⟨u, t⟩, h, rfl⟩
    exact h
  · exact fun h => ⟨((), s'), h, rfl⟩

theorem write_after (x : Tx ε σ Unit) : Transaction.write (after x) = x := by
  funext s
  show (after x s).map (((), ·)) = x.run s
  rw [after]
  cases x.run s with
  | error e => rfl
  | ok r => rfl

/-- The statements of a transaction that started at `start`: reads, looks at a key of the log, and
writes. -/
inductive Statements (ε : Type) (log : Log σ ρ κ τ) (start : τ) (α : Type) : Type 1
  | done (a : α)
  | read {β : Type} (f : σ → Except ε β) (next : β → Statements ε log start α)
  | look (k : κ) (next : List ρ → Statements ε log start α)
  | write (w : Write ε log start) (next : Statements ε log start α)

namespace Statements

variable {log : Log σ ρ κ τ} {start : τ} {α β : Type}

/-- The statements of `x`, then those of `f`. -/
def bind : Statements ε log start α → (α → Statements ε log start β) → Statements ε log start β
  | .done a, f => f a
  | .read g next, f => .read g fun b => (next b).bind f
  | .look k next, f => .look k fun rows => (next rows).bind f
  | .write w next, f => .write w (next.bind f)

instance : Monad (Statements ε log start) where
  pure := .done
  bind := bind

/-- A read of the state. -/
def query (f : σ → Except ε β) : Statements ε log start β := .read f .done

/-- The rows of a key. -/
def lookup (k : κ) : Statements ε log start (List ρ) := .look k .done

/-- A write. -/
def execute (w : Write ε log start) : Statements ε log start Unit := .write w (.done ())

/-- `f` for every item of a list, in order. -/
def each (f : β → Statements ε log start Unit) : List β → Statements ε log start Unit
  | [] => pure ()
  | b :: bs => do
    f b
    each f bs

/-- `x` if `c` holds, nothing otherwise. -/
def whenever (c : Prop) [Decidable c] (x : Statements ε log start Unit) :
    Statements ε log start Unit := if c then x else pure ()

/-! ### Where a transaction looks -/

/-- Wherever the transaction ends, with the value `a` and after it has looked at the keys `ks`, `P a
ks` holds; the list given is what it has looked at before. -/
def Looks (P : α → List κ → Prop) : Statements ε log start α → List κ → Prop
  | .done a, ks => P a ks
  | .read f next, ks => ∀ s b, f s = .ok b → (next b).Looks P ks
  | .look k next, ks => ∀ rows, (next rows).Looks P (ks ++ [k])
  | .write _ next, ks => next.Looks P ks

theorem looks_bind {P : α → List κ → Prop} {Q : β → List κ → Prop}
    {f : α → Statements ε log start β} (hf : ∀ a ks, P a ks → (f a).Looks Q ks) :
    ∀ (x : Statements ε log start α) {ks : List κ}, x.Looks P ks → (x >>= f).Looks Q ks
  | .done a, ks, h => hf a ks h
  | .read _ next, _, h => fun s b hb => looks_bind hf (next b) (h s b hb)
  | .look _ next, _, h => fun rows => looks_bind hf (next rows) (h rows)
  | .write _ next, _, h => looks_bind hf next h

theorem looks_query (f : σ → Except ε β) (ks : List κ) :
    (query f : Statements ε log start β).Looks (fun b ks' => ks' = ks ∧ ∃ s, f s = .ok b) ks :=
  fun s _ hb => ⟨rfl, s, hb⟩

/-- The statements look nowhere. -/
def Quiet (x : Statements ε log start α) : Prop := ∀ ks, x.Looks (fun _ ks' => ks' = ks) ks

theorem quiet_pure (a : α) : (pure a : Statements ε log start α).Quiet := fun _ => rfl

theorem quiet_query (f : σ → Except ε β) : (query f : Statements ε log start β).Quiet :=
  fun _ _ _ _ => rfl

theorem quiet_execute (w : Write ε log start) : (execute w).Quiet := fun _ => rfl

theorem quiet_bind {x : Statements ε log start α} {f : α → Statements ε log start β} (hx : x.Quiet)
    (hf : ∀ a, (f a).Quiet) : (x >>= f).Quiet :=
  fun ks => looks_bind (fun a _ hks => hks ▸ hf a ks) x (hx ks)

/-- What is looked at after quiet statements. -/
theorem Quiet.bind {x : Statements ε log start α} {f : α → Statements ε log start β} (hx : x.Quiet)
    {Q : β → List κ → Prop} {ks : List κ} (hf : ∀ a, (f a).Looks Q ks) : (x >>= f).Looks Q ks :=
  looks_bind (fun a _ hks => hks ▸ hf a) x (hx ks)

/-! ### A transaction on its own -/

variable [DecidableEq κ]

/-- The transaction on its own, as one unit. -/
def serial : Statements ε log start α → Tx ε σ α
  | .done a => pure a
  | .read f next => Transaction.read f >>= fun b => (next b).serial
  | .look k next => (Transaction.read fun s => .ok (log.ofKey k s)) >>= fun rows => (next rows).serial
  | .write w next => Transaction.write w.run >>= fun _ => next.serial

@[simp] theorem serial_pure (a : α) : (pure a : Statements ε log start α).serial = pure a := rfl

@[simp] theorem serial_bind (x : Statements ε log start α) (f : α → Statements ε log start β) :
    (x >>= f).serial = x.serial >>= fun a => (f a).serial := by
  show (x.bind f).serial = _
  induction x with
  | done a => exact (pure_bind (m := Tx ε σ) a fun a => (f a).serial).symm
  | read g next ih =>
    show (Transaction.read g >>= fun b => ((next b).bind f).serial) = _
    simp only [ih]
    exact (bind_assoc _ _ _).symm
  | look k next ih =>
    show (Transaction.read _ >>= fun rows => ((next rows).bind f).serial) = _
    simp only [ih]
    exact (bind_assoc _ _ _).symm
  | write w next ih =>
    show (Transaction.write w.run >>= fun _ => (next.bind f).serial) = _
    simp only [ih]
    exact (bind_assoc _ _ _).symm

@[simp] theorem serial_query (f : σ → Except ε β) :
    (query f : Statements ε log start β).serial = Transaction.read f := bind_pure _

@[simp] theorem serial_lookup (k : κ) :
    (lookup k : Statements ε log start (List ρ)).serial =
      Transaction.read fun s => .ok (log.ofKey k s) := bind_pure _

@[simp] theorem serial_execute (w : Write ε log start) :
    (execute w : Statements ε log start Unit).serial = Transaction.write w.run := bind_pure_unit

@[simp] theorem serial_whenever (c : Prop) [Decidable c] (x : Statements ε log start Unit) :
    (whenever c x).serial = Transaction.whenever c x.serial := by
  unfold whenever Transaction.whenever
  split_ifs
  · rfl
  · rfl

@[simp] theorem serial_each (f : β → Statements ε log start Unit) : ∀ bs,
    (each f bs).serial = Transaction.each (fun b => (f b).serial) bs
  | [] => rfl
  | b :: bs => by
    show (f b >>= fun _ => each f bs).serial = _
    rw [serial_bind, serial_each f bs]
    rfl

end Statements

/-! ### Interleavings -/

/-- Where a transaction is. -/
inductive Phase
  | running | committed | aborted
  deriving DecidableEq

/-- A transaction: its start, the statements that are left, what it has written and what it has seen
at the keys it has looked at. -/
structure Session (ε : Type) (log : Log σ ρ κ τ) where
  start : τ
  statements : Statements ε log start Unit
  own : Write ε log start
  looked : List (κ × List ρ)
  phase : Phase

/-- The committed state, and the transactions. -/
structure State (ι ε : Type) (log : Log σ ρ κ τ) where
  base : σ
  sessions : ι → Session ε log

section Step
variable {log : Log σ ρ κ τ}

/-- A transaction that has done nothing yet. -/
def Session.begin {start : τ} (statements : Statements ε log start Unit) : Session ε log :=
  ⟨start, statements, .none, [], .running⟩

/-- What the transaction sees when `base` is committed. -/
def Session.visible (session : Session ε log) (base : σ) : Except ε σ := session.own.run base

/-- The transaction is about to commit, and nothing is in the way. -/
def Session.commits (session : Session ε log) (base : σ) : Bool :=
  match session.phase, session.statements with
  | .running, .done _ => (session.visible base).isOk
  | _, _ => false

/-- The session is rolled back. -/
def Session.abort (session : Session ε log) : Session ε log := { session with phase := .aborted }

variable [DecidableEq κ]

/-- The next statement of a transaction, or its commit; the transaction and the committed state
after it. -/
def Session.advance (session : Session ε log) (base : σ) : Session ε log × σ :=
  match session.phase, session.visible base with
  | .committed, _ | .aborted, _ => (session, base)
  | .running, .error _ => (session.abort, base)
  | .running, .ok s =>
    match session.statements with
    | .done _ => ({ session with phase := .committed }, s)
    | .read f next =>
      match f s with
      | .ok b => ({ session with statements := next b }, base)
      | .error _ => (session.abort, base)
    | .look k next =>
      let rows := log.ofKey k s
      ({ session with statements := next rows, looked := session.looked ++ [(k, rows)] }, base)
    | .write w next =>
      match w.run s with
      | .ok _ => ({ session with statements := next, own := session.own.andThen w }, base)
      | .error _ => (session.abort, base)

variable [DecidableEq ι]

/-- The transaction `i` takes a step. -/
def step (st : State ι ε log) (i : ι) : State ι ε log where
  base := ((st.sessions i).advance st.base).2
  sessions := Function.update st.sessions i ((st.sessions i).advance st.base).1

/-- The state after the steps of a schedule. -/
def run (st : State ι ε log) (schedule : List ι) : State ι ε log := schedule.foldl step st

/-- Every step of the schedule meets `P` in the state it is taken in. -/
def Meets (P : State ι ε log → ι → Prop) : List ι → State ι ε log → Prop
  | [], _ => True
  | i :: schedule, st => P st i ∧ Meets P schedule (step st i)

instance (P : State ι ε log → ι → Prop) [∀ st i, Decidable (P st i)] :
    ∀ schedule st, Decidable (Meets P schedule st)
  | [], _ => isTrue trivial
  | i :: schedule, st =>
    have := instDecidableMeets P schedule (step st i)
    inferInstanceAs (Decidable (_ ∧ _))

/-! ### What a step does -/

/-- What became of a transaction and of the committed state. -/
inductive Advanced (session : Session ε log) (base : σ) (session' : Session ε log) (base' : σ) : Prop
  | stays (same : base' = base) (own : session'.own.rows = session.own.rows)
      (looked : session'.looked = session.looked)
      (phase : session'.phase = .committed → session.phase = .committed)
  | looks (same : base' = base) (k : κ) (s : σ) (visible : session.visible base = .ok s)
      (own : session'.own.rows = session.own.rows)
      (looked : session'.looked = session.looked ++ [(k, log.ofKey k s)])
      (phase : session'.phase = .running)
  | writes (same : base' = base) (rows : List ρ)
      (own : session'.own.rows = session.own.rows ++ rows)
      (looked : session'.looked = session.looked) (phase : session'.phase = .running)
  | commits (commits : session.commits base) (visible : session.visible base = .ok base')
      (own : session'.own.rows = session.own.rows) (looked : session'.looked = session.looked)

theorem visible_of_commits {session : Session ε log} {base : σ} (h : session.commits base) :
    session.visible base = .ok (session.advance base).2 := by
  unfold Session.commits at h
  split at h
  · rename_i a hphase hdone
    cases hvisible : session.visible base with
    | error e => rw [hvisible] at h; cases h
    | ok s => simp only [Session.advance, hphase, hvisible, hdone]
  · cases h

theorem advance_start (session : Session ε log) (base : σ) :
    (session.advance base).1.start = session.start := by
  unfold Session.advance
  split
  · rfl
  · rfl
  · rfl
  · split
    · rfl
    · split <;> rfl
    · rfl
    · split <;> rfl

theorem advance_cases (session : Session ε log) (base : σ) :
    Advanced session base (session.advance base).1 (session.advance base).2 := by
  unfold Session.advance
  split
  · exact .stays rfl rfl rfl id
  · exact .stays rfl rfl rfl id
  · exact .stays rfl rfl rfl fun h => by cases h
  · rename_i s hphase hvisible
    split
    · rename_i hdone
      have hcommits : session.commits base := by
        simp [Session.commits, hphase, hdone, hvisible, Except.isOk, Except.toBool]
      exact .commits hcommits hvisible rfl rfl
    · split
      · exact .stays rfl rfl rfl fun h => by rw [hphase] at h; cases h
      · exact .stays rfl rfl rfl fun h => by cases h
    · exact .looks rfl _ s hvisible rfl rfl hphase
    · split
      · exact .writes rfl _ rfl rfl hphase
      · exact .stays rfl rfl rfl fun h => by cases h

section Steps
variable (st : State ι ε log) (i : ι)

theorem step_self : (step st i).sessions i = ((st.sessions i).advance st.base).1 :=
  Function.update_self ..

theorem step_other {j : ι} (h : j ≠ i) : (step st i).sessions j = st.sessions j :=
  Function.update_of_ne h ..

theorem step_cases : Advanced (st.sessions i) st.base ((step st i).sessions i) (step st i).base :=
  step_self st i ▸ advance_cases (st.sessions i) st.base

theorem step_start (j : ι) : ((step st i).sessions j).start = (st.sessions j).start := by
  by_cases h : j = i
  · subst h
    rw [step_self, advance_start]
  · rw [step_other st i h]

theorem step_rows : (log.rows (step st i).base = log.rows st.base) ∨
    ((st.sessions i).commits st.base ∧
      log.rows (step st i).base = log.rows st.base ++ (st.sessions i).own.rows) := by
  cases step_cases st i with
  | stays same => exact Or.inl (congrArg log.rows same)
  | looks same => exact Or.inl (congrArg log.rows same)
  | writes same => exact Or.inl (congrArg log.rows same)
  | commits commits visible => exact Or.inr ⟨commits, (st.sessions i).own.appends visible⟩

theorem mem_step {row : ρ} (h : row ∈ log.rows st.base) : row ∈ log.rows (step st i).base := by
  rcases step_rows st i with hrows | ⟨-, hrows⟩
  · rwa [hrows]
  · rw [hrows]
    exact List.mem_append_left _ h

end Steps

theorem run_start (schedule : List ι) (st : State ι ε log) (j : ι) :
    ((run st schedule).sessions j).start = (st.sessions j).start := by
  induction schedule generalizing st with
  | nil => rfl
  | cons i schedule ih => exact (ih (step st i)).trans (step_start st i j)

theorem run_other {j : ι} : ∀ {schedule : List ι} (st : State ι ε log), j ∉ schedule →
    (run st schedule).sessions j = st.sessions j
  | [], _, _ => rfl
  | i :: schedule, st, h => by
    rw [List.mem_cons, not_or] at h
    exact (run_other (step st i) h.2).trans (step_other st i h.1)

theorem run_keeps {I : State ι ε log → Prop} (hstep : ∀ st i, I st → I (step st i)) :
    ∀ (schedule : List ι) {st : State ι ε log}, I st → I (run st schedule)
  | [], _, h => h
  | i :: schedule, st, h => run_keeps hstep schedule (hstep st i h)

theorem run_keeps_of_meets {I : State ι ε log → Prop} {P : State ι ε log → ι → Prop}
    (hstep : ∀ st i, I st → P st i → I (step st i)) :
    ∀ (schedule : List ι) {st : State ι ε log}, I st → Meets P schedule st → I (run st schedule)
  | [], _, h, _ => h
  | i :: schedule, st, h, hmeets =>
    run_keeps_of_meets hstep schedule (hstep st i h hmeets.1) hmeets.2

end Step

/-! ### What a transaction has seen -/

section Seen
variable {log : Log σ ρ κ τ} [DecidableEq κ] {session session' : Session ε log} {base base' : σ}

/-- The transaction has looked at the key. -/
def Session.LookedAt (session : Session ε log) (k : κ) : Prop := k ∈ session.looked.map (·.1)

instance (session : Session ε log) (k : κ) : Decidable (session.LookedAt k) := by
  unfold Session.LookedAt; infer_instance

/-- The rows at a key when the transaction first looked there. -/
def Session.firstLook (session : Session ε log) (k : κ) : List ρ :=
  ((session.looked.find? (·.1 = k)).map (·.2)).getD []

/-- What the transaction saw at a key: the rows there when it first looked, and its own. -/
def Session.saw (session : Session ε log) (k : κ) : List ρ :=
  session.firstLook k ++ session.own.rows.filter (log.key · = k)

theorem exists_of_lookedAt {k : κ} (h : session.LookedAt k) :
    ∃ rows, (k, rows) ∈ session.looked ∧ session.firstLook k = rows := by
  obtain ⟨x, hx, rfl⟩ := List.mem_map.mp h
  cases hfind : session.looked.find? (·.1 = x.1) with
  | none => simpa using List.find?_eq_none.mp hfind x hx
  | some y =>
    have hkey : y.1 = x.1 := by simpa using List.find?_some hfind
    exact ⟨y.2, hkey ▸ List.mem_of_find?_eq_some hfind, by simp [Session.firstLook, hfind]⟩

/-- What was looked at before is seen as it was. -/
theorem firstLook_append {k : κ} (h : session.LookedAt k) {new : List (κ × List ρ)}
    (hlooked : session'.looked = session.looked ++ new) :
    session'.firstLook k = session.firstLook k := by
  obtain ⟨x, hx, rfl⟩ := List.mem_map.mp h
  cases hfind : session.looked.find? (·.1 = x.1) with
  | none => simpa using List.find?_eq_none.mp hfind x hx
  | some y => simp [Session.firstLook, hlooked, List.find?_append, hfind]

theorem mem_saw {row : ρ} : row ∈ session.saw (log.key row) ↔
    row ∈ session.firstLook (log.key row) ∨ row ∈ session.own.rows := by
  simp [Session.saw]

/-! ### Invariants -/

/-- What the transaction has seen is committed, or its own. -/
structure Known (session : Session ε log) (base : σ) : Prop where
  looked : ∀ x ∈ session.looked, ∀ row ∈ x.2, row ∈ log.rows base ∨ row ∈ session.own.rows
  own : session.phase = .committed → ∀ row ∈ session.own.rows, row ∈ log.rows base
  keyed : ∀ x ∈ session.looked, ∀ row ∈ x.2, log.key row = x.1

omit [DecidableEq κ] in
theorem Known.grow (h : Known session base)
    (hrows : ∀ row ∈ log.rows base, row ∈ log.rows base') : Known session base' :=
  ⟨fun x hx row hrow => (h.looked x hx row hrow).imp_left (hrows row),
    fun hphase row hrow => hrows row (h.own hphase row hrow), h.keyed⟩

theorem Known.advance (h : Known session base) (hadv : Advanced session base session' base') :
    Known session' base' := by
  cases hadv with
  | stays same own looked phase =>
    subst same
    exact ⟨by rw [looked, own]; exact h.looked, fun hphase => by rw [own]; exact h.own (phase hphase),
      by rw [looked]; exact h.keyed⟩
  | looks same k s visible own looked phase =>
    subst same
    refine ⟨fun x hx row hrow => ?_, (fun hphase => by rw [phase] at hphase; cases hphase),
      fun x hx row hrow => ?_⟩
    · rw [own]
      rw [looked] at hx
      rcases List.mem_append.mp hx with hx | hx
      · exact h.looked x hx row hrow
      · rw [List.mem_singleton.mp hx, Log.ofKey, session.own.appends visible] at hrow
        exact List.mem_append.mp (List.mem_of_mem_filter hrow)
    · rw [looked] at hx
      rcases List.mem_append.mp hx with hx | hx
      · exact h.keyed x hx row hrow
      · rw [List.mem_singleton.mp hx] at hrow ⊢
        simpa using (List.mem_filter.mp hrow).2
  | writes same rows own looked phase =>
    subst same
    refine ⟨fun x hx row hrow => ?_, (fun hphase => by rw [phase] at hphase; cases hphase),
      by rw [looked]; exact h.keyed⟩
    rw [own]
    rw [looked] at hx
    exact (h.looked x hx row hrow).imp_right (List.mem_append_left _)
  | commits commits visible own looked =>
    have hrows := session.own.appends visible
    refine ⟨fun x hx row hrow => ?_, fun _ row hrow => ?_, by rw [looked]; exact h.keyed⟩
    · rw [looked] at hx
      rw [hrows, own]
      exact (h.looked x hx row hrow).imp_left (List.mem_append_left _)
    · rw [own] at hrow
      rw [hrows]
      exact List.mem_append_right _ hrow

theorem Known.key_eq (h : Known session base) {k : κ} (hlooked : session.LookedAt k) {row : ρ}
    (hrow : row ∈ session.saw k) : log.key row = k := by
  rcases List.mem_append.mp hrow with hrow | hrow
  · obtain ⟨rows, hlook, hfirst⟩ := exists_of_lookedAt hlooked
    exact h.keyed _ hlook row (hfirst ▸ hrow)
  · simpa using (List.mem_filter.mp hrow).2

theorem Known.of_saw (h : Known session base) (hcommitted : session.phase = .committed) {row : ρ}
    (hlooked : session.LookedAt (log.key row)) (hrow : row ∈ session.saw (log.key row)) :
    row ∈ log.rows base := by
  rcases mem_saw.mp hrow with hrow | hrow
  · obtain ⟨rows, hlook, hfirst⟩ := exists_of_lookedAt hlooked
    exact (h.looked _ hlook row (hfirst ▸ hrow)).elim id (h.own hcommitted row)
  · exact h.own hcommitted row hrow

/-- The transaction has done nothing yet. -/
structure Idle (session : Session ε log) : Prop where
  looked : session.looked = []
  own : session.own.rows = []

omit [DecidableEq κ] in
theorem Idle.known (h : Idle session) : Known session base :=
  ⟨by simp [h.looked], by simp [h.own], by simp [h.looked]⟩

/-- The transaction has seen every row that is committed at a key it has looked at, up to its
stamp. -/
def Agrees [LE τ] (session : Session ε log) (base : σ) : Prop :=
  ∀ x ∈ session.looked, ∀ row ∈ log.rows base, log.key row = x.1 → log.time row ≤ session.start →
    row ∈ x.2 ∨ row ∈ session.own.rows

theorem Agrees.advance [LE τ] (h : Agrees session base) (hstart : session'.start = session.start)
    (hadv : Advanced session base session' base') : Agrees session' base' := by
  intro x hx row hrow hkey htime
  rw [hstart] at htime
  cases hadv with
  | stays same own looked phase =>
    subst same
    rw [looked] at hx
    rw [own]
    exact h x hx row hrow hkey htime
  | looks same k s visible own looked phase =>
    subst same
    rw [looked] at hx
    rw [own]
    rcases List.mem_append.mp hx with hx | hx
    · exact h x hx row hrow hkey htime
    · rw [List.mem_singleton.mp hx] at hkey ⊢
      refine Or.inl (List.mem_filter.mpr ⟨?_, by simpa using hkey⟩)
      rw [session.own.appends visible]
      exact List.mem_append_left _ hrow
  | writes same rows own looked phase =>
    subst same
    rw [looked] at hx
    rw [own]
    exact (h x hx row hrow hkey htime).imp_right (List.mem_append_left _)
  | commits commits visible own looked =>
    rw [looked] at hx
    rw [session.own.appends visible] at hrow
    rw [own]
    rcases List.mem_append.mp hrow with hrow | hrow
    · exact h x hx row hrow hkey htime
    · exact Or.inr hrow

theorem Agrees.saw [LE τ] (h : Agrees session base) {row : ρ} (hrow : row ∈ log.rows base)
    (hlooked : session.LookedAt (log.key row)) (htime : log.time row ≤ session.start) :
    row ∈ session.saw (log.key row) := by
  obtain ⟨rows, hlook, hfirst⟩ := exists_of_lookedAt hlooked
  rw [mem_saw, hfirst]
  exact h _ hlook row hrow rfl htime

/-- The row is committed at a key the transaction has looked at, up to its stamp, and is not what it
has seen. -/
structure Overtaken [LE τ] (row : ρ) (session : Session ε log) (base : σ) : Prop where
  committed : row ∈ log.rows base
  time : log.time row ≤ session.start
  looked : session.LookedAt (log.key row)
  unseen : row ∉ session.firstLook (log.key row)
  own : session.phase = .committed → row ∉ session.own.rows

theorem Overtaken.grow [LE τ] {row : ρ} (h : Overtaken row session base)
    (hrows : ∀ row ∈ log.rows base, row ∈ log.rows base') : Overtaken row session base' :=
  { h with committed := hrows row h.committed }

theorem Overtaken.advance [LE τ] {row : ρ} (h : Overtaken row session base)
    (hstart : session'.start = session.start) (hadv : Advanced session base session' base') :
    Overtaken row session' base' := by
  cases hadv with
  | stays same own looked phase =>
    subst same
    have hlook : session'.firstLook (log.key row) = session.firstLook (log.key row) :=
      firstLook_append h.looked (looked.trans (List.append_nil _).symm)
    exact ⟨h.committed, hstart ▸ h.time, by rw [Session.LookedAt, looked]; exact h.looked,
      hlook ▸ h.unseen, fun hphase => own ▸ h.own (phase hphase)⟩
  | looks same k s visible own looked phase =>
    subst same
    refine ⟨h.committed, hstart ▸ h.time, ?_, firstLook_append h.looked looked ▸ h.unseen,
      fun hphase => by rw [phase] at hphase; cases hphase⟩
    rw [Session.LookedAt, looked, List.map_append]
    exact List.mem_append_left _ h.looked
  | writes same rows own looked phase =>
    subst same
    have hlook : session'.firstLook (log.key row) = session.firstLook (log.key row) :=
      firstLook_append h.looked (looked.trans (List.append_nil _).symm)
    exact ⟨h.committed, hstart ▸ h.time, by rw [Session.LookedAt, looked]; exact h.looked,
      hlook ▸ h.unseen, fun hphase => by rw [phase] at hphase; cases hphase⟩
  | commits commits visible own looked =>
    have hlook : session'.firstLook (log.key row) = session.firstLook (log.key row) :=
      firstLook_append h.looked (looked.trans (List.append_nil _).symm)
    refine ⟨?_, hstart ▸ h.time, by rw [Session.LookedAt, looked]; exact h.looked,
      hlook ▸ h.unseen, fun _ hown => ?_⟩
    · rw [session.own.appends visible]
      exact List.mem_append_left _ h.committed
    · -- a row that is committed cannot be committed once more
      exact session.own.fresh visible row (own ▸ hown) h.committed

/-- While the transaction runs, it will end as `Looks` says; when it has committed, it has. -/
structure Looking (P : List κ → Prop) (session : Session ε log) : Prop where
  running : session.phase = .running →
    session.statements.Looks (fun _ => P) (session.looked.map (·.1))
  committed : session.phase = .committed → P (session.looked.map (·.1))

theorem Looking.advance {P : List κ → Prop} (h : Looking P session) :
    Looking P (session.advance base).1 := by
  unfold Session.advance
  split
  · exact h
  · exact h
  · exact ⟨(fun h => by cases h), (fun h => by cases h)⟩
  · rename_i s hphase hvisible
    have hlooks := h.running hphase
    split
    · rename_i hdone
      rw [hdone] at hlooks
      exact ⟨(fun h => by cases h), fun _ => hlooks⟩
    · rename_i f next hread
      rw [hread] at hlooks
      split
      · rename_i b hb
        exact ⟨fun _ => hlooks s b hb, fun h => by rw [hphase] at h; cases h⟩
      · exact ⟨(fun h => by cases h), (fun h => by cases h)⟩
    · rename_i k next hlook
      rw [hlook] at hlooks
      refine ⟨fun _ => ?_, fun h => by rw [hphase] at h; cases h⟩
      show Statements.Looks _ (next _) (List.map _ (session.looked ++ [(k, _)]))
      rw [List.map_append]
      exact hlooks _
    · rename_i w next hwrite
      rw [hwrite] at hlooks
      split
      · exact ⟨fun _ => hlooks, fun h => by rw [hphase] at h; cases h⟩
      · exact ⟨(fun h => by cases h), (fun h => by cases h)⟩

end Seen

/-! ### Runs -/

section Late
variable {log : Log σ ρ κ τ} [DecidableEq κ] [DecidableEq ι] {p : ι} {st : State ι ε log}

/-- The rule for one transaction: its own steps keep the invariant, and so do the others'. -/
theorem step_session {I : Session ε log → σ → Prop} (i : ι)
    (hown : ∀ {session' base'}, session'.start = (st.sessions p).start →
      Advanced (st.sessions p) st.base session' base' → I (st.sessions p) st.base → I session' base')
    (hother : i ≠ p → I (st.sessions p) st.base → I (st.sessions p) (step st i).base)
    (h : I (st.sessions p) st.base) : I ((step st i).sessions p) (step st i).base := by
  by_cases hp : i = p
  · subst hp
    exact hown (step_start st i i) (step_cases st i) h
  · rw [step_other st i (Ne.symm hp)]
    exact hother hp h

theorem known_step (i : ι) (h : Known (st.sessions p) st.base) :
    Known ((step st i).sessions p) (step st i).base :=
  step_session i (fun _ hadv h => h.advance hadv) (fun _ h => h.grow fun _ => mem_step st i) h

theorem Idle.known_run (h : Idle (st.sessions p)) (schedule : List ι) :
    Known ((run st schedule).sessions p) (run st schedule).base :=
  run_keeps (I := fun st => Known (st.sessions p) st.base) (fun _ i => known_step i) schedule h.known

theorem looking_step {P : List κ → Prop} (i : ι) (h : Looking P (st.sessions p)) :
    Looking P ((step st i).sessions p) := by
  by_cases hp : i = p
  · subst hp
    rw [step_self]
    exact h.advance
  · rw [step_other st i (Ne.symm hp)]
    exact h

theorem looked_of_committed {P : List κ → Prop} (h : Looking P (st.sessions p))
    (schedule : List ι) (hcommitted : ((run st schedule).sessions p).phase = .committed) :
    P (((run st schedule).sessions p).looked.map (·.1)) :=
  (run_keeps (I := fun st => Looking P (st.sessions p)) (fun _ i => looking_step i) schedule
    h).committed hcommitted

variable [LE τ]

/-- Another transaction that started no later than `p` commits a row at a key `p` has looked at. -/
def LateCommit (p : ι) (st : State ι ε log) (i : ι) : Prop :=
  i ≠ p ∧ (st.sessions i).commits st.base ∧ (st.sessions i).start ≤ (st.sessions p).start ∧
    ∃ row ∈ (st.sessions i).own.rows, (st.sessions p).LookedAt (log.key row) ∧
      row ∉ (st.sessions p).own.rows

instance [DecidableLE τ] [DecidableEq ρ] (p : ι) (st : State ι ε log) (i : ι) :
    Decidable (LateCommit p st i) := by unfold LateCommit; infer_instance

theorem overtaken_step {row : ρ} (i : ι) (h : Overtaken row (st.sessions p) st.base) :
    Overtaken row ((step st i).sessions p) (step st i).base :=
  step_session i (fun hstart hadv h => h.advance hstart hadv)
    (fun _ h => h.grow fun _ => mem_step st i) h

/-- **A step that is not a late commit** commits nothing that `p` should have seen. -/
theorem agrees_step (i : ι) (h : Agrees (st.sessions p) st.base) (hlate : ¬ LateCommit p st i) :
    Agrees ((step st i).sessions p) (step st i).base := by
  refine step_session i (fun hstart hadv h => h.advance hstart hadv) (fun hp h => ?_) h
  intro x hx row hrow hkey htime
  rcases step_rows st i with hrows | ⟨hcommits, hrows⟩
  · exact h x hx row (hrows ▸ hrow) hkey htime
  · rw [hrows] at hrow
    rcases List.mem_append.mp hrow with hrow | hrow
    · exact h x hx row hrow hkey htime
    · rw [(st.sessions i).own.stamped row hrow] at htime
      by_contra hunseen
      exact hlate ⟨hp, hcommits, htime, row, hrow,
        hkey ▸ List.mem_map_of_mem hx, fun hown => hunseen (Or.inr hown)⟩

/-- **A late commit** commits a row that `p` has not seen. -/
theorem overtaken_of_late {i : ι} (h : Known (st.sessions p) st.base) (hlate : LateCommit p st i) :
    ∃ row, Overtaken row ((step st i).sessions p) (step st i).base := by
  obtain ⟨hp, hcommits, hstart, row, hrow, hlooked, hown⟩ := hlate
  rw [step_other st i (Ne.symm hp)]
  have hvisible := visible_of_commits hcommits
  have hfresh : row ∉ log.rows st.base := (st.sessions i).own.fresh hvisible row hrow
  refine ⟨row, ?_, ?_, hlooked, fun hseen => ?_, fun _ => hown⟩
  · show row ∈ log.rows ((st.sessions i).advance st.base).2
    rw [(st.sessions i).own.appends hvisible]
    exact List.mem_append_right _ hrow
  · rw [(st.sessions i).own.stamped row hrow]
    exact hstart
  · obtain ⟨rows, hlook, hfirst⟩ := exists_of_lookedAt hlooked
    exact (h.looked _ hlook row (hfirst ▸ hseen)).elim hfresh hown

/-- In a run with a late commit, some row overtakes `p`. -/
theorem overtaken_of_not_meets : ∀ (schedule : List ι) {st : State ι ε log},
    Known (st.sessions p) st.base → ¬ Meets (fun st i => ¬ LateCommit p st i) schedule st →
      ∃ row, Overtaken row ((run st schedule).sessions p) (run st schedule).base
  | [], _, _, hnot => absurd trivial hnot
  | i :: schedule, st, hknown, hnot => by
    by_cases hlate : LateCommit p st i
    · obtain ⟨row, hrow⟩ := overtaken_of_late hknown hlate
      exact ⟨row, run_keeps (I := fun st => Overtaken row (st.sessions p) st.base)
        (fun st i h => overtaken_step i h) schedule hrow⟩
    · exact overtaken_of_not_meets schedule (known_step i hknown) fun h => hnot ⟨hlate, h⟩

/-- **What is seen later is what was seen.** When `p` has committed, a transaction `d` sees, at the
keys `p` looked at and up to the stamp of `p`, what `p` saw, exactly when no commit was late and `d`
itself has written no row there that is stamped so early. -/
theorem sees_same_iff {d : ι} (hidle : Idle (st.sessions p)) (schedule : List ι) {s : σ}
    (hcommitted : ((run st schedule).sessions p).phase = .committed)
    (hvisible : ((run st schedule).sessions d).visible (run st schedule).base = .ok s) :
    (∀ row, ((run st schedule).sessions p).LookedAt (log.key row) →
        log.time row ≤ (st.sessions p).start →
          (row ∈ log.rows s ↔ row ∈ ((run st schedule).sessions p).saw (log.key row))) ↔
      Meets (fun st i => ¬ LateCommit p st i) schedule st ∧
        ∀ row ∈ ((run st schedule).sessions d).own.rows,
          ((run st schedule).sessions p).LookedAt (log.key row) →
            ¬ log.time row ≤ (st.sessions p).start := by
  have hknown := hidle.known_run schedule
  have hstart := run_start schedule st p
  have hrows := ((run st schedule).sessions d).own.appends hvisible
  constructor
  · intro hsame
    refine ⟨by_contra fun hnot => ?_, fun row hrow hlooked htime => ?_⟩
    · obtain ⟨row, hrow⟩ := overtaken_of_not_meets schedule hidle.known hnot
      have hseen := (hsame row hrow.looked (hstart ▸ hrow.time)).mp
        (hrows ▸ List.mem_append_left _ hrow.committed)
      exact (mem_saw.mp hseen).elim hrow.unseen (hrow.own hcommitted)
    · have hseen := (hsame row hlooked htime).mp (hrows ▸ List.mem_append_right _ hrow)
      exact ((run st schedule).sessions d).own.fresh hvisible row hrow
        (hknown.of_saw hcommitted hlooked hseen)
  · rintro ⟨hmeets, hown⟩ row hlooked htime
    have hagrees : Agrees ((run st schedule).sessions p) (run st schedule).base :=
      run_keeps_of_meets (I := fun st => Agrees (st.sessions p) st.base) (fun _ i => agrees_step i)
        schedule (by simp [Agrees, hidle.looked]) hmeets
    rw [hrows, List.mem_append]
    constructor
    · rintro (hrow | hrow)
      · exact hagrees.saw hrow hlooked (hstart ▸ htime)
      · exact absurd htime (hown row hrow hlooked)
    · exact fun hrow => Or.inl (hknown.of_saw hcommitted hlooked hrow)

end Late

end Trueup.Lib.ReadCommitted
