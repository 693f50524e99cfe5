import Trueup.Lib.Processes
import Trueup.Lib.Transaction

/-! # Transactions with locks, statement by statement

A script is a transaction as the statements it sends: reads, writes and locks. Any number of
processes run one script each, in any order and with crashes. A statement sees what is committed at
that moment and what its own transaction has written. When the script ends with a value that
commits, the writes are committed at once, on top of what is committed then; otherwise, and when a
statement raises, they are rolled back. A lock is held until the transaction ends, and who asks for
it in the meantime waits.

The history lists the commits, and what else has changed the state.

* `serial`: the script on its own, as one unit.
* `Ends P`: whatever the script ends with, and has written then, satisfies `P`.
* `Leaves view`: the script does not write to the view.
* `step_cases`: what an action does.
* `run_ok`: the committed state is what the history makes of the first one, every commit in the
  history is what its script ends with, and a process has one commit in it, or none if it has not
  committed. -/

namespace Trueup.Lib.Scripts

open Transaction

variable {ε σ Λ α β γ : Type}

/-- The statements of a transaction. -/
inductive Script (ε σ Λ α : Type) : Type 1
  | done (a : α)
  | read {β : Type} (f : σ → Except ε β) (next : β → Script ε σ Λ α)
  | write (w : σ → Except ε σ) (next : Script ε σ Λ α)
  | lock (l : Λ) (next : Script ε σ Λ α)

namespace Script

/-- The statements of `x`, then those of `f`. -/
def bind : Script ε σ Λ α → (α → Script ε σ Λ β) → Script ε σ Λ β
  | .done a, f => f a
  | .read g next, f => .read g fun b => (next b).bind f
  | .write w next, f => .write w (next.bind f)
  | .lock l next, f => .lock l (next.bind f)

instance : Monad (Script ε σ Λ) where
  pure := .done
  bind := bind

/-- A read of the state. -/
def query (f : σ → Except ε β) : Script ε σ Λ β := .read f .done

/-- A computation between two statements. -/
def compute (x : Except ε β) : Script ε σ Λ β := query fun _ => x

/-- A write. -/
def execute (w : σ → Except ε σ) : Script ε σ Λ Unit := .write w (.done ())

/-- A lock. -/
def acquire (l : Λ) : Script ε σ Λ Unit := .lock l (.done ())

/-- `f` for every item of a list, in order. -/
def each (f : β → Script ε σ Λ Unit) : List β → Script ε σ Λ Unit
  | [] => pure ()
  | b :: bs => do
    f b
    each f bs

/-! ### A script on its own -/

/-- The script on its own, as one unit; nobody else holds a lock. -/
def serial : Script ε σ Λ α → Tx ε σ α
  | .done a => pure a
  | .read f next => Transaction.read f >>= fun b => (next b).serial
  | .write w next => Transaction.write w >>= fun _ => next.serial
  | .lock _ next => next.serial

@[simp] theorem serial_pure (a : α) : (pure a : Script ε σ Λ α).serial = pure a := rfl

@[simp] theorem serial_bind (x : Script ε σ Λ α) (f : α → Script ε σ Λ β) :
    (x >>= f).serial = x.serial >>= fun a => (f a).serial := by
  show (x.bind f).serial = _
  induction x with
  | done a => exact (pure_bind (m := Tx ε σ) a fun a => (f a).serial).symm
  | read g next ih =>
    show (Transaction.read g >>= fun b => ((next b).bind f).serial) = _
    simp only [ih]
    exact (bind_assoc _ _ _).symm
  | write w next ih =>
    show (Transaction.write w >>= fun _ => (next.bind f).serial) = _
    simp only [ih]
    exact (bind_assoc _ _ _).symm
  | lock l next ih => exact ih

@[simp] theorem serial_query (f : σ → Except ε β) :
    (query f : Script ε σ Λ β).serial = Transaction.read f := bind_pure _

@[simp] theorem serial_compute (x : Except ε β) :
    (compute x : Script ε σ Λ β).serial = Transaction.lift x := serial_query _

@[simp] theorem serial_execute (w : σ → Except ε σ) :
    (execute w : Script ε σ Λ Unit).serial = Transaction.write w := bind_pure_unit

@[simp] theorem serial_acquire (l : Λ) : (acquire l : Script ε σ Λ Unit).serial = pure () := rfl

@[simp] theorem serial_each (f : β → Script ε σ Λ Unit) : ∀ bs,
    (each f bs).serial = Transaction.each (fun b => (f b).serial) bs
  | [] => rfl
  | b :: bs => by
    show (f b >>= fun _ => each f bs).serial = _
    rw [serial_bind, serial_each f bs]
    rfl

/-! ### What a script ends with -/

/-- Whatever the script ends with, and has written then, satisfies `P`; `own` is what has been
written before. -/
def Ends (P : α → (σ → Except ε σ) → Prop) : Script ε σ Λ α → (σ → Except ε σ) → Prop
  | .done a, own => P a own
  | .read _ next, own => ∀ b, (next b).Ends P own
  | .write w next, own => next.Ends P fun s => own s >>= w
  | .lock _ next, own => next.Ends P own

theorem ends_bind {P : β → (σ → Except ε σ) → Prop} {f : α → Script ε σ Λ β}
    {x : Script ε σ Λ α} {own : σ → Except ε σ} (h : x.Ends (fun a own => (f a).Ends P own) own) :
    (x >>= f).Ends P own := by
  show (x.bind f).Ends P own
  induction x generalizing own with
  | done a => exact h
  | read g next ih => exact fun b => ih b (h b)
  | write w next ih => exact ih h
  | lock l next ih => exact ih h

theorem Ends.imp {P Q : α → (σ → Except ε σ) → Prop} {x : Script ε σ Λ α} {own : σ → Except ε σ}
    (hPQ : ∀ a own, P a own → Q a own) (h : x.Ends P own) : x.Ends Q own := by
  induction x generalizing own with
  | done a => exact hPQ a own h
  | read g next ih => exact fun b => ih b (h b)
  | write w next ih => exact ih h
  | lock l next ih => exact ih h

/-- The writes leave the view as it is. -/
def Preserves (view : σ → γ) (w : σ → Except ε σ) : Prop := ∀ s s', w s = .ok s' → view s' = view s

theorem preserves_ok (view : σ → γ) : Preserves view (.ok : σ → Except ε σ) := fun _ _ h => by
  cases h
  rfl

/-- The script does not write to the view. -/
def Leaves (view : σ → γ) (x : Script ε σ Λ α) : Prop :=
  ∀ own, Preserves view own → x.Ends (fun _ own' => Preserves view own') own

section Leaves
variable {view : σ → γ}

theorem leaves_pure (a : α) : Leaves view (pure a : Script ε σ Λ α) := fun _ h => h

theorem leaves_bind {x : Script ε σ Λ α} {f : α → Script ε σ Λ β} (hx : Leaves view x)
    (hf : ∀ a, Leaves view (f a)) : Leaves view (x >>= f) :=
  fun own h => ends_bind ((hx own h).imp fun a own' h' => hf a own' h')

theorem leaves_query (f : σ → Except ε β) : Leaves view (query f : Script ε σ Λ β) :=
  fun _ h _ => h

theorem leaves_compute (x : Except ε β) : Leaves view (compute x : Script ε σ Λ β) :=
  leaves_query _

theorem leaves_acquire (l : Λ) : Leaves view (acquire l : Script ε σ Λ Unit) := fun _ h => h

theorem leaves_execute {w : σ → Except ε σ} (hw : Preserves view w) :
    Leaves view (execute w : Script ε σ Λ Unit) := by
  intro own h s s' hrun
  obtain ⟨t, ht, hs⟩ := except_bind_ok.mp hrun
  rw [hw t s' hs, h s t ht]

theorem leaves_each {f : β → Script ε σ Λ Unit} (hf : ∀ b, Leaves view (f b)) :
    ∀ bs, Leaves view (each f bs)
  | [] => leaves_pure ()
  | b :: bs => leaves_bind (hf b) fun _ => leaves_each hf bs

theorem leaves_ite {c : Prop} [Decidable c] {x y : Script ε σ Λ α} (hx : Leaves view x)
    (hy : Leaves view y) : Leaves view (if c then x else y) := by
  split_ifs
  · exact hx
  · exact hy

end Leaves

end Script

/-! ### Interleavings -/

/-- Where a transaction is: at a statement, with what it has written, or behind its end. -/
inductive Phase (ε σ Λ α : Type) : Type 1
  | running (script : Script ε σ Λ α) (own : σ → Except ε σ)
  | ended (a : α)
  | raised (e : ε)
  | crashed

/-- A change of the committed state: a commit of a process, or another change of the kind `K`. -/
inductive Change (ι α ε : Type) {σ : Type} (K : (σ → σ) → Prop)
  | commit (i : ι) (a : α) (write : σ → Except ε σ)
  | elsewhere (change : σ → σ) (kind : K change)

/-- The committed state, who holds which lock, and the history. -/
structure World (ι Λ α ε : Type) {σ : Type} (K : (σ → σ) → Prop) where
  base : σ
  locks : Λ → Option ι
  history : List (Change ι α ε K)

inductive Action {σ : Type} (K : (σ → σ) → Prop)
  /-- the next statement -/
  | step
  | crash
  | elsewhere (change : σ → σ) (kind : K change)

variable {ι : Type} {K : (σ → σ) → Prop}

/-- What the change makes of the state. -/
def Change.apply : Change ι α ε K → σ → Except ε σ
  | .commit _ _ write => write
  | .elsewhere change _ => fun s => .ok (change s)

/-- The history makes `base` of `base₀`. -/
def Made (base₀ : σ) (history : List (Change ι α ε K)) (base : σ) : Prop :=
  history.foldlM (fun s change => change.apply s) base₀ = .ok base

theorem made_nil (base : σ) : Made base ([] : List (Change ι α ε K)) base := rfl

theorem made_append {base₀ base : σ} {history : List (Change ι α ε K)} {change : Change ι α ε K} :
    Made base₀ (history ++ [change]) base ↔
      ∃ mid, Made base₀ history mid ∧ change.apply mid = .ok base := by
  unfold Made
  rw [List.foldlM_append, except_bind_ok]
  simp only [List.foldlM_cons, List.foldlM_nil, bind_pure]

/-- Every process is about to send its first statement. -/
def start (scripts : ι → Script ε σ Λ α) (base : σ) :
    Processes.Config ι (World ι Λ α ε K) (Phase ε σ Λ α) :=
  ⟨⟨base, fun _ => none, []⟩, fun i => .running (scripts i) .ok⟩

/-! ### What an action may do -/

/-- A statement of a script, which sees `s`. -/
inductive Next (s : σ) : Script ε σ Λ α → (σ → Except ε σ) → Script ε σ Λ α →
    (σ → Except ε σ) → Prop
  | reads {β : Type} (f : σ → Except ε β) (next : β → Script ε σ Λ α) (own : σ → Except ε σ)
      (b : β) (h : f s = .ok b) : Next s (.read f next) own (next b) own
  | writes (f : σ → Except ε σ) (next : Script ε σ Λ α) (own : σ → Except ε σ) :
      Next s (.write f next) own next fun s => own s >>= f
  | locks (l : Λ) (next : Script ε σ Λ α) (own : σ → Except ε σ) :
      Next s (.lock l next) own next own

theorem Next.ends {P : α → (σ → Except ε σ) → Prop} {s : σ} {script script' : Script ε σ Λ α}
    {own own' : σ → Except ε σ} (h : Next s script own script' own') (hends : script.Ends P own) :
    script'.Ends P own' := by
  cases h with
  | reads f next own b _ => exact hends b
  | writes f next own => exact hends
  | locks l next own => exact hends

/-- What an action has done to the committed state, the history and the phase of its process. -/
inductive Step (commits : α → Bool) (i : ι) (w : World ι Λ α ε K) (phase : Phase ε σ Λ α)
    (w' : World ι Λ α ε K) (phase' : Phase ε σ Λ α) : Prop
  | stays (base : w'.base = w.base) (history : w'.history = w.history) (same : phase' = phase)
  | moves (script script' : Script ε σ Λ α) (own own' : σ → Except ε σ) (s : σ)
      (before : phase = .running script own) (seen : own w.base = .ok s)
      (next : Next s script own script' own') (base : w'.base = w.base)
      (history : w'.history = w.history) (after : phase' = .running script' own')
  | fails (script : Script ε σ Λ α) (own : σ → Except ε σ) (e : ε)
      (before : phase = .running script own)
      (raises : own w.base = .error e ∨ ∃ s, own w.base = .ok s ∧
        ((∃ β f, ∃ next : β → Script ε σ Λ α, script = .read f next ∧ f s = .error e) ∨
          ∃ f next, script = .write f next ∧ f s = .error e))
      (base : w'.base = w.base) (history : w'.history = w.history) (after : phase' = .raised e)
  | crashes (script : Script ε σ Λ α) (own : σ → Except ε σ) (before : phase = .running script own)
      (base : w'.base = w.base) (history : w'.history = w.history) (after : phase' = .crashed)
  | rollsBack (a : α) (own : σ → Except ε σ) (before : phase = .running (.done a) own)
      (not_commits : commits a = false) (base : w'.base = w.base)
      (history : w'.history = w.history) (after : phase' = .ended a)
  | commits (a : α) (own : σ → Except ε σ) (before : phase = .running (.done a) own)
      (commits : commits a) (base : own w.base = .ok w'.base)
      (history : w'.history = w.history ++ [.commit i a own]) (after : phase' = .ended a)
  | elsewhere (change : σ → σ) (kind : K change) (base : w'.base = change w.base)
      (history : w'.history = w.history ++ [.elsewhere change kind]) (same : phase' = phase)

section Step
variable {commits : α → Bool} {i : ι} {w w' : World ι Λ α ε K} {phase phase' : Phase ε σ Λ α}

/-- What is running after an action will end well, if what was running before would. -/
theorem Step.running (h : Step commits i w phase w' phase') {Q : α → (σ → Except ε σ) → Prop}
    (hrunning : ∀ script own, phase = .running script own → script.Ends Q own) :
    ∀ script own, phase' = .running script own → script.Ends Q own := by
  intro script own hphase'
  cases h with
  | stays _ _ hsame => exact hrunning script own (hsame ▸ hphase')
  | moves _ _ _ _ s hbefore _ hnext _ _ hafter =>
    rw [hafter] at hphase'
    cases hphase'
    exact hnext.ends (hrunning _ _ hbefore)
  | fails _ _ _ _ _ _ _ hafter => rw [hafter] at hphase'; cases hphase'
  | crashes _ _ _ _ _ hafter => rw [hafter] at hphase'; cases hphase'
  | rollsBack _ _ _ _ _ _ hafter => rw [hafter] at hphase'; cases hphase'
  | commits _ _ _ _ _ _ hafter => rw [hafter] at hphase'; cases hphase'
  | elsewhere _ _ _ _ hsame => exact hrunning script own (hsame ▸ hphase')

theorem Step.base (h : Step commits i w phase w' phase') :
    (w'.base = w.base ∧ w'.history = w.history) ∨
      ∃ change : Change ι α ε K, change.apply w.base = .ok w'.base ∧
        w'.history = w.history ++ [change] ∧ ∀ j a write, change = .commit j a write →
          j = i ∧ phase = .running (.done a) write ∧ commits a := by
  cases h with
  | stays hbase hhistory _ => exact Or.inl ⟨hbase, hhistory⟩
  | moves _ _ _ _ _ _ _ _ hbase hhistory _ => exact Or.inl ⟨hbase, hhistory⟩
  | fails _ _ _ _ _ hbase hhistory _ => exact Or.inl ⟨hbase, hhistory⟩
  | crashes _ _ _ hbase hhistory _ => exact Or.inl ⟨hbase, hhistory⟩
  | rollsBack _ _ _ _ hbase hhistory _ => exact Or.inl ⟨hbase, hhistory⟩
  | commits a own hbefore hcommits hbase hhistory _ =>
    refine Or.inr ⟨.commit i a own, hbase, hhistory, ?_⟩
    rintro j b write ⟨⟩
    exact ⟨rfl, hbefore, hcommits⟩
  | elsewhere change kind hbase hhistory _ =>
    refine Or.inr ⟨.elsewhere change kind, by rw [hbase]; rfl, hhistory, ?_⟩
    intro j a write h
    cases h

end Step

/-! ### What the processes do -/

section Program
variable [DecidableEq ι] [DecidableEq Λ]

/-- The locks of the process are free again. -/
def World.release (w : World ι Λ α ε K) (i : ι) : World ι Λ α ε K :=
  { w with locks := fun l => if w.locks l = some i then none else w.locks l }

/-- The process takes the lock. -/
def World.take (w : World ι Λ α ε K) (i : ι) (l : Λ) : World ι Λ α ε K :=
  { w with locks := Function.update w.locks l (some i) }

/-- The next statement, or the end; `commits` says which values commit. -/
def advance (commits : α → Bool) (i : ι) (w : World ι Λ α ε K) (script : Script ε σ Λ α)
    (own : σ → Except ε σ) : World ι Λ α ε K × Phase ε σ Λ α :=
  match own w.base with
  | .error e => (w.release i, .raised e)
  | .ok s =>
    match script with
    | .done a =>
      if commits a then
        ({ w.release i with base := s, history := w.history ++ [.commit i a own] }, .ended a)
      else (w.release i, .ended a)
    | .read f next =>
      match f s with
      | .ok b => (w, .running (next b) own)
      | .error e => (w.release i, .raised e)
    | .write f next =>
      match f s with
      | .ok _ => (w, .running next fun s => own s >>= f)
      | .error e => (w.release i, .raised e)
    | .lock l next =>
      if w.locks l = none ∨ w.locks l = some i then (w.take i l, .running next own)
      else (w, .running script own)

/-- What an action does; one that the process is not ready for does nothing. -/
def program (commits : α → Bool) :
    Processes.Program ι (Action K) (World ι Λ α ε K) (Phase ε σ Λ α)
  | i, .step, w, .running script own => advance commits i w script own
  | i, .crash, w, .running _ _ => (w.release i, .crashed)
  | _, .elsewhere change kind, w, phase =>
    ({ w with base := change w.base, history := w.history ++ [.elsewhere change kind] }, phase)
  | _, _, w, phase => (w, phase)

theorem advance_cases (commits : α → Bool) (i : ι) (w : World ι Λ α ε K) (script : Script ε σ Λ α)
    (own : σ → Except ε σ) :
    Step commits i w (.running script own) (advance commits i w script own).1
      (advance commits i w script own).2 := by
  unfold advance
  split
  · rename_i e hseen
    exact .fails script own e rfl (Or.inl hseen) rfl rfl rfl
  · rename_i s hseen
    cases script with
    | done a =>
      dsimp only
      split_ifs with hcommits
      · exact .commits a own rfl hcommits hseen rfl rfl
      · exact .rollsBack a own rfl (by simpa using hcommits) rfl rfl rfl
    | read f next =>
      dsimp only
      split
      · rename_i b hb
        exact .moves _ _ own own s rfl hseen (.reads f next own b hb) rfl rfl rfl
      · rename_i e he
        exact .fails _ own e rfl (Or.inr ⟨s, hseen, Or.inl ⟨_, f, next, rfl, he⟩⟩) rfl rfl rfl
    | write f next =>
      dsimp only
      split
      · exact .moves _ _ own _ s rfl hseen (.writes f next own) rfl rfl rfl
      · rename_i e he
        exact .fails _ own e rfl (Or.inr ⟨s, hseen, Or.inr ⟨f, next, rfl, he⟩⟩) rfl rfl rfl
    | lock l next =>
      dsimp only
      split_ifs
      · exact .moves _ _ own own s rfl hseen (.locks l next own) rfl rfl rfl
      · exact .stays rfl rfl rfl

theorem step_cases (commits : α → Bool) (i : ι) (a : Action K) (w : World ι Λ α ε K)
    (phase : Phase ε σ Λ α) :
    Step commits i w phase (program commits i a w phase).1 (program commits i a w phase).2 := by
  cases a with
  | step =>
    cases phase with
    | running script own => exact advance_cases commits i w script own
    | _ => exact .stays rfl rfl rfl
  | crash =>
    cases phase with
    | running script own => exact .crashes script own rfl rfl rfl rfl
    | _ => exact .stays rfl rfl rfl
  | elsewhere change kind => exact .elsewhere change kind rfl rfl rfl

end Program

/-! ### What holds along a run -/

section Ok
variable [DecidableEq ι]

/-- What the process has committed in the change. -/
def Change.value (i : ι) : Change ι α ε K → Option α
  | .commit j a _ => if j = i then some a else none
  | .elsewhere _ _ => none

/-- What a process in the phase has committed. -/
def Phase.committed (commits : α → Bool) : Phase ε σ Λ α → List α
  | .ended a => if commits a then [a] else []
  | _ => []

/-- The committed state is what the history makes of `base₀`, every commit in it satisfies `P`, what
is still running will, and the commits of a process in it are those of its phase. -/
structure Ok (commits : α → Bool) (P : ι → α → (σ → Except ε σ) → Prop) (base₀ : σ)
    (c : Processes.Config ι (World ι Λ α ε K) (Phase ε σ Λ α)) : Prop where
  made : Made base₀ c.shared.history c.shared.base
  accepted : ∀ i a write, Change.commit i a write ∈ c.shared.history → commits a ∧ P i a write
  running : ∀ i script own, c.locals i = .running script own → script.Ends (P i) own
  committed : ∀ i, c.shared.history.filterMap (Change.value i) = (c.locals i).committed commits

variable {commits : α → Bool} {P : ι → α → (σ → Except ε σ) → Prop} {base₀ : σ}
  {c : Processes.Config ι (World ι Λ α ε K) (Phase ε σ Λ α)}

theorem ok_start {scripts : ι → Script ε σ Λ α} (h : ∀ i, (scripts i).Ends (P i) .ok) :
    Ok commits P base₀ (start scripts base₀ : Processes.Config ι (World ι Λ α ε K) _) where
  made := made_nil base₀
  accepted i a write hmem := by cases hmem
  running i script own hrunning := by
    cases hrunning
    exact h i
  committed i := rfl

/-- The history of the action's own process and its phase stay in step; other processes have
committed nothing. -/
theorem Step.committed {i : ι} {w w' : World ι Λ α ε K} {phase phase' : Phase ε σ Λ α}
    (h : Step commits i w phase w' phase')
    (hcommitted : w.history.filterMap (Change.value i) = phase.committed commits) :
    w'.history.filterMap (Change.value i) = phase'.committed commits ∧
      ∀ j, j ≠ i → w'.history.filterMap (Change.value j) = w.history.filterMap (Change.value j) := by
  cases h with
  | stays _ hhistory hsame => rw [hhistory, hsame]; exact ⟨hcommitted, fun _ _ => rfl⟩
  | moves _ _ _ _ _ hbefore _ _ _ hhistory hafter =>
    rw [hbefore] at hcommitted
    rw [hhistory, hafter]
    exact ⟨hcommitted, fun _ _ => rfl⟩
  | fails _ _ _ hbefore _ _ hhistory hafter =>
    rw [hbefore] at hcommitted
    rw [hhistory, hafter]
    exact ⟨hcommitted, fun _ _ => rfl⟩
  | crashes _ _ hbefore _ hhistory hafter =>
    rw [hbefore] at hcommitted
    rw [hhistory, hafter]
    exact ⟨hcommitted, fun _ _ => rfl⟩
  | rollsBack a _ hbefore hnot _ hhistory hafter =>
    rw [hbefore] at hcommitted
    rw [hhistory, hafter]
    exact ⟨by simpa [Phase.committed, hnot] using hcommitted, fun _ _ => rfl⟩
  | commits a own hbefore hcommits _ hhistory hafter =>
    rw [hbefore] at hcommitted
    rw [hhistory, hafter]
    constructor
    · rw [List.filterMap_append, hcommitted]
      simp [Phase.committed, Change.value, hcommits]
    · intro j hj
      rw [List.filterMap_append]
      simp [Change.value, Ne.symm hj]
  | elsewhere change kind _ hhistory hsame =>
    have hnone : ∀ j, w'.history.filterMap (Change.value j) =
        w.history.filterMap (Change.value j) := fun j => by
      rw [hhistory, List.filterMap_append, List.filterMap_cons_none rfl, List.filterMap_nil,
        List.append_nil]
    rw [hsame]
    exact ⟨(hnone i).trans hcommitted, fun j _ => hnone j⟩

variable [DecidableEq Λ]

/-- The phase that the process is in after the action is a case of `Step`; that of any other is the
same. -/
theorem act_locals (step : ι × Action K) (j : ι) :
    (Processes.act (program commits) step c).locals j =
      if j = step.1 then (program commits step.1 step.2 c.shared (c.locals step.1)).2
      else c.locals j := by
  unfold Processes.act
  by_cases hj : j = step.1
  · rw [if_pos hj, hj]
    exact Function.update_self _ _ _
  · rw [if_neg hj]
    exact Function.update_of_ne hj _ _

theorem ok_act (step : ι × Action K) (h : Ok commits P base₀ c) :
    Ok commits P base₀ (Processes.act (program commits) step c) := by
  have hstep := step_cases commits step.1 step.2 c.shared (c.locals step.1)
  have hcommitted := hstep.committed (h.committed step.1)
  constructor
  · show Made base₀ (program commits step.1 step.2 c.shared (c.locals step.1)).1.history _
    rcases hstep.base with ⟨hbase, hhistory⟩ | ⟨change, happly, hhistory, -⟩
    · rw [hhistory, show (Processes.act (program commits) step c).shared.base = _ from hbase]
      exact h.made
    · rw [hhistory]
      exact made_append.mpr ⟨_, h.made, happly⟩
  · intro i a write hmem
    rcases hstep.base with ⟨-, hhistory⟩ | ⟨change, -, hhistory, hcommit⟩
    · exact h.accepted i a write (hhistory ▸ hmem)
    · rw [show (Processes.act (program commits) step c).shared.history = _ from hhistory,
        List.mem_append, List.mem_singleton] at hmem
      rcases hmem with hold | hnew
      · exact h.accepted i a write hold
      · obtain ⟨rfl, hphase, hcommits⟩ := hcommit i a write hnew.symm
        exact ⟨hcommits, h.running _ _ _ hphase⟩
  · intro i script own hrunning
    rw [act_locals] at hrunning
    split_ifs at hrunning with hi
    · subst hi
      exact hstep.running (h.running _) script own hrunning
    · exact h.running i script own hrunning
  · intro i
    rw [act_locals]
    split_ifs with hi
    · subst hi
      exact hcommitted.1
    · exact (hcommitted.2 i hi).trans (h.committed i)

/-- **After every run** of scripts that end well. -/
theorem run_ok {scripts : ι → Script ε σ Λ α} (h : ∀ i, (scripts i).Ends (P i) .ok)
    (steps : List (ι × Action K)) :
    Ok commits P base₀ (Processes.run (program commits) steps (start scripts base₀)) :=
  Processes.run_keeps (fun step _ _ hc => ok_act step hc) (Processes.along_true _ _ _) (ok_start h)

end Ok

end Trueup.Lib.Scripts
