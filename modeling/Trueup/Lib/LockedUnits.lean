import Trueup.Lib.Locks
import Trueup.Lib.Processes
import Trueup.Lib.Transaction

/-! # Units of work under a lock

A unit of work looks at what no unit changes, takes the lock of its key, and then executes its statements,
each of which sees what is committed when it is executed and what the unit itself has written. Any
number of processes call units of work, in any order of their statements, and may crash.

* `Statements`, `Guarded`: the statements under the lock, and a whole unit of work; `serial` is the unit
  on its own.
* `Step`, `Sound`, `Knows`: what a statement does and what it keeps (`lockedUnits_stable`).
* `linearizable`: the answers of the calls, in the order in which they are given, and the data are
  those of the calls one after another.
* `linearizable_keeps`: so what each call keeps on its own is kept. -/

namespace Trueup.Lib.LockedUnits

open Transaction

variable {ι κ φ ε σ α β C : Type}

/-! ### Units of work -/

/-- The statements under the lock. -/
inductive Statements (ε σ α : Type) : Type 1
  | done (a : α)
  | exec {β : Type} (x : Tx ε σ β) (next : β → Statements ε σ α)

namespace Statements

/-- The statements of `x`, then those of `f`. -/
def bind : Statements ε σ α → (α → Statements ε σ β) → Statements ε σ β
  | .done a, f => f a
  | .exec x next, f => .exec x fun b => (next b).bind f

instance : Monad (Statements ε σ) where
  pure := .done
  bind := bind

/-- One statement. -/
def execute (x : Tx ε σ α) : Statements ε σ α := .exec x .done

/-- `x` if `c` holds, nothing otherwise. -/
def whenever (c : Prop) [Decidable c] (x : Statements ε σ Unit) : Statements ε σ Unit :=
  if c then x else pure ()

/-- The statements as one. -/
def serial : Statements ε σ α → Tx ε σ α
  | .done a => pure a
  | .exec x next => x >>= fun b => (next b).serial

@[simp] theorem serial_pure (a : α) : (pure a : Statements ε σ α).serial = pure a := rfl

@[simp] theorem serial_bind (x : Statements ε σ α) (f : α → Statements ε σ β) :
    (x >>= f).serial = x.serial >>= fun a => (f a).serial := by
  show (x.bind f).serial = _
  induction x with
  | done a => simp only [bind, serial, pure_bind]
  | exec x next ih => simp only [bind, serial, bind_assoc, ih]

@[simp] theorem serial_execute (x : Tx ε σ α) : (execute x).serial = x := by
  simp only [execute, serial, bind_pure]

@[simp] theorem serial_whenever (c : Prop) [Decidable c] (x : Statements ε σ Unit) :
    (whenever c x).serial = Transaction.whenever c x.serial := by
  unfold whenever Transaction.whenever
  split_ifs
  · rfl
  · rfl

end Statements

/-- A read of what a read has answered. -/
theorem read_bind_read (f : σ → Except ε α) (g : α → σ → Except ε β) :
    (read f >>= fun a => read (g a)) = read fun s => f s >>= fun a => g a s := by
  funext s
  show (read f >>= fun a => read (g a)).run s = (f s >>= fun a => g a s).map fun b => (b, s)
  cases hf : f s with
  | ok a => exact run_read_bind hf
  | error e => exact run_bind_of_error (read_error.mpr hf)

/-- What a read answers depends on the fixed part only. -/
def ReadsFixed (fixed : σ → φ) (f : σ → Except ε β) : Prop := ∀ s s', fixed s = fixed s' → f s = f s'

/-- A unit of work: what it looks at before it has the lock, and its statements under it. -/
inductive Guarded (fixed : σ → φ) (ε α : Type) : Type 1
  | look {β : Type} (f : σ → Except ε β) (reads : ReadsFixed fixed f) (next : β → Guarded fixed ε α)
  | acquire (statements : Statements ε σ α)

/-- The unit of work as one transaction. -/
def Guarded.serial {fixed : σ → φ} : Guarded fixed ε α → Tx ε σ α
  | .look f _ next => read f >>= fun b => (next b).serial
  | .acquire statements => statements.serial

/-! ### The processes -/

/-- The committed data of each key, the locks, and the calls that were answered, with their answers. -/
structure Shared (ι κ ε σ α C : Type) where
  data : κ → σ
  locks : Locks κ ι
  answered : List (C × Except ε α)

/-- Where a process is. -/
inductive Phase (fixed : σ → φ) (ε α C : Type) : Type 1
  | idle
  | looking (call : C) (rest : Guarded fixed ε α)
  /-- with what it has written -/
  | holding (call : C) (rest : Statements ε σ α) (own : Tx ε σ Unit)

inductive Action (C : Type)
  | call (call : C)
  /-- the next statement, or the commit after the last one -/
  | advance
  | crash

/-- The call is answered. -/
def Shared.answer (shared : Shared ι κ ε σ α C) (call : C) (answer : Except ε α) :
    Shared ι κ ε σ α C :=
  { shared with answered := shared.answered ++ [(call, answer)] }

section Program
variable [DecidableEq ι] [DecidableEq κ] {fixed : σ → φ} (key : C → κ) (unit : C → Guarded fixed ε α)

/-- The next statement before the lock. -/
def advanceLooking (i : ι) (shared : Shared ι κ ε σ α C) (call : C) :
    Guarded fixed ε α → Shared ι κ ε σ α C × Phase fixed ε α C
  | .look f _ next =>
    match f (shared.data (key call)) with
    | .ok b => (shared, .looking call (next b))
    | .error e => (shared.answer call (.error e), .idle)
  | .acquire statements =>
    if shared.locks.FreeFor i (key call) then
      ({ shared with locks := shared.locks.take i [key call] }, .holding call statements (pure ()))
    else (shared, .looking call (.acquire statements))

/-- The next statement under the lock. -/
def advanceHolding (i : ι) (shared : Shared ι κ ε σ α C) (call : C) (own : Tx ε σ Unit) :
    Statements ε σ α → Shared ι κ ε σ α C × Phase fixed ε α C
  | .done a =>
    match own.run (shared.data (key call)) with
    | .ok ((), s) =>
      ({ shared.answer call (.ok a) with
        data := Function.update shared.data (key call) s
        locks := shared.locks.release i }, .idle)
    | .error e => ({ shared.answer call (.error e) with locks := shared.locks.release i }, .idle)
  | .exec x next =>
    match (own >>= fun _ => x).run (shared.data (key call)) with
    | .ok (b, _) => (shared, .holding call (next b) (own >>= fun _ => x >>= fun _ => pure ()))
    | .error e => ({ shared.answer call (.error e) with locks := shared.locks.release i }, .idle)

/-- The statements of the processes. -/
def program : Processes.Program ι (Action C) (Shared ι κ ε σ α C) (Phase fixed ε α C)
  | _, .call call, shared, .idle => (shared, .looking call (unit call))
  | i, .advance, shared, .looking call rest => advanceLooking key i shared call rest
  | i, .advance, shared, .holding call rest own => advanceHolding key i shared call own rest
  | i, .crash, shared, _ => ({ shared with locks := shared.locks.release i }, .idle)
  | _, _, shared, phase => (shared, phase)

end Program

/-! ### One call after another -/

section Serial
variable [DecidableEq κ] (key : C → κ) (body : C → Tx ε σ α)

/-- A call on its own, and its answer. -/
def perform (data : κ → σ) (call : C) : (κ → σ) × Except ε α :=
  match (body call).run (data (key call)) with
  | .ok (a, s) => (Function.update data (key call) s, .ok a)
  | .error e => (data, .error e)

/-- The calls one after another, with their answers. -/
def serially : List C → (κ → σ) → (κ → σ) × List (C × Except ε α)
  | [], data => (data, [])
  | call :: calls, data =>
    let result := perform key body data call
    let rest := serially calls result.1
    (rest.1, (call, result.2) :: rest.2)

variable {key body} {call : C} {data : κ → σ}

theorem perform_ok {a : α} {s : σ} (h : (body call).run (data (key call)) = .ok (a, s)) :
    perform key body data call = (Function.update data (key call) s, .ok a) := by
  unfold perform
  rw [h]

theorem perform_error {e : ε} (h : (body call).run (data (key call)) = .error e) :
    perform key body data call = (data, .error e) := by
  unfold perform
  rw [h]

theorem serially_append (calls : List C) (call : C) (data : κ → σ) :
    serially key body (calls ++ [call]) data =
      ((perform key body (serially key body calls data).1 call).1,
        (serially key body calls data).2 ++
          [(call, (perform key body (serially key body calls data).1 call).2)]) := by
  induction calls generalizing data with
  | nil => rfl
  | cons first calls ih => simp only [List.cons_append, serially, ih]

/-- What a call keeps that is answered, under what is known of it. -/
def KeptBy (key : C → κ) (body : C → Tx ε σ α) (P : C → Prop) (I : κ → σ → Prop) : Prop :=
  ∀ call s a s', P call → I (key call) s → (body call).run s = .ok (a, s') → I (key call) s'

/-- **The invariant rule** of calls one after another. -/
theorem serially_keeps {P : C → Prop} {I : κ → σ → Prop} (hkept : KeptBy key body P I)
    {calls : List C} (hcalls : ∀ call ∈ calls, P call) (hstart : ∀ k, I k (data k)) (k : κ) :
    I k ((serially key body calls data).1 k) := by
  induction calls generalizing data with
  | nil => exact hstart k
  | cons call calls ih =>
    rw [serially]
    refine ih (fun other hmem => hcalls other (List.mem_cons_of_mem _ hmem)) fun k => ?_
    cases hrun : (body call).run (data (key call)) with
    | error e =>
      rw [perform_error hrun]
      exact hstart k
    | ok result =>
      obtain ⟨a, s⟩ := result
      rw [perform_ok hrun]
      dsimp only
      by_cases hk : k = key call
      · subst hk
        rw [Function.update_self]
        exact hkept call _ a s (hcalls call List.mem_cons_self) (hstart _) hrun
      · rw [Function.update_of_ne hk]
        exact hstart k

end Serial

/-- The data at the start, and idle processes. -/
def start {fixed : σ → φ} (data : κ → σ) :
    Processes.Config ι (Shared ι κ ε σ α C) (Phase fixed ε α C) :=
  ⟨⟨data, fun _ => none, []⟩, fun _ => .idle⟩

/-! ### What a statement did -/

section Invariant
variable [DecidableEq ι] [DecidableEq κ] {fixed : σ → φ} {key : C → κ} {unit : C → Guarded fixed ε α}
  {i j : ι} {action : Action C} {shared shared' : Shared ι κ ε σ α C}
  {phase phase' other : Phase fixed ε α C}
  {start : κ → σ}

/-- What the action `a` of the process `i` did to the data and to the process. -/
inductive Step (key : C → κ) (unit : C → Guarded fixed ε α) (i : ι) (a : Action C)
    (shared : Shared ι κ ε σ α C) :
    Phase fixed ε α C → Shared ι κ ε σ α C → Phase fixed ε α C → Prop
  | stays (phase : Phase fixed ε α C) : Step key unit i a shared phase shared phase
  | calls (call : C) (made : a = .call call) :
      Step key unit i a shared .idle shared (.looking call (unit call))
  | looks (call : C) {β : Type} (f : σ → Except ε β) (reads : ReadsFixed fixed f)
      (next : β → Guarded fixed ε α) (b : β) (found : f (shared.data (key call)) = .ok b) :
      Step key unit i a shared (.looking call (.look f reads next)) shared (.looking call (next b))
  | refuses (call : C) {β : Type} (f : σ → Except ε β) (reads : ReadsFixed fixed f)
      (next : β → Guarded fixed ε α) (e : ε) (failed : f (shared.data (key call)) = .error e) :
      Step key unit i a shared (.looking call (.look f reads next)) (shared.answer call (.error e)) .idle
  | acquires (call : C) (statements : Statements ε σ α)
      (free : shared.locks.FreeFor i (key call)) :
      Step key unit i a shared (.looking call (.acquire statements))
        { shared with locks := shared.locks.take i [key call] } (.holding call statements (pure ()))
  | executes (call : C) (own : Tx ε σ Unit) {β : Type} (x : Tx ε σ β) (next : β → Statements ε σ α)
      (b : β) (s : σ) (returned : (own >>= fun _ => x).run (shared.data (key call)) = .ok (b, s)) :
      Step key unit i a shared (.holding call (.exec x next) own) shared
        (.holding call (next b) (own >>= fun _ => x >>= fun _ => pure ()))
  | raises (call : C) (rest : Statements ε σ α) (own : Tx ε σ Unit) (e : ε)
      (raised : (own >>= fun _ => rest.serial).run (shared.data (key call)) = .error e) :
      Step key unit i a shared (.holding call rest own)
        { shared.answer call (.error e) with locks := shared.locks.release i } .idle
  | commits (call : C) (own : Tx ε σ Unit) (b : α) (s : σ)
      (written : own.run (shared.data (key call)) = .ok ((), s)) :
      Step key unit i a shared (.holding call (.done b) own)
        { shared.answer call (.ok b) with
          data := Function.update shared.data (key call) s
          locks := shared.locks.release i } .idle
  | crashes (phase : Phase fixed ε α C) :
      Step key unit i a shared phase { shared with locks := shared.locks.release i } .idle

/-- **What a statement did.** -/
theorem program_step (i : ι) (a : Action C) (shared : Shared ι κ ε σ α C)
    (phase : Phase fixed ε α C) : Step key unit i a shared phase (program key unit i a shared phase).1
      (program key unit i a shared phase).2 := by
  unfold program
  split
  · exact .calls _ rfl
  · rename_i call rest
    cases rest with
    | look f reads next =>
      unfold advanceLooking
      dsimp only
      cases hf : f (shared.data (key call)) with
      | ok b => exact .looks call f reads next b hf
      | error e => exact .refuses call f reads next e hf
    | acquire statements =>
      unfold advanceLooking
      dsimp only
      split_ifs with hfree
      · exact .acquires call statements hfree
      · exact .stays _
  · rename_i call rest own
    cases rest with
    | done a =>
      unfold advanceHolding
      cases hown : own.run (shared.data (key call)) with
      | ok result =>
        obtain ⟨⟨⟩, s⟩ := result
        exact .commits call own a s hown
      | error e => exact .raises call _ own e (run_bind_of_error hown)
    | exec x next =>
      unfold advanceHolding
      dsimp only
      cases hx : (own >>= fun _ => x).run (shared.data (key call)) with
      | ok result => exact .executes call own x next result.1 result.2 hx
      | error e =>
        refine .raises call _ own e ?_
        have hassoc : (own >>= fun _ => (Statements.exec x next).serial) =
            (own >>= fun _ => x) >>= fun b => (next b).serial := (bind_assoc _ _ _).symm
        rw [hassoc]
        exact run_bind_of_error hx
  · exact .crashes _
  · exact .stays _

/-! ### What it keeps -/

/-- The data and the answers are those of the calls one after another, and what the units look at before
they have the lock is as it was. -/
structure Sound (key : C → κ) (unit : C → Guarded fixed ε α) (start : κ → σ)
    (shared : Shared ι κ ε σ α C) : Prop where
  serial : serially key (fun call => (unit call).serial) (shared.answered.map Prod.fst) start =
    (shared.data, shared.answered)
  fixed : ∀ k, fixed (shared.data k) = fixed (start k)

/-- What a process knows: the rest of its unit comes to what the whole unit comes to now. -/
def Knows (key : C → κ) (unit : C → Guarded fixed ε α) (i : ι) (shared : Shared ι κ ε σ α C) :
    Phase fixed ε α C → Prop
  | .idle => True
  | .looking call rest => ∀ s, fixed s = fixed (shared.data (key call)) →
      (unit call).serial.run s = rest.serial.run s
  | .holding call rest own => shared.locks (key call) = some i ∧
      ∃ s, own.run (shared.data (key call)) = .ok ((), s) ∧
        (unit call).serial.run (shared.data (key call)) = rest.serial.run s

/-- What a statement of the process `i` leaves alone: what the units look at, the data whose locks the
others have, and these locks. -/
structure Frame (fixed : σ → φ) (i : ι) (shared shared' : Shared ι κ ε σ α C) : Prop where
  fixed : ∀ k, fixed (shared'.data k) = fixed (shared.data k)
  data : ∀ j, i ≠ j → ∀ k, shared.locks k = some j → shared'.data k = shared.data k
  locks : ∀ j, i ≠ j → shared.locks.Keeps shared'.locks j

omit [DecidableEq ι] in
/-- A call that is answered as it would be on its own now. -/
theorem Sound.answered (h : Sound key unit start shared) {call : C} {answer : Except ε α}
    {data : κ → σ} {locks : Locks κ ι}
    (hperform : perform key (fun call => (unit call).serial) shared.data call = (data, answer))
    (hfixed : ∀ k, fixed (data k) = fixed (shared.data k)) :
    Sound key unit start { shared.answer call answer with data, locks } where
  serial := by
    unfold Shared.answer
    rw [List.map_append, List.map_singleton, serially_append, h.serial, hperform]
  fixed k := (hfixed k).trans (h.fixed k)

omit [DecidableEq ι] [DecidableEq κ] in
theorem Knows.raised {call : C} {rest : Statements ε σ α} {own : Tx ε σ Unit} {e : ε}
    (h : Knows key unit i shared (.holding call rest own))
    (hraised : (own >>= fun _ => rest.serial).run (shared.data (key call)) = .error e) :
    (unit call).serial.run (shared.data (key call)) = .error e := by
  obtain ⟨-, s, hown, hserial⟩ := h
  rw [hserial, ← run_bind_of_ok (f := fun _ => rest.serial) hown, hraised]

omit [DecidableEq ι] [DecidableEq κ] in
theorem Knows.committed {call : C} {own : Tx ε σ Unit} {a : α} {s : σ}
    (h : Knows key unit i shared (.holding call (.done a) own))
    (hwritten : own.run (shared.data (key call)) = .ok ((), s)) :
    (unit call).serial.run (shared.data (key call)) = .ok (a, s) := by
  obtain ⟨-, s', hown, hserial⟩ := h
  rw [hserial]
  cases hown.symm.trans hwritten
  rfl

/-- No unit changes what the units look at before they have the lock. -/
def KeepsFixed (unit : C → Guarded fixed ε α) : Prop :=
  ∀ call s a s', (unit call).serial.run s = .ok (a, s') → fixed s' = fixed s

omit [DecidableEq ι] in
/-- A commit leaves what the units look at. -/
theorem fixed_committed (hkeeps : KeepsFixed unit) {call : C} {own : Tx ε σ Unit} {a : α} {s : σ}
    (hknows : Knows key unit i shared (.holding call (.done a) own))
    (hwritten : own.run (shared.data (key call)) = .ok ((), s)) (k : κ) :
    fixed (Function.update shared.data (key call) s k) = fixed (shared.data k) := by
  by_cases hk : k = key call
  · subst hk
    rw [Function.update_self]
    exact hkeeps call _ a s (hknows.committed hwritten)
  · rw [Function.update_of_ne hk]

/-- **A statement leaves the others what they have locked.** -/
theorem Step.frame (hkeeps : KeepsFixed unit) (h : Step key unit i action shared phase shared' phase')
    (hknows : Knows key unit i shared phase) : Frame fixed i shared shared' := by
  have hsame : Frame fixed i shared shared := ⟨fun _ => rfl, fun _ _ _ _ => rfl, fun j _ => .refl _ j⟩
  have hrelease : ∀ j, i ≠ j → shared.locks.Keeps (shared.locks.release i) j :=
    fun j hij => Locks.keeps_release hij
  cases h with
  | stays | calls | looks | executes => exact hsame
  | refuses => exact ⟨hsame.fixed, hsame.data, hsame.locks⟩
  | acquires call statements free =>
    exact { hsame with locks := fun j hij => Locks.keeps_take_other (by simpa using free) hij }
  | raises => exact ⟨hsame.fixed, hsame.data, hrelease⟩
  | crashes => exact ⟨hsame.fixed, hsame.data, hrelease⟩
  | commits call own a s written =>
    refine ⟨fixed_committed hkeeps hknows written, fun j hij k hk => Function.update_of_ne ?_ _ _,
      hrelease⟩
    rintro rfl
    exact hij (Option.some.inj (hknows.1.symm.trans hk))

/-- **The calls one after another**, after a statement. -/
theorem Step.sound (hkeeps : KeepsFixed unit) (h : Step key unit i action shared phase shared' phase')
    (hknows : Knows key unit i shared phase) (hsound : Sound key unit start shared) :
    Sound key unit start shared' := by
  cases h with
  | stays | calls | looks | executes => exact hsound
  | acquires | crashes => exact ⟨hsound.serial, hsound.fixed⟩
  | refuses call f reads next e failed =>
    refine hsound.answered (perform_error ?_) fun _ => rfl
    rw [hknows _ rfl]
    exact run_bind_of_error (read_error.mpr failed)
  | raises call rest own e raised =>
    exact hsound.answered (perform_error (hknows.raised raised)) fun _ => rfl
  | commits call own a s written =>
    exact hsound.answered (perform_ok (hknows.committed written))
      (fixed_committed hkeeps hknows written)

/-- **What a process knows** after a statement of its own. -/
theorem Step.knows (h : Step key unit i action shared phase shared' phase')
    (hknows : Knows key unit i shared phase) : Knows key unit i shared' phase' := by
  cases h with
  | stays => exact hknows
  | refuses | raises | commits | crashes => trivial
  | calls call made => exact fun _ _ => rfl
  | looks call f reads next b found =>
    intro s hs
    rw [hknows s hs]
    exact run_read_bind ((reads _ _ hs).trans found)
  | acquires call statements free =>
    exact ⟨Locks.take_mem (by simp), _, rfl, hknows _ rfl⟩
  | executes call own x next b s returned =>
    obtain ⟨hlock, s₀, hown, hserial⟩ := hknows
    have hx : x.run s₀ = .ok (b, s) := (run_bind_of_ok (f := fun _ => x) hown).symm.trans returned
    refine ⟨hlock, s, ?_, ?_⟩
    · rw [run_bind_of_ok hown, run_bind_of_ok hx]
      rfl
    · rw [hserial]
      exact run_bind_of_ok hx

omit [DecidableEq ι] [DecidableEq κ] in
/-- **A process does not interfere with another.** -/
theorem Knows.undisturbed (hij : i ≠ j) (hframe : Frame fixed i shared shared')
    (h : Knows key unit j shared other) : Knows key unit j shared' other := by
  cases other with
  | idle => trivial
  | looking call rest => exact fun s hs => h s (hs.trans (hframe.fixed _))
  | holding call rest own =>
    obtain ⟨hlock, s, hown, hserial⟩ := h
    refine ⟨hframe.locks j hij _ hlock, s, ?_⟩
    rw [hframe.data j hij _ hlock]
    exact ⟨hown, hserial⟩

end Invariant

/-! ### Which calls are answered -/

section Calls
variable [DecidableEq ι] [DecidableEq κ] {fixed : σ → φ} {key : C → κ} {unit : C → Guarded fixed ε α}
  {i : ι} {action : Action C} {shared shared' : Shared ι κ ε σ α C}
  {phase phase' : Phase fixed ε α C}

/-- The call of the process, if it serves one, is one of those that were made. -/
def Phase.Serves (P : C → Prop) : Phase fixed ε α C → Prop
  | .idle => True
  | .looking call _ => P call
  | .holding call _ _ => P call

/-- The answered calls are some of those that were made. -/
def Shared.Answers (P : C → Prop) (shared : Shared ι κ ε σ α C) : Prop :=
  ∀ answered ∈ shared.answered, P answered.1

omit [DecidableEq ι] [DecidableEq κ] in
theorem Shared.Answers.answer {P : C → Prop} (h : shared.Answers P) {call : C} (hcall : P call)
    (result : Except ε α) : (shared.answer call result).Answers P := by
  intro answered hmem
  rcases List.mem_append.mp hmem with hmem | hmem
  · exact h answered hmem
  · rw [List.mem_singleton.mp hmem]
    exact hcall

theorem Step.answers {P : C → Prop} (h : Step key unit i action shared phase shared' phase')
    (hserves : phase.Serves P) (hanswers : shared.Answers P) : shared'.Answers P := by
  cases h with
  | stays | calls | looks | executes => exact hanswers
  | acquires | crashes => exact hanswers
  | refuses => exact hanswers.answer hserves _
  | raises => exact hanswers.answer hserves _
  | commits => exact hanswers.answer hserves _

theorem Step.serves {P : C → Prop} (h : Step key unit i action shared phase shared' phase')
    (hcall : ∀ call, action = .call call → P call) (hserves : phase.Serves P) : phase'.Serves P := by
  cases h with
  | stays => exact hserves
  | calls call made => exact hcall call made
  | looks | acquires | executes => exact hserves
  | refuses | raises | commits | crashes => trivial

end Calls

section Runs
variable [DecidableEq ι] [DecidableEq κ] {fixed : σ → φ} {key : C → κ} {unit : C → Guarded fixed ε α}

/-- **No statement breaks the invariant.** -/
theorem lockedUnits_stable (hkeeps : KeepsFixed unit) (data : κ → σ) :
    Processes.Stable (program (ι := ι) key unit) (fun _ _ _ _ => True) (Sound key unit data)
      (Knows key unit) where
  shared i a shared phase _ hsound hknows :=
    (program_step i a shared phase).sound hkeeps hknows hsound
  own i a shared phase _ _ hknows := (program_step i a shared phase).knows hknows
  other i _ a shared phase _ hij _ _ hknows hother :=
    hother.undisturbed hij ((program_step i a shared phase).frame hkeeps hknows)

omit [DecidableEq ι] in
theorem holds_start (data : κ → σ) :
    Processes.Holds (Sound key unit data) (@Knows ι κ φ ε σ α C fixed key unit) (start data) :=
  ⟨⟨rfl, fun _ => rfl⟩, fun _ => trivial⟩

/-- **The calls are linearizable.** However their statements interleave, and whichever processes crash,
the data and the answers are those of the answered calls one after another, each on its own, in the
order in which they were answered. -/
theorem linearizable (hkeeps : KeepsFixed unit) (data : κ → σ) (steps : List (ι × Action C)) :
    let shared := (Processes.run (program key unit) steps (start data)).shared
    serially key (fun call => (unit call).serial) (shared.answered.map Prod.fst) data =
      (shared.data, shared.answered) :=
  ((lockedUnits_stable hkeeps data).run (Processes.along_true _ steps _) (holds_start data)).1.serial

/-- Every action makes a call of the given kind, if it makes one. -/
def Makes (P : C → Prop) : ι → Action C → Shared ι κ ε σ α C → Phase fixed ε α C → Prop :=
  fun _ a _ _ => ∀ call, a = .call call → P call

theorem calls_stable (P : C → Prop) :
    Processes.Stable (program (ι := ι) key unit) (Makes P) (Shared.Answers P)
      (fun _ _ phase => phase.Serves P) where
  shared i a shared phase _ hanswers hserves :=
    (program_step i a shared phase).answers hserves hanswers
  own i a shared phase hcall _ hserves := (program_step i a shared phase).serves hcall hserves
  other _ _ _ _ _ _ _ _ _ _ hother := hother

theorem makes_along {P : C → Prop} {steps : List (ι × Action C)}
    (hsteps : ∀ i call, (i, .call call) ∈ steps → P call)
    (c : Processes.Config ι (Shared ι κ ε σ α C) (Phase fixed ε α C)) :
    Processes.Along (program key unit) (Makes P) steps c := by
  induction steps generalizing c with
  | nil => trivial
  | cons step steps ih =>
    obtain ⟨i, a⟩ := step
    refine ⟨fun call hcall => hsteps i call ?_, ih (fun j call hmem =>
      hsteps j call (List.mem_cons_of_mem _ hmem)) _⟩
    cases hcall
    exact List.mem_cons_self

/-- **What each call keeps on its own** is kept by all of them together. -/
theorem linearizable_keeps (hkeeps : KeepsFixed unit) {P : C → Prop} {I : κ → σ → Prop}
    (hkept : KeptBy key (fun call => (unit call).serial) P I) {data : κ → σ}
    (hstart : ∀ k, I k (data k)) {steps : List (ι × Action C)}
    (hcalls : ∀ i call, (i, .call call) ∈ steps → P call) (k : κ) :
    I k ((Processes.run (program key unit) steps (start data)).shared.data k) := by
  let shared := (Processes.run (program key unit) steps (start data)).shared
  have hserial : serially key (fun call => (unit call).serial) (shared.answered.map Prod.fst) data =
    (shared.data, shared.answered) := linearizable hkeeps data steps
  have hbegin : Processes.Holds (Shared.Answers P)
      (fun (_ : ι) (_ : Shared ι κ ε σ α C) (phase : Phase fixed ε α C) => phase.Serves P)
      (start data) :=
    ⟨fun _ h => absurd h List.not_mem_nil, fun _ => trivial⟩
  have hanswers : shared.Answers P := ((calls_stable P).run (makes_along hcalls _) hbegin).1
  have hmade : ∀ call ∈ shared.answered.map Prod.fst, P call := by
    intro call hmem
    obtain ⟨answered, hanswered, rfl⟩ := List.mem_map.mp hmem
    exact hanswers answered hanswered
  have hend := serially_keeps hkept hmade hstart k
  rw [hserial] at hend
  exact hend

end Runs

end Trueup.Lib.LockedUnits
