import Mathlib.Data.List.Basic
import Mathlib.Logic.Function.Basic

/-! # Processes over a shared state

Any number of processes act on one shared state in any order, one atomic action at a time. A process
has a local state; an action sees the shared state and the local state of the process it is of.

* `Along Ok`: every action of the run is taken where `Ok` allows it.
* `run_keeps`: what every allowed action keeps holds after the run.
* `run_alone`: what a process does that no other one disturbs.
* `Stable Ok G L`: no action breaks `G` on the shared state, the claim `L` of its own process, or
  that of another process.
* `Stable.run`: then both hold after every run along `Ok`. -/

namespace Trueup.Lib.Processes

variable {ι α σ ℓ : Type*}

/-- The shared state and the local states. -/
structure Config (ι σ ℓ : Type*) where
  shared : σ
  locals : ι → ℓ

/-- What an action of a process does to the shared state and to the local state of the process. -/
abbrev Program (ι α σ ℓ : Type*) := ι → α → σ → ℓ → σ × ℓ

/-- The actions of one process, one after another. -/
def alone (program : Program ι α σ ℓ) (i : ι) (actions : List α) (s : σ) (l : ℓ) : σ × ℓ :=
  actions.foldl (fun c a => program i a c.1 c.2) (s, l)

theorem alone_cons {program : Program ι α σ ℓ} {i : ι} {a : α} {actions : List α} {s : σ} {l : ℓ}
    {next : σ × ℓ} (h : program i a s l = next) :
    alone program i (a :: actions) s l = alone program i actions next.1 next.2 := by
  unfold alone
  rw [List.foldl_cons, h]

section Run
variable [DecidableEq ι] (program : Program ι α σ ℓ)

/-- An action of a process. -/
def act (step : ι × α) (c : Config ι σ ℓ) : Config ι σ ℓ :=
  let next := program step.1 step.2 c.shared (c.locals step.1)
  ⟨next.1, Function.update c.locals step.1 next.2⟩

theorem act_self (i : ι) (a : α) (c : Config ι σ ℓ) :
    (act program (i, a) c).locals i = (program i a c.shared (c.locals i)).2 := Function.update_self _ _ _

theorem act_of_ne {i j : ι} (hij : j ≠ i) (a : α) (c : Config ι σ ℓ) :
    (act program (i, a) c).locals j = c.locals j := Function.update_of_ne hij _ _

/-- A run. -/
def run (steps : List (ι × α)) (c : Config ι σ ℓ) : Config ι σ ℓ :=
  steps.foldl (fun c step => act program step c) c

theorem run_alone (i : ι) (actions : List α) (c : Config ι σ ℓ) :
    run program (actions.map (Prod.mk i)) c =
      ⟨(alone program i actions c.shared (c.locals i)).1,
        Function.update c.locals i (alone program i actions c.shared (c.locals i)).2⟩ := by
  induction actions generalizing c with
  | nil =>
    obtain ⟨shared, locals⟩ := c
    exact congrArg (Config.mk shared) (Function.update_eq_self i locals).symm
  | cons a actions ih =>
    refine (ih (act program (i, a) c)).trans ?_
    rw [act_self]
    exact congrArg (Config.mk _) (Function.update_idem _ _ _)

/-- Every action of the run is allowed where it is taken. -/
def Along (Ok : ι → α → σ → ℓ → Prop) : List (ι × α) → Config ι σ ℓ → Prop
  | [], _ => True
  | step :: steps, c =>
    Ok step.1 step.2 c.shared (c.locals step.1) ∧ Along Ok steps (act program step c)

instance decidableAlong (Ok : ι → α → σ → ℓ → Prop) [∀ i a s l, Decidable (Ok i a s l)] :
    ∀ (steps : List (ι × α)) (c : Config ι σ ℓ), Decidable (Along program Ok steps c)
  | [], _ => isTrue trivial
  | step :: steps, c =>
    have : Decidable (Along program Ok steps (act program step c)) := decidableAlong Ok steps _
    inferInstanceAs (Decidable (_ ∧ _))

theorem along_true (steps : List (ι × α)) (c : Config ι σ ℓ) :
    Along program (fun _ _ _ _ => True) steps c := by
  induction steps generalizing c with
  | nil => trivial
  | cons step steps ih => exact ⟨trivial, ih _⟩

theorem Along.of_append {Ok : ι → α → σ → ℓ → Prop} {before rest : List (ι × α)} {c : Config ι σ ℓ}
    (h : Along program Ok (before ++ rest) c) : Along program Ok before c := by
  induction before generalizing c with
  | nil => trivial
  | cons step before ih => exact ⟨h.1, ih h.2⟩

/-- A run is along what is allowed when each of its steps is allowed where it is taken. -/
theorem along_iff {Ok : ι → α → σ → ℓ → Prop} {steps : List (ι × α)} {c : Config ι σ ℓ} :
    Along program Ok steps c ↔ ∀ before step rest, steps = before ++ step :: rest →
      Ok step.1 step.2 (run program before c).shared ((run program before c).locals step.1) := by
  induction steps generalizing c with
  | nil => exact ⟨fun _ before _ _ h => absurd h.symm (List.append_ne_nil_of_right_ne_nil _
      (List.cons_ne_nil _ _)), fun _ => trivial⟩
  | cons first steps ih =>
    unfold Along
    rw [ih]
    constructor
    · rintro ⟨hfirst, hrest⟩ before step rest heq
      cases before with
      | nil =>
        cases heq
        exact hfirst
      | cons other before =>
        cases heq
        exact hrest before step rest rfl
    · intro h
      exact ⟨h [] first steps rfl, fun before step rest heq =>
        h (first :: before) step rest (by rw [heq]; rfl)⟩

variable {program}

/-- **The invariant rule.** -/
theorem run_keeps {Ok : ι → α → σ → ℓ → Prop} {I : Config ι σ ℓ → Prop}
    (hact : ∀ step c, Ok step.1 step.2 c.shared (c.locals step.1) → I c → I (act program step c))
    {steps : List (ι × α)} {c : Config ι σ ℓ} (halong : Along program Ok steps c) (hc : I c) :
    I (run program steps c) := by
  induction steps generalizing c with
  | nil => exact hc
  | cons step steps ih => exact ih halong.2 (hact step c halong.1 hc)

end Run

/-- The claims on the shared state and on the local states are kept by every allowed action. -/
structure Stable (program : Program ι α σ ℓ) (Ok : ι → α → σ → ℓ → Prop) (G : σ → Prop)
    (L : ι → σ → ℓ → Prop) : Prop where
  shared : ∀ i a s l, Ok i a s l → G s → L i s l → G (program i a s l).1
  own : ∀ i a s l, Ok i a s l → G s → L i s l → L i (program i a s l).1 (program i a s l).2
  other : ∀ i j a s l m, i ≠ j → Ok i a s l → G s → L i s l → L j s m → L j (program i a s l).1 m

/-- The claims hold. -/
def Holds (G : σ → Prop) (L : ι → σ → ℓ → Prop) (c : Config ι σ ℓ) : Prop :=
  G c.shared ∧ ∀ i, L i c.shared (c.locals i)

section Stable
variable [DecidableEq ι] {program : Program ι α σ ℓ} {Ok : ι → α → σ → ℓ → Prop} {G : σ → Prop}
  {L : ι → σ → ℓ → Prop}

theorem Stable.act (h : Stable program Ok G L) {step : ι × α} {c : Config ι σ ℓ}
    (hok : Ok step.1 step.2 c.shared (c.locals step.1)) (hc : Holds G L c) :
    Holds G L (act program step c) := by
  obtain ⟨hG, hL⟩ := hc
  refine ⟨h.shared _ _ _ _ hok hG (hL _), fun j => ?_⟩
  obtain ⟨i, a⟩ := step
  by_cases hj : j = i
  · subst hj
    rw [act_self]
    exact h.own _ _ _ _ hok hG (hL _)
  · rw [act_of_ne program hj]
    exact h.other _ _ _ _ _ _ (Ne.symm hj) hok hG (hL _) (hL j)

/-- **The rule of non-interference**: what no action breaks holds after every run. -/
theorem Stable.run (h : Stable program Ok G L) {steps : List (ι × α)} {c : Config ι σ ℓ}
    (halong : Along program Ok steps c) (hc : Holds G L c) :
    Holds G L (Processes.run program steps c) :=
  run_keeps (fun _ _ hok hc => h.act hok hc) halong hc

end Stable

end Trueup.Lib.Processes
