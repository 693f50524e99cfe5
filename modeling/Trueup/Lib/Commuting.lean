import Trueup.Lib.Transaction

/-! # Transactions that do not see a change

A transaction commutes with a change of the state when it runs after the change as it runs before
it, and leaves the changed state: it neither reads what is changed nor writes it. -/

namespace Trueup.Lib.Transaction

variable {ε σ α β : Type} {g : σ → σ}

/-- `x` commutes with the change `g`. -/
def Commutes (g : σ → σ) (x : Tx ε σ α) : Prop :=
  ∀ s, x.run (g s) = (x.run s).map fun r => (r.1, g r.2)

theorem Commutes.ok {x : Tx ε σ α} (h : Commutes g x) {s : σ} {a : α} {t : σ} :
    x.run (g s) = .ok (a, t) ↔ ∃ s', x.run s = .ok (a, s') ∧ t = g s' := by
  rw [h s, except_map_ok]
  constructor
  · rintro ⟨⟨_, s'⟩, hrun, heq⟩
    cases heq
    exact ⟨s', hrun, rfl⟩
  · rintro ⟨s', hrun, rfl⟩
    exact ⟨(a, s'), hrun, rfl⟩

theorem commutes_pure (a : α) : Commutes g (pure a : Tx ε σ α) := fun _ => rfl

theorem commutes_bind {x : Tx ε σ α} {f : α → Tx ε σ β} (hx : Commutes g x)
    (hf : ∀ a, Commutes g (f a)) : Commutes g (x >>= f) := by
  intro s
  rw [StateT.run_bind, StateT.run_bind, hx s]
  cases x.run s with
  | error e => rfl
  | ok r => exact hf r.1 r.2

theorem commutes_read {f : σ → Except ε α} (h : ∀ s, f (g s) = f s) : Commutes g (read f) := by
  intro s
  show (f (g s)).map _ = ((f s).map _).map _
  rw [h s]
  cases f s <;> rfl

theorem commutes_lift (x : Except ε α) : Commutes g (lift x : Tx ε σ α) := commutes_read fun _ => rfl

theorem commutes_write {f : σ → Except ε σ} (h : ∀ s, f (g s) = (f s).map g) :
    Commutes g (write f) := by
  intro s
  show (f (g s)).map _ = ((f s).map _).map _
  rw [h s]
  cases f s <;> rfl

theorem commutes_whenever {c : Prop} [Decidable c] {x : Tx ε σ Unit} (hx : Commutes g x) :
    Commutes g (whenever c x) := by
  unfold whenever
  split_ifs
  · exact hx
  · exact commutes_pure ()

theorem commutes_each {f : β → Tx ε σ Unit} (hf : ∀ b, Commutes g (f b)) :
    ∀ bs, Commutes g (each f bs)
  | [] => commutes_pure ()
  | b :: bs => commutes_bind (hf b) fun _ => commutes_each hf bs

end Trueup.Lib.Transaction
