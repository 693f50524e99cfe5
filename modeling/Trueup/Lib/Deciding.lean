import Trueup.Lib.Transaction

/-! # When a transaction goes through

`Decides I x P`: from every state with the invariant `I`, the transaction `x` returns exactly when
`P` holds, and then keeps `I`. As `P` speaks of no state, what a transaction asks for is put together
from what its steps ask for, one after the other (`decides_bind`, `decides_each`). -/

namespace Trueup.Lib.Transaction

variable {ε σ α β : Type} {I : σ → Prop} {P Q : Prop}

theorem isOk_iff_exists {x : Except ε α} : x.isOk ↔ ∃ a, x = .ok a := by
  refine ⟨exists_ok_of_isOk, ?_⟩
  rintro ⟨a, rfl⟩
  rfl

theorem run_isOk_iff {x : Tx ε σ α} {s : σ} : (x.run s).isOk ↔ ∃ a s', x.run s = .ok (a, s') := by
  rw [isOk_iff_exists, Prod.exists]

/-- From the states with `I`, `x` returns exactly when `P` holds, and keeps `I`. -/
structure Decides (I : σ → Prop) (x : Tx ε σ α) (P : Prop) : Prop where
  isOk_iff : ∀ s, I s → ((x.run s).isOk ↔ P)
  keeps : Keeps I x

theorem Decides.congr {x : Tx ε σ α} (hx : Decides I x P) (h : P ↔ Q) : Decides I x Q :=
  ⟨fun s hs => (hx.isOk_iff s hs).trans h, hx.keeps⟩

theorem decides_pure (a : α) : Decides I (pure a : Tx ε σ α) True :=
  ⟨fun _ _ => iff_of_true rfl trivial, keeps_pure a⟩

theorem decides_update {f : σ → σ} (hf : ∀ s, I s → I (f s)) :
    Decides I (update f : Tx ε σ Unit) True := by
  refine ⟨fun _ _ => iff_of_true rfl trivial, fun s u s' hs h => ?_⟩
  rw [update_ok.mp h]
  exact hf s hs

theorem decides_read {f : σ → Except ε α} (h : ∀ s, I s → ((f s).isOk ↔ P)) :
    Decides I (read f) P := by
  refine ⟨fun s hs => ?_, keeps_read f⟩
  rw [← h s hs, run_isOk_iff, isOk_iff_exists]
  simp only [read_ok]
  constructor
  · rintro ⟨a, _, ha, -⟩
    exact ⟨a, ha⟩
  · rintro ⟨a, ha⟩
    exact ⟨a, s, ha, rfl⟩

theorem decides_bind {x : Tx ε σ α} {f : α → Tx ε σ β} (hx : Decides I x P)
    (hf : ∀ a, Decides I (f a) Q) : Decides I (x >>= f) (P ∧ Q) := by
  refine ⟨fun s hs => ?_, keeps_bind hx.keeps fun a => (hf a).keeps⟩
  simp only [← hx.isOk_iff s hs, run_isOk_iff, bind_ok]
  constructor
  · rintro ⟨b, s', a, t, hfirst, hrest⟩
    refine ⟨⟨a, t, hfirst⟩, ((hf a).isOk_iff t (hx.keeps s a t hs hfirst)).mp ?_⟩
    exact run_isOk_iff.mpr ⟨b, s', hrest⟩
  · rintro ⟨⟨a, t, hfirst⟩, hQ⟩
    have hrest := ((hf a).isOk_iff t (hx.keeps s a t hs hfirst)).mpr hQ
    obtain ⟨b, s', hrest⟩ := run_isOk_iff.mp hrest
    exact ⟨b, s', a, t, hfirst, hrest⟩

theorem decides_read_bind {f : σ → Except ε α} {g : α → Tx ε σ β} {a : α}
    (hf : ∀ s, I s → f s = .ok a) (hg : Decides I (g a) P) : Decides I (read f >>= g) P := by
  refine ⟨fun s hs => ?_, fun s b s' hs h => ?_⟩
  · rw [run_read_bind (hf s hs)]
    exact hg.isOk_iff s hs
  · rw [run_read_bind (hf s hs)] at h
    exact hg.keeps s b s' hs h

theorem decides_whenever {c : Prop} [Decidable c] {x : Tx ε σ Unit} (hx : Decides I x P) :
    Decides I (whenever c x) (c → P) := by
  unfold whenever
  split_ifs with hc
  · exact hx.congr (by simp [hc])
  · exact (decides_pure ()).congr (by simp [hc])

theorem decides_each {f : β → Tx ε σ Unit} {P : β → Prop} :
    ∀ {bs : List β}, (∀ b ∈ bs, Decides I (f b) (P b)) → Decides I (each f bs) (∀ b ∈ bs, P b)
  | [], _ => (decides_pure ()).congr (by simp)
  | b :: bs, hf =>
    (decides_bind (hf b List.mem_cons_self) fun _ => decides_each fun b' hb' =>
      hf b' (List.mem_cons_of_mem _ hb')).congr List.forall_mem_cons.symm

end Trueup.Lib.Transaction
