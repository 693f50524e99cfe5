import Mathlib.Data.List.Forall2
import Mathlib.Control.Monad.Basic
import Mathlib.Data.List.Basic

/-! # Transactions: state with failure

A transaction body reads and writes a state `σ` and either returns or raises an error `ε`; what it
had written when it raised is lost (`atomically`). The body is a `StateT σ (Except ε)`; the lemmas
`*_ok` take a successful run apart, one for each way a body is built.

Three rules are derived from them and are what the proofs use:

* `Keeps I x`: a successful run of `x` keeps the invariant `I`;
* `Frames f x`: a successful run of `x` leaves the view `f` of the state as it was;
* `Sync R x y`: two successful runs, from states related by `R`, return the same value and end in
  related states. -/

namespace Trueup.Lib.Transaction

/-- A transaction body over the state `σ` that may raise an `ε`. -/
abbrev Tx (ε σ α : Type) := StateT σ (Except ε) α

variable {ε σ α β γ : Type}

/-- A read: `f` looks at the state and may raise. -/
def read (f : σ → Except ε α) : Tx ε σ α := fun s => (f s).map fun a => (a, s)

/-- A write: `f` replaces the state, or raises. -/
def write (f : σ → Except ε σ) : Tx ε σ Unit := fun s => (f s).map fun s' => ((), s')

/-- A write that does not raise. -/
def update (f : σ → σ) : Tx ε σ Unit := write fun s => .ok (f s)

/-- A computation that does not touch the state. -/
def lift (x : Except ε α) : Tx ε σ α := read fun _ => x

/-- The value of an option, or the error `e`. -/
def ofOption (o : Option α) (e : ε) : Except ε α := o.elim (.error e) .ok

/-- Raise `e` unless `c` holds. -/
def check (c : Prop) [Decidable c] (e : ε) : Except ε Unit := if c then .ok () else .error e

/-- `check`, in a body. -/
def require (c : Prop) [Decidable c] (e : ε) : Tx ε σ Unit := lift (check c e)

/-- The body `x` if `c` holds, nothing otherwise. -/
def whenever (c : Prop) [Decidable c] (x : Tx ε σ Unit) : Tx ε σ Unit := if c then x else pure ()

/-- `f` for every item of a list, in order. -/
def each (f : β → Tx ε σ Unit) : List β → Tx ε σ Unit
  | [] => pure ()
  | b :: bs => do
    f b
    each f bs

/-- A savepoint: when `x` raises an error of the given kind, what it wrote is undone and the body
goes on without a value. -/
def savepoint (caught : ε → Bool) (x : Tx ε σ α) : Tx ε σ (Option α) := fun s =>
  match x.run s with
  | .ok (a, s') => .ok (some a, s')
  | .error e => if caught e then .ok (none, s) else .error e

/-- A savepoint whose error is looked at: when `x` raises an error of the given kind, what it wrote
is undone and the body goes on with the error. -/
def attempt (caught : ε → Bool) (x : Tx ε σ α) : Tx ε σ (Except ε α) := fun s =>
  match x.run s with
  | .ok (a, s') => .ok (.ok a, s')
  | .error e => if caught e then .ok (.error e, s) else .error e

/-- A body over a part of the state. -/
def focus {τ : Type} (get : σ → τ) (set : τ → σ → σ) (x : Tx ε τ α) : Tx ε σ α := fun s =>
  (x.run (get s)).map fun r => (r.1, set r.2 s)

/-- The state a transaction leaves behind: what the body wrote if it returned, and the state before
it if it raised. -/
def atomically (x : Tx ε σ α) (s : σ) : σ :=
  match x.run s with
  | .ok (_, s') => s'
  | .error _ => s

/-! ### Taking a successful run apart -/

theorem except_bind_ok {x : Except ε α} {f : α → Except ε β} {b : β} :
    (x >>= f) = .ok b ↔ ∃ a, x = .ok a ∧ f a = .ok b := by
  cases x with
  | error e => simp [bind, Except.bind]
  | ok a => simp [bind, Except.bind]

theorem except_map_ok {x : Except ε α} {f : α → β} {b : β} :
    x.map f = .ok b ↔ ∃ a, x = .ok a ∧ f a = b := by
  cases x with
  | error e => simp [Except.map]
  | ok a => simp [Except.map]

theorem except_map_error {x : Except ε α} {f : α → β} {e : ε} :
    x.map f = .error e ↔ x = .error e := by
  cases x with
  | error e' => simp [Except.map]
  | ok a => simp [Except.map]

theorem ofOption_ok {o : Option α} {e : ε} {a : α} : ofOption o e = .ok a ↔ o = some a := by
  cases o <;> simp [ofOption]

theorem check_ok {c : Prop} [Decidable c] {e : ε} {u : Unit} :
    check c e = .ok u ↔ c := by
  by_cases h : c <;> simp [check, h]

theorem mapM_congr {f g : α → Except ε β} : ∀ {as : List α}, (∀ a ∈ as, f a = g a) →
    as.mapM f = as.mapM g
  | [], _ => rfl
  | a :: as, h => by
    rw [List.mapM_cons, List.mapM_cons, h a (by simp), mapM_congr fun a' ha' => h a' (by simp [ha'])]

theorem mapM_ok_iff {f : α → Except ε β} : ∀ {as : List α} {bs : List β},
    as.mapM f = .ok bs ↔ List.Forall₂ (fun a b => f a = .ok b) as bs
  | [], bs => by
    rw [List.mapM_nil, List.forall₂_nil_left_iff]
    exact ⟨fun h => by cases h; rfl, fun h => h ▸ rfl⟩
  | a :: as, bs => by
    rw [List.mapM_cons, except_bind_ok, List.forall₂_cons_left_iff]
    constructor
    · rintro ⟨b, hb, h⟩
      obtain ⟨rest, hrest, h⟩ := except_bind_ok.mp h
      cases h
      exact ⟨b, rest, hb, mapM_ok_iff.mp hrest, rfl⟩
    · rintro ⟨b, rest, hb, hrest, rfl⟩
      exact ⟨b, hb, except_bind_ok.mpr ⟨rest, mapM_ok_iff.mpr hrest, rfl⟩⟩

theorem exists_of_forall₂ {R : α → β → Prop} {as : List α} {bs : List β} (h : List.Forall₂ R as bs)
    {b : β} (hb : b ∈ bs) : ∃ a ∈ as, R a b := by
  induction h with
  | nil => cases hb
  | cons hr _ ih =>
    rcases List.mem_cons.mp hb with rfl | hmem
    · exact ⟨_, by simp, hr⟩
    · obtain ⟨a, ha, hab⟩ := ih hmem
      exact ⟨a, by simp [ha], hab⟩

theorem exists_mapM_ok {f : α → Except ε β} {as : List α} (h : ∀ a ∈ as, ∃ b, f a = .ok b) :
    ∃ bs, as.mapM f = .ok bs := by
  induction as with
  | nil => exact ⟨[], rfl⟩
  | cons a as ih =>
    obtain ⟨b, hb⟩ := h a List.mem_cons_self
    obtain ⟨bs, hbs⟩ := ih fun a' ha' => h a' (List.mem_cons_of_mem _ ha')
    exact ⟨b :: bs, by rw [List.mapM_cons, hb, hbs]; rfl⟩

theorem exists_of_mapM_ok {f : α → Except ε β} {as : List α} {bs : List β} (h : as.mapM f = .ok bs)
    {a : α} (ha : a ∈ as) : ∃ b ∈ bs, f a = .ok b :=
  exists_of_forall₂ (mapM_ok_iff.mp h).flip ha

theorem mem_of_mapM_ok {f : α → Except ε β} {as : List α} {bs : List β} (h : as.mapM f = .ok bs)
    {b : β} (hb : b ∈ bs) : ∃ a ∈ as, f a = .ok b :=
  exists_of_forall₂ (mapM_ok_iff.mp h) hb

instance decidableOnOk {P : α → Prop} [∀ a, Decidable (P a)] :
    ∀ x : Except ε α, Decidable (∀ a, x = .ok a → P a)
  | .ok a => decidable_of_iff (P a) (by simp)
  | .error _ => isTrue (by simp)

theorem bind_ok {x : Tx ε σ α} {f : α → Tx ε σ β} {s s' : σ} {b : β} :
    (x >>= f).run s = .ok (b, s') ↔ ∃ a t, x.run s = .ok (a, t) ∧ (f a).run t = .ok (b, s') := by
  rw [StateT.run_bind, except_bind_ok]
  constructor
  · rintro ⟨⟨a, t⟩, h1, h2⟩; exact ⟨a, t, h1, h2⟩
  · rintro ⟨a, t, h1, h2⟩; exact ⟨(a, t), h1, h2⟩

theorem pure_ok {a b : α} {s s' : σ} :
    (pure a : Tx ε σ α).run s = .ok (b, s') ↔ a = b ∧ s = s' := by
  rw [StateT.run_pure]
  simp [pure, Except.pure]

theorem read_ok {f : σ → Except ε α} {s s' : σ} {a : α} :
    (read f).run s = .ok (a, s') ↔ f s = .ok a ∧ s = s' := by
  show (f s).map _ = _ ↔ _
  rw [except_map_ok]
  simp

/-- A read that returns is followed by the rest. -/
theorem run_read_bind {f : σ → Except ε α} {g : α → Tx ε σ β} {s : σ} {a : α} (h : f s = .ok a) :
    (read f >>= g).run s = (g a).run s := by
  rw [StateT.run_bind, show (read f : Tx ε σ α).run s = .ok (a, s) from read_ok.mpr ⟨h, rfl⟩]
  rfl

/-- The rest may be replaced by one that does the same after what `x` has done. -/
theorem run_bind_of_ok {x : Tx ε σ α} {f : α → Tx ε σ β} {s t : σ} {a : α}
    (h : x.run s = .ok (a, t)) : (x >>= f).run s = (f a).run t := by
  rw [StateT.run_bind, h]
  rfl

theorem run_bind_of_error {x : Tx ε σ α} {f : α → Tx ε σ β} {s : σ} {e : ε}
    (h : x.run s = .error e) : (x >>= f).run s = .error e := by
  rw [StateT.run_bind, h]
  rfl

theorem run_bind_congr {x : Tx ε σ α} {f g : α → Tx ε σ β} {s : σ}
    (h : ∀ a t, x.run s = .ok (a, t) → (f a).run t = (g a).run t) :
    (x >>= f).run s = (x >>= g).run s := by
  rw [StateT.run_bind, StateT.run_bind]
  cases hx : x.run s with
  | error e => rfl
  | ok r => exact h r.1 r.2 hx

theorem atomically_congr {x y : Tx ε σ α} {s : σ} (h : x.run s = y.run s) :
    atomically x s = atomically y s := by
  rw [atomically, atomically, h]

theorem write_ok {f : σ → Except ε σ} {s s' : σ} {a : Unit} :
    (write f).run s = .ok (a, s') ↔ f s = .ok s' := by
  show (f s).map _ = _ ↔ _
  rw [except_map_ok]
  simp

theorem update_ok {f : σ → σ} {s s' : σ} {a : Unit} :
    (update f : Tx ε σ Unit).run s = .ok (a, s') ↔ s' = f s := by
  rw [update, write_ok]
  constructor
  · intro h; cases h; rfl
  · rintro rfl; rfl

theorem lift_ok {x : Except ε α} {s s' : σ} {a : α} :
    (lift x : Tx ε σ α).run s = .ok (a, s') ↔ x = .ok a ∧ s = s' := read_ok

theorem require_ok {c : Prop} [Decidable c] {e : ε} {s s' : σ} {a : Unit} :
    (require c e : Tx ε σ Unit).run s = .ok (a, s') ↔ c ∧ s = s' := by
  rw [require, lift_ok, check_ok]

theorem savepoint_ok {caught : ε → Bool} {x : Tx ε σ α} {s s' : σ} {o : Option α} :
    (savepoint caught x).run s = .ok (o, s') ↔
      (∃ a, o = some a ∧ x.run s = .ok (a, s')) ∨
        (o = none ∧ s' = s ∧ ∃ e, x.run s = .error e ∧ caught e) := by
  show (match x.run s with
    | .ok (a, s') => Except.ok (some a, s')
    | .error e => if caught e then .ok (none, s) else .error e) = _ ↔ _
  cases x.run s with
  | ok r =>
    constructor
    · intro h; cases h; exact Or.inl ⟨r.1, rfl, rfl⟩
    · rintro (⟨a, rfl, h⟩ | ⟨-, -, e, h, -⟩)
      · cases h; rfl
      · cases h
  | error e =>
    by_cases hc : caught e
    · simp only [hc, if_true]
      constructor
      · intro h; cases h; exact Or.inr ⟨rfl, rfl, e, rfl, hc⟩
      · rintro (⟨a, -, h⟩ | ⟨rfl, rfl, -⟩)
        · cases h
        · rfl
    · simp only [hc]
      constructor
      · intro h; cases h
      · rintro (⟨a, -, h⟩ | ⟨-, -, e', h, hc'⟩)
        · cases h
        · cases h; exact absurd hc' hc

theorem attempt_of_ok {caught : ε → Bool} {x : Tx ε σ α} {s s' : σ} {a : α}
    (h : x.run s = .ok (a, s')) : (attempt caught x).run s = .ok (.ok a, s') := by
  show (match x.run s with
    | .ok (a, s') => Except.ok (Except.ok a, s')
    | .error e => if caught e then .ok (.error e, s) else .error e) = _
  rw [h]

theorem attempt_of_error {caught : ε → Bool} {x : Tx ε σ α} {s : σ} {e : ε}
    (h : x.run s = .error e) :
    (attempt caught x).run s = if caught e then .ok (.error e, s) else .error e := by
  show (match x.run s with
    | .ok (a, s') => Except.ok (Except.ok a, s')
    | .error e => if caught e then .ok (.error e, s) else .error e) = _
  rw [h]

section Focus
variable {τ : Type} {get : σ → τ} {set : τ → σ → σ} {x : Tx ε τ α} {s s' : σ} {a : α}

theorem focus_ok : (focus get set x).run s = .ok (a, s') ↔
    ∃ t, x.run (get s) = .ok (a, t) ∧ s' = set t s := by
  show (x.run (get s)).map _ = _ ↔ _
  cases x.run (get s) with
  | error e => simp [Except.map]
  | ok r => simp [Except.map, Prod.ext_iff, eq_comm]

theorem focus_error {e : ε} : (focus get set x).run s = .error e ↔ x.run (get s) = .error e := by
  show (x.run (get s)).map _ = _ ↔ _
  cases x.run (get s) with
  | error e' => simp [Except.map]
  | ok r => simp [Except.map]

end Focus

theorem atomically_of_ok {x : Tx ε σ α} {s s' : σ} {a : α} (h : x.run s = .ok (a, s')) :
    atomically x s = s' := by
  rw [atomically, h]

theorem exists_ok_of_isOk {x : Except ε α} (h : x.isOk) : ∃ a, x = .ok a := by
  cases x with
  | error e => cases h
  | ok a => exact ⟨a, rfl⟩

theorem run_of_isOk {x : Tx ε σ α} {s : σ} (h : (x.run s).isOk) :
    ∃ a, x.run s = .ok (a, atomically x s) := by
  cases hrun : x.run s with
  | error e => rw [hrun] at h; cases h
  | ok r => exact ⟨r.1, by rw [atomically_of_ok hrun]⟩

theorem atomically_of_error {x : Tx ε σ α} {s : σ} {e : ε} (h : x.run s = .error e) :
    atomically x s = s := by
  rw [atomically, h]

theorem atomically_cases (x : Tx ε σ α) (s : σ) :
    (∃ a s', x.run s = .ok (a, s') ∧ atomically x s = s') ∨
      (∃ e, x.run s = .error e ∧ atomically x s = s) := by
  cases h : x.run s with
  | ok p => exact Or.inl ⟨p.1, p.2, rfl, atomically_of_ok h⟩
  | error e => exact Or.inr ⟨e, rfl, atomically_of_error h⟩

/-! ### What a run may raise -/

theorem bind_error {x : Tx ε σ α} {f : α → Tx ε σ β} {s : σ} {e : ε} :
    (x >>= f).run s = .error e ↔
      x.run s = .error e ∨ ∃ a t, x.run s = .ok (a, t) ∧ (f a).run t = .error e := by
  rw [StateT.run_bind]
  cases hrun : x.run s with
  | error e' => simp [bind, Except.bind]
  | ok r =>
    obtain ⟨a, t⟩ := r
    simp [bind, Except.bind]

theorem read_error {f : σ → Except ε α} {s : σ} {e : ε} :
    (read f).run s = .error e ↔ f s = .error e := by
  show (f s).map _ = _ ↔ _
  cases f s with
  | error e' => simp [Except.map]
  | ok a => simp [Except.map]

theorem write_error {f : σ → Except ε σ} {s : σ} {e : ε} :
    (write f).run s = .error e ↔ f s = .error e := by
  show (f s).map _ = _ ↔ _
  cases f s with
  | error e' => simp [Except.map]
  | ok a => simp [Except.map]

/-- Whatever `x` raises satisfies `P`. -/
def Fails (P : ε → Prop) (x : Except ε α) : Prop := ∀ e, x = .error e → P e

/-- Whatever the body raises satisfies `P`. -/
def Raises (P : ε → Prop) (x : Tx ε σ α) : Prop := ∀ s, Fails P (x.run s)

section Raises
variable {P : ε → Prop}

theorem fails_ok (a : α) : Fails P (.ok a : Except ε α) := fun e h => by cases h

theorem fails_error {e : ε} (h : P e) : Fails P (.error e : Except ε α) := fun e' h' => by
  cases h'
  exact h

theorem Raises.mono {Q : ε → Prop} {x : Tx ε σ α} (h : Raises P x) (hPQ : ∀ e, P e → Q e) :
    Raises Q x :=
  fun s e he => hPQ e (h s e he)

theorem fails_bind {x : Except ε α} {f : α → Except ε β} (hx : Fails P x)
    (hf : ∀ a, Fails P (f a)) : Fails P (x >>= f) := by
  cases x with
  | error e => exact fails_error (hx e rfl)
  | ok a => exact hf a

theorem fails_map {x : Except ε α} {f : α → β} (h : Fails P x) : Fails P (x.map f) := by
  cases x with
  | error e => exact fails_error (h e rfl)
  | ok a => exact fails_ok _

theorem fails_check {c : Prop} [Decidable c] {e : ε} (h : P e) : Fails P (check c e) := by
  unfold check
  split_ifs
  · exact fails_ok _
  · exact fails_error h

theorem fails_ofOption {o : Option α} {e : ε} (h : P e) : Fails P (ofOption o e) := by
  cases o with
  | none => exact fails_error h
  | some a => exact fails_ok a

theorem fails_mapM {f : β → Except ε α} (hf : ∀ b, Fails P (f b)) : ∀ bs : List β, Fails P (bs.mapM f)
  | [] => by
    rw [List.mapM_nil]
    exact fails_ok _
  | b :: bs => by
    rw [List.mapM_cons]
    exact fails_bind (hf b) fun _ => fails_bind (fails_mapM hf bs) fun _ => fails_ok _

theorem raises_bind {x : Tx ε σ α} {f : α → Tx ε σ β} (hx : Raises P x) (hf : ∀ a, Raises P (f a)) :
    Raises P (x >>= f) := by
  intro s e h
  rcases bind_error.mp h with h | ⟨a, t, -, h⟩
  · exact hx s e h
  · exact hf a t e h

/-- What a run of two steps raises, when the second one knows what the first one did. -/
theorem fails_run_bind {x : Tx ε σ α} {f : α → Tx ε σ β} {s : σ} (hx : Fails P (x.run s))
    (hf : ∀ a t, x.run s = .ok (a, t) → Fails P ((f a).run t)) : Fails P ((x >>= f).run s) := by
  intro e h
  rcases bind_error.mp h with h | ⟨a, t, hrun, h⟩
  · exact hx e h
  · exact hf a t hrun e h

theorem raises_pure (a : α) : Raises P (pure a : Tx ε σ α) := fun _ _ h => by cases h

theorem raises_read {f : σ → Except ε α} (hf : ∀ s, Fails P (f s)) : Raises P (read f) :=
  fun s e h => hf s e (read_error.mp h)

theorem raises_lift {x : Except ε α} (hx : Fails P x) : Raises P (lift x : Tx ε σ α) :=
  raises_read fun _ => hx

theorem fails_lift_bind {x : Except ε α} {f : α → Tx ε σ β} {s : σ} (hx : Fails P x)
    (hf : ∀ a, x = .ok a → Fails P ((f a).run s)) : Fails P ((lift x >>= f).run s) := by
  refine fails_run_bind (raises_lift hx s) fun a t h => ?_
  obtain ⟨ha, rfl⟩ := lift_ok.mp h
  exact hf a ha

theorem raises_write {f : σ → Except ε σ} (hf : ∀ s, Fails P (f s)) : Raises P (write f) :=
  fun s e h => hf s e (write_error.mp h)

theorem raises_update (f : σ → σ) : Raises P (update f : Tx ε σ Unit) :=
  raises_write fun _ => fails_ok _

theorem raises_ite {c : Prop} [Decidable c] {x y : Tx ε σ α} (hx : Raises P x) (hy : Raises P y) :
    Raises P (if c then x else y) := by
  split_ifs
  · exact hx
  · exact hy

theorem raises_each {f : β → Tx ε σ Unit} (hf : ∀ b, Raises P (f b)) :
    ∀ bs, Raises P (each f bs)
  | [] => raises_pure _
  | b :: bs => raises_bind (hf b) fun _ => raises_each hf bs

end Raises

/-- The body raises an error of the given kind. -/
def FailsWith (kind : ε → Prop) (x : Tx ε σ α) (s : σ) : Prop := ∃ e, kind e ∧ x.run s = .error e

section FailsWith
variable {kind : ε → Prop}

theorem not_failsWith {x : Tx ε σ α} {s : σ} (hx : Fails (¬ kind ·) (x.run s)) :
    ¬ FailsWith kind x s := fun ⟨e, hkind, h⟩ => hx e h hkind

theorem failsWith_bind {x : Tx ε σ α} {f : α → Tx ε σ β} {s : σ} : FailsWith kind (x >>= f) s ↔
    FailsWith kind x s ∨ ∃ a t, x.run s = .ok (a, t) ∧ FailsWith kind (f a) t := by
  simp only [FailsWith, bind_error]
  constructor
  · rintro ⟨e, hkind, h | ⟨a, t, hx, hf⟩⟩
    · exact Or.inl ⟨e, hkind, h⟩
    · exact Or.inr ⟨a, t, hx, e, hkind, hf⟩
  · rintro (⟨e, hkind, h⟩ | ⟨a, t, hx, e, hkind, hf⟩)
    · exact ⟨e, hkind, Or.inl h⟩
    · exact ⟨e, hkind, Or.inr ⟨a, t, hx, hf⟩⟩

theorem failsWith_read_bind {f : σ → Except ε α} {g : α → Tx ε σ β} {s : σ}
    (hf : Fails (¬ kind ·) (f s)) :
    FailsWith kind (read f >>= g) s ↔ ∃ a, f s = .ok a ∧ FailsWith kind (g a) s := by
  rw [failsWith_bind]
  constructor
  · rintro (hread | ⟨a, t, hrun, hg⟩)
    · exact absurd hread (not_failsWith fun e h => hf e (read_error.mp h))
    · obtain ⟨hok, rfl⟩ := read_ok.mp hrun
      exact ⟨a, hok, hg⟩
  · rintro ⟨a, hok, hg⟩
    exact Or.inr ⟨a, s, read_ok.mpr ⟨hok, rfl⟩, hg⟩

theorem failsWith_lift_bind {x : Except ε α} {g : α → Tx ε σ β} {s : σ} (hx : Fails (¬ kind ·) x) :
    FailsWith kind (lift x >>= g) s ↔ ∃ a, x = .ok a ∧ FailsWith kind (g a) s :=
  failsWith_read_bind hx

theorem failsWith_bind_left {x : Tx ε σ α} {f : α → Tx ε σ β} {s : σ}
    (hf : ∀ a, Raises (¬ kind ·) (f a)) : FailsWith kind (x >>= f) s ↔ FailsWith kind x s := by
  rw [failsWith_bind, or_iff_left]
  rintro ⟨a, t, -, hfails⟩
  exact not_failsWith (hf a t) hfails

theorem failsWith_focus {τ : Type} {get : σ → τ} {set : τ → σ → σ} {x : Tx ε τ α} {s : σ} :
    FailsWith kind (focus get set x) s ↔ FailsWith kind x (get s) := by
  simp only [FailsWith, focus_error]

theorem not_failsWith_pure {a : α} {s : σ} : ¬ FailsWith kind (pure a : Tx ε σ α) s :=
  not_failsWith fun e h => raises_pure (P := fun e => ¬ kind e) a s e h

theorem failsWith_ofOption {f : σ → Option α} {e : ε} {s : σ} :
    FailsWith kind (read fun s => ofOption (f s) e) s ↔ f s = none ∧ kind e := by
  unfold FailsWith
  simp only [read_error]
  cases f s with
  | none => simp [ofOption]
  | some a => simp [ofOption]

theorem failsWith_require {c : Prop} [Decidable c] {e : ε} {s : σ} :
    FailsWith kind (require c e : Tx ε σ Unit) s ↔ ¬ c ∧ kind e := by
  unfold FailsWith require lift
  simp only [read_error]
  unfold check
  by_cases hc : c
  · simp [hc]
  · simp [hc]

end FailsWith

/-! ### Invariants -/

/-- A successful run of `x` keeps `I`. -/
def Keeps (I : σ → Prop) (x : Tx ε σ α) : Prop :=
  ∀ s a s', I s → x.run s = .ok (a, s') → I s'

section Keeps
variable {I : σ → Prop}

theorem keeps_bind {x : Tx ε σ α} {f : α → Tx ε σ β} (hx : Keeps I x) (hf : ∀ a, Keeps I (f a)) :
    Keeps I (x >>= f) := by
  intro s b s' hs h
  obtain ⟨a, t, h1, h2⟩ := bind_ok.mp h
  exact hf a t b s' (hx s a t hs h1) h2

theorem keeps_pure (a : α) : Keeps I (pure a : Tx ε σ α) := by
  intro s b s' hs h
  obtain ⟨-, rfl⟩ := pure_ok.mp h
  exact hs

theorem keeps_read (f : σ → Except ε α) : Keeps I (read f) := by
  intro s b s' hs h
  obtain ⟨-, rfl⟩ := read_ok.mp h
  exact hs

theorem keeps_lift (x : Except ε α) : Keeps I (lift x : Tx ε σ α) := keeps_read _

theorem keeps_require (c : Prop) [Decidable c] (e : ε) : Keeps I (require c e : Tx ε σ Unit) :=
  keeps_lift _

theorem keeps_ite {c : Prop} [Decidable c] {x y : Tx ε σ α} (hx : Keeps I x) (hy : Keeps I y) :
    Keeps I (if c then x else y) := by
  split_ifs
  · exact hx
  · exact hy

theorem keeps_whenever {c : Prop} [Decidable c] {x : Tx ε σ Unit} (hx : Keeps I x) :
    Keeps I (whenever c x) := keeps_ite hx (keeps_pure _)

theorem keeps_each {f : β → Tx ε σ Unit} : ∀ {bs : List β}, (∀ b ∈ bs, Keeps I (f b)) →
    Keeps I (each f bs)
  | [], _ => keeps_pure _
  | b :: _, hf =>
    keeps_bind (hf b (by simp)) fun _ => keeps_each fun b' hb' => hf b' (by simp [hb'])

theorem keeps_savepoint {caught : ε → Bool} {x : Tx ε σ α} (hx : Keeps I x) :
    Keeps I (savepoint caught x) := by
  intro s o s' hs h
  rcases savepoint_ok.mp h with ⟨a, -, hrun⟩ | ⟨-, rfl, -⟩
  · exact hx s a s' hs hrun
  · exact hs

theorem Keeps.atomically {x : Tx ε σ α} (hx : Keeps I x) {s : σ} (hs : I s) :
    I (atomically x s) := by
  rcases atomically_cases x s with ⟨a, s', h, e⟩ | ⟨_, _, e⟩
  · rw [e]; exact hx s a s' hs h
  · rw [e]; exact hs

end Keeps

/-! ### Frames -/

/-- A successful run of `x` leaves the view `f` as it was. -/
def Frames (f : σ → γ) (x : Tx ε σ α) : Prop := ∀ c, Keeps (fun s => f s = c) x

theorem Frames.eq {f : σ → γ} {x : Tx ε σ α} (hx : Frames f x) {s s' : σ} {a : α}
    (h : x.run s = .ok (a, s')) : f s' = f s := hx (f s) s a s' rfl h

theorem frames_of {f : σ → γ} {x : Tx ε σ α}
    (hx : ∀ s a s', x.run s = .ok (a, s') → f s' = f s) : Frames f x := by
  intro c s a s' hs h
  rw [hx s a s' h, hs]

theorem frames_bind {f : σ → γ} {x : Tx ε σ α} {g : α → Tx ε σ β} (hx : Frames f x)
    (hg : ∀ a, Frames f (g a)) : Frames f (x >>= g) :=
  fun c => keeps_bind (hx c) fun a => hg a c

theorem frames_pure {f : σ → γ} (a : α) : Frames f (pure a : Tx ε σ α) := fun _ => keeps_pure a

theorem frames_read {f : σ → γ} (g : σ → Except ε α) : Frames f (read g) := fun _ => keeps_read g

theorem frames_lift {f : σ → γ} (x : Except ε α) : Frames f (lift x : Tx ε σ α) :=
  fun _ => keeps_lift x

theorem frames_ite {f : σ → γ} {c : Prop} [Decidable c] {x y : Tx ε σ α} (hx : Frames f x)
    (hy : Frames f y) : Frames f (if c then x else y) := fun d => keeps_ite (hx d) (hy d)

theorem frames_each {f : σ → γ} {bs : List β} {g : β → Tx ε σ Unit}
    (hg : ∀ b ∈ bs, Frames f (g b)) : Frames f (each g bs) :=
  fun d => keeps_each fun b hb => hg b hb d

/-! ### Two runs side by side -/

/-- From states related by `R`, two successful runs return the same value and end in related
states. -/
def Sync (R : σ → σ → Prop) (x y : Tx ε σ α) : Prop :=
  ∀ s t a s' b t', R s t → x.run s = .ok (a, s') → y.run t = .ok (b, t') → a = b ∧ R s' t'

section Sync
variable {R : σ → σ → Prop}

theorem sync_bind {x y : Tx ε σ α} {f g : α → Tx ε σ β} (hx : Sync R x y)
    (hf : ∀ a, Sync R (f a) (g a)) : Sync R (x >>= f) (y >>= g) := by
  intro s t b s' c t' hR h1 h2
  obtain ⟨a, s1, ha, hb⟩ := bind_ok.mp h1
  obtain ⟨a', t1, ha', hb'⟩ := bind_ok.mp h2
  obtain ⟨rfl, hR1⟩ := hx s t a s1 a' t1 hR ha ha'
  exact hf a s1 t1 b s' c t' hR1 hb hb'

theorem sync_pure (a : α) : Sync R (pure a : Tx ε σ α) (pure a) := by
  intro s t b s' c t' hR h1 h2
  obtain ⟨rfl, rfl⟩ := pure_ok.mp h1
  obtain ⟨rfl, rfl⟩ := pure_ok.mp h2
  exact ⟨rfl, hR⟩

theorem sync_read {f g : σ → Except ε α}
    (hfg : ∀ s t a b, R s t → f s = .ok a → g t = .ok b → a = b) : Sync R (read f) (read g) := by
  intro s t a s' b t' hR h1 h2
  obtain ⟨e1, rfl⟩ := read_ok.mp h1
  obtain ⟨e2, rfl⟩ := read_ok.mp h2
  exact ⟨hfg s t a b hR e1 e2, hR⟩

theorem sync_lift (x : Except ε α) : Sync R (lift x : Tx ε σ α) (lift x) := by
  refine sync_read fun s t a b _ h1 h2 => ?_
  rw [h1] at h2
  injection h2

theorem sync_each {f g : β → Tx ε σ Unit} : ∀ {bs : List β}, (∀ b ∈ bs, Sync R (f b) (g b)) →
    Sync R (each f bs) (each g bs)
  | [], _ => sync_pure _
  | b :: _, h => sync_bind (h b (by simp)) fun _ => sync_each fun b' hb' => h b' (by simp [hb'])

end Sync

/-! ### Runs of transactions -/

/-- A run of transactions, each committed or rolled back as a whole. -/
def runs {ω : Type*} (body : ω → Tx ε σ α) (ops : List ω) (s : σ) : σ :=
  ops.foldl (fun s op => atomically (body op) s) s

theorem runs_cons {ω : Type*} (body : ω → Tx ε σ α) (op : ω) (ops : List ω) (s : σ) :
    runs body (op :: ops) s = runs body ops (atomically (body op) s) := rfl

/-- **The run rule.** An invariant every body keeps holds in every state a run reaches. -/
theorem runs_keeps {ω : Type*} {body : ω → Tx ε σ α} {I : σ → Prop} :
    ∀ (ops : List ω), (∀ op ∈ ops, Keeps I (body op)) → ∀ {s : σ}, I s → I (runs body ops s)
  | [], _, _, hs => hs
  | op :: ops, h, s, hs => by
    rw [runs_cons]
    exact runs_keeps ops (fun op' hop' => h op' (by simp [hop']))
      ((h op (by simp)).atomically hs)

/-- Every step of the run from `s` meets `P` in the state it starts from. -/
def RunMeets {ω : Type*} (body : ω → Tx ε σ α) (P : σ → ω → Prop) : List ω → σ → Prop
  | [], _ => True
  | op :: ops, s => P s op ∧ RunMeets body P ops (atomically (body op) s)

instance {ω : Type*} (body : ω → Tx ε σ α) (P : σ → ω → Prop) [∀ s op, Decidable (P s op)] :
    ∀ ops s, Decidable (RunMeets body P ops s)
  | [], _ => isTrue trivial
  | op :: ops, s =>
    have := instDecidableRunMeets body P ops (atomically (body op) s)
    inferInstanceAs (Decidable (_ ∧ _))

theorem RunMeets.of_forall {ω : Type*} {body : ω → Tx ε σ α} {P : ω → Prop} : ∀ {ops : List ω}
    {s : σ}, (∀ op ∈ ops, P op) → RunMeets body (fun _ => P) ops s
  | [], _, _ => trivial
  | op :: _, _, h => ⟨h op (by simp), .of_forall fun op' hop' => h op' (by simp [hop'])⟩

theorem RunMeets.and {ω : Type*} {body : ω → Tx ε σ α} {P Q : σ → ω → Prop} : ∀ {ops : List ω}
    {s : σ}, RunMeets body P ops s → RunMeets body Q ops s →
      RunMeets body (fun s op => P s op ∧ Q s op) ops s
  | [], _, _, _ => trivial
  | _ :: _, _, hP, hQ => ⟨⟨hP.1, hQ.1⟩, hP.2.and hQ.2⟩

/-- The run rule when a step keeps the invariant under a condition on the state before it. -/
theorem runs_keeps_of_meets {ω : Type*} {body : ω → Tx ε σ α} {I : σ → Prop}
    {P : σ → ω → Prop} (hstep : ∀ s op a s', I s → P s op → (body op).run s = .ok (a, s') → I s') :
    ∀ (ops : List ω) {s : σ}, I s → RunMeets body P ops s → I (runs body ops s)
  | [], _, hs, _ => hs
  | op :: ops, s, hs, hm => by
    rw [runs_cons]
    refine runs_keeps_of_meets hstep ops ?_ hm.2
    rcases atomically_cases (body op) s with ⟨a, s', h, e⟩ | ⟨_, _, e⟩
    · rw [e]; exact hstep s op a s' hs hm.1 h
    · rw [e]; exact hs

/-- What is said of every step of a run holds exactly when every step meets its condition, if that
is so of one step wherever an invariant holds, and a step that meets its condition keeps the
invariant. -/
theorem runMeets_iff {ω : Type*} {body : ω → Tx ε σ α} {I : σ → Prop} {P Q : σ → ω → Prop}
    (hiff : ∀ s op, I s → (Q s op ↔ P s op))
    (hkeeps : ∀ s op, I s → P s op → I (atomically (body op) s)) : ∀ {ops : List ω} {s : σ}, I s →
      (RunMeets body Q ops s ↔ RunMeets body P ops s)
  | [], _, _ => Iff.rfl
  | op :: ops, s, hs => by
    have hfirst := hiff s op hs
    constructor
    · rintro ⟨hsaid, hrest⟩
      have hmeets := hfirst.mp hsaid
      exact ⟨hmeets, (runMeets_iff hiff hkeeps (hkeeps s op hs hmeets)).mp hrest⟩
    · rintro ⟨hmeets, hrest⟩
      exact ⟨hfirst.mpr hmeets, (runMeets_iff hiff hkeeps (hkeeps s op hs hmeets)).mpr hrest⟩

/-- The rule of `runMeets_iff` when what is said of a step is the invariant itself. -/
theorem runMeets_after_iff {ω : Type*} {body : ω → Tx ε σ α} {Q : σ → Prop} {P : σ → ω → Prop}
    (hstep : ∀ s op, Q s → (Q (atomically (body op) s) ↔ P s op)) {ops : List ω} {s : σ} (hs : Q s) :
    RunMeets body (fun s op => Q (atomically (body op) s)) ops s ↔ RunMeets body P ops s :=
  runMeets_iff hstep (fun s op hbefore hmeets => (hstep s op hbefore).mpr hmeets) hs

theorem runs_append {ω : Type*} (body : ω → Tx ε σ α) (ops ops' : List ω) (s : σ) :
    runs body (ops ++ ops') s = runs body ops' (runs body ops s) := List.foldl_append

/-- The run rule when every operation has a time, the times increase along the run, and the
invariant talks about the time of the last operation. -/
theorem runs_keeps_of_times {ω τ : Type*} [LT τ] {body : ω → Tx ε σ α} {time : ω → τ}
    {I : τ → σ → Prop} {P : σ → ω → Prop} (hlater : ∀ t t' s, t < t' → I t s → I t' s)
    (hstep : ∀ t s op a s', t < time op → I t s → P s op → (body op).run s = .ok (a, s') →
      I (time op) s') :
    ∀ (ops : List ω) {t : τ} {s : σ}, I t s → (∀ op ∈ ops, t < time op) →
      ops.Pairwise (fun op op' => time op < time op') → RunMeets body P ops s →
      ∃ t', I t' (runs body ops s)
  | [], t, s, hs, _, _, _ => ⟨t, hs⟩
  | op :: ops, t, s, hs, ht, htimes, hm => by
    rw [List.pairwise_cons] at htimes
    rw [runs_cons]
    refine runs_keeps_of_times hlater hstep ops (t := time op) ?_ htimes.1 htimes.2 hm.2
    rcases atomically_cases (body op) s with ⟨a, s', h, e⟩ | ⟨_, _, e⟩
    · rw [e]; exact hstep t s op a s' (ht op (by simp)) hs hm.1 h
    · rw [e]; exact hlater t (time op) s (ht op (by simp)) hs

end Trueup.Lib.Transaction
