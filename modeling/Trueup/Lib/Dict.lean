import Mathlib.Data.List.Induction
import Trueup.Lib.Table

/-! # Dictionaries

A dictionary is a table of pairs with the key in front: its keys are pairwise different, in the
order in which they were first put.

`ofList` is a comprehension: the later of two values of a key wins (`get?_comprehension`), and pairs
with pairwise different keys are kept as they are (`rows_ofList`). `update` puts the values of
another dictionary (`get?_update`), and `firsts` keeps the first value of each key
(`mem_firsts`). -/

namespace Trueup.Lib

/-- A dictionary. -/
abbrev Dict (κ ν : Type) := Table (Prod.fst : κ × ν → κ)

namespace Dict

variable {κ ν μ : Type}

/-- The keys. -/
def keys (d : Dict κ ν) : List κ := d.rows.map Prod.fst

theorem nodup_keys (d : Dict κ ν) : d.keys.Nodup := d.nodup

theorem mem_keys {d : Dict κ ν} {k : κ} : k ∈ d.keys ↔ d.Has k := Iff.rfl

variable [DecidableEq κ]

/-- The value of a key. -/
def get? (d : Dict κ ν) (k : κ) : Option ν := (d.find k).map Prod.snd

/-- The value of a key, or a default. -/
def getD (d : Dict κ ν) (k : κ) (default : ν) : ν := (get? d k).getD default

/-- The dictionary with a value for a key. -/
def put (d : Dict κ ν) (k : κ) (v : ν) : Dict κ ν := Table.upsert d (k, v)

/-- The values, as a function of the keys and values of another dictionary, put one after the
other. -/
def update (d : Dict κ ν) (f : κ → μ → ν) (pairs : List (κ × μ)) : Dict κ ν :=
  pairs.foldl (fun d pair => put d pair.1 (f pair.1 pair.2)) d

/-- The dictionary of a comprehension. -/
def ofList (pairs : List (κ × ν)) : Dict κ ν := update ∅ (fun _ v => v) pairs

/-- `setdefault`: a key that has a value keeps it. -/
def setDefault (d : Dict κ ν) (k : κ) (v : ν) : Dict κ ν := if d.Has k then d else put d k v

/-- The first value of each key. -/
def firsts (pairs : List (κ × ν)) : Dict κ ν :=
  pairs.foldl (fun d pair => setDefault d pair.1 pair.2) ∅

theorem get?_eq_some {d : Dict κ ν} {k : κ} {v : ν} : get? d k = some v ↔ (k, v) ∈ d.rows := by
  unfold get?
  rw [Option.map_eq_some_iff]
  constructor
  · rintro ⟨pair, hfind, rfl⟩
    obtain ⟨hmem, rfl⟩ := Table.find_eq_some.mp hfind
    exact hmem
  · intro hmem
    exact ⟨(k, v), Table.find_eq_some.mpr ⟨hmem, rfl⟩, rfl⟩

theorem get?_eq_none {d : Dict κ ν} {k : κ} : get? d k = none ↔ ¬ d.Has k := by
  unfold get?
  rw [Option.map_eq_none_iff, Table.find_eq_none]

theorem get?_isSome {d : Dict κ ν} {k : κ} : (get? d k).isSome ↔ d.Has k := by
  rw [← not_iff_not, Bool.not_eq_true, Option.isSome_eq_false_iff, Option.isNone_iff_eq_none,
    get?_eq_none]

theorem put_of_has {d : Dict κ ν} {k : κ} (h : d.Has k) (v : ν) : put d k v = Table.set d (k, v) := by
  unfold put Table.upsert
  rw [Table.insert_eq_none.mpr h]
  rfl

theorem rows_put_of_not_has {d : Dict κ ν} {k : κ} (h : ¬ d.Has k) (v : ν) :
    (put d k v).rows = d.rows ++ [(k, v)] := by
  unfold put Table.upsert
  cases hinsert : Table.insert d (k, v) with
  | none => exact absurd (Table.insert_eq_none.mp hinsert) h
  | some u => exact Table.rows_insert hinsert

@[simp] theorem get?_put (d : Dict κ ν) (k : κ) (v : ν) (k' : κ) :
    get? (put d k v) k' = if k = k' then some v else get? d k' := by
  by_cases hk : d.Has k
  · rw [put_of_has hk]
    unfold get?
    rw [Table.find_set hk]
    dsimp only
    split_ifs <;> rfl
  · unfold put Table.upsert get?
    cases hinsert : Table.insert d (k, v) with
    | none => exact absurd (Table.insert_eq_none.mp hinsert) hk
    | some u =>
      rw [Option.getD_some, Table.find_insert hinsert]
      dsimp only
      split_ifs <;> rfl

/-- **What an update leaves**: the new value of a key that has one, else the old one. -/
theorem get?_update (f : κ → μ → ν) {pairs : List (κ × μ)} (hnodup : (pairs.map Prod.fst).Nodup)
    (d : Dict κ ν) (k : κ) : get? (update d f pairs) k =
      ((pairs.find? (·.1 = k)).map fun pair => f k pair.2).or (get? d k) := by
  induction pairs generalizing d with
  | nil => rfl
  | cons pair pairs ih =>
    rw [List.map_cons, List.nodup_cons] at hnodup
    have hstep : update d f (pair :: pairs) = update (put d pair.1 (f pair.1 pair.2)) f pairs := rfl
    rw [hstep, ih hnodup.2, get?_put]
    by_cases hk : pair.1 = k
    · subst hk
      have hnone : pairs.find? (·.1 = pair.1) = none := by
        rw [List.find?_eq_none]
        intro other hother
        simp only [decide_eq_true_eq]
        exact fun heq => hnodup.1 (heq ▸ List.mem_map_of_mem hother)
      rw [hnone, List.find?_cons_of_pos (by simp)]
      simp
    · rw [List.find?_cons_of_neg (by simpa using hk), if_neg hk]

theorem get?_update_rows (f : κ → μ → ν) (d : Dict κ ν) (e : Dict κ μ) (k : κ) :
    get? (update d f e.rows) k = ((get? e k).map (f k)).or (get? d k) := by
  rw [get?_update f e.nodup]
  congr 1
  unfold get? Table.find
  rw [Option.map_map]
  rfl

theorem rows_update_of_new (f : κ → μ → ν) {pairs : List (κ × μ)} {d : Dict κ ν}
    (hnodup : (d.keys ++ pairs.map Prod.fst).Nodup) :
    (update d f pairs).rows = d.rows ++ pairs.map fun pair => (pair.1, f pair.1 pair.2) := by
  induction pairs generalizing d with
  | nil => exact (List.append_nil _).symm
  | cons pair pairs ih =>
    have hnew : ¬ d.Has pair.1 := fun hhas =>
      (List.nodup_append'.mp hnodup).2.2 hhas (List.mem_map_of_mem List.mem_cons_self)
    have hrows := rows_put_of_not_has hnew (f pair.1 pair.2)
    have hstep : update d f (pair :: pairs) = update (put d pair.1 (f pair.1 pair.2)) f pairs := rfl
    rw [hstep, ih, hrows, List.map_cons, List.append_assoc]
    · rfl
    · unfold keys at hnodup ⊢
      rw [hrows, List.map_append, List.append_assoc]
      exact hnodup

theorem rows_ofList {pairs : List (κ × ν)} (hnodup : (pairs.map Prod.fst).Nodup) :
    (ofList pairs).rows = pairs := by
  unfold ofList
  rw [rows_update_of_new]
  · simp
  · exact hnodup

theorem get?_ofList {pairs : List (κ × ν)} (hnodup : (pairs.map Prod.fst).Nodup) {k : κ} {v : ν} :
    get? (ofList pairs) k = some v ↔ (k, v) ∈ pairs := by
  rw [get?_eq_some, rows_ofList hnodup]

/-! ### Comprehensions with repeated keys -/

section Comprehension
variable {α : Type} {key : α → κ}

/-- No later item of the list has the key of this one. -/
def LastOfKey (key : α → κ) (items : List α) (item : α) : Prop :=
  ∃ before after, items = before ++ item :: after ∧ ∀ other ∈ after, key other ≠ key item

omit [DecidableEq κ] in
theorem LastOfKey.mem {items : List α} {item : α} (h : LastOfKey key items item) : item ∈ items := by
  obtain ⟨before, after, rfl, -⟩ := h
  exact List.mem_append_right _ List.mem_cons_self

omit [DecidableEq κ] in
theorem lastOfKey_concat {items : List α} {new item : α} :
    LastOfKey key (items ++ [new]) item ↔
      item = new ∨ (LastOfKey key items item ∧ key new ≠ key item) := by
  constructor
  · rintro ⟨before, after, heq, hafter⟩
    rcases List.eq_nil_or_concat after with rfl | ⟨after, last, rfl⟩
    · exact Or.inl (List.concat_inj.mp (by simpa using heq)).2.symm
    · rw [List.concat_eq_append, ← List.cons_append, ← List.append_assoc] at heq
      obtain ⟨rfl, hlast⟩ := List.append_inj' heq rfl
      cases hlast
      rw [List.concat_eq_append] at hafter
      exact Or.inr ⟨⟨before, after, rfl, fun other hother =>
        hafter other (List.mem_append_left _ hother)⟩, hafter new (by simp)⟩
  · rintro (rfl | ⟨⟨before, after, rfl, hafter⟩, hnew⟩)
    · exact ⟨items, [], rfl, fun _ h => by cases h⟩
    · refine ⟨before, after ++ [new], by simp, fun other hother => ?_⟩
      rcases List.mem_append.mp hother with hother | hother
      · exact hafter other hother
      · exact List.mem_singleton.mp hother ▸ hnew

/-- **The last item of a key** gives its value. -/
theorem get?_comprehension (value : α → ν) {items : List α} {k : κ} {v : ν} :
    get? (ofList (items.map fun item => (key item, value item))) k = some v ↔
      ∃ item, LastOfKey key items item ∧ key item = k ∧ value item = v := by
  induction items using List.reverseRecOn with
  | nil =>
    constructor
    · intro h
      cases h
    · rintro ⟨item, hlast, -⟩
      exact absurd hlast.mem List.not_mem_nil
  | append_singleton items new ih =>
    have hput : ofList ((items ++ [new]).map fun item => (key item, value item)) =
        put (ofList (items.map fun item => (key item, value item))) (key new) (value new) := by
      simp [ofList, update]
    rw [hput, get?_put]
    simp only [lastOfKey_concat]
    by_cases hk : key new = k
    · rw [if_pos hk, Option.some_inj]
      constructor
      · exact fun hv => ⟨new, Or.inl rfl, hk, hv⟩
      · rintro ⟨item, rfl | ⟨-, hother⟩, hkey, hv⟩
        · exact hv
        · exact absurd (hk.trans hkey.symm) hother
    · rw [if_neg hk, ih]
      constructor
      · rintro ⟨item, hlast, hkey, hv⟩
        exact ⟨item, Or.inr ⟨hlast, fun heq => hk (heq.trans hkey)⟩, hkey, hv⟩
      · rintro ⟨item, rfl | ⟨hlast, -⟩, hkey, hv⟩
        · exact absurd hkey hk
        · exact ⟨item, hlast, hkey, hv⟩

variable (key) in
theorem has_comprehension (value : α → ν) {items : List α} {k : κ} :
    (ofList (items.map fun item => (key item, value item))).Has k ↔ ∃ item ∈ items, key item = k := by
  rw [← get?_isSome, Option.isSome_iff_exists]
  simp only [get?_comprehension]
  constructor
  · rintro ⟨v, item, hlast, hkey, -⟩
    exact ⟨item, hlast.mem, hkey⟩
  · induction items using List.reverseRecOn with
    | nil =>
      rintro ⟨item, hitem, -⟩
      cases hitem
    | append_singleton items new ih =>
      rintro ⟨item, hitem, hkey⟩
      by_cases hnew : key new = k
      · exact ⟨value new, new, lastOfKey_concat.mpr (Or.inl rfl), hnew, rfl⟩
      · rcases List.mem_append.mp hitem with hitem | hitem
        · obtain ⟨v, last, hlast, hlastKey, hv⟩ := ih ⟨item, hitem, hkey⟩
          exact ⟨v, last, lastOfKey_concat.mpr (Or.inr ⟨hlast, fun heq => hnew (heq.trans hlastKey)⟩),
            hlastKey, hv⟩
        · rw [List.mem_singleton.mp hitem] at hkey
          exact absurd hkey hnew

/-- What holds of every key and its value, or the default, holds of the last item of each key, and
of the default for the other keys. -/
theorem getD_comprehension_iff (value : α → ν) {items : List α} {default : ν} (P : κ → ν → Prop) :
    (∀ k, P k ((ofList (items.map fun item => (key item, value item))).getD k default)) ↔
      (∀ item, LastOfKey key items item → P (key item) (value item)) ∧
        ∀ k, (∀ item ∈ items, key item ≠ k) → P k default := by
  constructor
  · intro hall
    refine ⟨fun item hlast => ?_, fun k habsent => ?_⟩
    · have hget := (get?_comprehension value).mpr ⟨item, hlast, rfl, rfl⟩
      simpa only [getD, hget, Option.getD_some] using hall (key item)
    · have hnot : ¬ (ofList (items.map fun item => (key item, value item))).Has k := fun hhas => by
        obtain ⟨item, hitem, hkey⟩ := (has_comprehension key value).mp hhas
        exact habsent item hitem hkey
      have hget := get?_eq_none.mpr hnot
      simpa only [getD, hget, Option.getD_none] using hall k
  · rintro ⟨hitems, habsent⟩ k
    unfold getD
    cases hget : get? (ofList (items.map fun item => (key item, value item))) k with
    | none =>
      exact habsent k fun item hitem hkey =>
        get?_eq_none.mp hget ((has_comprehension key value).mpr ⟨item, hitem, hkey⟩)
    | some v =>
      obtain ⟨item, hlast, rfl, rfl⟩ := (get?_comprehension value).mp hget
      exact hitems item hlast

end Comprehension

theorem rows_setDefault (d : Dict κ ν) (k : κ) (v : ν) :
    (setDefault d k v).rows = if d.Has k then d.rows else d.rows ++ [(k, v)] := by
  unfold setDefault
  split_ifs with hk
  · rfl
  · exact rows_put_of_not_has hk v

/-- A dictionary of first values has the keys of the pairs, and its own pairs are among them. -/
theorem mem_firsts (pairs : List (κ × ν)) :
    (∀ k, (firsts pairs).Has k ↔ k ∈ pairs.map Prod.fst) ∧
      ∀ pair ∈ (firsts pairs).rows, pair ∈ pairs := by
  suffices hfold : ∀ d : Dict κ ν,
      (∀ k, (pairs.foldl (fun d pair => setDefault d pair.1 pair.2) d).Has k ↔
          d.Has k ∨ k ∈ pairs.map Prod.fst) ∧
        ∀ pair ∈ (pairs.foldl (fun d pair => setDefault d pair.1 pair.2) d).rows,
          pair ∈ d.rows ∨ pair ∈ pairs by
    obtain ⟨hkeys, hrows⟩ := hfold ∅
    refine ⟨fun k => (hkeys k).trans ?_, fun pair hpair => ?_⟩
    · exact or_iff_right List.not_mem_nil
    · exact (hrows pair hpair).resolve_left List.not_mem_nil
  induction pairs with
  | nil => exact fun d => ⟨fun k => (or_iff_left List.not_mem_nil).symm, fun _ => Or.inl⟩
  | cons first pairs ih =>
    intro d
    obtain ⟨hkeys, hrows⟩ := ih (setDefault d first.1 first.2)
    have hhas : ∀ k, (setDefault d first.1 first.2).Has k ↔ d.Has k ∨ k = first.1 := by
      intro k
      unfold Table.Has
      rw [rows_setDefault]
      by_cases hfirst : d.Has first.1
      · rw [if_pos hfirst]
        refine ⟨Or.inl, fun h => h.elim id fun heq => ?_⟩
        rw [heq]
        exact hfirst
      · rw [if_neg hfirst, List.map_append, List.mem_append]
        simp
    refine ⟨fun k => ?_, fun pair hpair => ?_⟩
    · rw [List.foldl_cons, hkeys, hhas, List.map_cons, List.mem_cons, or_assoc]
    · rcases hrows pair hpair with hold | hnew
      · rw [rows_setDefault] at hold
        split_ifs at hold
        · exact Or.inl hold
        · rcases List.mem_append.mp hold with hold | hold
          · exact Or.inl hold
          · exact Or.inr (List.mem_cons.mpr (Or.inl (List.mem_singleton.mp hold)))
      · exact Or.inr (List.mem_cons_of_mem _ hnew)

end Dict

end Trueup.Lib
