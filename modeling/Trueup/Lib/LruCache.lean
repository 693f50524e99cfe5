import Mathlib.Data.List.Perm.Subperm
import Mathlib.Order.Defs.LinearOrder
import Trueup.Lib.Dict

/-! # Bounded caches with a time to live

An ordered dictionary that moves a key to its end when it is put or found. `put` drops entries from
the front while there are more than fit, and what has expired is deleted when it is looked for.

* `mem_of_mem_get`, `mem_touch`, `mem_of_mem_evict`: where the entries come from.
* `length_get_le`, `length_evict_le`: there are never more of them than fit.
* `Kept.after`, `Kept.get`: an entry is found until it expires, while fewer other keys than fit are
  used. -/

namespace Trueup.Lib

/-- Entries with the time at which they expire, the least recently used one first. -/
abbrev LruCache (κ τ ν : Type) := Dict κ (τ × ν)

namespace LruCache

variable {κ τ ν : Type} [DecidableEq κ]

/-- The entry of the key, at the end. -/
def touch (cache : LruCache κ τ ν) (k : κ) (entry : τ × ν) : LruCache κ τ ν :=
  ⟨(Table.erase cache k).rows ++ [(k, entry)], by
    rw [List.map_append, List.nodup_append']
    refine ⟨(Table.erase cache k).nodup, List.nodup_singleton _, fun k' hk' hk => ?_⟩
    obtain ⟨row, hrow, rfl⟩ := List.mem_map.mp hk'
    have hne : row.1 ≠ k := of_decide_eq_true (List.mem_filter.mp hrow).2
    exact hne (List.mem_singleton.mp hk)⟩

/-- Entries are dropped from the front while there are more than `maxSize`. -/
def evict (maxSize : ℕ) (cache : LruCache κ τ ν) : LruCache κ τ ν :=
  ⟨cache.rows.drop (cache.rows.length - maxSize),
    cache.nodup.sublist ((List.drop_sublist _ _).map _)⟩

theorem rows_touch (cache : LruCache κ τ ν) (k : κ) (entry : τ × ν) :
    (touch cache k entry).rows = cache.rows.filter (fun row => row.1 ≠ k) ++ [(k, entry)] := rfl

omit [DecidableEq κ] in
theorem rows_evict (maxSize : ℕ) (cache : LruCache κ τ ν) :
    (evict maxSize cache).rows = cache.rows.drop (cache.rows.length - maxSize) := rfl

def put (maxSize : ℕ) (cache : LruCache κ τ ν) (k : κ) (v : ν) (expiresAt : τ) : LruCache κ τ ν :=
  evict maxSize (touch cache k (expiresAt, v))

variable [LinearOrder τ]

/-- The value, if it is there and has not expired, and the cache after the look. -/
def get (cache : LruCache κ τ ν) (k : κ) (now : τ) : Option ν × LruCache κ τ ν :=
  match Dict.get? cache k with
  | none => (none, cache)
  | some entry =>
    if entry.1 ≤ now then (none, Table.erase cache k) else (some entry.2, touch cache k entry)

/-- A use of the cache. -/
inductive Use (κ τ ν : Type)
  | get (k : κ) (now : τ)
  | put (k : κ) (v : ν) (expiresAt : τ)

def Use.key : Use κ τ ν → κ
  | .get k _ => k
  | .put k _ _ => k

def after (maxSize : ℕ) (cache : LruCache κ τ ν) : Use κ τ ν → LruCache κ τ ν
  | .get k now => (get cache k now).2
  | .put k v expiresAt => put maxSize cache k v expiresAt

/-! ### The rows -/

section Rows
variable {cache : LruCache κ τ ν} {k k' : κ} {entry entry' : τ × ν} {now : τ}

omit [LinearOrder τ] in
theorem mem_touch : (k', entry') ∈ (touch cache k entry).rows ↔
    ((k', entry') ∈ cache.rows ∧ k' ≠ k) ∨ (k' = k ∧ entry' = entry) := by
  simp [rows_touch, List.mem_filter]

omit [DecidableEq κ] [LinearOrder τ] in
theorem mem_of_mem_evict {maxSize : ℕ} (h : (k, entry) ∈ (evict maxSize cache).rows) :
    (k, entry) ∈ cache.rows := List.mem_of_mem_drop h

/-- **What a look leaves** is what was there. -/
theorem mem_of_mem_get (h : (k', entry') ∈ (get cache k now).2.rows) : (k', entry') ∈ cache.rows := by
  unfold get at h
  split at h
  · exact h
  · rename_i found hfound
    split_ifs at h with hexpired
    · exact (List.mem_filter.mp h).1
    · rcases mem_touch.mp h with ⟨hmem, -⟩ | ⟨rfl, rfl⟩
      · exact hmem
      · exact Dict.get?_eq_some.mp hfound

theorem get_eq_some {v : ν} : (get cache k now).1 = some v ↔
    ∃ expiresAt, (k, expiresAt, v) ∈ cache.rows ∧ now < expiresAt := by
  unfold get
  constructor
  · intro h
    split at h
    · cases h
    · rename_i found hfound
      split_ifs at h with hexpired
      cases h
      exact ⟨found.1, Dict.get?_eq_some.mp hfound, not_le.mp hexpired⟩
  · rintro ⟨expiresAt, hmem, hnow⟩
    rw [Dict.get?_eq_some.mpr hmem]
    dsimp only
    rw [if_neg (not_le.mpr hnow)]

omit [DecidableEq κ] [LinearOrder τ] in
theorem length_evict_le (maxSize : ℕ) : (evict maxSize cache).rows.length ≤ maxSize := by
  rw [rows_evict, List.length_drop]
  omega

theorem length_get_le : (get cache k now).2.rows.length ≤ cache.rows.length := by
  have hsub : ((get cache k now).2.rows).Subperm cache.rows :=
    ((get cache k now).2.nodup.of_map _).subperm fun row hrow => mem_of_mem_get hrow
  exact hsub.length_le

end Rows

/-! ### What is still there -/

section Kept
variable {maxSize : ℕ} {k : κ}

/-- The entry of the key is there, and what has been used since is among the keys. -/
def Kept (k : κ) (entry : τ × ν) (others : List κ) (cache : LruCache κ τ ν) : Prop :=
  ∃ earlier later, cache.rows = earlier ++ (k, entry) :: later ∧ ∀ row ∈ later, row.1 ∈ others

variable {entry : τ × ν} {others : List κ} {cache : LruCache κ τ ν}

omit [LinearOrder τ] in
theorem kept_touch : Kept k entry others (touch cache k entry) :=
  ⟨(Table.erase cache k).rows, [], rfl, fun _ h => by cases h⟩

omit [LinearOrder τ] in
theorem Kept.erase (h : Kept k entry others cache) {k' : κ} (hne : k ≠ k') :
    Kept k entry others (Table.erase cache k') := by
  obtain ⟨earlier, later, hrows, hlater⟩ := h
  refine ⟨earlier.filter fun row => row.1 ≠ k', later.filter fun row => row.1 ≠ k', ?_,
    fun row hrow => hlater row (List.mem_filter.mp hrow).1⟩
  show cache.rows.filter (fun row => row.1 ≠ k') = _
  rw [hrows, List.filter_append, List.filter_cons_of_pos (by simpa using hne)]

omit [LinearOrder τ] in
theorem Kept.touch (h : Kept k entry others cache) {k' : κ} (entry' : τ × ν) (hne : k ≠ k')
    (hmem : k' ∈ others) : Kept k entry others (touch cache k' entry') := by
  obtain ⟨earlier, later, hrows, hlater⟩ := h.erase hne
  refine ⟨earlier, later ++ [(k', entry')], ?_, fun row hrow => ?_⟩
  · have hcons : (LruCache.touch cache k' entry').rows =
        (Table.erase cache k').rows ++ [(k', entry')] := rfl
    rw [hcons, hrows, List.append_assoc]
    rfl
  · rcases List.mem_append.mp hrow with hold | hnew
    · exact hlater row hold
    · rw [List.mem_singleton.mp hnew]
      exact hmem

omit [DecidableEq κ] [LinearOrder τ] in
/-- What is dropped was used before. -/
theorem Kept.evict (h : Kept k entry others cache) (hfew : others.length < maxSize) :
    Kept k entry others (evict maxSize cache) := by
  obtain ⟨earlier, later, hrows, hlater⟩ := h
  have hnodup : (later.map Prod.fst).Nodup := by
    have hall := cache.nodup
    rw [hrows, List.map_append, List.map_cons, List.nodup_append', List.nodup_cons] at hall
    exact hall.2.1.2
  have hle : later.length ≤ others.length := by
    have hsub : (later.map Prod.fst).Subperm others := hnodup.subperm fun k' hk' => by
      obtain ⟨row, hrow, rfl⟩ := List.mem_map.mp hk'
      exact hlater row hrow
    simpa using hsub.length_le
  have hdrop : cache.rows.length - maxSize ≤ earlier.length := by
    rw [hrows, List.length_append, List.length_cons]
    omega
  refine ⟨earlier.drop (cache.rows.length - maxSize), later, ?_, hlater⟩
  rw [rows_evict]
  rw [hrows] at hdrop ⊢
  exact List.drop_append_of_le_length hdrop

/-- A use that keeps the entry: of another key, or a look before it expires. -/
def Use.Spares (k : κ) (entry : τ × ν) (others : List κ) (use : Use κ τ ν) : Prop :=
  use.key ≠ k ∧ use.key ∈ others ∨ ∃ now, use = .get k now ∧ now < entry.1

theorem Kept.after (h : Kept k entry others cache) (hfew : others.length < maxSize)
    (use : Use κ τ ν) (huse : use.Spares k entry others) :
    Kept k entry others (after maxSize cache use) := by
  rcases huse with ⟨hne, hmem⟩ | ⟨now, rfl, hnow⟩
  · cases use with
    | get k' now =>
      show Kept k entry others (get cache k' now).2
      unfold get
      split
      · exact h
      · split_ifs with hexpired
        · exact h.erase (Ne.symm hne)
        · exact h.touch _ (Ne.symm hne) hmem
    | put k' v expiresAt => exact (h.touch _ (Ne.symm hne) hmem).evict hfew
  · obtain ⟨earlier, later, hrows, -⟩ := h
    have hfound : Dict.get? cache k = some entry := Dict.get?_eq_some.mpr (by simp [hrows])
    show Kept k entry others (get cache k now).2
    unfold get
    rw [hfound]
    dsimp only
    rw [if_neg (not_le.mpr hnow)]
    exact kept_touch

theorem Kept.get {v : ν} {expiresAt now : τ} (h : Kept k (expiresAt, v) others cache)
    (hnow : now < expiresAt) : (get cache k now).1 = some v := by
  obtain ⟨earlier, later, hrows, -⟩ := h
  exact get_eq_some.mpr ⟨expiresAt, by simp [hrows], hnow⟩

end Kept

end LruCache

end Trueup.Lib
