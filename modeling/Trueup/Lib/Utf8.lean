import Trueup.Lib.Unicode

/-! # Strict UTF-8

`bytes.decode("utf-8")`, which refuses surrogates, and `str.encode("utf-8")`.

* `decodeUtf8_eq_some`: bytes decode to a text exactly when it encodes to them. -/

namespace Trueup.Lib.Unicode

open Trueup.Lib.Text

/-- `decode("utf-8")`. -/
def decodeUtf8 (bytes : List Byte) : Option Str := (utf8 bytes).filter fun s => NoSurrogates s

theorem push_some {n : ℕ} {c : CodePoint} (h : n = c.val) (s : Str) : push n (some s) = some (c :: s) := by
  subst h
  simp [push, codePoint, c.isLt]

theorem isTail_iff {b : Byte} : IsTail b ↔ 0x80 ≤ b.val ∧ b.val ≤ 0xbf := Iff.rfl

theorem utf8_append {c : CodePoint} {bytes : List Byte} (h : utf8Bytes c = some bytes) (rest : List Byte)
    {s : Str} (hrest : utf8 rest = some s) : utf8 (bytes ++ rest) = some (c :: s) := by
  have hlt := c.isLt
  have h80 : (0x80 : Byte).val = 0x80 := rfl
  have hc2 : (0xc2 : Byte).val = 0xc2 := rfl
  have he0 : (0xe0 : Byte).val = 0xe0 := rfl
  have hf0 : (0xf0 : Byte).val = 0xf0 := rfl
  have hf5 : (0xf5 : Byte).val = 0xf5 := rfl
  unfold utf8Bytes at h
  split_ifs at h with h1 h2 hsurrogate h3
  · cases h
    rw [List.cons_append, List.nil_append, utf8.eq_def]
    dsimp only
    rw [if_pos (by rw [Fin.lt_def, h80]; exact h1), hrest]
    exact push_some rfl s
  · cases h
    rw [List.cons_append, List.cons_append, List.nil_append, utf8.eq_def]
    dsimp only
    rw [if_neg (by rw [Fin.lt_def, h80]; dsimp only; omega),
      if_neg (by rw [Fin.lt_def, hc2]; dsimp only; omega),
      if_neg (by rw [isTail_iff, not_not]; dsimp only; omega),
      if_pos (by rw [Fin.lt_def, he0]; dsimp only; omega), hrest]
    exact push_some (by omega) s
  · cases h
    rw [List.cons_append, List.cons_append, List.cons_append, List.nil_append, utf8.eq_def]
    dsimp only
    rw [if_neg (by rw [Fin.lt_def, h80]; dsimp only; omega),
      if_neg (by rw [Fin.lt_def, hc2]; dsimp only; omega),
      if_neg (by rw [isTail_iff, not_not]; dsimp only; omega),
      if_neg (by rw [Fin.lt_def, he0]; dsimp only; omega),
      if_neg (by rw [isTail_iff, not_not]; dsimp only; omega),
      if_pos (by rw [Fin.lt_def, hf0]; dsimp only; omega), if_neg (by omega), hrest]
    exact push_some (by omega) s
  · cases h
    rw [List.cons_append, List.cons_append, List.cons_append, List.cons_append, List.nil_append,
      utf8.eq_def]
    dsimp only
    rw [if_neg (by rw [Fin.lt_def, h80]; dsimp only; omega),
      if_neg (by rw [Fin.lt_def, hc2]; dsimp only; omega),
      if_neg (by rw [isTail_iff, not_not]; dsimp only; omega),
      if_neg (by rw [Fin.lt_def, he0]; dsimp only; omega),
      if_neg (by rw [isTail_iff, not_not]; dsimp only; omega),
      if_neg (by rw [Fin.lt_def, hf0]; dsimp only; omega),
      if_neg (by rw [isTail_iff, not_or, not_not, Fin.le_def, hf5]; dsimp only; omega),
      if_neg (by omega), hrest]
    exact push_some (by omega) s

theorem notSurrogate_of_utf8Bytes {c : CodePoint} {bytes : List Byte} (h : utf8Bytes c = some bytes) :
    ¬ IsHigh c ∧ ¬ IsLow c := by
  unfold utf8Bytes at h
  unfold IsHigh IsLow at *
  split_ifs at h with h1 h2 hsurrogate h3 <;> omega

/-- **What was encoded decodes** to the text it was. -/
theorem decodeUtf8_encode {s : Str} {bytes : List Byte} (h : utf8Encode s = some bytes) :
    decodeUtf8 bytes = some s := by
  have hboth : utf8 bytes = some s ∧ NoSurrogates s := by
    induction s generalizing bytes with
    | nil =>
      cases h
      exact ⟨rfl, fun c hc => by cases hc⟩
    | cons c s ih =>
      obtain ⟨parts, hparts, rfl⟩ := Option.map_eq_some_iff.mp h
      rw [List.mapM_cons] at hparts
      obtain ⟨head, hhead, hparts⟩ := Option.bind_eq_some_iff.mp hparts
      obtain ⟨tail, htail, hparts⟩ := Option.bind_eq_some_iff.mp hparts
      cases hparts
      obtain ⟨hdecode, hscalar⟩ := @ih tail.flatten (by rw [utf8Encode, htail]; rfl)
      refine ⟨utf8_append hhead _ hdecode, fun c' hc' => ?_⟩
      rcases List.mem_cons.mp hc' with rfl | hmem
      · exact notSurrogate_of_utf8Bytes hhead
      · exact hscalar c' hmem
  unfold decodeUtf8
  rw [hboth.1, Option.filter_some, if_pos (by simpa using hboth.2)]

theorem push_eq_some {n : ℕ} {rest : Option Str} {s : Str} (h : push n rest = some s) :
    ∃ c s', n = c.val ∧ rest = some s' ∧ s = c :: s' := by
  obtain ⟨c, hc, h⟩ := Option.bind_eq_some_iff.mp h
  obtain ⟨s', hs', h⟩ := Option.bind_eq_some_iff.mp h
  cases h
  unfold codePoint at hc
  split_ifs at hc with hlt
  cases hc
  exact ⟨⟨n, hlt⟩, s', rfl, hs', rfl⟩

/-- A text is the decoding of the bytes of its first code point and of the rest. -/
theorem utf8_eq_cons {c : CodePoint} {s : Str} (hscalar : ¬ IsHigh c ∧ ¬ IsLow c) {bytes : List Byte}
    (h : utf8 bytes = some (c :: s)) :
    ∃ head rest, utf8Bytes c = some head ∧ bytes = head ++ rest ∧ utf8 rest = some s := by
  have h80 : (0x80 : Byte).val = 0x80 := rfl
  have hc2 : (0xc2 : Byte).val = 0xc2 := rfl
  have he0 : (0xe0 : Byte).val = 0xe0 := rfl
  have hf0 : (0xf0 : Byte).val = 0xf0 := rfl
  have hf5 : (0xf5 : Byte).val = 0xf5 := rfl
  have hlt := c.isLt
  unfold IsHigh IsLow at hscalar
  -- the head is read byte by byte; what it stands for says in which range each byte is
  have hpush : ∀ {n : ℕ} {rest : List Byte} (head : List Byte), push n (utf8 rest) = some (c :: s) →
      bytes = head ++ rest → (n = c.val → utf8Bytes c = some head) →
      ∃ head rest, utf8Bytes c = some head ∧ bytes = head ++ rest ∧ utf8 rest = some s := by
    intro n rest head hread hbytes hhead
    obtain ⟨c', s', hn, hrest, heq⟩ := push_eq_some hread
    cases heq
    exact ⟨head, rest, hhead hn, hbytes, hrest⟩
  rw [utf8.eq_def] at h
  cases bytes with
  | nil => cases h
  | cons a rest =>
  dsimp only at h
  by_cases h1 : a < 0x80
  · rw [if_pos h1] at h
    refine hpush [a] h rfl fun hn => ?_
    rw [Fin.lt_def, h80] at h1
    unfold utf8Bytes
    rw [dif_pos (by omega)]
    simp only [Option.some.injEq, List.cons.injEq, Fin.ext_iff, and_true]
    omega
  rw [if_neg h1] at h
  by_cases h2 : a < 0xc2
  · rw [if_pos h2] at h
    cases h
  rw [if_neg h2] at h
  rw [Fin.lt_def, h80] at h1
  rw [Fin.lt_def, hc2] at h2
  cases rest with
  | nil => cases h
  | cons b rest =>
  dsimp only at h
  by_cases hb : IsTail b
  swap
  · rw [if_pos hb] at h
    cases h
  rw [if_neg (not_not.mpr hb)] at h
  rw [isTail_iff] at hb
  by_cases h3 : a < 0xe0
  · rw [if_pos h3] at h
    refine hpush [a, b] h rfl fun hn => ?_
    rw [Fin.lt_def, he0] at h3
    unfold utf8Bytes
    rw [dif_neg (by omega), dif_pos (by omega)]
    simp only [Option.some.injEq, List.cons.injEq, Fin.ext_iff, and_true]
    omega
  rw [if_neg h3] at h
  rw [Fin.lt_def, he0] at h3
  cases rest with
  | nil => cases h
  | cons d rest =>
  dsimp only at h
  by_cases hd : IsTail d
  swap
  · rw [if_pos hd] at h
    cases h
  rw [if_neg (not_not.mpr hd)] at h
  rw [isTail_iff] at hd
  by_cases h4 : a < 0xf0
  · rw [if_pos h4] at h
    split_ifs at h with hlong
    refine hpush [a, b, d] h rfl fun hn => ?_
    rw [Fin.lt_def, hf0] at h4
    unfold utf8Bytes IsHigh IsLow
    rw [dif_neg (by omega), dif_neg (by omega), if_neg (by omega), dif_pos (by omega)]
    simp only [Option.some.injEq, List.cons.injEq, Fin.ext_iff, and_true]
    omega
  rw [if_neg h4] at h
  rw [Fin.lt_def, hf0] at h4
  cases rest with
  | nil => cases h
  | cons e rest =>
  dsimp only at h
  split_ifs at h with he hlong
  rw [not_or, not_not, isTail_iff, Fin.le_def, hf5] at he
  refine hpush [a, b, d, e] h rfl fun hn => ?_
  unfold utf8Bytes IsHigh IsLow
  rw [dif_neg (by omega), dif_neg (by omega), if_neg (by omega), dif_neg (by omega)]
  simp only [Option.some.injEq, List.cons.injEq, Fin.ext_iff, and_true]
  omega

/-- Bytes that decode are those of at least one code point. -/
theorem utf8_eq_nil {bytes : List Byte} (h : utf8 bytes = some []) : bytes = [] := by
  have hpush : ∀ (n : ℕ) (rest : List Byte), push n (utf8 rest) ≠ some [] := fun n rest hread => by
    obtain ⟨c, s, -, -, heq⟩ := push_eq_some hread
    cases heq
  rw [utf8.eq_def] at h
  split at h
  · rfl
  · exfalso
    dsimp only at h
    repeat' split at h
    all_goals first | simp only [reduceCtorEq] at h | exact hpush _ _ h

/-- **Strict UTF-8**: bytes decode to a text exactly when it encodes to them. -/
theorem decodeUtf8_eq_some {s : Str} {bytes : List Byte} :
    decodeUtf8 bytes = some s ↔ utf8Encode s = some bytes := by
  refine ⟨fun h => ?_, decodeUtf8_encode⟩
  obtain ⟨hdecode, hscalar⟩ := Option.filter_eq_some_iff.mp h
  rw [decide_eq_true_eq] at hscalar
  clear h
  induction s generalizing bytes with
  | nil =>
    rw [utf8_eq_nil hdecode]
    rfl
  | cons c s ih =>
    obtain ⟨head, rest, hhead, rfl, hrest⟩ := utf8_eq_cons (hscalar c List.mem_cons_self) hdecode
    have htail := ih hrest fun c' hc' => hscalar c' (List.mem_cons_of_mem _ hc')
    obtain ⟨parts, hparts, rfl⟩ := Option.map_eq_some_iff.mp htail
    rw [utf8Encode, List.mapM_cons, hhead, hparts]
    rfl

end Trueup.Lib.Unicode
