import Mathlib.Tactic.IntervalCases
import Trueup.Lib.Json

/-! # Reading back what was written as JSON

* `scanChars_encode`: a string of Unicode scalar values reads back.
* `ascii_dumps`: what `dumps` writes is ASCII, so it has one encoding.
* `loads_dumps`: a list of integers, booleans, nulls and such strings reads back. -/

namespace Trueup.Lib.Json

open Trueup.Lib.Text Trueup.Lib.Unicode Trueup.Lib.Transaction

/-! ### The strings -/

theorem fixed_four (n : ℕ) : fixed 16 4 n =
    [digit (n / 16 / 16 / 16 % 16), digit (n / 16 / 16 % 16), digit (n / 16 % 16), digit (n % 16)] := rfl

theorem decodeHex_fixed {n : ℕ} (h : n < 0x10000) :
    decodeHex (fixed 16 4 n) = some ⟨n, by omega⟩ := by
  have hdigits : (fixed 16 4 n).all fun c => (digitValue c).isSome := by
    have hmod : ∀ m, (digitValue (digit (m % 16))).isSome := fun m => by
      rw [digitValue_digit (Nat.mod_lt m (by norm_num))]
      rfl
    simp [fixed_four, hmod]
  unfold decodeHex
  rw [if_pos hdigits, number_fixed (by norm_num) le_rfl (by norm_num; omega), codePoint, dif_pos]

theorem mem_of_lookup {c letter : CodePoint} : ∀ {pairs : List (CodePoint × CodePoint)},
    pairs.lookup c = some letter → (c, letter) ∈ pairs
  | [], h => by cases h
  | (c', letter') :: pairs, h => by
    rw [List.lookup_cons] at h
    split at h
    · rename_i heq
      obtain rfl := eq_of_beq heq
      cases h
      exact List.mem_cons_self
    · exact List.mem_cons_of_mem _ (mem_of_lookup h)

theorem escapeDct_lookup {c letter : CodePoint} (h : escapeDct.lookup c = some letter) :
    letter ≠ ch 'u' ∧ backslashDct.lookup letter = some c := by
  have hall : escapeDct.all fun p => p.2 ≠ ch 'u' ∧ backslashDct.lookup p.2 = some p.1 := by decide
  exact of_decide_eq_true (List.all_eq_true.mp hall (c, letter) (mem_of_lookup h))

theorem scanEscape_letter {c letter : CodePoint} (hletter : letter ≠ ch 'u')
    (hlookup : backslashDct.lookup letter = some c) (rest : Str) :
    scanEscape (letter :: rest) = .ok (c, rest) := by
  rw [scanEscape, if_pos hletter, hlookup]
  rfl

/-- The escape of a code point that is no half of a pair. -/
theorem scanEscape_hex {n : ℕ} (h : n < 0x10000) (hhigh : ¬ IsHigh n) (rest : Str) :
    scanEscape (ch 'u' :: (fixed 16 4 n ++ rest)) = .ok (⟨n, by omega⟩, rest) := by
  have hlength : 4 ≤ (fixed 16 4 n ++ rest).length := by
    rw [List.length_append, length_fixed]
    omega
  have htake : (fixed 16 4 n ++ rest).take 4 = fixed 16 4 n := List.take_left' (length_fixed ..)
  have hdrop : (fixed 16 4 n ++ rest).drop 4 = rest := List.drop_left' (length_fixed ..)
  rw [scanEscape, if_neg (by simp)]
  simp only [check, if_pos hlength, htake, hdrop, decodeHex_fixed h, ofOption, Option.elim_some]
  exact dif_neg hhigh

theorem scanEscape_pair {n m : ℕ} (hhigh : IsHigh n) (hlow : IsLow m) (rest : Str) :
    scanEscape (ch 'u' :: (fixed 16 4 n ++ (unicodeEscape m ++ rest))) =
      .ok (join n m hhigh hlow, rest) := by
  have hn : n < 0x10000 := by unfold IsHigh at hhigh; omega
  have hm : m < 0x10000 := by unfold IsLow at hlow; omega
  have hlength : 4 ≤ (fixed 16 4 n ++ (unicodeEscape m ++ rest)).length := by
    rw [List.length_append, length_fixed]
    omega
  have htake : (fixed 16 4 n ++ (unicodeEscape m ++ rest)).take 4 = fixed 16 4 n :=
    List.take_left' (length_fixed ..)
  have hdrop : (fixed 16 4 n ++ (unicodeEscape m ++ rest)).drop 4 = unicodeEscape m ++ rest :=
    List.drop_left' (length_fixed ..)
  have hlength2 : 6 ≤ (unicodeEscape m ++ rest).length := by
    simp only [unicodeEscape, List.cons_append, List.length_cons, List.length_append, length_fixed]
    omega
  have htake2 : (unicodeEscape m ++ rest).take 2 = [backslash, ch 'u'] := rfl
  have hdigits2 : ((unicodeEscape m ++ rest).drop 2).take 4 = fixed 16 4 m :=
    List.take_left' (length_fixed ..)
  have hdrop2 : (unicodeEscape m ++ rest).drop 6 = rest := List.drop_left' (by simp [unicodeEscape])
  rw [scanEscape, if_neg (by simp)]
  simp only [check, if_pos hlength, htake, hdrop, decodeHex_fixed hn, ofOption, Option.elim_some,
    htake2, if_true, if_pos hlength2, hdigits2, decodeHex_fixed hm, hdrop2]
  exact (dif_pos hhigh).trans (dif_pos hlow)

theorem scanChars_backslash {c : CodePoint} {s rest : Str} (n : ℕ)
    (h : scanEscape s = .ok (c, rest)) :
    scanChars (n + 1) (backslash :: s) = (scanChars n rest).map fun r => (c :: r.1, r.2) := by
  have hquote : backslash ≠ quote := by decide
  rw [scanChars, if_neg hquote, if_pos rfl, h]
  cases hrest : scanChars n rest <;> simp only [Except.map, bind, Except.bind, hrest, pure, Except.pure]

/-- **An escaped code point** reads back, when it is a Unicode scalar value. -/
theorem scanChars_escape {c : CodePoint} (hhigh : ¬ IsHigh c) (hlow : ¬ IsLow c) (n : ℕ) (rest : Str) :
    scanChars (n + 1) (escape c ++ rest) = (scanChars n rest).map fun r => (c :: r.1, r.2) := by
  unfold escape
  split
  · rename_i letter hlookup
    obtain ⟨hletter, hback⟩ := escapeDct_lookup hlookup
    exact scanChars_backslash n (scanEscape_letter hletter hback rest)
  · rename_i hnone
    split_ifs with hprintable hsmall
    · have hquote : c ≠ quote := by
        rintro rfl
        revert hnone
        decide
      have hbackslash : c ≠ backslash := by
        rintro rfl
        revert hnone
        decide
      have hcontrol : ¬ c < 0x20 := Fin.not_lt.mpr hprintable.1
      rw [List.singleton_append, scanChars, if_neg hquote, if_neg hbackslash, if_neg hcontrol]
      cases hrest : scanChars n rest <;>
        simp only [Except.map, bind, Except.bind, hrest, pure, Except.pure]
    · exact scanChars_backslash n (scanEscape_hex hsmall hhigh rest)
    · -- the two halves of the pair
      have hc := c.isLt
      have hhigh' : IsHigh (0xd800 + (c.val - 0x10000) / 0x400) := by unfold IsHigh; omega
      have hlow' : IsLow (0xdc00 + (c.val - 0x10000) % 0x400) := by unfold IsLow; omega
      have hpair := scanEscape_pair hhigh' hlow' rest
      rw [join_halves (not_lt.mp hsmall)] at hpair
      rw [List.append_assoc]
      exact scanChars_backslash n hpair

theorem length_le_flatMap_escape (s : Str) : s.length ≤ (s.flatMap escape).length := by
  induction s with
  | nil => exact le_rfl
  | cons c s ih =>
    have hescape : 1 ≤ (escape c).length := by
      unfold escape
      split
      · simp
      · split_ifs <;> simp [unicodeEscape]
    rw [List.flatMap_cons, List.length_append, List.length_cons]
    omega

/-- **A string** of Unicode scalar values reads back. -/
theorem scanChars_encode {s : Str} (h : NoSurrogates s) {n : ℕ} (hn : s.length < n) (rest : Str) :
    scanChars n (s.flatMap escape ++ quote :: rest) = .ok (s, rest) := by
  induction s generalizing n with
  | nil =>
    obtain ⟨n, rfl⟩ := Nat.exists_eq_add_of_lt hn
    rw [List.flatMap_nil, List.nil_append, scanChars, if_pos rfl]
  | cons c s ih =>
    obtain ⟨n, rfl⟩ : ∃ m, n = m + 1 := ⟨n - 1, by omega⟩
    obtain ⟨hhigh, hlow⟩ := h c List.mem_cons_self
    have hrest := ih (fun c' hc' => h c' (List.mem_cons_of_mem _ hc')) (n := n)
      (by rw [List.length_cons] at hn; omega)
    rw [List.flatMap_cons, List.append_assoc, scanChars_escape hhigh hlow, hrest]
    rfl

/-! ### The scalars -/

/-- The scalars whose text says all of them: no float, and a string of Unicode scalar values. -/
def Scalar.Exact : Scalar → Prop
  | .float _ => False
  | .str s => NoSurrogates s
  | _ => True

instance : DecidablePred Scalar.Exact
  | .null | .bool _ | .int _ => .isTrue trivial
  | .float _ => .isFalse id
  | .str s => inferInstanceAs (Decidable (NoSurrogates s))

/-- What stands after an item of a list. -/
def Ends (rest : Str) : Prop := rest.head? = some (ch ',') ∨ rest.head? = some (ch ']')

theorem exists_digit {c : CodePoint} (h : IsDigit c) : ∃ d < 10, c = digit d := by
  have hlow : 48 ≤ c.val := h.1
  have hhigh : c.val ≤ 57 := h.2
  have hall : ∀ d < 10, (digit d).val = 48 + d := by decide
  exact ⟨c - 48, by omega, Fin.ext (by rw [hall _ (by omega)]; omega)⟩

theorem words_digit {c : CodePoint} (h : IsDigit c) (rest : Str) :
    words.find? (·.1.isPrefixOf (c :: rest)) = none := by
  obtain ⟨d, hd, rfl⟩ := exists_digit h
  interval_cases d <;> rfl

theorem words_minus {c : CodePoint} (h : IsDigit c) (rest : Str) :
    words.find? (·.1.isPrefixOf (ch '-' :: c :: rest)) = none := by
  obtain ⟨d, hd, rfl⟩ := exists_digit h
  interval_cases d <;> rfl

theorem spanDigits_append {digits rest : Str} (hdigits : ∀ c ∈ digits, IsDigit c) (hrest : Ends rest) :
    spanDigits (digits ++ rest) = (digits, rest) := by
  have hstop : rest.takeWhile (IsDigit ·) = [] ∧ rest.dropWhile (IsDigit ·) = rest := by
    cases rest with
    | nil => exact ⟨rfl, rfl⟩
    | cons c rest =>
      have hc : ¬ IsDigit c := by
        rcases hrest with h | h <;> cases h <;> decide
      simp [hc]
  have hall : ∀ c ∈ digits, (decide (IsDigit c)) = true := fun c hc => decide_eq_true (hdigits c hc)
  rw [spanDigits, List.takeWhile_append_of_pos hall, List.dropWhile_append_of_pos hall, hstop.1,
    hstop.2, List.append_nil]

theorem matchDigits_decimal (n : ℕ) {rest : Str} (hrest : Ends rest) :
    matchDigits (decimal n ++ rest) = some (decimal n, rest) := by
  rcases Nat.eq_zero_or_pos n with rfl | hpos
  · rfl
  · obtain ⟨c, digits, hdigits, hc⟩ := decimal_cons hpos
    have hzero : c ≠ ch '0' := by
      rintro rfl
      revert hc
      decide
    have hall : ∀ c ∈ digits, IsDigit c := fun c' hc' =>
      isDigit_of_mem_decimal (hdigits ▸ List.mem_cons_of_mem c hc')
    rw [hdigits, List.cons_append, matchDigits, if_neg hzero, if_pos hc, spanDigits_append hall hrest]

/-- Neither a fraction nor an exponent stands before the end of an item. -/
theorem match_ends {rest : Str} (h : Ends rest) :
    matchFraction rest = ([], rest) ∧ matchExponent rest = ([], rest) := by
  cases rest with
  | nil => exact ⟨rfl, rfl⟩
  | cons c rest => rcases h with h | h <;> cases h <;> exact ⟨rfl, rfl⟩

theorem exists_decimal (n : ℕ) : ∃ c digits, decimal n = c :: digits ∧ IsDigit c := by
  cases hdigits : decimal n with
  | nil => exact absurd (List.map_eq_nil_iff.mp hdigits) Nat.toDigits_ne_nil
  | cons c digits => exact ⟨c, digits, rfl, isDigit_of_mem_decimal (hdigits ▸ List.mem_cons_self)⟩

theorem not_minus {c : CodePoint} (h : IsDigit c) : c ≠ ch '-' := by
  rintro rfl
  revert h
  decide

theorem matchNumber_intRepr (n : ℤ) {rest : Str} (hrest : Ends rest) :
    matchNumber (intRepr n ++ rest) = some (intRepr n, [], rest) := by
  have hsign : matchSign (intRepr n ++ rest) =
      (if n < 0 then [ch '-'] else [], decimal n.natAbs ++ rest) := by
    unfold intRepr
    split_ifs with hneg
    · rfl
    · obtain ⟨c, digits, hdigits, hc⟩ := exists_decimal n.natAbs
      rw [hdigits, List.nil_append, List.cons_append, matchSign, if_neg (not_minus hc)]
  simp only [matchNumber, hsign, matchDigits_decimal _ hrest, match_ends hrest, Option.bind_eq_bind,
    Option.bind_some]
  rfl

theorem parseInt_intRepr {n : ℤ} (h : (decimal n.natAbs).length ≤ maxStrDigits) :
    parseInt (intRepr n) = .ok n := by
  have hdigits : (intRepr n).filter (· ≠ ch '-') = decimal n.natAbs := by
    have hall : (decimal n.natAbs).filter (· ≠ ch '-') = decimal n.natAbs :=
      List.filter_eq_self.mpr fun c hc => decide_eq_true (not_minus (isDigit_of_mem_decimal hc))
    unfold intRepr
    rw [List.filter_append, hall]
    split_ifs <;> rfl
  have hhead : (intRepr n).head? = some (ch '-') ↔ n < 0 := by
    obtain ⟨c, digits, hdigits, hc⟩ := exists_decimal n.natAbs
    unfold intRepr
    split_ifs with hneg
    · exact iff_of_true rfl hneg
    · rw [hdigits, List.nil_append, List.head?_cons, Option.some_inj]
      exact iff_of_false (not_minus hc) hneg
  simp only [parseInt, hdigits, check, if_pos h, number_decimal, hhead]
  refine congrArg Except.ok ?_
  split_ifs with hneg <;> omega

theorem scanLiteral_intRepr {n : ℤ} (h : (decimal n.natAbs).length ≤ maxStrDigits) {rest : Str}
    (hrest : Ends rest) : scanLiteral (intRepr n ++ rest) = .ok (.int n, rest) := by
  have hwords : words.find? (·.1.isPrefixOf (intRepr n ++ rest)) = none := by
    obtain ⟨c, digits, hdigits, hc⟩ := exists_decimal n.natAbs
    unfold intRepr
    rw [hdigits]
    split_ifs
    · exact words_minus hc _
    · exact words_digit hc _
  simp only [scanLiteral, hwords, matchNumber_intRepr n hrest, ofOption, Option.elim_some]
  show (do return (Scalar.int (← parseInt (intRepr n)), rest) : Except Error (Scalar × Str)) = _
  rw [parseInt_intRepr h]
  rfl

/-- An integer starts like no string, list or object. -/
theorem intRepr_head (n : ℤ) : ∃ c rest, intRepr n = c :: rest ∧ c ≠ quote ∧ c ≠ ch '[' ∧ c ≠ 0x7b := by
  obtain ⟨c, digits, hdigits, hc⟩ := exists_decimal n.natAbs
  unfold intRepr
  rw [hdigits]
  split_ifs
  · exact ⟨_, _, rfl, by decide⟩
  · obtain ⟨d, hd, rfl⟩ := exists_digit hc
    refine ⟨_, _, rfl, ?_⟩
    have hall : ∀ d < 10, digit d ≠ quote ∧ digit d ≠ ch '[' ∧ digit d ≠ 0x7b := by decide
    exact hall d hd

/-- **A scalar** reads back. -/
theorem scanOnce_dumpScalar {value : Scalar} {s : Str} (hexact : value.Exact)
    (hdump : dumpScalar value = .ok s) (depth : ℕ) (rest : Str) (hrest : Ends rest) :
    scanOnce depth (s ++ rest) = .ok (.scalar value, rest) := by
  cases value with
  | null =>
    cases hdump
    exact scanOnce_literal (by decide) (by decide) (by decide) _ _
  | bool b =>
    cases b <;> cases hdump <;> exact scanOnce_literal (by decide) (by decide) (by decide) _ _
  | int n =>
    obtain ⟨_, hcheck, hreturn⟩ := except_bind_ok.mp hdump
    cases hreturn
    have hliteral := scanLiteral_intRepr (check_ok.mp hcheck) hrest
    obtain ⟨c, digits, hrepr, hquote, hbracket, hbrace⟩ := intRepr_head n
    rw [hrepr] at hliteral ⊢
    rw [List.cons_append] at hliteral ⊢
    rw [scanOnce_literal hquote hbracket hbrace, hliteral]
    rfl
  | float literal => cases hexact
  | str s =>
    cases hdump
    have hlength : s.length < (s.flatMap escape ++ quote :: rest).length := by
      have hescape := length_le_flatMap_escape s
      rw [List.length_append, List.length_cons]
      omega
    rw [encodeString, List.cons_append, List.append_assoc, List.singleton_append, scanOnce_string,
      scanString, scanChars_encode hexact hlength]
    rfl

/-! ### The lists -/

theorem dumpScalar_head {value : Scalar} {s : Str} (hexact : value.Exact)
    (hdump : dumpScalar value = .ok s) : ∃ c rest, s = c :: rest ∧ ¬ IsSpace c ∧ c ≠ ch ']' := by
  cases value with
  | null =>
    cases hdump
    exact ⟨_, _, rfl, by decide⟩
  | bool b => cases b <;> cases hdump <;> exact ⟨_, _, rfl, by decide⟩
  | int n =>
    obtain ⟨_, -, hreturn⟩ := except_bind_ok.mp hdump
    cases hreturn
    obtain ⟨c, digits, hdigits, hc⟩ := exists_decimal n.natAbs
    unfold intRepr
    rw [hdigits]
    split_ifs
    · exact ⟨_, _, rfl, by decide⟩
    · obtain ⟨d, hd, rfl⟩ := exists_digit hc
      have hall : ∀ d < 10, ¬ IsSpace (digit d) ∧ digit d ≠ ch ']' := by decide
      exact ⟨_, _, rfl, hall d hd⟩
  | float literal => cases hexact
  | str s =>
    cases hdump
    exact ⟨_, _, rfl, by decide⟩

theorem skipSpace_cons {c : CodePoint} (h : ¬ IsSpace c) (rest : Str) :
    skipSpace (c :: rest) = c :: rest := by
  rw [skipSpace, List.dropWhile_cons_of_neg (by simpa using h)]

theorem length_escape_le (c : CodePoint) : (escape c).length ≤ 12 := by
  unfold escape
  split
  · simp
  · split_ifs <;> simp [unicodeEscape]

theorem length_encodeString_le (s : Str) : (encodeString s).length ≤ 12 * s.length + 2 := by
  have hflat : (s.flatMap escape).length ≤ 12 * s.length := by
    induction s with
    | nil => exact le_rfl
    | cons c s ih =>
      have hescape := length_escape_le c
      rw [List.flatMap_cons, List.length_append, List.length_cons]
      omega
  simp only [encodeString, List.length_cons, List.length_append, List.length_nil]
  omega

theorem intercalate_singleton (s : Str) : List.intercalate [ch ','] [s] = s := by
  simp [List.intercalate]

theorem intercalate_cons_cons (s s' : Str) (items : List Str) :
    List.intercalate [ch ','] (s :: s' :: items) =
      s ++ ch ',' :: List.intercalate [ch ','] (s' :: items) := by
  simp [List.intercalate]

/-- **The items of a list** read back. -/
theorem scanItems_dump (depth : ℕ) (rest : Str) {values : List Scalar} {items : List Str}
    (hdump : List.Forall₂ (fun value s => dumpScalar value = .ok s) values items)
    (hexact : ∀ value ∈ values, value.Exact) (hne : values ≠ []) {n : ℕ} (hn : values.length ≤ n) :
    scanItems (scanOnce depth) n (List.intercalate [ch ','] items ++ ch ']' :: rest) =
      .ok (values.map .scalar, rest) := by
  induction hdump generalizing n with
  | nil => exact absurd rfl hne
  | @cons value s values items hvalue hrest ih =>
    obtain ⟨n, rfl⟩ : ∃ m, n = m + 1 := ⟨n - 1, by rw [List.length_cons] at hn; omega⟩
    have hhead := hexact value List.mem_cons_self
    cases hrest with
    | nil =>
      have hscan := scanOnce_dumpScalar hhead hvalue depth (ch ']' :: rest) (Or.inr rfl)
      rw [intercalate_singleton, scanItems, hscan]
      rfl
    | @cons value' s' values items hvalue' hrest =>
      have hsplit : List.intercalate [ch ','] (s :: s' :: items) ++ ch ']' :: rest =
          s ++ ch ',' :: (List.intercalate [ch ','] (s' :: items) ++ ch ']' :: rest) := by
        rw [intercalate_cons_cons, List.append_assoc, List.cons_append]
      have hscan := scanOnce_dumpScalar hhead hvalue depth
        (ch ',' :: (List.intercalate [ch ','] (s' :: items) ++ ch ']' :: rest)) (Or.inl rfl)
      have htail := ih (fun v hv => hexact v (List.mem_cons_of_mem _ hv)) (by simp) (n := n)
        (by simp only [List.length_cons] at hn ⊢; omega)
      have hskip : skipSpace (List.intercalate [ch ','] (s' :: items) ++ ch ']' :: rest) =
          List.intercalate [ch ','] (s' :: items) ++ ch ']' :: rest := by
        obtain ⟨c, more, rfl, hspace, -⟩ :=
          dumpScalar_head (hexact value' (by simp)) hvalue'
        cases items <;> exact skipSpace_cons hspace _
      rw [hsplit, scanItems, hscan]
      show (scanItems (scanOnce depth) n (skipSpace (List.intercalate [ch ','] (s' :: items) ++
        ch ']' :: rest)) >>= fun read => .ok (Value.scalar value :: read.1, read.2)) = _
      rw [hskip, htail]
      rfl

theorem length_le_intercalate {values : List Scalar} {items : List Str}
    (hdump : List.Forall₂ (fun value s => dumpScalar value = .ok s) values items)
    (hexact : ∀ value ∈ values, value.Exact) :
    values.length ≤ (List.intercalate [ch ','] items).length := by
  induction hdump with
  | nil => exact le_rfl
  | @cons value s values items hvalue hrest ih =>
    obtain ⟨c, more, rfl, -⟩ := dumpScalar_head (hexact value List.mem_cons_self) hvalue
    have htail := ih fun v hv => hexact v (List.mem_cons_of_mem _ hv)
    cases hrest with
    | nil =>
      rw [intercalate_singleton]
      simp
    | cons hvalue' hrest =>
      rw [intercalate_cons_cons]
      simp only [List.length_append, List.length_cons] at htail ⊢
      omega

theorem scanOnce_list (depth : ℕ) {values : List Scalar} {items : List Str}
    (hdump : List.Forall₂ (fun value s => dumpScalar value = .ok s) values items)
    (hexact : ∀ value ∈ values, value.Exact) :
    scanOnce (depth + 1) (ch '[' :: (List.intercalate [ch ','] items ++ [ch ']'])) =
      .ok (.array (values.map .scalar), []) := by
  have hquote : ch '[' ≠ quote := by decide
  rw [scanOnce, if_neg hquote, if_pos rfl]
  cases hdump with
  | nil => rfl
  | @cons value s values items hvalue hrest =>
    have hlength := length_le_intercalate (.cons hvalue hrest) hexact
    have hitems := scanItems_dump depth [] (.cons hvalue hrest) hexact (by simp)
      (n := (List.intercalate [ch ','] (s :: items) ++ [ch ']']).length)
      (by rw [List.length_append]; omega)
    obtain ⟨c, more, rfl, hspace, hbracket⟩ := dumpScalar_head (hexact value (by simp)) hvalue
    obtain ⟨tail, htail⟩ : ∃ tail, List.intercalate [ch ','] ((c :: more) :: items) ++ [ch ']'] =
        c :: tail := by
      cases items <;> exact ⟨_, rfl⟩
    rw [htail] at hitems ⊢
    rw [scanArray, skipSpace_cons hspace]
    dsimp only
    rw [if_neg hbracket, hitems]
    rfl

/-! ### The bytes -/

theorem ascii_unicodeEscape (n : ℕ) : Ascii (unicodeEscape n) :=
  ascii_append (s := [backslash, ch 'u']) (by decide) (ascii_fixed (by norm_num) le_rfl 4 n)

theorem ascii_escape (c : CodePoint) : Ascii (escape c) := by
  unfold escape
  split
  · rename_i letter hlookup
    have hall : escapeDct.all fun p => Ascii [backslash, p.2] := by decide
    exact of_decide_eq_true (List.all_eq_true.mp hall (c, letter) (mem_of_lookup hlookup))
  · split_ifs with hprintable
    · intro c' hc'
      obtain rfl := List.mem_singleton.mp hc'
      have hlow : 32 ≤ c'.val := hprintable.1
      have hhigh : c'.val ≤ 126 := hprintable.2
      omega
    · exact ascii_unicodeEscape _
    · exact ascii_append (ascii_unicodeEscape _) (ascii_unicodeEscape _)

theorem ascii_intRepr (n : ℤ) : Ascii (intRepr n) := by
  have hdigits : Ascii (decimal n.natAbs) := fun c hc => by
    obtain ⟨d, hd, rfl⟩ := exists_digit (isDigit_of_mem_decimal hc)
    have hall : ∀ d < 10, 0 < (digit d).val ∧ (digit d).val < 128 := by decide
    exact hall d hd
  refine ascii_append ?_ hdigits
  split_ifs <;> decide

theorem ascii_dumpScalar {value : Scalar} {s : Str} (hexact : value.Exact)
    (hdump : dumpScalar value = .ok s) : Ascii s := by
  cases value with
  | null =>
    cases hdump
    decide
  | bool b => cases b <;> cases hdump <;> decide
  | int n =>
    obtain ⟨_, -, hreturn⟩ := except_bind_ok.mp hdump
    cases hreturn
    exact ascii_intRepr n
  | float literal => cases hexact
  | str s =>
    cases hdump
    have hquote : Ascii [quote] := by decide
    refine ascii_append (s := [quote]) hquote (ascii_append (fun c hc => ?_) hquote)
    obtain ⟨c', -, hc'⟩ := List.mem_flatMap.mp hc
    exact ascii_escape c' c hc'

theorem length_intercalate_le {m : ℕ} : ∀ items : List Str, (∀ s ∈ items, s.length ≤ m) →
    (List.intercalate [ch ','] items).length ≤ items.length * (m + 1)
  | [], _ => by simp [List.intercalate]
  | [s], h => by
    have hs := h s (by simp)
    rw [intercalate_singleton, List.length_singleton]
    omega
  | s :: s' :: items, h => by
    have hs := h s (by simp)
    have htail := length_intercalate_le (s' :: items) fun t ht => h t (List.mem_cons_of_mem _ ht)
    rw [intercalate_cons_cons, List.length_append, List.length_cons, List.length_cons, add_mul]
    omega

theorem ascii_intercalate : ∀ items : List Str, (∀ s ∈ items, Ascii s) →
    Ascii (List.intercalate [ch ','] items)
  | [], _ => by decide
  | [s], h => by
    rw [intercalate_singleton]
    exact h s (by simp)
  | s :: s' :: items, h => by
    have htail := ascii_intercalate (s' :: items) fun t ht => h t (List.mem_cons_of_mem _ ht)
    have hcomma : Ascii [ch ','] := by decide
    rw [intercalate_cons_cons]
    exact ascii_append (h s (by simp)) (ascii_append (s := [ch ',']) hcomma htail)

theorem ascii_dumps {values : List Scalar} {s : Str} (hexact : ∀ value ∈ values, value.Exact)
    (hdumps : dumps values = .ok s) : Ascii s := by
  obtain ⟨items, hitems, hreturn⟩ := except_bind_ok.mp hdumps
  cases hreturn
  have hbracket : Ascii [ch '['] ∧ Ascii [ch ']'] := by decide
  refine ascii_append (s := [ch '[']) hbracket.1 (ascii_append (ascii_intercalate _ ?_) hbracket.2)
  intro item hitem
  obtain ⟨value, hvalue, hdump⟩ := mem_of_mapM_ok hitems hitem
  exact ascii_dumpScalar (hexact value hvalue) hdump

theorem decodeBytes_ascii {bytes : List Byte} (h : ∀ b ∈ bytes, 0 < b.val ∧ b.val < 128) :
    decodeBytes bytes = some (asciiDecode bytes) := by
  have hutf8 := utf8_ascii fun b hb => (h b hb).2
  have hmark : ∀ n (b : Byte) rest, ¬ (0 < b.val ∧ b.val < 128) → bytes.take n ≠ b :: rest :=
    fun n b rest hnot heq => hnot (h b (List.mem_of_mem_take (heq ▸ List.mem_cons_self)))
  unfold decodeBytes
  rw [if_neg (hmark 4 _ _ (by decide)), if_neg (hmark 4 _ _ (by decide)),
    if_neg (hmark 2 _ _ (by decide)), if_neg (hmark 2 _ _ (by decide)),
    if_neg (hmark 3 _ _ (by decide))]
  have hzero : ∀ b ∈ bytes, b ≠ 0 := fun b hb heq => by
    have hpos := (h b hb).1
    rw [heq] at hpos
    exact absurd hpos (by decide)
  split
  · rename_i a b c d rest
    rw [if_neg (hzero a (by simp)), if_neg (hzero b (by simp)), hutf8]
  · rename_i a b
    rw [if_neg (hzero a (by simp)), if_neg (hzero b (by simp)), hutf8]
  · exact hutf8

/-- **A list of scalars** reads back. -/
theorem loads_dumps (depth : ℕ) {values : List Scalar} {s : Str} {bytes : List Byte}
    (hexact : ∀ value ∈ values, value.Exact) (hdumps : dumps values = .ok s)
    (hbytes : utf8Encode s = some bytes) :
    loads (depth + 1) bytes = .ok (.array (values.map .scalar)) := by
  have hascii := ascii_dumps hexact hdumps
  obtain ⟨bytes', hbytes', hdecode, -⟩ := utf8Encode_ascii fun c hc => (hascii c hc).2
  obtain rfl := Option.some_inj.mp (hbytes.symm.trans hbytes')
  have hnonzero : ∀ b ∈ bytes, 0 < b.val ∧ b.val < 128 := fun b hb => by
    have hc : Fin.castLE (by norm_num) b ∈ s := hdecode ▸ List.mem_map_of_mem hb
    exact hascii _ hc
  have htext : decodeBytes bytes = some s := by rw [decodeBytes_ascii hnonzero, hdecode]
  obtain ⟨items, hitems, hreturn⟩ := except_bind_ok.mp hdumps
  cases hreturn
  have hskip := skipSpace_cons (c := ch '[') (by decide) (List.intercalate [ch ','] items ++ [ch ']'])
  have hscan := scanOnce_list depth (mapM_ok_iff.mp hitems) hexact
  unfold loads
  refine except_bind_ok.mpr ⟨_, ofOption_ok.mpr htext, except_bind_ok.mpr
    ⟨(.array (values.map .scalar), []), ?_, rfl⟩⟩
  rw [hskip]
  exact hscan

end Trueup.Lib.Json
