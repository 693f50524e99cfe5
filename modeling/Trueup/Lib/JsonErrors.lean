import Trueup.Lib.Json

/-! # What reading JSON raises

`loads` raises a `JSONDecodeError` for a malformed text. Beside it there are the errors of an encoding
that does not fit, of containers that are nested too deep, and of an integer with too many digits.

* `scanOnce_error`: there are no others.
* `TooDeep.scanOnce_error`: which texts are nested too deep for the levels of recursion.
* `loads_error`: what a short text raises. -/

namespace Trueup.Lib.Json

open Trueup.Lib.Text Trueup.Lib.Unicode Trueup.Lib.Transaction

/-! ### What is left -/

theorem length_skipSpace_le (s : Str) : (skipSpace s).length ≤ s.length :=
  (List.dropWhile_sublist _).length_le

theorem length_spanDigits (s : Str) : (spanDigits s).1.length + (spanDigits s).2.length = s.length := by
  unfold spanDigits
  rw [← List.length_append, List.takeWhile_append_dropWhile]

theorem length_drop_le (k : ℕ) (s : Str) : (s.drop k).length ≤ s.length := by
  rw [List.length_drop]
  exact Nat.sub_le _ _

theorem length_scanEscape {s rest : Str} {c : CodePoint} (h : scanEscape s = .ok (c, rest)) :
    rest.length ≤ s.length := by
  cases s with
  | nil => cases h
  | cons letter s =>
    have hfour := length_drop_le 4 s
    have hsix := length_drop_le 6 (s.drop 4)
    have hcons : s.length ≤ (letter :: s).length := Nat.le_succ _
    rw [scanEscape] at h
    by_cases hletter : letter ≠ ch 'u'
    · rw [if_pos hletter] at h
      cases hlookup : backslashDct.lookup letter with
      | none =>
        rw [hlookup] at h
        cases h
      | some c' =>
        rw [hlookup] at h
        cases h
        exact hcons
    · rw [if_neg hletter] at h
      obtain ⟨-, -, h⟩ := except_bind_ok.mp h
      obtain ⟨uni, -, h⟩ := except_bind_ok.mp h
      by_cases hhigh : IsHigh uni
      · rw [dif_pos hhigh] at h
        by_cases hnext : (s.drop 4).take 2 = [backslash, ch 'u']
        · rw [if_pos hnext] at h
          obtain ⟨-, -, h⟩ := except_bind_ok.mp h
          obtain ⟨uni2, -, h⟩ := except_bind_ok.mp h
          by_cases hlow : IsLow uni2
          · rw [dif_pos hlow] at h
            obtain ⟨-, rfl⟩ := Prod.mk.inj (Except.ok.inj h)
            exact (hsix.trans hfour).trans hcons
          · rw [dif_neg hlow] at h
            obtain ⟨-, rfl⟩ := Prod.mk.inj (Except.ok.inj h)
            exact hfour.trans hcons
        · rw [if_neg hnext] at h
          obtain ⟨-, rfl⟩ := Prod.mk.inj (Except.ok.inj h)
          exact hfour.trans hcons
      · rw [dif_neg hhigh] at h
        obtain ⟨-, rfl⟩ := Prod.mk.inj (Except.ok.inj h)
        exact hfour.trans hcons

/-- A code point of a string, or an escape. -/
def scanChar (c : CodePoint) (rest : Str) : Except Error (CodePoint × Str) :=
  if c = backslash then scanEscape rest
  else if c < 0x20 then .error .jsonDecodeError
  else .ok (c, rest)

theorem scanChars_cons {c : CodePoint} (hquote : c ≠ quote) (n : ℕ) (rest : Str) :
    scanChars (n + 1) (c :: rest) = scanChar c rest >>= fun r =>
      (scanChars n r.2).map fun q => (r.1 :: q.1, q.2) := by
  rw [scanChars, if_neg hquote, scanChar]
  have hrest : ∀ c' rest', (scanChars n rest' >>= fun q => pure (c' :: q.1, q.2)) =
      (scanChars n rest').map fun q => (c' :: q.1, q.2) := by
    intro c' rest'
    cases scanChars n rest' <;> rfl
  split_ifs
  · rcases scanEscape rest with e | ⟨c', rest'⟩
    · rfl
    · exact hrest c' rest'
  · rfl
  · exact hrest c rest

theorem length_scanChar {c c' : CodePoint} {s rest : Str} (h : scanChar c s = .ok (c', rest)) :
    rest.length ≤ s.length := by
  unfold scanChar at h
  split_ifs at h
  · exact length_scanEscape h
  · cases h
    exact le_rfl

theorem length_scanChars {n : ℕ} {s t rest : Str} (h : scanChars n s = .ok (t, rest)) :
    rest.length < s.length := by
  induction n generalizing s t with
  | zero => cases h
  | succ n ih =>
    cases s with
    | nil => cases h
    | cons c s =>
      by_cases hquote : c = quote
      · rw [scanChars, if_pos hquote] at h
        cases h
        exact Nat.lt_succ_self _
      · rw [scanChars_cons hquote] at h
        obtain ⟨⟨c', s'⟩, hchar, h⟩ := except_bind_ok.mp h
        obtain ⟨⟨t', rest'⟩, hrest, h⟩ := except_map_ok.mp h
        cases h
        exact (ih hrest).trans_le ((length_scanChar hchar).trans (Nat.le_succ _))

theorem length_matchSign (s : Str) : (matchSign s).1.length + (matchSign s).2.length = s.length := by
  cases s with
  | nil => rfl
  | cons c s =>
    rw [matchSign]
    split_ifs
    · exact Nat.add_comm _ _
    · exact Nat.zero_add _

theorem length_matchDigits {s digits rest : Str} (h : matchDigits s = some (digits, rest)) :
    digits.length + rest.length = s.length := by
  cases s with
  | nil => cases h
  | cons c s =>
    have hspan := length_spanDigits s
    rw [matchDigits] at h
    split_ifs at h
    · cases h
      exact Nat.add_comm _ _
    · cases h
      rw [List.length_cons, List.length_cons]
      omega

theorem length_matchFraction (s : Str) :
    (matchFraction s).1.length + (matchFraction s).2.length = s.length := by
  cases s with
  | nil => rfl
  | cons c s =>
    have hspan := length_spanDigits s
    simp only [matchFraction]
    split_ifs
    · show (spanDigits s).1.length + 1 + (spanDigits s).2.length = s.length + 1
      omega
    · exact Nat.zero_add _

theorem length_matchExponent (s : Str) :
    (matchExponent s).1.length + (matchExponent s).2.length = s.length := by
  cases s with
  | nil => rfl
  | cons c s =>
    rw [matchExponent.eq_def]
    dsimp only
    by_cases hletter : c = ch 'e' ∨ c = ch 'E'
    · rw [if_pos hletter]
      cases s with
      | nil => rfl
      | cons d u =>
        have hspan := length_spanDigits u
        have hspan' := length_spanDigits (d :: u)
        by_cases hsign : d = ch '+' ∨ d = ch '-'
        · simp only [if_pos hsign]
          split_ifs
          · simp only [List.length_cons, List.length_append, List.length_nil]
            omega
          · exact Nat.zero_add _
        · simp only [if_neg hsign]
          split_ifs
          · simp only [List.length_cons, List.length_append, List.length_nil] at hspan' ⊢
            omega
          · exact Nat.zero_add _
    · rw [if_neg hletter]
      exact Nat.zero_add _

theorem length_matchNumber {s integer fraction rest : Str}
    (h : matchNumber s = some (integer, fraction, rest)) :
    integer.length + fraction.length + rest.length = s.length := by
  simp only [matchNumber, Option.bind_eq_bind, Option.bind_eq_some_iff] at h
  obtain ⟨⟨digits, s₁⟩, hdigits, h⟩ := h
  cases h
  have hsign := length_matchSign s
  have hlength := length_matchDigits hdigits
  have hfraction := length_matchFraction s₁
  have hexponent := length_matchExponent (matchFraction s₁).2
  simp only [List.length_append]
  omega

theorem length_scanLiteral {s rest : Str} {value : Scalar} (h : scanLiteral s = .ok (value, rest)) :
    rest.length ≤ s.length := by
  unfold scanLiteral at h
  split at h
  · cases h
    rw [List.length_drop]
    exact Nat.sub_le _ _
  · obtain ⟨⟨integer, fraction, rest'⟩, hmatch, h⟩ := except_bind_ok.mp h
    have hlength := length_matchNumber (ofOption_ok.mp hmatch)
    have hle : rest'.length ≤ s.length := by omega
    by_cases hfraction : fraction = []
    · simp only [if_pos hfraction] at h
      obtain ⟨n, -, h⟩ := except_bind_ok.mp h
      cases h
      exact hle
    · simp only [if_neg hfraction] at h
      cases h
      exact hle

/-! ### Arrays and objects alike -/

/-- The key of a member, and where its value begins. -/
def memberStart (s : Str) : Option (Str × Str) :=
  if s.head? = some quote then
    match scanString s.tail with
    | .ok (key, u) =>
      if (skipSpace u).head? = some (ch ':') then some (key, skipSpace (skipSpace u).tail) else none
    | .error _ => none
  else none

/-- The key of an item is none. -/
def itemStart (s : Str) : Option (Unit × Str) := some ((), s)

section Elements
variable {α : Type} (start : Str → Option (α × Str)) (close : CodePoint)
  (scan : Str → Except Error (Value × Str))

/-- The loop of `JSONArray` and of `JSONObject`. -/
def scanElements : ℕ → Str → Except Error (List (α × Value) × Str)
  | 0, _ => .error .jsonDecodeError
  | n + 1, s => do
    let (key, t) ← ofOption (start s) .jsonDecodeError
    let (value, s) ← scan t
    match skipSpace s with
    | [] => .error .jsonDecodeError
    | c :: rest =>
      if c = close then return ([(key, value)], rest)
      else if c = ch ',' then do
        let (elements, rest) ← scanElements n (skipSpace rest)
        return ((key, value) :: elements, rest)
      else .error .jsonDecodeError

/-- Where an element begins, after the elements before it. -/
inductive ElementAt : Str → Str → Prop
  | first {s t : Str} {key : α} (hstart : start s = some (key, t)) : ElementAt s t
  | next {s t u w t' : Str} {key : α} {value : Value} (hstart : start s = some (key, t))
    (hscan : scan t = .ok (value, u)) (hcomma : skipSpace u = ch ',' :: w)
    (hrest : ElementAt (skipSpace w) t') : ElementAt s t'

variable {start close scan}

theorem scanEscape_fails : ∀ s : Str, Fails (· = .jsonDecodeError) (scanEscape s)
  | [] => fails_error rfl
  | letter :: rest => by
    rw [scanEscape]
    by_cases hletter : letter ≠ ch 'u'
    · rw [if_pos hletter]
      exact fails_map (fails_ofOption rfl)
    · rw [if_neg hletter]
      refine fails_bind (fails_check rfl) fun _ => fails_bind (fails_ofOption rfl) fun uni => ?_
      by_cases hhigh : IsHigh uni
      · rw [dif_pos hhigh]
        by_cases hnext : (rest.drop 4).take 2 = [backslash, ch 'u']
        · rw [if_pos hnext]
          refine fails_bind (fails_check rfl) fun _ => fails_bind (fails_ofOption rfl) fun uni2 => ?_
          by_cases hlow : IsLow uni2
          · rw [dif_pos hlow]
            exact fails_ok _
          · rw [dif_neg hlow]
            exact fails_ok _
        · rw [if_neg hnext]
          exact fails_ok _
      · rw [dif_neg hhigh]
        exact fails_ok _

theorem scanChars_fails (n : ℕ) (s : Str) : Fails (· = .jsonDecodeError) (scanChars n s) := by
  induction n generalizing s with
  | zero => exact fails_error rfl
  | succ n ih =>
    cases s with
    | nil => exact fails_error rfl
    | cons c s =>
      by_cases hquote : c = quote
      · rw [scanChars, if_pos hquote]
        exact fails_ok _
      · rw [scanChars_cons hquote, scanChar]
        refine fails_bind ?_ fun r => fails_map (ih _)
        split_ifs
        · exact scanEscape_fails s
        · exact fails_error rfl
        · exact fails_ok _

theorem scanString_fails (s : Str) : Fails (· = .jsonDecodeError) (scanString s) := scanChars_fails _ s

theorem scanMembers_eq (n : ℕ) (s : Str) :
    scanMembers scan n s = scanElements memberStart 0x7d scan n s := by
  induction n generalizing s with
  | zero => rfl
  | succ n ih =>
    rw [scanMembers, scanElements, memberStart]
    by_cases hquote : s.head? = some quote
    · rw [if_pos hquote]
      cases hstring : scanString s.tail with
      | error e =>
        obtain rfl := scanString_fails _ e hstring
        simp [check, hquote, ofOption, bind, Except.bind]
      | ok r =>
        obtain ⟨key, u⟩ := r
        rw [check, if_pos hquote, show scanMembers scan n = _ from funext ih]
        show (check ((skipSpace u).head? = some (ch ':')) Error.jsonDecodeError >>= fun _ => _) = _
        dsimp only
        by_cases hcolon : (skipSpace u).head? = some (ch ':')
        · rw [check, if_pos hcolon, if_pos hcolon]
          rfl
        · rw [check, if_neg hcolon, if_neg hcolon]
          rfl
    · rw [if_neg hquote]
      simp [check, hquote, ofOption, bind, Except.bind]

theorem scanItems_eq (n : ℕ) (s : Str) : scanItems scan n s =
    (scanElements itemStart (ch ']') scan n s).map fun r => (r.1.map Prod.snd, r.2) := by
  induction n generalizing s with
  | zero => rfl
  | succ n ih =>
    rw [scanItems, scanElements, itemStart]
    show (scan s >>= _) = (scan s >>= _).map _
    rcases scan s with e | ⟨value, u⟩
    · rfl
    · simp only [bind, Except.bind]
      rcases skipSpace u with _ | ⟨c, rest⟩
      · rfl
      · dsimp only
        split_ifs
        · rfl
        · rw [ih]
          rcases scanElements itemStart (ch ']') scan n (skipSpace rest) with e | ⟨elements, rest'⟩ <;>
            rfl
        · rfl

/-- The elements of a container, after what opens it. -/
def scanContainer (start : Str → Option (α × Str)) (close : CodePoint)
    (scan : Str → Except Error (Value × Str)) (s : Str) : Except Error (List (α × Value) × Str) :=
  match skipSpace s with
  | [] => .error .jsonDecodeError
  | c :: rest =>
    if c = close then .ok ([], rest) else scanElements start close scan s.length (c :: rest)

theorem scanArray_eq (s : Str) : scanArray scan s =
    (scanContainer itemStart (ch ']') scan s).map fun r => (.array (r.1.map Prod.snd), r.2) := by
  rw [scanArray, scanContainer]
  rcases skipSpace s with _ | ⟨c, rest⟩
  · rfl
  · dsimp only
    split_ifs
    · rfl
    · rw [scanItems_eq]
      rcases scanElements itemStart (ch ']') scan s.length (c :: rest) with e | r <;> rfl

theorem scanObject_eq (s : Str) : scanObject scan s =
    (scanContainer memberStart 0x7d scan s).map fun r => (.object r.1, r.2) := by
  rw [scanObject, scanContainer]
  rcases skipSpace s with _ | ⟨c, rest⟩
  · rfl
  · dsimp only
    split_ifs
    · rfl
    · rw [scanMembers_eq]

/-- An error of the elements is that of one of them, or the text is malformed. -/
theorem scanElements_error {n : ℕ} {s : Str} {e : Error}
    (h : scanElements start close scan n s = .error e) :
    e = .jsonDecodeError ∨ ∃ t, ElementAt start scan s t ∧ scan t = .error e := by
  induction n generalizing s with
  | zero =>
    cases h
    exact Or.inl rfl
  | succ n ih =>
    rw [scanElements] at h
    cases hstart : start s with
    | none =>
      rw [hstart] at h
      cases h
      exact Or.inl rfl
    | some r =>
      obtain ⟨key, t⟩ := r
      rw [hstart] at h
      cases hscan : scan t with
      | error e' =>
        simp only [ofOption, Option.elim_some, bind, Except.bind, hscan] at h
        cases h
        exact Or.inr ⟨t, .first hstart, hscan⟩
      | ok r =>
        obtain ⟨value, u⟩ := r
        simp only [ofOption, Option.elim_some, bind, Except.bind, hscan] at h
        cases hspace : skipSpace u with
        | nil =>
          simp only [hspace] at h
          cases h
          exact Or.inl rfl
        | cons c rest =>
          simp only [hspace] at h
          split_ifs at h with hclose hcomma
          · cases h
          · subst hcomma
            cases hrest : scanElements start close scan n (skipSpace rest) with
            | ok r =>
              rw [hrest] at h
              cases h
            | error e' =>
              rw [hrest] at h
              cases h
              obtain rfl | ⟨t', hat, ht'⟩ := ih hrest
              · exact Or.inl rfl
              · exact Or.inr ⟨t', .next hstart hscan hspace hat, ht'⟩
          · cases h
            exact Or.inl rfl

section Lengths
variable (hstart : ∀ {s t : Str} {key : α}, start s = some (key, t) → t.length ≤ s.length)
  (hscan : ∀ {s u : Str} {value : Value}, scan s = .ok (value, u) → u.length ≤ s.length)
include hstart hscan

theorem length_scanElements {n : ℕ} {s rest : Str} {elements : List (α × Value)}
    (h : scanElements start close scan n s = .ok (elements, rest)) : rest.length ≤ s.length := by
  induction n generalizing s elements with
  | zero => cases h
  | succ n ih =>
    obtain ⟨⟨key, t⟩, hkey, h⟩ := except_bind_ok.mp h
    obtain ⟨⟨value, u⟩, hvalue, h⟩ := except_bind_ok.mp h
    have ht := hstart (ofOption_ok.mp hkey)
    have hu := hscan hvalue
    have hspace := length_skipSpace_le u
    cases hnext : skipSpace u with
    | nil =>
      simp only [hnext] at h
      cases h
    | cons c w =>
      simp only [hnext] at h
      rw [hnext, List.length_cons] at hspace
      split_ifs at h with hclose hcomma
      · cases h
        omega
      · obtain ⟨⟨elements', rest'⟩, hrest, h⟩ := except_bind_ok.mp h
        cases h
        have hle := ih hrest
        have hskip := length_skipSpace_le w
        omega

theorem length_scanContainer {s rest : Str} {elements : List (α × Value)}
    (h : scanContainer start close scan s = .ok (elements, rest)) : rest.length ≤ s.length := by
  have hspace := length_skipSpace_le s
  rw [scanContainer] at h
  cases hnext : skipSpace s with
  | nil =>
    simp only [hnext] at h
    cases h
  | cons c w =>
    simp only [hnext] at h
    rw [hnext] at hspace
    split_ifs at h with hclose
    · cases h
      rw [List.length_cons] at hspace
      omega
    · exact (length_scanElements hstart hscan h).trans hspace

theorem ElementAt.length_le {s t : Str} (h : ElementAt start scan s t) : t.length ≤ s.length := by
  induction h with
  | first hkey => exact hstart hkey
  | @next s t u w t' key value hkey hvalue hcomma _ ih =>
    have ht := hstart hkey
    have hu := hscan hvalue
    have hspace := length_skipSpace_le u
    have hskip := length_skipSpace_le w
    rw [hcomma, List.length_cons] at hspace
    omega

/-- **The error of an element** is that of the container, if nothing before it is malformed. -/
theorem ElementAt.scanElements_error {s t : Str} {e : Error} (hat : ElementAt start scan s t)
    (ht : scan t = .error e) (hne : t ≠ []) (hcomma : close ≠ ch ',') {n : ℕ} (hn : s.length ≤ n) :
    scanElements start close scan n s = .error e := by
  induction hat generalizing n with
  | @first s t key hkey =>
    have hle := hstart hkey
    have hpos := List.length_pos_of_ne_nil hne
    obtain ⟨n, rfl⟩ : ∃ m, n = m + 1 := ⟨n - 1, by omega⟩
    rw [scanElements, hkey]
    simp only [ofOption, Option.elim_some, bind, Except.bind, ht]
  | @next s t u w t' key value hkey hvalue hnext hrest ih =>
    have hle := hstart hkey
    have hu := hscan hvalue
    have hspace := length_skipSpace_le u
    have hskip := length_skipSpace_le w
    rw [hnext, List.length_cons] at hspace
    obtain ⟨n, rfl⟩ : ∃ m, n = m + 1 := ⟨n - 1, by omega⟩
    rw [scanElements, hkey]
    simp only [ofOption, Option.elim_some, bind, Except.bind, hvalue, hnext, if_neg hcomma.symm,
      if_true, ih ht hne (by omega : (skipSpace w).length ≤ n)]

theorem ElementAt.scanContainer_error {s t : Str} {e : Error} (hopen : (skipSpace s).head? ≠ some close)
    (hat : ElementAt start scan (skipSpace s) t) (ht : scan t = .error e) (hne : t ≠ [])
    (hcomma : close ≠ ch ',') : scanContainer start close scan s = .error e := by
  have hle := hat.length_le hstart hscan
  have hpos := List.length_pos_of_ne_nil hne
  have hspace := length_skipSpace_le s
  have helements := hat.scanElements_error hstart hscan ht hne hcomma hspace
  rw [scanContainer]
  cases hnext : skipSpace s with
  | nil =>
    rw [hnext, List.length_nil] at hle
    omega
  | cons c w =>
    rw [hnext] at hopen helements
    have hclose : c ≠ close := by simpa using hopen
    simp only [if_neg hclose]
    exact helements

end Lengths

theorem scanContainer_error {s : Str} {e : Error} (h : scanContainer start close scan s = .error e) :
    e = .jsonDecodeError ∨ (skipSpace s).head? ≠ some close ∧
      ∃ t, ElementAt start scan (skipSpace s) t ∧ scan t = .error e := by
  rw [scanContainer] at h
  cases hnext : skipSpace s with
  | nil =>
    simp only [hnext] at h
    cases h
    exact Or.inl rfl
  | cons c w =>
    simp only [hnext] at h
    split_ifs at h with hclose
    exact (scanElements_error h).imp_right fun ht => ⟨by simpa using hclose, ht⟩

end Elements

/-! ### How deep a text is nested -/

section Inside
variable (scan : Str → Except Error (Value × Str))

/-- In the container that the text starts with, an element begins after those before it. -/
inductive Inside : Str → Str → Prop
  | array {rest t : Str} (hopen : (skipSpace rest).head? ≠ some (ch ']'))
    (hat : ElementAt itemStart scan (skipSpace rest) t) : Inside (ch '[' :: rest) t
  | object {rest t : Str} (hopen : (skipSpace rest).head? ≠ some 0x7d)
    (hat : ElementAt memberStart scan (skipSpace rest) t) : Inside (0x7b :: rest) t

end Inside

/-- The text starts with a container within `depth` others, with nothing malformed before it. -/
def TooDeep : (depth : ℕ) → Str → Prop
  | 0, s => s.head? = some (ch '[') ∨ s.head? = some 0x7b
  | depth + 1, s => ∃ t, Inside (scanOnce depth) s t ∧ TooDeep depth t

theorem TooDeep.ne_nil {depth : ℕ} {s : Str} (h : TooDeep depth s) : s ≠ [] := by
  rintro rfl
  cases depth with
  | zero => rcases h with h | h <;> cases h
  | succ depth =>
    obtain ⟨t, hinside, -⟩ := h
    cases hinside

theorem length_itemStart {s t : Str} {key : Unit} (h : itemStart s = some (key, t)) :
    t.length ≤ s.length := by
  cases h
  exact le_rfl

theorem length_memberStart {s t key : Str} (h : memberStart s = some (key, t)) :
    t.length ≤ s.length := by
  unfold memberStart at h
  split_ifs at h
  cases hstring : scanString s.tail with
  | error e =>
    simp only [hstring] at h
    cases h
  | ok r =>
    obtain ⟨key', u⟩ := r
    simp only [hstring] at h
    split_ifs at h
    cases h
    have hu := length_scanChars hstring
    have hfirst := length_skipSpace_le u
    have hsecond := length_skipSpace_le (skipSpace u).tail
    rw [List.length_tail] at hu hsecond
    omega

theorem scanOnce_array (depth : ℕ) (rest : Str) : scanOnce (depth + 1) (ch '[' :: rest) =
    (scanContainer itemStart (ch ']') (scanOnce depth) rest).map
      fun r => (.array (r.1.map Prod.snd), r.2) := by
  rw [← scanArray_eq, scanOnce, if_neg (by decide), if_pos rfl]

theorem scanOnce_object (depth : ℕ) (rest : Str) : scanOnce (depth + 1) (0x7b :: rest) =
    (scanContainer memberStart 0x7d (scanOnce depth) rest).map fun r => (.object r.1, r.2) := by
  rw [← scanObject_eq, scanOnce, if_neg (by decide), if_neg (by decide), if_pos rfl]

theorem Inside.lt_length {depth : ℕ} {s t : Str} (h : Inside (scanOnce depth) s t)
    (hscan : ∀ {s u : Str} {value : Value}, scanOnce depth s = .ok (value, u) → u.length ≤ s.length) :
    t.length < s.length := by
  cases h with
  | @array rest t _ hat =>
    exact Nat.lt_succ_of_le ((hat.length_le length_itemStart hscan).trans (length_skipSpace_le rest))
  | @object rest t _ hat =>
    exact Nat.lt_succ_of_le ((hat.length_le length_memberStart hscan).trans (length_skipSpace_le rest))

theorem value_cases (s : Str) : s = [] ∨ (∃ rest, s = quote :: rest) ∨ (∃ rest, s = ch '[' :: rest) ∨
    (∃ rest, s = 0x7b :: rest) ∨ ∃ c rest, s = c :: rest ∧ c ≠ quote ∧ c ≠ ch '[' ∧ c ≠ 0x7b := by
  cases s with
  | nil => exact Or.inl rfl
  | cons c rest =>
    by_cases hquote : c = quote
    · exact Or.inr (Or.inl ⟨rest, by rw [hquote]⟩)
    · by_cases hbracket : c = ch '['
      · exact Or.inr (Or.inr (Or.inl ⟨rest, by rw [hbracket]⟩))
      · by_cases hbrace : c = 0x7b
        · exact Or.inr (Or.inr (Or.inr (Or.inl ⟨rest, by rw [hbrace]⟩)))
        · exact Or.inr (Or.inr (Or.inr (Or.inr ⟨c, rest, rfl, hquote, hbracket, hbrace⟩)))

theorem length_scanOnce {depth : ℕ} {s rest : Str} {value : Value}
    (h : scanOnce depth s = .ok (value, rest)) : rest.length ≤ s.length := by
  induction depth using Nat.strong_induction_on generalizing s value rest with
  | _ depth ih =>
    obtain rfl | ⟨u, rfl⟩ | ⟨u, rfl⟩ | ⟨u, rfl⟩ | ⟨c, u, rfl, hquote, hbracket, hbrace⟩ := value_cases s
    · rw [scanOnce] at h
      cases h
    · rw [scanOnce_string] at h
      obtain ⟨⟨t, rest'⟩, hstring, h⟩ := except_map_ok.mp h
      cases h
      exact (length_scanChars hstring).le.trans (Nat.le_succ _)
    · cases depth with
      | zero => cases h
      | succ depth =>
        rw [scanOnce_array] at h
        obtain ⟨⟨t, rest'⟩, hitems, h⟩ := except_map_ok.mp h
        cases h
        exact (length_scanContainer length_itemStart (ih depth (Nat.lt_succ_self _)) hitems).trans
          (Nat.le_succ _)
    · cases depth with
      | zero => cases h
      | succ depth =>
        rw [scanOnce_object] at h
        obtain ⟨⟨t, rest'⟩, hmembers, h⟩ := except_map_ok.mp h
        cases h
        exact (length_scanContainer length_memberStart (ih depth (Nat.lt_succ_self _)) hmembers).trans
          (Nat.le_succ _)
    · rw [scanOnce_literal hquote hbracket hbrace] at h
      obtain ⟨⟨t, rest'⟩, hliteral, h⟩ := except_map_ok.mp h
      cases h
      exact length_scanLiteral hliteral

/-! ### The errors -/

/-- What a text raises when it is not nested too deep. -/
def Plain (s : Str) (e : Error) : Prop :=
  e = .jsonDecodeError ∨ (e = .valueError ∧ maxStrDigits < s.length)

theorem Plain.mono {s t : Str} {e : Error} (h : Plain t e) (hle : t.length ≤ s.length) : Plain s e :=
  h.imp_right fun ⟨hvalue, hlong⟩ => ⟨hvalue, hlong.trans_le hle⟩

theorem parseInt_error {integer : Str} {e : Error} (h : parseInt integer = .error e) :
    e = .valueError ∧ maxStrDigits < integer.length := by
  have hfilter := List.length_filter_le (· ≠ ch '-') integer
  by_cases hshort : (integer.filter (· ≠ ch '-')).length ≤ maxStrDigits
  · simp only [parseInt, check, if_pos hshort] at h
    cases h
  · simp only [parseInt, check, if_neg hshort] at h
    cases h
    exact ⟨rfl, by omega⟩

theorem scanLiteral_fails (s : Str) : Fails (Plain s) (scanLiteral s) := by
  unfold scanLiteral
  split
  · exact fails_ok _
  · intro e h
    cases hmatch : matchNumber s with
    | none =>
      rw [hmatch] at h
      cases h
      exact Or.inl rfl
    | some r =>
      obtain ⟨integer, fraction, rest⟩ := r
      have hlength := length_matchNumber hmatch
      simp only [hmatch, ofOption, Option.elim_some, bind, Except.bind] at h
      split_ifs at h
      · cases hparse : parseInt integer with
        | ok n =>
          rw [hparse] at h
          cases h
        | error e' =>
          rw [hparse] at h
          cases h
          obtain ⟨rfl, hlong⟩ := parseInt_error hparse
          exact Or.inr ⟨rfl, by omega⟩
      · cases h

/-- **What a text raises.** -/
theorem scanOnce_error {depth : ℕ} {s : Str} {e : Error} (h : scanOnce depth s = .error e) :
    Plain s e ∨ (e = .recursionError ∧ TooDeep depth s) := by
  induction depth using Nat.strong_induction_on generalizing s with
  | _ depth ih =>
    obtain rfl | ⟨u, rfl⟩ | ⟨u, rfl⟩ | ⟨u, rfl⟩ | ⟨c, u, rfl, hquote, hbracket, hbrace⟩ := value_cases s
    · rw [scanOnce] at h
      cases h
      exact Or.inl (Or.inl rfl)
    · rw [scanOnce_string, except_map_error] at h
      exact Or.inl (Or.inl (scanString_fails u e h))
    · cases depth with
      | zero =>
        cases h
        exact Or.inr ⟨rfl, Or.inl rfl⟩
      | succ depth =>
        rw [scanOnce_array, except_map_error] at h
        obtain rfl | ⟨hopen, t, hat, ht⟩ := scanContainer_error h
        · exact Or.inl (Or.inl rfl)
        · have hinside : Inside (scanOnce depth) (ch '[' :: u) t := .array hopen hat
          have hlength := (hinside.lt_length length_scanOnce).le
          exact (ih depth (Nat.lt_succ_self _) ht).imp (fun h => h.mono hlength)
            (And.imp_right fun hdeep => ⟨t, hinside, hdeep⟩)
    · cases depth with
      | zero =>
        cases h
        exact Or.inr ⟨rfl, Or.inr rfl⟩
      | succ depth =>
        rw [scanOnce_object, except_map_error] at h
        obtain rfl | ⟨hopen, t, hat, ht⟩ := scanContainer_error h
        · exact Or.inl (Or.inl rfl)
        · have hinside : Inside (scanOnce depth) (0x7b :: u) t := .object hopen hat
          have hlength := (hinside.lt_length length_scanOnce).le
          exact (ih depth (Nat.lt_succ_self _) ht).imp (fun h => h.mono hlength)
            (And.imp_right fun hdeep => ⟨t, hinside, hdeep⟩)
    · rw [scanOnce_literal hquote hbracket hbrace, except_map_error] at h
      exact Or.inl (scanLiteral_fails _ e h)

/-- Each level of nesting takes a code point. -/
theorem TooDeep.lt_length {depth : ℕ} {s : Str} (h : TooDeep depth s) : depth < s.length := by
  induction depth generalizing s with
  | zero => exact List.length_pos_of_ne_nil h.ne_nil
  | succ depth ih =>
    obtain ⟨t, hinside, hdeep⟩ := h
    have hlt := hinside.lt_length length_scanOnce
    have hdepth := ih hdeep
    omega

/-- **A text that is nested too deep** exhausts the recursion. -/
theorem TooDeep.scanOnce_error {depth : ℕ} {s : Str} (h : TooDeep depth s) :
    scanOnce depth s = .error .recursionError := by
  induction depth generalizing s with
  | zero =>
    obtain rfl | ⟨u, rfl⟩ | ⟨u, rfl⟩ | ⟨u, rfl⟩ | ⟨c, u, rfl, -, hbracket, hbrace⟩ := value_cases s
    · exact absurd rfl h.ne_nil
    · rcases h with h | h <;> exact absurd (Option.some.inj h) (by decide)
    · rfl
    · rfl
    · rcases h with h | h
      · exact absurd (Option.some.inj h) hbracket
      · exact absurd (Option.some.inj h) hbrace
  | succ depth ih =>
    obtain ⟨t, hinside, hdeep⟩ := h
    have ht := ih hdeep
    cases hinside with
    | array hopen hat =>
      rw [scanOnce_array, except_map_error]
      exact hat.scanContainer_error length_itemStart length_scanOnce hopen ht hdeep.ne_nil (by decide)
    | object hopen hat =>
      rw [scanOnce_object, except_map_error]
      exact hat.scanContainer_error length_memberStart length_scanOnce hopen ht hdeep.ne_nil (by decide)

/-! ### The bytes -/

theorem length_push_le {n m : ℕ} {rest : Option Str} {s : Str}
    (hrest : ∀ t, rest = some t → t.length ≤ m) (h : push n rest = some s) : s.length ≤ m + 1 := by
  simp only [push, Option.bind_eq_bind, Option.bind_eq_some_iff] at h
  obtain ⟨c, -, t, ht, h⟩ := h
  cases h
  exact Nat.succ_le_succ (hrest t ht)

theorem length_utf8_le {bytes : List Byte} {s : Str} (h : utf8 bytes = some s) :
    s.length ≤ bytes.length := by
  fun_induction utf8 bytes generalizing s
  case case1 => cases h; exact le_rfl
  case case2 ih => exact length_push_le (fun _ => ih) h
  case case6 ih => exact (length_push_le (fun _ => ih) h).trans (by simp)
  case case10 ih => exact (length_push_le (fun _ => ih) h).trans (by simp)
  case case14 ih => exact (length_push_le (fun _ => ih) h).trans (by simp)
  all_goals cases h

theorem length_utf16_le {bigEndian : Bool} {bytes : List Byte} {s : Str}
    (h : utf16 bigEndian bytes = some s) : s.length ≤ bytes.length := by
  fun_induction utf16 bigEndian bytes generalizing s
  case case1 => cases h; exact le_rfl
  case case2 => cases h
  all_goals
    rename_i ih
    exact (length_push_le (fun _ => ih) h).trans (by simp)

theorem length_utf32_le {bigEndian : Bool} {bytes : List Byte} {s : Str}
    (h : utf32 bigEndian bytes = some s) : s.length ≤ bytes.length := by
  fun_induction utf32 bigEndian bytes generalizing s
  case case1 => cases h; exact le_rfl
  case case2 ih => exact (length_push_le (fun _ => ih) h).trans (by simp)
  case case3 => cases h

theorem length_decodeBytes_le {bytes : List Byte} {s : Str} (h : decodeBytes bytes = some s) :
    s.length ≤ bytes.length := by
  have hdrop : ∀ k, (bytes.drop k).length ≤ bytes.length := fun k => by
    rw [List.length_drop]
    exact Nat.sub_le _ _
  unfold decodeBytes at h
  split_ifs at h
  · exact (length_utf32_le h).trans (hdrop 4)
  · exact (length_utf32_le h).trans (hdrop 4)
  · exact (length_utf16_le h).trans (hdrop 2)
  · exact (length_utf16_le h).trans (hdrop 2)
  · exact (length_utf8_le h).trans (hdrop 3)
  · split at h
    · split_ifs at h
      · exact length_utf32_le h
      · exact length_utf16_le h
      · exact length_utf32_le h
      · exact length_utf16_le h
      · exact length_utf8_le h
    · split_ifs at h
      · exact length_utf16_le h
      · exact length_utf16_le h
      · exact length_utf8_le h
    · exact length_utf8_le h

/-- **What a short text raises.** -/
theorem loads_error {depth : ℕ} {bytes : List Byte} {e : Error} (hshort : bytes.length ≤ maxStrDigits)
    (h : loads depth bytes = .error e) : e = .jsonDecodeError ∨ decodeBytes bytes = none ∨
      ∃ s, decodeBytes bytes = some s ∧ TooDeep depth (skipSpace s) := by
  cases hdecode : decodeBytes bytes with
  | none => exact Or.inr (Or.inl rfl)
  | some s =>
    have hlength := (length_skipSpace_le s).trans (length_decodeBytes_le hdecode)
    simp only [loads, hdecode, ofOption, Option.elim_some, bind, Except.bind] at h
    cases hscan : scanOnce depth (skipSpace s) with
    | error e' =>
      rw [hscan] at h
      cases h
      rcases scanOnce_error hscan with (rfl | ⟨-, hlong⟩) | ⟨-, hdeep⟩
      · exact Or.inl rfl
      · omega
      · exact Or.inr (Or.inr ⟨s, rfl, hdeep⟩)
    | ok r =>
      simp only [hscan, check] at h
      split_ifs at h
      · cases h
      · cases h
        exact Or.inl rfl

theorem loads_of_undecodable {depth : ℕ} {bytes : List Byte} (h : decodeBytes bytes = none) :
    loads depth bytes = .error .unicodeDecodeError := by
  rw [loads, h]
  rfl

theorem loads_of_tooDeep {depth : ℕ} {bytes : List Byte} {s : Str}
    (hdecode : decodeBytes bytes = some s) (h : TooDeep depth (skipSpace s)) :
    loads depth bytes = .error .recursionError := by
  rw [loads, hdecode]
  show (scanOnce depth (skipSpace s) >>= _) = _
  rw [h.scanOnce_error]
  rfl

end Trueup.Lib.Json
