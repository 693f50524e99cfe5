import Mathlib.Data.Fin.Basic
import Mathlib.Data.List.Basic
import Mathlib.Data.Nat.Digits.Defs

/-! # Bytes and text

The `bytes` and the `str` of Python, and the numbers written in digits. A `str` is a list of code
points; the surrogates are among them, though no Unicode scalar value is one.

* `number_fixed`: a number written in digits of a fixed width reads back.
* `number_decimal`: so does one written in as many decimal digits as it has. -/

namespace Trueup.Lib.Text

abbrev Byte := Fin 256

abbrev CodePoint := Fin 0x110000

instance byte_neZero : NeZero 256 := ⟨by decide⟩

instance codePoint_neZero : NeZero 0x110000 := ⟨by decide⟩

abbrev Str := List CodePoint

/-- The code point of a character. -/
def ch (c : Char) : CodePoint := ⟨c.toNat, by
  rcases c.valid with h | h
  · have hval : c.toNat < 0xd800 := h
    omega
  · exact h.2⟩

/-- A literal text. -/
def text (s : String) : Str := s.toList.map ch

/-- A code point of the high half of a surrogate pair. -/
def IsHigh (c : ℕ) : Prop := 0xd800 ≤ c ∧ c ≤ 0xdbff

/-- A code point of the low half of a surrogate pair. -/
def IsLow (c : ℕ) : Prop := 0xdc00 ≤ c ∧ c ≤ 0xdfff

instance (c : ℕ) : Decidable (IsHigh c) := inferInstanceAs (Decidable (_ ∧ _))

instance (c : ℕ) : Decidable (IsLow c) := inferInstanceAs (Decidable (_ ∧ _))

/-- The code point of a surrogate pair. -/
def join (high low : ℕ) (hhigh : IsHigh high) (hlow : IsLow low) : CodePoint :=
  ⟨0x10000 + (high - 0xd800) * 0x400 + (low - 0xdc00), by unfold IsHigh IsLow at *; omega⟩

theorem join_halves {c : CodePoint} (h : 0x10000 ≤ c.val)
    (hhigh : IsHigh (0xd800 + (c.val - 0x10000) / 0x400))
    (hlow : IsLow (0xdc00 + (c.val - 0x10000) % 0x400)) : join _ _ hhigh hlow = c := by
  refine Fin.ext ?_
  show 0x10000 + (0xd800 + (c.val - 0x10000) / 0x400 - 0xd800) * 0x400 +
    (0xdc00 + (c.val - 0x10000) % 0x400 - 0xdc00) = c.val
  omega

/-- A text of Unicode scalar values. -/
def NoSurrogates (s : Str) : Prop := ∀ c ∈ s, ¬ IsHigh c ∧ ¬ IsLow c

instance (s : Str) : Decidable (NoSurrogates s) := List.decidableBAll _ s

/-! ### ASCII -/

theorem ascii_lt {c : CodePoint} (h : c.val < 128) : c.val < 256 := h.trans (by norm_num)

/-- `encode("ascii")`, of one code point. -/
def asciiByte (c : CodePoint) : Option Byte := if h : c.val < 128 then some ⟨c, ascii_lt h⟩ else none

/-- `encode("ascii")`; `none` is a `UnicodeEncodeError`. -/
def asciiEncode (s : Str) : Option (List Byte) := s.mapM asciiByte

/-- `decode("ascii")`, of bytes that are ASCII. -/
def asciiDecode (bytes : List Byte) : Str := bytes.map (Fin.castLE (by norm_num))

theorem length_asciiEncode {s : Str} {bytes : List Byte} (h : asciiEncode s = some bytes) :
    bytes.length = s.length := by
  induction s generalizing bytes with
  | nil =>
    cases h
    rfl
  | cons c s ih =>
    rw [asciiEncode, List.mapM_cons] at h
    obtain ⟨b, -, h⟩ := Option.bind_eq_some_iff.mp h
    obtain ⟨rest, hrest, h⟩ := Option.bind_eq_some_iff.mp h
    cases h
    rw [List.length_cons, List.length_cons, ih hrest]

theorem asciiEncode_decode {bytes : List Byte} (h : ∀ b ∈ bytes, b.val < 128) :
    asciiEncode (asciiDecode bytes) = some bytes := by
  induction bytes with
  | nil => rfl
  | cons b bytes ih =>
    have hhead : asciiByte (Fin.castLE (by norm_num) b) = some b := by
      have hb := h b List.mem_cons_self
      simp [asciiByte, hb]
    have htail := ih fun b' hb' => h b' (List.mem_cons_of_mem _ hb')
    unfold asciiEncode asciiDecode at htail ⊢
    rw [List.map_cons, List.mapM_cons, hhead, htail]
    rfl

/-! ### Digits -/

/-- A digit, in lower case. -/
def digit (d : ℕ) : CodePoint := ch (Nat.digitChar d)

/-- The value of a hexadecimal digit, in either case. -/
def digitValue (c : CodePoint) : Option ℕ :=
  if ch '0' ≤ c ∧ c ≤ ch '9' then some (c - 48)
  else if ch 'a' ≤ c ∧ c ≤ ch 'f' then some (c - 87)
  else if ch 'A' ≤ c ∧ c ≤ ch 'F' then some (c - 55)
  else none

/-- `[0-9]`. -/
def IsDigit (c : CodePoint) : Prop := ch '0' ≤ c ∧ c ≤ ch '9'

instance : DecidablePred IsDigit := fun _ => inferInstanceAs (Decidable (_ ∧ _))

/-- The number that some digits are. -/
def number (base : ℕ) (digits : Str) : ℕ :=
  digits.foldl (fun n c => base * n + (digitValue c).getD 0) 0

/-- The last `width` digits of a number, the format `%0{width}d`. -/
def fixed (base : ℕ) : ℕ → ℕ → Str
  | 0, _ => []
  | width + 1, n => fixed base width (n / base) ++ [digit (n % base)]

/-- All the digits of a number. -/
def decimal (n : ℕ) : Str := (Nat.toDigits 10 n).map ch

theorem digitValue_digit {d : ℕ} (h : d < 16) : digitValue (digit d) = some d := by
  revert d
  decide

theorem isDigit_digit {d : ℕ} (h : d < 10) : IsDigit (digit d) := by
  revert d
  decide

theorem number_append (base : ℕ) (digits : Str) (c : CodePoint) :
    number base (digits ++ [c]) = base * number base digits + (digitValue c).getD 0 := by
  simp [number]

@[simp] theorem length_fixed (base width n : ℕ) : (fixed base width n).length = width := by
  induction width generalizing n with
  | zero => rfl
  | succ width ih => rw [fixed, List.length_append, ih]; rfl

/-- **Digits of a fixed width** read back. -/
theorem number_fixed {base width n : ℕ} (hbase : 0 < base) (hle : base ≤ 16) (h : n < base ^ width) :
    number base (fixed base width n) = n := by
  induction width generalizing n with
  | zero =>
    rw [pow_zero] at h
    obtain rfl : n = 0 := by omega
    rfl
  | succ width ih =>
    have hdigit : n % base < 16 := lt_of_lt_of_le (Nat.mod_lt n hbase) hle
    have hhigh : n / base < base ^ width := Nat.div_lt_of_lt_mul (by rwa [← pow_succ'])
    rw [fixed, number_append, ih hhigh, digitValue_digit hdigit, Option.getD_some]
    exact Nat.div_add_mod n base

/-- A number of a fixed width reads back from its place in a text. -/
theorem number_field {base width n place : ℕ} (hbase : 0 < base) (hle : base ≤ 16)
    (h : n < base ^ width) {s : Str} (before after : Str)
    (hs : s = before ++ (fixed base width n ++ after)) (hplace : before.length = place) :
    number base ((s.drop place).take width) = n := by
  rw [hs, List.drop_left' hplace, List.take_left' (length_fixed ..), number_fixed hbase hle h]

theorem digit_of_mem_fixed {base width n : ℕ} (hbase : 0 < base) {c : CodePoint}
    (h : c ∈ fixed base width n) : ∃ d < base, c = digit d := by
  induction width generalizing n with
  | zero => cases h
  | succ width ih =>
    rcases List.mem_append.mp h with h | h
    · exact ih h
    · exact ⟨n % base, Nat.mod_lt n hbase, List.mem_singleton.mp h⟩

theorem decimal_of_le {n : ℕ} (h : 10 ≤ n) : decimal n = decimal (n / 10) ++ [digit (n % 10)] := by
  rw [decimal, Nat.toDigits_of_base_le (by norm_num) h, List.map_append]
  rfl

theorem decimal_of_lt {n : ℕ} (h : n < 10) : decimal n = [digit n] := by
  rw [decimal, Nat.toDigits_of_lt_base h]
  rfl

/-- **Decimal digits** read back. -/
theorem number_decimal (n : ℕ) : number 10 (decimal n) = n := by
  induction n using Nat.strong_induction_on with
  | _ n ih =>
    rcases lt_or_ge n 10 with hlt | hge
    · rw [decimal_of_lt hlt, number, List.foldl_cons, digitValue_digit (by omega)]
      simp
    · rw [decimal_of_le hge, number_append, ih (n / 10) (by omega), digitValue_digit (by omega),
        Option.getD_some]
      omega

theorem isDigit_of_mem_decimal {n : ℕ} {c : CodePoint} (h : c ∈ decimal n) : IsDigit c := by
  induction n using Nat.strong_induction_on with
  | _ n ih =>
    rcases lt_or_ge n 10 with hlt | hge
    · rw [decimal_of_lt hlt] at h
      obtain rfl := List.mem_singleton.mp h
      exact isDigit_digit hlt
    · rw [decimal_of_le hge] at h
      rcases List.mem_append.mp h with h | h
      · exact ih (n / 10) (by omega) h
      · obtain rfl := List.mem_singleton.mp h
        exact isDigit_digit (by omega)

theorem decimal_cons {n : ℕ} (h : 0 < n) : ∃ c digits, decimal n = c :: digits ∧ ch '1' ≤ c ∧
    c ≤ ch '9' := by
  induction n using Nat.strong_induction_on with
  | _ n ih =>
    rcases lt_or_ge n 10 with hlt | hge
    · refine ⟨digit n, [], decimal_of_lt hlt, ?_⟩
      have hall : ∀ d < 10, 0 < d → ch '1' ≤ digit d ∧ digit d ≤ ch '9' := by decide
      exact hall n hlt h
    · obtain ⟨c, digits, hdigits, hc⟩ := ih (n / 10) (by omega) (by omega)
      exact ⟨c, digits ++ [digit (n % 10)], by rw [decimal_of_le hge, hdigits]; rfl, hc⟩

/-! ### Texts in ASCII -/

/-- ASCII without the null character. -/
def Ascii (s : Str) : Prop := ∀ c ∈ s, 0 < c.val ∧ c.val < 128

instance (s : Str) : Decidable (Ascii s) := List.decidableBAll _ s

theorem Ascii.noSurrogates {s : Str} (h : Ascii s) : NoSurrogates s := fun c hc => by
  have hc := h c hc
  unfold IsHigh IsLow
  omega

theorem ascii_append {s t : Str} (hs : Ascii s) (ht : Ascii t) : Ascii (s ++ t) := fun c hc =>
  (List.mem_append.mp hc).elim (hs c) (ht c)

theorem ascii_cons {c : CodePoint} {s : Str} (hc : 0 < c.val ∧ c.val < 128) (hs : Ascii s) :
    Ascii (c :: s) := fun _ h =>
  (List.mem_cons.mp h).elim (fun heq => heq ▸ hc) (hs _)

theorem ascii_fixed {base : ℕ} (hbase : 0 < base) (hle : base ≤ 16) (width n : ℕ) :
    Ascii (fixed base width n) := by
  intro c hc
  obtain ⟨d, hd, rfl⟩ := digit_of_mem_fixed hbase hc
  have hall : ∀ d < 16, 0 < (digit d).val ∧ (digit d).val < 128 := by decide
  exact hall d (lt_of_lt_of_le hd hle)

end Trueup.Lib.Text
