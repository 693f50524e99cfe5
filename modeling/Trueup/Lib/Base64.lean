import Mathlib.Data.List.DropRight
import Trueup.Lib.Text

/-! # Base64

The URL-safe alphabet of the `base64` module. The decoder is that of `binascii` outside its strict
mode: it skips what is not in the alphabet, and stops at the padding that completes a quad.

* `decode_encode`: the decoder reads back what the encoder wrote.
* `rstrip_encode`: without its padding, a text still has its letters, and their number says which
  padding it was. -/

namespace Trueup.Lib.Base64

open Trueup.Lib.Text

abbrev Sextet := Fin 64

/-- An ASCII character, as a byte. -/
def ascii (c : Char) (h : c.toNat < 128 := by decide) : Byte := ⟨c.toNat, by omega⟩

/-- The padding character. -/
def pad : Byte := ascii '='

/-- The URL-safe alphabet. -/
def letter (s : Sextet) : Byte :=
  if s < 26 then ⟨s + 65, by omega⟩
  else if s < 52 then ⟨s + 71, by omega⟩
  else if s < 62 then ⟨s - 4, by omega⟩
  else if s = 62 then ascii '-'
  else ascii '_'

/-- The place of a letter in the alphabet; the two alphabets are read alike. -/
def sextet (b : Byte) : Option Sextet :=
  if h : 65 ≤ b.val ∧ b.val ≤ 90 then some ⟨b - 65, by omega⟩
  else if h : 97 ≤ b.val ∧ b.val ≤ 122 then some ⟨b - 71, by omega⟩
  else if h : 48 ≤ b.val ∧ b.val ≤ 57 then some ⟨b + 4, by omega⟩
  else if b = ascii '-' ∨ b = ascii '+' then some 62
  else if b = ascii '_' ∨ b = ascii '/' then some 63
  else none

/-- The bits of some bytes in groups of six, the last group filled up with zeros. -/
def sextets : List Byte → List Sextet
  | a :: b :: c :: rest =>
    ⟨a / 4, by omega⟩ :: ⟨a % 4 * 16 + b / 16, by omega⟩ :: ⟨b % 16 * 4 + c / 64, by omega⟩ ::
      ⟨c % 64, by omega⟩ :: sextets rest
  | [a, b] => [⟨a / 4, by omega⟩, ⟨a % 4 * 16 + b / 16, by omega⟩, ⟨b % 16 * 4, by omega⟩]
  | [a] => [⟨a / 4, by omega⟩, ⟨a % 4 * 16, by omega⟩]
  | [] => []

/-- The padding that a number of letters asks for, `-length % 4`. -/
def padding (length : ℕ) : ℕ := (4 - length % 4) % 4

/-- `urlsafe_b64encode`. -/
def encode (bytes : List Byte) : List Byte :=
  (sextets bytes).map letter ++ List.replicate (padding (sextets bytes).length) pad

/-- The letters read of a quad, with the bits that are left of the last one. -/
inductive Quad
  | zero
  | one (left : Fin 64)
  | two (left : Fin 16)
  | three (left : Fin 4)

def Quad.position : Quad → ℕ
  | .zero => 0
  | .one _ => 1
  | .two _ => 2
  | .three _ => 3

/-- `a2b_base64` from the middle of a quad, after `pads` padding characters in a row; `none` is a
`binascii.Error`. -/
def a2b : Quad → (pads : ℕ) → List Byte → Option (List Byte)
  | .zero, _, [] => some []
  | _, _, [] => none
  | quad, pads, c :: rest =>
    if c = pad then
      if 2 ≤ quad.position then
        if 4 ≤ quad.position + (pads + 1) then some [] else a2b quad (pads + 1) rest
      else a2b quad pads rest
    else match sextet c with
      | none => a2b quad pads rest
      | some s => match quad with
        | .zero => a2b (.one s) 0 rest
        | .one left =>
          (a2b (.two ⟨s % 16, by omega⟩) 0 rest).map (⟨left * 4 + s / 16, by omega⟩ :: ·)
        | .two left =>
          (a2b (.three ⟨s % 4, by omega⟩) 0 rest).map (⟨left * 16 + s / 4, by omega⟩ :: ·)
        | .three left => (a2b .zero 0 rest).map (⟨left * 64 + s, by omega⟩ :: ·)

/-- `urlsafe_b64decode`. -/
def decode (bytes : List Byte) : Option (List Byte) := a2b .zero 0 bytes

/-! ### Reading back -/

theorem letter_spec : ∀ s : Sextet, letter s ≠ pad ∧ sextet (letter s) = some s ∧
    (letter s).val < 128 := by decide

theorem a2b_letter (quad : Quad) (pads : ℕ) (s : Sextet) (rest : List Byte) :
    a2b quad pads (letter s :: rest) = match quad with
      | .zero => a2b (.one s) 0 rest
      | .one left =>
        (a2b (.two ⟨s % 16, by omega⟩) 0 rest).map (⟨left * 4 + s / 16, by omega⟩ :: ·)
      | .two left =>
        (a2b (.three ⟨s % 4, by omega⟩) 0 rest).map (⟨left * 16 + s / 4, by omega⟩ :: ·)
      | .three left => (a2b .zero 0 rest).map (⟨left * 64 + s, by omega⟩ :: ·) := by
  obtain ⟨hpad, hsextet, -⟩ := letter_spec s
  cases quad <;> rw [a2b, if_neg hpad, hsextet]

/-- The end of a text in the middle of a quad, with the padding that completes it. -/
theorem a2b_padding (quad : Quad) (h : 2 ≤ quad.position) :
    a2b quad 0 (List.replicate (padding quad.position) pad) = some [] := by
  cases quad with
  | zero => cases h
  | one left => exact absurd h (by simp [Quad.position])
  | two left => rfl
  | three left => rfl

@[simp] theorem padding_add_four (length : ℕ) : padding (length + 1 + 1 + 1 + 1) = padding length := by
  unfold padding
  omega

/-- **What was encoded reads back.** -/
theorem decode_encode : ∀ bytes : List Byte, decode (encode bytes) = some bytes
  | a :: b :: c :: rest => by
    have hrest : a2b .zero 0 (encode rest) = some rest := decode_encode rest
    simp only [encode] at hrest
    simp only [encode, decode, sextets, List.map_cons, List.cons_append, a2b_letter,
      List.length_cons, padding_add_four, hrest, Option.map_some,
      Option.some.injEq, List.cons.injEq, and_true, Fin.ext_iff]
    omega
  | [a, b] => by
    have hpad : ∀ left, a2b (.three left) 0 (List.replicate (padding 3) pad) = some [] :=
      fun left => a2b_padding (.three left) (Nat.le_succ 2)
    simp only [encode, decode, sextets, List.map_cons, List.map_nil, List.cons_append,
      List.nil_append, a2b_letter, List.length_cons, List.length_nil, hpad, Option.map_some,
      Option.some.injEq, List.cons.injEq, and_true, Fin.ext_iff]
    omega
  | [a] => by
    have hpad : ∀ left, a2b (.two left) 0 (List.replicate (padding 2) pad) = some [] :=
      fun left => a2b_padding (.two left) le_rfl
    simp only [encode, decode, sextets, List.map_cons, List.map_nil, List.cons_append,
      List.nil_append, a2b_letter, List.length_cons, List.length_nil, hpad, Option.map_some,
      Option.some.injEq, List.cons.injEq, and_true, Fin.ext_iff]
    omega
  | [] => rfl

theorem length_sextets : ∀ bytes : List Byte, (sextets bytes).length = (4 * bytes.length + 2) / 3
  | a :: b :: c :: rest => by
    have hrest := length_sextets rest
    simp only [sextets, List.length_cons]
    omega
  | [_, _] => by simp [sextets]
  | [_] => by simp [sextets]
  | [] => rfl

theorem length_a2b_le {quad : Quad} {pads : ℕ} {s bytes : List Byte}
    (h : a2b quad pads s = some bytes) : bytes.length ≤ s.length := by
  induction s generalizing quad pads bytes with
  | nil =>
    cases quad <;> cases h
    exact le_rfl
  | cons c s ih =>
    have hskip : ∀ {quad pads}, a2b quad pads s = some bytes → bytes.length ≤ (c :: s).length :=
      fun h => (ih h).trans (Nat.le_succ _)
    have hbyte : ∀ {quad pads} {b : Byte}, (a2b quad pads s).map (b :: ·) = some bytes →
        bytes.length ≤ (c :: s).length := by
      intro quad pads b h
      obtain ⟨rest, hrest, rfl⟩ := Option.map_eq_some_iff.mp h
      exact Nat.succ_le_succ (ih hrest)
    by_cases hpad : c = pad
    · have hstop : ∀ {p q : Prop} [Decidable p] [Decidable q], (if p then
          if q then some [] else a2b quad (pads + 1) s else a2b quad pads s) = some bytes →
          bytes.length ≤ (c :: s).length := by
        intro p q _ _ h
        split_ifs at h
        · cases h
          exact Nat.zero_le _
        · exact hskip h
        · exact hskip h
      cases quad <;> (rw [a2b, if_pos hpad] at h; exact hstop h)
    · cases hletter : sextet c with
      | none => cases quad <;> (rw [a2b, if_neg hpad, hletter] at h; exact hskip h)
      | some letter =>
        cases quad with
        | zero =>
          rw [a2b, if_neg hpad, hletter] at h
          exact hskip h
        | one left =>
          rw [a2b, if_neg hpad, hletter] at h
          exact hbyte h
        | two left =>
          rw [a2b, if_neg hpad, hletter] at h
          exact hbyte h
        | three left =>
          rw [a2b, if_neg hpad, hletter] at h
          exact hbyte h

theorem ascii_of_mem_encode {bytes : List Byte} {b : Byte} (h : b ∈ encode bytes) : b.val < 128 := by
  rcases List.mem_append.mp h with h | h
  · obtain ⟨s, -, rfl⟩ := List.mem_map.mp h
    exact (letter_spec s).2.2
  · rw [(List.mem_replicate.mp h).2]
    decide

/-- **What is left** when the padding is stripped. -/
theorem rstrip_encode (bytes : List Byte) :
    (encode bytes).rdropWhile (· = pad) = (sextets bytes).map letter := by
  have hletters : ∀ b ∈ (sextets bytes).map letter, b ≠ pad := fun b hb => by
    obtain ⟨s, -, rfl⟩ := List.mem_map.mp hb
    exact (letter_spec s).1
  unfold encode
  induction padding (sextets bytes).length with
  | zero =>
    rw [List.replicate_zero, List.append_nil, List.rdropWhile_eq_self_iff]
    exact fun hne => by simpa using hletters _ (List.getLast_mem hne)
  | succ n ih =>
    rw [List.replicate_succ', ← List.append_assoc, List.rdropWhile_concat_pos _ _ _ (by simp), ih]

end Trueup.Lib.Base64
