import Trueup.Lib.Text

/-! # The encodings of Unicode

`bytes.decode(encoding, "surrogatepass")` for the encodings that a text of JSON may have. A surrogate
that is no half of a pair is passed as the code point it is; every other malformed sequence is a
`UnicodeDecodeError`, here `none`.

* `utf8_ascii`, `utf8Encode_ascii`: UTF-8 reads and writes ASCII as it stands. -/

namespace Trueup.Lib.Unicode

open Trueup.Lib.Text

/-- A continuation byte of UTF-8. -/
def IsTail (b : Byte) : Prop := 0x80 ≤ b ∧ b ≤ 0xbf

instance : DecidablePred IsTail := fun _ => inferInstanceAs (Decidable (_ ∧ _))

/-- The code point `n`, when there is one. -/
def codePoint (n : ℕ) : Option CodePoint := if h : n < 0x110000 then some ⟨n, h⟩ else none

/-- One more code point. -/
def push (n : ℕ) (rest : Option Str) : Option Str := do
  let c ← codePoint n
  let s ← rest
  return c :: s

/-- `utf-8`. -/
def utf8 : List Byte → Option Str
  | [] => some []
  | a :: rest =>
    if a < 0x80 then push a (utf8 rest)
    else if a < 0xc2 then none
    else match rest with
      | [] => none
      | b :: rest =>
        if ¬ IsTail b then none
        else if a < 0xe0 then push ((a.val - 0xc0) * 0x40 + (b.val - 0x80)) (utf8 rest)
        else match rest with
          | [] => none
          | c :: rest =>
            if ¬ IsTail c then none
            else if a < 0xf0 then
              let n := (a.val - 0xe0) * 0x1000 + (b.val - 0x80) * 0x40 + (c.val - 0x80)
              if n < 0x800 then none else push n (utf8 rest)
            else match rest with
              | [] => none
              | d :: rest =>
                if ¬ IsTail d ∨ 0xf5 ≤ a then none
                else
                  let n := (a.val - 0xf0) * 0x40000 + (b.val - 0x80) * 0x1000 +
                    (c.val - 0x80) * 0x40 + (d.val - 0x80)
                  if n < 0x10000 then none else push n (utf8 rest)

/-- The bytes of a unit, in the order of the encoding. -/
def unit (bigEndian : Bool) (bytes : List Byte) : ℕ :=
  (if bigEndian then bytes else bytes.reverse).foldl (fun n b => 0x100 * n + b.val) 0

/-- `utf-16-be` and `utf-16-le`. -/
def utf16 (bigEndian : Bool) : List Byte → Option Str
  | [] => some []
  | [_] => none
  | a :: b :: rest =>
    let high := unit bigEndian [a, b]
    match rest with
    | c :: d :: rest' =>
      let low := unit bigEndian [c, d]
      if h : IsHigh high ∧ IsLow low then push (join high low h.1 h.2) (utf16 bigEndian rest')
      else push high (utf16 bigEndian (c :: d :: rest'))
    | rest => push high (utf16 bigEndian rest)

/-- `utf-32-be` and `utf-32-le`. -/
def utf32 (bigEndian : Bool) : List Byte → Option Str
  | [] => some []
  | a :: b :: c :: d :: rest => push (unit bigEndian [a, b, c, d]) (utf32 bigEndian rest)
  | _ => none

/-- `encode("utf-8")`, of one code point; a surrogate is a `UnicodeEncodeError`. -/
def utf8Bytes (c : CodePoint) : Option (List Byte) :=
  if h : c.val < 0x80 then some [⟨c, ascii_lt h⟩]
  else if h : c.val < 0x800 then some [⟨0xc0 + c / 0x40, by omega⟩, ⟨0x80 + c % 0x40, by omega⟩]
  else if IsHigh c ∨ IsLow c then none
  else if h : c.val < 0x10000 then
    some [⟨0xe0 + c / 0x1000, by omega⟩, ⟨0x80 + c / 0x40 % 0x40, by omega⟩, ⟨0x80 + c % 0x40, by omega⟩]
  else
    some [⟨0xf0 + c / 0x40000, by omega⟩, ⟨0x80 + c / 0x1000 % 0x40, by omega⟩,
      ⟨0x80 + c / 0x40 % 0x40, by omega⟩, ⟨0x80 + c % 0x40, by omega⟩]

/-- `encode("utf-8")`. -/
def utf8Encode (s : Str) : Option (List Byte) := (s.mapM utf8Bytes).map List.flatten

theorem utf8Encode_ascii {s : Str} (h : ∀ c ∈ s, c.val < 128) :
    ∃ bytes, utf8Encode s = some bytes ∧ asciiDecode bytes = s ∧ ∀ b ∈ bytes, b.val < 128 := by
  induction s with
  | nil => exact ⟨[], rfl, rfl, fun b hb => by cases hb⟩
  | cons c s ih =>
    have hc := h c List.mem_cons_self
    obtain ⟨bytes, hbytes, hdecode, hascii⟩ := ih fun c' hc' => h c' (List.mem_cons_of_mem _ hc')
    obtain ⟨parts, hparts, rfl⟩ := Option.map_eq_some_iff.mp hbytes
    have hhead : utf8Bytes c = some [⟨c, by omega⟩] := by
      unfold utf8Bytes
      rw [dif_pos hc]
    refine ⟨⟨c, by omega⟩ :: parts.flatten, ?_, ?_, ?_⟩
    · simp [utf8Encode, hhead, hparts]
    · rw [asciiDecode, List.map_cons]
      exact congrArg₂ _ rfl hdecode
    · rintro b (_ | ⟨_, hb⟩)
      · exact hc
      · exact hascii b hb

theorem utf8_ascii {bytes : List Byte} (h : ∀ b ∈ bytes, b.val < 128) :
    utf8 bytes = some (asciiDecode bytes) := by
  induction bytes with
  | nil => rfl
  | cons b bytes ih =>
    have hb : b < 0x80 := h b List.mem_cons_self
    have hcode : codePoint b = some (Fin.castLE (by norm_num) b) := by
      unfold codePoint
      rw [dif_pos (by omega)]
      rfl
    have hrest := ih fun b' hb' => h b' (List.mem_cons_of_mem _ hb')
    rw [utf8.eq_def]
    simp only [hb, if_true]
    rw [push, hcode, hrest]
    rfl

end Trueup.Lib.Unicode
