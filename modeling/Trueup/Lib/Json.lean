import Trueup.Lib.Transaction
import Trueup.Lib.Unicode

/-! # JSON

The `json` module: `dumps` of a list of scalars with `separators=(",", ":")`, which escapes whatever
is not ASCII, and `loads` of some bytes, which finds out their encoding by itself. A float is held as
the literal that JSON has for it. -/

namespace Trueup.Lib.Json

open Trueup.Lib.Text Trueup.Lib.Unicode Trueup.Lib.Transaction

inductive Scalar
  | null
  | bool (value : Bool)
  | int (value : ℤ)
  | float (literal : Str)
  | str (value : Str)
  deriving DecidableEq

inductive Value
  | scalar (value : Scalar)
  | array (items : List Value)
  | object (members : List (Str × Value))

inductive Error
  | jsonDecodeError | unicodeDecodeError | unicodeEncodeError | recursionError | valueError
  deriving DecidableEq

/-- The default of `sys.set_int_max_str_digits`. -/
def maxStrDigits : ℕ := 4300

def quote : CodePoint := 0x22

def backslash : CodePoint := 0x5c

/-! ### `dumps` -/

/-- `ESCAPE_DCT`: the letters of the short escapes. -/
def escapeDct : List (CodePoint × CodePoint) :=
  [(backslash, backslash), (quote, quote), (8, ch 'b'), (12, ch 'f'), (10, ch 'n'), (13, ch 'r'),
    (9, ch 't')]

/-- The format `\u{0:04x}`. -/
def unicodeEscape (n : ℕ) : Str := backslash :: ch 'u' :: fixed 16 4 n

/-- `replace` of `py_encode_basestring_ascii`. -/
def escape (c : CodePoint) : Str :=
  match escapeDct.lookup c with
  | some letter => [backslash, letter]
  | none =>
    if ch ' ' ≤ c ∧ c ≤ ch '~' then [c]
    else if c.val < 0x10000 then unicodeEscape c
    else unicodeEscape (0xd800 + (c.val - 0x10000) / 0x400) ++
      unicodeEscape (0xdc00 + (c.val - 0x10000) % 0x400)

/-- `py_encode_basestring_ascii`. -/
def encodeString (s : Str) : Str := quote :: (s.flatMap escape ++ [quote])

/-- `int.__repr__`. -/
def intRepr (n : ℤ) : Str := (if n < 0 then [ch '-'] else []) ++ decimal n.natAbs

def dumpScalar : Scalar → Except Error Str
  | .null => .ok (text "null")
  | .bool true => .ok (text "true")
  | .bool false => .ok (text "false")
  | .int n => do
    check ((decimal n.natAbs).length ≤ maxStrDigits) .valueError
    return intRepr n
  | .float literal => .ok literal
  | .str s => .ok (encodeString s)

/-- `dumps`, of a list of scalars. -/
def dumps (values : List Scalar) : Except Error Str := do
  let items ← values.mapM dumpScalar
  return ch '[' :: (List.intercalate [ch ','] items ++ [ch ']'])

/-! ### The scanner -/

/-- `WHITESPACE`. -/
def IsSpace (c : CodePoint) : Prop := c = 0x20 ∨ c = 9 ∨ c = 10 ∨ c = 13

instance : DecidablePred IsSpace := fun _ => inferInstanceAs (Decidable (_ ∨ _))

def skipSpace (s : Str) : Str := s.dropWhile (IsSpace ·)

/-- `BACKSLASH`: what the letters of the short escapes stand for. -/
def backslashDct : List (CodePoint × CodePoint) :=
  [(quote, quote), (backslash, backslash), (ch '/', ch '/'), (ch 'b', 8), (ch 'f', 12), (ch 'n', 10),
    (ch 'r', 13), (ch 't', 9)]

/-- `_decode_uXXXX`. -/
def decodeHex (digits : Str) : Option CodePoint :=
  if digits.all fun c => (digitValue c).isSome then codePoint (number 16 digits) else none

/-- An escape, after its backslash; with what comes after it. -/
def scanEscape : Str → Except Error (CodePoint × Str)
  | [] => .error .jsonDecodeError
  | letter :: rest =>
    if letter ≠ ch 'u' then
      (ofOption (backslashDct.lookup letter) .jsonDecodeError).map fun c => (c, rest)
    else do
      check (4 ≤ rest.length) .jsonDecodeError
      let uni ← ofOption (decodeHex (rest.take 4)) .jsonDecodeError
      let rest := rest.drop 4
      if hhigh : IsHigh uni then
        if rest.take 2 = [backslash, ch 'u'] then do
          check (6 ≤ rest.length) .jsonDecodeError
          let uni2 ← ofOption (decodeHex ((rest.drop 2).take 4)) .jsonDecodeError
          if hlow : IsLow uni2 then return (join uni uni2 hhigh hlow, rest.drop 6)
          else return (uni, rest)
        else return (uni, rest)
      else return (uni, rest)

/-- The loop of `scanstring`, which takes at least one code point each time. -/
def scanChars : ℕ → Str → Except Error (Str × Str)
  | n + 1, c :: rest =>
    if c = quote then .ok ([], rest)
    else do
      let (c, rest) ← if c = backslash then scanEscape rest
        else if c < 0x20 then .error .jsonDecodeError
        else .ok (c, rest)
      let (s, rest) ← scanChars n rest
      return (c :: s, rest)
  | _, _ => .error .jsonDecodeError

/-- `scanstring`, after the opening quote; with what comes after the closing one. -/
def scanString (s : Str) : Except Error (Str × Str) := scanChars s.length s

/-- The digits at the start, and what comes after them. -/
def spanDigits (s : Str) : Str × Str := (s.takeWhile (IsDigit ·), s.dropWhile (IsDigit ·))

/-- `-?` of `NUMBER_RE`. -/
def matchSign : Str → Str × Str
  | c :: rest => if c = ch '-' then ([c], rest) else ([], c :: rest)
  | [] => ([], [])

/-- `0|[1-9][0-9]*` of `NUMBER_RE`. -/
def matchDigits : Str → Option (Str × Str)
  | c :: rest =>
    if c = ch '0' then some ([c], rest)
    else if ch '1' ≤ c ∧ c ≤ ch '9' then some (c :: (spanDigits rest).1, (spanDigits rest).2)
    else none
  | [] => none

/-- `(\.[0-9]+)?` of `NUMBER_RE`. -/
def matchFraction (s : Str) : Str × Str :=
  match s with
  | c :: rest =>
    if c = ch '.' ∧ (spanDigits rest).1 ≠ [] then (c :: (spanDigits rest).1, (spanDigits rest).2)
    else ([], s)
  | [] => ([], [])

/-- `([eE][-+]?[0-9]+)?` of `NUMBER_RE`. -/
def matchExponent (s : Str) : Str × Str :=
  match s with
  | c :: rest =>
    if c = ch 'e' ∨ c = ch 'E' then
      let (sign, rest) := match rest with
        | d :: u => if d = ch '+' ∨ d = ch '-' then ([d], u) else ([], rest)
        | [] => ([], [])
      if (spanDigits rest).1 ≠ [] then (c :: (sign ++ (spanDigits rest).1), (spanDigits rest).2)
      else ([], s)
    else ([], s)
  | [] => ([], [])

/-- `NUMBER_RE`: the integer part, the fraction with the exponent, and what comes after them. -/
def matchNumber (s : Str) : Option (Str × Str × Str) := do
  let (sign, s) := matchSign s
  let (digits, s) ← matchDigits s
  let (fraction, s) := matchFraction s
  let (exponent, s) := matchExponent s
  return (sign ++ digits, fraction ++ exponent, s)

/-- `int` of an integer part. -/
def parseInt (integer : Str) : Except Error ℤ := do
  let digits := integer.filter (· ≠ ch '-')
  check (digits.length ≤ maxStrDigits) .valueError
  return if integer.head? = some (ch '-') then -(number 10 digits : ℤ) else number 10 digits

/-- The literals that are words. -/
def words : List (Str × Scalar) :=
  [(text "null", .null), (text "true", .bool true), (text "false", .bool false),
    (text "NaN", .float (text "NaN")), (text "Infinity", .float (text "Infinity")),
    (text "-Infinity", .float (text "-Infinity"))]

/-- The scalars that are no strings. -/
def scanLiteral (s : Str) : Except Error (Scalar × Str) :=
  match words.find? (·.1.isPrefixOf s) with
  | some (word, value) => .ok (value, s.drop word.length)
  | none => do
    let (integer, fraction, rest) ← ofOption (matchNumber s) .jsonDecodeError
    if fraction = [] then return (.int (← parseInt integer), rest)
    else return (.float (integer ++ fraction), rest)

section Containers
variable (scan : Str → Except Error (Value × Str))

/-- The loop of `JSONArray`, which takes at least one code point each time. -/
def scanItems : ℕ → Str → Except Error (List Value × Str)
  | 0, _ => .error .jsonDecodeError
  | n + 1, s => do
    let (value, s) ← scan s
    match skipSpace s with
    | [] => .error .jsonDecodeError
    | c :: rest =>
      if c = ch ']' then return ([value], rest)
      else if c = ch ',' then do
        let (values, rest) ← scanItems n (skipSpace rest)
        return (value :: values, rest)
      else .error .jsonDecodeError

/-- `JSONArray`, after the opening bracket. -/
def scanArray (s : Str) : Except Error (Value × Str) :=
  match skipSpace s with
  | [] => .error .jsonDecodeError
  | c :: rest =>
    if c = ch ']' then .ok (.array [], rest)
    else (scanItems scan s.length (c :: rest)).map fun r => (.array r.1, r.2)

/-- The loop of `JSONObject`. -/
def scanMembers : ℕ → Str → Except Error (List (Str × Value) × Str)
  | 0, _ => .error .jsonDecodeError
  | n + 1, s => do
    check (s.head? = some quote) .jsonDecodeError
    let (key, s) ← scanString s.tail
    check ((skipSpace s).head? = some (ch ':')) .jsonDecodeError
    let (value, s) ← scan (skipSpace (skipSpace s).tail)
    match skipSpace s with
    | [] => .error .jsonDecodeError
    | c :: rest =>
      if c = 0x7d then return ([(key, value)], rest)
      else if c = ch ',' then do
        let (members, rest) ← scanMembers n (skipSpace rest)
        return ((key, value) :: members, rest)
      else .error .jsonDecodeError

/-- `JSONObject`, after the opening brace. -/
def scanObject (s : Str) : Except Error (Value × Str) :=
  match skipSpace s with
  | [] => .error .jsonDecodeError
  | c :: rest =>
    if c = 0x7d then .ok (.object [], rest)
    else (scanMembers scan s.length (c :: rest)).map fun r => (.object r.1, r.2)

end Containers

/-- `scan_once`, with `depth` levels of recursion left. -/
def scanOnce : (depth : ℕ) → Str → Except Error (Value × Str)
  | _, [] => .error .jsonDecodeError
  | depth, c :: rest =>
    if c = quote then (scanString rest).map fun r => (.scalar (.str r.1), r.2)
    else if c = ch '[' then match depth with
      | 0 => .error .recursionError
      | depth + 1 => scanArray (scanOnce depth) rest
    else if c = 0x7b then match depth with
      | 0 => .error .recursionError
      | depth + 1 => scanObject (scanOnce depth) rest
    else (scanLiteral (c :: rest)).map fun r => (.scalar r.1, r.2)

theorem scanOnce_string (depth : ℕ) (rest : Str) : scanOnce depth (quote :: rest) =
    (scanString rest).map fun r => (.scalar (.str r.1), r.2) := by
  cases depth <;> rw [scanOnce, if_pos rfl]

theorem scanOnce_literal {c : CodePoint} (hquote : c ≠ quote) (hbracket : c ≠ ch '[')
    (hbrace : c ≠ 0x7b) (depth : ℕ) (rest : Str) : scanOnce depth (c :: rest) =
    (scanLiteral (c :: rest)).map fun r => (.scalar r.1, r.2) := by
  cases depth <;> rw [scanOnce, if_neg hquote, if_neg hbracket, if_neg hbrace]

/-! ### `loads` -/

/-- `detect_encoding`, and the decoding by it; the marks of the byte order are dropped. -/
def decodeBytes (bytes : List Byte) : Option Str :=
  if bytes.take 4 = [0, 0, 0xfe, 0xff] then utf32 true (bytes.drop 4)
  else if bytes.take 4 = [0xff, 0xfe, 0, 0] then utf32 false (bytes.drop 4)
  else if bytes.take 2 = [0xfe, 0xff] then utf16 true (bytes.drop 2)
  else if bytes.take 2 = [0xff, 0xfe] then utf16 false (bytes.drop 2)
  else if bytes.take 3 = [0xef, 0xbb, 0xbf] then utf8 (bytes.drop 3)
  else match bytes with
    | a :: b :: c :: d :: _ =>
      if a = 0 then (if b = 0 then utf32 true bytes else utf16 true bytes)
      else if b = 0 then (if c = 0 ∧ d = 0 then utf32 false bytes else utf16 false bytes)
      else utf8 bytes
    | [a, b] =>
      if a = 0 then utf16 true bytes
      else if b = 0 then utf16 false bytes
      else utf8 bytes
    | _ => utf8 bytes

/-- `loads`. -/
def loads (depth : ℕ) (bytes : List Byte) : Except Error Value := do
  let s ← ofOption (decodeBytes bytes) .unicodeDecodeError
  let (value, rest) ← scanOnce depth (skipSpace s)
  check (skipSpace rest = []) .jsonDecodeError
  return value

end Trueup.Lib.Json
