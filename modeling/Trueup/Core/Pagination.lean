import Trueup.Lib.Base64
import Trueup.Lib.JsonRoundTrip

/-! # Pagination

`core/pagination.py`: a cursor is the sort key of the last row seen, as a list of JSON with a
checksum behind it, in Base64 without its padding.

* `decodeCursor_encodeCursor`: a cursor reads back, if it is not too long.
* `encodeCursor_ok`: how long it is; `Fits.exists_cursor`: whether it is short enough to be read. -/

namespace Trueup.Core

open Trueup.Lib Trueup.Lib.Text Trueup.Lib.Unicode Trueup.Lib.Json Trueup.Lib.Transaction

/-- What the functions of the module raise. -/
inductive PaginationError
  | validationError (message : String)
  | valueError
  | indexError
  | unicodeDecodeError
  | unicodeEncodeError
  | recursionError
  deriving DecidableEq

/-- The digest function of `hashlib`, and the levels of recursion that the interpreter allows. -/
structure Interpreter where
  sha256 : List Byte → { digest : List Byte // digest.length = 32 }
  recursionLimit : ℕ
  recursionLimit_pos : 0 < recursionLimit

/-- An interpreter that knows one digest. -/
def interpreterOf (digest : { digest : List Byte // digest.length = 32 }) : Interpreter where
  sha256 _ := digest
  recursionLimit := 1000
  recursionLimit_pos := by norm_num

abbrev CursorValue := Scalar

def defaultPageSize : ℕ := 50

def maxPageSize : ℕ := 200

/-- `_MAX_CURSOR_LENGTH`. -/
def maxCursorLength : ℕ := 2048

/-- `_CHECKSUM_BYTES`. -/
def checksumBytes : ℕ := 16

structure Page (α : Type) where
  items : List α
  nextCursor : Option Str

def Page.hasMore {α : Type} (page : Page α) : Bool := page.nextCursor.isSome

/-- `normalize_limit`. -/
def normalizeLimit (limit : Option ℤ) (default maximum : ℕ) : Except PaginationError ℕ :=
  match limit with
  | none => .ok default
  | some limit => do
    check (¬ limit ≤ 0) (.validationError "limit must be a positive integer")
    check (¬ limit > maximum) (.validationError s!"limit must not exceed {maximum}")
    return limit.toNat

theorem normalizeLimit_pos {limit : Option ℤ} {default maximum n : ℕ} (hdefault : 0 < default)
    (h : normalizeLimit limit default maximum = .ok n) : 0 < n := by
  cases limit with
  | none =>
    cases h
    exact hdefault
  | some limit =>
    simp only [normalizeLimit, except_bind_ok, check_ok] at h
    obtain ⟨-, hpos, -, -, hreturn⟩ := h
    cases hreturn
    omega

/-- What an error of `json` is to the caller. -/
def ofJsonError : Json.Error → PaginationError
  | .jsonDecodeError => .validationError "invalid pagination cursor"
  | .unicodeDecodeError => .unicodeDecodeError
  | .unicodeEncodeError => .unicodeEncodeError
  | .recursionError => .recursionError
  | .valueError => .valueError

section Cursor
variable (interpreter : Interpreter)

/-- The checksum of a payload. -/
def checksum (payload : List Byte) : List Byte := (interpreter.sha256 payload).1.take checksumBytes

/-- `encode_cursor`. -/
def encodeCursor (values : List CursorValue) : Except PaginationError Str := do
  check (values ≠ []) .valueError
  let text ← (dumps values).mapError ofJsonError
  let payload ← ofOption (utf8Encode text) .unicodeEncodeError
  return (asciiDecode (Base64.encode (payload ++ checksum interpreter payload))).rdropWhile
    (· = ch '=')

/-- An item that is no scalar is refused. -/
def scalarOf : Value → Except PaginationError CursorValue
  | .scalar value => .ok value
  | _ => .error (.validationError "invalid pagination cursor")

/-- `decode_cursor`. -/
def decodeCursor (cursor : Str) : Except PaginationError (List CursorValue) := do
  let invalid := .validationError "invalid pagination cursor"
  check (cursor ≠ [] ∧ ¬ cursor.length > maxCursorLength) invalid
  let padded := cursor ++ List.replicate (Base64.padding cursor.length) (ch '=')
  let raw ← ofOption (asciiEncode padded >>= Base64.decode) invalid
  check (¬ raw.length ≤ checksumBytes) invalid
  let payload := raw.take (raw.length - checksumBytes)
  check (raw.drop (raw.length - checksumBytes) = checksum interpreter payload) invalid
  let decoded ← (loads interpreter.recursionLimit payload).mapError ofJsonError
  match decoded with
  | .array items => do
    check (¬ items.isEmpty) invalid
    items.mapM scalarOf
  | _ => .error invalid

/-- `paginate`. -/
def paginate {α : Type} (rows : List α) (limit : ℕ) (cursorKey : α → List CursorValue) :
    Except PaginationError (Page α) :=
  if rows.length > limit then do
    let items := rows.take limit
    let last ← ofOption items.getLast? .indexError
    let nextCursor ← encodeCursor interpreter (cursorKey last)
    return ⟨items, some nextCursor⟩
  else .ok ⟨rows, none⟩

/-! ### Reading back -/

theorem length_checksum (payload : List Byte) : (checksum interpreter payload).length = checksumBytes := by
  have hlength := (interpreter.sha256 payload).2
  rw [checksum, List.length_take, hlength]
  rfl

/-- The padding character, in bytes and in text. -/
theorem rdropWhile_asciiDecode (bytes : List Byte) : (asciiDecode bytes).rdropWhile (· = ch '=') =
    asciiDecode (bytes.rdropWhile (· = Base64.pad)) := by
  have hpad : ((fun c : CodePoint => decide (c = ch '=')) ∘ Fin.castLE (by norm_num)) =
      fun b : Byte => decide (b = Base64.pad) := by
    funext b
    simp [Base64.pad, Base64.ascii, ch, Fin.ext_iff]
  unfold asciiDecode List.rdropWhile
  rw [← List.map_reverse, List.dropWhile_map, hpad, List.map_reverse]

theorem mapError_ok {ε ε' α : Type} {f : ε → ε'} {x : Except ε α} {a : α} :
    x.mapError f = .ok a ↔ x = .ok a := by
  cases x <;> simp [Except.mapError]

variable {interpreter}

/-- **A cursor** is the Base64 of its payload and checksum, without the padding. -/
theorem encodeCursor_ok {values : List CursorValue} {cursor : Str} :
    encodeCursor interpreter values = .ok cursor ↔
      values ≠ [] ∧ ∃ text payload, dumps values = .ok text ∧ utf8Encode text = some payload ∧
        cursor = asciiDecode ((Base64.sextets (payload ++ checksum interpreter payload)).map
          Base64.letter) := by
  simp only [encodeCursor, except_bind_ok, check_ok, ofOption_ok, mapError_ok, rdropWhile_asciiDecode,
    Base64.rstrip_encode]
  constructor
  · rintro ⟨-, hne, text, htext, payload, hpayload, hreturn⟩
    cases hreturn
    exact ⟨hne, text, payload, htext, hpayload, rfl⟩
  · rintro ⟨hne, text, payload, htext, hpayload, rfl⟩
    exact ⟨(), hne, text, htext, payload, hpayload, rfl⟩

theorem base64_cursor (bytes : List Byte) {cursor : Str}
    (h : cursor = asciiDecode ((Base64.sextets bytes).map Base64.letter)) :
    (asciiEncode (cursor ++ List.replicate (Base64.padding cursor.length) (ch '=')) >>=
      Base64.decode) = some bytes := by
  have hpadded : cursor ++ List.replicate (Base64.padding cursor.length) (ch '=') =
      asciiDecode (Base64.encode bytes) := by
    rw [h]
    simp only [asciiDecode, Base64.encode, List.map_append, List.map_replicate, List.length_map]
    rfl
  rw [hpadded, asciiEncode_decode fun b => Base64.ascii_of_mem_encode]
  exact Base64.decode_encode bytes

theorem length_cursor (payload : List Byte) {cursor : Str} (h : cursor = asciiDecode
    ((Base64.sextets (payload ++ checksum interpreter payload)).map Base64.letter)) :
    cursor.length = (4 * (payload.length + checksumBytes) + 2) / 3 := by
  rw [h, asciiDecode, List.length_map, List.length_map, Base64.length_sextets, List.length_append,
    length_checksum interpreter]

theorem mapM_scalarOf (values : List CursorValue) :
    (values.map Value.scalar).mapM scalarOf = .ok values := by
  rw [mapM_ok_iff]
  induction values with
  | nil => exact .nil
  | cons value values ih => exact .cons rfl ih

/-- The sort keys whose cursors read back: short lists of scalars that JSON has exact texts for. -/
structure Fits (values : List CursorValue) : Prop where
  ne_nil : values ≠ []
  exact : ∀ value ∈ values, value.Exact
  short : ∃ text, dumps values = .ok text ∧ text.length ≤ 1520

/-- **A cursor reads back.** -/
theorem decodeCursor_encodeCursor {values : List CursorValue} {cursor : Str}
    (hexact : ∀ value ∈ values, value.Exact) (h : encodeCursor interpreter values = .ok cursor)
    (hlength : cursor.length ≤ maxCursorLength) : decodeCursor interpreter cursor = .ok values := by
  obtain ⟨hne, text, payload, htext, hpayload, hcursor⟩ := encodeCursor_ok.mp h
  obtain ⟨depth, hdepth⟩ : ∃ depth, interpreter.recursionLimit = depth + 1 :=
    ⟨interpreter.recursionLimit - 1, by have := interpreter.recursionLimit_pos; omega⟩
  have hchecksum := length_checksum interpreter payload
  have hraw := base64_cursor _ hcursor
  have hloads := loads_dumps depth hexact htext hpayload
  have hpos : 0 < payload.length := by
    cases payload with
    | nil => cases hloads
    | cons b payload => exact Nat.succ_pos _
  have htake : (payload ++ checksum interpreter payload).take
      ((payload ++ checksum interpreter payload).length - checksumBytes) = payload := by
    rw [List.length_append, hchecksum, Nat.add_sub_cancel]
    exact List.take_left
  have hdrop : (payload ++ checksum interpreter payload).drop
      ((payload ++ checksum interpreter payload).length - checksumBytes) =
        checksum interpreter payload := by
    rw [List.length_append, hchecksum, Nat.add_sub_cancel]
    exact List.drop_left
  have hlong : ¬ (payload ++ checksum interpreter payload).length ≤ checksumBytes := by
    rw [List.length_append, hchecksum]
    omega
  have hempty : cursor ≠ [] := by
    have hcursorLength := length_cursor payload hcursor
    rintro rfl
    rw [List.length_nil] at hcursorLength
    omega
  have hitems : ¬ (values.map Value.scalar).isEmpty := by simpa using hne
  simp only [decodeCursor, except_bind_ok, check_ok, ofOption_ok, mapError_ok]
  refine ⟨(), ⟨hempty, not_lt.mpr hlength⟩, _, hraw, (), hlong, (), ?_,
    .array (values.map .scalar), ?_, ?_⟩
  · rw [htake, hdrop]
  · rw [htake, hdepth, hloads]
  · exact except_bind_ok.mpr ⟨(), check_ok.mpr hitems, mapM_scalarOf values⟩

theorem Fits.exists_cursor {values : List CursorValue} (h : Fits values) (interpreter : Interpreter) :
    ∃ cursor, encodeCursor interpreter values = .ok cursor ∧ cursor ≠ [] ∧
      decodeCursor interpreter cursor = .ok values := by
  obtain ⟨text, htext, hshort⟩ := h.short
  obtain ⟨payload, hpayload, hdecode, -⟩ :=
    utf8Encode_ascii fun c hc => (ascii_dumps h.exact htext c hc).2
  obtain ⟨cursor, hcursor⟩ : ∃ cursor, cursor = asciiDecode
      ((Base64.sextets (payload ++ checksum interpreter payload)).map Base64.letter) := ⟨_, rfl⟩
  have hencode := encodeCursor_ok.mpr ⟨h.ne_nil, text, payload, htext, hpayload, hcursor⟩
  have hlength := length_cursor payload hcursor
  have hpayloadLength : payload.length = text.length := by
    rw [← hdecode, asciiDecode, List.length_map]
  refine ⟨cursor, hencode, fun hnil => ?_, decodeCursor_encodeCursor h.exact hencode ?_⟩
  · rw [hnil, List.length_nil, checksumBytes] at hlength
    omega
  · rw [hlength, maxCursorLength, checksumBytes]
    omega

end Cursor

end Trueup.Core
