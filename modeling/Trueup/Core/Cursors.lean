import Trueup.Core.Pagination
import Trueup.Lib.JsonErrors

/-! # Cursors from anywhere

`decode_cursor` reads whatever a client sends: the checksum has no key, so any payload may carry the
right one.

* `cursor_round_trip`: what `encode_cursor` wrote reads back.
* `decodeCursor_of_carries`, `decodeCursor_of_not_carries`: how far a cursor gets.
* `decode_cursor_total_iff`: it is read or refused as invalid exactly when its payload is a text, and
  one that is not nested too deep; with a level of recursion for every byte none is (`not_tooDeep`). -/

namespace Trueup.Core

open Trueup.Lib Trueup.Lib.Text Trueup.Lib.Unicode Trueup.Lib.Json Trueup.Lib.Transaction

variable {interpreter : Interpreter} {cursor : Str} {payload : List Byte}

/-! ### The way back -/

/-- Scalars have texts, if their integers have no more digits than the interpreter allows. -/
theorem exists_dumps {values : List CursorValue}
    (hdigits : ∀ n, Scalar.int n ∈ values → (decimal n.natAbs).length ≤ maxStrDigits) :
    ∃ text, dumps values = .ok text := by
  have hscalar : ∀ value ∈ values, ∃ s, dumpScalar value = .ok s := by
    intro value hvalue
    cases value with
    | null => exact ⟨_, rfl⟩
    | bool b => cases b <;> exact ⟨_, rfl⟩
    | int n => exact ⟨_, except_bind_ok.mpr ⟨(), check_ok.mpr (hdigits n hvalue), rfl⟩⟩
    | float literal => exact ⟨_, rfl⟩
    | str s => exact ⟨_, rfl⟩
  obtain ⟨items, hitems⟩ := exists_mapM_ok hscalar
  exact ⟨_, except_bind_ok.mpr ⟨items, hitems, rfl⟩⟩

/-- **Cursors round-trip**: a cursor that is not too long reads back, and there is one for every tuple
whose integers the interpreter has texts for. -/
theorem cursor_round_trip (interpreter : Interpreter) (values : List CursorValue) (hne : values ≠ [])
    (hexact : ∀ value ∈ values, value.Exact) :
    (∀ cursor, encodeCursor interpreter values = .ok cursor → cursor.length ≤ maxCursorLength →
      decodeCursor interpreter cursor = .ok values) ∧
    ((∀ n, Scalar.int n ∈ values → (decimal n.natAbs).length ≤ maxStrDigits) →
      ∃ cursor, encodeCursor interpreter values = .ok cursor) := by
  refine ⟨fun cursor h hlength => decodeCursor_encodeCursor hexact h hlength, fun hdigits => ?_⟩
  obtain ⟨text, htext⟩ := exists_dumps hdigits
  obtain ⟨payload, hpayload, -⟩ := utf8Encode_ascii fun c hc => (ascii_dumps hexact htext c hc).2
  exact ⟨_, encodeCursor_ok.mpr ⟨hne, text, payload, htext, hpayload, rfl⟩⟩

/-- A day, a place, a flag and a name that is not in ASCII. -/
def mixedKey : List CursorValue :=
  [.str (text "2024-01-01"), .int (-12), .bool true, .null, .str [0xe9, 0x1f600]]

/-- Its cursor reads back. -/
theorem cursor_round_trip_mixed : ∃ cursor,
    encodeCursor (interpreterOf ⟨List.replicate 32 7, by decide⟩) mixedKey = .ok cursor ∧
    decodeCursor (interpreterOf ⟨List.replicate 32 7, by decide⟩) cursor = .ok mixedKey := by
  obtain ⟨hback, hexists⟩ := cursor_round_trip (interpreterOf ⟨List.replicate 32 7, by decide⟩) mixedKey
    (by decide) (by decide)
  have hlength : ∀ cursor, encodeCursor (interpreterOf ⟨List.replicate 32 7, by decide⟩) mixedKey =
      .ok cursor → cursor.length ≤ maxCursorLength := by
    intro cursor h
    have hbound : (encodeCursor (interpreterOf ⟨List.replicate 32 7, by decide⟩) mixedKey).map
        List.length = .ok 87 := by decide
    rw [h] at hbound
    rw [Except.ok.inj hbound]
    decide
  obtain ⟨cursor, hcursor⟩ := hexists fun n hn => by
    obtain rfl : n = -12 := by simpa [mixedKey] using hn
    decide
  exact ⟨cursor, hcursor, hback cursor hcursor (hlength cursor hcursor)⟩

/-! ### How far a cursor gets -/

/-- The bytes that the letters of a cursor stand for, with the padding put back. -/
def rawBytes (cursor : Str) : Option (List Byte) :=
  asciiEncode (cursor ++ List.replicate (Base64.padding cursor.length) (ch '=')) >>= Base64.decode

/-- The cursor has the payload, with the right checksum. -/
structure Carries (interpreter : Interpreter) (cursor : Str) (payload : List Byte) : Prop where
  length : cursor ≠ [] ∧ ¬ cursor.length > maxCursorLength
  ne_nil : payload ≠ []
  raw : rawBytes cursor = some (payload ++ checksum interpreter payload)

/-- What is made of a payload that is JSON. -/
def cursorValues : Value → Except PaginationError (List CursorValue)
  | .array items => do
    check (¬ items.isEmpty) (.validationError "invalid pagination cursor")
    items.mapM scalarOf
  | _ => .error (.validationError "invalid pagination cursor")

theorem decodeCursor_eq (hlength : cursor ≠ [] ∧ ¬ cursor.length > maxCursorLength) {raw : List Byte}
    (hraw : rawBytes cursor = some raw) : decodeCursor interpreter cursor =
      (check (¬ raw.length ≤ checksumBytes) (.validationError "invalid pagination cursor") >>= fun _ =>
        check (raw.drop (raw.length - checksumBytes) =
          checksum interpreter (raw.take (raw.length - checksumBytes)))
          (.validationError "invalid pagination cursor") >>= fun _ =>
        (loads interpreter.recursionLimit
          (raw.take (raw.length - checksumBytes))).mapError ofJsonError >>= cursorValues) := by
  rw [decodeCursor, check, if_pos hlength]
  show (ofOption (rawBytes cursor) _ >>= _) = _
  rw [hraw]
  rfl

/-- **A payload with the right checksum** is read as JSON. -/
theorem decodeCursor_of_carries (h : Carries interpreter cursor payload) :
    decodeCursor interpreter cursor =
      (loads interpreter.recursionLimit payload).mapError ofJsonError >>= cursorValues := by
  have hchecksum := length_checksum interpreter payload
  have hpos := List.length_pos_of_ne_nil h.ne_nil
  have hcut : (payload ++ checksum interpreter payload).length - checksumBytes = payload.length := by
    rw [List.length_append, hchecksum, Nat.add_sub_cancel]
  have hlong : ¬ (payload ++ checksum interpreter payload).length ≤ checksumBytes := by
    rw [List.length_append, hchecksum]
    omega
  rw [decodeCursor_eq h.length h.raw, hcut, List.take_left, List.drop_left, check, check, if_pos hlong,
    if_pos rfl]
  rfl

/-- **Any other cursor** is refused. -/
theorem decodeCursor_of_not_carries (h : ∀ payload, ¬ Carries interpreter cursor payload) :
    decodeCursor interpreter cursor = .error (.validationError "invalid pagination cursor") := by
  by_cases hlength : cursor ≠ [] ∧ ¬ cursor.length > maxCursorLength
  · cases hraw : rawBytes cursor with
    | none =>
      rw [decodeCursor, check, if_pos hlength]
      show (ofOption (rawBytes cursor) _ >>= _) = _
      rw [hraw]
      rfl
    | some raw =>
      rw [decodeCursor_eq hlength hraw]
      by_cases hlong : ¬ raw.length ≤ checksumBytes
      · by_cases hchecksum : raw.drop (raw.length - checksumBytes) =
            checksum interpreter (raw.take (raw.length - checksumBytes))
        · refine absurd ⟨hlength, ?_, ?_⟩ (h (raw.take (raw.length - checksumBytes)))
          · rw [Ne, List.take_eq_nil_iff, not_or]
            exact ⟨by omega, fun hnil => hlong (by rw [hnil]; exact Nat.zero_le _)⟩
          · rw [← hchecksum, List.take_append_drop, hraw]
        · rw [check, check, if_pos hlong, if_neg hchecksum]
          rfl
      · rw [check, if_neg hlong]
        rfl
  · rw [decodeCursor, check, if_neg hlength]
    rfl

theorem cursorValues_total (decoded : Value) :
    (∃ values, cursorValues decoded = .ok values ∧ values ≠ []) ∨
      ∃ message, cursorValues decoded = .error (.validationError message) := by
  cases hresult : cursorValues decoded with
  | ok values =>
    refine Or.inl ⟨values, rfl, ?_⟩
    cases decoded with
    | array items =>
      obtain ⟨_, hitems, hvalues⟩ := except_bind_ok.mp hresult
      rintro rfl
      have hnil := (mapM_ok_iff.mp hvalues).length_eq
      exact check_ok.mp hitems (by simpa using hnil)
    | _ => cases hresult
  | error e =>
    refine Or.inr ?_
    have hfails : Fails (fun e => ∃ message, e = .validationError message) (cursorValues decoded) := by
      cases decoded with
      | array items =>
        refine fails_bind (fails_check ⟨_, rfl⟩) fun _ => fails_mapM (fun item => ?_) items
        cases item with
        | scalar value => exact fails_ok _
        | _ => exact fails_error ⟨_, rfl⟩
      | _ => exact fails_error ⟨_, rfl⟩
    obtain ⟨message, rfl⟩ := hfails e hresult
    exact ⟨message, rfl⟩

theorem Carries.length_le (h : Carries interpreter cursor payload) : payload.length ≤ maxStrDigits := by
  obtain ⟨letters, hletters, hdecode⟩ := Option.bind_eq_some_iff.mp h.raw
  have hraw := Base64.length_a2b_le hdecode
  have hascii := length_asciiEncode hletters
  have hlength := h.length.2
  have hpadding : Base64.padding cursor.length ≤ 3 := by
    unfold Base64.padding
    omega
  rw [List.length_append] at hraw hascii
  rw [List.length_replicate] at hascii
  unfold maxCursorLength at hlength
  unfold maxStrDigits
  omega

theorem Carries.unique {payload' : List Byte} (h : Carries interpreter cursor payload)
    (h' : Carries interpreter cursor payload') : payload = payload' := by
  have hraw := h.raw.symm.trans h'.raw
  have hchecksum := length_checksum interpreter payload
  have hchecksum' := length_checksum interpreter payload'
  exact (List.append_inj' (Option.some.inj hraw) (hchecksum.trans hchecksum'.symm)).1

/-- With a level of recursion for every byte, the nesting is no matter. -/
theorem not_tooDeep {s : Str} (hdecode : decodeBytes payload = some s)
    (hlevels : payload.length ≤ interpreter.recursionLimit) :
    ¬ TooDeep interpreter.recursionLimit (skipSpace s) := by
  intro hdeep
  have hlt := hdeep.lt_length
  have hspace := length_skipSpace_le s
  have hbytes := length_decodeBytes_le hdecode
  omega

/-- **Cursor decoding is total** on the payloads that are texts, and no others: the encoding that
`json` finds out fits, and no containers are nested deeper than the interpreter allows. -/
theorem decode_cursor_total_iff (interpreter : Interpreter) (cursor : Str) :
    ((∃ values, decodeCursor interpreter cursor = .ok values ∧ values ≠ []) ∨
      ∃ message, decodeCursor interpreter cursor = .error (.validationError message)) ↔
    ∀ payload, Carries interpreter cursor payload →
      ∃ s, decodeBytes payload = some s ∧ ¬ TooDeep interpreter.recursionLimit (skipSpace s) := by
  by_cases hcarries : ∃ payload, Carries interpreter cursor payload
  · obtain ⟨payload, hpayload⟩ := hcarries
    rw [decodeCursor_of_carries hpayload]
    constructor
    · intro htotal payload' hpayload'
      obtain rfl := hpayload.unique hpayload'
      cases hdecode : decodeBytes payload with
      | none =>
        rw [loads_of_undecodable hdecode] at htotal
        rcases htotal with ⟨values, h, -⟩ | ⟨message, h⟩ <;> cases h
      | some s =>
        refine ⟨s, rfl, fun hdeep => ?_⟩
        rw [loads_of_tooDeep hdecode hdeep] at htotal
        rcases htotal with ⟨values, h, -⟩ | ⟨message, h⟩ <;> cases h
    · intro h
      obtain ⟨s, hdecode, hshallow⟩ := h payload hpayload
      cases hloads : loads interpreter.recursionLimit payload with
      | ok decoded => exact cursorValues_total decoded
      | error e =>
        obtain rfl | hnone | ⟨s', hs', hdeep⟩ := loads_error hpayload.length_le hloads
        · exact Or.inr ⟨_, rfl⟩
        · rw [hdecode] at hnone
          cases hnone
        · rw [hdecode] at hs'
          cases hs'
          exact absurd hdeep hshallow
  · rw [not_exists] at hcarries
    exact iff_of_true (Or.inr ⟨_, decodeCursor_of_not_carries hcarries⟩)
      fun payload h => absurd h (hcarries payload)

/-- The cursor of a payload that is no text, with the right checksum. -/
def strayCursor : Str := text "_6gQCuaqGUDQtmO7Mc1GYUI"

/-- The SHA-256 digest of the byte `0xff`. -/
def strayDigest : { digest : List Byte // digest.length = 32 } :=
  ⟨[168, 16, 10, 230, 170, 25, 64, 208, 182, 99, 187, 49, 205, 70, 97, 66, 235, 189, 189, 81, 135, 19,
    27, 146, 217, 56, 24, 152, 120, 50, 235, 137], rfl⟩

/-- A `UnicodeDecodeError` leaves `decode_cursor`. -/
theorem stray_byte_escapes : ¬ ∀ (interpreter : Interpreter) (cursor : Str),
    (∃ values, decodeCursor interpreter cursor = .ok values ∧ values ≠ []) ∨
      ∃ message, decodeCursor interpreter cursor = .error (.validationError message) := by
  intro h
  have hresult : decodeCursor (interpreterOf strayDigest) strayCursor = .error .unicodeDecodeError := by
    decide +kernel
  rcases h (interpreterOf strayDigest) strayCursor with ⟨values, hok, -⟩ | ⟨message, herror⟩
  · cases hresult.symm.trans hok
  · cases hresult.symm.trans herror

end Trueup.Core
