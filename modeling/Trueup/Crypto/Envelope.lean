import Trueup.Lib.Transaction
import Trueup.Lib.Utf8

/-! # Encryption envelopes

`core/crypto.py` and `integrations/crypto/local_cipher.py`. The authenticated cipher of the
`cryptography` package is a parameter, `Aesgcm`.

* `unpackEnvelope_ok_iff`: unpacking returns the parts exactly of what packing made of them, and
  raises `DecryptionError` on everything else (`envelope_round_trip`).
* `LocalDevCipher.decrypt_ok_iff`: the local cipher reads what it wrote, and nothing else. -/

namespace Trueup.Crypto

open Trueup.Lib Trueup.Lib.Text Trueup.Lib.Unicode

abbrev Bytes := List Byte

/-- What the ciphers raise. -/
inductive Failure
  | cryptoError (message : String)
  | decryptionError (message : String)
  | overflowError
  | valueError (message : String)
  | unicodeEncodeError
  | unicodeDecodeError
  | azureError
  | runtimeError (message : String)
  deriving DecidableEq

def envelopeVersion : Byte := 1

def nonceBytes : ℕ := 12

def dekBytes : ℕ := 32

/-- `n.to_bytes(2, "big")`. -/
def toBytes (n : ℕ) : Except Failure Bytes :=
  if h : n < 0x10000 then .ok [⟨n / 0x100, by omega⟩, ⟨n % 0x100, by omega⟩] else .error .overflowError

/-- `bytes[start:stop]`. -/
def slice (bytes : Bytes) (start stop : ℕ) : Bytes := (bytes.take stop).drop start

def packEnvelope (wrappedDek nonce ciphertext : Bytes) : Except Failure Bytes :=
  if nonce.length ≠ nonceBytes then
    .error (.cryptoError ("nonce must be 12 bytes, got " ++ toString nonce.length))
  else do
    let length ← toBytes wrappedDek.length
    return [envelopeVersion] ++ length ++ wrappedDek ++ nonce ++ ciphertext

def notAnEnvelope : Failure := .decryptionError "stored value is not a valid encryption envelope"

def unpackEnvelope (envelope : Bytes) : Except Failure (Bytes × Bytes × Bytes) :=
  let header := 1 + 2
  match envelope with
  | version :: _ :: _ :: _ =>
    if version ≠ envelopeVersion then
      .error (.decryptionError ("unsupported encryption envelope version: " ++ toString version.val))
    else
      let wrappedLen := unit true (slice envelope 1 3)
      let nonceStart := header + wrappedLen
      let ciphertextStart := nonceStart + nonceBytes
      if envelope.length < ciphertextStart then .error notAnEnvelope
      else .ok (slice envelope header nonceStart, slice envelope nonceStart ciphertextStart,
        envelope.drop ciphertextStart)
  | _ => .error notAnEnvelope

/-! ### The round trip -/

theorem packEnvelope_ok {wrappedDek nonce ciphertext envelope : Bytes} :
    packEnvelope wrappedDek nonce ciphertext = .ok envelope ↔
      nonce.length = nonceBytes ∧ ∃ high low : Byte, wrappedDek.length = 0x100 * high + low ∧
        envelope = envelopeVersion :: high :: low :: (wrappedDek ++ nonce ++ ciphertext) := by
  unfold packEnvelope toBytes
  split_ifs with hnonce hlength
  · exact ⟨fun h => (by cases h), fun h => absurd h.1 hnonce⟩
  · rw [not_not] at hnonce
    constructor
    · intro h
      cases h
      exact ⟨hnonce, ⟨wrappedDek.length / 0x100, by omega⟩, ⟨wrappedDek.length % 0x100, by omega⟩,
        by dsimp only; omega, rfl⟩
    · rintro ⟨-, high, low, hlen, rfl⟩
      have hhigh : (⟨wrappedDek.length / 0x100, by omega⟩ : Byte) = high := Fin.ext (by dsimp only; omega)
      have hlow : (⟨wrappedDek.length % 0x100, by omega⟩ : Byte) = low := Fin.ext (by dsimp only; omega)
      rw [hhigh, hlow]
      rfl
  · refine ⟨fun h => (by cases h), ?_⟩
    rintro ⟨-, high, low, hlen, -⟩
    omega

theorem slice_parts (version high low : Byte) (rest : Bytes) (n : ℕ) :
    let envelope := version :: high :: low :: rest
    slice envelope (1 + 2) (1 + 2 + n) = rest.take n ∧
      slice envelope (1 + 2 + n) (1 + 2 + n + nonceBytes) = (rest.drop n).take nonceBytes ∧
      envelope.drop (1 + 2 + n + nonceBytes) = rest.drop (n + nonceBytes) := by
  have htake : ∀ m, (version :: high :: low :: rest).take (1 + 2 + m) =
      version :: high :: low :: rest.take m := fun m => by
    rw [show 1 + 2 + m = m + 1 + 1 + 1 by omega]
    rfl
  have hdrop : ∀ (m : ℕ) (rest : Bytes), (version :: high :: low :: rest).drop (1 + 2 + m) =
      rest.drop m := fun m rest => by
    rw [show 1 + 2 + m = m + 1 + 1 + 1 by omega]
    rfl
  refine ⟨?_, ?_, ?_⟩
  · rw [slice, htake]
    rfl
  · rw [slice, Nat.add_assoc (1 + 2), htake, hdrop, List.drop_take, Nat.add_sub_cancel_left]
  · rw [Nat.add_assoc (1 + 2), hdrop]

/-- **What unpacking returns**: the parts that pack to the envelope. -/
theorem unpackEnvelope_ok_iff {wrappedDek nonce ciphertext envelope : Bytes} :
    unpackEnvelope envelope = .ok (wrappedDek, nonce, ciphertext) ↔
      packEnvelope wrappedDek nonce ciphertext = .ok envelope := by
  rw [packEnvelope_ok]
  constructor
  · intro h
    unfold unpackEnvelope at h
    split at h
    · rename_i version high low rest
      dsimp only at h
      split_ifs at h with hversion hlength
      rw [not_not] at hversion
      have hunit : unit true (slice (version :: high :: low :: rest) 1 3) = 0x100 * high + low := by
        simp [slice, unit]
      rw [hunit] at hlength h
      obtain ⟨hwrapped, hnonce, hciphertext⟩ := slice_parts version high low rest (0x100 * high + low)
      rw [hwrapped, hnonce, hciphertext] at h
      cases h
      simp only [List.length_cons] at hlength
      refine ⟨?_, high, low, ?_, ?_⟩
      · rw [List.length_take, List.length_drop]
        omega
      · rw [List.length_take]
        omega
      · generalize 0x100 * high.val + low.val = n
        rw [hversion, List.append_assoc, ← List.drop_drop, List.take_append_drop, List.take_append_drop]
    · cases h
  · rintro ⟨hnonce, high, low, hlength, rfl⟩
    have hunit : unit true (slice (envelopeVersion :: high :: low ::
        (wrappedDek ++ nonce ++ ciphertext)) 1 3) = 0x100 * high + low := by
      simp [slice, unit]
    unfold unpackEnvelope
    dsimp only
    obtain ⟨hwrapped, hslice, hciphertext⟩ := slice_parts envelopeVersion high low
      (wrappedDek ++ nonce ++ ciphertext) wrappedDek.length
    rw [if_neg (not_not.mpr rfl), hunit, ← hlength, if_neg, hwrapped, hslice, hciphertext, ← hnonce,
      List.append_assoc, List.take_left, List.drop_left, List.take_left, ← List.drop_drop,
      List.drop_left, List.drop_left]
    simp only [List.length_cons, List.length_append]
    omega

theorem unpackEnvelope_error {envelope : Bytes} {e : Failure} (h : unpackEnvelope envelope = .error e) :
    ∃ message, e = .decryptionError message := by
  unfold unpackEnvelope at h
  split at h
  · dsimp only at h
    split_ifs at h <;> cases h <;> exact ⟨_, rfl⟩
  · cases h
    exact ⟨_, rfl⟩

/-- **The envelope round trip.** Of every string of bytes, unpacking returns parts exactly when they
pack to it, and where none do it raises `DecryptionError`. -/
theorem envelope_round_trip (envelope : Bytes) :
    (∀ wrappedDek nonce ciphertext, unpackEnvelope envelope = .ok (wrappedDek, nonce, ciphertext) ↔
      packEnvelope wrappedDek nonce ciphertext = .ok envelope) ∧
    ((∀ wrappedDek nonce ciphertext, packEnvelope wrappedDek nonce ciphertext ≠ .ok envelope) ↔
      ∃ message, unpackEnvelope envelope = .error (.decryptionError message)) := by
  refine ⟨fun _ _ _ => unpackEnvelope_ok_iff, fun hnone => ?_, ?_⟩
  · cases hunpack : unpackEnvelope envelope with
    | error e =>
      obtain ⟨message, rfl⟩ := unpackEnvelope_error hunpack
      exact ⟨message, rfl⟩
    | ok parts => exact absurd (unpackEnvelope_ok_iff.mp hunpack) (hnone _ _ _)
  · rintro ⟨message, herror⟩ wrappedDek nonce ciphertext hpack
    rw [unpackEnvelope_ok_iff.mpr hpack] at herror
    cases herror

/-! ### The authenticated cipher -/

/-- `AESGCM` of the `cryptography` package, for a key of a valid length: `encrypt` and `decrypt`
without associated data, where no plaintext is `InvalidTag`. -/
structure Aesgcm where
  encrypt (key nonce data : Bytes) : Bytes
  decrypt (key nonce data : Bytes) : Option Bytes

/-- A key and a nonce decrypt what they encrypted and nothing else, and a ciphertext is longer by a tag
of 16 bytes. -/
structure Aesgcm.Faithful (aesgcm : Aesgcm) : Prop where
  decrypt_eq_some : ∀ key nonce data plaintext,
    aesgcm.decrypt key nonce data = some plaintext ↔ data = aesgcm.encrypt key nonce plaintext
  length_encrypt : ∀ key nonce data, (aesgcm.encrypt key nonce data).length = data.length + 16

def unreadable : Failure := .decryptionError "stored value could not be decrypted"

/-- `AESGCM(key)`: the key has 128, 192 or 256 bits. -/
def aesgcmKey (key : Bytes) : Except Failure Bytes :=
  if key.length = 16 ∨ key.length = 24 ∨ key.length = 32 then .ok key
  else .error (.valueError "AESGCM key must be 128, 192, or 256 bits.")

/-- `decrypt(nonce, data, None)`, under the handler of `InvalidTag`. -/
def Aesgcm.open (aesgcm : Aesgcm) (key nonce data : Bytes) : Except Failure Bytes :=
  match aesgcm.decrypt key nonce data with
  | none => .error unreadable
  | some plaintext => .ok plaintext

/-- `plaintext.encode("utf-8")`. -/
def encodeText (plaintext : Str) : Except Failure Bytes :=
  match utf8Encode plaintext with
  | none => .error .unicodeEncodeError
  | some bytes => .ok bytes

/-- `plaintext.decode("utf-8")`. -/
def decodeText (plaintext : Bytes) : Except Failure Str :=
  match decodeUtf8 plaintext with
  | none => .error .unicodeDecodeError
  | some text => .ok text

theorem decodeText_ok {plaintext : Str} {bytes : Bytes} :
    decodeText bytes = .ok plaintext ↔ encodeText plaintext = .ok bytes := by
  have hdecode : decodeText bytes = .ok plaintext ↔ decodeUtf8 bytes = some plaintext := by
    unfold decodeText
    cases decodeUtf8 bytes <;> simp
  have hencode : encodeText plaintext = .ok bytes ↔ utf8Encode plaintext = some bytes := by
    unfold encodeText
    cases utf8Encode plaintext <;> simp
  rw [hdecode, hencode, decodeUtf8_eq_some]

theorem aesgcmKey_ok {key key' : Bytes} : aesgcmKey key = .ok key' ↔
    (key.length = 16 ∨ key.length = 24 ∨ key.length = 32) ∧ key' = key := by
  unfold aesgcmKey
  split_ifs with hlength
  · exact ⟨fun h => ⟨hlength, (Except.ok.inj h).symm⟩, fun h => h.2 ▸ rfl⟩
  · exact ⟨fun h => (by cases h), fun h => absurd h.1 hlength⟩

theorem Aesgcm.Faithful.open_ok {aesgcm : Aesgcm} (h : aesgcm.Faithful) {key nonce data plaintext : Bytes} :
    aesgcm.open key nonce data = .ok plaintext ↔ data = aesgcm.encrypt key nonce plaintext := by
  rw [← h.decrypt_eq_some]
  unfold Aesgcm.open
  cases aesgcm.decrypt key nonce data <;> simp

/-! ### The local cipher -/

/-- `LocalDevCipher`: its key-encrypting key has the length that its constructor checks. -/
structure LocalDevCipher where
  kek : Bytes
  length_kek : kek.length = dekBytes

namespace LocalDevCipher

variable (aesgcm : Aesgcm) (cipher : LocalDevCipher)

/-- `encrypt`, with what `os.urandom` gives for the data key and the two nonces. -/
def encrypt (dek nonce wrapNonce : Bytes) (plaintext : Str) : Except Failure Bytes := do
  let key ← aesgcmKey dek
  let data ← encodeText plaintext
  let ciphertext := aesgcm.encrypt key nonce data
  let wrappedDek := wrapNonce ++ aesgcm.encrypt cipher.kek wrapNonce dek
  packEnvelope wrappedDek nonce ciphertext

def decrypt (envelope : Bytes) : Except Failure Str := do
  let (wrappedDek, nonce, ciphertext) ← unpackEnvelope envelope
  if wrappedDek.length ≤ nonceBytes then .error notAnEnvelope
  else
    let wrapNonce := wrappedDek.take nonceBytes
    let wrapped := wrappedDek.drop nonceBytes
    let dek ← aesgcm.open cipher.kek wrapNonce wrapped
    let key ← aesgcmKey dek
    let plaintext ← aesgcm.open key nonce ciphertext
    decodeText plaintext

variable {aesgcm}

/-- **What the local cipher reads** is what it wrote: an envelope decrypts to a text exactly when
encrypting the text, with some data key and nonces, gives the envelope. -/
theorem decrypt_ok_iff (h : aesgcm.Faithful) (envelope : Bytes) (plaintext : Str) :
    decrypt aesgcm cipher envelope = .ok plaintext ↔ ∃ dek nonce wrapNonce,
      wrapNonce.length = nonceBytes ∧
        encrypt aesgcm cipher dek nonce wrapNonce plaintext = .ok envelope := by
  unfold decrypt encrypt
  simp only [Transaction.except_bind_ok, aesgcmKey_ok]
  constructor
  · rintro ⟨⟨wrappedDek, nonce, ciphertext⟩, hunpack, hread⟩
    dsimp only at hread
    split_ifs at hread with hlength
    simp only [Transaction.except_bind_ok, aesgcmKey_ok, h.open_ok] at hread
    obtain ⟨_, hwrapped, dek, ⟨hkey, rfl⟩, data, rfl, htext⟩ := hread
    refine ⟨dek, nonce, wrappedDek.take nonceBytes, ?_, dek, ⟨hkey, rfl⟩, data, decodeText_ok.mp htext, ?_⟩
    · rw [List.length_take]
      omega
    · rw [← hwrapped, List.take_append_drop]
      exact unpackEnvelope_ok_iff.mp hunpack
  · rintro ⟨_, nonce, wrapNonce, hnonce, dek, ⟨hkey, rfl⟩, data, htext, hpack⟩
    refine ⟨_, unpackEnvelope_ok_iff.mpr hpack, ?_⟩
    dsimp only
    have hlength := h.length_encrypt cipher.kek wrapNonce dek
    rw [if_neg (by rw [List.length_append]; omega), ← hnonce, List.take_left, List.drop_left]
    simp only [Transaction.except_bind_ok, aesgcmKey_ok, h.open_ok]
    exact ⟨dek, rfl, dek, ⟨hkey, rfl⟩, data, rfl, decodeText_ok.mpr htext⟩

/-- What the cipher cannot write has no UTF-8: with a data key and nonces of their lengths, encrypting
raises `UnicodeEncodeError` or returns. -/
theorem encrypt_returns (h : aesgcm.Faithful) {dek nonce wrapNonce : Bytes} (hdek : dek.length = dekBytes)
    (hnonce : nonce.length = nonceBytes) (hwrapNonce : wrapNonce.length = nonceBytes) (plaintext : Str) :
    encrypt aesgcm cipher dek nonce wrapNonce plaintext = .error .unicodeEncodeError ∨
      ∃ envelope, encrypt aesgcm cipher dek nonce wrapNonce plaintext = .ok envelope := by
  have hkey : aesgcmKey dek = .ok dek := aesgcmKey_ok.mpr ⟨Or.inr (Or.inr hdek), rfl⟩
  have hwrapped : (wrapNonce ++ aesgcm.encrypt cipher.kek wrapNonce dek).length = 60 := by
    rw [List.length_append, h.length_encrypt, hwrapNonce, hdek]
    rfl
  cases htext : encodeText plaintext with
  | error e =>
    have he : e = .unicodeEncodeError := by
      unfold encodeText at htext
      split at htext <;> cases htext
      rfl
    refine Or.inl ?_
    unfold encrypt
    rw [hkey, htext, he]
    rfl
  | ok data =>
    refine Or.inr ⟨_, Transaction.except_bind_ok.mpr ⟨dek, hkey, Transaction.except_bind_ok.mpr
      ⟨data, htext, packEnvelope_ok.mpr ⟨hnonce, 0, 60, ?_, rfl⟩⟩⟩⟩
    rw [hwrapped]
    rfl

/-- A cipher that puts a tag after the plaintext. -/
def tagged : Aesgcm where
  encrypt _ _ data := data ++ List.replicate 16 0
  decrypt _ _ data := if data = data.take (data.length - 16) ++ List.replicate 16 0 then
    some (data.take (data.length - 16)) else none

theorem tagged_faithful : tagged.Faithful where
  decrypt_eq_some key nonce data plaintext := by
    unfold tagged
    dsimp only
    constructor
    · intro h
      split_ifs at h with hdata
      cases h
      exact hdata
    · rintro rfl
      have htake : (plaintext ++ List.replicate 16 (0 : Byte)).take
          ((plaintext ++ List.replicate 16 (0 : Byte)).length - 16) = plaintext := by
        rw [List.length_append, List.length_replicate, Nat.add_sub_cancel, List.take_left]
      rw [htake, if_pos rfl]
  length_encrypt key nonce data := by simp [tagged]

def zeroKey : LocalDevCipher := ⟨List.replicate dekBytes 0, List.length_replicate⟩

theorem decrypt_ok_iff_secret :
    decrypt tagged zeroKey ((encrypt tagged zeroKey (List.replicate dekBytes 1)
      (List.replicate nonceBytes 2) (List.replicate nonceBytes 3) (text "secret")).toOption.getD []) =
        .ok (text "secret") :=
  (decrypt_ok_iff zeroKey tagged_faithful _ _).mpr ⟨List.replicate dekBytes 1,
    List.replicate nonceBytes 2, List.replicate nonceBytes 3, rfl, by decide⟩

end LocalDevCipher

end Trueup.Crypto
