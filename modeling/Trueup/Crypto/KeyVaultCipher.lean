import Trueup.Crypto.Envelope
import Trueup.Lib.LruCache

/-! # The Key Vault cipher

`KeyVaultCipher` of `integrations/azure/keyvault_cipher.py`, with the cache of its data keys. The vault
is a parameter: the key it unwraps from some bytes, if it does. It may be down at any call, and the
time of each reading of the monotonic clock is given with the call.

* `decrypt_transparent`: in every run, the cache changes no answer: a call answers what the vault alone
  would answer, or raises `RuntimeError` because the vault is down.
* `length_run_le`: the cache has no more entries than its size.
* `decrypt_recent`: a value read soon after it was written, and before many others, is read even when
  the vault is down. -/

namespace Trueup.Crypto.KeyVaultCipher

open Trueup.Lib Trueup.Lib.Text

/-- Ticks of `time.monotonic()`. -/
abbrev Ticks := ℤ

abbrev DekCache := LruCache Bytes Ticks Bytes

/-- What the constructor is given. -/
structure Config where
  cacheSize : ℕ
  cacheTtlSeconds : Ticks

/-- `DEFAULT_CACHE_SIZE` and `DEFAULT_CACHE_TTL_SECONDS`. -/
def Config.default : Config := ⟨512, 300⟩

/-- A call of `encrypt`: what `os.urandom` gives, the answer of `wrap_key`, or none if it raises, and
the time at which the key is cached. -/
structure EncryptCall where
  plaintext : Str
  dek : Bytes
  nonce : Bytes
  wrapped : Option Bytes
  now : Ticks

/-- A call of `decrypt`: the answer of `unwrap_key`, or none if it raises, and the times of the look
into the cache and of the put. -/
structure DecryptCall where
  envelope : Bytes
  unwrapped : Option Bytes
  lookAt : Ticks
  putAt : Ticks

def unwrapFailed : Failure := .runtimeError "Key Vault unwrap failed"

section Calls
variable (aesgcm : Aesgcm) (config : Config)

def put (cache : DekCache) (wrapped dek : Bytes) (now : Ticks) : DekCache :=
  LruCache.put config.cacheSize cache wrapped dek (now + config.cacheTtlSeconds)

def encrypt (cache : DekCache) (call : EncryptCall) : Except Failure Bytes × DekCache :=
  match aesgcmKey call.dek, encodeText call.plaintext, call.wrapped with
  | .error e, _, _ => (.error e, cache)
  | .ok _, .error e, _ => (.error e, cache)
  | .ok _, .ok _, none => (.error .azureError, cache)
  | .ok key, .ok data, some wrappedDek =>
    (packEnvelope wrappedDek call.nonce (aesgcm.encrypt key call.nonce data),
      put config cache wrappedDek call.dek call.now)

/-- What `decrypt` does with the data key. -/
def readWith (dek nonce ciphertext : Bytes) : Except Failure Str := do
  let key ← aesgcmKey dek
  let plaintext ← aesgcm.open key nonce ciphertext
  decodeText plaintext

def decrypt (cache : DekCache) (call : DecryptCall) : Except Failure Str × DekCache :=
  match unpackEnvelope call.envelope with
  | .error e => (.error e, cache)
  | .ok (wrappedDek, nonce, ciphertext) =>
    match LruCache.get cache wrappedDek call.lookAt, call.unwrapped with
    | (some dek, looked), _ => (readWith aesgcm dek nonce ciphertext, looked)
    | (none, looked), none => (.error unwrapFailed, looked)
    | (none, looked), some dek =>
      (readWith aesgcm dek nonce ciphertext, put config looked wrappedDek dek call.putAt)

/-- A call. -/
inductive Call
  | encrypt (call : EncryptCall)
  | decrypt (call : DecryptCall)

/-- The cache after a call. -/
def after (cache : DekCache) : Call → DekCache
  | .encrypt call => (encrypt aesgcm config cache call).2
  | .decrypt call => (decrypt aesgcm config cache call).2

/-- The cache of a process after some calls. -/
def run (calls : List Call) : DekCache := calls.foldl (after aesgcm config) ∅

end Calls

/-! ### The vault -/

section Vault
variable {aesgcm : Aesgcm} {config : Config} {vault : Bytes → Option Bytes} {cache : DekCache}

/-- The vault gave the answer: it wraps a key to bytes that it unwraps to the key, and unwraps what it
unwraps unless it is down. -/
def Call.Answered (vault : Bytes → Option Bytes) : Call → Prop
  | .encrypt call => ∀ wrapped, call.wrapped = some wrapped → vault wrapped = some call.dek
  | .decrypt call => ∀ wrapped nonce ciphertext,
      unpackEnvelope call.envelope = .ok (wrapped, nonce, ciphertext) →
        call.unwrapped = none ∨ call.unwrapped = vault wrapped

/-- What the vault alone makes of an envelope. -/
def readPlain (aesgcm : Aesgcm) (vault : Bytes → Option Bytes) (envelope : Bytes) : Except Failure Str :=
  match unpackEnvelope envelope with
  | .error e => .error e
  | .ok (wrapped, nonce, ciphertext) =>
    match vault wrapped with
    | none => .error unwrapFailed
    | some dek => readWith aesgcm dek nonce ciphertext

/-- Every key that is cached is the one the vault unwraps. -/
def Sound (vault : Bytes → Option Bytes) (cache : DekCache) : Prop :=
  ∀ wrapped entry, (wrapped, entry) ∈ cache.rows → vault wrapped = some entry.2

theorem Sound.put (h : Sound vault cache) {wrapped dek : Bytes} (hkey : vault wrapped = some dek)
    (now : Ticks) : Sound vault (put config cache wrapped dek now) := by
  intro wrapped' entry hmem
  rcases LruCache.mem_touch.mp (LruCache.mem_of_mem_evict hmem) with ⟨hold, -⟩ | ⟨rfl, rfl⟩
  · exact h wrapped' entry hold
  · exact hkey

theorem Sound.get (h : Sound vault cache) (wrapped : Bytes) (now : Ticks) :
    Sound vault (LruCache.get cache wrapped now).2 :=
  fun wrapped' entry hmem => h wrapped' entry (LruCache.mem_of_mem_get hmem)

theorem Sound.vault_of_get (h : Sound vault cache) {wrapped dek : Bytes} {now : Ticks}
    (hget : (LruCache.get cache wrapped now).1 = some dek) : vault wrapped = some dek := by
  obtain ⟨expiresAt, hmem, -⟩ := LruCache.get_eq_some.mp hget
  exact h wrapped _ hmem

/-- What `decrypt` did: it did not get to the cache, or found the key there, or asked the vault. -/
inductive Decrypted (aesgcm : Aesgcm) (config : Config) (cache : DekCache) (call : DecryptCall) :
    Except Failure Str × DekCache → Prop
  | rejected (e : Failure) (unpack : unpackEnvelope call.envelope = .error e) :
      Decrypted aesgcm config cache call (.error e, cache)
  | found (wrapped nonce ciphertext dek : Bytes)
      (unpack : unpackEnvelope call.envelope = .ok (wrapped, nonce, ciphertext))
      (hit : (LruCache.get cache wrapped call.lookAt).1 = some dek) :
      Decrypted aesgcm config cache call
        (readWith aesgcm dek nonce ciphertext, (LruCache.get cache wrapped call.lookAt).2)
  | failed (wrapped nonce ciphertext : Bytes)
      (unpack : unpackEnvelope call.envelope = .ok (wrapped, nonce, ciphertext))
      (miss : (LruCache.get cache wrapped call.lookAt).1 = none) (down : call.unwrapped = none) :
      Decrypted aesgcm config cache call
        (.error unwrapFailed, (LruCache.get cache wrapped call.lookAt).2)
  | asked (wrapped nonce ciphertext dek : Bytes)
      (unpack : unpackEnvelope call.envelope = .ok (wrapped, nonce, ciphertext))
      (miss : (LruCache.get cache wrapped call.lookAt).1 = none) (answer : call.unwrapped = some dek) :
      Decrypted aesgcm config cache call (readWith aesgcm dek nonce ciphertext,
        put config (LruCache.get cache wrapped call.lookAt).2 wrapped dek call.putAt)

theorem decrypted (aesgcm : Aesgcm) (config : Config) (cache : DekCache) (call : DecryptCall) :
    Decrypted aesgcm config cache call (decrypt aesgcm config cache call) := by
  unfold decrypt
  split
  · exact .rejected _ ‹_›
  · rename_i wrapped nonce ciphertext hunpack
    split
    · rename_i dek looked hget
      have hsome : (LruCache.get cache wrapped call.lookAt).1 = some dek := by rw [hget]
      have hlooked : (LruCache.get cache wrapped call.lookAt).2 = looked := by rw [hget]
      exact hlooked ▸ .found wrapped nonce ciphertext dek hunpack hsome
    · rename_i looked hget hdown
      have hnone : (LruCache.get cache wrapped call.lookAt).1 = none := by rw [hget]
      have hlooked : (LruCache.get cache wrapped call.lookAt).2 = looked := by rw [hget]
      exact hlooked ▸ .failed wrapped nonce ciphertext hunpack hnone hdown
    · rename_i looked dek hget hanswer
      have hnone : (LruCache.get cache wrapped call.lookAt).1 = none := by rw [hget]
      have hlooked : (LruCache.get cache wrapped call.lookAt).2 = looked := by rw [hget]
      exact hlooked ▸ .asked wrapped nonce ciphertext dek hunpack hnone hanswer

theorem encrypt_ok {call : EncryptCall} {envelope : Bytes}
    (h : (encrypt aesgcm config cache call).1 = .ok envelope) :
    ∃ wrapped data, call.wrapped = some wrapped ∧ aesgcmKey call.dek = .ok call.dek ∧
      encodeText call.plaintext = .ok data ∧
      unpackEnvelope envelope = .ok (wrapped, call.nonce, aesgcm.encrypt call.dek call.nonce data) ∧
      (encrypt aesgcm config cache call).2 = put config cache wrapped call.dek call.now := by
  unfold encrypt at h ⊢
  split at h
  · cases h
  · cases h
  · cases h
  · rename_i key data wrapped hkey htext hwrapped
    obtain ⟨-, rfl⟩ := aesgcmKey_ok.mp hkey
    rw [hkey, htext, hwrapped]
    exact ⟨wrapped, data, rfl, rfl, rfl, unpackEnvelope_ok_iff.mpr h, rfl⟩

/-- **No call makes the cache wrong.** -/
theorem Sound.after (h : Sound vault cache) {call : Call} (hcall : call.Answered vault) :
    Sound vault (after aesgcm config cache call) := by
  cases call with
  | encrypt call =>
    show Sound vault (encrypt aesgcm config cache call).2
    unfold encrypt
    split
    · exact h
    · exact h
    · exact h
    · exact h.put (hcall _ ‹_›) _
  | decrypt call =>
    show Sound vault (decrypt aesgcm config cache call).2
    have hdecrypted := decrypted aesgcm config cache call
    generalize decrypt aesgcm config cache call = result at hdecrypted
    cases hdecrypted with
    | rejected => exact h
    | found wrapped => exact h.get wrapped _
    | failed wrapped => exact h.get wrapped _
    | asked wrapped nonce ciphertext dek hunpack hmiss hanswer =>
      refine (h.get wrapped _).put ?_ _
      rcases hcall wrapped nonce ciphertext hunpack with hdown | hvault
      · rw [hanswer] at hdown
        cases hdown
      · exact hvault.symm.trans hanswer

theorem sound_run {calls : List Call} (hcalls : ∀ call ∈ calls, call.Answered vault) :
    Sound vault (run aesgcm config calls) := by
  induction calls using List.reverseRecOn with
  | nil => exact fun wrapped entry hmem => by cases hmem
  | append_singleton calls call ih =>
    unfold run at ih ⊢
    rw [List.foldl_append]
    exact (ih fun call' hmem => hcalls call' (List.mem_append_left _ hmem)).after
      (hcalls call (List.mem_append_right _ (List.mem_singleton_self _)))

/-- There are never more data keys than fit. -/
theorem length_run_le (calls : List Call) :
    (run aesgcm config calls).rows.length ≤ config.cacheSize := by
  induction calls using List.reverseRecOn with
  | nil => exact Nat.zero_le _
  | append_singleton calls call ih =>
    unfold run at ih ⊢
    rw [List.foldl_append]
    generalize calls.foldl (after aesgcm config) ∅ = cache at ih
    cases call with
    | encrypt call =>
      show (encrypt aesgcm config cache call).2.rows.length ≤ _
      unfold encrypt
      split
      · exact ih
      · exact ih
      · exact ih
      · exact LruCache.length_evict_le _
    | decrypt call =>
      show (decrypt aesgcm config cache call).2.rows.length ≤ _
      have hdecrypted := decrypted aesgcm config cache call
      generalize decrypt aesgcm config cache call = result at hdecrypted
      cases hdecrypted with
      | rejected => exact ih
      | found | failed => exact LruCache.length_get_le.trans ih
      | asked => exact LruCache.length_evict_le _

theorem readWith_encrypt (haesgcm : aesgcm.Faithful) {dek data : Bytes} {plaintext : Str}
    (hkey : aesgcmKey dek = .ok dek) (htext : encodeText plaintext = .ok data) (nonce : Bytes) :
    readWith aesgcm dek nonce (aesgcm.encrypt dek nonce data) = .ok plaintext :=
  Transaction.except_bind_ok.mpr ⟨dek, hkey, Transaction.except_bind_ok.mpr
    ⟨data, haesgcm.open_ok.mpr rfl, decodeText_ok.mpr htext⟩⟩

/-- What was encrypted is what the vault alone reads. -/
theorem readPlain_of_encrypt (haesgcm : aesgcm.Faithful) {call : EncryptCall}
    (hcall : (Call.encrypt call).Answered vault) {envelope : Bytes}
    (h : (encrypt aesgcm config cache call).1 = .ok envelope) :
    readPlain aesgcm vault envelope = .ok call.plaintext := by
  obtain ⟨wrapped, data, hwrapped, hkey, htext, hunpack, -⟩ := encrypt_ok h
  unfold readPlain
  rw [hunpack]
  dsimp only
  rw [hcall wrapped hwrapped]
  exact readWith_encrypt haesgcm hkey htext call.nonce

theorem Sound.decrypt (h : Sound vault cache) {call : DecryptCall}
    (hcall : (Call.decrypt call).Answered vault) :
    (decrypt aesgcm config cache call).1 = readPlain aesgcm vault call.envelope ∨
      call.unwrapped = none ∧ (KeyVaultCipher.decrypt aesgcm config cache call).1 = .error unwrapFailed := by
  have hdecrypted := decrypted aesgcm config cache call
  generalize KeyVaultCipher.decrypt aesgcm config cache call = result at hdecrypted ⊢
  unfold readPlain
  cases hdecrypted with
  | rejected e hunpack => exact Or.inl (by rw [hunpack])
  | found wrapped nonce ciphertext dek hunpack hhit =>
    rw [hunpack]
    dsimp only
    rw [h.vault_of_get hhit]
    exact Or.inl rfl
  | failed wrapped nonce ciphertext hunpack hmiss hdown => exact Or.inr ⟨hdown, rfl⟩
  | asked wrapped nonce ciphertext dek hunpack hmiss hanswer =>
    rcases hcall wrapped nonce ciphertext hunpack with hdown | hvault
    · rw [hanswer] at hdown
      cases hdown
    · rw [hunpack]
      dsimp only
      rw [← hvault, hanswer]
      exact Or.inl rfl

/-- **The cache changes no answer.** After any calls of `encrypt` and `decrypt`, a call of `decrypt`, of
any bytes, answers what the vault alone would answer, unless the vault is down: then it may raise
`RuntimeError` instead. What the vault alone makes of an envelope that an `encrypt` has returned, in this
process or another, is the text that was encrypted. -/
theorem decrypt_transparent (haesgcm : aesgcm.Faithful) (calls : List Call)
    (hcalls : ∀ call ∈ calls, call.Answered vault) (call : DecryptCall)
    (hcall : (Call.decrypt call).Answered vault) :
    ((decrypt aesgcm config (run aesgcm config calls) call).1 = readPlain aesgcm vault call.envelope ∨
      call.unwrapped = none ∧
        (decrypt aesgcm config (run aesgcm config calls) call).1 = .error unwrapFailed) ∧
    ∀ (cache : DekCache) (written : EncryptCall) (envelope : Bytes),
      (Call.encrypt written).Answered vault →
        (encrypt aesgcm config cache written).1 = .ok envelope →
          readPlain aesgcm vault envelope = .ok written.plaintext :=
  ⟨(sound_run hcalls).decrypt hcall, fun _ _ _ hwritten h => readPlain_of_encrypt haesgcm hwritten h⟩

/-- An access token, written at the start. -/
def writtenToken : EncryptCall :=
  ⟨text "access-sandbox", List.replicate dekBytes 1, List.replicate nonceBytes 2,
    some (List.replicate dekBytes 1), 0⟩

/-- Its envelope. -/
def tokenEnvelope : Bytes :=
  ((encrypt LocalDevCipher.tagged .default ∅ writtenToken).1).toOption.getD []

/-- A read of it, with the vault down. -/
def readToken : DecryptCall := ⟨tokenEnvelope, none, 10, 10⟩

theorem decrypt_transparent_token :
    ((decrypt LocalDevCipher.tagged .default (run LocalDevCipher.tagged .default [.encrypt writtenToken])
        readToken).1 = readPlain LocalDevCipher.tagged some tokenEnvelope ∨
      readToken.unwrapped = none ∧
        (decrypt LocalDevCipher.tagged .default
          (run LocalDevCipher.tagged .default [.encrypt writtenToken]) readToken).1 =
            .error unwrapFailed) ∧
    readPlain LocalDevCipher.tagged some tokenEnvelope = .ok (text "access-sandbox") := by
  have hwritten : (Call.encrypt writtenToken).Answered some := fun wrapped hwrapped => hwrapped ▸ rfl
  have hread := @decrypt_transparent _ .default some LocalDevCipher.tagged_faithful
    [.encrypt writtenToken] (fun call hcall => List.mem_singleton.mp hcall ▸ hwritten) readToken
    fun _ _ _ _ => Or.inl rfl
  exact ⟨hread.1, hread.2 ∅ writtenToken tokenEnvelope hwritten (by decide)⟩

/-! ### What is still cached -/

/-- The call is about one of the other keys, or looks for the key before it expires. -/
def Call.Spares (wrapped : Bytes) (expiresAt : Ticks) (others : List Bytes) : Call → Prop
  | .encrypt call => ∀ wrapped', call.wrapped = some wrapped' → wrapped' ≠ wrapped ∧ wrapped' ∈ others
  | .decrypt call => ∀ wrapped' nonce ciphertext,
      unpackEnvelope call.envelope = .ok (wrapped', nonce, ciphertext) →
        wrapped' ≠ wrapped ∧ wrapped' ∈ others ∨ wrapped' = wrapped ∧ call.lookAt < expiresAt

theorem kept_after {wrapped dek : Bytes} {expiresAt : Ticks} {others : List Bytes}
    (h : LruCache.Kept wrapped (expiresAt, dek) others cache) (hfew : others.length < config.cacheSize)
    {call : Call} (hspares : call.Spares wrapped expiresAt others) :
    LruCache.Kept wrapped (expiresAt, dek) others (after aesgcm config cache call) := by
  have hget : ∀ {wrapped' : Bytes} {now : Ticks},
      wrapped' ≠ wrapped ∧ wrapped' ∈ others ∨ wrapped' = wrapped ∧ now < expiresAt →
        LruCache.Kept wrapped (expiresAt, dek) others (LruCache.get cache wrapped' now).2 := by
    intro wrapped' now hof
    refine h.after hfew (.get wrapped' now) (hof.imp_right fun hsame => ?_)
    exact ⟨now, by rw [hsame.1], hsame.2⟩
  cases call with
  | encrypt call =>
    show LruCache.Kept _ _ _ (encrypt aesgcm config cache call).2
    unfold encrypt
    split
    · exact h
    · exact h
    · exact h
    · exact h.after hfew (.put _ _ _) (Or.inl (hspares _ ‹_›))
  | decrypt call =>
    show LruCache.Kept _ _ _ (decrypt aesgcm config cache call).2
    have hdecrypted := decrypted aesgcm config cache call
    generalize decrypt aesgcm config cache call = result at hdecrypted
    cases hdecrypted with
    | rejected => exact h
    | found wrapped' nonce ciphertext dek' hunpack => exact hget (hspares _ _ _ hunpack)
    | failed wrapped' nonce ciphertext hunpack => exact hget (hspares _ _ _ hunpack)
    | asked wrapped' nonce ciphertext dek' hunpack hmiss hanswer =>
      rcases hspares _ _ _ hunpack with hother | ⟨rfl, hnow⟩
      · exact (hget (Or.inl hother)).after hfew (.put _ _ _) (Or.inl hother)
      · rw [h.get hnow] at hmiss
        cases hmiss

theorem kept_foldl {wrapped dek : Bytes} {expiresAt : Ticks} {others : List Bytes}
    (hfew : others.length < config.cacheSize) {rest : List Call}
    (h : LruCache.Kept wrapped (expiresAt, dek) others cache)
    (hspares : ∀ call ∈ rest, call.Spares wrapped expiresAt others) :
    LruCache.Kept wrapped (expiresAt, dek) others (rest.foldl (after aesgcm config) cache) := by
  induction rest generalizing cache with
  | nil => exact h
  | cons call rest ih =>
    exact ih (kept_after h hfew (hspares call List.mem_cons_self)) fun call' hmem =>
      hspares call' (List.mem_cons_of_mem _ hmem)

/-- **A value read soon is read without the vault.** After an `encrypt` that returned, and any calls
about fewer other keys than the cache has room for, a `decrypt` of the envelope before the key expires
returns the text, whatever the vault does. -/
theorem decrypt_recent (haesgcm : aesgcm.Faithful) (before rest : List Call) (written : EncryptCall)
    (envelope : Bytes) (wrapped : Bytes) (others : List Bytes) (call : DecryptCall)
    (hwritten : (encrypt aesgcm config (run aesgcm config before) written).1 = .ok envelope)
    (hwrapped : written.wrapped = some wrapped) (hfew : others.length < config.cacheSize)
    (hrest : ∀ call ∈ rest, call.Spares wrapped (written.now + config.cacheTtlSeconds) others)
    (henvelope : call.envelope = envelope)
    (hnow : call.lookAt < written.now + config.cacheTtlSeconds) :
    (decrypt aesgcm config (run aesgcm config (before ++ .encrypt written :: rest)) call).1 =
      .ok written.plaintext := by
  obtain ⟨wrapped', data, hsame, hkey, htext, hunpack, hcache⟩ := encrypt_ok hwritten
  obtain rfl : wrapped' = wrapped := Option.some.inj (hsame.symm.trans hwrapped)
  have hkept : LruCache.Kept wrapped' (written.now + config.cacheTtlSeconds, written.dek) others
      (run aesgcm config (before ++ .encrypt written :: rest)) := by
    unfold run at hcache ⊢
    rw [List.foldl_append, List.foldl_cons]
    refine kept_foldl hfew ?_ hrest
    show LruCache.Kept _ _ _ (encrypt aesgcm config _ written).2
    rw [hcache]
    exact LruCache.kept_touch.evict hfew
  have hdecrypted := decrypted aesgcm config (run aesgcm config (before ++ .encrypt written :: rest)) call
  have hget := hkept.get hnow
  generalize decrypt aesgcm config _ call = result at hdecrypted ⊢
  rw [← henvelope] at hunpack
  cases hdecrypted with
  | rejected e hreject =>
    rw [hreject] at hunpack
    cases hunpack
  | found _ _ _ dek hparts hhit =>
    rw [hunpack] at hparts
    cases hparts
    rw [hget] at hhit
    cases hhit
    exact readWith_encrypt haesgcm hkey htext written.nonce
  | failed _ _ _ hparts hmiss =>
    rw [hunpack] at hparts
    cases hparts
    rw [hget] at hmiss
    cases hmiss
  | asked _ _ _ _ hparts hmiss =>
    rw [hunpack] at hparts
    cases hparts
    rw [hget] at hmiss
    cases hmiss

/-- A data key, which the vault wraps to itself. -/
def dekOf (octet : Byte) : Bytes := List.replicate dekBytes octet

/-- A token written with a data key of its own. -/
def writtenWith (octet : Byte) (now : Ticks) : EncryptCall :=
  ⟨text "access-sandbox", dekOf octet, List.replicate nonceBytes 2, some (dekOf octet), now⟩

/-- A cache of three keys. -/
def threeKeys : Config := ⟨3, 300⟩

def envelopeWith (octet : Byte) : Bytes :=
  ((encrypt LocalDevCipher.tagged threeKeys ∅ (writtenWith octet 0)).1).toOption.getD []

theorem wrapped_of_envelopeWith {octet : Byte} {wrapped nonce ciphertext : Bytes}
    (h : (encrypt LocalDevCipher.tagged threeKeys ∅ (writtenWith octet 0)).1 =
      .ok (envelopeWith octet))
    (hunpack : unpackEnvelope (envelopeWith octet) = .ok (wrapped, nonce, ciphertext)) :
    wrapped = dekOf octet := by
  obtain ⟨wrapped', data, hwrapped, -, -, hparts, -⟩ := encrypt_ok h
  rw [hunpack] at hparts
  cases hparts
  exact (Option.some.inj hwrapped).symm

/-- Two values are written before the token. -/
def beforeToken : List Call := [.encrypt (writtenWith 7 0), .encrypt (writtenWith 8 1)]

/-- After the token the second of them is read, whose key has expired; the token is read; and another
value is written, whose key drops that of the first. -/
def afterToken : List Call :=
  [.decrypt ⟨envelopeWith 8, some (dekOf 8), 302, 302⟩, .decrypt ⟨envelopeWith 1, none, 303, 303⟩,
    .encrypt (writtenWith 9 303)]

theorem decrypt_recent_token :
    (decrypt LocalDevCipher.tagged threeKeys (run LocalDevCipher.tagged threeKeys
      (beforeToken ++ .encrypt (writtenWith 1 5) :: afterToken))
        ⟨envelopeWith 1, none, 304, 304⟩).1 = .ok (text "access-sandbox") ∧
    (run LocalDevCipher.tagged threeKeys
      (beforeToken ++ .encrypt (writtenWith 1 5) :: afterToken)).rows.map Prod.fst =
        [dekOf 8, dekOf 1, dekOf 9] := by
  refine ⟨?_, by decide⟩
  refine decrypt_recent LocalDevCipher.tagged_faithful beforeToken afterToken (writtenWith 1 5)
    (envelopeWith 1) (dekOf 1) [dekOf 8, dekOf 9] _ (by decide) rfl (by decide) ?_ rfl
    (by decide)
  intro call hcall
  simp only [afterToken, List.mem_cons, List.not_mem_nil, or_false] at hcall
  rcases hcall with rfl | rfl | rfl
  · intro wrapped nonce ciphertext hunpack
    obtain rfl := wrapped_of_envelopeWith (by decide) hunpack
    exact Or.inl ⟨by decide, by decide⟩
  · intro wrapped nonce ciphertext hunpack
    exact Or.inr ⟨wrapped_of_envelopeWith (by decide) hunpack, by decide⟩
  · intro wrapped hwrapped
    cases hwrapped
    exact ⟨by decide, by decide⟩

end Vault

end Trueup.Crypto.KeyVaultCipher
