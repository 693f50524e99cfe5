import Trueup.Models.Database

/-! # The KYC service

`services/identity/kyc_service.py`, over `models/identity/kyc_session.py`: the verification attempts
of a customer, and the verdicts of the provider, which come through its webhook or are polled.

* `effect`: what a verdict resolves its session to, if it is a verdict.
* `afterVerdict_eq`: a verdict with an effect resolves its session and sets the customer's status,
  any other one leaves the tables alone. -/

namespace Trueup.Identity

open Trueup.Core Trueup.Models Trueup.Lib Trueup.Lib.Transaction

inductive KycSessionStatus
  | pending | approved | rejected
  deriving DecidableEq, Repr

structure KycSession where
  customerId : Uuid
  providerSessionId : String
  status : KycSessionStatus
  attemptNumber : ℤ
  resolvedAt : Option Instant
  deriving DecidableEq

/-- The `customer` and `kyc_session` tables; the session ids of the provider are unique. -/
structure KycTables where
  customers : Table Customer.id
  kycSessions : Table KycSession.providerSessionId

inductive KycError
  | customerNotFound | kycLocked | kycPortNotConfigured | kycSessionAlreadyResolved | valueError
  /-- the unique session id of the provider -/
  | integrityError
  /-- what the provider's client raises -/
  | providerError
  deriving DecidableEq

abbrev KycTx := Transaction.Tx KycError KycTables

/-- `KycSessionHandle`. -/
structure KycSessionHandle where
  providerSessionId : String
  clientSecret : String

/-- `KycPort`, with what the provider answers. -/
structure KycPort where
  createVerificationSession : Uuid → Except KycError KycSessionHandle
  retrieveVerificationSession : String → Except KycError String

/-! ### The functions of the service -/

/-- `map_verification_session_status`. -/
def mapVerificationSessionStatus (stripeStatus : String) (attemptNumber maxAttempts : ℤ) :
    Except KycError KycSessionStatus :=
  if stripeStatus = "verified" then .ok .approved
  else if stripeStatus = "canceled" then .ok .rejected
  else if stripeStatus = "requires_input" ∨ stripeStatus = "processing" then
    if stripeStatus = "requires_input" ∧ attemptNumber ≥ maxAttempts then .ok .rejected
    else .ok .pending
  else .error .valueError

/-- `latest_for_customer`. -/
def latestForCustomer (tables : KycTables) (customerId : Uuid) : Option KycSession :=
  @List.argmax KycSession ℤ Int.instLinearOrder.toPreorder Int.decLt (·.attemptNumber)
    (tables.kycSessions.rows.filter (·.customerId = customerId))

/-- `start_verification`. -/
def startVerification (maxAttempts : ℤ) (kycPort : Option KycPort) (customerId : Uuid) :
    KycTx KycSessionHandle := do
  let customer ← read fun tables => ofOption (tables.customers.find customerId) .customerNotFound
  let latest ← read fun tables => .ok (latestForCustomer tables customerId)
  require (¬ (customer.kycStatus = .rejected ∧ ∃ session ∈ latest, session.attemptNumber ≥ maxAttempts))
    .kycLocked
  let port ← lift (ofOption kycPort .kycPortNotConfigured)
  let handle ← lift (port.createVerificationSession customerId)
  let attemptNumber := match latest with
    | none => 1
    | some session => session.attemptNumber + 1
  write fun tables => do
    let t ← ofOption (tables.kycSessions.insert
      ⟨customerId, handle.providerSessionId, .pending, attemptNumber, none⟩) .integrityError
    return { tables with kycSessions := t }
  return handle

/-- `resolve`. -/
def resolve (session : KycSession) (status : KycSessionStatus) (resolvedAt : Instant) : KycTx Unit := do
  require (session.status = .pending) .kycSessionAlreadyResolved
  update fun tables => { tables with
    kycSessions := tables.kycSessions.set { session with status, resolvedAt := some resolvedAt } }

/-- The `kyc_status` of a customer after a verdict. -/
def kycStatusOf (status : KycSessionStatus) : KycStatus :=
  if status = .approved then .approved else .rejected

/-- `apply_verification_verdict`. -/
def applyVerificationVerdict (maxAttempts : ℤ) (now : Instant) (providerSessionId stripeStatus : String) :
    KycTx (Option Uuid) := do
  let session ← read fun tables => ofOption (tables.kycSessions.find providerSessionId) .customerNotFound
  let mappedStatus ← lift (mapVerificationSessionStatus stripeStatus session.attemptNumber maxAttempts)
  if mappedStatus = .pending then return none
  else
    resolve session mappedStatus now
    let customer ← read fun tables =>
      ofOption (tables.customers.find session.customerId) .customerNotFound
    update fun tables => { tables with
      customers := tables.customers.set { customer with kycStatus := kycStatusOf mappedStatus } }
    return some session.customerId

/-- `sync_latest_verification`. -/
def syncLatestVerification (maxAttempts : ℤ) (kycPort : Option KycPort) (now : Instant)
    (customerId : Uuid) : KycTx (Option Uuid) := do
  let latest ← read fun tables => .ok (latestForCustomer tables customerId)
  match latest with
  | none => return none
  | some session =>
    if session.status ≠ .pending then return none
    else
      let port ← lift (ofOption kycPort .kycPortNotConfigured)
      let stripeStatus ← lift (port.retrieveVerificationSession session.providerSessionId)
      applyVerificationVerdict maxAttempts now session.providerSessionId stripeStatus

/-! ### What a verdict does -/

/-- A verdict of the provider. -/
structure Verdict where
  providerSessionId : String
  stripeStatus : String
  now : Instant
  deriving DecidableEq

/-- The tables after a verdict; one that raises is rolled back. -/
def afterVerdict (maxAttempts : ℤ) (tables : KycTables) (verdict : Verdict) : KycTables :=
  atomically (applyVerificationVerdict maxAttempts verdict.now verdict.providerSessionId
    verdict.stripeStatus) tables

/-- The pending session that a verdict resolves, with the status it resolves it to. -/
def effect (maxAttempts : ℤ) (tables : KycTables) (verdict : Verdict) :
    Option (KycSession × KycSessionStatus) :=
  match tables.kycSessions.find verdict.providerSessionId with
  | none => none
  | some session =>
    match mapVerificationSessionStatus verdict.stripeStatus session.attemptNumber maxAttempts with
    | .error _ => none
    | .ok status =>
      if status ≠ .pending ∧ session.status = .pending ∧ tables.customers.Has session.customerId then
        some (session, status)
      else none

/-- The tables when the session is resolved. -/
def KycTables.resolved (tables : KycTables) (session : KycSession) (status : KycSessionStatus)
    (now : Instant) : KycTables where
  customers := match tables.customers.find session.customerId with
    | none => tables.customers
    | some customer => tables.customers.set { customer with kycStatus := kycStatusOf status }
  kycSessions := tables.kycSessions.set { session with status, resolvedAt := some now }

theorem applyVerificationVerdict_ok {maxAttempts : ℤ} {now : Instant}
    {providerSessionId stripeStatus : String} {tables tables' : KycTables} {result : Option Uuid} :
    (applyVerificationVerdict maxAttempts now providerSessionId stripeStatus).run tables =
        .ok (result, tables') ↔
      ∃ session, tables.kycSessions.find providerSessionId = some session ∧ ∃ status,
        mapVerificationSessionStatus stripeStatus session.attemptNumber maxAttempts = .ok status ∧
        ((status = .pending ∧ result = none ∧ tables' = tables) ∨
          (status ≠ .pending ∧ session.status = .pending ∧
            tables.customers.Has session.customerId ∧ result = some session.customerId ∧
            tables' = tables.resolved session status now)) := by
  simp only [applyVerificationVerdict, bind_ok, read_ok, lift_ok, ofOption_ok, and_assoc,
    exists_and_left, exists_eq_left']
  refine exists_congr fun session => and_congr_right fun _ => exists_congr fun status =>
    and_congr_right fun _ => ?_
  by_cases hpending : status = .pending
  · rw [if_pos hpending, pure_ok]
    simp [hpending, eq_comm]
  · rw [if_neg hpending]
    simp only [resolve, bind_ok, require_ok, update_ok, read_ok, ofOption_ok, pure_ok, hpending,
      false_and, false_or, not_false_eq_true, ne_eq, true_and, and_assoc, exists_and_left,
      exists_eq_left', exists_const]
    constructor
    · rintro ⟨hsession, _, rfl, customer, hcustomer, _, rfl, rfl, rfl⟩
      obtain ⟨hmem, hid⟩ := Table.find_eq_some.mp hcustomer
      exact ⟨hsession, hid ▸ Table.has_of_mem hmem, rfl, by rw [KycTables.resolved, hcustomer]⟩
    · rintro ⟨hsession, hhas, rfl, rfl⟩
      obtain ⟨customer, hcustomer⟩ :=
        Option.ne_none_iff_exists'.mp fun hnone => Table.find_eq_none.mp hnone hhas
      exact ⟨hsession, _, rfl, customer, hcustomer, _, rfl, rfl, by rw [KycTables.resolved, hcustomer]⟩

theorem effect_eq_some {maxAttempts : ℤ} {tables : KycTables} {verdict : Verdict} {session : KycSession}
    {status : KycSessionStatus} : effect maxAttempts tables verdict = some (session, status) ↔
      tables.kycSessions.find verdict.providerSessionId = some session ∧
      mapVerificationSessionStatus verdict.stripeStatus session.attemptNumber maxAttempts = .ok status ∧
      status ≠ .pending ∧ session.status = .pending ∧ tables.customers.Has session.customerId := by
  unfold effect
  split
  · rename_i hnone
    simp [hnone]
  · rename_i found hfound
    rw [hfound]
    split
    · rename_i e herror
      constructor
      · intro h
        cases h
      · rintro ⟨⟨⟩, hstatus, -⟩
        rw [herror] at hstatus
        cases hstatus
    · rename_i mapped hmapped
      constructor
      · intro h
        split_ifs at h with hresolves
        cases h
        exact ⟨rfl, hmapped, hresolves⟩
      · rintro ⟨⟨⟩, hstatus, hresolves⟩
        rw [hmapped] at hstatus
        cases hstatus
        rw [if_pos hresolves]

/-- **What a verdict does.** -/
theorem afterVerdict_eq (maxAttempts : ℤ) (tables : KycTables) (verdict : Verdict) :
    afterVerdict maxAttempts tables verdict = match effect maxAttempts tables verdict with
      | none => tables
      | some (session, status) => tables.resolved session status verdict.now := by
  rcases atomically_cases (applyVerificationVerdict maxAttempts verdict.now verdict.providerSessionId
    verdict.stripeStatus) tables with ⟨result, tables', hok, hafter⟩ | ⟨e, herror, hafter⟩
  · rw [afterVerdict, hafter]
    obtain ⟨session, hfind, status, hstatus, hpending | hresolved⟩ := applyVerificationVerdict_ok.mp hok
    · obtain ⟨rfl, -, rfl⟩ := hpending
      simp [effect, hfind, hstatus]
    · obtain ⟨hterminal, hsession, hcustomer, -, rfl⟩ := hresolved
      rw [effect_eq_some.mpr ⟨hfind, hstatus, hterminal, hsession, hcustomer⟩]
  · rw [afterVerdict, hafter]
    cases heffect : effect maxAttempts tables verdict with
    | none => rfl
    | some resolved =>
      obtain ⟨hfind, hstatus, hterminal, hsession, hcustomer⟩ := effect_eq_some.mp heffect
      cases herror.symm.trans (applyVerificationVerdict_ok.mpr ⟨_, hfind, _, hstatus,
        Or.inr ⟨hterminal, hsession, hcustomer, rfl, rfl⟩⟩)

end Trueup.Identity
