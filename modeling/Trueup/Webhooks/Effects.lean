import Trueup.Fees.ChargeExecutions
import Trueup.Identity.BankLinkService
import Trueup.Identity.DepositService
import Trueup.Intake.EventIntakeService

/-! # Webhooks and their effects

`controllers/webhooks/plaid.py` and `controllers/webhooks/stripe_billing.py`: the payloads, the id
an event is deduplicated by, and what the controller applies after the intake has accepted the
event.

* `Effect.body`: the unit of work of an effect.
* `Effect.Done`, `body_done`: what holds of the database when it has committed. -/

namespace Trueup.Webhooks

open Trueup.Core Trueup.Models Trueup.Lib Trueup.Lib.Transaction Trueup.Identity Trueup.Fees
open Trueup.Fees.Charging Trueup.Intake

/-! ### Payloads -/

structure PlaidWebhookPayload where
  webhookType : String
  webhookCode : String
  itemId : Option String
  settlementObligationId : Option Uuid
  deriving DecidableEq

/-- `StripeBillingWebhookPayload`, with the id and the status of its `data.object`. -/
structure StripeBillingWebhookPayload where
  id : String
  type : String
  objectId : String
  objectStatus : String
  deriving DecidableEq

inductive Webhook
  | plaid (parsed : PlaidWebhookPayload)
  | stripeBilling (parsed : StripeBillingWebhookPayload)
  deriving DecidableEq

/-- `str` of a uuid. -/
def uuidText (id : Uuid) : String :=
  let digits := List.leftpad 32 '0' (Nat.toDigits 16 id)
  String.ofList (digits.take 8 ++ '-' :: (digits.drop 8).take 4 ++ '-' :: (digits.drop 12).take 4 ++
    '-' :: (digits.drop 16).take 4 ++ '-' :: digits.drop 20)

/-- `parsed.item_id`, when it is true: an empty one is not. -/
def PlaidWebhookPayload.item (parsed : PlaidWebhookPayload) : Option String :=
  parsed.itemId.filter (· ≠ "")

/-- `dedupe_id`. -/
def PlaidWebhookPayload.dedupeId (parsed : PlaidWebhookPayload) : String :=
  let subject := match parsed.item, parsed.settlementObligationId with
    | some itemId, _ => itemId
    | none, some obligationId => uuidText obligationId
    | none, none => "None"
  parsed.webhookCode ++ ":" ++ subject

def Webhook.source : Webhook → InboundEventSource
  | .plaid _ => .plaid
  | .stripeBilling _ => .stripe

def Webhook.sourceEventId : Webhook → String
  | .plaid parsed => parsed.dedupeId
  | .stripeBilling parsed => parsed.id

/-- `IncomingEvent(...)`; a `source_event_id` has 1 to 255 characters. -/
def Webhook.incoming (webhook : Webhook) : Except Error (IncomingEvent Webhook) := do
  check (1 ≤ webhook.sourceEventId.length ∧ webhook.sourceEventId.length ≤ 255) .valueError
  return ⟨webhook.source, webhook.sourceEventId, webhook⟩

/-! ### Effects -/

/-- `_PAYMENT_INTENT_EVENT_TYPES`. -/
def paymentIntentEventTypes : List String :=
  ["payment_intent.succeeded", "payment_intent.payment_failed", "payment_intent.canceled",
    "payment_intent.processing"]

inductive Effect
  | itemLoginRequired (plaidItemId : String)
  | achReturn (settlementObligationId : Uuid)
  | verdict (stripeChargeId status : String)
  deriving DecidableEq

/-- The effect of a Plaid webhook: `_apply_effect`. -/
def PlaidWebhookPayload.effect (parsed : PlaidWebhookPayload) : Option Effect :=
  if parsed.webhookType = "ITEM" ∧ parsed.webhookCode = "ERROR" ∧ parsed.item.isSome then
    parsed.item.map .itemLoginRequired
  else if parsed.webhookType = "TRANSFER" then parsed.settlementObligationId.map .achReturn
  else none

/-- The effect the controller applies once the webhook is accepted. -/
def Webhook.effect : Webhook → Option Effect
  | .plaid parsed => parsed.effect
  | .stripeBilling parsed =>
    if parsed.type ∈ paymentIntentEventTypes then some (.verdict parsed.objectId parsed.objectStatus)
    else none

/-- `with suppress(...)`. What is suppressed here is raised before anything is written. -/
def suppress (error : Error) (x : Tx Unit) : Tx Unit := do
  let _ ← savepoint (· = error) x

/-- `dunning_max_attempts` of `FeeChargeService`. -/
def dunningMaxAttempts : ℕ := 4

/-- `_apply_verdict`. -/
def applyVerdict (env : Env) (stripeChargeId status : String) : Tx Unit := do
  let found ← read fun db => getByStripeChargeId db stripeChargeId
  match found, verdictOutcome stripeChargeId status with
  | some charge, some (.success stripeChargeId) =>
    suppress .feeChargeNotFound (applyChargeSuccess env charge.id stripeChargeId)
  | some charge, some .failure =>
    suppress .feeChargeNotFound (applyChargeFailure env dunningMaxAttempts charge.id)
  | _, _ => return ()

/-- The unit of work of an effect. -/
def Effect.body (env : Env) : Effect → Tx Unit
  | .itemLoginRequired plaidItemId =>
    suppress .bankLinkNotFound (applyItemLoginRequired plaidItemId)
  | .achReturn obligationId => suppress .settlementObligationNotFound (applyAchReturn env obligationId)
  | .verdict stripeChargeId status => applyVerdict env stripeChargeId status

/-! ### What a committed effect did -/

/-- The effect has been applied to what it names. -/
def Effect.Done (db : Database) : Effect → Prop
  | .itemLoginRequired plaidItemId =>
    ∀ link ∈ db.bankLinks, link.plaidItemId = plaidItemId → link.status ≠ .active
  | .achReturn obligationId =>
    ∃ obligation ∈ db.settlementObligations, obligation.id = obligationId ∧
      obligation.status = .failed
  | .verdict stripeChargeId status =>
    ∃ charge ∈ db.feeCharges, match verdictOutcome stripeChargeId status with
      | some (.success _) => charge.status = .succeeded
      | some .failure => charge.status ≠ .pending ∨ db.dunningStates.Has charge.id
      | none => False

theorem suppress_ok {error : Error} {x : Tx Unit} {db db' : Database} {u : Unit}
    (h : (suppress error x).run db = .ok (u, db')) :
    x.run db = .ok ((), db') ∨ (db' = db ∧ x.run db = .error error) := by
  unfold suppress at h
  simp only [bind_ok, pure_ok] at h
  obtain ⟨_, mid, hrun, -, rfl⟩ := h
  rcases savepoint_ok.mp hrun with ⟨_, -, hx⟩ | ⟨-, rfl, e, hx, hcaught⟩
  · exact Or.inl hx
  · rw [of_decide_eq_true hcaught] at hx
    exact Or.inr ⟨rfl, hx⟩

theorem applyAchReturn_done {env : Env} {obligationId : Uuid} {db db' : Database} {u : Unit}
    (h : (applyAchReturn env obligationId).run db = .ok (u, db')) :
    (Effect.achReturn obligationId).Done db' := by
  obtain ⟨obligation, _, _, _, _, _, hfind, -, -, -, -, -, rfl⟩ := applyAchReturn_ok h
  obtain ⟨hmem, hid⟩ := Table.find_eq_some.mp hfind
  exact ⟨_, Table.mem_set_self hmem rfl, hid, rfl⟩

theorem applyChargeSuccess_done {env : Env} {feeChargeId : Uuid} {stripeChargeId : String}
    {db db' : Database} {u : Unit}
    (h : (applyChargeSuccess env feeChargeId stripeChargeId).run db = .ok (u, db')) :
    ∃ charge ∈ db'.feeCharges, charge.status = .succeeded := by
  obtain ⟨charge, hcharge, ⟨hsucceeded, rfl⟩ | ⟨-, db₁, dunnings, hcollect, rfl⟩⟩ :=
    applyChargeSuccess_ok h
  · exact ⟨charge, (Table.find_eq_some.mp hcharge).1, hsucceeded⟩
  · obtain ⟨_, _, _, row, _, _, -, -, -, -, -, hrow, rfl⟩ := collect_ok hcollect
    obtain ⟨hmem, hid⟩ := Table.find_eq_some.mp hrow
    have hsame : row = charge := by
      obtain ⟨hmem', -⟩ := Table.find_eq_some.mp hcharge
      exact Table.eq_of_key_eq hmem hmem' hid
    exact ⟨_, Table.mem_set_self hmem rfl, by simp [succeededCharge, hsame]⟩

theorem applyChargeFailure_done {env : Env} {maxAttempts : ℕ} {feeChargeId : Uuid}
    {db db' : Database} {u : Unit}
    (h : (applyChargeFailure env maxAttempts feeChargeId).run db = .ok (u, db')) :
    ∃ charge ∈ db'.feeCharges, charge.status ≠ .pending ∨ db'.dunningStates.Has charge.id := by
  obtain ⟨charge, hcharge, ⟨hclosed, rfl⟩ | ⟨-, hrecord⟩⟩ := applyChargeFailure_ok h
  · refine ⟨charge, (Table.find_eq_some.mp hcharge).1, Or.inl fun hpending => ?_⟩
    simp [isClosed, hpending] at hclosed
  · obtain ⟨hmem, -⟩ := Table.find_eq_some.mp hcharge
    have hset : ∀ (status : FeeChargeStatus) {row : FeeCharge},
        db.feeCharges.find charge.id = some row → status ≠ .pending →
        ∃ c ∈ db.feeCharges.set { row with status := flushed charge.status status row.status },
          c.status ≠ .pending := by
      intro status row hfind hstatus
      obtain ⟨hrow, hid⟩ := Table.find_eq_some.mp hfind
      have hsame : row = charge := Table.eq_of_key_eq hrow hmem hid
      exact ⟨_, Table.mem_set_self hrow rfl, by simpa [hsame] using hstatus⟩
    have hfailed := recordFailure_failed hrecord
    generalize hdunning : db.dunningStates.find charge.id = dunning at hfailed
    cases hfailed with
    | first row d dunnings hrow _ _ _ hdb' =>
      obtain ⟨c, hc, hstatus⟩ := hset .failed hrow (fun h => by cases h)
      exact ⟨c, hdb' ▸ hc, Or.inl hstatus⟩
    | last row row' drow hrow _ hdb' =>
      obtain ⟨c, hc, hstatus⟩ := hset .dunning hrow (fun h => by cases h)
      exact ⟨c, hdb' ▸ hc, Or.inl hstatus⟩
    | counted row' drow _ hdb' =>
      obtain ⟨hdmem, hdid⟩ := Table.find_eq_some.mp hdunning
      subst hdb'
      refine ⟨charge, hmem, Or.inr ?_⟩
      rw [Table.has_set]
      exact hdid ▸ Table.has_of_mem hdmem

/-- **A committed effect** has written nothing, or it is done. -/
theorem body_done {env : Env} {effect : Effect} {db db' : Database} {u : Unit}
    (h : (effect.body env).run db = .ok (u, db')) : db' = db ∨ effect.Done db' := by
  cases effect with
  | itemLoginRequired plaidItemId =>
    rcases suppress_ok h with hrun | ⟨rfl, -⟩
    · exact Or.inr (applyItemLoginRequired_inactive hrun)
    · exact Or.inl rfl
  | achReturn obligationId =>
    rcases suppress_ok h with hrun | ⟨rfl, -⟩
    · exact Or.inr (applyAchReturn_done hrun)
    · exact Or.inl rfl
  | verdict stripeChargeId status =>
    unfold Effect.body applyVerdict at h
    simp only [bind_ok, read_ok] at h
    obtain ⟨found, _, ⟨-, rfl⟩, h⟩ := h
    split at h
    · rename_i charge id houtcome
      rcases suppress_ok h with hrun | ⟨rfl, -⟩
      · obtain ⟨charge, hcharge, hstatus⟩ := applyChargeSuccess_done hrun
        exact Or.inr ⟨charge, hcharge, by rw [houtcome]; exact hstatus⟩
      · exact Or.inl rfl
    · rename_i charge houtcome
      rcases suppress_ok h with hrun | ⟨rfl, -⟩
      · obtain ⟨charge, hcharge, hstatus⟩ := applyChargeFailure_done hrun
        exact Or.inr ⟨charge, hcharge, by rw [houtcome]; exact hstatus⟩
      · exact Or.inl rfl
    · exact Or.inl (pure_ok.mp h).2.symm

end Trueup.Webhooks
