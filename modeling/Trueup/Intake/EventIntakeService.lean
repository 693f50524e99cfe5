import Trueup.Models.Database

/-! # The intake of external events

`services/intake/event_intake.py` over `models/ops/inbound_event.py`: an event whose signature holds
is recorded once, with the outbox row that hands it off.

`intake_ok` says all that a call did. -/

namespace Trueup.Intake

open Trueup.Core Trueup.Models Trueup.Lib Trueup.Lib.Transaction

variable {π : Type}

/-- `IncomingEvent`, validated. -/
structure IncomingEvent (π : Type) where
  source : InboundEventSource
  sourceEventId : String
  payload : π

inductive IntakeResult
  | accepted | duplicate | invalidSignature
  deriving DecidableEq

/-- The inbound events, and the outbox rows of `process_inbound_event`; their payload is the id of
the event. -/
structure Inbox (π : Type) where
  events : Table (@InboundEvent.key π)
  jobs : Outbox Uuid

/-- SQLSTATE 23505. -/
def isUniqueViolation : Error → Bool
  | .integrityError .primaryKey => true
  | .integrityError .inboundEventSourceEvent => true
  | _ => false

/-- The `INSERT` of an event. -/
def insertEvent (event : InboundEvent π) : Transaction.Tx Error (Inbox π) Unit :=
  write fun inbox => do
    check (event.id ∉ inbox.events.rows.map InboundEvent.id) (.integrityError .primaryKey)
    let t ← ofOption (inbox.events.insert event) (.integrityError .inboundEventSourceEvent)
    return { inbox with events := t }

/-- `record`; `none` is `DuplicateInboundEventError`. -/
def record (event : InboundEvent π) : Transaction.Tx Error (Inbox π) (Option Unit) :=
  savepoint isUniqueViolation (insertEvent event)

/-- `enqueue`, of `process_inbound_event`. -/
def enqueue (row : JobOutbox Uuid) : Transaction.Tx Error (Inbox π) Unit :=
  write fun inbox => do
    let t ← ofOption (inbox.jobs.insert row) (.integrityError .primaryKey)
    return { inbox with jobs := t }

/-- The row of an incoming event. -/
def IncomingEvent.row (incoming : IncomingEvent π) (eventId : Uuid) : InboundEvent π :=
  ⟨eventId, incoming.source, incoming.sourceEventId, incoming.payload, true⟩

/-- `intake`; the signature is the verdict of the verifier. -/
def intake (incoming : IncomingEvent π) (signatureValid : Bool) (eventId outboxId : Uuid)
    (now : Instant) : Transaction.Tx Error (Inbox π) IntakeResult :=
  if signatureValid then do
    let recorded ← record (incoming.row eventId)
    match recorded with
    | none => return .duplicate
    | some _ =>
      enqueue (.enqueued outboxId eventId now)
      return .accepted
  else return .invalidSignature

/-- The id or the key of the event is taken. -/
def isTaken (inbox : Inbox π) (event : InboundEvent π) : Bool :=
  ∃ row ∈ inbox.events.rows, row.id = event.id ∨ row.key = event.key

/-! ### What a call did -/

theorem record_ok {event : InboundEvent π} {inbox inbox' : Inbox π} {r : Option Unit}
    (h : (record event).run inbox = .ok (r, inbox')) :
    (r = none ∧ inbox' = inbox ∧ isTaken inbox event) ∨
      (r = some () ∧ isTaken inbox event = false ∧
        ∃ t, inbox.events.insert event = some t ∧ inbox' = { inbox with events := t }) := by
  rcases savepoint_ok.mp h with ⟨_, rfl, hrun⟩ | ⟨rfl, rfl, e, hrun, -⟩
  · refine Or.inr ⟨rfl, ?_⟩
    simp only [insertEvent, write_ok, except_bind_ok, check_ok, ofOption_ok] at hrun
    obtain ⟨_, hid, t, ht, hset⟩ := hrun
    refine ⟨?_, t, ht, (Except.ok.inj hset).symm⟩
    have hkey := (Table.insert_eq_some.mp ht).1
    rw [isTaken, decide_eq_false_iff_not]
    rintro ⟨row, hrow, hsame | hsame⟩
    · exact hid (hsame ▸ List.mem_map_of_mem hrow)
    · exact hkey (hsame ▸ Table.has_of_mem hrow)
  · refine Or.inl ⟨rfl, rfl, ?_⟩
    rw [isTaken, decide_eq_true_eq]
    simp only [insertEvent, write_error] at hrun
    by_cases hid : event.id ∈ inbox'.events.rows.map InboundEvent.id
    · obtain ⟨row, hrow, hsame⟩ := List.mem_map.mp hid
      exact ⟨row, hrow, Or.inl hsame⟩
    · cases hinsert : inbox'.events.insert event with
      | none =>
        obtain ⟨row, hrow, hsame⟩ := Table.has_iff.mp (Table.insert_eq_none.mp hinsert)
        exact ⟨row, hrow, Or.inr hsame⟩
      | some t =>
        have hok : check (event.id ∉ inbox'.events.rows.map InboundEvent.id)
            (Error.integrityError .primaryKey) = .ok () := check_ok.mpr hid
        rw [hok, hinsert] at hrun
        cases hrun

/-- **What `intake` did**: nothing beyond its answer, or the event and its outbox row, both new. -/
theorem intake_ok {incoming : IncomingEvent π} {signatureValid : Bool} {eventId outboxId : Uuid}
    {now : Instant} {inbox inbox' : Inbox π} {r : IntakeResult}
    (h : (intake incoming signatureValid eventId outboxId now).run inbox = .ok (r, inbox')) :
    (r = .invalidSignature ∧ signatureValid = false ∧ inbox' = inbox) ∨
      (r = .duplicate ∧ isTaken inbox (incoming.row eventId) ∧ inbox' = inbox) ∨
      (r = .accepted ∧ isTaken inbox (incoming.row eventId) = false ∧
        ∃ events jobs, inbox.events.insert (incoming.row eventId) = some events ∧
          inbox.jobs.insert (.enqueued outboxId eventId now) = some jobs ∧
          inbox' = ⟨events, jobs⟩) := by
  unfold intake at h
  split_ifs at h with hvalid
  · rw [bind_ok] at h
    obtain ⟨recorded, mid, hrecord, h⟩ := h
    rcases record_ok hrecord with ⟨rfl, rfl, htaken⟩ | ⟨rfl, htaken, events, hevents, rfl⟩
    · obtain ⟨rfl, rfl⟩ := pure_ok.mp h
      exact Or.inr (Or.inl ⟨rfl, htaken, rfl⟩)
    · simp only [enqueue, bind_ok, write_ok, except_bind_ok, ofOption_ok, pure_ok] at h
      obtain ⟨_, _, ⟨jobs, hjobs, hset⟩, rfl, rfl⟩ := h
      exact Or.inr (Or.inr ⟨rfl, htaken, events, jobs, hevents, hjobs, (Except.ok.inj hset).symm⟩)
  · obtain ⟨rfl, rfl⟩ := pure_ok.mp h
    exact Or.inl ⟨rfl, by simpa using hvalid, rfl⟩

end Trueup.Intake
