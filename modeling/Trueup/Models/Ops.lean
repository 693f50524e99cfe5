import Mathlib.Data.List.Sort
import Trueup.Core.Clock
import Trueup.Lib.Table

/-! # Inbound events and durable asynchronous work

`models/ops/inbound_event.py` and `models/ops/job_outbox.py`: the rows of `inbound_event` and of
`job_outbox`, with the payload of their task, what the repository makes of one outbox row,
and which rows it claims and finds locked. `flushed` and `flush` are what the unit of work writes
back. -/

namespace Trueup.Models

open Trueup.Core Trueup.Lib

/-- What a flush makes of a column: a new value is written over the current one, an unchanged one is
not written. -/
def flushed {α : Type} [DecidableEq α] (seen new current : α) : α :=
  if new = seen then current else new

@[simp] theorem flushed_self {α : Type} [DecidableEq α] (seen new : α) :
    flushed seen new seen = new := by
  unfold flushed
  split_ifs with h
  · exact h.symm
  · rfl

/-- An event a provider has sent. -/
structure InboundEvent (π : Type) where
  id : Uuid
  source : InboundEventSource
  sourceEventId : String
  payload : π
  signatureVerified : Bool
  deriving DecidableEq

/-- `uq_inbound_event_source_event`. -/
def InboundEvent.key {π : Type} (event : InboundEvent π) : InboundEventSource × String :=
  (event.source, event.sourceEventId)

structure JobOutbox (π : Type) where
  id : Uuid
  payload : π
  attempts : ℕ
  nextAttemptAt : Instant
  status : JobOutboxStatus
  lockedBy : Option String
  createdAt : Instant
  deriving DecidableEq

/-- The table `job_outbox`. -/
abbrev Outbox (π : Type) := Table (@JobOutbox.id π)

namespace JobOutbox

variable {π : Type}

/-- The row `enqueue` writes. -/
def enqueued (id : Uuid) (payload : π) (now : Instant) : JobOutbox π :=
  ⟨id, payload, 0, now, .pending, none, now⟩

/-- What `claim_next` selects. -/
def isClaimable (row : JobOutbox π) (now : Instant) : Bool :=
  row.status = .pending ∧ row.nextAttemptAt ≤ now

/-- The row as `claim_next` leaves it. -/
def claimed (row : JobOutbox π) (workerId : String) : JobOutbox π :=
  { row with status := .processing, lockedBy := some workerId, attempts := row.attempts + 1 }

/-- What `_locked_by_worker` selects. -/
def isLockedBy (row : JobOutbox π) (workerId : String) : Bool :=
  row.status = .processing ∧ row.lockedBy = some workerId

/-- The row as `complete` leaves it. -/
def completed (row : JobOutbox π) : JobOutbox π :=
  { row with status := .completed, lockedBy := none }

/-- The row as `retry_or_dead_letter` leaves it. -/
def retried (row : JobOutbox π) (nextAttemptAt : Instant) (maxAttempts : ℕ) : JobOutbox π :=
  if maxAttempts ≤ row.attempts then { row with lockedBy := none, status := .deadLetter }
  else { row with lockedBy := none, status := .pending, nextAttemptAt }

/-- A flush of the row: the columns that were changed are written over the current row. -/
def flush (seen new current : JobOutbox π) : JobOutbox π :=
  { current with
    attempts := flushed seen.attempts new.attempts current.attempts
    nextAttemptAt := flushed seen.nextAttemptAt new.nextAttemptAt current.nextAttemptAt
    status := flushed seen.status new.status current.status
    lockedBy := flushed seen.lockedBy new.lockedBy current.lockedBy }

/-- The job will not be touched again. -/
def isFinal (row : JobOutbox π) : Bool := row.status = .completed ∨ row.status = .deadLetter

end JobOutbox

/-- The rows `claim_next` may claim, oldest first; it passes over the rows that are locked. -/
def Outbox.claimable {π : Type} (outbox : Outbox π) (locked : Uuid → Bool) (now : Instant) :
    List (JobOutbox π) :=
  (outbox.rows.filter fun row => row.isClaimable now ∧ locked row.id = false).insertionSort
    fun a b => a.createdAt ≤ b.createdAt

/-- `_locked_by_worker`; `none` is its `RuntimeError`. -/
def Outbox.lockedByWorker {π : Type} (outbox : Outbox π) (outboxId : Uuid) (workerId : String) :
    Option (JobOutbox π) :=
  (outbox.find outboxId).filter (·.isLockedBy workerId)

theorem Outbox.mem_claimable {π : Type} {outbox : Outbox π} {locked : Uuid → Bool} {now : Instant}
    {row : JobOutbox π} : row ∈ outbox.claimable locked now ↔
      row ∈ outbox ∧ (row.status = .pending ∧ row.nextAttemptAt ≤ now) ∧ locked row.id = false := by
  simp only [claimable, JobOutbox.isClaimable, List.mem_insertionSort, List.mem_filter,
    decide_eq_true_eq]
  rfl

theorem Outbox.lockedByWorker_eq_some {π : Type} {outbox : Outbox π} {outboxId : Uuid}
    {workerId : String} {row : JobOutbox π} : outbox.lockedByWorker outboxId workerId = some row ↔
      (row ∈ outbox ∧ row.id = outboxId) ∧ row.status = .processing ∧ row.lockedBy = some workerId := by
  rw [lockedByWorker, Option.filter_eq_some_iff, Table.find_eq_some, JobOutbox.isLockedBy,
    decide_eq_true_eq]

end Trueup.Models
