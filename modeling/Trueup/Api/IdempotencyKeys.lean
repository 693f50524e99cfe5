import Trueup.Identity.DepositService
import Trueup.Identity.WithdrawalService
import Trueup.Lib.Scripts
import Trueup.Orders.LotDesignationService

/-! # The store behind the API

`core/idempotency.py` and `models/ops/idempotency_key.py`: what is recorded of a request that
carries an `Idempotency-Key`, and the answer to a replay. The store has these records beside the
database, and the outbox rows that submit orders.

A statement that a service sends is a statement over the store (`observe`, `perform`); a service run
on its own there is the service run on the database (`onDatabase`). -/

namespace Trueup.Api

open Trueup.Core Trueup.Models Trueup.Lib Trueup.Lib.Transaction Trueup.Lib.Scripts
open Trueup.Lib.Scripts.Script Trueup.Identity Trueup.Orders

/-! ### Responses and records -/

/-- `OrderResponse`. -/
structure OrderResponse where
  id : Uuid
  customerId : Uuid
  securityId : Uuid
  symbol : String
  side : OrderSide
  quantityRequested : Units
  status : OrderStatus
  filledQuantity : Units
  averageFillPrice : Option Price
  clientOrderId : ClientOrderId
  designatedLotIds : Option (List Uuid)
  createdAt : Instant
  updatedAt : Instant
  deriving DecidableEq

/-- The body of a response. -/
inductive ResponseBody
  | deposit (view : DepositResult)
  | withdrawal (view : WithdrawalResult)
  | order (view : OrderResponse)
  deriving DecidableEq

/-- A status and a body. -/
abbrev Response := ℕ × ResponseBody

/-- The bytes of a request. -/
abbrev RawBody := List UInt8

structure IdempotencyRecord where
  customerId : Uuid
  key : String
  requestHash : String
  responseStatus : ℕ
  responseBody : ResponseBody
  createdAt : Datetime
  deriving DecidableEq

/-- `uq_idempotency_key_customer_key`. -/
def IdempotencyRecord.uniqueKey (record : IdempotencyRecord) : Uuid × String :=
  (record.customerId, record.key)

/-- `resolve_replay`; `request_hash` is the digest `sha256`. -/
def resolveReplay (sha256 : RawBody → String) (body : RawBody) (record : IdempotencyRecord) :
    Except Error Response := do
  check (record.requestHash = sha256 body) .idempotencyConflict
  return (record.responseStatus, record.responseBody)

/-! ### The store -/

structure Store where
  db : Database
  idempotencyKeys : Table IdempotencyRecord.uniqueKey
  submissions : Outbox OrderSubmission

/-- `save`, at the flush; the key is a `String(255)`. -/
def saveRecord (record : IdempotencyRecord) (store : Store) : Except Error Store := do
  check (record.key.length ≤ 255) .dataError
  let t ← ofOption (store.idempotencyKeys.insert record) (.integrityError .idempotencyKeyCustomerKey)
  return { store with idempotencyKeys := t }

theorem saveRecord_ok {record : IdempotencyRecord} {store store' : Store}
    (h : saveRecord record store = .ok store') :
    store.idempotencyKeys.insert record = some store'.idempotencyKeys := by
  simp only [saveRecord, except_bind_ok, check_ok, ofOption_ok] at h
  obtain ⟨_, -, t, ht, h⟩ := h
  cases h
  exact ht

/-- `outbox.enqueue`, of `submit_order_to_broker`. -/
def enqueueSubmission (row : JobOutbox OrderSubmission) (store : Store) : Except Error Store := do
  let t ← ofOption (store.submissions.insert row) (.integrityError .primaryKey)
  return { store with submissions := t }

/-! ### Statements -/

/-- The rows that requests lock: the cash of a customer, and tax lots. -/
inductive Lock
  | cash (customerId : Uuid)
  | lot (lotId : Uuid)
  deriving DecidableEq

/-- The statements of a unit of work of the API. -/
abbrev Statements (α : Type) := Script Error Store Lock α

/-- A body over the database, over the store. -/
def onDatabase {α : Type} (x : Tx α) : Transaction.Tx Error Store α :=
  fun store => (x.run store.db).map fun r => (r.1, { store with db := r.2 })

/-- A read of the database. -/
def select {α : Type} (f : Database → Except Error α) : Statements α := query fun store => f store.db

/-- A body that reads, as one statement. -/
def observe {α : Type} (x : Tx α) : Statements α := select fun db => (x.run db).map (·.1)

/-- A body that writes, as one statement. -/
def perform (x : Tx Unit) : Statements Unit :=
  execute fun store => (x.run store.db).map fun r => { store with db := r.2 }

/-- The insertion of an entry and of its postings, after the check of the legs: `post`. -/
def post (id : Uuid) (entryType : JournalEntryType) (effectiveDate : Date)
    (sourceEvent : SourceEvent) (legs : List Ledger.PostingLeg) : Statements JournalEntry := do
  compute (Ledger.validateLegs legs)
  let entry : JournalEntry :=
    { id, entryType, effectiveDate, sourceEvent, supersededBy := none, supersedesReason := none }
  perform (addJournalEntry entry)
  each (fun leg => perform (Ledger.addLeg entry.id leg)) legs
  return entry

section OnDatabase
variable {α β : Type}

@[simp] theorem onDatabase_pure (a : α) : onDatabase (pure a) = pure a := rfl

@[simp] theorem onDatabase_bind (x : Tx α) (f : α → Tx β) :
    onDatabase (x >>= f) = onDatabase x >>= fun a => onDatabase (f a) := by
  funext store
  show ((x >>= f).run store.db).map _ = _
  rw [StateT.run_bind]
  show _ = (onDatabase x).run store >>= _
  show _ = ((x.run store.db).map _) >>= _
  cases x.run store.db with
  | error e => rfl
  | ok r => rfl

theorem onDatabase_read (f : Database → Except Error α) :
    onDatabase (Transaction.read f) = Transaction.read fun store => f store.db := by
  funext store
  show ((f store.db).map _).map _ = (f store.db).map _
  cases f store.db with
  | error e => rfl
  | ok a => rfl

@[simp] theorem onDatabase_lift (x : Except Error α) : onDatabase (Transaction.lift x) = Transaction.lift x :=
  onDatabase_read fun _ => x

@[simp] theorem serial_select (f : Database → Except Error α) :
    (select f).serial = onDatabase (Transaction.read f) := by
  rw [select, serial_query, onDatabase_read]

theorem serial_observe {x : Tx α} {f : Database → Except Error α} (h : x = Transaction.read f) :
    (observe x).serial = onDatabase x := by
  have hrun : (fun db => (x.run db).map (·.1)) = f := by
    funext db
    rw [h]
    show ((f db).map _).map _ = _
    cases f db with
    | error e => rfl
    | ok a => rfl
  rw [observe, hrun, serial_select, h]

@[simp] theorem serial_perform (x : Tx Unit) : (perform x).serial = onDatabase x := by
  rw [perform, serial_execute]
  funext store
  show ((x.run store.db).map _).map _ = (x.run store.db).map _
  cases x.run store.db with
  | error e => rfl
  | ok r => rfl

theorem onDatabase_each (f : β → Tx Unit) : ∀ bs,
    onDatabase (Transaction.each f bs) = Transaction.each (fun b => onDatabase (f b)) bs
  | [] => rfl
  | b :: bs => by
    simp only [Transaction.each, onDatabase_bind, onDatabase_each f bs]

theorem serial_post (id : Uuid) (entryType : JournalEntryType) (effectiveDate : Date)
    (sourceEvent : SourceEvent) (legs : List Ledger.PostingLeg) :
    (post id entryType effectiveDate sourceEvent legs).serial =
      onDatabase (Ledger.post id entryType effectiveDate sourceEvent legs) := by
  simp only [post, Ledger.post, Ledger.writeEntry, serial_bind, serial_compute, serial_perform,
    serial_each, serial_pure, onDatabase_bind, onDatabase_lift, onDatabase_each, onDatabase_pure]

/-- On its own, the script reads `f`. -/
def Reads (x : Statements α) (f : Database → Except Error α) : Prop :=
  x.serial = onDatabase (Transaction.read f)

theorem reads_select (f : Database → Except Error α) : Reads (select f) f := serial_select f

theorem reads_compute (x : Except Error α) : Reads (compute x) fun _ => x :=
  (serial_compute x).trans (onDatabase_lift x).symm

theorem reads_pure (a : α) : Reads (pure a) fun _ => .ok a := rfl

theorem reads_bind {x : Statements α} {g : α → Statements β} {f : Database → Except Error α}
    {h : α → Database → Except Error β} (hx : Reads x f) (hg : ∀ a, Reads (g a) (h a)) :
    Reads (x >>= g) fun db => f db >>= fun a => h a db := by
  unfold Reads at hx hg ⊢
  rw [serial_bind, hx]
  simp only [hg]
  rw [← onDatabase_bind]
  congr 1
  funext db
  show (Transaction.read f >>= fun a => Transaction.read (h a)).run db = _
  rw [StateT.run_bind]
  show (f db).map _ >>= _ = (f db >>= _).map _
  cases f db with
  | error e => rfl
  | ok a => rfl

end OnDatabase

/-! ### The records are left alone -/

section Leaves
variable {α : Type}

theorem leaves_select (f : Database → Except Error α) :
    Leaves Store.idempotencyKeys (select f) := leaves_query _

theorem leaves_observe (x : Tx α) : Leaves Store.idempotencyKeys (observe x) := leaves_query _

theorem leaves_perform (x : Tx Unit) : Leaves Store.idempotencyKeys (perform x) := by
  refine leaves_execute fun store store' h => ?_
  obtain ⟨r, -, rfl⟩ := except_map_ok.mp h
  rfl

theorem leaves_post (id : Uuid) (entryType : JournalEntryType) (effectiveDate : Date)
    (sourceEvent : SourceEvent) (legs : List Ledger.PostingLeg) :
    Leaves Store.idempotencyKeys (post id entryType effectiveDate sourceEvent legs) :=
  leaves_bind (leaves_compute _) fun _ => leaves_bind (leaves_perform _) fun _ =>
    leaves_bind (leaves_each (fun _ => leaves_perform _) legs) fun _ => leaves_pure _

end Leaves

end Trueup.Api
