import Trueup.Ledger.PostingService
import Trueup.Lib.Processes

/-! # Ledger sessions

The ledger as the database has it, under the units of work of `core/uow.py`: a posting row has two
columns of which a service or a statement could set none or both, a call inserts its entry at once
and its postings at the next flush, the insert trigger and the `CHECK` see each row, and the
deferred balance trigger sees the transaction at its commit. A rejected flush breaks the session
until it is rolled back.

`Recorded` is what the callers have been told, next to the tables: which calls were accepted in a
transaction that has committed. -/

namespace Trueup.Ledger

open Trueup.Core Trueup.Models Trueup.Lib Trueup.Lib.Transaction

/-- A row of `posting`. -/
structure PostingRow where
  journalEntryId : Uuid
  account : Account
  customerId : Option Uuid
  amountMoney : Option Money
  quantityUnits : Option Units
  deriving DecidableEq

namespace PostingRow

/-- `exactly_one_dimension`. -/
def ExactlyOneDimension (row : PostingRow) : Prop :=
  (row.amountMoney.isSome ∧ row.quantityUnits.isNone) ∨
    (row.amountMoney.isNone ∧ row.quantityUnits.isSome)

instance (row : PostingRow) : Decidable row.ExactlyOneDimension :=
  inferInstanceAs (Decidable (_ ∨ _))

/-- Nothing is set that the account is not of the dimension of. -/
def MatchesDimension (row : PostingRow) : Prop :=
  match row.account.role.dimension with
  | .money => row.quantityUnits.isNone
  | .units => row.amountMoney.isNone

instance (row : PostingRow) : Decidable row.MatchesDimension := by
  unfold MatchesDimension
  cases row.account.role.dimension <;> infer_instance

/-- The money quanta of a row. -/
def moneyQuanta (row : PostingRow) : ℤ := (row.amountMoney.map (·.quanta)).getD 0

/-- `NEW.customer_id := acct.customer_id`. -/
def denormalized (row : PostingRow) : PostingRow := { row with customerId := row.account.customerId }

end PostingRow

/-- The posting `_write` adds for a leg. -/
def PostingLeg.row (entryId : Uuid) (leg : PostingLeg) : PostingRow :=
  ⟨entryId, leg.account, none, leg.amountMoney, leg.quantityUnits⟩

/-- `journal_entry` and `posting`. -/
structure LedgerTables where
  entries : List JournalEntry
  postings : List PostingRow

/-- The money postings of an entry. -/
def moneyOf (postings : List PostingRow) (entryId : Uuid) : ℤ :=
  ((postings.filter (·.journalEntryId = entryId)).map PostingRow.moneyQuanta).sum

/-- Why a call, a query or a commit raises. -/
inductive Rejection
  /-- `_validate_legs` -/
  | legs (e : Error)
  /-- `posting_denormalize_and_validate` -/
  | dimensionMismatch
  | exactlyOneDimension
  | primaryKey
  /-- The foreign key of `superseded_by`. -/
  | unknownOriginal
  /-- `check_journal_entry_balance` -/
  | unbalanced
  /-- Anything else the database refuses a statement for: another foreign key, a row policy, a lost
  connection. -/
  | refused
  /-- `PendingRollbackError` -/
  | pendingRollback
  deriving DecidableEq

/-- `posting_denormalize_and_validate`, then the `CHECK`. -/
def insertPosting (row : PostingRow) : Except Rejection PostingRow := do
  check row.MatchesDimension .dimensionMismatch
  check row.ExactlyOneDimension .exactlyOneDimension
  return row.denormalized

/-- A call of the service. -/
inductive PostingCall
  | post (id : Uuid) (entryType : JournalEntryType) (effectiveDate : Date) (sourceEvent : SourceEvent)
      (legs : List PostingLeg)
  | correct (id : Uuid) (original : JournalEntry) (effectiveDate : Date) (sourceEvent : SourceEvent)
      (legs : List PostingLeg) (reason : String)
  deriving DecidableEq

namespace PostingCall

/-- The entry that `_write` constructs. -/
def entry : PostingCall → JournalEntry
  | post id entryType effectiveDate sourceEvent _ =>
    { id, entryType, effectiveDate, sourceEvent, supersededBy := none, supersedesReason := none }
  | correct id original effectiveDate sourceEvent _ reason =>
    { id, entryType := original.entryType, effectiveDate, sourceEvent,
      supersededBy := some original.id, supersedesReason := some reason }

def legs : PostingCall → List PostingLeg
  | post _ _ _ _ legs => legs
  | correct _ _ _ _ legs _ => legs

/-- The posting rows of the call, as they are in the table. -/
def rows (call : PostingCall) : List PostingRow :=
  call.legs.map fun leg => (leg.row call.entry.id).denormalized

end PostingCall

/-- A session: the rows its transaction has inserted, and the postings added but not flushed. -/
structure Session where
  entries : List JournalEntry
  postings : List PostingRow
  pending : List PostingRow
  failed : Bool

namespace Session

/-- A session that has not begun its transaction. -/
def fresh : Session := ⟨[], [], [], false⟩

/-- After a rejected statement: the transaction is gone, and only a rollback is accepted. -/
def broken : Session := ⟨[], [], [], true⟩

/-- The entry may be inserted: its id is free, and what it supersedes exists. -/
def checkEntry (tables : LedgerTables) (s : Session) (entry : JournalEntry) :
    Except Rejection Unit := do
  let ids := (tables.entries ++ s.entries).map (·.id)
  check (entry.id ∉ ids) .primaryKey
  check (∀ original ∈ entry.supersededBy, original ∈ ids) .unknownOriginal

/-- `session.flush()`, with the entry that has just been added, if any. -/
def flush (tables : LedgerTables) (added : Option JournalEntry) (refused : Bool) (s : Session) :
    Except Rejection Session := do
  check (s.failed = false) .pendingRollback
  check (refused = false) .refused
  added.forM (s.checkEntry tables)
  let rows ← s.pending.mapM insertPosting
  return ⟨s.entries ++ added.toList, s.postings ++ rows, [], false⟩

/-- `_write`. -/
def write (tables : LedgerTables) (call : PostingCall) (refused : Bool) (s : Session) :
    Except Rejection Unit × Session :=
  match validateLegs call.legs with
  | .error e => (.error (.legs e), s)
  | .ok () =>
    match s.flush tables (some call.entry) refused with
    | .error e => (.error e, broken)
    | .ok s => (.ok (), { s with pending := call.legs.map (·.row call.entry.id) })

/-- `COMMIT`: no other transaction has taken an id, and each inserted posting's entry is
balanced. -/
def deferredChecks (tables : LedgerTables) (s : Session) : Except Rejection LedgerTables := do
  check (∀ entry ∈ s.entries, entry.id ∉ tables.entries.map (·.id)) .primaryKey
  let postings := tables.postings ++ s.postings
  check (∀ row ∈ s.postings, moneyOf postings row.journalEntryId = 0) .unbalanced
  return ⟨tables.entries ++ s.entries, postings⟩

/-- `commit()`: what is pending is flushed, then the transaction commits. -/
def commit (tables : LedgerTables) (refused : Bool) (s : Session) : Except Rejection LedgerTables := do
  let s ← s.flush tables none refused
  s.deferredChecks tables

end Session

/-- What the holder of a session does; a `refused` statement is one the database does not accept. -/
inductive SessionAction
  | call (call : PostingCall) (refused : Bool)
  /-- A query, which flushes first. -/
  | query (refused : Bool)
  | commit (refused : Bool)
  /-- `rollback()`, or `__exit__` without a commit. -/
  | rollback
  deriving DecidableEq

/-- An action on the committed tables and the session: the reply, and what is left of both. -/
def perform (tables : LedgerTables) (s : Session) :
    SessionAction → Except Rejection Unit × LedgerTables × Session
  | .call call refused =>
    let (reply, s) := s.write tables call refused
    (reply, tables, s)
  | .query refused =>
    match s.flush tables none refused with
    | .error e => (.error e, tables, .broken)
    | .ok s => (.ok (), tables, s)
  | .commit refused =>
    match s.commit tables refused with
    | .error e => (.error e, tables, .broken)
    | .ok tables => (.ok (), tables, .fresh)
  | .rollback => (.ok (), tables, .fresh)

/-- The tables, and the calls that were accepted in transactions that have committed. -/
structure Recorded where
  tables : LedgerTables
  committed : List PostingCall

/-- A session, and the calls that were accepted since its transaction began. -/
structure Holder where
  session : Session
  accepted : List PostingCall

/-- An action, and what its holder is told. -/
def sessions : Processes.Program ℕ SessionAction Recorded Holder := fun _ action w holder =>
  let (reply, tables, session) := perform w.tables holder.session action
  match action, reply with
  | .call call _, .ok () => (⟨tables, w.committed⟩, ⟨session, holder.accepted ++ [call]⟩)
  | .commit _, .ok () => (⟨tables, w.committed ++ holder.accepted⟩, ⟨session, []⟩)
  | .rollback, _ => (⟨tables, w.committed⟩, ⟨session, []⟩)
  | _, _ => (⟨tables, w.committed⟩, ⟨session, holder.accepted⟩)

/-- An empty ledger. -/
def emptyLedger : Processes.Config ℕ Recorded Holder := ⟨⟨⟨[], []⟩, []⟩, fun _ => ⟨.fresh, []⟩⟩

/-- A run of sessions, from an empty ledger. -/
def runSessions (steps : List (ℕ × SessionAction)) : Processes.Config ℕ Recorded Holder :=
  Processes.run sessions steps emptyLedger

end Trueup.Ledger
