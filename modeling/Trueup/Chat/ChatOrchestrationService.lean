import Mathlib.Data.List.Sort
import Trueup.Core.Clock
import Trueup.Lib.Locks
import Trueup.Lib.Processes
import Trueup.Lib.Table

/-! # Chat turns

`begin_turn` and `stream_turn` of `services/chat/chat_orchestration_service.py`, with
`ChatUsageLimiter.check`, `try_begin_turn`, `end_turn`, `count_for_customer_since` and
`finalize_content`, statement by statement, by any number of processes at read committed. A
statement sees the committed tables; it waits while another transaction has the advisory lock or the
row it is after. A transaction that raises or dies is rolled back.

* `Phase`, `Action`, `program`: where a process is, and what a statement does.
* `Step`, `program_step`: what a statement did. -/

namespace Trueup.Chat

open Trueup.Core Trueup.Models Trueup.Lib

/-! ### The tables -/

inductive ChatSessionStatus
  | idle | streaming
  deriving DecidableEq

structure ChatSession where
  id : Uuid
  customerId : Uuid
  status : ChatSessionStatus
  deriving DecidableEq

inductive ChatMessageRole
  | user | assistant
  deriving DecidableEq

/-- The customer is the one of the session: `chat_message_before_insert`. -/
structure ChatMessage where
  id : Uuid
  sessionId : Uuid
  customerId : Option Uuid
  role : ChatMessageRole
  content : String
  createdAt : Instant
  deriving DecidableEq

structure ChatTables where
  sessions : Table ChatSession.id
  messages : Table ChatMessage.id

/-- `count_for_customer_since`. -/
def countForCustomerSince (messages : Table ChatMessage.id) (customerId : Uuid) (since : Instant) : ℕ :=
  (messages.rows.filter fun message => message.customerId = some customerId ∧ message.role = .user ∧
    since ≤ message.createdAt).length

/-- `list_for_session`. -/
def listForSession (messages : Table ChatMessage.id) (sessionId : Uuid) : List ChatMessage :=
  (messages.rows.filter (·.sessionId = sessionId)).insertionSort fun m m' => m.createdAt ≤ m'.createdAt

structure ConversationTurn where
  role : ChatMessageRole
  content : String
  deriving DecidableEq

/-- `history` of `begin_turn`. -/
def history (messages : Table ChatMessage.id) (sessionId : Uuid) : List ConversationTurn :=
  ((listForSession messages sessionId).filter (·.content ≠ "")).map fun row => ⟨row.role, row.content⟩

/-- `timedelta(hours=24)`. -/
def day : Int := 86400000000

/-- What `begin_turn` and `ChatUsageLimiter.check` raise, or the unique index of the messages. -/
inductive TurnError
  | dailyQueryCapExceeded | turnAlreadyInProgress | integrity
  deriving DecidableEq

/-- `ChatUsageLimiter.check`. -/
def ChatUsageLimiter.check (dailyQueryCap : ℤ) (messages : Table ChatMessage.id) (customerId : Uuid)
    (now : Instant) : Except TurnError Unit :=
  if dailyQueryCap ≤ countForCustomerSince messages customerId (now - day) then
    .error .dailyQueryCapExceeded
  else .ok ()

/-! ### The turns -/

/-- The arguments of `begin_turn`, the ids of the two messages, and `now()` of the transaction. -/
structure TurnRequest where
  sessionId : Uuid
  customerId : Uuid
  messageText : String
  userMessageId : Uuid
  assistantMessageId : Uuid
  transactionStart : Instant
  deriving DecidableEq

structure BegunTurn where
  sessionId : Uuid
  customerId : Uuid
  assistantMessageId : Uuid
  history : List ConversationTurn
  deriving DecidableEq

/-- The row that `try_begin_turn` matches: the session, if it is idle and the customer may see
it. -/
def idleSession (sessions : Table ChatSession.id) (request : TurnRequest) : Option ChatSession :=
  (sessions.find request.sessionId).filter fun session =>
    session.customerId = request.customerId ∧ session.status = .idle

/-- A message of the turn as it is inserted. -/
def TurnRequest.message (request : TurnRequest) (session : ChatSession) (id : Uuid)
    (role : ChatMessageRole) (content : String) : ChatMessage :=
  { id, sessionId := session.id, customerId := some session.customerId, role, content,
    createdAt := request.transactionStart }

/-- What `begin_turn` commits for the session, unless an id is taken. -/
def ChatTables.begin (tables : ChatTables) (session : ChatSession) (request : TurnRequest) :
    Option ChatTables :=
  ((tables.messages.insert (request.message session request.userMessageId .user
      request.messageText)).bind fun messages =>
    messages.insert (request.message session request.assistantMessageId .assistant "")).map
      (⟨tables.sessions.set { session with status := .streaming }, ·⟩)

/-- The tables with the content of a message set; `chat_message_single_finalize` raises when it is
set already. -/
def ChatTables.finalizeContent (tables : ChatTables) (messageId : Uuid) (content : String) :
    Option ChatTables :=
  ((tables.messages.find messageId).filter (·.content = "")).map fun message =>
    { tables with messages := tables.messages.set { message with content } }

/-- `end_turn`. -/
def ChatTables.endTurn (tables : ChatTables) (sessionId : Uuid) : ChatTables :=
  match tables.sessions.find sessionId with
  | some session => { tables with sessions := tables.sessions.set { session with status := .idle } }
  | none => tables

/-- The events of `run_turn`. -/
inductive ChatStreamEvent
  | token (text : String)
  | completed (finalText : String)
  | error (message : String)
  deriving DecidableEq

/-- What `stream_turn` does with an event before it yields it. -/
def ChatTables.record (tables : ChatTables) (turn : BegunTurn) : ChatStreamEvent → Option ChatTables
  | .token _ => some tables
  | .completed finalText => tables.finalizeContent turn.assistantMessageId finalText
  | .error message => tables.finalizeContent turn.assistantMessageId message

/-! ### The processes -/

/-- What a transaction locks: `pg_advisory_xact_lock` of the hash of a customer, and the row of a
session. -/
inductive Key
  | advisory (hashtext : ℤ)
  | session (id : Uuid)
  deriving DecidableEq

/-- The committed tables, and the locks. -/
structure Shared (ι : Type) where
  tables : ChatTables
  locks : Locks Key ι

/-- Where a process is. -/
inductive Phase
  /-- between two turns, with what the last `begin_turn` raised -/
  | idle (raised : Option TurnError)
  /-- in the transaction of `begin_turn` -/
  | entered (request : TurnRequest)
  | locked (request : TurnRequest)
  | checked (request : TurnRequest) (now : Instant)
  | read (request : TurnRequest) (now : Instant) (history : List ConversationTurn)
  /-- `try_begin_turn` has updated this row -/
  | won (request : TurnRequest) (now : Instant) (history : List ConversationTurn) (session : ChatSession)
  /-- `begin_turn` has returned, and the generator of `stream_turn` has not been started -/
  | begun (turn : BegunTurn)
  | streaming (turn : BegunTurn)
  /-- in the `finally` of `stream_turn` -/
  | ending (sessionId : Uuid)
  /-- `end_turn` has updated the row -/
  | ended (sessionId : Uuid)
  deriving DecidableEq

inductive Action
  | enter (request : TurnRequest)
  | lock
  | check (now : Instant)
  | listForSession
  | tryBeginTurn
  | commit
  /-- the first event is asked for -/
  | start
  | yield (event : ChatStreamEvent)
  /-- `run_turn` is exhausted or raises -/
  | stop
  /-- the client goes away -/
  | disconnect
  | endTurn
  /-- the process dies, or the database fails it -/
  | crash
  deriving DecidableEq

section Program
variable {ι : Type} [DecidableEq ι] (hashtext : Uuid → ℤ) (dailyQueryCap : ℤ)

/-- The transaction of the process ends with these tables. -/
def Shared.commit (shared : Shared ι) (i : ι) (tables : ChatTables) : Shared ι :=
  ⟨tables, shared.locks.release i⟩

def Shared.take (shared : Shared ι) (i : ι) (k : Key) : Shared ι :=
  { shared with locks := shared.locks.take i [k] }

/-- What a statement does; one that has to wait, or that the process is not at, does nothing. -/
def program : Processes.Program ι Action (Shared ι) Phase
  | _, .enter request, shared, .idle _ => (shared, .entered request)
  | i, .lock, shared, .entered request =>
    let k := Key.advisory (hashtext request.customerId)
    if shared.locks.FreeFor i k then (shared.take i k, .locked request) else (shared, .entered request)
  | i, .check now, shared, .locked request =>
    match ChatUsageLimiter.check dailyQueryCap shared.tables.messages request.customerId now with
    | .ok _ => (shared, .checked request now)
    | .error e => (shared.commit i shared.tables, .idle (some e))
  | _, .listForSession, shared, .checked request now =>
    (shared, .read request now (history shared.tables.messages request.sessionId))
  | i, .tryBeginTurn, shared, .read request now history =>
    match idleSession shared.tables.sessions request with
    | none => (shared.commit i shared.tables, .idle (some .turnAlreadyInProgress))
    | some session =>
      if shared.locks.FreeFor i (.session session.id) then
        (shared.take i (.session session.id), .won request now history session)
      else (shared, .read request now history)
  | i, .commit, shared, .won request _ history session =>
    match shared.tables.begin session request with
    | none => (shared.commit i shared.tables, .idle (some .integrity))
    | some tables => (shared.commit i tables,
        .begun ⟨request.sessionId, request.customerId, request.assistantMessageId, history⟩)
  | _, .start, shared, .begun turn => (shared, .streaming turn)
  | _, .yield event, shared, .streaming turn =>
    match shared.tables.record turn event with
    | none => (shared, .ending turn.sessionId)
    | some tables => ({ shared with tables }, .streaming turn)
  | _, .stop, shared, .streaming turn => (shared, .ending turn.sessionId)
  -- closing a generator that has not been started runs no `finally`
  | _, .disconnect, shared, .begun _ => (shared, .idle none)
  | _, .disconnect, shared, .streaming turn => (shared, .ending turn.sessionId)
  | i, .endTurn, shared, .ending sessionId =>
    if shared.locks.FreeFor i (.session sessionId) then
      (shared.take i (.session sessionId), .ended sessionId)
    else (shared, .ending sessionId)
  | i, .commit, shared, .ended sessionId =>
    (shared.commit i (shared.tables.endTurn sessionId), .idle none)
  | i, .crash, shared, _ => (shared.commit i shared.tables, .idle none)
  | _, _, shared, phase => (shared, phase)

/-- Idle processes, over these tables. -/
def start (tables : ChatTables) : Processes.Config ι (Shared ι) Phase :=
  ⟨⟨tables, fun _ => none⟩, fun _ => .idle none⟩

/-- The session of the turn that is in progress: from the commit of `begin_turn` to that of the
release. -/
def Phase.turn : Phase → Option Uuid
  | .begun turn => some turn.sessionId
  | .streaming turn => some turn.sessionId
  | .ending sessionId => some sessionId
  | .ended sessionId => some sessionId
  | _ => none

/-- The session whose row the transaction has updated. -/
def Phase.row : Phase → Option Uuid
  | .won _ _ _ session => some session.id
  | .ended sessionId => some sessionId
  | _ => none

/-! ### What a statement did -/

variable {hashtext dailyQueryCap}

/-- What a statement of the process `i` did to the tables, the locks and the process. -/
inductive Step (hashtext : Uuid → ℤ) (dailyQueryCap : ℤ) (i : ι) (shared : Shared ι) :
    Action → Phase → Shared ι → Phase → Prop
  | stays (a : Action) (phase : Phase) : Step hashtext dailyQueryCap i shared a phase shared phase
  | enters (request : TurnRequest) (raised : Option TurnError) :
      Step hashtext dailyQueryCap i shared (.enter request) (.idle raised) shared (.entered request)
  | locks (request : TurnRequest) (free : shared.locks.FreeFor i (.advisory (hashtext request.customerId))) :
      Step hashtext dailyQueryCap i shared .lock (.entered request)
        (shared.take i (.advisory (hashtext request.customerId))) (.locked request)
  | checks (request : TurnRequest) (now : Instant)
      (below : countForCustomerSince shared.tables.messages request.customerId (now - day) < dailyQueryCap) :
      Step hashtext dailyQueryCap i shared (.check now) (.locked request) shared (.checked request now)
  | reads (request : TurnRequest) (now : Instant) (history : List ConversationTurn) :
      Step hashtext dailyQueryCap i shared .listForSession (.checked request now) shared
        (.read request now history)
  | wins (request : TurnRequest) (now : Instant) (history : List ConversationTurn) (session : ChatSession)
      (matched : idleSession shared.tables.sessions request = some session)
      (free : shared.locks.FreeFor i (.session session.id)) :
      Step hashtext dailyQueryCap i shared .tryBeginTurn (.read request now history)
        (shared.take i (.session session.id)) (.won request now history session)
  | begins (request : TurnRequest) (now : Instant) (history : List ConversationTurn)
      (session : ChatSession) (tables : ChatTables)
      (begun : shared.tables.begin session request = some tables) :
      Step hashtext dailyQueryCap i shared .commit (.won request now history session)
        (shared.commit i tables)
        (.begun ⟨request.sessionId, request.customerId, request.assistantMessageId, history⟩)
  /-- `begin_turn` raises. -/
  | refuses (a : Action) (phase : Phase) (e : TurnError) (before : phase.turn = none) :
      Step hashtext dailyQueryCap i shared a phase (shared.commit i shared.tables) (.idle (some e))
  | starts (turn : BegunTurn) :
      Step hashtext dailyQueryCap i shared .start (.begun turn) shared (.streaming turn)
  | yields (event : ChatStreamEvent) (turn : BegunTurn) (tables : ChatTables)
      (recorded : shared.tables.record turn event = some tables) :
      Step hashtext dailyQueryCap i shared (.yield event) (.streaming turn) { shared with tables }
        (.streaming turn)
  | stops (a : Action) (turn : BegunTurn) :
      Step hashtext dailyQueryCap i shared a (.streaming turn) shared (.ending turn.sessionId)
  | abandons (turn : BegunTurn) :
      Step hashtext dailyQueryCap i shared .disconnect (.begun turn) shared (.idle none)
  | ends (sessionId : Uuid) (free : shared.locks.FreeFor i (.session sessionId)) :
      Step hashtext dailyQueryCap i shared .endTurn (.ending sessionId)
        (shared.take i (.session sessionId)) (.ended sessionId)
  | releases (sessionId : Uuid) :
      Step hashtext dailyQueryCap i shared .commit (.ended sessionId)
        (shared.commit i (shared.tables.endTurn sessionId)) (.idle none)
  | crashes (phase : Phase) :
      Step hashtext dailyQueryCap i shared .crash phase (shared.commit i shared.tables) (.idle none)

/-- **What a statement did.** -/
theorem program_step (i : ι) (a : Action) (shared : Shared ι) (phase : Phase) :
    Step hashtext dailyQueryCap i shared a phase
      (program hashtext dailyQueryCap i a shared phase).1
      (program hashtext dailyQueryCap i a shared phase).2 := by
  unfold program
  split
  · exact .enters _ _
  · dsimp only
    split_ifs with hfree
    · exact .locks _ hfree
    · exact .stays _ _
  · unfold ChatUsageLimiter.check
    split_ifs with hcap
    · exact .refuses _ _ _ rfl
    · exact .checks _ _ (not_le.mp hcap)
  · exact .reads _ _ _
  · split
    · exact .refuses _ _ _ rfl
    · rename_i session hmatched
      split_ifs with hfree
      · exact .wins _ _ _ session hmatched hfree
      · exact .stays _ _
  · split
    · exact .refuses _ _ _ rfl
    · rename_i tables hbegun
      exact .begins _ _ _ _ tables hbegun
  · exact .starts _
  · split
    · exact .stops _ _
    · rename_i tables hrecorded
      exact .yields _ _ tables hrecorded
  · exact .stops _ _
  · exact .abandons _
  · exact .stops _ _
  · split_ifs with hfree
    · exact .ends _ hfree
    · exact .stays _ _
  · exact .releases _
  · exact .crashes _
  · exact .stays _ _

theorem act_step (i : ι) (a : Action) (c : Processes.Config ι (Shared ι) Phase) :
    Step hashtext dailyQueryCap i c.shared a (c.locals i)
      (Processes.act (program hashtext dailyQueryCap) (i, a) c).shared
      ((Processes.act (program hashtext dailyQueryCap) (i, a) c).locals i) := by
  rw [Processes.act_self]
  exact program_step i a c.shared (c.locals i)

end Program

end Trueup.Chat
