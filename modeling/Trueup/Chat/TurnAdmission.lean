import Trueup.Chat.ChatOrchestrationService

/-! # Turn admission

`begin_turn` and `stream_turn` by any number of processes, in any order of their statements, with
clients that go away and processes that die.

* `Knows`: what a process knows at each of its statements; with the sessions of the turns that are
  in progress different, no statement breaks it (`Invariant.run`).
* `turn_admission`: no session has two turns in progress, a turn that begins keeps the customer
  within the cap, and a `begin_turn` that does not begin a turn changes no table. -/

namespace Trueup.Chat

open Trueup.Core Trueup.Models Trueup.Lib

/-! ### The tables -/

section Tables
variable {tables tables' : ChatTables} {session : ChatSession} {request : TurnRequest}

theorem idleSession_eq_some {sessions : Table ChatSession.id} :
    idleSession sessions request = some session ↔ sessions.find request.sessionId = some session ∧
      session.customerId = request.customerId ∧ session.status = .idle := by
  simp [idleSession, Option.filter_eq_some_iff]

theorem ChatTables.begin_eq_some (h : tables.begin session request = some tables') :
    tables'.sessions = tables.sessions.set { session with status := .streaming } ∧
      tables'.messages.rows = tables.messages.rows ++
        [request.message session request.userMessageId .user request.messageText,
          request.message session request.assistantMessageId .assistant ""] := by
  obtain ⟨messages, hmessages, rfl⟩ := Option.map_eq_some_iff.mp h
  obtain ⟨between, huser, hassistant⟩ := Option.bind_eq_some_iff.mp hmessages
  refine ⟨rfl, ?_⟩
  rw [Table.rows_insert hassistant, Table.rows_insert huser, List.append_assoc]
  rfl

/-- A turn adds one message of the customer of the session to those that are counted. -/
theorem countForCustomerSince_begin (h : tables.begin session request = some tables') (customerId : Uuid)
    (since : Instant) :
    countForCustomerSince tables'.messages customerId since =
      countForCustomerSince tables.messages customerId since +
        if session.customerId = customerId ∧ since ≤ request.transactionStart then 1 else 0 := by
  unfold countForCustomerSince
  rw [(ChatTables.begin_eq_some h).2, List.filter_append, List.length_append]
  congr 1
  by_cases hcustomer : session.customerId = customerId <;>
    by_cases hsince : since ≤ request.transactionStart <;>
    simp [TurnRequest.message, hcustomer, hsince]

/-- An event changes no session and no count. -/
theorem ChatTables.record_eq_some {turn : BegunTurn} {event : ChatStreamEvent}
    (h : tables.record turn event = some tables') :
    tables'.sessions = tables.sessions ∧ ∀ customerId since,
      countForCustomerSince tables'.messages customerId since =
        countForCustomerSince tables.messages customerId since := by
  have hfinalize : ∀ content, tables.finalizeContent turn.assistantMessageId content = some tables' →
      tables'.sessions = tables.sessions ∧ ∀ customerId since,
        countForCustomerSince tables'.messages customerId since =
          countForCustomerSince tables.messages customerId since := by
    intro content hfinal
    obtain ⟨message, hmessage, rfl⟩ := Option.map_eq_some_iff.mp hfinal
    obtain ⟨hmem, -⟩ := Table.find_eq_some.mp (Option.filter_eq_some_iff.mp hmessage).1
    refine ⟨rfl, fun customerId since => ?_⟩
    -- what is counted does not depend on the content
    let column (m : ChatMessage) := (m.customerId, m.role, m.createdAt)
    have hcount : ∀ messages : Table ChatMessage.id, countForCustomerSince messages customerId since =
        (messages.rows.map column).countP fun m => m.1 = some customerId ∧ m.2.1 = .user ∧ since ≤ m.2.2 :=
      fun messages => by rw [countForCustomerSince, List.countP_map, List.countP_eq_length_filter]; rfl
    rw [hcount, hcount]
    exact congrArg _ (Table.map_set (r := ({ message with content } : ChatMessage)) hmem rfl rfl)
  cases event with
  | token text =>
    cases h
    exact ⟨rfl, fun _ _ => rfl⟩
  | completed finalText => exact hfinalize finalText h
  | error message => exact hfinalize message h

theorem ChatTables.find_endTurn (sessionId id : Uuid) :
    (tables.endTurn sessionId).sessions.find id =
      if sessionId = id then (tables.sessions.find id).map fun session => { session with status := .idle }
      else tables.sessions.find id := by
  unfold ChatTables.endTurn
  cases hfind : tables.sessions.find sessionId with
  | none =>
    split_ifs with hid
    · rw [← hid, hfind]
      rfl
    · rfl
  | some session =>
    obtain ⟨hmem, rfl⟩ := Table.find_eq_some.mp hfind
    dsimp only
    rw [Table.find_set (r := ({ session with status := .idle } : ChatSession))
      (show tables.sessions.Has session.id from Table.has_of_mem hmem)]
    split_ifs with hid
    · rw [← hid, hfind]
      rfl
    · rfl

theorem ChatTables.endTurn_messages (sessionId : Uuid) :
    (tables.endTurn sessionId).messages = tables.messages := by
  unfold ChatTables.endTurn
  split <;> rfl

end Tables

/-! ### What a process knows -/

section Invariant
variable {ι : Type} [DecidableEq ι] {hashtext : Uuid → ℤ} {dailyQueryCap : ℤ} {i j : ι} {a : Action}
  {shared shared' : Shared ι} {phase phase' other : Phase}

/-- The process has the advisory lock of the customer, who was below the cap at the check and is
still. -/
def Cleared (hashtext : Uuid → ℤ) (dailyQueryCap : ℤ) (i : ι) (shared : Shared ι) (customerId : Uuid)
    (now : Instant) : Prop :=
  shared.locks (.advisory (hashtext customerId)) = some i ∧
    countForCustomerSince shared.tables.messages customerId (now - day) < dailyQueryCap

/-- What `begin_turn` knows. -/
def Admits (hashtext : Uuid → ℤ) (dailyQueryCap : ℤ) (i : ι) (shared : Shared ι) : Phase → Prop
  | .locked request => shared.locks (.advisory (hashtext request.customerId)) = some i
  | .checked request now => Cleared hashtext dailyQueryCap i shared request.customerId now
  | .read request now _ => Cleared hashtext dailyQueryCap i shared request.customerId now
  | .won request now _ session => Cleared hashtext dailyQueryCap i shared request.customerId now ∧
      idleSession shared.tables.sessions request = some session
  | _ => True

/-- What a process knows: its session is streaming while its turn is in progress, it holds the row
it has updated and no other, and what `begin_turn` knows. -/
structure Knows (hashtext : Uuid → ℤ) (dailyQueryCap : ℤ) (i : ι) (shared : Shared ι) (phase : Phase) :
    Prop where
  streaming : ∀ sessionId, phase.turn = some sessionId →
    ∃ session, shared.tables.sessions.find sessionId = some session ∧ session.status = .streaming
  row : ∀ sessionId, shared.locks (.session sessionId) = some i ↔ phase.row = some sessionId
  admits : Admits hashtext dailyQueryCap i shared phase

/-- What a statement of the process `i` leaves alone: the locks of the others, the sessions whose
rows `i` has not locked, and the counts of the customers whose advisory lock it does not have. -/
structure Frame (hashtext : Uuid → ℤ) (i : ι) (shared shared' : Shared ι) : Prop where
  keeps : ∀ j, i ≠ j → shared.locks.Keeps shared'.locks j
  gains : ∀ j, i ≠ j → shared'.locks.Keeps shared.locks j
  sessions : ∀ id, shared'.tables.sessions.find id = shared.tables.sessions.find id ∨
    shared.locks (.session id) = some i
  counts : ∀ customerId since, countForCustomerSince shared'.tables.messages customerId since =
      countForCustomerSince shared.tables.messages customerId since ∨
    shared.locks (.advisory (hashtext customerId)) = some i

omit [DecidableEq ι] in
theorem Frame.refl : Frame hashtext i shared shared :=
  ⟨fun j _ => .refl _ j, fun j _ => .refl _ j, fun _ => Or.inl rfl, fun _ _ => Or.inl rfl⟩

omit [DecidableEq ι] in
theorem Shared.take_locks {k k' : Key} :
    (shared.take i k).locks k' = some i ↔ k' = k ∨ shared.locks k' = some i := Locks.take_singleton_self

omit [DecidableEq ι] in
theorem Frame.take {k : Key} (hfree : shared.locks.FreeFor i k) :
    Frame hashtext i shared (shared.take i k) :=
  ⟨fun _ hij => Locks.keeps_take_other (by simpa using hfree) hij,
    fun _ hij => Locks.keeps_of_take_other hij, fun _ => Or.inl rfl, fun _ _ => Or.inl rfl⟩

theorem Frame.commit {tables : ChatTables}
    (hsessions : ∀ id, tables.sessions.find id = shared.tables.sessions.find id ∨
      shared.locks (.session id) = some i)
    (hcounts : ∀ customerId since, countForCustomerSince tables.messages customerId since =
        countForCustomerSince shared.tables.messages customerId since ∨
      shared.locks (.advisory (hashtext customerId)) = some i) :
    Frame hashtext i shared (shared.commit i tables) :=
  ⟨fun _ hij => Locks.keeps_release hij, fun _ _ => Locks.keeps_of_release, hsessions, hcounts⟩

omit [DecidableEq ι] in
/-- The process begins the turn in a session it has locked, for the customer whose advisory lock it
has. -/
theorem Knows.find_begin {request : TurnRequest} {now : Instant} {history : List ConversationTurn}
    {session : ChatSession} {tables : ChatTables}
    (h : Knows hashtext dailyQueryCap i shared (.won request now history session))
    (hbegun : shared.tables.begin session request = some tables) (id : Uuid) :
    tables.sessions.find id = if request.sessionId = id then some { session with status := .streaming }
      else shared.tables.sessions.find id := by
  obtain ⟨hfind, -⟩ := idleSession_eq_some.mp h.admits.2
  obtain ⟨hmem, hid⟩ := Table.find_eq_some.mp hfind
  rw [(ChatTables.begin_eq_some hbegun).1,
    Table.find_set (r := ({ session with status := .streaming } : ChatSession))
      (show shared.tables.sessions.Has session.id from Table.has_of_mem hmem), ← hid]

/-- **A statement leaves the others' locks, rows and counts alone.** -/
theorem Step.frame (h : Step hashtext dailyQueryCap i shared a phase shared' phase')
    (hknows : Knows hashtext dailyQueryCap i shared phase) : Frame hashtext i shared shared' := by
  have hunchanged : Frame hashtext i shared (shared.commit i shared.tables) :=
    .commit (fun _ => Or.inl rfl) fun _ _ => Or.inl rfl
  cases h with
  | locks request free => exact .take free
  | wins request now history session matched free => exact .take free
  | ends sessionId free => exact .take free
  | begins request now history session tables begun =>
    obtain ⟨⟨hadvisory, -⟩, hidle⟩ := hknows.admits
    obtain ⟨hfind, hcustomer, -⟩ := idleSession_eq_some.mp hidle
    refine .commit (fun id => ?_) fun customerId since => ?_
    · rw [hknows.find_begin begun]
      split_ifs with hid
      · refine Or.inr ((hknows.row id).mpr ?_)
        rw [← hid, ← (Table.find_eq_some.mp hfind).2]
        rfl
      · exact Or.inl rfl
    · by_cases hsame : session.customerId = customerId
      · rw [← hsame, hcustomer]
        exact Or.inr hadvisory
      · refine Or.inl ?_
        rw [countForCustomerSince_begin begun, if_neg fun h => hsame h.1, Nat.add_zero]
  | yields event turn tables recorded =>
    obtain ⟨hsessions, hcounts⟩ := ChatTables.record_eq_some recorded
    exact ⟨fun j _ => .refl _ j, fun j _ => .refl _ j, fun id => Or.inl (by rw [hsessions]),
      fun customerId since => Or.inl (hcounts customerId since)⟩
  | releases sessionId =>
    refine .commit (fun id => ?_) fun customerId since => Or.inl (by rw [ChatTables.endTurn_messages])
    rw [ChatTables.find_endTurn]
    split_ifs with hid
    · exact Or.inr ((hknows.row id).mpr (congrArg some hid))
    · exact Or.inl rfl
  | refuses => exact hunchanged
  | crashes => exact hunchanged
  | stays | enters | checks | reads | starts | stops | abandons => exact .refl

omit [DecidableEq ι] in
/-- **A process does not interfere with another.** -/
theorem Knows.undisturbed (hij : i ≠ j) (hframe : Frame hashtext i shared shared')
    (hturn : ∀ sessionId, other.turn = some sessionId →
      shared'.tables.sessions.find sessionId = shared.tables.sessions.find sessionId)
    (h : Knows hashtext dailyQueryCap j shared other) : Knows hashtext dailyQueryCap j shared' other := by
  have hnot : ∀ k, shared.locks k = some j → shared.locks k ≠ some i := fun k hj hi =>
    hij (Option.some.inj (hi.symm.trans hj))
  have hcleared : ∀ {customerId now}, Cleared hashtext dailyQueryCap j shared customerId now →
      Cleared hashtext dailyQueryCap j shared' customerId now := by
    rintro customerId now ⟨hadvisory, hbelow⟩
    refine ⟨hframe.keeps j hij _ hadvisory, ?_⟩
    rcases hframe.counts customerId (now - day) with hsame | hmine
    · rwa [hsame]
    · exact absurd hmine (hnot _ hadvisory)
  refine ⟨fun sessionId hsession => ?_, fun sessionId => ?_, ?_⟩
  · rw [hturn sessionId hsession]
    exact h.streaming sessionId hsession
  · rw [← h.row sessionId]
    exact ⟨hframe.gains j hij _, hframe.keeps j hij _⟩
  · have hadmits := h.admits
    cases other with
    | locked request => exact hframe.keeps j hij _ hadmits
    | checked request now => exact hcleared hadmits
    | read request now history => exact hcleared hadmits
    | won request now history session =>
      obtain ⟨hcustomer, hidle⟩ := hadmits
      refine ⟨hcleared hcustomer, ?_⟩
      have hid := (Table.find_eq_some.mp (idleSession_eq_some.mp hidle).1).2
      rcases hframe.sessions request.sessionId with hsame | hmine
      · unfold idleSession
        rw [hsame]
        exact hidle
      · exact absurd hmine (hnot _ ((h.row _).mpr (congrArg some hid)))
    | idle | entered | begun | streaming | ending | ended => trivial

/-- **What a process knows after its own statement.** -/
theorem Step.knows (h : Step hashtext dailyQueryCap i shared a phase shared' phase')
    (hknows : Knows hashtext dailyQueryCap i shared phase) :
    Knows hashtext dailyQueryCap i shared' phase' := by
  have hadmits := hknows.admits
  -- a transaction that ends has no row
  have hended : ∀ {tables : ChatTables} {phase : Phase}, phase.row = none → ∀ sessionId,
      (shared.commit i tables).locks (.session sessionId) = some i ↔ phase.row = some sessionId := by
    intro tables phase hrow sessionId
    rw [hrow]
    exact ⟨fun hheld => absurd hheld (Locks.release_self _), nofun⟩
  have htaken : ∀ {id : Uuid}, phase.row = none → ∀ sessionId,
      (shared.take i (.session id)).locks (.session sessionId) = some i ↔ some id = some sessionId := by
    intro id hrow sessionId
    have hrows := hknows.row sessionId
    rw [hrow] at hrows
    rw [Shared.take_locks, hrows]
    simp [eq_comm]
  cases h with
  | stays => exact hknows
  | enters request raised => exact ⟨nofun, hknows.row, trivial⟩
  | locks request free =>
    refine ⟨nofun, fun sessionId => ?_, Shared.take_locks.mpr (Or.inl rfl)⟩
    rw [Shared.take_locks, or_iff_right nofun]
    exact hknows.row sessionId
  | checks request now below => exact ⟨nofun, hknows.row, hadmits, below⟩
  | reads request now history => exact ⟨nofun, hknows.row, hadmits⟩
  | wins request now history session matched free =>
    exact ⟨nofun, htaken rfl, ⟨Shared.take_locks.mpr (Or.inr hadmits.1), hadmits.2⟩, matched⟩
  | begins request now history session tables begun =>
    refine ⟨fun sessionId hsession => ?_, hended rfl, trivial⟩
    refine ⟨{ session with status := .streaming }, ?_, rfl⟩
    show tables.sessions.find sessionId = _
    rw [hknows.find_begin begun, if_pos (Option.some.inj hsession)]
  | refuses => exact ⟨nofun, hended rfl, trivial⟩
  | starts turn => exact ⟨hknows.streaming, hknows.row, trivial⟩
  | yields event turn tables recorded =>
    refine ⟨fun sessionId hsession => ?_, hknows.row, trivial⟩
    show ∃ session, tables.sessions.find sessionId = _ ∧ _
    rw [(ChatTables.record_eq_some recorded).1]
    exact hknows.streaming sessionId hsession
  | stops a turn => exact ⟨hknows.streaming, hknows.row, trivial⟩
  | abandons turn => exact ⟨nofun, hknows.row, trivial⟩
  | ends sessionId free => exact ⟨hknows.streaming, htaken rfl, trivial⟩
  | releases sessionId => exact ⟨nofun, hended rfl, trivial⟩
  | crashes phase => exact ⟨nofun, hended rfl, trivial⟩

omit [DecidableEq ι] in
/-- A streaming session is locked only by its own turn. -/
theorem Knows.turn_of_row (h : Knows hashtext dailyQueryCap i shared phase) {sessionId : Uuid}
    (hrow : phase.row = some sessionId) {session : ChatSession}
    (hfind : shared.tables.sessions.find sessionId = some session)
    (hstreaming : session.status = .streaming) :
    phase.turn = some sessionId := by
  cases phase with
  | won request now history row =>
    obtain ⟨hrequest, -, hidle⟩ := idleSession_eq_some.mp h.admits.2
    have hid : row.id = sessionId := Option.some.inj hrow
    rw [← (Table.find_eq_some.mp hrequest).2, hid, hfind] at hrequest
    rw [← Option.some.inj hrequest, hstreaming] at hidle
    cases hidle
  | ended id => exact hrow
  | idle | entered | locked | checked | read | begun | streaming | ending => cases hrow

theorem Step.find_eq (h : Step hashtext dailyQueryCap i shared a phase shared' phase')
    (hknows : Knows hashtext dailyQueryCap i shared phase) {sessionId : Uuid} {session : ChatSession}
    (hfind : shared.tables.sessions.find sessionId = some session)
    (hstreaming : session.status = .streaming)
    (hturn : phase.turn ≠ some sessionId) :
    shared'.tables.sessions.find sessionId = shared.tables.sessions.find sessionId := by
  rcases (h.frame hknows).sessions sessionId with hsame | hmine
  · exact hsame
  · exact absurd (hknows.turn_of_row ((hknows.row sessionId).mp hmine) hfind hstreaming) hturn

/-- The processes know what they know, and the sessions of the turns in progress are different. -/
structure Invariant (hashtext : Uuid → ℤ) (dailyQueryCap : ℤ)
    (c : Processes.Config ι (Shared ι) Phase) : Prop where
  knows : ∀ i, Knows hashtext dailyQueryCap i c.shared (c.locals i)
  unique : ∀ i j sessionId, (c.locals i).turn = some sessionId → (c.locals j).turn = some sessionId → i = j

/-- A turn in a streaming session was in progress before the statement: it begins in an idle one. -/
theorem Step.turn (h : Step hashtext dailyQueryCap i shared a phase shared' phase')
    (hknows : Knows hashtext dailyQueryCap i shared phase) {sessionId : Uuid} {session : ChatSession}
    (hfind : shared.tables.sessions.find sessionId = some session)
    (hstreaming : session.status = .streaming)
    (hturn : phase'.turn = some sessionId) : phase.turn = some sessionId := by
  cases h with
  | begins request now history row tables begun =>
    obtain ⟨hrow, -, hidle⟩ := idleSession_eq_some.mp hknows.admits.2
    have hid : request.sessionId = sessionId := Option.some.inj hturn
    rw [hid, hfind] at hrow
    rw [← Option.some.inj hrow, hstreaming] at hidle
    cases hidle
  | stays | starts | yields | stops | ends => exact hturn
  | enters | locks | checks | reads | wins | refuses | abandons | releases | crashes => cases hturn

theorem Invariant.act {c : Processes.Config ι (Shared ι) Phase}
    (h : Invariant hashtext dailyQueryCap c) (step : ι × Action) :
    Invariant hashtext dailyQueryCap (Processes.act (program hashtext dailyQueryCap) step c) := by
  obtain ⟨i, a⟩ := step
  have hstep : Step hashtext dailyQueryCap i c.shared a (c.locals i) _ _ := act_step i a c
  have hown := hstep.knows (h.knows i)
  have hfind : ∀ j, i ≠ j → ∀ sessionId, (c.locals j).turn = some sessionId →
      ∃ session, c.shared.tables.sessions.find sessionId = some session ∧ session.status = .streaming ∧
        (c.locals i).turn ≠ some sessionId := fun j hij sessionId hturn => by
    obtain ⟨session, hsession, hstreaming⟩ := (h.knows j).streaming sessionId hturn
    exact ⟨session, hsession, hstreaming, fun hi => hij (h.unique i j sessionId hi hturn)⟩
  -- a turn in progress elsewhere is in a streaming session, and a turn begins in an idle one
  have hturns : ∀ j, i ≠ j → ∀ sessionId, (c.locals j).turn = some sessionId →
      ((Processes.act (program hashtext dailyQueryCap) (i, a) c).locals i).turn ≠ some sessionId := by
    intro j hij sessionId hother hmine
    obtain ⟨session, hsession, hstreaming, hnot⟩ := hfind j hij sessionId hother
    exact hnot (hstep.turn (h.knows i) hsession hstreaming hmine)
  have hothers : ∀ j, j ≠ i →
      (Processes.act (program hashtext dailyQueryCap) (i, a) c).locals j = c.locals j :=
    fun j hj => Processes.act_of_ne _ hj a c
  constructor
  · intro j
    by_cases hj : j = i
    · exact hj ▸ hown
    · rw [hothers j hj]
      refine (h.knows j).undisturbed (Ne.symm hj) (hstep.frame (h.knows i)) fun sessionId hturn => ?_
      obtain ⟨session, hsession, hstreaming, hnot⟩ := hfind j (Ne.symm hj) sessionId hturn
      exact hstep.find_eq (h.knows i) hsession hstreaming hnot
  · intro j k sessionId hj hk
    by_cases hji : j = i <;> by_cases hki : k = i
    · rw [hji, hki]
    · rw [hothers k hki] at hk
      exact absurd (hji ▸ hj) (hturns k (Ne.symm hki) sessionId hk)
    · rw [hothers j hji] at hj
      exact absurd (hki ▸ hk) (hturns j (Ne.symm hji) sessionId hj)
    · rw [hothers j hji] at hj
      rw [hothers k hki] at hk
      exact h.unique j k sessionId hj hk

omit [DecidableEq ι] in
theorem Invariant.start (tables : ChatTables) :
    Invariant hashtext dailyQueryCap (Chat.start tables : Processes.Config ι (Shared ι) Phase) :=
  ⟨fun _ => ⟨nofun, fun _ => ⟨nofun, nofun⟩, trivial⟩, nofun⟩

/-- **The invariant of every run.** -/
theorem Invariant.run (tables : ChatTables) (steps : List (ι × Action)) :
    Invariant hashtext dailyQueryCap
      (Processes.run (program hashtext dailyQueryCap) steps (Chat.start tables)) :=
  Processes.run_keeps (fun step _ _ h => h.act step) (Processes.along_true _ _ _) (.start tables)

/-! ### Turn admission -/

/-- **Turn admission**: in every run no session has two turns in progress, the customer of a turn
that begins has at most `dailyQueryCap` messages since 24 hours before its check, and a statement of
`begin_turn` that does not begin a turn changes no message and no session. -/
theorem turn_admission (hashtext : Uuid → ℤ) (dailyQueryCap : ℤ) (tables : ChatTables)
    (steps : List (ι × Action)) :
    let c := Processes.run (program hashtext dailyQueryCap) steps (start tables)
    (∀ i j sessionId, (c.locals i).turn = some sessionId → (c.locals j).turn = some sessionId → i = j) ∧
    ∀ i a, (c.locals i).turn = none →
      let c' := Processes.act (program hashtext dailyQueryCap) (i, a) c
      (∀ turn, c'.locals i = .begun turn → ∃ request now history session,
        c.locals i = .won request now history session ∧ turn.customerId = request.customerId ∧
        countForCustomerSince c'.shared.tables.messages turn.customerId (now - day) ≤ dailyQueryCap) ∧
      ((∀ turn, c'.locals i ≠ .begun turn) → c'.shared.tables = c.shared.tables) := by
  intro c
  have hinv : Invariant hashtext dailyQueryCap c := .run tables steps
  refine ⟨hinv.unique, fun i a hturn => ?_⟩
  intro c'
  have hstep : Step hashtext dailyQueryCap i c.shared a (c.locals i) c'.shared (c'.locals i) := act_step i a c
  have hknows := hinv.knows i
  generalize c.locals i = phase at *
  generalize c'.locals i = phase' at *
  generalize c'.shared = shared' at *
  cases hstep with
  | begins request now history session tables begun =>
    refine ⟨fun turn heq => ⟨request, now, history, session, rfl, ?_, ?_⟩, fun hnot => absurd rfl (hnot _)⟩
    · rw [← Phase.begun.inj heq]
    · obtain ⟨⟨-, hbelow⟩, -⟩ := hknows.admits
      rw [← Phase.begun.inj heq]
      have hcount := countForCustomerSince_begin begun request.customerId (now - day)
      have hone : countForCustomerSince tables.messages request.customerId (now - day) ≤
          countForCustomerSince c.shared.tables.messages request.customerId (now - day) + 1 := by
        rw [hcount]
        split_ifs <;> omega
      show (countForCustomerSince tables.messages request.customerId (now - day) : ℤ) ≤ dailyQueryCap
      omega
  | stays a phase =>
    refine ⟨fun turn heq => ?_, fun _ => rfl⟩
    rw [heq] at hturn
    cases hturn
  | enters | locks | checks | reads | wins | refuses | crashes => exact ⟨nofun, fun _ => rfl⟩
  | starts | yields | stops | abandons | ends | releases => cases hturn

end Invariant

end Trueup.Chat
