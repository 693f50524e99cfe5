import Trueup.Models.Ops
import Trueup.Orders.Records

/-! # The outbox worker

`workers/outbox.py` over `models/ops/job_outbox.py`: a job is claimed, its handler runs in a unit of
work of its own, and the outcome is recorded: completed, retried later, or dead-lettered after
`max_attempts`. The jobs here are the trade updates; a job carries the message of the inbound event
it names.

* `drainOnce_cases`: what one call of `drain_once` did, and that only the last attempt at a job can
  dead-letter it.
* `no_lost_fill`: in every run of the worker and the rest of the system, a valid fill whose job has
  reached a final state is recorded, as long as the last attempt at it does not find the `seq` of its
  timestamp taken by another event of the order, and fails for no other reason either. Whatever the
  attempts before the last one met, they are retried. -/

namespace Trueup.Workers

open Trueup.Core Trueup.Models Trueup.Lib Trueup.Lib.Transaction Trueup.Orders Trueup.System

/-- The jobs of the trade updates. -/
abbrev Jobs := Outbox TradeUpdate

/-- The message of the job is a fill or a partial fill. -/
def isFill (row : JobOutbox TradeUpdate) : Bool := eventTypeOf row.payload.event = some .fill

/-- `claim_next`: the claimed row, and the outbox with it. -/
def claimNext (outbox : Jobs) (workerId : String) (now : Instant) :
    Option (JobOutbox TradeUpdate × Jobs) :=
  (outbox.claimable (fun _ => false) now).head?.map fun row =>
    (row.claimed workerId, outbox.set (row.claimed workerId))

/-- `complete`. -/
def complete (outbox : Jobs) (outboxId : Uuid) (workerId : String) : Option Jobs := do
  let row ← outbox.lockedByWorker outboxId workerId
  return outbox.set row.completed

/-- `retry_or_dead_letter`. -/
def retryOrDeadLetter (outbox : Jobs) (outboxId : Uuid) (workerId : String)
    (nextAttemptAt : Instant) (maxAttempts : ℕ) : Option Jobs := do
  let row ← outbox.lockedByWorker outboxId workerId
  return outbox.set (row.retried nextAttemptAt maxAttempts)

/-- The parameters of an `OutboxWorker`. -/
structure OutboxWorker where
  workerId : String
  maxAttempts : ℕ
  one_le : 1 ≤ maxAttempts

/-- What one call of `drain_once` reads from outside: the clock before and after the attempt, and
what the handler reads. -/
structure Turn where
  claimedAt : Instant
  failedAt : Instant
  env : Env
  fault : Option HandleStage

/-- The outbox and the rest of the database. -/
structure World where
  outbox : Jobs
  db : Database

/-- `drain_once`. A `RuntimeError` of the last unit of work leaves the outbox as the claim did. -/
def drainOnce (worker : OutboxWorker) (turn : Turn) (w : World) : World :=
  match claimNext w.outbox worker.workerId turn.claimedAt with
  | none => w
  | some (row, outbox) =>
    match UnitOfWork.perform (handle turn.env turn.fault row.payload) w.db with
    | (.ok _, db) => ⟨(complete outbox row.id worker.workerId).getD outbox, db⟩
    | (.error _, db) =>
      let delay := 1000000 * 2 ^ (row.attempts - 1)
      ⟨(retryOrDeadLetter outbox row.id worker.workerId (turn.failedAt + delay)
        worker.maxAttempts).getD outbox, db⟩

/-- What happens: a call of `drain_once`, a message taken in, or another unit of work of the
application. -/
inductive WorldStep
  | drain (turn : Turn)
  | intake (id : Uuid) (message : TradeUpdate) (now : Instant)
  | other (step : Step)

/-- One step of the world. -/
def worldStep (worker : OutboxWorker) (step : WorldStep) (w : World) : World :=
  match step with
  | .drain turn => drainOnce worker turn w
  | .intake id message now =>
    { w with outbox := (w.outbox.insert (.enqueued id message now)).getD w.outbox }
  | .other step => { w with db := atomically (body step) w.db }

/-- A step of the world never raises. -/
def worldBody (worker : OutboxWorker) (step : WorldStep) : Transaction.Tx Error World Unit :=
  update (worldStep worker step)

/-! ### The condition -/

/-- No event of the order has the `seq` of the message. -/
def seqFree (db : Database) (message : TradeUpdate) : Bool :=
  ∀ order ∈ db.orders.rows, order.clientOrderId = message.clientOrderId →
    ¬ db.orderEvents.Has (order.id, seqFromTimestamp message.timestamp)

/-- The execution of the message is in the event log. -/
def isLogged (db : Database) (message : TradeUpdate) : Bool :=
  ∃ x ∈ message.executionId, x ∈ db.executionIds

/-- A valid fill: it has an execution id and a positive quantity, and an event with its execution id
is one of the order the message names. -/
def validFill (db : Database) (message : TradeUpdate) : Bool :=
  message.executionId.isSome ∧ fillPositive message ∧
  ∀ event ∈ db.orderEvents.rows, event.executionId = message.executionId →
    ∃ order ∈ db.orders.rows, order.id = event.orderId ∧
      order.clientOrderId = message.clientOrderId

/-- The attempt at the claimed row is the last one: where it fails, the row is dead-lettered. -/
def isLastAttempt (worker : OutboxWorker) (row : JobOutbox TradeUpdate) : Bool :=
  worker.maxAttempts ≤ row.attempts

/-- The fills that are attempted are valid, and so are those of other units of work. -/
def validStep (worker : OutboxWorker) (w : World) (step : WorldStep) : Bool :=
  match step with
  | .drain turn => (claimNext w.outbox worker.workerId turn.claimedAt).all fun claim =>
      !isFill claim.1 || validFill w.db claim.1.payload
  | .intake _ _ _ => true
  | .other step => fillsPositive step

/-- At the last attempt at a fill that is not recorded yet, its `seq` is free. -/
def seqFreeStep (worker : OutboxWorker) (w : World) (step : WorldStep) : Bool :=
  match step with
  | .drain turn => (claimNext w.outbox worker.workerId turn.claimedAt).all fun claim =>
      !isFill claim.1 || !isLastAttempt worker claim.1 || isLogged w.db claim.1.payload ||
        seqFree w.db claim.1.payload
  | _ => true

/-- The last attempt at a fill fails for no other reason: neither it nor its `seq` being recorded yet,
it is handled. -/
def handledStep (worker : OutboxWorker) (w : World) (step : WorldStep) : Bool :=
  match step with
  | .drain turn => (claimNext w.outbox worker.workerId turn.claimedAt).all fun claim =>
      !isFill claim.1 || !isLastAttempt worker claim.1 || isLogged w.db claim.1.payload ||
        !seqFree w.db claim.1.payload || ((handle turn.env turn.fault claim.1.payload).run w.db).isOk
  | _ => true

/-! ### The rows of the outbox -/

theorem mem_claimNext {outbox outbox' : Jobs} {workerId : String} {now : Instant}
    {row : JobOutbox TradeUpdate} (h : claimNext outbox workerId now = some (row, outbox')) :
    row ∈ outbox' ∧ row.status = .processing ∧ ∀ r ∈ outbox', r ∈ outbox ∨ r = row := by
  obtain ⟨found, hfound, heq⟩ := Option.map_eq_some_iff.mp h
  cases heq
  have hmem : found ∈ outbox := (Outbox.mem_claimable.mp (List.mem_of_mem_head? hfound)).1
  refine ⟨Table.mem_set_self hmem rfl, rfl, fun r hr => ?_⟩
  rcases Table.mem_set.mp hr with ⟨hr, -⟩ | ⟨rfl, -⟩
  · exact Or.inl hr
  · exact Or.inr rfl

theorem mem_locked {outbox : Jobs} {workerId : String} {row : JobOutbox TradeUpdate}
    (hrow : row ∈ outbox) (f : JobOutbox TradeUpdate → JobOutbox TradeUpdate) :
    ∀ r ∈ (do
      let found ← outbox.lockedByWorker row.id workerId
      return outbox.set (f found) : Option Jobs).getD outbox, r ∈ outbox ∨ r = f row := by
  intro r hr
  cases hfound : outbox.lockedByWorker row.id workerId with
  | none =>
    rw [hfound] at hr
    exact Or.inl hr
  | some found =>
    obtain ⟨⟨hmem, hid⟩, -⟩ := Outbox.lockedByWorker_eq_some.mp hfound
    obtain rfl := Table.eq_of_key_eq hmem hrow hid
    rw [hfound] at hr
    rcases Table.mem_set.mp hr with ⟨hr, -⟩ | ⟨rfl, -⟩
    · exact Or.inl hr
    · exact Or.inr rfl

theorem payload_retried (row : JobOutbox TradeUpdate) (nextAttemptAt : Instant) (maxAttempts : ℕ) :
    (row.retried nextAttemptAt maxAttempts).payload = row.payload := by
  unfold JobOutbox.retried
  split_ifs <;> rfl

theorem isFinal_retried (row : JobOutbox TradeUpdate) (nextAttemptAt : Instant) (maxAttempts : ℕ) :
    (row.retried nextAttemptAt maxAttempts).isFinal ↔ maxAttempts ≤ row.attempts := by
  unfold JobOutbox.retried
  split_ifs with h <;> simp [JobOutbox.isFinal, h]

/-- **What a call of `drain_once` did**: nothing, or it claimed a row, whose attempt returned, or raised
and left the rest of the database alone. Every row afterwards is an old one or is of the claimed job,
which is final after an attempt that raised only if that was its last one. -/
theorem drainOnce_cases (worker : OutboxWorker) (turn : Turn) (w : World) :
    drainOnce worker turn w = w ∨ ∃ row outbox,
      claimNext w.outbox worker.workerId turn.claimedAt = some (row, outbox) ∧
      ((∃ pushed, (handle turn.env turn.fault row.payload).run w.db =
          .ok (pushed, (drainOnce worker turn w).db)) ∧
        (∀ r ∈ (drainOnce worker turn w).outbox, r ∈ w.outbox ∨ r.payload = row.payload) ∨
      (∃ e, (handle turn.env turn.fault row.payload).run w.db = .error e) ∧
        (drainOnce worker turn w).db = w.db ∧
        ∀ r ∈ (drainOnce worker turn w).outbox, r ∈ w.outbox ∨
          r.payload = row.payload ∧ (r.isFinal → isLastAttempt worker row)) := by
  unfold drainOnce
  split
  · exact Or.inl rfl
  rename_i row outbox hclaim
  obtain ⟨hrow, hprocessing, hrows⟩ := mem_claimNext hclaim
  have hnot : ¬ row.isFinal := by simp [JobOutbox.isFinal, hprocessing]
  refine Or.inr ⟨row, outbox, hclaim, ?_⟩
  cases hrun : (handle turn.env turn.fault row.payload).run w.db with
  | ok r =>
    obtain ⟨pushed, db⟩ := r
    have hperform : UnitOfWork.perform (handle turn.env turn.fault row.payload) w.db =
        (.ok pushed, db) := by
      rw [UnitOfWork.perform, show (handle turn.env turn.fault row.payload).run
        (UnitOfWork.enter w.db).session = _ from hrun]
      rfl
    simp only [hperform]
    refine Or.inl ⟨⟨pushed, rfl⟩, fun r hr => ?_⟩
    rcases mem_locked hrow JobOutbox.completed r hr with hr | rfl
    · rcases hrows r hr with hr | rfl
      · exact Or.inl hr
      · exact Or.inr rfl
    · exact Or.inr rfl
  | error e =>
    have hperform : UnitOfWork.perform (handle turn.env turn.fault row.payload) w.db =
        (.error e, w.db) := by
      rw [UnitOfWork.perform, show (handle turn.env turn.fault row.payload).run
        (UnitOfWork.enter w.db).session = _ from hrun]
      rfl
    simp only [hperform]
    refine Or.inr ⟨⟨e, rfl⟩, trivial, fun r hr => ?_⟩
    rcases mem_locked hrow (·.retried _ worker.maxAttempts) r hr with hr | rfl
    · rcases hrows r hr with hr | rfl
      · exact Or.inl hr
      · exact Or.inr ⟨rfl, fun hfinal => absurd hfinal hnot⟩
    · refine Or.inr ⟨payload_retried _ _ _, fun hfinal => ?_⟩
      simpa [isLastAttempt] using (isFinal_retried _ _ _).mp hfinal

/-! ### The invariant -/

/-- The log is booked, and the fills of the final jobs are recorded. -/
structure NothingLost (w : World) : Prop where
  logged : Logged w.db
  recorded : ∀ row ∈ w.outbox, row.isFinal → isFill row → Recorded w.db row.payload

theorem recorded_of_logged {db : Database} {message : TradeUpdate} (hlog : Logged db)
    (hlogged : isLogged db message)
    (horder : ∀ event ∈ db.orderEvents.rows, event.executionId = message.executionId →
      ∃ order ∈ db.orders.rows, order.id = event.orderId ∧
        order.clientOrderId = message.clientOrderId) : Recorded db message := by
  simp only [isLogged, decide_eq_true_eq] at hlogged
  obtain ⟨x, hx, hmem⟩ := hlogged
  obtain ⟨event, hevent, hexec⟩ := mem_executionIds.mp hmem
  obtain ⟨order, horder, hid, hclient⟩ := horder event hevent (hexec.trans hx.symm)
  exact ⟨order, horder, hclient, x, hx, ⟨event, hevent, hid.symm, hexec⟩, hlog x hmem⟩

theorem validFill_order {db : Database} {message : TradeUpdate} (h : validFill db message) :
    ∀ event ∈ db.orderEvents.rows, event.executionId = message.executionId →
      ∃ order ∈ db.orders.rows, order.id = event.orderId ∧
        order.clientOrderId = message.clientOrderId := by
  simp only [validFill, decide_eq_true_eq] at h
  exact h.2.2

theorem validFill_pos {db : Database} {message : TradeUpdate} (h : validFill db message) :
    fillPositive message := by
  simp only [validFill, decide_eq_true_eq] at h
  exact h.2.1

theorem isLogged_of_last {worker : OutboxWorker} {turn : Turn} {w : World}
    {row : JobOutbox TradeUpdate} {outbox : Jobs} {e : Error}
    (hclaim : claimNext w.outbox worker.workerId turn.claimedAt = some (row, outbox))
    (hfill : isFill row) (hlast : isLastAttempt worker row)
    (hfree : seqFreeStep worker w (.drain turn)) (hhandled : handledStep worker w (.drain turn))
    (hraised : (handle turn.env turn.fault row.payload).run w.db = .error e) :
    isLogged w.db row.payload := by
  simp only [seqFreeStep, handledStep, hclaim, Option.all_some, hfill, hlast, Bool.not_true,
    Bool.false_or, Bool.or_eq_true, Bool.not_eq_true'] at hfree hhandled
  rcases hfree with hlogged | hfree
  · exact hlogged
  · rcases hhandled with (hlogged | htaken) | hok
    · exact hlogged
    · rw [hfree] at htaken
      cases htaken
    · rw [hraised] at hok
      cases hok

theorem drainOnce_nothingLost {worker : OutboxWorker} {turn : Turn} {w : World}
    (h : NothingLost w) (hvalid : validStep worker w (.drain turn))
    (hfree : seqFreeStep worker w (.drain turn)) (hhandled : handledStep worker w (.drain turn)) :
    NothingLost (drainOnce worker turn w) := by
  rcases drainOnce_cases worker turn w with heq | ⟨row, outbox, hclaim, hcases⟩
  · rw [heq]; exact h
  have hvalidFill : isFill row → validFill w.db row.payload := by
    intro hfill
    simpa [validStep, hclaim, hfill] using hvalid
  rcases hcases with ⟨⟨pushed, hrun⟩, hrows⟩ | ⟨⟨e, hraised⟩, hdb, hrows⟩
  · -- the attempt returned: a fill is recorded by it
    refine ⟨handle_logged (fun hfill => ?_) _ _ _ h.logged hrun, fun r hr hfinal hfill => ?_⟩
    · exact validFill_pos (hvalidFill (by simpa [isFill] using hfill))
    · rcases hrows r hr with hr | hpayload
      · exact (h.recorded r hr hfinal hfill).mono (handle_grows hrun)
      · have hfill' : isFill row := by simpa [isFill, hpayload] using hfill
        rw [hpayload]
        exact handle_recorded (by simpa [isFill] using hfill') (validFill_pos (hvalidFill hfill')) hrun
  · -- it raised: the job is retried, unless the attempt was the last one
    refine ⟨by rw [hdb]; exact h.logged, fun r hr hfinal hfill => ?_⟩
    rw [hdb]
    rcases hrows r hr with hr | ⟨hpayload, hlast⟩
    · exact h.recorded r hr hfinal hfill
    · have hfill' : isFill row := by simpa [isFill, hpayload] using hfill
      rw [hpayload]
      exact recorded_of_logged h.logged
        (isLogged_of_last hclaim hfill' (hlast hfinal) hfree hhandled hraised)
        (validFill_order (hvalidFill hfill'))

theorem worldStep_nothingLost {worker : OutboxWorker} {step : WorldStep} {w : World}
    (h : NothingLost w) (hvalid : validStep worker w step) (hfree : seqFreeStep worker w step)
    (hhandled : handledStep worker w step) : NothingLost (worldStep worker step w) := by
  cases step with
  | drain turn => exact drainOnce_nothingLost h hvalid hfree hhandled
  | intake id message now =>
    refine ⟨h.logged, fun r hr hfinal hfill => ?_⟩
    cases hinsert : w.outbox.insert (.enqueued id message now) with
    | none =>
      simp only [worldStep, hinsert, Option.getD_none] at hr
      exact h.recorded r hr hfinal hfill
    | some t =>
      simp only [worldStep, hinsert, Option.getD_some] at hr
      rcases (Table.mem_insert hinsert).mp hr with hr | rfl
      · exact h.recorded r hr hfinal hfill
      · cases hfinal
  | other step =>
    refine ⟨(body_logged hvalid).atomically h.logged, fun r hr hfinal hfill => ?_⟩
    refine (h.recorded r hr hfinal hfill).mono ?_
    show Grows w.db (atomically (body step) w.db)
    rcases atomically_cases (body step) w.db with ⟨u, db', hrun, heq⟩ | ⟨e, -, heq⟩
    · rw [heq]; exact body_grows hrun
    · rw [heq]; exact Grows.refl _

/-- **No lost fill.** In every run of the worker and the application from a fresh database and an
empty outbox, whose fills are valid: if no last attempt at a fill finds the `seq` of its timestamp
taken by another event of the order, and none fails for another reason, then every fill whose job is
final is recorded. Attempts before the last one may fail in any way. -/
theorem no_lost_fill (worker : OutboxWorker) (steps : List WorldStep) {db₀ : Database}
    (hfresh : Fresh db₀)
    (hvalid : RunMeets (worldBody worker) (fun w step => validStep worker w step) steps ⟨∅, db₀⟩)
    (hfree : RunMeets (worldBody worker) (fun w step => seqFreeStep worker w step) steps ⟨∅, db₀⟩)
    (hhandled : RunMeets (worldBody worker) (fun w step => handledStep worker w step) steps
      ⟨∅, db₀⟩) :
    ∀ row ∈ (runs (worldBody worker) steps ⟨∅, db₀⟩).outbox, row.isFinal → isFill row →
      Recorded (runs (worldBody worker) steps ⟨∅, db₀⟩).db row.payload := by
  have hstart : NothingLost ⟨∅, db₀⟩ := by
    refine ⟨fun x hx => ?_, fun row hrow => by cases hrow⟩
    simp [Database.executionIds, hfresh.orderEvents] at hx
  suffices hend : NothingLost (runs (worldBody worker) steps ⟨∅, db₀⟩) from hend.recorded
  refine runs_keeps_of_meets ?_ steps hstart ((hvalid.and hfree).and hhandled)
  intro w step u w' hw hstep hrun
  rw [update_ok.mp hrun]
  exact worldStep_nothingLost hw hstep.1.1 hstep.1.2 hstep.2

/-- A worker that gives up after two attempts. -/
def twoAttempts : OutboxWorker := ⟨"worker-1", 2, Nat.two_pos⟩

/-- A fill of four shares of order 21, at microsecond `t`. -/
def fillOfFour (t : Instant) (executionId : ExecutionId) : TradeUpdate :=
  ⟨.partialFill, some executionId, .trueup 21, ⟨t, true⟩, some 100, some 4⟩

/-- A turn of the worker at microsecond `t`. -/
def turnAt (t : Instant) (id : Uuid) : Turn := ⟨t, t, envAt t id, none⟩

/-- An order of ten shares is funded, placed and submitted; two fills of it come in, stamped `t` and
`t'`; the worker turns three times, the last time after the delay of a retry. The first attempt may be
interrupted. -/
def twoFillsRun (t t' : Instant) (fault : Option HandleStage) : List WorldStep := [
  .other ⟨envAt 1 11, .initiateDeposit 1 (dollars 5000)⟩,
  .other ⟨envAt 2 0, .confirmSettlement 11⟩,
  .other ⟨envAt 3 21, .placeOrder ⟨1, 7, .buy, shares 10, dollarsPerShare 100⟩ none⟩,
  .other ⟨envAt 4 0, .submitToBroker 21 (.ok "broker-21")⟩,
  .intake 1 (fillOfFour t "a") 10,
  .intake 2 (fillOfFour t' "b") 11,
  .drain { turnAt 20 31 with fault },
  .drain (turnAt 21 32),
  .drain (turnAt 2000000 33)]

/-- The first fill is interrupted and retried; both are recorded. -/
theorem no_lost_fill_two_fills :
    (runs (worldBody twoAttempts) (twoFillsRun 5 6 (some .afterProjection))
        ⟨∅, openedAccount 1⟩).outbox.rows.map
        (fun row => (row.payload.executionId, row.status, row.attempts)) =
      [(some "a", .completed, 2), (some "b", .completed, 1)] ∧
    ∀ row ∈ (runs (worldBody twoAttempts) (twoFillsRun 5 6 (some .afterProjection))
        ⟨∅, openedAccount 1⟩).outbox,
      Recorded (runs (worldBody twoAttempts) (twoFillsRun 5 6 (some .afterProjection))
        ⟨∅, openedAccount 1⟩).db row.payload := by
  refine ⟨by decide +kernel, fun row hrow => ?_⟩
  have hall : ∀ row ∈ (runs (worldBody twoAttempts) (twoFillsRun 5 6 (some .afterProjection))
      ⟨∅, openedAccount 1⟩).outbox.rows, row.isFinal ∧ isFill row := by decide +kernel
  obtain ⟨hfinal, hfill⟩ := hall row hrow
  exact no_lost_fill twoAttempts (twoFillsRun 5 6 (some .afterProjection)) (fresh_openedAccount 1)
    (by decide +kernel) (by decide +kernel) (by decide +kernel) row hrow hfinal hfill

/-- Two valid fills with the same timestamp: the second is refused twice and dead-lettered, and its
execution is nowhere in the event log. -/
theorem fill_with_taken_seq_lost :
    (runs (worldBody twoAttempts) (twoFillsRun 5 5 none) ⟨∅, openedAccount 1⟩).outbox.rows.map
        (fun row => (row.payload.executionId, row.status)) =
      [(some "a", .completed), (some "b", .deadLetter)] ∧
    RunMeets (worldBody twoAttempts) (fun w step => validStep twoAttempts w step)
      (twoFillsRun 5 5 none) ⟨∅, openedAccount 1⟩ ∧
    RunMeets (worldBody twoAttempts) (fun w step => handledStep twoAttempts w step)
      (twoFillsRun 5 5 none) ⟨∅, openedAccount 1⟩ ∧
    ¬ Recorded (runs (worldBody twoAttempts) (twoFillsRun 5 5 none) ⟨∅, openedAccount 1⟩).db
      (fillOfFour 5 "b") := by
  refine ⟨by decide +kernel, by decide +kernel, by decide +kernel, ?_⟩
  rintro ⟨order, -, -, x, hx, ⟨event, hevent, -, hexec⟩, -⟩
  cases hx
  have habsent : "b" ∉ (runs (worldBody twoAttempts) (twoFillsRun 5 5 none)
      ⟨∅, openedAccount 1⟩).db.executionIds := by decide +kernel
  exact habsent (mem_executionIds.mpr ⟨event, hevent, hexec⟩)

end Trueup.Workers
