import Trueup.System
import Trueup.Webhooks.Effects

/-! # Redelivered webhooks

The webhook controllers, the outbox workers with the dispatcher of `services/intake/dispatch.py` and
the handlers that `jobs/__init__.py` registers, and whatever else happens to the database, in any
order. A request records an event in one unit of work and applies its effect in a second one; it may
crash at any point. The handlers of Plaid and of Stripe do nothing.

The world keeps, beside the tables, the events that were accepted, those whose request is between
its two commits, and those whose effect has been committed.

`duplicate_was_applied`: when a redelivery of an event is answered as a duplicate, the effect of the
event has been committed, or outbox work that will apply it is pending, as long as no step about the
event is one that loses it (`KeepsEffect`). -/

namespace Trueup.Webhooks

open Trueup.Core Trueup.Models Trueup.Lib Trueup.Lib.Transaction Trueup.Orders Trueup.Intake
open Trueup.Fees.Charging (ClaimedJob)

/-! ### The dispatcher -/

/-- The payload of an inbound event. -/
inductive Payload
  | webhook (webhook : Webhook)
  | tradeUpdate (message : TradeUpdate)

/-- The registered handlers. -/
def handlers (env : Env) : InboundEventSource → Option (Payload → Tx Unit)
  | .alpaca => some fun
    | .tradeUpdate message => do
      let _ ← handle env none message
    | .webhook _ => lift (.error .valueError)
  | .stripe => some fun _ => return ()
  | .plaid => some fun _ => return ()
  | .marketdata => none
  | .custodianFile => none

/-- `handle` of the dispatcher. -/
def dispatch (env : Env) (inbox : Inbox Payload) (inboundEventId : Uuid) : Tx Unit := do
  let event ← lift (ofOption (inbox.events.rows.find? (·.id = inboundEventId)) .unregisteredSource)
  let handler ← lift (ofOption (handlers env event.source) .unregisteredSource)
  handler event.payload

/-! ### The world -/

/-- A webhook the provider has sent; a redelivery is the same one again. -/
structure Event where
  occurrence : ℕ
  webhook : Webhook
  deriving DecidableEq

/-- The tables. -/
structure Store where
  db : Database
  inbox : Inbox Payload

structure World where
  store : Store
  accepted : List Event
  handling : List Event
  applied : List Event

/-- Where a request, or a worker, is. -/
inductive Phase
  | idle
  | received (event : Event) (incoming : IncomingEvent Webhook) (signatureValid : Bool)
  | accepted (event : Event)
  | answered
  | duplicate (event : Event)
  | unauthorized
  | raised
  | claimed (job : ClaimedJob)
  | handled (job : ClaimedJob) (returned : Bool)

/-- The request is answered, and the event is a duplicate. -/
def Phase.isDuplicate (event : Event) : Phase → Bool
  | .duplicate other => other = event
  | _ => false

inductive Action
  | deliver (event : Event) (signatureValid : Bool)
  | intake (eventId outboxId : Uuid) (now : Instant)
  | applyEffect (env : Env)
  /-- a worker claims an outbox row -/
  | claim (outboxId : Uuid) (workerId : String) (now : Instant)
  | dispatch (env : Env)
  /-- the worker records how the dispatch ended -/
  | record (nextAttemptAt : Instant) (maxAttempts : ℕ)
  /-- anything else -/
  | elsewhere (change : Store → Store)
  | crash

/-- The row an event is recorded in. -/
def eventRow (incoming : IncomingEvent Webhook) : IncomingEvent Payload :=
  ⟨incoming.source, incoming.sourceEventId, .webhook incoming.payload⟩

/-- The request is no longer between its commits. -/
def World.finished (w : World) (event : Event) : World :=
  { w with handling := w.handling.filter (· ≠ event) }

def World.setInbox (w : World) (inbox : Inbox Payload) : World :=
  { w with store := { w.store with inbox } }

/-- After the intake. -/
def receive (w : World) (event : Event) : Except Error (IntakeResult × Inbox Payload) → World × Phase
  | .error _ => (w, .raised)
  | .ok (.invalidSignature, inbox) => (w.setInbox inbox, .unauthorized)
  | .ok (.duplicate, inbox) => (w.setInbox inbox, .duplicate event)
  | .ok (.accepted, inbox) =>
    ({ w.setInbox inbox with
      accepted := w.accepted ++ [event], handling := w.handling ++ [event] }, .accepted event)

/-- After the unit of work of the effect. -/
def applied (w : World) (event : Event) : Except Error (Unit × Database) → World × Phase
  | .error _ => (w.finished event, .raised)
  | .ok (_, db) =>
    ({ w.finished event with
      store := { w.store with db }, applied := w.applied ++ [event] }, .answered)

/-- After the unit of work of the dispatcher. -/
def dispatched (w : World) (job : ClaimedJob) : Except Error (Unit × Database) → World × Phase
  | .error _ => (w, .handled job false)
  | .ok (_, db) => ({ w with store := { w.store with db } }, .handled job true)

/-- The outbox row, if the worker may record an outcome in it. -/
def lockedByWorker (w : World) (job : ClaimedJob) : Option (JobOutbox Uuid) :=
  w.store.inbox.jobs.lockedByWorker job.row.id job.workerId

def World.setJob (w : World) (row : JobOutbox Uuid) : World :=
  w.setInbox { w.store.inbox with jobs := w.store.inbox.jobs.set row }

/-- What an action does; one that the process is not ready for does nothing. -/
def program : Processes.Program ℕ Action World Phase
  | _, .deliver event signatureValid, w, .idle =>
    match event.webhook.incoming with
    | .error _ => (w, .raised)
    | .ok incoming => (w, .received event incoming signatureValid)
  | _, .intake eventId outboxId now, w, .received event incoming signatureValid =>
    receive w event
      ((intake (eventRow incoming) signatureValid eventId outboxId now).run w.store.inbox)
  | _, .applyEffect env, w, .accepted event =>
    match event.webhook.effect with
    | none => (w.finished event, .answered)
    | some effect => applied w event ((effect.body env).run w.store.db)
  | _, .claim outboxId workerId now, w, .idle =>
    match (w.store.inbox.jobs.find outboxId).filter (·.isClaimable now) with
    | none => (w, .idle)
    | some row => (w.setJob (row.claimed workerId), .claimed ⟨row.claimed workerId, workerId⟩)
  | _, .dispatch env, w, .claimed job =>
    dispatched w job ((dispatch env w.store.inbox job.row.payload).run w.store.db)
  | _, .record nextAttemptAt maxAttempts, w, .handled job returned =>
    match lockedByWorker w job with
    | none => (w, .idle)
    | some row =>
      (w.setJob (if returned then row.completed else row.retried nextAttemptAt maxAttempts), .idle)
  | _, .elsewhere change, w, phase => ({ w with store := change w.store }, phase)
  | _, .crash, w, .accepted event => (w.finished event, .idle)
  | _, .crash, w, _ => (w, .idle)
  | _, _, w, phase => (w, phase)

/-- Nothing has been delivered. -/
def start (store : Store) : Processes.Config ℕ World Phase := ⟨⟨store, [], [], []⟩, fun _ => .idle⟩

/-! ### Lost effects -/

/-- The handler of the source applies the effect. -/
def Applies (event : InboundEvent Payload) (effect : Effect) : Prop :=
  ∀ env db, ∃ handler ∈ handlers env event.source,
    atomically (handler event.payload) db = atomically (effect.body env) db

/-- Outbox work that will apply the effect is pending. -/
def WorkPending (store : Store) (event : Event) (effect : Effect) : Prop :=
  ∃ job ∈ store.inbox.jobs, (job.status = .pending ∨ job.status = .processing) ∧
    ∃ row ∈ store.inbox.events, row.id = job.payload ∧
      row.key = (event.webhook.source, event.webhook.sourceEventId) ∧ Applies row effect

/-- The effect of the event, if it has one, has been committed or is pending. -/
def Secured (w : World) (event : Event) : Prop :=
  ∀ effect ∈ event.webhook.effect, event ∈ w.applied ∨ WorkPending w.store event effect

/-- The step does not lose the effect of the event:
* the request that has accepted it does not crash before the effect is committed;
* the unit of work of the effect does not raise (`keepsEffect_apply_iff`: the effect can be applied
  to the tables);
* a delivery that finds its id taken finds it taken by the event itself, and no request is between
  the two commits of it. -/
def KeepsEffect (event : Event) (a : Action) (w : World) (phase : Phase) : Bool :=
  event.webhook.effect = none || match a, phase with
  | .crash, .accepted other => other ≠ event
  | .applyEffect env, .accepted other =>
    other = event → ∀ effect ∈ event.webhook.effect, ((effect.body env).run w.store.db).isOk
  | .intake eventId _ _, .received other incoming signatureValid =>
    other = event → signatureValid → isTaken w.store.inbox ((eventRow incoming).row eventId) →
      event ∈ w.accepted ∧ event ∉ w.handling
  | _, _ => true

/-! ### What an action did -/

/-- What the action did to the events, and to the phase of the process. -/
inductive Step (a : Action) (w : World) (phase : Phase) (w' : World) (phase' : Phase) : Prop
  | same (accepted : w'.accepted = w.accepted) (handling : w'.handling = w.handling)
      (applied : w'.applied = w.applied)
      (phases : ∀ event, phase'.isDuplicate event → phase.isDuplicate event)
  | duplicates (event : Event) (incoming : IncomingEvent Webhook) (eventId outboxId : Uuid)
      (now : Instant) (action : a = .intake eventId outboxId now)
      (before : phase = .received event incoming true)
      (taken : isTaken w.store.inbox ((eventRow incoming).row eventId))
      (accepted : w'.accepted = w.accepted) (handling : w'.handling = w.handling)
      (applied : w'.applied = w.applied) (after : phase' = .duplicate event)
  | accepts (event : Event) (accepted : w'.accepted = w.accepted ++ [event])
      (handling : w'.handling = w.handling ++ [event]) (applied : w'.applied = w.applied)
      (after : phase' = .accepted event)
  | givesUp (event : Event) (before : phase = .accepted event)
      (reason : a = .crash ∨ event.webhook.effect = none ∨
        ∃ env effect, a = .applyEffect env ∧ event.webhook.effect = some effect ∧
          ((effect.body env).run w.store.db).isOk = false)
      (accepted : w'.accepted = w.accepted) (handling : w'.handling = w.handling.filter (· ≠ event))
      (applied : w'.applied = w.applied) (after : ∀ other, phase'.isDuplicate other = false)
  | applies (event : Event) (accepted : w'.accepted = w.accepted)
      (handling : w'.handling = w.handling.filter (· ≠ event))
      (applied : w'.applied = w.applied ++ [event])
      (after : ∀ other, phase'.isDuplicate other = false)

theorem receive_step {event : Event} {incoming : IncomingEvent Webhook} {signatureValid : Bool}
    {eventId outboxId : Uuid} {now : Instant} {w : World} :
    let next := receive w event
      ((intake (eventRow incoming) signatureValid eventId outboxId now).run w.store.inbox)
    Step (.intake eventId outboxId now) w (.received event incoming signatureValid) next.1 next.2 := by
  intro next
  cases hrun : (intake (eventRow incoming) signatureValid eventId outboxId now).run w.store.inbox with
  | error e =>
    simp only [next, hrun, receive]
    exact .same rfl rfl rfl fun _ h => by cases h
  | ok r =>
    obtain ⟨result, inbox⟩ := r
    simp only [next, hrun]
    rcases intake_ok hrun with ⟨rfl, -, -⟩ | ⟨rfl, htaken, -⟩ | ⟨rfl, -, -⟩
    · exact .same rfl rfl rfl fun _ h => by cases h
    · have hvalid : signatureValid = true := by
        by_contra hnot
        rw [intake, if_neg hnot] at hrun
        cases (pure_ok.mp hrun).1
      subst hvalid
      exact .duplicates event incoming eventId outboxId now rfl rfl htaken rfl rfl rfl rfl
    · exact .accepts event rfl rfl rfl rfl

theorem program_step (i : ℕ) (a : Action) (w : World) (phase : Phase) :
    Step a w phase (program i a w phase).1 (program i a w phase).2 := by
  cases a with
  | deliver event signatureValid =>
    cases phase with
    | idle =>
      unfold program
      dsimp only
      split
      · exact .same rfl rfl rfl fun _ h => by cases h
      · exact .same rfl rfl rfl fun _ h => by cases h
    | _ => exact .same rfl rfl rfl fun _ h => h
  | intake eventId outboxId now =>
    cases phase with
    | received event incoming signatureValid => exact receive_step
    | _ => exact .same rfl rfl rfl fun _ h => h
  | applyEffect env =>
    cases phase with
    | accepted event =>
      unfold program
      dsimp only
      split
      · rename_i hnone
        exact .givesUp event rfl (Or.inr (Or.inl hnone)) rfl rfl rfl fun _ => rfl
      · rename_i effect heffect
        cases hrun : (effect.body env).run w.store.db with
        | error e =>
          exact .givesUp event rfl (Or.inr (Or.inr ⟨env, effect, rfl, heffect, by rw [hrun]; rfl⟩))
            rfl rfl rfl fun _ => rfl
        | ok r => exact .applies event rfl rfl rfl fun _ => rfl
    | _ => exact .same rfl rfl rfl fun _ h => h
  | claim outboxId workerId now =>
    cases phase with
    | idle =>
      unfold program
      dsimp only
      split
      · exact .same rfl rfl rfl fun _ h => h
      · exact .same rfl rfl rfl fun _ h => by cases h
    | _ => exact .same rfl rfl rfl fun _ h => h
  | dispatch env =>
    cases phase with
    | claimed job =>
      unfold program
      dsimp only
      cases (dispatch env w.store.inbox job.row.payload).run w.store.db with
      | error e => exact .same rfl rfl rfl fun _ h => by cases h
      | ok r => exact .same rfl rfl rfl fun _ h => by cases h
    | _ => exact .same rfl rfl rfl fun _ h => h
  | record nextAttemptAt maxAttempts =>
    cases phase with
    | handled job returned =>
      unfold program
      dsimp only
      split
      · exact .same rfl rfl rfl fun _ h => by cases h
      · exact .same rfl rfl rfl fun _ h => by cases h
    | _ => exact .same rfl rfl rfl fun _ h => h
  | elsewhere change => exact .same rfl rfl rfl fun _ h => h
  | crash =>
    cases phase with
    | accepted event => exact .givesUp event rfl (Or.inl rfl) rfl rfl rfl fun _ => rfl
    | _ => exact .same rfl rfl rfl fun _ h => by cases h

/-! ### Runs -/

section Run
variable {event : Event}

/-- An accepted event is being handled, or its effect has been committed. -/
def NotLost (event : Event) (w : World) : Prop :=
  event ∈ w.accepted → event ∈ w.handling ∨ event ∈ w.applied

/-- Who has answered that the event is a duplicate knows that its effect has been committed. -/
def AnsweredApplied (event : Event) (_ : ℕ) (w : World) (phase : Phase) : Prop :=
  phase.isDuplicate event → event ∈ w.applied

theorem mem_handling_of_finished {w : World} {other : Event} (hne : other ≠ event)
    (h : event ∈ w.handling) : event ∈ w.handling.filter (· ≠ other) := by
  rw [List.mem_filter]
  exact ⟨h, by simpa using Ne.symm hne⟩

theorem Step.applied_mono {a : Action} {w w' : World} {phase phase' : Phase}
    (h : Step a w phase w' phase') (hevent : event ∈ w.applied) : event ∈ w'.applied := by
  cases h with
  | same _ _ happlied => rwa [happlied]
  | duplicates _ _ _ _ _ _ _ _ _ _ happlied => rwa [happlied]
  | accepts _ _ _ happlied => rwa [happlied]
  | givesUp _ _ _ _ _ happlied => rwa [happlied]
  | applies _ _ _ happlied =>
    rw [happlied]
    exact List.mem_append_left _ hevent

theorem Step.notLost {a : Action} {w w' : World} {phase phase' : Phase}
    (h : Step a w phase w' phase') (heffect : event.webhook.effect ≠ none)
    (hkeeps : KeepsEffect event a w phase) (hw : NotLost event w) : NotLost event w' := by
  intro haccepted
  cases h with
  | same haccepted' hhandling happlied =>
    rw [hhandling, happlied]
    exact hw (haccepted' ▸ haccepted)
  | duplicates _ _ _ _ _ _ _ _ haccepted' hhandling happlied =>
    rw [hhandling, happlied]
    exact hw (haccepted' ▸ haccepted)
  | accepts other haccepted' hhandling happlied =>
    rw [hhandling, happlied]
    rw [haccepted', List.mem_append, List.mem_singleton] at haccepted
    rcases haccepted with hold | rfl
    · exact (hw hold).imp (List.mem_append_left _) id
    · exact Or.inl (by simp)
  | givesUp other hbefore hreason haccepted' hhandling happlied =>
    rw [hhandling, happlied]
    have hne : other ≠ event := by
      rintro rfl
      subst hbefore
      rcases hreason with rfl | hnone | ⟨env, effect, rfl, hsome, hraised⟩
      · simp [KeepsEffect, heffect] at hkeeps
      · exact heffect hnone
      · simp [KeepsEffect, hsome, hraised] at hkeeps
    exact (hw (haccepted' ▸ haccepted)).imp (mem_handling_of_finished hne) id
  | applies other haccepted' hhandling happlied =>
    rw [hhandling, happlied]
    by_cases hother : other = event
    · subst hother
      exact Or.inr (by simp)
    · exact (hw (haccepted' ▸ haccepted)).imp (mem_handling_of_finished hother)
        (List.mem_append_left _)

theorem Step.answered {a : Action} {w w' : World} {phase phase' : Phase} {i : ℕ}
    (h : Step a w phase w' phase') (heffect : event.webhook.effect ≠ none)
    (hkeeps : KeepsEffect event a w phase) (hw : NotLost event w)
    (hphase : AnsweredApplied event i w phase) : AnsweredApplied event i w' phase' := by
  intro hduplicate
  refine h.applied_mono ?_
  cases h with
  | same _ _ _ hphases => exact hphase (hphases event hduplicate)
  | duplicates other incoming eventId _ _ haction hbefore htaken _ _ _ hafter =>
    subst haction hbefore hafter
    obtain rfl : other = event := of_decide_eq_true hduplicate
    have hkept : other ∈ w.accepted ∧ other ∉ w.handling := by
      simpa [KeepsEffect, heffect, htaken] using hkeeps
    exact (hw hkept.1).resolve_left hkept.2
  | accepts _ _ _ _ hafter =>
    subst hafter
    cases hduplicate
  | givesUp _ _ _ _ _ _ hafter =>
    rw [hafter event] at hduplicate
    cases hduplicate
  | applies _ _ _ _ hafter =>
    rw [hafter event] at hduplicate
    cases hduplicate

theorem keepsEffect_stable (heffect : event.webhook.effect ≠ none) :
    Processes.Stable program (fun _ a w phase => KeepsEffect event a w phase) (NotLost event)
      (AnsweredApplied event) where
  shared i a w phase hkeeps hw _ := (program_step i a w phase).notLost heffect hkeeps hw
  own i a w phase hkeeps hw hphase := (program_step i a w phase).answered heffect hkeeps hw hphase
  other i _ a w phase _ _ _ _ _ hother hduplicate :=
    (program_step i a w phase).applied_mono (hother hduplicate)

/-- **No lost webhook effects**, in every interleaving of requests, workers and other changes in
which no step about the event loses its effect: where a redelivery of the event has been answered as
a duplicate, the effect has been committed, or outbox work that will apply it is pending. -/
theorem duplicate_was_applied {store : Store} (event : Event) {steps : List (ℕ × Action)}
    (hkeeps : Processes.Along program (fun _ a w phase => KeepsEffect event a w phase) steps
      (start store)) (i : ℕ)
    (hduplicate : ((Processes.run program steps (start store)).locals i).isDuplicate event) :
    Secured (Processes.run program steps (start store)).shared event := by
  intro effect heffect
  have hsome : event.webhook.effect ≠ none := fun hnone => by rw [hnone] at heffect; cases heffect
  obtain ⟨-, hanswered⟩ := (keepsEffect_stable hsome).run hkeeps
    ⟨fun haccepted => absurd haccepted List.not_mem_nil, fun _ h => by cases h⟩
  exact Or.inl (hanswered i hduplicate)

end Run

/-! ### A bounced deposit -/

/-- A deposit of 100 that has not settled. -/
def depositStore : Store where
  db := atomically (System.body ⟨envAt 1 1, .initiateDeposit 1 (dollars 100)⟩) (openedAccount 1)
  inbox := ⟨∅, ∅⟩

/-- The return of the deposit. -/
def bounce : Event := ⟨0, .plaid ⟨"TRANSFER", "RETURNED", none, some 1⟩⟩

/-- The return is delivered, applied, and delivered again. -/
def appliedSteps : List (ℕ × Action) := [
  (0, .deliver bounce true), (0, .intake 10 20 5), (0, .applyEffect (envAt 6 2)),
  (1, .deliver bounce true), (1, .intake 11 21 8)]

theorem duplicate_was_applied_of_the_return :
    Secured (Processes.run program appliedSteps (start depositStore)).shared bounce :=
  duplicate_was_applied bounce (by decide +kernel) 1 (by decide +kernel)

/-- The return is accepted, and its request crashes; a worker executes the outbox row, and the
return is delivered again. -/
def lostSteps : List (ℕ × Action) := [
  (0, .deliver bounce true), (0, .intake 10 20 5), (0, .crash),
  (1, .claim 20 "worker" 6), (1, .dispatch (envAt 6 2)), (1, .record 7 5),
  (2, .deliver bounce true), (2, .intake 11 21 8)]

/-- The redelivery is answered as a duplicate. No outbox work is left, and the deposit is still
pending. -/
theorem crash_loses_the_return :
    ((Processes.run program lostSteps (start depositStore)).locals 2).isDuplicate bounce ∧
    ¬ Secured (Processes.run program lostSteps (start depositStore)).shared bounce ∧
    ((Processes.run program lostSteps
      (start depositStore)).shared.store.db.settlementObligations.find 1).map (·.status) =
        some .pending := by
  refine ⟨by decide, fun hsecured => ?_, by decide +kernel⟩
  rcases hsecured (.achReturn 1) (by decide) with happlied | ⟨job, hjob, hopen, -⟩
  · revert happlied
    decide
  · have hdone : ∀ job ∈ (Processes.run program lostSteps
        (start depositStore)).shared.store.inbox.jobs.rows, job.status = .completed := by
      decide
    rw [hdone job hjob] at hopen
    rcases hopen with h | h
    · cases h
    · cases h

end Trueup.Webhooks
