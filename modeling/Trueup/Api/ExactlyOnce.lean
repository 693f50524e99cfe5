import Trueup.Api.Requests
import Trueup.Models.OpenedAccount

/-! # One effect for a key

Any number of deposits, withdrawals and orders with their `Idempotency-Key`s run side by side,
statement by statement, with locks and crashes, beside anything else that leaves the records of the
keys alone.

* `exactly_once`: of the requests of one key at most one commits; the others leave nothing, and
  those that begin later are answered from its record. -/

namespace Trueup.Api

open Trueup.Core Trueup.Models Trueup.Lib Trueup.Lib.Scripts Trueup.Lib.Idempotency

/-- The requests, side by side. -/
abbrev ApiRequests := Requests ℕ Lock Response Error Store.idempotencyKeys

/-- A step: of a request, or a change elsewhere. -/
abbrev ApiStep := ℕ × Scripts.Action (OffRecords Store.idempotencyKeys)

/-- The requests after the steps, from a store. -/
def runRequests (sha256 : RawBody → String) (requests : ℕ → ApiRequest) (base : Store)
    (steps : List ApiStep) : ApiRequests :=
  Processes.run (requestProgram Store.idempotencyKeys) steps
    (start (fun i => ((requests i).idempotent sha256).script) base)

/-- What the request has committed. -/
def committedBy (i : ℕ) (c : ApiRequests) : List (Reply Response) :=
  c.shared.history.filterMap (Change.value i)

/-- The requests are of one customer and carry the same key. -/
def SameKey (first later : ApiRequest) : Prop :=
  later.customerId = first.customerId ∧ later.idempotencyKey = first.idempotencyKey

/-- What a request ends with where the response to `first` is recorded. -/
def answerAfter (first : ApiRequest) (response : Response) (later : ApiRequest) :
    Phase Error Store Lock (Reply Response) :=
  if later.rawBody = first.rawBody then .ended (.replayed response)
  else .raised .idempotencyConflict

/-- The request ends so, unless it crashes; until then it writes nothing. -/
def Answers (answer phase : Phase Error Store Lock (Reply Response)) : Prop :=
  phase = answer ∨ phase = .crashed ∨ ∃ script, phase = .running script .ok

variable {sha256 : RawBody → String} {requests : ℕ → ApiRequest} {base : Store}

theorem ended_of_committed {phase : Phase Error Store Lock (Reply Response)} {a : Reply Response}
    (h : phase.committed Reply.isCreated = [a]) : phase = .ended a := by
  cases phase with
  | ended b =>
    unfold Phase.committed at h
    dsimp only at h
    split_ifs at h
    rw [List.singleton_inj.mp h]
  | _ => cases h

theorem committedBy_cases {c : ApiRequests}
    (h : RequestsOk (fun i => (requests i).idempotent sha256) base c) (i : ℕ) :
    committedBy i c = [] ∨ ∃ response, committedBy i c = [.created response] := by
  unfold committedBy
  rw [h.committed i]
  cases c.locals i with
  | ended a =>
    cases a with
    | created response => exact Or.inr ⟨response, rfl⟩
    | replayed response => exact Or.inl rfl
  | _ => exact Or.inl rfl

/-- The answer from a record is the response, if the digest is that of the body. -/
theorem replay_record (hcollision : ∀ i j,
      sha256 (requests i).rawBody = sha256 (requests j).rawBody →
        (requests i).rawBody = (requests j).rawBody) (i j : ℕ) (response : Response) :
    ((requests j).idempotent sha256).replay (((requests i).idempotent sha256).record response) =
      if (requests j).rawBody = (requests i).rawBody then .ok response
      else .error .idempotencyConflict := by
  have hbody : (requests j).rawBody = (requests i).rawBody ↔
      sha256 (requests i).rawBody = sha256 (requests j).rawBody :=
    ⟨fun h => by rw [h], fun h => (hcollision i j h).symm⟩
  simp only [hbody]
  show resolveReplay sha256 (requests j).rawBody ((requests i).record sha256 response) = _
  unfold resolveReplay Transaction.check
  show (if sha256 (requests i).rawBody = sha256 (requests j).rawBody then _ else _) >>= _ = _
  split_ifs
  · rfl
  · rfl

/-- A request that has not begun when a response is recorded ends with the answer from it. -/
theorem answers_of_created {c : ApiRequests}
    (h : RequestsOk (fun i => (requests i).idempotent sha256) base c)
    (hcollision : ∀ i j, sha256 (requests i).rawBody = sha256 (requests j).rawBody →
      (requests i).rawBody = (requests j).rawBody) {i j : ℕ} {response : Response}
    (hcreated : c.locals i = .ended (.created response)) (hkey : SameKey (requests i) (requests j))
    (hwaiting : c.locals j = .running ((requests j).idempotent sha256).script .ok) :
    (∀ later, Answers (answerAfter (requests i) response (requests j))
      ((Processes.run (requestProgram Store.idempotencyKeys) later c).locals j)) ∧
    (Processes.run (requestProgram Store.idempotencyKeys) [(j, .step), (j, .step)] c).locals j =
      answerAfter (requests i) response (requests j) := by
  have hfind := find_of_created h hcreated
  have hsame : ((requests i).idempotent sha256).key = ((requests j).idempotent sha256).key :=
    Prod.ext hkey.1.symm hkey.2.symm
  rw [hsame] at hfind
  have hreplay := replay_record hcollision i j response
  unfold answerAfter
  constructor
  · intro later
    have hphase := run_answering h hfind hwaiting later
    generalize (Processes.run (requestProgram Store.idempotencyKeys) later c).locals j = phase
      at hphase ⊢
    cases hphase with
    | waiting => exact Or.inr (Or.inr ⟨_, rfl⟩)
    | found b hb => exact Or.inr (Or.inr ⟨_, rfl⟩)
    | crashed => exact Or.inr (Or.inl rfl)
    | replayed b hb =>
      rw [hreplay] at hb
      split_ifs at hb ⊢
      cases hb
      exact Or.inl rfl
    | rejected e he =>
      rw [hreplay] at he
      split_ifs at he ⊢
      cases he
      exact Or.inl rfl
  · rw [answers_at_once hfind hwaiting, hreplay]
    split_ifs
    · rfl
    · rfl

theorem committed_of_answers {first later : ApiRequest} {response : Response}
    {phase : Phase Error Store Lock (Reply Response)}
    (h : Answers (answerAfter first response later) phase) :
    phase.committed Reply.isCreated = [] := by
  rcases h with rfl | rfl | ⟨script, rfl⟩
  · unfold answerAfter
    split_ifs
    · rfl
    · rfl
  · rfl
  · rfl

theorem run_append (sha256 : RawBody → String) (requests : ℕ → ApiRequest) (base : Store)
    (steps later : List ApiStep) : runRequests sha256 requests base (steps ++ later) =
      Processes.run (requestProgram Store.idempotencyKeys) later
        (runRequests sha256 requests base steps) := by
  unfold runRequests Processes.run
  rw [List.foldl_append]

/-- **Exactly one effect for a key**, in every interleaving of deposits, withdrawals and orders,
with crashes. The store is what the commits and the changes elsewhere have made of it. When a
request has committed, with a response, no other request of the key has a commit, and one that
begins afterwards ends with that response if its body is the same and with a conflict otherwise, at
once if it is not kept from its two statements, and commits nothing. -/
theorem exactly_once (sha256 : RawBody → String) (requests : ℕ → ApiRequest)
    (hcollision : ∀ i j, sha256 (requests i).rawBody = sha256 (requests j).rawBody →
      (requests i).rawBody = (requests j).rawBody) (base : Store) (steps : List ApiStep) :
    Made base (runRequests sha256 requests base steps).shared.history
      (runRequests sha256 requests base steps).shared.base ∧
    (∀ i, committedBy i (runRequests sha256 requests base steps) = [] ∨
      ∃ response, committedBy i (runRequests sha256 requests base steps) = [.created response]) ∧
    ∀ i response, committedBy i (runRequests sha256 requests base steps) = [.created response] →
      ∀ j, j ≠ i → SameKey (requests i) (requests j) →
        committedBy j (runRequests sha256 requests base steps) = [] ∧
        ((runRequests sha256 requests base steps).locals j =
            .running ((requests j).idempotent sha256).script .ok →
          (∀ later, committedBy j (runRequests sha256 requests base (steps ++ later)) = [] ∧
            Answers (answerAfter (requests i) response (requests j))
              ((runRequests sha256 requests base (steps ++ later)).locals j)) ∧
          (runRequests sha256 requests base (steps ++ [(j, .step), (j, .step)])).locals j =
            answerAfter (requests i) response (requests j)) := by
  have hok : ∀ steps, RequestsOk (fun i => (requests i).idempotent sha256) base
      (runRequests sha256 requests base steps) :=
    run_requestsOk (fun i => (requests i).idempotent sha256) base
  have hcommitted : ∀ i steps, committedBy i (runRequests sha256 requests base steps) =
      ((runRequests sha256 requests base steps).locals i).committed Reply.isCreated :=
    fun i steps => (hok steps).committed i
  have hatMostOne := fun i => committedBy_cases (hok steps) i
  refine ⟨(hok steps).made, hatMostOne, fun i response hi j hj hkey => ?_⟩
  rw [hcommitted] at hi
  have hcreated := ended_of_committed hi
  constructor
  · rcases hatMostOne j with hnone | ⟨response', hsome⟩
    · exact hnone
    · rw [hcommitted] at hsome
      have hsame : ((requests j).idempotent sha256).key = ((requests i).idempotent sha256).key :=
        Prod.ext hkey.1 hkey.2
      exact absurd (created_unique (hok steps) (ended_of_committed hsome) hcreated hsame) hj
  · intro hwaiting
    obtain ⟨hanswers, hatOnce⟩ :=
      answers_of_created (hok steps) hcollision hcreated hkey hwaiting
    refine ⟨fun later => ?_, ?_⟩
    · rw [hcommitted, run_append]
      exact ⟨committed_of_answers (hanswers later), hanswers later⟩
    · rw [run_append]
      exact hatOnce

/-! ### Four deposits with one key -/

/-- The bytes of a body. -/
def bytes (text : String) : RawBody := text.toList.map fun c => c.toNat.toUInt8

def hundred : RawBody :=
  bytes "\x7b\"customer_id\":\"00000000-0000-0000-0000-000000000001\",\"amount\":\"100\"\x7d"

def twoHundred : RawBody :=
  bytes "\x7b\"customer_id\":\"00000000-0000-0000-0000-000000000001\",\"amount\":\"200\"\x7d"

/-- The digests of the two bodies. -/
def digest (body : RawBody) : String :=
  if body = hundred then "afc7a145d00d0e55ae701c53b49f58801559e54bc27d7337eb5f5542d79244d4"
  else if body = twoHundred then "e9e7045c8712441c17d2d1cf7ada02cbdced97448acf109fda8d5e996c8ebc18"
  else ""

/-- Deposits of 100 with one key, but that request 3 has used the key for 200. -/
def deposits (i : ℕ) : ApiRequest where
  env := envAt i (i + 1)
  customerId := 1
  idempotencyKey := "key"
  rawBody := if i = 3 then twoHundred else hundred
  operation := .deposit (dollars (if i = 3 then 200 else 100))

/-- An account, and no records. -/
def openedStore : Store := ⟨openedAccount 1, ∅, ∅⟩

/-- Requests 0 and 1 look the key up and check the customer, one after the other; 0 takes the lock
and commits, then 1 goes on. -/
def depositSteps : List ApiStep :=
  [(0, .step), (1, .step), (0, .step), (1, .step), (0, .step), (1, .step)] ++
    List.replicate 12 (0, .step) ++ List.replicate 11 (1, .step)

/-- The response to request 0. -/
def depositResponse : Response := (201, .deposit ⟨1, 1, 2⟩)

theorem digest_collision (i j : ℕ) (h : digest (deposits i).rawBody = digest (deposits j).rawBody) :
    (deposits i).rawBody = (deposits j).rawBody := by
  have hne : digest twoHundred ≠ digest hundred := by decide
  unfold deposits at h ⊢
  dsimp only at h ⊢
  split_ifs at h ⊢
  · rfl
  · exact absurd h hne
  · exact absurd h.symm hne
  · rfl

/-- Request 1 has left nothing, 2 is answered as 0 was, and 3 is in conflict. -/
theorem exactly_once_of_deposits :
    committedBy 1 (runRequests digest deposits openedStore depositSteps) = [] ∧
    (runRequests digest deposits openedStore (depositSteps ++ [(2, .step), (2, .step)])).locals 2 =
      .ended (.replayed depositResponse) ∧
    (runRequests digest deposits openedStore (depositSteps ++ [(3, .step), (3, .step)])).locals 3 =
      .raised .idempotencyConflict := by
  obtain ⟨-, -, honce⟩ := exactly_once digest deposits digest_collision openedStore depositSteps
  have hcommitted : committedBy 0 (runRequests digest deposits openedStore depositSteps) =
      [.created depositResponse] := by decide +kernel
  have hkey : ∀ j, SameKey (deposits 0) (deposits j) := fun j => ⟨rfl, rfl⟩
  refine ⟨(honce 0 _ hcommitted 1 (by decide) (hkey 1)).1, ?_, ?_⟩
  · exact ((honce 0 _ hcommitted 2 (by decide) (hkey 2)).2 rfl).2
  · exact ((honce 0 _ hcommitted 3 (by decide) (hkey 3)).2 rfl).2

end Trueup.Api
