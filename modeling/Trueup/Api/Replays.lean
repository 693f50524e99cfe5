import Trueup.Api.ExactlyOnce

/-! # Replays across endpoints

A record is found by the customer and the key, and checked against the body; it does not say which
endpoint it is from, and deposits and withdrawals accept the same bodies.

`replay_of_same_endpoint_iff`: every stored response that is returned is from a request of the same
endpoint exactly when no request begins under a key that a request of another endpoint has used with
the same body. -/

namespace Trueup.Api

open Trueup.Core Trueup.Models Trueup.Lib Trueup.Lib.Scripts Trueup.Lib.Idempotency

/-- The endpoints that read the key. -/
inductive Endpoint
  | deposits | withdrawals | orders
  deriving DecidableEq

/-- Where the operation is asked for. -/
def Operation.endpoint : Operation → Endpoint
  | .deposit _ => .deposits
  | .withdrawal _ => .withdrawals
  | .order _ _ _ _ _ => .orders

/-- The stored response that the request returns. -/
def replayed : Phase Error Store Lock (Reply Response) → Option Response
  | .ended (.replayed response) => some response
  | .running (.done (.replayed response)) _ => some response
  | _ => none

/-- The request returns the stored response. -/
def Replays (response : Response) (phase : Phase Error Store Lock (Reply Response)) : Prop :=
  replayed phase = some response

instance (response : Response) (phase : Phase Error Store Lock (Reply Response)) :
    Decidable (Replays response phase) :=
  inferInstanceAs (Decidable (replayed phase = some response))

/-- The response is that of a commit with the same key and body, to the same endpoint. -/
def FromSameEndpoint (requests : ℕ → ApiRequest) (made : List (ℕ × Response)) (j : ℕ)
    (response : Response) : Prop :=
  ∃ i, (i, response) ∈ made ∧ SameKey (requests i) (requests j) ∧
    (requests j).rawBody = (requests i).rawBody ∧
    (requests j).operation.endpoint = (requests i).operation.endpoint

/-- The request does not begin under a key that another endpoint has used with the same body. -/
def KeyOfOneEndpoint (sha256 : RawBody → String) (requests : ℕ → ApiRequest) (j : ℕ)
    (a : Scripts.Action (OffRecords Store.idempotencyKeys))
    (w : World ℕ Lock (Reply Response) Error (OffRecords Store.idempotencyKeys))
    (phase : Phase Error Store Lock (Reply Response)) : Prop :=
  a = .step → phase = .running ((requests j).idempotent sha256).script .ok →
    ∀ made ∈ creations w.history, SameKey (requests made.1) (requests j) →
      (requests j).rawBody = (requests made.1).rawBody →
      (requests j).operation.endpoint = (requests made.1).operation.endpoint

/-- No key has been used. -/
def unusedKeys (db : Database) (submissions : Outbox OrderSubmission) : Store := ⟨db, ∅, submissions⟩

section Run
variable {sha256 : RawBody → String} {requests : ℕ → ApiRequest} {base : Store} {c : ApiRequests}

/-- What a lookup finds is the record of a request with the same key and body. -/
theorem made_of_lookUp (hcollision : ∀ i j, sha256 (requests i).rawBody = sha256 (requests j).rawBody →
      (requests i).rawBody = (requests j).rawBody) {db : Database}
    {submissions : Outbox OrderSubmission}
    (h : RequestsOk (fun i => (requests i).idempotent sha256) (unusedKeys db submissions) c) {j : ℕ}
    {response : Response}
    (hlookUp : ((requests j).idempotent sha256).lookUp c.shared.base = .ok (some response)) :
    ∃ i, (i, response) ∈ creations c.shared.history ∧ SameKey (requests i) (requests j) ∧
      (requests j).rawBody = (requests i).rawBody := by
  unfold Request.lookUp at hlookUp
  cases hfind : c.shared.base.idempotencyKeys.find ((requests j).idempotent sha256).key with
  | none =>
    rw [hfind] at hlookUp
    cases hlookUp
  | some record =>
    rw [hfind] at hlookUp
    obtain ⟨b, hreplay, hb⟩ := Transaction.except_map_ok.mp hlookUp
    obtain rfl : b = response := Option.some.inj hb
    obtain ⟨hmem, hkey⟩ := Table.find_eq_some.mp hfind
    rw [Table.mem_iff, rows_of_ok h, show (unusedKeys db submissions).idempotencyKeys.rows = [] from
      rfl, List.nil_append] at hmem
    obtain ⟨made, hmade, rfl⟩ := List.mem_map.mp hmem
    have hsame : SameKey (requests made.1) (requests j) :=
      ⟨congrArg Prod.fst hkey.symm, congrArg Prod.snd hkey.symm⟩
    rw [replay_record hcollision made.1 j made.2] at hreplay
    split_ifs at hreplay with hbody
    cases hreplay
    exact ⟨made.1, hmade, hsame, hbody⟩

/-- What is known of every request. -/
def Sourced (sha256 : RawBody → String) (requests : ℕ → ApiRequest) (base : Store)
    (c : ApiRequests) : Prop :=
  RequestsOk (fun i => (requests i).idempotent sha256) base c ∧
    ∀ j, Replying ((requests j).idempotent sha256)
      (FromSameEndpoint requests (creations c.shared.history) j) (c.locals j)

theorem sourced_act (hcollision : ∀ i j, sha256 (requests i).rawBody = sha256 (requests j).rawBody →
      (requests i).rawBody = (requests j).rawBody) {db : Database}
    {submissions : Outbox OrderSubmission} (step : ApiStep)
    (hstep : KeyOfOneEndpoint sha256 requests step.1 step.2 c.shared (c.locals step.1))
    (h : Sourced sha256 requests (unusedKeys db submissions) c) :
    Sourced sha256 requests (unusedKeys db submissions)
      (Processes.act (requestProgram Store.idempotencyKeys) step c) := by
  obtain ⟨hok, hphases⟩ := h
  have hcases := step_cases Reply.isCreated step.1 step.2 c.shared (c.locals step.1)
  have hmono : ∀ j response, FromSameEndpoint requests (creations c.shared.history) j response →
      FromSameEndpoint requests (creations (Processes.act (requestProgram Store.idempotencyKeys) step
        c).shared.history) j response :=
    fun j response ⟨i, hmade, hsame⟩ => ⟨i, mem_creations_of_step hcases hmade, hsame⟩
  refine ⟨ok_act step hok, fun j => ?_⟩
  rw [act_locals]
  split_ifs with hj
  · subst hj
    refine step_replying hcases (fun response hwaiting hfound hlookUp => ?_)
      ((hphases _).mono (hmono _))
    obtain ⟨i, hmade, hkey, hbody⟩ := made_of_lookUp hcollision hok hlookUp
    refine hmono _ _ ⟨i, hmade, hkey, hbody, hstep ?_ hwaiting (i, response) hmade hkey hbody⟩
    -- nothing but its own statement takes the request to the answer
    cases hact : step.2 with
    | step => rfl
    | crash =>
      rw [hact, hwaiting] at hfound
      cases hfound
    | elsewhere change kind =>
      rw [hact, hwaiting] at hfound
      cases hfound
  · exact (hphases j).mono (hmono j)

theorem source_of_replays {r : Request Error Lock Response Store.idempotencyKeys}
    {source : Response → Prop} {response : Response}
    {phase : Phase Error Store Lock (Reply Response)} (h : Replying r source phase)
    (hreplays : Replays response phase) : source response := by
  cases h with
  | waiting => cases hreplays
  | working script own hends =>
    cases script with
    | done reply =>
      cases reply with
      | created _ => cases hreplays
      | replayed _ => cases (hends : false = true)
    | _ => cases hreplays
  | found b hsource =>
    cases hreplays
    exact hsource
  | replayed b hsource =>
    cases hreplays
    exact hsource
  | _ => cases hreplays

/-- A request that begins where its key has a record of its body returns the response. -/
theorem replays_of_made (h : RequestsOk (fun i => (requests i).idempotent sha256) base c)
    (hcollision : ∀ i j, sha256 (requests i).rawBody = sha256 (requests j).rawBody →
      (requests i).rawBody = (requests j).rawBody) {i j : ℕ} {response : Response}
    (hmade : (i, response) ∈ creations c.shared.history) (hkey : SameKey (requests i) (requests j))
    (hbody : (requests j).rawBody = (requests i).rawBody)
    (hwaiting : c.locals j = .running ((requests j).idempotent sha256).script .ok) :
    Replays response
      ((Processes.act (requestProgram Store.idempotencyKeys) (j, .step) c).locals j) := by
  have hfind := find_of_created h ((created_iff h).mpr hmade)
  have hsame : ((requests i).idempotent sha256).key = ((requests j).idempotent sha256).key :=
    Prod.ext hkey.1.symm hkey.2.symm
  rw [hsame] at hfind
  have hstep := looks_up (j := j) (w := c.shared) hfind
  rw [replay_record hcollision i j, if_pos hbody] at hstep
  rw [act_locals, if_pos rfl, hwaiting]
  exact congrArg replayed (congrArg Prod.snd hstep)

end Run

/-- **Replays of one endpoint.** In every interleaving of deposits, withdrawals and orders from a
store without records, every stored response that is returned is that of a request to the same
endpoint, with the same key and body, exactly when no request begins under a key that another
endpoint has used with the same body. -/
theorem replay_of_same_endpoint_iff (sha256 : RawBody → String) (requests : ℕ → ApiRequest)
    (hcollision : ∀ i j, sha256 (requests i).rawBody = sha256 (requests j).rawBody →
      (requests i).rawBody = (requests j).rawBody) (db : Database)
    (submissions : Outbox OrderSubmission) (steps : List ApiStep) :
    (∀ before rest, steps = before ++ rest → ∀ j response,
        Replays response ((runRequests sha256 requests (unusedKeys db submissions) before).locals j) →
        FromSameEndpoint requests (creations (runRequests sha256 requests (unusedKeys db submissions)
          before).shared.history) j response) ↔
      Processes.Along (requestProgram Store.idempotencyKeys) (KeyOfOneEndpoint sha256 requests) steps
        (start (fun i => ((requests i).idempotent sha256).script) (unusedKeys db submissions)) := by
  have hok : ∀ steps, RequestsOk (fun i => (requests i).idempotent sha256) (unusedKeys db submissions)
      (runRequests sha256 requests (unusedKeys db submissions) steps) :=
    run_requestsOk (fun i => (requests i).idempotent sha256) (unusedKeys db submissions)
  rw [Processes.along_iff]
  constructor
  · rintro hsame before ⟨j, a⟩ rest hsteps rfl hwaiting made hmade hkey hbody
    have hreplays := replays_of_made (hok before) hcollision hmade hkey hbody hwaiting
    have hafter : runRequests sha256 requests (unusedKeys db submissions) (before ++ [(j, .step)]) =
        Processes.act (requestProgram Store.idempotencyKeys) (j, .step)
          (runRequests sha256 requests (unusedKeys db submissions) before) :=
      run_append sha256 requests (unusedKeys db submissions) before [(j, .step)]
    rw [← hafter] at hreplays
    obtain ⟨i, hi, hkey', -, hendpoint⟩ := hsame (before ++ [(j, .step)]) rest
      (by rw [hsteps, List.append_assoc]; rfl) j made.2 hreplays
    have hmade' : made ∈ creations (runRequests sha256 requests (unusedKeys db submissions)
        (before ++ [(j, .step)])).shared.history := by
      rw [hafter]
      exact mem_creations_of_step (step_cases _ _ _ _ _) hmade
    have hone : i = made.1 := created_unique (hok (before ++ [(j, .step)]))
      ((created_iff (hok _)).mpr hi) ((created_iff (hok _)).mpr hmade')
      (Prod.ext (hkey'.1.symm.trans hkey.1) (hkey'.2.symm.trans hkey.2))
    rw [hendpoint, hone]
  · intro halong before rest hsteps j response hreplays
    have hsourced : Sourced sha256 requests (unusedKeys db submissions)
        (runRequests sha256 requests (unusedKeys db submissions) before) := by
      refine Processes.run_keeps (fun step c hstep hc => sourced_act hcollision step hstep hc)
        ((Processes.along_iff _).mpr fun first step others hbefore => ?_)
        ⟨hok [], fun j => .waiting⟩
      exact halong first step (others ++ rest) (by rw [hsteps, hbefore, List.append_assoc]; rfl)
    exact source_of_replays (hsourced.2 j) hreplays

/-- Request 2 is answered as request 0 was. -/
theorem replay_of_same_endpoint_iff_deposits :
    FromSameEndpoint deposits (creations (runRequests digest deposits
      (unusedKeys (openedAccount 1) ∅) (depositSteps ++ [(2, .step)])).shared.history) 2
      depositResponse := by
  have halong : Processes.Along (requestProgram Store.idempotencyKeys)
      (KeyOfOneEndpoint digest deposits) (depositSteps ++ [(2, .step)])
      (start (fun i => ((deposits i).idempotent digest).script)
        (unusedKeys (openedAccount 1) ∅)) := by
    refine (Processes.along_iff _).mpr fun _ _ _ _ _ _ _ _ _ _ => ?_
    simp only [deposits, Operation.endpoint]
  exact (replay_of_same_endpoint_iff digest deposits digest_collision (openedAccount 1) ∅ _).mpr
    halong _ [] (List.append_nil _).symm 2 depositResponse (by decide +kernel)

/-- A deposit of 100, and a withdrawal of 100 with its key and its body. -/
def depositThenWithdrawal (i : ℕ) : ApiRequest where
  env := envAt i (i + 1)
  customerId := 1
  idempotencyKey := "key"
  rawBody := hundred
  operation := if i = 1 then .withdrawal (dollars 100) else .deposit (dollars 100)

/-- One after the other. -/
def depositThenWithdrawalSteps : List ApiStep :=
  List.replicate 15 (0, .step) ++ List.replicate 2 (1, .step)

/-- The withdrawal is answered with the response to the deposit, and nothing is withdrawn. -/
theorem withdrawal_answered_as_deposit :
    Replays depositResponse ((runRequests digest depositThenWithdrawal
      (unusedKeys (openedAccount 1) ∅) depositThenWithdrawalSteps).locals 1) ∧
    ¬ FromSameEndpoint depositThenWithdrawal (creations (runRequests digest depositThenWithdrawal
      (unusedKeys (openedAccount 1) ∅) depositThenWithdrawalSteps).shared.history) 1
      depositResponse ∧
    (runRequests digest depositThenWithdrawal (unusedKeys (openedAccount 1) ∅)
      depositThenWithdrawalSteps).shared.base.db.journalEntries.rows.map (·.entryType) =
        [.deposit] := by
  have hcreations : creations (runRequests digest depositThenWithdrawal
      (unusedKeys (openedAccount 1) ∅) depositThenWithdrawalSteps).shared.history =
        [(0, depositResponse)] := by decide +kernel
  refine ⟨by decide +kernel, ?_, by decide +kernel⟩
  rw [hcreations]
  rintro ⟨i, hmade, -, -, hendpoint⟩
  obtain rfl : i = 0 := congrArg Prod.fst (List.mem_singleton.mp hmade)
  revert hendpoint
  decide

end Trueup.Api
