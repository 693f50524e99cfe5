import Trueup.Admin.ReviewQueue
import Trueup.Chat.ChatOrchestrationService
import Trueup.Identity.KycService
import Trueup.Lib.GuardedRows
import Trueup.Models.OpenedAccount

/-! # The records that triggers guard

`settlement_obligation`, `kyc_session`, `agent_action_request`, `reconciliation_break` and
`chat_message` under any statements of the runtime credentials, by the services or not: `DELETE` is
revoked on each, and each has a trigger on `UPDATE`.

* `closed_records_stay`: a committed row that has come to its end stays as it is.
* `guarded_fields_stay`: what identifies a request, a break or a message stays, and the status of a
  request goes its way. -/

namespace Trueup

open Trueup.Core Trueup.Models Trueup.Lib Trueup.Lib.GuardedRows Trueup.Identity Trueup.Chat
open Trueup.Admin Trueup.Reconciliation

/-! ### The triggers -/

/-- A table with the key of its rows and its trigger. -/
structure GuardedTable (κ ρ : Type) where
  key : ρ → κ
  trigger : ρ → ρ → Bool

/-- The committed row of a key, after some statements of the sessions `ι` on the table. -/
def GuardedTable.committed {ι κ ρ : Type} [DecidableEq ι] [DecidableEq κ] (table : GuardedTable κ ρ)
    (rows : κ → Option ρ) (steps : List (ι × Action κ ρ)) (k : κ) : Option ρ :=
  (Processes.run (program table.key table.trigger) steps (start rows)).shared.rows k

/-- `settlement_obligation_single_transition`. -/
def settlementObligationTable : GuardedTable Uuid SettlementObligation :=
  ⟨SettlementObligation.id, fun old _ => old.status = .pending⟩

/-- `kyc_session_single_transition`. -/
def kycSessionTable : GuardedTable String KycSession :=
  ⟨KycSession.providerSessionId, fun old _ => old.status = .pending⟩

/-- `agent_action_request_single_transition`. -/
def agentActionRequestTable : GuardedTable Uuid AgentActionRequest :=
  ⟨AgentActionRequest.id, AgentActionRequest.singleTransition⟩

/-- `reconciliation_break_single_transition`. -/
def reconciliationBreakTable : GuardedTable Uuid BreakRow := ⟨BreakRow.id, BreakRow.singleTransition⟩

/-- `chat_message_single_finalize`. -/
def chatMessageTable : GuardedTable Uuid ChatMessage :=
  ⟨ChatMessage.id, fun old new =>
    old.content = "" ∧ new.sessionId = old.sessionId ∧ new.role = old.role⟩

/-- The request has come to its end. -/
def IsClosed (row : AgentActionRequest) : Prop :=
  row.status = .rejected ∨ row.status = .executed ∨ row.status = .executionFailed

/-! ### What stays -/

/-- A committed row with `P` is there later as it was, whatever is executed. -/
def GuardedTable.Keeps {κ ρ : Type} [DecidableEq κ] (table : GuardedTable κ ρ) (P : ρ → Prop) : Prop :=
  ∀ {ι : Type} [DecidableEq ι] (rows : κ → Option ρ) (before rest : List (ι × Action κ ρ)) (k : κ)
    (old : ρ), P old → table.committed rows before k = some old →
      table.committed rows (before ++ rest) k = some old

theorem GuardedTable.keeps_of_final {κ ρ : Type} [DecidableEq κ] {table : GuardedTable κ ρ}
    {P : ρ → Prop} (hfinal : ∀ old new, P old → table.trigger old new = false) : table.Keeps P :=
  fun rows before rest _ old hold => final_stays rows before rest fun new => hfinal old new hold

/-- **Closed records stay.** Whatever statements the sessions execute, and whichever of them crash, a
committed row stays as it is once it is a settlement obligation that is confirmed or failed, a
verification session with a verdict, a request that is rejected or executed, a resolved break, or a
message with its content. -/
theorem closed_records_stay :
    settlementObligationTable.Keeps (·.status ≠ .pending) ∧
      kycSessionTable.Keeps (·.status ≠ .pending) ∧
      agentActionRequestTable.Keeps IsClosed ∧
      reconciliationBreakTable.Keeps (·.details.status ≠ .open) ∧
      chatMessageTable.Keeps (·.content ≠ "") := by
  refine ⟨GuardedTable.keeps_of_final fun old new hold => ?_,
    GuardedTable.keeps_of_final fun old new hold => ?_,
    GuardedTable.keeps_of_final fun old new hold => ?_,
    GuardedTable.keeps_of_final fun old new hold => ?_,
    GuardedTable.keeps_of_final fun old new hold => ?_⟩
  · exact decide_eq_false hold
  · exact decide_eq_false hold
  · show (old.status.mayBecome new.status && _) = false
    rcases hold with hold | hold | hold <;> rw [hold] <;> rfl
  · show (decide (old.details.status = .open) && _) = false
    rw [decide_eq_false hold, Bool.false_and]
  · exact decide_eq_false fun h => hold h.1

/-- The obligation of a deposit. -/
def pendingObligation : SettlementObligation where
  id := 1
  journalEntryId := 2
  account := .ofCustomer 1 .cash
  amountMoney := dollars 5
  expectedSettlementDate := 2
  status := .pending
  confirmedAt := none
  failedAt := none
  failureReason := none
  sourceEvent := .depositSettlementExpected 1 (dollars 5)

/-- It is confirmed by a session while another one waits to fail it. -/
def confirmedMeanwhile : List (Bool × Action Uuid SettlementObligation) := [
  (false, .begin), (true, .begin), (false, .update 1 fun row => { row with status := .confirmed }),
  (true, .update 1 fun row => { row with status := .failed }), (false, .commit)]

/-- What the other one wanted. -/
def failsAfterwards : List (Bool × Action Uuid SettlementObligation) := [
  (true, .update 1 fun row => { row with status := .failed }), (true, .commit)]

theorem closed_records_stay_confirmed :
    settlementObligationTable.committed (fun id => if id = 1 then some pendingObligation else none)
      (confirmedMeanwhile ++ failsAfterwards) 1 =
        some { pendingObligation with status := .confirmed } :=
  closed_records_stay.1 _ confirmedMeanwhile failsAfterwards 1 _ (by decide) (by decide)

/-! ### What goes its way -/

/-- What a committed row and the one that is there later have in common. -/
def GuardedTable.Relates {κ ρ : Type} [DecidableEq κ] (table : GuardedTable κ ρ)
    (R : ρ → ρ → Prop) : Prop :=
  ∀ {ι : Type} [DecidableEq ι] (rows : κ → Option ρ) (before rest : List (ι × Action κ ρ)) (k : κ)
    (old : ρ), table.committed rows before k = some old →
      ∃ new, table.committed rows (before ++ rest) k = some new ∧ R old new

theorem GuardedTable.relates_of_path {κ ρ : Type} [DecidableEq κ] {table : GuardedTable κ ρ}
    {R : ρ → ρ → Prop} (hpath : ∀ old new, Path table.trigger old new → R old new) :
    table.Relates R := by
  intro ι _ rows before rest k old hold
  obtain ⟨new, hnew, hevolved⟩ := versions_evolve rows before rest hold
  exact ⟨new, hnew, hpath old new hevolved⟩

/-- The request is the same, and its status has gone from the one to the other. -/
structure SameRequestOnItsWay (old new : AgentActionRequest) : Prop where
  same : old.SameRequest new
  way : Relation.ReflTransGen (fun before after => AgentActionStatus.mayBecome before after = true)
    old.status new.status

/-- **What identifies a record stays.** Whatever statements the sessions execute, and whichever of them
crash: a committed request keeps its action, agent, justification and date, and its status moves from
pending to approved or rejected and from approved to executed or failed; a committed break keeps all
that was found, and a message its session and role. -/
theorem guarded_fields_stay :
    agentActionRequestTable.Relates SameRequestOnItsWay ∧
      reconciliationBreakTable.Relates (fun old new =>
        new.details = { old.details with status := new.details.status }) ∧
      chatMessageTable.Relates (fun old new => new.sessionId = old.sessionId ∧ new.role = old.role) := by
  refine ⟨GuardedTable.relates_of_path fun old new hpath => ?_,
    GuardedTable.relates_of_path fun old new hpath => ?_,
    GuardedTable.relates_of_path fun old new hpath => ?_⟩
  · have hfields := hpath.field
      (f := fun row : AgentActionRequest =>
        (row.action, row.requestingAgent, row.justification, row.createdAt)) fun old new hallowed => by
      obtain ⟨haction, hagent, hjustification, hcreated⟩ :=
        of_decide_eq_true (Bool.and_eq_true_iff.mp hallowed).2
      rw [haction, hagent, hjustification, hcreated]
    simp only [Prod.mk.injEq] at hfields
    exact ⟨hfields, hpath.lift (·.status) fun old new hallowed => (Bool.and_eq_true_iff.mp hallowed).1⟩
  · have hfields := hpath.field (f := fun row : BreakRow => { row.details with status := .open })
      fun old new hallowed => by
        rw [of_decide_eq_true (Bool.and_eq_true_iff.mp hallowed).2]
    exact congrArg (fun details : ReconciliationBreak =>
      { details with status := new.details.status }) hfields
  · have hfields := hpath.field (f := fun row : ChatMessage => (row.sessionId, row.role))
      fun old new hallowed => by
        obtain ⟨-, hsession, hrole⟩ := of_decide_eq_true hallowed
        rw [hsession, hrole]
    simpa only [Prod.mk.injEq] using hfields

end Trueup
