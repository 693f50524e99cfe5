import Trueup.Fees.ApplicableOutcomes
import Trueup.Lib.Deciding
import Trueup.Webhooks.Redeliveries

/-! # When an effect can be applied

The unit of work of an effect looks up what the webhook names, and does nothing if it is not there.
What it raises otherwise is for the request to answer, and the effect is lost.

* `Effect.Applicable`: what the tables must hold for an effect: a deposit that is returned is
  pending, a link is the only one of its item, the outcome of a charge can be recorded.
* `body_returns_iff`: the unit of work returns exactly then.
* `keepsEffect_apply_iff`: so it is exactly then that the request does not lose the effect of its
  event in this step. -/

namespace Trueup.Webhooks

open Trueup.Core Trueup.Models Trueup.Lib Trueup.Lib.Transaction Trueup.Ledger Trueup.Identity
open Trueup.Fees Trueup.Fees.Charging

/-! ### Suppressed errors -/

section Suppress
variable {error : Error} {x : Tx Unit} {db : Database}

theorem suppress_returns_iff : (∃ db', (suppress error x).run db = .ok ((), db')) ↔
    (∃ db', x.run db = .ok ((), db')) ∨ x.run db = .error error := by
  unfold suppress
  simp only [bind_ok, pure_ok, savepoint_ok]
  constructor
  · rintro ⟨_, _, _, ⟨u, -, hx⟩ | ⟨-, -, e, hx, hcaught⟩, -, -⟩
    · exact Or.inl ⟨_, hx⟩
    · exact Or.inr (of_decide_eq_true hcaught ▸ hx)
  · rintro (⟨db', hx⟩ | hx)
    · exact ⟨db', some (), db', Or.inl ⟨(), rfl, hx⟩, trivial, rfl⟩
    · exact ⟨db, none, db, Or.inr ⟨rfl, rfl, error, hx, decide_eq_true rfl⟩, trivial, rfl⟩

theorem suppress_returns_iff_of_fails {P : Error → Prop} (h : Fails P (x.run db))
    (hnot : ¬ P error) :
    (∃ db', (suppress error x).run db = .ok ((), db')) ↔ ∃ db', x.run db = .ok ((), db') :=
  suppress_returns_iff.trans (or_iff_left fun herror => hnot (h error herror))

end Suppress

/-! ### What is raised about a row that is there -/

/-- Not that a row is missing. -/
def RowFound : Error → Prop
  | .settlementObligationNotFound | .feeChargeNotFound => False
  | _ => True

theorem not_rowFound_settlementObligationNotFound : ¬ RowFound .settlementObligationNotFound := id

theorem not_rowFound_feeChargeNotFound : ¬ RowFound .feeChargeNotFound := id

theorem rowFound_of_isLedgerError (e : Error) (h : IsLedgerError e) : RowFound e := by
  cases e with
  | settlementObligationNotFound => exact h
  | feeChargeNotFound => exact h
  | _ => trivial

section Raised
variable {env : Env} {maxAttempts : ℕ} {charge : FeeCharge}

theorem raises_writeEntry (entry : JournalEntry) (legs : List PostingLeg) :
    Raises RowFound (writeEntry entry legs) :=
  raises_bind (Raises.mono (raises_lift (fails_validateLegs legs)) rowFound_of_isLedgerError) fun _ =>
    raises_bind (raises_write fun _ => fails_bind (fails_ofOption trivial) fun _ => fails_ok _) fun _ =>
      raises_bind (raises_each (fun leg =>
        Raises.mono (raises_addLeg entry.id leg) rowFound_of_isLedgerError) legs) fun _ => raises_pure _

theorem raises_updateFeeCharge (feeChargeId : Uuid) (f : FeeCharge → FeeCharge) :
    Raises RowFound (updateFeeCharge feeChargeId f) :=
  raises_write fun _ => fails_bind (fails_ofOption trivial) fun _ =>
    fails_bind (fails_check trivial) fun _ =>
      fails_bind (fails_bind (fails_check trivial) fun _ => fails_check trivial) fun _ => fails_ok _

theorem raises_updateDunningState (feeChargeId : Uuid) (f : DunningState → DunningState) :
    Raises RowFound (updateDunningState feeChargeId f) :=
  raises_write fun _ => fails_bind (fails_ofOption trivial) fun _ => fails_ok _

theorem raises_collect (stripeChargeId : String) :
    Raises RowFound (collect env charge stripeChargeId) :=
  raises_bind (Raises.mono (raises_getOrCreateCustomerAccount _ _ _) rowFound_of_isLedgerError)
    fun _ => raises_bind (Raises.mono (raises_getOrCreateHouseAccount _) rowFound_of_isLedgerError)
      fun _ => raises_bind (raises_writeEntry _ _) fun _ => raises_updateFeeCharge _ _

theorem raises_closeDunning (dunning : Option DunningState) : Raises RowFound (closeDunning dunning) := by
  cases dunning with
  | none => exact raises_pure _
  | some dunning => exact raises_update _

theorem raises_recordFailure (dunning : Option DunningState) :
    Raises RowFound (recordFailure env maxAttempts charge dunning) := by
  cases dunning with
  | none =>
    exact raises_bind (raises_updateFeeCharge _ _) fun _ =>
      raises_write fun _ => fails_bind (fails_ofOption trivial) fun _ => fails_ok _
  | some dunning =>
    exact raises_ite
      (raises_bind (raises_updateFeeCharge _ _) fun _ => raises_updateDunningState _ _)
      (raises_updateDunningState _ _)

variable {db : Database} {feeChargeId : Uuid}

theorem fails_applyChargeSuccess (hfind : db.feeCharges.find feeChargeId = some charge)
    (stripeChargeId : String) :
    Fails RowFound ((applyChargeSuccess env feeChargeId stripeChargeId).run db) := by
  refine fails_run_bind (fun e h => ?_) fun found db₁ _ => ?_
  · rw [read_error, getFeeCharge_some hfind] at h
    cases h
  · exact raises_ite (raises_pure _) (raises_bind (raises_collect _) fun _ =>
      raises_bind (raises_read fun _ => fails_ok _) fun _ => raises_closeDunning _) db₁

theorem fails_applyChargeFailure (hfind : db.feeCharges.find feeChargeId = some charge) :
    Fails RowFound ((applyChargeFailure env maxAttempts feeChargeId).run db) := by
  refine fails_run_bind (fun e h => ?_) fun found db₁ _ => ?_
  · rw [read_error, getFeeCharge_some hfind] at h
    cases h
  · exact raises_ite (raises_pure _) (raises_bind (raises_read fun _ => fails_ok _) fun _ =>
      raises_recordFailure _) db₁

theorem fails_applyAchReturn {obligation : SettlementObligation} {customerId : Uuid}
    (hfind : db.settlementObligations.find feeChargeId = some obligation)
    (hcustomer : obligation.account.customerId = some customerId) :
    Fails RowFound ((applyAchReturn env feeChargeId).run db) := by
  refine fails_run_bind (fun e h => ?_) fun found db₁ hget => ?_
  · rw [getObligation, read_error, hfind] at h
    cases h
  · obtain ⟨hfound, rfl⟩ := getObligation_ok.mp hget
    rw [hfind] at hfound
    cases hfound
    refine fails_run_bind (fun e h => ?_) fun customerId db₁ _ => ?_
    · rw [lift, read_error, hcustomer] at h
      cases h
    · refine raises_bind (raises_bind (raises_lift (fails_check trivial)) fun _ => raises_update _)
        (fun _ => raises_bind ?_ fun _ => raises_bind (raises_writeEntry _ _) fun _ => raises_pure _) db₁
      exact Raises.mono (raises_getOrCreateCustomerAccount _ _ _) rowFound_of_isLedgerError

end Raised

/-! ### What it takes to apply an effect -/

/-- A deposit whose return can be recorded: it is pending, its customer has at most one account for
what it then owes, and its entry is in money and new. -/
structure Returnable (env : Env) (obligation : SettlementObligation) (customerId : Uuid)
    (db : Database) : Prop where
  pending : obligation.status = .pending
  receivable : (db.accountsOf customerId .customerReceivable none).length ≤ 1
  money : obligation.account.role.dimension = .money
  entry : ¬ db.journalEntries.Has (env.uuid4 .journalEntry)

/-- The outcome of a charge can be recorded: it has been already, or it can be. -/
def OutcomeApplicable (env : Env) (charge : FeeCharge) (db : Database) : Option Outcome → Prop
  | some (.success stripeChargeId) =>
    charge.status = .succeeded ∨ Collectable env charge stripeChargeId db
  | some .failure =>
    isClosed charge ∨ ((∀ d, db.dunningStates.find charge.id = some d →
      d.maxAttempts ≤ d.attemptNumber + 1) → Storable db charge)
  | none => True

/-- **The tables an effect can be applied to**; what it names need not be there. -/
def Effect.Applicable (env : Env) (db : Database) : Effect → Prop
  | .itemLoginRequired plaidItemId =>
    (db.bankLinks.filter (·.plaidItemId = plaidItemId)).length ≤ 1
  | .achReturn obligationId =>
    ∀ obligation, db.settlementObligations.find obligationId = some obligation →
      ∀ customerId, obligation.account.customerId = some customerId →
        Returnable env obligation customerId db
  | .verdict stripeChargeId status =>
    (db.feeCharges.rows.filter (·.stripeChargeId = some stripeChargeId)).length ≤ 1 ∧
      ∀ charge ∈ db.feeCharges, charge.stripeChargeId = some stripeChargeId →
        OutcomeApplicable env charge db (verdictOutcome stripeChargeId status)

section Returns
variable {env : Env} {db : Database}

theorem scalarOneOrNone_returns_iff {α : Type} {l : List α} :
    (∃ found, scalarOneOrNone l = .ok found) ↔ l.length ≤ 1 := by
  match l with
  | [] => simp [scalarOneOrNone]
  | [a] => simp [scalarOneOrNone]
  | a :: b :: rest => simp [scalarOneOrNone]

theorem applyAchReturn_returns_iff {obligationId customerId : Uuid}
    {obligation : SettlementObligation}
    (hfind : db.settlementObligations.find obligationId = some obligation)
    (hcustomer : obligation.account.customerId = some customerId) :
    (∃ db', (applyAchReturn env obligationId).run db = .ok ((), db')) ↔
      Returnable env obligation customerId db := by
  constructor
  · rintro ⟨db', h⟩
    unfold applyAchReturn failSettlement at h
    simp only [bind_ok, getObligation_ok, lift_ok, ofOption_ok, require_ok,
      setSettlementObligation_ok] at h
    obtain ⟨_, _, ⟨hfound, rfl⟩, _, _, ⟨hof, rfl⟩, _, _, ⟨_, _, ⟨hpending, rfl⟩, rfl⟩, receivable, db₁,
      hreceivable, entry, _, hpost, -⟩ := h
    rw [hfind] at hfound
    cases hfound
    rw [hcustomer] at hof
    cases hof
    rw [accountFor, if_pos rfl] at hreceivable
    have hcount := (getOrCreateCustomerAccount_returns_iff (by decide)).mp ⟨_, _, hreceivable⟩
    obtain ⟨-, accounts, rfl⟩ := getOrCreateCustomerAccount_ok hreceivable
    obtain ⟨-, hlegs, -, entries, hentries, -⟩ := writeEntry_ok.mp hpost
    obtain ⟨posting, hposting, hdimension⟩ := hlegs _ List.mem_cons_self
    cases hposting
    exact ⟨hpending, hcount, hdimension.symm, (Table.insert_eq_some.mp hentries).1⟩
  · rintro ⟨hpending, hcount, hmoney, hentry⟩
    let failed := { obligation with
      status := .failed, failedAt := some (env.now .failedAt), failureReason := some "ach_return" }
    let db₁ := { db with settlementObligations := db.settlementObligations.set failed }
    obtain ⟨receivable, db₂, hreceivable⟩ :
        ∃ receivable db₂, (getOrCreateCustomerAccount customerId .customerReceivable none).run db₁ =
          .ok (receivable, db₂) := (getOrCreateCustomerAccount_returns_iff (by decide)).mpr hcount
    obtain ⟨hof, accounts, rfl⟩ := getOrCreateCustomerAccount_ok hreceivable
    obtain ⟨entries, postings, hpost⟩ := post_transfer_returns { db₁ with accounts }
      obligation.account receivable hmoney (by rw [hof.role]; rfl) hentry .correction
      (env.now .effectiveDate).instant.utcDate (.depositAchReturn customerId obligation.amountMoney)
      obligation.amountMoney
    unfold applyAchReturn failSettlement
    simp only [bind_ok, getObligation_ok, lift_ok, ofOption_ok, require_ok,
      setSettlementObligation_ok, pure_ok]
    exact ⟨_, obligation, db, ⟨hfind, rfl⟩, customerId, db, ⟨hcustomer, rfl⟩, (), db₁,
      ⟨(), db, ⟨hpending, rfl⟩, rfl⟩, receivable, _, hreceivable, _, _, hpost, trivial, rfl⟩

/-- The marking of a link raises only when two links have the item. -/
theorem itemLoginRequired_returns_iff {plaidItemId : String} :
    (∃ db', (suppress .bankLinkNotFound (applyItemLoginRequired plaidItemId)).run db = .ok ((), db')) ↔
      (db.bankLinks.filter (·.plaidItemId = plaidItemId)).length ≤ 1 := by
  rw [← scalarOneOrNone_returns_iff, suppress_returns_iff]
  constructor
  · rintro (⟨db', h⟩ | h)
    · obtain ⟨found, _, hfound, -⟩ := bind_ok.mp h
      exact ⟨found, (read_ok.mp hfound).1⟩
    · rcases bind_error.mp h with h | ⟨found, _, hfound, -⟩
      · have hraises : Fails (· ≠ .bankLinkNotFound) (getByPlaidItemId db plaidItemId) :=
          fails_scalarOneOrNone (by decide) _
        have herror := read_error.mp h
        exact absurd rfl (hraises _ herror)
      · exact ⟨found, (read_ok.mp hfound).1⟩
  · rintro ⟨found, hfound⟩
    unfold applyItemLoginRequired
    cases found with
    | none =>
      exact Or.inr (bind_error.mpr (Or.inr ⟨none, db, read_ok.mpr ⟨hfound, rfl⟩, rfl⟩))
    | some link =>
      refine Or.inl ?_
      simp only [bind_ok, read_ok, lift_ok, ofOption_ok, whenever]
      by_cases hactive : link.status = .active
      · exact ⟨_, _, db, ⟨hfound, rfl⟩, link, db, ⟨rfl, rfl⟩, by rw [if_pos hactive]; rfl⟩
      · exact ⟨db, _, db, ⟨hfound, rfl⟩, link, db, ⟨rfl, rfl⟩, by rw [if_neg hactive]; rfl⟩

theorem achReturn_returns_iff {obligationId : Uuid} :
    (∃ db', (suppress .settlementObligationNotFound (applyAchReturn env obligationId)).run db =
      .ok ((), db')) ↔ (Effect.achReturn obligationId).Applicable env db := by
  show _ ↔ ∀ obligation, _ → ∀ customerId, _ → _
  cases hfind : db.settlementObligations.find obligationId with
  | none =>
    refine iff_of_true (suppress_returns_iff.mpr (Or.inr (bind_error.mpr (Or.inl ?_))))
      fun obligation h => by cases h
    rw [getObligation, read_error, hfind]
    rfl
  | some obligation =>
    cases hcustomer : obligation.account.customerId with
    | none =>
      refine iff_of_true (suppress_returns_iff.mpr (Or.inr (bind_error.mpr (Or.inr
        ⟨obligation, db, getObligation_ok.mpr ⟨hfind, rfl⟩, bind_error.mpr (Or.inl ?_)⟩)))) ?_
      · rw [hcustomer]
        rfl
      · intro other hother customerId hc
        cases hother
        rw [hcustomer] at hc
        cases hc
    | some customerId =>
      rw [suppress_returns_iff_of_fails (fails_applyAchReturn hfind hcustomer)
        not_rowFound_settlementObligationNotFound, applyAchReturn_returns_iff hfind hcustomer]
      constructor
      · intro h other hother customerId' hc
        cases hother
        rw [hcustomer] at hc
        cases hc
        exact h
      · exact fun h => h obligation rfl customerId hcustomer

theorem outcome_returns_iff {charge : FeeCharge} (hcharge : charge ∈ db.feeCharges)
    (stripeChargeId : String) :
    ((∃ db', (suppress .feeChargeNotFound (applyChargeSuccess env charge.id stripeChargeId)).run db =
      .ok ((), db')) ↔ OutcomeApplicable env charge db (some (.success stripeChargeId))) ∧
    ((∃ db', (suppress .feeChargeNotFound
        (applyChargeFailure env dunningMaxAttempts charge.id)).run db = .ok ((), db')) ↔
      OutcomeApplicable env charge db (some .failure)) := by
  have hfind := Table.find_eq_some.mpr ⟨hcharge, rfl⟩
  rw [suppress_returns_iff_of_fails (fails_applyChargeSuccess hfind _) not_rowFound_feeChargeNotFound,
    suppress_returns_iff_of_fails (fails_applyChargeFailure hfind) not_rowFound_feeChargeNotFound]
  constructor
  · by_cases hsucceeded : charge.status = .succeeded
    · refine iff_of_true ⟨db, ?_⟩ (Or.inl hsucceeded)
      unfold applyChargeSuccess
      simp only [bind_ok, read_ok]
      exact ⟨charge, db, ⟨getFeeCharge_some hfind, rfl⟩, by rw [if_pos hsucceeded]; rfl⟩
    · exact (applyChargeSuccess_returns_iff hfind hsucceeded).trans
        (or_iff_right hsucceeded).symm
  · by_cases hclosed : isClosed charge = true
    · refine iff_of_true ⟨db, ?_⟩ (Or.inl hclosed)
      unfold applyChargeFailure
      simp only [bind_ok, read_ok]
      exact ⟨charge, db, ⟨getFeeCharge_some hfind, rfl⟩, by rw [if_pos hclosed]; rfl⟩
    · exact (applyChargeFailure_returns_iff hfind (Bool.eq_false_of_not_eq_true hclosed)).trans
        (or_iff_right hclosed).symm

theorem applyVerdict_returns_iff_of_found {stripeChargeId status : String} {found : Option FeeCharge}
    (hfound : getByStripeChargeId db stripeChargeId = .ok found) :
    (∃ db', (applyVerdict env stripeChargeId status).run db = .ok ((), db')) ↔
      ∀ charge, found = some charge →
        OutcomeApplicable env charge db (verdictOutcome stripeChargeId status) := by
  unfold applyVerdict
  rw [run_read_bind (f := fun db => getByStripeChargeId db stripeChargeId) hfound]
  cases found with
  | none => exact iff_of_true ⟨db, rfl⟩ fun charge h => by cases h
  | some charge =>
    simp only [Option.some.injEq, forall_eq']
    cases verdictOutcome stripeChargeId status with
    | none => exact iff_of_true ⟨db, rfl⟩ trivial
    | some outcome =>
      cases outcome with
      | success stripeChargeId => exact (outcome_returns_iff (getByStripeChargeId_ok hfound).1 _).1
      | failure => exact (outcome_returns_iff (getByStripeChargeId_ok hfound).1 stripeChargeId).2

theorem applyVerdict_returns_iff {stripeChargeId status : String} :
    (∃ db', (applyVerdict env stripeChargeId status).run db = .ok ((), db')) ↔
      (Effect.verdict stripeChargeId status).Applicable env db := by
  rw [Effect.Applicable, ← scalarOneOrNone_returns_iff]
  constructor
  · rintro ⟨db', h⟩
    obtain ⟨found, _, hread, -⟩ := bind_ok.mp h
    obtain ⟨hfound, rfl⟩ := read_ok.mp hread
    refine ⟨⟨found, hfound⟩, fun charge hcharge hid => ?_⟩
    refine (applyVerdict_returns_iff_of_found hfound).mp ⟨db', h⟩ charge ?_
    have hmem : charge ∈ db.feeCharges.rows.filter (·.stripeChargeId = some stripeChargeId) :=
      List.mem_filter.mpr ⟨hcharge, decide_eq_true hid⟩
    cases found with
    | none =>
      rw [scalarOneOrNone_eq_none.mp hfound] at hmem
      cases hmem
    | some other =>
      rw [scalarOneOrNone_eq_some.mp hfound, List.mem_singleton] at hmem
      rw [hmem]
  · rintro ⟨⟨found, hfound⟩, houtcome⟩
    refine (applyVerdict_returns_iff_of_found hfound).mpr fun charge hcharge => ?_
    subst hcharge
    obtain ⟨hmem, hid⟩ := getByStripeChargeId_ok hfound
    exact houtcome charge hmem hid

/-- **What it takes to apply an effect**: its unit of work returns exactly on these tables. -/
theorem body_returns_iff {effect : Effect} :
    (∃ db', (effect.body env).run db = .ok ((), db')) ↔ effect.Applicable env db := by
  cases effect with
  | itemLoginRequired plaidItemId => exact itemLoginRequired_returns_iff
  | achReturn obligationId => exact achReturn_returns_iff
  | verdict stripeChargeId status => exact applyVerdict_returns_iff

/-- **When a request keeps the effect of its event**: at the step that applies it, exactly when the
effect can be applied to the tables there are. -/
theorem keepsEffect_apply_iff {event : Event} {effect : Effect}
    (heffect : event.webhook.effect = some effect) {w : World} :
    KeepsEffect event (.applyEffect env) w (.accepted event) ↔ effect.Applicable env w.store.db := by
  rw [← body_returns_iff]
  simp [KeepsEffect, heffect, run_isOk_iff, Unique.exists_iff]

end Returns

end Trueup.Webhooks
