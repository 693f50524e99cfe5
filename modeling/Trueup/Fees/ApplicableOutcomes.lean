import Trueup.Fees.FeeChargeOutboxHandler
import Trueup.Ledger.AccountLookups

/-! # What it takes to apply an outcome

The second unit of work of `charge_fee` looks two accounts up, posts an entry and writes to the rows
of the charge; each of these may raise.

* `collect_returns_iff`: when a collection can be recorded.
* `applyChargeSuccess_returns_iff`, `applyChargeFailure_returns_iff`: when the outcome of a call can
  be, for an open charge. -/

namespace Trueup.Fees.Charging

open Trueup.Core Trueup.Models Trueup.Lib Trueup.Lib.Transaction Trueup.Ledger

section Accounts
variable {db db' : Database} {account : Account} {customerId : Uuid}

/-- A payable account that is added makes no second one of any customer. -/
theorem getPayable_accounts
    (h : (getOrCreateCustomerAccount customerId .feesAccruedPayable none).run db =
      .ok (account, db')) :
    (∀ c, (db'.accountsOf c .feesAccruedPayable none).length ≤ 1 ↔
      (db.accountsOf c .feesAccruedPayable none).length ≤ 1) ∧
    houseAccountsOf db' .feeRevenueCollected = houseAccountsOf db .feeRevenueCollected := by
  rcases (getOrCreateCustomerAccount_iff (by decide)).mp h with ⟨-, rfl⟩ | ⟨hnone, -, rfl⟩
  · exact ⟨fun _ => Iff.rfl, rfl⟩
  · refine ⟨fun c => ?_, ?_⟩
    · unfold Database.accountsOf at hnone ⊢
      rw [List.filter_append]
      by_cases hc : customerId = c
      · subst hc
        rw [hnone]
        simp
      · simp [hc]
    · unfold houseAccountsOf
      rw [List.filter_append]
      simp

theorem getCollected_accounts
    (h : (getOrCreateHouseAccount .feeRevenueCollected).run db = .ok (account, db')) :
    (∀ c, (db'.accountsOf c .feesAccruedPayable none).length ≤ 1 ↔
      (db.accountsOf c .feesAccruedPayable none).length ≤ 1) ∧
    ((houseAccountsOf db' .feeRevenueCollected).length ≤ 1 ↔
      (houseAccountsOf db .feeRevenueCollected).length ≤ 1) := by
  rcases (getOrCreateHouseAccount_iff (by decide)).mp h with ⟨-, rfl⟩ | ⟨hnone, -, rfl⟩
  · exact ⟨fun _ => Iff.rfl, Iff.rfl⟩
  · refine ⟨fun c => ?_, ?_⟩
    · unfold Database.accountsOf
      rw [List.filter_append]
      simp
    · unfold houseAccountsOf at hnone ⊢
      rw [List.filter_append, hnone]
      simp

end Accounts

/-- A row that may replace the one of its charge. -/
def Storable (db : Database) (charge : FeeCharge) : Prop :=
  (∀ id ∈ charge.stripeChargeId, id.length ≤ 255) ∧ db.freeForCharge charge = .ok ()

/-- What it takes to collect a charge. -/
structure Collectable (env : Env) (charge : FeeCharge) (stripeChargeId : String) (db : Database) :
    Prop where
  payable : (db.accountsOf charge.customerId .feesAccruedPayable none).length ≤ 1
  collected : (houseAccountsOf db .feeRevenueCollected).length ≤ 1
  entry : ¬ db.journalEntries.Has (env.uuid4 .journalEntry)
  row : ∃ row, db.feeCharges.find charge.id = some row ∧
    Storable db (succeededCharge charge stripeChargeId (env.uuid4 .journalEntry) row)

theorem validateLegs_transfer (payable collected : Account) (total : Money) :
    validateLegs [.money payable total.neg, .money collected total] = .ok () := by
  have hfirst : (0 : Money).add total.neg = .ok total.neg := by
    rw [Money.add_ok]
    simp [QuantizedDecimal.quanta_zero]
  have hsecond : total.neg.add total = .ok 0 := by
    rw [Money.add_ok]
    simp [QuantizedDecimal.quanta_zero, QuantizedDecimal.neg]
  simp [validateLegs, sumLegs, PostingLeg.money, check, bind, Except.bind, hfirst, hsecond]

/-- An entry from one account to another, both in money, is posted under a new id. -/
theorem post_transfer_returns (db : Database) (payer payee : Account)
    (hpayer : payer.role.dimension = .money) (hpayee : payee.role.dimension = .money) {id : Uuid}
    (hfresh : ¬ db.journalEntries.Has id) (entryType : JournalEntryType) (effectiveDate : Date)
    (sourceEvent : SourceEvent) (total : Money) :
    ∃ entries postings,
      (post id entryType effectiveDate sourceEvent [.money payer total.neg, .money payee total]).run db =
        .ok (⟨id, entryType, effectiveDate, sourceEvent, none, none⟩,
          { db with journalEntries := entries, postings := postings }) := by
  obtain ⟨entries, hentries⟩ := Table.exists_insert (t := db.journalEntries)
    (r := ⟨id, entryType, effectiveDate, sourceEvent, none, none⟩) hfresh
  refine ⟨entries, _, writeEntry_ok.mpr
    ⟨validateLegs_transfer payer payee total, fun leg hleg => ?_, rfl, entries, hentries, rfl⟩⟩
  rcases List.mem_pair.mp hleg with rfl | rfl
  · exact ⟨_, PostingLeg.posting_money _ _ _, hpayer.symm⟩
  · exact ⟨_, PostingLeg.posting_money _ _ _, hpayee.symm⟩

section Returns
variable {env : Env} {maxAttempts : ℕ} {db db' : Database} {charge : FeeCharge}
  {stripeChargeId : String} {u : Unit}

theorem freeForCharge_congr {db db' : Database} (h : db'.feeCharges = db.feeCharges)
    (charge : FeeCharge) : db'.freeForCharge charge = db.freeForCharge charge := by
  rw [Database.freeForCharge, Database.freeForCharge, h]

/-- **What it takes to collect a charge.** -/
theorem collect_returns_iff : (∃ db', (collect env charge stripeChargeId).run db = .ok ((), db')) ↔
    Collectable env charge stripeChargeId db := by
  constructor
  · rintro ⟨db', h⟩
    unfold collect at h
    simp only [bind_ok] at h
    obtain ⟨payable, db₁, hpayable, collected, db₂, hcollected, entry, _, hpost, h⟩ := h
    obtain ⟨-, hhouse⟩ := getPayable_accounts hpayable
    have hpayable' := (getOrCreateCustomerAccount_returns_iff (by decide)).mp ⟨_, _, hpayable⟩
    have hcollected' := (getOrCreateHouseAccount_returns_iff (by decide)).mp ⟨_, _, hcollected⟩
    rw [hhouse] at hcollected'
    obtain ⟨-, accounts, rfl⟩ := getOrCreateCustomerAccount_ok hpayable
    obtain ⟨-, -, accounts', rfl⟩ := getOrCreateHouseAccount_ok hcollected
    obtain ⟨-, rfl, entries, hentries, rfl⟩ := post_ok hpost
    obtain ⟨row, hrow, hlength, hfree, -⟩ := updateFeeCharge_ok.mp h
    exact ⟨hpayable', hcollected', (Table.insert_eq_some.mp hentries).1, row, hrow, hlength, hfree⟩
  · rintro ⟨hpayable, hcollected, hentry, row, hrow, hlength, hfree⟩
    obtain ⟨payable, db₁, hpayable⟩ := (getOrCreateCustomerAccount_returns_iff (by decide)).mpr hpayable
    obtain ⟨-, hhouse⟩ := getPayable_accounts hpayable
    obtain ⟨collected, db₂, hcollected⟩ :=
      (getOrCreateHouseAccount_returns_iff (by decide)).mpr (hhouse ▸ hcollected)
    obtain ⟨hof, accounts, hdb₁⟩ := getOrCreateCustomerAccount_ok hpayable
    obtain ⟨-, hrole, accounts', hdb₂⟩ := getOrCreateHouseAccount_ok hcollected
    have hentries : db₂.journalEntries = db.journalEntries := by rw [hdb₂, hdb₁]
    have hcharges : db₂.feeCharges = db.feeCharges := by rw [hdb₂, hdb₁]
    obtain ⟨entries, postings, hpost⟩ := post_transfer_returns db₂ payable collected
      (by rw [hof.role]; rfl) (by rw [hrole]; rfl) (hentries ▸ hentry) .feeAdjustment (env.now .effectiveDate).instant.utcDate
      (.feeChargeSucceeded charge.id stripeChargeId charge.totalAccrued) charge.totalAccrued
    exact ⟨_, bind_ok.mpr ⟨payable, db₁, hpayable, bind_ok.mpr ⟨collected, db₂, hcollected,
      bind_ok.mpr ⟨_, _, hpost, updateFeeCharge_ok.mpr ⟨row, hcharges ▸ hrow, hlength,
        (freeForCharge_congr hcharges _).trans hfree, rfl⟩⟩⟩⟩⟩

theorem collect_accounts (h : (collect env charge stripeChargeId).run db = .ok (u, db')) :
    (∀ c, (db'.accountsOf c .feesAccruedPayable none).length ≤ 1 ↔
      (db.accountsOf c .feesAccruedPayable none).length ≤ 1) ∧
    ((houseAccountsOf db' .feeRevenueCollected).length ≤ 1 ↔
      (houseAccountsOf db .feeRevenueCollected).length ≤ 1) := by
  unfold collect at h
  simp only [bind_ok] at h
  obtain ⟨payable, db₁, hpayable, collected, db₂, hcollected, entry, db₃, hpost, h⟩ := h
  obtain ⟨hpayables, hhouse⟩ := getPayable_accounts hpayable
  obtain ⟨hpayables', hhouse'⟩ := getCollected_accounts hcollected
  obtain ⟨-, -, entries, -, rfl⟩ := post_ok hpost
  obtain ⟨row, -, -, -, rfl⟩ := updateFeeCharge_ok.mp h
  exact ⟨fun c => (hpayables' c).trans (hpayables c), by rw [← hhouse]; exact hhouse'⟩

/-- **What it takes to apply a success** to an open charge. -/
theorem applyChargeSuccess_returns_iff {feeChargeId : Uuid}
    (hfind : db.feeCharges.find feeChargeId = some charge) (hopen : charge.status ≠ .succeeded) :
    (∃ db', (applyChargeSuccess env feeChargeId stripeChargeId).run db = .ok ((), db')) ↔
      Collectable env charge stripeChargeId db := by
  rw [← collect_returns_iff]
  constructor
  · rintro ⟨db', h⟩
    obtain ⟨charge', hfind', ⟨hsucceeded, -⟩ | ⟨-, db₁, -, hcollect, -⟩⟩ := applyChargeSuccess_ok h
    · rw [hfind] at hfind'
      cases hfind'
      exact absurd hsucceeded hopen
    · rw [hfind] at hfind'
      cases hfind'
      exact ⟨db₁, hcollect⟩
  · rintro ⟨db₁, hcollect⟩
    have hclose : ∀ dunning, ∃ db', (closeDunning dunning).run db₁ = .ok ((), db') := fun dunning => by
      cases dunning with
      | none => exact ⟨db₁, rfl⟩
      | some d => exact ⟨_, deleteDunningState_ok.mpr rfl⟩
    obtain ⟨db', hclosed⟩ := hclose (db₁.dunningStates.find charge.id)
    refine ⟨db', ?_⟩
    unfold applyChargeSuccess
    simp only [bind_ok, read_ok]
    refine ⟨charge, db, ⟨getFeeCharge_some hfind, rfl⟩, ?_⟩
    rw [if_neg hopen]
    simp only [bind_ok, read_ok]
    exact ⟨(), db₁, hcollect, _, db₁, ⟨rfl, rfl⟩, hclosed⟩

/-- **What it takes to apply a failure** to an open charge. -/
theorem applyChargeFailure_returns_iff {feeChargeId : Uuid}
    (hfind : db.feeCharges.find feeChargeId = some charge) (hopen : isClosed charge = false) :
    (∃ db', (applyChargeFailure env maxAttempts feeChargeId).run db = .ok ((), db')) ↔
      ((∀ d, db.dunningStates.find feeChargeId = some d → d.maxAttempts ≤ d.attemptNumber + 1) →
        Storable db charge) := by
  have hid : charge.id = feeChargeId := (Table.find_eq_some.mp hfind).2
  have hrun : ∀ db', (applyChargeFailure env maxAttempts feeChargeId).run db = .ok ((), db') ↔
      (recordFailure env maxAttempts charge (db.dunningStates.find feeChargeId)).run db =
        .ok ((), db') := fun db' => by
    unfold applyChargeFailure
    simp only [bind_ok, read_ok]
    constructor
    · rintro ⟨charge', _, ⟨hget, rfl⟩, h⟩
      rw [getFeeCharge_some hfind] at hget
      cases hget
      rw [if_neg (by simp [hopen])] at h
      simp only [bind_ok, read_ok] at h
      obtain ⟨_, _, ⟨hdunning, rfl⟩, h⟩ := h
      cases hdunning
      rwa [← hid]
    · intro h
      refine ⟨charge, db, ⟨getFeeCharge_some hfind, rfl⟩, ?_⟩
      rw [if_neg (by simp [hopen])]
      simp only [bind_ok, read_ok]
      exact ⟨_, db, ⟨rfl, rfl⟩, by rwa [hid]⟩
  simp only [hrun]
  have hcharge : db.feeCharges.find charge.id = some charge := by rw [hid]; exact hfind
  cases hdunning : db.dunningStates.find feeChargeId with
  | none =>
    have hinsert : ∀ d : DunningState, d.feeChargeId = charge.id →
        ∃ dunnings, db.dunningStates.insert d = some dunnings := fun d hd =>
      Table.exists_insert (by rw [hd, hid]; exact Table.find_eq_none.mp hdunning)
    simp only [recordFailure, startDunning, bind_ok, updateFeeCharge_ok, addDunningState_ok]
    constructor
    · rintro ⟨db', _, _, ⟨row, hrow, hlength, hfree, -⟩, -⟩ -
      rw [hcharge] at hrow
      cases hrow
      exact ⟨hlength, hfree⟩
    · intro h
      obtain ⟨hlength, hfree⟩ := h fun d hd => by cases hd
      obtain ⟨dunnings, hdunnings⟩ := hinsert
        ⟨charge.id, charge.customerId, 1, nextRetryAt env 1, maxAttempts, .retrying⟩ rfl
      exact ⟨_, (), _, ⟨charge, hcharge, hlength, hfree, rfl⟩, dunnings, hdunnings, rfl⟩
  | some d =>
    have hd : db.dunningStates.find d.feeChargeId = some d := by
      rw [(Table.find_eq_some.mp hdunning).2]
      exact hdunning
    simp only [recordFailure, recordRetryFailure]
    by_cases hlast : d.maxAttempts ≤ d.attemptNumber + 1
    · simp only [if_pos hlast, bind_ok, updateFeeCharge_ok, updateDunningState_ok]
      constructor
      · rintro ⟨db', _, _, ⟨row, hrow, hlength, hfree, -⟩, -⟩ -
        rw [hcharge] at hrow
        cases hrow
        exact ⟨hlength, hfree⟩
      · intro h
        obtain ⟨hlength, hfree⟩ := h fun d' hd' => by cases hd'; exact hlast
        exact ⟨_, (), _, ⟨charge, hcharge, hlength, hfree, rfl⟩, d, hd, rfl⟩
    · simp only [if_neg hlast, updateDunningState_ok]
      exact iff_of_true ⟨_, d, hd, rfl⟩ fun h => absurd (h d rfl) hlast

end Returns

end Trueup.Fees.Charging
