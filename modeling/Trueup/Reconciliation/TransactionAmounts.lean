import Trueup.Fees.Conservation
import Trueup.Reconciliation.InternalState
import Trueup.Reporting.LotWrites
import Trueup.Valuation.SubPeriods

/-! # The amount of a custodian transaction

`read_internal_transactions` adds up all money legs of an entry, those of the house and those of the
customer. `PostingService` accepts only legs that add up to zero.

* `balanced_writeEntry`, `balanced_run`: the money of every entry adds up to zero, in every run.
* `snapshotOf_ok`: the amount of a snapshot is the money of the entry.
* `snapshot_amount_iff`: the amount is what the entry does to the customer's cash exactly when the
  entry does nothing to it. -/

namespace Trueup.Reconciliation

open Trueup.Core Trueup.Models Trueup.Lib Trueup.Lib.Transaction Trueup.Ledger Trueup.Valuation
open Trueup.Fees Trueup.Restatement Trueup.Reporting

/-! ### The ledger is balanced -/

/-- The money of an entry. -/
def entryMoney (postings : List Posting) (entryId : Uuid) : ℤ :=
  ((postings.filter (·.journalEntryId = entryId)).map (·.amount.moneyQuanta)).sum

/-- Every posting is of an entry, and the money of each entry adds up to zero. -/
structure Balanced (db : Database) : Prop where
  known : PostingsKnown db
  zero : ∀ entryId, entryMoney db.postings entryId = 0

theorem entryMoney_append (postings postings' : List Posting) (entryId : Uuid) :
    entryMoney (postings ++ postings') entryId =
      entryMoney postings entryId + entryMoney postings' entryId := by
  simp [entryMoney, List.filter_append]

/-- The money of the postings of some legs is that of the legs, and all of one entry. -/
theorem entryMoney_legs {id : Uuid} {legs : List PostingLeg}
    (h : ∀ leg ∈ legs, ∃ p, leg.posting id = some p) (entryId : Uuid) :
    entryMoney (legs.filterMap (PostingLeg.posting id)) entryId =
      if id = entryId then (legs.map PostingLeg.moneyQuanta).sum else 0 := by
  induction legs with
  | nil => simp [entryMoney]
  | cons leg legs ih =>
    obtain ⟨hleg, hlegs⟩ := List.forall_mem_cons.mp h
    obtain ⟨p, hp⟩ := hleg
    obtain ⟨amount, hamount, rfl⟩ := Option.map_eq_some_iff.mp hp
    have hquanta : amount.moneyQuanta = leg.moneyQuanta := by
      obtain ⟨account, money, units⟩ := leg
      unfold PostingLeg.amount at hamount
      cases money <;> cases units <;> cases hamount <;> rfl
    rw [List.filterMap_cons_some hp, ← List.singleton_append, entryMoney_append, ih hlegs]
    by_cases hid : id = entryId
    · simp [entryMoney, hid, hquanta]
    · simp [entryMoney, hid]

/-- **One call** of the posting service. -/
theorem balanced_writeEntry (entry : JournalEntry) (legs : List PostingLeg) :
    Keeps Balanced (writeEntry entry legs) := by
  intro db e db' h hrun
  obtain ⟨hvalid, hlegs, rfl, entries, hentries, rfl⟩ := writeEntry_ok.mp hrun
  have hfree := (Table.insert_eq_some.mp hentries).1
  refine ⟨fun p hp => ?_, fun entryId => ?_⟩
  · rcases List.mem_append.mp hp with hold | hnew
    · exact (Table.has_insert hentries _).mpr (Or.inl (h.known p hold))
    · obtain ⟨leg, -, hleg⟩ := List.mem_filterMap.mp hnew
      obtain ⟨amount, -, rfl⟩ := Option.map_eq_some_iff.mp hleg
      exact (Table.has_insert hentries _).mpr (Or.inr rfl)
  · rw [entryMoney_append, h.zero, zero_add,
      entryMoney_legs (fun leg hleg => (hlegs leg hleg).imp fun p hp => hp.1),
      sum_money_of_validateLegs hvalid]
    exact ite_self 0

theorem Balanced.of_eq {db db' : Database} (h : Balanced db)
    (hentries : db'.journalEntries = db.journalEntries) (hpostings : db'.postings = db.postings) :
    Balanced db' where
  known p hp := by
    rw [hentries]
    exact h.known p (hpostings ▸ hp)
  zero entryId := by
    rw [hpostings]
    exact h.zero entryId

theorem balancedEntries (env : Env) : KeptByEntries env Balanced where
  view h hview := by
    simp only [reportView, Prod.mk.injEq] at hview
    exact h.of_eq hview.1 hview.2.1
  entry := balanced_writeEntry
  returns customerId vBegin vEnd := by
    intro db row db' h hrun
    obtain ⟨current, -, ⟨-, -, rfl⟩ | ⟨-, t, -, rfl⟩⟩ := subPeriodReturn_ok hrun
    · exact h
    · exact h.of_eq rfl rfl

/-! ### Everything that posts -/

/-- An operation of the application, of its reports, or on the fees. -/
inductive LedgerOp
  | report (op : Reporting.Op)
  | fee (op : FeeOp)

/-- An operation with what it reads from outside the database. -/
structure LedgerStep where
  env : Env
  op : LedgerOp

/-- The unit of work of an operation. -/
def ledgerBody (step : LedgerStep) : Tx Unit :=
  match step.op with
  | .report op => body ⟨step.env, op⟩
  | .fee op => feeBody step.env op

theorem balanced_publish (env : Env) (customerId : Uuid) (periodStart periodEnd : Date) :
    Keeps Balanced (publish env customerId periodStart periodEnd) := by
  intro db snapshot db' h hrun
  obtain ⟨twr, subPeriods, holdings, mid, htwr, -, -, rfl⟩ := publish_ok hrun
  exact ((balancedEntries env).toWrites.computeTwr _ _ _ db _ mid h htwr).of_eq rfl rfl

theorem balanced_feeBody (env : Env) (op : FeeOp) : Keeps Balanced (feeBody env op) := by
  have w := (balancedEntries env).toWrites
  cases op with
  | accrueForCustomer feeRatePct customerId accrualDate =>
    exact System.keeps_discard (w.accrueForCustomer feeRatePct customerId accrualDate)
  | createPendingCharge customerId marketDate =>
    refine System.keeps_discard fun db charge db' h hrun => ?_
    obtain ⟨returns, snapshots, rfl | ⟨_, charges, jobs, -, -, -, -, -, -, -, -, -, -, -, rfl⟩⟩ :=
      createPendingCharge_ok hrun
    · exact h.of_eq rfl rfl
    · exact h.of_eq rfl rfl
  | applyChargeSuccess feeChargeId stripeChargeId =>
    intro db u db' h hrun
    obtain ⟨charge, -, ⟨-, rfl⟩ | ⟨-, mid, dunnings, hcollect, rfl⟩⟩ := applyChargeSuccess_ok hrun
    · exact h
    · have hmid : Balanced mid := by
        refine keeps_bind (w.getOrCreateCustomerAccount _ _ _) (fun _ =>
          keeps_bind (w.getOrCreateHouseAccount _) fun _ => keeps_bind (w.post _ _ _ _ _)
            fun _ => ?_) db () mid h hcollect
        intro db u db' h hrun
        obtain ⟨row, -, -, -, rfl⟩ := updateFeeCharge_ok.mp hrun
        exact h.of_eq rfl rfl
      exact hmid.of_eq rfl rfl
  | applyChargeFailure maxAttempts feeChargeId =>
    intro db u db' h hrun
    obtain ⟨charge, -, ⟨-, rfl⟩ | ⟨-, hfailure⟩⟩ := applyChargeFailure_ok hrun
    · exact h
    · obtain ⟨charges, dunnings, rfl, -⟩ := recordFailure_ok hfailure
      exact h.of_eq rfl rfl

theorem balanced_ledgerBody (step : LedgerStep) : Keeps Balanced (ledgerBody step) := by
  obtain ⟨env, op⟩ := step
  cases op with
  | fee op => exact balanced_feeBody env op
  | report op =>
    by_cases hpublish : ∃ c a b, op = .publish c a b
    · obtain ⟨c, a, b, rfl⟩ := hpublish
      exact System.keeps_discard (balanced_publish env c a b)
    · exact (balancedEntries env).body op fun c a b e => hpublish ⟨c, a, b, e⟩

/-- **The ledger is balanced** in every run that starts without postings. -/
theorem balanced_run (steps : List LedgerStep) {db : Database} (hpostings : db.postings = []) :
    Balanced (runs ledgerBody steps db) := by
  refine runs_keeps steps (fun step _ => balanced_ledgerBody step) ⟨fun p hp => ?_, fun entryId => ?_⟩
  · rw [hpostings] at hp
    cases hp
  · rw [hpostings]
    rfl

/-! ### The snapshots -/

theorem foldlM_add_ok : ∀ {postings : List Posting} {totals totals' : PostingTotals},
    postings.foldlM PostingTotals.add totals = .ok totals' →
      totals'.amountTotal.quanta =
        totals.amountTotal.quanta + (postings.map (·.amount.moneyQuanta)).sum
  | [], totals, totals', h => by
    cases h
    simp
  | posting :: postings, totals, totals', h => by
    rw [List.foldlM_cons, except_bind_ok] at h
    obtain ⟨next, hnext, h⟩ := h
    rw [foldlM_add_ok h, List.map_cons, List.sum_cons]
    unfold PostingTotals.add at hnext
    split at hnext
    · rename_i amount hamount
      obtain ⟨total, htotal, hpure⟩ := except_bind_ok.mp hnext
      cases hpure
      rw [Money.add_ok.mp htotal, hamount, Amount.moneyQuanta, add_assoc]
    · rename_i quantity hquantity
      obtain ⟨total, -, hpure⟩ := except_bind_ok.mp hnext
      cases hpure
      rw [hquantity, Amount.moneyQuanta, zero_add]

/-- **The amount of a snapshot** is all the money of its entry. -/
theorem snapshotOf_ok {db : Database} {entry : JournalEntry}
    {snapshot : InternalTransactionSnapshot} (h : snapshotOf db entry = .ok snapshot) :
    snapshot.journalEntryId = entry.id ∧
      snapshot.amountMoney.quanta = entryMoney db.postings entry.id := by
  simp only [snapshotOf, except_bind_ok] at h
  obtain ⟨totals, htotals, hpure⟩ := h
  cases hpure
  refine ⟨rfl, ?_⟩
  rw [foldlM_add_ok htotals, entryMoney]
  exact zero_add _

theorem exists_entry_of_snapshot {sourceEventId : Uuid → String} {db : Database} {marketDate : Date}
    {snapshots : Dict String InternalTransactionSnapshot} {key : String}
    {snapshot : InternalTransactionSnapshot}
    (h : readInternalTransactions sourceEventId db marketDate = .ok snapshots)
    (hget : Dict.get? snapshots key = some snapshot) :
    ∃ entry ∈ db.journalEntries, snapshotOf db entry = .ok snapshot := by
  simp only [readInternalTransactions, except_bind_ok] at h
  obtain ⟨pairs, hpairs, hpure⟩ := h
  cases hpure
  have hlast : ∃ pair, Dict.LastOfKey Prod.fst pairs pair ∧ pair.1 = key ∧ pair.2 = snapshot :=
    (Dict.get?_comprehension Prod.snd).mp (by simpa using hget)
  obtain ⟨⟨key', snapshot'⟩, hlast, -, rfl⟩ := hlast
  obtain ⟨entry, hentry, hpair⟩ := mem_of_mapM_ok hpairs hlast.mem
  obtain ⟨s, hs, hpure⟩ := except_bind_ok.mp hpair
  cases hpure
  exact ⟨entry, (List.mem_filter.mp hentry).1, hs⟩

/-- The net effect of a snapshot's entry on the customer's `cash` account. -/
def cashEffect (db : Database) (snapshot : InternalTransactionSnapshot) : ℤ :=
  ((db.postings.filter fun p => p.journalEntryId = snapshot.journalEntryId ∧
    p.account.role = .cash ∧ p.account.customerId = snapshot.customerId).map
      (·.amount.moneyQuanta)).sum

/-- **The amount of a custodian transaction**, in every run and for every entry that is read: it is
the effect on the customer's cash exactly when there is none. -/
theorem snapshot_amount_iff (steps : List LedgerStep) {db : Database} (hpostings : db.postings = [])
    {sourceEventId : Uuid → String} {marketDate : Date}
    {snapshots : Dict String InternalTransactionSnapshot}
    (h : readInternalTransactions sourceEventId (runs ledgerBody steps db) marketDate = .ok snapshots)
    {key : String} {snapshot : InternalTransactionSnapshot}
    (hget : Dict.get? snapshots key = some snapshot) :
    snapshot.amountMoney.quanta = cashEffect (runs ledgerBody steps db) snapshot ↔
      cashEffect (runs ledgerBody steps db) snapshot = 0 := by
  obtain ⟨entry, -, hsnapshot⟩ := exists_entry_of_snapshot h hget
  rw [(snapshotOf_ok hsnapshot).2, (balanced_run steps hpostings).zero]
  exact eq_comm

/-- A deposit of 1000. -/
def depositedLedger : List LedgerStep :=
  [⟨envAt 10 1, .report (.application (.initiateDeposit 1 (dollars 1000)))⟩]

/-- The dividend of ten shares. -/
def dividendLedger : List LedgerStep :=
  [⟨envAt 10 1, .report (.lots (.buyFill openedClock ⟨1, 7, "a", shares 10, dollarsPerShare 100,
      ⟨10, true⟩⟩))⟩,
    ⟨envAt 20 50, .report (.declareDividendExDate 7 (dollarsPerShare 1) 1)⟩]

/-- What the readers of a day see of an event in a ledger, and what it does to the cash. -/
def amountAndEffect (steps : List LedgerStep) (marketDate : Date) (key : String) : Option (ℤ × ℤ) :=
  let db := runs ledgerBody steps (openedAccount 1)
  (readInternalTransactions (fun _ => key) db marketDate).toOption.bind fun snapshots =>
    (Dict.get? snapshots key).map fun snapshot => (snapshot.amountMoney.quanta, cashEffect db snapshot)

theorem amountAndEffect_eq_some {steps : List LedgerStep} {marketDate : Date} {key : String}
    {figures : ℤ × ℤ} (h : amountAndEffect steps marketDate key = some figures) :
    ∃ snapshots snapshot,
      readInternalTransactions (fun _ => key) (runs ledgerBody steps (openedAccount 1)) marketDate =
        .ok snapshots ∧
      Dict.get? snapshots key = some snapshot ∧ snapshot.amountMoney.quanta = figures.1 ∧
      cashEffect (runs ledgerBody steps (openedAccount 1)) snapshot = figures.2 := by
  obtain ⟨snapshots, hread, hmap⟩ := Option.bind_eq_some_iff.mp h
  obtain ⟨snapshot, hget, rfl⟩ := Option.map_eq_some_iff.mp hmap
  refine ⟨snapshots, snapshot, ?_, hget, rfl, rfl⟩
  cases hread' : readInternalTransactions (fun _ => key) (runs ledgerBody steps (openedAccount 1))
      marketDate with
  | error e =>
    rw [hread'] at hread
    cases hread
  | ok snapshots' =>
    rw [hread'] at hread
    cases hread
    rfl

/-- On the ex-date no cash moves. -/
theorem snapshot_amount_iff_ex_date : ∃ snapshots snapshot,
    readInternalTransactions (fun _ => "dividend")
      (runs ledgerBody dividendLedger (openedAccount 1)) 1 = .ok snapshots ∧
    Dict.get? snapshots "dividend" = some snapshot ∧
    snapshot.amountMoney.quanta =
      cashEffect (runs ledgerBody dividendLedger (openedAccount 1)) snapshot := by
  have hfigures : amountAndEffect dividendLedger 1 "dividend" = some (0, 0) := by decide +kernel
  obtain ⟨snapshots, snapshot, hread, hget, -, heffect⟩ := amountAndEffect_eq_some hfigures
  have hpostings : (openedAccount 1).postings = [] := rfl
  exact ⟨snapshots, snapshot, hread, hget,
    (snapshot_amount_iff dividendLedger hpostings hread hget).mpr heffect⟩

/-- **A deposit of 1000** is read with the amount 0. -/
theorem deposit_read_without_amount : ¬ ∀ (steps : List LedgerStep) (db : Database),
    db.postings = [] → ∀ (sourceEventId : Uuid → String) (marketDate : Date)
      (snapshots : Dict String InternalTransactionSnapshot),
    readInternalTransactions sourceEventId (runs ledgerBody steps db) marketDate = .ok snapshots →
    ∀ key snapshot, Dict.get? snapshots key = some snapshot →
      snapshot.amountMoney.quanta = cashEffect (runs ledgerBody steps db) snapshot := by
  intro h
  have hfigures : amountAndEffect depositedLedger 0 "deposit" = some (0, 10000000) := by
    decide +kernel
  obtain ⟨snapshots, snapshot, hread, hget, hamount, heffect⟩ := amountAndEffect_eq_some hfigures
  have hsame := h depositedLedger (openedAccount 1) rfl _ 0 snapshots hread "deposit" snapshot hget
  rw [hamount, heffect] at hsame
  exact absurd hsame (by decide)

end Trueup.Reconciliation
