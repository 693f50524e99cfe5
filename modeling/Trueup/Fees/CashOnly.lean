import Trueup.Reporting
import Trueup.Valuation.CashWindows

/-! # Accruals of a customer who holds only cash

With no positions, the value of the book is the cash of the deposits and withdrawals up to the day,
so that every window of the first flow's period has return zero (`returnPct_cash`) and the shadow
value is the cash of the first flow's own day (`shadowNav_ok`), whatever the accrual date is.

That cash is read from the ledger at every accrual. A deposit that is dated on the day of the first
flow after the mark was recorded raises it, and the rise is taken for a gain
(`accrual_zero_iff`, `same_day_deposit_accrues`). -/

namespace Trueup.Fees

open Trueup.Core Trueup.Models Trueup.Lib Trueup.Lib.Rounding Trueup.Lib.Transaction Trueup.Ledger
open Trueup.Valuation Trueup.Identity

/-- The customer has no positions, and the cash is that of deposits and withdrawals. -/
structure CashOnly (db : Database) (customerId : Uuid) : Prop where
  known : PostingsKnown db
  units : ∀ p ∈ db.postings, isUnitsOf customerId p = false
  flows : ∀ p ∈ db.postings, isCashOf customerId p →
    ∀ entry ∈ db.journalEntries.find p.journalEntryId, isExternalFlow entry

section CashOnly
variable {db : Database} {customerId : Uuid}

/-! ### The cash between two days -/

theorem CashOnly.entry (h : CashOnly db customerId) {p : Posting} (hp : p ∈ db.postings)
    (hcash : isCashOf customerId p) : ∃ entry, db.journalEntries.find p.journalEntryId = some entry ∧
      isExternalFlow entry ∧ FlowDay db customerId entry.effectiveDate := by
  obtain ⟨entry, hentry⟩ := Option.ne_none_iff_exists'.mp fun hnone =>
    Table.find_eq_none.mp hnone (h.known p hp)
  have hflow := h.flows p hp hcash entry hentry
  have hc : p.account.customerId = some customerId := by
    simp only [isCashOf, Bool.decide_and, Bool.and_eq_true, decide_eq_true_eq] at hcash
    exact hcash.1
  exact ⟨entry, hentry, hflow, p, hp, hc, entry, hentry, hflow, rfl⟩

/-- All of the customer's cash is that of flows. -/
theorem CashOnly.otherQuanta_eq_zero (h : CashOnly db customerId) (vBegin vEnd : Date) :
    otherQuanta db customerId vBegin vEnd = 0 := by
  rw [otherQuanta, List.filter_eq_nil_iff.mpr]
  · rfl
  · intro p hp hother
    simp only [Bool.and_eq_true, decide_eq_true_eq] at hother
    obtain ⟨hcash, entry, hentry, hnot, -⟩ := hother
    rw [h.flows p hp hcash entry hentry] at hnot
    cases hnot

theorem CashOnly.ledgerCash_first (h : CashOnly db customerId) {firstFlow : Date}
    (hfirst : ∀ day, FlowDay db customerId day → firstFlow ≤ day) :
    ledgerCash db customerId firstFlow = flowQuantaOn db customerId firstFlow := by
  rw [ledgerCash, flowQuantaOn, sum_filter_map, sum_filter_map]
  congr 1
  refine List.map_congr_left fun p hp => ?_
  by_cases hcash : isCashOf customerId p
  · obtain ⟨entry, hentry, hflow, hday⟩ := h.entry hp hcash
    simp only [hcash, isEffectiveBy, hentry, Option.mem_some_iff, exists_eq_left', hflow, true_and,
      Bool.true_and, decide_eq_true_eq]
    exact if_congr ⟨fun hle => le_antisymm hle (hfirst _ hday), fun he => he.le⟩ rfl rfl
  · simp [hcash]

/-! ### The shadow value -/

theorem mem_externalFlowDays {day : Date} :
    day ∈ externalFlowDays db customerId ↔ FlowDay db customerId day := by
  simp only [externalFlowDays, FlowDay, List.mem_map, List.mem_filter, List.mem_filterMap,
    decide_eq_true_eq, Option.mem_def]
  constructor
  · rintro ⟨entry, ⟨⟨p, ⟨hp, hc⟩, hfind⟩, hflow⟩, rfl⟩
    exact ⟨p, hp, hc, entry, hfind, hflow, rfl⟩
  · rintro ⟨p, hp, hc, entry, hfind, hflow, rfl⟩
    exact ⟨entry, ⟨⟨p, ⟨hp, hc⟩, hfind⟩, hflow⟩, rfl⟩

theorem firstFlowDate_le {firstFlow day : Date} (h : firstFlowDate db customerId = some firstFlow)
    (hday : FlowDay db customerId day) : firstFlow ≤ day :=
  (List.min?_eq_some_iff.mp h).2 day (mem_externalFlowDays.mpr hday)

/-- The stored sub-periods have no part in it. -/
theorem CashOnly.returns (h : CashOnly db customerId) (t : Table SubPeriodReturn.key) :
    CashOnly { db with subPeriodReturns := t } customerId := ⟨h.known, h.units, h.flows⟩

/-- **The returns of such windows** are zero. -/
theorem CashOnly.subPeriodReturns_zero (h : CashOnly db customerId) {env : Env}
    {windows : List (Date × Date)} {db' : Database} {rows : List SubPeriodReturn}
    (hinside : ∀ window ∈ windows, NoFlowInside db customerId window)
    (hrun : (subPeriodReturns env customerId windows).run db = .ok (rows, db')) :
    ∀ row ∈ rows, row.returnPct = 0 := by
  intro row hrow
  have hmem := List.mem_map_of_mem (f := fun r : SubPeriodReturn => r.returnPct) hrow
  rw [subPeriodReturns_cash hrun h.units hinside] at hmem
  obtain ⟨window, -, hpct⟩ := List.mem_map.mp hmem
  rw [← hpct, h.otherQuanta_eq_zero, cashReturn_zero]

/-- **The shadow value** is the cash of the first flow's day. -/
theorem CashOnly.shadowNav_ok (h : CashOnly db customerId) {env : Env} {asOfDate : Date}
    {shadowValue : Money} {db' : Database}
    (hrun : (shadowNav env customerId asOfDate).run db = .ok (some shadowValue, db')) :
    ∃ firstFlow, firstFlowDate db customerId = some firstFlow ∧ firstFlow ≤ asOfDate ∧
      shadowValue.quanta = flowQuantaOn db customerId firstFlow := by
  simp only [shadowNav, bind_ok, read_ok] at hrun
  obtain ⟨found, _, ⟨hfound, rfl⟩, hrun⟩ := hrun
  cases hfound
  split at hrun
  · cases (pure_ok.mp hrun).1
  · rename_i firstFlow hfirst
    obtain ⟨hfirst, hle⟩ := Option.filter_eq_some_iff.mp hfirst
    have hmin : ∀ day, FlowDay db customerId day → firstFlow ≤ day :=
      fun day => firstFlowDate_le hfirst
    simp only [bind_ok, read_ok] at hrun
    obtain ⟨base, _, ⟨hbase, rfl⟩, hrun⟩ := hrun
    split_ifs at hrun
    · cases (pure_ok.mp hrun).1
    · simp only [bind_ok, lift_ok, pure_ok] at hrun
      obtain ⟨twr, _, htwr, shadow, _, ⟨hshadow, rfl⟩, heq, rfl⟩ := hrun
      cases heq
      have hday : firstFlow ≤ asOfDate := by simpa using hle
      refine ⟨firstFlow, hfirst, hday, ?_⟩
      have hzero : twr = 0 := by
        rw [cumulativeTwr] at htwr
        split_ifs at htwr
        · exact (pure_ok.mp htwr).1.symm
        · simp only [bind_ok, pure_ok] at htwr
          obtain ⟨_, _, htwr, rfl, rfl⟩ := htwr
          obtain ⟨hrows, hlink⟩ := computeTwr_ok.mp htwr
          rw [link_zero (h.subPeriodReturns_zero (noFlowInside_boundaries hday) hrows)] at hlink
          exact (Except.ok.inj hlink).symm
      rw [hzero, add_zero, context_one, Money.scale, mul_one, QuantizedDecimal.value,
        QuantizedDecimal.ofDecimal_context_ok (by norm_num) (by norm_num) (by norm_num)] at hshadow
      rw [hshadow, valueBook_cash h.units hbase, h.ledgerCash_first hmin]

/-! ### One accrual -/

/-- The cash of the first flow's day is at most the recorded mark, when there is one. -/
def FirstDayWithinMark (db : Database) (customerId : Uuid) : Prop :=
  ∀ mark ∈ db.highWaterMarks.find customerId, ∀ firstFlow ∈ firstFlowDate db customerId,
    flowQuantaOn db customerId firstFlow ≤ mark.peakValue.quanta

theorem scale_zero {gain amount : Money} {rate : ℚ} (hgain : gain.quanta = 0)
    (h : Money.scale gain rate = .ok amount) : amount.quanta = 0 := by
  rw [Money.scale, QuantizedDecimal.value, hgain, Int.cast_zero, zero_div, zero_mul, context,
    roundSig_zero, QuantizedDecimal.ofDecimal_ok (by norm_num), zero_mul] at h
  simpa using h.trans (roundHalfEven_intCast 0)

/-- **One accrual**: its row has no gain exactly when the cash of the first flow's day is within the
recorded mark; then it has no fee either. -/
theorem CashOnly.accrual_zero_iff (h : CashOnly db customerId) {env : Env} {feeRatePct : ℚ}
    {accrualDate : Date} {accrual : FeeAccrual} {db' : Database}
    (hrun : (accrueForCustomer env feeRatePct customerId accrualDate).run db =
      .ok (some accrual, db')) :
    (accrual.gainAmount = 0 ∧ accrual.feeAmount = 0) ↔ FirstDayWithinMark db customerId := by
  obtain ⟨_, db₁, hshadow, ⟨hnone, -⟩ | ⟨shadowValue, a, rfl, ha, haccrue⟩⟩ :=
    accrueForCustomer_ok hrun
  · cases hnone
  cases ha
  obtain ⟨firstFlow, hfirst, -, hvalue⟩ := h.shadowNav_ok hshadow
  have hmarks : db₁.highWaterMarks = db.highWaterMarks :=
    (frames_shadowNav (fun _ _ => rfl) env customerId accrualDate).eq hshadow
  obtain ⟨gain, feeAmount, _, _, _, _, _, _, _, hgain, hfee, -, -, -, rfl, -⟩ := accrue_ok haccrue
  have hzero : gain.quanta = 0 ↔ FirstDayWithinMark db customerId := by
    rw [hgain, hmarks, FirstDayWithinMark, gainOver]
    cases db.highWaterMarks.find customerId with
    | none => simp
    | some mark => simp [hfirst, hvalue]
  rw [← hzero]
  constructor
  · rintro ⟨hgain0, -⟩
    exact congrArg QuantizedDecimal.quanta hgain0
  · intro hgain0
    exact ⟨QuantizedDecimal.ext hgain0, QuantizedDecimal.ext (scale_zero hgain0 hfee)⟩

/-! ### What keeps the customer in cash -/

/-- An entry that moves no units, and cash only if it is a deposit or a withdrawal. -/
theorem CashOnly.append (h : CashOnly db customerId) {db' : Database} {entry : JournalEntry}
    {entries : Table JournalEntry.id} {postings : List Posting}
    (hinsert : db.journalEntries.insert entry = some entries) (hentries : db'.journalEntries = entries)
    (hpostings : db'.postings = db.postings ++ postings)
    (hnew : ∀ p ∈ postings, p.journalEntryId = entry.id ∧ isUnitsOf customerId p = false ∧
      (isCashOf customerId p → isExternalFlow entry)) : CashOnly db' customerId := by
  refine ⟨fun p hp => ?_, fun p hp => ?_, fun p hp hcash e he => ?_⟩
  · rw [hentries, Table.has_insert hinsert]
    rcases List.mem_append.mp (hpostings ▸ hp) with hp | hp
    · exact Or.inl (h.known p hp)
    · exact Or.inr (hnew p hp).1
  · rcases List.mem_append.mp (hpostings ▸ hp) with hp | hp
    · exact h.units p hp
    · exact (hnew p hp).2.1
  · rw [hentries] at he
    rcases List.mem_append.mp (hpostings ▸ hp) with hp | hp
    · rw [Table.find_insert_of_has hinsert (h.known p hp)] at he
      exact h.flows p hp hcash e he
    · rw [(hnew p hp).1, Table.find_insert hinsert, if_pos rfl] at he
      cases he
      exact (hnew p hp).2.2 hcash

theorem CashOnly.append_pair (h : CashOnly db customerId) {db' : Database} {entry : JournalEntry}
    {entries : Table JournalEntry.id} {a b : Account} {m n : Money}
    (hinsert : db.journalEntries.insert entry = some entries) (hentries : db'.journalEntries = entries)
    (hpostings : db'.postings = db.postings ++ [⟨entry.id, a, .money m⟩, ⟨entry.id, b, .money n⟩])
    (hunits : ∀ account ∈ [a, b], account.customerId = some customerId →
      account.role ≠ .positionUnits ∧ (account.role = .cash → isExternalFlow entry)) :
    CashOnly db' customerId := by
  refine h.append hinsert hentries hpostings fun p hp => ?_
  have hpost : ∀ account ∈ [a, b], ∀ amount, isUnitsOf customerId ⟨entry.id, account, amount⟩ = false ∧
      (isCashOf customerId ⟨entry.id, account, amount⟩ → isExternalFlow entry) := by
    intro account hmem amount
    by_cases hc : account.customerId = some customerId
    · obtain ⟨hrole, hcash⟩ := hunits account hmem hc
      exact ⟨by simp [isUnitsOf, hrole], fun hp => hcash (by simpa [isCashOf, hc] using hp)⟩
    · exact ⟨by simp [isUnitsOf, hc], fun hp => by simp [isCashOf, hc] at hp⟩
  simp only [List.mem_cons, List.not_mem_nil, or_false] at hp
  rcases hp with rfl | rfl
  · exact ⟨rfl, hpost a (by simp) _⟩
  · exact ⟨rfl, hpost b (by simp) _⟩

end CashOnly

/-! ### Runs of deposits, withdrawals and accruals -/

/-- A deposit or its settlement, a withdrawal, or an accrual. -/
def IsCashOp : Reporting.Op → Prop
  | .application (.initiateDeposit ..) | .application (.confirmSettlement ..)
  | .application (.initiateWithdrawal ..) | .accrueForCustomer .. => True
  | _ => False

instance (op : Reporting.Op) : Decidable (IsCashOp op) := by
  unfold IsCashOp; split <;> infer_instance

/-- An accrual of the customer that can add a row, of a day from the first flow on and without a
row, finds the cash of the first flow's day within the recorded mark. -/
def accruesWithinMark (customerId : Uuid) (db : Database) (step : Reporting.Step) : Prop :=
  match step.op with
  | .accrueForCustomer _ accruedId accrualDate => accruedId = customerId →
      ¬ db.feeAccruals.Has (customerId, accrualDate) →
      (∃ firstFlow ∈ firstFlowDate db customerId, firstFlow ≤ accrualDate) →
      FirstDayWithinMark db customerId
  | _ => True

instance (db : Database) (customerId : Uuid) : Decidable (FirstDayWithinMark db customerId) := by
  unfold FirstDayWithinMark; infer_instance

instance (customerId : Uuid) (db : Database) (step : Reporting.Step) :
    Decidable (accruesWithinMark customerId db step) := by
  unfold accruesWithinMark; split <;> infer_instance

/-- The customer is in cash, and every row of the customer that is not of `db₀` is zero. -/
structure NothingAccrued (db₀ : Database) (customerId : Uuid) (db : Database) : Prop where
  cash : CashOnly db customerId
  rows : ∀ accrual ∈ db.feeAccruals, accrual.customerId = customerId →
    accrual ∈ db₀.feeAccruals ∨ (accrual.gainAmount = 0 ∧ accrual.feeAmount = 0)

section Run
variable {db₀ db db' : Database} {customerId : Uuid} {env : Env} {u : Unit}

theorem roles_of_pair {cash equity account : Account} {ownerId : Uuid} {entry : JournalEntry}
    (hcash : IsAccountOf cash ownerId .cash none)
    (hequity : IsAccountOf equity ownerId .customerEquity none) (hmem : account ∈ [cash, equity])
    (hflow : isExternalFlow entry) :
    account.role ≠ .positionUnits ∧ (account.role = .cash → isExternalFlow entry) := by
  simp only [List.mem_cons, List.not_mem_nil, or_false] at hmem
  rcases hmem with rfl | rfl
  · simp [hcash.role, hflow]
  · simp [hequity.role]

theorem NothingAccrued.initiateDeposit (h : NothingAccrued db₀ customerId db) {depositorId : Uuid}
    {amount : Money} {r : DepositResult}
    (hrun : (initiateDeposit env depositorId amount).run db = .ok (r, db')) :
    NothingAccrued db₀ customerId db' := by
  obtain ⟨entry, cash, equity, entries, obligations, rfl, hcash, hequity, hentries, -, rfl, -⟩ :=
    initiateDeposit_ok hrun
  refine ⟨h.cash.append_pair hentries rfl rfl fun account hmem _ => ?_, h.rows⟩
  exact roles_of_pair hcash hequity hmem rfl

theorem NothingAccrued.initiateWithdrawal (h : NothingAccrued db₀ customerId db) {payeeId : Uuid}
    {amount : Money} {r : WithdrawalResult}
    (hrun : (initiateWithdrawal env payeeId amount).run db = .ok (r, db')) :
    NothingAccrued db₀ customerId db' := by
  obtain ⟨_, entry, cash, equity, entries, -, -, rfl, hcash, hequity, hentries, rfl⟩ :=
    initiateWithdrawal_ok hrun
  refine ⟨h.cash.append_pair hentries rfl rfl fun account hmem _ => ?_, h.rows⟩
  exact roles_of_pair hcash hequity hmem rfl

theorem NothingAccrued.accrueForCustomer (h : NothingAccrued db₀ customerId db) {accruedId : Uuid}
    {accrualDate : Date} {feeRatePct : ℚ} {r : Option FeeAccrual}
    (hwithin : accruedId = customerId → ¬ db.feeAccruals.Has (customerId, accrualDate) →
      (∃ firstFlow ∈ firstFlowDate db customerId, firstFlow ≤ accrualDate) →
      FirstDayWithinMark db customerId)
    (hrun : (accrueForCustomer env feeRatePct accruedId accrualDate).run db = .ok (r, db')) :
    NothingAccrued db₀ customerId db' := by
  obtain ⟨shadow, db₁, hshadow, hcases⟩ := accrueForCustomer_ok hrun
  have hdb₁ := shadowNav_writes hshadow
  have h₁ : NothingAccrued db₀ customerId db₁ := by
    rw [hdb₁]
    exact ⟨h.cash.returns _, h.rows⟩
  rcases hcases with ⟨-, rfl⟩ | ⟨shadowValue, accrual, rfl, rfl, haccrue⟩
  · exact h₁
  obtain ⟨gain, feeAmount, payable, revenue, entry, marks, accounts, entries, accruals, -, -,
    hpayable, hrevenue, -, hrow, hentries, haccruals, rfl⟩ := accrue_ok haccrue
  refine ⟨h₁.cash.append_pair hentries rfl rfl ?_, fun row hmem hc => ?_⟩
  · intro account hmem hc
    simp only [List.mem_cons, List.not_mem_nil, or_false] at hmem
    rcases hmem with rfl | rfl
    · simp [hpayable.role]
    · rw [hrevenue] at hc
      cases hc
  · rcases (Table.mem_insert haccruals).mp hmem with hold | rfl
    · exact h₁.rows row hold hc
    · have hid : accruedId = customerId := by rw [hrow] at hc; exact hc
      subst hid
      refine Or.inr ((h.cash.accrual_zero_iff hrun).mpr (hwithin rfl ?_ ?_))
      · have hnew := (Table.insert_eq_some.mp haccruals).1
        rw [hdb₁, hrow] at hnew
        exact hnew
      · obtain ⟨firstFlow, hfirst, hle, -⟩ := h.cash.shadowNav_ok hshadow
        exact ⟨firstFlow, hfirst, hle⟩

theorem NothingAccrued.step (h : NothingAccrued db₀ customerId db) {step : Reporting.Step}
    (hop : IsCashOp step.op) (hwithin : accruesWithinMark customerId db step)
    (hrun : (Reporting.body step).run db = .ok (u, db')) : NothingAccrued db₀ customerId db' := by
  obtain ⟨env, op⟩ := step
  cases op with
  | application op =>
    cases op with
    | initiateDeposit depositorId amount =>
      obtain ⟨r, hrun⟩ := System.discard_ok hrun
      exact h.initiateDeposit hrun
    | confirmSettlement obligationId =>
      obtain ⟨o, -, -, rfl⟩ := confirmSettlement_ok hrun
      exact ⟨⟨h.cash.known, h.cash.units, h.cash.flows⟩, h.rows⟩
    | initiateWithdrawal payeeId amount =>
      obtain ⟨r, hrun⟩ := System.discard_ok hrun
      exact h.initiateWithdrawal hrun
    | _ => exact hop.elim
  | accrueForCustomer feeRatePct accruedId accrualDate =>
    obtain ⟨r, hrun⟩ := System.discard_ok hrun
    exact h.accrueForCustomer hwithin hrun
  | _ => exact hop.elim

end Run

/-- **Deposits and withdrawals accrue nothing** as long as every accrual that adds a row finds the
cash of the first flow's day within the recorded mark. -/
theorem cash_only_accrues_nothing {db : Database} {customerId : Uuid}
    (hcash : CashOnly db customerId) (steps : List Reporting.Step)
    (hops : ∀ step ∈ steps, IsCashOp step.op)
    (hwithin : RunMeets Reporting.body (accruesWithinMark customerId) steps db) :
    ∀ accrual ∈ (Reporting.run steps db).feeAccruals, accrual.customerId = customerId →
      accrual ∈ db.feeAccruals ∨ (accrual.gainAmount = 0 ∧ accrual.feeAmount = 0) := by
  have hinit : NothingAccrued db customerId db := ⟨hcash, fun accrual hmem _ => Or.inl hmem⟩
  have hmeets : RunMeets Reporting.body
      (fun db step => IsCashOp step.op ∧ accruesWithinMark customerId db step) steps db :=
    (RunMeets.of_forall hops).and hwithin
  exact (runs_keeps_of_meets (fun db step u db' h hp hrun => h.step hp.1 hp.2 hrun) steps hinit
    hmeets).rows

theorem openedAccount_cashOnly (customerId : Uuid) : CashOnly (openedAccount customerId) customerId :=
  ⟨by simp [PostingsKnown, openedAccount], by simp [openedAccount], by simp [openedAccount]⟩

/-- A deposit and an accrual on the first day, another deposit and another accrual on the second. -/
def laterDepositRun : List Reporting.Step := [
  ⟨envAt 1 1, .application (.initiateDeposit 1 (dollars 100))⟩,
  ⟨envAt 2 2, .accrueForCustomer (1 / 5) 1 0⟩,
  ⟨envAt 86400000000 3, .application (.initiateDeposit 1 (dollars 50))⟩,
  ⟨envAt 86400000001 4, .accrueForCustomer (1 / 5) 1 1⟩]

theorem cash_only_accrues_nothing_later_deposit :
    (Reporting.run laterDepositRun (openedAccount 1)).feeAccruals.rows.length = 2 ∧
      ∀ accrual ∈ (Reporting.run laterDepositRun (openedAccount 1)).feeAccruals,
        accrual.customerId = 1 → accrual ∈ (openedAccount 1).feeAccruals ∨
          (accrual.gainAmount = 0 ∧ accrual.feeAmount = 0) :=
  ⟨by decide +kernel, cash_only_accrues_nothing (openedAccount_cashOnly 1) laterDepositRun
    (by decide) (by decide +kernel)⟩

/-- The second deposit is still on the first day, after its accrual. -/
def sameDayDepositRun : List Reporting.Step := [
  ⟨envAt 1 1, .application (.initiateDeposit 1 (dollars 100))⟩,
  ⟨envAt 2 2, .accrueForCustomer (1 / 5) 1 0⟩,
  ⟨envAt 3 3, .application (.initiateDeposit 1 (dollars 50))⟩,
  ⟨envAt 86400000000 4, .accrueForCustomer (1 / 5) 1 1⟩]

/-- **A deposit of the first day, after the mark was recorded, accrues a fee.** -/
theorem same_day_deposit_accrues :
    CashOnly (openedAccount 1) 1 ∧ (openedAccount 1).feeAccruals = ∅ ∧
      (∀ step ∈ sameDayDepositRun, IsCashOp step.op) ∧
      ∃ accrual ∈ (Reporting.run sameDayDepositRun (openedAccount 1)).feeAccruals,
        accrual.customerId = 1 ∧ accrual.gainAmount = dollars 50 ∧ 0 < accrual.feeAmount.quanta :=
  ⟨openedAccount_cashOnly 1, rfl, by decide, by decide +kernel⟩

end Trueup.Fees
