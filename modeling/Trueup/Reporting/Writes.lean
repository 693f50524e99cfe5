import Trueup.Reporting

/-! # What the writes keep

An operation that touches no lot and publishes nothing writes journal entries, stored sub-periods,
and tables that neither the figures nor the lots are read from. `KeptByWrites env I` says that each
of these writes keeps `I`; then the operation does (`KeptByWrites.body`). -/

namespace Trueup.Reporting

open Trueup.Core Trueup.Models Trueup.Lib Trueup.Lib.Transaction Trueup.Ledger Trueup.Valuation
open Trueup.Identity Trueup.Orders Trueup.Lots Trueup.Restatement Trueup.Fees

/-- The tables the figures, the lots and the exports are read from. -/
def coreView (db : Database) : Table JournalEntry.id × List Posting × Table TaxLot.id ×
    Table LotConsumption.id × Table Security.id × Table SubPeriodReturn.key ×
    List PublishedSnapshot :=
  (db.journalEntries, db.postings, db.taxLots, db.lotConsumptions, db.securities,
    db.subPeriodReturns, db.publishedSnapshots)

/-- The operation opens, consumes or multiplies lots. -/
def MovesLots : Op → Prop
  | .lots _ | .application (.tradeUpdate ..) | .application (.applySplit ..) => True
  | _ => False

/-- **Every write keeps `I`**: an entry, a recomputation, and what is outside of these tables. -/
structure KeptByWrites (env : Env) (I : Database → Prop) : Prop where
  view : ∀ {db db' : Database}, I db → coreView db' = coreView db → I db'
  entry : ∀ entry legs, Keeps I (writeEntry entry legs)
  returns : ∀ customerId vBegin vEnd, Keeps I (subPeriodReturn env customerId vBegin vEnd)

namespace KeptByWrites

variable {env : Env} {I : Database → Prop} {α : Type} (h : KeptByWrites env I)
include h

theorem of_ok {x : Tx α}
    (hx : ∀ db a db', x.run db = .ok (a, db') → coreView db' = coreView db) : Keeps I x :=
  fun db a db' hdb hrun => h.view hdb (hx db a db' hrun)

theorem post (id : Uuid) (entryType : JournalEntryType) (effectiveDate : Date)
    (sourceEvent : SourceEvent) (legs : List PostingLeg) :
    Keeps I (post id entryType effectiveDate sourceEvent legs) :=
  h.entry _ _

theorem getOrCreateCustomerAccount (customerId : Uuid) (role : AccountRole)
    (securityId : Option Uuid) : Keeps I (getOrCreateCustomerAccount customerId role securityId) := by
  refine h.of_ok fun db a db' hrun => ?_
  obtain ⟨-, accounts, rfl⟩ := getOrCreateCustomerAccount_ok hrun
  rfl

theorem getOrCreateHouseAccount (role : AccountRole) : Keeps I (getOrCreateHouseAccount role) := by
  refine h.of_ok fun db a db' hrun => ?_
  obtain ⟨-, -, accounts, rfl⟩ := getOrCreateHouseAccount_ok hrun
  rfl

theorem addSettlementObligation (obligation : SettlementObligation) :
    Keeps I (addSettlementObligation obligation) := by
  refine h.of_ok fun db a db' hrun => ?_
  obtain ⟨t, -, rfl⟩ := addSettlementObligation_ok.mp hrun
  rfl

theorem addDailyClose (close : DailyClose) : Keeps I (addDailyClose close) := by
  refine h.of_ok fun db a db' hrun => ?_
  obtain ⟨-, rfl⟩ := addDailyClose_ok.mp hrun
  rfl

/-! ### The figures -/

theorem computeTwr (customerId : Uuid) (periodStart periodEnd : Date) :
    Keeps I (computeTwr env customerId periodStart periodEnd) :=
  keeps_computeTwr (h.returns customerId) periodStart periodEnd

theorem restate (disclose : Bool) (customerId : Uuid) (affectedDate : Date)
    (triggerType : RestatementTriggerType) (source : SourceEvent) :
    Keeps I (restate env disclose customerId affectedDate triggerType source) := by
  refine keeps_restate (h.returns customerId) (fun event => h.of_ok fun db a db' hrun => ?_)
    (fun disclosure => h.of_ok fun db a db' hrun => ?_) disclose affectedDate triggerType source
  · rw [addRestatementEvent_ok.mp hrun]
    rfl
  · rw [addFeeRestatementDisclosure_ok.mp hrun]
    rfl

theorem injectCorrectedPrice (securityId : Uuid) (marketDate : Date) (newClose : Price) :
    Keeps I (injectCorrectedPrice env securityId marketDate newClose) :=
  keeps_bind (h.addDailyClose _) fun _ => keeps_bind (keeps_read _) fun _ =>
    keeps_each fun _ _ => h.restate _ _ _ _ _

theorem recordCloses (answers : MarketAnswers) (marketDate : Date) : ∀ securityIds confirmed,
    Keeps I (recordCloses env answers marketDate securityIds confirmed)
  | [], _ => keeps_pure _
  | securityId :: securityIds, confirmed => by
    refine keeps_bind (keeps_read _) fun security => ?_
    cases security with
    | none => exact recordCloses answers marketDate securityIds confirmed
    | some security =>
      refine keeps_bind (keeps_lift _) fun quote => ?_
      cases quote with
      | none => exact recordCloses answers marketDate securityIds confirmed
      | some closePrice =>
        exact keeps_bind (h.addDailyClose _) fun _ =>
          recordCloses answers marketDate securityIds (confirmed + 1)

theorem dailyValuation (marketDate : Date) (answers : MarketAnswers) :
    Keeps I (dailyValuation env marketDate answers) := by
  refine keeps_bind (keeps_lift _) fun day => keeps_bind (h.of_ok fun db a db' hrun => ?_) fun _ =>
    keeps_whenever (keeps_bind (keeps_read _) fun _ =>
      keeps_bind (h.recordCloses _ _ _ _) fun _ => h.of_ok fun db a db' hrun => ?_)
  · rw [upsertCalendarDay_ok.mp hrun]
    rfl
  · rw [upsertValuationRun_ok.mp hrun]
    rfl

theorem declareDividendExDate (securityId : Uuid) (perShareAmount : Price) (exDate : Date) :
    Keeps I (declareDividendExDate env securityId perShareAmount exDate) := by
  refine keeps_bind (h.getOrCreateHouseAccount _) fun _ => keeps_bind (keeps_read _) fun _ =>
    keeps_each fun customerId _ => keeps_bind (keeps_read _) fun _ => keeps_whenever ?_
  exact keeps_bind (keeps_lift _) fun _ =>
    keeps_bind (h.getOrCreateCustomerAccount _ _ _) fun _ =>
    keeps_bind (h.post _ _ _ _ _) fun _ => h.restate _ _ _ _ _

theorem payDividend (customerId : Uuid) (amount : Money) (payDate : Date) :
    Keeps I (payDividend env customerId amount payDate) :=
  keeps_bind (keeps_read _) fun _ => keeps_bind (h.getOrCreateCustomerAccount _ _ _) fun _ =>
    keeps_bind (h.post _ _ _ _ _) fun _ => keeps_bind (h.addSettlementObligation _) fun _ =>
    h.restate _ _ _ _ _

theorem accrueForCustomer (feeRatePct : ℚ) (customerId : Uuid) (accrualDate : Date) :
    Keeps I (accrueForCustomer env feeRatePct customerId accrualDate) := by
  have haccrue : ∀ shadowValue, Keeps I (accrue env feeRatePct customerId accrualDate shadowValue) := by
    intro shadowValue
    refine keeps_bind (h.of_ok fun db a db' hrun => ?_) fun mark =>
      keeps_bind (h.of_ok fun db a db' hrun => ?_) fun gain => keeps_bind (keeps_lift _) fun _ => ?_
    · obtain ⟨-, marks, rfl⟩ := getOrCreateMark_ok hrun
      rfl
    · obtain ⟨-, marks, rfl⟩ := ratchet_ok hrun
      rfl
    · refine keeps_bind (h.getOrCreateCustomerAccount _ _ _) fun _ =>
        keeps_bind (h.getOrCreateHouseAccount _) fun _ => keeps_bind (h.post _ _ _ _ _) fun _ =>
        keeps_bind (h.of_ok fun db a db' hrun => ?_) fun _ => keeps_pure _
      obtain ⟨t, -, rfl⟩ := addFeeAccrual_ok.mp hrun
      rfl
  refine keeps_bind (keeps_shadowNav (h.returns customerId) _) fun shadow => ?_
  cases shadow with
  | none => exact keeps_pure _
  | some shadowValue => exact keeps_savepoint (haccrue shadowValue)

/-! ### The application -/

theorem accountFor (customerId : Uuid) (role : AccountRole) : Keeps I (accountFor customerId role) :=
  keeps_ite (h.getOrCreateCustomerAccount _ _ _) (keeps_read _)

theorem initiateDeposit (customerId : Uuid) (amount : Money) :
    Keeps I (initiateDeposit env customerId amount) :=
  keeps_bind (keeps_read _) fun _ => keeps_bind (keeps_read _) fun _ =>
    keeps_bind (keeps_read _) fun _ => keeps_bind (keeps_lift _) fun _ =>
    keeps_bind (h.accountFor _ _) fun _ => keeps_bind (h.accountFor _ _) fun _ =>
    keeps_bind (h.post _ _ _ _ _) fun _ => keeps_bind (h.addSettlementObligation _) fun _ =>
    keeps_pure _

theorem applyAchReturn (obligationId : Uuid) : Keeps I (applyAchReturn env obligationId) := by
  refine keeps_bind (keeps_read _) fun _ => keeps_bind (keeps_lift _) fun _ =>
    keeps_bind (keeps_bind (keeps_lift _) fun _ => h.of_ok fun db a db' hrun => ?_) fun _ =>
    keeps_bind (h.accountFor _ _) fun _ => keeps_bind (h.post _ _ _ _ _) fun _ => keeps_pure _
  rw [setSettlementObligation_ok.mp hrun]
  rfl

theorem initiateWithdrawal (customerId : Uuid) (amount : Money) :
    Keeps I (initiateWithdrawal env customerId amount) :=
  keeps_bind (keeps_read _) fun _ => keeps_bind (keeps_read _) fun _ =>
    keeps_bind (keeps_read _) fun _ => keeps_bind (keeps_lift _) fun _ =>
    keeps_bind (keeps_read _) fun _ => keeps_bind (keeps_read _) fun _ =>
    keeps_bind (h.post _ _ _ _ _) fun _ => keeps_pure _

theorem applyNewEvent (order : Order) (event : OrderEvent) :
    Keeps I (applyNewEvent env order event) := by
  refine h.of_ok fun db a db' hrun => ?_
  obtain ⟨events, holds, -, -, -, -, rfl⟩ := applyNewEvent_ok hrun
  rfl

theorem application (op : System.Op) (hop : ¬ MovesLots (.application op)) :
    Keeps I (System.body ⟨env, op⟩) := by
  cases op with
  | initiateDeposit customerId amount =>
    exact System.keeps_discard (h.initiateDeposit customerId amount)
  | confirmSettlement obligationId =>
    refine h.of_ok fun db a db' hrun => ?_
    obtain ⟨o, -, -, rfl⟩ := confirmSettlement_ok hrun
    rfl
  | applyAchReturn obligationId => exact h.applyAchReturn obligationId
  | initiateWithdrawal customerId amount =>
    exact System.keeps_discard (h.initiateWithdrawal customerId amount)
  | placeOrder request designatedLotIds =>
    refine System.keeps_discard (h.of_ok fun db a db' hrun => ?_)
    obtain ⟨created, mid, hcreated, -, rfl⟩ := placeOrder_ok hrun
    obtain ⟨amount, orders, holds, -, -, -, -, -, rfl⟩ := createOrder_ok hcreated
    rfl
  | approve orderId =>
    refine System.keeps_discard (h.of_ok fun db a db' hrun => ?_)
    obtain ⟨before, -, -, -, -, rfl⟩ := approve_ok hrun
    rfl
  | submitToBroker orderId broker =>
    intro db a db' hdb hrun
    rcases submitToBroker_ok hrun with rfl | ⟨order, -, event, state, -, -, -, -, hevent⟩
    · exact hdb
    · exact h.applyNewEvent order event db state db' hdb hevent
  | tradeUpdate fault message => exact absurd trivial hop
  | applySplit securityId ratio effectiveDate => exact absurd trivial hop

/-- **Every operation that moves no lots and publishes nothing** keeps `I`. -/
theorem body (op : Op) (hlots : ¬ MovesLots op) (hpublish : ∀ c a b, op ≠ .publish c a b) :
    Keeps I (body ⟨env, op⟩) := by
  cases op with
  | application op => exact h.application op hlots
  | lots op => exact absurd trivial hlots
  | computeTwr customerId periodStart periodEnd =>
    exact System.keeps_discard (h.computeTwr customerId periodStart periodEnd)
  | publish customerId periodStart periodEnd => exact absurd rfl (hpublish _ _ _)
  | restate disclose customerId affectedDate triggerType source =>
    exact h.restate disclose customerId affectedDate triggerType source
  | injectCorrectedPrice securityId marketDate newClose =>
    exact h.injectCorrectedPrice securityId marketDate newClose
  | dailyValuation marketDate answers => exact h.dailyValuation marketDate answers
  | declareDividendExDate securityId perShareAmount exDate =>
    exact h.declareDividendExDate securityId perShareAmount exDate
  | payDividend customerId amount payDate => exact h.payDividend customerId amount payDate
  | accrueForCustomer feeRatePct customerId accrualDate =>
    exact System.keeps_discard (h.accrueForCustomer feeRatePct customerId accrualDate)

end KeptByWrites

end Trueup.Reporting
