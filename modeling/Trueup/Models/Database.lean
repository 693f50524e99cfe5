import Trueup.Lib.Transaction
import Trueup.Models.Ops
import Trueup.Models.Orders
import Trueup.Models.Reporting

/-! # The database and the unit of work

`Database` is the committed state of the tables, `Tx` the body of a unit of work over it: what a
body wrote is lost when it raises. The repositories' writes are here, with the constraints the
database checks on them; each has a lemma `*_ok` that says what it wrote.

Everything a body takes from outside the database is in `Env`: the readings of the application's
clock, the start time of the transaction, the fresh uuids, the time zone and the settings. -/

namespace Trueup.Models

open Trueup.Core Trueup.Lib Trueup.Lib.Transaction

structure Customer where
  id : Uuid
  kycStatus : KycStatus
  accountApprovalStatus : AccountApprovalStatus
  deriving DecidableEq

structure BankLink where
  id : Uuid
  customerId : Uuid
  plaidItemId : String
  status : BankLinkStatus
  deriving DecidableEq

/-- `uq_order_event_order_id_seq`. -/
def OrderEvent.key (event : OrderEvent) : Uuid × ℤ := (event.orderId, event.seq)

/-- `uq_sub_period_return_customer_period_recorded`. -/
def SubPeriodReturn.key (row : SubPeriodReturn) : Uuid × Date × Date × Instant :=
  (row.customerId, row.subPeriodStart, row.subPeriodEnd, row.recordedAt)

/-- `uq_daily_close_security_market_recorded`. -/
def DailyClose.key (close : DailyClose) : Uuid × Date × Instant :=
  (close.securityId, close.marketDate, close.recordedAt)

/-- `uq_fee_accrual_customer_date`. -/
def FeeAccrual.key (accrual : FeeAccrual) : Uuid × Date :=
  (accrual.customerId, accrual.accrualDate)

structure Database where
  customers : Table Customer.id
  bankLinks : List BankLink
  accounts : List Account
  journalEntries : Table JournalEntry.id
  postings : List Posting
  settlementObligations : Table SettlementObligation.id
  orders : Table Order.id
  orderEvents : Table OrderEvent.key
  approvalHolds : Table ApprovalHold.orderId
  taxLots : Table TaxLot.id
  lotConsumptions : Table LotConsumption.id
  washSaleAdjustments : Table WashSaleAdjustment.originalLotConsumptionId
  securities : Table Security.id
  calendarCache : Table MarketCalendarDay.day
  dailyCloses : List DailyClose
  valuationRuns : Table ValuationRun.marketDate
  subPeriodReturns : Table SubPeriodReturn.key
  publishedSnapshots : List PublishedSnapshot
  restatementEvents : List RestatementEvent
  highWaterMarks : Table HighWaterMark.customerId
  feeAccruals : Table FeeAccrual.key
  feeCharges : Table FeeCharge.id
  dunningStates : Table DunningState.feeChargeId
  paymentMethods : Table PaymentMethod.customerId
  /-- The rows of `job_outbox` whose task is `charge_fee`; the payload is the charge. -/
  chargeFeeJobs : Outbox Uuid
  feeRestatementDisclosures : List FeeRestatementDisclosure

/-- The body of a unit of work. -/
abbrev Tx (α : Type) := Transaction.Tx Error Database α

/-- What a reading of the application's clock is for. -/
inductive Reading
  | effectiveDate | seq | recordedAt | releasedAt | confirmedAt | failedAt | updatedAt
  | nextRetryAt
  deriving DecidableEq, Repr

/-- What a fresh uuid is for. -/
inductive Slot
  | journalEntry
  | settlementObligation
  | order
  | taxLot
  | lotConsumption (taxLotId : Uuid)
  | washSaleEntry (lotConsumptionId : Uuid)
  | splitEntry (customerId : Uuid)
  | dividendEntry (customerId : Uuid)
  | feeCharge
  | jobOutbox
  | restatementEvent (source : SourceEvent) (periodStart periodEnd : Date)
  deriving DecidableEq

structure Env where
  now : Reading → Datetime
  /-- `now()` of the database: the start of the transaction. -/
  transactionStart : Instant
  uuid4 : Slot → Uuid
  newYorkDate : Instant → Date
  depositCapPerTransaction : Money
  depositCapPerDay : Money
  approvalThresholdUsd : Money

/-! ### The unit of work

`core/uow.py`. A body writes to the session; the committed state changes at `commit` only, and a
unit of work that is left without one is rolled back. -/

structure UnitOfWork where
  committed : Database
  session : Database

namespace UnitOfWork

/-- `__enter__`. -/
def enter (db : Database) : UnitOfWork := ⟨db, db⟩

/-- `commit`. -/
def commit (uow : UnitOfWork) : UnitOfWork := { uow with committed := uow.session }

/-- `__exit__`: what was not committed is rolled back, and the committed state stays. -/
def exit (uow : UnitOfWork) : Database := { uow with session := uow.committed }.committed

/-- `with uow_factory() as uow: body; uow.commit()`. -/
def perform {α : Type} (body : Tx α) (db : Database) : Except Error α × Database :=
  match body.run (enter db).session with
  | .ok (a, session) => (.ok a, { enter db with session }.commit.exit)
  | .error e => (.error e, (enter db).exit)

theorem perform_snd {α : Type} (body : Tx α) (db : Database) :
    (perform body db).2 = atomically body db := by
  rw [perform, atomically]
  split
  · rename_i h; rw [show body.run db = _ from h]; rfl
  · rename_i h; rw [show body.run db = _ from h]; rfl

theorem perform_of_error {α : Type} {body : Tx α} {db : Database} {e : Error}
    (h : (perform body db).1 = .error e) : (perform body db).2 = db := by
  rw [perform] at h ⊢
  split at h
  · cases h
  · rfl

end UnitOfWork

/-! ### Reads -/

/-- `scalar_one_or_none`. -/
def scalarOneOrNone {α : Type} : List α → Except Error (Option α)
  | [] => .ok none
  | [a] => .ok (some a)
  | _ => .error .multipleResultsFound

theorem scalarOneOrNone_eq_some {α : Type} {l : List α} {a : α} :
    scalarOneOrNone l = .ok (some a) ↔ l = [a] := by
  match l with
  | [] => simp [scalarOneOrNone]
  | [b] => simp [scalarOneOrNone]
  | _ :: _ :: _ => simp [scalarOneOrNone]

theorem fails_scalarOneOrNone {α : Type} {P : Error → Prop} (h : P .multipleResultsFound) (l : List α) :
    Fails P (scalarOneOrNone l) := by
  unfold scalarOneOrNone
  split
  · exact fails_ok _
  · exact fails_ok _
  · exact fails_error h

theorem mem_of_scalarOneOrNone {α : Type} {l : List α} {a : α}
    (h : scalarOneOrNone l = .ok (some a)) : a ∈ l := by
  rw [scalarOneOrNone_eq_some.mp h]
  exact List.mem_singleton_self a

namespace Database

/-- The accounts of a customer in a role; of one security, when it is given. -/
def accountsOf (db : Database) (customerId : Uuid) (role : AccountRole)
    (securityId : Option Uuid) : List Account :=
  db.accounts.filter fun account =>
    account.customerId = some customerId ∧ account.role = role ∧
      (securityId = none ∨ account.securityId = securityId)

/-- `CachedTradingCalendar`: a day the cache has no row for raises. -/
def cachedTradingCalendar (db : Database) : TradingCalendar where
  isTradingDay d := do
    return (← ofOption (db.calendarCache.find d) Error.marketCalendarCacheMiss).isTradingDay
  sessionClose d := do
    return (← ofOption (db.calendarCache.find d) Error.marketCalendarCacheMiss).sessionCloseAt

/-- `_default_market_clock_factory`. -/
def marketClock (db : Database) (env : Env) : MarketClock :=
  ⟨env.newYorkDate, db.cachedTradingCalendar⟩

end Database

/-! ### Writes

The repositories' `add` and the updates a flush writes back. -/

def addAccount (account : Account) : Tx Unit :=
  update fun db => { db with accounts := db.accounts ++ [account] }

def addJournalEntry (entry : JournalEntry) : Tx Unit :=
  write fun db => do
    let t ← ofOption (db.journalEntries.insert entry) (.integrityError .primaryKey)
    return { db with journalEntries := t }

/-- A posting, checked by `posting_denormalize_and_validate`. -/
def addPosting (posting : Posting) : Tx Unit :=
  write fun db => do
    check (posting.amount.dimension = posting.account.role.dimension) .dimensionMismatch
    return { db with postings := db.postings ++ [posting] }

def addSettlementObligation (obligation : SettlementObligation) : Tx Unit :=
  write fun db => do
    let t ← ofOption (db.settlementObligations.insert obligation) (.integrityError .primaryKey)
    return { db with settlementObligations := t }

def setSettlementObligation (obligation : SettlementObligation) : Tx Unit :=
  update fun db => { db with settlementObligations := db.settlementObligations.set obligation }

def addOrder (order : Order) : Tx Unit :=
  write fun db => do
    let t ← ofOption (db.orders.insert order) (.integrityError .primaryKey)
    return { db with orders := t }

def setOrder (order : Order) : Tx Unit :=
  update fun db => { db with orders := db.orders.set order }

/-- The width of the columns that hold an execution id. -/
def executionIdWidth : ℕ := 255

/-- The execution ids of the recorded events. -/
def Database.executionIds (db : Database) : List ExecutionId :=
  db.orderEvents.rows.filterMap OrderEvent.executionId

def addOrderEvent (event : OrderEvent) : Tx Unit :=
  write fun db => do
    check (∀ x ∈ event.executionId, x.length ≤ executionIdWidth) .dataError
    check (∀ x ∈ event.executionId, x ∉ db.executionIds) (.integrityError .orderEventExecutionId)
    let t ← ofOption (db.orderEvents.insert event) (.integrityError .orderEventSeq)
    return { db with orderEvents := t }

def addApprovalHold (hold : ApprovalHold) : Tx Unit :=
  write fun db => do
    let t ← ofOption (db.approvalHolds.insert hold) (.integrityError .approvalHoldOrderId)
    return { db with approvalHolds := t }

def setApprovalHold (hold : ApprovalHold) : Tx Unit :=
  update fun db => { db with approvalHolds := db.approvalHolds.set hold }

def addTaxLot (lot : TaxLot) : Tx Unit :=
  write fun db => do
    check (lot.openingFillExecutionId.length ≤ executionIdWidth) .dataError
    check (lot.openingFillExecutionId ∉ db.taxLots.rows.map TaxLot.openingFillExecutionId)
      (.integrityError .taxLotExecutionId)
    let t ← ofOption (db.taxLots.insert lot) (.integrityError .primaryKey)
    return { db with taxLots := t }

def setTaxLot (lot : TaxLot) : Tx Unit :=
  update fun db => { db with taxLots := db.taxLots.set lot }

def addLotConsumption (consumption : LotConsumption) : Tx Unit :=
  write fun db => do
    check (consumption.closingFillExecutionId.length ≤ executionIdWidth) .dataError
    let t ← ofOption (db.lotConsumptions.insert consumption) (.integrityError .primaryKey)
    return { db with lotConsumptions := t }

def setLotConsumption (consumption : LotConsumption) : Tx Unit :=
  update fun db => { db with lotConsumptions := db.lotConsumptions.set consumption }

def addWashSaleAdjustment (adjustment : WashSaleAdjustment) : Tx Unit :=
  write fun db => do
    let t ← ofOption (db.washSaleAdjustments.insert adjustment) (.integrityError .washSaleConsumption)
    return { db with washSaleAdjustments := t }

/-- A sub-period return; `return_pct` is a `NUMERIC(18,10)`. -/
def addSubPeriodReturn (row : SubPeriodReturn) : Tx Unit :=
  write fun db => do
    check (|row.returnPct| < 10 ^ 8) .dataError
    let t ← ofOption (db.subPeriodReturns.insert row) (.integrityError .subPeriodReturnRecorded)
    return { db with subPeriodReturns := t }

/-- A close; the row of a security and a day is unique up to its `recorded_at`. -/
def addDailyClose (close : DailyClose) : Tx Unit :=
  write fun db => do
    check (close.key ∉ db.dailyCloses.map DailyClose.key) (.integrityError .dailyCloseRecorded)
    return { db with dailyCloses := db.dailyCloses ++ [close] }

/-- A snapshot; `twr` is a `NUMERIC(18,10)`. -/
def addPublishedSnapshot (snapshot : PublishedSnapshot) : Tx Unit :=
  write fun db => do
    check (|snapshot.twr| < 10 ^ 8) .dataError
    return { db with publishedSnapshots := db.publishedSnapshots ++ [snapshot] }

def addHighWaterMark (mark : HighWaterMark) : Tx Unit :=
  write fun db => do
    let t ← ofOption (db.highWaterMarks.insert mark) (.integrityError .primaryKey)
    return { db with highWaterMarks := t }

def setHighWaterMark (mark : HighWaterMark) : Tx Unit :=
  update fun db => { db with highWaterMarks := db.highWaterMarks.set mark }

def addFeeAccrual (accrual : FeeAccrual) : Tx Unit :=
  write fun db => do
    let t ← ofOption (db.feeAccruals.insert accrual) (.integrityError .feeAccrualDate)
    return { db with feeAccruals := t }

/-- The unique columns of a charge, against the other rows. -/
def Database.freeForCharge (db : Database) (charge : FeeCharge) : Except Error Unit := do
  let others := db.feeCharges.rows.filter (·.id ≠ charge.id)
  check (∀ c ∈ others, ¬ (c.customerId = charge.customerId ∧
    c.billingPeriodStart = charge.billingPeriodStart ∧
    c.billingPeriodEnd = charge.billingPeriodEnd)) (.integrityError .feeChargePeriod)
  check (∀ c ∈ others, ∀ id ∈ charge.stripeChargeId, c.stripeChargeId ≠ some id)
    (.integrityError .feeChargeStripeChargeId)

def addFeeCharge (charge : FeeCharge) : Tx Unit :=
  write fun db => do
    db.freeForCharge charge
    let t ← ofOption (db.feeCharges.insert charge) (.integrityError .primaryKey)
    return { db with feeCharges := t }

/-- An `UPDATE` of a charge: `f` replaces the columns that are set. `stripe_charge_id` is a
`String(255)`. -/
def updateFeeCharge (feeChargeId : Uuid) (f : FeeCharge → FeeCharge) : Tx Unit :=
  write fun db => do
    let row ← ofOption (db.feeCharges.find feeChargeId) .staleData
    check (∀ id ∈ (f row).stripeChargeId, id.length ≤ 255) .dataError
    db.freeForCharge (f row)
    return { db with feeCharges := db.feeCharges.set (f row) }

def addDunningState (dunning : DunningState) : Tx Unit :=
  write fun db => do
    let t ← ofOption (db.dunningStates.insert dunning) (.integrityError .primaryKey)
    return { db with dunningStates := t }

/-- An `UPDATE` of a dunning state, which must still be there. -/
def updateDunningState (feeChargeId : Uuid) (f : DunningState → DunningState) : Tx Unit :=
  write fun db => do
    let row ← ofOption (db.dunningStates.find feeChargeId) .staleData
    return { db with dunningStates := db.dunningStates.set (f row) }

/-- A deletion of a dunning state, which may be gone. -/
def deleteDunningState (feeChargeId : Uuid) : Tx Unit :=
  update fun db => { db with dunningStates := db.dunningStates.erase feeChargeId }

/-- `enqueue("charge_fee", ...)`. -/
def enqueueChargeFee (row : JobOutbox Uuid) : Tx Unit :=
  write fun db => do
    let t ← ofOption (db.chargeFeeJobs.insert row) (.integrityError .primaryKey)
    return { db with chargeFeeJobs := t }

/-- `MarketCalendarCacheRepository.upsert`. -/
def upsertCalendarDay (day : MarketCalendarDay) : Tx Unit :=
  update fun db => { db with calendarCache := db.calendarCache.upsert day }

/-- `ValuationRunRepository.upsert`. -/
def upsertValuationRun (run : ValuationRun) : Tx Unit :=
  update fun db => { db with valuationRuns := db.valuationRuns.upsert run }

def addRestatementEvent (event : RestatementEvent) : Tx Unit :=
  update fun db => { db with restatementEvents := db.restatementEvents ++ [event] }

def addFeeRestatementDisclosure (disclosure : FeeRestatementDisclosure) : Tx Unit :=
  update fun db =>
    { db with feeRestatementDisclosures := db.feeRestatementDisclosures ++ [disclosure] }

/-! ### What a write wrote -/

section Writes
variable {db db' : Database} {u : Unit}

theorem addAccount_ok {account : Account} : (addAccount account).run db = .ok (u, db') ↔
    db' = { db with accounts := db.accounts ++ [account] } := update_ok

theorem addJournalEntry_ok {entry : JournalEntry} : (addJournalEntry entry).run db = .ok (u, db') ↔
    ∃ t, db.journalEntries.insert entry = some t ∧ db' = { db with journalEntries := t } := by
  simp only [addJournalEntry, write_ok, except_bind_ok, ofOption_ok]
  simp [pure, Except.pure, eq_comm]

theorem addPosting_ok {posting : Posting} : (addPosting posting).run db = .ok (u, db') ↔
    posting.amount.dimension = posting.account.role.dimension ∧
      db' = { db with postings := db.postings ++ [posting] } := by
  simp only [addPosting, write_ok, except_bind_ok, check_ok]
  simp [pure, Except.pure, eq_comm]

theorem addSettlementObligation_ok {obligation : SettlementObligation} :
    (addSettlementObligation obligation).run db = .ok (u, db') ↔
      ∃ t, db.settlementObligations.insert obligation = some t ∧
        db' = { db with settlementObligations := t } := by
  simp only [addSettlementObligation, write_ok, except_bind_ok, ofOption_ok]
  simp [pure, Except.pure, eq_comm]

theorem setSettlementObligation_ok {obligation : SettlementObligation} :
    (setSettlementObligation obligation).run db = .ok (u, db') ↔
      db' = { db with settlementObligations := db.settlementObligations.set obligation } := update_ok

theorem addOrder_ok {order : Order} : (addOrder order).run db = .ok (u, db') ↔
    ∃ t, db.orders.insert order = some t ∧ db' = { db with orders := t } := by
  simp only [addOrder, write_ok, except_bind_ok, ofOption_ok]
  simp [pure, Except.pure, eq_comm]

theorem setOrder_ok {order : Order} : (setOrder order).run db = .ok (u, db') ↔
    db' = { db with orders := db.orders.set order } := update_ok

theorem addOrderEvent_ok {event : OrderEvent} : (addOrderEvent event).run db = .ok (u, db') ↔
    (∀ x ∈ event.executionId, x.length ≤ executionIdWidth) ∧
      (∀ x ∈ event.executionId, x ∉ db.executionIds) ∧
      ∃ t, db.orderEvents.insert event = some t ∧ db' = { db with orderEvents := t } := by
  simp only [addOrderEvent, write_ok, except_bind_ok, check_ok, ofOption_ok]
  simp [pure, Except.pure, eq_comm]

theorem addApprovalHold_ok {hold : ApprovalHold} : (addApprovalHold hold).run db = .ok (u, db') ↔
    ∃ t, db.approvalHolds.insert hold = some t ∧ db' = { db with approvalHolds := t } := by
  simp only [addApprovalHold, write_ok, except_bind_ok, ofOption_ok]
  simp [pure, Except.pure, eq_comm]

theorem setApprovalHold_ok {hold : ApprovalHold} : (setApprovalHold hold).run db = .ok (u, db') ↔
    db' = { db with approvalHolds := db.approvalHolds.set hold } := update_ok

theorem addTaxLot_ok {lot : TaxLot} : (addTaxLot lot).run db = .ok (u, db') ↔
    lot.openingFillExecutionId.length ≤ executionIdWidth ∧
      lot.openingFillExecutionId ∉ db.taxLots.rows.map TaxLot.openingFillExecutionId ∧
      ∃ t, db.taxLots.insert lot = some t ∧ db' = { db with taxLots := t } := by
  simp only [addTaxLot, write_ok, except_bind_ok, check_ok, ofOption_ok]
  simp [pure, Except.pure, eq_comm]

theorem setTaxLot_ok {lot : TaxLot} : (setTaxLot lot).run db = .ok (u, db') ↔
    db' = { db with taxLots := db.taxLots.set lot } := update_ok

theorem addLotConsumption_ok {consumption : LotConsumption} :
    (addLotConsumption consumption).run db = .ok (u, db') ↔
      consumption.closingFillExecutionId.length ≤ executionIdWidth ∧
      ∃ t, db.lotConsumptions.insert consumption = some t ∧
        db' = { db with lotConsumptions := t } := by
  simp only [addLotConsumption, write_ok, except_bind_ok, check_ok, ofOption_ok]
  simp [pure, Except.pure, eq_comm]

theorem setLotConsumption_ok {consumption : LotConsumption} :
    (setLotConsumption consumption).run db = .ok (u, db') ↔
      db' = { db with lotConsumptions := db.lotConsumptions.set consumption } := update_ok

theorem addWashSaleAdjustment_ok {adjustment : WashSaleAdjustment} :
    (addWashSaleAdjustment adjustment).run db = .ok (u, db') ↔
      ∃ t, db.washSaleAdjustments.insert adjustment = some t ∧
        db' = { db with washSaleAdjustments := t } := by
  simp only [addWashSaleAdjustment, write_ok, except_bind_ok, ofOption_ok]
  simp [pure, Except.pure, eq_comm]

theorem addSubPeriodReturn_ok {row : SubPeriodReturn} :
    (addSubPeriodReturn row).run db = .ok (u, db') ↔ |row.returnPct| < 10 ^ 8 ∧
      ∃ t, db.subPeriodReturns.insert row = some t ∧ db' = { db with subPeriodReturns := t } := by
  simp only [addSubPeriodReturn, write_ok, except_bind_ok, check_ok, ofOption_ok]
  simp [pure, Except.pure, eq_comm]

theorem addDailyClose_ok {close : DailyClose} : (addDailyClose close).run db = .ok (u, db') ↔
    close.key ∉ db.dailyCloses.map DailyClose.key ∧
      db' = { db with dailyCloses := db.dailyCloses ++ [close] } := by
  simp only [addDailyClose, write_ok, except_bind_ok, check_ok]
  simp [pure, Except.pure, eq_comm]

theorem addPublishedSnapshot_ok {snapshot : PublishedSnapshot} :
    (addPublishedSnapshot snapshot).run db = .ok (u, db') ↔ |snapshot.twr| < 10 ^ 8 ∧
      db' = { db with publishedSnapshots := db.publishedSnapshots ++ [snapshot] } := by
  simp only [addPublishedSnapshot, write_ok, except_bind_ok, check_ok]
  simp [pure, Except.pure, eq_comm]

theorem addHighWaterMark_ok {mark : HighWaterMark} :
    (addHighWaterMark mark).run db = .ok (u, db') ↔
      ∃ t, db.highWaterMarks.insert mark = some t ∧ db' = { db with highWaterMarks := t } := by
  simp only [addHighWaterMark, write_ok, except_bind_ok, ofOption_ok]
  simp [pure, Except.pure, eq_comm]

theorem setHighWaterMark_ok {mark : HighWaterMark} :
    (setHighWaterMark mark).run db = .ok (u, db') ↔
      db' = { db with highWaterMarks := db.highWaterMarks.set mark } := update_ok

theorem addFeeAccrual_ok {accrual : FeeAccrual} :
    (addFeeAccrual accrual).run db = .ok (u, db') ↔
      ∃ t, db.feeAccruals.insert accrual = some t ∧ db' = { db with feeAccruals := t } := by
  simp only [addFeeAccrual, write_ok, except_bind_ok, ofOption_ok]
  simp [pure, Except.pure, eq_comm]

theorem freeForCharge_ok {charge : FeeCharge} : db.freeForCharge charge = .ok u ↔
    (∀ c ∈ db.feeCharges, c.id ≠ charge.id → ¬ (c.customerId = charge.customerId ∧
      c.billingPeriodStart = charge.billingPeriodStart ∧
      c.billingPeriodEnd = charge.billingPeriodEnd)) ∧
    ∀ c ∈ db.feeCharges, c.id ≠ charge.id →
      ∀ id ∈ charge.stripeChargeId, c.stripeChargeId ≠ some id := by
  simp only [Database.freeForCharge, except_bind_ok, check_ok]
  simp [Table.mem_iff]

theorem addFeeCharge_ok {charge : FeeCharge} : (addFeeCharge charge).run db = .ok (u, db') ↔
    db.freeForCharge charge = .ok () ∧
      ∃ t, db.feeCharges.insert charge = some t ∧ db' = { db with feeCharges := t } := by
  simp only [addFeeCharge, write_ok, except_bind_ok, ofOption_ok, freeForCharge_ok]
  simp [pure, Except.pure, eq_comm]

theorem updateFeeCharge_ok {feeChargeId : Uuid} {f : FeeCharge → FeeCharge} :
    (updateFeeCharge feeChargeId f).run db = .ok (u, db') ↔
      ∃ row, db.feeCharges.find feeChargeId = some row ∧
        (∀ id ∈ (f row).stripeChargeId, id.length ≤ 255) ∧ db.freeForCharge (f row) = .ok () ∧
        db' = { db with feeCharges := db.feeCharges.set (f row) } := by
  simp only [updateFeeCharge, write_ok, except_bind_ok, ofOption_ok, check_ok, freeForCharge_ok]
  simp [pure, Except.pure, eq_comm]

theorem addDunningState_ok {dunning : DunningState} :
    (addDunningState dunning).run db = .ok (u, db') ↔
      ∃ t, db.dunningStates.insert dunning = some t ∧ db' = { db with dunningStates := t } := by
  simp only [addDunningState, write_ok, except_bind_ok, ofOption_ok]
  simp [pure, Except.pure, eq_comm]

theorem updateDunningState_ok {feeChargeId : Uuid} {f : DunningState → DunningState} :
    (updateDunningState feeChargeId f).run db = .ok (u, db') ↔
      ∃ row, db.dunningStates.find feeChargeId = some row ∧
        db' = { db with dunningStates := db.dunningStates.set (f row) } := by
  simp only [updateDunningState, write_ok, except_bind_ok, ofOption_ok]
  simp [pure, Except.pure, eq_comm]

theorem deleteDunningState_ok {feeChargeId : Uuid} :
    (deleteDunningState feeChargeId).run db = .ok (u, db') ↔
      db' = { db with dunningStates := db.dunningStates.erase feeChargeId } := update_ok

theorem enqueueChargeFee_ok {row : JobOutbox Uuid} :
    (enqueueChargeFee row).run db = .ok (u, db') ↔
      ∃ t, db.chargeFeeJobs.insert row = some t ∧ db' = { db with chargeFeeJobs := t } := by
  simp only [enqueueChargeFee, write_ok, except_bind_ok, ofOption_ok]
  simp [pure, Except.pure, eq_comm]

theorem upsertCalendarDay_ok {day : MarketCalendarDay} :
    (upsertCalendarDay day).run db = .ok (u, db') ↔
      db' = { db with calendarCache := db.calendarCache.upsert day } := update_ok

theorem upsertValuationRun_ok {run : ValuationRun} :
    (upsertValuationRun run).run db = .ok (u, db') ↔
      db' = { db with valuationRuns := db.valuationRuns.upsert run } := update_ok

theorem addRestatementEvent_ok {event : RestatementEvent} :
    (addRestatementEvent event).run db = .ok (u, db') ↔
      db' = { db with restatementEvents := db.restatementEvents ++ [event] } := update_ok

theorem addFeeRestatementDisclosure_ok {disclosure : FeeRestatementDisclosure} :
    (addFeeRestatementDisclosure disclosure).run db = .ok (u, db') ↔
      db' = { db with
        feeRestatementDisclosures := db.feeRestatementDisclosures ++ [disclosure] } := update_ok

end Writes

end Trueup.Models
