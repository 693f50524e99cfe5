import Trueup.Lib.ReadCommitted
import Trueup.Restatement.CloseRecording
import Trueup.Restatement.SnapshotService
import Trueup.Valuation.SubPeriods

/-! # Computing, publishing and restating, statement by statement

The same code as in `Valuation.TwrService`, `Restatement.SnapshotService`,
`Restatement.RestatementService` and `Restatement.CloseRecording`, as the statements it sends to the
database. Other transactions can commit between any two of them.

The log is `sub_period_return`: it is append-only, its rows are looked up by window, and their
`recorded_at` is the start of the transaction that inserted them (`server_default=func.now()`).

Run without interruption, each of them is the unit of work of those modules (`serial_publish`,
`serial_injectCorrectedPrice`). -/

namespace Trueup.Restatement.Interleaved

open Trueup.Core Trueup.Models Trueup.Lib Trueup.Lib.Transaction Trueup.Lib.ReadCommitted
open Trueup.Lib.ReadCommitted.Statements Trueup.Valuation

/-- A window of a customer. -/
abbrev Window := Uuid × Date × Date

/-- `sub_period_return`, as a log. -/
def returnLog : Log Database SubPeriodReturn Window Instant where
  rows db := db.subPeriodReturns.rows
  key row := (row.customerId, row.subPeriodStart, row.subPeriodEnd)
  time := SubPeriodReturn.recordedAt

/-- The statements of a transaction that starts at the environment's `now()`. -/
abbrev Stmts (env : Env) (α : Type) := Statements Error returnLog env.transactionStart α

theorem ofKey_eq (db : Database) (customerId : Uuid) (vBegin vEnd : Date) :
    returnLog.ofKey (customerId, vBegin, vEnd) db = rowsOfWindow db customerId vBegin vEnd := by
  refine List.filter_congr fun row _ => ?_
  simp [returnLog]

variable (env : Env)

/-- A computation between two statements. -/
def compute {α : Type} (x : Except Error α) : Stmts env α := query fun _ => x

/-- A write of another table. -/
def writeOther (x : Tx Unit) (h : Frames (·.subPeriodReturns) x) : Stmts env Unit :=
  execute (.ofRest (after x) fun hrun => congrArg Table.rows (h.eq (after_ok.mp hrun)))

/-- The insertion of a row; the database stamps it. -/
def addSubPeriodReturn (row : SubPeriodReturn) : Stmts env Unit :=
  let stamped := { row with recordedAt := env.transactionStart }
  execute {
    run := after (Models.addSubPeriodReturn stamped)
    rows := [stamped]
    appends := fun hrun => by
      obtain ⟨-, t, ht, rfl⟩ := addSubPeriodReturn_ok.mp (after_ok.mp hrun)
      exact Table.rows_insert ht
    fresh := fun hrun r hr => by
      obtain ⟨-, t, ht, rfl⟩ := addSubPeriodReturn_ok.mp (after_ok.mp hrun)
      rw [List.mem_singleton.mp hr]
      exact fun hmem => (Table.insert_eq_some.mp ht).1 (Table.has_of_mem hmem)
    stamped := fun r hr => by rw [List.mem_singleton.mp hr]; rfl }

/-! ### Returns -/

/-- The loop of `value_book`. -/
def addPositions (asOfDate : Date) : List (Uuid × Units) → BookValuation → Stmts env BookValuation
  | [], book => return book
  | (securityId, units) :: positions, book => do
    if units = 0 then addPositions asOfDate positions book
    else
      match ← query fun db => .ok (latestConfirmed db securityId asOfDate) with
      | none => addPositions asOfDate positions { book with isPartial := true }
      | some close =>
        let value ← compute env (Price.times close.closePrice units)
        let totalValue ← compute env (book.totalValue.add value)
        addPositions asOfDate positions { book with totalValue }

/-- `value_book`. -/
def valueBook (customerId : Uuid) (asOfDate : Date) : Stmts env BookValuation := do
  let totalValue ← query fun db => cashBalance db customerId asOfDate
  let positions ← query fun db => positionUnits db customerId asOfDate
  addPositions env asOfDate positions { totalValue, isPartial := false }

/-- The row `_sub_period_return` computes. -/
def currentSubPeriod (customerId : Uuid) (vBegin vEnd : Date) : Stmts env SubPeriodReturn := do
  let beginValuation ← valueBook env customerId vBegin
  let endValuation ← valueBook env customerId vEnd
  let flowAmount ← query fun db => flowAmountOn db customerId vEnd
  let returnPct ← compute env (do
    if beginValuation.totalValue = 0 then quantizeReturn 0
    else do
      let change ← endValuation.totalValue.sub beginValuation.totalValue
      let gain ← change.sub flowAmount
      quantizeReturn (← Money.ratio gain beginValuation.totalValue))
  return {
    customerId, subPeriodStart := vBegin, subPeriodEnd := vEnd, returnPct
    valueBegin := beginValuation.totalValue, valueEnd := endValuation.totalValue, flowAmount
    isProvisional := beginValuation.isPartial || endValuation.isPartial
    recordedAt := env.transactionStart }

/-- `_sub_period_return`. -/
def subPeriodReturn (customerId : Uuid) (vBegin vEnd : Date) : Stmts env SubPeriodReturn := do
  let row ← currentSubPeriod env customerId vBegin vEnd
  let rows ← lookup (customerId, vBegin, vEnd)
  match (latestBy SubPeriodReturn.recordedAt rows).filter (sameFigures row) with
  | some existing => return existing
  | none =>
    addSubPeriodReturn env row
    return row

/-- The loop of `compute_twr`. -/
def subPeriodReturns (customerId : Uuid) : List (Date × Date) → Stmts env (List SubPeriodReturn)
  | [] => return []
  | (vBegin, vEnd) :: windows => do
    let row ← subPeriodReturn env customerId vBegin vEnd
    let rows ← subPeriodReturns customerId windows
    return row :: rows

/-- `compute_twr`. -/
def computeTwr (customerId : Uuid) (periodStart periodEnd : Date) :
    Stmts env (ℚ × List SubPeriodReturn) := do
  let days ← query fun db => .ok (boundaries db customerId periodStart periodEnd)
  let rows ← subPeriodReturns env customerId (pairwise days)
  let twr ← compute env (link rows)
  return (twr, rows)

/-! ### Publication -/

/-- The loop of `_current_holdings`. -/
def holdings (asOfDate : Date) : List (Uuid × Units) → Stmts env (List Holding)
  | [] => return []
  | (securityId, units) :: positions => do
    let symbol ← query fun db => .ok ((db.securities.find securityId).map (·.symbol))
    let closePrice ← query fun db =>
      .ok ((latestConfirmed db securityId asOfDate).map (·.closePrice))
    let rest ← holdings asOfDate positions
    return { securityId, symbol, quantity := units, closePrice } :: rest

/-- `publish`. -/
def publish (customerId : Uuid) (periodStart periodEnd : Date) : Stmts env PublishedSnapshot := do
  let (twr, subPeriods) ← computeTwr env customerId periodStart periodEnd
  let positions ← query fun db => positionUnits db customerId periodEnd
  let holdings ← holdings env periodEnd (positions.filter (·.2 ≠ 0))
  let snapshot : PublishedSnapshot := {
    customerId, periodStart, periodEnd, publishWatermark := env.transactionStart, twr
    balance := (subPeriods.getLast?.map (·.valueEnd)).getD 0
    holdings, publishedAt := env.transactionStart }
  writeOther env (addPublishedSnapshot snapshot) (frames_of fun db u db' h => by
    rw [(addPublishedSnapshot_ok.mp h).2])
  return snapshot

/-! ### Restatement -/

/-- The loop of `derive`. -/
def rowsAsOf (customerId : Uuid) (cutoff : Instant) :
    List (Date × Date) → Stmts env (List SubPeriodReturn)
  | [] => return []
  | (vBegin, vEnd) :: windows => do
    let row ← query fun db =>
      ofOption (asOfForSubPeriod db customerId vBegin vEnd cutoff) Error.snapshotDerivation
    let rows ← rowsAsOf customerId cutoff windows
    return row :: rows

/-- `derive`. -/
def derive (customerId : Uuid) (periodStart periodEnd : Date) (cutoff : Instant) :
    Stmts env (ℚ × Money) := do
  let days ← query fun db => .ok (boundaries db customerId periodStart periodEnd)
  let rows ← rowsAsOf env customerId cutoff (pairwise days)
  let twr ← compute env (link rows)
  return (twr, (rows.getLast?.map (·.valueEnd)).getD 0)

/-- `cross_check`. -/
def crossCheck (snapshot : PublishedSnapshot) : Stmts env Unit := do
  let (twr, balance) ← derive env snapshot.customerId snapshot.periodStart snapshot.periodEnd
    snapshot.publishWatermark
  compute env (check (twr = snapshot.twr ∧ balance = snapshot.balance) .snapshotCrossCheckFailed)

/-- `check_and_disclose`. -/
def checkAndDisclose (customerId : Uuid) (periodStart periodEnd : Date)
    (restatementEventId : Uuid) : Stmts env Unit := do
  match ← query fun db => succeededChargeForPeriod db customerId periodStart periodEnd with
  | none => return ()
  | some charge =>
    writeOther env
      (addFeeRestatementDisclosure { customerId, feeChargeId := charge.id, restatementEventId })
      (frames_of fun db u db' h => by rw [addFeeRestatementDisclosure_ok.mp h])

/-- The body of `_relink_and_cross_check` for one snapshot. -/
def relinkSnapshot (disclose : Bool) (customerId restatementEventId : Uuid)
    (relinked : List (Date × Date)) (snapshot : PublishedSnapshot) : Stmts env Unit := do
  whenever ((snapshot.periodStart, snapshot.periodEnd) ∉ relinked) do
    let _ ← computeTwr env customerId snapshot.periodStart snapshot.periodEnd
  crossCheck env snapshot
  whenever disclose do
    checkAndDisclose env customerId snapshot.periodStart snapshot.periodEnd restatementEventId

/-- `_relink_and_cross_check`. -/
def relinkAndCrossCheck (disclose : Bool) (customerId restatementEventId : Uuid) :
    List PublishedSnapshot → List (Date × Date) → Stmts env Unit
  | [], _ => return ()
  | snapshot :: snapshots, relinked => do
    relinkSnapshot env disclose customerId restatementEventId relinked snapshot
    relinkAndCrossCheck disclose customerId restatementEventId snapshots
      ((snapshot.periodStart, snapshot.periodEnd) :: relinked)

/-- A restatement event. -/
def addRestatementEvent (event : RestatementEvent) : Stmts env Unit :=
  writeOther env (Models.addRestatementEvent event)
    (frames_of fun db u db' h => by rw [addRestatementEvent_ok.mp h])

/-- The recomputation of one window, with its restatement event. -/
def restateWindow (customerId : Uuid) (triggerType : RestatementTriggerType)
    (source : SourceEvent) (window : SubPeriodReturn) : Stmts env Unit := do
  addRestatementEvent env {
    id := env.uuid4 (.restatementEvent source window.subPeriodStart window.subPeriodEnd)
    customerId, affectedPeriodStart := window.subPeriodStart
    affectedPeriodEnd := window.subPeriodEnd, triggerType, triggerSourceEvent := source }
  let _ ← subPeriodReturn env customerId window.subPeriodStart window.subPeriodEnd

/-- `restate`. -/
def restate (disclose : Bool) (customerId : Uuid) (affectedDate : Date)
    (triggerType : RestatementTriggerType) (source : SourceEvent) : Stmts env Unit := do
  match ← query fun db => .ok (containing db customerId affectedDate) with
  | [] =>
    addRestatementEvent env {
      id := env.uuid4 (.restatementEvent source affectedDate affectedDate)
      customerId, affectedPeriodStart := affectedDate, affectedPeriodEnd := affectedDate
      triggerType, triggerSourceEvent := source }
  | window :: rest =>
    each (restateWindow env customerId triggerType source) (window :: rest)
    let touched ← query fun db => .ok (listTouching db customerId affectedDate)
    relinkAndCrossCheck env disclose customerId
      (env.uuid4 (.restatementEvent source window.subPeriodStart window.subPeriodEnd)) touched []

/-- `inject_corrected_price`. -/
def injectCorrectedPrice (securityId : Uuid) (marketDate : Date) (newClose : Price) :
    Stmts env Unit := do
  writeOther env (addDailyClose (closeAt env securityId marketDate newClose))
    (frames_of fun db u db' h => by rw [(addDailyClose_ok.mp h).2])
  let customers ← query fun db => .ok (Lots.listCustomersHolding db securityId)
  each (fun customerId => restate env false customerId marketDate .correctedClose
    (.simulatedCorrectedClose securityId marketDate newClose)) customers

/-! ### On their own -/

section Serial
variable {env}

theorem read_bind_read {α β : Type} (f : Database → Except Error α)
    (g : α → Database → Except Error β) :
    (Transaction.read f >>= fun a => Transaction.read (g a) : Tx β) =
      Transaction.read fun db => f db >>= fun a => g a db := by
  funext db
  show (Transaction.read f db >>= fun r => Transaction.read (g r.1) r.2) =
    Except.map _ (f db >>= fun a => g a db)
  unfold Transaction.read
  cases f db with
  | error e => rfl
  | ok a => rfl

theorem read_bind_eq {α β : Type} {f : Database → α} {k : α → Tx β} {y : Tx β}
    (h : ∀ db, k (f db) db = y db) : (Transaction.read fun db => .ok (f db)) >>= k = y := funext h

theorem read_bind_congr {α β : Type} {f : Database → Except Error α} {k k' : α → Tx β}
    (h : ∀ db a, f db = .ok a → k a = k' a) :
    Transaction.read f >>= k = Transaction.read f >>= k' := by
  funext db
  show (Transaction.read f db >>= fun r => k r.1 r.2) = Transaction.read f db >>= fun r => k' r.1 r.2
  unfold Transaction.read
  cases hf : f db with
  | error e => rfl
  | ok a => exact congrFun (h db a hf) db

theorem pure_eq_read {α : Type} (a : α) : (pure a : Tx α) = Transaction.read fun _ => .ok a := rfl

@[simp] theorem serial_compute {α : Type} (x : Except Error α) :
    (compute env x).serial = Transaction.lift x := serial_query _

@[simp] theorem serial_writeOther (x : Tx Unit) (h : Frames (·.subPeriodReturns) x) :
    (writeOther env x h).serial = x := (serial_execute _).trans (write_after x)

@[simp] theorem serial_addSubPeriodReturn (row : SubPeriodReturn) :
    (addSubPeriodReturn env row).serial =
      Models.addSubPeriodReturn { row with recordedAt := env.transactionStart } :=
  (serial_execute _).trans (write_after _)

theorem serial_addPositions (asOfDate : Date) : ∀ positions book,
    (addPositions env asOfDate positions book).serial =
      Transaction.read fun db => Valuation.addPositions db asOfDate positions book
  | [], book => rfl
  | (securityId, units) :: positions, book => by
    unfold addPositions Valuation.addPositions
    split_ifs with hzero
    · exact serial_addPositions asOfDate positions book
    · rw [serial_bind, serial_query]
      refine read_bind_eq fun db => ?_
      rw [Transaction.read]
      cases latestConfirmed db securityId asOfDate with
      | none => exact congrFun (serial_addPositions asOfDate positions _) db
      | some close =>
        simp only [serial_bind, serial_compute, Transaction.lift,
          serial_addPositions asOfDate positions, read_bind_read]
        rfl

theorem serial_valueBook (customerId : Uuid) (asOfDate : Date) :
    (valueBook env customerId asOfDate).serial =
      Transaction.read fun db => Valuation.valueBook db customerId asOfDate := by
  simp only [valueBook, serial_bind, serial_query, serial_addPositions, read_bind_read]
  rfl

theorem serial_currentSubPeriod (customerId : Uuid) (vBegin vEnd : Date) :
    (currentSubPeriod env customerId vBegin vEnd).serial =
      Transaction.read fun db => Valuation.currentSubPeriod db env customerId vBegin vEnd := by
  simp only [currentSubPeriod, serial_bind, serial_query, serial_valueBook, serial_compute,
    serial_pure, pure_eq_read, Transaction.lift, read_bind_read]
  refine congrArg Transaction.read (funext fun db => ?_)
  unfold Valuation.currentSubPeriod
  refine bind_congr fun beginValuation => bind_congr fun endValuation =>
    bind_congr fun flowAmount => ?_
  split_ifs
  · rfl
  · simp only [bind_assoc]
    rfl

theorem serial_subPeriodReturn (customerId : Uuid) (vBegin vEnd : Date) :
    (subPeriodReturn env customerId vBegin vEnd).serial =
      Valuation.subPeriodReturn env customerId vBegin vEnd := by
  simp only [subPeriodReturn, Valuation.subPeriodReturn, serial_bind, serial_currentSubPeriod,
    serial_lookup]
  refine read_bind_congr fun db row hrow => ?_
  -- the row that is computed has the stamp already
  have hstamped : ({ row with recordedAt := env.transactionStart } : SubPeriodReturn) = row := by
    rw [← (currentSubPeriod_ok hrow).2.2.2]
  have hmatch : ∀ existing : Option SubPeriodReturn,
      Statements.serial (match existing with
        | some e => pure e
        | none => do
          addSubPeriodReturn env row
          pure row) =
      (match existing with
        | some e => pure e
        | none => do
          Models.addSubPeriodReturn row
          pure row : Tx SubPeriodReturn) := by
    intro existing
    cases existing with
    | some e => rfl
    | none => rw [serial_bind, serial_addSubPeriodReturn, hstamped, serial_pure]
  refine read_bind_eq fun db => ?_
  rw [ofKey_eq]
  exact congrFun (hmatch _) db

theorem serial_subPeriodReturns (customerId : Uuid) : ∀ windows,
    (subPeriodReturns env customerId windows).serial =
      Valuation.subPeriodReturns env customerId windows
  | [] => rfl
  | (vBegin, vEnd) :: windows => by
    simp only [subPeriodReturns, Valuation.subPeriodReturns, serial_bind, serial_subPeriodReturn,
      serial_subPeriodReturns customerId windows, serial_pure]

theorem serial_computeTwr (customerId : Uuid) (periodStart periodEnd : Date) :
    (computeTwr env customerId periodStart periodEnd).serial =
      Valuation.computeTwr env customerId periodStart periodEnd := by
  simp only [computeTwr, Valuation.computeTwr, serial_bind, serial_query, serial_subPeriodReturns,
    serial_compute, serial_pure]

theorem serial_holdings (asOfDate : Date) : ∀ positions,
    (holdings env asOfDate positions).serial = Transaction.read fun db => .ok (positions.map
      fun position => holdingOf db asOfDate position.1 position.2)
  | [] => rfl
  | (securityId, units) :: positions => by
    simp only [holdings, serial_bind, serial_query, serial_holdings asOfDate positions, serial_pure,
      pure_eq_read, read_bind_read]
    rfl

/-- **`publish`**, run without interruption. -/
theorem serial_publish (customerId : Uuid) (periodStart periodEnd : Date) :
    (publish env customerId periodStart periodEnd).serial =
      Restatement.publish env customerId periodStart periodEnd := by
  simp only [publish, Restatement.publish, serial_bind, serial_computeTwr, serial_query,
    serial_holdings, serial_writeOther, serial_pure]
  refine bind_congr fun figures => ?_
  rw [← bind_assoc, read_bind_read]
  rfl

theorem serial_rowsAsOf (customerId : Uuid) (cutoff : Instant) : ∀ windows,
    (rowsAsOf env customerId cutoff windows).serial =
      Transaction.read fun db => Restatement.rowsAsOf db customerId cutoff windows
  | [] => rfl
  | (vBegin, vEnd) :: windows => by
    simp only [rowsAsOf, serial_bind, serial_query, serial_rowsAsOf customerId cutoff windows,
      serial_pure, pure_eq_read, read_bind_read]
    rfl

theorem serial_crossCheck (snapshot : PublishedSnapshot) :
    (crossCheck env snapshot).serial = Transaction.read fun db => Restatement.crossCheck db snapshot := by
  simp only [crossCheck, derive, serial_bind, serial_query, serial_rowsAsOf, serial_compute,
    serial_pure, pure_eq_read, Transaction.lift, read_bind_read]
  rfl

theorem serial_checkAndDisclose (customerId : Uuid) (periodStart periodEnd : Date) (id : Uuid) :
    (checkAndDisclose env customerId periodStart periodEnd id).serial =
      Restatement.checkAndDisclose customerId periodStart periodEnd id := by
  simp only [checkAndDisclose, Restatement.checkAndDisclose, serial_bind, serial_query]
  refine bind_congr fun charge => ?_
  cases charge with
  | none => rfl
  | some charge => exact serial_writeOther _ _

theorem serial_relinkAndCrossCheck (disclose : Bool) (customerId id : Uuid) :
    ∀ snapshots relinked,
      (relinkAndCrossCheck env disclose customerId id snapshots relinked).serial =
        Restatement.relinkAndCrossCheck env disclose customerId id snapshots relinked
  | [], _ => rfl
  | snapshot :: snapshots, relinked => by
    simp only [relinkAndCrossCheck, Restatement.relinkAndCrossCheck, relinkSnapshot,
      Restatement.relinkSnapshot, serial_bind, serial_whenever, serial_computeTwr,
      serial_crossCheck, serial_checkAndDisclose, serial_pure,
      serial_relinkAndCrossCheck disclose customerId id snapshots]

theorem serial_restateWindow (customerId : Uuid) (triggerType : RestatementTriggerType)
    (source : SourceEvent) (window : SubPeriodReturn) :
    (restateWindow env customerId triggerType source window).serial =
      Restatement.restateWindow env customerId triggerType source window := by
  simp only [restateWindow, Restatement.restateWindow, addRestatementEvent, serial_bind,
    serial_writeOther, serial_subPeriodReturn, serial_pure]

theorem serial_restate (disclose : Bool) (customerId : Uuid) (affectedDate : Date)
    (triggerType : RestatementTriggerType) (source : SourceEvent) :
    (restate env disclose customerId affectedDate triggerType source).serial =
      Restatement.restate env disclose customerId affectedDate triggerType source := by
  simp only [restate, Restatement.restate, serial_bind, serial_query]
  refine bind_congr fun windows => ?_
  cases windows with
  | nil => exact serial_writeOther _ _
  | cons window rest =>
    simp only [serial_bind, serial_each, serial_restateWindow, serial_query,
      serial_relinkAndCrossCheck]

/-- **`inject_corrected_price`**, run without interruption. -/
theorem serial_injectCorrectedPrice (securityId : Uuid) (marketDate : Date) (newClose : Price) :
    (injectCorrectedPrice env securityId marketDate newClose).serial =
      Restatement.injectCorrectedPrice env securityId marketDate newClose := by
  simp only [injectCorrectedPrice, Restatement.injectCorrectedPrice, serial_bind, serial_writeOther,
    serial_query, serial_each, serial_restate]

end Serial

end Trueup.Restatement.Interleaved
