import Trueup.Models.OpenedAccount
import Trueup.Reconciliation.ReconciliationService

/-! # The custodian file simulator

`integrations/fake/custodian_file_adapter.py`: the files are generated from the internal state, with
the positions that have been tampered with and the dividends that have been injected.

`simulator_and_reconciler_agree`: a reconciliation of these files, in the state they were generated
from, opens the breaks that were injected and no others; on a day without trading it does
nothing. -/

namespace Trueup.Reconciliation

open Trueup.Core Trueup.Models Trueup.Lib Trueup.Lib.Transaction Trueup.Ledger

/-- `_ENTRY_TYPE_TO_CUSTODIAN_TRANSACTION_TYPE`. -/
def custodianTransactionType : JournalEntryType → Option CustodianTransactionType
  | .tradeBuy => some .trade
  | .tradeSell => some .trade
  | .deposit => some .deposit
  | .withdrawal => some .withdrawal
  | .dividend => some .dividend
  | .feeAdjustment => some .fee
  | .split | .correction | .washSaleAdjustment => none

/-- `CustodianFileSimulatorAdapter`: what has been injected. -/
structure CustodianFileSimulator where
  tamperedPositions : Dict PositionKey Units := ∅
  lateDividends : List CustodianTransactionRow := []

namespace CustodianFileSimulator

/-- `inject_tampered_position`. -/
def injectTamperedPosition (simulator : CustodianFileSimulator) (customerId securityId : Uuid)
    (wrongQuantity : Units) : CustodianFileSimulator :=
  { simulator with
    tamperedPositions := Dict.put simulator.tamperedPositions (customerId, securityId) wrongQuantity }

/-- `inject_late_dividend`, with the id that is drawn for it. -/
def injectLateDividend (simulator : CustodianFileSimulator) (custodianTransactionId : String)
    (customerId securityId : Uuid) (amount : Money) (effectiveDate : Date) : CustodianFileSimulator :=
  { simulator with
    lateDividends := simulator.lateDividends ++ [{
      custodianTransactionId
      customerId := some customerId
      securityId := some securityId
      transactionType := .dividend
      amountMoney := amount
      quantity := none
      effectiveDate }] }

/-- `CustodianPositionRow(...)` for a key. -/
def positionRow (marketDate : Date) (key : PositionKey) (quantity : Units) : CustodianPositionRow :=
  ⟨key.1, key.2, quantity, marketDate⟩

/-- The `rows` of `_generate_positions`. -/
def positionRowsOf (simulator : CustodianFileSimulator) (marketDate : Date)
    (internal : Dict PositionKey Units) : Dict PositionKey CustodianPositionRow :=
  Dict.update
    (.ofList (internal.rows.map fun (key, quantity) => (key, positionRow marketDate key quantity)))
    (positionRow marketDate) simulator.tamperedPositions.rows

/-- `_generate_positions`. -/
def generatePositions (simulator : CustodianFileSimulator) (db : Database) (marketDate : Date) :
    Except Error (List CustodianPositionRow) := do
  let internal ← readInternalPositions db marketDate
  return (simulator.positionRowsOf marketDate internal).rows.map Prod.snd

/-- `_generate_cash`. -/
def generateCash (db : Database) (marketDate : Date) : Except Error (List CustodianCashRow) :=
  (readCustomerIds db).mapM fun customerId => do
    return ⟨customerId, ← settledCash db customerId, marketDate⟩

/-- The row of an internal transaction. -/
def transactionRow (sourceEventId : String) (snapshot : InternalTransactionSnapshot) :
    Except Error CustodianTransactionRow := do
  let transactionType ← ofOption (custodianTransactionType snapshot.entryType) .keyError
  return {
    custodianTransactionId := sourceEventId
    customerId := snapshot.customerId
    securityId := snapshot.securityId
    transactionType
    amountMoney := snapshot.amountMoney
    quantity := snapshot.quantity
    effectiveDate := snapshot.effectiveDate }

/-- `_generate_transactions`. -/
def generateTransactions (sourceEventId : Uuid → String) (db : Database) (marketDate : Date) :
    Except Error (List CustodianTransactionRow) := do
  let internal ← readInternalTransactions sourceEventId db marketDate
  internal.rows.mapM fun (id, snapshot) => transactionRow id snapshot

/-- `fetch_files`. -/
def fetchFiles (simulator : CustodianFileSimulator) (sourceEventId : Uuid → String) (db : Database)
    (marketDate : Date) : Except Error CustodianFileSet := do
  let positions ← simulator.generatePositions db marketDate
  let cash ← generateCash db marketDate
  let transactions ← generateTransactions sourceEventId db marketDate
  return {
    positions
    cash
    transactions := transactions ++ simulator.lateDividends
    isSimulated := true }

end CustodianFileSimulator

/-! ### Positions -/

open CustodianFileSimulator

section Positions
variable (simulator : CustodianFileSimulator) (marketDate : Date) (internal : Dict PositionKey Units)

theorem get?_positionRowsOf (key : PositionKey) :
    Dict.get? (simulator.positionRowsOf marketDate internal) key =
      ((Dict.get? simulator.tamperedPositions key).or (Dict.get? internal key)).map
        (positionRow marketDate key) := by
  have hkeys : ((internal.rows.map fun pair => (pair.1, positionRow marketDate pair.1 pair.2)).map
      Prod.fst).Nodup := by
    rw [List.map_map]
    exact internal.nodup
  have hbase : Dict.get? (Dict.ofList (internal.rows.map fun pair =>
      (pair.1, positionRow marketDate pair.1 pair.2))) key =
        (Dict.get? internal key).map (positionRow marketDate key) := by
    ext row
    rw [Dict.get?_ofList hkeys, List.mem_map, Option.map_eq_some_iff]
    constructor
    · rintro ⟨⟨_, quantity⟩, hmem, heq⟩
      cases heq
      exact ⟨quantity, Dict.get?_eq_some.mpr hmem, rfl⟩
    · rintro ⟨quantity, hget, rfl⟩
      exact ⟨(key, quantity), Dict.get?_eq_some.mp hget, rfl⟩
  unfold positionRowsOf
  rw [Dict.get?_update_rows, hbase]
  cases Dict.get? simulator.tamperedPositions key <;> rfl

/-- What `_match_positions` reads back from the file. -/
def positionsFromFile (positions : List CustodianPositionRow) : Dict PositionKey Units :=
  .ofList (positions.map fun row => ((row.customerId, row.securityId), row.quantity))

theorem get?_positionsFromFile (key : PositionKey) :
    Dict.get? (positionsFromFile ((simulator.positionRowsOf marketDate internal).rows.map Prod.snd))
      key = (Dict.get? simulator.tamperedPositions key).or (Dict.get? internal key) := by
  -- each row stands under its own key
  have hrow : ∀ pair ∈ (simulator.positionRowsOf marketDate internal).rows,
      ∃ quantity, pair.2 = positionRow marketDate pair.1 quantity ∧
        (Dict.get? simulator.tamperedPositions pair.1).or (Dict.get? internal pair.1) =
          some quantity := by
    intro pair hpair
    have hget := Dict.get?_eq_some.mpr hpair
    rw [get?_positionRowsOf, Option.map_eq_some_iff] at hget
    obtain ⟨quantity, hquantity, heq⟩ := hget
    exact ⟨quantity, heq.symm, hquantity⟩
  have hpairs : (((simulator.positionRowsOf marketDate internal).rows.map Prod.snd).map
      fun row => ((row.customerId, row.securityId), row.quantity)).map Prod.fst =
        (simulator.positionRowsOf marketDate internal).keys := by
    rw [List.map_map, List.map_map]
    refine List.map_congr_left fun pair hpair => ?_
    obtain ⟨quantity, heq, -⟩ := hrow pair hpair
    simp only [Function.comp_apply, heq]
    rfl
  ext quantity
  unfold positionsFromFile
  rw [Dict.get?_ofList (hpairs ▸ Dict.nodup_keys _), List.map_map, List.mem_map]
  constructor
  · rintro ⟨pair, hpair, heq⟩
    obtain ⟨quantity', hrow', hget⟩ := hrow pair hpair
    simp only [Function.comp_apply, hrow'] at heq
    cases heq
    exact hget
  · intro hget
    refine ⟨(key, positionRow marketDate key quantity), Dict.get?_eq_some.mp ?_, rfl⟩
    rw [get?_positionRowsOf, hget]
    rfl

end Positions

theorem nodup_unionKeys {κ : Type} [DecidableEq κ] {left right : List κ} (hleft : left.Nodup)
    (hright : right.Nodup) : (unionKeys left right).Nodup := by
  refine List.nodup_append'.mpr ⟨hleft, hright.filter _, fun key hkey hother => ?_⟩
  have hnot := (List.mem_filter.mp hother).2
  simp only [decide_eq_true_eq] at hnot
  exact hnot hkey

theorem mem_unionKeys {κ : Type} [DecidableEq κ] {left right : List κ} {key : κ} :
    key ∈ unionKeys left right ↔ key ∈ left ∨ key ∈ right := by
  unfold unionKeys
  rw [List.mem_append, List.mem_filter, decide_eq_true_eq]
  tauto

section Positions
variable {simulator : CustodianFileSimulator} {marketDate : Date} {internal : Dict PositionKey Units}
  {fileSet : CustodianFileSet}
  (hfile : fileSet.positions = (simulator.positionRowsOf marketDate internal).rows.map Prod.snd)
include hfile

theorem getD_tampered {tampered : PositionKey × Units}
    (hmem : tampered ∈ simulator.tamperedPositions.rows) :
    (positionsFromFile fileSet.positions).getD tampered.1 0 = tampered.2 := by
  unfold Dict.getD
  rw [hfile, get?_positionsFromFile, Dict.get?_eq_some.mpr hmem]
  rfl

theorem getD_untampered {key : PositionKey} (hkey : key ∉ simulator.tamperedPositions.keys) :
    (positionsFromFile fileSet.positions).getD key 0 = internal.getD key 0 := by
  unfold Dict.getD
  rw [hfile, get?_positionsFromFile, Dict.get?_eq_none.mpr (mt Dict.mem_keys.mpr hkey)]
  rfl

theorem mem_keys_positionsFromFile {key : PositionKey} (hkey : key ∈ simulator.tamperedPositions.keys) :
    key ∈ (positionsFromFile fileSet.positions).keys := by
  obtain ⟨wrong, hwrong⟩ := Option.isSome_iff_exists.mp
    (Dict.get?_isSome.mpr (Dict.mem_keys.mp hkey))
  refine Dict.mem_keys.mpr (Dict.get?_isSome.mp ?_)
  rw [hfile, get?_positionsFromFile, hwrong]
  rfl

/-- The file's keys that differ are those that have been tampered with. -/
theorem matchPositions_perm (batch : ImportBatch)
    (hwrong : ∀ tampered ∈ simulator.tamperedPositions.rows,
      tampered.2 ≠ internal.getD tampered.1 0) :
    (matchPositions internal fileSet batch).Perm (simulator.tamperedPositions.rows.map fun tampered =>
      positionMismatch batch tampered.1 (internal.getD tampered.1 0) tampered.2) := by
  set fromFile := positionsFromFile fileSet.positions with hfrom
  let mismatch : PositionKey → ReconciliationBreak := fun key =>
    positionMismatch batch key (internal.getD key 0) (fromFile.getD key 0)
  -- a key breaks when it has been tampered with
  have hbreaks : matchPositions internal fileSet batch =
      ((unionKeys internal.keys fromFile.keys).filter
        (· ∈ simulator.tamperedPositions.keys)).map mismatch := by
    rw [← List.filterMap_eq_map, List.filterMap_filter]
    refine List.filterMap_congr fun key _ => ?_
    show (if internal.getD key 0 = fromFile.getD key 0 then none else some (mismatch key)) = _
    by_cases htampered : key ∈ simulator.tamperedPositions.keys
    · obtain ⟨tampered, hmem, rfl⟩ := List.mem_map.mp htampered
      have hdiffers := hwrong tampered hmem
      rw [← getD_tampered hfile hmem] at hdiffers
      rw [if_neg hdiffers.symm, if_pos (by simpa using htampered)]
      rfl
    · rw [hfrom, getD_untampered hfile htampered, if_pos rfl, if_neg (by simpa using htampered)]
  have hexpected : (simulator.tamperedPositions.rows.map fun tampered =>
      positionMismatch batch tampered.1 (internal.getD tampered.1 0) tampered.2) =
        simulator.tamperedPositions.keys.map mismatch := by
    unfold Dict.keys
    rw [List.map_map]
    refine List.map_congr_left fun tampered hmem => ?_
    simp only [Function.comp_apply, mismatch, hfrom, getD_tampered hfile hmem]
  rw [hbreaks, hexpected]
  refine List.Perm.map _ ((List.perm_ext_iff_of_nodup ((nodup_unionKeys (Dict.nodup_keys _)
    (Dict.nodup_keys _)).filter _) (Dict.nodup_keys _)).mpr fun key => ?_)
  rw [List.mem_filter, mem_unionKeys, decide_eq_true_eq]
  exact ⟨And.right, fun htampered => ⟨Or.inr (mem_keys_positionsFromFile hfile htampered), htampered⟩⟩

end Positions

/-! ### Cash -/

theorem unionKeys_self {κ : Type} [DecidableEq κ] (keys : List κ) : unionKeys keys keys = keys := by
  unfold unionKeys
  rw [List.filter_eq_nil_iff.mpr fun key hkey => by simpa using hkey, List.append_nil]

theorem matchCash_generateCash {db : Database} {marketDate : Date} {fileSet : CustodianFileSet}
    (hcash : generateCash db marketDate = .ok fileSet.cash) (batch : ImportBatch) :
    matchCash db fileSet batch = .ok [] := by
  have hrows := mapM_ok_iff.mp hcash
  have hrow : ∀ {customerId : Uuid} {row : CustodianCashRow}, (do
      return ⟨customerId, ← settledCash db customerId, marketDate⟩ : Except Error CustodianCashRow) =
        .ok row → row.customerId = customerId ∧ settledCash db customerId = .ok row.settledCash := by
    intro customerId row hreturned
    obtain ⟨amount, hamount, heq⟩ := except_bind_ok.mp hreturned
    cases heq
    exact ⟨rfl, hamount⟩
  have hkeys : (fileSet.cash.map fun row => (row.customerId, row.settledCash)).map Prod.fst =
      readCustomerIds db := by
    rw [List.map_map, eq_comm, ← List.forall₂_eq_eq_eq, List.forall₂_map_right_iff]
    exact hrows.imp fun _ _ h => (hrow h).1.symm
  set fromFile : Dict Uuid Money :=
    .ofList (fileSet.cash.map fun row => (row.customerId, row.settledCash)) with hfrom
  have hnodup : ((fileSet.cash.map fun row => (row.customerId, row.settledCash)).map
      Prod.fst).Nodup := hkeys ▸ db.customers.nodup
  have hfromKeys : fromFile.keys = readCustomerIds db := by
    rw [hfrom, Dict.keys, Dict.rows_ofList hnodup, hkeys]
  have hcustomer : ∀ customerId ∈ readCustomerIds db, ∃ amount,
      settledCash db customerId = .ok amount ∧ fromFile.getD customerId 0 = amount := by
    intro customerId hmem
    obtain ⟨row, hfile, hreturned⟩ := exists_of_mapM_ok hcash hmem
    obtain ⟨rfl, hamount⟩ := hrow hreturned
    refine ⟨row.settledCash, hamount, ?_⟩
    have hget : Dict.get? fromFile row.customerId = some row.settledCash :=
      (Dict.get?_ofList hnodup).mpr (List.mem_map_of_mem hfile)
    unfold Dict.getD
    rw [hget]
    rfl
  unfold matchCash
  simp only [← hfrom, hfromKeys, unionKeys_self]
  refine except_bind_ok.mpr ⟨(readCustomerIds db).map fun _ => none, ?_, ?_⟩
  · rw [mapM_ok_iff, List.forall₂_map_right_iff, List.forall₂_same]
    intro customerId hmem
    obtain ⟨amount, hamount, hfile⟩ := hcustomer customerId hmem
    refine except_bind_ok.mpr ⟨amount, hamount, ?_⟩
    rw [hfile, if_pos rfl]
    rfl
  · refine (congrArg Except.ok (List.filterMap_map ..)).trans ?_
    simp

/-! ### Transactions -/

/-- The rows of the internal transactions are matched, the injected ones are not. -/
theorem matchTransactions_generateTransactions {internal : Dict String InternalTransactionSnapshot}
    {transactions lateDividends : List CustodianTransactionRow} {fileSet : CustodianFileSet}
    (hgenerated : internal.rows.mapM (fun (id, snapshot) => transactionRow id snapshot) =
      .ok transactions)
    (hfile : fileSet.transactions = transactions ++ lateDividends)
    (hfresh : ∀ row ∈ lateDividends, row.custodianTransactionId ∉ internal.keys)
    (hdistinct : (lateDividends.map (·.custodianTransactionId)).Nodup) (batch : ImportBatch) :
    matchTransactions internal fileSet batch =
      lateDividends.map (unmatchedCustodianTransaction batch) := by
  have hids : transactions.map (·.custodianTransactionId) = internal.keys := by
    rw [eq_comm, ← List.forall₂_eq_eq_eq, List.forall₂_map_right_iff, Dict.keys,
      List.forall₂_map_left_iff]
    refine (mapM_ok_iff.mp hgenerated).imp fun pair row hreturned => ?_
    obtain ⟨transactionType, -, heq⟩ := except_bind_ok.mp hreturned
    cases heq
    rfl
  have hkeys : (fileSet.transactions.map fun row => (row.custodianTransactionId, row)).map Prod.fst =
      internal.keys ++ lateDividends.map (·.custodianTransactionId) := by
    rw [hfile, List.map_map, List.map_append, ← hids]
    rfl
  have hnodup : ((fileSet.transactions.map fun row => (row.custodianTransactionId, row)).map
      Prod.fst).Nodup := by
    rw [hkeys]
    refine List.nodup_append'.mpr ⟨Dict.nodup_keys _, hdistinct, fun id hid hlate => ?_⟩
    obtain ⟨row, hrow, rfl⟩ := List.mem_map.mp hlate
    exact hfresh row hrow hid
  have hfromRows := Dict.rows_ofList hnodup
  have hfromKeys : (Dict.ofList (fileSet.transactions.map fun row =>
      (row.custodianTransactionId, row))).keys =
        internal.keys ++ lateDividends.map (·.custodianTransactionId) := by
    unfold Dict.keys at hkeys ⊢
    rw [hfromRows, hkeys]
  have hmatched : ∀ row ∈ transactions, row.custodianTransactionId ∈ internal.keys :=
    fun row hrow => hids ▸ List.mem_map_of_mem hrow
  unfold matchTransactions
  simp only [hfromRows, hfromKeys]
  rw [List.filter_eq_nil_iff (l := internal.rows) |>.mpr, List.map_nil, List.append_nil, hfile,
    List.map_append, List.filter_append, List.filter_eq_nil_iff.mpr, List.nil_append,
    List.filter_eq_self.mpr, List.map_map]
  · rfl
  · intro pair hpair
    obtain ⟨row, hrow, rfl⟩ := List.mem_map.mp hpair
    simpa using hfresh row hrow
  · intro pair hpair
    obtain ⟨row, hrow, rfl⟩ := List.mem_map.mp hpair
    simpa using hmatched row hrow
  · intro pair hpair
    have hkey : pair.1 ∈ internal.keys := List.mem_map_of_mem hpair
    simp [hkey]

/-! ### The run -/

/-- The breaks that were injected: one of each tampered position, with the internal quantity and the
wrong one, and one of each late dividend. -/
def injectedBreaks (simulator : CustodianFileSimulator) (internal : Dict PositionKey Units)
    (batch : ImportBatch) : List ReconciliationBreak :=
  (simulator.tamperedPositions.rows.map fun tampered =>
    positionMismatch batch tampered.1 (internal.getD tampered.1 0) tampered.2) ++
  simulator.lateDividends.map (unmatchedCustodianTransaction batch)

/-- **The simulator and the reconciler agree.** In every state in which files can be generated for a
day, for every set of tampered positions with a quantity different from the internal one (zero when
there is none) and of late dividends with fresh ids: on a trading day the reconciliation of these
files returns and stores, in some order, one position mismatch of each tampered key, one unmatched
custodian transaction of each dividend, and nothing else; on another day it returns no break and
stores nothing. -/
theorem simulator_and_reconciler_agree (clock : MarketClock) (sourceEventId : Uuid → String)
    (simulator : CustodianFileSimulator) (batch : ImportBatch) (db : Database)
    (tables : ReconciliationTables) (marketDate : Date) {internal : Dict PositionKey Units}
    {transactions : Dict String InternalTransactionSnapshot} {fileSet : CustodianFileSet}
    (hpositions : readInternalPositions db marketDate = .ok internal)
    (htransactions : readInternalTransactions sourceEventId db marketDate = .ok transactions)
    (hfiles : simulator.fetchFiles sourceEventId db marketDate = .ok fileSet)
    (hwrong : ∀ tampered ∈ simulator.tamperedPositions.rows,
      tampered.2 ≠ internal.getD tampered.1 0)
    (hfresh : ∀ row ∈ simulator.lateDividends, row.custodianTransactionId ∉ transactions.keys)
    (hdistinct : (simulator.lateDividends.map (·.custodianTransactionId)).Nodup) :
    (clock.calendar.isTradingDay marketDate = .ok true → ∃ breaks,
      runMorningReconciliation clock sourceEventId batch marketDate fileSet db tables = .ok (breaks,
        { custodianFileRows := tables.custodianFileRows ++ persistRawRows fileSet batch
          reconciliationBreaks := tables.reconciliationBreaks ++ breaks }) ∧
      breaks.Perm (injectedBreaks simulator internal batch)) ∧
    (clock.calendar.isTradingDay marketDate = .ok false →
      runMorningReconciliation clock sourceEventId batch marketDate fileSet db tables =
        .ok ([], tables)) := by
  obtain ⟨positions, hgeneratedPositions, hfiles⟩ := except_bind_ok.mp hfiles
  obtain ⟨cash, hgeneratedCash, hfiles⟩ := except_bind_ok.mp hfiles
  obtain ⟨generated, hgenerated, hfiles⟩ := except_bind_ok.mp hfiles
  have hfileSet : fileSet = ⟨positions, cash, generated ++ simulator.lateDividends, true⟩ := by
    cases hfiles
    rfl
  have hfilePositions : fileSet.positions =
      (simulator.positionRowsOf marketDate internal).rows.map Prod.snd := by
    unfold generatePositions at hgeneratedPositions
    rw [hpositions] at hgeneratedPositions
    rw [hfileSet]
    cases hgeneratedPositions
    rfl
  have hfileCash : generateCash db marketDate = .ok fileSet.cash := by
    rw [hfileSet]
    exact hgeneratedCash
  have hfileTransactions : fileSet.transactions = generated ++ simulator.lateDividends := by
    rw [hfileSet]
  have hrows : transactions.rows.mapM (fun (id, snapshot) => transactionRow id snapshot) =
      .ok generated := by
    unfold generateTransactions at hgenerated
    rw [htransactions] at hgenerated
    exact hgenerated
  refine ⟨fun htrading => ?_, fun hholiday => ?_⟩
  · refine ⟨_, ?_, (matchPositions_perm hfilePositions batch hwrong).append_right _⟩
    unfold runMorningReconciliation
    rw [htrading, hpositions, htransactions,
      ← matchTransactions_generateTransactions hrows hfileTransactions hfresh hdistinct batch]
    refine except_bind_ok.mpr ⟨true, rfl, ?_⟩
    rw [if_pos rfl]
    refine except_bind_ok.mpr ⟨internal, rfl, except_bind_ok.mpr
      ⟨[], matchCash_generateCash hfileCash batch, except_bind_ok.mpr ⟨transactions, rfl, ?_⟩⟩⟩
    rw [List.append_nil]
    rfl
  · unfold runMorningReconciliation
    rw [hholiday]
    rfl

/-- A customer who has bought 10 shares of security 7 for 1000 on the first day. -/
def boughtAccount : Database := { openedAccount 1 with
  journalEntries := ⟨[⟨1, .tradeBuy, 0,
    .tradeBuyFill 1 7 "execution" (shares 10) (dollarsPerShare 100), none, none⟩], by decide⟩
  postings := [⟨1, ⟨some 1, .positionUnits, some 7⟩, .units (shares 10)⟩,
    ⟨1, ⟨some 1, .positionCost, some 7⟩, .money (dollars 1000)⟩,
    ⟨1, .ofCustomer 1 .cash, .money (dollars 1000).neg⟩] }

/-- One share less of security 7, five shares of another, and a dividend. -/
def threeInjections : CustodianFileSimulator :=
  ((CustodianFileSimulator.injectTamperedPosition {} 1 7 (shares 9)).injectTamperedPosition 1 8
    (shares 5)).injectLateDividend "simulated-dividend" 1 7 (dollars 3) 0

/-- What the simulator generates from the account on the first day. -/
def injectedFiles : CustodianFileSet where
  positions := [⟨1, 7, shares 9, 0⟩, ⟨1, 8, shares 5, 0⟩]
  cash := [⟨1, (dollars 1000).neg, 0⟩]
  transactions := [⟨"buy", some 1, some 7, .trade, 0, some (shares 10), 0⟩,
    ⟨"simulated-dividend", some 1, some 7, .dividend, dollars 3, none, 0⟩]
  isSimulated := true

/-- On the first day the reconciliation opens the three breaks that were injected. -/
theorem simulator_and_reconciler_agree_three :
    ∃ breaks, runMorningReconciliation openedClock (fun _ => "buy") ⟨1, 0⟩ 0 injectedFiles
        boughtAccount ⟨[], []⟩ =
          .ok (breaks, ⟨persistRawRows injectedFiles ⟨1, 0⟩, breaks⟩) ∧
      breaks.Perm [positionMismatch ⟨1, 0⟩ (1, 7) (shares 10) (shares 9),
        positionMismatch ⟨1, 0⟩ (1, 8) 0 (shares 5),
        unmatchedCustodianTransaction ⟨1, 0⟩ ⟨"simulated-dividend", some 1, some 7, .dividend, dollars 3,
          none, 0⟩] := by
  have hpositions : readInternalPositions boughtAccount 0 =
      .ok ⟨[((1, 7), shares 10)], by decide⟩ := by decide +kernel
  have htransactions : readInternalTransactions (fun _ => "buy") boughtAccount 0 =
      .ok ⟨[("buy", ⟨1, .tradeBuy, some 1, some 7, 0, some (shares 10), 0⟩)], by decide⟩ := by
    decide +kernel
  have hfiles : threeInjections.fetchFiles (fun _ => "buy") boughtAccount 0 = .ok injectedFiles := by
    decide +kernel
  exact (simulator_and_reconciler_agree openedClock (fun _ => "buy") threeInjections ⟨1, 0⟩
    boughtAccount ⟨[], []⟩ 0 hpositions htransactions hfiles (by decide) (by decide)
    (by decide)).1 (by decide)

end Trueup.Reconciliation
