import Trueup.Reconciliation.Simulator
import Trueup.Valuation.BookValue

/-! # What a reconciliation without breaks says

The comparison is by key: a file becomes a dictionary, in which the last row of a key stands for the
key, and a transaction is looked up by its id alone.

* `getD_readInternalPositions`: the internal quantity of a key is what the position postings add up
  to, zero for a key without any.
* `no_break_iff`: a reconciliation opens no break exactly when the last row of each key of the
  positions and cash files agrees with the internal figure, the keys without a row have the internal
  figure zero, and the ids of the transactions file are those of the day's internal entries. -/

namespace Trueup.Reconciliation

open Trueup.Core Trueup.Models Trueup.Lib Trueup.Lib.Transaction Trueup.Ledger Trueup.Valuation

/-! ### The internal positions -/

theorem mem_positionRows {db : Database} {marketDate : Date}
    {rows : List ((Option Uuid × Option Uuid) × Units)} (h : positionRows db marketDate = .ok rows) :
    (rows.map Prod.fst).Nodup ∧
      (∀ (key : PositionKey) units, ((some key.1, some key.2), units) ∈ rows →
        units.quanta = ledgerUnits db key.1 marketDate key.2) ∧
      ∀ key : PositionKey, ledgerUnits db key.1 marketDate key.2 ≠ 0 →
        ∃ units, ((some key.1, some key.2), units) ∈ rows := by
  have hfilter : ∀ key : PositionKey, ((db.postings.filter fun p =>
      decide (p.account.role = .positionUnits) && isEffectiveBy db marketDate p).filter fun p =>
        (p.account.customerId, p.account.securityId) = (some key.1, some key.2)) =
      (db.postings.filter fun p => isUnitsOf key.1 p && isEffectiveBy db marketDate p).filter
        (·.account.securityId = some key.2) := fun key => by
    rw [List.filter_filter, List.filter_filter]
    refine List.filter_congr fun p _ => ?_
    simp only [isUnitsOf, Prod.mk.injEq, Bool.decide_and]
    cases decide (p.account.customerId = some key.1) <;> simp [Bool.and_comm]
  set postings := db.postings.filter fun p =>
    decide (p.account.role = .positionUnits) && isEffectiveBy db marketDate p with hpostings
  have hcolumns : rows.map Prod.fst =
      (postings.map fun p => (p.account.customerId, p.account.securityId)).dedup := by
    rw [eq_comm, ← List.forall₂_eq_eq_eq, List.forall₂_map_right_iff]
    refine (mapM_ok_iff.mp h).imp fun columns row hrow => ?_
    obtain ⟨units, -, heq⟩ := except_bind_ok.mp hrow
    cases heq
    rfl
  refine ⟨hcolumns ▸ List.nodup_dedup _, fun key units hmem => ?_, fun key hne => ?_⟩
  · obtain ⟨columns, -, hrow⟩ := mem_of_mapM_ok h hmem
    obtain ⟨units, hunits, heq⟩ := except_bind_ok.mp hrow
    cases heq
    rw [ledgerUnits, ← hfilter]
    exact (QuantizedDecimal.ofSum_ok (by norm_num)).mp hunits
  · have hsome : (postings.filter fun p =>
        (p.account.customerId, p.account.securityId) = (some key.1, some key.2)) ≠ [] := fun hnil =>
      hne (by rw [ledgerUnits, ← hfilter, hnil]; rfl)
    obtain ⟨p, hp⟩ := List.exists_mem_of_ne_nil _ hsome
    rw [List.mem_filter, decide_eq_true_eq] at hp
    have hcolumn : (some key.1, some key.2) ∈ rows.map Prod.fst := by
      rw [hcolumns, List.mem_dedup, ← hp.2]
      exact List.mem_map_of_mem (f := fun p : Posting => (p.account.customerId, p.account.securityId))
        hp.1
    obtain ⟨⟨_, units⟩, hmem, rfl⟩ := List.mem_map.mp hcolumn
    exact ⟨units, hmem⟩

/-- The entry that a row of the positions makes, when it has both columns and is not zero. -/
def positionPair (row : (Option Uuid × Option Uuid) × Units) : Option (PositionKey × Units) :=
  match row.1 with
  | (some customerId, some securityId) =>
    if row.2 ≠ 0 then some ((customerId, securityId), row.2) else none
  | _ => none

theorem positionPair_eq_some {row : (Option Uuid × Option Uuid) × Units} {pair : PositionKey × Units}
    (h : positionPair row = some pair) : row = ((some pair.1.1, some pair.1.2), pair.2) ∧ pair.2 ≠ 0 := by
  obtain ⟨⟨_ | c, _ | s⟩, u⟩ := row
  · cases h
  · cases h
  · cases h
  · unfold positionPair at h
    dsimp only at h
    split_ifs at h with hzero
    cases h
    exact ⟨rfl, hzero⟩

theorem getD_readInternalPositions {db : Database} {marketDate : Date}
    {internal : Dict PositionKey Units} (h : readInternalPositions db marketDate = .ok internal)
    (key : PositionKey) : (internal.getD key 0).quanta = ledgerUnits db key.1 marketDate key.2 := by
  obtain ⟨rows, hrows, heq⟩ := except_bind_ok.mp h
  obtain ⟨hnodup, hsum, hhas⟩ := mem_positionRows hrows
  set pairs : List (PositionKey × Units) := rows.filterMap positionPair with hpairs
  have hmem : ∀ pair, pair ∈ pairs ↔ ((some pair.1.1, some pair.1.2), pair.2) ∈ rows ∧ pair.2 ≠ 0 := by
    intro pair
    rw [hpairs, List.mem_filterMap]
    constructor
    · rintro ⟨row, hrow, hpair⟩
      obtain ⟨rfl, hzero⟩ := positionPair_eq_some hpair
      exact ⟨hrow, hzero⟩
    · rintro ⟨hrow, hzero⟩
      exact ⟨_, hrow, if_pos hzero⟩
  have hkeys : (pairs.map Prod.fst).Nodup := by
    rw [List.Nodup, List.pairwise_map] at hnodup ⊢
    rw [hpairs, List.pairwise_filterMap]
    refine hnodup.imp fun hne pair hpair pair' hpair' heq => hne ?_
    rw [(positionPair_eq_some hpair).1, (positionPair_eq_some hpair').1, heq]
  obtain rfl : Dict.ofList pairs = internal := by
    cases heq
    rfl
  have hget : ∀ units, Dict.get? (Dict.ofList pairs) key = some units ↔ (key, units) ∈ pairs :=
    fun units => Dict.get?_ofList hkeys
  by_cases hzero : ledgerUnits db key.1 marketDate key.2 = 0
  · rw [hzero]
    cases hfound : Dict.get? (Dict.ofList pairs) key with
    | none => rw [Dict.getD, hfound]; rfl
    | some units =>
      obtain ⟨hrow, hne⟩ := (hmem _).mp ((hget units).mp hfound)
      refine absurd (QuantizedDecimal.ext ?_) hne
      exact (hsum key units hrow).trans hzero
  · obtain ⟨units, hrow⟩ := hhas key hzero
    have hunits := hsum key units hrow
    have hne : units ≠ 0 := fun heq => hzero (hunits ▸ heq ▸ rfl)
    rw [Dict.getD, (hget units).mpr ((hmem (key, units)).mpr ⟨hrow, hne⟩)]
    exact hunits

/-! ### The loops -/

/-- The key of a positions row. -/
def CustodianPositionRow.key (row : CustodianPositionRow) : PositionKey :=
  (row.customerId, row.securityId)

/-- No position breaks when the last row of each key has the internal quantity and the other keys
have none. -/
theorem matchPositions_agrees {db : Database} {marketDate : Date} {internal : Dict PositionKey Units}
    (hinternal : readInternalPositions db marketDate = .ok internal) {fileSet : CustodianFileSet}
    {batch : ImportBatch} : matchPositions internal fileSet batch = [] ↔
      (∀ row, Dict.LastOfKey CustodianPositionRow.key fileSet.positions row →
        row.quantity.quanta = ledgerUnits db row.key.1 marketDate row.key.2) ∧
      ∀ key : PositionKey, (∀ row ∈ fileSet.positions, row.key ≠ key) → ledgerUnits db key.1 marketDate key.2 = 0 := by
  have hloop : matchPositions internal fileSet batch = [] ↔
      ∀ key ∈ unionKeys internal.keys (positionsFromFile fileSet.positions).keys,
        internal.getD key 0 = (positionsFromFile fileSet.positions).getD key 0 := by
    unfold matchPositions
    rw [List.filterMap_eq_nil_iff]
    refine forall₂_congr fun key _ => ?_
    dsimp only
    rw [ite_eq_left_iff]
    exact ⟨fun h => by_contra fun hne => by simpa using h hne, fun h hne => absurd h hne⟩
  have hall : matchPositions internal fileSet batch = [] ↔
      ∀ key, ((positionsFromFile fileSet.positions).getD key 0).quanta =
        ledgerUnits db key.1 marketDate key.2 := by
    rw [hloop]
    simp only [QuantizedDecimal.ext_iff, getD_readInternalPositions hinternal]
    refine ⟨fun h key => ?_, fun h key _ => (h key).symm⟩
    by_cases hkey : key ∈ unionKeys internal.keys (positionsFromFile fileSet.positions).keys
    · exact (h key hkey).symm
    · -- a key on neither side is zero on both
      rw [mem_unionKeys, not_or] at hkey
      rw [← getD_readInternalPositions hinternal, Dict.getD, Dict.getD,
        Dict.get?_eq_none.mpr (mt Dict.mem_keys.mpr hkey.1),
        Dict.get?_eq_none.mpr (mt Dict.mem_keys.mpr hkey.2)]
  rw [hall]
  refine (Dict.getD_comprehension_iff (fun row : CustodianPositionRow => row.quantity)
    fun (key : PositionKey) units => units.quanta = ledgerUnits db key.1 marketDate key.2).trans
    (and_congr_right fun _ => forall₂_congr fun key _ => ?_)
  exact eq_comm

/-- What `_match_cash` reads back from the file. -/
def cashFromFile (cash : List CustodianCashRow) : Dict Uuid Money :=
  .ofList (cash.map fun row => (row.customerId, row.settledCash))

theorem matchCash_agrees {db : Database} {fileSet : CustodianFileSet} {batch : ImportBatch}
    {found : List ReconciliationBreak} (h : matchCash db fileSet batch = .ok found) : found = [] ↔
      (∀ row, Dict.LastOfKey (·.customerId) fileSet.cash row →
        settledCash db row.customerId = .ok row.settledCash) ∧
      ∀ customerId, (∀ row ∈ fileSet.cash, row.customerId ≠ customerId) →
        customerId ∈ readCustomerIds db → settledCash db customerId = .ok 0 := by
  obtain ⟨results, hresults, heq⟩ := except_bind_ok.mp h
  obtain rfl : results.reduceOption = found := by
    cases heq
    rfl
  have hnone : results.reduceOption = [] ↔ ∀ result ∈ results, result = none :=
    List.filterMap_eq_nil_iff
  have hloop : (∀ result ∈ results, result = none) ↔
      ∀ customerId, customerId ∈ unionKeys (readCustomerIds db) (cashFromFile fileSet.cash).keys →
        settledCash db customerId = .ok ((cashFromFile fileSet.cash).getD customerId 0) := by
    constructor
    · intro hall customerId hmem
      obtain ⟨result, hresult, hturn⟩ := exists_of_mapM_ok hresults hmem
      obtain ⟨amount, hamount, hturn⟩ := except_bind_ok.mp hturn
      dsimp only at hturn
      split_ifs at hturn with hequal
      · rw [hamount, hequal]
        rfl
      · rw [hall result hresult] at hturn
        cases hturn
    · intro hall result hresult
      obtain ⟨customerId, hmem, hturn⟩ := mem_of_mapM_ok hresults hresult
      obtain ⟨amount, hamount, hturn⟩ := except_bind_ok.mp hturn
      have hequal := Except.ok.inj (hamount.symm.trans (hall customerId hmem))
      unfold cashFromFile at hequal
      dsimp only at hturn
      rw [if_pos hequal] at hturn
      cases hturn
      rfl
  have hkeys : ∀ customerId,
      customerId ∈ unionKeys (readCustomerIds db) (cashFromFile fileSet.cash).keys ↔
        customerId ∈ readCustomerIds db ∨ ∃ row ∈ fileSet.cash, row.customerId = customerId :=
    fun customerId => mem_unionKeys.trans (or_congr_right
      (Dict.has_comprehension CustodianCashRow.customerId CustodianCashRow.settledCash))
  rw [hnone, hloop]
  refine (Dict.getD_comprehension_iff (fun row : CustodianCashRow => row.settledCash)
    fun customerId amount =>
      customerId ∈ unionKeys (readCustomerIds db) (cashFromFile fileSet.cash).keys →
        settledCash db customerId = .ok amount).trans (and_congr ?_ ?_)
  · refine forall₂_congr fun row hlast => ?_
    exact forall_prop_of_true ((hkeys _).mpr (Or.inr ⟨row, hlast.mem, rfl⟩))
  · refine forall₂_congr fun customerId habsent => imp_congr_left ((hkeys _).trans ?_)
    exact or_iff_left (not_exists.mpr fun row hrow => habsent row hrow.1 hrow.2)

/-- An entry of the day that the custodian can see. -/
def IsObservable (marketDate : Date) (entry : JournalEntry) : Prop :=
  entry.effectiveDate = marketDate ∧ entry.entryType ∈ custodianObservableEntryTypes

theorem has_readInternalTransactions {sourceEventId : Uuid → String} {db : Database}
    {marketDate : Date} {internal : Dict String InternalTransactionSnapshot}
    (h : readInternalTransactions sourceEventId db marketDate = .ok internal) (id : String) :
    internal.Has id ↔
      ∃ entry ∈ db.journalEntries.rows, IsObservable marketDate entry ∧ sourceEventId entry.id = id := by
  obtain ⟨snapshots, hsnapshots, heq⟩ := except_bind_ok.mp h
  obtain rfl : Dict.ofList snapshots = internal := by
    cases heq
    rfl
  have hhas : (Dict.ofList snapshots).Has id ↔ ∃ pair ∈ snapshots, pair.1 = id := by
    have hpairs := @Dict.has_comprehension _ _ _ _ Prod.fst Prod.snd snapshots id
    rwa [show (snapshots.map fun pair => (pair.1, pair.2)) = snapshots from List.map_id _] at hpairs
  have hturn : ∀ {entry : JournalEntry} {pair : String × InternalTransactionSnapshot}, (do
      return (sourceEventId entry.id, ← snapshotOf db entry) :
        Except Error (String × InternalTransactionSnapshot)) = .ok pair →
      pair.1 = sourceEventId entry.id := by
    intro entry pair hreturned
    obtain ⟨snapshot, -, hpair⟩ := except_bind_ok.mp hreturned
    cases hpair
    rfl
  rw [hhas]
  constructor
  · rintro ⟨pair, hpair, rfl⟩
    obtain ⟨entry, hentry, hreturned⟩ := mem_of_mapM_ok hsnapshots hpair
    obtain ⟨hmem, hobservable⟩ := List.mem_filter.mp hentry
    exact ⟨entry, hmem, by simpa [IsObservable] using hobservable, (hturn hreturned).symm⟩
  · rintro ⟨entry, hmem, hobservable, rfl⟩
    obtain ⟨pair, hpair, hreturned⟩ := exists_of_mapM_ok hsnapshots
      (List.mem_filter.mpr ⟨hmem, by simpa [IsObservable] using hobservable⟩)
    exact ⟨pair, hpair, hturn hreturned⟩

theorem matchTransactions_agrees {sourceEventId : Uuid → String} {db : Database} {marketDate : Date}
    {internal : Dict String InternalTransactionSnapshot}
    (hinternal : readInternalTransactions sourceEventId db marketDate = .ok internal)
    {fileSet : CustodianFileSet} {batch : ImportBatch} :
    matchTransactions internal fileSet batch = [] ↔
      (∀ row ∈ fileSet.transactions, ∃ entry ∈ db.journalEntries.rows,
        IsObservable marketDate entry ∧ sourceEventId entry.id = row.custodianTransactionId) ∧
      ∀ entry ∈ db.journalEntries.rows, IsObservable marketDate entry →
        ∃ row ∈ fileSet.transactions, row.custodianTransactionId = sourceEventId entry.id := by
  have hfile : ∀ id, (Dict.ofList (fileSet.transactions.map fun row =>
      (row.custodianTransactionId, row))).Has id ↔
        ∃ row ∈ fileSet.transactions, row.custodianTransactionId = id := fun id =>
    Dict.has_comprehension CustodianTransactionRow.custodianTransactionId fun row => row
  simp only [matchTransactions, List.append_eq_nil_iff, List.map_eq_nil_iff, List.filter_eq_nil_iff,
    decide_eq_true_eq, not_not, Dict.mem_keys]
  constructor
  · rintro ⟨hcustodian, hentries⟩
    refine ⟨fun row hrow => ?_, fun entry hentry hobservable => ?_⟩
    · obtain ⟨pair, hpair, hid⟩ := List.mem_map.mp ((hfile _).mpr ⟨row, hrow, rfl⟩)
      exact (has_readInternalTransactions hinternal _).mp (hid ▸ hcustodian pair hpair)
    · obtain ⟨pair, hpair, hid⟩ := List.mem_map.mp
        ((has_readInternalTransactions hinternal _).mpr ⟨entry, hentry, hobservable, rfl⟩)
      exact (hfile _).mp (hid ▸ hentries pair hpair)
  · rintro ⟨hrows, hentries⟩
    refine ⟨fun pair hpair => ?_, fun pair hpair => ?_⟩
    · obtain ⟨row, hrow, hid⟩ := (hfile pair.1).mp (List.mem_map_of_mem hpair)
      exact (has_readInternalTransactions hinternal _).mpr (hid ▸ hrows row hrow)
    · obtain ⟨entry, hentry, hobservable, hid⟩ :=
        (has_readInternalTransactions hinternal pair.1).mp (List.mem_map_of_mem hpair)
      exact (hfile _).mpr (hid ▸ hentries entry hentry hobservable)

/-! ### The run -/

/-- What a reconciliation without breaks says of the files. -/
structure FilesAgree (sourceEventId : Uuid → String) (db : Database) (marketDate : Date)
    (fileSet : CustodianFileSet) : Prop where
  positions : ∀ row, Dict.LastOfKey CustodianPositionRow.key fileSet.positions row →
    row.quantity.quanta = ledgerUnits db row.key.1 marketDate row.key.2
  noPosition : ∀ key : PositionKey, (∀ row ∈ fileSet.positions, row.key ≠ key) → ledgerUnits db key.1 marketDate key.2 = 0
  cash : ∀ row, Dict.LastOfKey (·.customerId) fileSet.cash row →
    settledCash db row.customerId = .ok row.settledCash
  noCash : ∀ customerId, (∀ row ∈ fileSet.cash, row.customerId ≠ customerId) →
    customerId ∈ readCustomerIds db → settledCash db customerId = .ok 0
  transactions : ∀ row ∈ fileSet.transactions, ∃ entry ∈ db.journalEntries.rows,
    IsObservable marketDate entry ∧ sourceEventId entry.id = row.custodianTransactionId
  entries : ∀ entry ∈ db.journalEntries.rows, IsObservable marketDate entry →
    ∃ row ∈ fileSet.transactions, row.custodianTransactionId = sourceEventId entry.id

/-- **A reconciliation on a trading day opens no break exactly when the files agree** with the
internal state, in this sense. -/
theorem no_break_iff (clock : MarketClock) (sourceEventId : Uuid → String) (batch : ImportBatch)
    (marketDate : Date) (fileSet : CustodianFileSet) (db : Database) (tables : ReconciliationTables)
    {breaks : List ReconciliationBreak} {tables' : ReconciliationTables}
    (htrading : clock.calendar.isTradingDay marketDate = .ok true)
    (hrun : runMorningReconciliation clock sourceEventId batch marketDate fileSet db tables =
      .ok (breaks, tables')) :
    breaks = [] ↔ FilesAgree sourceEventId db marketDate fileSet := by
  unfold runMorningReconciliation at hrun
  rw [htrading] at hrun
  obtain ⟨_, ⟨⟩, hrun⟩ := except_bind_ok.mp hrun
  rw [if_pos rfl] at hrun
  obtain ⟨internal, hinternal, hrun⟩ := except_bind_ok.mp hrun
  obtain ⟨cashBreaks, hcash, hrun⟩ := except_bind_ok.mp hrun
  obtain ⟨transactions, htransactions, hrun⟩ := except_bind_ok.mp hrun
  obtain ⟨rfl, -⟩ : matchPositions internal fileSet batch ++ cashBreaks ++
      matchTransactions transactions fileSet batch = breaks ∧ _ = tables' := by
    cases hrun
    exact ⟨rfl, rfl⟩
  rw [List.append_eq_nil_iff, List.append_eq_nil_iff, matchPositions_agrees hinternal,
    matchCash_agrees hcash, matchTransactions_agrees htransactions]
  constructor
  · rintro ⟨⟨⟨hpositions, hnoPosition⟩, hcashRows, hnoCash⟩, hrows, hentries⟩
    exact ⟨hpositions, hnoPosition, hcashRows, hnoCash, hrows, hentries⟩
  · rintro ⟨hpositions, hnoPosition, hcashRows, hnoCash, hrows, hentries⟩
    exact ⟨⟨⟨hpositions, hnoPosition⟩, hcashRows, hnoCash⟩, hrows, hentries⟩

/-- Files with two rows for the position and for the cash of the customer, of which only the last
agrees, and with one transaction twice, under the id of the purchase and with nothing else of it. -/
def overlookedFiles : CustodianFileSet where
  positions := [⟨1, 7, shares 3, 0⟩, ⟨1, 7, shares 10, 0⟩]
  cash := [⟨1, dollars 5, 0⟩, ⟨1, (dollars 1000).neg, 0⟩]
  transactions := [⟨"buy", some 2, some 8, .trade, dollars 50, some (shares 1), 0⟩,
    ⟨"buy", some 2, some 8, .trade, dollars 50, some (shares 1), 0⟩]
  isSimulated := true

/-- The reconciliation of these files opens no break. -/
theorem no_break_for_overlooked_files :
    ∃ tables', runMorningReconciliation openedClock (fun _ => "buy") ⟨1, 0⟩ 0 overlookedFiles
      boughtAccount ⟨[], []⟩ = .ok ([], tables') :=
  ⟨⟨persistRawRows overlookedFiles ⟨1, 0⟩, []⟩, by decide +kernel⟩

/-- In the state after the purchase, the files agree as far as they are compared. -/
theorem no_break_iff_overlooked :
    FilesAgree (fun _ => "buy") boughtAccount 0 overlookedFiles :=
  (no_break_iff openedClock (fun _ => "buy") ⟨1, 0⟩ 0 overlookedFiles boughtAccount ⟨[], []⟩
    (by decide) (show runMorningReconciliation openedClock (fun _ => "buy") ⟨1, 0⟩ 0
      overlookedFiles boughtAccount ⟨[], []⟩ =
        .ok ([], ⟨persistRawRows overlookedFiles ⟨1, 0⟩, []⟩) by decide +kernel)).mp rfl

/-- **Disagreements are overlooked.** No break is opened although a positions row has another
quantity than the internal one, a cash row another amount, and the transactions file has an id
twice, with the customer, the security, the quantity and the amount of no internal entry. -/
theorem disagreements_overlooked :
    (∃ tables', runMorningReconciliation openedClock (fun _ => "buy") ⟨1, 0⟩ 0 overlookedFiles
      boughtAccount ⟨[], []⟩ = .ok ([], tables')) ∧
    (∃ row ∈ overlookedFiles.positions,
      row.quantity.quanta ≠ ledgerUnits boughtAccount row.key.1 0 row.key.2) ∧
    (∃ row ∈ overlookedFiles.cash,
      settledCash boughtAccount row.customerId ≠ .ok row.settledCash) ∧
    (∃ row ∈ overlookedFiles.transactions, ∃ internal,
      readInternalTransactions (fun _ => "buy") boughtAccount 0 = .ok internal ∧
      ∃ snapshot, Dict.get? internal row.custodianTransactionId = some snapshot ∧
        row.customerId ≠ snapshot.customerId ∧ row.securityId ≠ snapshot.securityId ∧
        row.quantity ≠ snapshot.quantity ∧ row.amountMoney ≠ snapshot.amountMoney) ∧
    ¬ (overlookedFiles.transactions.map (·.custodianTransactionId)).Nodup := by
  refine ⟨no_break_for_overlooked_files, by decide, by decide +kernel, ?_, by decide⟩
  refine ⟨_, List.mem_cons_self,
    ⟨[("buy", ⟨1, .tradeBuy, some 1, some 7, 0, some (shares 10), 0⟩)], by decide⟩, by decide +kernel,
    ⟨1, .tradeBuy, some 1, some 7, 0, some (shares 10), 0⟩, by decide, by decide, by decide,
    by decide, by decide⟩

end Trueup.Reconciliation
