import Trueup.Lots.Holdings

/-! # What an execution leaves in the lots

The execution ids of the lots and of the consumptions, with the quantities opened and consumed. A
buy fill adds one opening (`recordBuyFill_executions`), a sell fill adds consumptions that sum to
its quantity (`recordSellFill_executions`), and nothing else moves either list. -/

namespace Trueup.Lots

open Trueup.Core Trueup.Models Trueup.Lib Trueup.Lib.Transaction Trueup.Ledger

/-- The execution that opened a lot, and the `quantity_opened`. -/
def opening (lot : TaxLot) : ExecutionId × ℤ :=
  (lot.openingFillExecutionId, lot.quantityOpened.quanta)

/-- The execution that closed a part of a lot, and the `quantity_consumed`. -/
def closing (c : LotConsumption) : ExecutionId × ℤ :=
  (c.closingFillExecutionId, c.quantityConsumed.quanta)

/-- The openings of all lots. -/
def openings (db : Database) : List (ExecutionId × ℤ) := db.taxLots.rows.map opening

/-- The closings of all consumptions. -/
def closings (db : Database) : List (ExecutionId × ℤ) := db.lotConsumptions.rows.map closing

/-- What the pairs of the given executions add up to. -/
def quantaOf (executions : List ExecutionId) (pairs : List (ExecutionId × ℤ)) : ℤ :=
  (pairs.map fun e => if e.1 ∈ executions then e.2 else 0).sum

/-- The pairs of one execution. -/
def pairsOf (executionId : ExecutionId) (takes : List ℤ) : List (ExecutionId × ℤ) :=
  takes.map fun n => (executionId, n)

/-! ### Sums over executions -/

section Quanta
variable {executions new : List ExecutionId} {pairs extra : List (ExecutionId × ℤ)}
  (hextra : ∀ e ∈ extra, e.1 ∈ new)
include hextra

/-- Pairs of new executions count for the list that takes these in. -/
theorem quantaOf_own (hpairs : ∀ e ∈ pairs, e.1 ∉ new) :
    quantaOf (executions ++ new) (pairs ++ extra) =
      quantaOf executions pairs + (extra.map Prod.snd).sum := by
  unfold quantaOf
  rw [List.map_append, List.sum_append]
  congr 2
  · refine List.map_congr_left fun e he => ?_
    simp [hpairs e he]
  · refine List.map_congr_left fun e he => ?_
    simp [hextra e he]

theorem quantaOf_other (hnew : ∀ x ∈ new, x ∉ executions) :
    quantaOf executions (pairs ++ extra) = quantaOf executions pairs := by
  unfold quantaOf
  rw [List.map_append, List.sum_append]
  have hzero : (extra.map fun e => if e.1 ∈ executions then e.2 else 0).sum = 0 := by
    refine List.sum_eq_zero fun n hn => ?_
    obtain ⟨e, he, rfl⟩ := List.mem_map.mp hn
    exact if_neg (hnew _ (hextra e he))
  rw [hzero, add_zero]

end Quanta

theorem mem_pairsOf {executionId : ExecutionId} {takes : List ℤ} {e : ExecutionId × ℤ}
    (h : e ∈ pairsOf executionId takes) : e.1 = executionId := by
  obtain ⟨n, -, rfl⟩ := List.mem_map.mp h
  rfl

@[simp] theorem map_snd_pairsOf (executionId : ExecutionId) (takes : List ℤ) :
    (pairsOf executionId takes).map Prod.snd = takes := by
  simp [pairsOf, Function.comp_def]

/-! ### Adjustments -/

theorem Adjusted.executions {consumption : LotConsumption} {lot : TaxLot} {db db' : Database}
    (h : Adjusted consumption lot db db') (hc : consumption ∈ db.lotConsumptions)
    (hlot : lot ∈ db.taxLots) : openings db' = openings db ∧ closings db' = closings db := by
  obtain ⟨basis, realized, entry, gainLoss, cost, accounts, entries, adjustments, returns, events,
    disclosures, -, -, -, -, -, -, -, rfl⟩ := h
  constructor
  · exact Table.map_set (f := opening) (r := { lot with adjustedBasis := basis }) hlot rfl rfl
  · exact Table.map_set (f := closing) (r := { consumption with realizedGainLoss := realized }) hc
      rfl rfl

/-- The lists and the units of every position, which no adjustment moves. -/
def executionView (db : Database) :
    List (ExecutionId × ℤ) × List (ExecutionId × ℤ) × (Uuid → Uuid → ℤ) :=
  (openings db, closings db, postedUnits db)

theorem washSaleInvariant_executionView
    (v : List (ExecutionId × ℤ) × List (ExecutionId × ℤ) × (Uuid → Uuid → ℤ)) :
    WashSaleInvariant (fun db => executionView db = v) := by
  intro db db' consumption lot hdb hc hlot _ hadj
  obtain ⟨hopen, hclose⟩ := hadj.executions hc hlot
  have hunits : postedUnits db' = postedUnits db := by
    funext c s
    exact hadj.postedUnits c s
  rw [← hdb, executionView, hopen, hclose, hunits]
  rfl

/-! ### Fills -/

/-- **What a buy fill adds**: one opening of its quantity, and as many units. -/
theorem recordBuyFill_executions {env : Env} {clock : MarketClock} {fill : Fill}
    {db db' : Database} {lot : TaxLot}
    (h : (recordBuyFill env clock fill).run db = .ok (lot, db')) :
    openings db' = openings db ++ pairsOf fill.executionId [fill.quantity.quanta] ∧
      closings db' = closings db ∧ ∀ c s, postedUnits db' c s = postedUnits db c s +
        (if fill.customerId = c ∧ fill.securityId = s then fill.quantity.quanta else 0) := by
  obtain ⟨mid, hposted, hwash⟩ := recordBuyFill_rule h
  have hview := hwash (washSaleInvariant_executionView (executionView mid)) rfl
  obtain ⟨hopen, hclose, hunits⟩ : openings db' = openings mid ∧ closings db' = closings mid ∧
      postedUnits db' = postedUnits mid := by
    simpa [executionView] using hview
  rw [hopen, hclose, hunits]
  refine ⟨?_, ?_, hposted.postedUnits⟩
  · obtain ⟨cost, entry, units, costs, cash, accounts, entries, settlementDate, obligations, lots,
      -, -, -, -, -, -, -, -, -, hexec, hopened, -, -, -, -, -, hlots, rfl⟩ := hposted
    simp [openings, opening, pairsOf, Table.rows_insert hlots, hexec, hopened]
  · obtain ⟨cost, entry, units, costs, cash, accounts, entries, settlementDate, obligations, lots,
      -, -, -, -, -, -, -, -, -, -, -, -, -, -, -, -, -, rfl⟩ := hposted
    rfl

/-- What the selection and the loop of a sell fill did to the two lists so far. -/
structure Closing (fill : Fill) (sale : Sale) (db db' : Database) : Prop where
  postings : db'.postings = db.postings
  opened : openings db' = openings db
  closed : ∃ takes : List ℤ, closings db' = closings db ++ pairsOf fill.executionId takes ∧
    takes.sum = fill.quantity.quanta - sale.remainingToSell.quanta
  remaining : 0 ≤ fill.quantity.quanta → 0 ≤ sale.remainingToSell.quanta

theorem Closing.consume {env : Env} {fill : Fill} {lot lot' : TaxLot} {c : LotConsumption}
    {sale sale' : Sale} {db₀ db db' : Database} (h : Closing fill sale db₀ db)
    (hc : Consumed env fill lot lot' c sale sale' db db') : Closing fill sale' db₀ db' := by
  obtain ⟨table, htable, rfl⟩ := hc.wrote
  obtain ⟨takes, hclose, hsum⟩ := h.closed
  refine ⟨h.postings, ?_, ⟨takes ++ [c.quantityConsumed.quanta], ?_, ?_⟩, fun hq => ?_⟩
  · rw [← h.opened]
    exact Table.map_set (f := opening) hc.mem hc.id.symm
      (by rw [opening, opening, hc.execution, hc.opened])
  · have hrow : closings { db with lotConsumptions := table, taxLots := db.taxLots.set lot' } =
        closings db ++ [closing c] := by
      simp [closings, Table.rows_insert htable]
    rw [hrow, hclose, closing, hc.closing]
    simp [pairsOf]
  · rw [List.sum_append, hsum, hc.remainingToSell]
    simp
    ring
  · have hrem := h.remaining hq
    have hle := hc.take_eq ▸ min_le_right lot.quantityRemaining.quanta sale.remainingToSell.quanta
    rw [hc.remainingToSell]
    omega

/-- **What a sell fill adds**: consumptions that sum to its quantity, and as many units fewer. -/
theorem recordSellFill_executions {env : Env} {clock : MarketClock} {fill : Fill}
    {designatedLotIds : Option (List Uuid)} {db db' : Database} {consumptions : List Uuid}
    (hq : 0 ≤ fill.quantity.quanta)
    (h : (recordSellFill env clock fill designatedLotIds).run db = .ok (consumptions, db')) :
    openings db' = openings db ∧
      (∃ takes : List ℤ, closings db' = closings db ++ pairsOf fill.executionId takes ∧
        takes.sum = fill.quantity.quanta) ∧
      ∀ c s, postedUnits db' c s = postedUnits db c s -
        (if fill.customerId = c ∧ fill.securityId = s then fill.quantity.quanta else 0) := by
  obtain ⟨fillDate, lotIds, sale, db1, db2, db3, hselect, -, hloop, hdone, hposted, hwash⟩ :=
    recordSellFill_rule h
  have hview := hwash (washSaleInvariant_executionView (executionView db3)) rfl
  obtain ⟨hopen, hclose, hunits⟩ : openings db' = openings db3 ∧ closings db' = closings db3 ∧
      postedUnits db' = postedUnits db3 := by
    simpa [executionView] using hview
  have hselected : Closing fill (.start fill.quantity) db db1 := by
    refine selectLotsToConsume_keeps (I := Closing fill (.start fill.quantity) db)
      (fun {s lot} hs hlot => ⟨hs.postings, ?_, hs.closed, hs.remaining⟩) designatedLotIds db
      lotIds db1 ⟨rfl, rfl, ⟨[], by simp [pairsOf], by simp [Sale.start]⟩, fun h => h⟩ hselect
    rw [← hs.opened]
    exact Table.map_set (f := opening) (r := { lot with designation := .specific }) hlot rfl rfl
  have hsold : Closing fill sale db db2 :=
    consumeLots_rule (P := fun sale s => Closing fill sale db s)
      (fun _ hs hc => hs.consume hc) hselected hloop
  obtain ⟨takes, htakes, hsum⟩ := hsold.closed
  have hrem : sale.remainingToSell.quanta = 0 := le_antisymm hdone (hsold.remaining hq)
  obtain ⟨hlots, hcons⟩ := hposted.lots
  rw [hopen, hclose, hunits]
  refine ⟨?_, ⟨takes, ?_, ?_⟩, fun c s => ?_⟩
  · rw [← hsold.opened, openings, hlots]
    rfl
  · rw [← htakes, closings, hcons]
    rfl
  · rw [hsum, hrem, sub_zero]
  · rw [hposted.postedUnits c s]
    simp only [postedUnits, hsold.postings]

end Trueup.Lots
