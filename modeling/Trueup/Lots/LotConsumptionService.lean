import Trueup.Lots.WashSaleService

/-! # Opening and consuming lots

`services/lots/lot_consumption_service.py`: a buy fill opens a lot, a sell fill consumes lots in
order (first in first out, or as designated), and each posts its trade entry.

* `recordBuyFill_ok`: what a buy fill wrote before the wash-sale scan.
* `consumeLot_ok`, `consumeLots_rule`: one turn of the sell loop, and what every turn keeps, the
  loop keeps.
* `recordSellFill_ok`: a sell fill is the selection, the loop, the entry and the wash-sale scan. -/

namespace Trueup.Lots

open Trueup.Core Trueup.Models Trueup.Lib Trueup.Lib.Transaction Trueup.Ledger

/-- `_SETTLEMENT_TRADING_DAYS`. -/
def settlementTradingDays : ℤ := 1

/-- The arguments of `record_buy_fill` and `record_sell_fill`. -/
structure Fill where
  customerId : Uuid
  securityId : Uuid
  executionId : ExecutionId
  quantity : Units
  price : Price
  filledAt : Datetime
  deriving DecidableEq

/-- The obligation of a trade: its cash settles on the settlement date. -/
def tradeObligation (env : Env) (entryId : Uuid) (cashAccount : Account) (amount : Money)
    (settlementDate : Date) (sourceEvent : SourceEvent) : SettlementObligation where
  id := env.uuid4 .settlementObligation
  journalEntryId := entryId
  account := cashAccount
  amountMoney := amount
  expectedSettlementDate := settlementDate
  status := .pending
  confirmedAt := none
  failedAt := none
  failureReason := none
  sourceEvent := sourceEvent

/-! ### Buy fills -/

/-- The lot a buy fill opens, refused when the quantity is negative. -/
def openedLot (env : Env) (fill : Fill) (cost : Money) (fillDate : Date)
    (windowClosesAt : Instant) : Except Error TaxLot :=
  if h : 0 ≤ fill.quantity.quanta then
    .ok {
      id := env.uuid4 .taxLot
      customerId := fill.customerId
      securityId := fill.securityId
      openingFillExecutionId := fill.executionId
      quantityOpened := fill.quantity
      quantityRemaining := fill.quantity
      remaining_nonneg := h
      originalCostBasis := cost
      adjustedBasis := cost
      acquiredAt := fillDate
      designation := .unspecified
      designationWindowClosesAt := windowClosesAt }
  else .error (.integrityError .quantityRemainingNonNegative)

/-- `record_buy_fill`. -/
def recordBuyFill (env : Env) (clock : MarketClock) (fill : Fill) : Tx TaxLot := do
  let fillDate ← lift (clock.marketDate fill.filledAt)
  let cost ← lift (Price.times fill.price fill.quantity)
  let unitsAccount ← getOrCreateCustomerAccount fill.customerId .positionUnits fill.securityId
  let costAccount ← getOrCreateCustomerAccount fill.customerId .positionCost fill.securityId
  let cashAccount ← requireCustomerAccount fill.customerId .cash
  let entry ← post (env.uuid4 .journalEntry) .tradeBuy fillDate
    (.tradeBuyFill fill.customerId fill.securityId fill.executionId fill.quantity fill.price)
    [.units unitsAccount fill.quantity, .money costAccount cost, .money cashAccount cost.neg]
  let settlementDate ← lift (clock.addTradingDays fillDate settlementTradingDays)
  addSettlementObligation (tradeObligation env entry.id cashAccount cost.neg settlementDate
    (.tradeBuySettlementExpected fill.executionId cost))
  let sessionClose ← lift (clock.calendar.sessionClose settlementDate)
  let windowClosesAt ← lift (ofOption sessionClose .notATradingDay)
  let lot ← lift (openedLot env fill cost fillDate windowClosesAt)
  addTaxLot lot
  onBuyFill env lot
  return lot

/-! ### Sell fills -/

/-- `lock_open_fifo`: the open lots, oldest first. -/
def openFifo (db : Database) (customerId securityId : Uuid) : List TaxLot :=
  (db.taxLots.rows.filter fun lot => lot.customerId = customerId ∧ lot.securityId = securityId ∧
    0 < lot.quantityRemaining).insertionSort lotOrder

/-- One designated lot: it must be the customer's, and is marked. -/
def designateLot (customerId securityId lotId : Uuid) : Tx Unit := do
  let lot ← getTaxLot lotId
  require (lot.customerId = customerId ∧ lot.securityId = securityId) .unknownTaxLot
  setTaxLot { lot with designation := .specific }

/-- `_select_lots_to_consume`: the ids of the lots, in the order they are consumed. -/
def selectLotsToConsume (customerId securityId : Uuid) (designatedLotIds : Option (List Uuid)) :
    Tx (List Uuid) :=
  match designatedLotIds.getD [] with
  | [] => read fun db => .ok ((openFifo db customerId securityId).map (·.id))
  | lotId :: lotIds => do
    each (designateLot customerId securityId) (lotId :: lotIds)
    return lotId :: lotIds

/-- The accumulators of the sell loop. -/
structure Sale where
  remainingToSell : Units
  consumedBasisTotal : Money
  realizedTotal : Money
  consumptions : List Uuid
  deriving DecidableEq

/-- The loop starts with everything left to sell. -/
def Sale.start (quantity : Units) : Sale := ⟨quantity, 0, 0, []⟩

/-- One turn of the sell loop that takes a positive quantity from the lot. -/
def takeFromLot (env : Env) (fill : Fill) (fillDate : Date) (lot : TaxLot) (take : Units)
    (sale : Sale) : Tx Sale := do
  let perUnitBasis ← lift (Money.perUnit lot.adjustedBasis lot.quantityRemaining)
  let consumedBasis ← lift (Price.times perUnitBasis take)
  let proceeds ← lift (Price.times fill.price take)
  let realized ← lift (proceeds.sub consumedBasis)
  let consumption : LotConsumption := {
    id := env.uuid4 (.lotConsumption lot.id)
    closingFillExecutionId := fill.executionId
    taxLotId := lot.id
    quantityConsumed := take
    realizedGainLoss := realized
    isProvisional := fill.filledAt.instant < lot.designationWindowClosesAt
    saleDate := fillDate }
  addLotConsumption consumption
  let remaining ← lift (lot.quantityRemaining.sub take)
  let adjustedBasis ← lift (lot.adjustedBasis.sub consumedBasis)
  let lot' ← lift (lot.withQuantities lot.quantityOpened remaining)
  setTaxLot { lot' with adjustedBasis }
  let consumedBasisTotal ← lift (sale.consumedBasisTotal.add consumedBasis)
  let realizedTotal ← lift (sale.realizedTotal.add realized)
  let remainingToSell ← lift (sale.remainingToSell.sub take)
  return {
    remainingToSell, consumedBasisTotal, realizedTotal
    consumptions := sale.consumptions ++ [consumption.id] }

/-- One turn of the sell loop. -/
def consumeLot (env : Env) (fill : Fill) (fillDate : Date) (lotId : Uuid) (sale : Sale) :
    Tx Sale := do
  let lot ← getTaxLot lotId
  let take := lot.quantityRemaining.min sale.remainingToSell
  if take ≤ 0 then return sale
  else takeFromLot env fill fillDate lot take sale

/-- The sell loop; it stops when nothing is left to sell. -/
def consumeLots (env : Env) (fill : Fill) (fillDate : Date) : List Uuid → Sale → Tx Sale
  | [], sale => return sale
  | lotId :: lotIds, sale =>
    if sale.remainingToSell ≤ 0 then return sale
    else do
      let sale ← consumeLot env fill fillDate lotId sale
      consumeLots env fill fillDate lotIds sale

/-- The lots of a sell fill are selected and consumed until nothing is left to sell. -/
def sellLots (env : Env) (clock : MarketClock) (fill : Fill)
    (designatedLotIds : Option (List Uuid)) : Tx (Date × Sale) := do
  let fillDate ← lift (clock.marketDate fill.filledAt)
  let lotIds ← selectLotsToConsume fill.customerId fill.securityId designatedLotIds
  let sale ← consumeLots env fill fillDate lotIds (.start fill.quantity)
  require (sale.remainingToSell ≤ 0) (.insufficientLots sale.remainingToSell)
  return (fillDate, sale)

/-- The legs of the `trade_sell` entry, with the cash account and the proceeds. -/
def saleLegs (fill : Fill) (sale : Sale) : Tx (Account × Money × List PostingLeg) := do
  let unitsAccount ← getOrCreateCustomerAccount fill.customerId .positionUnits fill.securityId
  let costAccount ← getOrCreateCustomerAccount fill.customerId .positionCost fill.securityId
  let cashAccount ← requireCustomerAccount fill.customerId .cash
  let gainLossAccount ← getOrCreateCustomerAccount fill.customerId .realizedGainLoss none
  let proceedsTotal ← lift (Price.times fill.price fill.quantity)
  return (cashAccount, proceedsTotal,
    [.units unitsAccount fill.quantity.neg, .money costAccount sale.consumedBasisTotal.neg,
      .money cashAccount proceedsTotal, .money gainLossAccount sale.realizedTotal.neg])

/-- The `trade_sell` entry, after the loop. -/
def postSale (env : Env) (fill : Fill) (fillDate : Date) (sale : Sale) :
    Tx (JournalEntry × Account × Money) := do
  let (cashAccount, proceedsTotal, legs) ← saleLegs fill sale
  let entry ← post (env.uuid4 .journalEntry) .tradeSell fillDate
    (.tradeSellFill fill.customerId fill.securityId fill.executionId fill.quantity fill.price) legs
  return (entry, cashAccount, proceedsTotal)

/-- The wash-sale scan of one consumption of the sale. -/
def scanLoss (env : Env) (fill : Fill) (consumptionId : Uuid) : Tx Unit := do
  let consumption ← getLotConsumption consumptionId
  whenever (consumption.realizedGainLoss < 0) do
    onLossSale env fill.customerId fill.securityId consumptionId

/-- `record_sell_fill`. -/
def recordSellFill (env : Env) (clock : MarketClock) (fill : Fill)
    (designatedLotIds : Option (List Uuid)) : Tx (List Uuid) := do
  let (fillDate, sale) ← sellLots env clock fill designatedLotIds
  let (entry, cashAccount, proceedsTotal) ← postSale env fill fillDate sale
  let settlementDate ← lift (clock.addTradingDays fillDate settlementTradingDays)
  addSettlementObligation (tradeObligation env entry.id cashAccount proceedsTotal settlementDate
    (.tradeSellSettlementExpected fill.executionId proceedsTotal))
  each (scanLoss env fill) sale.consumptions
  return sale.consumptions

/-! ### What a buy fill wrote -/

/-- The database after a buy fill, before its wash-sale scan. -/
def BuyPosted (env : Env) (fill : Fill) (lot : TaxLot) (db db' : Database) : Prop :=
  ∃ (cost : Money) (entry : JournalEntry) (units costs cash : Account) (accounts : List Account)
      (entries : Table JournalEntry.id) (settlementDate : Date)
      (obligations : Table SettlementObligation.id) (lots : Table TaxLot.id),
    cost.quanta = notional fill.price fill.quantity ∧
    entry.id = env.uuid4 .journalEntry ∧ entry.entryType = .tradeBuy ∧
    entry.sourceEvent = .tradeBuyFill fill.customerId fill.securityId fill.executionId
      fill.quantity fill.price ∧
    IsAccountOf units fill.customerId .positionUnits (some fill.securityId) ∧
    IsAccountOf costs fill.customerId .positionCost (some fill.securityId) ∧
    IsAccountOf cash fill.customerId .cash none ∧
    lot.customerId = fill.customerId ∧ lot.securityId = fill.securityId ∧
    lot.openingFillExecutionId = fill.executionId ∧
    lot.quantityOpened = fill.quantity ∧ lot.quantityRemaining = fill.quantity ∧
    lot.adjustedBasis = cost ∧ 0 ≤ fill.quantity.quanta ∧
    db.journalEntries.insert entry = some entries ∧
    db.settlementObligations.insert (tradeObligation env entry.id cash cost.neg settlementDate
      (.tradeBuySettlementExpected fill.executionId cost)) = some obligations ∧
    db.taxLots.insert lot = some lots ∧
    db' = { db with
      accounts := accounts
      journalEntries := entries
      postings := db.postings ++ [⟨entry.id, units, .units fill.quantity⟩,
        ⟨entry.id, costs, .money cost⟩, ⟨entry.id, cash, .money cost.neg⟩]
      settlementObligations := obligations
      taxLots := lots }

theorem openedLot_ok {env : Env} {fill : Fill} {cost : Money} {fillDate : Date}
    {windowClosesAt : Instant} {lot : TaxLot}
    (h : openedLot env fill cost fillDate windowClosesAt = .ok lot) :
    0 ≤ fill.quantity.quanta ∧ lot.customerId = fill.customerId ∧
      lot.securityId = fill.securityId ∧ lot.openingFillExecutionId = fill.executionId ∧
      lot.quantityOpened = fill.quantity ∧ lot.quantityRemaining = fill.quantity ∧
      lot.adjustedBasis = cost := by
  unfold openedLot at h
  split_ifs at h with h0
  cases h
  exact ⟨h0, rfl, rfl, rfl, rfl, rfl, rfl⟩

/-- **A buy fill** posts its trade, opens its lot and scans for wash sales. -/
theorem recordBuyFill_ok {env : Env} {clock : MarketClock} {fill : Fill} {db db' : Database}
    {lot : TaxLot} (h : (recordBuyFill env clock fill).run db = .ok (lot, db')) :
    ∃ mid, BuyPosted env fill lot db mid ∧ (onBuyFill env lot).run mid = .ok ((), db') := by
  simp only [recordBuyFill, bind_ok, lift_ok, ofOption_ok, addSettlementObligation_ok, addTaxLot_ok,
    pure_ok, and_assoc, exists_and_left, exists_eq_left'] at h
  obtain ⟨fillDate, -, cost, hcost, units, mid₁, hrun, costs, mid₂, hrun', cash, mid₃, hrun'', entry,
    mid₄, hpost, settlementDate, -, _, mid₅, ⟨obligations, hobl, hmid₅⟩, _, -, windowClosesAt, -, lot',
    hlot, -, -, _, mid₆, ⟨lots, hlots, hmid₆⟩, _, _, hwash, rfl, rfl⟩ := h
  obtain ⟨hunits, accounts, rfl⟩ := getOrCreateCustomerAccount_ok hrun
  obtain ⟨hcosts, accounts', rfl⟩ := getOrCreateCustomerAccount_ok hrun'
  obtain ⟨hcash, rfl⟩ := requireCustomerAccount_ok hrun''
  obtain ⟨-, rfl, entries, hentries, rfl⟩ := post_ok hpost
  subst hmid₅ hmid₆
  obtain ⟨hq, hcust, hsec, hexec, hopened, hrem, hbasis⟩ := openedLot_ok hlot
  exact ⟨_, ⟨cost, _, units, costs, cash, accounts', entries, settlementDate, obligations, lots,
    Price.times_ok.mp hcost, rfl, rfl, rfl, hunits, hcosts, hcash, hcust, hsec, hexec, hopened,
    hrem, hbasis, hq, hentries, hobl, hlots, rfl⟩, hwash⟩

/-- The lot is dated with the day of the fill, and its basis is its cost. -/
theorem recordBuyFill_opened {env : Env} {clock : MarketClock} {fill : Fill} {db db' : Database}
    {lot : TaxLot} (h : (recordBuyFill env clock fill).run db = .ok (lot, db')) :
    clock.marketDate fill.filledAt = .ok lot.acquiredAt ∧
      lot.originalCostBasis = lot.adjustedBasis := by
  simp only [recordBuyFill, bind_ok, lift_ok, pure_ok] at h
  obtain ⟨fillDate, _, ⟨hdate, _⟩, cost, _, _, units, _, _, costs, _, _, cash, _, _, entry, _, _,
    settlementDate, _, _, _, _, _, sessionClose, _, _, windowClosesAt, _, _, lot', _, ⟨hlot, _⟩, _,
    _, _, _, _, _, rfl, _⟩ := h
  unfold openedLot at hlot
  split_ifs at hlot
  cases hlot
  exact ⟨hdate, rfl⟩

/-! ### What one turn of the sell loop does -/

/-- A positive quantity of the lot is sold: `lot` becomes `lot'`, with the consumption `c`. -/
structure Consumed (env : Env) (fill : Fill) (lot lot' : TaxLot) (c : LotConsumption)
    (sale sale' : Sale) (db db' : Database) : Prop where
  mem : lot ∈ db.taxLots
  id : lot'.id = lot.id
  customerId : lot'.customerId = lot.customerId
  securityId : lot'.securityId = lot.securityId
  execution : lot'.openingFillExecutionId = lot.openingFillExecutionId
  opened : lot'.quantityOpened = lot.quantityOpened
  rest : lot' = { lot with
    quantityRemaining := lot'.quantityRemaining, remaining_nonneg := lot'.remaining_nonneg
    adjustedBasis := lot'.adjustedBasis }
  unitBasis : ∃ perUnit, Money.perUnit lot.adjustedBasis lot.quantityRemaining = .ok perUnit ∧
    lot.adjustedBasis.quanta - lot'.adjustedBasis.quanta = notional perUnit c.quantityConsumed
  take_pos : 0 < c.quantityConsumed.quanta
  take_eq : c.quantityConsumed.quanta =
    min lot.quantityRemaining.quanta sale.remainingToSell.quanta
  consumptionId : c.id = env.uuid4 (.lotConsumption lot.id)
  closing : c.closingFillExecutionId = fill.executionId
  taxLotId : c.taxLotId = lot.id
  remaining : lot'.quantityRemaining.quanta =
    lot.quantityRemaining.quanta - c.quantityConsumed.quanta
  realized : c.realizedGainLoss.quanta = notional fill.price c.quantityConsumed -
    (lot.adjustedBasis.quanta - lot'.adjustedBasis.quanta)
  remainingToSell : sale'.remainingToSell.quanta =
    sale.remainingToSell.quanta - c.quantityConsumed.quanta
  consumedBasisTotal : sale'.consumedBasisTotal.quanta = sale.consumedBasisTotal.quanta +
    (lot.adjustedBasis.quanta - lot'.adjustedBasis.quanta)
  realizedTotal : sale'.realizedTotal.quanta =
    sale.realizedTotal.quanta + c.realizedGainLoss.quanta
  consumptions : sale'.consumptions = sale.consumptions ++ [c.id]
  wrote : ∃ table, db.lotConsumptions.insert c = some table ∧
    db' = { db with lotConsumptions := table, taxLots := db.taxLots.set lot' }

theorem takeFromLot_ok {env : Env} {fill : Fill} {fillDate : Date} {lot : TaxLot} {take : Units}
    {sale sale' : Sale} {db db' : Database} (hlot : lot ∈ db.taxLots)
    (htake : take = lot.quantityRemaining.min sale.remainingToSell) (hpos : ¬ take ≤ 0)
    (h : (takeFromLot env fill fillDate lot take sale).run db = .ok (sale', db')) :
    ∃ lot' c, Consumed env fill lot lot' c sale sale' db db' := by
  simp only [takeFromLot, bind_ok, lift_ok, addLotConsumption_ok, setTaxLot_ok, pure_ok, and_assoc,
    exists_and_left, exists_eq_left'] at h
  obtain ⟨perUnit, hperUnit, basis, htimes, proceeds, hproceeds, realized, hrealized, -, _, _,
    ⟨table, htable, rfl⟩, remaining, hremaining, adjusted, hadjusted, lot', hlot', _, _, rfl,
    basisTotal, hbasisTotal, realizedTotal, hrealizedTotal, remainingToSell, hrts, rfl, rfl⟩ := h
  obtain ⟨hnonneg, rfl⟩ := TaxLot.withQuantities_ok hlot'
  rw [QuantizedDecimal.le_def, not_le, QuantizedDecimal.quanta_zero] at hpos
  have hbasis : basis.quanta = lot.adjustedBasis.quanta - adjusted.quanta := by
    rw [Money.sub_ok.mp hadjusted]; ring
  refine ⟨{ lot with
    quantityRemaining := remaining, remaining_nonneg := hnonneg, adjustedBasis := adjusted },
    ⟨env.uuid4 (.lotConsumption lot.id), fill.executionId, lot.id, take, realized,
      fill.filledAt.instant < lot.designationWindowClosesAt, fillDate⟩, {
    mem := hlot, id := rfl, customerId := rfl, securityId := rfl, execution := rfl, opened := rfl
    rest := rfl, unitBasis := ⟨perUnit, hperUnit, by rw [← hbasis, Price.times_ok.mp htimes]⟩
    take_pos := hpos, take_eq := ?_, consumptionId := rfl, closing := rfl, taxLotId := rfl
    remaining := Units.sub_ok.mp hremaining, realized := ?_
    remainingToSell := Units.sub_ok.mp hrts, consumedBasisTotal := ?_
    realizedTotal := Money.add_ok.mp hrealizedTotal, consumptions := rfl
    wrote := ⟨table, htable, rfl⟩ }⟩
  · rw [htake, QuantizedDecimal.quanta_min]
  · rw [Money.sub_ok.mp hrealized, Price.times_ok.mp hproceeds, hbasis]
  · rw [Money.add_ok.mp hbasisTotal, hbasis]

theorem consumeLot_ok {env : Env} {fill : Fill} {fillDate : Date} {lotId : Uuid}
    {sale sale' : Sale} {db db' : Database}
    (h : (consumeLot env fill fillDate lotId sale).run db = .ok (sale', db')) :
    (∃ lot ∈ db.taxLots, lot.id = lotId ∧
        min lot.quantityRemaining.quanta sale.remainingToSell.quanta ≤ 0 ∧ sale' = sale ∧
        db' = db) ∨
      ∃ lot lot' c, lot.id = lotId ∧ Consumed env fill lot lot' c sale sale' db db' := by
  simp only [consumeLot, bind_ok, getTaxLot_ok] at h
  obtain ⟨lot, _, ⟨⟨hlot, hid⟩, rfl⟩, h⟩ := h
  split_ifs at h with htake
  · obtain ⟨rfl, rfl⟩ := pure_ok.mp h
    rw [QuantizedDecimal.le_def, QuantizedDecimal.quanta_min] at htake
    exact Or.inl ⟨lot, hlot, hid, htake, rfl, rfl⟩
  · obtain ⟨lot', c, hc⟩ := takeFromLot_ok hlot rfl htake h
    exact Or.inr ⟨lot, lot', c, hid, hc⟩

/-- **The induction of the sell loop**: it stops, it leaves a lot out, or it takes from one. -/
theorem consumeLots_induction {env : Env} {fill : Fill} {fillDate : Date}
    {P : List Uuid → Sale → Sale → Database → Database → Prop}
    (stop : ∀ {lotIds sale db}, lotIds = [] ∨ sale.remainingToSell.quanta ≤ 0 →
      P lotIds sale sale db db)
    (skip : ∀ {lot lotIds sale sale' db db'}, lot ∈ db.taxLots → 0 < sale.remainingToSell.quanta →
      min lot.quantityRemaining.quanta sale.remainingToSell.quanta ≤ 0 →
      P lotIds sale sale' db db' → P (lot.id :: lotIds) sale sale' db db')
    (turn : ∀ {lot lot' c lotIds sale mid sale' db dbMid db'}, 0 < sale.remainingToSell.quanta →
      Consumed env fill lot lot' c sale mid db dbMid → P lotIds mid sale' dbMid db' →
      P (lot.id :: lotIds) sale sale' db db') :
    ∀ {lotIds : List Uuid} {sale sale' : Sale} {db db' : Database},
      (consumeLots env fill fillDate lotIds sale).run db = .ok (sale', db') → P lotIds sale sale' db db'
  | [], sale, sale', db, db', h => by
    obtain ⟨rfl, rfl⟩ := pure_ok.mp h
    exact stop (Or.inl rfl)
  | lotId :: lotIds, sale, sale', db, db', h => by
    rw [consumeLots] at h
    split_ifs at h with hdone
    · obtain ⟨rfl, rfl⟩ := pure_ok.mp h
      exact stop (Or.inr hdone)
    · have hleft : 0 < sale.remainingToSell.quanta := not_le.mp hdone
      obtain ⟨mid, dbMid, hturn, hrest⟩ := bind_ok.mp h
      have ih := consumeLots_induction stop skip turn hrest
      rcases consumeLot_ok hturn with ⟨lot, hlot, rfl, htake, rfl, rfl⟩ | ⟨lot, lot', c, rfl, hc⟩
      · exact skip hlot hleft htake ih
      · exact turn hleft hc ih

/-- **The loop rule**: what every turn on one of the lots keeps, the sell loop keeps. -/
theorem consumeLots_rule {env : Env} {fill : Fill} {fillDate : Date}
    {P : Sale → Database → Prop} {lotIds : List Uuid} {sale sale' : Sale} {db db' : Database}
    (hstep : ∀ {lot lot' c sale sale' db db'}, lot.id ∈ lotIds → P sale db →
      Consumed env fill lot lot' c sale sale' db db' → P sale' db')
    (hP : P sale db) (h : (consumeLots env fill fillDate lotIds sale).run db = .ok (sale', db')) :
    P sale' db' := by
  refine consumeLots_induction (P := fun lotIds sale sale' db db' =>
    (∀ {lot lot' c sale sale' db db'}, lot.id ∈ lotIds → P sale db →
      Consumed env fill lot lot' c sale sale' db db' → P sale' db') → P sale db → P sale' db')
    ?_ ?_ ?_ h hstep hP
  · intro lotIds sale db _ _ hP
    exact hP
  · intro lot lotIds sale sale' db db' _ _ _ ih hstep hP
    exact ih (fun hid => hstep (List.mem_cons_of_mem _ hid)) hP
  · intro lot lot' c lotIds sale mid sale' db dbMid db' _ hc ih hstep hP
    exact ih (fun hid => hstep (List.mem_cons_of_mem _ hid)) (hstep List.mem_cons_self hP hc)

/-! ### What a sell fill did -/

/-- The selection marks designated lots and writes nothing else. -/
theorem selectLotsToConsume_keeps {I : Database → Prop} {customerId securityId : Uuid}
    (hI : ∀ {db lot}, I db → lot ∈ db.taxLots →
      I { db with taxLots := db.taxLots.set { lot with designation := .specific } })
    (designatedLotIds : Option (List Uuid)) :
    Keeps I (selectLotsToConsume customerId securityId designatedLotIds) := by
  unfold selectLotsToConsume
  split
  · exact keeps_read _
  · refine keeps_bind (keeps_each fun lotId _ => ?_) fun _ => keeps_pure _
    intro db u db' hdb h
    simp only [designateLot, bind_ok, getTaxLot_ok, require_ok, setTaxLot_ok] at h
    obtain ⟨lot, _, ⟨⟨hlot, -⟩, rfl⟩, _, _, ⟨-, rfl⟩, rfl⟩ := h
    exact hI hdb hlot

/-- What marking a lot and a turn of the loop keep, the sale of the lots keeps. -/
theorem soldLots_keeps {I : Database → Prop} {env : Env} {fill : Fill} {fillDate : Date}
    {designatedLotIds : Option (List Uuid)} {lotIds : List Uuid} {sale₀ sale : Sale}
    {db db1 db2 : Database}
    (hmark : ∀ {db lot}, I db → lot ∈ db.taxLots →
      I { db with taxLots := db.taxLots.set { lot with designation := .specific } })
    (hturn : ∀ {lot lot' c sale sale' db db'}, I db →
      Consumed env fill lot lot' c sale sale' db db' → I db')
    (hselect : (selectLotsToConsume fill.customerId fill.securityId designatedLotIds).run db =
      .ok (lotIds, db1))
    (hloop : (consumeLots env fill fillDate lotIds sale₀).run db1 = .ok (sale, db2)) (hdb : I db) :
    I db2 :=
  consumeLots_rule (P := fun _ s => I s) (fun _ hs hc => hturn hs hc)
    (selectLotsToConsume_keeps hmark designatedLotIds db lotIds db1 hdb hselect) hloop

/-- The lot is one of the customer's lots of the security. -/
def IsPositionLot (db : Database) (customerId securityId lotId : Uuid) : Prop :=
  ∃ lot ∈ db.taxLots, lot.id = lotId ∧ lot.customerId = customerId ∧ lot.securityId = securityId

theorem designateLots_ok {customerId securityId : Uuid} : ∀ {lotIds : List Uuid}
    {db db' : Database} {u : Unit},
    (each (designateLot customerId securityId) lotIds).run db = .ok (u, db') →
      (∀ id, IsPositionLot db customerId securityId id →
        IsPositionLot db' customerId securityId id) ∧
      ∀ id ∈ lotIds, IsPositionLot db' customerId securityId id
  | [], db, db', u, h => by
    obtain ⟨-, rfl⟩ := pure_ok.mp h
    exact ⟨fun _ h => h, by simp⟩
  | lotId :: lotIds, db, db', u, h => by
    simp only [each, bind_ok] at h
    obtain ⟨_, mid, h1, h2⟩ := h
    simp only [designateLot, bind_ok, getTaxLot_ok, require_ok, setTaxLot_ok] at h1
    obtain ⟨lot, _, ⟨⟨hlot, hid⟩, rfl⟩, _, _, ⟨hown, rfl⟩, rfl⟩ := h1
    obtain ⟨hkeep, hall⟩ := designateLots_ok h2
    refine ⟨fun id hmem => hkeep id ?_, fun id hmem => ?_⟩
    · exact Table.exists_mem_set hlot rfl (fun hP => hP) hmem
    · rcases List.mem_cons.mp hmem with rfl | hmem
      · exact hkeep _ ⟨_, Table.mem_set_self hlot rfl, hid, hown.1, hown.2⟩
      · exact hall id hmem

theorem selectLotsToConsume_owned {customerId securityId : Uuid}
    {designatedLotIds : Option (List Uuid)} {db db' : Database} {lotIds : List Uuid}
    (h : (selectLotsToConsume customerId securityId designatedLotIds).run db =
      .ok (lotIds, db')) :
    ∀ id ∈ lotIds, IsPositionLot db' customerId securityId id := by
  unfold selectLotsToConsume at h
  split at h
  · obtain ⟨hids, rfl⟩ := read_ok.mp h
    cases hids
    intro id hid
    simp only [openFifo, List.mem_map, List.mem_insertionSort, List.mem_filter,
      decide_eq_true_eq] at hid
    obtain ⟨lot, ⟨hlot, hc, hs, -⟩, rfl⟩ := hid
    exact ⟨lot, hlot, rfl, hc, hs⟩
  · simp only [bind_ok, pure_ok] at h
    obtain ⟨_, _, hrun, rfl, rfl⟩ := h
    exact (designateLots_ok hrun).2

/-- The database after the entry and the obligation of a sell fill. -/
def SellPosted (env : Env) (fill : Fill) (sale : Sale) (db db' : Database) : Prop :=
  ∃ (proceeds : Money) (entry : JournalEntry) (units costs cash gainLoss : Account)
      (accounts : List Account) (entries : Table JournalEntry.id) (settlementDate : Date)
      (obligations : Table SettlementObligation.id),
    proceeds.quanta = notional fill.price fill.quantity ∧
    entry.id = env.uuid4 .journalEntry ∧ entry.entryType = .tradeSell ∧
    entry.sourceEvent = .tradeSellFill fill.customerId fill.securityId fill.executionId
      fill.quantity fill.price ∧
    IsAccountOf units fill.customerId .positionUnits (some fill.securityId) ∧
    IsAccountOf costs fill.customerId .positionCost (some fill.securityId) ∧
    IsAccountOf cash fill.customerId .cash none ∧
    IsAccountOf gainLoss fill.customerId .realizedGainLoss none ∧
    proceeds.quanta = sale.consumedBasisTotal.quanta + sale.realizedTotal.quanta ∧
    db.journalEntries.insert entry = some entries ∧
    db.settlementObligations.insert (tradeObligation env entry.id cash proceeds settlementDate
      (.tradeSellSettlementExpected fill.executionId proceeds)) = some obligations ∧
    db' = { db with
      accounts := accounts
      journalEntries := entries
      postings := db.postings ++ [⟨entry.id, units, .units fill.quantity.neg⟩,
        ⟨entry.id, costs, .money sale.consumedBasisTotal.neg⟩,
        ⟨entry.id, cash, .money proceeds⟩,
        ⟨entry.id, gainLoss, .money sale.realizedTotal.neg⟩]
      settlementObligations := obligations }

theorem sellLots_ok {env : Env} {clock : MarketClock} {fill : Fill}
    {designatedLotIds : Option (List Uuid)} {db db' : Database} {fillDate : Date} {sale : Sale}
    (h : (sellLots env clock fill designatedLotIds).run db = .ok ((fillDate, sale), db')) :
    ∃ lotIds db1,
      (selectLotsToConsume fill.customerId fill.securityId designatedLotIds).run db =
        .ok (lotIds, db1) ∧
      (consumeLots env fill fillDate lotIds (.start fill.quantity)).run db1 = .ok (sale, db') ∧
      sale.remainingToSell ≤ 0 := by
  simp only [sellLots, bind_ok, lift_ok, require_ok, pure_ok, Prod.mk.injEq] at h
  obtain ⟨_, _, ⟨-, rfl⟩, lotIds, db1, hselect, _, _, hloop, _, _, ⟨hdone, rfl⟩, ⟨rfl, rfl⟩, rfl⟩ := h
  exact ⟨lotIds, db1, hselect, hloop, hdone⟩

theorem saleLegs_ok {fill : Fill} {sale : Sale} {db db' : Database} {cash : Account}
    {proceeds : Money} {legs : List PostingLeg}
    (h : (saleLegs fill sale).run db = .ok ((cash, proceeds, legs), db')) :
    proceeds.quanta = notional fill.price fill.quantity ∧
      IsAccountOf cash fill.customerId .cash none ∧ (∃ accounts, db' = { db with accounts }) ∧
      ∃ units costs gainLoss,
        IsAccountOf units fill.customerId .positionUnits (some fill.securityId) ∧
        IsAccountOf costs fill.customerId .positionCost (some fill.securityId) ∧
        IsAccountOf gainLoss fill.customerId .realizedGainLoss none ∧
        legs = [.units units fill.quantity.neg, .money costs sale.consumedBasisTotal.neg,
          .money cash proceeds, .money gainLoss sale.realizedTotal.neg] := by
  simp only [saleLegs, bind_ok, lift_ok, pure_ok, Prod.mk.injEq] at h
  obtain ⟨units, _, hrun1, costs, _, hrun2, _, _, hrun3, gainLoss, _, hrun4, _, _,
    ⟨hproceeds, rfl⟩, ⟨rfl, rfl, rfl⟩, rfl⟩ := h
  obtain ⟨hunits, accounts1, rfl⟩ := getOrCreateCustomerAccount_ok hrun1
  obtain ⟨hcosts, accounts2, rfl⟩ := getOrCreateCustomerAccount_ok hrun2
  obtain ⟨hcash, rfl⟩ := requireCustomerAccount_ok hrun3
  obtain ⟨hgain, accounts3, rfl⟩ := getOrCreateCustomerAccount_ok hrun4
  exact ⟨Price.times_ok.mp hproceeds, hcash, ⟨accounts3, rfl⟩, units, costs, gainLoss, hunits,
    hcosts, hgain, rfl⟩

theorem recordSellFill_sells {env : Env} {clock : MarketClock} {fill : Fill}
    {designatedLotIds : Option (List Uuid)} {db db' : Database} {consumptions : List Uuid}
    (h : (recordSellFill env clock fill designatedLotIds).run db = .ok (consumptions, db')) :
    ∃ fillDate sale db2 db3,
      (sellLots env clock fill designatedLotIds).run db = .ok ((fillDate, sale), db2) ∧
      SellPosted env fill sale db2 db3 ∧
      (each (scanLoss env fill) sale.consumptions).run db3 = .ok ((), db') ∧
      consumptions = sale.consumptions := by
  simp only [recordSellFill, postSale, bind_ok, lift_ok, addSettlementObligation_ok, pure_ok] at h
  obtain ⟨⟨fillDate, sale⟩, db2, hsell, _, _, ⟨⟨cash, proceeds, legs⟩, _, hlegs, entry, _, hpost,
    rfl, rfl⟩, settlementDate, _, ⟨-, rfl⟩, _, _, ⟨obligations, hobl, rfl⟩, _, _, hscan, rfl,
    rfl⟩ := h
  obtain ⟨hproceeds, hcash, ⟨accounts, rfl⟩, units, costs, gainLoss, hunits, hcosts, hgain, rfl⟩ :=
    saleLegs_ok hlegs
  obtain ⟨hvalid, rfl, entries, hentries, rfl⟩ := post_ok hpost
  have hsum := sum_money_of_validateLegs hvalid
  refine ⟨fillDate, sale, db2, _, hsell, ⟨proceeds, _, units, costs, cash, gainLoss, accounts,
    entries, settlementDate, obligations, hproceeds, rfl, rfl, rfl, hunits, hcosts, hcash, hgain,
    ?_, hentries, hobl, rfl⟩, hscan, rfl⟩
  simp [PostingLeg.moneyQuanta, PostingLeg.money, PostingLeg.units] at hsum
  omega

/-- **A sell fill** selects its lots, consumes them until nothing is left to sell, posts its trade
and scans for wash sales. -/
theorem recordSellFill_ok {env : Env} {clock : MarketClock} {fill : Fill}
    {designatedLotIds : Option (List Uuid)} {db db' : Database} {consumptions : List Uuid}
    (h : (recordSellFill env clock fill designatedLotIds).run db = .ok (consumptions, db')) :
    ∃ fillDate lotIds sale db1 db2 db3,
      (selectLotsToConsume fill.customerId fill.securityId designatedLotIds).run db =
        .ok (lotIds, db1) ∧
      (consumeLots env fill fillDate lotIds (.start fill.quantity)).run db1 = .ok (sale, db2) ∧
      sale.remainingToSell ≤ 0 ∧ SellPosted env fill sale db2 db3 ∧
      (each (scanLoss env fill) sale.consumptions).run db3 = .ok ((), db') ∧
      consumptions = sale.consumptions := by
  obtain ⟨fillDate, sale, db2, db3, hsell, hposted, hscan, hids⟩ := recordSellFill_sells h
  obtain ⟨lotIds, db1, hselect, hloop, hdone⟩ := sellLots_ok hsell
  exact ⟨fillDate, lotIds, sale, db1, db2, db3, hselect, hloop, hdone, hposted, hscan, hids⟩

/-! ### The two fills as rules

After the wash-sale scan holds whatever held before it and every adjustment keeps. -/

theorem scan_keeps {I : Database → Prop} (hI : WashSaleInvariant I) {env : Env} {fill : Fill}
    {ids : List Uuid} {db db' : Database} {u : Unit} (hdb : I db)
    (howned : ∀ id ∈ ids, OwnedBy db id fill.customerId)
    (h : (each (scanLoss env fill) ids).run db = .ok (u, db')) : I db' := by
  let J : Database → Prop := fun db => I db ∧ ∀ id ∈ ids, OwnedBy db id fill.customerId
  have hJ : Keeps J (each (scanLoss env fill) ids) :=
    keeps_each fun id hid => keeps_bind (keeps_read _) fun _ =>
      keeps_whenever (onLossSale_keeps hI id hid)
  exact (hJ db u db' ⟨hdb, howned⟩ h).1

theorem Consumed.isPositionLot {env : Env} {fill : Fill} {lot lot' : TaxLot} {c : LotConsumption}
    {sale sale' : Sale} {db db' : Database} (h : Consumed env fill lot lot' c sale sale' db db')
    {customerId securityId lotId : Uuid} (hp : IsPositionLot db customerId securityId lotId) :
    IsPositionLot db' customerId securityId lotId := by
  obtain ⟨table, -, rfl⟩ := h.wrote
  exact Table.exists_mem_set h.mem h.id.symm (fun hl =>
    ⟨h.id.trans hl.1, h.customerId.trans hl.2.1, h.securityId.trans hl.2.2⟩) hp

theorem Consumed.ownLot {env : Env} {fill : Fill} {lot lot' : TaxLot} {c : LotConsumption}
    {sale sale' : Sale} {db db' : Database} (h : Consumed env fill lot lot' c sale sale' db db')
    {customerId securityId : Uuid} (hp : IsPositionLot db customerId securityId lot.id) :
    lot.customerId = customerId ∧ lot.securityId = securityId := by
  obtain ⟨lot0, hlot0, hid0, hcust, hsec⟩ := hp
  obtain rfl := Table.eq_of_key_eq hlot0 h.mem hid0
  exact ⟨hcust, hsec⟩

theorem consumeLots_owned {env : Env} {fill : Fill} {fillDate : Date} {lotIds : List Uuid}
    {sale : Sale} {db db' : Database}
    (hlots : ∀ id ∈ lotIds, IsPositionLot db fill.customerId fill.securityId id)
    (h : (consumeLots env fill fillDate lotIds (.start fill.quantity)).run db = .ok (sale, db')) :
    ∀ id ∈ sale.consumptions, OwnedBy db' id fill.customerId := by
  let P : Sale → Database → Prop := fun sale db =>
    (∀ id ∈ lotIds, IsPositionLot db fill.customerId fill.securityId id) ∧
      ∀ id ∈ sale.consumptions, OwnedBy db id fill.customerId
  have hP : P sale db' := by
    refine consumeLots_rule (P := P) ?_ ⟨hlots, by simp [Sale.start]⟩ h
    intro lot lot' c sale sale' db db' hid ⟨hpos, hown⟩ hc
    refine ⟨fun i hi => hc.isPositionLot (hpos i hi), fun i hi => ?_⟩
    have hcust := (hc.ownLot (hpos _ hid)).1
    obtain ⟨table, htable, rfl⟩ := hc.wrote
    have hset : ∀ {i}, IsLotOf db i fill.customerId → ∃ l ∈ db.taxLots.set lot',
        l.id = i ∧ l.customerId = fill.customerId := fun hl =>
      Table.exists_mem_set hc.mem hc.id.symm
        (fun hl => ⟨hc.id.trans hl.1, hc.customerId.trans hl.2⟩) hl
    rw [hc.consumptions, List.mem_append, List.mem_singleton] at hi
    rcases hi with hi | rfl
    · obtain ⟨c0, hc0, hid1, hl⟩ := hown i hi
      exact ⟨c0, (Table.mem_insert htable).mpr (Or.inl hc0), hid1, hset hl⟩
    · refine ⟨c, (Table.mem_insert htable).mpr (Or.inr rfl), rfl, hset ?_⟩
      exact ⟨lot, hc.mem, hc.taxLotId.symm, hcust⟩
  exact hP.2

/-- **The rule of a buy fill.** -/
theorem recordBuyFill_rule {env : Env} {clock : MarketClock} {fill : Fill} {db db' : Database}
    {lot : TaxLot} (h : (recordBuyFill env clock fill).run db = .ok (lot, db')) :
    ∃ mid, BuyPosted env fill lot db mid ∧
      ∀ {I : Database → Prop}, WashSaleInvariant I → I mid → I db' := by
  obtain ⟨mid, hposted, hwash⟩ := recordBuyFill_ok h
  refine ⟨mid, hposted, fun hI hmid => onBuyFill_keeps hI hmid ?_ hwash⟩
  obtain ⟨cost, entry, units, costs, cash, accounts, entries, settlementDate, obligations, lots, -,
    -, -, -, -, -, -, -, -, -, -, -, -, -, -, -, hlots, rfl⟩ := hposted
  exact (Table.mem_insert hlots).mpr (Or.inr rfl)

/-- **The rule of a sell fill.** -/
theorem recordSellFill_rule {env : Env} {clock : MarketClock} {fill : Fill}
    {designatedLotIds : Option (List Uuid)} {db db' : Database} {consumptions : List Uuid}
    (h : (recordSellFill env clock fill designatedLotIds).run db = .ok (consumptions, db')) :
    ∃ fillDate lotIds sale db1 db2 db3,
      (selectLotsToConsume fill.customerId fill.securityId designatedLotIds).run db =
        .ok (lotIds, db1) ∧
      (∀ id ∈ lotIds, IsPositionLot db1 fill.customerId fill.securityId id) ∧
      (consumeLots env fill fillDate lotIds (.start fill.quantity)).run db1 = .ok (sale, db2) ∧
      sale.remainingToSell ≤ 0 ∧ SellPosted env fill sale db2 db3 ∧
      ∀ {I : Database → Prop}, WashSaleInvariant I → I db3 → I db' := by
  obtain ⟨fillDate, lotIds, sale, db1, db2, db3, hselect, hloop, hdone, hposted, hscan, -⟩ :=
    recordSellFill_ok h
  have howned := selectLotsToConsume_owned hselect
  refine ⟨fillDate, lotIds, sale, db1, db2, db3, hselect, howned, hloop, hdone, hposted,
    fun hI hdb => scan_keeps hI hdb (fun id hid => ?_) hscan⟩
  have := consumeLots_owned howned hloop id hid
  obtain ⟨proceeds, entry, units, costs, cash, gainLoss, accounts, entries, settlementDate,
    obligations, -, -, -, -, -, -, -, -, -, -, -, rfl⟩ := hposted
  exact this

end Trueup.Lots
