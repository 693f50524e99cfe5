import Trueup.Ledger.Accounts
import Trueup.Restatement.RestatementService

/-! # Wash sales

`services/lots/wash_sale_service.py`: a loss sale and a buy of the same security within thirty days
of each other. The disallowed loss moves from the consumption into the basis of the replacement lot,
by an entry of its own, and the customer's figures are restated.

`applyAdjustment_ok` says what one adjustment wrote. A row is read again before each use: the
session holds one object per row, so that a lot adjusted twice carries both amounts. -/

namespace Trueup.Lots

open Trueup.Core Trueup.Models Trueup.Lib Trueup.Lib.Transaction Trueup.Ledger Trueup.Restatement

/-- `_WASH_SALE_WINDOW_DAYS`. -/
def washSaleWindowDays : ℤ := 30

/-- The current row of a lot. -/
def getTaxLot (lotId : Uuid) : Tx TaxLot :=
  read fun db => ofOption (db.taxLots.find lotId) .unknownTaxLot

/-- The current row of a consumption. -/
def getLotConsumption (consumptionId : Uuid) : Tx LotConsumption :=
  read fun db => ofOption (db.lotConsumptions.find consumptionId) .unknownTaxLot

/-- `order_by(acquired_at, id)`. -/
def lotOrder (a b : TaxLot) : Prop :=
  a.acquiredAt < b.acquiredAt ∨ (a.acquiredAt = b.acquiredAt ∧ a.id ≤ b.id)

instance : DecidableRel lotOrder := fun a b => by unfold lotOrder; infer_instance

/-- `find_earliest_replacement_in_window`. -/
def findEarliestReplacement (db : Database) (customerId securityId : Uuid)
    (windowStart windowEnd : Date) (excludeLotId : Uuid) : Option TaxLot :=
  ((db.taxLots.rows.filter fun lot => lot.customerId = customerId ∧ lot.securityId = securityId ∧
    lot.id ≠ excludeLotId ∧ windowStart ≤ lot.acquiredAt ∧ lot.acquiredAt ≤ windowEnd).insertionSort
    lotOrder).head?

/-- `find_unadjusted_losses_in_window`. -/
def findUnadjustedLosses (db : Database) (customerId securityId : Uuid)
    (windowStart windowEnd : Date) : List LotConsumption :=
  db.lotConsumptions.rows.filter fun c =>
    (∃ lot ∈ db.taxLots.find c.taxLotId,
      lot.customerId = customerId ∧ lot.securityId = securityId) ∧
    c.realizedGainLoss < 0 ∧ windowStart ≤ c.saleDate ∧ c.saleDate ≤ windowEnd ∧
    ¬ db.washSaleAdjustments.Has c.id

/-- A loss of another lot that is found after a lot is opened could be found before. -/
theorem mem_findUnadjustedLosses_insert {db mid : Database} {lot : TaxLot} {customerId securityId : Uuid}
    {windowStart windowEnd : Date} {row : LotConsumption}
    (hlots : db.taxLots.insert lot = some mid.taxLots) (hcons : mid.lotConsumptions = db.lotConsumptions)
    (hadj : mid.washSaleAdjustments = db.washSaleAdjustments) (hne : row.taxLotId ≠ lot.id)
    (h : row ∈ findUnadjustedLosses mid customerId securityId windowStart windowEnd) :
    row ∈ findUnadjustedLosses db customerId securityId windowStart windowEnd := by
  rw [findUnadjustedLosses, List.mem_filter, decide_eq_true_eq] at h ⊢
  rw [hcons, hadj, Table.find_insert hlots, if_neg hne.symm] at h
  exact h

/-- The loss that is disallowed: at most the replacement's cost. -/
def disallowedLoss (consumption : LotConsumption) (lot : TaxLot) : Money :=
  consumption.realizedGainLoss.abs.min lot.originalCostBasis

/-- What `_apply_adjustment` does to a consumption that was not adjusted yet. -/
def adjust (env : Env) (consumption : LotConsumption) (lot : TaxLot) : Tx Unit := do
  let disallowed := disallowedLoss consumption lot
  let gainLossAccount ← getOrCreateCustomerAccount lot.customerId .realizedGainLoss none
  let costAccount ← getOrCreateCustomerAccount lot.customerId .positionCost (some lot.securityId)
  let entry ← post (env.uuid4 (.washSaleEntry consumption.id)) .washSaleAdjustment lot.acquiredAt
    (.washSaleAdjustment consumption.id lot.id disallowed)
    [.money gainLossAccount disallowed.neg, .money costAccount disallowed]
  addWashSaleAdjustment ⟨consumption.id, lot.id, disallowed, entry.id⟩
  let adjustedBasis ← lift (lot.adjustedBasis.add disallowed)
  setTaxLot { lot with adjustedBasis }
  let realizedGainLoss ← lift (consumption.realizedGainLoss.add disallowed)
  setLotConsumption { consumption with realizedGainLoss }
  restate env true lot.customerId lot.acquiredAt .washSaleAdjustment entry.sourceEvent

/-- `_apply_adjustment`. -/
def applyAdjustment (env : Env) (consumptionId lotId : Uuid) : Tx Unit := do
  let consumption ← getLotConsumption consumptionId
  let lot ← getTaxLot lotId
  let adjusted ← read fun db => .ok (decide (db.washSaleAdjustments.Has consumption.id))
  whenever (adjusted = false) do
    adjust env consumption lot

/-- `on_loss_sale`: a buy that already happened before this loss sale. -/
def onLossSale (env : Env) (customerId securityId consumptionId : Uuid) : Tx Unit := do
  let consumption ← getLotConsumption consumptionId
  whenever (consumption.realizedGainLoss < 0) do
    let adjusted ← read fun db => .ok (decide (db.washSaleAdjustments.Has consumption.id))
    whenever (adjusted = false) do
      let replacement ← read fun db => .ok (findEarliestReplacement db customerId securityId
        (consumption.saleDate - washSaleWindowDays) (consumption.saleDate + washSaleWindowDays)
        consumption.taxLotId)
      match replacement with
      | none => return ()
      | some lot => applyAdjustment env consumptionId lot.id

/-- `on_buy_fill`: a buy landing after an earlier loss sale. -/
def onBuyFill (env : Env) (newLot : TaxLot) : Tx Unit := do
  let candidates ← read fun db => .ok (findUnadjustedLosses db newLot.customerId newLot.securityId
    (newLot.acquiredAt - washSaleWindowDays) (newLot.acquiredAt + washSaleWindowDays))
  each (fun consumption => whenever (consumption.taxLotId ≠ newLot.id) do
    applyAdjustment env consumption.id newLot.id) candidates

/-! ### What an adjustment wrote -/

theorem getTaxLot_ok {lotId : Uuid} {db db' : Database} {lot : TaxLot} :
    (getTaxLot lotId).run db = .ok (lot, db') ↔
      (lot ∈ db.taxLots ∧ lot.id = lotId) ∧ db = db' := by
  rw [getTaxLot, read_ok, ofOption_ok, Table.find_eq_some]

theorem getLotConsumption_ok {id : Uuid} {db db' : Database} {c : LotConsumption} :
    (getLotConsumption id).run db = .ok (c, db') ↔
      (c ∈ db.lotConsumptions ∧ c.id = id) ∧ db = db' := by
  rw [getLotConsumption, read_ok, ofOption_ok, Table.find_eq_some]

/-- What one adjustment does to the database: an entry that moves the disallowed loss from the
realized gains to the cost of the position, and the same on the consumption and the lot. -/
def Adjusted (consumption : LotConsumption) (lot : TaxLot) (db db' : Database) : Prop :=
  ∃ (basis realized : Money) (entry : JournalEntry) (gainLoss cost : Account)
      (accounts : List Account) (entries : Table JournalEntry.id)
      (adjustments : Table WashSaleAdjustment.originalLotConsumptionId)
      (returns : Table SubPeriodReturn.key) (events : List RestatementEvent)
      (disclosures : List FeeRestatementDisclosure),
    basis.quanta = lot.adjustedBasis.quanta + (disallowedLoss consumption lot).quanta ∧
    realized.quanta = consumption.realizedGainLoss.quanta +
      (disallowedLoss consumption lot).quanta ∧
    IsAccountOf gainLoss lot.customerId .realizedGainLoss none ∧
    IsAccountOf cost lot.customerId .positionCost (some lot.securityId) ∧
    entry.entryType = .washSaleAdjustment ∧
    db.journalEntries.insert entry = some entries ∧
    db.washSaleAdjustments.insert
      ⟨consumption.id, lot.id, disallowedLoss consumption lot, entry.id⟩ = some adjustments ∧
    db' = { db with
      accounts := accounts
      journalEntries := entries
      postings := db.postings ++
        [⟨entry.id, gainLoss, .money (disallowedLoss consumption lot).neg⟩,
          ⟨entry.id, cost, .money (disallowedLoss consumption lot)⟩]
      washSaleAdjustments := adjustments
      taxLots := db.taxLots.set { lot with adjustedBasis := basis }
      lotConsumptions := db.lotConsumptions.set { consumption with realizedGainLoss := realized }
      subPeriodReturns := returns
      restatementEvents := events
      feeRestatementDisclosures := disclosures }

theorem adjust_ok {env : Env} {consumption : LotConsumption} {lot : TaxLot} {db db' : Database}
    {u : Unit} (h : (adjust env consumption lot).run db = .ok (u, db')) :
    Adjusted consumption lot db db' := by
  simp only [adjust, bind_ok, lift_ok, addWashSaleAdjustment_ok, setTaxLot_ok,
    setLotConsumption_ok] at h
  obtain ⟨gainLoss, _, hrun, cost, _, hrun', entry, _, hpost, _, _, ⟨adjustments, hadj, rfl⟩, basis,
    _, ⟨hbasis, rfl⟩, _, _, rfl, realized, _, ⟨hrealized, rfl⟩, _, _, rfl, hrestate⟩ := h
  obtain ⟨hgain, accounts, rfl⟩ := getOrCreateCustomerAccount_ok hrun
  obtain ⟨hcost, accounts', rfl⟩ := getOrCreateCustomerAccount_ok hrun'
  obtain ⟨-, rfl, entries, hentries, rfl⟩ := post_ok hpost
  obtain ⟨returns, events, disclosures, rfl⟩ := restate_ok hrestate
  exact ⟨basis, realized, _, gainLoss, cost, accounts', entries, adjustments, returns, events,
    disclosures, Money.add_ok.mp hbasis, Money.add_ok.mp hrealized, hgain, hcost, rfl, hentries,
    hadj, rfl⟩

/-- **What `_apply_adjustment` did**: nothing, or one adjustment of the two rows. -/
theorem applyAdjustment_ok {env : Env} {consumptionId lotId : Uuid} {db db' : Database} {u : Unit}
    (h : (applyAdjustment env consumptionId lotId).run db = .ok (u, db')) :
    (db.washSaleAdjustments.Has consumptionId ∧ db' = db) ∨
      ∃ consumption ∈ db.lotConsumptions, ∃ lot ∈ db.taxLots,
        consumption.id = consumptionId ∧ lot.id = lotId ∧ Adjusted consumption lot db db' := by
  simp only [applyAdjustment, bind_ok, getLotConsumption_ok, getTaxLot_ok, read_ok, whenever] at h
  obtain ⟨c, _, ⟨⟨hc, rfl⟩, rfl⟩, lot, _, ⟨⟨hlot, rfl⟩, rfl⟩, adjusted, _, ⟨hadj, rfl⟩, h⟩ := h
  injection hadj with hadj
  split_ifs at h with hnot
  · exact Or.inr ⟨c, hc, lot, hlot, rfl, rfl, adjust_ok h⟩
  · refine Or.inl ⟨?_, (pure_ok.mp h).2.symm⟩
    rw [← hadj, decide_eq_false_iff_not, not_not] at hnot
    exact hnot

theorem mem_of_findEarliestReplacement {db : Database} {customerId securityId : Uuid}
    {windowStart windowEnd : Date} {excludeLotId : Uuid} {lot : TaxLot}
    (h : findEarliestReplacement db customerId securityId windowStart windowEnd excludeLotId =
      some lot) :
    lot ∈ db.taxLots ∧ lot.customerId = customerId ∧ lot.securityId = securityId ∧
      lot.id ≠ excludeLotId ∧ windowStart ≤ lot.acquiredAt ∧ lot.acquiredAt ≤ windowEnd := by
  have hmem := List.mem_of_mem_head? h
  simp only [List.mem_insertionSort, List.mem_filter, decide_eq_true_eq] at hmem
  exact hmem

/-- The replacement of a loss in its window. -/
def replacementOf (db : Database) (customerId securityId : Uuid) (consumption : LotConsumption) :
    Option TaxLot :=
  findEarliestReplacement db customerId securityId (consumption.saleDate - washSaleWindowDays)
    (consumption.saleDate + washSaleWindowDays) consumption.taxLotId

/-- **What the trailing side did**: nothing, or one adjustment of a loss that had none, with the
earliest replacement. -/
theorem onLossSale_ok {env : Env} {customerId securityId consumptionId : Uuid}
    {db db' : Database} {u : Unit}
    (h : (onLossSale env customerId securityId consumptionId).run db = .ok (u, db')) :
    ∃ consumption ∈ db.lotConsumptions, consumption.id = consumptionId ∧
      ((db' = db ∧ (0 ≤ consumption.realizedGainLoss.quanta ∨
          db.washSaleAdjustments.Has consumptionId ∨
          replacementOf db customerId securityId consumption = none)) ∨
        (consumption.realizedGainLoss.quanta < 0 ∧
          ∃ lot, replacementOf db customerId securityId consumption = some lot ∧
            Adjusted consumption lot db db')) := by
  simp only [onLossSale, bind_ok, getLotConsumption_ok, whenever] at h
  obtain ⟨c, _, ⟨⟨hc, rfl⟩, rfl⟩, h⟩ := h
  refine ⟨c, hc, rfl, ?_⟩
  split_ifs at h with hloss
  swap
  · exact Or.inl ⟨(pure_ok.mp h).2.symm, Or.inl (not_lt.mp hloss)⟩
  simp only [bind_ok, read_ok] at h
  obtain ⟨adjusted, _, ⟨hadj, rfl⟩, h⟩ := h
  injection hadj with hadj
  split_ifs at h with hnot
  swap
  · rw [← hadj, decide_eq_false_iff_not, not_not] at hnot
    exact Or.inl ⟨(pure_ok.mp h).2.symm, Or.inr (Or.inl hnot)⟩
  simp only [bind_ok, read_ok] at h
  obtain ⟨replacement, _, ⟨hrep, rfl⟩, h⟩ := h
  injection hrep with hrep
  cases replacement with
  | none => exact Or.inl ⟨(pure_ok.mp h).2.symm, Or.inr (Or.inr hrep)⟩
  | some lot =>
    rcases applyAdjustment_ok h with ⟨hhas, rfl⟩ | ⟨c', hc', lot', hlot', hid', hlid, hadjusted⟩
    · exact Or.inl ⟨rfl, Or.inr (Or.inl hhas)⟩
    · obtain rfl := Table.eq_of_key_eq hc' hc hid'
      obtain rfl := Table.eq_of_key_eq hlot' (mem_of_findEarliestReplacement hrep).1 hlid
      exact Or.inr ⟨hloss, lot', hrep, hadjusted⟩

/-! ### Invariants

What every adjustment keeps, both entry points keep. The lot of the consumption and the replacement
lot are of the same customer (`OwnedBy`): the queries ask for it, and no row changes its owner. -/

/-- The lot is a lot of the customer. -/
def IsLotOf (db : Database) (lotId customerId : Uuid) : Prop :=
  ∃ lot ∈ db.taxLots, lot.id = lotId ∧ lot.customerId = customerId

/-- The consumption is of a lot of the customer. -/
def OwnedBy (db : Database) (consumptionId customerId : Uuid) : Prop :=
  ∃ c ∈ db.lotConsumptions, c.id = consumptionId ∧ IsLotOf db c.taxLotId customerId

/-- Every adjustment of a customer's own consumption and lot keeps `I`. -/
def WashSaleInvariant (I : Database → Prop) : Prop :=
  ∀ {db db' : Database} {consumption : LotConsumption} {lot : TaxLot}, I db →
    consumption ∈ db.lotConsumptions → lot ∈ db.taxLots →
    OwnedBy db consumption.id lot.customerId → Adjusted consumption lot db db' → I db'

theorem Adjusted.isLotOf {consumption : LotConsumption} {lot : TaxLot} {db db' : Database}
    (h : Adjusted consumption lot db db') (hlot : lot ∈ db.taxLots) {lotId customerId : Uuid}
    (ho : IsLotOf db lotId customerId) : IsLotOf db' lotId customerId := by
  obtain ⟨basis, realized, entry, gainLoss, cost, accounts, entries, adjustments, returns, events,
    disclosures, -, -, -, -, -, -, -, rfl⟩ := h
  exact Table.exists_mem_set hlot rfl id ho

theorem Adjusted.ownedBy {consumption : LotConsumption} {lot : TaxLot} {db db' : Database}
    (h : Adjusted consumption lot db db') (hc : consumption ∈ db.lotConsumptions)
    (hlot : lot ∈ db.taxLots) {id customerId : Uuid} (ho : OwnedBy db id customerId) :
    OwnedBy db' id customerId := by
  have hl {lotId : Uuid} (hown : IsLotOf db lotId customerId) : IsLotOf db' lotId customerId :=
    h.isLotOf hlot hown
  obtain ⟨basis, realized, entry, gainLoss, cost, accounts, entries, adjustments, returns, events,
    disclosures, -, -, -, -, -, -, -, rfl⟩ := h
  have hset : ∃ c ∈ db.lotConsumptions.set { consumption with realizedGainLoss := realized },
      c.id = id ∧ IsLotOf db c.taxLotId customerId :=
    Table.exists_mem_set hc rfl (fun hown => hown) ho
  obtain ⟨c, hmem, hid, howned⟩ := hset
  exact ⟨c, hmem, hid, hl howned⟩

section Invariants
variable {I : Database → Prop} (hI : WashSaleInvariant I)
include hI

theorem applyAdjustment_keeps {env : Env} {consumptionId lotId : Uuid} (customerId : Uuid)
    {J : Database → Prop} (hJ : ∀ {db}, J db → I db ∧ OwnedBy db consumptionId customerId ∧
      IsLotOf db lotId customerId)
    (hstep : ∀ {db db' consumption lot}, J db → I db' → consumption ∈ db.lotConsumptions →
      lot ∈ db.taxLots → Adjusted consumption lot db db' → J db') :
    Keeps J (applyAdjustment env consumptionId lotId) := by
  intro db u db' hdb h
  rcases applyAdjustment_ok h with ⟨-, rfl⟩ | ⟨c, hc, lot, hlot, rfl, rfl, hadj⟩
  · exact hdb
  · obtain ⟨hi, ho, lot', hlot', hid, rfl⟩ := hJ hdb
    obtain rfl := Table.eq_of_key_eq hlot' hlot hid
    exact hstep hdb (hI hi hc hlot ho hadj) hc hlot hadj

/-- **The forward side keeps what every adjustment keeps.** -/
theorem onBuyFill_keeps {env : Env} {newLot : TaxLot} {db db' : Database} {u : Unit}
    (hdb : I db) (hnew : newLot ∈ db.taxLots)
    (h : (onBuyFill env newLot).run db = .ok (u, db')) : I db' := by
  simp only [onBuyFill, bind_ok, read_ok] at h
  obtain ⟨candidates, _, ⟨hcand, rfl⟩, h⟩ := h
  -- the loop keeps the ownership of every candidate, and of the new lot
  let J : Database → Prop := fun db => I db ∧
    (∀ c ∈ candidates, OwnedBy db c.id newLot.customerId) ∧
    IsLotOf db newLot.id newLot.customerId
  have hJ : J db := by
    refine ⟨hdb, fun c hc => ?_, newLot, hnew, rfl, rfl⟩
    cases hcand
    simp only [findUnadjustedLosses, List.mem_filter, decide_eq_true_eq] at hc
    obtain ⟨hc, ⟨lot, hlot, hown, -⟩, -⟩ := hc
    obtain ⟨hlot, hid⟩ := Table.find_eq_some.mp hlot
    exact ⟨c, hc, rfl, lot, hlot, hid, hown⟩
  refine (keeps_each (I := J) fun c hc => keeps_whenever ?_) db u db' hJ h |>.1
  refine applyAdjustment_keeps hI newLot.customerId (fun hJ => ?_) ?_
  · exact ⟨hJ.1, hJ.2.1 c hc, hJ.2.2⟩
  · intro s s' consumption lot hJ hi hcon hlot hadj
    exact ⟨hi, fun c hc => hadj.ownedBy hcon hlot (hJ.2.1 c hc), hadj.isLotOf hlot hJ.2.2⟩

/-- **The trailing side keeps what every adjustment keeps.** -/
theorem onLossSale_keeps {env : Env} {customerId securityId : Uuid} {consumptionIds : List Uuid} :
    ∀ id ∈ consumptionIds,
      Keeps (fun db => I db ∧ ∀ id ∈ consumptionIds, OwnedBy db id customerId)
        (onLossSale env customerId securityId id) := by
  intro id hid db u db' hdb h
  obtain ⟨c, hc, rfl, ⟨rfl, -⟩ | ⟨-, lot, hrep, hadj⟩⟩ := onLossSale_ok h
  · exact hdb
  · obtain ⟨hlot, hcust, -⟩ := mem_of_findEarliestReplacement hrep
    refine ⟨hI hdb.1 hc hlot ?_ hadj, fun i hi => hadj.ownedBy hc hlot (hdb.2 i hi)⟩
    rw [hcust]
    exact hdb.2 _ hid

end Invariants

end Trueup.Lots
