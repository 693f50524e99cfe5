import Trueup.Lots.BasisRecovery
import Trueup.Restatement.Growth
import Trueup.Statements.StatementExport

/-! # The export of a published statement later on

The lines of an export are read from live rows: a later sale or wash-sale adjustment changes the
`adjusted_basis` of a lot of the statement, and a later buy the gain of one of its consumptions.

* `Unmoved`: the lines of a statement are read from the same rows, with the same figures; what is
  not a fill of the customer keeps it.
* `export_as_published`: in a run of operations after the period in which no fill moves basis out of
  or into a lot of the statement, and no buy replaces a loss of it (`KeepsExport`), the export is at
  every later time what it was at first. -/

namespace Trueup.Statements

open Trueup.Core Trueup.Models Trueup.Lib Trueup.Lib.Transaction Trueup.Ledger Trueup.Valuation
open Trueup.Lots Trueup.Orders Trueup.Reporting Trueup.Restatement

/-- The consumptions of a statement. -/
def realizedIn (db : Database) (snapshot : PublishedSnapshot) : List LotConsumption :=
  db.lotConsumptions.rows.filter
    (isRealizedIn db snapshot.customerId snapshot.periodStart snapshot.periodEnd)

/-- A line of the statement is read from the lot. -/
def Exported (db : Database) (snapshot : PublishedSnapshot) (lotId : Uuid) : Prop :=
  ∃ c ∈ realizedIn db snapshot, c.taxLotId = lotId

instance (db : Database) (snapshot : PublishedSnapshot) (lotId : Uuid) :
    Decidable (Exported db snapshot lotId) := by unfold Exported; infer_instance

/-- What a line is read from of its lot. -/
def exportFacts (lot : TaxLot) : Uuid × Money × Money :=
  (lot.securityId, lot.originalCostBasis, lot.adjustedBasis)

/-- **The lines of the statement are as they were.** -/
structure Unmoved (snapshot : PublishedSnapshot) (db db' : Database) : Prop where
  known : ConsumptionsOfLots db'
  rows : realizedIn db' snapshot = realizedIn db snapshot
  lots : ∀ lotId, Exported db snapshot lotId →
    (db'.taxLots.find lotId).map exportFacts = (db.taxLots.find lotId).map exportFacts

section Unmoved
variable {snapshot : PublishedSnapshot} {db₀ db db' : Database}

theorem Unmoved.refl (h : ConsumptionsOfLots db) : Unmoved snapshot db db :=
  ⟨h, rfl, fun _ _ => rfl⟩

theorem Unmoved.exported_iff (h : Unmoved snapshot db db') (lotId : Uuid) :
    Exported db' snapshot lotId ↔ Exported db snapshot lotId := by
  unfold Exported
  rw [h.rows]

theorem Unmoved.trans (h : Unmoved snapshot db₀ db) (h' : Unmoved snapshot db db') :
    Unmoved snapshot db₀ db' :=
  ⟨h'.known, h'.rows.trans h.rows, fun lotId hlot =>
    (h'.lots lotId ((h.exported_iff lotId).mpr hlot)).trans (h.lots lotId hlot)⟩

/-- Lots that keep their owner, their figures if a line is read from them, and consumptions of these
lots that select the same lines. -/
theorem Unmoved.of_parts
    (hlots : ∀ lot ∈ db.taxLots, ∃ lot' ∈ db'.taxLots, lot'.id = lot.id ∧
      lot'.customerId = lot.customerId ∧
      (Exported db snapshot lot.id → exportFacts lot' = exportFacts lot))
    (hold : ∀ c ∈ db'.lotConsumptions, db.taxLots.Has c.taxLotId)
    (hrows : db'.lotConsumptions.rows.filter (isRealizedIn db snapshot.customerId
      snapshot.periodStart snapshot.periodEnd) = realizedIn db snapshot) :
    Unmoved snapshot db db' := by
  have hfind : ∀ {lotId lot}, db.taxLots.find lotId = some lot → ∃ lot',
      db'.taxLots.find lotId = some lot' ∧ lot'.customerId = lot.customerId ∧
        (Exported db snapshot lotId → exportFacts lot' = exportFacts lot) := by
    intro lotId lot hlot
    obtain ⟨hmem, rfl⟩ := Table.find_eq_some.mp hlot
    obtain ⟨lot', hmem', hid, hcustomer, hfacts⟩ := hlots lot hmem
    exact ⟨lot', Table.find_eq_some.mpr ⟨hmem', hid⟩, hcustomer, hfacts⟩
  have hsome : ∀ {lotId}, db.taxLots.Has lotId → ∃ lot, db.taxLots.find lotId = some lot :=
    fun hhas => Option.ne_none_iff_exists'.mp fun hnone => Table.find_eq_none.mp hnone hhas
  refine ⟨fun c hc => ?_, ?_, fun lotId hexp => ?_⟩
  · obtain ⟨lot, hlot⟩ := hsome (hold c hc)
    obtain ⟨lot', hlot', -⟩ := hfind hlot
    obtain ⟨hmem, hid⟩ := Table.find_eq_some.mp hlot'
    exact hid ▸ Table.has_of_mem hmem
  · rw [← hrows]
    refine List.filter_congr fun c hc => ?_
    obtain ⟨lot, hlot⟩ := hsome (hold c hc)
    obtain ⟨lot', hlot', hcustomer, -⟩ := hfind hlot
    simp [isRealizedIn, hlot, hlot', hcustomer]
  · cases hlot : db.taxLots.find lotId with
    | some lot =>
      obtain ⟨lot', hlot', -, hfacts⟩ := hfind hlot
      rw [hlot', Option.map_some, Option.map_some, hfacts hexp]
    | none =>
      -- a line is read from a lot there is
      obtain ⟨c, hc, rfl⟩ := hexp
      have hreal := (List.mem_filter.mp hc).2
      simp [isRealizedIn, hlot] at hreal

theorem Unmoved.of_view (h : Unmoved snapshot db₀ db) (hlots : db'.taxLots = db.taxLots)
    (hcons : db'.lotConsumptions = db.lotConsumptions) : Unmoved snapshot db₀ db' := by
  refine h.trans (.of_parts (fun lot hlot => ⟨lot, hlots ▸ hlot, rfl, rfl, fun _ => rfl⟩)
    (fun c hc => h.known c (hcons ▸ hc)) ?_)
  rw [hcons, realizedIn]

theorem unmovedWrites (env : Env) (snapshot : PublishedSnapshot) (db₀ : Database) :
    KeptByWrites env (Unmoved snapshot db₀) where
  view h hview := by
    simp only [coreView, Prod.mk.injEq] at hview
    exact h.of_view hview.2.2.1 hview.2.2.2.1
  entry entry legs := by
    intro db e db' h hrun
    obtain ⟨-, -, -, t, -, rfl⟩ := writeEntry_ok.mp hrun
    exact h.of_view rfl rfl
  returns customerId vBegin vEnd := by
    intro db row db' h hrun
    obtain ⟨current, -, ⟨-, -, rfl⟩ | ⟨-, t, -, rfl⟩⟩ := subPeriodReturn_ok hrun
    · exact h
    · exact h.of_view rfl rfl

/-- A lot is replaced by one with the same owner and, if a line is read from it, the same
figures. -/
theorem Unmoved.setLot (h : Unmoved snapshot db₀ db) {lot l : TaxLot} (hlot : lot ∈ db.taxLots)
    (hid : l.id = lot.id) (hcustomer : l.customerId = lot.customerId)
    (hfacts : Exported db₀ snapshot lot.id → exportFacts l = exportFacts lot)
    (htables : db'.taxLots = db.taxLots.set l ∧ db'.lotConsumptions = db.lotConsumptions) :
    Unmoved snapshot db₀ db' := by
  refine h.trans (.of_parts (fun old hold => ?_) (fun c hc => h.known c (htables.2 ▸ hc)) ?_)
  · by_cases hkey : old.id = l.id
    · obtain rfl := Table.eq_of_key_eq hold hlot (hkey.trans hid)
      exact ⟨l, htables.1 ▸ Table.mem_set_self hold hkey, hid, hcustomer,
        fun hexp => hfacts ((h.exported_iff _).mp hexp)⟩
    · exact ⟨old, htables.1 ▸ Table.mem_set.mpr (Or.inl ⟨hold, hkey⟩), rfl, rfl, fun _ => rfl⟩
  · rw [htables.2, realizedIn]

end Unmoved

/-! ### Adjustments and splits -/

/-- An adjustment that disallows nothing of a line, and nothing into a lot a line is read from. -/
theorem Unmoved.adjusted {snapshot : PublishedSnapshot} {db₀ db db' : Database}
    {consumption : LotConsumption} {lot : TaxLot} (h : Unmoved snapshot db₀ db)
    (hc : consumption ∈ db.lotConsumptions) (hlot : lot ∈ db.taxLots)
    (hline : consumption ∈ realizedIn db snapshot → (disallowedLoss consumption lot).quanta = 0)
    (hexported : Exported db₀ snapshot lot.id → (disallowedLoss consumption lot).quanta = 0)
    (hadj : Adjusted consumption lot db db') : Unmoved snapshot db₀ db' := by
  obtain ⟨basis, realized, entry, gainLoss, cost, accounts, entries, adjustments, returns, events,
    disclosures, hbasis, hrealized, -, -, -, -, -, hdb'⟩ := hadj
  have hmid : Unmoved snapshot db₀
      { db with taxLots := db.taxLots.set { lot with adjustedBasis := basis } } := by
    refine h.setLot (l := { lot with adjustedBasis := basis }) hlot rfl rfl (fun hexp => ?_) ⟨rfl, rfl⟩
    rw [hexported hexp, add_zero] at hbasis
    simp only [exportFacts, QuantizedDecimal.ext hbasis]
  refine hmid.trans (.of_parts (fun l hl => ⟨l, by rw [hdb']; exact hl, rfl, rfl, fun _ => rfl⟩)
    (fun c hmem => ?_) ?_)
  · rw [hdb'] at hmem
    rcases Table.mem_set.mp hmem with ⟨hmem, -⟩ | ⟨rfl, -⟩
    · exact hmid.known c hmem
    · exact hmid.known consumption hc
  · rw [hdb']
    set p := isRealizedIn { db with taxLots := db.taxLots.set { lot with adjustedBasis := basis } }
      snapshot.customerId snapshot.periodStart snapshot.periodEnd with hp
    show (db.lotConsumptions.set { consumption with realizedGainLoss := realized }).rows.filter p =
      db.lotConsumptions.rows.filter p
    by_cases hreal : p consumption
    · -- the line keeps its gain
      have hmem : consumption ∈ realizedIn db snapshot := by
        rw [h.rows, ← hmid.rows]
        exact List.mem_filter.mpr ⟨hc, hreal⟩
      rw [hline hmem, add_zero] at hrealized
      have hsame : { consumption with realizedGainLoss := realized } = consumption := by
        rw [QuantizedDecimal.ext hrealized]
      rw [hsame, Table.set_self hc]
    · rw [Bool.not_eq_true] at hreal
      exact Table.filter_set hc rfl hreal hreal

theorem unmoved_scaleLot {snapshot : PublishedSnapshot} {db₀ : Database}
    (ratio : SplitRatio) (lotId : Uuid) : Keeps (Unmoved snapshot db₀) (scaleLot ratio lotId) := by
  intro db u db' h hrun
  obtain ⟨lot, hlot, lot', -, hscaled, rfl⟩ := scaleLot_ok hrun
  exact h.setLot hlot (by rw [hscaled.rest]) (by rw [hscaled.rest])
    (fun _ => by rw [hscaled.rest]; rfl) ⟨rfl, rfl⟩

theorem unmoved_applySplit {env : Env} {snapshot : PublishedSnapshot} {db₀ : Database}
    (securityId : Uuid) (ratio : SplitRatio) (effectiveDate : Date) :
    Keeps (Unmoved snapshot db₀) (applySplit env securityId ratio effectiveDate) := by
  have w := unmovedWrites env snapshot db₀
  refine keeps_bind (keeps_lift _) fun _ => keeps_bind (keeps_read _) fun _ =>
    keeps_each fun customerId _ => keeps_bind (keeps_read _) fun lots => keeps_whenever ?_
  exact keeps_bind (keeps_lift _) fun _ =>
    keeps_bind (keeps_each fun _ _ => unmoved_scaleLot _ _) fun _ =>
    keeps_bind (keeps_lift _) fun _ => keeps_bind (w.getOrCreateCustomerAccount _ _ _) fun _ =>
    keeps_bind (w.post _ _ _ _ _) fun _ => w.restate _ _ _ _ _

/-! ### The condition -/

/-- A sale moves no basis out of a lot of the statement, and carries no loss into one. -/
def SaleKeepsExport (db : Database) (snapshot : PublishedSnapshot) (fill : Fill)
    (designatedLotIds : Option (List Uuid)) (day : Date) : Prop :=
  ∀ t ∈ saleTakes db fill designatedLotIds, ∀ lot ∈ db.taxLots.find t.1,
    (Exported db snapshot lot.id → ∀ basis ∈ basisOf lot t.2, basis = 0) ∧
    (isLoss fill.price lot t.2 →
      ∀ replacement ∈ findEarliestReplacement db fill.customerId fill.securityId
          (day - washSaleWindowDays) (day + washSaleWindowDays) lot.id,
        Exported db snapshot replacement.id → replacement.originalCostBasis.quanta = 0)

/-- A buy replaces no loss of the statement, unless it costs nothing. -/
def BuyKeepsExport (db : Database) (snapshot : PublishedSnapshot) (fill : Fill) (day : Date) : Prop :=
  ∀ c ∈ findUnadjustedLosses db fill.customerId fill.securityId (day - washSaleWindowDays)
      (day + washSaleWindowDays),
    c ∈ realizedIn db snapshot → notional fill.price fill.quantity = 0

/-- **The operation leaves the lines of the statement as they are.** -/
def KeepsExport (db : Database) (snapshot : PublishedSnapshot) : LotOp → Prop
  | .buyFill clock fill =>
    ∀ day, clock.marketDate fill.filledAt = .ok day → BuyKeepsExport db snapshot fill day
  | .sellFill clock fill designatedLotIds =>
    ∀ day, clock.marketDate fill.filledAt = .ok day →
      SaleKeepsExport db snapshot fill designatedLotIds day
  | .split _ _ _ => True

/-- The fill is dated after the day. -/
def DatedAfter (day : Date) : LotOp → Prop
  | .buyFill clock fill | .sellFill clock fill _ =>
    ∀ fillDate, clock.marketDate fill.filledAt = .ok fillDate → day < fillDate
  | .split _ _ _ => True

instance (db : Database) (snapshot : PublishedSnapshot) (fill : Fill)
    (designatedLotIds : Option (List Uuid)) (day : Date) :
    Decidable (SaleKeepsExport db snapshot fill designatedLotIds day) := by
  unfold SaleKeepsExport; infer_instance

instance (db : Database) (snapshot : PublishedSnapshot) (fill : Fill) (day : Date) :
    Decidable (BuyKeepsExport db snapshot fill day) := by
  unfold BuyKeepsExport; infer_instance

instance (db : Database) (snapshot : PublishedSnapshot) (op : LotOp) :
    Decidable (KeepsExport db snapshot op) := by
  unfold KeepsExport; split <;> infer_instance

instance (day : Date) (op : LotOp) : Decidable (DatedAfter day op) := by
  unfold DatedAfter; split <;> infer_instance

/-! ### Fills -/

section Fills
variable {env : Env} {snapshot : PublishedSnapshot} {clock : MarketClock} {fill : Fill}
  {db db' : Database}

theorem recordBuyFill_unmoved {lot : TaxLot} (hknown : ConsumptionsOfLots db)
    (hkeeps : ∀ day, clock.marketDate fill.filledAt = .ok day → BuyKeepsExport db snapshot fill day)
    (hrun : (recordBuyFill env clock fill).run db = .ok (lot, db')) : Unmoved snapshot db db' := by
  have hopened := recordBuyFill_opened hrun
  obtain ⟨mid, hposted, hwash⟩ := recordBuyFill_ok hrun
  obtain ⟨cost, entry, units, costs, cash, accounts, entries, settlementDate, obligations, lots,
    hcost, -, -, -, -, -, -, hcust, hsec, -, -, -, hbasis, -, -, -, hlots, hmid⟩ := hposted
  have hfree := (Table.insert_eq_some.mp hlots).1
  have hcons : mid.lotConsumptions = db.lotConsumptions := by rw [hmid]
  have hunmoved : Unmoved snapshot db mid := by
    refine .of_parts (fun l hl => ⟨l, ?_, rfl, rfl, fun _ => rfl⟩) (fun c hc => ?_) ?_
    · rw [hmid]; exact (Table.mem_insert hlots).mpr (Or.inl hl)
    · exact hknown c (hcons ▸ hc)
    · rw [hcons, realizedIn]
  have hnew : lot ∈ mid.taxLots := by rw [hmid]; exact (Table.mem_insert hlots).mpr (Or.inr rfl)
  refine (onBuyFill_rule (I := fun s => SameLots mid s ∧ Unmoved snapshot db s)
    ⟨.refl mid, hunmoved⟩ ?_ hwash).2
  rintro s s' c l ⟨hsame, hs⟩ hc hl hid ⟨row, hrow, hrowId, hne⟩ hadj
  refine ⟨hadj.sameLots hsame hl, hs.adjusted hc hl (fun hline => ?_) (fun hexp => ?_) hadj⟩
  · -- the loss is one of the statement, so that the new lot has cost nothing
    rw [hs.rows] at hline
    have hloss : c ∈ findUnadjustedLosses db fill.customerId fill.securityId
        (lot.acquiredAt - washSaleWindowDays) (lot.acquiredAt + washSaleWindowDays) := by
      obtain rfl := Table.eq_of_key_eq (t := db.lotConsumptions) (hcons ▸ List.mem_of_mem_filter hrow)
        (List.mem_of_mem_filter hline) hrowId
      rw [← hcust, ← hsec]
      exact mem_findUnadjustedLosses_insert (by rw [hmid]; exact hlots) hcons (by rw [hmid]) hne hrow
    have hzero := hkeeps _ hopened.1 c hloss hline
    obtain ⟨l0, hl0, hid0, -, horiginal⟩ := hsame l hl
    obtain rfl := Table.eq_of_key_eq hl0 hnew (hid0.trans hid)
    refine disallowedLoss_eq_zero ?_
    rw [horiginal, hopened.2, hbasis, hcost, hzero]
  · -- no line is read from the new lot
    obtain ⟨c', hc', hlotId⟩ := hexp
    exact absurd (hid ▸ hlotId ▸ hknown c' (List.mem_of_mem_filter hc')) hfree

/-- The takes of a sale that leave the basis of the lots of the statement leave its lines. -/
theorem unmoved_of_took {takes : List (Uuid × ℤ)} {sold : List LotConsumption} {mid : Database}
    {fill : Fill} (htook : Took fill takes sold db mid) (hknown : ConsumptionsOfLots db)
    (hfacts : lotFacts mid = lotFacts db) (hlater : ∀ c ∈ sold, snapshot.periodEnd < c.saleDate)
    (hbasis : ∀ t ∈ takes, ∀ lot ∈ db.taxLots.find t.1,
      Exported db snapshot lot.id → ∀ basis ∈ basisOf lot t.2, basis = 0) :
    Unmoved snapshot db mid := by
  refine .of_parts (fun lot hlot => ?_) (fun c hc => ?_) ?_
  · obtain ⟨lot', hlot', hid⟩ := Table.has_iff.mp
      ((has_of_lotFacts hfacts lot.id).mpr (Table.has_of_mem hlot))
    obtain ⟨lot0, hlot0, hid0, hkeep⟩ := htook.lots lot' hlot'
    obtain rfl := Table.eq_of_key_eq hlot0 hlot (hid0.symm.trans hid)
    refine ⟨lot', hlot', hid, ?_⟩
    rcases hkeep with ⟨-, hsame⟩ | ⟨t, ht, htid, htaken⟩
    · exact ⟨by rw [hsame], fun _ => by rw [hsame]; rfl⟩
    · obtain ⟨basis, hbasisOf, hadjusted⟩ := htaken.basis
      refine ⟨by rw [htaken.rest], fun hexp => ?_⟩
      have hzero := hbasis t ht lot0 (Table.find_eq_some.mpr ⟨hlot0, htid.symm⟩) hexp basis hbasisOf
      rw [hzero, sub_zero] at hadjusted
      have hsame : lot'.adjustedBasis = lot0.adjustedBasis := QuantizedDecimal.ext hadjusted
      rw [htaken.rest]
      simp only [exportFacts, hsame]
  · rw [Table.mem_iff, htook.rows] at hc
    rcases List.mem_append.mp hc with hc | hc
    · exact hknown c hc
    · obtain ⟨lot, hlot, hrecorded⟩ := htook.recorded c hc
      exact hrecorded.taxLotId ▸ Table.has_of_mem hlot
  · have hnone : sold.filter (isRealizedIn db snapshot.customerId snapshot.periodStart
        snapshot.periodEnd) = [] := by
      refine List.filter_eq_nil_iff.mpr fun c hc => ?_
      simp [isRealizedIn, hlater c hc]
    rw [htook.rows, List.filter_append, hnone, List.append_nil, realizedIn]

theorem recordSellFill_unmoved {designatedLotIds : Option (List Uuid)} {ids : List Uuid}
    (hknown : ConsumptionsOfLots db)
    (hlater : ∀ day, clock.marketDate fill.filledAt = .ok day → snapshot.periodEnd < day)
    (hkeeps : ∀ day, clock.marketDate fill.filledAt = .ok day →
      SaleKeepsExport db snapshot fill designatedLotIds day)
    (hrun : (recordSellFill env clock fill designatedLotIds).run db = .ok (ids, db')) :
    Unmoved snapshot db db' := by
  obtain ⟨day, sold, mid, hday, htook, -, hdates, hfacts, -, hscan⟩ := recordSellFill_took hrun
  have hcond := hkeeps day hday
  have hunmoved := unmoved_of_took htook hknown hfacts (fun c hc => hdates c hc ▸ hlater day hday)
    fun t ht lot hlot => (hcond t ht lot hlot).1
  -- the scan: the replacement of a recorded loss is not of the statement, or has cost nothing
  let P : Date → Uuid → Prop := fun date lotId => snapshot.periodEnd < date ∧
    (Exported db snapshot lotId → ∀ lot ∈ mid.taxLots, lot.id = lotId →
      lot.originalCostBasis.quanta = 0)
  have hreplaced : ∀ c ∈ sold, c.realizedGainLoss.quanta < 0 → ∀ lot,
      replacementOf mid fill.customerId fill.securityId c = some lot → P c.saleDate lot.id := by
    intro c hc hloss lot' hreplacement
    refine ⟨hdates c hc ▸ hlater day hday, fun hexp l hl hlid => ?_⟩
    obtain ⟨lot, r, hfind, hneg, hearliest, hid, hleft⟩ :=
      htook.replacement hfacts hc hloss hreplacement
    rw [hdates c hc] at hearliest
    rw [(hleft l hl (hlid.trans hid.symm)).1]
    exact (hcond _ (htook.mem_takes hc) lot hfind).2 hneg r hearliest (hid ▸ hexp)
  refine (htook.scan_rule (P := P) (I := fun s => SameLots mid s ∧ Unmoved snapshot db s) ?_
    ⟨.refl mid, hunmoved⟩ hreplaced hscan).2
  rintro s s' c l ⟨hsame, hs⟩ hc hl ⟨hdate, hzero⟩ hadj
  refine ⟨hadj.sameLots hsame hl, hs.adjusted hc hl (fun hline => ?_) (fun hexp => ?_) hadj⟩
  · have hreal := (List.mem_filter.mp hline).2
    simp only [isRealizedIn, decide_eq_true_eq] at hreal
    exact absurd hreal.2.2 (not_le.mpr hdate)
  · obtain ⟨l0, hl0, hid0, -, horiginal⟩ := hsame l hl
    refine disallowedLoss_eq_zero ?_
    rw [horiginal]
    exact hzero hexp l0 hl0 hid0

/-- **The lot services** leave the lines of the statement alone. -/
theorem lotBody_unmoved {op : LotOp} {u : Unit} (hknown : ConsumptionsOfLots db)
    (hlater : DatedAfter snapshot.periodEnd op) (hkeeps : KeepsExport db snapshot op)
    (hrun : (lotBody ⟨env, op⟩).run db = .ok (u, db')) : Unmoved snapshot db db' := by
  cases op with
  | buyFill clock fill =>
    obtain ⟨lot, hrun⟩ := System.discard_ok hrun
    exact recordBuyFill_unmoved hknown hkeeps hrun
  | sellFill clock fill designatedLotIds =>
    obtain ⟨ids, hrun⟩ := System.discard_ok hrun
    exact recordSellFill_unmoved hknown hlater hkeeps hrun
  | split securityId ratio effectiveDate =>
    exact unmoved_applySplit securityId ratio effectiveDate db u db' (.refl hknown) hrun

end Fills

/-! ### Every operation -/

/-- The fill of a trade update, as a call of the lot services. -/
def fillOfUpdate (db : Database) (env : Env) (message : TradeUpdate) : Option LotOp := do
  let order ← findByClientOrderId db message.clientOrderId
  let executionId ← message.executionId
  let quantity ← (QuantizedDecimal.ofText message.qty).toOption
  let price ← (QuantizedDecimal.ofText message.price).toOption
  let fill := fillOfMessage order message executionId quantity price
  return match order.side with
    | .buy => .buyFill (db.marketClock env) fill
    | .sell => .sellFill (db.marketClock env) fill order.designatedLotIds

/-- What a step does to the lots. -/
def lotOpOf (db : Database) (step : Step) : Option LotOp :=
  match step.op with
  | .lots op => some op
  | .application (.applySplit securityId ratio effectiveDate) =>
    some (.split securityId ratio effectiveDate)
  | .application (.tradeUpdate _ message) =>
    if eventTypeOf message.event = some .fill then fillOfUpdate db step.env message else none
  | _ => none

/-- The fill of the step is dated after the day. -/
def fillsAfter (day : Date) (db : Database) (step : Step) : Prop :=
  ∀ op ∈ lotOpOf db step, DatedAfter day op

/-- The fill of the step leaves the lines of the statement as they are. -/
def fillsKeepExport (snapshot : PublishedSnapshot) (db : Database) (step : Step) : Prop :=
  ∀ op ∈ lotOpOf db step, KeepsExport db snapshot op

instance (day : Date) (db : Database) (step : Step) : Decidable (fillsAfter day db step) := by
  unfold fillsAfter; infer_instance

instance (snapshot : PublishedSnapshot) (db : Database) (step : Step) :
    Decidable (fillsKeepExport snapshot db step) := by unfold fillsKeepExport; infer_instance

section Steps
variable {env : Env} {snapshot : PublishedSnapshot} {db db' : Database} {u : Unit}

theorem fillOfUpdate_eq (env : Env) {message : TradeUpdate} {order : Order} {executionId : ExecutionId}
    {quantity : Units} {price : Price}
    (hfound : findByClientOrderId db message.clientOrderId = some order)
    (hexecution : message.executionId = some executionId)
    (hquantity : QuantizedDecimal.ofText message.qty = .ok quantity)
    (hprice : QuantizedDecimal.ofText message.price = .ok price) :
    fillOfUpdate db env message = some (match order.side with
      | .buy => .buyFill (db.marketClock env)
          (fillOfMessage order message executionId quantity price)
      | .sell => .sellFill (db.marketClock env)
          (fillOfMessage order message executionId quantity price) order.designatedLotIds) := by
  simp [fillOfUpdate, hfound, hexecution, hquantity, hprice, Except.toOption]

/-- A delivery without a fill writes no lot; one with a fill calls the lot services. -/
theorem handle_unmoved {fault : Option HandleStage} {message : TradeUpdate}
    {pushed : Option OrderStatus} (hknown : ConsumptionsOfLots db)
    (hlots : eventTypeOf message.event = some .fill → ∀ op ∈ fillOfUpdate db env message,
      DatedAfter snapshot.periodEnd op ∧ KeepsExport db snapshot op)
    (hrun : (handle env fault message).run db = .ok (pushed, db')) : Unmoved snapshot db db' := by
  unfold handle at hrun
  split at hrun
  · obtain ⟨-, rfl⟩ := pure_ok.mp hrun
    exact .refl hknown
  rename_i eventType htype
  simp only [handleTracked, interruptible, bind_ok, read_ok, ofOption_ok, getOrder_ok, require_ok,
    whenever, pure_ok] at hrun
  obtain ⟨found, _, ⟨hfound, rfl⟩, order, _, ⟨⟨hmem, hid⟩, rfl⟩, _, _, ⟨-, rfl⟩, state, mid, hevent,
    _, _, ⟨-, rfl⟩, _, _, hfill, _, _, ⟨-, rfl⟩, -, rfl⟩ := hrun
  obtain rfl := Table.eq_of_key_eq hmem (List.mem_of_find?_eq_some hfound) hid
  obtain ⟨events, holds, -, -, -, -, rfl⟩ := applyNewEvent_ok hevent
  set mid : Database := { db with
    orderEvents := events, orders := db.orders.set (projected order state), approvalHolds := holds }
  have hmid : Unmoved snapshot db mid := (Unmoved.refl hknown).of_view rfl rfl
  split_ifs at hfill with htracked
  · subst htracked
    simp only [recordLotFill, bind_ok, lift_ok, ofOption_ok, read_ok] at hfill
    obtain ⟨x, _, ⟨hx, rfl⟩, q, _, ⟨hq, rfl⟩, p, _, ⟨hp, rfl⟩, clock, _, ⟨hclock, rfl⟩, hfill⟩ := hfill
    cases hclock
    -- the lots and the calendar are those of before the event
    obtain ⟨hlater, hkeeps⟩ := hlots htype _ (fillOfUpdate_eq env hfound hx hq hp)
    cases hside : order.side with
    | buy =>
      rw [hside] at hfill hlater hkeeps
      simp only [bind_ok, pure_ok] at hfill
      obtain ⟨lot, _, hfill, -, rfl⟩ := hfill
      exact hmid.trans (recordBuyFill_unmoved hknown hkeeps hfill)
    | sell =>
      rw [hside] at hfill hlater hkeeps
      simp only [bind_ok, pure_ok] at hfill
      obtain ⟨ids, _, hfill, -, rfl⟩ := hfill
      exact hmid.trans (recordSellFill_unmoved hknown hlater hkeeps hfill)
  · obtain ⟨-, rfl⟩ := pure_ok.mp hfill
    exact hmid

/-- **Every operation** leaves the lines of the statement alone, unless it is a fill that does not
keep them. -/
theorem body_unmoved {step : Step} (hknown : ConsumptionsOfLots db)
    (hlater : fillsAfter snapshot.periodEnd db step) (hkeeps : fillsKeepExport snapshot db step)
    (hrun : (body step).run db = .ok (u, db')) : Unmoved snapshot db db' := by
  obtain ⟨env, op⟩ := step
  have w := unmovedWrites env snapshot db
  by_cases hmoves : MovesLots op
  · cases op with
    | application op =>
      cases op with
      | tradeUpdate fault message =>
        obtain ⟨pushed, hrun⟩ := System.discard_ok hrun
        have hfill : eventTypeOf message.event = some .fill →
            lotOpOf db ⟨env, .application (.tradeUpdate fault message)⟩ =
              fillOfUpdate db env message := fun htype => if_pos htype
        exact handle_unmoved hknown (fun htype op hop => ⟨hlater op (hfill htype ▸ hop),
          hkeeps op (hfill htype ▸ hop)⟩) hrun
      | applySplit securityId ratio effectiveDate =>
        exact unmoved_applySplit securityId ratio effectiveDate db u db' (.refl hknown) hrun
      | _ => exact hmoves.elim
    | lots op => exact lotBody_unmoved hknown (hlater op rfl) (hkeeps op rfl) hrun
    | _ => exact hmoves.elim
  · by_cases hpublish : ∃ c a b, op = .publish c a b
    · obtain ⟨c, a, b, rfl⟩ := hpublish
      obtain ⟨new, hrun⟩ := System.discard_ok hrun
      obtain ⟨twr, rows, holdings, mid, hcompute, -, -, rfl⟩ := publish_ok hrun
      exact (w.computeTwr c a b db _ mid (.refl hknown) hcompute).of_view rfl rfl
    · exact w.body op hmoves (fun c a b e => hpublish ⟨c, a, b, e⟩) db u db' (.refl hknown) hrun

theorem body_published {step : Step} (hrun : (body step).run db = .ok (u, db')) :
    db'.securities = db.securities ∧
      ∃ new, db'.publishedSnapshots = db.publishedSnapshots ++ new := by
  by_cases hop : ∃ c a b, step.op = .publish c a b
  · obtain ⟨c, a, b, hop⟩ := hop
    simp only [body, hop] at hrun
    obtain ⟨new, hpublish⟩ := System.discard_ok hrun
    obtain ⟨twr, rows, holdings, mid, hcompute, -, -, rfl⟩ := publish_ok hpublish
    have hgrown := (grownEntries step.env db).toWrites.computeTwr c a b db _ mid (Grown.refl _ _) hcompute
    exact ⟨hgrown.securities, [new], by rw [← hgrown.snapshots]⟩
  · have hgrown : Grown step.env.transactionStart db db' :=
      grown_body step.op (fun c a b e => hop ⟨c, a, b, e⟩) db u db' (Grown.refl _ _) hrun
    exact ⟨hgrown.securities, [], by rw [hgrown.snapshots, List.append_nil]⟩

end Steps

/-! ### Runs -/

/-- The export of a snapshot is read from its lines, the securities and the snapshot itself. -/
structure SameExport (snapshot : PublishedSnapshot) (db db' : Database) : Prop where
  unmoved : Unmoved snapshot db db'
  securities : db'.securities = db.securities
  snapshots : ∃ new, db'.publishedSnapshots = db.publishedSnapshots ++ new

theorem SameExport.step {snapshot : PublishedSnapshot} {db₀ db db' : Database} {step : Step}
    {u : Unit} (h : SameExport snapshot db₀ db)
    (hlater : fillsAfter snapshot.periodEnd db step) (hkeeps : fillsKeepExport snapshot db step)
    (hrun : (body step).run db = .ok (u, db')) : SameExport snapshot db₀ db' := by
  obtain ⟨old, hold⟩ := h.snapshots
  obtain ⟨hsecurities, new, hnew⟩ := body_published hrun
  exact ⟨h.unmoved.trans (body_unmoved h.unmoved.known hlater hkeeps hrun),
    hsecurities.trans h.securities, old ++ new, by rw [hnew, hold, List.append_assoc]⟩

theorem SameExport.export_eq {snapshot : PublishedSnapshot} {db db' : Database}
    {customerId : Uuid} {periodStart : Date} {watermark : Instant}
    (hnamed : atWatermarkForPeriod db customerId periodStart watermark = some snapshot)
    (h : SameExport snapshot db db') :
    exportStatement db' customerId periodStart (some watermark) =
      exportStatement db customerId periodStart (some watermark) := by
  have hnamed' : atWatermarkForPeriod db' customerId periodStart watermark = some snapshot := by
    obtain ⟨new, hnew⟩ := h.snapshots
    rw [atWatermarkForPeriod] at hnamed ⊢
    rw [hnew, List.find?_append, hnamed, Option.some_or]
  have hcustomer : snapshot.customerId = customerId := by
    have hfound := List.find?_some hnamed
    simp only [decide_eq_true_eq] at hfound
    exact hfound.1
  have hlines : listRealizedInPeriod db' customerId snapshot.periodStart snapshot.periodEnd =
      listRealizedInPeriod db customerId snapshot.periodStart snapshot.periodEnd :=
    hcustomer ▸ congrArg (List.insertionSort fun c c' : LotConsumption =>
      c.saleDate ≤ c'.saleDate) h.unmoved.rows
  have hrow : ∀ c ∈ listRealizedInPeriod db customerId snapshot.periodStart snapshot.periodEnd,
      exportRow db' c = exportRow db c := by
    intro c hc
    have hline : c ∈ realizedIn db snapshot := by
      rw [listRealizedInPeriod, List.mem_insertionSort, ← hcustomer] at hc
      exact hc
    have hlot := h.unmoved.lots c.taxLotId ⟨c, hline, rfl⟩
    cases hold : db.taxLots.find c.taxLotId <;> cases hnew : db'.taxLots.find c.taxLotId <;>
      simp [hold, hnew, exportFacts] at hlot
    · simp [exportRow, hold, hnew, ofOption]
    · obtain ⟨hsecurity, horiginal, hadjusted⟩ := hlot
      simp [exportRow, hold, hnew, ofOption, symbolOf, h.securities, hsecurity, horiginal, hadjusted]
  simp only [exportStatement, exportedSnapshot, hnamed, hnamed', ofOption, Option.elim_some]
  show List.mapM (exportRow db') _ = List.mapM (exportRow db) _
  rw [hlines, mapM_congr hrow]

/-- **The export of a published statement stays what it was** in a run whose fills are dated after
the period and leave its lines as they are. -/
theorem export_as_published {db : Database} (hknown : ConsumptionsOfLots db) {customerId : Uuid}
    {periodStart : Date} {watermark : Instant} {snapshot : PublishedSnapshot}
    (hnamed : atWatermarkForPeriod db customerId periodStart watermark = some snapshot)
    (steps : List Step) (hlater : RunMeets body (fillsAfter snapshot.periodEnd) steps db)
    (hkeeps : RunMeets body (fillsKeepExport snapshot) steps db) :
    exportStatement (run steps db) customerId periodStart (some watermark) =
      exportStatement db customerId periodStart (some watermark) := by
  have hinit : SameExport snapshot db db := ⟨.refl hknown, rfl, [], (List.append_nil _).symm⟩
  have hsame : SameExport snapshot db (run steps db) :=
    runs_keeps_of_meets (fun db step u db' h hp hrun => h.step hp.1 hp.2 hrun) steps hinit
      (hlater.and hkeeps)
  exact hsame.export_eq hnamed

/-- Ten shares bought on the first day, four of them sold on the second, and the publication. -/
def soldPeriod : Database := run [
  ⟨envAt 1 1, .application (.initiateDeposit 1 (dollars 2000))⟩,
  ⟨envAt 2 2, .lots (.buyFill openedClock ⟨1, 7, "b1", shares 10, dollarsPerShare 100, ⟨2, true⟩⟩)⟩,
  ⟨envAt 3 3, .injectCorrectedPrice 7 0 (dollarsPerShare 100)⟩,
  ⟨envAt 86400000000 4, .lots (.sellFill openedClock
    ⟨1, 7, "s1", shares 4, dollarsPerShare 110, ⟨86400000000, true⟩⟩ none)⟩,
  ⟨envAt 86400000001 5, .injectCorrectedPrice 7 1 (dollarsPerShare 110)⟩,
  ⟨envAt 86400000002 6, .publish 1 0 1⟩] (openedAccount 1)

theorem soldPeriod_known : ConsumptionsOfLots soldPeriod := by
  unfold ConsumptionsOfLots; decide +kernel

/-- A lot of another security, bought and sold on the third day, a split and a correction. -/
def otherSecurity : List Step := [
  ⟨envAt 172800000000 7, .lots (.buyFill openedClock
    ⟨1, 8, "b2", shares 5, dollarsPerShare 20, ⟨172800000000, true⟩⟩)⟩,
  ⟨envAt 172800000001 8, .lots (.sellFill openedClock
    ⟨1, 8, "s2", shares 5, dollarsPerShare 10, ⟨172800000001, true⟩⟩ none)⟩,
  ⟨envAt 172800000002 9, .application (.applySplit 7 (.int 2) 2)⟩,
  ⟨envAt 172800000003 10, .injectCorrectedPrice 7 1 (dollarsPerShare 111)⟩]

theorem export_as_published_other_security :
    (run otherSecurity soldPeriod).lotConsumptions.rows.length = 2 ∧
      exportStatement (run otherSecurity soldPeriod) 1 0 (some 86400000002) =
        exportStatement soldPeriod 1 0 (some 86400000002) := by
  obtain ⟨snapshot, hnamed⟩ := Option.isSome_iff_exists.mp
    (by decide +kernel : (atWatermarkForPeriod soldPeriod 1 0 86400000002).isSome)
  have hmeets : ∀ snapshot ∈ atWatermarkForPeriod soldPeriod 1 0 86400000002,
      RunMeets body (fillsAfter snapshot.periodEnd) otherSecurity soldPeriod ∧
        RunMeets body (fillsKeepExport snapshot) otherSecurity soldPeriod := by decide +kernel
  obtain ⟨hlater, hkeeps⟩ := hmeets snapshot hnamed
  exact ⟨by decide +kernel, export_as_published soldPeriod_known hnamed otherSecurity hlater hkeeps⟩

/-- Three more of the shares sold on the third day. -/
def sameLotSold : List Step := [
  ⟨envAt 172800000000 7, .lots (.sellFill openedClock
    ⟨1, 7, "s2", shares 3, dollarsPerShare 110, ⟨172800000000, true⟩⟩ none)⟩]

/-- **A later sale from the same lot changes the export**: the basis of its line is what is left on
the lot after both sales. -/
theorem export_follows_the_lot :
    (atWatermarkForPeriod soldPeriod 1 0 86400000002).isSome ∧
      (∀ snapshot ∈ atWatermarkForPeriod soldPeriod 1 0 86400000002,
        RunMeets body (fillsAfter snapshot.periodEnd) sameLotSold soldPeriod) ∧
      exportStatement soldPeriod 1 0 (some 86400000002) =
        .ok [⟨"", shares 4, dollars 1000, dollars 600, dollars 40, false⟩] ∧
      exportStatement (run sameLotSold soldPeriod) 1 0 (some 86400000002) =
        .ok [⟨"", shares 4, dollars 1000, dollars 300, dollars 40, false⟩] :=
  ⟨by decide +kernel, by decide +kernel, by decide +kernel, by decide +kernel⟩

end Trueup.Statements
