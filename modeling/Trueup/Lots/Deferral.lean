import Trueup.Lots.SaleTakes

/-! # Deferred losses

A disallowed loss is deferred when the lot it is carried into can still be sold. The replacement is
the earliest lot of the window, open or not, so that a loss may be carried into a lot that earlier
sales, or the same sale, have exhausted.

* `scanLosses_rule`, `onBuyFill_rule`: what the adjustments of a sale, and those of a buy, keep;
* `losses_deferred`: in a run in which the earliest other lot of the window is never exhausted by
  the end of the sale (`DefersLosses`), every adjustment goes into an open lot. -/

namespace Trueup.Lots

open Trueup.Core Trueup.Models Trueup.Lib Trueup.Lib.Transaction Trueup.Ledger

/-! ### The earliest replacement, by owners and dates -/

/-- `lotOrder` on the owners and dates. -/
def factOrder (f g : Uuid × Uuid × Uuid × Date) : Prop :=
  f.2.2.2 < g.2.2.2 ∨ (f.2.2.2 = g.2.2.2 ∧ f.1 ≤ g.1)

instance : DecidableRel factOrder := fun f g => by unfold factOrder; infer_instance

theorem map_findEarliestReplacement (db : Database) (customerId securityId : Uuid)
    (windowStart windowEnd : Date) (excludeLotId : Uuid) :
    (findEarliestReplacement db customerId securityId windowStart windowEnd excludeLotId).map
        factsOf =
      (((lotFacts db).filter fun f => f.2.1 = customerId ∧ f.2.2.1 = securityId ∧
        f.1 ≠ excludeLotId ∧ windowStart ≤ f.2.2.2 ∧ f.2.2.2 ≤ windowEnd).insertionSort
        factOrder).head? := by
  rw [findEarliestReplacement, ← List.head?_map, lotFacts, List.filter_map,
    List.map_insertionSort lotOrder factOrder factsOf _ fun a _ b _ => Iff.rfl]
  rfl

/-- The replacement has the same id as long as owners and dates are the same. -/
theorem replacementOf_congr {db db' : Database} (h : lotFacts db' = lotFacts db)
    {customerId securityId : Uuid} {c : LotConsumption} {lot' : TaxLot}
    (hrep : replacementOf db' customerId securityId c = some lot') :
    ∃ lot, replacementOf db customerId securityId c = some lot ∧ lot.id = lot'.id := by
  have hmap : (replacementOf db customerId securityId c).map factsOf = some (factsOf lot') := by
    rw [replacementOf, map_findEarliestReplacement, ← h, ← map_findEarliestReplacement,
      ← replacementOf, hrep]
    rfl
  obtain ⟨lot, hlot, hfacts⟩ := Option.map_eq_some_iff.mp hmap
  exact ⟨lot, hlot, congrArg Prod.fst hfacts⟩

/-! ### Rules for the two scans -/

/-- **The rule of the trailing side.** If the date and the replacement of every recorded loss
satisfy `P`, then what every adjustment of such a loss into such a lot keeps, the scan keeps. -/
theorem scanLosses_rule {I : Database → Prop} {P : Date → Uuid → Prop} {env : Env} {fill : Fill}
    {u : Unit}
    (hstep : ∀ {db db' c lot}, I db → c ∈ db.lotConsumptions → lot ∈ db.taxLots →
      P c.saleDate lot.id → Adjusted c lot db db' → I db') :
    ∀ {ids : List Uuid} {db db' : Database}, I db →
    (∀ id ∈ ids, ∃ c, c.id = id ∧ Kept db c ∧ (c.realizedGainLoss.quanta < 0 → ∀ lot,
      replacementOf db fill.customerId fill.securityId c = some lot → P c.saleDate lot.id)) →
    (each (scanLoss env fill) ids).run db = .ok (u, db') → I db'
  | [], db, db', hdb, _, h => by
    obtain ⟨-, rfl⟩ := pure_ok.mp h
    exact hdb
  | id :: ids, db, db', hdb, hsold, h => by
    obtain ⟨_, mid, hfirst, hrest⟩ := bind_ok.mp h
    have hscanned := (scanLoss_scanned hfirst).1
    refine scanLosses_rule hstep ?_ (fun k hk => ?_) hrest
    · obtain ⟨c, hid, ⟨row, hrow, hrowId, hlotId, hdate, hsame, -⟩, hP⟩ := hsold id (by simp)
      obtain ⟨c', hc', hid', ⟨rfl, -⟩ | ⟨hneg, lot, hrep, hadj⟩⟩ := scanLoss_ok hfirst
      · exact hdb
      · obtain rfl := Table.eq_of_key_eq hc' hrow (hid'.trans (hid.symm.trans hrowId.symm))
        -- the row has had no adjustment yet, so that its loss is the recorded one
        have hloss : c'.realizedGainLoss = c.realizedGainLoss :=
          hsame fun hhas => hadj.fresh (hrowId ▸ hhas)
        have hrep' : replacementOf db fill.customerId fill.securityId c = some lot := by
          rw [← hrep]
          unfold replacementOf
          rw [hlotId, hdate]
        have hPlot := hP (hloss ▸ hneg) lot hrep'
        rw [← hdate] at hPlot
        exact hstep hdb hc' (mem_of_findEarliestReplacement hrep).1 hPlot hadj
    · obtain ⟨c, hid, hkept, hP⟩ := hsold k (by simp [hk])
      refine ⟨c, hid, hscanned.kept c hkept, fun hloss lot' hrep' => ?_⟩
      obtain ⟨lot, hrep, hlotId⟩ := replacementOf_congr hscanned.facts hrep'
      rw [← hlotId]
      exact hP hloss lot hrep

/-- **The scan of a sell fill** keeps what every adjustment of one of its losses into a replacement
keeps. -/
theorem Took.scan_rule {I : Database → Prop} {P : Date → Uuid → Prop} {env : Env} {fill : Fill}
    {takes : List (Uuid × ℤ)} {sold : List LotConsumption} {db mid db' : Database} {u : Unit}
    (htook : Took fill takes sold db mid)
    (hstep : ∀ {db db' c lot}, I db → c ∈ db.lotConsumptions → lot ∈ db.taxLots →
      P c.saleDate lot.id → Adjusted c lot db db' → I db')
    (hmid : I mid) (hreplaced : ∀ c ∈ sold, c.realizedGainLoss.quanta < 0 → ∀ lot,
      replacementOf mid fill.customerId fill.securityId c = some lot → P c.saleDate lot.id)
    (hscan : (each (scanLoss env fill) (sold.map (·.id))).run mid = .ok (u, db')) : I db' := by
  refine scanLosses_rule (P := P) hstep hmid (fun id hid => ?_) hscan
  obtain ⟨c, hc, rfl⟩ := List.mem_map.mp hid
  exact ⟨c, rfl, htook.kept hc, hreplaced c hc⟩

/-- **The replacement of a loss of the sale** is the one from before the sale, with what the sale
has left of it. -/
theorem Took.replacement {fill : Fill} {takes : List (Uuid × ℤ)} {sold : List LotConsumption}
    {db mid : Database} (htook : Took fill takes sold db mid) (hfacts : lotFacts mid = lotFacts db)
    {c : LotConsumption} (hc : c ∈ sold) (hloss : c.realizedGainLoss.quanta < 0) {lot' : TaxLot}
    (hreplacement : replacementOf mid fill.customerId fill.securityId c = some lot') :
    ∃ lot r, db.taxLots.find c.taxLotId = some lot ∧
      Lots.isLoss fill.price lot c.quantityConsumed.quanta ∧
      findEarliestReplacement db fill.customerId fill.securityId (c.saleDate - washSaleWindowDays)
        (c.saleDate + washSaleWindowDays) lot.id = some r ∧ r.id = lot'.id ∧
      ∀ l ∈ mid.taxLots, l.id = r.id → l.originalCostBasis = r.originalCostBasis ∧
        l.quantityRemaining.quanta = r.quantityRemaining.quanta - takenFrom takes r.id := by
  obtain ⟨r, hearliest, hid⟩ := replacementOf_congr hfacts hreplacement
  obtain ⟨lot, hlot, hlotId, hneg⟩ := htook.isLoss hc hloss
  rw [replacementOf, hlotId] at hearliest
  refine ⟨lot, r, Table.find_eq_some.mpr ⟨hlot, hlotId.symm⟩, hneg, hearliest, hid, fun l hl hlid => ?_⟩
  obtain ⟨l₀, hl₀, hid₀, hkeep⟩ := htook.lots l hl
  obtain rfl := Table.eq_of_key_eq hl₀ (mem_of_findEarliestReplacement hearliest).1
    (hid₀.symm.trans hlid)
  have hremaining := htook.remaining l.id
  rw [remainingOf_of_mem hl, hid₀, remainingOf_of_mem hl₀] at hremaining
  refine ⟨?_, hremaining⟩
  rcases hkeep with ⟨-, hsame⟩ | ⟨t, -, -, htaken⟩
  · rw [hsame]
  · rw [htaken.rest]

/-- **The rule of the forward side.** Its adjustments go into the new lot, and are of the losses of
other lots that it read. -/
theorem onBuyFill_rule {I : Database → Prop} {env : Env} {newLot : TaxLot} {db db' : Database}
    {u : Unit} (hdb : I db)
    (hstep : ∀ {s s' c lot}, I s → c ∈ s.lotConsumptions → lot ∈ s.taxLots → lot.id = newLot.id →
      (∃ row ∈ findUnadjustedLosses db newLot.customerId newLot.securityId
        (newLot.acquiredAt - washSaleWindowDays) (newLot.acquiredAt + washSaleWindowDays),
          row.id = c.id ∧ row.taxLotId ≠ newLot.id) → Adjusted c lot s s' → I s')
    (h : (onBuyFill env newLot).run db = .ok (u, db')) : I db' := by
  obtain ⟨candidates, _, hread, h⟩ := bind_ok.mp h
  obtain ⟨hcand, rfl⟩ := read_ok.mp hread
  injection hcand with hcand
  refine keeps_each (I := I) (fun row hrow => ?_) db u db' hdb h
  intro s v s' hs hrun
  simp only [whenever] at hrun
  split_ifs at hrun with hown
  · rcases applyAdjustment_ok hrun with ⟨-, rfl⟩ | ⟨c, hc, lot, hlot, hcid, hid, hadj⟩
    · exact hs
    · exact hstep hs hc hlot hid ⟨row, hcand ▸ hrow, hcid.symm, hown⟩ hadj
  · obtain ⟨-, rfl⟩ := pure_ok.mp hrun
    exact hs

/-! ### Where an adjustment goes -/

section Adjusted
variable {consumption : LotConsumption} {lot : TaxLot} {db db' : Database}

theorem Adjusted.adjustments (h : Adjusted consumption lot db db') : ∀ a ∈ db'.washSaleAdjustments,
    a ∈ db.washSaleAdjustments ∨ (a.originalLotConsumptionId = consumption.id ∧
      a.replacementTaxLotId = lot.id ∧ a.disallowedAmount = disallowedLoss consumption lot) := by
  obtain ⟨basis, realized, entry, gainLoss, cost, accounts, entries, adjustments, returns, events,
    disclosures, -, -, -, -, -, -, hadj, rfl⟩ := h
  intro a ha
  rcases (Table.mem_insert hadj).mp ha with ha | rfl
  · exact Or.inl ha
  · exact Or.inr ⟨rfl, rfl, rfl⟩

theorem Adjusted.remainingOf (h : Adjusted consumption lot db db') (hlot : lot ∈ db.taxLots) :
    remainingOf db' = remainingOf db := by
  obtain ⟨basis, realized, entry, gainLoss, cost, accounts, entries, adjustments, returns, events,
    disclosures, -, -, -, -, -, -, -, rfl⟩ := h
  exact lotFigure_setLot_of_eq (l := { lot with adjustedBasis := basis }) hlot rfl rfl

end Adjusted

/-- Every adjustment that is new goes into a lot that is open. -/
def CarriedOpen (db db' : Database) : Prop :=
  ∀ a ∈ db'.washSaleAdjustments, a ∉ db.washSaleAdjustments →
    ∃ lot ∈ db'.taxLots, lot.id = a.replacementTaxLotId ∧ 0 < lot.quantityRemaining

theorem exists_of_remainingOf_pos {db : Database} {lotId : Uuid} (h : 0 < remainingOf db lotId) :
    ∃ lot ∈ db.taxLots, lot.id = lotId ∧ 0 < lot.quantityRemaining := by
  unfold remainingOf at h
  cases hfind : db.taxLots.find lotId with
  | none => simp [hfind] at h
  | some lot =>
    obtain ⟨hmem, hid⟩ := Table.find_eq_some.mp hfind
    rw [hfind] at h
    exact ⟨lot, hmem, hid, h⟩

/-! ### The condition -/

/-- For every lot a sale takes from at a loss, the earliest other lot of the window is still open
after the takes. -/
def SaleDefers (db : Database) (fill : Fill) (designatedLotIds : Option (List Uuid)) (day : Date) :
    Prop :=
  ∀ t ∈ saleTakes db fill designatedLotIds, ∀ lot ∈ db.taxLots.find t.1,
    isLoss fill.price lot t.2 →
      ∀ replacement ∈ findEarliestReplacement db fill.customerId fill.securityId
          (day - washSaleWindowDays) (day + washSaleWindowDays) lot.id,
        0 < replacement.quantityRemaining.quanta -
          takenFrom (saleTakes db fill designatedLotIds) replacement.id

/-- A buy has a positive quantity, or there is no loss for it to replace. -/
def BuyDefers (db : Database) (fill : Fill) (day : Date) : Prop :=
  0 < fill.quantity.quanta ∨ findUnadjustedLosses db fill.customerId fill.securityId
    (day - washSaleWindowDays) (day + washSaleWindowDays) = []

/-- A step that carries losses into open lots only. -/
def DefersLosses (db : Database) (step : LotStep) : Prop :=
  match step.op with
  | .buyFill clock fill =>
    match clock.marketDate fill.filledAt with
    | .ok day => BuyDefers db fill day
    | .error _ => True
  | .sellFill clock fill designatedLotIds =>
    match clock.marketDate fill.filledAt with
    | .ok day => SaleDefers db fill designatedLotIds day
    | .error _ => True
  | .split _ _ _ => True

instance (db : Database) (fill : Fill) (designatedLotIds : Option (List Uuid)) (day : Date) :
    Decidable (SaleDefers db fill designatedLotIds day) := by unfold SaleDefers; infer_instance

instance (db : Database) (fill : Fill) (day : Date) : Decidable (BuyDefers db fill day) := by
  unfold BuyDefers; infer_instance

theorem defersLosses_buyFill {db : Database} {env : Env} {clock : MarketClock} {fill : Fill} :
    DefersLosses db ⟨env, .buyFill clock fill⟩ ↔
      ∀ day, clock.marketDate fill.filledAt = .ok day → BuyDefers db fill day := by
  cases hday : clock.marketDate fill.filledAt <;> simp [DefersLosses, hday]

theorem defersLosses_sellFill {db : Database} {env : Env} {clock : MarketClock} {fill : Fill}
    {designatedLotIds : Option (List Uuid)} :
    DefersLosses db ⟨env, .sellFill clock fill designatedLotIds⟩ ↔
      ∀ day, clock.marketDate fill.filledAt = .ok day → SaleDefers db fill designatedLotIds day := by
  cases hday : clock.marketDate fill.filledAt <;> simp [DefersLosses, hday]

instance (db : Database) : ∀ step : LotStep, Decidable (DefersLosses db step)
  | ⟨_, .buyFill _ _⟩ => decidable_of_iff' _ defersLosses_buyFill
  | ⟨_, .sellFill _ _ _⟩ => decidable_of_iff' _ defersLosses_sellFill
  | ⟨_, .split _ _ _⟩ => isTrue trivial

/-! ### Steps -/

theorem recordBuyFill_carriedOpen {env : Env} {clock : MarketClock} {fill : Fill}
    {db db' : Database} {lot : TaxLot}
    (hdefers : ∀ day, clock.marketDate fill.filledAt = .ok day → BuyDefers db fill day)
    (hrun : (recordBuyFill env clock fill).run db = .ok (lot, db')) : CarriedOpen db db' := by
  have hday := (recordBuyFill_opened hrun).1
  obtain ⟨mid, hposted, hwash⟩ := recordBuyFill_ok hrun
  obtain ⟨cost, entry, units, costs, cash, accounts, entries, settlementDate, obligations, lots, -,
    -, -, -, -, -, -, hcust, hsec, -, -, hquantity, -, -, -, -, hlots, hmid⟩ := hposted
  have hnew : lot ∈ mid.taxLots := by rw [hmid]; exact (Table.mem_insert hlots).mpr (Or.inr rfl)
  have hfree : ∀ row ∈ findUnadjustedLosses mid lot.customerId lot.securityId
      (lot.acquiredAt - washSaleWindowDays) (lot.acquiredAt + washSaleWindowDays),
      row.taxLotId ≠ lot.id → 0 < fill.quantity.quanta := by
    intro row hrow hne
    refine (hdefers _ hday).resolve_right fun hnil => ?_
    have hold : row ∈ findUnadjustedLosses db fill.customerId fill.securityId
        (lot.acquiredAt - washSaleWindowDays) (lot.acquiredAt + washSaleWindowDays) := by
      rw [← hcust, ← hsec]
      exact mem_findUnadjustedLosses_insert (by rw [hmid]; exact hlots) (by rw [hmid]) (by rw [hmid])
        hne hrow
    rw [hnil] at hold
    cases hold
  let I : Database → Prop := fun s => remainingOf s = remainingOf mid ∧
    ∀ a ∈ s.washSaleAdjustments, a ∈ db.washSaleAdjustments ∨
      (a.replacementTaxLotId = lot.id ∧ 0 < fill.quantity.quanta)
  have hI : I db' := by
    refine onBuyFill_rule (I := I) ⟨rfl, fun a ha => Or.inl (by rw [hmid] at ha; exact ha)⟩ ?_ hwash
    rintro s s' c l ⟨hrem, hold⟩ hc hl hid ⟨row, hrow, -, hne⟩ hadj
    refine ⟨(hadj.remainingOf hl).trans hrem, fun a ha => ?_⟩
    rcases hadj.adjustments a ha with ha | ⟨-, hreplacement, -⟩
    · exact hold a ha
    · exact Or.inr ⟨hreplacement.trans hid, hfree row hrow hne⟩
  intro a ha hnot
  obtain ⟨hreplacement, hpos⟩ := (hI.2 a ha).resolve_left hnot
  refine exists_of_remainingOf_pos ?_
  rw [hreplacement, hI.1, remainingOf_of_mem hnew, hquantity]
  exact hpos

theorem recordSellFill_carriedOpen {env : Env} {clock : MarketClock} {fill : Fill}
    {designatedLotIds : Option (List Uuid)} {db db' : Database} {ids : List Uuid}
    (hdefers : ∀ day, clock.marketDate fill.filledAt = .ok day →
      SaleDefers db fill designatedLotIds day)
    (hrun : (recordSellFill env clock fill designatedLotIds).run db = .ok (ids, db')) :
    CarriedOpen db db' := by
  obtain ⟨day, sold, mid, hday, htook, -, hdates, hfacts, hadjustments, hscan⟩ :=
    recordSellFill_took hrun
  -- the replacement of a recorded loss is open after the takes
  have hopen : ∀ c ∈ sold, c.realizedGainLoss.quanta < 0 → ∀ lot,
      replacementOf mid fill.customerId fill.securityId c = some lot → 0 < remainingOf mid lot.id := by
    intro c hc hloss lot' hreplacement
    obtain ⟨lot, r, hfind, hneg, hearliest, hid, -⟩ := htook.replacement hfacts hc hloss hreplacement
    rw [hdates c hc] at hearliest
    have hpos := hdefers day hday _ (htook.mem_takes hc) lot hfind hneg r hearliest
    rw [← hid, htook.remaining, remainingOf_of_mem (mem_of_findEarliestReplacement hearliest).1]
    exact hpos
  let I : Database → Prop := fun s => remainingOf s = remainingOf mid ∧
    ∀ a ∈ s.washSaleAdjustments, a ∈ db.washSaleAdjustments ∨
      0 < remainingOf mid a.replacementTaxLotId
  have hstart : I mid := ⟨rfl, fun a ha => Or.inl (hadjustments ▸ ha)⟩
  have hI : I db' := by
    refine htook.scan_rule (I := I) (P := fun _ lotId => 0 < remainingOf mid lotId) ?_ hstart hopen hscan
    rintro s s' c l ⟨hrem, hold⟩ hc hl hpos hadj
    refine ⟨(hadj.remainingOf hl).trans hrem, fun a ha => ?_⟩
    rcases hadj.adjustments a ha with ha | ⟨-, hreplacement, -⟩
    · exact hold a ha
    · exact Or.inr (hreplacement ▸ hpos)
  intro a ha hnot
  refine exists_of_remainingOf_pos ?_
  rw [hI.1]
  exact (hI.2 a ha).resolve_left hnot

theorem applySplit_carriedOpen {env : Env} {securityId : Uuid} {ratio : SplitRatio}
    {effectiveDate : Date} {db db' : Database} {u : Unit}
    (hrun : (applySplit env securityId ratio effectiveDate).run db = .ok (u, db')) :
    CarriedOpen db db' := by
  have hview := (frames_applySplit_matchView env securityId ratio effectiveDate).eq hrun
  simp only [matchView, Prod.mk.injEq] at hview
  intro a ha hnot
  rw [hview.2.2] at ha
  exact absurd ha hnot

/-- **The step lemma.** -/
theorem lotBody_carriedOpen {step : LotStep} {db db' : Database} {u : Unit}
    (hdefers : DefersLosses db step) (hrun : (lotBody step).run db = .ok (u, db')) :
    CarriedOpen db db' := by
  obtain ⟨env, op⟩ := step
  cases op with
  | buyFill clock fill =>
    simp only [lotBody, bind_ok, pure_ok] at hrun
    obtain ⟨lot, _, hrun, -, rfl⟩ := hrun
    exact recordBuyFill_carriedOpen (defersLosses_buyFill.mp hdefers) hrun
  | sellFill clock fill designatedLotIds =>
    simp only [lotBody, bind_ok, pure_ok] at hrun
    obtain ⟨ids, _, hrun, -, rfl⟩ := hrun
    exact recordSellFill_carriedOpen (defersLosses_sellFill.mp hdefers) hrun
  | split securityId ratio effectiveDate => exact applySplit_carriedOpen hrun

/-! ### Runs -/

/-- **Losses are deferred** in a run whose steps find an open replacement: every adjustment of every
step goes into a lot that still has something to sell after the step. -/
theorem losses_deferred : ∀ (steps : List LotStep) (db : Database),
    RunMeets lotBody DefersLosses steps db →
    RunMeets lotBody (fun s step => ∀ a ∈ (atomically (lotBody step) s).washSaleAdjustments,
      a ∉ s.washSaleAdjustments → ∃ lot ∈ (atomically (lotBody step) s).taxLots,
        lot.id = a.replacementTaxLotId ∧ 0 < lot.quantityRemaining) steps db := by
  intro steps
  induction steps with
  | nil => intro db _; trivial
  | cons step steps ih =>
    rintro db ⟨hdefers, hrest⟩
    refine ⟨?_, ih _ hrest⟩
    rcases atomically_cases (lotBody step) db with ⟨u, db', hrun, heq⟩ | ⟨e, -, heq⟩
    · rw [heq]
      exact lotBody_carriedOpen hdefers hrun
    · rw [heq]
      exact fun a ha hnot => absurd ha hnot

/-- A later buy replaces a loss, and is still open. -/
theorem losses_deferred_wash_sale :
    (runs lotBody washSaleRun (openedAccount 1)).washSaleAdjustments.rows.length = 1 ∧
    RunMeets lotBody (fun s step => ∀ a ∈ (atomically (lotBody step) s).washSaleAdjustments,
      a ∉ s.washSaleAdjustments → ∃ lot ∈ (atomically (lotBody step) s).taxLots,
        lot.id = a.replacementTaxLotId ∧ 0 < lot.quantityRemaining) washSaleRun (openedAccount 1) :=
  ⟨by decide +kernel, losses_deferred washSaleRun (openedAccount 1) (by decide +kernel)⟩

/-- Two lots bought at 100 and sold together at 90. -/
def closingSaleRun : List LotStep := [
  ⟨envAt 10 1, .buyFill openedClock (fillAt 10 "a" (shares 10) (dollarsPerShare 100))⟩,
  ⟨envAt 20 2, .buyFill openedClock (fillAt 20 "b" (shares 10) (dollarsPerShare 100))⟩,
  ⟨envAt 30 3, .sellFill openedClock (fillAt 30 "c" (shares 20) (dollarsPerShare 90)) none⟩]

/-- Each lot's loss is carried into the other, and both are exhausted. -/
theorem losses_carried_into_exhausted_lots :
    ¬ RunMeets lotBody (fun s step => ∀ a ∈ (atomically (lotBody step) s).washSaleAdjustments,
      a ∉ s.washSaleAdjustments → ∃ lot ∈ (atomically (lotBody step) s).taxLots,
        lot.id = a.replacementTaxLotId ∧ 0 < lot.quantityRemaining)
      closingSaleRun (openedAccount 1) := by
  rintro ⟨-, -, hsale, -⟩
  have hrows : ∃ a ∈ (runs lotBody closingSaleRun (openedAccount 1)).washSaleAdjustments.rows,
      a.replacementTaxLotId ∈ ((runs lotBody closingSaleRun (openedAccount 1)).taxLots.rows.filter
        (·.quantityRemaining = 0)).map (·.id) := by decide +kernel
  have hnone : (runs lotBody (closingSaleRun.take 2) (openedAccount 1)).washSaleAdjustments.rows =
      [] := by decide +kernel
  obtain ⟨a, ha, hreplacement⟩ := hrows
  obtain ⟨lot, hlot, hid, hpos⟩ := hsale a ha fun hold => by
    have : a ∈ (runs lotBody (closingSaleRun.take 2)
      (openedAccount 1)).washSaleAdjustments.rows := hold
    rw [hnone] at this
    cases this
  obtain ⟨lot', hlot', hid'⟩ := List.mem_map.mp hreplacement
  rw [List.mem_filter, decide_eq_true_eq] at hlot'
  obtain rfl := Table.eq_of_key_eq (show lot' ∈ _ from hlot'.1) hlot (hid'.trans hid.symm)
  rw [hlot'.2] at hpos
  exact absurd hpos (lt_irrefl (0 : ℤ))

end Trueup.Lots
