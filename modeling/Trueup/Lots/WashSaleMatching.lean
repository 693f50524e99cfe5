import Trueup.Lots.TieOut

/-! # Wash-sale matching

A loss sale looks back for a replacement among the lots there are (`on_loss_sale`), a buy looks
forward for losses without an adjustment (`on_buy_fill`). Together they find every pair once,
whatever the order of arrival:

* `Adjusted.facts`, `Adjusted.has`: an adjustment leaves the dates and owners of the lots, and marks
  its own consumption;
* `scanLosses_has`, `onBuyFill_has`: what each side has marked when it is done;
* `wash_sales_matched`: after every run, a consumption that was recorded as a loss is adjusted if
  and only if another lot of its position was acquired in its window, and no longer shows a gain. -/

namespace Trueup.Lots

open Trueup.Core Trueup.Models Trueup.Lib Trueup.Lib.Transaction Trueup.Ledger

/-! ### Dates and owners -/

/-- What no write changes of a lot: whose it is and when it was acquired. -/
def factsOf (lot : TaxLot) : Uuid × Uuid × Uuid × Date :=
  (lot.id, lot.customerId, lot.securityId, lot.acquiredAt)

/-- The owners and dates of all lots. -/
def lotFacts (db : Database) : List (Uuid × Uuid × Uuid × Date) := db.taxLots.rows.map factsOf

/-- The day is within thirty days of the sale, before or after. -/
def InWindow (saleDate day : Date) : Prop :=
  saleDate - washSaleWindowDays ≤ day ∧ day ≤ saleDate + washSaleWindowDays

theorem inWindow_comm {a b : Date} : InWindow a b ↔ InWindow b a := by
  unfold InWindow
  constructor
  · rintro ⟨h1, h2⟩; constructor <;> linarith
  · rintro ⟨h1, h2⟩; constructor <;> linarith

/-- A lot of the same position, other than the consumed one, was acquired in the window. -/
def Replaceable (db : Database) (consumption : LotConsumption) : Prop :=
  ∃ own ∈ db.taxLots, own.id = consumption.taxLotId ∧ ∃ lot ∈ db.taxLots,
    lot.id ≠ consumption.taxLotId ∧ lot.customerId = own.customerId ∧
      lot.securityId = own.securityId ∧ InWindow consumption.saleDate lot.acquiredAt

theorem replaceable_iff_facts {db : Database} {c : LotConsumption} : Replaceable db c ↔
    ∃ f ∈ lotFacts db, f.1 = c.taxLotId ∧ ∃ g ∈ lotFacts db, g.1 ≠ c.taxLotId ∧
      g.2.1 = f.2.1 ∧ g.2.2.1 = f.2.2.1 ∧ InWindow c.saleDate g.2.2.2 := by
  simp only [lotFacts, List.mem_map, exists_exists_and_eq_and, factsOf]
  rfl

/-- Whether a loss is replaceable is a matter of owners and dates. -/
theorem replaceable_congr {db db' : Database} (h : lotFacts db' = lotFacts db)
    (c : LotConsumption) : Replaceable db' c ↔ Replaceable db c := by
  rw [replaceable_iff_facts, replaceable_iff_facts, h]

theorem isPositionLot_congr {db db' : Database} (h : lotFacts db' = lotFacts db)
    {customerId securityId lotId : Uuid} (hp : IsPositionLot db customerId securityId lotId) :
    IsPositionLot db' customerId securityId lotId := by
  obtain ⟨lot, hlot, hid, hcust, hsec⟩ := hp
  have hmem : factsOf lot ∈ lotFacts db' := by rw [h]; exact List.mem_map_of_mem hlot
  obtain ⟨lot', hlot', heq⟩ := List.mem_map.mp hmem
  simp only [factsOf, Prod.mk.injEq] at heq
  exact ⟨lot', hlot', heq.1.trans hid, heq.2.1.trans hcust, heq.2.2.1.trans hsec⟩

theorem replacementOf_eq_none {db : Database} {customerId securityId : Uuid} {c : LotConsumption}
    (hown : IsPositionLot db customerId securityId c.taxLotId) :
    replacementOf db customerId securityId c = none ↔ ¬ Replaceable db c := by
  obtain ⟨own, hmem, hid, rfl, rfl⟩ := hown
  rw [replacementOf, findEarliestReplacement, List.head?_eq_none_iff]
  constructor
  · rintro hnil ⟨own', hmem', hid', lot, hlot, hne, hcust, hsec, hwindow⟩
    obtain rfl := Table.eq_of_key_eq hmem' hmem (hid'.trans hid.symm)
    have : lot ∈ ([] : List TaxLot) := by
      rw [← hnil, List.mem_insertionSort, List.mem_filter, decide_eq_true_eq]
      exact ⟨hlot, hcust, hsec, hne, hwindow⟩
    cases this
  · intro hnot
    refine List.eq_nil_iff_forall_not_mem.mpr fun lot hlot => hnot ?_
    rw [List.mem_insertionSort, List.mem_filter, decide_eq_true_eq] at hlot
    obtain ⟨hlot, hcust, hsec, hne, hwindow⟩ := hlot
    exact ⟨own, hmem, hid, lot, hlot, hne, hcust, hsec, hwindow⟩

/-! ### What an adjustment leaves and marks -/

section Adjusted
variable {consumption : LotConsumption} {lot : TaxLot} {db db' : Database}

theorem Adjusted.facts (h : Adjusted consumption lot db db') (hlot : lot ∈ db.taxLots) :
    lotFacts db' = lotFacts db := by
  obtain ⟨basis, realized, entry, gainLoss, cost, accounts, entries, adjustments, returns, events,
    disclosures, -, -, -, -, -, -, -, rfl⟩ := h
  exact Table.map_set hlot rfl rfl

theorem Adjusted.fresh (h : Adjusted consumption lot db db') :
    ¬ db.washSaleAdjustments.Has consumption.id := by
  obtain ⟨basis, realized, entry, gainLoss, cost, accounts, entries, adjustments, returns, events,
    disclosures, -, -, -, -, -, -, hadj, rfl⟩ := h
  exact (Table.insert_eq_some.mp hadj).1

theorem Adjusted.has (h : Adjusted consumption lot db db') (id : Uuid) :
    db'.washSaleAdjustments.Has id ↔ db.washSaleAdjustments.Has id ∨ id = consumption.id := by
  obtain ⟨basis, realized, entry, gainLoss, cost, accounts, entries, adjustments, returns, events,
    disclosures, -, -, -, -, -, -, hadj, rfl⟩ := h
  exact Table.has_insert hadj id

theorem Adjusted.consumptions (h : Adjusted consumption lot db db') :
    ∃ realized : Money, realized.quanta = consumption.realizedGainLoss.quanta +
        (disallowedLoss consumption lot).quanta ∧
      db'.lotConsumptions =
        db.lotConsumptions.set { consumption with realizedGainLoss := realized } := by
  obtain ⟨basis, realized, entry, gainLoss, cost, accounts, entries, adjustments, returns, events,
    disclosures, -, hrealized, -, -, -, -, -, rfl⟩ := h
  exact ⟨realized, hrealized, rfl⟩

end Adjusted

theorem Adjusted.ids {consumption : LotConsumption} {lot : TaxLot} {db db' : Database}
    (h : Adjusted consumption lot db db') :
    db'.lotConsumptions.rows.map (·.id) = db.lotConsumptions.rows.map (·.id) := by
  obtain ⟨realized, -, hset⟩ := h.consumptions
  rw [hset]
  exact Table.keys_set

/-! ### Recorded consumptions -/

/-- `c`, a consumption as its sale recorded it, has kept its lot and its date; without an adjustment
it has its gain, and a loss has not become a gain. -/
def Kept (db : Database) (c : LotConsumption) : Prop :=
  ∃ row ∈ db.lotConsumptions, row.id = c.id ∧ row.taxLotId = c.taxLotId ∧
    row.saleDate = c.saleDate ∧
    (¬ db.washSaleAdjustments.Has c.id → row.realizedGainLoss = c.realizedGainLoss) ∧
    (c.realizedGainLoss.quanta < 0 → row.realizedGainLoss.quanta ≤ 0)

theorem disallowedLoss_le (consumption : LotConsumption) (lot : TaxLot) :
    (disallowedLoss consumption lot).quanta ≤ |consumption.realizedGainLoss.quanta| := by
  unfold disallowedLoss
  rw [QuantizedDecimal.quanta_min]
  exact min_le_left _ _

theorem Adjusted.kept {consumption : LotConsumption} {lot : TaxLot} {db db' : Database}
    (h : Adjusted consumption lot db db') (hmem : consumption ∈ db.lotConsumptions)
    {c : LotConsumption} (hc : Kept db c) : Kept db' c := by
  obtain ⟨row, hrow, hid, hlotId, hdate, hsame, hloss⟩ := hc
  obtain ⟨realized, hrealized, hset⟩ := h.consumptions
  have hhas := h.has c.id
  by_cases hown : row.id = consumption.id
  · obtain rfl := Table.eq_of_key_eq hrow hmem hown
    refine ⟨{ row with realizedGainLoss := realized }, ?_, hid, hlotId, hdate, fun hnot => ?_,
      fun hneg => ?_⟩
    · rw [hset]; exact Table.mem_set_self hrow rfl
    · exact absurd (hhas.mpr (Or.inr hid.symm)) hnot
    · have hle := disallowedLoss_le row lot
      rw [abs_of_nonpos (hloss hneg)] at hle
      show realized.quanta ≤ 0
      omega
  · refine ⟨row, ?_, hid, hlotId, hdate, fun hnot => hsame fun hh => hnot (hhas.mpr (Or.inl hh)),
      hloss⟩
    rw [hset]
    exact Table.mem_set.mpr (Or.inl ⟨hrow, hown⟩)

/-- What the scans keep: owners and dates of the lots, and the consumptions but for their gains. -/
structure Scanned (db db' : Database) : Prop where
  facts : lotFacts db' = lotFacts db
  ids : db'.lotConsumptions.rows.map (·.id) = db.lotConsumptions.rows.map (·.id)
  kept : ∀ c, Kept db c → Kept db' c

theorem Scanned.refl (db : Database) : Scanned db db := ⟨rfl, rfl, fun _ h => h⟩

theorem Scanned.trans {db₁ db₂ db₃ : Database} (h : Scanned db₁ db₂) (h' : Scanned db₂ db₃) :
    Scanned db₁ db₃ :=
  ⟨h'.facts.trans h.facts, h'.ids.trans h.ids, fun c hc => h'.kept c (h.kept c hc)⟩

theorem Adjusted.scanned {consumption : LotConsumption} {lot : TaxLot} {db db' : Database}
    (h : Adjusted consumption lot db db') (hmem : consumption ∈ db.lotConsumptions)
    (hlot : lot ∈ db.taxLots) : Scanned db db' :=
  ⟨h.facts hlot, h.ids, fun _ hc => h.kept hmem hc⟩

/-! ### The trailing side -/

/-- The scan of one consumption: nothing, or one adjustment. -/
theorem scanLoss_ok {env : Env} {fill : Fill} {consumptionId : Uuid} {db db' : Database} {u : Unit}
    (h : (scanLoss env fill consumptionId).run db = .ok (u, db')) :
    ∃ c ∈ db.lotConsumptions, c.id = consumptionId ∧
      ((db' = db ∧ (0 ≤ c.realizedGainLoss.quanta ∨ db.washSaleAdjustments.Has consumptionId ∨
          replacementOf db fill.customerId fill.securityId c = none)) ∨
        (c.realizedGainLoss.quanta < 0 ∧
          ∃ lot, replacementOf db fill.customerId fill.securityId c = some lot ∧
            Adjusted c lot db db')) := by
  simp only [scanLoss, bind_ok, getLotConsumption_ok, whenever] at h
  obtain ⟨c, _, ⟨⟨hc, hid⟩, rfl⟩, h⟩ := h
  split_ifs at h with hloss
  · exact onLossSale_ok h
  · exact ⟨c, hc, hid, Or.inl ⟨(pure_ok.mp h).2.symm, Or.inl (not_lt.mp hloss)⟩⟩

theorem scanLoss_scanned {env : Env} {fill : Fill} {consumptionId : Uuid} {db db' : Database}
    {u : Unit} (h : (scanLoss env fill consumptionId).run db = .ok (u, db')) :
    Scanned db db' ∧ ∀ id, id ≠ consumptionId →
      (db'.washSaleAdjustments.Has id ↔ db.washSaleAdjustments.Has id) := by
  obtain ⟨c, hc, rfl, ⟨rfl, -⟩ | ⟨-, lot, hrep, hadj⟩⟩ := scanLoss_ok h
  · exact ⟨.refl _, fun _ _ => Iff.rfl⟩
  · refine ⟨hadj.scanned hc (mem_of_findEarliestReplacement hrep).1, fun id hne => ?_⟩
    rw [hadj.has id, or_iff_left hne]

/-- A recorded loss is marked by its own scan if and only if it is replaceable. -/
theorem scanLoss_has {env : Env} {fill : Fill} {db db' : Database} {u : Unit} {c : LotConsumption}
    (hkept : Kept db c) (hloss : c.realizedGainLoss.quanta < 0)
    (hown : IsPositionLot db fill.customerId fill.securityId c.taxLotId)
    (h : (scanLoss env fill c.id).run db = .ok (u, db')) :
    db'.washSaleAdjustments.Has c.id ↔ db.washSaleAdjustments.Has c.id ∨ Replaceable db c := by
  obtain ⟨row, hrow, hid, hlotId, hdate, hsame, -⟩ := hkept
  have hsameWindow : ∀ {r}, r = row →
      (replacementOf db fill.customerId fill.securityId r = none ↔ ¬ Replaceable db c) := by
    rintro r rfl
    have heq : replacementOf db fill.customerId fill.securityId r =
        replacementOf db fill.customerId fill.securityId c := by
      unfold replacementOf; rw [hlotId, hdate]
    rw [heq, replacementOf_eq_none hown]
  obtain ⟨c', hc', hid', ⟨rfl, hwhy⟩ | ⟨hneg, lot, hrep, hadj⟩⟩ := scanLoss_ok h
  · obtain rfl := Table.eq_of_key_eq hc' hrow (hid'.trans hid.symm)
    by_cases hhas : db'.washSaleAdjustments.Has c.id
    · simp [hhas]
    · rcases hwhy with hpos | hhas' | hnone
      · rw [hsame hhas] at hpos
        omega
      · exact absurd hhas' hhas
      · simp [hhas, (hsameWindow rfl).mp hnone]
  · obtain rfl := Table.eq_of_key_eq hc' hrow (hid'.trans hid.symm)
    have hrepl : Replaceable db c := by
      by_contra hnot
      rw [(hsameWindow rfl).mpr hnot] at hrep
      cases hrep
    rw [hadj.has c.id]
    simp [hid, hrepl]

/-- **What the trailing side has marked**: the recorded losses among the scanned ones that are
replaceable, and nothing else. -/
theorem scanLosses_has {env : Env} {fill : Fill} {u : Unit} :
    ∀ {ids : List Uuid} {db db' : Database},
    (each (scanLoss env fill) ids).run db = .ok (u, db') →
    Scanned db db' ∧
      (∀ id, id ∉ ids → (db'.washSaleAdjustments.Has id ↔ db.washSaleAdjustments.Has id)) ∧
      ∀ c, c.id ∈ ids → Kept db c → c.realizedGainLoss.quanta < 0 →
        IsPositionLot db fill.customerId fill.securityId c.taxLotId →
        (db'.washSaleAdjustments.Has c.id ↔ db.washSaleAdjustments.Has c.id ∨ Replaceable db c)
  | [], db, db', h => by
    obtain ⟨-, rfl⟩ := pure_ok.mp h
    exact ⟨.refl _, fun _ _ => Iff.rfl, fun c hc => by cases hc⟩
  | id :: ids, db, db', h => by
    obtain ⟨_, mid, hfirst, hrest⟩ := bind_ok.mp h
    obtain ⟨hscanned, hmark⟩ := scanLoss_scanned hfirst
    obtain ⟨hscanned', hother, hscan⟩ := scanLosses_has hrest
    refine ⟨hscanned.trans hscanned', fun k hk => ?_, fun c hc hk hloss hown => ?_⟩
    · rw [List.mem_cons, not_or] at hk
      rw [hother k hk.2, hmark k hk.1]
    · -- the scan of `c` may come now, later, or both
      have hmid : db.washSaleAdjustments.Has c.id ∨ Replaceable db c ↔
          mid.washSaleAdjustments.Has c.id ∨ Replaceable db c := by
        by_cases hid : c.id = id
        · subst hid
          rw [scanLoss_has hk hloss hown hfirst, or_assoc, or_self]
        · rw [hmark c.id hid]
      by_cases htail : c.id ∈ ids
      · rw [hscan c htail (hscanned.kept c hk) hloss (isPositionLot_congr hscanned.facts hown),
          replaceable_congr hscanned.facts, hmid]
      · have hid : c.id = id := (List.mem_cons.mp hc).resolve_right htail
        subst hid
        rw [hother c.id htail, scanLoss_has hk hloss hown hfirst]

/-! ### The forward side -/

theorem applyAdjustment_has {env : Env} {consumptionId lotId : Uuid} {db db' : Database} {u : Unit}
    (h : (applyAdjustment env consumptionId lotId).run db = .ok (u, db')) :
    Scanned db db' ∧ ∀ id, db'.washSaleAdjustments.Has id ↔
      db.washSaleAdjustments.Has id ∨ id = consumptionId := by
  rcases applyAdjustment_ok h with ⟨hhas, rfl⟩ | ⟨c, hc, lot, hlot, rfl, rfl, hadj⟩
  · refine ⟨.refl _, fun id => ⟨Or.inl, ?_⟩⟩
    rintro (hid | rfl)
    · exact hid
    · exact hhas
  · exact ⟨hadj.scanned hc hlot, hadj.has⟩

/-- The loop of the forward side marks every candidate that is not of the new lot. -/
theorem adjustCandidates_has {env : Env} {newLotId : Uuid} {u : Unit} :
    ∀ {candidates : List LotConsumption} {db db' : Database},
    (each (fun consumption => whenever (consumption.taxLotId ≠ newLotId) do
      applyAdjustment env consumption.id newLotId) candidates).run db = .ok (u, db') →
    Scanned db db' ∧ ∀ id, db'.washSaleAdjustments.Has id ↔ db.washSaleAdjustments.Has id ∨
      ∃ row ∈ candidates, row.id = id ∧ row.taxLotId ≠ newLotId
  | [], db, db', h => by
    obtain ⟨-, rfl⟩ := pure_ok.mp h
    exact ⟨.refl _, by simp⟩
  | row :: rows, db, db', h => by
    obtain ⟨_, mid, hfirst, hrest⟩ := bind_ok.mp h
    obtain ⟨hscanned', hhas'⟩ := adjustCandidates_has hrest
    simp only [whenever] at hfirst
    split_ifs at hfirst with hown
    · obtain ⟨hscanned, hhas⟩ := applyAdjustment_has hfirst
      refine ⟨hscanned.trans hscanned', fun id => ?_⟩
      rw [hhas', hhas, or_assoc, eq_comm (a := id)]
      simp only [List.mem_cons, exists_eq_or_imp, hown, ne_eq, not_false_eq_true, and_true]
    · obtain ⟨-, rfl⟩ := pure_ok.mp hfirst
      refine ⟨hscanned', fun id => ?_⟩
      rw [hhas']
      simp only [List.mem_cons, exists_eq_or_imp, hown, and_false, false_or]

/-- **What the forward side has marked**: the losses it read, except those of the new lot. -/
theorem onBuyFill_has {env : Env} {newLot : TaxLot} {db db' : Database} {u : Unit}
    (h : (onBuyFill env newLot).run db = .ok (u, db')) :
    Scanned db db' ∧ ∀ id, db'.washSaleAdjustments.Has id ↔ db.washSaleAdjustments.Has id ∨
      ∃ row ∈ findUnadjustedLosses db newLot.customerId newLot.securityId
          (newLot.acquiredAt - washSaleWindowDays) (newLot.acquiredAt + washSaleWindowDays),
        row.id = id ∧ row.taxLotId ≠ newLot.id := by
  obtain ⟨candidates, _, hread, h⟩ := bind_ok.mp h
  obtain ⟨hcand, rfl⟩ := read_ok.mp hread
  injection hcand with hcand
  rw [hcand]
  exact adjustCandidates_has h

/-! ### The sale before its scan -/

/-- What the matching reads. -/
def matchView (db : Database) : List (Uuid × Uuid × Uuid × Date) × Table LotConsumption.id ×
    Table WashSaleAdjustment.originalLotConsumptionId :=
  (lotFacts db, db.lotConsumptions, db.washSaleAdjustments)

theorem matchView_setLot {db : Database} {lot l : TaxLot} (hlot : lot ∈ db.taxLots)
    (hfacts : factsOf l = factsOf lot) :
    matchView { db with taxLots := db.taxLots.set l } = matchView db := by
  have hid : lot.id = l.id := (congrArg Prod.fst hfacts).symm
  unfold matchView lotFacts
  rw [Table.map_set hlot hid hfacts]

theorem Consumed.facts {env : Env} {fill : Fill} {lot lot' : TaxLot} {c : LotConsumption}
    {sale sale' : Sale} {db db' : Database} (h : Consumed env fill lot lot' c sale sale' db db') :
    factsOf lot' = factsOf lot := by
  rw [h.rest]; rfl

/-- The rows the loop has appended: those of its consumptions, of lots of the position. -/
structure SoldRows (fill : Fill) (sale : Sale) (db db' : Database) : Prop where
  facts : lotFacts db' = lotFacts db
  adjustments : db'.washSaleAdjustments = db.washSaleAdjustments
  rows : ∃ sold, db'.lotConsumptions.rows = db.lotConsumptions.rows ++ sold ∧
    sold.map (·.id) = sale.consumptions ∧
    ∀ c ∈ sold, IsPositionLot db fill.customerId fill.securityId c.taxLotId

theorem SoldRows.consume {env : Env} {fill : Fill} {lot lot' : TaxLot} {c : LotConsumption}
    {sale sale' : Sale} {db₀ db db' : Database} (h : SoldRows fill sale db₀ db)
    (hc : Consumed env fill lot lot' c sale sale' db db')
    (hpos : IsPositionLot db fill.customerId fill.securityId lot.id) :
    SoldRows fill sale' db₀ db' := by
  obtain ⟨table, htable, hdb'⟩ := hc.wrote
  obtain ⟨sold, hrows, hids, hown⟩ := h.rows
  refine ⟨?_, by rw [hdb']; exact h.adjustments, sold ++ [c], ?_, ?_, ?_⟩
  · rw [hdb', ← h.facts]
    exact congrArg Prod.fst (matchView_setLot hc.mem hc.facts)
  · rw [hdb']
    show table.rows = _
    rw [Table.rows_insert htable, hrows, List.append_assoc]
  · rw [hc.consumptions, List.map_append, hids]
    rfl
  · intro c' hc'
    rcases List.mem_append.mp hc' with hc' | hc'
    · exact hown c' hc'
    · rw [List.mem_singleton.mp hc', hc.taxLotId]
      exact isPositionLot_congr h.facts.symm hpos

theorem sellLots_rows {env : Env} {clock : MarketClock} {fill : Fill}
    {designatedLotIds : Option (List Uuid)} {db db' : Database} {fillDate : Date} {sale : Sale}
    (h : (sellLots env clock fill designatedLotIds).run db = .ok ((fillDate, sale), db')) :
    SoldRows fill sale db db' := by
  obtain ⟨lotIds, db1, hselect, hloop, -⟩ := sellLots_ok h
  have hmark : matchView db1 = matchView db := by
    refine selectLotsToConsume_keeps (I := fun s => matchView s = matchView db) ?_
      designatedLotIds db lotIds db1 rfl hselect
    intro s lot hs hlot
    exact (matchView_setLot (l := { lot with designation := .specific }) hlot rfl).trans hs
  simp only [matchView, Prod.mk.injEq] at hmark
  obtain ⟨hfacts, hcons, hadj⟩ := hmark
  let P : Sale → Database → Prop := fun sale s => SoldRows fill sale db s ∧
    ∀ id ∈ lotIds, IsPositionLot s fill.customerId fill.securityId id
  have hstart : P (.start fill.quantity) db1 := by
    refine ⟨⟨hfacts, hadj, [], ?_, rfl, by simp⟩, selectLotsToConsume_owned hselect⟩
    rw [hcons, List.append_nil]
  have hP : P sale db' := by
    refine consumeLots_rule (P := P) ?_ hstart hloop
    intro lot lot' c sale sale' s s' hid ⟨hs, hpos⟩ hc
    exact ⟨hs.consume hc (hpos _ hid), fun id hid => hc.isPositionLot (hpos id hid)⟩
  exact hP.1

theorem SellPosted.matchView {env : Env} {fill : Fill} {sale : Sale} {db db' : Database}
    (h : SellPosted env fill sale db db') : matchView db' = matchView db := by
  obtain ⟨proceeds, entry, units, costs, cash, gainLoss, accounts, entries, settlementDate,
    obligations, -, -, -, -, -, -, -, -, -, -, -, rfl⟩ := h
  rfl

/-! ### Splits -/

theorem frames_splitCustomer_matchView (env : Env) (securityId : Uuid) (ratio : SplitRatio)
    (effectiveDate : Date) (customerId : Uuid) :
    Frames matchView (splitCustomer env securityId ratio effectiveDate customerId) := by
  refine frames_of fun db u db' h => ?_
  rcases splitCustomer_ok h with rfl | ⟨mid, priorTotal, added, entry, units, accounts, entries,
    returns, events, disclosures, -, hscale, -, -, -, -, rfl⟩
  · rfl
  · have hframe : Frames matchView (each (scaleLot ratio)
        ((openForSecurity db customerId securityId).map (·.id))) := by
      refine frames_each fun lotId _ => frames_of fun s v s' hrun => ?_
      obtain ⟨lot, hlot, lot', -, hscaled, rfl⟩ := scaleLot_ok hrun
      exact matchView_setLot hlot (by rw [hscaled.rest]; rfl)
    have hmid : matchView mid = matchView db := hframe.eq hscale
    exact hmid

theorem frames_applySplit_matchView (env : Env) (securityId : Uuid) (ratio : SplitRatio)
    (effectiveDate : Date) : Frames matchView (applySplit env securityId ratio effectiveDate) :=
  frames_bind (fun _ => keeps_require _ _) fun _ => frames_bind (frames_read _) fun _ =>
    frames_each fun c _ => frames_splitCustomer_matchView env securityId ratio effectiveDate c

/-! ### Runs -/

/-- The consumptions a step records, as they are before its wash-sale scan. -/
def recordedBy (db : Database) (step : LotStep) : List LotConsumption :=
  match step.op with
  | .sellFill clock fill designatedLotIds =>
    match (lotBody step).run db, (sellLots step.env clock fill designatedLotIds).run db with
    | .ok _, .ok (_, sold) => sold.lotConsumptions.rows.drop db.lotConsumptions.rows.length
    | _, _ => []
  | _ => []

theorem recordedBy_sellFill {env : Env} {clock : MarketClock} {fill : Fill}
    {designatedLotIds : Option (List Uuid)} {db mid db' : Database} {ids : List Uuid}
    {sale : Date × Sale} {sold : List LotConsumption}
    (hrun : (recordSellFill env clock fill designatedLotIds).run db = .ok (ids, db'))
    (hsell : (sellLots env clock fill designatedLotIds).run db = .ok (sale, mid))
    (hrows : mid.lotConsumptions.rows = db.lotConsumptions.rows ++ sold) :
    recordedBy db ⟨env, .sellFill clock fill designatedLotIds⟩ = sold := by
  have hbody : (lotBody ⟨env, .sellFill clock fill designatedLotIds⟩).run db = .ok ((), db') :=
    bind_ok.mpr ⟨ids, db', hrun, rfl⟩
  simp only [recordedBy, hbody, hsell, hrows, List.drop_left]

/-- The consumptions a run records. -/
def recorded : List LotStep → Database → List LotConsumption
  | [], _ => []
  | step :: steps, db => recordedBy db step ++ recorded steps (atomically (lotBody step) db)

/-- The invariant of the runs: `history` are the consumptions recorded so far. -/
structure Matched (history : List LotConsumption) (db : Database) : Prop where
  rows : ∀ row ∈ db.lotConsumptions, ∃ c ∈ history, c.id = row.id
  kept : ∀ c ∈ history, Kept db c
  owned : ∀ c ∈ history, ∃ own ∈ db.taxLots, own.id = c.taxLotId
  known : ∀ id, db.washSaleAdjustments.Has id → ∃ c ∈ history, c.id = id
  settled : ∀ c ∈ history, c.realizedGainLoss.quanta < 0 →
    (db.washSaleAdjustments.Has c.id ↔ Replaceable db c)

theorem Matched.frame {history : List LotConsumption} {db db' : Database} (h : Matched history db)
    (hview : matchView db' = matchView db) : Matched history db' := by
  simp only [matchView, Prod.mk.injEq] at hview
  obtain ⟨hfacts, hcons, hadj⟩ := hview
  refine ⟨by rw [hcons]; exact h.rows, ?_, fun c hc => ?_, by rw [hadj]; exact h.known,
    fun c hc hloss => ?_⟩
  · unfold Kept
    rw [hcons, hadj]
    exact h.kept
  · obtain ⟨own, hown, hid⟩ := h.owned c hc
    obtain ⟨own', hown', hid', -⟩ := isPositionLot_congr hfacts ⟨own, hown, hid, rfl, rfl⟩
    exact ⟨own', hown', hid'⟩
  · rw [hadj, replaceable_congr hfacts]
    exact h.settled c hc hloss

theorem Scanned.matched {history : List LotConsumption} {mid db' : Database}
    (h : Scanned mid db') (hrows : ∀ row ∈ mid.lotConsumptions, ∃ c ∈ history, c.id = row.id)
    (hkept : ∀ c ∈ history, Kept mid c)
    (howned : ∀ c ∈ history, ∃ own ∈ mid.taxLots, own.id = c.taxLotId)
    (hknown : ∀ id, db'.washSaleAdjustments.Has id → ∃ c ∈ history, c.id = id)
    (hsettled : ∀ c ∈ history, c.realizedGainLoss.quanta < 0 →
      (db'.washSaleAdjustments.Has c.id ↔ Replaceable mid c)) : Matched history db' := by
  refine ⟨fun row hrow => ?_, fun c hc => h.kept c (hkept c hc), fun c hc => ?_, hknown,
    fun c hc hloss => ?_⟩
  · have hid : row.id ∈ mid.lotConsumptions.rows.map (·.id) := by
      rw [← h.ids]; exact List.mem_map_of_mem hrow
    obtain ⟨row', hrow', hid'⟩ := List.mem_map.mp hid
    rw [← hid']
    exact hrows row' hrow'
  · obtain ⟨own, hown, hid⟩ := howned c hc
    obtain ⟨own', hown', hid', -⟩ := isPositionLot_congr h.facts ⟨own, hown, hid, rfl, rfl⟩
    exact ⟨own', hown', hid'⟩
  · rw [hsettled c hc hloss, replaceable_congr h.facts]

/-- A loss that an earlier run left without an adjustment is among those a new lot looks at exactly
when the new lot makes it replaceable. -/
theorem Matched.candidate {history : List LotConsumption} {db mid : Database} {lot : TaxLot}
    {lots : Table TaxLot.id} (h : Matched history db) (hlots : db.taxLots.insert lot = some lots)
    (htaxLots : mid.taxLots = lots) (hcons : mid.lotConsumptions = db.lotConsumptions)
    (hadj : mid.washSaleAdjustments = db.washSaleAdjustments) {c : LotConsumption}
    (hc : c ∈ history) (hloss : c.realizedGainLoss.quanta < 0)
    (hnot : ¬ db.washSaleAdjustments.Has c.id) :
    (∃ row ∈ findUnadjustedLosses mid lot.customerId lot.securityId
        (lot.acquiredAt - washSaleWindowDays) (lot.acquiredAt + washSaleWindowDays),
      row.id = c.id ∧ row.taxLotId ≠ lot.id) ↔ Replaceable mid c := by
  obtain ⟨row, hrow, hid, hlotId, hdate, hsame, -⟩ := h.kept c hc
  obtain ⟨own, hown, hownId⟩ := h.owned c hc
  have hne : own.id ≠ lot.id := fun e =>
    (Table.insert_eq_some.mp hlots).1 (e ▸ Table.has_of_mem hown)
  have hmem : ∀ l, l ∈ mid.taxLots ↔ l ∈ db.taxLots ∨ l = lot := by
    intro l; rw [htaxLots]; exact Table.mem_insert hlots
  have hfind : mid.taxLots.find c.taxLotId = some own :=
    Table.find_eq_some.mpr ⟨(hmem own).mpr (Or.inl hown), hownId⟩
  simp only [findUnadjustedLosses, List.mem_filter, decide_eq_true_eq]
  constructor
  · rintro ⟨row', ⟨hrow', ⟨own', hfind', hcust, hsec⟩, -, hstart, hend, -⟩, hid', hnew⟩
    rw [hcons] at hrow'
    obtain rfl := Table.eq_of_key_eq hrow' hrow (hid'.trans hid.symm)
    rw [hlotId, hfind, Option.mem_some_iff] at hfind'
    subst hfind'
    refine ⟨own, (hmem own).mpr (Or.inl hown), hownId, lot, (hmem lot).mpr (Or.inr rfl), ?_,
      hcust.symm, hsec.symm, ?_⟩
    · rw [← hownId]; exact hne.symm
    · rw [inWindow_comm, ← hdate]; exact ⟨hstart, hend⟩
  · rintro ⟨own', hown', hownId', other, hother, hne', hcust, hsec, hwindow⟩
    have hown'' : own' = own := by
      rcases (hmem own').mp hown' with hold | rfl
      · exact Table.eq_of_key_eq hold hown (hownId'.trans hownId.symm)
      · exact absurd (hownId.trans hownId'.symm) hne
    subst hown''
    -- the lots there were do not replace it, so that it is the new one
    have hnew : other = lot := by
      refine ((hmem other).mp hother).resolve_left fun hold => hnot ?_
      exact (h.settled c hc hloss).mpr ⟨own', hown, hownId, other, hold, hne', hcust, hsec, hwindow⟩
    subst hnew
    rw [inWindow_comm, ← hdate] at hwindow
    refine ⟨row, ⟨by rw [hcons]; exact hrow, ⟨own', ?_, hcust.symm, hsec.symm⟩, ?_, hwindow.1,
      hwindow.2, ?_⟩, hid, ?_⟩
    · rw [hlotId]; exact hfind
    · rw [hsame hnot]; exact hloss
    · rw [hadj, hid]; exact hnot
    · rw [hlotId]; exact hne'.symm

theorem recordBuyFill_matched {env : Env} {clock : MarketClock} {fill : Fill} {db db' : Database}
    {lot : TaxLot} {history : List LotConsumption} (h : Matched history db)
    (hrun : (recordBuyFill env clock fill).run db = .ok (lot, db')) : Matched history db' := by
  obtain ⟨mid, hposted, hwash⟩ := recordBuyFill_ok hrun
  obtain ⟨cost, entry, units, costs, cash, accounts, entries, settlementDate, obligations, lots, -,
    -, -, -, -, -, -, -, -, -, -, -, -, -, -, -, hlots, hmid⟩ := hposted
  have htaxLots : mid.taxLots = lots := by rw [hmid]
  have hcons : mid.lotConsumptions = db.lotConsumptions := by rw [hmid]
  have hadj : mid.washSaleAdjustments = db.washSaleAdjustments := by rw [hmid]
  obtain ⟨hscanned, hhas⟩ := onBuyFill_has hwash
  have hmem : ∀ l ∈ db.taxLots, l ∈ mid.taxLots := fun l hl => by
    rw [htaxLots]; exact (Table.mem_insert hlots).mpr (Or.inl hl)
  refine hscanned.matched (by rw [hcons]; exact h.rows) ?_ (fun c hc => ?_) (fun id hid => ?_)
    fun c hc hloss => ?_
  · unfold Kept
    rw [hcons, hadj]
    exact h.kept
  · obtain ⟨own, hown, hid⟩ := h.owned c hc
    exact ⟨own, hmem own hown, hid⟩
  · rcases (hhas id).mp hid with hold | ⟨row, hrow, rfl, -⟩
    · rw [hadj] at hold
      exact h.known id hold
    · simp only [findUnadjustedLosses, List.mem_filter, hcons] at hrow
      exact h.rows row hrow.1
  · rw [hhas, hadj]
    by_cases hnot : db.washSaleAdjustments.Has c.id
    · obtain ⟨own, hown, hid, other, hother, hrest⟩ := (h.settled c hc hloss).mp hnot
      simp only [hnot, true_or, true_iff]
      exact ⟨own, hmem own hown, hid, other, hmem other hother, hrest⟩
    · rw [h.candidate hlots htaxLots hcons hadj hc hloss hnot]
      simp [hnot]

theorem recordSellFill_matched {env : Env} {clock : MarketClock} {fill : Fill}
    {designatedLotIds : Option (List Uuid)} {db db' : Database} {ids : List Uuid}
    {history : List LotConsumption} (h : Matched history db)
    (hrun : (recordSellFill env clock fill designatedLotIds).run db = .ok (ids, db')) :
    Matched (history ++ recordedBy db ⟨env, .sellFill clock fill designatedLotIds⟩) db' := by
  obtain ⟨fillDate, sale, db2, db3, hsell, hposted, hscan, -⟩ := recordSellFill_sells hrun
  have hsold := sellLots_rows hsell
  obtain ⟨sold, hrows, hids, hown⟩ := hsold.rows
  rw [recordedBy_sellFill hrun hsell hrows]
  have hview := hposted.matchView
  simp only [matchView, Prod.mk.injEq] at hview
  obtain ⟨hfacts3, hcons3, hadj3⟩ := hview
  have hfacts : lotFacts db3 = lotFacts db := hfacts3.trans hsold.facts
  have hadj : db3.washSaleAdjustments = db.washSaleAdjustments := hadj3.trans hsold.adjustments
  have hmem : ∀ row, row ∈ db3.lotConsumptions ↔ row ∈ db.lotConsumptions ∨ row ∈ sold := by
    intro row
    rw [hcons3, Table.mem_iff, hrows, List.mem_append]
    rfl
  -- the new rows have ids of their own, and no adjustment yet
  have hnew : ∀ c ∈ sold, ¬ db.washSaleAdjustments.Has c.id := by
    intro c hc hhas
    obtain ⟨c', hc', hid⟩ := h.known c.id hhas
    obtain ⟨row, hrow, hid', -⟩ := h.kept c' hc'
    have hnodup := db2.lotConsumptions.nodup
    rw [hrows, List.map_append, List.nodup_append] at hnodup
    exact hnodup.2.2 _ (List.mem_map_of_mem hrow) _ (List.mem_map_of_mem hc) (hid'.trans hid)
  have hkept : ∀ c ∈ history ++ sold, Kept db3 c := by
    intro c hc
    rcases List.mem_append.mp hc with hc | hc
    · obtain ⟨row, hrow, hrest⟩ := h.kept c hc
      refine ⟨row, (hmem row).mpr (Or.inl hrow), ?_⟩
      rw [hadj]
      exact hrest
    · exact ⟨c, (hmem c).mpr (Or.inr hc), rfl, rfl, rfl, fun _ => rfl, le_of_lt⟩
  obtain ⟨hscanned, hother, hmarks⟩ := scanLosses_has hscan
  refine hscanned.matched (fun row hrow => ?_) hkept (fun c hc => ?_) (fun id hid => ?_)
    fun c hc hloss => ?_
  · rcases (hmem row).mp hrow with hrow | hrow
    · obtain ⟨c, hc, hid⟩ := h.rows row hrow
      exact ⟨c, List.mem_append_left _ hc, hid⟩
    · exact ⟨row, List.mem_append_right _ hrow, rfl⟩
  · rcases List.mem_append.mp hc with hc | hc
    · obtain ⟨own, hown, hid⟩ := h.owned c hc
      obtain ⟨own', hown', hid', -⟩ := isPositionLot_congr hfacts ⟨own, hown, hid, rfl, rfl⟩
      exact ⟨own', hown', hid'⟩
    · obtain ⟨own, hown, hid, -⟩ := isPositionLot_congr hfacts (hown c hc)
      exact ⟨own, hown, hid⟩
  · by_cases hin : id ∈ sale.consumptions
    · rw [← hids] at hin
      obtain ⟨c, hc, rfl⟩ := List.mem_map.mp hin
      exact ⟨c, List.mem_append_right _ hc, rfl⟩
    · rw [hother id hin, hadj] at hid
      obtain ⟨c, hc, hid⟩ := h.known id hid
      exact ⟨c, List.mem_append_left _ hc, hid⟩
  · rcases List.mem_append.mp hc with hold | hc'
    · -- an earlier consumption is not scanned, and no lot was added
      have hin : c.id ∉ sale.consumptions := by
        intro hin
        rw [← hids] at hin
        obtain ⟨row, hrow, hid, -⟩ := h.kept c hold
        have hnodup := db2.lotConsumptions.nodup
        rw [hrows, List.map_append, List.nodup_append] at hnodup
        exact hnodup.2.2 _ (List.mem_map_of_mem hrow) _ hin hid
      rw [hother c.id hin, hadj, h.settled c hold hloss, replaceable_congr hfacts]
    · have hin : c.id ∈ sale.consumptions := by
        rw [← hids]; exact List.mem_map_of_mem hc'
      rw [hmarks c hin (hkept c hc) hloss (isPositionLot_congr hfacts (hown c hc')), hadj]
      simp [hnew c hc']

theorem lotBody_matched {step : LotStep} {db db' : Database} {u : Unit}
    {history : List LotConsumption} (h : Matched history db)
    (hrun : (lotBody step).run db = .ok (u, db')) : Matched (history ++ recordedBy db step) db' := by
  obtain ⟨env, op⟩ := step
  cases op with
  | buyFill clock fill =>
    simp only [lotBody, bind_ok, pure_ok] at hrun
    obtain ⟨lot, _, hrun, -, rfl⟩ := hrun
    simpa [recordedBy] using recordBuyFill_matched h hrun
  | sellFill clock fill designatedLotIds =>
    simp only [lotBody, bind_ok, pure_ok] at hrun
    obtain ⟨ids, _, hrun, -, rfl⟩ := hrun
    exact recordSellFill_matched h hrun
  | split securityId ratio effectiveDate =>
    simpa [recordedBy] using
      h.frame ((frames_applySplit_matchView env securityId ratio effectiveDate).eq hrun)

theorem recordedBy_of_error {step : LotStep} {db : Database} {e : Error}
    (h : (lotBody step).run db = .error e) : recordedBy db step = [] := by
  obtain ⟨env, op⟩ := step
  cases op with
  | sellFill clock fill designatedLotIds => simp [recordedBy, h]
  | _ => rfl

theorem runs_matched : ∀ (steps : List LotStep) {db : Database} {history : List LotConsumption},
    Matched history db → Matched (history ++ recorded steps db) (runs lotBody steps db)
  | [], db, history, h => by simpa [recorded, runs] using h
  | step :: steps, db, history, h => by
    rw [recorded, ← List.append_assoc, runs_cons]
    refine runs_matched steps ?_
    rcases atomically_cases (lotBody step) db with ⟨u, db', hrun, heq⟩ | ⟨e, herr, heq⟩
    · rw [heq]
      exact lotBody_matched h hrun
    · rw [heq, recordedBy_of_error herr, List.append_nil]
      exact h

/-- No lot was ever opened. -/
structure Unheld (db : Database) : Prop where
  taxLots : db.taxLots = ∅
  lotConsumptions : db.lotConsumptions = ∅
  washSaleAdjustments : db.washSaleAdjustments = ∅

theorem unheld_openedAccount (customerId : Uuid) : Unheld (openedAccount customerId) :=
  ⟨rfl, rfl, rfl⟩

theorem Unheld.matched {db : Database} (h : Unheld db) : Matched [] db := by
  refine ⟨fun row hrow => ?_, by simp, by simp, fun id hid => ?_, by simp⟩
  · rw [h.lotConsumptions] at hrow; cases hrow
  · rw [h.washSaleAdjustments] at hid; cases hid

/-- **Wash-sale matching is complete and unique**, in whatever order the fills are processed. Every
consumption of the final state was recorded by one of the fills, and one that was recorded as a loss
has at most one adjustment, has one if and only if another lot of its position was acquired within
thirty days of its sale, and shows no gain. -/
theorem wash_sales_matched (steps : List LotStep) {db : Database} (h : Unheld db) :
    (∀ row ∈ (runs lotBody steps db).lotConsumptions, ∃ c ∈ recorded steps db, c.id = row.id) ∧
    ∀ c ∈ recorded steps db, c.realizedGainLoss < 0 →
      ((runs lotBody steps db).washSaleAdjustments.rows.filter
        (·.originalLotConsumptionId = c.id)).length ≤ 1 ∧
      ((∃ a ∈ (runs lotBody steps db).washSaleAdjustments, a.originalLotConsumptionId = c.id) ↔
        Replaceable (runs lotBody steps db) c) ∧
      ∃ row ∈ (runs lotBody steps db).lotConsumptions, row.id = c.id ∧ row.taxLotId = c.taxLotId ∧
        row.saleDate = c.saleDate ∧ row.realizedGainLoss ≤ 0 := by
  have hmatched := runs_matched steps h.matched
  rw [List.nil_append] at hmatched
  refine ⟨hmatched.rows, fun c hc hloss => ⟨Table.length_filter_key_le_one _ _, ?_, ?_⟩⟩
  · rw [← hmatched.settled c hc hloss, Table.has_iff]
  · obtain ⟨row, hrow, hid, hlotId, hdate, -, hneg⟩ := hmatched.kept c hc
    exact ⟨row, hrow, hid, hlotId, hdate, hneg hloss⟩

theorem wash_sales_matched_late_buy :
    (recorded washSaleRun (openedAccount 1)).map (·.realizedGainLoss.quanta) = [-500000] ∧
    ∀ c ∈ recorded washSaleRun (openedAccount 1), c.realizedGainLoss < 0 →
      ((runs lotBody washSaleRun (openedAccount 1)).washSaleAdjustments.rows.filter
        (·.originalLotConsumptionId = c.id)).length ≤ 1 ∧
      ((∃ a ∈ (runs lotBody washSaleRun (openedAccount 1)).washSaleAdjustments,
        a.originalLotConsumptionId = c.id) ↔
        Replaceable (runs lotBody washSaleRun (openedAccount 1)) c) ∧
      ∃ row ∈ (runs lotBody washSaleRun (openedAccount 1)).lotConsumptions, row.id = c.id ∧
        row.taxLotId = c.taxLotId ∧ row.saleDate = c.saleDate ∧ row.realizedGainLoss ≤ 0 :=
  ⟨by decide +kernel, (wash_sales_matched washSaleRun (unheld_openedAccount 1)).2⟩

end Trueup.Lots
