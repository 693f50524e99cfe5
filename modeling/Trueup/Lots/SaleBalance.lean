import Trueup.Lots.TieOut

/-! # When a sale balances

The loop of a sell fill rounds the proceeds of each lot on its own, and books them as basis and
gain; the cash leg of the entry is the product for the whole fill, rounded once. The posting service
accepts the entry exactly when the roundings add up (`sell_fill_posts_iff`), a condition on the
quantities of the lots before the fill: `takesFrom` is the loop on the quantities alone, with the
lots it takes from. -/

namespace Trueup.Lots

open Trueup.Core Trueup.Models Trueup.Lib Trueup.Lib.Transaction Trueup.Ledger

/-- The remaining quantity of a lot. -/
def remainingOf (db : Database) (lotId : Uuid) : ℤ :=
  ((db.taxLots.find lotId).map (·.quantityRemaining.quanta)).getD 0

/-- The lots a sell fill goes through, in order. -/
def selectedLots (db : Database) (fill : Fill) (designatedLotIds : Option (List Uuid)) :
    List Uuid :=
  match designatedLotIds.getD [] with
  | [] => (openFifo db fill.customerId fill.securityId).map (·.id)
  | lotId :: lotIds => lotId :: lotIds

/-- The lots that are taken from until `quantity` is sold, each with what is taken. -/
def takesFrom (remaining : Uuid → ℤ) : List Uuid → ℤ → List (Uuid × ℤ)
  | [], _ => []
  | lotId :: lotIds, quantity =>
    if quantity ≤ 0 then []
    else
      let take := min (remaining lotId) quantity
      if take ≤ 0 then takesFrom remaining lotIds quantity
      else (lotId, take) ::
        takesFrom (Function.update remaining lotId (remaining lotId - take)) lotIds (quantity - take)

/-- A price times a number of unit quanta, rounded to the quanta of money. -/
def proceedsOf (price : Price) (n : ℤ) : ℤ :=
  Rounding.roundHalfEven (((price.quanta * n : ℤ) : ℚ) / 10 ^ 8)

@[simp] theorem proceedsOf_zero (price : Price) : proceedsOf price 0 = 0 := by
  have hzero := Rounding.roundHalfEven_intCast 0
  simpa [proceedsOf] using hzero

/-- The proceeds of the lots, each rounded on its own, add up to the proceeds of the fill, rounded
once. -/
def ProceedsAddUp (db : Database) (fill : Fill) (designatedLotIds : Option (List Uuid)) : Prop :=
  ((takesFrom (remainingOf db) (selectedLots db fill designatedLotIds)
    fill.quantity.quanta).map fun t => proceedsOf fill.price t.2).sum =
      notional fill.price fill.quantity

instance (db : Database) (fill : Fill) (designatedLotIds : Option (List Uuid)) :
    Decidable (ProceedsAddUp db fill designatedLotIds) := by unfold ProceedsAddUp; infer_instance

/-! ### The loop on the quantities -/

/-- A figure of a lot; nothing, when there is no such lot. -/
def lotFigure (g : TaxLot → ℤ) (db : Database) (lotId : Uuid) : ℤ :=
  ((db.taxLots.find lotId).map g).getD 0

theorem lotFigure_of_mem {g : TaxLot → ℤ} {db : Database} {lot : TaxLot} (h : lot ∈ db.taxLots) :
    lotFigure g db lot.id = g lot := by
  rw [lotFigure, Table.find_eq_some.mpr ⟨h, rfl⟩]
  rfl

theorem lotFigure_setLot {g : TaxLot → ℤ} {db : Database} {lot lot' : TaxLot}
    (h : lot ∈ db.taxLots) (hid : lot'.id = lot.id) :
    lotFigure g { db with taxLots := db.taxLots.set lot' } =
      Function.update (lotFigure g db) lot.id (g lot') := by
  funext lotId
  have hhas : db.taxLots.Has lot'.id := by rw [hid]; exact Table.has_of_mem h
  simp only [lotFigure, Table.find_set hhas, Function.update_apply, hid]
  by_cases hkey : lotId = lot.id
  · simp [hkey]
  · rw [if_neg fun e => hkey e.symm, if_neg hkey]

theorem lotFigure_setLot_of_eq {g : TaxLot → ℤ} {db : Database} {lot l : TaxLot}
    (h : lot ∈ db.taxLots) (hid : l.id = lot.id) (hg : g l = g lot) :
    lotFigure g { db with taxLots := db.taxLots.set l } = lotFigure g db := by
  rw [lotFigure_setLot h hid, hg, ← lotFigure_of_mem (g := g) h, Function.update_eq_self]

theorem remainingOf_of_mem {db : Database} {lot : TaxLot} (h : lot ∈ db.taxLots) :
    remainingOf db lot.id = lot.quantityRemaining.quanta := lotFigure_of_mem h

theorem Consumed.lotFigure {env : Env} {fill : Fill} {lot lot' : TaxLot} {c : LotConsumption}
    {sale sale' : Sale} {db db' : Database} (h : Consumed env fill lot lot' c sale sale' db db')
    (g : TaxLot → ℤ) :
    lotFigure g db' = Function.update (lotFigure g db) lot.id (g lot') := by
  obtain ⟨table, -, rfl⟩ := h.wrote
  exact lotFigure_setLot h.mem h.id

theorem Consumed.remainingOf {env : Env} {fill : Fill} {lot lot' : TaxLot} {c : LotConsumption}
    {sale sale' : Sale} {db db' : Database} (h : Consumed env fill lot lot' c sale sale' db db') :
    remainingOf db' = Function.update (remainingOf db) lot.id
      (remainingOf db lot.id - c.quantityConsumed.quanta) := by
  rw [remainingOf_of_mem h.mem, ← h.remaining]
  exact h.lotFigure (·.quantityRemaining.quanta)

/-- The basis and the gain of the loop are the rounded proceeds of what it took. -/
theorem consumeLots_proceeds {env : Env} {fill : Fill} {fillDate : Date} {lotIds : List Uuid}
    {sale sale' : Sale} {db db' : Database}
    (h : (consumeLots env fill fillDate lotIds sale).run db = .ok (sale', db')) :
    sale'.consumedBasisTotal.quanta + sale'.realizedTotal.quanta =
      sale.consumedBasisTotal.quanta + sale.realizedTotal.quanta +
        ((takesFrom (remainingOf db) lotIds sale.remainingToSell.quanta).map
          fun t => proceedsOf fill.price t.2).sum := by
  refine consumeLots_induction (P := fun lotIds sale sale' db _ =>
    sale'.consumedBasisTotal.quanta + sale'.realizedTotal.quanta =
      sale.consumedBasisTotal.quanta + sale.realizedTotal.quanta +
        ((takesFrom (remainingOf db) lotIds sale.remainingToSell.quanta).map
          fun t => proceedsOf fill.price t.2).sum) ?_ ?_ ?_ h
  · intro lotIds sale db hdone
    have hnone : takesFrom (remainingOf db) lotIds sale.remainingToSell.quanta = [] := by
      rcases hdone with rfl | hdone
      · rfl
      · cases lotIds with
        | nil => rfl
        | cons lotId lotIds => rw [takesFrom, if_pos hdone]
    rw [hnone]
    exact (add_zero _).symm
  · intro lot lotIds sale _ db _ hlot hleft htake ih
    rw [takesFrom, if_neg (not_le.mpr hleft)]
    simp only [remainingOf_of_mem hlot, if_pos htake]
    exact ih
  · intro lot lot' c lotIds sale mid _ db dbMid _ hleft hc ih
    have hmin : min (remainingOf db lot.id) sale.remainingToSell.quanta =
        c.quantityConsumed.quanta := by rw [remainingOf_of_mem hc.mem, ← hc.take_eq]
    have hproceeds : proceedsOf fill.price c.quantityConsumed.quanta =
        notional fill.price c.quantityConsumed := rfl
    rw [takesFrom, if_neg (not_le.mpr hleft)]
    simp only [hmin, if_neg (not_le.mpr hc.take_pos), List.map_cons, List.sum_cons]
    rw [ih, hc.consumedBasisTotal, hc.realizedTotal, hc.realized, hc.remainingOf,
      hc.remainingToSell, hproceeds]
    ring

/-- The selection leaves every figure that does not depend on the mark. -/
theorem selectLotsToConsume_lotFigure {g : TaxLot → ℤ}
    (hg : ∀ lot : TaxLot, g { lot with designation := .specific } = g lot) {fill : Fill}
    {designatedLotIds : Option (List Uuid)} {db db' : Database} {lotIds : List Uuid}
    (h : (selectLotsToConsume fill.customerId fill.securityId designatedLotIds).run db =
      .ok (lotIds, db')) : lotFigure g db' = lotFigure g db := by
  refine selectLotsToConsume_keeps (I := fun s => lotFigure g s = lotFigure g db) ?_
    designatedLotIds db lotIds db' rfl h
  intro s lot hs hlot
  exact (lotFigure_setLot_of_eq (l := { lot with designation := .specific }) hlot rfl
    (hg lot)).trans hs

theorem selectLotsToConsume_ids {fill : Fill} {designatedLotIds : Option (List Uuid)}
    {db db' : Database} {lotIds : List Uuid}
    (h : (selectLotsToConsume fill.customerId fill.securityId designatedLotIds).run db =
      .ok (lotIds, db')) :
    lotIds = selectedLots db fill designatedLotIds ∧ remainingOf db' = remainingOf db := by
  refine ⟨?_, selectLotsToConsume_lotFigure (fun _ => rfl) h⟩
  unfold selectLotsToConsume at h
  unfold selectedLots
  cases hids : designatedLotIds.getD [] with
  | nil =>
    rw [hids] at h
    obtain ⟨heq, -⟩ := read_ok.mp h
    cases heq
    rfl
  | cons lotId rest =>
    rw [hids] at h
    simp only [bind_ok, pure_ok] at h
    obtain ⟨_, _, -, rfl, -⟩ := h
    rfl

theorem sellLots_proceeds {env : Env} {clock : MarketClock} {fill : Fill}
    {designatedLotIds : Option (List Uuid)} {db db' : Database} {fillDate : Date} {sale : Sale}
    (h : (sellLots env clock fill designatedLotIds).run db = .ok ((fillDate, sale), db')) :
    sale.consumedBasisTotal.quanta + sale.realizedTotal.quanta =
      ((takesFrom (remainingOf db) (selectedLots db fill designatedLotIds)
        fill.quantity.quanta).map fun t => proceedsOf fill.price t.2).sum := by
  obtain ⟨lotIds, db1, hselect, hloop, -⟩ := sellLots_ok h
  obtain ⟨rfl, hremaining⟩ := selectLotsToConsume_ids hselect
  rw [consumeLots_proceeds hloop, hremaining]
  simp [Sale.start]

/-! ### The zero-sum check -/

/-- The check on the legs of a sale: the sums on the way are amounts the legs have. -/
theorem validateLegs_sale {units costs cash gainLoss : Account} {quantity : Units}
    {basis proceeds realized : Money} :
    validateLegs [.units units quantity, .money costs basis.neg, .money cash proceeds,
        .money gainLoss realized.neg] = .ok () ↔
      basis.quanta + realized.quanta = proceeds.quanta := by
  constructor
  · intro h
    have hsum := sum_money_of_validateLegs h
    simp [PostingLeg.moneyQuanta, PostingLeg.money, PostingLeg.units] at hsum
    omega
  · intro h
    have h1 : (0 : Money).add basis.neg = .ok basis.neg := Money.add_ok.mpr (by simp)
    have h2 : basis.neg.add proceeds = .ok realized :=
      Money.add_ok.mpr (by rw [QuantizedDecimal.quanta_neg]; omega)
    have h3 : realized.add realized.neg = .ok 0 := Money.add_ok.mpr (by simp)
    simp [validateLegs, sumLegs, PostingLeg.money, PostingLeg.units, check, bind, Except.bind, h1,
      h2, h3]

theorem saleLegs_dimension {fill : Fill} {sale : Sale} {db db' : Database} {cash : Account}
    {proceeds : Money} {legs : List PostingLeg} {entryId : Uuid}
    (h : (saleLegs fill sale).run db = .ok ((cash, proceeds, legs), db')) :
    ∀ leg ∈ legs, ∃ p, leg.posting entryId = some p ∧
      p.amount.dimension = p.account.role.dimension := by
  obtain ⟨-, hcash, -, units, costs, gainLoss, hunits, hcosts, hgain, rfl⟩ := saleLegs_ok h
  simp [hcash.role, hunits.role, hcosts.role, hgain.role, Amount.dimension, AccountRole.dimension]

/-! ### One entry -/

/-- The entries of sales. -/
def saleEntries (db : Database) : List JournalEntry :=
  db.journalEntries.rows.filter (·.entryType = .tradeSell)

/-- The posting service accepts the sale: its one entry is written, and the one cash leg is the
price times the quantity, rounded to money. A fill that returns leaves one more entry of a sale. -/
def SellPosts (env : Env) (clock : MarketClock) (fill : Fill)
    (designatedLotIds : Option (List Uuid)) (db : Database) : Prop :=
  (∃ fillDate sale mid entry cash proceeds mid' posted,
    (sellLots env clock fill designatedLotIds).run db = .ok ((fillDate, sale), mid) ∧
    (postSale env fill fillDate sale).run mid = .ok ((entry, cash, proceeds), mid') ∧
    entry.entryType = .tradeSell ∧ proceeds.quanta = notional fill.price fill.quantity ∧
    mid'.journalEntries.rows = db.journalEntries.rows ++ [entry] ∧
    mid'.postings = db.postings ++ posted ∧
    posted.filter (·.account.role = .cash) = [⟨entry.id, cash, .money proceeds⟩]) ∧
  ∀ ids db', (recordSellFill env clock fill designatedLotIds).run db = .ok (ids, db') →
    ∃ entry, saleEntries db' = saleEntries db ++ [entry]

theorem sellLots_ledger {env : Env} {clock : MarketClock} {fill : Fill}
    {designatedLotIds : Option (List Uuid)} {db db' : Database} {r : Date × Sale}
    (h : (sellLots env clock fill designatedLotIds).run db = .ok (r, db')) :
    db'.journalEntries = db.journalEntries ∧ db'.postings = db.postings := by
  obtain ⟨lotIds, db1, hselect, hloop, -⟩ := sellLots_ok h
  refine soldLots_keeps (I := fun s => s.journalEntries = db.journalEntries ∧
    s.postings = db.postings) (fun hs _ => hs) (fun hs hc => ?_) hselect hloop ⟨rfl, rfl⟩
  obtain ⟨table, -, rfl⟩ := hc.wrote
  exact hs

theorem washSaleInvariant_saleEntries (v : List JournalEntry) :
    WashSaleInvariant (fun db => saleEntries db = v) := by
  intro db db' consumption lot hdb _ _ _ hadj
  obtain ⟨basis, realized, entry, gainLoss, cost, accounts, entries, adjustments, returns, events,
    disclosures, -, -, -, -, htype, hentries, -, rfl⟩ := hadj
  rw [← hdb]
  simp [saleEntries, Table.rows_insert hentries, htype]

theorem recordSellFill_saleEntries {env : Env} {clock : MarketClock} {fill : Fill}
    {designatedLotIds : Option (List Uuid)} {db db' : Database} {ids : List Uuid}
    (h : (recordSellFill env clock fill designatedLotIds).run db = .ok (ids, db')) :
    ∃ entry, saleEntries db' = saleEntries db ++ [entry] := by
  obtain ⟨fillDate, lotIds, sale, db1, db2, db3, hselect, -, hloop, -, hposted, hwash⟩ :=
    recordSellFill_rule h
  rw [hwash (washSaleInvariant_saleEntries (saleEntries db3)) rfl]
  have h2 : db2.journalEntries = db.journalEntries := by
    refine soldLots_keeps (I := fun s => s.journalEntries = db.journalEntries) (fun hs _ => hs)
      (fun hs hc => ?_) hselect hloop rfl
    obtain ⟨table, -, rfl⟩ := hc.wrote
    exact hs
  obtain ⟨proceeds, entry, units, costs, cash, gainLoss, accounts, entries, settlementDate,
    obligations, -, -, htype, -, -, -, -, -, -, hentries, -, rfl⟩ := hposted
  refine ⟨entry, ?_⟩
  simp only [saleEntries, Table.rows_insert hentries, List.filter_append, h2]
  simp [htype]

/-- **When a sale is posted.** Of a sell fill whose lots cover the quantity, whose accounts are
there and whose entry id is new, the posting service accepts the entry exactly when the rounded
proceeds of the lots add up to the rounded proceeds of the fill. -/
theorem sell_fill_posts_iff {env : Env} {clock : MarketClock} {fill : Fill}
    {designatedLotIds : Option (List Uuid)} {db : Database}
    (hready : ((do
      let r ← sellLots env clock fill designatedLotIds
      saleLegs fill r.2 : Tx _).run db).isOk)
    (hid : ¬ db.journalEntries.Has (env.uuid4 .journalEntry)) :
    SellPosts env clock fill designatedLotIds db ↔ ProceedsAddUp db fill designatedLotIds := by
  obtain ⟨⟨⟨cash, proceeds, legs⟩, mid'⟩, hrun⟩ : ∃ r, ((do
      let r ← sellLots env clock fill designatedLotIds
      saleLegs fill r.2 : Tx _).run db) = .ok r := by
    cases hr : ((do
      let r ← sellLots env clock fill designatedLotIds
      saleLegs fill r.2 : Tx _).run db) with
    | ok r => exact ⟨r, rfl⟩
    | error e => rw [hr] at hready; cases hready
  obtain ⟨⟨fillDate, sale⟩, mid, hsell, hlegs⟩ := bind_ok.mp hrun
  obtain ⟨hentries, hpostings⟩ := sellLots_ledger hsell
  obtain ⟨hproceeds, hcash, ⟨accounts, rfl⟩, units, costs, gainLoss, hunits, hcosts, hgain, rfl⟩ :=
    saleLegs_ok hlegs
  rw [ProceedsAddUp, ← sellLots_proceeds hsell, ← hproceeds,
    ← @validateLegs_sale units costs cash gainLoss fill.quantity.neg]
  constructor
  · -- the legs of the accepted entry are these
    rintro ⟨⟨fillDate', sale', mid1, entry, cash', proceeds', mid2, posted, hsell', hpost, -⟩, -⟩
    rw [hsell] at hsell'
    cases hsell'
    simp only [postSale, bind_ok] at hpost
    obtain ⟨⟨_, _, _⟩, _, hlegs', _, _, hpost, -⟩ := hpost
    rw [hlegs] at hlegs'
    cases hlegs'
    exact (post_ok hpost).1
  · intro hvalid
    refine ⟨?_, fun ids db' h => recordSellFill_saleEntries h⟩
    let entry : JournalEntry := ⟨env.uuid4 .journalEntry, .tradeSell, fillDate,
      .tradeSellFill fill.customerId fill.securityId fill.executionId fill.quantity fill.price,
      none, none⟩
    obtain ⟨entries, hinsert⟩ : ∃ t, mid.journalEntries.insert entry = some t := by
      rw [hentries]
      refine ⟨⟨db.journalEntries.rows ++ [entry], ?_⟩, Table.insert_eq_some.mpr ⟨hid, rfl⟩⟩
      rw [List.map_append, List.nodup_append]
      refine ⟨db.journalEntries.nodup, by simp, fun a ha b hb => ?_⟩
      rintro rfl
      simp only [List.map_cons, List.map_nil, List.mem_singleton] at hb
      exact hid (by rw [hb] at ha; exact ha)
    have hpost := (@writeEntry_ok entry entry _ { mid with accounts } _).mpr
      ⟨hvalid, saleLegs_dimension hlegs, rfl, entries, hinsert, rfl⟩
    refine ⟨fillDate, sale, mid, entry, cash, proceeds,
      { mid with
        accounts := accounts
        journalEntries := entries
        postings := mid.postings ++ [⟨entry.id, units, .units fill.quantity.neg⟩,
          ⟨entry.id, costs, .money sale.consumedBasisTotal.neg⟩,
          ⟨entry.id, cash, .money proceeds⟩,
          ⟨entry.id, gainLoss, .money sale.realizedTotal.neg⟩] }, _, hsell, ?_, rfl, hproceeds,
      ?_, by rw [← hpostings], ?_⟩
    · exact bind_ok.mpr ⟨_, _, hlegs, bind_ok.mpr ⟨entry, _, hpost, pure_ok.mpr ⟨rfl, rfl⟩⟩⟩
    · rw [← hentries]; exact Table.rows_insert hinsert
    · simp [hunits.role, hcosts.role, hcash.role, hgain.role, entry]

/-- Two lots of three and four shares. -/
def twoLots : Database := runs lotBody [
  ⟨envAt 10 1, .buyFill openedClock (fillAt 10 "a" (shares 3) (dollarsPerShare 60))⟩,
  ⟨envAt 20 2, .buyFill openedClock (fillAt 20 "b" (shares 4) (dollarsPerShare 60))⟩]
  (openedAccount 1)

theorem sell_fill_posts_of_whole_shares :
    SellPosts (envAt 30 3) openedClock (fillAt 30 "c" (shares 5) (dollarsPerShare 70)) none
      twoLots :=
  (sell_fill_posts_iff (by decide +kernel) (by decide +kernel)).mpr (by decide +kernel)

/-- Two lots of a millionth of a share. -/
def twoSmallLots : Database := runs lotBody [
  ⟨envAt 10 1, .buyFill openedClock (fillAt 10 "a" microshare (dollarsPerShare 60))⟩,
  ⟨envAt 20 2, .buyFill openedClock (fillAt 20 "b" microshare (dollarsPerShare 60))⟩]
  (openedAccount 1)

/-- The sale of both: each lot has proceeds of `0.00006`, which round to `0.0001`; the proceeds of
the fill, `0.00012`, round to `0.0001` too. -/
def smallSale : Fill := fillAt 30 "c" ⟨2, by decide⟩ (dollarsPerShare 60)

/-- The sale of all of two small lots raises `UnbalancedEntryError`. -/
theorem small_sale_unbalanced :
    0 < smallSale.price.quanta ∧ 0 < smallSale.quantity.quanta ∧
    smallSale.quantity.quanta ≤ lotUnits twoSmallLots 1 7 ∧
    (UnitOfWork.perform (recordSellFill (envAt 30 3) openedClock smallSale none) twoSmallLots).1 =
      .error (.unbalancedEntry ⟨-1, by decide⟩) ∧
    ¬ SellPosts (envAt 30 3) openedClock smallSale none twoSmallLots := by
  refine ⟨by decide, by decide, by decide +kernel, ?_, ?_⟩
  · decide +kernel
  · rintro ⟨⟨fillDate, sale, mid, entry, cash, proceeds, mid', posted, hsell, hpost, -⟩, -⟩
    have hrefused : ((do
        let r ← sellLots (envAt 30 3) openedClock smallSale none
        postSale (envAt 30 3) smallSale r.1 r.2 : Tx _).run twoSmallLots).isOk = false := by
      decide +kernel
    rw [bind_ok.mpr ⟨_, _, hsell, hpost⟩] at hrefused
    cases hrefused

end Trueup.Lots
