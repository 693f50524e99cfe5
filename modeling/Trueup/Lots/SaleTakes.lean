import Trueup.Lots.SaleBalance
import Trueup.Lots.WashSaleMatching

/-! # What a sale takes from each lot

The sell loop as a function of the state before it. A lot is taken from at most once, since a take
ends the lot or the sale (`mem_takesFrom`); so what a take realizes, and what it leaves of the lot,
are read off the lot as it was before the fill (`TakenAs`, `sellLots_takes`). -/

namespace Trueup.Lots

open Trueup.Core Trueup.Models Trueup.Lib Trueup.Lib.Transaction Trueup.Ledger

/-- What a sell fill takes from the lots. -/
def saleTakes (db : Database) (fill : Fill) (designatedLotIds : Option (List Uuid)) :
    List (Uuid × ℤ) :=
  takesFrom (remainingOf db) (selectedLots db fill designatedLotIds) fill.quantity.quanta

/-- What is taken from one lot. -/
def takenFrom (takes : List (Uuid × ℤ)) (lotId : Uuid) : ℤ :=
  ((takes.filter (·.1 = lotId)).map (·.2)).sum

/-- The basis of `take` units of the lot: the unit basis, rounded to a price, times the units. -/
def basisOf (lot : TaxLot) (take : ℤ) : Option ℤ :=
  match Money.perUnit lot.adjustedBasis lot.quantityRemaining with
  | .ok perUnit => some (proceedsOf perUnit take)
  | .error _ => none

/-- The basis that the consumptions of a sale took from one lot: proceeds less gain. -/
def basisConsumed (price : Price) (sold : List LotConsumption) (lotId : Uuid) : ℤ :=
  ((sold.filter (·.taxLotId = lotId)).map fun c =>
    proceedsOf price c.quantityConsumed.quanta - c.realizedGainLoss.quanta).sum

/-- The adjusted basis of a lot. -/
def adjustedBasisOf (db : Database) (lotId : Uuid) : ℤ := lotFigure (·.adjustedBasis.quanta) db lotId

/-! ### The takes -/

theorem mem_takesFrom {lotIds : List Uuid} : ∀ {remaining : Uuid → ℤ} {quantity : ℤ}
    {t : Uuid × ℤ}, t ∈ takesFrom remaining lotIds quantity →
    0 < t.2 ∧ t.2 ≤ remaining t.1 ∧ t.2 ≤ quantity := by
  induction lotIds with
  | nil => intro remaining quantity t h; cases h
  | cons lotId lotIds ih =>
    intro remaining quantity t h
    simp only [takesFrom] at h
    split_ifs at h with hq htake
    · cases h
    · exact ih h
    · rcases List.mem_cons.mp h with rfl | h
      · exact ⟨not_le.mp htake, min_le_left _ _, min_le_right _ _⟩
      · obtain ⟨hpos, hrem, hquantity⟩ := ih h
        refine ⟨hpos, ?_, by omega⟩
        rw [Function.update_apply] at hrem
        split_ifs at hrem with hid
        · rw [hid]; omega
        · exact hrem

theorem ne_of_mem_takesFrom_update {remaining : Uuid → ℤ} {lotId : Uuid} {lotIds : List Uuid}
    {quantity take : ℤ} (htake : take = min (remaining lotId) quantity) {t : Uuid × ℤ}
    (h : t ∈ takesFrom (Function.update remaining lotId (remaining lotId - take)) lotIds
      (quantity - take)) : t.1 ≠ lotId := by
  intro hid
  obtain ⟨hpos, hrem, hquantity⟩ := mem_takesFrom h
  rw [hid, Function.update_self] at hrem
  rcases min_choice (remaining lotId) quantity with hmin | hmin <;> omega

theorem sum_takesFrom_le {lotIds : List Uuid} : ∀ {remaining : Uuid → ℤ} {quantity : ℤ},
    0 ≤ quantity → ((takesFrom remaining lotIds quantity).map (·.2)).sum ≤ quantity := by
  induction lotIds with
  | nil => intro remaining quantity h; exact h
  | cons lotId lotIds ih =>
    intro remaining quantity h
    simp only [takesFrom]
    split_ifs with hq htake
    · exact h
    · exact ih h
    · have hrest := @ih (Function.update remaining lotId
        (remaining lotId - min (remaining lotId) quantity))
        (quantity - min (remaining lotId) quantity) (by omega)
      rw [List.map_cons, List.sum_cons]
      dsimp only
      omega

theorem mem_lots_of_takesFrom {lotIds : List Uuid} : ∀ {remaining : Uuid → ℤ} {quantity : ℤ}
    {t : Uuid × ℤ}, t ∈ takesFrom remaining lotIds quantity → t.1 ∈ lotIds := by
  induction lotIds with
  | nil => intro remaining quantity t h; cases h
  | cons lotId lotIds ih =>
    intro remaining quantity t h
    simp only [takesFrom] at h
    split_ifs at h with hq htake
    · cases h
    · exact List.mem_cons_of_mem _ (ih h)
    · rcases List.mem_cons.mp h with rfl | h
      · exact List.mem_cons_self
      · exact List.mem_cons_of_mem _ (ih h)

theorem takenFrom_cons (t : Uuid × ℤ) (takes : List (Uuid × ℤ)) (lotId : Uuid) :
    takenFrom (t :: takes) lotId = (if t.1 = lotId then t.2 else 0) + takenFrom takes lotId := by
  unfold takenFrom
  by_cases h : t.1 = lotId <;> simp [h]

theorem basisConsumed_cons (price : Price) (c : LotConsumption) (sold : List LotConsumption)
    (lotId : Uuid) : basisConsumed price (c :: sold) lotId =
      (if c.taxLotId = lotId then
        proceedsOf price c.quantityConsumed.quanta - c.realizedGainLoss.quanta else 0) +
      basisConsumed price sold lotId := by
  unfold basisConsumed
  by_cases h : c.taxLotId = lotId <;> simp [h]

/-- The take is at a loss. -/
def isLoss (price : Price) (lot : TaxLot) (take : ℤ) : Bool :=
  match basisOf lot take with
  | some basis => proceedsOf price take < basis
  | none => false

/-! ### The loop -/

/-- What became of a lot: `take` was taken from it. -/
structure TakenAs (lot lot' : TaxLot) (take : ℤ) : Prop where
  rest : lot' = { lot with
    quantityRemaining := lot'.quantityRemaining, remaining_nonneg := lot'.remaining_nonneg
    adjustedBasis := lot'.adjustedBasis, designation := lot'.designation }
  remaining : lot'.quantityRemaining.quanta = lot.quantityRemaining.quanta - take
  basis : ∃ basis, basisOf lot take = some basis ∧
    lot'.adjustedBasis.quanta = lot.adjustedBasis.quanta - basis

/-- The consumption records a take from the lot. -/
structure RecordedAs (fill : Fill) (lot : TaxLot) (c : LotConsumption) : Prop where
  taxLotId : c.taxLotId = lot.id
  realized : ∃ basis, basisOf lot c.quantityConsumed.quanta = some basis ∧
    c.realizedGainLoss.quanta = proceedsOf fill.price c.quantityConsumed.quanta - basis

theorem Consumed.takenAs {env : Env} {fill : Fill} {lot lot' : TaxLot} {c : LotConsumption}
    {sale sale' : Sale} {db db' : Database} (h : Consumed env fill lot lot' c sale sale' db db') :
    TakenAs lot lot' c.quantityConsumed.quanta ∧ RecordedAs fill lot c := by
  obtain ⟨perUnit, hperUnit, hbasis⟩ := h.unitBasis
  have hsome : basisOf lot c.quantityConsumed.quanta =
      some (proceedsOf perUnit c.quantityConsumed.quanta) := by rw [basisOf, hperUnit]
  have hdiff : lot.adjustedBasis.quanta - lot'.adjustedBasis.quanta =
      proceedsOf perUnit c.quantityConsumed.quanta := hbasis
  refine ⟨⟨?_, h.remaining, _, hsome, by omega⟩, ⟨h.taxLotId, _, hsome, ?_⟩⟩
  · rw [h.rest]
  · rw [h.realized, hdiff]
    rfl

theorem TakenAs.redesignated {lot lot' lot'' : TaxLot} {take : ℤ} (h : TakenAs lot lot' take)
    (hsame : lot'' = { lot' with designation := lot''.designation }) : TakenAs lot lot'' take := by
  obtain ⟨hrest, hremaining, basis, hbasis, hadjusted⟩ := h
  refine ⟨?_, ?_, basis, hbasis, ?_⟩
  · rw [hsame, hrest]
  · rw [hsame]; exact hremaining
  · rw [hsame]; exact hadjusted

/-- The loop took `takes` from the lots of `db` and recorded `sold`. -/
structure Took (fill : Fill) (takes : List (Uuid × ℤ)) (sold : List LotConsumption)
    (db db' : Database) : Prop where
  rows : db'.lotConsumptions.rows = db.lotConsumptions.rows ++ sold
  amounts : sold.map (fun c => (c.taxLotId, c.quantityConsumed.quanta)) = takes
  recorded : ∀ c ∈ sold, ∃ lot ∈ db.taxLots, RecordedAs fill lot c
  lots : ∀ lot' ∈ db'.taxLots, ∃ lot ∈ db.taxLots, lot'.id = lot.id ∧
    (((∀ t ∈ takes, t.1 ≠ lot.id) ∧ lot' = { lot with designation := lot'.designation }) ∨
      ∃ t ∈ takes, t.1 = lot.id ∧ TakenAs lot lot' t.2)
  remaining : ∀ lotId, remainingOf db' lotId = remainingOf db lotId - takenFrom takes lotId
  basis : ∀ lotId, adjustedBasisOf db' lotId =
    adjustedBasisOf db lotId - basisConsumed fill.price sold lotId

theorem Took.nil (fill : Fill) (db : Database) : Took fill [] [] db db where
  rows := (List.append_nil _).symm
  amounts := rfl
  recorded := by simp
  lots lot hlot := ⟨lot, hlot, rfl, Or.inl ⟨by simp, rfl⟩⟩
  remaining lotId := by simp [takenFrom]
  basis lotId := by simp [basisConsumed]

section Took
variable {fill : Fill} {takes : List (Uuid × ℤ)} {sold : List LotConsumption} {db db' : Database}
  {c : LotConsumption}

theorem Took.mem_takes (h : Took fill takes sold db db') (hc : c ∈ sold) :
    (c.taxLotId, c.quantityConsumed.quanta) ∈ takes := by
  rw [← h.amounts]
  exact List.mem_map_of_mem (f := fun c => (c.taxLotId, c.quantityConsumed.quanta)) hc

theorem Took.isLoss (h : Took fill takes sold db db') (hc : c ∈ sold)
    (hloss : c.realizedGainLoss.quanta < 0) :
    ∃ lot ∈ db.taxLots, c.taxLotId = lot.id ∧
      isLoss fill.price lot c.quantityConsumed.quanta := by
  obtain ⟨lot, hlot, hid, basis, hbasis, hrealized⟩ := h.recorded c hc
  refine ⟨lot, hlot, hid, ?_⟩
  rw [Lots.isLoss, hbasis]
  simp only [decide_eq_true_eq]
  omega

/-- A consumption is as the loop recorded it until the scan. -/
theorem Took.kept (h : Took fill takes sold db db') (hc : c ∈ sold) : Kept db' c := by
  have hrow : c ∈ db'.lotConsumptions := by
    rw [Table.mem_iff, h.rows]; exact List.mem_append_right _ hc
  exact ⟨c, hrow, rfl, rfl, rfl, fun _ => rfl, le_of_lt⟩

end Took

/-- One more turn in front of the loop, on a lot the rest of the loop does not take from. -/
theorem Took.cons {env : Env} {fill : Fill} {lot lot' : TaxLot} {c : LotConsumption}
    {sale sale' : Sale} {takes : List (Uuid × ℤ)} {sold : List LotConsumption}
    {db mid db' : Database} (hc : Consumed env fill lot lot' c sale sale' db mid)
    (h : Took fill takes sold mid db') (hother : ∀ t ∈ takes, t.1 ≠ lot.id) :
    Took fill ((lot.id, c.quantityConsumed.quanta) :: takes) (c :: sold) db db' := by
  obtain ⟨htaken, hrecorded⟩ := hc.takenAs
  obtain ⟨table, htable, hmid⟩ := hc.wrote
  have hsoldOther : ∀ c' ∈ sold, c'.taxLotId ≠ lot.id := by
    intro c' hc'
    refine hother (c'.taxLotId, c'.quantityConsumed.quanta) ?_
    rw [← h.amounts]
    exact List.mem_map_of_mem hc'
  have hmem : ∀ l ∈ mid.taxLots, (l ∈ db.taxLots ∧ l.id ≠ lot.id) ∨ l = lot' := by
    intro l hl
    rw [hmid] at hl
    rcases Table.mem_set.mp hl with ⟨hl, hne⟩ | ⟨rfl, -⟩
    · exact Or.inl ⟨hl, fun e => hne (e.trans hc.id.symm)⟩
    · exact Or.inr rfl
  refine ⟨?_, ?_, fun c' hc' => ?_, fun l hl => ?_, fun lotId => ?_, fun lotId => ?_⟩
  · rw [h.rows, hmid]
    show table.rows ++ sold = _
    rw [Table.rows_insert htable, List.append_assoc]
    rfl
  · rw [List.map_cons, h.amounts, hc.taxLotId]
  · rcases List.mem_cons.mp hc' with rfl | hc'
    · exact ⟨lot, hc.mem, hrecorded⟩
    · obtain ⟨l, hl, hrec⟩ := h.recorded c' hc'
      rcases hmem l hl with ⟨hl, -⟩ | rfl
      · exact ⟨l, hl, hrec⟩
      · exact absurd (hrec.taxLotId.trans hc.id) (hsoldOther c' hc')
  · obtain ⟨l0, hl0, hid, hcase⟩ := h.lots l hl
    rcases hmem l0 hl0 with ⟨hl0, hne⟩ | rfl
    · refine ⟨l0, hl0, hid, ?_⟩
      rcases hcase with ⟨hnone, hsame⟩ | ⟨t, ht, hid', htaken'⟩
      · refine Or.inl ⟨fun t ht => ?_, hsame⟩
        rcases List.mem_cons.mp ht with rfl | ht
        · exact hne.symm
        · exact hnone t ht
      · exact Or.inr ⟨t, List.mem_cons_of_mem _ ht, hid', htaken'⟩
    · refine ⟨lot, hc.mem, hid.trans hc.id, Or.inr ⟨_, List.mem_cons_self, rfl, ?_⟩⟩
      rcases hcase with ⟨-, hsame⟩ | ⟨t, ht, hid', -⟩
      · exact htaken.redesignated hsame
      · exact absurd (hid'.trans hc.id) (hother t ht)
  · rw [h.remaining lotId, hc.remainingOf, Function.update_apply, takenFrom_cons]
    by_cases hid : lotId = lot.id
    · subst hid
      rw [if_pos rfl, if_pos rfl]
      ring
    · rw [if_neg hid, if_neg fun e => hid e.symm]
      ring
  · have hrealized := hc.realized
    have hproceeds : proceedsOf fill.price c.quantityConsumed.quanta =
        notional fill.price c.quantityConsumed := rfl
    rw [h.basis lotId, adjustedBasisOf, hc.lotFigure, Function.update_apply, basisConsumed_cons,
      hc.taxLotId, hproceeds]
    by_cases hid : lotId = lot.id
    · subst hid
      rw [if_pos rfl, if_pos rfl, adjustedBasisOf, lotFigure_of_mem hc.mem]
      omega
    · rw [if_neg hid, if_neg fun e => hid e.symm, adjustedBasisOf]
      ring

theorem takesFrom_stop {remaining : Uuid → ℤ} {lotIds : List Uuid} {quantity : ℤ}
    (h : lotIds = [] ∨ quantity ≤ 0) : takesFrom remaining lotIds quantity = [] := by
  rcases h with rfl | hdone
  · rfl
  · cases lotIds with
    | nil => rfl
    | cons lotId lotIds => rw [takesFrom, if_pos hdone]

theorem takesFrom_skip {db : Database} {lot : TaxLot} (hlot : lot ∈ db.taxLots) {lotIds : List Uuid}
    {quantity : ℤ} (hleft : 0 < quantity) (htake : min lot.quantityRemaining.quanta quantity ≤ 0) :
    takesFrom (remainingOf db) (lot.id :: lotIds) quantity =
      takesFrom (remainingOf db) lotIds quantity := by
  rw [takesFrom, if_neg (not_le.mpr hleft)]
  simp only [remainingOf_of_mem hlot, if_pos htake]

theorem takesFrom_turn {env : Env} {fill : Fill} {lot lot' : TaxLot} {c : LotConsumption}
    {sale mid : Sale} {db dbMid : Database} (hc : Consumed env fill lot lot' c sale mid db dbMid)
    (hleft : 0 < sale.remainingToSell.quanta) (lotIds : List Uuid) :
    takesFrom (remainingOf db) (lot.id :: lotIds) sale.remainingToSell.quanta =
      (lot.id, c.quantityConsumed.quanta) ::
        takesFrom (remainingOf dbMid) lotIds mid.remainingToSell.quanta := by
  have hmin : min (remainingOf db lot.id) sale.remainingToSell.quanta = c.quantityConsumed.quanta := by
    rw [remainingOf_of_mem hc.mem, ← hc.take_eq]
  rw [takesFrom, if_neg (not_le.mpr hleft)]
  simp only [hmin, if_neg (not_le.mpr hc.take_pos)]
  rw [hc.remainingOf, hc.remainingToSell]

/-- **The loop on the quantities** is the loop of the sale. -/
theorem consumeLots_takes {env : Env} {fill : Fill} {fillDate : Date} {lotIds : List Uuid}
    {sale sale' : Sale} {db db' : Database}
    (h : (consumeLots env fill fillDate lotIds sale).run db = .ok (sale', db')) :
    ∃ sold, Took fill (takesFrom (remainingOf db) lotIds sale.remainingToSell.quanta) sold db db' := by
  refine consumeLots_induction (P := fun lotIds sale _ db db' => ∃ sold,
    Took fill (takesFrom (remainingOf db) lotIds sale.remainingToSell.quanta) sold db db') ?_ ?_ ?_ h
  · intro lotIds sale db hdone
    rw [takesFrom_stop hdone]
    exact ⟨[], .nil fill db⟩
  · intro lot lotIds sale _ db _ hlot hleft htake ih
    rw [takesFrom_skip hlot hleft htake]
    exact ih
  · intro lot lot' c lotIds sale mid _ db dbMid _ hleft hc ih
    obtain ⟨sold, htook⟩ := ih
    rw [takesFrom_turn hc hleft]
    refine ⟨c :: sold, .cons hc htook fun t ht => ?_⟩
    rw [hc.remainingOf, hc.remainingToSell] at ht
    exact ne_of_mem_takesFrom_update (by rw [remainingOf_of_mem hc.mem, ← hc.take_eq]) ht

theorem consumeLots_remainingToSell {env : Env} {fill : Fill} {fillDate : Date} {lotIds : List Uuid}
    {sale sale' : Sale} {db db' : Database}
    (h : (consumeLots env fill fillDate lotIds sale).run db = .ok (sale', db')) :
    sale'.remainingToSell.quanta = sale.remainingToSell.quanta -
      ((takesFrom (remainingOf db) lotIds sale.remainingToSell.quanta).map (·.2)).sum := by
  refine consumeLots_induction (P := fun lotIds sale sale' db _ =>
    sale'.remainingToSell.quanta = sale.remainingToSell.quanta -
      ((takesFrom (remainingOf db) lotIds sale.remainingToSell.quanta).map (·.2)).sum) ?_ ?_ ?_ h
  · intro lotIds sale db hdone
    rw [takesFrom_stop hdone]
    exact (sub_zero _).symm
  · intro lot lotIds sale _ db _ hlot hleft htake ih
    rw [takesFrom_skip hlot hleft htake]
    exact ih
  · intro lot lot' c lotIds sale mid _ db dbMid _ hleft hc ih
    rw [takesFrom_turn hc hleft, List.map_cons, List.sum_cons, ih, hc.remainingToSell]
    omega

/-! ### From before the selection -/

theorem selectLotsToConsume_marks {customerId securityId : Uuid}
    {designatedLotIds : Option (List Uuid)} {db db' : Database} {lotIds : List Uuid}
    (h : (selectLotsToConsume customerId securityId designatedLotIds).run db =
      .ok (lotIds, db')) :
    (∀ lot' ∈ db'.taxLots, ∃ lot ∈ db.taxLots,
      lot' = { lot with designation := lot'.designation }) ∧
      db'.lotConsumptions = db.lotConsumptions := by
  refine selectLotsToConsume_keeps (I := fun s => (∀ lot' ∈ s.taxLots, ∃ lot ∈ db.taxLots,
    lot' = { lot with designation := lot'.designation }) ∧
      s.lotConsumptions = db.lotConsumptions) ?_ designatedLotIds db lotIds db'
    ⟨fun lot hlot => ⟨lot, hlot, rfl⟩, rfl⟩ h
  rintro s marked ⟨hmarks, hcons⟩ hmarked
  refine ⟨fun lot' hlot' => ?_, hcons⟩
  rcases Table.mem_set.mp hlot' with ⟨hlot', -⟩ | ⟨rfl, -⟩
  · exact hmarks lot' hlot'
  · obtain ⟨lot, hlot, hsame⟩ := hmarks marked hmarked
    refine ⟨lot, hlot, ?_⟩
    rw [hsame]

theorem Took.of_marked {fill : Fill} {takes : List (Uuid × ℤ)} {sold : List LotConsumption}
    {db mid db' : Database}
    (hmarks : ∀ lot' ∈ mid.taxLots, ∃ lot ∈ db.taxLots,
      lot' = { lot with designation := lot'.designation })
    (hcons : mid.lotConsumptions = db.lotConsumptions) (hrem : remainingOf mid = remainingOf db)
    (hbasis : adjustedBasisOf mid = adjustedBasisOf db)
    (h : Took fill takes sold mid db') : Took fill takes sold db db' := by
  refine ⟨by rw [h.rows, hcons], h.amounts, fun c hc => ?_, fun lot' hlot' => ?_,
    by rw [← hrem]; exact h.remaining, by rw [← hbasis]; exact h.basis⟩
  · obtain ⟨marked, hmarked, hid, basis, hbasis, hrealized⟩ := h.recorded c hc
    obtain ⟨lot, hlot, hsame⟩ := hmarks marked hmarked
    rw [hsame] at hid hbasis
    exact ⟨lot, hlot, hid, basis, hbasis, hrealized⟩
  · obtain ⟨marked, hmarked, hid, hcase⟩ := h.lots lot' hlot'
    obtain ⟨lot, hlot, hsame⟩ := hmarks marked hmarked
    rw [hsame] at hid hcase
    refine ⟨lot, hlot, hid, ?_⟩
    rcases hcase with ⟨hnone, hlot'⟩ | ⟨t, ht, hid', hrest, hremaining, basis, hbasis, hadjusted⟩
    · exact Or.inl ⟨hnone, hlot'⟩
    · exact Or.inr ⟨t, ht, hid', hrest, hremaining, basis, hbasis, hadjusted⟩

theorem consumeLots_saleDate {env : Env} {fill : Fill} {fillDate : Date}
    (before : Table LotConsumption.id) : ∀ (lotIds : List Uuid) (sale : Sale),
    Keeps (fun s => ∀ c ∈ s.lotConsumptions, c ∈ before ∨ c.saleDate = fillDate)
      (consumeLots env fill fillDate lotIds sale)
  | [], sale => keeps_pure _
  | lotId :: lotIds, sale => by
    refine keeps_ite (keeps_pure _) (keeps_bind ?_ fun sale' => consumeLots_saleDate before lotIds sale')
    refine keeps_bind (keeps_read _) fun lot => keeps_ite (keeps_pure _) ?_
    refine keeps_bind (keeps_lift _) fun _ => keeps_bind (keeps_lift _) fun _ =>
      keeps_bind (keeps_lift _) fun _ => keeps_bind (keeps_lift _) fun _ => keeps_bind ?_ fun _ =>
      keeps_bind (keeps_lift _) fun _ => keeps_bind (keeps_lift _) fun _ =>
      keeps_bind (keeps_lift _) fun _ => keeps_bind ?_ fun _ => keeps_bind (keeps_lift _) fun _ =>
      keeps_bind (keeps_lift _) fun _ => keeps_bind (keeps_lift _) fun _ => keeps_pure _
    · intro s u s' hs h c hc
      obtain ⟨-, table, htable, rfl⟩ := addLotConsumption_ok.mp h
      rcases (Table.mem_insert htable).mp hc with hc | rfl
      · exact hs c hc
      · exact Or.inr rfl
    · intro s u s' hs h
      rw [setTaxLot_ok.mp h]
      exact hs

/-- **What a sale took**, read off the state before it. -/
theorem sellLots_takes {env : Env} {clock : MarketClock} {fill : Fill}
    {designatedLotIds : Option (List Uuid)} {db db' : Database} {fillDate : Date} {sale : Sale}
    (h : (sellLots env clock fill designatedLotIds).run db = .ok ((fillDate, sale), db')) :
    clock.marketDate fill.filledAt = .ok fillDate ∧
      ∃ sold, Took fill (saleTakes db fill designatedLotIds) sold db db' ∧
        sold.map (·.id) = sale.consumptions ∧ ∀ c ∈ sold, c.saleDate = fillDate := by
  have hdate : clock.marketDate fill.filledAt = .ok fillDate := by
    simp only [sellLots, bind_ok, lift_ok, pure_ok, Prod.mk.injEq] at h
    obtain ⟨_, _, ⟨hdate, -⟩, -, -, -, -, -, -, -, -, -, ⟨rfl, -⟩, -⟩ := h
    exact hdate
  obtain ⟨sold', hrows', hids, -⟩ := (sellLots_rows h).rows
  obtain ⟨lotIds, mid, hselect, hloop, -⟩ := sellLots_ok h
  obtain ⟨hmarks, hcons⟩ := selectLotsToConsume_marks hselect
  obtain ⟨rfl, hrem⟩ := selectLotsToConsume_ids hselect
  obtain ⟨sold, htook⟩ := consumeLots_takes hloop
  rw [hrem] at htook
  have htook' := htook.of_marked hmarks hcons hrem
    (selectLotsToConsume_lotFigure (g := (·.adjustedBasis.quanta)) (fun _ => rfl) hselect)
  have hsame : sold' = sold := List.append_cancel_left (hrows'.symm.trans htook'.rows)
  refine ⟨hdate, sold, htook', hsame ▸ hids, fun c hc => ?_⟩
  have hnew : c ∈ db'.lotConsumptions := by
    rw [Table.mem_iff, htook'.rows]; exact List.mem_append_right _ hc
  have hdated := consumeLots_saleDate db.lotConsumptions _ _ mid sale db'
    (fun c hc => Or.inl (hcons ▸ hc)) hloop c hnew
  refine hdated.resolve_left fun hold => ?_
  -- a row of the sale is not one of the rows before it
  have hnodup := db'.lotConsumptions.nodup
  rw [htook'.rows, List.map_append, List.nodup_append] at hnodup
  exact hnodup.2.2 _ (List.mem_map_of_mem hold) _ (List.mem_map_of_mem hc) rfl

theorem Took.of_view {fill : Fill} {takes : List (Uuid × ℤ)} {sold : List LotConsumption}
    {db mid mid' : Database} (h : Took fill takes sold db mid) (hlots : mid'.taxLots = mid.taxLots)
    (hcons : mid'.lotConsumptions = mid.lotConsumptions) : Took fill takes sold db mid' := by
  have hrem : remainingOf mid' = remainingOf mid := by unfold remainingOf; rw [hlots]
  have hbasis : adjustedBasisOf mid' = adjustedBasisOf mid := by
    unfold adjustedBasisOf lotFigure
    rw [hlots]
  exact ⟨hcons ▸ h.rows, h.amounts, h.recorded, hlots ▸ h.lots, hrem ▸ h.remaining, hbasis ▸ h.basis⟩

/-- **A sell fill up to its scan**: what it took and recorded, in the state `mid` with its entry. -/
theorem recordSellFill_took {env : Env} {clock : MarketClock} {fill : Fill}
    {designatedLotIds : Option (List Uuid)} {db db' : Database} {ids : List Uuid}
    (h : (recordSellFill env clock fill designatedLotIds).run db = .ok (ids, db')) :
    ∃ day sold mid, clock.marketDate fill.filledAt = .ok day ∧
      Took fill (saleTakes db fill designatedLotIds) sold db mid ∧
      recordedBy db ⟨env, .sellFill clock fill designatedLotIds⟩ = sold ∧
      (∀ c ∈ sold, c.saleDate = day) ∧ lotFacts mid = lotFacts db ∧
      mid.washSaleAdjustments = db.washSaleAdjustments ∧
      (each (scanLoss env fill) (sold.map (·.id))).run mid = .ok ((), db') := by
  obtain ⟨day, sale, before, mid, hsell, hposted, hscan, -⟩ := recordSellFill_sells h
  obtain ⟨hday, sold, htook, hids, hdates⟩ := sellLots_takes hsell
  have hsold := sellLots_rows hsell
  have hview := hposted.matchView
  simp only [matchView, Prod.mk.injEq] at hview
  obtain ⟨hfacts, hcons, hadjustments⟩ := hview
  exact ⟨day, sold, mid, hday, htook.of_view hposted.lots.1 hcons,
    recordedBy_sellFill h hsell htook.rows, hdates, hfacts.trans hsold.facts,
    hadjustments.trans hsold.adjustments, hids ▸ hscan⟩

/-! ### The remaining quantities after a fill -/

theorem remainingOf_nonneg (db : Database) (lotId : Uuid) : 0 ≤ remainingOf db lotId := by
  unfold remainingOf
  cases db.taxLots.find lotId with
  | none => exact le_rfl
  | some lot => exact lot.remaining_nonneg

/-- A wash-sale adjustment moves basis, not units. -/
theorem washSaleInvariant_remainingOf (remaining : Uuid → ℤ) :
    WashSaleInvariant (fun db => remainingOf db = remaining) := by
  intro db db' consumption lot hdb _ hlot _ hadj
  obtain ⟨basis, realized, entry, gainLoss, cost, accounts, entries, adjustments, returns, events,
    disclosures, -, -, -, -, -, -, -, rfl⟩ := hadj
  exact (lotFigure_setLot_of_eq (g := (·.quantityRemaining.quanta))
    (l := { lot with adjustedBasis := basis }) hlot rfl rfl).trans hdb

/-- **What a sell fill leaves of the lots**: it takes its quantity from them. -/
theorem recordSellFill_remaining {env : Env} {clock : MarketClock} {fill : Fill}
    {designatedLotIds : Option (List Uuid)} {db db' : Database} {consumptions : List Uuid}
    (hquantity : 0 ≤ fill.quantity.quanta)
    (h : (recordSellFill env clock fill designatedLotIds).run db = .ok (consumptions, db')) :
    (∀ lotId, remainingOf db' lotId =
      remainingOf db lotId - takenFrom (saleTakes db fill designatedLotIds) lotId) ∧
      ((saleTakes db fill designatedLotIds).map (·.2)).sum = fill.quantity.quanta := by
  obtain ⟨fillDate, lotIds, sale, mid, sold, posted, hselect, -, hloop, hdone, hposted, hrule⟩ :=
    recordSellFill_rule h
  obtain ⟨rfl, hrem⟩ := selectLotsToConsume_ids hselect
  obtain ⟨_, htook⟩ := consumeLots_takes hloop
  have hleft := consumeLots_remainingToSell hloop
  have hstart : (Sale.start fill.quantity).remainingToSell.quanta = fill.quantity.quanta := rfl
  rw [hrem, hstart] at htook hleft
  have hscanned : remainingOf db' = remainingOf sold := by
    refine (hrule (washSaleInvariant_remainingOf _) rfl).trans ?_
    unfold remainingOf
    rw [hposted.lots.1]
  have hle : ((saleTakes db fill designatedLotIds).map (·.2)).sum ≤ fill.quantity.quanta :=
    sum_takesFrom_le hquantity
  rw [QuantizedDecimal.le_def, QuantizedDecimal.quanta_zero, hleft] at hdone
  refine ⟨fun lotId => ?_, le_antisymm hle (by unfold saleTakes; omega)⟩
  rw [hscanned, htook.remaining, hrem]
  rfl

theorem recordBuyFill_remaining {env : Env} {clock : MarketClock} {fill : Fill} {db db' : Database}
    {lot : TaxLot} (h : (recordBuyFill env clock fill).run db = .ok (lot, db')) (lotId : Uuid) :
    remainingOf db lotId ≤ remainingOf db' lotId := by
  obtain ⟨mid, ⟨cost, entry, units, costs, cash, accounts, entries, settlementDate, obligations,
    lots, -, -, -, -, -, -, -, -, -, -, -, -, -, -, -, -, hlots, rfl⟩, hrule⟩ := recordBuyFill_rule h
  rw [hrule (washSaleInvariant_remainingOf _) rfl]
  show _ ≤ ((lots.find lotId).map (·.quantityRemaining.quanta)).getD 0
  rw [Table.find_insert hlots]
  split_ifs with hid
  · have hnone : db.taxLots.find lotId = none := by
      rw [Table.find_eq_none, ← hid]
      exact (Table.insert_eq_some.mp hlots).1
    rw [remainingOf, hnone]
    exact lot.remaining_nonneg
  · exact le_rfl

end Trueup.Lots
