import Mathlib.Algebra.BigOperators.Group.Finset.Piecewise
import Mathlib.Algebra.Order.BigOperators.Group.Finset
import Trueup.Lots.Deferral

/-! # Consuming lots in order

A sell fill takes from the selected lots, in their order, until its quantity is sold.

* `InOrder`, `takesFrom_inOrder`: the takes add up to the quantity, or to all that is there, and a
  lot is taken from only when the lots before it are used up. A lot that is named twice counts once.
* `SoldAs`, `recordSellFill_soldAs`: a fill that returns has recorded these takes, and took no more
  from any lot.
* `FiguresFit`, `consumeLots_cases`: the loop raises only when a figure of a take does not fit its
  column.
* `lot_selection`: when the figures fit, the loop gets through with enough lots, and without it
  raises `InsufficientLotsError`. -/

namespace Trueup.Lots

open Trueup.Core Trueup.Models Trueup.Lib Trueup.Lib.Transaction Trueup.Ledger

/-! ### The takes -/

/-- `takes` are what is taken from the lots in the order of `lotIds` until `quantity` is sold. -/
structure InOrder (remaining : Uuid → ℤ) (lotIds : List Uuid) (quantity : ℤ) (takes : List (Uuid × ℤ)) :
    Prop where
  sum : (takes.map (·.2)).sum = min quantity (∑ lotId ∈ lotIds.toFinset, remaining lotId)
  positive : ∀ t ∈ takes, 0 < t.2 ∧ t.2 ≤ remaining t.1
  once : (takes.map (·.1)).Nodup
  selected : ∀ t ∈ takes, t.1 ∈ lotIds
  /-- A lot is taken from only when those before it are used up. -/
  exhausted : ∀ before lotId rest, lotIds = before ++ lotId :: rest → lotId ∉ before →
    lotId ∈ takes.map (·.1) → ∀ earlier ∈ before, takenFrom takes earlier = remaining earlier

section Takes
variable {remaining : Uuid → ℤ}

theorem takenFrom_eq_zero {takes : List (Uuid × ℤ)} {lotId : Uuid} (h : lotId ∉ takes.map (·.1)) :
    takenFrom takes lotId = 0 := by
  unfold takenFrom
  rw [List.filter_eq_nil_iff.mpr]
  · rfl
  · intro t ht hid
    exact h (List.mem_map.mpr ⟨t, ht, of_decide_eq_true hid⟩)

/-- What is left of the other lots when one of them is used up. -/
theorem sum_update_zero (remaining : Uuid → ℤ) (lotId : Uuid) (lotIds : List Uuid) :
    ∑ id ∈ (lotId :: lotIds).toFinset, remaining id =
      remaining lotId + ∑ id ∈ lotIds.toFinset, Function.update remaining lotId 0 id := by
  rw [List.toFinset_cons]
  by_cases hmem : lotId ∈ lotIds.toFinset
  · rw [Finset.insert_eq_of_mem hmem, Finset.sum_update_of_mem hmem, zero_add,
      Finset.sum_eq_add_sum_sdiff_singleton_of_mem hmem]
  · rw [Finset.sum_insert hmem, Finset.sum_update_of_notMem hmem]

theorem nonneg_update {lotId : Uuid} (hremaining : ∀ id, 0 ≤ remaining id) {n : ℤ} (hn : 0 ≤ n)
    (id : Uuid) :
    0 ≤ Function.update remaining lotId n id := by
  rw [Function.update_apply]
  split_ifs
  · exact hn
  · exact hremaining id

/-- The takes add up to the quantity, or to all that is there. -/
theorem sum_takesFrom : ∀ {lotIds : List Uuid} {remaining : Uuid → ℤ} {quantity : ℤ},
    (∀ id, 0 ≤ remaining id) → 0 ≤ quantity →
      ((takesFrom remaining lotIds quantity).map (·.2)).sum =
        min quantity (∑ lotId ∈ lotIds.toFinset, remaining lotId)
  | [], remaining, quantity, _, hquantity => by
    rw [List.toFinset_nil, Finset.sum_empty, min_eq_right hquantity]
    rfl
  | lotId :: lotIds, remaining, quantity, hremaining, hquantity => by
    have hrest : 0 ≤ ∑ id ∈ lotIds.toFinset, Function.update remaining lotId 0 id :=
      Finset.sum_nonneg fun id _ => nonneg_update hremaining le_rfl id
    have hlot := hremaining lotId
    rw [sum_update_zero]
    simp only [takesFrom]
    split_ifs with hdone htake
    · have hzero : quantity = 0 := by omega
      rw [hzero, min_eq_left (by omega)]
      rfl
    · -- nothing is left of the lot
      have hempty : remaining lotId = 0 := by omega
      rw [sum_takesFrom hremaining hquantity, hempty, zero_add, ← hempty, Function.update_eq_self]
    · rw [List.map_cons, List.sum_cons]
      dsimp only
      rw [sum_takesFrom (nonneg_update hremaining (by omega)) (by omega)]
      by_cases hall : remaining lotId ≤ quantity
      · rw [min_eq_left hall, sub_self]
        omega
      · rw [min_eq_right (by omega), sub_self, min_eq_left, min_eq_left (by omega), add_zero]
        exact Finset.sum_nonneg fun id _ => nonneg_update hremaining (by omega) id

/-- A lot is taken from once: a take ends the lot or the sale. -/
theorem nodup_takesFrom : ∀ {lotIds : List Uuid} {remaining : Uuid → ℤ} {quantity : ℤ},
    ((takesFrom remaining lotIds quantity).map (·.1)).Nodup
  | [], _, _ => List.nodup_nil
  | lotId :: lotIds, remaining, quantity => by
    simp only [takesFrom]
    split_ifs
    · exact List.nodup_nil
    · exact nodup_takesFrom
    · rw [List.map_cons, List.nodup_cons]
      refine ⟨fun hmem => ?_, nodup_takesFrom⟩
      obtain ⟨t, ht, hid⟩ := List.mem_map.mp hmem
      exact ne_of_mem_takesFrom_update rfl ht hid

theorem takesFrom_exhausted : ∀ {before rest : List Uuid} {lotId : Uuid} {remaining : Uuid → ℤ}
    {quantity : ℤ}, (∀ id, 0 ≤ remaining id) → lotId ∉ before →
      lotId ∈ (takesFrom remaining (before ++ lotId :: rest) quantity).map (·.1) →
        ∀ earlier ∈ before, takenFrom (takesFrom remaining (before ++ lotId :: rest) quantity) earlier =
          remaining earlier
  | [], _, _, _, _, _, _, _, earlier, hmem => by cases hmem
  | first :: before, rest, lotId, remaining, quantity, hremaining, hnot, htaken, earlier, hmem => by
    obtain ⟨hne, hnot⟩ := not_or.mp (List.mem_cons.not.mp hnot)
    rw [List.cons_append] at htaken ⊢
    simp only [takesFrom] at htaken ⊢
    split_ifs at htaken ⊢ with hdone htake
    · cases htaken
    · -- the first lot is empty
      have hfirst := hremaining first
      by_cases hbefore : earlier ∈ before
      · exact takesFrom_exhausted hremaining hnot htaken earlier hbefore
      · obtain rfl := (List.mem_cons.mp hmem).resolve_right hbefore
        rw [takenFrom_eq_zero]
        · omega
        · intro hin
          obtain ⟨t, ht, rfl⟩ := List.mem_map.mp hin
          have := mem_takesFrom ht
          omega
    · rw [List.map_cons, List.mem_cons, or_iff_right hne] at htaken
      -- something is left to sell after the first lot, which is used up
      have hleft : ∃ t ∈ takesFrom (Function.update remaining first
          (remaining first - min (remaining first) quantity)) (before ++ lotId :: rest)
          (quantity - min (remaining first) quantity), t.1 = lotId := by
        obtain ⟨t, ht, hid⟩ := List.mem_map.mp htaken
        exact ⟨t, ht, hid⟩
      obtain ⟨t, ht, -⟩ := hleft
      have hmore := mem_takesFrom ht
      have hall : min (remaining first) quantity = remaining first := by omega
      rw [takenFrom_cons]
      dsimp only
      by_cases hearlier : first = earlier
      · subst hearlier
        rw [if_pos rfl, takenFrom_eq_zero, hall, add_zero]
        intro hin
        obtain ⟨t', ht', hid⟩ := List.mem_map.mp hin
        exact ne_of_mem_takesFrom_update rfl ht' hid
      · have hbefore : earlier ∈ before := (List.mem_cons.mp hmem).resolve_left (Ne.symm hearlier)
        rw [if_neg hearlier, zero_add, takesFrom_exhausted (nonneg_update hremaining (by omega)) hnot htaken
          earlier hbefore, Function.update_of_ne (Ne.symm hearlier)]

/-- **The takes are in order.** -/
theorem takesFrom_inOrder {lotIds : List Uuid} {quantity : ℤ} (hremaining : ∀ id, 0 ≤ remaining id)
    (hquantity : 0 ≤ quantity) :
    InOrder remaining lotIds quantity (takesFrom remaining lotIds quantity) where
  sum := sum_takesFrom hremaining hquantity
  positive t ht := ⟨(mem_takesFrom ht).1, (mem_takesFrom ht).2.1⟩
  once := nodup_takesFrom
  selected t ht := mem_lots_of_takesFrom ht
  exhausted before lotId rest hlotIds hnot htaken := by
    subst hlotIds
    exact takesFrom_exhausted hremaining hnot htaken

end Takes

/-! ### What a fill that returns has recorded -/

/-- The lot and the quantity of a consumption. -/
def takeOf (consumption : LotConsumption) : Uuid × ℤ :=
  (consumption.taxLotId, consumption.quantityConsumed.quanta)

/-- The fill has recorded the takes, under the ids it returns, and has taken nothing else: the
quantities of the lots are less by what is taken, and no other lot has lost basis. -/
structure SoldAs (takes : List (Uuid × ℤ)) (ids : List Uuid) (db db' : Database) : Prop where
  recorded : db'.lotConsumptions.rows.map takeOf = db.lotConsumptions.rows.map takeOf ++ takes
  returned : db'.lotConsumptions.rows.map (·.id) = db.lotConsumptions.rows.map (·.id) ++ ids
  remaining : ∀ lotId, remainingOf db' lotId = remainingOf db lotId - takenFrom takes lotId
  basis : (∀ lot ∈ db.taxLots, 0 ≤ lot.originalCostBasis.quanta) →
    ∀ lotId, lotId ∉ takes.map (·.1) → adjustedBasisOf db lotId ≤ adjustedBasisOf db' lotId

section Scan
variable {env : Env} {fill : Fill} {takes : List (Uuid × ℤ)} {sold : List LotConsumption}
  {db mid db' : Database} {u : Unit}

/-- The scan changes the gains of consumptions only. -/
theorem Took.scan_column {β : Type} {f : LotConsumption → β}
    (hf : ∀ (c : LotConsumption) (realized : Money), f { c with realizedGainLoss := realized } = f c)
    (htook : Took fill takes sold db mid)
    (hscan : (each (scanLoss env fill) (sold.map (·.id))).run mid = .ok (u, db')) :
    db'.lotConsumptions.rows.map f = mid.lotConsumptions.rows.map f := by
  refine htook.scan_rule (P := fun _ _ => True)
    (I := fun s => s.lotConsumptions.rows.map f = mid.lotConsumptions.rows.map f) ?_ rfl
    (fun _ _ _ _ _ => trivial) hscan
  intro s s' c lot hs hc _ _ hadj
  obtain ⟨basis, realized, entry, gainLoss, cost, accounts, entries, adjustments, returns, events,
    disclosures, -, -, -, -, -, -, -, rfl⟩ := hadj
  exact (Table.map_set (r := ({ c with realizedGainLoss := realized } : LotConsumption)) hc rfl
    (hf c realized)).trans hs

theorem Took.scan_basis (hcosts : ∀ lot ∈ mid.taxLots, 0 ≤ lot.originalCostBasis.quanta)
    (htook : Took fill takes sold db mid)
    (hscan : (each (scanLoss env fill) (sold.map (·.id))).run mid = .ok (u, db')) (lotId : Uuid) :
    adjustedBasisOf mid lotId ≤ adjustedBasisOf db' lotId := by
  refine (htook.scan_rule (P := fun _ _ => True)
    (I := fun s => (∀ lot ∈ s.taxLots, 0 ≤ lot.originalCostBasis.quanta) ∧
      ∀ lotId, adjustedBasisOf mid lotId ≤ adjustedBasisOf s lotId)
    ?_ ⟨hcosts, fun _ => le_rfl⟩ (fun _ _ _ _ _ => trivial) hscan).2 lotId
  rintro s s' c lot ⟨hcosts, hmore⟩ _ hlot _ hadj
  obtain ⟨basis, realized, entry, gainLoss, cost, accounts, entries, adjustments, returns, events,
    disclosures, hbasis, -, -, -, -, -, -, rfl⟩ := hadj
  refine ⟨fun l hl => ?_, fun id => (hmore id).trans ?_⟩
  · rcases Table.mem_set.mp hl with ⟨hl, -⟩ | ⟨rfl, -⟩
    · exact hcosts l hl
    · exact hcosts lot hlot
  · have hset : adjustedBasisOf { s with taxLots := s.taxLots.set { lot with adjustedBasis := basis } } =
        Function.update (adjustedBasisOf s) lot.id basis.quanta :=
      lotFigure_setLot (g := (·.adjustedBasis.quanta)) hlot rfl
    have hold : adjustedBasisOf s lot.id = lot.adjustedBasis.quanta :=
      lotFigure_of_mem (g := (·.adjustedBasis.quanta)) hlot
    have hloss : 0 ≤ (disallowedLoss c lot).quanta := by
      have habs : 0 ≤ c.realizedGainLoss.abs.quanta := abs_nonneg _
      rw [disallowedLoss, QuantizedDecimal.quanta_min]
      exact le_min habs (hcosts lot hlot)
    show adjustedBasisOf s id ≤
      adjustedBasisOf { s with taxLots := s.taxLots.set { lot with adjustedBasis := basis } } id
    rw [hset, Function.update_apply]
    split_ifs with hid
    · rw [hid, hbasis, hold]
      omega
    · exact le_rfl

end Scan

section Fill
variable {env : Env} {clock : MarketClock} {fill : Fill} {designatedLotIds : Option (List Uuid)}
  {db db' : Database} {ids : List Uuid}

/-- **What a fill that returns has recorded.** -/
theorem recordSellFill_soldAs (hquantity : 0 ≤ fill.quantity.quanta)
    (h : (recordSellFill env clock fill designatedLotIds).run db = .ok (ids, db')) :
    SoldAs (saleTakes db fill designatedLotIds) ids db db' := by
  obtain ⟨day, sale, before, mid, hsell, hposted, hscan, rfl⟩ := recordSellFill_sells h
  obtain ⟨-, sold, htook, hids, -⟩ := sellLots_takes hsell
  have hview := hposted.matchView
  simp only [matchView, Prod.mk.injEq] at hview
  have hmid : Took fill (saleTakes db fill designatedLotIds) sold db mid :=
    htook.of_view hposted.lots.1 hview.2.1
  rw [← hids] at hscan ⊢
  refine ⟨?_, ?_, (recordSellFill_remaining hquantity h).1, fun hcosts lotId hnot => ?_⟩
  · rw [hmid.scan_column (f := takeOf) (fun _ _ => rfl) hscan, hmid.rows, List.map_append, ← hmid.amounts]
    rfl
  · rw [hmid.scan_column (f := (·.id)) (fun _ _ => rfl) hscan, hmid.rows, List.map_append]
  · have hcosts' : ∀ lot ∈ mid.taxLots, 0 ≤ lot.originalCostBasis.quanta := by
      intro lot' hlot'
      obtain ⟨lot, hlot, -, hcase⟩ := hmid.lots lot' hlot'
      rcases hcase with ⟨-, hsame⟩ | ⟨t, -, -, htaken⟩
      · rw [hsame]
        exact hcosts lot hlot
      · rw [htaken.rest]
        exact hcosts lot hlot
    refine le_trans (le_of_eq ?_) (hmid.scan_basis hcosts' hscan lotId)
    rw [hmid.basis, basisConsumed, List.filter_eq_nil_iff.mpr, List.map_nil, List.sum_nil, sub_zero]
    intro c hc hid
    refine hnot (List.mem_map.mpr ⟨_, hmid.mem_takes hc, ?_⟩)
    exact of_decide_eq_true hid

end Fill

/-! ### What a fill may raise -/

/-- What the constructors of `core/money.py` raise when a figure does not fit its column. -/
def Overflows (e : Error) : Prop := e = .invalidOperation ∨ e = .valueError

theorem fails_ofDecimal_overflows {s p : ℕ} (v : ℚ) :
    Fails Overflows (QuantizedDecimal.ofDecimal v : Except Error (QuantizedDecimal s p)) :=
  QuantizedDecimal.fails_ofDecimal (Or.inl rfl) (Or.inr rfl) v

/-- The figures of a take that are written to a `Money`: the basis, the proceeds and the gain, the
basis that is left of the lot, and the basis and the gain of the sale so far. -/
def takeFigures (lot : TaxLot) (basis proceeds basisTotal realizedTotal : ℤ) : List ℤ :=
  [basis, proceeds, proceeds - basis, lot.adjustedBasis.quanta - basis, basisTotal + basis,
    realizedTotal + (proceeds - basis)]

/-- The figures of the takes fit their columns, after takes of the same sale with these totals: the
unit basis of every lot fits a `Price`, every other figure a `Money`. -/
def FiguresFit (price : Price) (db : Database) : List (Uuid × ℤ) → ℤ → ℤ → Prop
  | [], _, _ => True
  | t :: takes, basisTotal, realizedTotal =>
    ∃ lot ∈ db.taxLots.find t.1, ∃ basis ∈ basisOf lot t.2,
      (∀ figure ∈ takeFigures lot basis (proceedsOf price t.2) basisTotal realizedTotal,
        |figure| < 10 ^ 18) ∧
      FiguresFit price db takes (basisTotal + basis) (realizedTotal + (proceedsOf price t.2 - basis))

instance decidableFiguresFit (price : Price) (db : Database) :
    ∀ (takes : List (Uuid × ℤ)) (basisTotal realizedTotal : ℤ),
      Decidable (FiguresFit price db takes basisTotal realizedTotal)
  | [], _, _ => isTrue trivial
  | t :: takes, _, _ =>
    have := decidableFiguresFit price db takes
    inferInstanceAs (Decidable (∃ lot ∈ db.taxLots.find t.1, ∃ basis ∈ basisOf lot t.2, _ ∧ _))

/-- The fill can be dated, names lots of the customer's position, and its rows can be written: its
execution id fits its column, and the ids of its consumptions are new and different. -/
structure Sellable (env : Env) (fill : Fill) (designatedLotIds : Option (List Uuid)) (db : Database) :
    Prop where
  dated : fill.filledAt.aware
  owned : ∀ lotId ∈ designatedLotIds.getD [], IsPositionLot db fill.customerId fill.securityId lotId
  execution : fill.executionId.length ≤ executionIdWidth
  fresh : ∀ lotId ∈ selectedLots db fill designatedLotIds,
    ¬ db.lotConsumptions.Has (env.uuid4 (.lotConsumption lotId))
  different : ∀ lotId ∈ selectedLots db fill designatedLotIds,
    ∀ other ∈ selectedLots db fill designatedLotIds,
      env.uuid4 (.lotConsumption lotId) = env.uuid4 (.lotConsumption other) → lotId = other

section Fails
variable {env : Env} {clock : MarketClock} {fill : Fill} {designatedLotIds : Option (List Uuid)}
  {fillDate : Date} {db : Database}

theorem fails_takeFromLot {lot : TaxLot} {take : Units} {sale : Sale} (htake : 0 < take.quanta)
    (hle : take.quanta ≤ lot.quantityRemaining.quanta)
    (hexecution : fill.executionId.length ≤ executionIdWidth)
    (hfresh : ¬ db.lotConsumptions.Has (env.uuid4 (.lotConsumption lot.id))) :
    Fails Overflows ((takeFromLot env fill fillDate lot take sale).run db) := by
  unfold takeFromLot
  refine fails_lift_bind ?_ fun perUnit _ => ?_
  · unfold Money.perUnit
    rw [if_neg (by omega)]
    exact fails_ofDecimal_overflows _
  refine fails_lift_bind (fails_ofDecimal_overflows _) fun basis _ => ?_
  refine fails_lift_bind (fails_ofDecimal_overflows _) fun proceeds _ => ?_
  refine fails_lift_bind (fails_ofDecimal_overflows _) fun realized _ => ?_
  refine fails_run_bind (fun e he => ?_) fun _ t _ => ?_
  · -- the consumption is new
    rw [addLotConsumption, write_error] at he
    simp only [check, if_pos hexecution] at he
    rw [Table.insert, dif_neg hfresh] at he
    cases he
  refine fails_lift_bind (fails_ofDecimal_overflows _) fun remaining hremaining => ?_
  refine fails_lift_bind (fails_ofDecimal_overflows _) fun adjustedBasis _ => ?_
  refine fails_lift_bind ?_ fun lot' _ => ?_
  · have hexact := Units.sub_ok.mp hremaining
    unfold TaxLot.withQuantities
    rw [dif_pos (by omega)]
    exact fails_ok _
  exact raises_bind (raises_update _) (fun _ => raises_bind (raises_lift (fails_ofDecimal_overflows _))
    fun _ => raises_bind (raises_lift (fails_ofDecimal_overflows _)) fun _ =>
      raises_bind (raises_lift (fails_ofDecimal_overflows _)) fun _ => raises_pure _) t

theorem exists_units_sub {a take : Units} (htake : 0 ≤ take.quanta) (hle : take.quanta ≤ a.quanta) :
    ∃ rest, a.sub take = .ok rest := by
  have hfits : |a.quanta - take.quanta| < 10 ^ 28 := by
    refine lt_of_le_of_lt (abs_le.mpr ⟨?_, ?_⟩) a.fits
    · have := abs_nonneg a.quanta
      omega
    · have := le_abs_self a.quanta
      omega
  obtain ⟨rest, hrest⟩ := QuantizedDecimal.exists_quanta.mpr hfits
  exact ⟨rest, Units.sub_ok.mpr hrest⟩

theorem takeFromLot_returns_iff {lot : TaxLot} {take : Units} {sale : Sale} (htake : 0 < take.quanta)
    (hle : take.quanta ≤ lot.quantityRemaining.quanta)
    (hleft : take.quanta ≤ sale.remainingToSell.quanta)
    (hexecution : fill.executionId.length ≤ executionIdWidth)
    (hfresh : ¬ db.lotConsumptions.Has (env.uuid4 (.lotConsumption lot.id))) :
    (∃ r, (takeFromLot env fill fillDate lot take sale).run db = .ok r) ↔
      ∃ basis ∈ basisOf lot take.quanta, ∀ figure ∈ takeFigures lot basis
        (proceedsOf fill.price take.quanta) sale.consumedBasisTotal.quanta sale.realizedTotal.quanta,
          |figure| < 10 ^ 18 := by
  simp only [takeFigures, List.forall_mem_cons, Prod.exists]
  constructor
  · rintro ⟨sale', db', h⟩
    simp only [takeFromLot, bind_ok, lift_ok] at h
    obtain ⟨perUnit, _, ⟨hperUnit, rfl⟩, basis, _, ⟨hbasis, rfl⟩, proceeds, _, ⟨hproceeds, rfl⟩,
      realized, _, ⟨hrealized, rfl⟩, -, _, -, remaining, _, -, adjusted, _, ⟨hadjusted, rfl⟩, -, _, -, -, _,
      -, basisTotal, _, ⟨hbasisTotal, rfl⟩, realizedTotal, _, ⟨hrealizedTotal, rfl⟩, -⟩ := h
    have hbasis' : basis.quanta = proceedsOf perUnit take.quanta := Price.times_ok.mp hbasis
    have hproceeds' : proceeds.quanta = proceedsOf fill.price take.quanta := Price.times_ok.mp hproceeds
    refine ⟨basis.quanta, by rw [basisOf, hperUnit, hbasis']; rfl, basis.fits, ?_, ?_, ?_, ?_, ?_, ?_⟩
    · exact hproceeds' ▸ proceeds.fits
    · rw [← hproceeds', ← Money.sub_ok.mp hrealized]
      exact realized.fits
    · rw [← Money.sub_ok.mp hadjusted]
      exact adjusted.fits
    · rw [← Money.add_ok.mp hbasisTotal]
      exact basisTotal.fits
    · rw [← hproceeds', ← Money.sub_ok.mp hrealized, ← Money.add_ok.mp hrealizedTotal]
      exact realizedTotal.fits
    · trivial
  · rintro ⟨n, hn, hbasis, hproceeds, hrealized, hadjusted, hbasisTotal, hrealizedTotal, -⟩
    obtain ⟨perUnit, hperUnit, rfl⟩ : ∃ perUnit,
        Money.perUnit lot.adjustedBasis lot.quantityRemaining = .ok perUnit ∧
          proceedsOf perUnit take.quanta = n := by
      unfold basisOf at hn
      split at hn
      · rename_i perUnit hperUnit
        exact ⟨perUnit, hperUnit, Option.some.inj hn⟩
      · cases hn
    obtain ⟨basis, hb⟩ := QuantizedDecimal.exists_quanta.mpr hbasis
    obtain ⟨proceeds, hp⟩ := QuantizedDecimal.exists_quanta.mpr hproceeds
    obtain ⟨realized, hr⟩ := QuantizedDecimal.exists_quanta.mpr hrealized
    obtain ⟨adjusted, ha⟩ := QuantizedDecimal.exists_quanta.mpr hadjusted
    obtain ⟨basisTotal, hbt⟩ := QuantizedDecimal.exists_quanta.mpr hbasisTotal
    obtain ⟨realizedTotal, hrt⟩ := QuantizedDecimal.exists_quanta.mpr hrealizedTotal
    -- what is left of the lot, and what is left to sell, is no more than there was
    obtain ⟨remaining, hremaining⟩ := exists_units_sub htake.le hle
    obtain ⟨remainingToSell, hremainingToSell⟩ := exists_units_sub htake.le hleft
    have hnonneg : 0 ≤ remaining.quanta := by
      rw [Units.sub_ok.mp hremaining]
      omega
    obtain ⟨table, htable⟩ := Table.exists_insert (t := db.lotConsumptions)
      (r := ⟨env.uuid4 (.lotConsumption lot.id), fill.executionId, lot.id, take, realized,
        fill.filledAt.instant < lot.designationWindowClosesAt, fillDate⟩) hfresh
    simp only [takeFromLot, bind_ok, lift_ok, addLotConsumption_ok, setTaxLot_ok, pure_ok]
    exact ⟨_, _, perUnit, db, ⟨hperUnit, rfl⟩, basis, db, ⟨Price.times_ok.mpr hb, rfl⟩,
      proceeds, db, ⟨Price.times_ok.mpr hp, rfl⟩,
      realized, db, ⟨Money.sub_ok.mpr (by rw [hr, hb, hp]), rfl⟩, (), _,
      ⟨hexecution, table, htable, rfl⟩, remaining, _, ⟨hremaining, rfl⟩,
      adjusted, _, ⟨Money.sub_ok.mpr (by rw [ha, hb]), rfl⟩, _, _, ⟨dif_pos hnonneg, rfl⟩, (), _, rfl,
      basisTotal, _, ⟨Money.add_ok.mpr (by rw [hbt, hb]), rfl⟩,
      realizedTotal, _, ⟨Money.add_ok.mpr (by rw [hrt, hr]), rfl⟩,
      remainingToSell, _, ⟨hremainingToSell, rfl⟩, rfl, rfl⟩

/-- What the figures of a take from the lot depend on. -/
def lotCost (lot : TaxLot) : Money × Units := (lot.adjustedBasis, lot.quantityRemaining)

theorem figuresFit_congr (price : Price) {db db' : Database} :
    ∀ {takes : List (Uuid × ℤ)} (basisTotal realizedTotal : ℤ),
      (∀ t ∈ takes, (db'.taxLots.find t.1).map lotCost = (db.taxLots.find t.1).map lotCost) →
      (FiguresFit price db' takes basisTotal realizedTotal ↔
        FiguresFit price db takes basisTotal realizedTotal)
  | [], _, _, _ => Iff.rfl
  | t :: takes, basisTotal, realizedTotal, h => by
    obtain ⟨hhead, htail⟩ := List.forall_mem_cons.mp h
    have ih := fun a b => figuresFit_congr price a b htail
    rw [FiguresFit, FiguresFit]
    simp only [ih]
    cases hlot : db.taxLots.find t.1 with
    | none =>
      rw [hlot, Option.map_none, Option.map_eq_none_iff] at hhead
      rw [hhead]
    | some lot =>
      rw [hlot, Option.map_some, Option.map_eq_some_iff] at hhead
      obtain ⟨lot', hlot', hcost⟩ := hhead
      obtain ⟨hbasis, hquantity⟩ := Prod.ext_iff.mp hcost
      dsimp only [lotCost] at hbasis hquantity
      rw [hlot']
      simp only [Option.mem_def, Option.some.injEq, exists_eq_left', basisOf, takeFigures, hbasis,
        hquantity]

theorem figuresFit_head {lot : TaxLot} (hlot : lot ∈ db.taxLots) {lotIds : List Uuid}
    {quantity take : ℤ} (hmin : take = min (remainingOf db lot.id) quantity) (hpos : 0 < take)
    (hleft : 0 < quantity) {price : Price} {basisTotal realizedTotal : ℤ}
    (h : FiguresFit price db (takesFrom (remainingOf db) (lot.id :: lotIds) quantity) basisTotal
      realizedTotal) :
    ∃ basis ∈ basisOf lot take, ∀ figure ∈ takeFigures lot basis (proceedsOf price take) basisTotal
      realizedTotal, |figure| < 10 ^ 18 := by
  rw [takesFrom, if_neg (not_le.mpr hleft), ← hmin] at h
  simp only [if_neg (not_le.mpr hpos), FiguresFit, Table.find_eq_some.mpr ⟨hlot, rfl⟩, Option.mem_def,
    Option.some.injEq, exists_eq_left'] at h
  obtain ⟨basis, hbasis, hfigures, -⟩ := h
  exact ⟨basis, hbasis, hfigures⟩

/-- The first take of a loop, and the rest of it after the take. -/
theorem figuresFit_turn {lot lot' : TaxLot} {c : LotConsumption} {sale mid : Sale} {dbMid : Database}
    (hc : Consumed env fill lot lot' c sale mid db dbMid) {lotIds : List Uuid}
    (hfits : ∃ basis ∈ basisOf lot c.quantityConsumed.quanta, ∀ figure ∈ takeFigures lot basis
        (proceedsOf fill.price c.quantityConsumed.quanta) sale.consumedBasisTotal.quanta
        sale.realizedTotal.quanta, |figure| < 10 ^ 18)
    (hleft : 0 < sale.remainingToSell.quanta) :
    FiguresFit fill.price db
        (takesFrom (remainingOf db) (lot.id :: lotIds) sale.remainingToSell.quanta)
        sale.consumedBasisTotal.quanta sale.realizedTotal.quanta ↔
      FiguresFit fill.price dbMid (takesFrom (remainingOf dbMid) lotIds mid.remainingToSell.quanta)
        mid.consumedBasisTotal.quanta mid.realizedTotal.quanta := by
  obtain ⟨⟨-, -, basis, hbasis, hadjusted⟩, ⟨-, basis', hbasis', hrealized⟩⟩ := hc.takenAs
  rw [hbasis] at hbasis'
  cases hbasis'
  simp only [hbasis, Option.mem_def, Option.some.injEq, exists_eq_left'] at hfits
  have hother : ∀ t ∈ takesFrom (remainingOf dbMid) lotIds mid.remainingToSell.quanta,
      (dbMid.taxLots.find t.1).map lotCost = (db.taxLots.find t.1).map lotCost := by
    intro t ht
    rw [hc.remainingOf, hc.remainingToSell] at ht
    have hne : t.1 ≠ lot.id :=
      ne_of_mem_takesFrom_update (by rw [remainingOf_of_mem hc.mem, ← hc.take_eq]) ht
    obtain ⟨table, -, rfl⟩ := hc.wrote
    have hhas : db.taxLots.Has lot'.id := hc.id ▸ Table.has_of_mem hc.mem
    rw [Table.find_set hhas, if_neg (hc.id ▸ hne.symm)]
  rw [takesFrom_turn hc hleft, figuresFit_congr _ _ _ hother, FiguresFit]
  have htotal : mid.consumedBasisTotal.quanta = sale.consumedBasisTotal.quanta + basis := by
    rw [hc.consumedBasisTotal, hadjusted]
    ring
  have hgain : mid.realizedTotal.quanta = sale.realizedTotal.quanta +
      (proceedsOf fill.price c.quantityConsumed.quanta - basis) := by
    rw [hc.realizedTotal, hrealized]
  simp only [Table.find_eq_some.mpr ⟨hc.mem, rfl⟩, hbasis, Option.mem_def, Option.some.injEq,
    exists_eq_left', htotal, hgain]
  exact and_iff_right hfits

/-- The lots exist, and the consumptions of those with something left have new and different ids, as
long as something is left to sell. -/
structure Consumable (env : Env) (db : Database) (lotIds : List Uuid) (quantity : ℤ) : Prop where
  lots : ∀ lotId ∈ lotIds, ∃ lot ∈ db.taxLots, lot.id = lotId
  fresh : 0 < quantity → ∀ lotId ∈ lotIds, 0 < remainingOf db lotId →
    ¬ db.lotConsumptions.Has (env.uuid4 (.lotConsumption lotId))
  different : ∀ lotId ∈ lotIds, ∀ other ∈ lotIds,
    env.uuid4 (.lotConsumption lotId) = env.uuid4 (.lotConsumption other) → lotId = other

theorem Consumable.tail {lotId : Uuid} {lotIds : List Uuid} {quantity : ℤ}
    (h : Consumable env db (lotId :: lotIds) quantity) : Consumable env db lotIds quantity where
  lots id hid := h.lots id (List.mem_cons_of_mem _ hid)
  fresh hleft id hid := h.fresh hleft id (List.mem_cons_of_mem _ hid)
  different id hid other hother :=
    h.different id (List.mem_cons_of_mem _ hid) other (List.mem_cons_of_mem _ hother)

/-- The lots after the one that was taken from. -/
theorem Consumable.turn {lot lot' : TaxLot} {c : LotConsumption} {sale mid : Sale} {dbMid : Database}
    (hc : Consumed env fill lot lot' c sale mid db dbMid) {lotIds : List Uuid}
    (hleft : 0 < sale.remainingToSell.quanta)
    (h : Consumable env db (lot.id :: lotIds) sale.remainingToSell.quanta) :
    Consumable env dbMid lotIds mid.remainingToSell.quanta := by
  obtain ⟨table, htable, rfl⟩ := hc.wrote
  refine ⟨fun id hid => ?_, fun hmore id hmem hid => ?_, h.tail.different⟩
  · exact Table.exists_mem_set hc.mem hc.id.symm (fun hsame => hc.id.trans hsame) (h.tail.lots id hid)
  · -- something is left to sell, so that nothing is left of the lot
    have hall := hc.take_eq
    rw [hc.remainingToSell] at hmore
    rw [hc.remainingOf, Function.update_apply, remainingOf_of_mem hc.mem] at hid
    split_ifs at hid with hsame
    · omega
    · rw [Table.has_insert htable, not_or, hc.consumptionId]
      exact ⟨h.tail.fresh hleft id hmem hid, fun heq =>
        hsame (h.different id (List.mem_cons_of_mem _ hmem) _ List.mem_cons_self heq)⟩

/-- **How the loop ends**: it gets through when the figures of its takes fit, and overflows when one
of them does not. -/
theorem consumeLots_cases (hexecution : fill.executionId.length ≤ executionIdWidth) :
    ∀ {lotIds : List Uuid} {sale : Sale} {db : Database},
    Consumable env db lotIds sale.remainingToSell.quanta →
    let fits := FiguresFit fill.price db
      (takesFrom (remainingOf db) lotIds sale.remainingToSell.quanta)
      sale.consumedBasisTotal.quanta sale.realizedTotal.quanta
    (fits ∧ ∃ r, (consumeLots env fill fillDate lotIds sale).run db = .ok r) ∨
      (¬ fits ∧ ∃ e, Overflows e ∧ (consumeLots env fill fillDate lotIds sale).run db = .error e)
  | [], sale, db, _ => Or.inl ⟨trivial, _, rfl⟩
  | lotId :: lotIds, sale, db, hlots => by
    intro fits
    by_cases hdone : sale.remainingToSell ≤ 0
    · have hstop : fits := by
        show FiguresFit _ _ (takesFrom _ _ _) _ _
        rw [takesFrom_stop (Or.inr hdone)]
        trivial
      exact Or.inl ⟨hstop, _, by rw [consumeLots, if_pos hdone]; rfl⟩
    have hleft : 0 < sale.remainingToSell.quanta := not_le.mp hdone
    obtain ⟨lot, hlot, rfl⟩ := hlots.lots lotId List.mem_cons_self
    have hget : (getTaxLot lot.id).run db = .ok (lot, db) := getTaxLot_ok.mpr ⟨⟨hlot, rfl⟩, rfl⟩
    rw [consumeLots, if_neg hdone]
    by_cases htake : lot.quantityRemaining.min sale.remainingToSell ≤ 0
    · -- nothing is left of the lot
      have hturn : (consumeLot env fill fillDate lot.id sale).run db = .ok (sale, db) := by
        rw [consumeLot, run_bind_of_ok hget, if_pos htake]
        rfl
      have hskip : fits ↔ FiguresFit fill.price db
          (takesFrom (remainingOf db) lotIds sale.remainingToSell.quanta)
          sale.consumedBasisTotal.quanta sale.realizedTotal.quanta := by
        rw [QuantizedDecimal.le_def, QuantizedDecimal.quanta_min] at htake
        show FiguresFit _ _ (takesFrom _ _ _) _ _ ↔ _
        rw [takesFrom_skip hlot hleft htake]
      rw [run_bind_of_ok hturn, hskip]
      exact consumeLots_cases hexecution hlots.tail
    · have hturn : (consumeLot env fill fillDate lot.id sale).run db =
          (takeFromLot env fill fillDate lot (lot.quantityRemaining.min sale.remainingToSell) sale).run
            db := by
        rw [consumeLot, run_bind_of_ok hget, if_neg htake]
      have hmin : (lot.quantityRemaining.min sale.remainingToSell).quanta =
          min (remainingOf db lot.id) sale.remainingToSell.quanta := by
        rw [QuantizedDecimal.quanta_min, remainingOf_of_mem hlot]
      have hpos : 0 < (lot.quantityRemaining.min sale.remainingToSell).quanta := not_le.mp htake
      have hlotLe := min_le_left (remainingOf db lot.id) sale.remainingToSell.quanta
      have hsaleLe := min_le_right (remainingOf db lot.id) sale.remainingToSell.quanta
      rw [← hmin] at hlotLe hsaleLe
      have hnew := hlots.fresh hleft lot.id List.mem_cons_self (by omega)
      rw [remainingOf_of_mem hlot] at hlotLe
      have hreturns := @takeFromLot_returns_iff env fill fillDate db lot _ sale hpos hlotLe hsaleLe
        hexecution hnew
      cases hrun : (takeFromLot env fill fillDate lot
          (lot.quantityRemaining.min sale.remainingToSell) sale).run db with
      | error e =>
        refine Or.inr ⟨fun hfits => ?_, e, fails_takeFromLot hpos hlotLe hexecution hnew e hrun,
          run_bind_of_error (hturn.trans hrun)⟩
        obtain ⟨r, hr⟩ := hreturns.mpr (figuresFit_head hlot hmin hpos hleft hfits)
        cases hrun.symm.trans hr
      | ok r =>
        obtain ⟨mid, dbMid⟩ := r
        obtain ⟨lot', c, hc⟩ := takeFromLot_ok hlot rfl htake hrun
        have hamount : c.quantityConsumed.quanta =
            (lot.quantityRemaining.min sale.remainingToSell).quanta := by
          rw [hc.take_eq, QuantizedDecimal.quanta_min]
        have hfits := hreturns.mp ⟨_, hrun⟩
        rw [← hamount] at hfits
        have hmid : fits ↔ _ := figuresFit_turn hc hfits hleft
        rw [run_bind_of_ok (hturn.trans hrun), hmid]
        exact consumeLots_cases hexecution (hlots.turn hc hleft)

theorem designateLots_run {customerId securityId : Uuid} : ∀ {lotIds : List Uuid} {db : Database},
    (∀ lotId ∈ lotIds, IsPositionLot db customerId securityId lotId) →
      ∃ db', (each (designateLot customerId securityId) lotIds).run db = .ok ((), db')
  | [], db, _ => ⟨db, rfl⟩
  | lotId :: lotIds, db, howned => by
    obtain ⟨lot, hlot, hid, hown⟩ := howned lotId List.mem_cons_self
    have hmark : (designateLot customerId securityId lotId).run db =
        .ok ((), { db with taxLots := db.taxLots.set { lot with designation := .specific } }) := by
      simp only [designateLot, bind_ok, getTaxLot_ok, require_ok, setTaxLot_ok]
      exact ⟨lot, db, ⟨⟨hlot, hid⟩, rfl⟩, (), db, ⟨hown, rfl⟩, rfl⟩
    obtain ⟨db', hrest⟩ := @designateLots_run customerId securityId lotIds
      { db with taxLots := db.taxLots.set { lot with designation := .specific } }
      fun id hmem => Table.exists_mem_set hlot rfl (fun hP => hP) (howned id (List.mem_cons_of_mem _ hmem))
    exact ⟨db', bind_ok.mpr ⟨(), _, hmark, hrest⟩⟩

theorem selectLotsToConsume_run
    (howned : ∀ lotId ∈ designatedLotIds.getD [], IsPositionLot db fill.customerId fill.securityId lotId) :
    ∃ lotIds db', (selectLotsToConsume fill.customerId fill.securityId designatedLotIds).run db =
      .ok (lotIds, db') := by
  unfold selectLotsToConsume
  split
  · exact ⟨_, _, rfl⟩
  · rename_i lotId lotIds hids
    obtain ⟨db', hrun⟩ := designateLots_run (hids ▸ howned)
    exact ⟨_, db', bind_ok.mpr ⟨(), _, hrun, rfl⟩⟩

theorem selectLotsToConsume_lotCost {customerId securityId : Uuid} {lotIds : List Uuid} {db' : Database}
    (h : (selectLotsToConsume customerId securityId designatedLotIds).run db = .ok (lotIds, db'))
    (lotId : Uuid) :
    (db'.taxLots.find lotId).map lotCost = (db.taxLots.find lotId).map lotCost := by
  refine selectLotsToConsume_keeps (I := fun s => ∀ lotId,
    (s.taxLots.find lotId).map lotCost = (db.taxLots.find lotId).map lotCost) ?_ designatedLotIds db
    lotIds db' (fun _ => rfl) h lotId
  intro s marked hs hmarked lotId
  have hhas : s.taxLots.Has marked.id := Table.has_of_mem hmarked
  rw [← hs lotId]
  show ((s.taxLots.set { marked with designation := .specific }).find lotId).map lotCost = _
  rw [Table.find_set (t := s.taxLots) (r := { marked with designation := .specific }) hhas]
  split_ifs with hid
  · rw [← hid, Table.find_eq_some.mpr ⟨hmarked, rfl⟩]
    rfl
  · rfl

/-- The quantity in the selected lots. -/
def selectedTotal (db : Database) (fill : Fill) (designatedLotIds : Option (List Uuid)) : ℤ :=
  ∑ lotId ∈ (selectedLots db fill designatedLotIds).toFinset, remainingOf db lotId

/-- The figures of the takes of a fill fit their columns. -/
def SaleFits (db : Database) (fill : Fill) (designatedLotIds : Option (List Uuid)) : Prop :=
  FiguresFit fill.price db (saleTakes db fill designatedLotIds) 0 0

instance (db : Database) (fill : Fill) (designatedLotIds : Option (List Uuid)) :
    Decidable (SaleFits db fill designatedLotIds) :=
  inferInstanceAs (Decidable (FiguresFit _ _ _ _ _))

/-- **How the loop of a sellable fill ends.** -/
theorem sellLots_cases (hquantity : 0 ≤ fill.quantity.quanta)
    (h : Sellable env fill designatedLotIds db) :
    (¬ SaleFits db fill designatedLotIds ∧
        ∃ e, Overflows e ∧ (sellLots env clock fill designatedLotIds).run db = .error e) ∨
      (SaleFits db fill designatedLotIds ∧
        fill.quantity.quanta ≤ selectedTotal db fill designatedLotIds ∧
        ∃ r, (sellLots env clock fill designatedLotIds).run db = .ok r) ∨
      SaleFits db fill designatedLotIds ∧ ∃ missing : Units, 0 < missing.quanta ∧
        missing.quanta = fill.quantity.quanta - selectedTotal db fill designatedLotIds ∧
        (sellLots env clock fill designatedLotIds).run db = .error (.insufficientLots missing) := by
  obtain ⟨lotIds, mid, hselect⟩ := selectLotsToConsume_run h.owned
  obtain ⟨hids, hremaining⟩ := selectLotsToConsume_ids hselect
  have hcons := (selectLotsToConsume_marks hselect).2
  have hdate : clock.marketDate fill.filledAt = .ok (clock.newYorkDate fill.filledAt.instant) :=
    if_pos h.dated
  have hstart : (Sale.start fill.quantity).remainingToSell.quanta = fill.quantity.quanta := rfl
  have hlots : Consumable env mid lotIds (Sale.start fill.quantity).remainingToSell.quanta := by
    subst hids
    refine ⟨fun lotId hmem => ?_, fun _ lotId hmem _ => hcons ▸ h.fresh lotId hmem, h.different⟩
    obtain ⟨lot, hlot, hid, -⟩ := selectLotsToConsume_owned hselect lotId hmem
    exact ⟨lot, hlot, hid⟩
  have hcases := @consumeLots_cases env fill (clock.newYorkDate fill.filledAt.instant) h.execution
    lotIds (.start fill.quantity) mid hlots
  rw [figuresFit_congr fill.price _ _ fun t _ => selectLotsToConsume_lotCost hselect t.1, hremaining,
    hids] at hcases
  unfold sellLots
  rw [run_bind_of_ok (lift_ok.mpr ⟨hdate, rfl⟩), run_bind_of_ok hselect, hids]
  rcases hcases with ⟨hfits, ⟨sale, db'⟩, hloop⟩ | ⟨hnot, e, he, hloop⟩
  · have hleft := consumeLots_remainingToSell hloop
    have hsum : ((takesFrom (remainingOf db) (selectedLots db fill designatedLotIds)
        fill.quantity.quanta).map (·.2)).sum =
          min fill.quantity.quanta (∑ lotId ∈ (selectedLots db fill designatedLotIds).toFinset,
            remainingOf db lotId) := sum_takesFrom (remainingOf_nonneg db) hquantity
    rw [hremaining, hstart, hsum] at hleft
    rw [run_bind_of_ok hloop]
    by_cases hdone : sale.remainingToSell ≤ 0
    · have hzero : sale.remainingToSell.quanta ≤ 0 := hdone
      refine Or.inr (Or.inl ⟨hfits, ?_, _, run_bind_of_ok (a := ()) (require_ok.mpr ⟨hdone, rfl⟩)⟩)
      unfold selectedTotal
      omega
    · have hpos : 0 < sale.remainingToSell.quanta := not_le.mp hdone
      refine Or.inr (Or.inr ⟨hfits, sale.remainingToSell, hpos, ?_, run_bind_of_error ?_⟩)
      · unfold selectedTotal
        omega
      · unfold require check
        rw [if_neg hdone]
        rfl
  · exact Or.inl ⟨hnot, e, he, run_bind_of_error hloop⟩

end Fails

/-! ### The fill -/

/-- **Lots are consumed in order and exactly.** The takes of a fill are in the order of its lots and
add up to its quantity, or to all that is there. A fill that returns had enough lots and is sold as
these takes; one that raises leaves everything as it was. When nothing else is wrong with the fill,
its loop gets through with enough lots and raises `InsufficientLotsError` with too few, unless a
figure of its takes does not fit its column: then it overflows. -/
theorem lot_selection {env : Env} {clock : MarketClock} {fill : Fill}
    {designatedLotIds : Option (List Uuid)} {db : Database} (hquantity : 0 < fill.quantity.quanta) :
    InOrder (remainingOf db) (selectedLots db fill designatedLotIds) fill.quantity.quanta
        (saleTakes db fill designatedLotIds) ∧
      (∀ ids db', (recordSellFill env clock fill designatedLotIds).run db = .ok (ids, db') →
        fill.quantity.quanta ≤ selectedTotal db fill designatedLotIds ∧
          SoldAs (saleTakes db fill designatedLotIds) ids db db') ∧
      (∀ e, (recordSellFill env clock fill designatedLotIds).run db = .error e →
        atomically (recordSellFill env clock fill designatedLotIds) db = db) ∧
      (Sellable env fill designatedLotIds db →
        (SaleFits db fill designatedLotIds →
          (fill.quantity.quanta ≤ selectedTotal db fill designatedLotIds →
            ∃ r, (sellLots env clock fill designatedLotIds).run db = .ok r) ∧
          (selectedTotal db fill designatedLotIds < fill.quantity.quanta →
            ∃ missing : Units, missing.quanta =
              fill.quantity.quanta - selectedTotal db fill designatedLotIds ∧
              (recordSellFill env clock fill designatedLotIds).run db =
                .error (.insufficientLots missing))) ∧
        (¬ SaleFits db fill designatedLotIds →
          ∃ e, Overflows e ∧ (recordSellFill env clock fill designatedLotIds).run db = .error e)) := by
  refine ⟨takesFrom_inOrder (remainingOf_nonneg db) hquantity.le, fun ids db' h => ?_,
    fun e h => atomically_of_error h, fun hsellable => ?_⟩
  · refine ⟨?_, recordSellFill_soldAs hquantity.le h⟩
    have hsum := (recordSellFill_remaining hquantity.le h).2
    rw [saleTakes, sum_takesFrom (remainingOf_nonneg db) hquantity.le] at hsum
    unfold selectedTotal
    omega
  · rcases @sellLots_cases env clock fill designatedLotIds db hquantity.le hsellable with
      ⟨hnot, e, he, hrun⟩ | ⟨hfits, henough, r, hrun⟩ | ⟨hfits, missing, hpos, hmissing, hrun⟩
    · exact ⟨fun hfits => absurd hfits hnot, fun _ => ⟨e, he, run_bind_of_error hrun⟩⟩
    · exact ⟨fun _ => ⟨fun _ => ⟨r, hrun⟩, fun hfew => absurd henough (not_le.mpr hfew)⟩,
        fun hnot => absurd hfits hnot⟩
    · refine ⟨fun _ => ⟨fun henough => ?_, fun _ => ⟨missing, hmissing, run_bind_of_error hrun⟩⟩,
        fun hnot => absurd hfits hnot⟩
      omega

/-- Five shares are sold from lots of three and four: the first is used up, and two are taken from
the second. -/
example : saleTakes twoLots (fillAt 30 "c" (shares 5) (dollarsPerShare 70)) none =
    [(1, (shares 3).quanta), (2, (shares 2).quanta)] := by decide +kernel

/-- Nine shares cannot be sold from lots of three and four. -/
theorem lot_selection_too_few :
    ∃ missing : Units, missing.quanta =
        (shares 9).quanta - selectedTotal twoLots (fillAt 30 "c" (shares 9) (dollarsPerShare 70)) none ∧
      (recordSellFill (envAt 30 3) openedClock (fillAt 30 "c" (shares 9) (dollarsPerShare 70)) none).run
        twoLots = .error (.insufficientLots missing) :=
  ((((@lot_selection (envAt 30 3) openedClock (fillAt 30 "c" (shares 9) (dollarsPerShare 70)) none
    twoLots (by decide)).2.2.2 ⟨by decide, (fun _ h => by cases h), by decide, by decide +kernel,
      by decide +kernel⟩).1 (by decide +kernel)).2 (by decide +kernel))

/-- A lot of two hundred shares. -/
def largeLot : Database :=
  runs lotBody [⟨envAt 10 1, .buyFill openedClock (fillAt 10 "a" (shares 200) (dollarsPerShare 60))⟩]
    (openedAccount 1)

/-- The sale of three hundred shares at a price at which the proceeds of two hundred do not fit a
`Money`. -/
def largeSale : Fill := fillAt 30 "c" (shares 300) ⟨9 * 10 ^ 17, by decide⟩

/-- The sale of five shares of another customer. -/
def foreignSale : Fill := { fillAt 30 "c" (shares 5) (dollarsPerShare 70) with customerId := 2 }

/-- **Other errors in place of `InsufficientLotsError` and of the takes**: a figure overflows before
the lots are used up, and a fill names a lot of another customer. -/
theorem lots_not_consumed :
    (selectedTotal largeLot largeSale none < largeSale.quantity.quanta ∧
      (UnitOfWork.perform (recordSellFill (envAt 30 3) openedClock largeSale none) largeLot).1 =
        .error .valueError) ∧
    (foreignSale.quantity.quanta ≤ selectedTotal largeLot foreignSale (some [1]) ∧
      (UnitOfWork.perform (recordSellFill (envAt 30 3) openedClock foreignSale (some [1])) largeLot).1 =
        .error .unknownTaxLot) := by
  refine ⟨⟨by decide +kernel, ?_⟩, by decide +kernel, ?_⟩
  · decide +kernel
  · decide +kernel

end Trueup.Lots
