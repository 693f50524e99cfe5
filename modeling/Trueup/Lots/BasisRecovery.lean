import Trueup.Lots.Deferral

/-! # Recovering the basis

What is consumed of a lot's basis, with what remains of it, is its cost and the losses carried into
it. A lot that is sold out has recovered its basis when nothing remains; the last take leaves a
remainder when the unit basis, rounded to a price, times the units is not the basis, and an
adjustment leaves one when it is carried into a lot that is already sold out.

`basis_recovered`: in a run in which neither happens (`RecoversBasis`), every lot that is sold out
has no basis left, and what was consumed of it is its cost and the losses carried into it. -/

namespace Trueup.Lots

open Trueup.Core Trueup.Models Trueup.Lib Trueup.Lib.Transaction Trueup.Ledger

/-! ### The account of a lot's basis -/

/-- The disallowed losses carried into a lot. -/
def carriedInto (db : Database) (lotId : Uuid) : ℤ :=
  db.washSaleAdjustments.total fun a =>
    if a.replacementTaxLotId = lotId then a.disallowedAmount.quanta else 0

/-- The basis a step consumes of a lot. -/
def consumedBy (db : Database) (step : LotStep) (lotId : Uuid) : ℤ :=
  match step.op with
  | .sellFill _ fill _ => basisConsumed fill.price (recordedBy db step) lotId
  | _ => 0

/-- The basis a run consumes of a lot. -/
def consumedBasis : List LotStep → Database → Uuid → ℤ
  | [], _, _ => 0
  | step :: steps, db, lotId =>
    consumedBy db step lotId + consumedBasis steps (atomically (lotBody step) db) lotId

/-- The account of the basis of every lot, after `consumed` has been consumed: it balances, and a
lot that is sold out has none left. -/
structure BasisBook (consumed : Uuid → ℤ) (db : Database) : Prop where
  balance : ∀ lot ∈ db.taxLots, lot.originalCostBasis.quanta + carriedInto db lot.id =
    lot.adjustedBasis.quanta + consumed lot.id
  exhausted : ∀ lot ∈ db.taxLots, lot.quantityRemaining.quanta = 0 → lot.adjustedBasis.quanta = 0
  carried : ∀ a ∈ db.washSaleAdjustments, db.taxLots.Has a.replacementTaxLotId
  known : ∀ lotId, ¬ db.taxLots.Has lotId → consumed lotId = 0

/-! ### Adjustments -/

theorem carriedInto_insert {db db' : Database} {a : WashSaleAdjustment}
    (h : db.washSaleAdjustments.insert a = some db'.washSaleAdjustments) (lotId : Uuid) :
    carriedInto db' lotId = carriedInto db lotId +
      if a.replacementTaxLotId = lotId then a.disallowedAmount.quanta else 0 :=
  Table.total_insert h _

theorem disallowedLoss_eq_zero {consumption : LotConsumption} {lot : TaxLot}
    (h : lot.originalCostBasis.quanta = 0) : (disallowedLoss consumption lot).quanta = 0 := by
  have habs : 0 ≤ consumption.realizedGainLoss.abs.quanta := abs_nonneg _
  rw [disallowedLoss, QuantizedDecimal.quanta_min, h]
  exact min_eq_right habs

theorem Adjusted.basisBook {consumed : Uuid → ℤ} {consumption : LotConsumption} {lot : TaxLot}
    {db db' : Database} (h : BasisBook consumed db) (hlot : lot ∈ db.taxLots)
    (hopen : 0 < lot.quantityRemaining.quanta ∨ lot.originalCostBasis.quanta = 0)
    (hadj : Adjusted consumption lot db db') : BasisBook consumed db' := by
  obtain ⟨basis, realized, entry, gainLoss, cost, accounts, entries, adjustments, returns, events,
    disclosures, hbasis, -, -, -, -, -, hinsert, hdb'⟩ := hadj
  have hadjustments : db.washSaleAdjustments.insert ⟨consumption.id, lot.id,
      disallowedLoss consumption lot, entry.id⟩ = some db'.washSaleAdjustments := by
    rw [hdb']; exact hinsert
  have hcarried := carriedInto_insert hadjustments
  have hmem : ∀ l ∈ db'.taxLots, (l ∈ db.taxLots ∧ l.id ≠ lot.id) ∨
      l = { lot with adjustedBasis := basis } := by
    intro l hl
    rw [hdb'] at hl
    rcases Table.mem_set.mp hl with hold | ⟨rfl, -⟩
    · exact Or.inl hold
    · exact Or.inr rfl
  have hhas : ∀ id, db'.taxLots.Has id ↔ db.taxLots.Has id := by
    intro id; rw [hdb']; exact Table.has_set id
  refine ⟨fun l hl => ?_, fun l hl hzero => ?_, fun a ha => ?_, fun id hid => ?_⟩
  · have hown := h.balance lot hlot
    rw [hcarried]
    rcases hmem l hl with ⟨hl, hne⟩ | rfl
    · rw [if_neg fun e => hne e.symm, add_zero]
      exact h.balance l hl
    · rw [if_pos rfl, hbasis]
      show lot.originalCostBasis.quanta + (carriedInto db lot.id + _) = _
      dsimp only
      omega
  · rcases hmem l hl with ⟨hl, -⟩ | rfl
    · exact h.exhausted l hl hzero
    · have hcost : lot.originalCostBasis.quanta = 0 := hopen.resolve_left (by
        intro hpos; dsimp only at hzero; omega)
      show basis.quanta = 0
      rw [hbasis, disallowedLoss_eq_zero hcost, h.exhausted lot hlot hzero, add_zero]
  · rw [hhas]
    rw [hdb'] at ha
    rcases (Table.mem_insert hinsert).mp ha with ha | rfl
    · exact h.carried a ha
    · exact Table.has_of_mem hlot
  · exact h.known id fun hold => hid ((hhas id).mpr hold)

/-- The lots have kept what remains of them and what they cost. -/
def SameLots (db db' : Database) : Prop :=
  ∀ lot' ∈ db'.taxLots, ∃ lot ∈ db.taxLots, lot.id = lot'.id ∧
    lot'.quantityRemaining = lot.quantityRemaining ∧
    lot'.originalCostBasis = lot.originalCostBasis

theorem SameLots.refl (db : Database) : SameLots db db := fun lot hlot => ⟨lot, hlot, rfl, rfl, rfl⟩

theorem Adjusted.sameLots {consumption : LotConsumption} {lot : TaxLot} {db₀ db db' : Database}
    (h : SameLots db₀ db) (hlot : lot ∈ db.taxLots) (hadj : Adjusted consumption lot db db') :
    SameLots db₀ db' := by
  obtain ⟨basis, realized, entry, gainLoss, cost, accounts, entries, adjustments, returns, events,
    disclosures, -, -, -, -, -, -, -, rfl⟩ := hadj
  intro lot' hlot'
  rcases Table.mem_set.mp hlot' with ⟨hlot', -⟩ | ⟨rfl, -⟩
  · exact h lot' hlot'
  · exact h lot hlot

/-! ### The condition -/

/-- Every lot that is sold out gives its whole basis, and every loss is carried into a lot that is
open after the takes, or that cost nothing. -/
def SaleRecovers (db : Database) (fill : Fill) (designatedLotIds : Option (List Uuid)) (day : Date) :
    Prop :=
  ∀ t ∈ saleTakes db fill designatedLotIds, ∀ lot ∈ db.taxLots.find t.1,
    (t.2 = lot.quantityRemaining.quanta →
      ∀ basis ∈ basisOf lot t.2, basis = lot.adjustedBasis.quanta) ∧
    (isLoss fill.price lot t.2 →
      ∀ replacement ∈ findEarliestReplacement db fill.customerId fill.securityId
          (day - washSaleWindowDays) (day + washSaleWindowDays) lot.id,
        0 < replacement.quantityRemaining.quanta -
            takenFrom (saleTakes db fill designatedLotIds) replacement.id ∨
          replacement.originalCostBasis.quanta = 0)

/-- A step that leaves no basis on a lot that is sold out. -/
def RecoversBasis (db : Database) (step : LotStep) : Prop :=
  match step.op with
  | .sellFill clock fill designatedLotIds =>
    match clock.marketDate fill.filledAt with
    | .ok day => SaleRecovers db fill designatedLotIds day
    | .error _ => True
  | _ => True

instance (db : Database) (fill : Fill) (designatedLotIds : Option (List Uuid)) (day : Date) :
    Decidable (SaleRecovers db fill designatedLotIds day) := by unfold SaleRecovers; infer_instance

theorem recoversBasis_sellFill {db : Database} {env : Env} {clock : MarketClock} {fill : Fill}
    {designatedLotIds : Option (List Uuid)} :
    RecoversBasis db ⟨env, .sellFill clock fill designatedLotIds⟩ ↔
      ∀ day, clock.marketDate fill.filledAt = .ok day → SaleRecovers db fill designatedLotIds day := by
  cases hday : clock.marketDate fill.filledAt <;> simp [RecoversBasis, hday]

instance (db : Database) : ∀ step : LotStep, Decidable (RecoversBasis db step)
  | ⟨_, .sellFill _ _ _⟩ => decidable_of_iff' _ recoversBasis_sellFill
  | ⟨_, .buyFill _ _⟩ | ⟨_, .split _ _ _⟩ => isTrue trivial

/-! ### Buys -/

theorem notional_zero (price : Price) : notional price 0 = 0 := by
  unfold notional
  simp [Rounding.roundHalfEven]

theorem recordBuyFill_basisBook {consumed : Uuid → ℤ} {env : Env} {clock : MarketClock}
    {fill : Fill} {db db' : Database} {lot : TaxLot} (h : BasisBook consumed db)
    (hrun : (recordBuyFill env clock fill).run db = .ok (lot, db')) : BasisBook consumed db' := by
  have hcost := (recordBuyFill_opened hrun).2
  obtain ⟨mid, hposted, hwash⟩ := recordBuyFill_ok hrun
  obtain ⟨cost, entry, units, costs, cash, accounts, entries, settlementDate, obligations, lots,
    hnotional, -, -, -, -, -, -, -, -, -, -, hquantity, hbasis, hnonneg, -, -, hlots, hmid⟩ :=
    hposted
  have hfree := (Table.insert_eq_some.mp hlots).1
  have hmem : ∀ l ∈ mid.taxLots, l ∈ db.taxLots ∨ l = lot := by
    intro l hl; rw [hmid] at hl; exact (Table.mem_insert hlots).mp hl
  have hhas : ∀ id, mid.taxLots.Has id ↔ db.taxLots.Has id ∨ id = lot.id := by
    intro id; rw [hmid]; exact Table.has_insert hlots id
  have hadj : mid.washSaleAdjustments = db.washSaleAdjustments := by rw [hmid]
  have hcarried : ∀ id, carriedInto mid id = carriedInto db id := by
    intro id; unfold carriedInto; rw [hadj]
  -- a lot without any units has cost nothing
  have hempty : lot.quantityRemaining.quanta = 0 → lot.adjustedBasis.quanta = 0 := by
    intro hzero
    have hq : fill.quantity = 0 := QuantizedDecimal.ext (by rw [← hquantity]; exact hzero)
    rw [hbasis, hnotional, hq, notional_zero]
  have hmidBook : BasisBook consumed mid := by
    refine ⟨fun l hl => ?_, fun l hl hzero => ?_, fun a ha => ?_, fun id hid => ?_⟩
    · rw [hcarried]
      rcases hmem l hl with hl | rfl
      · exact h.balance l hl
      · have hnone : carriedInto db l.id = 0 := by
          have hne : ∀ a ∈ db.washSaleAdjustments, a.replacementTaxLotId ≠ l.id :=
            fun a ha e => hfree (e ▸ h.carried a ha)
          rw [carriedInto, Table.total_congr fun a ha => if_neg (hne a ha)]
          simp [Table.total]
        rw [hnone, h.known l.id hfree, hcost]
    · rcases hmem l hl with hl | rfl
      · exact h.exhausted l hl hzero
      · exact hempty hzero
    · rw [hadj] at ha
      exact (hhas _).mpr (Or.inl (h.carried a ha))
    · exact h.known id fun hold => hid ((hhas id).mpr (Or.inl hold))
  have hnew : lot ∈ mid.taxLots := by rw [hmid]; exact (Table.mem_insert hlots).mpr (Or.inr rfl)
  refine (onBuyFill_rule (I := fun s => SameLots mid s ∧ BasisBook consumed s)
    ⟨.refl mid, hmidBook⟩ ?_ hwash).2
  rintro s s' c l ⟨hsame, hbook⟩ - hl hid - hadjusted
  refine ⟨hadjusted.sameLots hsame hl, hadjusted.basisBook hbook hl ?_⟩
  obtain ⟨l0, hl0, hid0, hrem, horiginal⟩ := hsame l hl
  obtain rfl := Table.eq_of_key_eq hl0 hnew (hid0.trans hid)
  rw [hrem, horiginal]
  by_cases hzero : l0.quantityRemaining.quanta = 0
  · exact Or.inr (by rw [hcost]; exact hempty hzero)
  · have := l0.remaining_nonneg
    exact Or.inl (by omega)

/-! ### Sales -/

theorem has_of_lotFacts {db db' : Database} (h : lotFacts db' = lotFacts db) (id : Uuid) :
    db'.taxLots.Has id ↔ db.taxLots.Has id := by
  have hids : ∀ db : Database, db.taxLots.rows.map TaxLot.id = (lotFacts db).map (·.1) := by
    intro db; rw [lotFacts, List.map_map]; rfl
  unfold Table.Has
  rw [hids, hids, h]

/-- The takes of a sale keep the account, if the lots that are sold out give their whole basis. -/
theorem Took.basisBook {consumed : Uuid → ℤ} {fill : Fill} {takes : List (Uuid × ℤ)}
    {sold : List LotConsumption} {db db' : Database} (h : BasisBook consumed db)
    (htook : Took fill takes sold db db') (hfacts : lotFacts db' = lotFacts db)
    (hadj : db'.washSaleAdjustments = db.washSaleAdjustments)
    (hwhole : ∀ t ∈ takes, ∀ lot ∈ db.taxLots.find t.1, t.2 = lot.quantityRemaining.quanta →
      ∀ basis ∈ basisOf lot t.2, basis = lot.adjustedBasis.quanta) :
    BasisBook (fun id => consumed id + basisConsumed fill.price sold id) db' := by
  have hcarried : ∀ id, carriedInto db' id = carriedInto db id := by
    intro id; unfold carriedInto; rw [hadj]
  refine ⟨fun lot' hlot' => ?_, fun lot' hlot' hzero => ?_, fun a ha => ?_, fun id hid => ?_⟩
  · obtain ⟨lot, hlot, hid, hcase⟩ := htook.lots lot' hlot'
    have horiginal : lot'.originalCostBasis = lot.originalCostBasis := by
      rcases hcase with ⟨-, hsame⟩ | ⟨t, -, -, htaken⟩
      · rw [hsame]
      · rw [htaken.rest]
    have hbasis := htook.basis lot'.id
    rw [adjustedBasisOf, lotFigure_of_mem hlot', hid, adjustedBasisOf, lotFigure_of_mem hlot]
      at hbasis
    have hbalance := h.balance lot hlot
    rw [hcarried, hid, horiginal, hbasis]
    omega
  · obtain ⟨lot, hlot, hid, ⟨-, hsame⟩ | ⟨t, ht, hid', htaken⟩⟩ := htook.lots lot' hlot'
    · rw [hsame] at hzero ⊢
      exact h.exhausted lot hlot hzero
    · obtain ⟨basis, hbasis, hadjusted⟩ := htaken.basis
      have hall : t.2 = lot.quantityRemaining.quanta := by
        have := htaken.remaining
        omega
      have heq := hwhole t ht lot (Table.find_eq_some.mpr ⟨hlot, hid'.symm⟩) hall basis hbasis
      omega
  · rw [hadj] at ha
    exact (has_of_lotFacts hfacts _).mpr (h.carried a ha)
  · have hold : ¬ db.taxLots.Has id := fun hh => hid ((has_of_lotFacts hfacts id).mpr hh)
    have hnone : sold.filter (·.taxLotId = id) = [] := by
      refine List.filter_eq_nil_iff.mpr fun c hc => ?_
      obtain ⟨lot, hlot, hlotId, -⟩ := htook.recorded c hc
      rw [decide_eq_true_eq]
      exact fun e => hold (e ▸ hlotId ▸ Table.has_of_mem hlot)
    simp only [basisConsumed, hnone, List.map_nil, List.sum_nil, add_zero]
    exact h.known id hold

theorem recordSellFill_basisBook {consumed : Uuid → ℤ} {env : Env} {clock : MarketClock}
    {fill : Fill} {designatedLotIds : Option (List Uuid)} {db db' : Database} {ids : List Uuid}
    (h : BasisBook consumed db)
    (hrecovers : ∀ day, clock.marketDate fill.filledAt = .ok day →
      SaleRecovers db fill designatedLotIds day)
    (hrun : (recordSellFill env clock fill designatedLotIds).run db = .ok (ids, db')) :
    BasisBook (fun id => consumed id +
      consumedBy db ⟨env, .sellFill clock fill designatedLotIds⟩ id) db' := by
  obtain ⟨day, sold, mid, hday, htook, hrecorded, hdates, hfacts, hadjustments, hscan⟩ :=
    recordSellFill_took hrun
  have hcond := hrecovers day hday
  have hbook := htook.basisBook h hfacts hadjustments fun t ht lot hlot => (hcond t ht lot hlot).1
  -- the replacement of a recorded loss is open after the takes, or has cost nothing
  let P : Uuid → Prop := fun lotId => ∀ lot ∈ mid.taxLots, lot.id = lotId →
    0 < lot.quantityRemaining.quanta ∨ lot.originalCostBasis.quanta = 0
  have hopen : ∀ c ∈ sold, c.realizedGainLoss.quanta < 0 → ∀ lot,
      replacementOf mid fill.customerId fill.securityId c = some lot → P lot.id := by
    intro c hc hloss lot' hreplacement l hl hlid
    obtain ⟨lot, r, hfind, hneg, hearliest, hid, hleft⟩ :=
      htook.replacement hfacts hc hloss hreplacement
    rw [hdates c hc] at hearliest
    obtain ⟨horiginal, hremaining⟩ := hleft l hl (hlid.trans hid.symm)
    rw [horiginal, hremaining]
    exact (hcond _ (htook.mem_takes hc) lot hfind).2 hneg r hearliest
  have hfinal : SameLots mid db' ∧
      BasisBook (fun id => consumed id + basisConsumed fill.price sold id) db' := by
    refine htook.scan_rule (P := fun _ => P) (I := fun s => SameLots mid s ∧
      BasisBook (fun id => consumed id + basisConsumed fill.price sold id) s) ?_
      ⟨.refl mid, hbook⟩ hopen hscan
    rintro s s' c l ⟨hsame, hbook⟩ - hl hP hadjusted
    refine ⟨hadjusted.sameLots hsame hl, hadjusted.basisBook hbook hl ?_⟩
    obtain ⟨l0, hl0, hid0, hrem, horiginal⟩ := hsame l hl
    rw [hrem, horiginal]
    exact hP l0 hl0 hid0
  simp only [consumedBy, hrecorded]
  exact hfinal.2

/-! ### Splits -/

/-- A split leaves the basis of a lot, and something of every lot that is open. -/
theorem scaleLot_basisBook {consumed : Uuid → ℤ} {ratio : SplitRatio} (hratio : 1 < ratio.value)
    (lotId : Uuid) : Keeps (BasisBook consumed) (scaleLot ratio lotId) := by
  intro db u db' h hrun
  obtain ⟨lot, hlot, lot', -, hscaled, rfl⟩ := scaleLot_ok hrun
  refine ⟨fun l hl => ?_, fun l hl hzero => ?_, fun a ha => ?_, fun id hid => ?_⟩
  · rcases Table.mem_set.mp hl with ⟨hl, -⟩ | ⟨rfl, -⟩
    · exact h.balance l hl
    · rw [hscaled.rest]
      exact h.balance lot hlot
  · rcases Table.mem_set.mp hl with ⟨hl, -⟩ | ⟨rfl, -⟩
    · exact h.exhausted l hl hzero
    · rw [hscaled.basis]
      refine h.exhausted lot hlot (le_antisymm ?_ lot.remaining_nonneg)
      by_contra hpos
      have := scaledQuanta_pos (not_le.mp hpos) hratio
      rw [← Units.scale_ok.mp hscaled.remaining] at this
      omega
  · rw [Table.has_set]
    exact h.carried a ha
  · exact h.known id fun hold => hid ((Table.has_set id).mpr hold)

theorem applySplit_basisBook {consumed : Uuid → ℤ} (env : Env) (securityId : Uuid)
    (ratio : SplitRatio) (effectiveDate : Date) :
    Keeps (BasisBook consumed) (applySplit env securityId ratio effectiveDate) := by
  intro db u db' h hrun
  obtain ⟨_, _, hrequire, hrun⟩ := bind_ok.mp hrun
  obtain ⟨hratio, rfl⟩ := require_ok.mp hrequire
  refine keeps_bind (keeps_read _) (fun customers => keeps_each fun customerId _ => ?_) db u db' h
    hrun
  intro s v s' hs hsplit
  rcases splitCustomer_ok hsplit with rfl | ⟨mid, priorTotal, added, entry, units, accounts,
    entries, returns, events, disclosures, -, hscale, -, -, -, -, rfl⟩
  · exact hs
  · have hmid := keeps_each (fun lotId _ => scaleLot_basisBook hratio lotId) s () mid hs hscale
    exact ⟨hmid.balance, hmid.exhausted, hmid.carried, hmid.known⟩

/-! ### Runs -/

/-- **The step lemma.** -/
theorem lotBody_basisBook {consumed : Uuid → ℤ} {step : LotStep} {db db' : Database} {u : Unit}
    (h : BasisBook consumed db) (hrecovers : RecoversBasis db step)
    (hrun : (lotBody step).run db = .ok (u, db')) :
    BasisBook (fun id => consumed id + consumedBy db step id) db' := by
  obtain ⟨env, op⟩ := step
  cases op with
  | buyFill clock fill =>
    simp only [lotBody, bind_ok, pure_ok] at hrun
    obtain ⟨lot, _, hrun, -, rfl⟩ := hrun
    simpa [consumedBy] using recordBuyFill_basisBook h hrun
  | sellFill clock fill designatedLotIds =>
    simp only [lotBody, bind_ok, pure_ok] at hrun
    obtain ⟨ids, _, hrun, -, rfl⟩ := hrun
    exact recordSellFill_basisBook h (recoversBasis_sellFill.mp hrecovers) hrun
  | split securityId ratio effectiveDate =>
    simpa [consumedBy] using applySplit_basisBook env securityId ratio effectiveDate db u db' h hrun

theorem consumedBy_of_error {step : LotStep} {db : Database} {e : Error}
    (h : (lotBody step).run db = .error e) (lotId : Uuid) : consumedBy db step lotId = 0 := by
  have hnone := recordedBy_of_error h
  obtain ⟨env, op⟩ := step
  cases op with
  | sellFill clock fill designatedLotIds => simp [consumedBy, hnone, basisConsumed]
  | _ => rfl

theorem runs_basisBook : ∀ (steps : List LotStep) {consumed : Uuid → ℤ} {db : Database},
    BasisBook consumed db → RunMeets lotBody RecoversBasis steps db →
    BasisBook (fun id => consumed id + consumedBasis steps db id) (runs lotBody steps db)
  | [], consumed, db, h, _ => by simpa [consumedBasis, runs] using h
  | step :: steps, consumed, db, h, hmeets => by
    simp only [consumedBasis, runs_cons, ← add_assoc]
    refine runs_basisBook steps ?_ hmeets.2
    rcases atomically_cases (lotBody step) db with ⟨u, db', hrun, heq⟩ | ⟨e, herr, heq⟩
    · rw [heq]
      exact lotBody_basisBook h hmeets.1 hrun
    · rw [heq]
      simpa only [consumedBy_of_error herr, add_zero] using h

theorem Unheld.basisBook {db : Database} (h : Unheld db) : BasisBook (fun _ => 0) db := by
  refine ⟨fun lot hlot => ?_, fun lot hlot => ?_, fun a ha => ?_, fun _ _ => rfl⟩
  · rw [h.taxLots] at hlot; cases hlot
  · rw [h.taxLots] at hlot; cases hlot
  · rw [h.washSaleAdjustments] at ha; cases ha

/-- **The basis is recovered** in a run whose sales take the whole basis of what they sell out and
carry no loss into it: a lot without units has no basis, and what was consumed of its basis is its
cost and the losses that were carried into it. -/
theorem basis_recovered (steps : List LotStep) {db : Database} (h : Unheld db)
    (hsteps : RunMeets lotBody RecoversBasis steps db) :
    ∀ lot ∈ (runs lotBody steps db).taxLots, lot.quantityRemaining = 0 →
      lot.adjustedBasis = 0 ∧ consumedBasis steps db lot.id =
        lot.originalCostBasis.quanta + carriedInto (runs lotBody steps db) lot.id := by
  have hbook := runs_basisBook steps h.basisBook hsteps
  intro lot hlot hzero
  have hbasis : lot.adjustedBasis.quanta = 0 := hbook.exhausted lot hlot (by rw [hzero]; rfl)
  have hbalance := hbook.balance lot hlot
  simp only [zero_add] at hbalance
  exact ⟨QuantizedDecimal.ext hbasis, by omega⟩

/-- A loss is carried into a second lot, which is then sold out in two parts. -/
def soldOutRun : List LotStep := [
  ⟨envAt 10 1, .buyFill openedClock (fillAt 10 "a" (shares 10) (dollarsPerShare 100))⟩,
  ⟨envAt 20 2, .buyFill openedClock (fillAt 20 "b" (shares 10) (dollarsPerShare 100))⟩,
  ⟨envAt 30 3, .sellFill openedClock (fillAt 30 "c" (shares 10) (dollarsPerShare 90)) none⟩,
  ⟨envAt 40 4, .sellFill openedClock (fillAt 40 "d" (shares 4) (dollarsPerShare 120)) none⟩,
  ⟨envAt 50 5, .sellFill openedClock (fillAt 50 "e" (shares 6) (dollarsPerShare 120)) none⟩]

theorem basis_recovered_sold_out :
    (runs lotBody soldOutRun (openedAccount 1)).taxLots.rows.map (·.quantityRemaining.quanta) =
      [0, 0] ∧
    carriedInto (runs lotBody soldOutRun (openedAccount 1)) 2 = 1000000 ∧
    ∀ lot ∈ (runs lotBody soldOutRun (openedAccount 1)).taxLots, lot.quantityRemaining = 0 →
      lot.adjustedBasis = 0 ∧ consumedBasis soldOutRun (openedAccount 1) lot.id =
        lot.originalCostBasis.quanta +
          carriedInto (runs lotBody soldOutRun (openedAccount 1)) lot.id :=
  ⟨by decide +kernel, by decide +kernel,
    basis_recovered soldOutRun (unheld_openedAccount 1) (by decide +kernel)⟩

/-- Ten thousand shares at one dollar, split three for one and sold. -/
def thirdsRun : List LotStep := [
  ⟨envAt 10 1, .buyFill openedClock (fillAt 10 "a" (shares 10000) (dollarsPerShare 1))⟩,
  ⟨envAt 20 2, .split 7 (.int 3) 0⟩,
  ⟨envAt 30 3, .sellFill openedClock (fillAt 30 "b" (shares 30000) (dollarsPerShare 1)) none⟩]

/-- The unit basis is `0.333333`, and a cent of the basis is left on the lot. -/
theorem sold_out_lot_keeps_a_cent : Unheld (openedAccount 1) ∧
    ¬ ∀ lot ∈ (runs lotBody thirdsRun (openedAccount 1)).taxLots, lot.quantityRemaining = 0 →
      lot.adjustedBasis = 0 ∧ consumedBasis thirdsRun (openedAccount 1) lot.id =
        lot.originalCostBasis.quanta +
          carriedInto (runs lotBody thirdsRun (openedAccount 1)) lot.id := by
  refine ⟨unheld_openedAccount 1, fun h => ?_⟩
  have hrows : ∃ lot ∈ (runs lotBody thirdsRun (openedAccount 1)).taxLots.rows,
      lot.quantityRemaining = 0 ∧ lot.adjustedBasis.quanta = 100 := by decide +kernel
  obtain ⟨lot, hlot, hzero, hcent⟩ := hrows
  have hbasis := (h lot hlot hzero).1
  rw [hbasis] at hcent
  cases hcent

end Trueup.Lots
