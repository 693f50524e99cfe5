import Trueup.Admin.AgentRequests
import Trueup.System

/-! # The failures of an agent's action

An approval records the failures that `_EXPECTED_EXECUTION_ERRORS` lists. Two of the failures of the
domain are not among them: a break or a customer that is missing, and a buy that is not covered by
what is investable. They leave the approval by its rollback.

* `failsWith_placeBuys`, `failsWith_placeRebalance`: a rebalance fails so exactly when it comes to a
  buy that is not covered.
* `records_failures_iff`: every failure of the domain is recorded exactly when what the action is
  about is there and each buy it comes to is covered. -/

namespace Trueup.Admin

open Trueup.Core Trueup.Models Trueup.Lib Trueup.Lib.Transaction Trueup.Ledger Trueup.Orders
open Trueup.Identity Trueup.Rebalance Trueup.Valuation Trueup.Reconciliation

/-- A missing break or customer, a resolved break, no model, an ineligible customer, not enough
investable cash, or a day that the calendar does not have. -/
def isDomainFailure : Error → Bool
  | .executionFailed _ | .alreadyResolved | .noAssignedModel | .customerNotEligible _
  | .insufficientInvestableCash _ _ | .marketCalendarCacheMiss => true
  | _ => false

/-- A failure of the domain that the approval does not expect. -/
def IsUnexpected (e : Error) : Prop :=
  isDomainFailure e = true ∧ isExpectedExecutionError e = false

/-- No failure of the domain that the approval does not expect. -/
def NotUnexpected (e : Error) : Prop := ¬ IsUnexpected e

instance (e : Error) : Decidable (IsUnexpected e) := inferInstanceAs (Decidable (_ ∧ _))

instance (e : Error) : Decidable (NotUnexpected e) := inferInstanceAs (Decidable (¬ _))

/-! ### What the parts of a rebalance may raise -/

section Parts

theorem fails_decimal {s p : ℕ} (v : ℚ) :
    Fails NotUnexpected (QuantizedDecimal.ofDecimal v : Except Error (QuantizedDecimal s p)) :=
  QuantizedDecimal.fails_ofDecimal (P := NotUnexpected) (by decide) (by decide) v

theorem fails_times (price : Price) (quantity : Units) :
    Fails NotUnexpected (Price.times price quantity) := fails_decimal _

theorem fails_sub (a b : Money) : Fails NotUnexpected (a.sub b) := fails_decimal _

theorem fails_quantityFor (amount : Money) (price : Price) :
    Fails NotUnexpected (quantityFor amount price) := by
  unfold quantityFor Money.perPrice
  split_ifs
  · exact fails_error (by decide)
  · exact fails_decimal _

theorem fails_ratio (amount base : Money) : Fails NotUnexpected (amount.ratio base) := by
  unfold Money.ratio
  split_ifs
  · exact fails_error (by decide)
  · exact fails_ok _

theorem fails_sumMoney : ∀ (amounts : List Money) (total : Money),
    Fails NotUnexpected (sumMoney amounts total)
  | [], _ => fails_ok _
  | _ :: amounts, _ => fails_bind (fails_decimal _) fun total => fails_sumMoney amounts total

theorem fails_commitment (db : Database) (order : Order) : Fails NotUnexpected (commitment db order) := by
  refine fails_bind (fails_decimal _) fun remaining => ?_
  split
  · exact fails_decimal _
  · split
    · exact fails_ok _
    · exact fails_ok _

theorem fails_sumCommitments (db : Database) : ∀ (orders : List Order) (total : Money),
    Fails NotUnexpected (sumCommitments db orders total)
  | [], _ => fails_ok _
  | order :: orders, _ => fails_bind (fails_commitment db order) fun _ =>
      fails_bind (fails_decimal _) fun total => fails_sumCommitments db orders total

theorem fails_investable (db : Database) (customerId : Uuid) :
    Fails NotUnexpected (investable db customerId) :=
  fails_bind (fails_decimal _) fun _ => fails_bind (fails_decimal _) fun _ =>
    fails_bind (fails_decimal _) fun _ => fails_bind (fails_decimal _) fun _ =>
    fails_bind (fails_decimal _) fun _ => fails_bind (fails_sumCommitments db _ _) fun _ =>
    fails_bind (fails_decimal _) fun _ => fails_bind (fails_sumMoney _ _) fun _ => fails_decimal _

theorem fails_positionUnits (db : Database) (customerId : Uuid) (asOfDate : Date) :
    Fails NotUnexpected (positionUnits db customerId asOfDate) :=
  fails_mapM (fun _ => fails_bind (fails_decimal _) fun _ => fails_ok _) _

theorem fails_heldUnits (db : Database) (customerId : Uuid) (asOfDate : Date) :
    Fails NotUnexpected (heldUnits db customerId asOfDate) :=
  fails_bind (fails_positionUnits _ _ _) fun _ => fails_ok _

theorem fails_addPositions (db : Database) (asOfDate : Date) :
    ∀ (positions : List (Uuid × Units)) (book : BookValuation),
      Fails NotUnexpected (addPositions db asOfDate positions book)
  | [], _ => fails_ok _
  | (securityId, units) :: positions, book => by
    unfold addPositions
    split_ifs
    · exact fails_addPositions db asOfDate positions book
    · split
      · exact fails_addPositions db asOfDate positions _
      · exact fails_bind (fails_decimal _) fun _ => fails_bind (fails_decimal _) fun _ =>
          fails_addPositions db asOfDate positions _

theorem fails_buildEntry (driftBandPct : ℚ) (totalValue : Money) (securityId : Option Uuid)
    (currentValue : Money) (targetWeightPct : ℚ) (price : Option Price) : Fails NotUnexpected
      (buildEntry driftBandPct totalValue securityId currentValue targetWeightPct price) :=
  fails_bind (fails_decimal _) fun _ => fails_bind (fails_ratio _ _) fun _ => fails_ok _

theorem fails_securityEntries (driftBandPct : ℚ) (db : Database) (totalValue : Money)
    (asOfDate : Date) : ∀ securities : List (Uuid × Units × ℚ),
      Fails NotUnexpected (securityEntries driftBandPct db totalValue asOfDate securities)
  | [] => fails_ok _
  | (securityId, units, weightPct) :: securities => by
    unfold securityEntries
    split
    · exact fails_ok _
    · exact fails_bind (fails_decimal _) fun _ => fails_bind (fails_buildEntry _ _ _ _ _ _) fun _ =>
        fails_bind (fails_securityEntries driftBandPct db totalValue asOfDate securities) fun _ =>
        fails_ok _

theorem fails_evaluate (driftBandPct : ℚ) (tables : RebalanceTables) (customerId : Uuid)
    (asOfDate : Date) : Fails NotUnexpected (evaluate driftBandPct tables customerId asOfDate) := by
  refine fails_bind (fails_ofOption (by decide)) fun assignment => fails_bind ?_ fun book => ?_
  · exact fails_bind (fails_decimal _) fun _ => fails_bind (fails_positionUnits _ _ _) fun _ =>
      fails_addPositions _ _ _ _
  · dsimp only
    split_ifs
    · exact fails_ok _
    · refine fails_bind ?_ fun found => ?_
      · refine fails_bind (fails_heldUnits _ _ _) fun _ => fails_bind (fails_decimal _) fun _ =>
          fails_bind (fails_securityEntries _ _ _ _ _) fun entries => ?_
        split
        · exact fails_ok _
        · exact fails_bind (fails_buildEntry _ _ _ _ _ _) fun _ => fails_ok _
      · split
        · exact fails_ok _
        · exact fails_ok _

theorem fails_marketDate (clock : MarketClock) (t : Datetime) :
    Fails NotUnexpected (clock.marketDate t) := by
  unfold MarketClock.marketDate
  split_ifs
  · exact fails_ok _
  · exact fails_error (by decide)

end Parts

/-! ### A placement -/

/-- A buy of an eligible customer is covered by what is investable. -/
def Covered (request : OrderCreationRequest) (tables : RebalanceTables) : Prop :=
  request.side = .buy → ineligibility tables.db request.customerId = none →
    ∀ amount available, Price.times request.referencePrice request.quantity = .ok amount →
      investable tables.db request.customerId = .ok available → amount ≤ available

theorem failsWith_requireInvestable {request : OrderCreationRequest} {amount : Money} {db : Database} :
    FailsWith IsUnexpected (requireInvestable request amount) db ↔ request.side = .buy ∧
      ∃ available, investable db request.customerId = .ok available ∧ ¬ amount ≤ available := by
  unfold requireInvestable whenever
  split_ifs with hside
  · rw [failsWith_read_bind (f := fun db => investable db request.customerId) (fails_investable _ _)]
    simp only [failsWith_require, hside, true_and]
    refine exists_congr fun available => and_congr_right fun _ => and_iff_left ?_
    exact ⟨rfl, rfl⟩
  · simp only [hside, false_and, iff_false]
    exact not_failsWith_pure

theorem failsWith_eligible {α : Type} {customerId : Uuid} {g : Unit → Tx α} {db : Database} :
    FailsWith IsUnexpected (requireEligibleCustomer customerId >>= g) db ↔
      ineligibility db customerId = none ∧ FailsWith IsUnexpected (g ()) db := by
  have hexpected : Fails (¬ IsUnexpected ·) ((requireEligibleCustomer customerId).run db) := by
    intro e h
    have hread := read_error.mp h
    split at hread
    · cases hread
    · cases hread
      exact fun hunexpected => by cases hunexpected.2
  rw [failsWith_bind, or_iff_right (not_failsWith hexpected)]
  constructor
  · rintro ⟨u, t, hrun, hrest⟩
    obtain ⟨hnone, rfl⟩ := requireEligible_ok.mp hrun
    exact ⟨hnone, hrest⟩
  · rintro ⟨hnone, hrest⟩
    exact ⟨(), db, requireEligible_ok.mpr ⟨hnone, rfl⟩, hrest⟩

theorem failsWith_createOrder {env : Env} {request : OrderCreationRequest} {db : Database} :
    FailsWith IsUnexpected (createOrder env request) db ↔ ineligibility db request.customerId = none ∧
      ∃ amount, Price.times request.referencePrice request.quantity = .ok amount ∧
        request.side = .buy ∧ ∃ available, investable db request.customerId = .ok available ∧
          ¬ amount ≤ available := by
  have hinserts : ∀ amount, ∀ _ : Unit, Raises (¬ IsUnexpected ·) (do
      addOrder (newOrder env request amount)
      openHold (newOrder env request amount).id request.customerId amount
      return newOrder env request amount) := fun amount _ =>
    raises_bind (raises_write fun _ => fails_bind (fails_ofOption (by decide)) fun _ => fails_ok _)
      fun _ => raises_bind
        (raises_write fun _ => fails_bind (fails_ofOption (by decide)) fun _ => fails_ok _)
        fun _ => raises_pure _
  unfold createOrder
  rw [failsWith_eligible, failsWith_lift_bind (fails_times _ _)]
  refine and_congr_right fun _ => exists_congr fun amount => and_congr_right fun _ => ?_
  rw [← failsWith_requireInvestable]
  exact failsWith_bind_left (hinserts amount)

/-- **A placement** fails so exactly when the order is not covered. -/
theorem failsWith_place {env : Env} {request : OrderCreationRequest} {tables : RebalanceTables} :
    FailsWith IsUnexpected (place env request) tables ↔ ¬ Covered request tables := by
  have hsubmission : ∀ order : Order, Raises (¬ IsUnexpected ·) (do
      whenever (order.status = .approved) (enqueueSubmission env order)
      return order) := by
    intro order
    refine raises_bind (raises_ite ?_ (raises_pure _)) fun _ => raises_pure _
    exact raises_bind (raises_read fun _ => fails_ofOption (by decide)) fun _ =>
      raises_write fun _ => fails_bind (fails_ofOption (by decide)) fun _ => fails_ok _
  unfold place onDatabase Covered
  rw [failsWith_bind_left hsubmission, failsWith_focus, failsWith_createOrder]
  push Not
  constructor
  · rintro ⟨hnone, amount, hamount, hside, available, havailable, hlt⟩
    exact ⟨hside, hnone, amount, available, hamount, havailable, hlt⟩
  · rintro ⟨hside, hnone, amount, available, hamount, havailable, hlt⟩
    exact ⟨hnone, amount, hamount, hside, available, havailable, hlt⟩

/-! ### The loops of a rebalance -/

section Loops
variable {σ : Type} {place : ℕ → OrderCreationRequest → Transaction.Tx Error σ Order} {customerId : Uuid}

/-- The order that `_place_buy` asks for, if it comes to one. -/
def buyRequest (customerId : Uuid) (entry : DriftEntry) (notional : Money) :
    Option OrderCreationRequest :=
  match entry.securityId, entry.price with
  | some securityId, some price =>
    if notional ≤ 0 then none
    else
      match quantityFor notional price with
      | .ok quantity =>
        if quantity = 0 then none
        else some { customerId, securityId, side := .buy, quantity, referencePrice := price }
      | .error _ => none
  | _, _ => none

/-- The cap of a buy. -/
def cappedNotional (buyNotional remaining : Money) : Money :=
  if buyNotional < remaining then buyNotional else remaining

/-- What remains for the other buys. -/
def remainingAfter (placed : Option Order) (remaining cappedNotional : Money) : Except Error Money :=
  match placed with
  | none => .ok remaining
  | some _ => remaining.sub cappedNotional

/-- Each buy that the loop comes to is covered in the state that it is placed in. -/
def BuysCovered (place : ℕ → OrderCreationRequest → Transaction.Tx Error σ Order)
    (covered : OrderCreationRequest → σ → Prop) (customerId : Uuid) :
    List DriftEntry → Money → ℕ → σ → Prop
  | [], _, _, _ => True
  | entry :: entries, remaining, i, s =>
    remaining ≤ 0 ∨ ∀ buyNotional,
      entry.targetMarketValue.sub entry.currentMarketValue = .ok buyNotional →
        (∀ request ∈ buyRequest customerId entry (cappedNotional buyNotional remaining),
          covered request s) ∧
        ∀ placed t, (RebalanceOrderService.placeBuy (place i) customerId entry
            (cappedNotional buyNotional remaining)).run s = .ok (placed, t) →
          ∀ rest, remainingAfter placed remaining (cappedNotional buyNotional remaining) = .ok rest →
            BuysCovered place covered customerId entries rest (i + 1) t

theorem failsWith_placeBuy {place : OrderCreationRequest → Transaction.Tx Error σ Order}
    {entry : DriftEntry} {amount : Money} {s : σ} :
    FailsWith IsUnexpected (RebalanceOrderService.placeBuy place customerId entry amount) s ↔
      ∃ request ∈ buyRequest customerId entry amount, FailsWith IsUnexpected (place request) s := by
  unfold RebalanceOrderService.placeBuy buyRequest
  rw [failsWith_lift_bind (fails_ofOption (by decide))]
  cases entry.securityId with
  | none => simp [ofOption]
  | some securityId =>
    simp only [ofOption_ok, Option.some.injEq, exists_eq_left']
    rw [failsWith_lift_bind (fails_ofOption (by decide))]
    cases entry.price with
    | none => simp [ofOption]
    | some price =>
      simp only [ofOption_ok, Option.some.injEq, exists_eq_left']
      split_ifs with hnothing
      · simp [not_failsWith_pure]
      · rw [failsWith_lift_bind (fails_quantityFor _ _)]
        cases hquantity : quantityFor amount price with
        | error e => simp
        | ok quantity =>
          simp only [Except.ok.injEq, exists_eq_left']
          split_ifs with hzero
          · simp [not_failsWith_pure]
          · rw [failsWith_bind_left fun order => raises_pure (some order)]
            simp

/-- **The buys** fail so exactly when one that the loop comes to does. -/
theorem failsWith_placeBuys {covered : OrderCreationRequest → σ → Prop}
    (hplace : ∀ i request s, FailsWith IsUnexpected (place i request) s ↔ ¬ covered request s) :
    ∀ (entries : List DriftEntry) (remaining : Money) (i : ℕ) (s : σ), FailsWith IsUnexpected
        (RebalanceOrderService.placeBuys place customerId entries remaining i) s ↔
      ¬ BuysCovered place covered customerId entries remaining i s
  | [], remaining, i, s => by
    unfold RebalanceOrderService.placeBuys BuysCovered
    simp [not_failsWith_pure]
  | entry :: entries, remaining, i, s => by
    unfold RebalanceOrderService.placeBuys BuysCovered
    split_ifs with hnothing
    · simp [not_failsWith_pure, hnothing]
    · rw [failsWith_lift_bind (fails_sub _ _)]
      simp only [hnothing, false_or, not_forall, exists_prop]
      refine exists_congr fun buyNotional => and_congr_right fun _ => ?_
      change FailsWith IsUnexpected (RebalanceOrderService.placeBuy (place i) customerId entry
        (cappedNotional buyNotional remaining) >>= _) s ↔ _
      rw [failsWith_bind, failsWith_placeBuy, not_and_or]
      refine or_congr ?_ ?_
      · simp only [hplace, not_forall, exists_prop]
      · simp only [not_forall, exists_prop]
        refine exists_congr fun placed => exists_congr fun t => and_congr_right fun _ => ?_
        cases placed with
        | none =>
          simp only [remainingAfter, Except.ok.injEq, exists_eq_left']
          exact failsWith_placeBuys hplace entries remaining (i + 1) t
        | some order =>
          rw [failsWith_lift_bind (fails_sub _ _)]
          refine exists_congr fun rest => and_congr_right fun _ => ?_
          rw [failsWith_bind_left fun orders => raises_pure (order :: orders)]
          exact failsWith_placeBuys hplace entries rest (i + 1) t

theorem not_failsWith_placeSells (hsell : ∀ i request s, request.side = .sell →
      ¬ FailsWith IsUnexpected (place i request) s) :
    ∀ (entries : List DriftEntry) (i : ℕ) (s : σ), ¬ FailsWith IsUnexpected
      (RebalanceOrderService.placeSells place customerId entries i) s
  | [], _, _ => not_failsWith_pure
  | entry :: entries, i, s => by
    unfold RebalanceOrderService.placeSells
    split_ifs
    · intro hfails
      rcases failsWith_bind.mp hfails with hplace | ⟨order, t, -, hrest⟩
      · unfold RebalanceOrderService.placeSell at hplace
        rw [failsWith_lift_bind (fails_ofOption (by decide))] at hplace
        obtain ⟨securityId, -, hplace⟩ := hplace
        rw [failsWith_lift_bind (fails_ofOption (by decide))] at hplace
        obtain ⟨price, -, hplace⟩ := hplace
        rw [failsWith_lift_bind (fails_sub _ _)] at hplace
        obtain ⟨amount, -, hplace⟩ := hplace
        rw [failsWith_lift_bind (fails_quantityFor _ _)] at hplace
        obtain ⟨quantity, -, hplace⟩ := hplace
        exact hsell i _ s rfl hplace
      · rw [failsWith_bind_left fun orders => raises_pure (order :: orders)] at hrest
        exact not_failsWith_placeSells hsell entries (i + 1) t hrest
    · exact not_failsWith_placeSells hsell entries (i + 1) s

/-- Each buy that `generate_orders` comes to is covered in the state that it is placed in. -/
def OrdersCovered (place : ℕ → OrderCreationRequest → Transaction.Tx Error σ Order)
    (covered : OrderCreationRequest → σ → Prop) (investable : σ → Uuid → Except Error Money)
    (cashBufferPct : ℚ) (evaluation : DriftEvaluation) (s : σ) : Prop :=
  ∀ sells mid, (RebalanceOrderService.placeSells place evaluation.customerId (securityFlags evaluation)
      0).run s = .ok (sells, mid) →
    ∀ buffer cash available, evaluation.totalValue.scale cashBufferPct = .ok buffer →
      investable mid evaluation.customerId = .ok cash → cash.sub buffer = .ok available →
      ¬ available ≤ 0 → BuysCovered place covered evaluation.customerId
        ((securityFlags evaluation).filter (·.direction = .buy)) available
        (securityFlags evaluation).length mid

/-- **The orders of a rebalance** fail so exactly when a buy that it comes to is not covered. -/
theorem failsWith_generateOrders {covered : OrderCreationRequest → σ → Prop}
    {investable : σ → Uuid → Except Error Money} {cashBufferPct : ℚ} {evaluation : DriftEvaluation}
    {s : σ} (hplace : ∀ i request s, FailsWith IsUnexpected (place i request) s ↔ ¬ covered request s)
    (hsell : ∀ request s, request.side = .sell → covered request s)
    (hinvestable : ∀ s customerId, Fails NotUnexpected (investable s customerId)) :
    FailsWith IsUnexpected (RebalanceOrderService.generateOrders place investable cashBufferPct
      evaluation) s ↔ ¬ OrdersCovered place covered investable cashBufferPct evaluation s := by
  unfold RebalanceOrderService.generateOrders OrdersCovered
  rw [failsWith_bind, or_iff_right (not_failsWith_placeSells (fun i request s hside hfails =>
    (hplace i request s).mp hfails (hsell request s hside)) _ _ _)]
  simp only [not_forall, exists_prop]
  refine exists_congr fun sells => exists_congr fun mid => and_congr_right fun _ => ?_
  cases hbuys : (securityFlags evaluation).filter (·.direction = .buy) with
  | nil => simp [not_failsWith_pure, BuysCovered]
  | cons buy buys =>
    simp only [List.isEmpty_cons, Bool.false_eq_true, if_false]
    rw [failsWith_lift_bind (show Fails NotUnexpected (evaluation.totalValue.scale cashBufferPct) from
      fails_decimal _)]
    refine exists_congr fun buffer => ?_
    rw [failsWith_read_bind (f := fun s => investable s evaluation.customerId)
      (hinvestable mid evaluation.customerId)]
    constructor
    · rintro ⟨hbuffer, cash, hcash, hfails⟩
      rw [failsWith_lift_bind (fails_sub _ _)] at hfails
      obtain ⟨available, havailable, hfails⟩ := hfails
      split_ifs at hfails with hnone
      · exact absurd hfails not_failsWith_pure
      · rw [failsWith_bind_left fun buys => raises_pure (sells ++ buys),
          failsWith_placeBuys hplace] at hfails
        exact ⟨cash, available, hbuffer, hcash, havailable, hnone, hfails⟩
    · rintro ⟨cash, available, hbuffer, hcash, havailable, hnone, hcovered⟩
      refine ⟨hbuffer, cash, hcash, ?_⟩
      rw [failsWith_lift_bind (fails_sub _ _)]
      refine ⟨available, havailable, ?_⟩
      rw [if_neg hnone, failsWith_bind_left fun buys => raises_pure (sells ++ buys),
        failsWith_placeBuys hplace]
      exact hcovered

end Loops

/-! ### The executors -/

/-- Each buy that the rebalance of a customer comes to is covered. -/
def RebalanceCovered (settings : Settings) (customerId : Uuid) (tables : RebalanceTables) : Prop :=
  ∀ asOfDate evaluation,
    (tables.db.marketClock (settings.readings 0)).marketDate
      ((settings.readings 0).now .effectiveDate) = .ok asOfDate →
    evaluate settings.driftBandPct tables customerId asOfDate = .ok evaluation →
    OrdersCovered (fun i => place (settings.readings i)) Covered (fun tables => investable tables.db)
      settings.cashBufferPct evaluation tables

theorem failsWith_realOrders {settings : Settings} {evaluation : DriftEvaluation}
    {tables : RebalanceTables} : FailsWith IsUnexpected
      (RebalanceOrderService.generateOrders (fun i => place (settings.readings i))
        (fun tables => investable tables.db) settings.cashBufferPct evaluation) tables ↔
      ¬ OrdersCovered (fun i => place (settings.readings i)) Covered
        (fun tables => investable tables.db) settings.cashBufferPct evaluation tables := by
  apply failsWith_generateOrders
  · intro i request s
    exact failsWith_place
  · intro request s hsell hbuy
    rw [hsell] at hbuy
    cases hbuy
  · intro s customerId
    exact fails_investable s.db customerId

theorem failsWith_placeRebalance {settings : Settings} {customerId : Uuid} {tables : RebalanceTables} :
    FailsWith IsUnexpected (placeRebalance settings customerId) tables ↔
      ¬ RebalanceCovered settings customerId tables := by
  unfold placeRebalance RebalanceCovered
  rw [failsWith_read_bind (f := fun tables : RebalanceTables =>
    (tables.db.marketClock (settings.readings 0)).marketDate
      ((settings.readings 0).now .effectiveDate)) (fails_marketDate _ _)]
  simp only [not_forall, exists_prop]
  refine exists_congr fun asOfDate => ?_
  rw [failsWith_read_bind (f := fun tables => evaluate settings.driftBandPct tables customerId asOfDate)
    (fails_evaluate _ _ _ _)]
  constructor
  · rintro ⟨hdate, evaluation, hevaluation, hfails⟩
    rw [failsWith_bind_left fun _ => raises_pure ()] at hfails
    exact ⟨evaluation, hdate, hevaluation, failsWith_realOrders.mp hfails⟩
  · rintro ⟨evaluation, hdate, hevaluation, hcovered⟩
    refine ⟨hdate, evaluation, hevaluation, ?_⟩
    rw [failsWith_bind_left fun _ => raises_pure ()]
    exact failsWith_realOrders.mpr hcovered

/-- What the action is about is there, and each buy that it comes to is covered. -/
def Executable (settings : Settings) (tables : ActionTables) : AgentAction → Prop
  | .resolveBreak breakId _ => tables.reconciliationBreaks.Has breakId
  | .kycOverride customerId => tables.rebalance.db.customers.Has customerId
  | .rebalance customerId => tables.rebalance.db.customers.Has customerId ∧
      RebalanceCovered settings customerId tables.rebalance

/-- **An executor** fails so exactly when its action is not executable. -/
theorem failsWith_execute {settings : Settings} {review : Review} {action : AgentAction}
    {tables : ActionTables} : FailsWith IsUnexpected (execute settings review action) tables ↔
      ¬ Executable settings tables action := by
  have hmissing : ∀ missing, IsUnexpected (.executionFailed missing) := fun _ => ⟨rfl, rfl⟩
  cases action with
  | resolveBreak breakId resolutionNote =>
    have hresolve : ∀ row : BreakRow, Raises (¬ IsUnexpected ·) (row.resolve review resolutionNote) :=
      fun row => raises_bind (raises_lift (fails_check (by decide))) fun _ => raises_update _
    unfold execute executeResolveBreak Executable
    rw [failsWith_bind_left hresolve, failsWith_ofOption, Table.find_eq_none]
    exact and_iff_left (hmissing _)
  | kycOverride customerId =>
    unfold execute executeKycOverride Executable
    rw [failsWith_bind_left fun _ => raises_update _, failsWith_ofOption, Table.find_eq_none]
    exact and_iff_left (hmissing _)
  | rebalance customerId =>
    unfold execute executeRebalance Executable
    rw [failsWith_bind, failsWith_ofOption, Table.find_eq_none]
    constructor
    · rintro (⟨hnone, -⟩ | ⟨customer, t, hread, hfails⟩) ⟨hcustomer, hcovered⟩
      · exact hnone hcustomer
      · obtain ⟨-, rfl⟩ := read_ok.mp hread
        exact failsWith_placeRebalance.mp (failsWith_focus.mp hfails) hcovered
    · intro hnot
      by_cases hcustomer : tables.rebalance.db.customers.Has customerId
      · obtain ⟨customer, hfind⟩ :=
          Option.ne_none_iff_exists'.mp fun hnone => Table.find_eq_none.mp hnone hcustomer
        refine Or.inr ⟨customer, tables, read_ok.mpr ⟨ofOption_ok.mpr hfind, rfl⟩, ?_⟩
        exact failsWith_focus.mpr (failsWith_placeRebalance.mpr fun h => hnot ⟨hcustomer, h⟩)
      · exact Or.inl ⟨hcustomer, hmissing _⟩

/-! ### The approval -/

/-- Every failure of the domain is recorded: the approval returns, and so commits the request as
failed with the error, the audit record, and nothing else. -/
def RecordsFailures (settings : Settings) (review : Review) (surface : AgentSurface)
    (row : AgentActionRequest) : Prop :=
  ∀ e, (execute settings review row.action).run surface.tables = .error e → isDomainFailure e = true →
    (approve settings row.id review).run surface = .ok ((row.approved review).markedFailed e,
      surface.recorded surface.tables ((row.approved review).markedFailed e) (auditRecord review row))

/-- **When the failures of an action are recorded.** -/
theorem records_failures_iff {settings : Settings} {review : Review} {surface : AgentSurface}
    {row : AgentActionRequest} (hfind : surface.agentActionRequests.find row.id = some row)
    (hpending : row.status = .pending) : RecordsFailures settings review surface row ↔
      Executable settings surface.tables row.action := by
  have hrun := @approve_run settings review surface row hfind hpending
  constructor
  · intro hrecords
    by_contra hnot
    obtain ⟨e, ⟨hdomain, hunexpected⟩, herror⟩ := failsWith_execute.mpr hnot
    have hok := hrecords e herror hdomain
    rw [hrun, herror] at hok
    simp [hunexpected] at hok
  · intro hexecutable e herror hdomain
    have hexpected : isExpectedExecutionError e = true := by
      by_contra hunexpected
      exact failsWith_execute.mp ⟨e, ⟨hdomain, by simpa using hunexpected⟩, herror⟩ hexecutable
    rw [hrun, herror]
    exact if_pos hexpected

/-- The settings by default, with the readings of the first day. -/
def defaultSettings : Settings := ⟨5 / 100, 1 / 100, fun i => envAt 6 (6 + i)⟩

/-- The review of staff 9, without a note. -/
def plainReview : Review := ⟨9, 6, none, none, "e3b0c442", 6⟩

/-- A pending request. -/
def requestOf (action : AgentAction) : AgentActionRequest :=
  ⟨1, action, "agent", "as proposed", .pending, none, none, none, none, none, 5⟩

/-- Customer 1, who has deposited 10.15, is on a model of one security, at 600000 a share; break 1
has been resolved. -/
def surfaceWith (row : AgentActionRequest) : AgentSurface where
  tables := {
    rebalance := {
      db := { System.run [⟨envAt 1 1, .initiateDeposit 1 ⟨101500, by decide⟩⟩,
        ⟨envAt 2 2, .confirmSettlement 1⟩] (openedAccount 1) with
          dailyCloses := [⟨7, 0, dollarsPerShare 600000, .confirmed, 3⟩]
          securities := ⟨[⟨7, "BRK.A"⟩], by decide⟩ }
      customerModelAssignments := ⟨[⟨1, 1⟩], by decide⟩
      targetWeights := ⟨[⟨1, 7, ⟨10000, by decide⟩⟩], by simp⟩
      submissions := ∅ }
    reconciliationBreaks := ⟨[⟨1, ⟨.cashMismatch, some 1, none, none, 3, 1, .resolved⟩, some 4, some 9,
      some "posted"⟩], by simp⟩ }
  agentActionRequests := ⟨[row], by simp⟩
  adminAuditLog := []

/-- The break has been resolved in the meantime. -/
theorem records_failures_iff_resolved : RecordsFailures defaultSettings plainReview
    (surfaceWith (requestOf (.resolveBreak 1 "posted"))) (requestOf (.resolveBreak 1 "posted")) :=
  (records_failures_iff (by decide) rfl).mpr (show (1 : Uuid) ∈ [1] from by decide)

/-- The body raises a failure of the domain. -/
def failsInDomain (x : ActionTx Unit) (tables : ActionTables) : Bool :=
  match x.run tables with
  | .error e => isDomainFailure e
  | .ok _ => false

/-- **Failures without a record.** A request about a break or a customer that is not there, and a
rebalance whose one buy rounds to a notional of 10.20, leave by the rollback: the request stays
pending. -/
theorem failures_lost : [AgentAction.resolveBreak 2 "posted", .kycOverride 2, .rebalance 2,
      .rebalance 1].Forall fun action =>
    failsInDomain (execute defaultSettings plainReview action) (surfaceWith (requestOf action)).tables =
        true ∧
      (atomically (approve defaultSettings 1 plainReview)
        (surfaceWith (requestOf action))).agentActionRequests.rows = [requestOf action] := by
  decide +kernel

end Trueup.Admin
