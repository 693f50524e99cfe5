import Trueup.Rebalance.CashBuffer
import Trueup.Rebalance.Partition

/-! # The sells of a rebalance and what is held

The quantity of a sell is not read from the ledger: it is the drift of the security, its rounded
market value less its target, divided by the price and rounded again. Nothing checks it against the
holding, nor passes a quantity of zero over, as `_place_buy` does. It is a quantity that is held
exactly when the drift, in millionths of a share, rounds to one (`SellExecutable`).

* `sellExecutable_of_le`: with a target, and from a hundred dollars a share, only dust cannot be
  sold.
* `placeSells_requests`: what the placer is asked for.
* `sells_executable_iff`: the sells of a rebalance are executable exactly when each drift is. -/

namespace Trueup.Rebalance

open Trueup.Core Trueup.Models Trueup.Lib Trueup.Lib.Rounding Trueup.Lib.Transaction Trueup.Ledger
open Trueup.Orders Trueup.Valuation Trueup.Cash

/-! ### What can be sold -/

/-- The drift of a holding over its target, in millionths of a share. -/
def drift (price : Price) (units target : ℤ) : ℚ :=
  ((worth price units - target : ℤ) : ℚ) * 10 ^ 8 / price.quanta

/-- The drift is more than half a millionth of a share, and more than what is held by no more than
the half that is rounded down. -/
def SellExecutable (price : Price) (units target : ℤ) : Prop :=
  1 / 2 < drift price units target ∧
    (drift price units target < units + 1 / 2 ∨
      drift price units target = units + 1 / 2 ∧ units % 2 = 0)

instance (price : Price) (units target : ℤ) : Decidable (SellExecutable price units target) :=
  inferInstanceAs (Decidable (_ ∧ (_ ∨ _ ∧ _)))

theorem sellExecutable_iff {price : Price} {units target : ℤ} :
    SellExecutable price units target ↔ 0 < microshares price (worth price units - target) ∧
      microshares price (worth price units - target) ≤ units := by
  have hpos : 0 < microshares price (worth price units - target) ↔
      1 / 2 < drift price units target := by
    have h := @roundHalfEven_le_iff 0 (drift price units target)
    rw [Int.cast_zero, zero_add] at h
    rw [← not_le, ← not_le, not_iff_not]
    refine h.trans ?_
    rw [le_iff_lt_or_eq]
    simp
  have hheld : microshares price (worth price units - target) ≤ units ↔
      (drift price units target < units + 1 / 2 ∨
        drift price units target = units + 1 / 2 ∧ units % 2 = 0) := roundHalfEven_le_iff
  rw [SellExecutable, hpos, hheld]

section Prices
variable {price : Price} {units target : ℤ}

/-- What is worth a quantum less than the holding is not more than it. -/
theorem drift_lt_of_target (hprice : 0 < price) (htarget : 0 < target) :
    drift price units target < units := by
  have hp : (0 : ℚ) < price.quanta := by exact_mod_cast QuantizedDecimal.lt_def.mp hprice
  have ht : (1 : ℚ) ≤ target := by exact_mod_cast htarget
  have hnear := (abs_le.mp (abs_sub_roundHalfEven (((price.quanta * units : ℤ) : ℚ) / 10 ^ 8))).2
  rw [drift, div_lt_iff₀ hp]
  unfold worth
  push_cast at hnear ⊢
  linarith

/-- From a hundred dollars a share the market value tells the quantity. -/
theorem microshares_worth (hprice : 10 ^ 8 ≤ price.quanta) :
    microshares price (worth price units) = units := by
  have hp : (10 : ℚ) ^ 8 ≤ price.quanta := by exact_mod_cast hprice
  have hpos : (0 : ℚ) < price.quanta := lt_of_lt_of_le (by norm_num) hp
  have hback := roundHalfEven_there_and_back (r := 10 ^ 8 / (price.quanta : ℚ)) (by positivity)
    ((div_le_one hpos).mpr hp) units
  have hvalue : (units : ℚ) / (10 ^ 8 / price.quanta) = ((price.quanta * units : ℤ) : ℚ) / 10 ^ 8 := by
    push_cast
    rw [div_div_eq_mul_div, mul_comm]
  rw [hvalue] at hback
  rw [microshares, mul_div_assoc]
  exact hback

/-- **With a target, and from a hundred dollars a share**, only dust cannot be sold. -/
theorem sellExecutable_of_le (hprice : 0 < price)
    (hsafe : 0 < target ∨ 0 ≤ target ∧ 10 ^ 8 ≤ price.quanta)
    (hdust : 1 / 2 < drift price units target) : SellExecutable price units target := by
  rcases hsafe with htarget | ⟨htarget, hhundred⟩
  · have hlt := @drift_lt_of_target price units target hprice htarget
    exact ⟨hdust, Or.inl (by linarith)⟩
  · have hp : (0 : ℚ) < price.quanta := by exact_mod_cast QuantizedDecimal.lt_def.mp hprice
    have hmono : microshares price (worth price units - target) ≤
        microshares price (worth price units) := by
      refine roundHalfEven_mono (div_le_div_of_nonneg_right ?_ hp.le)
      have ht : (0 : ℚ) ≤ target := by exact_mod_cast htarget
      push_cast
      linarith
    rw [microshares_worth hhundred] at hmono
    exact ⟨hdust, roundHalfEven_le_iff.mp hmono⟩

end Prices

/-! ### What the placer is asked for -/

/-- The request for the sell of an entry. -/
structure SellOf (entry : DriftEntry) (request : OrderCreationRequest) : Prop where
  side : request.side = .sell
  securityId : entry.securityId = some request.securityId
  price : entry.price = some request.referencePrice
  quantity : request.quantity.quanta = microshares request.referencePrice
    (entry.currentMarketValue.quanta - entry.targetMarketValue.quanta)

section Loop
variable {customerId : Uuid}

/-- **The loop over the sells** asks for each entry that is to be sold. -/
theorem placeSells_requests : ∀ {entries : List DriftEntry} {i : ℕ} {s t : List OrderCreationRequest}
    {orders : List Order}, (RebalanceOrderService.placeSells recordOrder customerId entries i).run s =
      .ok (orders, t) →
      ∃ requests, t = s ++ requests ∧
        List.Forall₂ SellOf (entries.filter (·.direction = .sell)) requests
  | [], i, s, t, orders, h => by
    obtain ⟨-, rfl⟩ := pure_ok.mp h
    exact ⟨[], by simp, .nil⟩
  | entry :: entries, i, s, t, orders, h => by
    unfold RebalanceOrderService.placeSells at h
    split_ifs at h with hsell
    · simp only [bind_ok, RebalanceOrderService.placeSell, lift_ok, ofOption_ok] at h
      obtain ⟨order, mid, ⟨securityId, _, ⟨hsecurity, rfl⟩, price, _, ⟨hprice, rfl⟩, amount, _,
        ⟨hamount, rfl⟩, quantity, _, ⟨hquantity, rfl⟩, hplace⟩, _, _, hrest, h⟩ := h
      obtain ⟨-, rfl⟩ := pure_ok.mp h
      obtain ⟨requests, rfl, hall⟩ := placeSells_requests hrest
      obtain rfl := recordOrder_ok hplace
      refine ⟨_ :: requests, (List.append_cons _ _ _).symm, ?_⟩
      rw [List.filter_cons_of_pos (by simpa using hsell)]
      refine .cons ⟨rfl, hsecurity, hprice, ?_⟩ hall
      rw [(quantityFor_ok.mp hquantity).2, Money.sub_ok.mp hamount]
    · obtain ⟨requests, ht, hall⟩ := placeSells_requests h
      refine ⟨requests, ht, ?_⟩
      rw [List.filter_cons_of_neg (by simpa using hsell)]
      exact hall

theorem placeBuys_requests : ∀ {entries : List DriftEntry} {remaining : Money} {i : ℕ}
    {s t : List OrderCreationRequest} {orders : List Order},
    (RebalanceOrderService.placeBuys recordOrder customerId entries remaining i).run s =
      .ok (orders, t) → t.filter (·.side = .sell) = s.filter (·.side = .sell)
  | [], remaining, i, s, t, orders, h => by
    obtain ⟨-, rfl⟩ := pure_ok.mp h
    rfl
  | entry :: entries, remaining, i, s, t, orders, h => by
    unfold RebalanceOrderService.placeBuys at h
    split_ifs at h with hnone
    · obtain ⟨-, rfl⟩ := pure_ok.mp h
      rfl
    simp only [bind_ok, lift_ok] at h
    obtain ⟨buyNotional, _, ⟨-, rfl⟩, placed, mid, hplace, h⟩ := h
    obtain ⟨price, -, hcases⟩ := placeBuy_ok hplace
    rcases hcases with ⟨-, rfl, rfl⟩ | ⟨-, request, order, -, hside, -, -, rfl, hrun⟩
    · exact placeBuys_requests h
    · simp only [bind_ok, lift_ok] at h
      obtain ⟨rest, _, ⟨-, rfl⟩, others, _, hothers, h⟩ := h
      obtain ⟨-, rfl⟩ := pure_ok.mp h
      rw [placeBuys_requests hothers, recordOrder_ok hrun, List.filter_append]
      simp [hside]

end Loop

/-- The sells that are placed are those of the flagged entries. -/
theorem generateOrders_sells {investable : List OrderCreationRequest → Uuid → Except Error Money}
    {cashBufferPct : ℚ} {evaluation : DriftEvaluation} {orders : List Order}
    {placed : List OrderCreationRequest}
    (h : (RebalanceOrderService.generateOrders recordOrder investable cashBufferPct evaluation).run [] =
      .ok (orders, placed)) :
    List.Forall₂ SellOf ((securityFlags evaluation).filter (·.direction = .sell))
      (placed.filter (·.side = .sell)) := by
  unfold RebalanceOrderService.generateOrders at h
  rw [bind_ok] at h
  obtain ⟨sells, mid, hsells, h⟩ := h
  obtain ⟨requests, hmid, hall⟩ := placeSells_requests hsells
  rw [List.nil_append] at hmid
  subst hmid
  have hkept : mid.filter (·.side = .sell) = mid := by
    refine List.filter_eq_self.mpr fun request hrequest => ?_
    obtain ⟨entry, -, hof⟩ := exists_of_forall₂ hall hrequest
    exact decide_eq_true hof.side
  suffices hsame : placed.filter (·.side = .sell) = mid.filter (·.side = .sell) by
    rw [hsame, hkept]
    exact hall
  dsimp only at h
  split_ifs at h with hempty
  · obtain ⟨-, rfl⟩ := pure_ok.mp h
    rfl
  simp only [bind_ok, lift_ok, read_ok] at h
  obtain ⟨buffer, _, ⟨-, rfl⟩, cash, _, ⟨-, rfl⟩, available, _, ⟨-, rfl⟩, h⟩ := h
  split_ifs at h with hnone
  · obtain ⟨-, rfl⟩ := pure_ok.mp h
    rfl
  rw [bind_ok] at h
  obtain ⟨buys, _, hbuys, h⟩ := h
  obtain ⟨-, rfl⟩ := pure_ok.mp h
  exact placeBuys_requests hbuys

/-! ### The sells of an evaluation -/

section Evaluation
variable {driftBandPct : ℚ} {tables : RebalanceTables} {customerId : Uuid} {asOfDate : Date}
  {evaluation : DriftEvaluation}

/-- What is sold of a security is a quantity of it that is held. -/
def Executable (tables : RebalanceTables) (customerId : Uuid) (asOfDate : Date)
    (request : OrderCreationRequest) : Prop :=
  0 < request.quantity.quanta ∧
    request.quantity.quanta ≤ ledgerUnits tables.db customerId asOfDate request.securityId

instance (tables : RebalanceTables) (customerId : Uuid) (asOfDate : Date)
    (request : OrderCreationRequest) : Decidable (Executable tables customerId asOfDate request) :=
  inferInstanceAs (Decidable (_ ∧ _))

theorem executable_iff (h : evaluate driftBandPct tables customerId asOfDate = .ok evaluation)
    {entry : DriftEntry} (hentry : entry ∈ evaluation.entries) {request : OrderCreationRequest}
    (hof : SellOf entry request) : Executable tables customerId asOfDate request ↔
      SellExecutable request.referencePrice
        (ledgerUnits tables.db customerId asOfDate request.securityId)
        entry.targetMarketValue.quanta := by
  obtain ⟨close, -, hprice, hworth⟩ := evaluate_entry h hentry hof.securityId
  have hclose : close.closePrice = request.referencePrice :=
    Option.some.inj (hprice.symm.trans hof.price)
  rw [hclose] at hworth
  rw [sellExecutable_iff, ← hworth, ← hof.quantity]
  exact Iff.rfl

/-- **The sells of a rebalance are executable** exactly when the drift of each flagged entry that is
to be sold is. -/
theorem sells_executable_iff
    (h : evaluate driftBandPct tables customerId asOfDate = .ok evaluation)
    {investable : List OrderCreationRequest → Uuid → Except Error Money} {cashBufferPct : ℚ}
    {orders : List Order} {placed : List OrderCreationRequest}
    (hplaced : (RebalanceOrderService.generateOrders recordOrder investable cashBufferPct
      evaluation).run [] = .ok (orders, placed)) :
    (∀ request ∈ placed, request.side = .sell → Executable tables customerId asOfDate request) ↔
      ∀ entry ∈ securityFlags evaluation, entry.direction = .sell → ∀ s ∈ entry.securityId,
        ∀ price ∈ entry.price,
          SellExecutable price (ledgerUnits tables.db customerId asOfDate s)
            entry.targetMarketValue.quanta := by
  have hall := generateOrders_sells hplaced
  have hlisted : ∀ entry ∈ (securityFlags evaluation).filter (·.direction = .sell),
      entry ∈ evaluation.entries := fun entry hentry =>
    List.mem_of_mem_filter (List.mem_of_mem_filter (List.mem_of_mem_filter hentry))
  constructor
  · intro hexecutable entry hentry hsell s hs price hprice
    have hmem : entry ∈ (securityFlags evaluation).filter (·.direction = .sell) :=
      List.mem_filter.mpr ⟨hentry, decide_eq_true hsell⟩
    obtain ⟨request, hrequest, hof⟩ := exists_of_forall₂ hall.flip hmem
    obtain ⟨hplacedMem, hside⟩ := List.mem_filter.mp hrequest
    obtain rfl : request.securityId = s := Option.some.inj (hof.securityId.symm.trans hs)
    obtain rfl : request.referencePrice = price := Option.some.inj (hof.price.symm.trans hprice)
    exact (executable_iff h (hlisted entry hmem) hof).mp
      (hexecutable request hplacedMem (of_decide_eq_true hside))
  · intro hdrifts request hrequest hside
    obtain ⟨entry, hmem, hof⟩ := exists_of_forall₂ hall
      (List.mem_filter.mpr ⟨hrequest, decide_eq_true hside⟩)
    obtain ⟨hentry, hsell⟩ := List.mem_filter.mp hmem
    refine (executable_iff h (hlisted entry hmem) hof).mpr ?_
    exact hdrifts entry hentry (of_decide_eq_true hsell) _ hof.securityId _ hof.price

end Evaluation

/-! ### Ten shares that the model does not have -/

/-- The sells that a rebalance of tables comes to, without cash to buy. -/
def requestsOf (tables : RebalanceTables) : Except Error (List OrderCreationRequest) := do
  let evaluation ← evaluate (5 / 100) tables 1 6
  let placed ← (RebalanceOrderService.generateOrders recordOrder (fun _ _ => .ok 0) 0 evaluation).run []
  return placed.2

theorem requestsOf_ok {tables : RebalanceTables} {placed : List OrderCreationRequest}
    (h : requestsOf tables = .ok placed) :
    ∃ evaluation orders, evaluate (5 / 100) tables 1 6 = .ok evaluation ∧
      (RebalanceOrderService.generateOrders recordOrder (fun _ _ => .ok 0) 0 evaluation).run [] =
        .ok (orders, placed) := by
  obtain ⟨evaluation, hevaluation, h⟩ := except_bind_ok.mp h
  obtain ⟨⟨orders, placed'⟩, hplaced, h⟩ := except_bind_ok.mp h
  cases h
  exact ⟨evaluation, orders, hevaluation, hplaced⟩

/-- At 100 a share the ten shares are sold. -/
theorem sells_executable_iff_ten : ∃ placed, requestsOf investedTables = .ok placed ∧
    ∀ request ∈ placed, request.side = .sell → Executable investedTables 1 6 request := by
  have hrun : (requestsOf investedTables).isOk := by decide +kernel
  obtain ⟨placed, hplaced⟩ := exists_ok_of_isOk hrun
  obtain ⟨evaluation, orders, hevaluation, horders⟩ := requestsOf_ok hplaced
  refine ⟨placed, hplaced, (sells_executable_iff hevaluation horders).mpr ?_⟩
  have hdrifts : ∀ e ∈ (evaluate (5 / 100) investedTables 1 6).toOption,
      ∀ entry ∈ securityFlags e, entry.direction = .sell → ∀ s ∈ entry.securityId,
        ∀ price ∈ entry.price, SellExecutable price (ledgerUnits investedTables.db 1 6 s)
          entry.targetMarketValue.quanta := by
    decide +kernel
  exact hdrifts evaluation (by rw [hevaluation]; rfl)

/-- The ten shares at a close of 1.000006, in a model that does not have them. -/
def cheapTables : RebalanceTables := modelOf investedAccount threeFifths
  [⟨7, 6, ⟨1000006, by decide⟩, .confirmed, 3⟩, ⟨8, 6, dollarsPerShare 50, .confirmed, 3⟩]

/-- Their value of 10.00006 is rounded up to 10.0001, for which 10.00004 shares are sold. -/
theorem sell_more_than_held : ¬ ∀ (driftBandPct : ℚ) (tables : RebalanceTables) (customerId : Uuid)
    (asOfDate : Date) (evaluation : DriftEvaluation)
    (investable : List OrderCreationRequest → Uuid → Except Error Money) (cashBufferPct : ℚ)
    (orders : List Order) (placed : List OrderCreationRequest),
      evaluate driftBandPct tables customerId asOfDate = .ok evaluation →
      (RebalanceOrderService.generateOrders recordOrder investable cashBufferPct evaluation).run [] =
        .ok (orders, placed) →
      ∀ request ∈ placed, request.side = .sell → Executable tables customerId asOfDate request := by
  intro h
  have hrun : (requestsOf cheapTables).isOk := by decide +kernel
  obtain ⟨placed, hplaced⟩ := exists_ok_of_isOk hrun
  obtain ⟨evaluation, orders, hevaluation, horders⟩ := requestsOf_ok hplaced
  have hmore : ∀ p ∈ (requestsOf cheapTables).toOption, ∃ request ∈ p, request.side = .sell ∧
      ¬ Executable cheapTables 1 6 request := by
    decide +kernel
  obtain ⟨request, hrequest, hsell, hnot⟩ := hmore placed (by rw [hplaced]; rfl)
  exact hnot (h _ _ _ _ _ _ _ _ _ hevaluation horders request hrequest hsell)

end Trueup.Rebalance
