import Trueup.Admin.ExecutionFailures
import Trueup.Cash.Investable

/-! # The buys of a rebalance and the cash buffer

The loop over the buys takes each intended notional off what remains of the available cash, but the
order that is placed costs what its quantity costs, and that is rounded half-even to a millionth of
a share, up as well as down (`roundingCost`). What the orders cost together therefore stays within
the available cash exactly when the roundings cost no more than the intended notionals leave
(`RoundingsFit`).

* `intendedBuys_le`: the intended notionals stay within the available cash.
* `roundingCost_pos_iff`, `roundingCost_le`: which buys cost more than was intended, and how much more
  at most; `roundingCost_of_le`: up to a hundred dollars a share the rounding costs nothing.
* `roundingsFit_of_buys`, `roundingsFit_of_prices`: when the roundings fit, buy by buy and by the prices.
* `placeBuys_recorded`: what the placer is asked for; `buysCovered_of_fit`: what the order service
  is.
* `buys_within_iff`: the orders stay within the available cash exactly when the roundings fit, and
  then the order service refuses none of them. -/

namespace Trueup.Rebalance

open Trueup.Core Trueup.Models Trueup.Lib Trueup.Lib.Rounding Trueup.Lib.Transaction Trueup.Ledger
open Trueup.Orders Trueup.Cash Trueup.Admin

/-! ### What the roundings cost -/

/-- The quantity for some quanta of money, in millionths of a share. -/
def microshares (price : Price) (n : ℤ) : ℤ := roundHalfEven ((n : ℚ) * 10 ^ 8 / price.quanta)

/-- What the rounding of the quantity adds to the cost of a buy. -/
def roundingCost (price : Price) (n : ℤ) : ℤ :=
  roundHalfEven (((price.quanta * microshares price n : ℤ) : ℚ) / 10 ^ 8) - n

/-- The buys that the loop comes to, each with its price and its intended notional: what is missing
of the target, capped by what remains. Too little for a millionth of a share is passed over. -/
def intendedBuys : List DriftEntry → ℤ → List (Price × ℤ)
  | [], _ => []
  | entry :: entries, remaining =>
    if remaining ≤ 0 then []
    else
      let n := min (entry.targetMarketValue.quanta - entry.currentMarketValue.quanta) remaining
      match entry.price with
      | none => intendedBuys entries remaining
      | some price =>
        if n ≤ 0 ∨ microshares price n = 0 then intendedBuys entries remaining
        else (price, n) :: intendedBuys entries (remaining - n)

/-- What the intended buys cost once their quantities are rounded. -/
def costs (buys : List (Price × ℤ)) : ℤ := (buys.map fun buy => buy.2 + roundingCost buy.1 buy.2).sum

/-- The buffer, in quanta. -/
def bufferQuanta (totalValue : Money) (cashBufferPct : ℚ) : ℤ :=
  roundHalfEven (context (totalValue.value * cashBufferPct) * 10 ^ 4)

/-- What is available for buys: nothing when the buffer takes it all. -/
def availableQuanta (cash : Money) (evaluation : DriftEvaluation) (cashBufferPct : ℚ) : ℤ :=
  max 0 (cash.quanta - bufferQuanta evaluation.totalValue cashBufferPct)

/-- The buys that `generate_orders` comes to. -/
def intendedOf (cash : Money) (evaluation : DriftEvaluation) (cashBufferPct : ℚ) : List (Price × ℤ) :=
  intendedBuys ((securityFlags evaluation).filter (·.direction = .buy))
    (availableQuanta cash evaluation cashBufferPct)

/-- The roundings of the quantities cost no more than the intended notionals leave available. -/
def RoundingsFit (cash : Money) (evaluation : DriftEvaluation) (cashBufferPct : ℚ) : Prop :=
  ((intendedOf cash evaluation cashBufferPct).map fun buy => roundingCost buy.1 buy.2).sum ≤
    availableQuanta cash evaluation cashBufferPct -
      ((intendedOf cash evaluation cashBufferPct).map Prod.snd).sum

theorem roundingsFit_iff {cash : Money} {evaluation : DriftEvaluation} {cashBufferPct : ℚ} :
    RoundingsFit cash evaluation cashBufferPct ↔
      costs (intendedOf cash evaluation cashBufferPct) ≤
        availableQuanta cash evaluation cashBufferPct := by
  have hsum : costs (intendedOf cash evaluation cashBufferPct) =
      ((intendedOf cash evaluation cashBufferPct).map Prod.snd).sum +
        ((intendedOf cash evaluation cashBufferPct).map fun buy => roundingCost buy.1 buy.2).sum :=
    List.sum_map_add
  rw [RoundingsFit, hsum]
  omega

theorem intendedBuys_le : ∀ (entries : List DriftEntry) {remaining : ℤ}, 0 ≤ remaining →
    ((intendedBuys entries remaining).map Prod.snd).sum ≤ remaining
  | [], remaining, h => by simpa [intendedBuys] using h
  | entry :: entries, remaining, h => by
    unfold intendedBuys
    split_ifs with hnone
    · simpa using h
    · dsimp only
      cases entry.price with
      | none => exact intendedBuys_le entries h
      | some price =>
        dsimp only
        split_ifs with hidle
        · exact intendedBuys_le entries h
        · rw [List.map_cons, List.sum_cons]
          have := @intendedBuys_le entries (remaining -
            min (entry.targetMarketValue.quanta - entry.currentMarketValue.quanta) remaining)
            (by omega)
          omega

/-- **Up to a hundred dollars a share** the rounding of the quantity costs nothing. -/
theorem roundingCost_of_le {price : Price} (hpos : 0 < price.quanta) (hle : price.quanta ≤ 10 ^ 8)
    (n : ℤ) : roundingCost price n = 0 := by
  have hp : (0 : ℚ) < price.quanta := by exact_mod_cast hpos
  have hp' : (price.quanta : ℚ) ≤ 10 ^ 8 := by exact_mod_cast hle
  have hback := roundHalfEven_there_and_back (r := (price.quanta : ℚ) / 10 ^ 8) (by positivity)
    (by rw [div_le_one (by norm_num)]; exact hp') n
  have hquotient : (n : ℚ) / (price.quanta / 10 ^ 8) = n * 10 ^ 8 / price.quanta := by
    rw [div_div_eq_mul_div]
  have hproduct : ((price.quanta * microshares price n : ℤ) : ℚ) / 10 ^ 8 =
      (microshares price n : ℚ) * (price.quanta / 10 ^ 8) := by
    push_cast
    ring
  rw [roundingCost, hproduct, microshares, ← hquotient, hback, sub_self]

/-! ### A buy that is rounded up -/

/-- What whole millionths of a share leave of a notional, in `10 ^ -8` quanta. -/
def unspent (price : Price) (n : ℤ) : ℤ := n * 10 ^ 8 % price.quanta

/-- The quantity is rounded up: the notional leaves more than half of the price of a millionth of a
share, or exactly half and the millionths are odd. -/
def RoundsUp (price : Price) (n : ℤ) : Prop :=
  price.quanta < 2 * unspent price n ∨
    price.quanta = 2 * unspent price n ∧ n * 10 ^ 8 / price.quanta % 2 = 1

instance (price : Price) (n : ℤ) : Decidable (RoundsUp price n) := inferInstanceAs (Decidable (_ ∨ _))

/-- What the rounded quantity is worth beyond the notional, in `10 ^ -8` quanta. -/
def excess (price : Price) (n : ℤ) : ℤ := price.quanta * microshares price n - n * 10 ^ 8

/-- It is the rest of a millionth of a share, or what is left of the notional. -/
theorem excess_eq {price : Price} (hpos : 0 < price.quanta) (n : ℤ) :
    excess price n = if RoundsUp price n then price.quanta - unspent price n else -unspent price n := by
  have hdiv := Int.mul_ediv_add_emod (n * 10 ^ 8) price.quanta
  have hround : microshares price n =
      n * 10 ^ 8 / price.quanta + if RoundsUp price n then 1 else 0 := by
    have h := roundHalfEven_div (a := n * 10 ^ 8) hpos
    push_cast at h
    exact h
  rw [excess, hround, mul_add]
  unfold unspent
  split_ifs
  · rw [mul_one]
    omega
  · omega

/-- The rounding adds the excess, to half a quantum. -/
theorem abs_roundingCost_sub_excess_le (price : Price) (n : ℤ) :
    |(roundingCost price n : ℚ) - excess price n / 10 ^ 8| ≤ 1 / 2 := by
  have h := abs_sub_roundHalfEven (((price.quanta * microshares price n : ℤ) : ℚ) / 10 ^ 8)
  have hdist : (roundingCost price n : ℚ) - excess price n / 10 ^ 8 =
      roundHalfEven (((price.quanta * microshares price n : ℤ) : ℚ) / 10 ^ 8) -
        ((price.quanta * microshares price n : ℤ) : ℚ) / 10 ^ 8 := by
    rw [roundingCost, excess]
    push_cast
    ring
  rw [hdist]
  exact h

/-- **A buy costs more than was intended** exactly when its quantity is rounded up and the rest of the
millionth of a share is worth more than half a quantum (or exactly half, and the notional is odd). -/
theorem roundingCost_pos_iff {price : Price} (hpos : 0 < price.quanta) (n : ℤ) :
    0 < roundingCost price n ↔ RoundsUp price n ∧
      (10 ^ 8 < 2 * (price.quanta - unspent price n) ∨
        10 ^ 8 = 2 * (price.quanta - unspent price n) ∧ n % 2 = 1) := by
  have hworth : ((price.quanta * microshares price n : ℤ) : ℚ) / 10 ^ 8 =
      n + (excess price n : ℚ) / 10 ^ 8 := by
    rw [excess]
    push_cast
    ring
  have hle : roundingCost price n ≤ 0 ↔
      2 * excess price n < 10 ^ 8 ∨ 2 * excess price n = 10 ^ 8 ∧ n % 2 = 0 := by
    rw [roundingCost, sub_nonpos, hworth, roundHalfEven_le_iff, add_lt_add_iff_left, add_right_inj,
      div_lt_div_iff₀ (by norm_num) two_pos, div_eq_div_iff (by norm_num) two_ne_zero, one_mul,
      mul_comm (excess price n : ℚ)]
    norm_cast
  have hunspent := Int.emod_nonneg (n * 10 ^ 8) hpos.ne'
  rw [← not_le, hle, excess_eq hpos]
  unfold unspent at *
  split_ifs with hup
  · simp only [hup, true_and]
    omega
  · simp only [hup, false_and, iff_false, not_not]
    exact Or.inl (by omega)

/-- It costs at most half a millionth of a share more, and half a quantum. -/
theorem roundingCost_le {price : Price} (hpos : 0 < price.quanta) (n : ℤ) :
    (roundingCost price n : ℚ) ≤ price.quanta / (2 * 10 ^ 8) + 1 / 2 := by
  have hnear := (abs_le.mp (abs_roundingCost_sub_excess_le price n)).2
  have hexcess : 2 * excess price n ≤ price.quanta := by
    have hunspent := Int.emod_nonneg (n * 10 ^ 8) hpos.ne'
    rw [excess_eq hpos]
    split_ifs with hup
    · unfold RoundsUp at hup
      omega
    · unfold unspent
      omega
  have hexcess : (2 : ℚ) * excess price n ≤ price.quanta := by exact_mod_cast hexcess
  have : (excess price n : ℚ) / 10 ^ 8 ≤ price.quanta / (2 * 10 ^ 8) := by
    rw [div_le_div_iff₀ (by norm_num) (by norm_num)]
    linarith
  linarith

/-! ### The loop over the intended buys -/

theorem mem_intendedBuys : ∀ {entries : List DriftEntry} {remaining : ℤ} {buy : Price × ℤ},
    buy ∈ intendedBuys entries remaining → ∃ entry ∈ entries, entry.price = some buy.1
  | [], _, _, h => by simp [intendedBuys] at h
  | entry :: entries, remaining, buy, h => by
    unfold intendedBuys at h
    split_ifs at h with hnone
    · cases h
    · dsimp only at h
      have hrest : ∀ {r : ℤ}, buy ∈ intendedBuys entries r →
          ∃ entry' ∈ entry :: entries, entry'.price = some buy.1 := by
        intro r hmem
        obtain ⟨entry', hentry', hprice⟩ := mem_intendedBuys hmem
        exact ⟨entry', List.mem_cons_of_mem _ hentry', hprice⟩
      cases hprice : entry.price with
      | none =>
        rw [hprice] at h
        exact hrest h
      | some price =>
        rw [hprice] at h
        dsimp only at h
        split_ifs at h with hidle
        · exact hrest h
        · rcases List.mem_cons.mp h with rfl | hmem
          · exact ⟨entry, by simp, hprice⟩
          · exact hrest hmem

/-! ### One buy -/

theorem quantityFor_ok {amount : Money} {price : Price} {quantity : Units} :
    quantityFor amount price = .ok quantity ↔
      price.quanta ≠ 0 ∧ quantity.quanta = microshares price amount.quanta := by
  have hvalue : amount.value / price.value * 10 ^ 6 =
      (amount.quanta : ℚ) * 10 ^ 8 / price.quanta := by
    unfold QuantizedDecimal.value
    by_cases h0 : (price.quanta : ℚ) = 0
    · simp [h0]
    · field_simp
  rw [quantityFor, Money.perPrice_ok, hvalue, microshares]

/-- What an order costs is what was intended and what the rounding added. -/
theorem notional_eq {price : Price} {quantity : Units} {n : ℤ}
    (h : quantity.quanta = microshares price n) :
    notional price quantity = n + roundingCost price n := by
  rw [roundingCost, notional, h]
  ring

section Loop
variable {σ : Type} {customerId : Uuid}

/-- **What `_place_buy` did**: too little was passed over, else the rounded quantity was placed. -/
theorem placeBuy_ok {place : OrderCreationRequest → Transaction.Tx Error σ Order} {entry : DriftEntry}
    {amount : Money} {s t : σ} {placed : Option Order}
    (h : (RebalanceOrderService.placeBuy place customerId entry amount).run s = .ok (placed, t)) :
    ∃ price, entry.price = some price ∧
      ((amount.quanta ≤ 0 ∨ microshares price amount.quanta = 0) ∧ placed = none ∧ t = s ∨
        ¬ (amount.quanta ≤ 0 ∨ microshares price amount.quanta = 0) ∧
          ∃ request order, request.customerId = customerId ∧ request.side = .buy ∧
            request.referencePrice = price ∧
            request.quantity.quanta = microshares price amount.quanta ∧
            placed = some order ∧ (place request).run s = .ok (order, t)) := by
  simp only [RebalanceOrderService.placeBuy, bind_ok, lift_ok, ofOption_ok] at h
  obtain ⟨securityId, _, ⟨-, rfl⟩, price, _, ⟨hprice, rfl⟩, h⟩ := h
  refine ⟨price, hprice, ?_⟩
  split_ifs at h with hnothing
  · obtain ⟨rfl, rfl⟩ := pure_ok.mp h
    exact Or.inl ⟨Or.inl hnothing, rfl, rfl⟩
  simp only [bind_ok, lift_ok] at h
  obtain ⟨quantity, _, ⟨hquantity, rfl⟩, h⟩ := h
  obtain ⟨-, hshares⟩ := quantityFor_ok.mp hquantity
  split_ifs at h with hzero
  · obtain ⟨rfl, rfl⟩ := pure_ok.mp h
    refine Or.inl ⟨Or.inr ?_, rfl, rfl⟩
    rw [← hshares, hzero]
    rfl
  rw [bind_ok] at h
  obtain ⟨order, _, hplace, h⟩ := h
  obtain ⟨rfl, rfl⟩ := pure_ok.mp h
  refine Or.inr ⟨?_, _, order, rfl, rfl, rfl, hshares, rfl, hplace⟩
  rintro (hle | hnone)
  · exact hnothing hle
  · exact hzero (QuantizedDecimal.ext (hshares.trans hnone))

theorem quanta_cappedNotional (a b : Money) :
    (cappedNotional a b).quanta = min a.quanta b.quanta := by
  unfold cappedNotional
  split_ifs with h
  · rw [QuantizedDecimal.lt_def] at h
    omega
  · rw [QuantizedDecimal.lt_def] at h
    omega

/-! ### A placer that keeps the requests -/

/-- A placer that refuses nothing and keeps what it is asked for. -/
def recordOrder (_ : ℕ) (request : OrderCreationRequest) :
    Transaction.Tx Error (List OrderCreationRequest) Order := do
  update (· ++ [request])
  return ⟨0, request.customerId, request.securityId, request.side, request.quantity, .approved, 0, none,
    none, .trueup 0⟩

theorem recordOrder_ok {i : ℕ} {request : OrderCreationRequest} {s t : List OrderCreationRequest}
    {order : Order} (h : (recordOrder i request).run s = .ok (order, t)) : t = s ++ [request] := by
  simp only [recordOrder, bind_ok, update_ok, pure_ok] at h
  obtain ⟨_, _, rfl, -, rfl⟩ := h
  rfl

/-- What buys cost together. -/
def spent (requests : List OrderCreationRequest) : ℤ :=
  ((requests.filter (·.side = .buy)).map fun r => notional r.referencePrice r.quantity).sum

theorem spent_append (xs ys : List OrderCreationRequest) : spent (xs ++ ys) = spent xs + spent ys := by
  rw [spent, List.filter_append, List.map_append, List.sum_append]
  rfl

/-- **The buys that are placed** cost what was intended and what the roundings added. -/
theorem placeBuys_recorded : ∀ {entries : List DriftEntry} {remaining : Money} {i : ℕ}
    {s t : List OrderCreationRequest} {orders : List Order},
    (RebalanceOrderService.placeBuys recordOrder customerId entries remaining i).run s =
      .ok (orders, t) → spent t = spent s + costs (intendedBuys entries remaining.quanta)
  | [], remaining, i, s, t, orders, h => by
    obtain ⟨-, rfl⟩ := pure_ok.mp h
    simp [intendedBuys, costs]
  | entry :: entries, remaining, i, s, t, orders, h => by
    unfold RebalanceOrderService.placeBuys at h
    unfold intendedBuys
    split_ifs at h with hnone
    · obtain ⟨-, rfl⟩ := pure_ok.mp h
      rw [if_pos (show remaining.quanta ≤ 0 from hnone)]
      simp [costs]
    rw [if_neg (show ¬ remaining.quanta ≤ 0 from hnone)]
    simp only [bind_ok, lift_ok] at h
    obtain ⟨buyNotional, _, ⟨hsub, rfl⟩, placed, mid, hplace, h⟩ := h
    have hcapped := quanta_cappedNotional buyNotional remaining
    rw [Money.sub_ok.mp hsub] at hcapped
    obtain ⟨price, hprice, hcases⟩ := placeBuy_ok hplace
    rw [show (if buyNotional < remaining then buyNotional else remaining) =
      cappedNotional buyNotional remaining from rfl, hcapped] at hcases
    rw [hprice]
    dsimp only
    rcases hcases with ⟨hidle, rfl, rfl⟩ | ⟨hbuy, request, order, -, hside, hpriced, hshares, rfl, hrun⟩
    · rw [if_pos hidle]
      exact placeBuys_recorded h
    · rw [if_neg hbuy]
      simp only [bind_ok, lift_ok] at h
      obtain ⟨rest, _, ⟨hrest, rfl⟩, others, _, hothers, h⟩ := h
      obtain ⟨-, rfl⟩ := pure_ok.mp h
      have hleft : rest.quanta = remaining.quanta -
          min (entry.targetMarketValue.quanta - entry.currentMarketValue.quanta) remaining.quanta := by
        rw [Money.sub_ok.mp hrest, ← hcapped]
        rfl
      rw [placeBuys_recorded hothers, hleft, recordOrder_ok hrun, spent_append]
      have hone : spent [request] = notional request.referencePrice request.quantity := by
        simp [spent, hside]
      rw [hone, hpriced, notional_eq hshares]
      simp only [costs, List.map_cons, List.sum_cons]
      omega

theorem placeSells_recorded : ∀ {entries : List DriftEntry} {i : ℕ} {s t : List OrderCreationRequest}
    {orders : List Order}, (RebalanceOrderService.placeSells recordOrder customerId entries i).run s =
      .ok (orders, t) → spent t = spent s
  | [], i, s, t, orders, h => by
    obtain ⟨-, rfl⟩ := pure_ok.mp h
    rfl
  | entry :: entries, i, s, t, orders, h => by
    unfold RebalanceOrderService.placeSells at h
    split_ifs at h with hsell
    · simp only [bind_ok, RebalanceOrderService.placeSell, lift_ok] at h
      obtain ⟨order, mid, ⟨_, _, ⟨-, rfl⟩, _, _, ⟨-, rfl⟩, _, _, ⟨-, rfl⟩, _, _, ⟨-, rfl⟩, hplace⟩,
        _, _, hrest, h⟩ := h
      obtain ⟨-, rfl⟩ := pure_ok.mp h
      rw [placeSells_recorded hrest, recordOrder_ok hplace, spent_append]
      simp [spent]
    · exact placeSells_recorded h

end Loop

/-- The orders that are placed cost what was intended and what the roundings added. -/
theorem generateOrders_recorded {cash : Money} {cashBufferPct : ℚ} {evaluation : DriftEvaluation}
    {orders : List Order} {placed : List OrderCreationRequest}
    (h : (RebalanceOrderService.generateOrders recordOrder (fun _ _ => .ok cash) cashBufferPct
      evaluation).run [] = .ok (orders, placed)) :
    spent placed = costs (intendedOf cash evaluation cashBufferPct) := by
  unfold RebalanceOrderService.generateOrders at h
  rw [bind_ok] at h
  obtain ⟨sells, mid, hsells, h⟩ := h
  have hmid : spent mid = 0 := placeSells_recorded hsells
  unfold intendedOf
  cases hbuys : (securityFlags evaluation).filter (·.direction = .buy) with
  | nil =>
    rw [hbuys] at h
    obtain ⟨-, rfl⟩ := pure_ok.mp h
    simpa [intendedBuys, costs] using hmid
  | cons buy buys =>
    simp only [hbuys, List.isEmpty_cons, Bool.false_eq_true, if_false, bind_ok, lift_ok, read_ok,
      Except.ok.injEq] at h
    obtain ⟨buffer, _, ⟨hbuffer, rfl⟩, _, _, ⟨rfl, rfl⟩, available, _, ⟨havailable, rfl⟩, h⟩ := h
    have hbufferQuanta : buffer.quanta = bufferQuanta evaluation.totalValue cashBufferPct :=
      (QuantizedDecimal.ofDecimal_ok (by norm_num)).mp hbuffer
    have hquanta := Money.sub_ok.mp havailable
    rw [hbufferQuanta] at hquanta
    split_ifs at h with hnone
    · have hzero : availableQuanta cash evaluation cashBufferPct = 0 := by
        have : available.quanta ≤ 0 := hnone
        unfold availableQuanta
        omega
      obtain ⟨-, rfl⟩ := pure_ok.mp h
      rw [hzero, hmid]
      simp [intendedBuys, costs]
    · have hleft : availableQuanta cash evaluation cashBufferPct = available.quanta := by
        have : ¬ available.quanta ≤ 0 := hnone
        unfold availableQuanta
        omega
      rw [bind_ok] at h
      obtain ⟨others, _, hothers, h⟩ := h
      obtain ⟨-, rfl⟩ := pure_ok.mp h
      rw [placeBuys_recorded hothers, hmid, zero_add, hleft]

/-! ### Over the order service -/

theorem place_investable {env : Env} {request : OrderCreationRequest} {s t : RebalanceTables}
    {order : Order} (h : (place env request).run s = .ok (order, t)) :
    investableQuanta t.db request.customerId = investableQuanta s.db request.customerId -
      notional request.referencePrice request.quantity := by
  simp only [place, onDatabase, bind_ok, focus_ok, pure_ok] at h
  obtain ⟨created, mid, ⟨db, hcreate, rfl⟩, _, last, henqueue, -, rfl⟩ := h
  have hsame : last.db = db := by
    unfold whenever at henqueue
    split_ifs at henqueue
    · simp only [enqueueSubmission, bind_ok, read_ok] at henqueue
      obtain ⟨_, _, ⟨-, rfl⟩, hwrite⟩ := henqueue
      obtain ⟨_, -, hpure⟩ := except_bind_ok.mp (write_ok.mp hwrite)
      cases hpure
      rfl
    · obtain ⟨-, rfl⟩ := pure_ok.mp henqueue
      rfl
  rw [hsame]
  exact createOrder_investable hcreate

theorem buyRequest_some {customerId : Uuid} {entry : DriftEntry} {amount : Money}
    {request : OrderCreationRequest} (h : buyRequest customerId entry amount = some request) :
    entry.price = some request.referencePrice ∧ request.customerId = customerId ∧
      ¬ (amount.quanta ≤ 0 ∨ microshares request.referencePrice amount.quanta = 0) ∧
      request.quantity.quanta = microshares request.referencePrice amount.quanta := by
  unfold buyRequest at h
  cases hsecurity : entry.securityId with
  | none => simp [hsecurity] at h
  | some securityId =>
    cases hprice : entry.price with
    | none => simp [hsecurity, hprice] at h
    | some price =>
      simp only [hsecurity, hprice] at h
      split_ifs at h with hnothing
      cases hquantity : quantityFor amount price with
      | error e => simp [hquantity] at h
      | ok quantity =>
        simp only [hquantity] at h
        split_ifs at h with hzero
        cases h
        obtain ⟨-, hshares⟩ := quantityFor_ok.mp hquantity
        refine ⟨rfl, rfl, ?_, hshares⟩
        rintro (hle | hnone)
        · exact hnothing hle
        · exact hzero (QuantizedDecimal.ext (hshares.trans hnone))

theorem roundedCost_nonneg {price : Price} (hprice : 0 < price) {n : ℤ} (hn : 0 ≤ n) :
    0 ≤ n + roundingCost price n := by
  have hp : 0 < price.quanta := hprice
  have hshares : 0 ≤ microshares price n := by
    have hp' : (0 : ℚ) < price.quanta := by exact_mod_cast hp
    have hn' : (0 : ℚ) ≤ n := by exact_mod_cast hn
    exact roundHalfEven_nonneg (by positivity)
  have hproduct : (0 : ℚ) ≤ ((price.quanta * microshares price n : ℤ) : ℚ) := by
    exact_mod_cast mul_nonneg hp.le hshares
  have := roundHalfEven_nonneg (div_nonneg hproduct (by norm_num : (0 : ℚ) ≤ 10 ^ 8))
  unfold roundingCost
  omega

theorem costs_nonneg : ∀ {entries : List DriftEntry} {remaining : ℤ},
    (∀ entry ∈ entries, ∀ price ∈ entry.price, 0 < price) →
      0 ≤ costs (intendedBuys entries remaining)
  | [], _, _ => by simp [intendedBuys, costs]
  | entry :: entries, remaining, h => by
    have hrest : ∀ {r : ℤ}, 0 ≤ costs (intendedBuys entries r) :=
      costs_nonneg fun e he => h e (List.mem_cons_of_mem _ he)
    unfold intendedBuys
    split_ifs with hnone
    · simp [costs]
    dsimp only
    cases hprice : entry.price with
    | none => exact hrest
    | some price =>
      dsimp only
      split_ifs with hidle
      · exact hrest
      · have hfirst := roundedCost_nonneg (h entry (by simp) price hprice)
          (n := min (entry.targetMarketValue.quanta - entry.currentMarketValue.quanta) remaining)
          (by omega)
        have := @hrest (remaining -
          min (entry.targetMarketValue.quanta - entry.currentMarketValue.quanta) remaining)
        simp only [costs, List.map_cons, List.sum_cons] at this ⊢
        omega

/-- **Buys that cost no more than what is investable** are all covered when they are placed. -/
theorem buysCovered_of_fit {readings : ℕ → Env} {customerId : Uuid} :
    ∀ {entries : List DriftEntry} {remaining : Money} {i : ℕ} {tables : RebalanceTables},
      (∀ entry ∈ entries, ∀ price ∈ entry.price, 0 < price) →
      costs (intendedBuys entries remaining.quanta) ≤ investableQuanta tables.db customerId →
      BuysCovered (fun i => place (readings i)) Covered customerId entries remaining i tables
  | [], _, _, _, _, _ => trivial
  | entry :: entries, remaining, i, tables, hprices, hfit => by
    have hlater : ∀ e ∈ entries, ∀ price ∈ e.price, 0 < price :=
      fun e he => hprices e (List.mem_cons_of_mem _ he)
    unfold BuysCovered
    by_cases hnone : remaining ≤ 0
    · exact Or.inl hnone
    refine Or.inr fun buyNotional hsub => ?_
    unfold intendedBuys at hfit
    rw [if_neg (show ¬ remaining.quanta ≤ 0 from hnone)] at hfit
    have hcapped := quanta_cappedNotional buyNotional remaining
    rw [Money.sub_ok.mp hsub] at hcapped
    set n := min (entry.targetMarketValue.quanta - entry.currentMarketValue.quanta) remaining.quanta
      with hn
    dsimp only at hfit
    constructor
    · intro request hrequest hbuy _ amount available hamount havailable
      obtain ⟨hprice, hcustomer, hplaced, hshares⟩ := buyRequest_some hrequest
      rw [hcapped] at hplaced hshares
      rw [hprice] at hfit
      dsimp only at hfit
      rw [if_neg hplaced] at hfit
      have hrest := @costs_nonneg entries (remaining.quanta - n) hlater
      rw [hcustomer] at havailable
      rw [QuantizedDecimal.le_def, Price.times_ok.mp hamount, notional_eq hshares,
        investable_quanta havailable]
      simp only [costs, List.map_cons, List.sum_cons] at hfit hrest
      omega
    · intro placed t hrun rest hrest
      obtain ⟨price, hprice, hcases⟩ := placeBuy_ok hrun
      rw [hcapped] at hcases
      rw [hprice] at hfit
      dsimp only at hfit
      rcases hcases with ⟨hidle, rfl, rfl⟩ | ⟨hbuy, request, order, hcustomer, -, hpriced, hshares,
        rfl, hplace⟩
      · rw [if_pos hidle] at hfit
        cases hrest
        exact buysCovered_of_fit hlater hfit
      · rw [if_neg hbuy] at hfit
        have hleft : rest.quanta = remaining.quanta - n := by
          rw [Money.sub_ok.mp hrest, hcapped]
        have hinvestable := place_investable hplace
        rw [hcustomer, hpriced, notional_eq hshares] at hinvestable
        refine buysCovered_of_fit hlater ?_
        rw [hleft, hinvestable]
        simp only [costs, List.map_cons, List.sum_cons] at hfit ⊢
        omega

/-! ### Within the buffer -/

/-- Every security that is flagged has a positive price. -/
def PositivePrices (evaluation : DriftEvaluation) : Prop :=
  ∀ entry ∈ evaluation.entries, ∀ price ∈ entry.price, 0 < price

theorem PositivePrices.buys {evaluation : DriftEvaluation} (h : PositivePrices evaluation) :
    ∀ entry ∈ (securityFlags evaluation).filter (·.direction = .buy), ∀ price ∈ entry.price,
      0 < price := by
  intro entry hentry
  have hflags := List.mem_of_mem_filter hentry
  exact h entry (List.mem_of_mem_filter (List.mem_of_mem_filter hflags))

theorem bufferQuanta_nonneg {totalValue : Money} {cashBufferPct : ℚ} (htotal : 0 ≤ totalValue)
    (hpct : 0 ≤ cashBufferPct) : 0 ≤ bufferQuanta totalValue cashBufferPct := by
  have hquanta : (0 : ℚ) ≤ totalValue.quanta := by exact_mod_cast QuantizedDecimal.le_def.mp htotal
  have hvalue : 0 ≤ totalValue.value := div_nonneg hquanta (by norm_num)
  have hcontext : 0 ≤ context (totalValue.value * cashBufferPct) :=
    roundSig_nonneg (mul_nonneg hvalue hpct)
  exact roundHalfEven_nonneg (by positivity)

section Fit
variable {cash : Money} {evaluation : DriftEvaluation} {cashBufferPct : ℚ}

theorem price_of_intended {buy : Price × ℤ} (h : buy ∈ intendedOf cash evaluation cashBufferPct) :
    ∃ entry ∈ evaluation.entries, entry.price = some buy.1 := by
  obtain ⟨entry, hentry, hprice⟩ := mem_intendedBuys h
  have hflags := List.mem_of_mem_filter (List.mem_of_mem_filter hentry)
  exact ⟨entry, List.mem_of_mem_filter hflags, hprice⟩

theorem roundingsFit_of_costs
    (h : ∀ buy ∈ intendedOf cash evaluation cashBufferPct, roundingCost buy.1 buy.2 ≤ 0) :
    RoundingsFit cash evaluation cashBufferPct := by
  have hnothing : ((intendedOf cash evaluation cashBufferPct).map
      fun buy => roundingCost buy.1 buy.2).sum ≤ 0 := by
    refine (List.sum_le_card_nsmul _ 0 fun x hx => ?_).trans (nsmul_zero _).le
    obtain ⟨buy, hbuy, rfl⟩ := List.mem_map.mp hx
    exact h buy hbuy
  have hle := intendedBuys_le ((securityFlags evaluation).filter (·.direction = .buy))
    (le_max_left 0 (cash.quanta - bufferQuanta evaluation.totalValue cashBufferPct))
  rw [RoundingsFit]
  refine hnothing.trans (sub_nonneg.mpr ?_)
  rw [intendedOf, availableQuanta]
  exact hle

/-- **With no buy that is rounded up by half a quantum or more** the roundings fit. -/
theorem roundingsFit_of_buys (hprices : PositivePrices evaluation)
    (h : ∀ buy ∈ intendedOf cash evaluation cashBufferPct, RoundsUp buy.1 buy.2 →
      2 * (buy.1.quanta - unspent buy.1 buy.2) < 10 ^ 8) :
    RoundingsFit cash evaluation cashBufferPct := by
  refine roundingsFit_of_costs fun buy hbuy => not_lt.mp fun hcost => ?_
  obtain ⟨entry, hentry, hprice⟩ := price_of_intended hbuy
  have hpos : 0 < buy.1.quanta := hprices entry hentry buy.1 hprice
  obtain ⟨hup, hworth⟩ := (roundingCost_pos_iff hpos buy.2).mp hcost
  have := h buy hbuy hup
  omega

/-- With prices up to a hundred dollars the roundings always fit. -/
theorem roundingsFit_of_prices
    (h : ∀ entry ∈ evaluation.entries, ∀ price ∈ entry.price, 0 < price ∧ price.quanta ≤ 10 ^ 8) :
    RoundingsFit cash evaluation cashBufferPct := by
  refine roundingsFit_of_costs fun buy hbuy => ?_
  obtain ⟨entry, hentry, hprice⟩ := price_of_intended hbuy
  obtain ⟨hpos, hle⟩ := h entry hentry _ hprice
  exact (roundingCost_of_le hpos hle _).le

end Fit

/-- **The buys stay within the cash buffer** exactly when the roundings of their quantities fit, and
then the order service finds enough investable cash for each of them. -/
theorem buys_within_iff {evaluation : DriftEvaluation} (hprices : PositivePrices evaluation)
    {cashBufferPct : ℚ} (hpct : 0 ≤ cashBufferPct) :
    (∀ cash orders placed, (RebalanceOrderService.generateOrders recordOrder (fun _ _ => .ok cash)
        cashBufferPct evaluation).run [] = .ok (orders, placed) →
      (spent placed ≤ availableQuanta cash evaluation cashBufferPct ↔
        RoundingsFit cash evaluation cashBufferPct)) ∧
    (0 ≤ evaluation.totalValue → ∀ (readings : ℕ → Env) (tables : RebalanceTables),
      (∀ sells mid cash, (RebalanceOrderService.placeSells (fun i => place (readings i))
          evaluation.customerId (securityFlags evaluation) 0).run tables = .ok (sells, mid) →
        investable mid.db evaluation.customerId = .ok cash →
        RoundingsFit cash evaluation cashBufferPct) →
      ∀ amount available, (RebalanceOrderService.generateOrders (fun i => place (readings i))
          (fun tables => investable tables.db) cashBufferPct evaluation).run tables ≠
        .error (.insufficientInvestableCash amount available)) := by
  constructor
  · intro cash orders placed hplaced
    rw [generateOrders_recorded hplaced, roundingsFit_iff]
  · intro htotal readings tables hfits amount available hraised
    have hfails : FailsWith IsUnexpected (RebalanceOrderService.generateOrders
        (fun i => place (readings i)) (fun tables => investable tables.db) cashBufferPct evaluation)
        tables := ⟨_, ⟨rfl, rfl⟩, hraised⟩
    refine (@failsWith_realOrders ⟨0, cashBufferPct, readings⟩ _ _).mp hfails ?_
    intro sells mid hsells buffer cash left hbuffer hcash hleft hsome
    have hfit := roundingsFit_iff.mp (hfits sells mid cash hsells hcash)
    have hbufferQuanta : buffer.quanta = bufferQuanta evaluation.totalValue cashBufferPct :=
      (QuantizedDecimal.ofDecimal_ok (by norm_num)).mp hbuffer
    have hnonneg := bufferQuanta_nonneg htotal hpct
    have hquanta := Money.sub_ok.mp hleft
    rw [hbufferQuanta] at hquanta
    have hpositive : ¬ left.quanta ≤ 0 := hsome
    have havailable : availableQuanta cash evaluation cashBufferPct = left.quanta := by
      unfold availableQuanta
      omega
    rw [intendedOf, havailable] at hfit
    refine buysCovered_of_fit hprices.buys ?_
    rw [← investable_quanta hcash]
    omega

/-! ### A model of one security -/

/-- A book that is all cash, for a model of one security. -/
def allCash (totalValue : Money) (price : Price) : DriftEvaluation :=
  ⟨1, 1, 6, false, totalValue, [⟨some 7, 0, totalValue, 0, 1, some price, true, .buy⟩]⟩

/-- A thousand dollars for three securities, one of them at 250000 a share. -/
def threeBuys : DriftEvaluation :=
  ⟨1, 1, 6, false, dollars 1000, [
    ⟨some 7, 0, dollars 400, 0, 4 / 10, some (dollarsPerShare 70), true, .buy⟩,
    ⟨some 8, 0, ⟨3001500, by decide⟩, 0, 30015 / 10 ^ 5, some (dollarsPerShare 250000), true, .buy⟩,
    ⟨some 9, 0, dollars 200, 0, 2 / 10, some (dollarsPerShare 30), true, .buy⟩]⟩

/-- An account with a thousand dollars that are settled. -/
def thousandTables : RebalanceTables where
  db := { System.run [⟨envAt 1 1, .initiateDeposit 1 (dollars 1000)⟩,
      ⟨envAt 2 2, .confirmSettlement 1⟩] (openedAccount 1) with
    securities := ⟨[⟨7, "VTI"⟩, ⟨8, "BRK.A"⟩, ⟨9, "BND"⟩], by decide⟩ }
  customerModelAssignments := ∅
  targetWeights := ∅
  submissions := ∅

theorem roundingsFit_threeBuys : RoundingsFit (dollars 1000) threeBuys (1 / 100) := by
  unfold RoundingsFit
  decide +kernel

/-- The 300.15 for the second are rounded up to 0.001201 shares, which cost 300.25; what the three cost
stays below the 990 above a buffer of one percent, and they are all placed. -/
theorem buys_within_iff_three :
    (∃ orders placed, (RebalanceOrderService.generateOrders recordOrder (fun _ _ => .ok (dollars 1000))
        (1 / 100) threeBuys).run [] = .ok (orders, placed) ∧ orders.length = 3 ∧
      spent placed ≤ availableQuanta (dollars 1000) threeBuys (1 / 100)) ∧
    roundingCost (dollarsPerShare 250000) 3001500 = 1000 ∧
    ((RebalanceOrderService.generateOrders (fun i => place (envAt (10 + i) (10 + i)))
      (fun tables => investable tables.db) (1 / 100) threeBuys).run thousandTables).isOk ∧
    ∀ amount available, (RebalanceOrderService.generateOrders (fun i => place (envAt (10 + i) (10 + i)))
      (fun tables => investable tables.db) (1 / 100) threeBuys).run thousandTables ≠
        .error (.insufficientInvestableCash amount available) := by
  have hprices : PositivePrices threeBuys := by
    unfold PositivePrices
    decide
  obtain ⟨hbooks, hplaces⟩ := @buys_within_iff threeBuys hprices (1 / 100) (by norm_num)
  refine ⟨?_, by decide +kernel, by decide +kernel, ?_⟩
  · have hrun : ((RebalanceOrderService.generateOrders recordOrder
        (fun _ _ => .ok (dollars 1000)) (1 / 100) threeBuys).run []).isOk := by
      decide +kernel
    obtain ⟨⟨orders, placed⟩, hplaced⟩ := exists_ok_of_isOk hrun
    have hthree : ∀ r ∈ ((RebalanceOrderService.generateOrders recordOrder
        (fun _ _ => .ok (dollars 1000)) (1 / 100) threeBuys).run []).toOption, r.1.length = 3 := by
      decide +kernel
    exact ⟨orders, placed, hplaced, hthree (orders, placed) (by rw [hplaced]; rfl),
      (hbooks _ _ _ hplaced).mpr roundingsFit_threeBuys⟩
  · refine hplaces (by decide) _ _ fun sells mid cash hsells hcash => ?_
    obtain ⟨-, rfl⟩ : sells = [] ∧ mid = thousandTables := by
      cases hsells
      exact ⟨rfl, rfl⟩
    have hthousand : investable thousandTables.db 1 = .ok (dollars 1000) := by decide +kernel
    obtain rfl := Except.ok.inj (hthousand.symm.trans hcash)
    exact roundingsFit_threeBuys

/-- 10.15 at 600000 a share: the 10.0485 above the buffer are rounded up to 0.000017 shares, which
cost 10.20. -/
theorem buys_exceed_buffer : ¬ ∀ (evaluation : DriftEvaluation) (cashBufferPct : ℚ) (cash : Money)
    (orders : List Order) (placed : List OrderCreationRequest), PositivePrices evaluation →
      0 ≤ cashBufferPct → (RebalanceOrderService.generateOrders recordOrder (fun _ _ => .ok cash)
        cashBufferPct evaluation).run [] = .ok (orders, placed) →
      spent placed ≤ availableQuanta cash evaluation cashBufferPct := by
  intro h
  have hprices : PositivePrices (allCash ⟨101500, by decide⟩ (dollarsPerShare 600000)) := by
    unfold PositivePrices
    decide
  have hrun : ((RebalanceOrderService.generateOrders recordOrder
      (fun _ _ => .ok ⟨101500, by decide⟩) (1 / 100)
      (allCash ⟨101500, by decide⟩ (dollarsPerShare 600000))).run []).isOk := by
    decide +kernel
  obtain ⟨⟨orders, placed⟩, hplaced⟩ := exists_ok_of_isOk hrun
  have hcosts := generateOrders_recorded hplaced
  have hexceeds : ¬ costs (intendedOf ⟨101500, by decide⟩
      (allCash ⟨101500, by decide⟩ (dollarsPerShare 600000)) (1 / 100)) ≤
      availableQuanta ⟨101500, by decide⟩
        (allCash ⟨101500, by decide⟩ (dollarsPerShare 600000)) (1 / 100) := by
    decide +kernel
  refine hexceeds ?_
  rw [← hcosts]
  exact h _ _ _ _ _ hprices (by norm_num) hplaced

end Trueup.Rebalance
