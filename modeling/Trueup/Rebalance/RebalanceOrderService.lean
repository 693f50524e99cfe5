import Trueup.Orders.OrderService

/-! # The orders of a rebalance

`services/rebalance/rebalance_order_service.py`, over the real order service: the flagged entries of
a drift evaluation become orders, the sells first, then the buys, capped by what is investable above
the cash buffer. `RebalanceOrderService` is over any placer of orders and provider of investable
cash. -/

namespace Trueup.Rebalance

open Trueup.Core Trueup.Models Trueup.Lib Trueup.Lib.Transaction Trueup.Ledger Trueup.Orders

inductive Direction
  | buy | sell
  deriving DecidableEq, Repr

/-- `DriftEntry`; no security means cash. -/
structure DriftEntry where
  securityId : Option Uuid
  currentMarketValue : Money
  targetMarketValue : Money
  currentWeightPct : ℚ
  targetWeightPct : ℚ
  price : Option Price
  isFlagged : Bool
  direction : Direction
  deriving DecidableEq

/-- `DriftEvaluation`; its `completeness` is partial or complete. -/
structure DriftEvaluation where
  customerId : Uuid
  modelPortfolioId : Uuid
  asOfDate : Date
  isPartial : Bool
  totalValue : Money
  entries : List DriftEntry
  deriving DecidableEq

/-- `security_flags`: the `flagged` entries of securities. -/
def securityFlags (evaluation : DriftEvaluation) : List DriftEntry :=
  (evaluation.entries.filter (·.isFlagged)).filter (·.securityId.isSome)

/-- `_quantity_for`. -/
def quantityFor (notional : Money) (price : Price) : Except Error Units := notional.perPrice price

namespace RebalanceOrderService

-- `OrderPlacer.place`; `place i` is the placement with what the `i`-th entry reads from outside
variable {σ : Type}

/-- `_place_sell`. -/
def placeSell (place : OrderCreationRequest → Transaction.Tx Error σ Order) (customerId : Uuid)
    (entry : DriftEntry) : Transaction.Tx Error σ Order := do
  let securityId ← lift (ofOption entry.securityId .assertionError)
  let price ← lift (ofOption entry.price .assertionError)
  let notional ← lift (entry.currentMarketValue.sub entry.targetMarketValue)
  let quantity ← lift (quantityFor notional price)
  place { customerId, securityId, side := .sell, quantity, referencePrice := price }

/-- `_place_buy`: a notional too small for a millionth of a share places nothing. -/
def placeBuy (place : OrderCreationRequest → Transaction.Tx Error σ Order) (customerId : Uuid)
    (entry : DriftEntry) (notional : Money) : Transaction.Tx Error σ (Option Order) := do
  let securityId ← lift (ofOption entry.securityId .assertionError)
  let price ← lift (ofOption entry.price .assertionError)
  if notional ≤ 0 then return none
  else
    let quantity ← lift (quantityFor notional price)
    if quantity = 0 then return none
    else
      let order ← place { customerId, securityId, side := .buy, quantity, referencePrice := price }
      return some order

/-- The loop over the sells. -/
def placeSells (place : ℕ → OrderCreationRequest → Transaction.Tx Error σ Order) (customerId : Uuid) :
    List DriftEntry → ℕ → Transaction.Tx Error σ (List Order)
  | [], _ => return []
  | entry :: entries, i =>
    if entry.direction = .sell then do
      let order ← placeSell (place i) customerId entry
      let orders ← placeSells place customerId entries (i + 1)
      return order :: orders
    else placeSells place customerId entries (i + 1)

/-- The loop over the buys. -/
def placeBuys (place : ℕ → OrderCreationRequest → Transaction.Tx Error σ Order) (customerId : Uuid) :
    List DriftEntry → Money → ℕ → Transaction.Tx Error σ (List Order)
  | [], _, _ => return []
  | entry :: entries, remaining, i =>
    if remaining ≤ 0 then return []
    else do
      let buyNotional ← lift (entry.targetMarketValue.sub entry.currentMarketValue)
      let cappedNotional := if buyNotional < remaining then buyNotional else remaining
      let placed ← placeBuy (place i) customerId entry cappedNotional
      match placed with
      | none => placeBuys place customerId entries remaining (i + 1)
      | some order => do
        let rest ← lift (remaining.sub cappedNotional)
        let orders ← placeBuys place customerId entries rest (i + 1)
        return order :: orders

/-- `generate_orders`; without flags there are neither sells nor buys. -/
def generateOrders (place : ℕ → OrderCreationRequest → Transaction.Tx Error σ Order)
    (investable : σ → Uuid → Except Error Money) (cashBufferPct : ℚ) (evaluation : DriftEvaluation) :
    Transaction.Tx Error σ (List Order) := do
  let flags := securityFlags evaluation
  let sells ← placeSells place evaluation.customerId flags 0
  let buyEntries := flags.filter (·.direction = .buy)
  if buyEntries.isEmpty then return sells
  else
    let buffer ← lift (evaluation.totalValue.scale cashBufferPct)
    let cash ← read fun s => investable s evaluation.customerId
    let available ← lift (cash.sub buffer)
    if available ≤ 0 then return sells
    else
      let buys ← placeBuys place evaluation.customerId buyEntries available flags.length
      return sells ++ buys

end RebalanceOrderService

/-! ### Over the order service -/

def placeSell (env : Env) : Uuid → DriftEntry → Tx Order :=
  RebalanceOrderService.placeSell (createOrder env)

/-- The loop over the sells; `readings i` is what the placement of the `i`-th entry reads from
outside. -/
def placeSells (readings : ℕ → Env) : Uuid → List DriftEntry → ℕ → Tx (List Order) :=
  RebalanceOrderService.placeSells fun i => createOrder (readings i)

def placeBuys (readings : ℕ → Env) : Uuid → List DriftEntry → Money → ℕ → Tx (List Order) :=
  RebalanceOrderService.placeBuys fun i => createOrder (readings i)

def generateOrders (readings : ℕ → Env) : ℚ → DriftEvaluation → Tx (List Order) :=
  RebalanceOrderService.generateOrders (fun i => createOrder (readings i)) investable

/-- The notional of the sell order of an entry. -/
def sellNotional (entry : DriftEntry) : ℤ :=
  match entry.price, entry.currentMarketValue.sub entry.targetMarketValue with
  | some price, .ok amount =>
    match quantityFor amount price with
    | .ok quantity => notional price quantity
    | .error _ => 0
  | _, _ => 0

theorem placeSell_ok {env : Env} {customerId : Uuid} {entry : DriftEntry} {db db' : Database}
    {order : Order} (h : (placeSell env customerId entry).run db = .ok (order, db')) :
    ∃ request : OrderCreationRequest, request.customerId = customerId ∧ request.side = .sell ∧
      notional request.referencePrice request.quantity = sellNotional entry ∧
      (createOrder env request).run db = .ok (order, db') := by
  simp only [placeSell, RebalanceOrderService.placeSell, bind_ok, lift_ok, ofOption_ok] at h
  obtain ⟨securityId, _, ⟨-, rfl⟩, price, _, ⟨hprice, rfl⟩, amount, _, ⟨hamount, rfl⟩, quantity, _,
    ⟨hquantity, rfl⟩, hcreate⟩ := h
  refine ⟨_, rfl, rfl, ?_, hcreate⟩
  simp only [sellNotional, hprice, hamount, hquantity]

/-- **What `generate_orders` did**: the sells were placed, and then perhaps buys, up to what was
investable above the buffer by then. -/
theorem generateOrders_ok {readings : ℕ → Env} {cashBufferPct : ℚ} {evaluation : DriftEvaluation}
    {db db' : Database} {orders : List Order}
    (h : (generateOrders readings cashBufferPct evaluation).run db = .ok (orders, db')) :
    ∃ sells mid, (placeSells readings evaluation.customerId (securityFlags evaluation) 0).run db =
        .ok (sells, mid) ∧
      ((orders = sells ∧ db' = mid) ∨ ∃ buffer cash available buys,
        evaluation.totalValue.scale cashBufferPct = .ok buffer ∧
        investable mid evaluation.customerId = .ok cash ∧ cash.sub buffer = .ok available ∧
        (placeBuys readings evaluation.customerId
          ((securityFlags evaluation).filter (·.direction = .buy)) available
          (securityFlags evaluation).length).run mid = .ok (buys, db') ∧ orders = sells ++ buys) := by
  rw [generateOrders, RebalanceOrderService.generateOrders, bind_ok] at h
  obtain ⟨sells, mid, hsells, h⟩ := h
  refine ⟨sells, mid, hsells, ?_⟩
  dsimp only at h
  split_ifs at h with hempty
  · obtain ⟨rfl, rfl⟩ := pure_ok.mp h
    exact Or.inl ⟨rfl, rfl⟩
  simp only [bind_ok, lift_ok, read_ok] at h
  obtain ⟨buffer, _, ⟨hbuffer, rfl⟩, cash, _, ⟨hcash, rfl⟩, available, _, ⟨havailable, rfl⟩, h⟩ := h
  split_ifs at h with hnone
  · obtain ⟨rfl, rfl⟩ := pure_ok.mp h
    exact Or.inl ⟨rfl, rfl⟩
  rw [bind_ok] at h
  obtain ⟨buys, _, hbuys, h⟩ := h
  obtain ⟨rfl, rfl⟩ := pure_ok.mp h
  exact Or.inr ⟨buffer, cash, available, buys, hbuffer, hcash, havailable, hbuys, rfl⟩

theorem quantityFor_nonneg {amount : Money} {price : Price} {quantity : Units}
    (h : quantityFor amount price = .ok quantity) (hamount : 0 ≤ amount.quanta)
    (hprice : 0 ≤ price.quanta) : 0 ≤ quantity.quanta := by
  unfold quantityFor Money.perPrice at h
  split_ifs at h
  rw [QuantizedDecimal.ofDecimal_ok (by norm_num)] at h
  rw [h]
  have hamount' : 0 ≤ amount.value := div_nonneg (by exact_mod_cast hamount) (by positivity)
  have hprice' : 0 ≤ price.value := div_nonneg (by exact_mod_cast hprice) (by positivity)
  have hquotient : 0 ≤ context (amount.value / price.value) :=
    Rounding.roundSig_nonneg (div_nonneg hamount' hprice')
  exact Rounding.roundHalfEven_nonneg (by positivity)

theorem sellNotional_nonneg {entry : DriftEntry}
    (hover : entry.targetMarketValue ≤ entry.currentMarketValue)
    (hprice : ∀ price ∈ entry.price, 0 ≤ price) : 0 ≤ sellNotional entry := by
  unfold sellNotional
  split
  · rename_i price amount hp hamount
    split
    · rename_i quantity hquantity
      have hpositive : 0 ≤ price.quanta := hprice price hp
      have hless : 0 ≤ amount.quanta := by
        rw [Money.sub_ok.mp hamount]
        exact sub_nonneg.mpr hover
      exact notional_nonneg hpositive (quantityFor_nonneg hquantity hless hpositive)
    · exact le_rfl
  · exact le_rfl

end Trueup.Rebalance
