import Trueup.Orders.OrderService

/-! # The designation of lots

`services/orders/lot_designation_service.py`: whether the lots that a sell order names may be
designated for it: their shape, whose they are, and whether they cover the quantity beside the other
open sells.

`validateDesignation_ok` says what an accepted designation is. -/

namespace Trueup.Orders

open Trueup.Core Trueup.Models Trueup.Lib Trueup.Lib.Transaction

/-- `_MAX_DESIGNATED_LOTS`. -/
def maxDesignatedLots : ℕ := 50

/-- The checks before the database is asked. -/
def checkDesignation (side : OrderSide) (lotIds : List Uuid) : Except Error Unit := do
  check (side = .sell) .lotDesignationNotAllowedForBuy
  check (lotIds ≠ []) .emptyLotDesignation
  check lotIds.Nodup .duplicateLotDesignation
  check (lotIds.length ≤ maxDesignatedLots) .tooManyDesignatedLots

/-- A named lot; it must be the customer's, of the security. -/
def namedLot (db : Database) (customerId securityId lotId : Uuid) : Except Error TaxLot :=
  ofOption ((db.taxLots.find lotId).filter fun lot =>
    lot.customerId = customerId ∧ lot.securityId = securityId) .unknownTaxLot

/-- `named_lots`. -/
def namedLots (db : Database) (customerId securityId : Uuid) (lotIds : List Uuid) :
    Except Error (List TaxLot) :=
  lotIds.mapM (namedLot db customerId securityId)

/-- The loop `named_total = named_total + lot.quantity_remaining`. -/
def sumRemaining : List TaxLot → Units → Except Error Units
  | [], total => .ok total
  | lot :: lots, total => do sumRemaining lots (← total.add lot.quantityRemaining)

/-- `open_sell_orders`. -/
def openSellOrders (db : Database) (customerId : Uuid) : List Order :=
  db.orders.rows.filter fun o => o.customerId = customerId ∧ o.side = .sell ∧ o.status.isOpen

/-- The order has designated one of the lots. -/
def claimsOneOf (lotIds : List Uuid) (order : Order) : Bool :=
  ∃ designated ∈ order.designatedLotIds, ∃ lotId ∈ designated, lotId ∈ lotIds

/-- The loop over the open sell orders. -/
def sumCommitted (lotIds : List Uuid) : List Order → Units → Except Error Units
  | [], total => .ok total
  | order :: orders, total =>
    if claimsOneOf lotIds order then do
      let remaining ← order.quantityRequested.sub order.filledQuantity
      sumCommitted lotIds orders (← total.add remaining)
    else sumCommitted lotIds orders total

/-- The lots cover the quantity, net of what other open sells have claimed. -/
def checkCoverage (named committed quantity : Units) : Except Error Unit := do
  let left ← named.sub committed
  check (quantity ≤ left) .insufficientDesignatedLots

/-- `validate`. -/
def validateDesignation (customerId securityId : Uuid) (side : OrderSide) (quantity : Units)
    (lotIds : Option (List Uuid)) : Tx (Option (List Uuid)) :=
  match lotIds with
  | none => return none
  | some lotIds => do
    lift (checkDesignation side lotIds)
    let lots ← read fun db => namedLots db customerId securityId lotIds
    let named ← lift (sumRemaining lots 0)
    let committed ← read fun db => sumCommitted lotIds (openSellOrders db customerId) 0
    lift (checkCoverage named committed quantity)
    return some lotIds

/-- **An accepted designation** names, on a sell, lots of the customer and of the security; nothing
is written. -/
theorem validateDesignation_ok {customerId securityId : Uuid} {side : OrderSide} {quantity : Units}
    {lotIds r : Option (List Uuid)} {db db' : Database}
    (h : (validateDesignation customerId securityId side quantity lotIds).run db = .ok (r, db')) :
    r = lotIds ∧ db' = db ∧ ∀ ids ∈ lotIds, side = .sell ∧ ids.Nodup ∧
      ids.length ≤ maxDesignatedLots ∧ ∀ id ∈ ids, ∃ lot ∈ db.taxLots,
        lot.id = id ∧ lot.customerId = customerId ∧ lot.securityId = securityId := by
  cases lotIds with
  | none =>
    obtain ⟨rfl, rfl⟩ := pure_ok.mp h
    exact ⟨rfl, rfl, fun ids hids => by cases hids⟩
  | some lotIds =>
    simp only [validateDesignation, bind_ok, lift_ok, read_ok, checkDesignation, except_bind_ok,
      check_ok, pure_ok] at h
    obtain ⟨_, _, ⟨⟨_, hside, _, -, _, hnodup, hlength⟩, rfl⟩, lots, _, ⟨hlots, rfl⟩, _, _, ⟨-, rfl⟩,
      _, _, ⟨-, rfl⟩, _, _, ⟨-, rfl⟩, rfl, rfl⟩ := h
    refine ⟨rfl, rfl, ?_⟩
    rintro ids ⟨⟩
    refine ⟨hside, hnodup, hlength, fun id hid => ?_⟩
    obtain ⟨lot, -, hlot⟩ := exists_of_mapM_ok hlots hid
    obtain ⟨hfind, howner⟩ := Option.filter_eq_some_iff.mp (ofOption_ok.mp hlot)
    obtain ⟨hmem, hlotId⟩ := Table.find_eq_some.mp hfind
    exact ⟨lot, hmem, hlotId, of_decide_eq_true howner⟩

end Trueup.Orders
