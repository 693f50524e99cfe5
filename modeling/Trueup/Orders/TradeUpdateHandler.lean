import Trueup.Lots.CorporateActionService
import Trueup.Orders.OrderService

/-! # Trade updates

`AlpacaTradeUpdateHandler.handle` of `services/orders/trade_update_handler.py`: a message of the
broker becomes an order event, and a fill also opens or consumes lots, in one unit of work. The push
after the commit never raises and is the value returned.

A delivery may be interrupted: `fault` names the point of the unit of work at which the process or
the connection fails, if any. -/

namespace Trueup.Orders

open Trueup.Core Trueup.Models Trueup.Lib Trueup.Lib.Transaction Trueup.Ledger Trueup.Lots

/-- `_EVENT_TYPE_BY_ALPACA_EVENT`. -/
def eventTypeOf : AlpacaEvent → Option OrderEventType
  | .new => some .accepted
  | .fill => some .fill
  | .partialFill => some .fill
  | .canceled => some .canceled
  | .expired => some .expired
  | .rejected => some .rejected
  | .other _ => none

/-- `_PUSH_WORTHY_STATUSES`. -/
def isPushWorthy (status : OrderStatus) : Bool :=
  status = .filled ∨ status = .partiallyFilled ∨ status.isTerminalNonFilled

/-- The points of a delivery at which it can be interrupted. -/
inductive HandleStage
  | afterLookup | afterProjection | beforeCommit
  deriving DecidableEq, Repr

/-- The delivery ends here if its fault is at this stage. -/
def interruptible (fault : Option HandleStage) (stage : HandleStage) : Tx Unit :=
  require (fault ≠ some stage) .interrupted

/-- `get_by_client_order_id`. -/
def findByClientOrderId (db : Database) (clientOrderId : ClientOrderId) : Option Order :=
  db.orders.rows.find? (·.clientOrderId = clientOrderId)

theorem clientOrderId_of_found {db : Database} {clientOrderId : ClientOrderId} {order : Order}
    (h : findByClientOrderId db clientOrderId = some order) :
    order.clientOrderId = clientOrderId := by
  simpa using List.find?_some h

/-- The order event of a message. -/
def eventOfMessage (env : Env) (order : Order) (eventType : OrderEventType)
    (message : TradeUpdate) : OrderEvent where
  orderId := order.id
  seq := seqFromTimestamp message.timestamp
  eventType := eventType
  executionId := if eventType = .fill then message.executionId else none
  payload := if eventType = .fill then .fill message.qty message.price else .message
  recordedAt := env.now .recordedAt

/-- `_record_lot_fill`. -/
def recordLotFill (env : Env) (order : Order) (message : TradeUpdate) : Tx Unit := do
  let executionId ← lift (ofOption message.executionId .invalidFillPayload)
  let quantity ← lift (QuantizedDecimal.ofText message.qty)
  let price ← lift (QuantizedDecimal.ofText message.price)
  let clock ← read fun db => .ok (db.marketClock env)
  let fill : Fill := {
    customerId := order.customerId, securityId := order.securityId, executionId, quantity, price
    filledAt := message.timestamp }
  match order.side with
  | .buy =>
    let _ ← recordBuyFill env clock fill
  | .sell =>
    let _ ← recordSellFill env clock fill order.designatedLotIds

/-- The unit of work of `handle` for a tracked event. -/
def handleTracked (env : Env) (fault : Option HandleStage) (eventType : OrderEventType)
    (message : TradeUpdate) : Tx (Option OrderStatus) := do
  let found ← read fun db =>
    ofOption (findByClientOrderId db message.clientOrderId) .orderNotFoundForClientOrderId
  let order ← getOrder found.id
  interruptible fault .afterLookup
  let state ← applyNewEvent env order (eventOfMessage env order eventType message)
  interruptible fault .afterProjection
  whenever (eventType = .fill) do
    recordLotFill env order message
  interruptible fault .beforeCommit
  return if isPushWorthy state.status then some state.status else none

/-- `handle`; the status pushed after the commit is returned. -/
def handle (env : Env) (fault : Option HandleStage) (message : TradeUpdate) :
    Tx (Option OrderStatus) :=
  match eventTypeOf message.event with
  | none => return none
  | some eventType => handleTracked env fault eventType message

/-! ### What a delivery did -/

/-- The fill of a message for an order. -/
def fillOfMessage (order : Order) (message : TradeUpdate) (executionId : ExecutionId)
    (quantity : Units) (price : Price) : Fill :=
  { customerId := order.customerId, securityId := order.securityId, executionId, quantity, price
    filledAt := message.timestamp }

/-- The lot side of a fill: a lot is opened or lots are consumed. -/
def LotFilled (env : Env) (order : Order) (fill : Fill) (db db' : Database) : Prop :=
  (order.side = .buy ∧
      ∃ clock lot, (recordBuyFill env clock fill).run db = .ok (lot, db')) ∨
    (order.side = .sell ∧ ∃ clock consumptions,
      (recordSellFill env clock fill order.designatedLotIds).run db = .ok (consumptions, db'))

theorem recordLotFill_ok {env : Env} {order : Order} {message : TradeUpdate} {db db' : Database}
    {u : Unit} (h : (recordLotFill env order message).run db = .ok (u, db')) :
    ∃ executionId quantity price, message.executionId = some executionId ∧
      QuantizedDecimal.ofText message.qty = .ok quantity ∧
      QuantizedDecimal.ofText message.price = .ok price ∧
      LotFilled env order (fillOfMessage order message executionId quantity price) db db' := by
  simp only [recordLotFill, bind_ok, lift_ok, ofOption_ok, read_ok] at h
  obtain ⟨x, _, ⟨hx, rfl⟩, q, _, ⟨hq, rfl⟩, p, _, ⟨hp, rfl⟩, clock, _, ⟨-, rfl⟩, h⟩ := h
  refine ⟨x, q, p, hx, hq, hp, ?_⟩
  cases hside : order.side with
  | buy =>
    rw [hside] at h
    simp only [bind_ok, pure_ok] at h
    obtain ⟨lot, _, hrun, -, rfl⟩ := h
    exact Or.inl ⟨hside, clock, lot, hrun⟩
  | sell =>
    rw [hside] at h
    simp only [bind_ok, pure_ok] at h
    obtain ⟨consumptions, _, hrun, -, rfl⟩ := h
    exact Or.inr ⟨hside, clock, consumptions, hrun⟩

/-- What a successful delivery of a tracked event did: the event arrived at its order, and the lots
of a fill followed. -/
def Handled (env : Env) (eventType : OrderEventType) (message : TradeUpdate) (order : Order)
    (state : OrderProjectionState) (db db' : Database) : Prop :=
  order ∈ db.orders ∧ findByClientOrderId db message.clientOrderId = some order ∧ ∃ mid,
    (applyNewEvent env order (eventOfMessage env order eventType message)).run db =
      .ok (state, mid) ∧
    ((eventType ≠ .fill ∧ db' = mid) ∨ (eventType = .fill ∧ ∃ executionId quantity price,
      message.executionId = some executionId ∧
      QuantizedDecimal.ofText message.qty = .ok quantity ∧
      QuantizedDecimal.ofText message.price = .ok price ∧
      LotFilled env order (fillOfMessage order message executionId quantity price) mid db'))

/-- **What a delivery did** when it returned. -/
theorem handle_ok {env : Env} {fault : Option HandleStage} {message : TradeUpdate}
    {db db' : Database} {pushed : Option OrderStatus}
    (h : (handle env fault message).run db = .ok (pushed, db')) :
    (eventTypeOf message.event = none ∧ db' = db) ∨
      ∃ eventType order state, eventTypeOf message.event = some eventType ∧
        Handled env eventType message order state db db' := by
  unfold handle at h
  split at h
  · rename_i hnone
    exact Or.inl ⟨hnone, (pure_ok.mp h).2.symm⟩
  rename_i eventType htype
  simp only [handleTracked, interruptible, bind_ok, read_ok, getOrder_ok, require_ok, whenever,
    pure_ok] at h
  obtain ⟨found, _, ⟨hfound, rfl⟩, order, _, ⟨⟨hmem, hid⟩, rfl⟩, _, _, ⟨-, rfl⟩, state, mid, hevent, _, _,
    ⟨-, rfl⟩, _, _, hlots, _, _, ⟨-, rfl⟩, -, rfl⟩ := h
  rw [ofOption_ok] at hfound
  have hmem' : found ∈ db.orders := List.mem_of_find?_eq_some hfound
  obtain rfl := Table.eq_of_key_eq hmem hmem' hid
  refine Or.inr ⟨eventType, order, state, htype, hmem, hfound, mid, hevent, ?_⟩
  split_ifs at hlots with hfill
  · exact Or.inr ⟨hfill, recordLotFill_ok hlots⟩
  · exact Or.inl ⟨hfill, (pure_ok.mp hlots).2.symm⟩

/-! ### What the lots leave alone -/

/-- The tables of the orders. -/
def orderSide (db : Database) :
    Table Order.id × Table OrderEvent.key × Table ApprovalHold.orderId :=
  (db.orders, db.orderEvents, db.approvalHolds)

theorem washSaleInvariant_orderSide
    (v : Table Order.id × Table OrderEvent.key × Table ApprovalHold.orderId) :
    WashSaleInvariant (fun db => orderSide db = v) := by
  intro db db' consumption lot hdb _ _ _ hadj
  obtain ⟨basis, realized, entry, gainLoss, cost, accounts, entries, adjustments, returns, events,
    disclosures, -, -, -, -, -, -, -, rfl⟩ := hadj
  exact hdb

theorem recordBuyFill_orderSide {env : Env} {clock : MarketClock} {fill : Fill}
    {db db' : Database} {lot : TaxLot}
    (h : (recordBuyFill env clock fill).run db = .ok (lot, db')) : orderSide db' = orderSide db := by
  obtain ⟨mid, ⟨cost, entry, units, costs, cash, accounts, entries, settlementDate, obligations,
    lots, -, -, -, -, -, -, -, -, -, -, -, -, -, -, -, -, -, rfl⟩, hrule⟩ := recordBuyFill_rule h
  exact hrule (washSaleInvariant_orderSide (orderSide db)) rfl

theorem recordSellFill_orderSide {env : Env} {clock : MarketClock} {fill : Fill}
    {designatedLotIds : Option (List Uuid)} {db db' : Database} {consumptions : List Uuid}
    (h : (recordSellFill env clock fill designatedLotIds).run db = .ok (consumptions, db')) :
    orderSide db' = orderSide db := by
  obtain ⟨fillDate, lotIds, sale, db1, db2, db3, hselect, -, hloop, -, hposted, hrule⟩ :=
    recordSellFill_rule h
  refine hrule (washSaleInvariant_orderSide (orderSide db)) ?_
  have h2 : orderSide db2 = orderSide db := by
    refine soldLots_keeps (I := fun s => orderSide s = orderSide db) (fun hs _ => hs)
      (fun hs hc => ?_) hselect hloop rfl
    obtain ⟨table, -, rfl⟩ := hc.wrote
    exact hs
  obtain ⟨proceeds, entry, units, costs, cash, gainLoss, accounts, entries, settlementDate,
    obligations, -, -, -, -, -, -, -, -, -, -, -, rfl⟩ := hposted
  exact h2

/-- **The lots leave the orders, their events and the holds alone.** -/
theorem LotFilled.orderSide {env : Env} {order : Order} {fill : Fill} {db db' : Database}
    (h : LotFilled env order fill db db') : orderSide db' = orderSide db := by
  rcases h with ⟨-, clock, lot, hrun⟩ | ⟨-, clock, consumptions, hrun⟩
  · exact recordBuyFill_orderSide hrun
  · exact recordSellFill_orderSide hrun

end Trueup.Orders
