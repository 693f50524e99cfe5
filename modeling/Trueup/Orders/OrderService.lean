import Trueup.Identity.Eligibility
import Trueup.Ledger.CashPolicy
import Trueup.Orders.OrderProjection

/-! # The order state machine

`services/orders/order_service.py`: creation with the investable check and the hold, approval, and
submission to the broker, whose answer is an input of the step. -/

namespace Trueup.Orders

open Trueup.Core Trueup.Models Trueup.Lib Trueup.Lib.Transaction Trueup.Ledger Trueup.Identity

structure OrderCreationRequest where
  customerId : Uuid
  securityId : Uuid
  side : OrderSide
  quantity : Units
  referencePrice : Price
  deriving DecidableEq

/-- The gate of `create_order`: a buy may cost at most what is investable. -/
def requireInvestable (request : OrderCreationRequest) (notional : Money) : Tx Unit :=
  whenever (request.side = .buy) do
    let available ← read fun db => investable db request.customerId
    require (notional ≤ available) (.insufficientInvestableCash notional available)

/-- The status an order is created with: above the threshold it awaits approval. -/
def initialStatus (env : Env) (notional : Money) : OrderStatus :=
  if env.approvalThresholdUsd < notional then .awaitingApproval else .approved

/-- The row `create_order` inserts. -/
def newOrder (env : Env) (request : OrderCreationRequest) (notional : Money) : Order where
  id := env.uuid4 .order
  customerId := request.customerId
  securityId := request.securityId
  side := request.side
  quantityRequested := request.quantity
  status := initialStatus env notional
  filledQuantity := 0
  averageFillPrice := none
  designatedLotIds := none
  clientOrderId := .trueup (env.uuid4 .order)

/-- `create_order`. -/
def createOrder (env : Env) (request : OrderCreationRequest) : Tx Order := do
  requireEligibleCustomer request.customerId
  let notional ← lift (Price.times request.referencePrice request.quantity)
  requireInvestable request notional
  let order := newOrder env request notional
  addOrder order
  openHold order.id request.customerId notional
  return order

/-- The order request of the API: the order, with the lots the customer designated. -/
def placeOrder (env : Env) (request : OrderCreationRequest)
    (designatedLotIds : Option (List Uuid)) : Tx Order := do
  let order ← createOrder env request
  setOrder { order with designatedLotIds }
  return { order with designatedLotIds }

/-- `get_for_update`, of an order that must exist. -/
def getOrder (orderId : Uuid) : Tx Order :=
  read fun db => ofOption (db.orders.find orderId) .orderNotFound

/-- `approve`. -/
def approve (orderId : Uuid) : Tx Order := do
  let order ← getOrder orderId
  require (order.status = .awaitingApproval) (.invalidOrderTransition order.status)
  setOrder { order with status := .approved }
  return { order with status := .approved }

/-- `_synthesize_event`. -/
def synthesizeEvent (env : Env) (order : Order) (eventType : OrderEventType)
    (payload : EventPayload) : Tx Unit := do
  let _ ← applyNewEvent env order {
    orderId := order.id
    seq := seqFromTimestamp (env.now .seq)
    eventType
    executionId := none
    payload
    recordedAt := env.now .recordedAt }

/-- `submit_to_broker`; `broker` is what `submit_order` answered. -/
def submitToBroker (env : Env) (orderId : Uuid) (broker : Except Error String) : Tx Unit := do
  let found ← read fun db => .ok (db.orders.find orderId)
  match found with
  | none => return ()
  | some order =>
    whenever (order.status = .approved) do
      let reason ← read fun db => .ok (ineligibility db order.customerId)
      match reason with
      | some reason => synthesizeEvent env order .rejected (.rejection reason)
      | none =>
        let brokerOrderId ← lift broker
        synthesizeEvent env order .submitted (.submission brokerOrderId)

/-! ### What each step did -/

/-- The hold `create_order` opens. -/
def newHold (orderId customerId : Uuid) (amountMoney : Money) : ApprovalHold :=
  ⟨orderId, customerId, amountMoney, .active, none, none⟩

theorem requireInvestable_ok {request : OrderCreationRequest} {notional : Money}
    {db db' : Database} {u : Unit}
    (h : (requireInvestable request notional).run db = .ok (u, db')) :
    db' = db ∧ (request.side = .buy →
      ∃ available, investable db request.customerId = .ok available ∧ notional ≤ available) := by
  rw [requireInvestable, whenever] at h
  split_ifs at h with hside
  · simp only [bind_ok, read_ok, require_ok] at h
    obtain ⟨available, _, ⟨hav, rfl⟩, hle, rfl⟩ := h
    exact ⟨rfl, fun _ => ⟨available, hav, hle⟩⟩
  · obtain ⟨-, rfl⟩ := pure_ok.mp h
    exact ⟨rfl, fun hbuy => absurd hbuy hside⟩

/-- **What `create_order` wrote**: the order and its active hold; a buy passed the gate. -/
theorem createOrder_ok {env : Env} {request : OrderCreationRequest} {db db' : Database}
    {order : Order} (h : (createOrder env request).run db = .ok (order, db')) :
    ∃ amount orders holds,
      amount.quanta = notional request.referencePrice request.quantity ∧
      order = newOrder env request amount ∧
      (request.side = .buy →
        ∃ available, investable db request.customerId = .ok available ∧ amount ≤ available) ∧
      db.orders.insert order = some orders ∧
      db.approvalHolds.insert (newHold order.id request.customerId amount) = some holds ∧
      db' = { db with orders := orders, approvalHolds := holds } := by
  simp only [createOrder, requireEligibleCustomer, bind_ok, requireEligible_ok, lift_ok,
    addOrder_ok, openHold, addApprovalHold_ok, pure_ok] at h
  obtain ⟨_, _, ⟨-, rfl⟩, amount, _, ⟨hamount, rfl⟩, _, _, hgate, _, _, ⟨orders, horders, rfl⟩, _,
    _, ⟨holds, hholds, rfl⟩, rfl, rfl⟩ := h
  obtain ⟨rfl, hgate⟩ := requireInvestable_ok hgate
  exact ⟨amount, orders, holds, Price.times_ok.mp hamount, rfl, hgate, horders, hholds, rfl⟩

theorem placeOrder_ok {env : Env} {request : OrderCreationRequest}
    {designatedLotIds : Option (List Uuid)} {db db' : Database} {order : Order}
    (h : (placeOrder env request designatedLotIds).run db = .ok (order, db')) :
    ∃ created mid, (createOrder env request).run db = .ok (created, mid) ∧
      order = { created with designatedLotIds } ∧
      db' = { mid with orders := mid.orders.set order } := by
  simp only [placeOrder, bind_ok, setOrder_ok, pure_ok] at h
  obtain ⟨created, mid, hcreated, _, _, rfl, rfl, rfl⟩ := h
  exact ⟨created, mid, hcreated, rfl, rfl⟩

theorem getOrder_ok {orderId : Uuid} {db db' : Database} {order : Order} :
    (getOrder orderId).run db = .ok (order, db') ↔
      (order ∈ db.orders ∧ order.id = orderId) ∧ db = db' := by
  rw [getOrder, read_ok, ofOption_ok, Table.find_eq_some]

theorem approve_ok {orderId : Uuid} {db db' : Database} {order : Order}
    (h : (approve orderId).run db = .ok (order, db')) :
    ∃ before ∈ db.orders, before.id = orderId ∧ before.status = .awaitingApproval ∧
      order = { before with status := .approved } ∧
      db' = { db with orders := db.orders.set order } := by
  simp only [approve, bind_ok, getOrder_ok, require_ok, setOrder_ok, pure_ok] at h
  obtain ⟨before, _, ⟨⟨hmem, hid⟩, rfl⟩, _, _, ⟨hst, rfl⟩, _, _, rfl, rfl, rfl⟩ := h
  exact ⟨before, hmem, hid, hst, rfl, rfl⟩

/-- **What `submit_to_broker` did**: nothing, or the event of an approved order. -/
theorem submitToBroker_event {env : Env} {orderId : Uuid} {broker : Except Error String}
    {db db' : Database} {u : Unit} (h : (submitToBroker env orderId broker).run db = .ok (u, db')) :
    db' = db ∨ ∃ order ∈ db.orders, order.id = orderId ∧ ∃ event state, order.status = .approved ∧
      event.orderId = order.id ∧ event.executionId = none ∧
      (event.eventType = .rejected ∨ event.eventType = .submitted) ∧
      (applyNewEvent env order event).run db = .ok (state, db') := by
  simp only [submitToBroker, bind_ok, read_ok] at h
  obtain ⟨found, _, ⟨hfound, rfl⟩, h⟩ := h
  cases hfound
  split at h
  · exact Or.inl (pure_ok.mp h).2.symm
  rename_i order hsome
  obtain ⟨hmem, hid⟩ := Table.find_eq_some.mp hsome
  rw [whenever] at h
  split_ifs at h with hst
  swap
  · exact Or.inl (pure_ok.mp h).2.symm
  simp only [bind_ok, read_ok] at h
  obtain ⟨reason, _, ⟨-, rfl⟩, h⟩ := h
  cases reason with
  | some reason =>
    simp only [synthesizeEvent, bind_ok, pure_ok] at h
    obtain ⟨state, _, hev, -, rfl⟩ := h
    exact Or.inr ⟨order, hmem, hid, _, state, hst, rfl, rfl, Or.inl rfl, hev⟩
  | none =>
    simp only [synthesizeEvent, bind_ok, lift_ok, pure_ok] at h
    obtain ⟨_, _, ⟨-, rfl⟩, state, _, hev, -, rfl⟩ := h
    exact Or.inr ⟨order, hmem, hid, _, state, hst, rfl, rfl, Or.inr rfl, hev⟩

theorem submitToBroker_ok {env : Env} {orderId : Uuid} {broker : Except Error String}
    {db db' : Database} {u : Unit} (h : (submitToBroker env orderId broker).run db = .ok (u, db')) :
    db' = db ∨ ∃ order ∈ db.orders, ∃ event state, order.status = .approved ∧
      event.orderId = order.id ∧ event.executionId = none ∧
      (event.eventType = .rejected ∨ event.eventType = .submitted) ∧
      (applyNewEvent env order event).run db = .ok (state, db') := by
  rcases submitToBroker_event h with hsame | ⟨order, hmem, -, harrived⟩
  · exact Or.inl hsame
  · exact Or.inr ⟨order, hmem, harrived⟩

end Trueup.Orders
