import Trueup.Cash.LedgerView

/-! # What a unit of work does to the orders

`body_orders`: a unit of work leaves the orders alone, places one, approves one, or an event arrives
at one. The results about the orders of a run go by these cases. -/

namespace Trueup.Cash

open Trueup.Core Trueup.Models Trueup.Lib Trueup.Lib.Transaction Trueup.Ledger Trueup.Lots
open Trueup.Identity Trueup.Orders Trueup.System

/-- The order a unit of work is about. -/
def Concerns (orderId : Uuid) (op : Op) : Prop :=
  match op with
  | .approve id => id = orderId
  | .submitToBroker id _ => id = orderId
  | .tradeUpdate _ message => message.clientOrderId = .trueup orderId
  | _ => False

instance (orderId : Uuid) (op : Op) : Decidable (Concerns orderId op) := by
  unfold Concerns; split <;> infer_instance

/-- The event that a unit of work brings to an order: the submission's, or the message's. -/
def Brings (step : Step) (order : Order) (event : OrderEvent) : Prop :=
  match step.op with
  | .submitToBroker id _ => id = order.id ∧ order.status = .approved ∧ event.orderId = order.id ∧
      (event.eventType = .rejected ∨ event.eventType = .submitted)
  | .tradeUpdate _ message => message.clientOrderId = order.clientOrderId ∧
      ∃ eventType ∈ eventTypeOf message.event,
        event = eventOfMessage step.env order eventType message
  | _ => False

/-- After an event its lots follow, if it is a fill. -/
def Followed (env : Env) (order : Order) (event : OrderEvent) (db db' : Database) : Prop :=
  (event.eventType ≠ .fill ∧ db' = db) ∨
    ∃ fill, fillOf event = .ok (fill.quantity, fill.price) ∧ fill.customerId = order.customerId ∧
      event.eventType = .fill ∧ LotFilled env order fill db db'

theorem Followed.orderSide {env : Env} {order : Order} {event : OrderEvent} {db db' : Database}
    (h : Followed env order event db db') : orderSide db' = orderSide db := by
  rcases h with ⟨-, rfl⟩ | ⟨fill, -, -, -, hlots⟩
  · rfl
  · exact hlots.orderSide

/-- What a unit of work did to the orders. -/
inductive OrderStep (step : Step) (db db' : Database) : Prop
  | idle (h : db' = db)
  | elsewhere (hnot : ∀ id, ¬ Concerns id step.op) (h : orderSide db' = orderSide db)
  | placed (hnot : ∀ id, ¬ Concerns id step.op) (request : OrderCreationRequest)
      (designatedLotIds : Option (List Uuid)) (order : Order)
      (h : (placeOrder step.env request designatedLotIds).run db = .ok (order, db'))
  | approved (order : Order) (hmem : order ∈ db.orders) (hop : step.op = .approve order.id)
      (hstatus : order.status = .awaitingApproval)
      (h : db' = { db with orders := db.orders.set { order with status := .approved } })
  | arrived (order : Order) (event : OrderEvent) (state : OrderProjectionState) (mid : Database)
      (hmem : order ∈ db.orders) (hid : event.orderId = order.id) (hbrings : Brings step order event)
      (h : (applyNewEvent step.env order event).run db = .ok (state, mid))
      (hfollowed : Followed step.env order event mid db')

theorem fillOf_eventOfMessage {env : Env} {order : Order} {message : TradeUpdate}
    {quantity : Units} {price : Price} :
    fillOf (eventOfMessage env order .fill message) = .ok (quantity, price) ↔
      QuantizedDecimal.ofText message.qty = .ok quantity ∧
        QuantizedDecimal.ofText message.price = .ok price := by
  simp only [fillOf, eventOfMessage, if_true, fillTexts, except_bind_ok]
  constructor
  · rintro ⟨q, hq, p, hp, h⟩
    cases h
    exact ⟨hq, hp⟩
  · rintro ⟨hq, hp⟩
    exact ⟨quantity, hq, price, hp, rfl⟩

/-- **The step lemma of the orders.** -/
theorem body_orders {step : Step} {db db' : Database} {u : Unit}
    (h : (body step).run db = .ok (u, db')) : OrderStep step db db' := by
  obtain ⟨env, op⟩ := step
  cases op with
  | initiateDeposit customerId amount =>
    obtain ⟨r, hrun⟩ := discard_ok h
    exact .elsewhere (fun _ => id) (initiateDeposit_posts hrun).2.orders.1
  | confirmSettlement obligationId =>
    obtain ⟨v, -, hs⟩ := confirmSettlement_settles h
    exact .elsewhere (fun _ => id) hs.orders.1
  | applyAchReturn obligationId =>
    obtain ⟨v, mid, -, hs, hp⟩ := applyAchReturn_settles h
    exact .elsewhere (fun _ => id) (hp.orders.1.trans hs.orders.1)
  | initiateWithdrawal customerId amount =>
    obtain ⟨r, hrun⟩ := discard_ok h
    exact .elsewhere (fun _ => id) (initiateWithdrawal_posts hrun).orders.1
  | placeOrder request designatedLotIds =>
    obtain ⟨r, hrun⟩ := discard_ok h
    exact .placed (fun _ => id) request designatedLotIds r hrun
  | approve orderId =>
    obtain ⟨r, hrun⟩ := discard_ok h
    obtain ⟨order, hmem, rfl, hstatus, rfl, rfl⟩ := approve_ok hrun
    exact .approved order hmem rfl hstatus rfl
  | submitToBroker orderId broker =>
    rcases submitToBroker_event h with hsame | ⟨order, hmem, hid, event, state, hstatus, hevent, -,
      htype, hrun⟩
    · exact .idle hsame
    · refine .arrived order event state db' hmem hevent ⟨hid.symm, hstatus, hevent, htype⟩ hrun
        (Or.inl ⟨?_, rfl⟩)
      rcases htype with htype | htype <;> rw [htype] <;> decide
  | tradeUpdate fault message =>
    obtain ⟨r, hrun⟩ := discard_ok h
    rcases handle_ok hrun with ⟨-, hsame⟩ | ⟨eventType, order, state, htype, hmem, hfound, mid,
      hevent, hlots⟩
    · exact .idle hsame
    · refine .arrived order _ state mid hmem rfl
        ⟨(clientOrderId_of_found hfound).symm, eventType, htype, rfl⟩ hevent ?_
      rcases hlots with ⟨hne, hsame⟩ | ⟨rfl, x, quantity, price, -, hquantity, hprice, hlots⟩
      · exact Or.inl ⟨hne, hsame⟩
      · exact Or.inr ⟨_, fillOf_eventOfMessage.mpr ⟨hquantity, hprice⟩, rfl, rfl, hlots⟩
  | applySplit securityId ratio effectiveDate =>
    exact .elsewhere (fun _ => id) (applySplit_unseen h).2.1

end Trueup.Cash
