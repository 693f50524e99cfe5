import Trueup.Core.Clock

/-! # The rows of the orders

`models/orders`: orders, their events and their approval holds, and the trade updates the broker
sends. The quantity and the price of a fill are kept as the broker wrote them, `none` for a missing
text and for one that is not a finite decimal. -/

namespace Trueup.Models

open Trueup.Core

/-- A `client_order_id`: one `derive_client_order_id` makes, or any other text. -/
inductive ClientOrderId
  | trueup (orderId : Uuid)
  | other (text : String)
  deriving DecidableEq, Repr

structure Order where
  id : Uuid
  customerId : Uuid
  securityId : Uuid
  side : OrderSide
  quantityRequested : Units
  status : OrderStatus
  filledQuantity : Units
  averageFillPrice : Option Price
  designatedLotIds : Option (List Uuid)
  clientOrderId : ClientOrderId
  deriving DecidableEq

/-- `TERMINAL_NON_FILLED_STATUSES`. -/
def OrderStatus.isTerminalNonFilled : OrderStatus → Bool
  | .rejected | .canceled | .expired => true
  | _ => false

/-- The statuses of `open_buy_orders`. -/
def OrderStatus.isOpen : OrderStatus → Bool
  | .submitted | .accepted | .partiallyFilled => true
  | _ => false

/-- The JSON payload of an order event. -/
inductive EventPayload
  /-- `{"quantity": ..., "price": ...}` -/
  | fill (quantity price : Option ℚ)
  /-- `{"broker_order_id": ...}` -/
  | submission (brokerOrderId : String)
  /-- `{"reason": ...}` -/
  | rejection (reason : Ineligibility)
  /-- The message of the broker, as it came. -/
  | message
  deriving DecidableEq

structure OrderEvent where
  orderId : Uuid
  seq : ℤ
  eventType : OrderEventType
  executionId : Option ExecutionId
  payload : EventPayload
  recordedAt : Datetime
  deriving DecidableEq

structure ApprovalHold where
  orderId : Uuid
  customerId : Uuid
  amountMoney : Money
  status : ApprovalHoldStatus
  releasedAt : Option Datetime
  releaseReason : Option ApprovalHoldReleaseReason
  deriving DecidableEq

/-- The payload of `submit_order_to_broker`. -/
structure OrderSubmission where
  orderId : Uuid
  symbol : String
  deriving DecidableEq

/-- The `event` of a trade update. -/
inductive AlpacaEvent
  | new | fill | partialFill | canceled | expired | rejected
  | other (text : String)
  deriving DecidableEq, Repr

/-- `_AlpacaTradeUpdatePayload`, after validation. -/
structure TradeUpdate where
  event : AlpacaEvent
  executionId : Option ExecutionId
  clientOrderId : ClientOrderId
  timestamp : Datetime
  price : Option ℚ
  qty : Option ℚ
  deriving DecidableEq

end Trueup.Models
