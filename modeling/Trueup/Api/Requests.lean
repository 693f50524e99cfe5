import Trueup.Api.IdempotencyKeys
import Trueup.Lib.Idempotency

/-! # The requests that carry a key

`create_deposit` and `create_withdrawal` of `controllers/api/funding.py` and `create_order` of
`controllers/api/orders.py`, from their unit of work on: the lookup of the key, the service, the
record of the response, the commit. The services are those of the other modules, here as the
statements they send, with the locks they take; the cash lock is taken after the checks of the
customer, and the row that it locks is there since the approval of the account.

`serial_depositWork`, `serial_withdrawalWork` and `serial_placeOrderWork`: on its own, each is the
service. -/

namespace Trueup.Api

open Trueup.Core Trueup.Models Trueup.Lib Trueup.Lib.Transaction Trueup.Lib.Scripts
open Trueup.Lib.Scripts.Script Trueup.Identity Trueup.Orders Trueup.Ledger

/-! ### The services as statements -/

/-- `DepositService.initiate`. -/
def depositWork (env : Env) (customerId : Uuid) (amount : Money) : Statements DepositResult := do
  observe (checkFundingEligibility customerId)
  let _ ← observe (checkActiveBankLink customerId)
  acquire (.cash customerId)
  let today := (env.now .effectiveDate).instant.utcDate
  let depositedToday ← select fun db => depositedOn db customerId today
  compute (checkDepositCaps amount depositedToday env.depositCapPerTransaction env.depositCapPerDay)
  let cashAccount ← observe (requireCustomerAccount customerId .cash)
  let equityAccount ← observe (requireCustomerAccount customerId .customerEquity)
  let entry ← post (env.uuid4 .journalEntry) .deposit today (.depositInitiated customerId amount)
    [.money cashAccount amount, .money equityAccount amount.neg]
  let obligation := depositObligation env customerId amount entry.id cashAccount today
  perform (addSettlementObligation obligation)
  return ⟨entry.id, obligation.id, obligation.expectedSettlementDate⟩

/-- `CashPolicyService.withdrawable`. -/
def withdrawableWork (customerId : Uuid) : Statements Money := do
  let settled ← select fun db => settledCash db customerId
  let held ← select fun db => holds db customerId
  compute (settled.sub held)

/-- `WithdrawalService.initiate`. -/
def withdrawalWork (env : Env) (customerId : Uuid) (amount : Money) :
    Statements WithdrawalResult := do
  observe (checkFundingEligibility customerId)
  let destination ← observe (checkActiveBankLink customerId)
  acquire (.cash customerId)
  let available ← withdrawableWork customerId
  compute (check (amount ≤ available) .insufficientWithdrawableCash)
  let cashAccount ← observe (requireCustomerAccount customerId .cash)
  let equityAccount ← observe (requireCustomerAccount customerId .customerEquity)
  let entry ← post (env.uuid4 .journalEntry) .withdrawal (env.now .effectiveDate).instant.utcDate
    (.withdrawalInitiated customerId amount)
    [.money cashAccount amount.neg, .money equityAccount amount]
  return ⟨entry.id, destination.id⟩

/-- What one open buy order still commits; the hold is read when there is no average fill price. -/
def commitmentWork (order : Order) : Statements Money := do
  let remaining ← compute (order.quantityRequested.sub order.filledQuantity)
  match order.averageFillPrice with
  | some price => compute (Price.times price remaining)
  | none =>
    let hold ← select fun db => .ok (db.approvalHolds.find order.id)
    return hold.elim 0 (·.amountMoney)

/-- The loop of `open_buy_commitments`. -/
def sumCommitmentsWork : List Order → Money → Statements Money
  | [], total => return total
  | order :: orders, total => do
    let amount ← commitmentWork order
    let total' ← compute (total.add amount)
    sumCommitmentsWork orders total'

/-- `OrderHoldsProvider.open_buy_commitments`. -/
def openBuyCommitmentsWork (customerId : Uuid) : Statements Money := do
  let orders ← select fun db => .ok (openBuyOrders db customerId)
  sumCommitmentsWork orders 0

/-- `CashPolicyService.investable`. -/
def investableWork (customerId : Uuid) : Statements Money := do
  let settled ← select fun db => settledCash db customerId
  let sale ← select fun db => unsettledSaleProceeds db customerId
  let a ← compute (settled.add sale)
  let deposits ← select fun db => unsettledDepositProceeds db customerId
  let b ← compute (a.add deposits)
  let commitments ← openBuyCommitmentsWork customerId
  let c ← compute (b.sub commitments)
  let held ← select fun db => holds db customerId
  compute (c.sub held)

/-- `LotDesignationService.validate`; the named lots that there are get locked. -/
def designationWork (customerId securityId : Uuid) (side : OrderSide) (quantity : Units) :
    Option (List Uuid) → Statements (Option (List Uuid))
  | none => return none
  | some lotIds => do
    compute (checkDesignation side lotIds)
    let found ← select fun db => .ok (lotIds.filter fun lotId => (db.taxLots.find lotId).isSome)
    each (fun lotId => acquire (.lot lotId)) found
    let lots ← select fun db => namedLots db customerId securityId lotIds
    let named ← compute (sumRemaining lots 0)
    let committed ← select fun db => sumCommitted lotIds (openSellOrders db customerId) 0
    compute (checkCoverage named committed quantity)
    return some lotIds

/-- The gate of `create_order`. -/
def requireInvestableWork (request : OrderCreationRequest) (notional : Money) : Statements Unit :=
  if request.side = .buy then do
    let available ← investableWork request.customerId
    compute (check (notional ≤ available) (.insufficientInvestableCash notional available))
  else return ()

/-- `OrderService.create_order`. -/
def createOrderWork (env : Env) (request : OrderCreationRequest) : Statements Order := do
  observe (requireEligibleCustomer request.customerId)
  acquire (.cash request.customerId)
  let notional ← compute (Price.times request.referencePrice request.quantity)
  requireInvestableWork request notional
  let order := newOrder env request notional
  perform (addOrder order)
  perform (openHold order.id request.customerId notional)
  return order

/-- The order request of the API: the lots are validated, the order is created, and the lots are
set. -/
def placeOrderWork (env : Env) (request : OrderCreationRequest) (lotIds : Option (List Uuid)) :
    Statements Order := do
  let designatedLotIds ← designationWork request.customerId request.securityId request.side
    request.quantity lotIds
  let order ← createOrderWork env request
  perform (setOrder { order with designatedLotIds })
  return { order with designatedLotIds }

/-- `enqueue_submission`, of an approved order. -/
def submissionWork (env : Env) (order : Order) : Statements Unit :=
  if order.status = .approved then do
    let security ← select fun db => ofOption (db.securities.find order.securityId) .securityNotFound
    execute (enqueueSubmission
      (.enqueued (env.uuid4 .jobOutbox) ⟨order.id, security.symbol⟩ env.transactionStart))
  else return ()

/-- `_to_order_response`, of an order of this transaction. -/
def toOrderResponse (env : Env) (symbol : String) (order : Order) : OrderResponse where
  id := order.id
  customerId := order.customerId
  securityId := order.securityId
  symbol := symbol
  side := order.side
  quantityRequested := order.quantityRequested
  status := order.status
  filledQuantity := order.filledQuantity
  averageFillPrice := order.averageFillPrice
  clientOrderId := order.clientOrderId
  designatedLotIds := order.designatedLotIds.filter (· ≠ [])
  createdAt := env.transactionStart
  updatedAt := env.transactionStart

/-- What `create_order` of the API does for a new key. -/
def orderWork (env : Env) (request : OrderCreationRequest) (lotIds : Option (List Uuid)) :
    Statements OrderResponse := do
  let order ← placeOrderWork env request lotIds
  submissionWork env order
  let security ← select fun db => .ok (db.securities.find order.securityId)
  return toOrderResponse env (security.elim "" (·.symbol)) order

/-! ### On their own -/

theorem reads_withdrawable (customerId : Uuid) :
    Reads (withdrawableWork customerId) fun db => withdrawable db customerId :=
  reads_bind (reads_select _) fun _ => reads_bind (reads_select _) fun _ => reads_compute _

theorem reads_commitment (order : Order) :
    Reads (commitmentWork order) fun db => commitment db order := by
  refine reads_bind (reads_compute _) fun remaining => ?_
  cases order.averageFillPrice with
  | some price => exact reads_compute _
  | none =>
    dsimp only
    have hread := reads_bind (reads_select fun db => .ok (db.approvalHolds.find order.id))
      fun hold => reads_pure (hold.elim 0 (·.amountMoney))
    convert hread using 2 with db
    cases db.approvalHolds.find order.id with
    | none => rfl
    | some hold => rfl

theorem reads_sumCommitments : ∀ (orders : List Order) (total : Money),
    Reads (sumCommitmentsWork orders total) fun db => sumCommitments db orders total
  | [], total => reads_pure total
  | order :: orders, _ =>
    reads_bind (reads_commitment order) fun _ => reads_bind (reads_compute _) fun total =>
      reads_sumCommitments orders total

theorem reads_openBuyCommitments (customerId : Uuid) :
    Reads (openBuyCommitmentsWork customerId) fun db => openBuyCommitments db customerId :=
  reads_bind (reads_select _) fun orders => reads_sumCommitments orders 0

theorem reads_investable (customerId : Uuid) :
    Reads (investableWork customerId) fun db => investable db customerId :=
  reads_bind (reads_select _) fun _ => reads_bind (reads_select _) fun _ =>
    reads_bind (reads_compute _) fun _ => reads_bind (reads_select _) fun _ =>
      reads_bind (reads_compute _) fun _ => reads_bind (reads_openBuyCommitments customerId) fun _ =>
        reads_bind (reads_compute _) fun _ => reads_bind (reads_select _) fun _ => reads_compute _

theorem serial_depositWork (env : Env) (customerId : Uuid) (amount : Money) :
    (depositWork env customerId amount).serial =
      onDatabase (initiateDeposit env customerId amount) := by
  have haccount : ∀ role, role ≠ .customerReceivable →
      accountFor customerId role = requireCustomerAccount customerId role := fun role h => if_neg h
  simp only [depositWork, initiateDeposit, haccount .cash (by decide),
    haccount .customerEquity (by decide), serial_bind, serial_select, serial_compute,
    serial_acquire, serial_post, serial_perform, serial_pure, pure_bind,
    serial_observe (x := checkFundingEligibility customerId) rfl,
    serial_observe (x := checkActiveBankLink customerId) rfl,
    serial_observe (x := requireCustomerAccount customerId _) rfl,
    onDatabase_bind, onDatabase_lift, onDatabase_pure]

theorem serial_withdrawalWork (env : Env) (customerId : Uuid) (amount : Money) :
    (withdrawalWork env customerId amount).serial =
      onDatabase (initiateWithdrawal env customerId amount) := by
  have hwithdrawable := reads_withdrawable customerId
  unfold Reads at hwithdrawable
  simp only [withdrawalWork, initiateWithdrawal, serial_bind, hwithdrawable, serial_compute,
    serial_acquire, serial_post, serial_pure, pure_bind,
    serial_observe (x := checkFundingEligibility customerId) rfl,
    serial_observe (x := checkActiveBankLink customerId) rfl,
    serial_observe (x := requireCustomerAccount customerId _) rfl,
    onDatabase_bind, onDatabase_lift, onDatabase_pure, require]

theorem serial_each_acquire {β : Type} (lock : β → Lock) : ∀ bs : List β,
    (Script.each (fun b => acquire (lock b)) bs : Statements Unit).serial = pure ()
  | [] => rfl
  | b :: bs => by
    rw [Script.each, serial_bind, serial_acquire, pure_bind, serial_each_acquire lock bs]

theorem serial_designationWork (customerId securityId : Uuid) (side : OrderSide) (quantity : Units)
    (lotIds : Option (List Uuid)) :
    (designationWork customerId securityId side quantity lotIds).serial =
      onDatabase (validateDesignation customerId securityId side quantity lotIds) := by
  cases lotIds with
  | none => rfl
  | some lotIds =>
    have hlocks : ∀ (f : Database → List Uuid) {β : Type} (x : Transaction.Tx Error Store β),
        (onDatabase (Transaction.read fun db => .ok (f db)) >>= fun _ => x) = x :=
      fun f _ x => rfl
    simp only [designationWork, validateDesignation, serial_bind, serial_compute, serial_select,
      serial_each_acquire, serial_pure, pure_bind, hlocks, onDatabase_bind, onDatabase_lift,
      onDatabase_pure]

theorem serial_requireInvestableWork (request : OrderCreationRequest) (notional : Money) :
    (requireInvestableWork request notional).serial =
      onDatabase (requireInvestable request notional) := by
  have hinvestable := reads_investable request.customerId
  unfold Reads at hinvestable
  unfold requireInvestableWork requireInvestable whenever
  split_ifs
  · simp only [serial_bind, hinvestable, serial_compute, onDatabase_bind, require, onDatabase_lift]
  · rfl

theorem serial_createOrderWork (env : Env) (request : OrderCreationRequest) :
    (createOrderWork env request).serial = onDatabase (createOrder env request) := by
  simp only [createOrderWork, createOrder, serial_bind, serial_acquire, serial_compute,
    serial_requireInvestableWork, serial_perform, serial_pure, pure_bind,
    serial_observe (x := requireEligibleCustomer request.customerId) rfl, onDatabase_bind,
    onDatabase_lift, onDatabase_pure]

theorem serial_placeOrderWork (env : Env) (request : OrderCreationRequest)
    (lotIds : Option (List Uuid)) : (placeOrderWork env request lotIds).serial =
      onDatabase (validateDesignation request.customerId request.securityId request.side
        request.quantity lotIds >>= placeOrder env request) := by
  have hplace : placeOrder env request = fun designatedLotIds => do
      let order ← createOrder env request
      setOrder { order with designatedLotIds }
      return { order with designatedLotIds } := rfl
  simp only [placeOrderWork, hplace, serial_bind, serial_designationWork, serial_createOrderWork,
    serial_perform, serial_pure, onDatabase_bind, onDatabase_pure]

/-! ### The records are left alone -/

section Leaves
variable (env : Env) (customerId : Uuid)

theorem leaves_depositWork (amount : Money) :
    Leaves Store.idempotencyKeys (depositWork env customerId amount) :=
  leaves_bind (leaves_observe _) fun _ => leaves_bind (leaves_observe _) fun _ =>
    leaves_bind (leaves_acquire _) fun _ => leaves_bind (leaves_select _) fun _ =>
      leaves_bind (leaves_compute _) fun _ => leaves_bind (leaves_observe _) fun _ =>
        leaves_bind (leaves_observe _) fun _ => leaves_bind (leaves_post _ _ _ _ _) fun _ =>
          leaves_bind (leaves_perform _) fun _ => leaves_pure _

theorem leaves_withdrawableWork : Leaves Store.idempotencyKeys (withdrawableWork customerId) :=
  leaves_bind (leaves_select _) fun _ => leaves_bind (leaves_select _) fun _ => leaves_compute _

theorem leaves_withdrawalWork (amount : Money) :
    Leaves Store.idempotencyKeys (withdrawalWork env customerId amount) :=
  leaves_bind (leaves_observe _) fun _ => leaves_bind (leaves_observe _) fun _ =>
    leaves_bind (leaves_acquire _) fun _ => leaves_bind (leaves_withdrawableWork customerId) fun _ =>
      leaves_bind (leaves_compute _) fun _ => leaves_bind (leaves_observe _) fun _ =>
        leaves_bind (leaves_observe _) fun _ => leaves_bind (leaves_post _ _ _ _ _) fun _ =>
          leaves_pure _

theorem leaves_commitmentWork (order : Order) :
    Leaves Store.idempotencyKeys (commitmentWork order) := by
  refine leaves_bind (leaves_compute _) fun _ => ?_
  cases order.averageFillPrice with
  | some price => exact leaves_compute _
  | none => exact leaves_bind (leaves_select _) fun _ => leaves_pure _

theorem leaves_sumCommitmentsWork : ∀ (orders : List Order) (total : Money),
    Leaves Store.idempotencyKeys (sumCommitmentsWork orders total)
  | [], _ => leaves_pure _
  | order :: orders, _ => leaves_bind (leaves_commitmentWork order) fun _ =>
    leaves_bind (leaves_compute _) fun total => leaves_sumCommitmentsWork orders total

theorem leaves_investableWork : Leaves Store.idempotencyKeys (investableWork customerId) :=
  leaves_bind (leaves_select _) fun _ => leaves_bind (leaves_select _) fun _ =>
    leaves_bind (leaves_compute _) fun _ => leaves_bind (leaves_select _) fun _ =>
      leaves_bind (leaves_compute _) fun _ =>
        leaves_bind (leaves_bind (leaves_select _) fun _ => leaves_sumCommitmentsWork _ _) fun _ =>
          leaves_bind (leaves_compute _) fun _ => leaves_bind (leaves_select _) fun _ =>
            leaves_compute _

theorem leaves_designationWork (securityId : Uuid) (side : OrderSide) (quantity : Units)
    (lotIds : Option (List Uuid)) : Leaves Store.idempotencyKeys
      (designationWork customerId securityId side quantity lotIds) := by
  cases lotIds with
  | none => exact leaves_pure _
  | some lotIds =>
    exact leaves_bind (leaves_compute _) fun _ => leaves_bind (leaves_select _) fun found =>
      leaves_bind (leaves_each (fun _ => leaves_acquire _) found) fun _ =>
        leaves_bind (leaves_select _) fun _ => leaves_bind (leaves_compute _) fun _ =>
          leaves_bind (leaves_select _) fun _ => leaves_bind (leaves_compute _) fun _ =>
            leaves_pure _

theorem leaves_createOrderWork (request : OrderCreationRequest) :
    Leaves Store.idempotencyKeys (createOrderWork env request) := by
  have hgate : ∀ notional, Leaves Store.idempotencyKeys (requireInvestableWork request notional) :=
    fun notional => leaves_ite
      (leaves_bind (leaves_investableWork _) fun _ => leaves_compute _) (leaves_pure _)
  exact leaves_bind (leaves_observe _) fun _ => leaves_bind (leaves_acquire _) fun _ =>
    leaves_bind (leaves_compute _) fun _ => leaves_bind (hgate _) fun _ =>
      leaves_bind (leaves_perform _) fun _ => leaves_bind (leaves_perform _) fun _ => leaves_pure _

theorem leaves_submissionWork (order : Order) :
    Leaves Store.idempotencyKeys (submissionWork env order) := by
  refine leaves_ite (leaves_bind (leaves_select _) fun _ => leaves_execute ?_) (leaves_pure _)
  intro store store' h
  obtain ⟨t, -, h⟩ := except_bind_ok.mp h
  cases h
  rfl

theorem leaves_orderWork (request : OrderCreationRequest) (lotIds : Option (List Uuid)) :
    Leaves Store.idempotencyKeys (orderWork env request lotIds) :=
  leaves_bind (leaves_bind (leaves_designationWork _ _ _ _ _) fun _ =>
      leaves_bind (leaves_createOrderWork env request) fun _ =>
        leaves_bind (leaves_perform _) fun _ => leaves_pure _) fun _ =>
    leaves_bind (leaves_submissionWork env _) fun _ => leaves_bind (leaves_select _) fun _ =>
      leaves_pure _

end Leaves

/-! ### Requests -/

/-- What is asked for, with the fields of the body. -/
inductive Operation
  | deposit (amount : Money)
  | withdrawal (amount : Money)
  | order (securityId : Uuid) (side : OrderSide) (quantity : Units) (referencePrice : Price)
      (lotIds : Option (List Uuid))
  deriving DecidableEq

/-- A request that has passed the checks before its unit of work, with what it reads of the
outside. -/
structure ApiRequest where
  env : Env
  customerId : Uuid
  /-- The header `Idempotency-Key`. -/
  idempotencyKey : String
  rawBody : RawBody
  operation : Operation

namespace ApiRequest

/-- What the request does for a new key, and its response. -/
def work (request : ApiRequest) : Statements Response :=
  match request.operation with
  | .deposit amount => do
    let view ← depositWork request.env request.customerId amount
    return (201, .deposit view)
  | .withdrawal amount => do
    let view ← withdrawalWork request.env request.customerId amount
    return (201, .withdrawal view)
  | .order securityId side quantity referencePrice lotIds => do
    let view ← orderWork request.env
      ⟨request.customerId, securityId, side, quantity, referencePrice⟩ lotIds
    return (201, .order view)

theorem work_leaves (request : ApiRequest) : Leaves Store.idempotencyKeys request.work := by
  unfold work
  cases request.operation with
  | deposit amount => exact leaves_bind (leaves_depositWork _ _ _) fun _ => leaves_pure _
  | withdrawal amount => exact leaves_bind (leaves_withdrawalWork _ _ _) fun _ => leaves_pure _
  | order => exact leaves_bind (leaves_orderWork _ _ _) fun _ => leaves_pure _

/-- The record that is saved with the response. -/
def record (request : ApiRequest) (sha256 : RawBody → String) (response : Response) :
    IdempotencyRecord where
  customerId := request.customerId
  key := request.idempotencyKey
  requestHash := sha256 request.rawBody
  responseStatus := response.1
  responseBody := response.2
  createdAt := request.env.now .recordedAt

/-- The request, over the table of records. -/
def idempotent (request : ApiRequest) (sha256 : RawBody → String) :
    Idempotency.Request Error Lock Response Store.idempotencyKeys where
  key := (request.customerId, request.idempotencyKey)
  replay := resolveReplay sha256 request.rawBody
  work := request.work
  record := request.record sha256
  save response := saveRecord (request.record sha256 response)
  work_leaves := request.work_leaves
  record_key _ := rfl
  save_inserts _ _ _ := saveRecord_ok

end ApiRequest

end Trueup.Api
