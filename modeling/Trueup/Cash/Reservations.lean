import Trueup.Cash.Investable
import Trueup.Orders.OrderStatus

/-! # What a buy order reserves

A buy order takes its notional out of what is investable: by its active hold until it is submitted,
and as an open commitment, at the amount of the released hold, until it is resolved.

* `Reserving`: an order without fills whose events come in the order of its life, with its hold.
* `Reserving.shares`: exactly one of the two terms counts the order.
* `Reserving.step`: what a unit of work does to a reserving order.
* `buy_reserves_notional`: the runs. -/

namespace Trueup.Cash

open Trueup.Core Trueup.Models Trueup.Lib Trueup.Lib.Transaction Trueup.Ledger Trueup.Orders
open Trueup.System

/-- The events that arrive at the order come in the order of its life: no fill, an acceptance only
after the order is submitted, and each message later than all events before it. -/
def InLifecycle (orderId : Uuid) (db : Database) (step : Step) : Prop :=
  match step.op with
  | .tradeUpdate _ message => message.clientOrderId = .trueup orderId →
      ∀ eventType ∈ eventTypeOf message.event, eventType ≠ .fill ∧
        (eventType = .accepted → ∀ o ∈ db.orders.rows, o.id = orderId → ¬ IsWaiting o) ∧
        ∀ e ∈ db.orderEvents.rows, e.orderId = orderId → e.seq < seqFromTimestamp message.timestamp
  | _ => True

instance (orderId : Uuid) (db : Database) (step : Step) : Decidable (InLifecycle orderId db step) := by
  unfold InLifecycle; split <;> infer_instance

/-- The event is the newest of its order. -/
def IsNewest (db : Database) (event : OrderEvent) : Prop :=
  event ∈ db.orderEvents ∧
    ∀ e ∈ db.orderEvents, e.orderId = event.orderId → e.seq ≤ event.seq

/-- A buy order without fills, in one of the stages of its life, with its hold. -/
structure Reserving (o : Order) (hold : ApprovalHold) (db : Database) : Prop
    extends Tracked o hold db where
  buy : o.side = .buy
  unfilled : o.filledQuantity.quanta = 0
  unpriced : o.averageFillPrice = none
  stage : IsWaiting o ∨ o.status.isOpen ∨ o.status.isTerminalNonFilled
  active : hold.status = .active ↔ IsWaiting o
  no_fills : ∀ e ∈ db.orderEvents, e.orderId = o.id → e.eventType ≠ .fill
  quiet : IsWaiting o → ∀ e ∈ db.orderEvents, e.orderId ≠ o.id
  newest : ∀ e, IsNewest db e → e.orderId = o.id →
    o.status = statusAfter e o.filledQuantity o.quantityRequested

/-- What an order of the given notional takes out of `investable`: nothing once it is resolved. -/
def reserved (amount : ℤ) (o : Order) : ℤ :=
  if o.status.isTerminalNonFilled then 0 else amount

theorem reserved_of_waiting {o : Order} (h : IsWaiting o) (amount : ℤ) :
    reserved amount o = amount := by
  refine if_neg ?_
  rcases h with hs | hs <;> rw [hs] <;> decide

/-! ### The shares of the order -/

section Shares
variable {db : Database} {o : Order} {hold : ApprovalHold} (h : Reserving o hold db)
include h

/-- The hold counts while the order waits. -/
theorem Reserving.holdShare : holdShare o.customerId hold =
    if IsWaiting o then hold.amountMoney.quanta else 0 := by
  unfold Ledger.holdShare
  simp only [h.customer, h.active, true_and]

/-- The commitment counts while the order is open, at the amount of the hold. -/
theorem Reserving.commitmentShare : commitmentShare db o.customerId o =
    if o.status.isOpen then hold.amountMoney.quanta else 0 := by
  have hfind : db.approvalHolds.find o.id = some hold :=
    Table.find_eq_some.mpr ⟨h.mem_hold, h.key⟩
  have hremaining : o.quantityRequested.sub o.filledQuantity = .ok o.quantityRequested := by
    rw [Units.sub_ok, h.unfilled, sub_zero]
  have hcommitment : commitment db o = .ok hold.amountMoney := by
    simp only [commitment, hremaining, h.unpriced, hfind]
    rfl
  simp only [Cash.commitmentShare, h.buy, hcommitment, true_and]

/-- **Exactly one of the two terms counts the order** until it is resolved. -/
theorem Reserving.shares : Ledger.holdShare o.customerId hold + Cash.commitmentShare db o.customerId o =
    reserved hold.amountMoney.quanta o := by
  rw [h.holdShare, h.commitmentShare, reserved]
  rcases h.stage with hwaiting | hopen | hterminal
  · rw [← reserved, reserved_of_waiting hwaiting, if_pos hwaiting, hwaiting.not_isOpen]
    simp
  · have hnot : ¬ IsWaiting o := fun hw => by
      rw [hw.not_isOpen] at hopen
      cases hopen
    have hnot' : ¬ o.status.isTerminalNonFilled := by
      cases hs : o.status <;> rw [hs] at hopen <;> first | decide | cases hopen
    rw [if_neg hnot, if_pos hopen, if_neg hnot', zero_add]
  · have hnot : ¬ IsWaiting o := by
      rintro (hs | hs) <;> rw [hs] at hterminal <;> cases hterminal
    have hnot' : o.status.isOpen = false := by
      cases hs : o.status <;> rw [hs] at hterminal <;> first | rfl | cases hterminal
    rw [if_neg hnot, hnot', if_pos hterminal]
    simp

end Shares

/-! ### The steps -/

section Steps
variable {db db' : Database} {o : Order} {hold : ApprovalHold} (h : Reserving o hold db)
include h

theorem Reserving.other_step {step : Step} (hother : ¬ Concerns o.id step.op)
    (hstep : OrderStep step db db') : Reserving o hold db' := by
  obtain ⟨htracked, hevents⟩ := h.toTracked.other_step hother hstep
  refine ⟨htracked, h.buy, h.unfilled, h.unpriced, h.stage, h.active, fun e he hid => ?_,
    fun hw e he hid => ?_, fun e he hid => ?_⟩
  · exact h.no_fills e ((hevents e hid).mp he) hid
  · exact h.quiet hw e ((hevents e hid).mp he) hid
  · refine h.newest e ⟨(hevents e hid).mp he.1, fun e' he' hid' => ?_⟩ hid
    exact he.2 e' ((hevents e' (hid'.trans hid)).mpr he') hid'

theorem Reserving.approve (hstatus : o.status = .awaitingApproval) :
    Reserving { o with status := .approved } hold
      { db with orders := db.orders.set { o with status := .approved } } := by
  have hwaiting : IsWaiting o := Or.inl hstatus
  have hquiet := h.quiet hwaiting
  refine ⟨h.toTracked.moved h.toTracked.approve, h.buy, h.unfilled, h.unpriced, Or.inl (Or.inr rfl),
    iff_of_true (h.active.mpr hwaiting) (Or.inr rfl), h.no_fills, fun _ => hquiet, fun e he hid => ?_⟩
  exact absurd hid (hquiet e he.1)

/-- The hold is released by the time an event in the order of the life has arrived: before it, or
because the status it leaves asks for it. -/
theorem Reserving.released {event : OrderEvent} {state : OrderProjectionState} {hold' : ApprovalHold}
    (hfill : event.eventType ≠ .fill) (haccepted : event.eventType = .accepted → ¬ IsWaiting o)
    (hlast : state.status = statusAfter event state.filledQuantity o.quantityRequested)
    (hhold : hold'.status = .released ∨ (hold' = hold ∧ releaseReason state.status = none)) :
    hold'.status = .released := by
  rcases hhold with hreleased | ⟨rfl, hreason⟩
  · exact hreleased
  · -- the status asks for no release, so the event is an acceptance, and the order waits no more
    have htype : event.eventType = .accepted := by
      rw [hlast, statusAfter] at hreason
      cases htype : event.eventType with
      | accepted => rfl
      | fill => exact absurd htype hfill
      | _ => rw [htype] at hreason; cases hreason
    cases hs : hold'.status with
    | active => exact absurd (h.active.mp hs) (haccepted htype)
    | released => rfl

/-- **An event in the order of the life** keeps the order reserving. -/
theorem Reserving.arrival {env : Env} {event : OrderEvent} {state : OrderProjectionState}
    (hid : event.orderId = o.id) (hfill : event.eventType ≠ .fill)
    (haccepted : event.eventType = .accepted → ¬ IsWaiting o)
    (hlater : ∀ e ∈ db.orderEvents, e.orderId = o.id → e.seq < event.seq)
    (hrun : (applyNewEvent env o event).run db = .ok (state, db')) :
    ∃ hold', OrderMoved o hold (projected o state) hold' db db' ∧
      Reserving (projected o state) hold' db' := by
  obtain ⟨hold', hmoved, hhold⟩ := h.toTracked.arrival hrun
  have hnot := applyNewEvent_not_waiting hid hrun
  have hlast := applyNewEvent_newest hid hlater hrun
  obtain ⟨hfilled, hunpriced⟩ := applyNewEvent_unfilled h.no_fills hfill hrun
  have hreleased := h.released hfill haccepted hlast hhold
  have hstage : state.status.isOpen ∨ state.status.isTerminalNonFilled := by
    rw [hlast, statusAfter]
    cases htype : event.eventType with
    | fill => exact absurd htype hfill
    | _ => simp [OrderStatus.isOpen, OrderStatus.isTerminalNonFilled]
  obtain ⟨events, holds, hevents, -, -, -, rfl⟩ := applyNewEvent_ok hrun
  refine ⟨hold', hmoved, h.toTracked.moved hmoved, h.buy, hfilled, hunpriced, Or.inr hstage,
    iff_of_false (by rw [hreleased]; decide) hnot, fun e he heid => ?_, fun hw => absurd hw hnot,
    fun e he heid => ?_⟩
  · rcases (Table.mem_insert hevents).mp he with he | rfl
    · exact h.no_fills e he heid
    · exact hfill
  · have hevent : event ∈ events := (Table.mem_insert hevents).mpr (Or.inr rfl)
    have heid' : e.orderId = o.id := heid
    rcases (Table.mem_insert hevents).mp he.1 with hold | rfl
    · exact absurd (he.2 event hevent (hid.trans heid'.symm)) (not_le.mpr (hlater e hold heid'))
    · exact hlast

/-- **The step lemma**: a unit of work in the order of the life keeps the order reserving, and one
that concerns the order moves it. -/
theorem Reserving.step {step : Step} {u : Unit} (hlife : InLifecycle o.id db step)
    (hrun : (body step).run db = .ok (u, db')) :
    ∃ o' hold', Reserving o' hold' db' ∧ SameTerms o o' ∧
      hold'.amountMoney = hold.amountMoney ∧
      (Concerns o.id step.op → OrderMoved o hold o' hold' db db') := by
  have hstep := body_orders hrun
  by_cases hown : Concerns o.id step.op
  swap
  · exact ⟨o, hold, h.other_step hown hstep, rfl, rfl, fun hc => absurd hc hown⟩
  rcases h.toTracked.own_step hown hstep with rfl | ⟨hstatus, rfl⟩ | ⟨event, state, mid, hid, hbrings,
    harrived, hfollowed⟩
  · exact ⟨o, hold, h, rfl, rfl, fun _ => h.toTracked.idle⟩
  · exact ⟨_, hold, h.approve hstatus, rfl, rfl, fun _ => h.toTracked.approve⟩
  · obtain ⟨hfill, haccepted, hlater⟩ : event.eventType ≠ .fill ∧
        (event.eventType = .accepted → ¬ IsWaiting o) ∧
        ∀ e ∈ db.orderEvents, e.orderId = o.id → e.seq < event.seq := by
      unfold Brings at hbrings
      unfold InLifecycle at hlife
      cases hop : step.op with
      | submitToBroker id broker =>
        rw [hop] at hbrings
        obtain ⟨-, happroved, -, htype⟩ := hbrings
        have hquiet := h.quiet (Or.inr happroved)
        refine ⟨?_, ?_, fun e he heid => absurd heid (hquiet e he)⟩ <;>
          rcases htype with htype | htype <;> rw [htype] <;> simp
      | tradeUpdate fault message =>
        rw [hop] at hbrings hlife
        obtain ⟨hclient, eventType, htype, rfl⟩ := hbrings
        obtain ⟨hfill, haccepted, hlater⟩ :=
          hlife (hclient.trans (h.derived o h.mem)) eventType htype
        exact ⟨hfill, fun heq => haccepted heq o h.mem rfl, hlater⟩
      | _ => rw [hop] at hbrings; exact hbrings.elim
    obtain rfl : db' = mid := by
      rcases hfollowed with ⟨-, hsame⟩ | ⟨-, -, -, htype, -⟩
      · exact hsame
      · exact absurd htype hfill
    obtain ⟨hold', hmoved, hreserving⟩ := h.arrival hid hfill haccepted hlater harrived
    exact ⟨_, hold', hreserving, hmoved.terms, hmoved.holdAmount, fun _ => hmoved⟩

end Steps

/-! ### The creation -/

section Creation
variable {env : Env} {request : OrderCreationRequest} {db db' : Database} {order : Order}

theorem createOrder_reserving (hevents : ∀ e ∈ db.orderEvents, db.orders.Has e.orderId)
    (hderived : ∀ o ∈ db.orders, o.clientOrderId = .trueup o.id) (hbuy : request.side = .buy)
    (hcreate : (createOrder env request).run db = .ok (order, db')) :
    ∃ hold, Reserving order hold db' ∧ IsWaiting order ∧
      hold.amountMoney.quanta = notional request.referencePrice request.quantity := by
  obtain ⟨hold, htracked, hactive, hwaiting, -, hside, hamount⟩ :=
    createOrder_tracked hderived hcreate
  obtain ⟨amount, orders, holds, -, rfl, -, horders, -, rfl⟩ := createOrder_ok hcreate
  have hquiet : ∀ e ∈ db.orderEvents, e.orderId ≠ (newOrder env request amount).id := by
    intro e he heq
    exact (Table.insert_eq_some.mp horders).1 (heq ▸ hevents e he)
  exact ⟨hold, ⟨htracked, hside.trans hbuy, rfl, rfl, Or.inl hwaiting,
    iff_of_true hactive hwaiting, fun e he hid => absurd hid (hquiet e he), fun _ => hquiet,
    fun e he hid => absurd hid (hquiet e he.1)⟩, hwaiting, hamount⟩

end Creation

/-! ### The runs -/

section Runs
variable {db : Database} {o : Order} {hold : ApprovalHold} {steps : List Step}

/-- **The run lemma**: the order stays reserving, at the amount of its hold, whatever else
happens. -/
theorem Reserving.along (h : Reserving o hold db) (hsteps : RunMeets body (InLifecycle o.id) steps db) :
    ∃ o' hold', Reserving o' hold' (run steps db) ∧ SameTerms o o' ∧
      hold'.amountMoney = hold.amountMoney := by
  refine runs_keeps_of_meets (I := fun mid => ∃ o' hold', Reserving o' hold' mid ∧ SameTerms o o' ∧
    hold'.amountMoney = hold.amountMoney) ?_ steps ⟨o, hold, h, rfl, rfl⟩ hsteps
  rintro mid step u mid' ⟨o₁, hold₁, h₁, hterms, hamount⟩ hlife hrun
  rw [← hterms.id] at hlife
  obtain ⟨o₂, hold₂, h₂, hterms', hamount', -⟩ := h₁.step hlife hrun
  exact ⟨o₂, hold₂, h₂, hterms.trans hterms', hamount'.trans hamount⟩

/-- **The order's own steps** exchange what it reserves. -/
theorem Reserving.along_own (h : Reserving o hold db) (hsteps : RunMeets body
      (fun mid step => Concerns o.id step.op ∧ InLifecycle o.id mid step) steps db) :
    ∃ o' hold', Reserving o' hold' (run steps db) ∧ SameTerms o o' ∧
      hold'.amountMoney = hold.amountMoney ∧
      investableQuanta (run steps db) o.customerId + reserved hold.amountMoney.quanta o' =
        investableQuanta db o.customerId + reserved hold.amountMoney.quanta o := by
  refine runs_keeps_of_meets (I := fun mid => ∃ o' hold', Reserving o' hold' mid ∧ SameTerms o o' ∧
    hold'.amountMoney = hold.amountMoney ∧
    investableQuanta mid o.customerId + reserved hold.amountMoney.quanta o' =
      investableQuanta db o.customerId + reserved hold.amountMoney.quanta o) ?_ steps
    ⟨o, hold, h, rfl, rfl, rfl⟩ hsteps
  rintro mid step u mid' ⟨o₁, hold₁, h₁, hterms, hamount, hquanta⟩ ⟨hown, hlife⟩ hrun
  rw [← hterms.id] at hown hlife
  obtain ⟨o₂, hold₂, h₂, hterms', hamount', hmoved⟩ := h₁.step hlife hrun
  refine ⟨o₂, hold₂, h₂, hterms.trans hterms', hamount'.trans hamount, ?_⟩
  have hexchange := (hmoved hown).investable h₁.toTracked o.customerId
  have hshares := h₁.shares
  have hshares' := h₂.shares
  rw [hterms'.customerId] at hshares'
  rw [hterms.customerId] at hshares hshares'
  rw [hamount] at hshares
  rw [hamount', hamount] at hshares'
  omega

end Runs

/-- Where an order of the given notional stands: it counts once, by its hold while it waits and as a
commitment while it is open, and its status is the one its newest event leaves. -/
structure CountedOnce (amount : ℤ) (o : Order) (db : Database) : Prop where
  stage : IsWaiting o ∨ o.status.isOpen ∨ o.status.isTerminalNonFilled
  by_hold : ∃ hold ∈ db.approvalHolds, hold.orderId = o.id ∧
    holdShare o.customerId hold = if IsWaiting o then amount else 0
  by_commitment : commitmentShare db o.customerId o = if o.status.isOpen then amount else 0
  quiet : IsWaiting o → ∀ e ∈ db.orderEvents, e.orderId ≠ o.id
  newest : ∀ e, IsNewest db e → e.orderId = o.id →
    o.status = statusAfter e o.filledQuantity o.quantityRequested

theorem Reserving.countedOnce {db : Database} {o : Order} {hold : ApprovalHold}
    (h : Reserving o hold db) : CountedOnce hold.amountMoney.quanta o db where
  stage := h.stage
  by_hold := ⟨hold, h.mem_hold, h.key, h.holdShare⟩
  by_commitment := h.commitmentShare
  quiet := h.quiet
  newest := h.newest

/-- **A buy order reserves exactly its notional until it resolves.** Its creation lowers
`investable` by the notional. After any run in which its events come in the order of its life, among
any other units of work, `own` steps of the order change `investable` by what the order reserves
before them less what it reserves after them: nothing as long as it is not resolved, and the
notional once it is. With nothing in between, `investable` is what it was before the order less what
it still reserves. -/
theorem buy_reserves_notional {env : Env} {request : OrderCreationRequest} {db db₁ : Database}
    {order : Order} (hevents : ∀ e ∈ db.orderEvents, db.orders.Has e.orderId)
    (hderived : ∀ o ∈ db.orders, o.clientOrderId = .trueup o.id) (hbuy : request.side = .buy)
    (hcreate : (createOrder env request).run db = .ok (order, db₁)) {steps own : List Step}
    (hsteps : RunMeets body (InLifecycle order.id) steps db₁)
    (hown : RunMeets body (fun mid step => Concerns order.id step.op ∧ InLifecycle order.id mid step)
      own (run steps db₁)) :
    (∀ before after, investable db request.customerId = .ok before →
      investable db₁ request.customerId = .ok after →
      after.quanta = before.quanta - notional request.referencePrice request.quantity) ∧
    ∃ o ∈ (run steps db₁).orders, ∃ o' ∈ (run own (run steps db₁)).orders,
      o.id = order.id ∧ o'.id = order.id ∧
      CountedOnce (notional request.referencePrice request.quantity) o (run steps db₁) ∧
      CountedOnce (notional request.referencePrice request.quantity) o'
        (run own (run steps db₁)) ∧
      (∀ before after, investable (run steps db₁) request.customerId = .ok before →
        investable (run own (run steps db₁)) request.customerId = .ok after →
        after.quanta = before.quanta +
          reserved (notional request.referencePrice request.quantity) o -
          reserved (notional request.referencePrice request.quantity) o') ∧
      (steps = [] → ∀ before after, investable db request.customerId = .ok before →
        investable (run own (run steps db₁)) request.customerId = .ok after →
        after.quanta = before.quanta -
          reserved (notional request.referencePrice request.quantity) o') := by
  obtain ⟨hold, h, hwaiting, hamount⟩ := createOrder_reserving hevents hderived hbuy hcreate
  have hcreated := createOrder_investable hcreate
  have hcustomer : order.customerId = request.customerId := by
    obtain ⟨-, -, -, -, rfl, -⟩ := createOrder_ok hcreate
    rfl
  obtain ⟨o, hold₁, h₁, hterms, hamount₁⟩ := h.along hsteps
  rw [← hterms.id] at hown
  obtain ⟨o', hold₂, h₂, hterms', hamount₂, hquanta⟩ := h₁.along_own hown
  rw [hterms.customerId, hcustomer, hamount₁, hamount] at hquanta
  have hcounted := h₁.countedOnce
  have hcounted' := h₂.countedOnce
  rw [hamount₁, hamount] at hcounted
  rw [hamount₂, hamount₁, hamount] at hcounted'
  refine ⟨fun before after hbefore hafter => ?_, o, h₁.mem, o', h₂.mem, hterms.id,
    hterms'.id.trans hterms.id, hcounted, hcounted', fun before after hbefore hafter => ?_,
    fun hnil before after hbefore hafter => ?_⟩
  · rw [investable_quanta hbefore, investable_quanta hafter, hcreated]
  · rw [investable_quanta hbefore, investable_quanta hafter]
    omega
  · -- without steps in between the first stage is the creation's
    subst hnil
    obtain rfl : o = order := Table.eq_of_key_eq h₁.mem h.mem hterms.id
    rw [investable_quanta hbefore, investable_quanta hafter]
    rw [reserved_of_waiting hwaiting, show run [] db₁ = db₁ from rfl, hcreated] at hquanta
    rw [show run [] db₁ = db₁ from rfl]
    omega

/-- A deposit of 1500, confirmed. -/
def fundedForOrders : Database := run [
  ⟨envAt 1 1, .initiateDeposit 1 (dollars 1500)⟩, ⟨envAt 2 2, .confirmSettlement 1⟩]
  (openedAccount 1)

/-- An order of ten shares at 100 that has to be approved. -/
def buyTen : Tx Order :=
  createOrder { envAt 3 3 with approvalThresholdUsd := 0 } ⟨1, 7, .buy, shares 10, dollarsPerShare 100⟩

/-- It is approved, and another order of two shares at 100 is placed. -/
def approvedAmongOthers : List Step := [
  ⟨envAt 4 4, .approve 3⟩, ⟨envAt 5 5, .placeOrder ⟨1, 8, .buy, shares 2, dollarsPerShare 100⟩ none⟩]

/-- It is submitted, accepted and canceled. -/
def submittedAndCanceled : List Step := [
  ⟨envAt 6 6, .submitToBroker 3 (.ok "b")⟩,
  ⟨envAt 7 7, .tradeUpdate none ⟨.new, none, .trueup 3, ⟨7, true⟩, none, none⟩⟩,
  ⟨envAt 8 8, .tradeUpdate none ⟨.canceled, none, .trueup 3, ⟨8, true⟩, none, none⟩⟩]

theorem buy_reserves_notional_canceled :
    investable fundedForOrders 1 = .ok (dollars 1500) ∧
    investable (atomically buyTen fundedForOrders) 1 = .ok (dollars 500) ∧
    investable (run approvedAmongOthers (atomically buyTen fundedForOrders)) 1 = .ok (dollars 300) ∧
    investable (run (submittedAndCanceled.take 2)
      (run approvedAmongOthers (atomically buyTen fundedForOrders))) 1 = .ok (dollars 300) ∧
    investable (run submittedAndCanceled
      (run approvedAmongOthers (atomically buyTen fundedForOrders))) 1 = .ok (dollars 1300) ∧
    ∃ o' ∈ (run submittedAndCanceled
      (run approvedAmongOthers (atomically buyTen fundedForOrders))).orders, o'.id = 3 ∧
        CountedOnce 10000000 o' (run submittedAndCanceled
          (run approvedAmongOthers (atomically buyTen fundedForOrders))) := by
  refine ⟨by decide +kernel, by decide +kernel, by decide +kernel, by decide +kernel,
    by decide +kernel, ?_⟩
  obtain ⟨order, hcreate⟩ := run_of_isOk (x := buyTen) (s := fundedForOrders) (by decide +kernel)
  have hid : order.id = 3 := by
    obtain ⟨-, -, -, -, rfl, -⟩ := createOrder_ok hcreate
    rfl
  have hsteps : RunMeets body (InLifecycle order.id) approvedAmongOthers
      (atomically buyTen fundedForOrders) := by rw [hid]; decide
  have hown : RunMeets body
      (fun mid step => Concerns order.id step.op ∧ InLifecycle order.id mid step)
      submittedAndCanceled (run approvedAmongOthers (atomically buyTen fundedForOrders)) := by
    rw [hid]; decide +kernel
  have hevents : ∀ e ∈ fundedForOrders.orderEvents.rows, fundedForOrders.orders.Has e.orderId := by
    decide +kernel
  have hderived : ∀ o ∈ fundedForOrders.orders.rows, o.clientOrderId = .trueup o.id := by
    decide +kernel
  have hnotional : notional (dollarsPerShare 100) (shares 10) = 10000000 := by decide +kernel
  obtain ⟨-, -, -, o', ho', -, hid', -, hcounted, -⟩ :=
    buy_reserves_notional hevents hderived rfl hcreate hsteps hown
  rw [hnotional] at hcounted
  exact ⟨o', ho', hid'.trans hid, hcounted⟩

end Trueup.Cash
