import Trueup.Lots.Executions
import Trueup.System

/-! # The order projection and the lots

The filled quantity of an order is folded from its events; the lots, the consumptions and the
postings of the same fills are written by another service. `projection_agrees_with_lots`: in every
run of the system without splits, whose fills have positive quantities, the two agree.

The invariant (`Projected`) says besides that every event has its order and that every execution of
the lots is in the event log. An execution id is therefore new to the lots when it is new to the
log, and the arrival of an event moves both sides by the same amount (`Projected.event`). -/

namespace Trueup.Orders

open Trueup.Core Trueup.Models Trueup.Lib Trueup.Lib.Transaction Trueup.Ledger Trueup.Lots
open Trueup.Identity Trueup.System

/-- The events of an order, as they came. -/
def orderLog (db : Database) (orderId : Uuid) : List OrderEvent :=
  db.orderEvents.rows.filter (·.orderId = orderId)

/-- The executions of an order. -/
def executionsOf (db : Database) (orderId : Uuid) : List ExecutionId :=
  (orderLog db orderId).filterMap OrderEvent.executionId

/-- The sum of the fills of an order. -/
def filledBy (db : Database) (orderId : Uuid) : ℤ := ((orderLog db orderId).map fillQuanta).sum

/-- The `quantity_opened` of the lots the order's executions opened. -/
def openedBy (db : Database) (orderId : Uuid) : ℤ :=
  quantaOf (executionsOf db orderId) (openings db)

/-- The `quantity_consumed` of the consumptions of the order's executions. -/
def consumedBy (db : Database) (orderId : Uuid) : ℤ :=
  quantaOf (executionsOf db orderId) (closings db)

/-- What a filled quantity adds to the position: a sale takes away. -/
def signed : OrderSide → ℤ → ℤ
  | .buy, n => n
  | .sell, n => -n

/-- The filled quantity of an order, if it is of the position. -/
def netShare (customerId securityId : Uuid) (order : Order) : ℤ :=
  if order.customerId = customerId ∧ order.securityId = securityId then
    signed order.side order.filledQuantity.quanta else 0

/-- What was bought less what was sold of a position, by the orders. -/
def netFilled (db : Database) (customerId securityId : Uuid) : ℤ :=
  db.orders.total (netShare customerId securityId)

/-- The invariant: the orders carry the sums of their fills, and so do the lots and the ledger. -/
structure Projected (db : Database) : Prop where
  events_known : ∀ e ∈ db.orderEvents, db.orders.Has e.orderId
  openings_known : ∀ e ∈ openings db, e.1 ∈ db.executionIds
  closings_known : ∀ e ∈ closings db, e.1 ∈ db.executionIds
  filled : ∀ o ∈ db.orders, o.filledQuantity.quanta = filledBy db o.id
  buy : ∀ o ∈ db.orders, o.side = .buy → filledBy db o.id = openedBy db o.id
  sell : ∀ o ∈ db.orders, o.side = .sell → filledBy db o.id = consumedBy db o.id
  units : ∀ c s, postedUnits db c s = netFilled db c s

/-! ### The arrival of an event -/

section Event
variable {db db' : Database} {event : OrderEvent}
  (h : db.orderEvents.insert event = some db'.orderEvents) (orderId : Uuid)
include h

theorem orderLog_insert : orderLog db' orderId = orderLog db orderId ++
    (if event.orderId = orderId then [event] else []) := by
  unfold orderLog
  rw [Table.rows_insert h, List.filter_append]
  split_ifs with hid <;> simp [hid]

theorem filledBy_insert : filledBy db' orderId = filledBy db orderId +
    (if event.orderId = orderId then fillQuanta event else 0) := by
  unfold filledBy
  rw [orderLog_insert h]
  split_ifs <;> simp

theorem executionsOf_insert : executionsOf db' orderId = executionsOf db orderId ++
    (if event.orderId = orderId then event.executionId.toList else []) := by
  unfold executionsOf
  rw [orderLog_insert h, List.filterMap_append]
  split_ifs
  · cases hx : event.executionId <;> simp [hx]
  · simp

end Event

theorem executionsOf_subset {db : Database} {orderId : Uuid} {x : ExecutionId}
    (h : x ∈ executionsOf db orderId) : x ∈ db.executionIds := by
  obtain ⟨e, he, hx⟩ := List.mem_filterMap.mp h
  exact mem_executionIds.mpr ⟨e, (List.mem_filter.mp he).1, hx⟩

/-- What happened to the lots and the ledger while an event arrived: pairs of its execution, on the
order's side as many as it filled. -/
structure LotsFollow (order : Order) (event : OrderEvent) (db db' : Database) : Prop where
  opened : ∃ extra, openings db' = openings db ++ extra ∧
    (∀ e ∈ extra, e.1 ∈ event.executionId.toList) ∧
    (order.side = .buy → (extra.map Prod.snd).sum = fillQuanta event)
  closed : ∃ extra, closings db' = closings db ++ extra ∧
    (∀ e ∈ extra, e.1 ∈ event.executionId.toList) ∧
    (order.side = .sell → (extra.map Prod.snd).sum = fillQuanta event)
  units : ∀ c s, postedUnits db' c s = postedUnits db c s +
    (if order.customerId = c ∧ order.securityId = s then signed order.side (fillQuanta event)
      else 0)

/-- **The arrival of an event** with its lots keeps the invariant. -/
theorem Projected.event {db db' : Database} {order : Order} {event : OrderEvent}
    {state : OrderProjectionState} (h : Projected db) (hmem : order ∈ db.orders)
    (hid : event.orderId = order.id) (hfresh : ∀ x ∈ event.executionId, x ∉ db.executionIds)
    (hevents : db.orderEvents.insert event = some db'.orderEvents)
    (horders : db'.orders = db.orders.set (projected order state))
    (hstate : state.filledQuantity.quanta = filledBy db' order.id)
    (hlots : LotsFollow order event db db') : Projected db' := by
  obtain ⟨opened, hopen, hopened, hbuy⟩ := hlots.opened
  obtain ⟨closed, hclose, hclosed, hsell⟩ := hlots.closed
  have hids := executionIds_of_insert hevents
  have hnew : ∀ x ∈ event.executionId.toList, x ∉ db.executionIds := by simpa using hfresh
  have hnewids : ∀ x ∈ event.executionId.toList, x ∈ db'.executionIds := fun x hx =>
    (hids x).mpr (Or.inr (by simpa using hx))
  -- what the sum over an order's executions gains, on the list that follows the order's side
  have hgain : ∀ (orderId : Uuid) {pairs extra : List (ExecutionId × ℤ)},
      (∀ e ∈ pairs, e.1 ∈ db.executionIds) → (∀ e ∈ extra, e.1 ∈ event.executionId.toList) →
      quantaOf (executionsOf db' orderId) (pairs ++ extra) =
        quantaOf (executionsOf db orderId) pairs +
          (if event.orderId = orderId then (extra.map Prod.snd).sum else 0) := by
    intro orderId pairs extra hpairs hextra
    rw [executionsOf_insert hevents]
    split_ifs
    · exact quantaOf_own hextra fun e he hx => hnew _ hx (hpairs e he)
    · rw [List.append_nil, add_zero]
      exact quantaOf_other hextra fun x hx hmem => hnew x hx (executionsOf_subset hmem)
  have hrows : ∀ o ∈ db'.orders, (o ∈ db.orders ∧ o.id ≠ order.id) ∨
      o = projected order state := by
    intro o ho
    rw [horders] at ho
    rcases Table.mem_set.mp ho with ho | ⟨rfl, -⟩
    · exact Or.inl ho
    · exact Or.inr rfl
  refine ⟨?_, ?_, ?_, ?_, ?_, ?_, ?_⟩
  · intro e he
    rw [horders, Table.has_set]
    rcases (Table.mem_insert hevents).mp he with he | rfl
    · exact h.events_known e he
    · rw [hid]
      exact Table.has_of_mem hmem
  · intro e he
    rw [hopen] at he
    rcases List.mem_append.mp he with he | he
    · exact (hids _).mpr (Or.inl (h.openings_known e he))
    · exact hnewids _ (hopened e he)
  · intro e he
    rw [hclose] at he
    rcases List.mem_append.mp he with he | he
    · exact (hids _).mpr (Or.inl (h.closings_known e he))
    · exact hnewids _ (hclosed e he)
  · intro o ho
    rcases hrows o ho with ⟨ho, hne⟩ | rfl
    · rw [filledBy_insert hevents, if_neg (by rw [hid]; exact hne.symm), add_zero]
      exact h.filled o ho
    · exact hstate
  · intro o ho hside
    rw [filledBy_insert hevents, openedBy, hopen, hgain o.id h.openings_known hopened]
    rcases hrows o ho with ⟨ho, hne⟩ | rfl
    · rw [if_neg (by rw [hid]; exact hne.symm), if_neg (by rw [hid]; exact hne.symm)]
      simpa [openedBy] using h.buy o ho hside
    · rw [hbuy hside]
      exact congrArg (· + _) (h.buy order hmem hside)
  · intro o ho hside
    rw [filledBy_insert hevents, consumedBy, hclose, hgain o.id h.closings_known hclosed]
    rcases hrows o ho with ⟨ho, hne⟩ | rfl
    · rw [if_neg (by rw [hid]; exact hne.symm), if_neg (by rw [hid]; exact hne.symm)]
      simpa [consumedBy] using h.sell o ho hside
    · rw [hsell hside]
      exact congrArg (· + _) (h.sell order hmem hside)
  · intro c s
    rw [hlots.units c s, h.units c s, netFilled, netFilled, horders,
      Table.total_set (r := projected order state) hmem rfl]
    have hq : state.filledQuantity.quanta = order.filledQuantity.quanta + fillQuanta event := by
      rw [hstate, filledBy_insert hevents, if_pos hid, h.filled order hmem]
    simp only [netShare, projected, hq]
    split_ifs
    · cases order.side <;> simp only [signed] <;> ring
    · ring

/-- The folded quantity is the sum of the fills in the log that has the event. -/
theorem applyNewEvent_filled {env : Env} {order : Order} {event : OrderEvent} {db db' : Database}
    {state : OrderProjectionState}
    (h : (applyNewEvent env order event).run db = .ok (state, db')) :
    state.filledQuantity.quanta = filledBy db' order.id := by
  obtain ⟨events, holds, -, -, hfold, -, rfl⟩ := applyNewEvent_ok h
  rw [fold_filledQuantity hfold, ((sortBySeq_perm _).map fillQuanta).sum_eq]
  rfl

theorem Projected.applyNewEvent {env : Env} {order : Order} {event : OrderEvent}
    {db db' : Database} {state : OrderProjectionState} (h : Projected db)
    (hmem : order ∈ db.orders) (hid : event.orderId = order.id) (hfill : event.eventType ≠ .fill)
    (hrun : (applyNewEvent env order event).run db = .ok (state, db')) : Projected db' := by
  have hstate := applyNewEvent_filled hrun
  obtain ⟨events, holds, hinsert, hfresh, -, -, rfl⟩ := applyNewEvent_ok hrun
  have hzero := fillQuanta_of_ne hfill
  refine h.event hmem hid hfresh hinsert rfl hstate ⟨⟨[], ?_⟩, ⟨[], ?_⟩, fun c s => ?_⟩
  · exact ⟨(List.append_nil _).symm, by simp, fun _ => hzero.symm⟩
  · exact ⟨(List.append_nil _).symm, by simp, fun _ => hzero.symm⟩
  · rw [hzero]
    cases order.side <;> simp [signed, postedUnits]

/-! ### Deliveries -/

/-- The quantity of the message is a positive number, if it is one at all. -/
def hasPositiveQuantity (message : TradeUpdate) : Bool :=
  message.qty.all (0 < ·)

theorem nonneg_of_positive {message : TradeUpdate} (hpos : hasPositiveQuantity message)
    {quantity : Units} (h : QuantizedDecimal.ofText message.qty = .ok quantity) :
    0 ≤ quantity.quanta := by
  cases hq : message.qty with
  | none => rw [hq] at h; cases h
  | some q =>
    rw [hq] at h
    simp only [hasPositiveQuantity, hq, Option.all_some, decide_eq_true_eq] at hpos
    rw [(QuantizedDecimal.ofDecimal_ok (by norm_num)).mp h]
    exact Rounding.roundHalfEven_nonneg (by positivity)

theorem LotFilled.follow {env : Env} {order : Order} {fill : Fill} {event : OrderEvent}
    {db mid db' : Database} (h : LotFilled env order fill mid db')
    (hcust : fill.customerId = order.customerId) (hsec : fill.securityId = order.securityId)
    (hx : event.executionId = some fill.executionId)
    (hq : fillQuanta event = fill.quantity.quanta) (hpos : 0 ≤ fill.quantity.quanta)
    (hopen : openings mid = openings db) (hclose : closings mid = closings db)
    (hpost : mid.postings = db.postings) : LotsFollow order event db db' := by
  have hpairs : ∀ {takes : List ℤ}, ∀ e ∈ pairsOf fill.executionId takes,
      e.1 ∈ event.executionId.toList := by
    intro takes e he
    simp [hx, mem_pairsOf he]
  have hunits : ∀ c s, postedUnits mid c s = postedUnits db c s := by
    intro c s
    rw [postedUnits, hpost]
    rfl
  rcases h with ⟨hside, clock, lot, hrun⟩ | ⟨hside, clock, ids, hrun⟩
  · obtain ⟨hopened, hclosed, hposted⟩ := recordBuyFill_executions hrun
    refine ⟨⟨_, by rw [hopened, hopen], hpairs, fun _ => ?_⟩, ⟨[], ?_, by simp, fun hs => ?_⟩,
      fun c s => ?_⟩
    · rw [map_snd_pairsOf, hq]; simp
    · rw [hclosed, hclose, List.append_nil]
    · rw [hside] at hs; cases hs
    · rw [hposted c s, hunits c s, hcust, hsec, hside, hq]; rfl
  · obtain ⟨hopened, ⟨takes, hclosed, hsum⟩, hposted⟩ := recordSellFill_executions hpos hrun
    refine ⟨⟨[], ?_, by simp, fun hs => ?_⟩, ⟨_, by rw [hclosed, hclose], hpairs, fun _ => ?_⟩,
      fun c s => ?_⟩
    · rw [hopened, hopen, List.append_nil]
    · rw [hside] at hs; cases hs
    · rw [map_snd_pairsOf, hsum, hq]
    · rw [hposted c s, hunits c s, hcust, hsec, hside, hq]
      simp only [signed]
      split_ifs <;> ring

/-- **A delivery keeps the invariant.** -/
theorem handle_projected {env : Env} {fault : Option HandleStage} {message : TradeUpdate}
    (hpos : hasPositiveQuantity message) : Keeps Projected (handle env fault message) := by
  intro db pushed db' hdb h
  rcases handle_ok h with ⟨-, rfl⟩ | ⟨eventType, order, state, -, hmem, -, mid, hevent, hlots⟩
  · exact hdb
  rcases hlots with ⟨hne, rfl⟩ | ⟨hfill, x, q, p, hx, hq, hp, hlots⟩
  · exact hdb.applyNewEvent hmem rfl hne hevent
  · subst hfill
    have hstate := applyNewEvent_filled hevent
    obtain ⟨events, holds, hinsert, hfresh, -, -, rfl⟩ := applyNewEvent_ok hevent
    have hside := hlots.orderSide
    simp only [orderSide, Prod.mk.injEq] at hside
    refine hdb.event hmem (show (eventOfMessage env order .fill message).orderId = order.id from rfl)
      hfresh ?_ hside.1 ?_ (hlots.follow rfl rfl ?_ ?_ (nonneg_of_positive hpos hq) rfl rfl rfl)
    · rw [hside.2.1]; exact hinsert
    · rw [hstate]
      simp only [filledBy, orderLog, hside.2.1]
    · simp [eventOfMessage, hx, fillOfMessage]
    · simp [fillQuanta, fillOf, fillTexts, eventOfMessage, hq, hp, fillOfMessage, bind, Except.bind,
        pure, Except.pure]

/-! ### The other steps -/

/-- A step that leaves the orders, their events, the lots and the units alone. -/
theorem Projected.frame {db db' : Database} (h : Projected db) (horders : db'.orders = db.orders)
    (hevents : db'.orderEvents = db.orderEvents) (hlots : db'.taxLots = db.taxLots)
    (hcons : db'.lotConsumptions = db.lotConsumptions)
    (hunits : ∀ c s, postedUnits db' c s = postedUnits db c s) : Projected db' := by
  have hlog : ∀ orderId, orderLog db' orderId = orderLog db orderId := by
    intro orderId; rw [orderLog, hevents]; rfl
  have hids : db'.executionIds = db.executionIds := by rw [Database.executionIds, hevents]; rfl
  refine ⟨?_, ?_, ?_, ?_, ?_, ?_, fun c s => ?_⟩
  · rw [horders, hevents]; exact h.events_known
  · rw [openings, hlots, hids]; exact h.openings_known
  · rw [closings, hcons, hids]; exact h.closings_known
  · simp only [horders, filledBy, hlog]; exact h.filled
  · simp only [horders, filledBy, openedBy, executionsOf, openings, hlog, hlots]; exact h.buy
  · simp only [horders, filledBy, consumedBy, executionsOf, closings, hlog, hcons]; exact h.sell
  · rw [hunits c s, h.units c s, netFilled, netFilled, horders]

/-- An order that is written back with other lots to consume or another status. -/
theorem Projected.setOrder {db : Database} {order order' : Order} (h : Projected db)
    (hmem : order ∈ db.orders) (hid : order'.id = order.id)
    (hcust : order'.customerId = order.customerId) (hsec : order'.securityId = order.securityId)
    (hside : order'.side = order.side) (hfilled : order'.filledQuantity = order.filledQuantity) :
    Projected { db with orders := db.orders.set order' } := by
  refine ⟨fun e he => ?_, h.openings_known, h.closings_known, fun o ho => ?_, fun o ho hs => ?_,
    fun o ho hs => ?_, fun c s => ?_⟩
  · rw [Table.has_set]
    exact h.events_known e he
  · rcases Table.mem_set.mp ho with ⟨ho, -⟩ | ⟨rfl, -⟩
    · exact h.filled o ho
    · rw [hfilled, hid]; exact h.filled order hmem
  · rcases Table.mem_set.mp ho with ⟨ho, -⟩ | ⟨rfl, -⟩
    · exact h.buy o ho hs
    · rw [hid]; exact h.buy order hmem (hside ▸ hs)
  · rcases Table.mem_set.mp ho with ⟨ho, -⟩ | ⟨rfl, -⟩
    · exact h.sell o ho hs
    · rw [hid]; exact h.sell order hmem (hside ▸ hs)
  · show postedUnits db c s = _
    rw [h.units c s, netFilled, netFilled, Table.total_set hmem hid.symm]
    simp only [netShare, hcust, hsec, hside, hfilled]
    ring

theorem Projected.addOrder {db : Database} {order : Order} {orders : Table Order.id}
    {holds : Table ApprovalHold.orderId} (h : Projected db)
    (hinsert : db.orders.insert order = some orders) (hfilled : order.filledQuantity = 0) :
    Projected { db with orders := orders, approvalHolds := holds } := by
  have hlog : orderLog db order.id = [] := by
    refine List.filter_eq_nil_iff.mpr fun e he hid => ?_
    simp only [decide_eq_true_eq] at hid
    exact (Table.insert_eq_some.mp hinsert).1 (hid ▸ h.events_known e he)
  have hzero : filledBy db order.id = 0 := by rw [filledBy, hlog]; rfl
  have hsum : ∀ pairs, quantaOf (executionsOf db order.id) pairs = 0 := by
    intro pairs
    simp [quantaOf, executionsOf, hlog]
  refine ⟨fun e he => ?_, h.openings_known, h.closings_known, fun o ho => ?_, fun o ho hs => ?_,
    fun o ho hs => ?_, fun c s => ?_⟩
  · exact (Table.has_insert hinsert _).mpr (Or.inl (h.events_known e he))
  · rcases (Table.mem_insert hinsert).mp ho with ho | rfl
    · exact h.filled o ho
    · rw [hfilled]; exact hzero.symm
  · rcases (Table.mem_insert hinsert).mp ho with ho | rfl
    · exact h.buy o ho hs
    · exact hzero.trans (hsum _).symm
  · rcases (Table.mem_insert hinsert).mp ho with ho | rfl
    · exact h.sell o ho hs
    · exact hzero.trans (hsum _).symm
  · show postedUnits db c s = _
    rw [h.units c s, netFilled, netFilled, Table.total_insert hinsert, netShare, hfilled]
    cases order.side <;> simp [signed]

/-! ### Runs -/

/-- The step is not a split, and the quantity of a trade update is positive. -/
def isPlain (step : Step) : Bool :=
  match step.op with
  | .applySplit _ _ _ => false
  | .tradeUpdate _ message => hasPositiveQuantity message
  | _ => true

theorem placeOrder_projected (env : Env) (request : OrderCreationRequest)
    (designatedLotIds : Option (List Uuid)) :
    Keeps Projected (placeOrder env request designatedLotIds) := by
  intro db order db' hdb h
  obtain ⟨created, mid, hcreate, rfl, rfl⟩ := placeOrder_ok h
  obtain ⟨amount, orders, holds, -, rfl, -, hinsert, -, rfl⟩ := createOrder_ok hcreate
  exact (hdb.addOrder hinsert rfl).setOrder
    (show newOrder env request amount ∈ orders from (Table.mem_insert hinsert).mpr (Or.inr rfl))
    rfl rfl rfl rfl rfl

theorem body_projected {step : Step} (hplain : isPlain step) :
    Keeps Projected (body step) := by
  obtain ⟨env, op⟩ := step
  cases op with
  | initiateDeposit customerId amount =>
    refine keeps_discard fun db r db' hdb h => ?_
    obtain ⟨entry, cash, equity, entries, obligations, -, -, -, -, -, rfl, -, -⟩ :=
      initiateDeposit_ok h
    exact hdb.frame rfl rfl rfl rfl fun c s => by simp [postedUnits, Amount.unitQuanta]
  | confirmSettlement obligationId =>
    intro db r db' hdb h
    obtain ⟨o, -, -, rfl⟩ := confirmSettlement_ok h
    exact hdb.frame rfl rfl rfl rfl fun _ _ => rfl
  | applyAchReturn obligationId =>
    intro db r db' hdb h
    obtain ⟨o, customerId, entry, receivable, accounts, entries, -, -, -, -, -, -, rfl⟩ :=
      applyAchReturn_ok h
    exact hdb.frame rfl rfl rfl rfl fun c s => by simp [postedUnits, Amount.unitQuanta]
  | initiateWithdrawal customerId amount =>
    refine keeps_discard fun db r db' hdb h => ?_
    obtain ⟨available, entry, cash, equity, entries, -, -, -, -, -, -, rfl⟩ :=
      initiateWithdrawal_ok h
    exact hdb.frame rfl rfl rfl rfl fun c s => by simp [postedUnits, Amount.unitQuanta]
  | placeOrder request designatedLotIds =>
    exact keeps_discard (placeOrder_projected env request designatedLotIds)
  | approve orderId =>
    refine keeps_discard fun db r db' hdb h => ?_
    obtain ⟨before, hmem, -, -, rfl, rfl⟩ := approve_ok h
    exact hdb.setOrder hmem rfl rfl rfl rfl rfl
  | submitToBroker orderId broker =>
    intro db r db' hdb h
    rcases submitToBroker_ok h with rfl | ⟨order, hmem, event, state, -, hid, -, htype, hrun⟩
    · exact hdb
    · refine hdb.applyNewEvent hmem hid ?_ hrun
      rcases htype with htype | htype <;> simp [htype]
  | tradeUpdate fault message => exact keeps_discard (handle_projected hplain)
  | applySplit securityId ratio effectiveDate => cases hplain

theorem projected_of_fresh {db : Database} (h : Fresh db) : Projected db where
  events_known e he := by rw [h.orderEvents] at he; cases he
  openings_known e he := by rw [openings, h.taxLots] at he; cases he
  closings_known e he := by rw [closings, h.lotConsumptions] at he; cases he
  filled o ho := by rw [h.orders] at ho; cases ho
  buy o ho := by rw [h.orders] at ho; cases ho
  sell o ho := by rw [h.orders] at ho; cases ho
  units c s := by rw [postedUnits, h.postings, netFilled, h.orders]; rfl

/-- **The order projection and the lots agree** in every run without splits whose fills have
positive quantities: the filled quantity of a buy order is what its executions opened, that of a
sell order what its executions consumed, and the units of a position are what was bought less what
was sold. -/
theorem projection_agrees_with_lots {db₀ : Database} (hfresh : Fresh db₀) (steps : List Step)
    (hplain : ∀ step ∈ steps, isPlain step) :
    (∀ o ∈ (run steps db₀).orders, o.side = .buy →
      o.filledQuantity.quanta = openedBy (run steps db₀) o.id) ∧
    (∀ o ∈ (run steps db₀).orders, o.side = .sell →
      o.filledQuantity.quanta = consumedBy (run steps db₀) o.id) ∧
    ∀ customerId securityId, postedUnits (run steps db₀) customerId securityId =
      netFilled (run steps db₀) customerId securityId := by
  have h : Projected (run steps db₀) :=
    runs_keeps steps (fun step hstep => body_projected (hplain step hstep)) (projected_of_fresh hfresh)
  exact ⟨fun o ho hs => (h.filled o ho).trans (h.buy o ho hs),
    fun o ho hs => (h.filled o ho).trans (h.sell o ho hs), h.units⟩

/-- A buy order filled in two parts, the first delivered twice, and a sell order that consumes both
lots. -/
def buyAndSellRun : List Step := [
  ⟨envAt 1 11, .initiateDeposit 1 (dollars 5000)⟩,
  ⟨envAt 2 0, .confirmSettlement 11⟩,
  ⟨envAt 3 21, .placeOrder ⟨1, 7, .buy, shares 10, dollarsPerShare 100⟩ none⟩,
  ⟨envAt 4 0, .submitToBroker 21 (.ok "broker-21")⟩,
  ⟨envAt 5 31, .tradeUpdate none ⟨.partialFill, some "a", .trueup 21, ⟨5, true⟩, some 100, some 4⟩⟩,
  ⟨envAt 6 32, .tradeUpdate none ⟨.partialFill, some "a", .trueup 21, ⟨6, true⟩, some 100, some 4⟩⟩,
  ⟨envAt 7 33, .tradeUpdate none ⟨.fill, some "b", .trueup 21, ⟨7, true⟩, some 100, some 6⟩⟩,
  ⟨envAt 8 22, .placeOrder ⟨1, 7, .sell, shares 5, dollarsPerShare 100⟩ none⟩,
  ⟨envAt 9 0, .submitToBroker 22 (.ok "broker-22")⟩,
  ⟨envAt 10 34, .tradeUpdate none ⟨.fill, some "c", .trueup 22, ⟨10, true⟩, some 100, some 5⟩⟩]

theorem projection_agrees_with_lots_buy_and_sell :
    (run buyAndSellRun (openedAccount 1)).orders.rows.map
        (fun o => (o.side, o.filledQuantity.quanta)) =
      [(.buy, 10000000), (.sell, 5000000)] ∧
    netFilled (run buyAndSellRun (openedAccount 1)) 1 7 = 5000000 ∧
    postedUnits (run buyAndSellRun (openedAccount 1)) 1 7 = 5000000 := by
  have hnet : netFilled (run buyAndSellRun (openedAccount 1)) 1 7 = 5000000 := by decide +kernel
  exact ⟨by decide +kernel, hnet, ((projection_agrees_with_lots (fresh_openedAccount 1)
    buyAndSellRun (by decide)).2.2 1 7).trans hnet⟩

end Trueup.Orders
