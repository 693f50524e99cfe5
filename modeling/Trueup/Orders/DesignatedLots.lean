import Mathlib.Algebra.BigOperators.Group.Finset.Piecewise
import Trueup.Lib.Claims
import Trueup.Lots.SaleTakes
import Trueup.Orders.Agreement
import Trueup.Orders.LotDesignationService

/-! # Designated lots

A sell order that names its lots is a claim on them: its unfilled quantity, to be served from any of
the lots it names. The designation service nets a new order against the open sells that share a lot
with it.

* `Claimed.sell`: a new sell is covered if its lots hold it beside every sell that shares one of
  them.
* `Claimed.fill`: a fill leaves the others covered if it takes from no lot of a sell that names
  fewer.
* `designated_lots_cover_claims`: the runs in which the lots cover the claims. -/

namespace Trueup.Orders

open Trueup.Core Trueup.Models Trueup.Lib Trueup.Lib.Transaction Trueup.Lots

/-- The quantity of an order that is not filled yet. -/
def unfilled (order : Order) : ℤ := order.quantityRequested.quanta - order.filledQuantity.quanta

/-- The claim of a sell order on the lots it has designated. -/
def claimOf (order : Order) : Option (Claim Uuid) :=
  if order.side = .sell then order.designatedLotIds.map fun ids => ⟨ids.toFinset, unfilled order⟩
  else none

/-- The claims of the sell orders. -/
def claims (db : Database) : List (Claim Uuid) := db.orders.rows.filterMap claimOf

/-- For every set of lots, the unfilled quantities of the orders that are confined to it are at most
what remains in it. -/
def NotOvercommitted (db : Database) : Prop := Covers (remainingOf db) (claims db)

/-- `POST /orders` with lots: the designation is validated and the order created. -/
def placeDesignated (env : Env) (request : OrderCreationRequest) (lotIds : List Uuid) : Tx Order :=
  validateDesignation request.customerId request.securityId request.side request.quantity
    (some lotIds) >>= placeOrder env request

/-! ### The claims, row by row -/

section Rows
variable {db : Database} {order order' : Order}

theorem claimOf_eq_some {c : Claim Uuid} : claimOf order = some c ↔ order.side = .sell ∧
    ∃ ids, order.designatedLotIds = some ids ∧ c = ⟨ids.toFinset, unfilled order⟩ := by
  unfold claimOf
  split_ifs with hside
  · rw [Option.map_eq_some_iff]
    exact ⟨fun ⟨ids, hids, hc⟩ => ⟨hside, ids, hids, hc.symm⟩,
      fun ⟨_, ids, hids, hc⟩ => ⟨ids, hids, hc.symm⟩⟩
  · exact iff_of_false (by simp) fun h => hside h.1

theorem mem_claims {c : Claim Uuid} : c ∈ claims db ↔ ∃ order ∈ db.orders, claimOf order = some c :=
  List.mem_filterMap

theorem claims_setOrder (hmem : order ∈ db.orders) (hid : order.id = order'.id)
    (hclaim : claimOf order' = claimOf order) :
    (db.orders.set order').rows.filterMap claimOf = claims db := by
  obtain ⟨front, back, hrows, hset, -⟩ := Table.exists_rows_set hmem hid
  unfold claims
  rw [hset, hrows]
  simp only [List.filterMap_append, List.filterMap_cons, hclaim]

theorem claims_setOrder_perm (hmem : order ∈ db.orders) (hid : order.id = order'.id)
    {c c' : Claim Uuid} (hc : claimOf order = some c) (hc' : claimOf order' = some c') :
    ∃ rest, (claims db).Perm (c :: rest) ∧
      ((db.orders.set order').rows.filterMap claimOf).Perm (c' :: rest) ∧
      ∀ x ∈ rest, ∃ other ∈ db.orders, other.id ≠ order.id ∧ claimOf other = some x := by
  obtain ⟨front, back, hrows, hset, hother⟩ := Table.exists_rows_set hmem hid
  refine ⟨(front ++ back).filterMap claimOf, ?_, ?_, fun x hx => ?_⟩
  · unfold claims
    rw [hrows]
    simp only [List.filterMap_append, List.filterMap_cons, hc]
    exact List.perm_middle
  · rw [hset]
    simp only [List.filterMap_append, List.filterMap_cons, hc']
    exact List.perm_middle
  · obtain ⟨other, hmem', hx⟩ := List.mem_filterMap.mp hx
    obtain ⟨horder, hne⟩ := hother other hmem'
    exact ⟨other, horder, fun e => hne (e.trans hid), hx⟩

end Rows

/-! ### The invariant -/

/-- The lots cover the claims, every sell has named lots, and carries the sum of its fills. -/
structure Claimed (db : Database) : Prop where
  covered : NotOvercommitted db
  named : ∀ o ∈ db.orders, o.side = .sell → ∃ ids, o.designatedLotIds = some ids ∧ ids ≠ []
  filled : ∀ o ∈ db.orders, o.side = .sell → o.filledQuantity.quanta = filledBy db o.id
  events_known : ∀ e ∈ db.orderEvents, db.orders.Has e.orderId

section Keeps
variable {db db' : Database}

/-- A step that leaves the orders and their events, and takes nothing from the lots. -/
theorem Claimed.frame (h : Claimed db) (horders : db'.orders = db.orders)
    (hevents : db'.orderEvents = db.orderEvents)
    (hlots : ∀ lotId, remainingOf db lotId ≤ remainingOf db' lotId) : Claimed db' := by
  have hlog : ∀ orderId, filledBy db' orderId = filledBy db orderId := by
    intro orderId
    rw [filledBy, orderLog, hevents]
    rfl
  constructor
  · unfold NotOvercommitted claims
    rw [horders]
    exact h.covered.mono hlots
  · rw [horders]; exact h.named
  · simp only [horders, hlog]; exact h.filled
  · rw [horders, hevents]; exact h.events_known

theorem Claimed.setOrder {order order' : Order} (h : Claimed db) (hmem : order ∈ db.orders)
    (hid : order'.id = order.id) (hside : order'.side = order.side)
    (hnamed : order'.designatedLotIds = order.designatedLotIds)
    (hrequested : order'.quantityRequested = order.quantityRequested)
    (hfilled : order'.filledQuantity = order.filledQuantity) :
    Claimed { db with orders := db.orders.set order' } := by
  have hclaim : claimOf order' = claimOf order := by
    unfold claimOf unfilled
    rw [hside, hnamed, hrequested, hfilled]
  constructor
  · show Covers _ ((db.orders.set order').rows.filterMap claimOf)
    rw [claims_setOrder hmem hid.symm hclaim]
    exact h.covered
  · intro o ho hs
    rcases Table.mem_set.mp ho with ⟨ho, -⟩ | ⟨rfl, -⟩
    · exact h.named o ho hs
    · rw [hnamed]; exact h.named order hmem (hside ▸ hs)
  · intro o ho hs
    rcases Table.mem_set.mp ho with ⟨ho, -⟩ | ⟨rfl, -⟩
    · exact h.filled o ho hs
    · rw [hfilled, hid]; exact h.filled order hmem (hside ▸ hs)
  · intro e he
    exact (Table.has_set _).mpr (h.events_known e he)

theorem placeOrder_rows {env : Env} {request : OrderCreationRequest}
    {designatedLotIds : Option (List Uuid)} {order : Order}
    (h : (placeOrder env request designatedLotIds).run db = .ok (order, db')) :
    db'.orders.rows = db.orders.rows ++ [order] ∧ ¬ db.orders.Has order.id ∧
      order.side = request.side ∧ order.designatedLotIds = designatedLotIds ∧
      order.quantityRequested = request.quantity ∧ order.filledQuantity = 0 ∧
      db'.orderEvents = db.orderEvents ∧ db'.taxLots = db.taxLots := by
  obtain ⟨created, mid, hcreate, rfl, rfl⟩ := placeOrder_ok h
  obtain ⟨amount, orders, holds, -, rfl, -, hinsert, -, rfl⟩ := createOrder_ok hcreate
  have hfree := (Table.insert_eq_some.mp hinsert).1
  refine ⟨?_, hfree, rfl, rfl, rfl, rfl, rfl, rfl⟩
  have hsame : db.orders.rows.map (fun r' => if r'.id = (newOrder env request amount).id then
      { newOrder env request amount with designatedLotIds } else r') = db.orders.rows := by
    conv_rhs => rw [← List.map_id db.orders.rows]
    refine List.map_congr_left fun o ho => if_neg fun hid => hfree ?_
    exact (show o.id = (newOrder env request amount).id from hid) ▸ Table.has_of_mem ho
  show (orders.set _).rows = _
  rw [Table.rows_set, Table.rows_insert hinsert, List.map_append, List.map_singleton, if_pos rfl]
  exact congrArg (· ++ _) hsame

theorem Claimed.placed {order : Order} (h : Claimed db)
    (hrows : db'.orders.rows = db.orders.rows ++ [order]) (hfree : ¬ db.orders.Has order.id)
    (hfilled : order.filledQuantity = 0) (hevents : db'.orderEvents = db.orderEvents)
    (hlots : db'.taxLots = db.taxLots)
    (hnamed : order.side = .sell → ∃ ids, order.designatedLotIds = some ids ∧ ids ≠ [])
    (hcovers : Covers (remainingOf db) ((claimOf order).toList ++ claims db)) : Claimed db' := by
  have horders : ∀ o ∈ db'.orders, o ∈ db.orders ∨ o = order := by
    intro o ho
    rw [Table.mem_iff, hrows, List.mem_append, List.mem_singleton] at ho
    exact ho
  have hhas : ∀ orderId, db.orders.Has orderId → db'.orders.Has orderId := by
    intro orderId hold
    unfold Table.Has
    rw [hrows, List.map_append]
    exact List.mem_append_left _ hold
  have hlog : ∀ orderId, filledBy db' orderId = filledBy db orderId := by
    intro orderId
    rw [filledBy, orderLog, hevents]
    rfl
  constructor
  · have hremaining : remainingOf db' = remainingOf db := by
      unfold remainingOf
      rw [hlots]
    unfold NotOvercommitted
    rw [hremaining]
    refine hcovers.perm ?_
    unfold claims
    rw [hrows, List.filterMap_append]
    refine List.perm_append_comm.trans (List.Perm.append_left _ ?_)
    cases hclaim : claimOf order with
    | none => rw [List.filterMap_cons, hclaim]; exact List.Perm.refl _
    | some c => rw [List.filterMap_cons, hclaim]; exact List.Perm.refl _
  · intro o ho hs
    rcases horders o ho with ho | rfl
    · exact h.named o ho hs
    · exact hnamed hs
  · intro o ho hs
    rw [hlog]
    rcases horders o ho with ho | rfl
    · exact h.filled o ho hs
    · have hnone : orderLog db o.id = [] := List.filter_eq_nil_iff.mpr fun e he hid =>
        hfree (of_decide_eq_true hid ▸ h.events_known e he)
      rw [hfilled, filledBy, hnone]
      rfl
  · intro e he
    rw [hevents] at he
    exact hhas _ (h.events_known e he)

/-- An event has arrived at an order, and the lots cover the claims afterwards. -/
theorem Claimed.event {order : Order} {event : OrderEvent} {state : OrderProjectionState}
    (h : Claimed db) (hmem : order ∈ db.orders) (hid : event.orderId = order.id)
    (hevents : db.orderEvents.insert event = some db'.orderEvents)
    (horders : db'.orders = db.orders.set (projected order state))
    (hstate : state.filledQuantity.quanta = filledBy db' order.id)
    (hcovered : NotOvercommitted db') : Claimed db' := by
  have hrows : ∀ o ∈ db'.orders, (o ∈ db.orders ∧ o.id ≠ order.id) ∨ o = projected order state := by
    intro o ho
    rw [horders] at ho
    rcases Table.mem_set.mp ho with ho | ⟨rfl, -⟩
    · exact Or.inl ho
    · exact Or.inr rfl
  refine ⟨hcovered, fun o ho hs => ?_, fun o ho hs => ?_, fun e he => ?_⟩
  · rcases hrows o ho with ⟨ho, -⟩ | rfl
    · exact h.named o ho hs
    · exact h.named order hmem hs
  · rcases hrows o ho with ⟨ho, hne⟩ | rfl
    · rw [filledBy_insert hevents, if_neg (by rw [hid]; exact hne.symm), add_zero]
      exact h.filled o ho hs
    · exact hstate
  · rw [horders, Table.has_set]
    rcases (Table.mem_insert hevents).mp he with he | rfl
    · exact h.events_known e he
    · rw [hid]
      exact Table.has_of_mem hmem

theorem Claimed.filled_event {order : Order} {event : OrderEvent} {state : OrderProjectionState}
    (h : Claimed db) (hmem : order ∈ db.orders) (hid : event.orderId = order.id)
    (hevents : db.orderEvents.insert event = some db'.orderEvents)
    (hstate : state.filledQuantity.quanta = filledBy db' order.id) (hside : order.side = .sell) :
    state.filledQuantity.quanta = order.filledQuantity.quanta + fillQuanta event := by
  rw [hstate, filledBy_insert hevents, if_pos hid, h.filled order hmem hside]

theorem Claimed.claims_event {order : Order} {event : OrderEvent} {state : OrderProjectionState}
    (h : Claimed db) (hmem : order ∈ db.orders) (hid : event.orderId = order.id)
    (hevents : db.orderEvents.insert event = some db'.orderEvents)
    (horders : db'.orders = db.orders.set (projected order state))
    (hstate : state.filledQuantity.quanta = filledBy db' order.id)
    (hnone : order.side = .sell → fillQuanta event = 0) : claims db' = claims db := by
  have hclaim : claimOf (projected order state) = claimOf order := by
    unfold claimOf
    by_cases hside : order.side = .sell
    · have hsame := h.filled_event hmem hid hevents hstate hside
      rw [hnone hside, add_zero] at hsame
      have hunfilled : unfilled (projected order state) = unfilled order := by
        unfold unfilled projected
        rw [hsame]
      rw [if_pos hside, if_pos (show (projected order state).side = .sell from hside), hunfilled]
      rfl
    · rw [if_neg hside, if_neg (show ¬ (projected order state).side = .sell from hside)]
  have hset := claims_setOrder hmem (show order.id = (projected order state).id from rfl) hclaim
  unfold claims
  rw [horders]
  exact hset

end Keeps

/-! ### A fill of a sell -/

theorem sum_takenFrom {takes : List (Uuid × ℤ)} {lots : Finset Uuid} (h : ∀ t ∈ takes, t.1 ∈ lots) :
    ∑ lotId ∈ lots, takenFrom takes lotId = (takes.map (·.2)).sum := by
  induction takes with
  | nil => exact Finset.sum_const_zero
  | cons t takes ih =>
    have hrest := ih fun t' ht' => h t' (List.mem_cons_of_mem _ ht')
    have hown : (∑ lotId ∈ lots, if t.1 = lotId then t.2 else 0) = t.2 := by
      rw [Finset.sum_ite_eq lots t.1 fun _ => t.2, if_pos (h t List.mem_cons_self)]
    simp only [takenFrom_cons, Finset.sum_add_distrib, hrest, hown, List.map_cons, List.sum_cons]

theorem takenFrom_eq_zero {takes : List (Uuid × ℤ)} {lotId : Uuid} (h : ∀ t ∈ takes, t.1 ≠ lotId) :
    takenFrom takes lotId = 0 := by
  have hnone : takes.filter (·.1 = lotId) = [] :=
    List.filter_eq_nil_iff.mpr fun t ht hid => h t ht (of_decide_eq_true hid)
  rw [takenFrom, hnone]
  rfl

/-- Every other sell that has named a lot the fill takes from has named all lots of the order. -/
def TakesFromNested (db : Database) (order : Order) (quantity : Units) : Prop :=
  ∀ ids ∈ order.designatedLotIds, ∀ t ∈ takesFrom (remainingOf db) ids quantity.quanta,
    ∀ other ∈ db.orders.rows, other.id ≠ order.id → other.side = .sell →
      ∀ theirs ∈ other.designatedLotIds, t.1 ∈ theirs → ids ⊆ theirs

instance (db : Database) (order : Order) (quantity : Units) :
    Decidable (TakesFromNested db order quantity) := by unfold TakesFromNested; infer_instance

/-- **A fill of a sell** takes its quantity from the lots and from the claim. -/
theorem NotOvercommitted.fill {db mid db' : Database} {order : Order} {state : OrderProjectionState}
    {env : Env} {clock : MarketClock} {fill : Fill} {consumptions : List Uuid} {ids : List Uuid}
    (h : NotOvercommitted db) (hmem : order ∈ db.orders) (hside : order.side = .sell)
    (hids : order.designatedLotIds = some ids) (hne : ids ≠ [])
    (hlots : mid.taxLots = db.taxLots)
    (horders : db'.orders = db.orders.set (projected order state))
    (hfilled : state.filledQuantity.quanta = order.filledQuantity.quanta + fill.quantity.quanta)
    (hquantity : 0 ≤ fill.quantity.quanta) (hnested : TakesFromNested db order fill.quantity)
    (hrun : (recordSellFill env clock fill order.designatedLotIds).run mid =
      .ok (consumptions, db')) : NotOvercommitted db' := by
  have hremaining : remainingOf mid = remainingOf db := by
    unfold remainingOf
    rw [hlots]
  have htakes : saleTakes mid fill order.designatedLotIds =
      takesFrom (remainingOf db) ids fill.quantity.quanta := by
    obtain ⟨lotId, rest, rfl⟩ := List.exists_cons_of_ne_nil hne
    unfold saleTakes selectedLots
    rw [hremaining, hids]
    rfl
  obtain ⟨hleft, hsum⟩ := recordSellFill_remaining hquantity hrun
  rw [htakes] at hleft hsum
  rw [hremaining] at hleft
  set takes := takesFrom (remainingOf db) ids fill.quantity.quanta with htakes'
  have hwithin : ∀ t ∈ takes, t.1 ∈ ids.toFinset := fun t ht =>
    List.mem_toFinset.mpr (mem_lots_of_takesFrom ht)
  have hclaim : claimOf order = some ⟨ids.toFinset, unfilled order⟩ :=
    claimOf_eq_some.mpr ⟨hside, ids, hids, rfl⟩
  have hclaim' : claimOf (projected order state) =
      some ⟨ids.toFinset, unfilled order - fill.quantity.quanta⟩ := by
    refine claimOf_eq_some.mpr ⟨hside, ids, hids, ?_⟩
    have hunfilled : unfilled (projected order state) = unfilled order - fill.quantity.quanta := by
      unfold unfilled projected
      dsimp only
      omega
    rw [hunfilled]
  obtain ⟨rest, hbefore, hafter, hrest⟩ :=
    claims_setOrder_perm hmem (show order.id = (projected order state).id from rfl) hclaim hclaim'
  have hserved : Covers (fun lotId => remainingOf db lotId - takenFrom takes lotId)
      (⟨ids.toFinset, unfilled order - fill.quantity.quanta⟩ :: rest) := by
    have hcovers : Covers (remainingOf db) (⟨ids.toFinset, unfilled order⟩ :: rest) := h.perm hbefore
    refine hcovers.serve (fun lotId => ?_) (fun lotId hout => ?_) ?_
      fun c hc lotId hlot htaken => ?_
    · rw [← hleft]
      exact remainingOf_nonneg db' lotId
    · refine takenFrom_eq_zero fun t ht hid => hout ?_
      rw [← hid]
      exact hwithin t ht
    · rw [sum_takenFrom hwithin, hsum]
    · obtain ⟨other, hother, hotherid, hotherclaim⟩ := hrest c hc
      obtain ⟨hotherside, theirs, htheirs, rfl⟩ := claimOf_eq_some.mp hotherclaim
      obtain ⟨t, ht, hid⟩ : ∃ t ∈ takes, t.1 = lotId := by
        by_contra hnone
        push Not at hnone
        exact htaken (takenFrom_eq_zero hnone)
      have hsub := hnested ids hids t ht other hother hotherid hotherside theirs htheirs
        (hid ▸ List.mem_toFinset.mp hlot)
      exact fun i hi => List.mem_toFinset.mpr (hsub (List.mem_toFinset.mp hi))
  have hsame : remainingOf db' = fun lotId => remainingOf db lotId - takenFrom takes lotId :=
    funext hleft
  unfold NotOvercommitted claims
  rw [hsame, horders]
  exact hserved.perm hafter.symm

/-! ### The steps -/

section Steps
variable {env : Env} {db db' : Database}

theorem remainingOf_of_lots (h : db'.taxLots = db.taxLots) (lotId : Uuid) :
    remainingOf db lotId ≤ remainingOf db' lotId := by
  unfold remainingOf
  rw [h]

/-- **A new sell** is covered if its lots hold it beside every sell that shares one of them. -/
theorem Claimed.sell {request : OrderCreationRequest} {lotIds : List Uuid} {order : Order}
    (h : Claimed db) (hunfilled : ∀ o ∈ db.orders, o.side = .sell → 0 ≤ unfilled o)
    (hroom : request.quantity.quanta + touching (claims db) lotIds.toFinset ≤
      ∑ lotId ∈ lotIds.toFinset, remainingOf db lotId)
    (hrun : (placeDesignated env request lotIds).run db = .ok (order, db')) : Claimed db' := by
  unfold placeDesignated at hrun
  obtain ⟨designated, mid, hvalid, hplace⟩ := bind_ok.mp hrun
  have hshape : lotIds ≠ [] := by
    simp only [validateDesignation, bind_ok, lift_ok, checkDesignation, except_bind_ok,
      check_ok] at hvalid
    obtain ⟨_, _, ⟨⟨_, -, _, hne, -⟩, -⟩, -⟩ := hvalid
    exact hne
  obtain ⟨rfl, rfl, hnamed⟩ := validateDesignation_ok hvalid
  obtain ⟨hrows, hfree, hside, hids, hquantity, hfilled, hevents, hlots⟩ := placeOrder_rows hplace
  have hclaim : claimOf order = some ⟨lotIds.toFinset, request.quantity.quanta⟩ := by
    refine claimOf_eq_some.mpr ⟨hside.trans (hnamed lotIds rfl).1, lotIds, hids, ?_⟩
    unfold unfilled
    rw [hquantity, hfilled, QuantizedDecimal.quanta_zero, sub_zero]
  refine h.placed hrows hfree hfilled hevents hlots (fun _ => ⟨lotIds, hids, hshape⟩) ?_
  rw [hclaim, Option.toList_some, List.singleton_append]
  refine h.covered.cons (fun c hc => ?_) hroom
  obtain ⟨o, ho, hc⟩ := mem_claims.mp hc
  obtain ⟨hs, -, -, rfl⟩ := claimOf_eq_some.mp hc
  exact hunfilled o ho hs

theorem Claimed.buy {request : OrderCreationRequest} {designatedLotIds : Option (List Uuid)}
    {order : Order} (h : Claimed db) (hbuy : request.side = .buy)
    (hrun : (placeOrder env request designatedLotIds).run db = .ok (order, db')) : Claimed db' := by
  obtain ⟨hrows, hfree, hside, -, -, hfilled, hevents, hlots⟩ := placeOrder_rows hrun
  have hnot : order.side ≠ .sell := by
    rw [hside, hbuy]
    decide
  refine h.placed hrows hfree hfilled hevents hlots (fun hs => absurd hs hnot) ?_
  rw [claimOf, if_neg hnot]
  exact h.covered

theorem Claimed.applyNewEvent {order : Order} {event : OrderEvent} {state : OrderProjectionState}
    (h : Claimed db) (hmem : order ∈ db.orders) (hid : event.orderId = order.id)
    (hfill : event.eventType ≠ .fill)
    (hrun : (applyNewEvent env order event).run db = .ok (state, db')) : Claimed db' := by
  have hstate := applyNewEvent_filled hrun
  obtain ⟨events, holds, hinsert, -, -, -, rfl⟩ := applyNewEvent_ok hrun
  refine h.event hmem hid hinsert rfl hstate ?_
  unfold NotOvercommitted
  rw [h.claims_event hmem hid hinsert rfl hstate fun _ => fillQuanta_of_ne hfill]
  exact h.covered

/-- **A delivery** keeps the lots covering the claims if its fill takes from nested lots. -/
theorem Claimed.handle {fault : Option HandleStage} {message : TradeUpdate}
    {pushed : Option OrderStatus} (h : Claimed db) (hpos : hasPositiveQuantity message)
    (hnested : eventTypeOf message.event = some .fill →
      ∀ order ∈ findByClientOrderId db message.clientOrderId, order.side = .sell →
        ∀ quantity ∈ (QuantizedDecimal.ofText message.qty).toOption,
          TakesFromNested db order quantity)
    (hrun : (handle env fault message).run db = .ok (pushed, db')) : Claimed db' := by
  rcases handle_ok hrun with ⟨-, rfl⟩ | ⟨eventType, order, state, htype, hmem, hfound, mid, hevent,
    hlots⟩
  · exact h
  rcases hlots with ⟨hne, rfl⟩ | ⟨rfl, x, quantity, price, -, hq, hp, hlots⟩
  · exact h.applyNewEvent hmem rfl hne hevent
  have hside := hlots.orderSide
  simp only [orderSide, Prod.mk.injEq] at hside
  obtain ⟨horders, hevents, -⟩ := hside
  have hstate := applyNewEvent_filled hevent
  obtain ⟨events, holds, hinsert, -, -, -, rfl⟩ := applyNewEvent_ok hevent
  have hinsert' : db.orderEvents.insert (eventOfMessage env order .fill message) =
      some db'.orderEvents := by rw [hevents]; exact hinsert
  have hstate' : state.filledQuantity.quanta = filledBy db' order.id := by
    rw [hstate]
    simp only [filledBy, orderLog, hevents]
  have hquanta : fillQuanta (eventOfMessage env order .fill message) = quantity.quanta := by
    simp [fillQuanta, fillOf, fillTexts, eventOfMessage, hq, hp, bind, Except.bind, pure, Except.pure]
  refine h.event hmem rfl hinsert' horders hstate' ?_
  rcases hlots with ⟨hbuy, clock, lot, hfill⟩ | ⟨hsell, clock, consumptions, hfill⟩
  · have hclaims := h.claims_event hmem rfl hinsert' horders hstate'
      fun hs => absurd (hs.symm.trans hbuy) (by decide)
    unfold NotOvercommitted
    rw [hclaims]
    exact h.covered.mono fun lotId => recordBuyFill_remaining hfill lotId
  · obtain ⟨ids, hids, hne⟩ := h.named order hmem hsell
    have hnested' := hnested htype order hfound hsell quantity (by rw [hq]; rfl)
    have hfilled := h.filled_event hmem rfl hinsert' hstate' hsell
    rw [hquanta] at hfilled
    refine h.covered.fill hmem hsell hids hne ?_ horders hfilled (nonneg_of_positive hpos hq)
      hnested' hfill
    rfl

end Steps

/-! ### Runs -/

/-- A sell with designated lots, or another unit of work of the system. -/
inductive SellingOp
  | sell (request : OrderCreationRequest) (lotIds : List Uuid)
  | system (op : System.Op)

/-- An operation with what it reads from outside the database. -/
structure SellingStep where
  env : Env
  op : SellingOp

/-- The unit of work of a step. -/
def sellingBody (step : SellingStep) : Tx Unit :=
  match step.op with
  | .sell request lotIds => do
    let _ ← placeDesignated step.env request lotIds
  | .system op => System.body ⟨step.env, op⟩

/-- The order is neither terminal nor filled. -/
def IsUnfilled (order : Order) : Prop :=
  order.status.isTerminalNonFilled = false ∧ order.status ≠ .filled ∧
    order.filledQuantity.quanta < order.quantityRequested.quanta

instance (order : Order) : Decidable (IsUnfilled order) := by unfold IsUnfilled; infer_instance

/-- No sell is terminal or filled, there are no sells without designated lots and no splits, and
fills have positive quantities. -/
def OnlyDesignated (db : Database) (step : SellingStep) : Prop :=
  (∀ o ∈ db.orders.rows, o.side = .sell → IsUnfilled o) ∧
    match step.op with
    | .system (.placeOrder request _) => request.side = .buy
    | .system (.tradeUpdate _ message) => hasPositiveQuantity message
    | .system (.applySplit _ _ _) => False
    | _ => True

/-- The lots of a new sell hold it beside every sell that shares one of them, wherever that stands;
and a fill of a sell takes from no lot of another sell that has not named all lots of the first. -/
def LeavesOthersCovered (db : Database) (step : SellingStep) : Prop :=
  match step.op with
  | .sell request lotIds => request.quantity.quanta + touching (claims db) lotIds.toFinset ≤
      ∑ lotId ∈ lotIds.toFinset, remainingOf db lotId
  | .system (.tradeUpdate _ message) => eventTypeOf message.event = some .fill →
      ∀ order ∈ findByClientOrderId db message.clientOrderId, order.side = .sell →
        ∀ quantity ∈ (QuantizedDecimal.ofText message.qty).toOption,
          TakesFromNested db order quantity
  | .system _ => True

instance (db : Database) (step : SellingStep) : Decidable (OnlyDesignated db step) := by
  unfold OnlyDesignated; split <;> infer_instance

instance (db : Database) (step : SellingStep) : Decidable (LeavesOthersCovered db step) := by
  unfold LeavesOthersCovered; split <;> infer_instance

/-- No sell has been placed yet; every event has its order. -/
structure NoSells (db : Database) : Prop where
  buys : ∀ o ∈ db.orders, o.side = .buy
  events_known : ∀ e ∈ db.orderEvents, db.orders.Has e.orderId

theorem NoSells.claimed {db : Database} (h : NoSells db) : Claimed db := by
  have hnot : ∀ o ∈ db.orders, o.side ≠ .sell := fun o ho hs => by
    rw [h.buys o ho] at hs
    cases hs
  have hnone : claims db = [] := List.filterMap_eq_nil_iff.mpr fun o ho => if_neg (hnot o ho)
  refine ⟨?_, fun o ho hs => absurd hs (hnot o ho), fun o ho hs => absurd hs (hnot o ho),
    h.events_known⟩
  unfold NotOvercommitted
  rw [hnone]
  exact covers_nil (remainingOf_nonneg db)

/-- **The step lemma.** -/
theorem Claimed.step {db db' : Database} {step : SellingStep} {u : Unit} (h : Claimed db)
    (honly : OnlyDesignated db step) (hleaves : LeavesOthersCovered db step)
    (hrun : (sellingBody step).run db = .ok (u, db')) : Claimed db' := by
  obtain ⟨env, op⟩ := step
  obtain ⟨hunfilled, honly⟩ := honly
  cases op with
  | sell request lotIds =>
    obtain ⟨order, hrun⟩ := System.discard_ok hrun
    refine h.sell (fun o ho hs => ?_) hleaves hrun
    exact sub_nonneg.mpr (hunfilled o ho hs).2.2.le
  | system op =>
    cases op with
    | initiateDeposit customerId amount =>
      obtain ⟨r, hrun⟩ := System.discard_ok hrun
      obtain ⟨entry, cash, equity, entries, obligations, -, -, -, -, -, rfl, -, -⟩ :=
        Identity.initiateDeposit_ok hrun
      exact h.frame rfl rfl (remainingOf_of_lots rfl)
    | confirmSettlement obligationId =>
      obtain ⟨o, -, -, rfl⟩ := Identity.confirmSettlement_ok hrun
      exact h.frame rfl rfl (remainingOf_of_lots rfl)
    | applyAchReturn obligationId =>
      obtain ⟨o, customerId, entry, receivable, accounts, entries, -, -, -, -, -, -, rfl⟩ :=
        Identity.applyAchReturn_ok hrun
      exact h.frame rfl rfl (remainingOf_of_lots rfl)
    | initiateWithdrawal customerId amount =>
      obtain ⟨r, hrun⟩ := System.discard_ok hrun
      obtain ⟨available, entry, cash, equity, entries, -, -, -, -, -, -, rfl⟩ :=
        Identity.initiateWithdrawal_ok hrun
      exact h.frame rfl rfl (remainingOf_of_lots rfl)
    | placeOrder request designatedLotIds =>
      obtain ⟨order, hrun⟩ := System.discard_ok hrun
      exact h.buy honly hrun
    | approve orderId =>
      obtain ⟨order, hrun⟩ := System.discard_ok hrun
      obtain ⟨before, hmem, -, -, rfl, rfl⟩ := approve_ok hrun
      exact h.setOrder hmem rfl rfl rfl rfl rfl
    | submitToBroker orderId broker =>
      rcases submitToBroker_ok hrun with rfl | ⟨order, hmem, event, state, -, hid, -, htype, hrun⟩
      · exact h
      · refine h.applyNewEvent hmem hid ?_ hrun
        rcases htype with htype | htype <;> simp [htype]
    | tradeUpdate fault message =>
      obtain ⟨pushed, hrun⟩ := System.discard_ok hrun
      exact h.handle honly hleaves hrun
    | applySplit securityId ratio effectiveDate => exact honly.elim

/-- **When designated lots are not over-committed**: in every run of sells with designated lots,
none of them terminal or filled, whose steps leave the other sells covered. -/
theorem designated_lots_cover_claims (steps : List SellingStep) {db : Database} (h : NoSells db)
    (honly : RunMeets sellingBody OnlyDesignated steps db)
    (hleaves : RunMeets sellingBody LeavesOthersCovered steps db) (S : Finset Uuid) :
    demand (claims (runs sellingBody steps db)) S ≤
      ∑ lotId ∈ S, remainingOf (runs sellingBody steps db) lotId := by
  have hclaimed : Claimed (runs sellingBody steps db) := by
    refine runs_keeps_of_meets ?_ steps h.claimed (honly.and hleaves)
    intro mid step u mid' hmid hstep hrun
    exact hmid.step hstep.1 hstep.2 hrun
  exact hclaimed.covered S

/-- Ten shares are bought twice: the lots `4` and `7`. -/
def twoLots : List SellingStep := [
  ⟨envAt 1 1, .system (.initiateDeposit 1 (dollars 2000))⟩,
  ⟨envAt 2 2, .system (.placeOrder ⟨1, 7, .buy, shares 10, dollarsPerShare 100⟩ none)⟩,
  ⟨envAt 3 3, .system (.submitToBroker 2 (.ok "b2"))⟩,
  ⟨envAt 4 4, .system (.tradeUpdate none
    ⟨.fill, some "x", .trueup 2, ⟨4, true⟩, some 100, some 10⟩)⟩,
  ⟨envAt 5 5, .system (.placeOrder ⟨1, 7, .buy, shares 10, dollarsPerShare 100⟩ none)⟩,
  ⟨envAt 6 6, .system (.submitToBroker 5 (.ok "b5"))⟩,
  ⟨envAt 7 7, .system (.tradeUpdate none
    ⟨.fill, some "y", .trueup 5, ⟨7, true⟩, some 100, some 10⟩)⟩]

/-- A sell of shares at the price they were bought for. -/
def sellOf (quantity : Fin 1000000) : OrderCreationRequest :=
  ⟨1, 7, .sell, shares quantity, dollarsPerShare 100⟩

/-- Six shares of the lot `4` are to be sold, the order is submitted, and four more are to be sold;
three of the first six are. -/
def soldOnce : List SellingStep := twoLots ++ [
  ⟨envAt 8 8, .sell (sellOf 6) [4]⟩,
  ⟨envAt 9 9, .system (.submitToBroker 8 (.ok "b8"))⟩,
  ⟨envAt 10 10, .sell (sellOf 4) [4]⟩,
  ⟨envAt 11 11, .system (.tradeUpdate none
    ⟨.partialFill, some "z", .trueup 8, ⟨11, true⟩, some 100, some 3⟩)⟩]

theorem noSells_openedAccount : NoSells (openedAccount 1) where
  buys o ho := by cases ho
  events_known e he := by cases he

theorem designated_lots_cover_claims_sold_once :
    demand (claims (runs sellingBody soldOnce (openedAccount 1))) {4} = 7000000 ∧
      demand (claims (runs sellingBody soldOnce (openedAccount 1))) {4} ≤
        ∑ lotId ∈ {4}, remainingOf (runs sellingBody soldOnce (openedAccount 1)) lotId :=
  ⟨by decide +kernel, designated_lots_cover_claims soldOnce noSells_openedAccount
    (by decide +kernel) (by decide +kernel) {4}⟩

/-- All ten shares of the lot `4` are to be sold, twice; neither order is submitted yet. -/
def soldTwice : List SellingStep := twoLots ++ [
  ⟨envAt 8 8, .sell (sellOf 10) [4]⟩, ⟨envAt 9 9, .sell (sellOf 10) [4]⟩]

/-- All ten shares of the lot `4` are to be sold, then ten shares of either lot; five of the latter
are sold, from the lot `4`. -/
def takenAway : List SellingStep := twoLots ++ [
  ⟨envAt 8 8, .sell (sellOf 10) [4]⟩,
  ⟨envAt 9 9, .system (.submitToBroker 8 (.ok "b8"))⟩,
  ⟨envAt 10 10, .sell (sellOf 10) [4, 7]⟩,
  ⟨envAt 11 11, .system (.submitToBroker 10 (.ok "b10"))⟩,
  ⟨envAt 12 12, .system (.tradeUpdate none
    ⟨.partialFill, some "z", .trueup 10, ⟨12, true⟩, some 100, some 5⟩)⟩]

/-- **Lots are over-committed**: two orders for all of one lot are accepted when the first is not
submitted yet; and a partial fill takes from the lot of another order. -/
theorem lot_sold_twice : NoSells (openedAccount 1) ∧
    (RunMeets sellingBody OnlyDesignated soldTwice (openedAccount 1) ∧
      ¬ NotOvercommitted (runs sellingBody soldTwice (openedAccount 1))) ∧
    RunMeets sellingBody OnlyDesignated takenAway (openedAccount 1) ∧
      ¬ NotOvercommitted (runs sellingBody takenAway (openedAccount 1)) := by
  have htwice : ¬ demand (claims (runs sellingBody soldTwice (openedAccount 1))) {4} ≤
      ∑ lotId ∈ {4}, remainingOf (runs sellingBody soldTwice (openedAccount 1)) lotId := by
    decide +kernel
  have htaken : ¬ demand (claims (runs sellingBody takenAway (openedAccount 1))) {4} ≤
      ∑ lotId ∈ {4}, remainingOf (runs sellingBody takenAway (openedAccount 1)) lotId := by
    decide +kernel
  exact ⟨noSells_openedAccount, ⟨by decide +kernel, fun h => htwice (h {4})⟩, by decide +kernel,
    fun h => htaken (h {4})⟩

end Trueup.Orders
