import Trueup.Lib.Sums
import Trueup.Models.OpenedAccount
import Trueup.Orders.OrderService
import Trueup.Orders.OrderStatus

/-! # The projection does not depend on the order of arrival

Each arrival stores its event and folds all events of the order again, in the order of their `seq`
(`apply_new_event`). The fold sees the events as a set (`fold_perm`), so that after any sequence of
arrivals the order carries the fold of what has arrived (`Arrived.step`, `Arrived.run`).

The fold may fail: a running total or the average price may not fit its column, and then the arrival
raises and its event is rolled back with it. Whether that happens depends on what arrived before.
For valid fills no arrival order runs into it exactly when the whole set folds and each event does
alone (`fold_part`): totals only grow, and the average of some fills is at most the largest price
among them. -/

namespace Trueup.Orders

open Trueup.Core Trueup.Models Trueup.Lib Trueup.Lib.Transaction

/-! ### The fold of a set -/

theorem sortBySeq_congr {xs ys : List OrderEvent} (h : xs.Perm ys)
    (hseq : (xs.map (·.seq)).Nodup) : sortBySeq xs = sortBySeq ys := by
  have hperm : (sortBySeq xs).Perm (sortBySeq ys) :=
    ((sortBySeq_perm xs).trans h).trans (sortBySeq_perm ys).symm
  have hsorted : ∀ l, (sortBySeq l).Pairwise fun a b => a.seq ≤ b.seq := fun l =>
    List.pairwise_insertionSort _ _
  refine List.Perm.eq_of_pairwise (fun a b ha hb hab hba => ?_) (hsorted xs) (hsorted ys) hperm
  have ha' := (sortBySeq_perm xs).mem_iff.mp ha
  have hb' := h.mem_iff.mpr ((sortBySeq_perm ys).mem_iff.mp hb)
  exact List.inj_on_of_nodup_map hseq ha' hb' (le_antisymm hab hba)

/-- **The fold does not see the order of the events** when their `seq` are distinct. -/
theorem fold_perm {xs ys : List OrderEvent} (h : xs.Perm ys) (hseq : (xs.map (·.seq)).Nodup)
    (quantityRequested : Units) : fold xs quantityRequested = fold ys quantityRequested := by
  unfold fold
  rw [sortBySeq_congr h hseq]

/-! ### One arrival -/

theorem releaseHoldIfWarranted_run (env : Env) (orderId : Uuid) (status : OrderStatus)
    (db : Database) : ∃ holds, (releaseHoldIfWarranted env orderId status).run db =
      .ok ((), { db with approvalHolds := holds }) := by
  unfold releaseHoldIfWarranted
  cases releaseReason status with
  | none => exact ⟨db.approvalHolds, rfl⟩
  | some reason =>
    have hread : (read fun db => .ok (db.approvalHolds.find orderId) : Tx (Option ApprovalHold)).run
        db = .ok (db.approvalHolds.find orderId, db) := read_ok.mpr ⟨rfl, rfl⟩
    dsimp only
    rw [releaseHold, run_bind_of_ok hread]
    cases db.approvalHolds.find orderId with
    | none => exact ⟨db.approvalHolds, rfl⟩
    | some hold =>
      dsimp only [whenever]
      split_ifs
      · exact ⟨_, setApprovalHold_ok.mpr rfl⟩
      · exact ⟨db.approvalHolds, rfl⟩

/-- The arrival of a storable event succeeds exactly when the events then on file fold. -/
theorem applyNewEvent_run (env : Env) (order : Order) {event : OrderEvent} {db : Database}
    {events : Table OrderEvent.key} (hinsert : db.orderEvents.insert event = some events)
    (hids : ∀ x ∈ event.executionId, x.length ≤ executionIdWidth ∧ x ∉ db.executionIds) :
    (∀ err, fold (sortBySeq (events.rows.filter (·.orderId = order.id))) order.quantityRequested =
        .error err → (applyNewEvent env order event).run db = .error err) ∧
      ∀ state, fold (sortBySeq (events.rows.filter (·.orderId = order.id)))
        order.quantityRequested = .ok state → ∃ holds,
          (applyNewEvent env order event).run db = .ok (state, { db with
            orderEvents := events
            orders := db.orders.set (projected order state)
            approvalHolds := holds }) := by
  have hadd : (addOrderEvent event).run db = .ok ((), { db with orderEvents := events }) :=
    addOrderEvent_ok.mpr ⟨fun x hx => (hids x hx).1, fun x hx => (hids x hx).2, _, hinsert, rfl⟩
  unfold applyNewEvent
  rw [run_bind_of_ok hadd]
  constructor
  · intro err herr
    exact run_bind_of_error (read_error.mpr herr)
  · intro state hstate
    have hread : (read fun db => fold (eventsOf db order.id) order.quantityRequested :
        Tx OrderProjectionState).run { db with orderEvents := events } =
          .ok (state, { db with orderEvents := events }) := read_ok.mpr ⟨hstate, rfl⟩
    obtain ⟨holds, hrel⟩ := releaseHoldIfWarranted_run env order.id state.status
      { db with orderEvents := events, orders := db.orders.set (projected order state) }
    have hset : (setOrder (projected order state)).run { db with orderEvents := events } =
        .ok ((), { db with orderEvents := events, orders := db.orders.set (projected order state) }) :=
      setOrder_ok.mpr rfl
    refine ⟨holds, ?_⟩
    rw [run_bind_of_ok hread]
    refine (run_bind_of_ok hset).trans ?_
    rw [run_bind_of_ok hrel]
    rfl

/-! ### A sequence of arrivals -/

/-- An event arrives at its order, in a unit of work of its own: the order is read as it is now. -/
def arrive (orderId : Uuid) (arrival : Env × OrderEvent) : Tx OrderProjectionState := do
  let order ← getOrder orderId
  applyNewEvent arrival.1 order arrival.2

/-- Every arrival of the sequence goes through. -/
def AllArrive (orderId : Uuid) (arrivals : List (Env × OrderEvent)) (db : Database) : Prop :=
  RunMeets (arrive orderId) (fun db a => ((arrive orderId a).run db).isOk) arrivals db

/-- An order on file that has no events yet, and a set of events of it that can be stored: their
`seq` are distinct, their execution ids are distinct, new and short enough. -/
structure Awaits (start : Database) (order : Order) (events : List OrderEvent) : Prop where
  found : start.orders.find order.id = some order
  unseen : ∀ e ∈ start.orderEvents, e.orderId ≠ order.id
  own : ∀ e ∈ events, e.orderId = order.id
  seqs : (events.map (·.seq)).Nodup
  ids : (events.filterMap OrderEvent.executionId).Nodup
  newIds : ∀ x ∈ events.filterMap OrderEvent.executionId,
    x.length ≤ executionIdWidth ∧ x ∉ start.executionIds

theorem Awaits.perm {start : Database} {order : Order} {xs ys : List OrderEvent}
    (h : Awaits start order xs) (hperm : ys.Perm xs) : Awaits start order ys where
  found := h.found
  unseen := h.unseen
  own e he := h.own e (hperm.mem_iff.mp he)
  seqs := (hperm.map _).nodup_iff.mpr h.seqs
  ids := (hperm.filterMap _).nodup_iff.mpr h.ids
  newIds x hx := h.newIds x ((hperm.filterMap _).mem_iff.mp hx)

theorem Awaits.left {start : Database} {order : Order} {xs ys : List OrderEvent}
    (h : Awaits start order (xs ++ ys)) : Awaits start order xs where
  found := h.found
  unseen := h.unseen
  own e he := h.own e (List.mem_append_left _ he)
  seqs := by
    have := h.seqs
    rw [List.map_append] at this
    exact this.of_append_left
  ids := by
    have := h.ids
    rw [List.filterMap_append] at this
    exact this.of_append_left
  newIds x hx := h.newIds x (by
    rw [List.filterMap_append]
    exact List.mem_append_left _ hx)

/-- The state when the events `seen` have arrived: they are on file, and the order carries their
fold. -/
structure Arrived (start : Database) (order : Order) (seen : List OrderEvent) (db : Database) :
    Prop where
  stored : db.orderEvents.rows = start.orderEvents.rows ++ seen
  carried : seen = [] ∧ db.orders.find order.id = some order ∨
    ∃ state, fold seen order.quantityRequested = .ok state ∧
      db.orders.find order.id = some (projected order state)

theorem Arrived.start {start : Database} {order : Order} {events : List OrderEvent}
    (h : Awaits start order events) : Arrived start order [] start :=
  ⟨(List.append_nil _).symm, Or.inl ⟨rfl, h.found⟩⟩

/-- The row an arrival reads differs from the order in the folded fields at most. -/
theorem Arrived.row {start : Database} {order : Order} {seen : List OrderEvent} {db : Database}
    (h : Arrived start order seen db) : ∃ row, db.orders.find order.id = some row ∧
      row.id = order.id ∧ row.quantityRequested = order.quantityRequested ∧
      ∀ state, projected row state = projected order state := by
  rcases h.carried with ⟨-, hfind⟩ | ⟨state, -, hfind⟩
  · exact ⟨order, hfind, rfl, rfl, fun _ => rfl⟩
  · exact ⟨projected order state, hfind, rfl, rfl, fun _ => rfl⟩

theorem Awaits.folded {start : Database} {order : Order} {seen : List OrderEvent}
    {events : Table OrderEvent.key} (h : Awaits start order seen)
    (hrows : events.rows = start.orderEvents.rows ++ seen) :
    fold (sortBySeq (events.rows.filter (·.orderId = order.id))) order.quantityRequested =
      fold seen order.quantityRequested := by
  have hbefore : start.orderEvents.rows.filter (·.orderId = order.id) = [] := by
    refine List.filter_eq_nil_iff.mpr fun e he => ?_
    simpa using h.unseen e he
  have hown : seen.filter (·.orderId = order.id) = seen :=
    List.filter_eq_self.mpr fun e he => by simpa using h.own e he
  rw [hrows, List.filter_append, hbefore, hown, List.nil_append]
  exact (fold_perm (sortBySeq_perm seen).symm h.seqs _).symm

theorem Arrived.storable {start : Database} {order : Order} {seen rest : List OrderEvent}
    {event : OrderEvent} {db : Database} (hawaits : Awaits start order (seen ++ event :: rest))
    (h : Arrived start order seen db) : ¬ db.orderEvents.Has event.key ∧
      ∀ x ∈ event.executionId, x.length ≤ executionIdWidth ∧ x ∉ db.executionIds := by
  constructor
  · intro hhas
    obtain ⟨other, hother, hkey⟩ := Table.has_iff.mp hhas
    obtain ⟨hid, hseq⟩ := Prod.mk.inj hkey
    rw [Table.mem_iff, h.stored, List.mem_append] at hother
    rcases hother with hbefore | hseen
    · exact hawaits.unseen other hbefore (hid.trans (hawaits.own event (by simp)))
    · have hdistinct := hawaits.seqs
      rw [List.map_append, List.nodup_append] at hdistinct
      exact hdistinct.2.2 _ (List.mem_map_of_mem hseen) _ (by simp) hseq
  · intro x hx
    have hmem : x ∈ (seen ++ event :: rest).filterMap OrderEvent.executionId :=
      List.mem_filterMap.mpr ⟨event, by simp, hx⟩
    obtain ⟨hlength, hnew⟩ := hawaits.newIds x hmem
    refine ⟨hlength, fun hfile => ?_⟩
    rw [Database.executionIds, h.stored, List.filterMap_append, List.mem_append] at hfile
    rcases hfile with hbefore | hseen
    · exact hnew hbefore
    · have hdistinct := hawaits.ids
      rw [List.filterMap_append, List.nodup_append] at hdistinct
      exact hdistinct.2.2 x hseen x (List.mem_filterMap.mpr ⟨event, by simp, hx⟩) rfl

/-- **One arrival**: it goes through exactly when the events then seen fold, and the order carries
their fold. -/
theorem Arrived.step {start : Database} {order : Order} {seen rest : List OrderEvent}
    {event : OrderEvent} {db : Database} (hawaits : Awaits start order (seen ++ event :: rest))
    (h : Arrived start order seen db) (env : Env) :
    (∀ err, fold (seen ++ [event]) order.quantityRequested = .error err →
        (arrive order.id (env, event)).run db = .error err) ∧
      ∀ state, fold (seen ++ [event]) order.quantityRequested = .ok state →
        ∃ db', (arrive order.id (env, event)).run db = .ok (state, db') ∧
          Arrived start order (seen ++ [event]) db' := by
  have hprefix : Awaits start order (seen ++ [event]) := by
    rw [show seen ++ event :: rest = seen ++ [event] ++ rest by simp] at hawaits
    exact hawaits.left
  obtain ⟨row, hfind, hid, hrequested, hprojected⟩ := h.row
  obtain ⟨hkey, hids⟩ := h.storable hawaits
  obtain ⟨events, hinsert⟩ := Table.exists_insert hkey
  have hrows : events.rows = start.orderEvents.rows ++ (seen ++ [event]) := by
    rw [Table.rows_insert hinsert, h.stored, List.append_assoc]
  have hget : (getOrder order.id).run db = .ok (row, db) :=
    read_ok.mpr ⟨ofOption_ok.mpr hfind, rfl⟩
  obtain ⟨hfails, hreturns⟩ := applyNewEvent_run env row hinsert hids
  rw [hid, hrequested, hprefix.folded hrows] at hfails hreturns
  unfold arrive
  rw [run_bind_of_ok hget]
  refine ⟨hfails, fun state hstate => ?_⟩
  obtain ⟨holds, hrun⟩ := hreturns state hstate
  refine ⟨_, hrun, hrows, Or.inr ⟨state, hstate, ?_⟩⟩
  have hrow := Table.find_eq_some.mp hfind
  have hhas : db.orders.Has (projected row state).id :=
    Table.has_iff.mpr ⟨row, hrow.1, rfl⟩
  rw [Table.find_set hhas, hprojected]
  exact if_pos rfl

/-- Every event of the sequence finds a set that folds with it. -/
def AllFold (order : Order) (seen events : List OrderEvent) : Prop :=
  ∀ arrived, arrived ≠ [] → arrived <+: events →
    (fold (seen ++ arrived) order.quantityRequested).isOk

theorem allFold_cons {order : Order} {seen events : List OrderEvent} {event : OrderEvent} :
    AllFold order seen (event :: events) ↔
      (fold (seen ++ [event]) order.quantityRequested).isOk ∧
        AllFold order (seen ++ [event]) events := by
  constructor
  · intro h
    refine ⟨h [event] (by simp) (by simp), fun arrived _ hpre => ?_⟩
    rw [List.append_assoc]
    exact h ([event] ++ arrived) (by simp) (by simpa using hpre)
  · rintro ⟨hfirst, hrest⟩ arrived hne hpre
    obtain _ | ⟨first, later⟩ := arrived
    · exact absurd rfl hne
    obtain ⟨rfl, hlater⟩ := List.cons_prefix_cons.mp hpre
    by_cases hempty : later = []
    · rw [hempty]
      exact hfirst
    · have := hrest later hempty hlater
      rwa [List.append_assoc] at this

/-- **A sequence of arrivals** goes through exactly when all its beginnings fold; the order then
carries the fold of all. -/
theorem Arrived.run {start : Database} {order : Order} : ∀ {arrivals : List (Env × OrderEvent)}
    {seen : List OrderEvent} {db : Database},
    Awaits start order (seen ++ arrivals.map Prod.snd) → Arrived start order seen db →
      (AllArrive order.id arrivals db ↔ AllFold order seen (arrivals.map Prod.snd)) ∧
        (AllArrive order.id arrivals db →
          Arrived start order (seen ++ arrivals.map Prod.snd) (runs (arrive order.id) arrivals db))
  | [], seen, db, _, h => by
    refine ⟨⟨fun _ arrived hne hpre => absurd (List.prefix_nil.mp hpre) hne, fun _ => trivial⟩,
      fun _ => ?_⟩
    simpa [runs] using h
  | (env, event) :: arrivals, seen, db, hawaits, h => by
    rw [List.map_cons] at hawaits ⊢
    obtain ⟨hfails, hreturns⟩ := h.step hawaits env
    have hawaits' : Awaits start order ((seen ++ [event]) ++ arrivals.map Prod.snd) := by
      simpa using hawaits
    rw [allFold_cons, AllArrive, RunMeets]
    cases hfold : fold (seen ++ [event]) order.quantityRequested with
    | error err =>
      rw [hfails err hfold]
      simp [Except.isOk, Except.toBool]
    | ok state =>
      obtain ⟨db', hrun, harrived⟩ := hreturns state hfold
      obtain ⟨hiff, hresult⟩ := Arrived.run hawaits' harrived
      rw [atomically_of_ok hrun, hrun, runs_cons, atomically_of_ok hrun]
      refine ⟨and_congr (by simp [Except.isOk, Except.toBool]) hiff, fun hall => ?_⟩
      rw [show seen ++ event :: arrivals.map Prod.snd =
        seen ++ [event] ++ arrivals.map Prod.snd by simp]
      exact hresult hall.2

/-! ### Which sets fold -/

/-- Every fill has a positive quantity and a price that is not negative. -/
def ValidFills (events : List OrderEvent) : Prop :=
  ∀ e ∈ events, e.eventType = .fill →
    ∃ quantity price, fillOf e = .ok (quantity, price) ∧ 0 < quantity ∧ 0 ≤ price

theorem ValidFills.sublist {xs ys : List OrderEvent} (h : ValidFills ys) (hsub : xs ⊆ ys) :
    ValidFills xs := fun e he => h e (hsub he)

/-- The quantity and the notional of an event are not negative, and it has no notional without a
quantity. -/
theorem ValidFills.nonneg {events : List OrderEvent} (h : ValidFills events) {e : OrderEvent}
    (he : e ∈ events) : 0 ≤ fillQuanta e ∧ 0 ≤ fillNotional e ∧
      (fillQuanta e = 0 → fillNotional e = 0) := by
  by_cases hfill : e.eventType = .fill
  · obtain ⟨quantity, price, hof, hq, hp⟩ := h e he hfill
    rw [QuantizedDecimal.lt_def, QuantizedDecimal.quanta_zero] at hq
    rw [QuantizedDecimal.le_def, QuantizedDecimal.quanta_zero] at hp
    have hquanta : fillQuanta e = quantity.quanta := by simp [fillQuanta, hfill, hof]
    have hnotional : fillNotional e = notional price quantity := by
      simp [fillNotional, hfill, hof]
    rw [hquanta, hnotional]
    exact ⟨hq.le, notional_nonneg hp hq.le, fun h0 => absurd h0 hq.ne'⟩
  · have hnotional : fillNotional e = 0 := by
      cases htype : e.eventType with
      | fill => exact absurd htype hfill
      | _ => simp [fillNotional, htype]
    rw [fillQuanta_of_ne hfill, hnotional]
    exact ⟨le_rfl, le_rfl, fun _ => rfl⟩

theorem ValidFills.sum_nonneg {events : List OrderEvent} (h : ValidFills events) :
    0 ≤ (events.map fillQuanta).sum ∧ 0 ≤ (events.map fillNotional).sum := by
  constructor
  · refine List.sum_nonneg fun x hx => ?_
    obtain ⟨e, he, rfl⟩ := List.mem_map.mp hx
    exact (h.nonneg he).1
  · refine List.sum_nonneg fun x hx => ?_
    obtain ⟨e, he, rfl⟩ := List.mem_map.mp hx
    exact (h.nonneg he).2.1

theorem foldStep_of_fits {events : List OrderEvent} (h : ValidFills events) {e : OrderEvent}
    (he : e ∈ events) (quantityRequested : Units) {acc : Folded}
    (hq0 : 0 ≤ acc.filledQuantity.quanta) (hn0 : 0 ≤ acc.totalNotional.quanta)
    (hq : acc.filledQuantity.quanta + fillQuanta e < 10 ^ 28)
    (hn : acc.totalNotional.quanta + fillNotional e < 10 ^ 18) :
    ∃ acc', foldStep quantityRequested acc e = .ok acc' := by
  obtain ⟨hqe, hne, -⟩ := h.nonneg he
  cases htype : e.eventType with
  | fill =>
    obtain ⟨quantity, price, hof, hqpos, -⟩ := h e he htype
    have hquanta : fillQuanta e = quantity.quanta := by simp [fillQuanta, htype, hof]
    have hnotional : fillNotional e = notional price quantity := by
      simp [fillNotional, htype, hof]
    rw [hquanta] at hq hqe
    rw [hnotional] at hn hne
    have hadd : acc.filledQuantity.add quantity =
        .ok ⟨acc.filledQuantity.quanta + quantity.quanta, by rw [abs_of_nonneg (by omega)]; omega⟩ :=
      Units.add_ok.mpr rfl
    have htimes : Price.times price quantity =
        .ok ⟨notional price quantity, by rw [abs_of_nonneg hne]; omega⟩ := Price.times_ok.mpr rfl
    have htotal : acc.totalNotional.add ⟨notional price quantity, by rw [abs_of_nonneg hne]; omega⟩ =
        .ok ⟨acc.totalNotional.quanta + notional price quantity, by
          rw [abs_of_nonneg (by omega)]; omega⟩ := Money.add_ok.mpr rfl
    simp only [foldStep, htype, except_bind_ok]
    exact ⟨_, _, hof, _, hadd, _, htimes, _, htotal, rfl⟩
  | _ => simp [foldStep, htype]

theorem foldEvents_of_fits (quantityRequested : Units) : ∀ {events : List OrderEvent}
    (acc : Folded), ValidFills events → 0 ≤ acc.filledQuantity.quanta →
      0 ≤ acc.totalNotional.quanta →
      acc.filledQuantity.quanta + (events.map fillQuanta).sum < 10 ^ 28 →
      acc.totalNotional.quanta + (events.map fillNotional).sum < 10 ^ 18 →
      ∃ acc', foldEvents quantityRequested events acc = .ok acc'
  | [], acc, _, _, _, _, _ => ⟨acc, rfl⟩
  | e :: events, acc, h, hq0, hn0, hq, hn => by
    have hlater : ValidFills events := h.sublist fun x hx => List.mem_cons_of_mem _ hx
    obtain ⟨hqe, hne, -⟩ := h.nonneg (e := e) (by simp)
    obtain ⟨hqs, hns⟩ := hlater.sum_nonneg
    simp only [List.map_cons, List.sum_cons] at hq hn
    obtain ⟨acc1, hstep⟩ := foldStep_of_fits h (e := e) (by simp) quantityRequested hq0 hn0
      (by omega) (by omega)
    obtain ⟨hq1, hn1, -⟩ := foldStep_ok hstep
    obtain ⟨acc', hrest⟩ := foldEvents_of_fits quantityRequested acc1 hlater (by omega) (by omega)
      (by omega) (by omega)
    exact ⟨acc', by rw [foldEvents, except_bind_ok]; exact ⟨acc1, hstep, hrest⟩⟩

/-- An average that is at most one that fits does fit. -/
theorem averageFillPrice_of_le {acc single : Folded} {average : Option Price}
    (hn : 0 ≤ acc.totalNotional.quanta) (hq : 0 < acc.filledQuantity)
    (hq1 : 0 < single.filledQuantity)
    (hle : acc.totalNotional.quanta * single.filledQuantity.quanta ≤
      single.totalNotional.quanta * acc.filledQuantity.quanta)
    (h : averageFillPrice single = .ok average) : ∃ average', averageFillPrice acc = .ok average' := by
  rw [averageFillPrice, if_pos hq1, except_map_ok] at h
  obtain ⟨price, hprice, -⟩ := h
  obtain ⟨-, hquanta⟩ := Money.perUnit_ok.mp hprice
  rw [QuantizedDecimal.lt_def, QuantizedDecimal.quanta_zero] at hq hq1
  have hq' : (0 : ℚ) < acc.filledQuantity.quanta := by exact_mod_cast hq
  have hq1' : (0 : ℚ) < single.filledQuantity.quanta := by exact_mod_cast hq1
  have hn' : (0 : ℚ) ≤ acc.totalNotional.quanta := by exact_mod_cast hn
  have hle' : (acc.totalNotional.quanta : ℚ) * single.filledQuantity.quanta ≤
      single.totalNotional.quanta * acc.filledQuantity.quanta := by exact_mod_cast hle
  have hvalue : ∀ acc : Folded, acc.totalNotional.value / acc.filledQuantity.value * 10 ^ 6 =
      acc.totalNotional.quanta / acc.filledQuantity.quanta * 10 ^ 8 := by
    intro acc
    unfold QuantizedDecimal.value
    by_cases h0 : (acc.filledQuantity.quanta : ℚ) = 0
    · simp [h0]
    · field_simp
  set n := Rounding.roundHalfEven (acc.totalNotional.value / acc.filledQuantity.value * 10 ^ 6)
    with hdef
  have hnonneg : 0 ≤ n := by
    rw [hdef, hvalue]
    exact Rounding.roundHalfEven_nonneg (by positivity)
  have hbound : n ≤ price.quanta := by
    rw [hquanta, hdef, hvalue, hvalue]
    refine Rounding.roundHalfEven_mono ?_
    have := (div_le_div_iff₀ hq' hq1').mpr hle'
    linarith
  have hfit := price.fits
  have hfits : |n| < 10 ^ 18 := by
    rw [abs_of_nonneg hnonneg]
    exact lt_of_le_of_lt (hbound.trans (le_abs_self _)) hfit
  have hok : Money.perUnit acc.totalNotional acc.filledQuantity = .ok ⟨n, hfits⟩ :=
    Money.perUnit_ok.mpr ⟨hq.ne', rfl⟩
  refine ⟨some ⟨n, hfits⟩, ?_⟩
  rw [averageFillPrice, if_pos (by rw [QuantizedDecimal.lt_def]; exact hq), hok]
  rfl

theorem fold_isOk_iff {events : List OrderEvent} {quantityRequested : Units} :
    (fold events quantityRequested).isOk ↔ ∃ acc average,
      foldEvents quantityRequested (sortBySeq events) .start = .ok acc ∧
        averageFillPrice acc = .ok average := by
  unfold fold
  cases foldEvents quantityRequested (sortBySeq events) .start with
  | error err => simp [Except.isOk, Except.toBool, Except.bind, bind]
  | ok acc =>
    cases haverage : averageFillPrice acc with
    | error err => simp [Except.isOk, Except.toBool, Except.bind, bind, haverage]
    | ok average => simp [Except.isOk, Except.toBool, Except.bind, bind, haverage, pure, Except.pure]

theorem foldEvents_totals {events : List OrderEvent} {quantityRequested : Units} {acc : Folded}
    (h : foldEvents quantityRequested (sortBySeq events) .start = .ok acc) :
    acc.filledQuantity.quanta = (events.map fillQuanta).sum ∧
      acc.totalNotional.quanta = (events.map fillNotional).sum := by
  obtain ⟨hq, hn⟩ := foldEvents_ok h
  rw [((sortBySeq_perm events).map fillQuanta).sum_eq] at hq
  rw [((sortBySeq_perm events).map fillNotional).sum_eq] at hn
  exact ⟨by simpa [Folded.start] using hq, by simpa [Folded.start] using hn⟩

/-- **A part of a set folds** when the whole set does and each of its events does alone. -/
theorem fold_part {events seen rest : List OrderEvent} {quantityRequested : Units}
    (hvalid : ValidFills events) (hperm : (seen ++ rest).Perm events)
    (hwhole : (fold events quantityRequested).isOk)
    (heach : ∀ e ∈ events, (fold [e] quantityRequested).isOk) :
    (fold seen quantityRequested).isOk := by
  have hsub : seen ⊆ events := fun e he => hperm.mem_iff.mp (List.mem_append_left _ he)
  have hsub' : rest ⊆ events := fun e he => hperm.mem_iff.mp (List.mem_append_right _ he)
  obtain ⟨hqs, hns⟩ := (hvalid.sublist hsub).sum_nonneg
  obtain ⟨hqr, hnr⟩ := (hvalid.sublist hsub').sum_nonneg
  obtain ⟨whole, -, hwholeacc, -⟩ := fold_isOk_iff.mp hwhole
  obtain ⟨hqw, hnw⟩ := foldEvents_totals hwholeacc
  have hqsplit := (hperm.map fillQuanta).sum_eq
  have hnsplit := (hperm.map fillNotional).sum_eq
  rw [List.map_append, List.sum_append] at hqsplit hnsplit
  have hqfit := (abs_lt.mp whole.filledQuantity.fits).2
  have hnfit := (abs_lt.mp whole.totalNotional.fits).2
  have hsorted := sortBySeq_perm seen
  have hvalidseen : ValidFills (sortBySeq seen) :=
    hvalid.sublist fun e he => hsub (hsorted.mem_iff.mp he)
  obtain ⟨acc, hacc⟩ := foldEvents_of_fits quantityRequested .start hvalidseen le_rfl le_rfl
    (by rw [(hsorted.map fillQuanta).sum_eq]; simp [Folded.start]; omega)
    (by rw [(hsorted.map fillNotional).sum_eq]; simp [Folded.start]; omega)
  obtain ⟨hq, hn⟩ := foldEvents_totals hacc
  refine fold_isOk_iff.mpr ?_
  by_cases hfilled : 0 < acc.filledQuantity
  · -- some fill of the part has a price at least as large as the average
    have hpos : 0 < (seen.map fillQuanta).sum := by
      rw [QuantizedDecimal.lt_def, QuantizedDecimal.quanta_zero] at hfilled
      omega
    obtain ⟨e, he, hqe, hle⟩ := exists_ratio_ge (f := fillNotional) (g := fillQuanta)
      (fun e he => ⟨(hvalid.nonneg (hsub he)).1, (hvalid.nonneg (hsub he)).2.2⟩) hpos
    obtain ⟨single, average, hsingle, haverage⟩ := fold_isOk_iff.mp (heach e (hsub he))
    obtain ⟨hq1, hn1⟩ := foldEvents_totals hsingle
    simp only [List.map_cons, List.map_nil, List.sum_cons, List.sum_nil, add_zero] at hq1 hn1
    obtain ⟨average', haverage'⟩ := averageFillPrice_of_le (by omega) hfilled
      (by rw [QuantizedDecimal.lt_def, hq1]; exact hqe) (by rw [hq, hn, hq1, hn1]; exact hle) haverage
    exact ⟨acc, average', hacc, haverage'⟩
  · exact ⟨acc, none, hacc, by rw [averageFillPrice, if_neg hfilled]⟩

/-! ### Convergence -/

/-- What a sequence of arrivals that all go through leaves on the order. -/
theorem arrivals_fold {start : Database} {order : Order} {events : List OrderEvent}
    (hawaits : Awaits start order events) (hne : events ≠ []) {arrivals : List (Env × OrderEvent)}
    (hperm : (arrivals.map Prod.snd).Perm events) (hall : AllArrive order.id arrivals start) :
    ∃ state, fold events order.quantityRequested = .ok state ∧
      (runs (arrive order.id) arrivals start).orders.find order.id =
        some (projected order state) := by
  have hawaits' : Awaits start order ([] ++ arrivals.map Prod.snd) := hawaits.perm hperm
  rcases ((Arrived.run hawaits' (.start hawaits)).2 hall).carried with ⟨hempty, -⟩ | h
  · rw [List.nil_append] at hempty
    rw [hempty] at hperm
    exact absurd hperm.nil_eq.symm hne
  · obtain ⟨state, hfold, hfind⟩ := h
    exact ⟨state, by rw [fold_perm hperm.symm hawaits.seqs]; exact hfold, hfind⟩

/-- Every order of arrival goes through exactly when the set folds and each event does alone. -/
theorem allArrive_iff {start : Database} {order : Order} {events : List OrderEvent}
    (hawaits : Awaits start order events) (hvalid : ValidFills events) (hne : events ≠ []) :
    (∀ arrivals : List (Env × OrderEvent), (arrivals.map Prod.snd).Perm events →
        AllArrive order.id arrivals start) ↔
      (fold events order.quantityRequested).isOk ∧
        ∀ e ∈ events, (fold [e] order.quantityRequested).isOk := by
  have hrun : ∀ arrivals : List (Env × OrderEvent), (arrivals.map Prod.snd).Perm events →
      (AllArrive order.id arrivals start ↔ AllFold order [] (arrivals.map Prod.snd)) := by
    intro arrivals hperm
    have hawaits' : Awaits start order ([] ++ arrivals.map Prod.snd) := hawaits.perm hperm
    exact (Arrived.run hawaits' (.start hawaits)).1
  constructor
  · intro h
    -- the events of `xs` arrive, one after the other
    have hfolds : ∀ xs : List OrderEvent, xs.Perm events → AllFold order [] xs := by
      intro xs hperm
      have hsnd : (xs.map fun e => (envAt 0 0, e)).map Prod.snd = xs := by simp
      have := (hrun (xs.map fun e => (envAt 0 0, e)) (hsnd.symm ▸ hperm)).mp
        (h _ (hsnd.symm ▸ hperm))
      rwa [hsnd] at this
    refine ⟨hfolds events (.refl _) events hne (List.prefix_refl _), fun e he => ?_⟩
    obtain ⟨before, after, rfl⟩ := List.append_of_mem he
    exact hfolds (e :: (before ++ after)) List.perm_middle.symm [e] (by simp) (by simp)
  · rintro ⟨hwhole, heach⟩ arrivals hperm
    rw [hrun arrivals hperm]
    rintro arrived - ⟨rest, hrest⟩
    rw [List.nil_append]
    exact fold_part hvalid (hrest ▸ hperm) hwhole heach

/-- **The projection converges.** Any two orders of arrival in which no arrival raises leave the
same order, with the fold of the set; and none raises in any order exactly when the set and each of
its events fold. -/
theorem projection_converges {start : Database} {order : Order} {events : List OrderEvent}
    (hawaits : Awaits start order events) (hvalid : ValidFills events) (hne : events ≠ []) :
    (∀ arrivals arrivals' : List (Env × OrderEvent), (arrivals.map Prod.snd).Perm events →
      (arrivals'.map Prod.snd).Perm events → AllArrive order.id arrivals start →
      AllArrive order.id arrivals' start → ∃ state,
        fold events order.quantityRequested = .ok state ∧
        state.filledQuantity.quanta = (events.map fillQuanta).sum ∧
        (runs (arrive order.id) arrivals start).orders.find order.id =
          some (projected order state) ∧
        (runs (arrive order.id) arrivals' start).orders.find order.id =
          some (projected order state)) ∧
    ((∀ arrivals : List (Env × OrderEvent), (arrivals.map Prod.snd).Perm events →
        AllArrive order.id arrivals start) ↔
      (fold events order.quantityRequested).isOk ∧
        ∀ e ∈ events, (fold [e] order.quantityRequested).isOk) := by
  refine ⟨fun arrivals arrivals' hperm hperm' hall hall' => ?_, allArrive_iff hawaits hvalid hne⟩
  obtain ⟨state, hfold, hfind⟩ := arrivals_fold hawaits hne hperm hall
  obtain ⟨state', hfold', hfind'⟩ := arrivals_fold hawaits hne hperm' hall'
  obtain rfl : state = state' := Except.ok.inj (hfold.symm.trans hfold')
  exact ⟨state, hfold, fold_filledQuantity hfold, hfind, hfind'⟩

/-! ### Two fills of an order for ten shares -/

/-- An approved order for ten shares. -/
def orderForTen : Order := ⟨1, 1, 1, .buy, shares 10, .approved, 0, none, none, .trueup 1⟩

/-- A customer whose only order is approved. -/
def approvedOnly : Database := { openedAccount 1 with orders := ⟨[orderForTen], by simp⟩ }

/-- A fill of the order. -/
def fillEvent (seq : ℤ) (executionId : ExecutionId) (quantity price : ℚ) : OrderEvent :=
  ⟨1, seq, .fill, some executionId, .fill (some quantity) (some price), ⟨seq, true⟩⟩

/-- A millionth of a share at the largest price there is: its notional rounds up to a million. -/
def dearestFill : OrderEvent := fillEvent 1 "exec-1" (1 / 10 ^ 6) ((10 ^ 18 - 1) / 10 ^ 6)

/-- A share for a dollar. -/
def plainFill : OrderEvent := fillEvent 2 "exec-2" 1 1

/-- Another share for two dollars. -/
def laterFill : OrderEvent := fillEvent 3 "exec-3" 1 2

theorem awaits_fills :
    Awaits approvedOnly orderForTen [dearestFill, plainFill, laterFill] where
  found := by decide
  unseen := by decide
  own := by decide
  seqs := by decide
  ids := by decide
  newIds := by decide

theorem validFills_fills : ValidFills [dearestFill, plainFill, laterFill] := by
  intro e he _
  simp only [List.mem_cons, List.not_mem_nil, or_false] at he
  rcases he with rfl | rfl | rfl
  · exact ⟨microshare, ⟨10 ^ 18 - 1, by decide⟩, by decide +kernel, by decide, by decide⟩
  · exact ⟨shares 1, dollarsPerShare 1, by decide +kernel, by decide, by decide⟩
  · exact ⟨shares 1, dollarsPerShare 2, by decide +kernel, by decide, by decide⟩

theorem projection_converges_two :
    ∃ state, fold [plainFill, laterFill] (shares 10) = .ok state ∧
      state.filledQuantity = shares 2 ∧
      (runs (arrive 1) [(envAt 0 0, laterFill), (envAt 1 0, plainFill)] approvedOnly).orders.find 1 =
        some (projected orderForTen state) := by
  have hperm : ([plainFill, laterFill] ++ [dearestFill]).Perm [dearestFill, plainFill, laterFill] :=
    List.perm_append_comm
  have hawaits : Awaits approvedOnly orderForTen [plainFill, laterFill] :=
    (awaits_fills.perm hperm).left
  have hvalid : ValidFills [plainFill, laterFill] := validFills_fills.sublist (by simp)
  obtain ⟨hconverges, hiff⟩ := projection_converges hawaits hvalid (by simp)
  have hall := hiff.mpr ⟨by decide +kernel, by decide +kernel⟩
  obtain ⟨state, hfold, hfilled, hfind, -⟩ := hconverges
    [(envAt 0 0, laterFill), (envAt 1 0, plainFill)] [(envAt 0 0, plainFill), (envAt 1 0, laterFill)]
    (.swap _ _ _) (.refl _) (hall _ (.swap _ _ _)) (hall _ (.refl _))
  exact ⟨state, hfold, QuantizedDecimal.ext (hfilled.trans (by decide +kernel)), hfind⟩

/-- **The order of arrival can matter**: the dearest fill alone has an average price that no column
holds, and so is lost when it comes first. -/
theorem arrivals_diverge : ¬ ∀ (start : Database) (order : Order) (events : List OrderEvent)
    (arrivals arrivals' : List (Env × OrderEvent)), Awaits start order events →
      ValidFills events → events ≠ [] → (arrivals.map Prod.snd).Perm events →
      (arrivals'.map Prod.snd).Perm events → ∃ state,
        fold events order.quantityRequested = .ok state ∧
        (runs (arrive order.id) arrivals start).orders.find order.id =
          some (projected order state) ∧
        (runs (arrive order.id) arrivals' start).orders.find order.id =
          some (projected order state) := by
  intro h
  have hawaits : Awaits approvedOnly orderForTen ([dearestFill, plainFill] ++ [laterFill]) :=
    awaits_fills
  obtain ⟨state, -, hfirst, hsecond⟩ := h approvedOnly orderForTen [dearestFill, plainFill]
    [(envAt 0 0, dearestFill), (envAt 1 0, plainFill)]
    [(envAt 0 0, plainFill), (envAt 1 0, dearestFill)]
    hawaits.left (validFills_fills.sublist (by simp)) (by simp) (.refl _) (.swap _ _ _)
  have hdiffer : (runs (arrive 1) [(envAt 0 0, dearestFill), (envAt 1 0, plainFill)]
        approvedOnly).orders.find 1 ≠
      (runs (arrive 1) [(envAt 0 0, plainFill), (envAt 1 0, dearestFill)]
        approvedOnly).orders.find 1 := by
    decide +kernel
  exact hdiffer (hfirst.trans hsecond.symm)

end Trueup.Orders
