import Trueup.Orders.OrderProjection

/-! # The status of a folded order

The fold is last-writer-wins: the status is decided by the event with the greatest `seq`
(`status_of_last`). A fill leaves the status its quantities call for (`fillStatus`), a submission or
an acceptance overwrites it. The status therefore follows the fills exactly when no submission or
acceptance comes after them in `seq` order (`status_follows_fills_iff`). -/

namespace Trueup.Orders

open Trueup.Core Trueup.Models Trueup.Lib Trueup.Lib.Transaction

theorem foldEvents_append {quantityRequested : Units} : ∀ {xs ys : List OrderEvent}
    {acc acc' : Folded}, foldEvents quantityRequested (xs ++ ys) acc = .ok acc' ↔
      ∃ mid, foldEvents quantityRequested xs acc = .ok mid ∧
        foldEvents quantityRequested ys mid = .ok acc'
  | [], ys, acc, acc' => by simp [foldEvents]
  | x :: xs, ys, acc, acc' => by
    simp only [List.cons_append, foldEvents, except_bind_ok, foldEvents_append]
    constructor
    · rintro ⟨a, ha, mid, hm, h⟩; exact ⟨mid, ⟨a, ha, hm⟩, h⟩
    · rintro ⟨mid, ⟨a, ha, hm⟩, h⟩; exact ⟨a, ha, mid, hm, h⟩

/-- The status an event leaves, given the quantity filled by then. -/
def statusAfter (event : OrderEvent) (filledQuantity quantityRequested : Units) : OrderStatus :=
  match event.eventType with
  | .submitted => .submitted
  | .accepted => .accepted
  | .fill => fillStatus filledQuantity quantityRequested
  | .rejected => .rejected
  | .canceled => .canceled
  | .expired => .expired

theorem foldStep_status {quantityRequested : Units} {acc acc' : Folded} {event : OrderEvent}
    (h : foldStep quantityRequested acc event = .ok acc') :
    acc'.status = statusAfter event acc'.filledQuantity quantityRequested := by
  cases htype : event.eventType with
  | fill => rw [(foldStep_ok h).2.2 htype, statusAfter, htype]
  | _ =>
    simp only [foldStep, htype, Except.ok.injEq] at h
    subst h
    simp only [statusAfter, htype]

/-- The folded status is the one the last event in `seq` order leaves. -/
theorem status_of_getLast {events : List OrderEvent} {quantityRequested : Units}
    {state : OrderProjectionState} (h : fold events quantityRequested = .ok state)
    (hne : sortBySeq events ≠ []) : state.status =
      statusAfter ((sortBySeq events).getLast hne) state.filledQuantity quantityRequested := by
  obtain ⟨acc, hacc, hstatus, hfilled⟩ := fold_ok h
  rw [← List.dropLast_append_getLast hne, foldEvents_append] at hacc
  obtain ⟨mid, -, hlaststep⟩ := hacc
  simp only [foldEvents, except_bind_ok] at hlaststep
  obtain ⟨acc1, hstep, hok⟩ := hlaststep
  cases hok
  rw [hstatus, hfilled]
  exact foldStep_status hstep

/-- **The last writer wins**: the folded status is the one the event of the greatest `seq`
leaves. -/
theorem status_of_last {events : List OrderEvent} {quantityRequested : Units}
    {state : OrderProjectionState} (h : fold events quantityRequested = .ok state)
    {last : OrderEvent} (hmem : last ∈ events) (hlast : ∀ e ∈ events, e.seq ≤ last.seq)
    (hseq : (events.map (·.seq)).Nodup) :
    state.status = statusAfter last state.filledQuantity quantityRequested := by
  have hperm := sortBySeq_perm events
  have hne : sortBySeq events ≠ [] := List.ne_nil_of_mem (hperm.mem_iff.mpr hmem)
  -- the sorted list ends with the event of the greatest `seq`
  have hlast_eq : (sortBySeq events).getLast hne = last := by
    have hm := List.getLast_mem hne
    have hle : last.seq ≤ ((sortBySeq events).getLast hne).seq := by
      have hsorted : (sortBySeq events).Pairwise fun a b => a.seq ≤ b.seq :=
        List.pairwise_insertionSort _ _
      exact hsorted.rel_getLast (hperm.mem_iff.mpr hmem)
    have hm' := hperm.mem_iff.mp hm
    exact List.inj_on_of_nodup_map hseq hm' hmem (le_antisymm (hlast _ hm') hle)
  rw [status_of_getLast h hne, hlast_eq]

theorem nodup_seq (events : Table OrderEvent.key) (orderId : Uuid) :
    ((sortBySeq (events.rows.filter (·.orderId = orderId))).map (·.seq)).Nodup := by
  refine ((sortBySeq_perm _).map _).nodup_iff.mpr ?_
  have hkeys : ((events.rows.filter (·.orderId = orderId)).map OrderEvent.key).Nodup :=
    events.nodup.sublist (List.filter_sublist.map _)
  refine List.Nodup.of_map (fun seq => (orderId, seq)) ?_
  rw [List.map_map]
  convert hkeys using 1
  refine List.map_congr_left fun e he => ?_
  have hid : e.orderId = orderId := by simpa using (List.mem_filter.mp he).2
  rw [← hid]
  rfl

theorem mem_arrived {events : Table OrderEvent.key} {orderId : Uuid} {e : OrderEvent} :
    e ∈ sortBySeq (events.rows.filter (·.orderId = orderId)) ↔ e ∈ events ∧ e.orderId = orderId := by
  rw [(sortBySeq_perm _).mem_iff, List.mem_filter, decide_eq_true_eq, Table.mem_iff]

theorem applyNewEvent_newest {env : Env} {order : Order} {event : OrderEvent} {db db' : Database}
    {state : OrderProjectionState} (hid : event.orderId = order.id)
    (hlater : ∀ e ∈ db.orderEvents, e.orderId = order.id → e.seq < event.seq)
    (h : (applyNewEvent env order event).run db = .ok (state, db')) :
    state.status = statusAfter event state.filledQuantity order.quantityRequested := by
  obtain ⟨events, holds, hevents, -, hfold, -, -⟩ := applyNewEvent_ok h
  have hevent : event ∈ events := (Table.mem_insert hevents).mpr (Or.inr rfl)
  refine status_of_last hfold (mem_arrived.mpr ⟨hevent, hid⟩) (fun e he => ?_) (nodup_seq _ _)
  obtain ⟨he, heid⟩ := mem_arrived.mp he
  rcases (Table.mem_insert hevents).mp he with he | rfl
  · exact (hlater e he heid).le
  · exact le_rfl

theorem applyNewEvent_unfilled {env : Env} {order : Order} {event : OrderEvent} {db db' : Database}
    {state : OrderProjectionState}
    (hbefore : ∀ e ∈ db.orderEvents, e.orderId = order.id → e.eventType ≠ .fill)
    (hfill : event.eventType ≠ .fill)
    (h : (applyNewEvent env order event).run db = .ok (state, db')) :
    state.filledQuantity.quanta = 0 ∧ state.averageFillPrice = none := by
  obtain ⟨events, holds, hevents, -, hfold, -, -⟩ := applyNewEvent_ok h
  have hfilled : state.filledQuantity.quanta = 0 := by
    rw [fold_filledQuantity hfold]
    refine List.sum_eq_zero fun x hx => ?_
    obtain ⟨e, he, rfl⟩ := List.mem_map.mp hx
    obtain ⟨he, heid⟩ := mem_arrived.mp he
    refine fillQuanta_of_ne ?_
    rcases (Table.mem_insert hevents).mp he with he | rfl
    · exact hbefore e he heid
    · exact hfill
  exact ⟨hfilled, averageFillPrice_of_unfilled hfold hfilled⟩

theorem statusAfter_not_waiting (event : OrderEvent) (filledQuantity quantityRequested : Units) :
    statusAfter event filledQuantity quantityRequested ≠ .awaitingApproval ∧
      statusAfter event filledQuantity quantityRequested ≠ .approved := by
  unfold statusAfter fillStatus
  split
  case h_3 => split_ifs <;> simp
  all_goals simp

/-- The events of an order at work: fills of positive quantities, submissions and acceptances, no
two with the same `seq`. -/
structure Working (events : List OrderEvent) (quantityRequested : Units) : Prop where
  requested_pos : 0 < quantityRequested.quanta
  distinct : (events.map (·.seq)).Nodup
  kinds : ∀ e ∈ events, e.eventType = .submitted ∨ e.eventType = .accepted ∨ e.eventType = .fill
  fills_pos : ∀ e ∈ events, e.eventType = .fill → 0 < fillQuanta e

/-- The status says of the fills what it should: `filled` exactly when they cover the request,
`partiallyFilled` exactly when some but not all of it is filled. -/
def FollowsFills (status : OrderStatus) (events : List OrderEvent)
    (quantityRequested : Units) : Prop :=
  (status = .filled ↔ quantityRequested.quanta ≤ (events.map fillQuanta).sum) ∧
    (status = .partiallyFilled ↔ 0 < (events.map fillQuanta).sum ∧
      (events.map fillQuanta).sum < quantityRequested.quanta)

/-- There is no fill, or no other event comes after all the fills. -/
def EndsWithFill (events : List OrderEvent) : Prop :=
  (∀ e ∈ events, e.eventType ≠ .fill) ∨
    ∃ e ∈ events, e.eventType = .fill ∧ ∀ e' ∈ events, e'.seq ≤ e.seq

theorem exists_max_seq : ∀ {events : List OrderEvent}, events ≠ [] →
    ∃ e ∈ events, ∀ e' ∈ events, e'.seq ≤ e.seq
  | [e], _ => ⟨e, by simp, by simp⟩
  | e :: e' :: events, _ => by
    obtain ⟨m, hm, hmax⟩ := exists_max_seq (List.cons_ne_nil e' events)
    rcases le_total e.seq m.seq with hle | hle
    · refine ⟨m, List.mem_cons_of_mem _ hm, fun x hx => ?_⟩
      rcases List.mem_cons.mp hx with rfl | hx
      · exact hle
      · exact hmax x hx
    · refine ⟨e, by simp, fun x hx => ?_⟩
      rcases List.mem_cons.mp hx with rfl | hx
      · exact le_rfl
      · exact (hmax x hx).trans hle

section Working
variable {events : List OrderEvent} {quantityRequested : Units} {state : OrderProjectionState}
  (hw : Working events quantityRequested)
include hw

theorem fillQuanta_nonneg {e : OrderEvent} (he : e ∈ events) : 0 ≤ fillQuanta e := by
  by_cases hfill : e.eventType = .fill
  · exact (hw.fills_pos e he hfill).le
  · rw [fillQuanta_of_ne hfill]

theorem sum_fills_pos {e : OrderEvent} (he : e ∈ events) (hfill : e.eventType = .fill) :
    0 < (events.map fillQuanta).sum := by
  refine lt_of_lt_of_le (hw.fills_pos e he hfill) (List.single_le_sum ?_ _ ?_)
  · intro x hx
    obtain ⟨e', he', rfl⟩ := List.mem_map.mp hx
    exact fillQuanta_nonneg hw he'
  · exact List.mem_map_of_mem he

/-- Without a fill the status is neither of the two. -/
theorem followsFills_of_no_fill (h : fold events quantityRequested = .ok state)
    (hno : ∀ e ∈ events, e.eventType ≠ .fill) :
    FollowsFills state.status events quantityRequested := by
  have hsum : (events.map fillQuanta).sum = 0 := by
    refine List.sum_eq_zero fun x hx => ?_
    obtain ⟨e, he, rfl⟩ := List.mem_map.mp hx
    exact fillQuanta_of_ne (hno e he)
  have hstatus : state.status ≠ .filled ∧ state.status ≠ .partiallyFilled := by
    by_cases hnil : events = []
    · subst hnil
      obtain ⟨acc, hacc, hs, -⟩ := fold_ok h
      cases hacc
      rw [hs]
      exact ⟨by decide, by decide⟩
    · obtain ⟨e, he, hmax⟩ := exists_max_seq hnil
      rw [status_of_last h he hmax hw.distinct, statusAfter]
      rcases hw.kinds e he with htype | htype | htype
      · simp [htype]
      · simp [htype]
      · exact absurd htype (hno e he)
  have hpos := hw.requested_pos
  unfold FollowsFills
  rw [hsum]
  exact ⟨⟨fun hs => absurd hs hstatus.1, fun hle => by omega⟩,
    ⟨fun hs => absurd hs hstatus.2, fun hlt => by omega⟩⟩

/-- After a fill the status is the one the quantities call for. -/
theorem followsFills_of_last_fill (h : fold events quantityRequested = .ok state)
    {e : OrderEvent} (he : e ∈ events) (hfill : e.eventType = .fill)
    (hmax : ∀ e' ∈ events, e'.seq ≤ e.seq) :
    FollowsFills state.status events quantityRequested := by
  have hsum := sum_fills_pos hw he hfill
  have hfilled := fold_filledQuantity h
  unfold FollowsFills
  rw [status_of_last h he hmax hw.distinct, statusAfter, hfill]
  simp only [fillStatus, QuantizedDecimal.le_def, hfilled]
  split_ifs with hle
  · simp [hle]
  · have hlt := not_le.mp hle
    simp [hle, hsum, hlt]

/-- A submission or an acceptance after a fill hides the fills. -/
theorem not_followsFills_of_last_other (h : fold events quantityRequested = .ok state)
    {e e' : OrderEvent} (he : e ∈ events) (hfill : e.eventType = .fill) (he' : e' ∈ events)
    (hother : e'.eventType ≠ .fill) (hmax : ∀ x ∈ events, x.seq ≤ e'.seq) :
    ¬ FollowsFills state.status events quantityRequested := by
  have hsum := sum_fills_pos hw he hfill
  have hstatus : state.status ≠ .filled ∧ state.status ≠ .partiallyFilled := by
    rw [status_of_last h he' hmax hw.distinct, statusAfter]
    rcases hw.kinds e' he' with htype | htype | htype
    · simp [htype]
    · simp [htype]
    · exact absurd htype hother
  rintro ⟨h1, h2⟩
  by_cases hle : quantityRequested.quanta ≤ (events.map fillQuanta).sum
  · exact hstatus.1 (h1.mpr hle)
  · exact hstatus.2 (h2.mpr ⟨hsum, by omega⟩)

end Working

/-- **The status follows the fills if and only if** there is no fill or the event of the greatest
`seq` is one. -/
theorem status_follows_fills_iff {events : List OrderEvent} {quantityRequested : Units}
    {state : OrderProjectionState} (hw : Working events quantityRequested)
    (h : fold events quantityRequested = .ok state) :
    FollowsFills state.status events quantityRequested ↔ EndsWithFill events := by
  constructor
  · intro hfollows
    by_contra hnot
    simp only [EndsWithFill, not_or, not_forall, not_not, exists_prop] at hnot
    obtain ⟨⟨e, he, hfill⟩, hnofill⟩ := hnot
    obtain ⟨m, hm, hmax⟩ := exists_max_seq (List.ne_nil_of_mem he)
    have hother : m.eventType ≠ .fill := fun hf => hnofill ⟨m, hm, hf, hmax⟩
    exact not_followsFills_of_last_other hw h he hfill hm hother hmax hfollows
  · rintro (hno | ⟨e, he, hfill, hmax⟩)
    · exact followsFills_of_no_fill hw h hno
    · exact followsFills_of_last_fill hw h he hfill hmax

/-- Ten units, requested and filled at once. -/
def tenUnits : Units := ⟨10000000, by decide⟩

/-- A fill of ten units at 100, at the given `seq`. -/
def fillOfTen (seq : ℤ) : OrderEvent :=
  ⟨1, seq, .fill, some "exec-1", .fill (some 10) (some 100), ⟨seq, true⟩⟩

/-- A submission, at the given `seq`. -/
def submission (seq : ℤ) : OrderEvent :=
  ⟨1, seq, .submitted, none, .submission "broker-1", ⟨seq, true⟩⟩

theorem working_submission_fill (s t : ℤ) (h : s ≠ t) :
    Working [submission s, fillOfTen t] tenUnits where
  requested_pos := by decide
  distinct := by simpa [submission, fillOfTen] using h
  kinds := by simp [submission, fillOfTen]
  fills_pos := by
    intro e he hfill
    simp only [List.mem_cons, List.not_mem_nil, or_false] at he
    rcases he with rfl | rfl
    · exact absurd hfill (by simp [submission])
    · have : fillQuanta (fillOfTen t) = fillQuanta (fillOfTen 0) := rfl
      rw [this]
      decide +kernel

/-- The broker's fill is stamped before the submission that our own clock stamps after the call has
returned: the order is filled, and its status stays `submitted`. -/
theorem filled_order_stays_submitted :
    Working [submission 2, fillOfTen 1] tenUnits ∧
      ∃ state, fold [submission 2, fillOfTen 1] tenUnits = .ok state ∧
        state.status = .submitted ∧
        ¬ FollowsFills state.status [submission 2, fillOfTen 1] tenUnits := by
  refine ⟨working_submission_fill 2 1 (by decide),
    ⟨.submitted, tenUnits, some ⟨100000000, by decide⟩⟩, by decide +kernel, rfl, ?_⟩
  rintro ⟨h, -⟩
  exact absurd (h.mpr (by decide +kernel)) (by decide)

/-- In the lifecycle order the status is right. -/
theorem status_follows_fills_lifecycle :
    ∃ state, fold [submission 1, fillOfTen 2] tenUnits = .ok state ∧
      (FollowsFills state.status [submission 1, fillOfTen 2] tenUnits ↔
        EndsWithFill [submission 1, fillOfTen 2]) := by
  refine ⟨⟨.filled, tenUnits, some ⟨100000000, by decide⟩⟩, by decide +kernel, ?_⟩
  exact status_follows_fills_iff (working_submission_fill 1 2 (by decide)) (by decide +kernel)

end Trueup.Orders
