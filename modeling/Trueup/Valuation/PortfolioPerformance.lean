import Trueup.Core.Calendar
import Trueup.Models.OpenedAccount
import Trueup.Valuation.SubPeriods

/-! # The performance chart

`services/valuation/portfolio_performance_service.py` and `list_in_range` of the stored sub-periods:
the latest row of each stored window that touches the range is linked into one return. The windows
of the calls of `compute_twr` that filled the table are all there, whatever their periods were.

`performance_counts_once_iff`: the windows that are linked have at most endpoints in common exactly
when those of any two calls are the same or have at most endpoints in common. -/

namespace Trueup.Valuation

open Trueup.Core Trueup.Models Trueup.Lib Trueup.Lib.Transaction

/-! ### The range -/

inductive PerformanceRange
  | oneMonth | threeMonths | sixMonths | oneYear | all
  deriving DecidableEq

/-- `_RANGE_MONTHS`. -/
def PerformanceRange.months : PerformanceRange → Option ℤ
  | .oneMonth => some 1
  | .threeMonths => some 3
  | .sixMonths => some 6
  | .oneYear => some 12
  | .all => none

/-- `_subtract_months`; `replace` raises for a year before the first. -/
def subtractMonths (onDate : CalendarDate) (months : ℤ) : Except Error CalendarDate :=
  let monthIndex := onDate.month - 1 - months
  let year := onDate.year + monthIndex / 12
  let month := monthIndex % 12 + 1
  if 1 ≤ year then
    .ok {
      year, month
      day := min onDate.day (daysInMonth year month)
      month_mem := by omega
      day_mem := by
        have hday := onDate.day_mem
        have hlength := CalendarDate.le_daysInMonth year month
        omega }
  else .error .valueError

/-- `_range_start`. -/
def rangeStart (range : PerformanceRange) (today : CalendarDate) : Except Error (Option Date) :=
  match range.months with
  | none => .ok none
  | some months => do return some (← subtractMonths today months).date

/-! ### The rows -/

/-- The key of the final `sorted`. -/
def byWindow (a b : SubPeriodReturn) : Prop :=
  a.subPeriodStart < b.subPeriodStart ∨ a.subPeriodStart = b.subPeriodStart ∧
    a.subPeriodEnd ≤ b.subPeriodEnd

instance : DecidableRel byWindow := fun _ _ => inferInstanceAs (Decidable (_ ∨ _))

/-- The conditions of `list_in_range`. -/
def inRange (customerId : Uuid) (startDate : Option Date) (endDate : Date) (asOf : Instant)
    (row : SubPeriodReturn) : Prop :=
  row.customerId = customerId ∧ row.subPeriodStart ≤ endDate ∧ row.recordedAt ≤ asOf ∧
    ∀ start ∈ startDate, start ≤ row.subPeriodEnd

instance (customerId : Uuid) (startDate : Option Date) (endDate : Date) (asOf : Instant) :
    DecidablePred (inRange customerId startDate endDate asOf) :=
  fun _ => inferInstanceAs (Decidable (_ ∧ _))

/-- `list_in_range`. -/
def listInRange (db : Database) (customerId : Uuid) (startDate : Option Date) (endDate : Date)
    (asOf : Instant) : List SubPeriodReturn :=
  let rows := db.subPeriodReturns.rows.filter fun row =>
    inRange customerId startDate endDate asOf row
  ((latestByWindow rows).rows.map Prod.snd).insertionSort byWindow

/-- The rows that `performance` links. -/
def linkedRows (db : Database) (customerId : Uuid) (range : PerformanceRange) (asOf : Instant)
    (today : CalendarDate) : Except Error (List SubPeriodReturn) := do
  let startDate ← rangeStart range today
  return listInRange db customerId startDate today.date asOf

structure PortfolioPerformance where
  customerId : Uuid
  range : PerformanceRange
  periodStart : Option Date
  periodEnd : Date
  cumulativeTwr : ℚ
  isProvisional : Bool
  points : List (Date × Money)

/-- `_to_points`. -/
def toPoints : List SubPeriodReturn → List (Date × Money)
  | [] => []
  | first :: rows => (first.subPeriodStart, first.valueBegin) ::
      (first :: rows).map fun row => (row.subPeriodEnd, row.valueEnd)

/-- `performance`. -/
def performance (db : Database) (customerId : Uuid) (range : PerformanceRange) (asOf : Instant)
    (today : CalendarDate) : Except Error PortfolioPerformance := do
  let subPeriods ← linkedRows db customerId range asOf today
  return {
    customerId, range
    periodStart := subPeriods.head?.map (·.subPeriodStart)
    periodEnd := today.date
    cumulativeTwr := ← link subPeriods
    isProvisional := subPeriods.any (·.isProvisional)
    points := toPoints subPeriods }

/-! ### Overlaps -/

/-- Two windows have at most an endpoint in common. -/
def MeetAtMostAtEnds (v w : Date × Date) : Prop := v.2 ≤ w.1 ∨ w.2 ≤ v.1

instance (v w : Date × Date) : Decidable (MeetAtMostAtEnds v w) :=
  inferInstanceAs (Decidable (_ ∨ _))

instance : Std.Symm MeetAtMostAtEnds := ⟨fun _ _ => Or.symm⟩

/-- No two of the rows have more than an endpoint in common. -/
def CountsOnce (rows : List SubPeriodReturn) : Prop :=
  rows.Pairwise fun a b => MeetAtMostAtEnds (window a) (window b)

instance (rows : List SubPeriodReturn) : Decidable (CountsOnce rows) := by
  unfold CountsOnce
  infer_instance

/-- The rows whose return the day is part of. -/
def rowsCounting (day : Date) (rows : List SubPeriodReturn) : List SubPeriodReturn :=
  rows.filter fun row => row.subPeriodStart < day ∧ day ≤ row.subPeriodEnd

theorem CountsOnce.length_rowsCounting_le {rows : List SubPeriodReturn} (h : CountsOnce rows)
    (day : Date) : (rowsCounting day rows).length ≤ 1 := by
  have hpairwise : (rowsCounting day rows).Pairwise fun _ _ => False := by
    refine (h.sublist List.filter_sublist).imp_of_mem fun {a b} ha hb hmeet => ?_
    have hdayA := of_decide_eq_true (List.mem_filter.mp ha).2
    have hdayB := of_decide_eq_true (List.mem_filter.mp hb).2
    rcases hmeet with hmeet | hmeet
    · exact absurd (hdayA.2.trans hmeet) (not_le.mpr hdayB.1)
    · exact absurd (hdayB.2.trans hmeet) (not_le.mpr hdayA.1)
  match hrows : rowsCounting day rows with
  | [] => exact Nat.zero_le 1
  | [_] => exact le_rfl
  | a :: b :: _ =>
    rw [hrows] at hpairwise
    exact absurd ((List.pairwise_cons.mp hpairwise).1 b List.mem_cons_self) id

/-! ### What is linked -/

section ListInRange
variable {db : Database} {customerId : Uuid} {startDate : Option Date} {endDate : Date} {asOf : Instant}

/-- **The linked rows**: one stored row of each window that touches the range. -/
theorem listInRange_windows :
    ((listInRange db customerId startDate endDate asOf).map window).Nodup ∧
      ∀ w, w ∈ (listInRange db customerId startDate endDate asOf).map window ↔
        ∃ row ∈ db.subPeriodReturns, inRange customerId startDate endDate asOf row ∧ window row = w := by
  set rows := db.subPeriodReturns.rows.filter fun row =>
    inRange customerId startDate endDate asOf row with hrows
  obtain ⟨hhas, hwindow⟩ := latestByWindow_windows rows
  have hperm : ((listInRange db customerId startDate endDate asOf).map window).Perm
      (latestByWindow rows).keys := by
    refine ((List.perm_insertionSort byWindow _).map window).trans (List.Perm.of_eq ?_)
    rw [List.map_map]
    exact List.map_congr_left fun pair hpair => (hwindow pair hpair).2
  refine ⟨hperm.nodup_iff.mpr (Dict.nodup_keys _), fun w => hperm.mem_iff.trans ?_⟩
  rw [Dict.mem_keys, hhas]
  simp only [hrows, List.mem_filter, decide_eq_true_eq, and_assoc, Table.mem_iff]

end ListInRange

/-! ### The calls -/

/-- A step of a run: a call of `compute_twr`, or a change that leaves the stored sub-periods. -/
inductive TwrStep
  | compute (env : Env) (customerId : Uuid) (periodStart periodEnd : Date)
  | elsewhere (change : Database → Database)
      (frame : ∀ db, (change db).subPeriodReturns = db.subPeriodReturns)

/-- A database, and the windows of the calls that have returned, with their customers. -/
structure TwrRun where
  db : Database
  windows : List (Uuid × Date × Date)

/-- One step: a call that raises leaves nothing. -/
def TwrRun.step (run : TwrRun) : TwrStep → TwrRun
  | .compute env customerId periodStart periodEnd =>
    match (computeTwr env customerId periodStart periodEnd).run run.db with
    | .ok (_, db) => ⟨db, run.windows ++
        (pairwise (boundaries run.db customerId periodStart periodEnd)).map (customerId, ·)⟩
    | .error _ => run
  | .elsewhere change _ => ⟨change run.db, run.windows⟩

/-- A run, from a database without stored sub-periods. -/
def runTwr (db : Database) (steps : List TwrStep) : TwrRun := steps.foldl TwrRun.step ⟨db, []⟩

/-- The customer has a stored row of the window. -/
def Stored (db : Database) (customerId : Uuid) (w : Date × Date) : Prop :=
  ∃ row ∈ db.subPeriodReturns, row.customerId = customerId ∧ window row = w

theorem stored_subPeriodReturn {env : Env} {customerId : Uuid} {vBegin vEnd : Date}
    {row : SubPeriodReturn} {db db' : Database}
    (h : (subPeriodReturn env customerId vBegin vEnd).run db = .ok (row, db')) (c : Uuid)
    (w : Date × Date) : Stored db' c w ↔ Stored db c w ∨ (c, w) = (customerId, (vBegin, vEnd)) := by
  obtain ⟨current, hcurrent, ⟨hlatest, -, rfl⟩ | ⟨-, t, ht, rfl⟩⟩ := subPeriodReturn_ok h
  · refine ⟨Or.inl, fun hstored => hstored.elim id fun heq => ?_⟩
    cases heq
    rw [latestForSubPeriod_eq] at hlatest
    obtain ⟨hmem, hc, hb, he⟩ := mem_rowsOfWindow.mp (History.mem_of_latest hlatest).1
    exact ⟨row, hmem, hc, Prod.ext hb he⟩
  · obtain ⟨hc, hb, he, -⟩ := currentSubPeriod_ok hcurrent
    unfold Stored
    constructor
    · rintro ⟨row', hmem, rfl, rfl⟩
      rcases (Table.mem_insert ht).mp hmem with hold | rfl
      · exact Or.inl ⟨row', hold, rfl, rfl⟩
      · exact Or.inr (Prod.ext hc (Prod.ext hb he))
    · rintro (⟨row', hold, hrow'⟩ | heq)
      · exact ⟨row', (Table.mem_insert ht).mpr (Or.inl hold), hrow'⟩
      · cases heq
        exact ⟨current, (Table.mem_insert ht).mpr (Or.inr rfl), hc, Prod.ext hb he⟩

theorem stored_subPeriodReturns {env : Env} {customerId : Uuid} {windows : List (Date × Date)}
    {rows : List SubPeriodReturn} {db db' : Database}
    (h : (subPeriodReturns env customerId windows).run db = .ok (rows, db')) (c : Uuid)
    (w : Date × Date) : Stored db' c w ↔ Stored db c w ∨ (c = customerId ∧ w ∈ windows) := by
  induction windows generalizing db rows with
  | nil =>
    obtain ⟨-, rfl⟩ := pure_ok.mp h
    simp
  | cons window windows ih =>
    obtain ⟨vBegin, vEnd⟩ := window
    simp only [subPeriodReturns, bind_ok, pure_ok] at h
    obtain ⟨row, mid, hrow, rest, _, hrest, -, rfl⟩ := h
    rw [ih hrest, stored_subPeriodReturn hrow, Prod.mk.injEq, List.mem_cons]
    tauto

/-- A call stores rows of the windows of its period, and of no others. -/
theorem stored_computeTwr {env : Env} {customerId : Uuid} {periodStart periodEnd : Date}
    {result : ℚ × List SubPeriodReturn} {db db' : Database}
    (h : (computeTwr env customerId periodStart periodEnd).run db = .ok (result, db')) (c : Uuid)
    (w : Date × Date) : Stored db' c w ↔ Stored db c w ∨
      (c = customerId ∧ w ∈ pairwise (boundaries db customerId periodStart periodEnd)) := by
  obtain ⟨twr, rows⟩ := result
  exact stored_subPeriodReturns (computeTwr_ok.mp h).1 c w

/-- **The store after a run** has rows of the windows of the calls, and of no others. -/
theorem stored_runTwr {db : Database} (hempty : db.subPeriodReturns = ∅) (steps : List TwrStep)
    (c : Uuid) (w : Date × Date) :
    Stored (runTwr db steps).db c w ↔ (c, w) ∈ (runTwr db steps).windows := by
  induction steps using List.reverseRecOn generalizing c w with
  | nil =>
    refine ⟨fun ⟨row, hmem, _⟩ => ?_, fun h => absurd h List.not_mem_nil⟩
    have hmem' : row ∈ db.subPeriodReturns := hmem
    rw [hempty] at hmem'
    exact absurd hmem' List.not_mem_nil
  | append_singleton steps step ih =>
    have hlast : runTwr db (steps ++ [step]) = (runTwr db steps).step step := by
      unfold runTwr
      rw [List.foldl_append]
      rfl
    rw [hlast]
    cases step with
    | compute env customerId periodStart periodEnd =>
      cases hrun : (computeTwr env customerId periodStart periodEnd).run (runTwr db steps).db with
      | error e =>
        simp only [TwrRun.step, hrun]
        exact ih c w
      | ok result =>
        obtain ⟨result, db'⟩ := result
        simp only [TwrRun.step, hrun]
        rw [stored_computeTwr hrun, ih, List.mem_append, List.mem_map]
        refine or_congr_right ⟨?_, ?_⟩
        · rintro ⟨rfl, hmem⟩
          exact ⟨w, hmem, rfl⟩
        · rintro ⟨w', hmem, heq⟩
          cases heq
          exact ⟨rfl, hmem⟩
    | elsewhere change frame =>
      unfold Stored at ih ⊢
      simp only [TwrRun.step, frame]
      exact ih c w

/-! ### The chart -/

theorem exists_today (day : Date) : ∃ today : CalendarDate, day ≤ today.date := by
  have hyear : ∀ n : ℤ, 0 ≤ n → n ≤ daysBeforeYear (n + 719164) + 0 + 1 - 719163 := by
    intro n hn
    unfold daysBeforeYear
    omega
  have hjanuary : ∀ year, daysBeforeMonth year 1 = 0 := by
    intro year
    unfold daysBeforeMonth
    cases isLeap year <;> decide
  refine ⟨⟨|day| + 719164, 1, 1, by norm_num, by norm_num [daysInMonth]⟩,
    (le_abs_self day).trans ?_⟩
  unfold CalendarDate.date CalendarDate.toordinal
  dsimp only
  rw [hjanuary]
  exact hyear |day| (abs_nonneg day)

/-- **The performance chart counts each day once** for every range, day and watermark, after every
run of calls of `compute_twr` over arbitrary periods with arbitrary other changes in between,
exactly when the windows of any two calls for the customer are the same or have at most an endpoint
in common. -/
theorem performance_counts_once_iff {db : Database} (hempty : db.subPeriodReturns = ∅)
    (steps : List TwrStep) (customerId : Uuid) :
    (∀ range asOf today rows, linkedRows (runTwr db steps).db customerId range asOf today = .ok rows →
        CountsOnce rows) ↔
      ∀ v w, (customerId, v) ∈ (runTwr db steps).windows → (customerId, w) ∈ (runTwr db steps).windows →
        v = w ∨ MeetAtMostAtEnds v w := by
  constructor
  · intro hcounts v w hv hw
    obtain ⟨rowV, hrowV, hcV, hwindowV⟩ := (stored_runTwr hempty steps customerId v).mpr hv
    obtain ⟨rowW, hrowW, hcW, hwindowW⟩ := (stored_runTwr hempty steps customerId w).mpr hw
    -- both rows are in the range of all days, seen late enough
    obtain ⟨today, htoday⟩ := exists_today (max rowV.subPeriodStart rowW.subPeriodStart)
    set rows := listInRange (runTwr db steps).db customerId none today.date
      (max rowV.recordedAt rowW.recordedAt) with hrows
    have hmem : ∀ row ∈ (runTwr db steps).db.subPeriodReturns, row.customerId = customerId →
        row.subPeriodStart ≤ max rowV.subPeriodStart rowW.subPeriodStart →
        row.recordedAt ≤ max rowV.recordedAt rowW.recordedAt → window row ∈ rows.map window :=
      fun row hrow hc hstart hrecorded => (listInRange_windows.2 _).mpr ⟨row, hrow,
        ⟨hc, hstart.trans htoday, hrecorded, fun _ h => absurd h (Option.not_mem_none _)⟩, rfl⟩
    have hmeet : (rows.map window).Pairwise MeetAtMostAtEnds :=
      List.pairwise_map.mpr (hcounts .all _ today rows rfl)
    by_cases hsame : v = w
    · exact Or.inl hsame
    · right
      refine hmeet.forall ?_ ?_ hsame
      · exact hwindowV ▸ hmem rowV hrowV hcV (le_max_left _ _) (le_max_left _ _)
      · exact hwindowW ▸ hmem rowW hrowW hcW (le_max_right _ _) (le_max_right _ _)
  · intro hcalls range asOf today rows hrows
    obtain ⟨startDate, -, hreturned⟩ := except_bind_ok.mp hrows
    cases hreturned
    refine List.pairwise_map.mp (listInRange_windows.1.pairwise_of_forall_ne fun v hv w hw hne => ?_)
    have hcomputed : ∀ u ∈ (listInRange (runTwr db steps).db customerId startDate today.date
        asOf).map window, (customerId, u) ∈ (runTwr db steps).windows := by
      intro u hu
      obtain ⟨row, hrow, hrange, hwindow⟩ := (listInRange_windows.2 u).mp hu
      exact (stored_runTwr hempty steps customerId u).mp ⟨row, hrow, hrange.1, hwindow⟩
    exact (hcalls v w (hcomputed v hv) (hcomputed w hw)).resolve_left hne

/-- A deposit of 1000 that buys 10 shares on the first day; on the second they have risen by a
tenth. -/
def grownAccount : Database := { openedAccount 1 with
  journalEntries := ⟨[⟨1, .deposit, 0, .depositInitiated 1 (dollars 1000), none, none⟩,
    ⟨2, .tradeBuy, 0, .tradeBuyFill 1 7 "execution" (shares 10) (dollarsPerShare 100), none, none⟩],
    by decide⟩
  postings := [⟨1, .ofCustomer 1 .cash, .money (dollars 1000)⟩,
    ⟨1, .ofCustomer 1 .customerEquity, .money (dollars 1000).neg⟩,
    ⟨2, ⟨some 1, .positionUnits, some 7⟩, .units (shares 10)⟩,
    ⟨2, ⟨some 1, .positionCost, some 7⟩, .money (dollars 1000)⟩,
    ⟨2, .ofCustomer 1 .cash, .money (dollars 1000).neg⟩]
  dailyCloses := [⟨7, 0, dollarsPerShare 100, .confirmed, 1⟩,
    ⟨7, 1, dollarsPerShare 110, .confirmed, 2⟩, ⟨7, 2, dollarsPerShare 110, .confirmed, 3⟩] }

/-- Two calls, one after the other. -/
def twoCalls (firstEnd secondStart : Date) : List TwrStep :=
  [.compute (envAt 10 10) 1 0 firstEnd, .compute (envAt 20 20) 1 secondStart 2]

/-- The second call begins where the first ends: two rows are linked, and no day twice. -/
theorem performance_counts_once_iff_adjacent :
    ∃ rows, linkedRows (runTwr grownAccount (twoCalls 1 1)).db 1 .all 100
        ⟨1970, 1, 5, by decide, by decide⟩ = .ok rows ∧ rows.length = 2 ∧ CountsOnce rows := by
  have hwindows : (runTwr grownAccount (twoCalls 1 1)).windows = [(1, 0, 1), (1, 1, 2)] := by
    decide +kernel
  refine ⟨_, rfl, by decide +kernel, (performance_counts_once_iff rfl (twoCalls 1 1) 1).mpr
    (fun v w hv hw => ?_) .all 100 _ _ rfl⟩
  rw [hwindows] at hv hw
  simp only [List.mem_cons, Prod.mk.injEq, true_and, List.not_mem_nil, or_false] at hv hw
  rcases hv with rfl | rfl <;> rcases hw with rfl | rfl <;> decide

/-- Two calls from the first day: the rise of the second day is in both windows, and a tenth becomes
21 percent. -/
theorem daily_windows_counted_twice :
    (performance (runTwr grownAccount (twoCalls 1 0)).db 1 .all 100
        ⟨1970, 1, 5, by decide, by decide⟩).map (·.cumulativeTwr) = .ok (21 / 100) ∧
      (linkedRows (runTwr grownAccount (twoCalls 1 0)).db 1 .all 100
        ⟨1970, 1, 5, by decide, by decide⟩).map (fun rows => (rowsCounting 1 rows).length) = .ok 2 := by
  decide +kernel

end Trueup.Valuation
