import Trueup.Lib.Dict
import Trueup.Valuation.ValuationService

/-! # Time-weighted returns

`services/valuation/twr_service.py`: a period is cut at its external flows, each piece's return is
computed from the valuations at its ends, and a row is stored only when the figures differ from the
latest stored ones. The service writes `sub_period_return` rows and nothing else
(`frames_subPeriodReturn`, `frames_computeTwr`). -/

namespace Trueup.Valuation

open Trueup.Core Trueup.Models Trueup.Lib Trueup.Lib.Rounding Trueup.Lib.Transaction Trueup.Ledger

/-- `quantize(_RETURN_QUANTUM)`: ten decimal places. -/
def quantizeReturn (q : ℚ) : Except Error ℚ := do
  let n := roundHalfEven (q * 10 ^ 10)
  check (|n| < 10 ^ contextPrecision) .invalidOperation
  return n / 10 ^ 10

/-- `_EXTERNAL_FLOW_TYPES`. -/
def isExternalFlow (entry : JournalEntry) : Bool :=
  entry.entryType = .deposit ∨ entry.entryType = .withdrawal

/-- `_flow_dates`: the days strictly inside the period with an external flow of the customer. -/
def flowDates (db : Database) (customerId : Uuid) (periodStart periodEnd : Date) : List Date :=
  ((db.postings.filter (·.account.customerId = some customerId)).filterMap fun p =>
    db.journalEntries.find p.journalEntryId).filter (fun entry =>
      isExternalFlow entry ∧ periodStart < entry.effectiveDate ∧ entry.effectiveDate < periodEnd)
    |>.map (·.effectiveDate)

/-- `_boundaries`. -/
def boundaries (db : Database) (customerId : Uuid) (periodStart periodEnd : Date) : List Date :=
  (periodStart :: flowDates db customerId periodStart periodEnd ++ [periodEnd]).dedup.insertionSort
    (· ≤ ·)

/-- `itertools.pairwise`. -/
def pairwise {α : Type} (l : List α) : List (α × α) := l.zip l.tail

/-- `_flow_amount_on`. -/
def flowAmountOn (db : Database) (customerId : Uuid) (day : Date) : Except Error Money :=
  QuantizedDecimal.ofSum ((db.postings.filter fun p => isCashOf customerId p &&
    decide (∃ entry ∈ db.journalEntries.find p.journalEntryId,
      isExternalFlow entry ∧ entry.effectiveDate = day)).map (·.amount.moneyQuanta)).sum

/-- The stored rows of one window. -/
def rowsOfWindow (db : Database) (customerId : Uuid) (subPeriodStart subPeriodEnd : Date) :
    List SubPeriodReturn :=
  db.subPeriodReturns.rows.filter fun row => row.customerId = customerId ∧
    row.subPeriodStart = subPeriodStart ∧ row.subPeriodEnd = subPeriodEnd

/-- The window of a row. -/
def window (row : SubPeriodReturn) : Date × Date := (row.subPeriodStart, row.subPeriodEnd)

/-- `order_by(sub_period_start, sub_period_end, recorded_at.desc())`. -/
def byWindowNewestFirst (a b : SubPeriodReturn) : Prop :=
  a.subPeriodStart < b.subPeriodStart ∨ a.subPeriodStart = b.subPeriodStart ∧
    (a.subPeriodEnd < b.subPeriodEnd ∨ a.subPeriodEnd = b.subPeriodEnd ∧
      b.recordedAt ≤ a.recordedAt)

instance : DecidableRel byWindowNewestFirst := fun _ _ => inferInstanceAs (Decidable (_ ∨ _))

/-- `latest_by_window`: of some rows, the newest one of each window. -/
def latestByWindow (rows : List SubPeriodReturn) : Dict (Date × Date) SubPeriodReturn :=
  .firsts ((rows.insertionSort byWindowNewestFirst).map fun row => (window row, row))

/-- `latest_for_sub_period`. -/
def latestForSubPeriod (db : Database) (customerId : Uuid) (subPeriodStart subPeriodEnd : Date) :
    Option SubPeriodReturn :=
  latestBy SubPeriodReturn.recordedAt (rowsOfWindow db customerId subPeriodStart subPeriodEnd)

/-- `as_of_for_sub_period`. -/
def asOfForSubPeriod (db : Database) (customerId : Uuid) (subPeriodStart subPeriodEnd : Date)
    (cutoff : Instant) : Option SubPeriodReturn :=
  latestBy SubPeriodReturn.recordedAt
    ((rowsOfWindow db customerId subPeriodStart subPeriodEnd).filter (·.recordedAt ≤ cutoff))

/-- The row `_sub_period_return` computes from the ledger and the closes. -/
def currentSubPeriod (db : Database) (env : Env) (customerId : Uuid) (vBegin vEnd : Date) :
    Except Error SubPeriodReturn := do
  let beginValuation ← valueBook db customerId vBegin
  let endValuation ← valueBook db customerId vEnd
  let flowAmount ← flowAmountOn db customerId vEnd
  let returnPct ←
    if beginValuation.totalValue = 0 then quantizeReturn 0
    else do
      let change ← endValuation.totalValue.sub beginValuation.totalValue
      let gain ← change.sub flowAmount
      quantizeReturn (← Money.ratio gain beginValuation.totalValue)
  return {
    customerId, subPeriodStart := vBegin, subPeriodEnd := vEnd, returnPct
    valueBegin := beginValuation.totalValue, valueEnd := endValuation.totalValue, flowAmount
    isProvisional := beginValuation.isPartial || endValuation.isPartial
    recordedAt := env.transactionStart }

/-- The figures of two rows of one window agree. -/
def sameFigures (row existing : SubPeriodReturn) : Bool :=
  existing.returnPct = row.returnPct ∧ existing.valueBegin = row.valueBegin ∧
    existing.valueEnd = row.valueEnd ∧ existing.flowAmount = row.flowAmount ∧
    existing.isProvisional = row.isProvisional

/-- `_sub_period_return`: stored unless the latest stored row has the same figures. -/
def subPeriodReturn (env : Env) (customerId : Uuid) (vBegin vEnd : Date) : Tx SubPeriodReturn := do
  let row ← read fun db => currentSubPeriod db env customerId vBegin vEnd
  let existing ← read fun db => .ok (latestForSubPeriod db customerId vBegin vEnd)
  match existing.filter (sameFigures row) with
  | some e => return e
  | none =>
    addSubPeriodReturn row
    return row

/-- `link`: `product(1 + r_i) - 1`. -/
def link (subPeriods : List SubPeriodReturn) : Except Error ℚ :=
  quantizeReturn (context
    (subPeriods.foldl (fun linked row => context (linked * context (1 + row.returnPct))) 1 - 1))

/-- The loop of `compute_twr`. -/
def subPeriodReturns (env : Env) (customerId : Uuid) :
    List (Date × Date) → Tx (List SubPeriodReturn)
  | [] => return []
  | (vBegin, vEnd) :: windows => do
    let row ← subPeriodReturn env customerId vBegin vEnd
    let rows ← subPeriodReturns env customerId windows
    return row :: rows

/-- `compute_twr`. -/
def computeTwr (env : Env) (customerId : Uuid) (periodStart periodEnd : Date) :
    Tx (ℚ × List SubPeriodReturn) := do
  let days ← read fun db => .ok (boundaries db customerId periodStart periodEnd)
  let rows ← subPeriodReturns env customerId (pairwise days)
  let twr ← lift (link rows)
  return (twr, rows)

/-- **The latest rows**: one of the rows for each of their windows. -/
theorem latestByWindow_windows (rows : List SubPeriodReturn) :
    (∀ w, (latestByWindow rows).Has w ↔ ∃ row ∈ rows, window row = w) ∧
      ∀ pair ∈ (latestByWindow rows).rows, pair.2 ∈ rows ∧ window pair.2 = pair.1 := by
  obtain ⟨hkeys, hmem⟩ :=
    Dict.mem_firsts ((rows.insertionSort byWindowNewestFirst).map fun row => (window row, row))
  refine ⟨fun w => (hkeys w).trans ?_, fun pair hpair => ?_⟩
  · simp only [List.map_map, List.mem_map, List.mem_insertionSort, Function.comp_apply]
  · obtain ⟨row, hrow, rfl⟩ := List.mem_map.mp (hmem pair hpair)
    exact ⟨(List.mem_insertionSort _).mp hrow, rfl⟩

/-- What `compute_twr` returns is linked from the rows of the windows. -/
theorem computeTwr_ok {env : Env} {customerId : Uuid} {periodStart periodEnd : Date} {twr : ℚ}
    {rows : List SubPeriodReturn} {db db' : Database} :
    (computeTwr env customerId periodStart periodEnd).run db = .ok ((twr, rows), db') ↔
      (subPeriodReturns env customerId
        (pairwise (boundaries db customerId periodStart periodEnd))).run db = .ok (rows, db') ∧
      link rows = .ok twr := by
  simp only [computeTwr, bind_ok, read_ok, lift_ok, pure_ok, Prod.mk.injEq]
  constructor
  · rintro ⟨days, _, ⟨hdays, rfl⟩, rows', _, hrows, twr', _, ⟨hlink, rfl⟩, ⟨rfl, rfl⟩, rfl⟩
    cases hdays
    exact ⟨hrows, hlink⟩
  · rintro ⟨hrows, hlink⟩
    exact ⟨_, _, ⟨rfl, rfl⟩, rows, db', hrows, twr, db', ⟨hlink, rfl⟩, ⟨rfl, rfl⟩, rfl⟩

/-! ### What is written -/

theorem keeps_computeTwr {I : Database → Prop} {env : Env} {customerId : Uuid}
    (h : ∀ vBegin vEnd, Keeps I (subPeriodReturn env customerId vBegin vEnd))
    (periodStart periodEnd : Date) : Keeps I (computeTwr env customerId periodStart periodEnd) := by
  have hwindows : ∀ windows, Keeps I (subPeriodReturns env customerId windows) := by
    intro windows
    induction windows with
    | nil => exact keeps_pure _
    | cons window windows ih =>
      exact keeps_bind (h _ _) fun _ => keeps_bind ih fun _ => keeps_pure _
  exact keeps_bind (keeps_read _) fun _ => keeps_bind (hwindows _) fun _ =>
    keeps_bind (keeps_lift _) fun _ => keeps_pure _

section Frames
variable {γ : Type} {f : Database → γ}
  (hf : ∀ (db : Database) t, f { db with subPeriodReturns := t } = f db)
include hf

theorem frames_subPeriodReturn (env : Env) (customerId : Uuid) (vBegin vEnd : Date) :
    Frames f (subPeriodReturn env customerId vBegin vEnd) := by
  refine frames_bind (frames_read _) fun row => frames_bind (frames_read _) fun existing => ?_
  split
  · exact frames_pure _
  · refine frames_bind (frames_of fun s a s' h => ?_) fun _ => frames_pure _
    obtain ⟨-, t, -, rfl⟩ := addSubPeriodReturn_ok.mp h
    exact hf s t

theorem frames_computeTwr (env : Env) (customerId : Uuid) (periodStart periodEnd : Date) :
    Frames f (computeTwr env customerId periodStart periodEnd) :=
  fun c => keeps_computeTwr (fun vBegin vEnd => frames_subPeriodReturn hf env customerId vBegin vEnd c)
    periodStart periodEnd

end Frames

end Trueup.Valuation
