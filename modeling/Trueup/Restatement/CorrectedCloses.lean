import Trueup.Models.OpenedAccount
import Trueup.Restatement.Completeness
import Trueup.Valuation.BookValue

/-! # Corrected closes

Who is restated when a close is recorded for a day that already had one. `inject_corrected_price`
restates the customers with an open lot of the security now, the daily job restates nobody, while
the windows that are affected belong to whoever held the security on that day.

* `frames_restate_other`: a restatement leaves the rows of the other customers.
* `injectCorrectedPrice_ok`, `dailyValuation_ok`: what was recorded, and what it left of the stored
  rows.
* `corrected_close_reaches_iff`: the stored windows that end or begin on the day are up to date for
  every customer who held the security exactly when those of the customers who are not restated
  already have the figures of the new close. -/

namespace Trueup.Restatement

open Trueup.Core Trueup.Models Trueup.Lib Trueup.Lib.Transaction Trueup.Ledger Trueup.Valuation
open Trueup.Lots Trueup.Reporting

/-- The stored rows of a customer. -/
def rowsOf (customerId : Uuid) (db : Database) : List SubPeriodReturn :=
  db.subPeriodReturns.rows.filter (·.customerId = customerId)

theorem rowsOfWindow_eq (db : Database) (customerId : Uuid) (vBegin vEnd : Date) :
    rowsOfWindow db customerId vBegin vEnd = (rowsOf customerId db).filter fun row =>
      row.subPeriodStart = vBegin ∧ row.subPeriodEnd = vEnd := by
  rw [rowsOfWindow, rowsOf, List.filter_filter]
  congr 1
  funext row
  by_cases hc : row.customerId = customerId <;> simp [hc]

theorem frames_restate_other {env : Env} {c customerId : Uuid} (hne : c ≠ customerId)
    (disclose : Bool) (affectedDate : Date) (triggerType : RestatementTriggerType)
    (source : SourceEvent) :
    Frames (rowsOf customerId) (restate env disclose c affectedDate triggerType source) := by
  refine fun x => keeps_restate (fun vBegin vEnd => ?_) (fun event => ?_) (fun disclosure => ?_)
    disclose affectedDate triggerType source
  · refine frames_of (fun db row db' h => ?_) x
    obtain ⟨current, hcurrent, ⟨-, -, rfl⟩ | ⟨-, t, ht, rfl⟩⟩ := subPeriodReturn_ok h
    · rfl
    · have hc : current.customerId ≠ customerId := (currentSubPeriod_ok hcurrent).1 ▸ hne
      simp [rowsOf, Table.rows_insert ht, hc]
  · refine frames_of (fun db u db' h => ?_) x
    rw [addRestatementEvent_ok.mp h]
    rfl
  · refine frames_of (fun db u db' h => ?_) x
    rw [addFeeRestatementDisclosure_ok.mp h]
    rfl

/-! ### What is recorded -/

/-- The database with some more closes. -/
def withCloses (db : Database) (closes : List DailyClose) : Database :=
  { db with dailyCloses := db.dailyCloses ++ closes }

@[simp] theorem withCloses_nil (db : Database) : withCloses db [] = db := by
  simp [withCloses]

/-- The close the job records for a security, if the port has one. -/
def answeredClose (db : Database) (env : Env) (answers : MarketAnswers) (marketDate : Date)
    (securityId : Uuid) : Option DailyClose :=
  match db.securities.find securityId with
  | none => none
  | some security =>
    match answers.getClose security.symbol with
    | .ok (some closePrice) => some (closeAt env securityId marketDate closePrice)
    | _ => none

/-- The closes a step records. -/
def recordedCloses (db : Database) (step : Step) : List DailyClose :=
  match step.op with
  | .injectCorrectedPrice securityId marketDate newClose =>
    [closeAt step.env securityId marketDate newClose]
  | .dailyValuation marketDate answers =>
    match answers.tradingDay, securitiesWithPositions db marketDate with
    | .ok (true, _), .ok securityIds =>
      securityIds.filterMap (answeredClose db step.env answers marketDate)
    | _, _ => []
  | _ => []

/-- The customers a step restates for its close. -/
def restatedCustomers (db : Database) (step : Step) : List Uuid :=
  match step.op with
  | .injectCorrectedPrice securityId _ _ => listCustomersHolding db securityId
  | _ => []

theorem recordCloses_ok {env : Env} {answers : MarketAnswers} {marketDate : Date} :
    ∀ {securityIds : List Uuid} {confirmed n : ℕ} {db db' : Database},
      (recordCloses env answers marketDate securityIds confirmed).run db = .ok (n, db') →
        db' = withCloses db (securityIds.filterMap (answeredClose db env answers marketDate))
  | [], confirmed, n, db, db', h => by
    obtain ⟨-, rfl⟩ := pure_ok.mp h
    exact (withCloses_nil db).symm
  | securityId :: securityIds, confirmed, n, db, db', h => by
    simp only [recordCloses, bind_ok, read_ok] at h
    obtain ⟨security, _, ⟨hsecurity, rfl⟩, h⟩ := h
    cases hsecurity
    cases hfind : db.securities.find securityId with
    | none =>
      rw [hfind] at h
      have hnone : answeredClose db env answers marketDate securityId = none := by
        simp [answeredClose, hfind]
      rw [recordCloses_ok h, List.filterMap_cons_none hnone]
    | some security =>
      rw [hfind] at h
      simp only [bind_ok, lift_ok] at h
      obtain ⟨quote, _, ⟨hquote, rfl⟩, h⟩ := h
      cases quote with
      | none =>
        have hnone : answeredClose db env answers marketDate securityId = none := by
          simp [answeredClose, hfind, hquote]
        rw [recordCloses_ok h, List.filterMap_cons_none hnone]
      | some closePrice =>
        have hsome : answeredClose db env answers marketDate securityId =
            some (closeAt env securityId marketDate closePrice) := by
          simp [answeredClose, hfind, hquote]
        simp only [bind_ok, addDailyClose_ok] at h
        obtain ⟨_, _, ⟨-, rfl⟩, h⟩ := h
        rw [recordCloses_ok h, List.filterMap_cons_some hsome]
        simp only [withCloses, List.append_assoc, List.singleton_append]
        rfl

theorem dailyValuation_ok {env : Env} {marketDate : Date} {answers : MarketAnswers}
    {db db' : Database} {u : Unit}
    (h : (dailyValuation env marketDate answers).run db = .ok (u, db')) :
    ∃ calendar runs, db' =
      { withCloses db (recordedCloses db ⟨env, .dailyValuation marketDate answers⟩) with
        calendarCache := calendar, valuationRuns := runs } := by
  simp only [dailyValuation, bind_ok, lift_ok, upsertCalendarDay_ok] at h
  obtain ⟨⟨isTradingDay, sessionCloseAt⟩, _, ⟨hday, rfl⟩, _, _, rfl, h⟩ := h
  rw [whenever] at h
  split_ifs at h with htrading
  · simp only [bind_ok, read_ok, upsertValuationRun_ok] at h
    obtain ⟨securityIds, _, ⟨hids, rfl⟩, confirmed, mid, hrecord, rfl⟩ := h
    have hids' : securitiesWithPositions db marketDate = .ok securityIds := hids
    obtain rfl := recordCloses_ok hrecord
    simp only at htrading
    subst htrading
    have hcloses : recordedCloses db ⟨env, .dailyValuation marketDate answers⟩ =
        securityIds.filterMap (answeredClose db env answers marketDate) := by
      simp only [recordedCloses, hday, hids']
    rw [hcloses]
    exact ⟨_, _, rfl⟩
  · obtain ⟨-, rfl⟩ := pure_ok.mp h
    have hcloses : recordedCloses db ⟨env, .dailyValuation marketDate answers⟩ = [] := by
      simp only [recordedCloses]
      split
      · rename_i hday' _
        rw [hday] at hday'
        cases hday'
        exact absurd rfl htrading
      · rfl
    rw [hcloses, withCloses_nil]
    exact ⟨_, _, rfl⟩

theorem injectCorrectedPrice_ok {env : Env} {securityId : Uuid} {marketDate : Date}
    {newClose : Price} {db db' : Database} {u : Unit}
    (h : (injectCorrectedPrice env securityId marketDate newClose).run db = .ok (u, db')) :
    (each (fun customerId => restate env false customerId marketDate .correctedClose
      (.simulatedCorrectedClose securityId marketDate newClose))
      (listCustomersHolding db securityId)).run
        (withCloses db [closeAt env securityId marketDate newClose]) = .ok (u, db') := by
  simp only [injectCorrectedPrice, bind_ok, addDailyClose_ok, read_ok] at h
  obtain ⟨_, _, ⟨-, rfl⟩, customers, _, ⟨hcustomers, rfl⟩, h⟩ := h
  cases hcustomers
  exact h

/-! ### Who is reached -/

section FanOut
variable {env : Env} {disclose : Bool} {affectedDate : Date} {triggerType : RestatementTriggerType}
  {source : SourceEvent} {customerId : Uuid}

theorem frames_restateEach_other {customers : List Uuid} (hnot : customerId ∉ customers) :
    Frames (rowsOf customerId)
      (each (fun c => restate env disclose c affectedDate triggerType source) customers) :=
  frames_each fun c hc => frames_restate_other
    (fun e : c = customerId => hnot (e ▸ hc)) _ _ _ _

theorem restating_restateEach {db₀ : Database} {done : List (Date × Date)} {customers : List Uuid} :
    Keeps (Restating env customerId db₀ done)
      (each (fun c => restate env disclose c affectedDate triggerType source) customers) :=
  keeps_each fun c _ => restating_restate disclose c affectedDate triggerType source

/-- The windows of a restated customer that contain the day are up to date after all
restatements. -/
theorem restateEach_upToDate {vBegin vEnd : Date} (hbegin : vBegin ≤ affectedDate)
    (hend : affectedDate ≤ vEnd) : ∀ {customers : List Uuid} {db db' : Database} {u : Unit},
    (each (fun c => restate env disclose c affectedDate triggerType source) customers).run db =
      .ok (u, db') → customerId ∈ customers →
    (∀ r ∈ db.subPeriodReturns, r.recordedAt ≤ env.transactionStart) →
    rowsOfWindow db' customerId vBegin vEnd ≠ [] → upToDate db' env customerId vBegin vEnd
  | c :: customers, db, db', u, h, hmem, hrecorded, hstored => by
    obtain ⟨_, mid, hfirst, hrest⟩ := bind_ok.mp h
    have hstart : Restating env customerId db [] db := .start hrecorded (by simp)
    have hmid := restating_restate disclose c affectedDate triggerType source _ _ _ hstart hfirst
    by_cases hlater : customerId ∈ customers
    · exact restateEach_upToDate hbegin hend hrest hlater hmid.recorded hstored
    · obtain rfl : customerId = c := (List.mem_cons.mp hmem).resolve_right hlater
      have hagain : Restating env customerId mid [] mid := .start hmid.recorded (by simp)
      rcases (restating_restateEach _ _ _ hagain hrest).windows vBegin vEnd with hrows | hup
      · rw [hrows] at hstored
        have hup := restate_upToDate hfirst hrecorded hstored hbegin hend
        have hdone : Restating env customerId mid [(vBegin, vEnd)] mid :=
          .start hmid.recorded (by simpa using hup)
        exact (restating_restateEach _ _ _ hdone hrest).done (vBegin, vEnd) (by simp)
      · exact hup

end FanOut

theorem ledgerUnits_eq_zero {db : Database} {customerId : Uuid}
    (h : ∀ p ∈ db.postings, p.account.customerId ≠ some customerId) (day : Date)
    (securityId : Uuid) : ledgerUnits db customerId day securityId = 0 := by
  have hnone : (db.postings.filter fun p => isUnitsOf customerId p && isEffectiveBy db day p) = [] := by
    refine List.filter_eq_nil_iff.mpr fun p hp => ?_
    simp [isUnitsOf, h p hp]
  rw [ledgerUnits, hnone]
  rfl

/-- The windows of a customer that are stored in `stored` and begin or end on the day are up to date
in `db`. -/
def EndpointsUpToDate (stored db : Database) (env : Env) (customerId : Uuid) (day : Date) : Prop :=
  ∀ vBegin vEnd, rowsOfWindow stored customerId vBegin vEnd ≠ [] → (vBegin = day ∨ vEnd = day) →
    upToDate db env customerId vBegin vEnd

/-- **Which corrected closes reach the customers who held the security**: those after which no
window of a customer who is not restated is stale. -/
theorem corrected_close_reaches_iff {step : Step} {db db' : Database} {u : Unit}
    (hrun : (body step).run db = .ok (u, db'))
    (hrecorded : ∀ r ∈ db.subPeriodReturns, r.recordedAt ≤ step.start)
    (hordered : ∀ r ∈ db.subPeriodReturns, r.subPeriodStart < r.subPeriodEnd) {close : DailyClose}
    (hclose : close ∈ recordedCloses db step) :
    (∀ customerId, ledgerUnits db customerId close.marketDate close.securityId ≠ 0 →
      EndpointsUpToDate db' db' step.env customerId close.marketDate) ↔
    ∀ customerId, ledgerUnits db customerId close.marketDate close.securityId ≠ 0 →
      customerId ∉ restatedCustomers db step →
      EndpointsUpToDate db (withCloses db (recordedCloses db step)) step.env customerId
        close.marketDate := by
  obtain ⟨env, op⟩ := step
  cases op with
  | injectCorrectedPrice securityId marketDate newClose =>
    obtain rfl := List.mem_singleton.mp hclose
    have hrestates := injectCorrectedPrice_ok hrun
    have hrecorded₁ : ∀ r ∈ (withCloses db
        [closeAt env securityId marketDate newClose]).subPeriodReturns,
        r.recordedAt ≤ env.transactionStart := hrecorded
    have hlast := fun c => restating_restateEach _ _ _ (Restating.start_nil hrecorded₁ c) hrestates
    have hother : ∀ c, c ∉ listCustomersHolding db securityId →
        (EndpointsUpToDate db' db' env c marketDate ↔ EndpointsUpToDate db (withCloses db
          [closeAt env securityId marketDate newClose]) env c marketDate) := by
      intro c hc
      have hframe := (frames_restateEach_other hc).eq hrestates
      have hrows : rowsOf c db' = rowsOf c db := hframe
      refine forall_congr' fun vBegin => forall_congr' fun vEnd => ?_
      rw [upToDate_congr (by rw [rowsOfWindow_eq, hrows]; exact (rowsOfWindow_eq _ _ _ _).symm)
          (.of_eq (hlast c).entries (hlast c).postings (hlast c).closes _ _)
          (.of_eq (hlast c).entries (hlast c).postings (hlast c).closes _ _),
        rowsOfWindow_eq, hrows, ← rowsOfWindow_eq]
    constructor
    · intro h c hpos hc
      exact (hother c hc).mp (h c hpos)
    · intro h c hpos
      by_cases hc : c ∈ listCustomersHolding db securityId
      · intro vBegin vEnd hstored hday
        rcases (hlast c).windows vBegin vEnd with hrows | hup
        · obtain ⟨row, hrow⟩ := List.exists_mem_of_ne_nil _ hstored
          rw [hrows] at hrow
          obtain ⟨hmem, -, rfl, rfl⟩ := mem_rowsOfWindow.mp hrow
          have hlt := hordered row hmem
          refine restateEach_upToDate ?_ ?_ hrestates hc hrecorded₁ hstored
          · rcases hday with rfl | rfl
            · exact le_rfl
            · exact hlt.le
          · rcases hday with rfl | rfl
            · exact hlt.le
            · exact le_rfl
        · exact hup
      · exact (hother c hc).mpr (h c hpos hc)
  | dailyValuation marketDate answers =>
    obtain ⟨calendar, runs, hdb'⟩ := dailyValuation_ok hrun
    have hsame : ∀ c, EndpointsUpToDate db' db' env c close.marketDate ↔ EndpointsUpToDate db
        (withCloses db (recordedCloses db ⟨env, .dailyValuation marketDate answers⟩)) env c
        close.marketDate := by
      intro c
      have hrows : ∀ a b, rowsOfWindow db' c a b = rowsOfWindow (withCloses db (recordedCloses db
          ⟨env, .dailyValuation marketDate answers⟩)) c a b := by
        intro a b
        rw [hdb']
        rfl
      have hbook : ∀ day, SameBook (withCloses db (recordedCloses db
          ⟨env, .dailyValuation marketDate answers⟩)) db' c day := by
        intro day
        rw [hdb']
        exact ⟨rfl, fun _ _ => rfl, fun _ => rfl⟩
      refine forall_congr' fun vBegin => forall_congr' fun vEnd => ?_
      rw [upToDate_congr (hrows vBegin vEnd) (hbook vBegin) (hbook vEnd), hrows]
      rfl
    exact forall_congr' fun c => ⟨fun h hpos _ => (hsame c).mp (h hpos),
      fun h hpos => (hsame c).mpr (h hpos List.not_mem_nil)⟩
  | _ => cases hclose

/-- A share is bought on day `0`, the closes of days `0` and `1` come in, and the return between
them is computed. -/
def heldShare : List Step :=
  [⟨envAt 1 1, .application (.initiateDeposit 1 (dollars 100))⟩,
    ⟨envAt 2 2, .lots (.buyFill openedClock ⟨1, 7, "b1", shares 1, dollarsPerShare 10, ⟨2, true⟩⟩)⟩,
    ⟨envAt 3 3, .injectCorrectedPrice 7 0 (dollarsPerShare 10)⟩,
    ⟨envAt 86400000000 4, .injectCorrectedPrice 7 1 (dollarsPerShare 12)⟩,
    ⟨envAt 86400000001 5, .computeTwr 1 0 1⟩]

/-- The share is sold on day `2`. -/
def soldShare : List Step :=
  heldShare ++ [⟨envAt 172800000000 6, .lots (.sellFill openedClock
    ⟨1, 7, "s1", shares 1, dollarsPerShare 12, ⟨172800000000, true⟩⟩ none)⟩]

/-- The close of day `1` is corrected. -/
def correctDayOne : Step := ⟨envAt 172800000001 7, .injectCorrectedPrice 7 1 (dollarsPerShare 15)⟩

/-- The database while the share is held. -/
def heldDatabase : Database := run heldShare (openedAccount 1)

theorem corrected_close_reaches_iff_held :
    (ledgerUnits heldDatabase 1 1 7 ≠ 0 ∧
      rowsOfWindow (atomically (body correctDayOne) heldDatabase) 1 0 1 ≠ []) ∧
    ∀ customerId, ledgerUnits heldDatabase customerId 1 7 ≠ 0 →
      EndpointsUpToDate (atomically (body correctDayOne) heldDatabase)
        (atomically (body correctDayOne) heldDatabase) correctDayOne.env customerId 1 := by
  refine ⟨by decide +kernel, ?_⟩
  obtain ⟨u, hrun⟩ := run_of_isOk (x := body correctDayOne) (s := heldDatabase) (by decide +kernel)
  have hclose : closeAt correctDayOne.env 7 1 (dollarsPerShare 15) ∈
      recordedCloses heldDatabase correctDayOne := List.mem_singleton.mpr rfl
  have hposted : ∀ p ∈ heldDatabase.postings, p.account.customerId = some 1 := by decide +kernel
  have hheld : 1 ∈ restatedCustomers heldDatabase correctDayOne := by decide +kernel
  refine (corrected_close_reaches_iff hrun (by decide +kernel) (by decide +kernel) hclose).mpr ?_
  intro customerId hpos hnot
  -- only the customer who is restated has a position
  refine absurd (ledgerUnits_eq_zero (fun p hp => ?_) 1 7) hpos
  rw [hposted p hp]
  rintro ⟨⟩
  exact hnot hheld

/-- **A position closed in the meantime is left stale**: the customer held the share on day `1`, has
sold it since, and the corrected close of day `1` does not reach the stored return. -/
theorem closed_position_left_stale :
    let db := run soldShare (openedAccount 1)
    let db' := atomically (body correctDayOne) db
    ((body correctDayOne).run db).isOk ∧ (latestConfirmed db 7 1).isSome ∧
      ledgerUnits db 1 1 7 ≠ 0 ∧ rowsOfWindow db' 1 0 1 ≠ [] ∧
      upToDate db' correctDayOne.env 1 0 1 = false := by
  decide +kernel

end Trueup.Restatement
