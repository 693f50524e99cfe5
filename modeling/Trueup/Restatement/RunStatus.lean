import Trueup.Restatement.CorrectedCloses
import Trueup.Valuation.BookValue
import Trueup.Valuation.PortfolioPerformance

/-! # What the status of a valuation run says

The daily job counts the securities whose close it got in this run, among those of which the
customers together hold something. `value_book` looks for the closes on record, position by
position.

* `recordCloses_count`: the count of the job is the number of closes it records.
* `latestConfirmed_after`: the closes on record after a run are those from before and its own.
* `isValued_iff`: whose book has a value after a run, by the amounts before it.
* `status_agrees_iff`: in a sequence of runs of one day, the recorded status says after every run
  whether the books are complete exactly when every run counts what the books miss. -/

namespace Trueup.Restatement

open Trueup.Core Trueup.Models Trueup.Lib Trueup.Lib.Transaction Trueup.Ledger Trueup.Valuation
open Trueup.Lots

/-- One run of the job: its readings of the outside, and the answers of the ports. -/
structure JobRun where
  env : Env
  answers : MarketAnswers

/-- `DailyValuationJob.perform`. -/
def JobRun.perform (marketDate : Date) (job : JobRun) : Tx Unit :=
  dailyValuation job.env marketDate job.answers

/-- No book that `value_book` returns for the day is partial. -/
def BooksComplete (db : Database) (marketDate : Date) : Prop :=
  ∀ customerId book, valueBook db customerId marketDate = .ok book → book.isPartial = false

/-- The status on record for the day, if there is one, says whether the books are complete. -/
def StatusAgrees (marketDate : Date) (db : Database) : Prop :=
  ∀ row ∈ db.valuationRuns, row.marketDate = marketDate →
    (row.status = .complete ↔ BooksComplete db marketDate)

/-! ### The count of the job -/

section Counting
variable {env : Env} {answers : MarketAnswers} {marketDate : Date}

/-- The close of a security that the loop got. -/
def IsAnswered (db : Database) (env : Env) (answers : MarketAnswers) (marketDate : Date)
    (securityId : Uuid) : Prop :=
  (answeredClose db env answers marketDate securityId).isSome

instance (db : Database) (env : Env) (answers : MarketAnswers) (marketDate : Date) :
    DecidablePred (IsAnswered db env answers marketDate) :=
  fun _ => inferInstanceAs (Decidable (_ = _))

/-- **The count** is the number of closes that are recorded. -/
theorem recordCloses_count : ∀ {securityIds : List Uuid} {confirmed n : ℕ} {db db' : Database},
    (recordCloses env answers marketDate securityIds confirmed).run db = .ok (n, db') →
      n = confirmed + (securityIds.filterMap (answeredClose db env answers marketDate)).length
  | [], confirmed, n, db, db', h => by
    obtain ⟨rfl, -⟩ := pure_ok.mp h
    rfl
  | securityId :: securityIds, confirmed, n, db, db', h => by
    simp only [recordCloses, bind_ok, read_ok] at h
    obtain ⟨security, _, ⟨hsecurity, rfl⟩, h⟩ := h
    cases hsecurity
    cases hfind : db.securities.find securityId with
    | none =>
      rw [hfind] at h
      have hnone : answeredClose db env answers marketDate securityId = none := by
        simp [answeredClose, hfind]
      rw [recordCloses_count h, List.filterMap_cons_none hnone]
    | some security =>
      rw [hfind] at h
      simp only [bind_ok, lift_ok] at h
      obtain ⟨quote, _, ⟨hquote, rfl⟩, h⟩ := h
      cases quote with
      | none =>
        have hnone : answeredClose db env answers marketDate securityId = none := by
          simp [answeredClose, hfind, hquote]
        rw [recordCloses_count h, List.filterMap_cons_none hnone]
      | some closePrice =>
        have hsome : answeredClose db env answers marketDate securityId =
            some (closeAt env securityId marketDate closePrice) := by
          simp [answeredClose, hfind, hquote]
        simp only [bind_ok, addDailyClose_ok] at h
        obtain ⟨_, _, ⟨-, rfl⟩, h⟩ := h
        rw [recordCloses_count h, List.filterMap_cons_some hsome, List.length_cons]
        have hsame : answeredClose { db with dailyCloses := db.dailyCloses ++
            [closeAt env securityId marketDate closePrice] } env answers marketDate =
            answeredClose db env answers marketDate := rfl
        rw [hsame]
        omega

end Counting

/-! ### The closes on record -/

theorem latestConfirmed_eq_none {db : Database} {securityId : Uuid} {marketDate : Date} :
    latestConfirmed db securityId marketDate = none ↔ ∀ close ∈ db.dailyCloses,
      ¬ (close.securityId = securityId ∧ close.marketDate = marketDate ∧ close.status = .confirmed) := by
  rw [latestConfirmed, latestBy, List.head?_eq_none_iff, ← List.length_eq_zero_iff,
    List.length_insertionSort, List.length_eq_zero_iff, List.filter_eq_nil_iff]
  simp

theorem answeredClose_eq_some {db : Database} {env : Env} {answers : MarketAnswers}
    {marketDate : Date} {securityId : Uuid} {close : DailyClose}
    (h : answeredClose db env answers marketDate securityId = some close) :
    close.securityId = securityId ∧ close.marketDate = marketDate ∧ close.status = .confirmed := by
  unfold answeredClose at h
  split at h
  · cases h
  · split at h
    · cases h
      exact ⟨rfl, rfl, rfl⟩
    · cases h

/-- **The closes on record after a run**: those from before, and the ones the run got. -/
theorem latestConfirmed_after {db : Database} {env : Env} {answers : MarketAnswers}
    {marketDate : Date} {securityIds : List Uuid} {securityId : Uuid} :
    latestConfirmed (withCloses db (securityIds.filterMap
        (answeredClose db env answers marketDate))) securityId marketDate = none ↔
      latestConfirmed db securityId marketDate = none ∧
        (securityId ∈ securityIds → ¬ IsAnswered db env answers marketDate securityId) := by
  rw [latestConfirmed_eq_none, latestConfirmed_eq_none]
  constructor
  · intro h
    refine ⟨fun close hclose => h close (List.mem_append_left _ hclose), fun hmem hanswered => ?_⟩
    obtain ⟨close, hclose⟩ := Option.isSome_iff_exists.mp hanswered
    exact h close (List.mem_append_right _ (List.mem_filterMap.mpr ⟨securityId, hmem, hclose⟩))
      (answeredClose_eq_some hclose)
  · rintro ⟨hbefore, hrun⟩ close hclose hof
    rcases List.mem_append.mp hclose with hold | hnew
    · exact hbefore close hold hof
    · obtain ⟨s, hs, hsome⟩ := List.mem_filterMap.mp hnew
      obtain rfl : s = securityId := (answeredClose_eq_some hsome).1.symm.trans hof.1
      exact hrun hs (Option.isSome_iff_exists.mpr ⟨close, hsome⟩)

/-! ### What a run counts -/

/-- The customer has a position of the security that `value_book` finds no close for after the run:
none is on record from before, and the job did not ask for one or got none. -/
def IsMissed (marketDate : Date) (db : Database) (job : JobRun) (securityIds : List Uuid)
    (customerId securityId : Uuid) : Prop :=
  ledgerUnits db customerId marketDate securityId ≠ 0 ∧
    latestConfirmed db securityId marketDate = none ∧
    (securityId ∈ securityIds → ¬ IsAnswered db job.env job.answers marketDate securityId)

/-- `value_book` returns for the customer after the run; by the amounts before it, `isValued_iff`. -/
def IsValued (marketDate : Date) (db : Database) (job : JobRun) (customerId : Uuid) : Prop :=
  ∃ book, valueBook (atomically (job.perform marketDate) db) customerId marketDate = .ok book

/-- The run counts what the books miss: it got every close it asked for, and no customer's position
misses one, or it got one close less, and some customer's position misses one. -/
def CountsBooks (marketDate : Date) (db : Database) (job : JobRun) : Prop :=
  ((job.perform marketDate).run db).isOk → ∀ sessionCloseAt securityIds,
    job.answers.tradingDay = .ok (true, sessionCloseAt) →
    securitiesWithPositions db marketDate = .ok securityIds →
      ((∀ s ∈ securityIds, IsAnswered db job.env job.answers marketDate s) ∧
        ∀ c s, IsValued marketDate db job c → ¬ IsMissed marketDate db job securityIds c s) ∨
      ((∃ s ∈ securityIds, ¬ IsAnswered db job.env job.answers marketDate s) ∧
        ∃ c s, IsValued marketDate db job c ∧ IsMissed marketDate db job securityIds c s)

section Run
variable {marketDate : Date} {db db' : Database} {job : JobRun} {u : Unit}

/-- **What a run recorded**: on another day nothing but the calendar; on a trading day the closes it
got and the status of its count. -/
theorem perform_ok (h : (job.perform marketDate).run db = .ok (u, db')) :
    (∃ sessionCloseAt calendar, job.answers.tradingDay = .ok (false, sessionCloseAt) ∧
      db' = { db with calendarCache := calendar }) ∨
    ∃ sessionCloseAt securityIds calendar row,
      job.answers.tradingDay = .ok (true, sessionCloseAt) ∧
      securitiesWithPositions db marketDate = .ok securityIds ∧
      row.marketDate = marketDate ∧
      (row.status = .complete ↔
        ∀ s ∈ securityIds, IsAnswered db job.env job.answers marketDate s) ∧
      db' = { withCloses db (securityIds.filterMap
          (answeredClose db job.env job.answers marketDate)) with
        calendarCache := calendar, valuationRuns := db.valuationRuns.upsert row } := by
  simp only [JobRun.perform, dailyValuation, bind_ok, lift_ok, upsertCalendarDay_ok] at h
  obtain ⟨⟨isTradingDay, sessionCloseAt⟩, _, ⟨hday, rfl⟩, _, _, rfl, h⟩ := h
  rw [whenever] at h
  split_ifs at h with htrading
  · refine Or.inr ?_
    simp only at htrading
    subst htrading
    simp only [bind_ok, read_ok, upsertValuationRun_ok] at h
    obtain ⟨securityIds, _, ⟨hids, rfl⟩, confirmed, mid, hrecord, rfl⟩ := h
    have hcount := recordCloses_count hrecord
    obtain rfl := recordCloses_ok hrecord
    refine ⟨sessionCloseAt, securityIds, _, _, hday, hids, rfl, ?_, rfl⟩
    have hall : _ ↔ ∀ s ∈ securityIds, IsAnswered db job.env job.answers marketDate s :=
      List.filterMap_length_eq_length (f := answeredClose db job.env job.answers marketDate)
    rw [← hall]
    have hcount' : confirmed =
        (securityIds.filterMap (answeredClose db job.env job.answers marketDate)).length :=
      hcount.trans (Nat.zero_add _)
    rw [← hcount']
    dsimp only
    split_ifs with hsame <;> simp [hsame]
  · obtain ⟨-, rfl⟩ := pure_ok.mp h
    cases isTradingDay with
    | false => exact Or.inl ⟨sessionCloseAt, _, hday, rfl⟩
    | true => exact absurd rfl htrading

theorem booksComplete_iff {securityIds : List Uuid}
    (hperform : (job.perform marketDate).run db = .ok (u, db'))
    {calendar : Table MarketCalendarDay.day} {runs : Table ValuationRun.marketDate}
    (hdb' : db' = { withCloses db (securityIds.filterMap
          (answeredClose db job.env job.answers marketDate)) with
        calendarCache := calendar, valuationRuns := runs }) :
    BooksComplete db' marketDate ↔
      ∀ c s, IsValued marketDate db job c → ¬ IsMissed marketDate db job securityIds c s := by
  have hafter : atomically (job.perform marketDate) db = db' := atomically_of_ok hperform
  have hunits : ∀ c s, ledgerUnits db' c marketDate s = ledgerUnits db c marketDate s := fun c s => by
    rw [hdb']
    rfl
  have hclose : ∀ s, latestConfirmed db' s marketDate = none ↔
      latestConfirmed db s marketDate = none ∧
        (s ∈ securityIds → ¬ IsAnswered db job.env job.answers marketDate s) := fun s => by
    rw [← latestConfirmed_after, hdb']
    rfl
  unfold BooksComplete IsValued IsMissed
  rw [hafter]
  constructor
  · rintro h c s ⟨book, hbook⟩ ⟨hne, hmissing⟩
    obtain ⟨_, -, -, hincomplete⟩ := valueBook_ok hbook
    have hflag : book.isPartial = true :=
      hincomplete.mpr ⟨s, (hunits c s).symm ▸ hne, (hclose s).mpr hmissing⟩
    rw [h c book hbook] at hflag
    cases hflag
  · intro h c book hbook
    obtain ⟨_, -, -, hincomplete⟩ := valueBook_ok hbook
    by_contra hflag
    obtain ⟨s, hne, hmissing⟩ := hincomplete.mp (by simpa using hflag)
    exact h c s ⟨book, hbook⟩ ⟨hunits c s ▸ hne, (hclose s).mp hmissing⟩

/-- **Who is valued after a run**, by the amounts before it: the cash and the positions of the ledger
fit, and so do the market values at the closes on record and at those the run got. -/
theorem isValued_iff {securityIds : List Uuid} {customerId : Uuid}
    (hperform : (job.perform marketDate).run db = .ok (u, db'))
    {calendar : Table MarketCalendarDay.day} {runs : Table ValuationRun.marketDate}
    (hdb' : db' = { withCloses db (securityIds.filterMap
          (answeredClose db job.env job.answers marketDate)) with
        calendarCache := calendar, valuationRuns := runs }) :
    IsValued marketDate db job customerId ↔
      |ledgerCash db customerId marketDate| < 10 ^ 18 ∧
        (∀ s, |ledgerUnits db customerId marketDate s| < 10 ^ 28) ∧
        ∀ positions, positionUnits db customerId marketDate = .ok positions →
          AmountsFit (withCloses db (securityIds.filterMap
            (answeredClose db job.env job.answers marketDate))) marketDate positions
            (ledgerCash db customerId marketDate) := by
  set closed := withCloses db (securityIds.filterMap
    (answeredClose db job.env job.answers marketDate)) with hclosed
  have hbook : SameBook closed db' customerId marketDate := by
    rw [hdb']
    exact ⟨rfl, fun _ _ => rfl, fun _ => rfl⟩
  have hcash : ledgerCash closed customerId marketDate = ledgerCash db customerId marketDate := rfl
  have hpositions : positionUnits closed customerId marketDate =
      positionUnits db customerId marketDate := rfl
  unfold IsValued
  rw [atomically_of_ok hperform, valueBook_congr hbook, valueBook_returns, hcash, hpositions,
    ← positionUnits_returns]
  refine and_congr_right fun _ => ?_
  constructor
  · rintro ⟨positions, hlisted, hfit⟩
    refine ⟨⟨positions, hlisted⟩, fun positions' hlisted' => ?_⟩
    rwa [← Except.ok.inj (hlisted.symm.trans hlisted')]
  · rintro ⟨⟨positions, hlisted⟩, hfit⟩
    exact ⟨positions, hlisted, hfit positions hlisted⟩

/-- **One run**: its status says whether the books are complete exactly when it counts what they
miss. -/
theorem statusAgrees_atomically (hbefore : StatusAgrees marketDate db) :
    StatusAgrees marketDate (atomically (job.perform marketDate) db) ↔
      CountsBooks marketDate db job := by
  rcases atomically_cases (job.perform marketDate) db with ⟨_, db', hrun, hafter⟩ | ⟨e, hrun, hafter⟩
  · have hok : ((job.perform marketDate).run db).isOk := by rw [hrun]; rfl
    rw [hafter]
    rcases perform_ok hrun with ⟨sessionCloseAt, calendar, hday, rfl⟩ |
      ⟨sessionCloseAt, securityIds, calendar, row, hday, hids, hdate, hstatus, hdb'⟩
    · have hbooks : BooksComplete { db with calendarCache := calendar } marketDate ↔
          BooksComplete db marketDate := by
        have hbook : ∀ c, SameBook db { db with calendarCache := calendar } c marketDate := fun c =>
          ⟨rfl, fun _ _ => rfl, fun _ => rfl⟩
        unfold BooksComplete
        simp only [fun c => valueBook_congr (hbook c)]
      refine ⟨fun _ _ sessionCloseAt' securityIds hday' => ?_, fun _ row hrow hdate => ?_⟩
      · rw [hday] at hday'
        cases hday'
      · rw [hbooks]
        exact hbefore row hrow hdate
    · have hbooks := booksComplete_iff hrun hdb'
      have hagrees : StatusAgrees marketDate db' ↔
          (row.status = .complete ↔ BooksComplete db' marketDate) := by
        have hrows : ∀ row', (row' ∈ db'.valuationRuns ∧ row'.marketDate = row.marketDate) ↔
            row' = row := fun row' => by
          rw [hdb']
          exact Table.mem_upsert_of_key
        unfold StatusAgrees
        constructor
        · intro h
          exact h row ((hrows row).mpr rfl).1 hdate
        · intro h row' hmem hdate'
          rw [(hrows row').mp ⟨hmem, hdate'.trans hdate.symm⟩]
          exact h
      rw [hagrees, hstatus, hbooks]
      unfold CountsBooks
      constructor
      · intro h _ sessionCloseAt' securityIds' hday' hids'
        rw [hids] at hids'
        cases hids'
        by_cases hall : ∀ s ∈ securityIds, IsAnswered db job.env job.answers marketDate s
        · exact Or.inl ⟨hall, h.mp hall⟩
        · refine Or.inr ⟨by simpa using hall, ?_⟩
          by_contra hnone
          refine hall (h.mpr fun c s hvalued hmissed => hnone ⟨c, s, hvalued, hmissed⟩)
      · intro h
        rcases h hok sessionCloseAt securityIds hday hids with
          ⟨hall, hnone⟩ | ⟨⟨s, hs, hunanswered⟩, c, s', hvalued, hmissed⟩
        · exact ⟨fun _ => hnone, fun _ => hall⟩
        · exact ⟨fun hall => absurd (hall s hs) hunanswered,
            fun hnone => absurd hmissed (hnone c s' hvalued)⟩
  · rw [hafter]
    refine ⟨fun _ hok => ?_, fun _ => hbefore⟩
    rw [hrun] at hok
    cases hok

end Run

/-- **The status of the valuation runs of a day**: it says after every run whether the books are
complete exactly when every run counts what they miss. -/
theorem status_agrees_iff (db : Database) (marketDate : Date)
    (hfirst : ∀ row ∈ db.valuationRuns, row.marketDate ≠ marketDate) (jobs : List JobRun) :
    RunMeets (JobRun.perform marketDate)
        (fun db job => StatusAgrees marketDate (atomically (job.perform marketDate) db)) jobs db ↔
      RunMeets (JobRun.perform marketDate) (CountsBooks marketDate) jobs db :=
  runMeets_after_iff (fun _ _ hbefore => statusAgrees_atomically hbefore)
    fun row hrow hdate => absurd hdate (hfirst row hrow)

theorem exists_posting_of_ledgerUnits {db : Database} {customerId securityId : Uuid} {day : Date}
    (h : ledgerUnits db customerId day securityId ≠ 0) :
    ∃ p ∈ db.postings, securityId ∈ p.account.securityId := by
  by_contra hnone
  refine h ?_
  unfold ledgerUnits
  rw [List.filter_eq_nil_iff.mpr fun p hp => ?_]
  · rfl
  · intro hsecurity
    exact hnone ⟨p, (List.mem_filter.mp hp).1, by simpa using hsecurity⟩

/-- A run that gets a close for every security of the ledger. -/
theorem countsBooks_of_answered {marketDate : Date} {db : Database} {job : JobRun}
    {securityIds : List Uuid} (hids : securitiesWithPositions db marketDate = .ok securityIds)
    (hall : ∀ s ∈ securityIds, IsAnswered db job.env job.answers marketDate s)
    (hledger : ∀ p ∈ db.postings, ∀ s ∈ p.account.securityId, s ∈ securityIds) :
    CountsBooks marketDate db job := by
  intro _ sessionCloseAt securityIds' _ hids'
  rw [hids] at hids'
  cases hids'
  refine Or.inl ⟨hall, fun c s _ hmissed => ?_⟩
  obtain ⟨p, hp, hs⟩ := exists_posting_of_ledgerUnits hmissed.1
  have hmem := hledger p hp s hs
  exact hmissed.2.2 hmem (hall s hmem)

/-- Ten shares, and no close on record yet. -/
def unpricedAccount : Database := { grownAccount with
  securities := ⟨[⟨7, "VTI"⟩], by decide⟩, dailyCloses := [] }

/-- A run of the job, with the close of the one security or without it. -/
def jobAt (t : ℕ) (close : Option Price) : JobRun where
  env := envAt t t
  answers := { tradingDay := .ok (true, some t), getClose := fun _ => .ok close }

/-- What a run with a close and one without leave. -/
def rerun : Database := runs (JobRun.perform 1)
  [jobAt 10 (some (dollarsPerShare 100)), jobAt 20 none] unpricedAccount

/-- Two runs that get a close each. -/
theorem status_agrees_iff_twice :
    (∀ row ∈ unpricedAccount.valuationRuns, row.marketDate ≠ 1) ∧
      RunMeets (JobRun.perform 1)
        (fun db job => StatusAgrees 1 (atomically (job.perform 1) db))
        [jobAt 10 (some (dollarsPerShare 100)), jobAt 20 (some (dollarsPerShare 101))]
        unpricedAccount := by
  have hfirst : ∀ row ∈ unpricedAccount.valuationRuns, row.marketDate ≠ 1 := by
    intro row hrow
    cases hrow
  refine ⟨hfirst, (status_agrees_iff unpricedAccount 1 hfirst _).mpr ⟨?_, ?_, trivial⟩⟩
  · have hids : securitiesWithPositions unpricedAccount 1 = .ok [7] := by decide +kernel
    exact countsBooks_of_answered hids (by decide) (by decide)
  · have hids : securitiesWithPositions (atomically ((jobAt 10 (some (dollarsPerShare 100))).perform
        1) unpricedAccount) 1 = .ok [7] := by decide +kernel
    exact countsBooks_of_answered hids (by decide +kernel) (by decide +kernel)

/-- **A run that is repeated**: the second time the port has no close, and the run is partial, though
the first close is on record and every book is complete. -/
theorem status_disagrees_rerun : ¬ ∀ (db : Database) (marketDate : Date),
    (∀ row ∈ db.valuationRuns, row.marketDate ≠ marketDate) → ∀ jobs : List JobRun,
      RunMeets (JobRun.perform marketDate)
        (fun db job => StatusAgrees marketDate (atomically (job.perform marketDate) db)) jobs db := by
  intro h
  obtain ⟨-, hagain, -⟩ := h unpricedAccount 1 (fun row hrow => by cases hrow)
    [jobAt 10 (some (dollarsPerShare 100)), jobAt 20 none]
  have hrow : ∃ row ∈ rerun.valuationRuns.rows, row.marketDate = 1 ∧ row.status = .partialRun := by
    decide +kernel
  obtain ⟨row, hmem, hdate, hstatus⟩ := hrow
  have hcomplete : BooksComplete rerun 1 := by
    intro c book hbook
    obtain ⟨-, -, -, hincomplete⟩ := valueBook_ok hbook
    by_contra hflag
    obtain ⟨s, hne, hmissing⟩ := hincomplete.mp (by simpa using hflag)
    obtain ⟨p, hp, hs⟩ := exists_posting_of_ledgerUnits hne
    have hheld : ∀ p ∈ rerun.postings, ∀ s ∈ p.account.securityId, s = 7 := by decide +kernel
    obtain rfl := hheld p hp s hs
    exact absurd hmissing (by decide +kernel)
  have hsame := (hagain row hmem hdate).mpr hcomplete
  rw [hstatus] at hsame
  cases hsame

end Trueup.Restatement
