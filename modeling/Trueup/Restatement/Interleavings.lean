import Trueup.Models.OpenedAccount
import Trueup.Reporting
import Trueup.Restatement.Interleaved

/-! # A publication among other transactions

What `publish` saw of `sub_period_return`, and what a later `derive` sees up to the watermark, when
transactions are interleaved statement by statement.

* `publish_looked`: a publication that has committed has looked at every window it cut its period
  into.
* `watermark_stable_iff`: a later `derive` that cuts the period into the same windows sees the rows
  the publication saw, exactly when no transaction that started by the watermark committed a row of
  one of the windows after the publication had looked at it. -/

namespace Trueup.Restatement.Interleaved

open Trueup.Core Trueup.Models Trueup.Lib Trueup.Lib.Transaction Trueup.Lib.ReadCommitted
open Trueup.Lib.ReadCommitted.Statements Trueup.Valuation

/-- The windows `derive` walks through. -/
def windowsOf (db : Database) (customerId : Uuid) (periodStart periodEnd : Date) : List Window :=
  (pairwise (boundaries db customerId periodStart periodEnd)).map fun w => (customerId, w.1, w.2)

/-- The rows `derive` chooses from as of the watermark. -/
def derivedRows (db : Database) (customerId : Uuid) (periodStart periodEnd : Date)
    (cutoff : Instant) : List SubPeriodReturn :=
  (windowsOf db customerId periodStart periodEnd).flatMap fun window =>
    (returnLog.ofKey window db).filter (·.recordedAt ≤ cutoff)

/-- The rows a transaction has seen up to its own stamp, at the windows it has looked at. -/
def sawRows (session : Session Error returnLog) : List SubPeriodReturn :=
  (session.looked.map (·.1)).flatMap fun window =>
    (session.saw window).filter (·.recordedAt ≤ session.start)

/-! ### Where a publication looks -/

section Looked
variable {env : Env}

theorem quiet_compute {α : Type} (x : Except Error α) : (compute env x).Quiet := quiet_query _

theorem quiet_addPositions (asOfDate : Date) : ∀ positions book,
    (addPositions env asOfDate positions book).Quiet
  | [], book => quiet_pure _
  | (securityId, units) :: positions, book => by
    unfold addPositions
    split_ifs
    · exact quiet_addPositions asOfDate positions book
    · refine quiet_bind (quiet_query _) fun close => ?_
      cases close with
      | none => exact quiet_addPositions asOfDate positions _
      | some close =>
        exact quiet_bind (quiet_compute _) fun _ => quiet_bind (quiet_compute _) fun _ =>
          quiet_addPositions asOfDate positions _

theorem quiet_valueBook (customerId : Uuid) (asOfDate : Date) :
    (valueBook env customerId asOfDate).Quiet :=
  quiet_bind (quiet_query _) fun _ => quiet_bind (quiet_query _) fun _ => quiet_addPositions _ _ _

theorem quiet_currentSubPeriod (customerId : Uuid) (vBegin vEnd : Date) :
    (currentSubPeriod env customerId vBegin vEnd).Quiet :=
  quiet_bind (quiet_valueBook _ _) fun _ => quiet_bind (quiet_valueBook _ _) fun _ =>
    quiet_bind (quiet_query _) fun _ => quiet_bind (quiet_compute _) fun _ => quiet_pure _

theorem quiet_holdings (asOfDate : Date) : ∀ positions, (holdings env asOfDate positions).Quiet
  | [] => quiet_pure _
  | _ :: positions => quiet_bind (quiet_query _) fun _ => quiet_bind (quiet_query _) fun _ =>
    quiet_bind (quiet_holdings asOfDate positions) fun _ => quiet_pure _

theorem looks_subPeriodReturn (customerId : Uuid) (vBegin vEnd : Date) (ks : List Window) :
    (subPeriodReturn env customerId vBegin vEnd).Looks
      (fun _ ks' => ks' = ks ++ [(customerId, vBegin, vEnd)]) ks := by
  unfold subPeriodReturn
  refine (quiet_currentSubPeriod _ _ _).bind fun row => fun rows => ?_
  dsimp only [Statements.bind]
  split
  · rfl
  · exact (quiet_execute _).bind fun _ => rfl

theorem looks_subPeriodReturns (customerId : Uuid) : ∀ windows (ks : List Window),
    (subPeriodReturns env customerId windows).Looks
      (fun _ ks' => ks' = ks ++ windows.map fun w => (customerId, w.1, w.2)) ks
  | [], ks => (List.append_nil ks).symm
  | (vBegin, vEnd) :: windows, ks => by
    refine looks_bind (fun row ks' hks => ?_) _ (looks_subPeriodReturn customerId vBegin vEnd ks)
    subst hks
    refine looks_bind (fun rows ks' hks => ?_) _ (looks_subPeriodReturns customerId windows _)
    rw [hks]
    exact List.append_assoc ..

theorem looks_publish (customerId : Uuid) (periodStart periodEnd : Date) :
    (publish env customerId periodStart periodEnd).Looks
      (fun _ ks => ∃ db, ks = windowsOf db customerId periodStart periodEnd) [] := by
  refine looks_bind (P := fun _ ks => ∃ db, ks = windowsOf db customerId periodStart periodEnd)
    (fun figures ks hks => ?_) _ ?_
  · exact (quiet_query _).bind fun positions => (quiet_holdings _ _).bind fun holdings =>
      (quiet_execute _).bind fun _ => hks
  · refine looks_bind (fun days ks hdays => ?_) _ (looks_query _ [])
    obtain ⟨rfl, db, hdays⟩ := hdays
    cases hdays
    refine looks_bind (fun rows ks hks => ?_) _ (looks_subPeriodReturns customerId _ [])
    exact (quiet_compute _).bind fun _ => ⟨db, hks⟩

end Looked

/-! ### Later derivations -/

section Stable
variable {ι : Type} [DecidableEq ι] {env : Env} {customerId : Uuid} {periodStart periodEnd : Date}
  {st : State ι Error returnLog} {p d : ι}

/-- The transaction of a publication. -/
def publication (env : Env) (customerId : Uuid) (periodStart periodEnd : Date) :
    Session Error returnLog :=
  .begin (do
    let _ ← publish env customerId periodStart periodEnd : Stmts env Unit)

/-- A publication that has committed has looked at the windows of its period. -/
theorem publish_looked (hp : st.sessions p = publication env customerId periodStart periodEnd)
    (schedule : List ι) (hcommitted : ((run st schedule).sessions p).phase = .committed) :
    ∃ db, ((run st schedule).sessions p).looked.map (·.1) =
      windowsOf db customerId periodStart periodEnd := by
  refine looked_of_committed
    (P := fun ks => ∃ db, ks = windowsOf db customerId periodStart periodEnd) ?_ schedule hcommitted
  rw [hp]
  refine ⟨fun _ => ?_, fun hphase => by cases hphase⟩
  exact looks_bind (fun _ _ hks => hks) _ (looks_publish customerId periodStart periodEnd)

theorem mem_derivedRows {db : Database} {cutoff : Instant} {row : SubPeriodReturn} :
    row ∈ derivedRows db customerId periodStart periodEnd cutoff ↔
      returnLog.key row ∈ windowsOf db customerId periodStart periodEnd ∧
        row.recordedAt ≤ cutoff ∧ row ∈ returnLog.rows db := by
  simp only [derivedRows, Log.ofKey, List.mem_flatMap, List.mem_filter, decide_eq_true_eq]
  constructor
  · rintro ⟨window, hwindow, ⟨hrow, rfl⟩, htime⟩
    exact ⟨hwindow, htime, hrow⟩
  · rintro ⟨hwindow, htime, hrow⟩
    exact ⟨_, hwindow, ⟨hrow, rfl⟩, htime⟩

theorem mem_sawRows {session : Session Error returnLog} {base : Database}
    (h : Known session base) {row : SubPeriodReturn} :
    row ∈ sawRows session ↔ session.LookedAt (returnLog.key row) ∧
      row.recordedAt ≤ session.start ∧ row ∈ session.saw (returnLog.key row) := by
  simp only [sawRows, List.mem_flatMap, List.mem_filter, decide_eq_true_eq]
  constructor
  · rintro ⟨window, hwindow, hrow, htime⟩
    obtain rfl := h.key_eq hwindow hrow
    exact ⟨hwindow, htime, hrow⟩
  · rintro ⟨hwindow, htime, hrow⟩
    exact ⟨_, hwindow, hrow, htime⟩

/-- **The rows up to a watermark stay the same.** A `derive` in any transaction `d`, at any time
after the publication `p` has committed, that walks through the windows `p` has looked at, sees up
to the watermark the rows `p` saw, exactly when

* no other transaction that started by the watermark committed a row of one of the windows after `p`
  had looked at it, and
* `d` itself has not written such a row. -/
theorem watermark_stable_iff
    (hp : st.sessions p = publication env customerId periodStart periodEnd) (schedule : List ι)
    (hcommitted : ((run st schedule).sessions p).phase = .committed) {db : Database}
    (hvisible : ((run st schedule).sessions d).visible (run st schedule).base = .ok db)
    (hwindows : windowsOf db customerId periodStart periodEnd =
      ((run st schedule).sessions p).looked.map (·.1)) :
    (∀ row, row ∈ derivedRows db customerId periodStart periodEnd env.transactionStart ↔
        row ∈ sawRows ((run st schedule).sessions p)) ↔
      Meets (fun st i => ¬ LateCommit p st i) schedule st ∧
        ∀ row ∈ ((run st schedule).sessions d).own.rows,
          returnLog.key row ∈ windowsOf db customerId periodStart periodEnd →
            ¬ row.recordedAt ≤ env.transactionStart := by
  have hidle : Idle (st.sessions p) := by
    rw [hp]
    exact ⟨rfl, rfl⟩
  have hstart : (st.sessions p).start = env.transactionStart := by rw [hp]; rfl
  have hlooked : ∀ window, window ∈ windowsOf db customerId periodStart periodEnd ↔
      ((run st schedule).sessions p).LookedAt window := fun window => by rw [hwindows]; rfl
  have hsame := sees_same_iff hidle schedule hcommitted hvisible
  simp only [hstart] at hsame
  simp only [mem_derivedRows, mem_sawRows (hidle.known_run schedule), run_start, hstart, hlooked,
    and_congr_right_iff]
  exact hsame

end Stable

/-- A deposit and a buy, the closes of two days, and the computed return of the first. -/
def computedDay : Database := Reporting.run [
  ⟨envAt 1 1, .application (.initiateDeposit 1 (dollars 100))⟩,
  ⟨envAt 2 2, .lots (.buyFill openedClock ⟨1, 7, "b1", shares 1, dollarsPerShare 10, ⟨2, true⟩⟩)⟩,
  ⟨envAt 3 3, .injectCorrectedPrice 7 0 (dollarsPerShare 10)⟩,
  ⟨envAt 86400000000 4, .injectCorrectedPrice 7 1 (dollarsPerShare 12)⟩,
  ⟨envAt 86400000001 5, .computeTwr 1 0 1⟩] (openedAccount 1)

/-- A correction of the second close, a publication of the first day that starts one microsecond
later, and a derivation of what was published. -/
def correctionAndPublication : State (Fin 3) Error returnLog where
  base := computedDay
  sessions
    | 0 => .begin (injectCorrectedPrice (envAt 86400000002 6) 7 1 (dollarsPerShare 15))
    | 1 => publication (envAt 86400000003 7) 1 0 1
    | 2 => .begin (do
      let _ ← derive (envAt 86400000004 8) 1 0 1 86400000003 : Stmts (envAt 86400000004 8) Unit)

/-- The correction commits, then the publication runs. -/
def correctionFirst : List (Fin 3) := List.replicate 20 0 ++ List.replicate 20 1

theorem watermark_stable_correction_first :
    ((run correctionAndPublication correctionFirst).sessions 1).phase = .committed ∧
      ∀ row, row ∈ derivedRows (run correctionAndPublication correctionFirst).base 1 0 1
          (envAt 86400000003 7).transactionStart ↔
        row ∈ sawRows ((run correctionAndPublication correctionFirst).sessions 1) := by
  have hreader : (run correctionAndPublication correctionFirst).sessions 2 =
      correctionAndPublication.sessions 2 := run_other _ (by decide)
  have hcommitted : ((run correctionAndPublication correctionFirst).sessions 1).phase =
      .committed := by decide +kernel
  have hvisible : ((run correctionAndPublication correctionFirst).sessions 2).visible
      (run correctionAndPublication correctionFirst).base =
        .ok (run correctionAndPublication correctionFirst).base := by
    rw [hreader]
    rfl
  have hstable := watermark_stable_iff (p := 1) rfl correctionFirst hcommitted hvisible
    (by decide +kernel)
  refine ⟨hcommitted, hstable.mpr ⟨by decide +kernel, ?_⟩⟩
  rw [hreader]
  intro row hrow
  cases hrow

/-- The correction is about to commit when the publication begins, and commits when that has. -/
def correctionLast : List (Fin 3) := List.replicate 19 0 ++ List.replicate 20 1 ++ [0]

/-- **A correction that commits late fails the check of the published snapshot**: its row is stamped
before the watermark, and the publication has not seen it. -/
theorem late_correction_fails_check :
    ((run correctionAndPublication correctionLast).sessions 1).phase = .committed ∧
      (∃ row ∈ derivedRows (run correctionAndPublication correctionLast).base 1 0 1 86400000003,
        row ∉ sawRows ((run correctionAndPublication correctionLast).sessions 1)) ∧
      ∃ snapshot ∈ (run correctionAndPublication correctionLast).base.publishedSnapshots,
        snapshot.publishWatermark = 86400000003 ∧
          Restatement.crossCheck (run correctionAndPublication correctionLast).base snapshot =
            .error .snapshotCrossCheckFailed :=
  ⟨by decide +kernel, by decide +kernel, by decide +kernel⟩

end Trueup.Restatement.Interleaved
