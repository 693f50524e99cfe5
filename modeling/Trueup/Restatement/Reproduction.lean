import Trueup.Models.OpenedAccount
import Trueup.Restatement.Growth

/-! # Published figures reproduce

`cross_check` of a published snapshot, at any later time of a serial run whose transactions start
one after the other.

* `crossCheck_of_grown`: a transaction that started after the watermark of a snapshot, and posted no
  external flow strictly inside its period, does not change what `cross_check` reads: the windows
  are the same, and the rows it stored are too late for the watermark.
* `subPeriodReturns_rowsAsOf`: what `publish` linked is what `derive` finds as of the watermark.
* `published_figures_reproduce`: therefore `cross_check` succeeds for every snapshot, for ever. -/

namespace Trueup.Restatement

open Trueup.Core Trueup.Models Trueup.Lib Trueup.Lib.Transaction Trueup.Ledger Trueup.Valuation
open Trueup.Lots Trueup.Reporting

/-- No external flow that is new in `db'` is dated strictly inside a period that is published in
`db` for its customer. -/
def FlowsOutside (db db' : Database) : Prop :=
  ∀ snapshot ∈ db.publishedSnapshots, ∀ p ∈ db'.postings,
    p.account.customerId = some snapshot.customerId → ¬ db.journalEntries.Has p.journalEntryId →
    ∀ entry ∈ db'.journalEntries.find p.journalEntryId, isExternalFlow entry →
      ¬ (snapshot.periodStart < entry.effectiveDate ∧ entry.effectiveDate < snapshot.periodEnd)

instance (db db' : Database) : Decidable (FlowsOutside db db') := by
  unfold FlowsOutside; infer_instance

/-- The step posts no external flow strictly inside a period that is already published. -/
def flowsOutsidePublished (db : Database) (step : Step) : Prop :=
  FlowsOutside db (atomically (body step) db)

instance (db : Database) (step : Step) : Decidable (flowsOutsidePublished db step) := by
  unfold flowsOutsidePublished; infer_instance

/-- Nothing has been computed or published yet. -/
structure Unpublished (db : Database) : Prop where
  postings : PostingsKnown db
  returns : db.subPeriodReturns = ∅
  snapshots : db.publishedSnapshots = []

/-! ### What a later transaction leaves alone -/

section Grown
variable {start : Instant} {db₀ db : Database} (h : Grown start db₀ db)
include h

theorem Grown.find {id : Uuid} (hid : db₀.journalEntries.Has id) :
    db.journalEntries.find id = db₀.journalEntries.find id := by
  obtain ⟨entry, hentry, rfl⟩ := Table.has_iff.mp hid
  rw [Table.find_eq_some.mpr ⟨hentry, rfl⟩, Table.find_eq_some.mpr ⟨h.entries entry hentry, rfl⟩]

theorem Grown.postingsKnown (hknown : PostingsKnown db₀) : PostingsKnown db := by
  intro p hp
  rcases h.newPostings p hp with hold | ⟨hnew, -⟩
  · obtain ⟨entry, hentry, hid⟩ := Table.has_iff.mp (hknown p hold)
    exact Table.has_iff.mpr ⟨entry, h.entries entry hentry, hid⟩
  · exact hnew

/-- The flow dates of a published period stay as they are. -/
theorem Grown.flowDates (hknown : PostingsKnown db₀) (hflows : FlowsOutside db₀ db)
    {snapshot : PublishedSnapshot} (hs : snapshot ∈ db₀.publishedSnapshots) (day : Date) :
    day ∈ flowDates db snapshot.customerId snapshot.periodStart snapshot.periodEnd ↔
      day ∈ flowDates db₀ snapshot.customerId snapshot.periodStart snapshot.periodEnd := by
  rw [mem_flowDates, mem_flowDates]
  constructor
  · rintro ⟨p, hp, hc, entry, hfind, hflow, hlo, hhi, hday⟩
    rcases h.newPostings p hp with hold | ⟨-, hnew⟩
    · rw [h.find (hknown p hold)] at hfind
      exact ⟨p, hold, hc, entry, hfind, hflow, hlo, hhi, hday⟩
    · exact absurd ⟨hlo, hhi⟩ (hflows snapshot hs p hp hc hnew entry hfind hflow)
  · rintro ⟨p, hp, hc, entry, hfind, hflow, hlo, hhi, hday⟩
    rw [← h.find (hknown p hp)] at hfind
    exact ⟨p, h.postings p hp, hc, entry, hfind, hflow, hlo, hhi, hday⟩

theorem Grown.asOf (customerId : Uuid) (vBegin vEnd : Date) {cutoff : Instant}
    (hcutoff : cutoff < start) : asOfForSubPeriod db customerId vBegin vEnd cutoff =
      asOfForSubPeriod db₀ customerId vBegin vEnd cutoff := by
  obtain ⟨rows, hrows, hat⟩ := h.returns
  rw [asOfForSubPeriod_eq, asOfForSubPeriod_eq]
  simp only [rowsOfWindow, hrows, List.filter_append]
  refine History.asOf_append fun row hrow => ?_
  rw [hat row (List.mem_of_mem_filter hrow)]
  exact hcutoff

theorem Grown.rowsAsOf (customerId : Uuid) {cutoff : Instant} (hcutoff : cutoff < start) :
    ∀ windows, rowsAsOf db customerId cutoff windows = rowsAsOf db₀ customerId cutoff windows
  | [] => rfl
  | (vBegin, vEnd) :: windows => by
    simp only [Restatement.rowsAsOf]
    rw [h.asOf customerId vBegin vEnd hcutoff, Grown.rowsAsOf customerId hcutoff windows]

/-- **A later transaction does not change what `cross_check` finds.** -/
theorem crossCheck_of_grown (hknown : PostingsKnown db₀) (hflows : FlowsOutside db₀ db)
    {snapshot : PublishedSnapshot} (hs : snapshot ∈ db₀.publishedSnapshots)
    (hcutoff : snapshot.publishWatermark < start) :
    crossCheck db snapshot = crossCheck db₀ snapshot := by
  have hwindows := boundaries_congr (h.flowDates hknown hflows hs)
  simp only [crossCheck, derive]
  rw [hwindows, h.rowsAsOf _ hcutoff]

end Grown

/-! ### What `publish` linked -/

theorem rowsAsOf_snapshots (db : Database) (snapshots : List PublishedSnapshot) (customerId : Uuid)
    (cutoff : Instant) : ∀ windows,
      rowsAsOf { db with publishedSnapshots := snapshots } customerId cutoff windows =
        rowsAsOf db customerId cutoff windows
  | [] => rfl
  | (vBegin, vEnd) :: windows => by
    simp only [rowsAsOf]
    rw [rowsAsOf_snapshots db snapshots customerId cutoff windows]
    rfl

theorem crossCheck_snapshots (db : Database) (snapshots : List PublishedSnapshot)
    (snapshot : PublishedSnapshot) :
    crossCheck { db with publishedSnapshots := snapshots } snapshot = crossCheck db snapshot := by
  simp only [crossCheck, derive]
  rw [rowsAsOf_snapshots]
  rfl

theorem subPeriodReturns_rowsOfWindow {env : Env} {customerId : Uuid} {a b : Date} :
    ∀ {windows : List (Date × Date)} {rows : List SubPeriodReturn} {db db' : Database},
      (subPeriodReturns env customerId windows).run db = .ok (rows, db') → (a, b) ∉ windows →
        rowsOfWindow db' customerId a b = rowsOfWindow db customerId a b
  | [], rows, db, db', h, _ => by
    obtain ⟨-, rfl⟩ := pure_ok.mp h
    rfl
  | (vBegin, vEnd) :: windows, rows, db, db', h, hnot => by
    simp only [subPeriodReturns, bind_ok, pure_ok] at h
    obtain ⟨row, mid, hrow, rest, _, hrest, -, rfl⟩ := h
    simp only [List.mem_cons, Prod.mk.injEq, not_or] at hnot
    rw [subPeriodReturns_rowsOfWindow hrest hnot.2,
      subPeriodReturn_rowsOfWindow hrow fun hw => hnot.1 hw.2]

/-- The rows `compute_twr` linked are the rows as of the start of its transaction. -/
theorem subPeriodReturns_rowsAsOf {env : Env} {customerId : Uuid} :
    ∀ {windows : List (Date × Date)} {rows : List SubPeriodReturn} {db db' : Database},
      (subPeriodReturns env customerId windows).run db = .ok (rows, db') → windows.Nodup →
      (∀ w ∈ windows, ∀ r ∈ rowsOfWindow db customerId w.1 w.2,
        r.recordedAt < env.transactionStart) →
      rowsAsOf db' customerId env.transactionStart windows = .ok rows
  | [], rows, db, db', h, _, _ => by
    obtain ⟨rfl, -⟩ := pure_ok.mp h
    rfl
  | (vBegin, vEnd) :: windows, rows, db, db', h, hnodup, hbefore => by
    simp only [subPeriodReturns, bind_ok, pure_ok] at h
    obtain ⟨row, mid, hrow, rest, last, hrest, rfl, rfl⟩ := h
    rw [List.nodup_cons] at hnodup
    have hfirst : asOfForSubPeriod last customerId vBegin vEnd env.transactionStart = some row := by
      have hmid := subPeriodReturn_asOf hrow (hbefore (vBegin, vEnd) (by simp))
      rw [asOfForSubPeriod_eq] at hmid ⊢
      rw [subPeriodReturns_rowsOfWindow hrest hnodup.1]
      exact hmid
    have hlater := subPeriodReturns_rowsAsOf hrest hnodup.2 fun w hw r hr => by
      refine hbefore w (by simp [hw]) r ?_
      rwa [subPeriodReturn_rowsOfWindow hrow] at hr
      rintro ⟨-, h1, h2⟩
      exact hnodup.1 (by rwa [← h1, ← h2])
    simp only [rowsAsOf, except_bind_ok]
    exact ⟨row, ofOption_ok.mpr hfirst, rest, hlater, rfl⟩

/-- **A snapshot passes its own check** when it is published, if nothing was recorded at or after
the start of its transaction before. -/
theorem crossCheck_of_publish {env : Env} {customerId : Uuid} {periodStart periodEnd : Date}
    {snapshot : PublishedSnapshot} {db db' : Database}
    (h : (publish env customerId periodStart periodEnd).run db = .ok (snapshot, db'))
    (hbefore : ∀ r ∈ db.subPeriodReturns, r.recordedAt < env.transactionStart) :
    crossCheck db' snapshot = .ok () := by
  obtain ⟨twr, rows, holdings, mid, hrun, -, rfl, rfl⟩ := publish_ok h
  have hdays : boundaries mid customerId periodStart periodEnd =
      boundaries db customerId periodStart periodEnd :=
    (frames_computeTwr (f := fun db => boundaries db customerId periodStart periodEnd)
      (fun _ _ => rfl) env customerId periodStart periodEnd).eq hrun
  obtain ⟨hrows, hlink⟩ := computeTwr_ok.mp hrun
  have hasOf := subPeriodReturns_rowsAsOf hrows
    (pairwise_nodup ((boundaries_sorted _ _ _ _).imp ne_of_lt))
    fun w _ r hr => hbefore r (mem_rowsOfWindow.mp hr).1
  have hderive : derive mid customerId periodStart periodEnd env.transactionStart =
      .ok (twr, (rows.getLast?.map (·.valueEnd)).getD 0) := by
    simp only [derive, except_bind_ok]
    exact ⟨rows, by rw [hdays]; exact hasOf, twr, hlink, rfl⟩
  rw [crossCheck_snapshots, crossCheck, except_bind_ok]
  exact ⟨_, hderive, check_ok.mpr ⟨rfl, rfl⟩⟩

/-! ### Runs -/

/-- The invariant of a run whose last transaction started at `t`: every snapshot passes its check,
and nothing was recorded or published after `t`. -/
structure Reproduces (t : Instant) (db : Database) : Prop where
  postings : PostingsKnown db
  returns : ∀ r ∈ db.subPeriodReturns, r.recordedAt ≤ t
  watermarks : ∀ s ∈ db.publishedSnapshots, s.publishWatermark ≤ t
  checks : ∀ s ∈ db.publishedSnapshots, crossCheck db s = .ok ()

theorem Reproduces.later {t t' : Instant} {db : Database} (h : Reproduces t db) (ht : t < t') :
    Reproduces t' db :=
  ⟨h.postings, fun r hr => (h.returns r hr).trans ht.le,
    fun s hs => (h.watermarks s hs).trans ht.le, h.checks⟩

theorem Unpublished.reproduces {db : Database} (h : Unpublished db) (t : Instant) :
    Reproduces t db where
  postings := h.postings
  returns r hr := by rw [h.returns] at hr; cases hr
  watermarks s hs := by rw [h.snapshots] at hs; cases hs
  checks s hs := by rw [h.snapshots] at hs; cases hs

theorem Reproduces.of_grown {t start : Instant} {db db' : Database} (h : Reproduces t db)
    (ht : t < start) (hgrown : Grown start db db') (hflows : FlowsOutside db db') :
    Reproduces start db' where
  postings := hgrown.postingsKnown h.postings
  returns r hr := by
    obtain ⟨rows, hrows, hat⟩ := hgrown.returns
    rw [Table.mem_iff, hrows, List.mem_append] at hr
    rcases hr with hold | hnew
    · exact (h.returns r hold).trans ht.le
    · exact (hat r hnew).le
  watermarks s hs := by
    rw [hgrown.snapshots] at hs
    exact (h.watermarks s hs).trans ht.le
  checks s hs := by
    rw [hgrown.snapshots] at hs
    rw [crossCheck_of_grown hgrown h.postings hflows hs ((h.watermarks s hs).trans_lt ht)]
    exact h.checks s hs

theorem Reproduces.step {t : Instant} {step : Step} {db db' : Database} {u : Unit}
    (ht : t < step.start) (h : Reproduces t db) (hflows : flowsOutsidePublished db step)
    (hrun : (body step).run db = .ok (u, db')) : Reproduces step.start db' := by
  rw [flowsOutsidePublished, atomically_of_ok hrun] at hflows
  by_cases hop : ∃ c a b, step.op = .publish c a b
  · obtain ⟨c, a, b, hop⟩ := hop
    simp only [body, hop] at hrun
    obtain ⟨snapshot, hpublish⟩ := System.discard_ok hrun
    have hcheck := crossCheck_of_publish hpublish fun r hr => (h.returns r hr).trans_lt ht
    obtain ⟨twr, rows, holdings, mid, hcompute, -, hsnapshot, rfl⟩ := publish_ok hpublish
    have hgrown := (grownEntries step.env db).toWrites.computeTwr c a b db _ mid (Grown.refl _ _) hcompute
    have hmid : Reproduces step.start mid := h.of_grown ht hgrown hflows
    refine ⟨hmid.postings, hmid.returns, fun s hs => ?_, fun s hs => ?_⟩
    · rcases List.mem_append.mp hs with hold | hnew
      · exact hmid.watermarks s hold
      · rw [List.mem_singleton.mp hnew, hsnapshot]
        exact le_rfl
    · rcases List.mem_append.mp hs with hold | hnew
      · rw [crossCheck_snapshots]
        exact hmid.checks s hold
      · rw [List.mem_singleton.mp hnew]
        exact hcheck
  · have hgrown : Grown step.env.transactionStart db db' :=
      grown_body step.op (fun c a b e => hop ⟨c, a, b, e⟩) db u db' (Grown.refl _ _) hrun
    exact h.of_grown ht hgrown hflows

theorem keeps_snapshot (snapshot : PublishedSnapshot) (step : Step) :
    Keeps (fun db => snapshot ∈ db.publishedSnapshots) (body step) := by
  intro db u db' hs hrun
  by_cases hop : ∃ c a b, step.op = .publish c a b
  · obtain ⟨c, a, b, hop⟩ := hop
    simp only [body, hop] at hrun
    obtain ⟨new, hpublish⟩ := System.discard_ok hrun
    obtain ⟨twr, rows, holdings, mid, hcompute, -, -, rfl⟩ := publish_ok hpublish
    have hgrown := (grownEntries step.env db).toWrites.computeTwr c a b db _ mid (Grown.refl _ _) hcompute
    exact List.mem_append_left _ (hgrown.snapshots ▸ hs)
  · have hgrown : Grown step.env.transactionStart db db' :=
      grown_body step.op (fun c a b e => hop ⟨c, a, b, e⟩) db u db' (Grown.refl _ _) hrun
    rw [hgrown.snapshots]
    exact hs

/-- **Published figures reproduce.** In a serial run with increasing transaction starts, in which no
deposit or withdrawal is dated strictly inside a period already published, `cross_check` succeeds
for every published snapshot at every later point. -/
theorem published_figures_reproduce {db₀ : Database} (hinit : Unpublished db₀)
    (before after : List Step)
    (htimes : (before ++ after).Pairwise fun step step' => step.start < step'.start)
    (hflows : RunMeets body flowsOutsidePublished (before ++ after) db₀)
    {snapshot : PublishedSnapshot} (hs : snapshot ∈ (run before db₀).publishedSnapshots) :
    crossCheck (run (before ++ after) db₀) snapshot = .ok () := by
  have hlater : snapshot ∈ (run (before ++ after) db₀).publishedSnapshots := by
    rw [run, runs_append]
    exact runs_keeps after (fun step _ => keeps_snapshot snapshot step) hs
  obtain ⟨t, ht⟩ : ∃ t, ∀ step ∈ before ++ after, t < step.start := by
    cases hsteps : before ++ after with
    | nil => exact ⟨0, by simp⟩
    | cons step steps =>
      rw [hsteps, List.pairwise_cons] at htimes
      refine ⟨step.start - 1, fun step' hmem => ?_⟩
      rcases List.mem_cons.mp hmem with rfl | hrest
      · exact sub_one_lt _
      · exact (sub_one_lt _).trans (htimes.1 step' hrest)
  obtain ⟨t', hreproduces⟩ : ∃ t', Reproduces t' (run (before ++ after) db₀) :=
    runs_keeps_of_times (fun t t' db ht h => h.later ht)
      (fun t db step u db' ht h hf hrun => h.step ht hf hrun) (before ++ after)
      (hinit.reproduces t) ht htimes hflows
  exact hreproduces.checks snapshot hlater

/-- A deposit and a buy, two closes, and the publication of the first day. -/
def publishedDay : List Step :=
  [⟨envAt 1 1, .application (.initiateDeposit 1 (dollars 100))⟩,
    ⟨envAt 2 2, .lots (.buyFill openedClock ⟨1, 7, "b1", shares 1, dollarsPerShare 10, ⟨2, true⟩⟩)⟩,
    ⟨envAt 3 3, .injectCorrectedPrice 7 0 (dollarsPerShare 10)⟩,
    ⟨envAt 86400000000 4, .injectCorrectedPrice 7 1 (dollarsPerShare 12)⟩,
    ⟨envAt 86400000001 5, .publish 1 0 1⟩]

/-- A corrected close of the published day, another publication and another deposit. -/
def correctedDay : List Step :=
  [⟨envAt 172800000000 6, .injectCorrectedPrice 7 1 (dollarsPerShare 15)⟩,
    ⟨envAt 172800000001 7, .publish 1 0 1⟩,
    ⟨envAt 172800000002 8, .application (.initiateDeposit 1 (dollars 50))⟩]

theorem published_figures_reproduce_corrected_close :
    (run publishedDay (openedAccount 1)).publishedSnapshots.length = 1 ∧
      ∀ snapshot ∈ (run publishedDay (openedAccount 1)).publishedSnapshots,
        crossCheck (run (publishedDay ++ correctedDay) (openedAccount 1)) snapshot = .ok () :=
  ⟨by decide +kernel, fun _ hs => published_figures_reproduce
    ⟨by simp [PostingsKnown, openedAccount], rfl, rfl⟩ publishedDay correctedDay (by decide)
    (by decide +kernel) hs⟩

end Trueup.Restatement
