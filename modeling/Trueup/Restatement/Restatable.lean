import Trueup.Lib.Deciding
import Trueup.Restatement.Completeness
import Trueup.Restatement.Disclosures

/-! # When a restatement goes through

A restatement recomputes the stored windows around its date, links the published periods around it
again and checks them against their watermarks. Everything it reads is known before it begins: it
leaves the ledger and the closes, and adds to the rows of a window at most one row, with the figures
of now (`Recomputing`).

* `decides_subPeriodReturn`: a recomputation goes through when the figures of its window fit
  (`Computes`).
* `decides_computeTwr`: and the linked return of a period when its windows do, and it fits itself
  (`Relinks`).
* `restate_isOk_iff`: without a checker a restatement goes through exactly when both hold of what it
  recomputes, and the published figures are those as of their watermarks (`Restatable`). -/

namespace Trueup.Restatement

open Trueup.Core Trueup.Models Trueup.Lib Trueup.Lib.Transaction Trueup.Ledger Trueup.Valuation

/-! ### What is asked of the database -/

/-- The window can be recomputed: its amounts fit, and its return fits the column, or the latest
stored row has these figures already. -/
def Computes (db : Database) (env : Env) (customerId : Uuid) (w : Date × Date) : Prop :=
  ∃ row, currentSubPeriod db env customerId w.1 w.2 = .ok row ∧
    (|row.returnPct| < 10 ^ 8 ∨
      ∃ existing ∈ latestForSubPeriod db customerId w.1 w.2, sameFigures row existing)

/-- The period can be linked again: its windows can be recomputed, and the product of their returns
fits. -/
def Relinks (db : Database) (env : Env) (customerId : Uuid) (period : Date × Date) : Prop :=
  (∀ w ∈ pairwise (boundaries db customerId period.1 period.2), Computes db env customerId w) ∧
    ∃ rows, (pairwise (boundaries db customerId period.1 period.2)).mapM
        (fun w => currentSubPeriod db env customerId w.1 w.2) = .ok rows ∧ (link rows).isOk

/-- The restatement of a date has nothing to recompute, or can recompute the windows and link the
periods, and the published figures are still those as of their watermarks. -/
def Restatable (db : Database) (env : Env) (customerId : Uuid) (affectedDate : Date) : Prop :=
  containing db customerId affectedDate = [] ∨
    (∀ row ∈ containing db customerId affectedDate, Computes db env customerId (window row)) ∧
      ∀ snapshot ∈ listTouching db customerId affectedDate,
        Relinks db env customerId (snapshot.periodStart, snapshot.periodEnd) ∧
          (crossCheck db snapshot).isOk

/-! ### While it runs -/

/-- Where a restatement that began in `db₀` is: a window of the customer has the rows of then, and
perhaps one more, with the figures of then. -/
structure Recomputing (env : Env) (customerId : Uuid) (db₀ db : Database) : Prop where
  entries : db.journalEntries = db₀.journalEntries
  postings : db.postings = db₀.postings
  closes : db.dailyCloses = db₀.dailyCloses
  snapshots : db.publishedSnapshots = db₀.publishedSnapshots
  windows : ∀ w : Date × Date,
    rowsOfWindow db customerId w.1 w.2 = rowsOfWindow db₀ customerId w.1 w.2 ∨
      ∃ row, currentSubPeriod db₀ env customerId w.1 w.2 = .ok row ∧ |row.returnPct| < 10 ^ 8 ∧
        rowsOfWindow db customerId w.1 w.2 = rowsOfWindow db₀ customerId w.1 w.2 ++ [row]

/-- The customer's rows were stored before the transaction began. -/
def StoredBefore (env : Env) (customerId : Uuid) (db : Database) : Prop :=
  ∀ r ∈ db.subPeriodReturns, r.customerId = customerId → r.recordedAt < env.transactionStart

section Recomputing
variable {env : Env} {customerId : Uuid} {db₀ db db' : Database}

theorem Recomputing.start (env : Env) (customerId : Uuid) (db : Database) :
    Recomputing env customerId db db := ⟨rfl, rfl, rfl, rfl, fun _ => Or.inl rfl⟩

theorem Recomputing.sameBook (h : Recomputing env customerId db₀ db) (day : Date) :
    SameBook db₀ db customerId day := .of_eq h.entries h.postings h.closes customerId day

theorem Recomputing.figures (h : Recomputing env customerId db₀ db) (w : Date × Date) :
    currentSubPeriod db env customerId w.1 w.2 = currentSubPeriod db₀ env customerId w.1 w.2 :=
  currentSubPeriod_congr (h.sameBook _) (h.sameBook _)

theorem StoredBefore.rows (h : StoredBefore env customerId db₀) {w : Date × Date}
    {r : SubPeriodReturn} (hr : r ∈ rowsOfWindow db₀ customerId w.1 w.2) :
    r.recordedAt < env.transactionStart := by
  obtain ⟨hmem, hc, -⟩ := mem_rowsOfWindow.mp hr
  exact h r hmem hc

/-- A row with the figures of now is the latest of its window. -/
theorem Recomputing.latest_of_append (hbefore : StoredBefore env customerId db₀) {w : Date × Date}
    {row : SubPeriodReturn} (hrow : currentSubPeriod db₀ env customerId w.1 w.2 = .ok row)
    (hrows : rowsOfWindow db customerId w.1 w.2 = rowsOfWindow db₀ customerId w.1 w.2 ++ [row]) :
    latestForSubPeriod db customerId w.1 w.2 = some row := by
  rw [latestForSubPeriod_eq, hrows]
  refine History.latest_append_of_lt fun r hr => ?_
  rw [(currentSubPeriod_ok hrow).2.2.2]
  exact hbefore.rows hr

theorem subPeriodReturn_eq_ok {w : Date × Date} {row : SubPeriodReturn} :
    (subPeriodReturn env customerId w.1 w.2).run db = .ok (row, db') ↔
      ∃ current, currentSubPeriod db env customerId w.1 w.2 = .ok current ∧
        ((latestForSubPeriod db customerId w.1 w.2).filter (sameFigures current) = some row ∧ db' = db ∨
          (latestForSubPeriod db customerId w.1 w.2).filter (sameFigures current) = none ∧
            row = current ∧ |current.returnPct| < 10 ^ 8 ∧
            ∃ t, db.subPeriodReturns.insert current = some t ∧
              db' = { db with subPeriodReturns := t }) := by
  simp only [subPeriodReturn, bind_ok, read_ok]
  constructor
  · rintro ⟨current, _, ⟨hcurrent, rfl⟩, existing, _, ⟨hexisting, rfl⟩, h⟩
    cases hexisting
    refine ⟨current, hcurrent, ?_⟩
    cases hfilter : (latestForSubPeriod db customerId w.1 w.2).filter (sameFigures current) with
    | some e =>
      rw [hfilter] at h
      obtain ⟨rfl, rfl⟩ := pure_ok.mp h
      exact Or.inl ⟨rfl, rfl⟩
    | none =>
      rw [hfilter] at h
      simp only [bind_ok, addSubPeriodReturn_ok, pure_ok] at h
      obtain ⟨_, _, ⟨hfits, t, ht, rfl⟩, rfl, rfl⟩ := h
      exact Or.inr ⟨rfl, rfl, hfits, t, ht, rfl⟩
  · rintro ⟨current, hcurrent, hcases⟩
    refine ⟨current, db, ⟨hcurrent, rfl⟩, _, db, ⟨rfl, rfl⟩, ?_⟩
    rcases hcases with ⟨hfilter, rfl⟩ | ⟨hfilter, rfl, hfits, t, ht, rfl⟩
    · rw [hfilter]
      rfl
    · rw [hfilter]
      simp only [bind_ok, addSubPeriodReturn_ok, pure_ok]
      exact ⟨(), _, ⟨hfits, t, ht, rfl⟩, trivial, rfl⟩

/-- The rows of then have other keys than one of this transaction. -/
theorem StoredBefore.not_has (hbefore : StoredBefore env customerId db₀) {w : Date × Date}
    (hrows : rowsOfWindow db customerId w.1 w.2 = rowsOfWindow db₀ customerId w.1 w.2)
    {row : SubPeriodReturn} (hrow : currentSubPeriod db₀ env customerId w.1 w.2 = .ok row) :
    ¬ db.subPeriodReturns.Has row.key := by
  obtain ⟨hc, hb, he, hat⟩ := currentSubPeriod_ok hrow
  intro hhas
  obtain ⟨r, hr, hkey⟩ := List.mem_map.mp hhas
  simp only [SubPeriodReturn.key, Prod.mk.injEq] at hkey
  obtain ⟨hrc, hrb, hre, hrat⟩ := hkey
  have hold : r ∈ rowsOfWindow db₀ customerId w.1 w.2 := by
    rw [← hrows]
    exact mem_rowsOfWindow.mpr ⟨hr, hrc.trans hc, hrb.trans hb, hre.trans he⟩
  exact absurd (hrat.trans hat) (hbefore.rows hold).ne

theorem Recomputing.subPeriodReturn_returns_iff (hbefore : StoredBefore env customerId db₀)
    (hdb : Recomputing env customerId db₀ db) (w : Date × Date) :
    (∃ row db', (subPeriodReturn env customerId w.1 w.2).run db = .ok (row, db')) ↔
      Computes db₀ env customerId w := by
  simp only [subPeriodReturn_eq_ok, hdb.figures]
  constructor
  · rintro ⟨row, db', current, hcurrent, hcases⟩
    refine ⟨current, hcurrent, ?_⟩
    rcases hcases with ⟨hfilter, -⟩ | ⟨-, -, hfits, -⟩
    · obtain ⟨hlatest, hsame⟩ := Option.filter_eq_some_iff.mp hfilter
      rcases hdb.windows w with hrows | ⟨added, hadded, hfits, -⟩
      · rw [latestForSubPeriod, hrows] at hlatest
        exact Or.inr ⟨row, hlatest, hsame⟩
      · obtain rfl := Except.ok.inj (hcurrent.symm.trans hadded)
        exact Or.inl hfits
    · exact Or.inl hfits
  · rintro ⟨current, hcurrent, hfits⟩
    cases hfilter : (latestForSubPeriod db customerId w.1 w.2).filter (sameFigures current) with
    | some e => exact ⟨e, db, current, hcurrent, Or.inl ⟨hfilter, rfl⟩⟩
    | none =>
      have hdiffers := Option.filter_eq_none_iff.mp hfilter
      rcases hdb.windows w with hrows | ⟨added, hadded, -, hrows⟩
      · have hcolumn : |current.returnPct| < 10 ^ 8 := by
          refine hfits.resolve_right ?_
          rintro ⟨existing, hexisting, hsame⟩
          rw [latestForSubPeriod, ← hrows] at hexisting
          exact hdiffers existing hexisting hsame
        obtain ⟨t, ht⟩ := Table.exists_insert (hbefore.not_has hrows hcurrent)
        exact ⟨current, _, current, hcurrent, Or.inr ⟨hfilter, rfl, hcolumn, t, ht, rfl⟩⟩
      · -- the added row has the figures
        obtain rfl := Except.ok.inj (hcurrent.symm.trans hadded)
        exact absurd (sameFigures_refl current)
          (hdiffers current (Recomputing.latest_of_append hbefore hcurrent hrows))

/-- One recomputation adds at most one row, with the figures of then. -/
theorem Recomputing.subPeriodReturn (hbefore : StoredBefore env customerId db₀)
    (hdb : Recomputing env customerId db₀ db) {w : Date × Date} {row : SubPeriodReturn}
    (hrun : (subPeriodReturn env customerId w.1 w.2).run db = .ok (row, db')) :
    Recomputing env customerId db₀ db' := by
  have hother := fun a b hne =>
    subPeriodReturn_rowsOfWindow (c := customerId) (a := a) (b := b) hrun hne
  obtain ⟨current, hcurrent, ⟨-, rfl⟩ | ⟨hfilter, rfl, hfits, t, ht, rfl⟩⟩ :=
    subPeriodReturn_eq_ok.mp hrun
  · exact hdb
  · rw [hdb.figures] at hcurrent
    refine ⟨hdb.entries, hdb.postings, hdb.closes, hdb.snapshots, fun v => ?_⟩
    by_cases hv : v = w
    · subst hv
      obtain ⟨hc, hb, he, -⟩ := currentSubPeriod_ok hcurrent
      have hnew : rowsOfWindow { db with subPeriodReturns := t } customerId v.1 v.2 =
          rowsOfWindow db customerId v.1 v.2 ++ [row] := by
        simp [rowsOfWindow, Table.rows_insert ht, hc, hb, he]
      rcases hdb.windows v with hrows | ⟨added, hadded, -, hrows⟩
      · exact Or.inr ⟨row, hcurrent, hfits, by rw [hnew, hrows]⟩
      · obtain rfl := Except.ok.inj (hcurrent.symm.trans hadded)
        rw [Recomputing.latest_of_append hbefore hcurrent hrows] at hfilter
        exact absurd (sameFigures_refl row) (Option.filter_eq_none_iff.mp hfilter row rfl)
    · have hrows := hother v.1 v.2 fun h => hv (Prod.ext h.2.1 h.2.2)
      rw [hrows]
      exact hdb.windows v

/-- **A recomputation** goes through when the figures of its window fit. -/
theorem decides_subPeriodReturn (hbefore : StoredBefore env customerId db₀) (w : Date × Date) :
    Decides (Recomputing env customerId db₀) (subPeriodReturn env customerId w.1 w.2)
      (Computes db₀ env customerId w) :=
  ⟨fun _ hdb => run_isOk_iff.trans (hdb.subPeriodReturn_returns_iff hbefore w),
    fun _ _ _ hdb hrun => hdb.subPeriodReturn hbefore hrun⟩

theorem decides_subPeriodReturns (hbefore : StoredBefore env customerId db₀) :
    ∀ windows : List (Date × Date), Decides (Recomputing env customerId db₀)
      (subPeriodReturns env customerId windows) (∀ w ∈ windows, Computes db₀ env customerId w)
  | [] => (decides_pure _).congr (by simp)
  | w :: windows => by
    refine Decides.congr (decides_bind (decides_subPeriodReturn hbefore w) fun row =>
      decides_bind (decides_subPeriodReturns hbefore windows) fun rows => decides_pure _) ?_
    rw [and_true, List.forall_mem_cons]

theorem boundaries_eq (h : Recomputing env customerId db₀ db) (period : Date × Date) :
    boundaries db customerId period.1 period.2 = boundaries db₀ customerId period.1 period.2 := by
  unfold boundaries flowDates
  rw [h.postings, h.entries]

/-- **The linked return of a period** goes through when the period can be linked again. -/
theorem decides_computeTwr (hbefore : StoredBefore env customerId db₀) (period : Date × Date) :
    Decides (Recomputing env customerId db₀) (computeTwr env customerId period.1 period.2)
      (Relinks db₀ env customerId period) := by
  have hloop := decides_subPeriodReturns hbefore (pairwise (boundaries db₀ customerId period.1 period.2))
  have hreturns : ∀ {db db' : Database} {rows : List SubPeriodReturn},
      Recomputing env customerId db₀ db →
      (subPeriodReturns env customerId (pairwise (boundaries db₀ customerId period.1 period.2))).run db =
        .ok (rows, db') →
      ∃ current, (pairwise (boundaries db₀ customerId period.1 period.2)).mapM
          (fun w => currentSubPeriod db₀ env customerId w.1 w.2) = .ok current ∧
        link rows = link current := by
    intro db db' rows hdb hrows
    obtain ⟨current, hcurrent, hsame⟩ := subPeriodReturns_returns hrows
    rw [mapM_congr fun w _ => hdb.figures w] at hcurrent
    exact ⟨current, hcurrent, link_congr hsame⟩
  refine ⟨fun db hdb => ?_, keeps_computeTwr (fun a b =>
    (decides_subPeriodReturn hbefore (a, b)).keeps) _ _⟩
  rw [Relinks, ← hloop.isOk_iff db hdb, run_isOk_iff, run_isOk_iff]
  simp only [Prod.exists, computeTwr_ok, boundaries_eq hdb]
  constructor
  · rintro ⟨twr, rows, db', hrows, hlink⟩
    obtain ⟨current, hcurrent, hsame⟩ := hreturns hdb hrows
    exact ⟨⟨rows, db', hrows⟩, current, hcurrent, by rw [← hsame, hlink]; rfl⟩
  · rintro ⟨⟨rows, db', hrows⟩, current, hcurrent, hlink⟩
    obtain ⟨current', hcurrent', hsame⟩ := hreturns hdb hrows
    obtain rfl := Except.ok.inj (hcurrent'.symm.trans hcurrent)
    obtain ⟨twr, htwr⟩ := exists_ok_of_isOk hlink
    exact ⟨twr, rows, db', hrows, hsame.trans htwr⟩

/-! ### The published periods -/

/-- What is recorded now is after the watermarks. -/
theorem crossCheck_eq (h : Recomputing env customerId db₀ db) {snapshot : PublishedSnapshot}
    (hcustomer : snapshot.customerId = customerId)
    (hwatermark : snapshot.publishWatermark < env.transactionStart) :
    crossCheck db snapshot = crossCheck db₀ snapshot := by
  subst hcustomer
  have hrow : ∀ a b, asOfForSubPeriod db snapshot.customerId a b snapshot.publishWatermark =
      asOfForSubPeriod db₀ snapshot.customerId a b snapshot.publishWatermark := by
    intro a b
    rcases h.windows (a, b) with hrows | ⟨row, hrow, -, hrows⟩
    · rw [asOfForSubPeriod, hrows, asOfForSubPeriod]
    · rw [asOfForSubPeriod_eq, hrows, History.asOf_append, asOfForSubPeriod_eq]
      intro r hr
      rw [List.mem_singleton.mp hr, (currentSubPeriod_ok hrow).2.2.2]
      exact hwatermark
  have hrows : ∀ windows, rowsAsOf db snapshot.customerId snapshot.publishWatermark windows =
      rowsAsOf db₀ snapshot.customerId snapshot.publishWatermark windows := by
    intro windows
    induction windows with
    | nil => rfl
    | cons w windows ih =>
      unfold rowsAsOf
      rw [ih, hrow]
  have hdays := boundaries_eq h (snapshot.periodStart, snapshot.periodEnd)
  unfold crossCheck derive
  simp only [hrows, hdays]

/-- The loop over the touched periods; those of `relinked` are linked already. -/
theorem decides_relinkAndCrossCheck (hbefore : StoredBefore env customerId db₀) (eventId : Uuid) :
    ∀ (snapshots : List PublishedSnapshot) (relinked : List (Date × Date)),
    (∀ snapshot ∈ snapshots, snapshot.customerId = customerId ∧
      snapshot.publishWatermark < env.transactionStart) →
    Decides (Recomputing env customerId db₀)
      (relinkAndCrossCheck env false customerId eventId snapshots relinked)
      (∀ snapshot ∈ snapshots, ((snapshot.periodStart, snapshot.periodEnd) ∉ relinked →
        Relinks db₀ env customerId (snapshot.periodStart, snapshot.periodEnd)) ∧
          (crossCheck db₀ snapshot).isOk)
  | [], _, _ => (decides_pure _).congr (by simp)
  | snapshot :: snapshots, relinked, hsnapshots => by
    obtain ⟨hcustomer, hwatermark⟩ := hsnapshots snapshot List.mem_cons_self
    have hfirst : Decides (Recomputing env customerId db₀)
        (relinkSnapshot env false customerId eventId relinked snapshot)
        (((snapshot.periodStart, snapshot.periodEnd) ∉ relinked →
          Relinks db₀ env customerId (snapshot.periodStart, snapshot.periodEnd)) ∧
            (crossCheck db₀ snapshot).isOk) := by
      refine Decides.congr (decides_bind (decides_whenever (decides_bind
        (decides_computeTwr hbefore (snapshot.periodStart, snapshot.periodEnd)) fun _ =>
          decides_pure _)) fun _ => decides_bind (decides_read (P := (crossCheck db₀ snapshot).isOk)
        fun db hdb => ?_) fun _ => decides_pure _) ?_
      · rw [crossCheck_eq hdb hcustomer hwatermark]
      · simp only [and_true]
    refine Decides.congr (decides_bind hfirst fun _ => decides_relinkAndCrossCheck hbefore eventId
      snapshots _ fun s hs => hsnapshots s (List.mem_cons_of_mem _ hs)) ?_
    rw [List.forall_mem_cons]
    refine and_congr_right fun hone => forall₂_congr fun s _ => and_congr_left fun _ => ?_
    rw [List.mem_cons, not_or]
    refine ⟨fun h hnot => ?_, fun h hnot => h hnot.2⟩
    by_cases hsame : (s.periodStart, s.periodEnd) = (snapshot.periodStart, snapshot.periodEnd)
    · rw [hsame] at hnot ⊢
      exact hone.1 hnot
    · exact h ⟨hsame, hnot⟩

/-- **When a restatement without a checker goes through**, by the database before it: its windows
and periods can be computed again, and the published figures have not changed. -/
theorem restate_isOk_iff {affectedDate : Date} {triggerType : RestatementTriggerType}
    {source : SourceEvent} (hbefore : StoredBefore env customerId db)
    (hwatermark : ∀ snapshot ∈ listTouching db customerId affectedDate,
      snapshot.publishWatermark < env.transactionStart) :
    ((restate env false customerId affectedDate triggerType source).run db).isOk ↔
      Restatable db env customerId affectedDate := by
  have hevent : ∀ event, Decides (Recomputing env customerId db) (addRestatementEvent event) True :=
    fun event => decides_update fun s hs =>
      ⟨hs.entries, hs.postings, hs.closes, hs.snapshots, hs.windows⟩
  have htouching : ∀ snapshot ∈ listTouching db customerId affectedDate,
      snapshot.customerId = customerId ∧ snapshot.publishWatermark < env.transactionStart := by
    intro snapshot hsnapshot
    have hof := (List.mem_filter.mp hsnapshot).2
    simp only [decide_eq_true_eq] at hof
    exact ⟨hof.1, hwatermark snapshot hsnapshot⟩
  have hloop : ∀ rows, Decides (Recomputing env customerId db)
      (each (restateWindow env customerId triggerType source) rows)
      (∀ row ∈ rows, Computes db env customerId (window row)) := by
    refine fun rows => decides_each fun row _ => ?_
    exact Decides.congr (decides_bind (hevent _) fun _ => decides_bind
      (decides_subPeriodReturn hbefore (window row)) fun _ => decides_pure _) (by simp)
  unfold restate Restatable
  rw [run_read_bind (f := fun db => .ok (containing db customerId affectedDate)) rfl]
  cases hcontaining : containing db customerId affectedDate with
  | nil => simp [(hevent _).isOk_iff db (.start env customerId db)]
  | cons first rest =>
    set eventId := env.uuid4 (.restatementEvent source first.subPeriodStart first.subPeriodEnd)
    have hrest := decides_bind (hloop (first :: rest)) fun _ => decides_read_bind
      (f := fun db => .ok (listTouching db customerId affectedDate))
      (g := fun touched => relinkAndCrossCheck env false customerId eventId touched [])
      (fun s hs => by rw [listTouching, hs.snapshots]; rfl)
      (decides_relinkAndCrossCheck hbefore eventId _ [] htouching)
    refine (hrest.isOk_iff db (.start env customerId db)).trans ?_
    simp

end Recomputing

end Trueup.Restatement
