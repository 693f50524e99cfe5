import Trueup.Models.OpenedAccount
import Trueup.Reporting
import Trueup.Valuation.SubPeriods

/-! # What a restatement leaves up to date

A stored window is up to date when its latest row has the figures a recomputation from the ledger
and the closes of now would have.

* `subPeriodReturn_upToDate`: a recomputed window is up to date, and stays so while other windows
  are recomputed (`Restating`).
* `restate_upToDate`: after a restatement every stored window that contains the affected date is.
* `restated_windows_current`: the same with the correcting entry before it, and the windows that end
  before the entry's date are left up to date. A window that begins after it is not recomputed,
  although its two valuations include the entry (`later_window_left_stale`). -/

namespace Trueup.Restatement

open Trueup.Core Trueup.Models Trueup.Lib Trueup.Lib.Transaction Trueup.Ledger Trueup.Valuation
open Trueup.Reporting

/-- The latest stored row of the window has the figures of now. -/
def upToDate (db : Database) (env : Env) (customerId : Uuid) (vBegin vEnd : Date) : Bool :=
  match latestForSubPeriod db customerId vBegin vEnd,
    currentSubPeriod db env customerId vBegin vEnd with
  | some row, .ok current => sameFigures current row
  | _, _ => false

section UpToDate
variable {env : Env} {customerId : Uuid} {vBegin vEnd : Date}

theorem upToDate_iff {db : Database} : upToDate db env customerId vBegin vEnd ↔
    ∃ row current, latestForSubPeriod db customerId vBegin vEnd = some row ∧
      currentSubPeriod db env customerId vBegin vEnd = .ok current ∧ sameFigures current row := by
  rw [upToDate]
  constructor
  · intro h
    split at h
    · rename_i row current hrow hcurrent
      exact ⟨row, current, hrow, hcurrent, h⟩
    · cases h
  · rintro ⟨row, current, hrow, hcurrent, hsame⟩
    rw [hrow, hcurrent]
    exact hsame

/-- A window is up to date exactly when its recomputation returns the latest stored row. -/
theorem upToDate_iff_recompute {db : Database} : upToDate db env customerId vBegin vEnd ↔
    ∃ row, latestForSubPeriod db customerId vBegin vEnd = some row ∧
      (subPeriodReturn env customerId vBegin vEnd).run db = .ok (row, db) := by
  rw [upToDate_iff]
  constructor
  · rintro ⟨row, current, hrow, hcurrent, hsame⟩
    refine ⟨row, hrow, ?_⟩
    simp only [subPeriodReturn, bind_ok, read_ok]
    refine ⟨current, db, ⟨hcurrent, rfl⟩, _, db, ⟨rfl, rfl⟩, ?_⟩
    rw [hrow, Option.filter_some, if_pos hsame]
    rfl
  · rintro ⟨row, hrow, hrun⟩
    obtain ⟨current, hcurrent, ⟨-, hsame, -⟩ | ⟨-, t, ht, hdb⟩⟩ := subPeriodReturn_ok hrun
    · exact ⟨row, current, hrow, hcurrent, hsame⟩
    · have hrows := Table.rows_insert ht
      rw [show t = db.subPeriodReturns from (congrArg Database.subPeriodReturns hdb).symm] at hrows
      simp at hrows

theorem upToDate_congr {db db' : Database}
    (hrows : rowsOfWindow db' customerId vBegin vEnd = rowsOfWindow db customerId vBegin vEnd)
    (hbegin : SameBook db db' customerId vBegin) (hend : SameBook db db' customerId vEnd) :
    upToDate db' env customerId vBegin vEnd = upToDate db env customerId vBegin vEnd := by
  simp only [upToDate, latestForSubPeriod, hrows, currentSubPeriod_congr hbegin hend]

theorem sameFigures_refl (row : SubPeriodReturn) : sameFigures row row := by simp [sameFigures]

/-- **A recomputed window is up to date**, if no row was recorded after the start of the
transaction. -/
theorem subPeriodReturn_upToDate {row : SubPeriodReturn} {db db' : Database}
    (h : (subPeriodReturn env customerId vBegin vEnd).run db = .ok (row, db'))
    (hrecorded : ∀ r ∈ db.subPeriodReturns, r.recordedAt ≤ env.transactionStart) :
    upToDate db' env customerId vBegin vEnd := by
  rw [upToDate_iff]
  obtain ⟨current, hcurrent, ⟨hlatest, hsame, rfl⟩ | ⟨rfl, t, ht, rfl⟩⟩ := subPeriodReturn_ok h
  · exact ⟨row, current, hlatest, hcurrent, hsame⟩
  · obtain ⟨hc, ha, hb, hat⟩ := currentSubPeriod_ok hcurrent
    refine ⟨row, row, ?_, ?_, sameFigures_refl row⟩
    · have hrows : rowsOfWindow { db with subPeriodReturns := t } customerId vBegin vEnd =
          rowsOfWindow db customerId vBegin vEnd ++ [row] := by
        simp [rowsOfWindow, Table.rows_insert ht, hc, ha, hb]
      rw [latestForSubPeriod_eq, hrows]
      refine History.latest_append_of_lt fun r hr => ?_
      obtain ⟨hmem, hrc, hra, hrb⟩ := mem_rowsOfWindow.mp hr
      refine lt_of_le_of_ne (hat ▸ hrecorded r hmem) fun heq => ?_
      -- the key of the new row was free
      refine (Table.insert_eq_some.mp ht).1 ?_
      rw [show SubPeriodReturn.key row = SubPeriodReturn.key r by
        simp only [SubPeriodReturn.key, hc, ha, hb, hrc, hra, hrb, heq]]
      exact Table.has_of_mem hmem
    · rw [currentSubPeriod_congr (.returns db t _ _) (.returns db t _ _)]
      exact hcurrent

end UpToDate

/-! ### A restatement, step by step -/

/-- How far a restatement that began in `db₀` got: the ledger and the closes are those of `db₀`, a
window of the customer has its rows of then or is up to date, and those of `done` are up to date. -/
structure Restating (env : Env) (customerId : Uuid) (db₀ : Database) (done : List (Date × Date))
    (db : Database) : Prop where
  entries : db.journalEntries = db₀.journalEntries
  postings : db.postings = db₀.postings
  closes : db.dailyCloses = db₀.dailyCloses
  recorded : ∀ r ∈ db.subPeriodReturns, r.recordedAt ≤ env.transactionStart
  windows : ∀ vBegin vEnd,
    rowsOfWindow db customerId vBegin vEnd = rowsOfWindow db₀ customerId vBegin vEnd ∨
      upToDate db env customerId vBegin vEnd
  done : ∀ w ∈ done, upToDate db env customerId w.1 w.2

section Restating
variable {env : Env} {customerId : Uuid} {db₀ : Database} {done : List (Date × Date)}

theorem Restating.start (hrecorded : ∀ r ∈ db₀.subPeriodReturns, r.recordedAt ≤ env.transactionStart)
    (hdone : ∀ w ∈ done, upToDate db₀ env customerId w.1 w.2) :
    Restating env customerId db₀ done db₀ :=
  ⟨rfl, rfl, rfl, hrecorded, fun _ _ => Or.inl rfl, hdone⟩

theorem Restating.start_nil (hrecorded : ∀ r ∈ db₀.subPeriodReturns,
    r.recordedAt ≤ env.transactionStart) (c : Uuid) : Restating env c db₀ [] db₀ :=
  .start hrecorded (by simp)

/-- What does not touch the ledger, the closes and the stored rows keeps `Restating`. -/
theorem Restating.of_eq {db db' : Database} (h : Restating env customerId db₀ done db)
    (hentries : db'.journalEntries = db.journalEntries) (hpostings : db'.postings = db.postings)
    (hcloses : db'.dailyCloses = db.dailyCloses)
    (hreturns : db'.subPeriodReturns = db.subPeriodReturns) :
    Restating env customerId db₀ done db' := by
  have hrows : ∀ a b, rowsOfWindow db' customerId a b = rowsOfWindow db customerId a b := by
    intro a b
    rw [rowsOfWindow, hreturns, rowsOfWindow]
  have hup : ∀ a b, upToDate db' env customerId a b = upToDate db env customerId a b := fun a b =>
    upToDate_congr (hrows a b) (.of_eq hentries hpostings hcloses _ _)
      (.of_eq hentries hpostings hcloses _ _)
  refine ⟨hentries.trans h.entries, hpostings.trans h.postings, hcloses.trans h.closes, ?_, ?_, ?_⟩
  · rw [hreturns]
    exact h.recorded
  · intro a b
    rw [hrows, hup]
    exact h.windows a b
  · intro w hw
    rw [hup]
    exact h.done w hw

theorem Restating.recompute {c : Uuid} {a b : Date} {row : SubPeriodReturn} {db db' : Database}
    (h : Restating env customerId db₀ done db)
    (hrun : (subPeriodReturn env c a b).run db = .ok (row, db')) :
    Restating env customerId db₀ done db' := by
  have hnew := subPeriodReturn_upToDate hrun h.recorded
  have hother : ∀ a' b', ¬ (customerId = c ∧ a' = a ∧ b' = b) →
      rowsOfWindow db' customerId a' b' = rowsOfWindow db customerId a' b' :=
    fun a' b' hne => subPeriodReturn_rowsOfWindow hrun hne
  obtain ⟨current, hcurrent, ⟨-, -, rfl⟩ | ⟨-, t, ht, rfl⟩⟩ := subPeriodReturn_ok hrun
  · exact h
  · have hup : ∀ a' b', upToDate db env customerId a' b' →
        upToDate { db with subPeriodReturns := t } env customerId a' b' := by
      intro a' b' hold
      by_cases hw : customerId = c ∧ a' = a ∧ b' = b
      · obtain ⟨rfl, rfl, rfl⟩ := hw
        exact hnew
      · rw [upToDate_congr (hother a' b' hw) (.returns db t _ _) (.returns db t _ _)]
        exact hold
    refine ⟨h.entries, h.postings, h.closes, fun r hr => ?_, fun a' b' => ?_,
      fun w hw => hup _ _ (h.done w hw)⟩
    · rcases (Table.mem_insert ht).mp hr with hold | rfl
      · exact h.recorded r hold
      · exact (currentSubPeriod_ok hcurrent).2.2.2.le
    · by_cases hw : customerId = c ∧ a' = a ∧ b' = b
      · obtain ⟨rfl, rfl, rfl⟩ := hw
        exact Or.inr hnew
      · rw [hother a' b' hw]
        exact (h.windows a' b').imp id (hup a' b')

theorem restating_addRestatementEvent (event : RestatementEvent) :
    Keeps (Restating env customerId db₀ done) (addRestatementEvent event) := by
  intro db u db' h hrun
  obtain rfl := addRestatementEvent_ok.mp hrun
  exact h.of_eq rfl rfl rfl rfl

theorem restating_addFeeRestatementDisclosure (disclosure : FeeRestatementDisclosure) :
    Keeps (Restating env customerId db₀ done) (addFeeRestatementDisclosure disclosure) := by
  intro db u db' h hrun
  obtain rfl := addFeeRestatementDisclosure_ok.mp hrun
  exact h.of_eq rfl rfl rfl rfl

theorem restating_restate (disclose : Bool) (c : Uuid) (affectedDate : Date)
    (triggerType : RestatementTriggerType) (source : SourceEvent) :
    Keeps (Restating env customerId db₀ done)
      (restate env disclose c affectedDate triggerType source) :=
  keeps_restate (fun _ _ _ _ _ h hrun => h.recompute hrun) restating_addRestatementEvent
    restating_addFeeRestatementDisclosure disclose affectedDate triggerType source

theorem restateWindows_done (triggerType : RestatementTriggerType) (source : SourceEvent) :
    ∀ {windows : List SubPeriodReturn} {done : List (Date × Date)} {db db' : Database} {u : Unit},
      Restating env customerId db₀ done db →
      (each (restateWindow env customerId triggerType source) windows).run db = .ok (u, db') →
      Restating env customerId db₀
        (done ++ windows.map fun w => (w.subPeriodStart, w.subPeriodEnd)) db'
  | [], done, db, db', u, h, hrun => by
    obtain ⟨-, rfl⟩ := pure_ok.mp hrun
    simpa using h
  | window :: windows, done, db, db', u, h, hrun => by
    obtain ⟨_, mid, hfirst, hrest⟩ := bind_ok.mp hrun
    simp only [restateWindow, bind_ok, pure_ok] at hfirst
    obtain ⟨_, logged, hevent, row, last, hrow, -, rfl⟩ := hfirst
    have hlogged := restating_addRestatementEvent _ _ _ _ h hevent
    have hmid := hlogged.recompute hrow
    have hnew := subPeriodReturn_upToDate hrow hlogged.recorded
    have hdone : ∀ w ∈ done ++ [(window.subPeriodStart, window.subPeriodEnd)],
        upToDate last env customerId w.1 w.2 := by
      intro w hw
      rcases List.mem_append.mp hw with hold | hlast
      · exact hmid.done w hold
      · rw [List.mem_singleton.mp hlast]
        exact hnew
    have := restateWindows_done triggerType source
      ⟨hmid.entries, hmid.postings, hmid.closes, hmid.recorded, hmid.windows, hdone⟩ hrest
    simpa using this

end Restating

theorem exists_containing {db : Database} {customerId : Uuid} {day vBegin vEnd : Date}
    (hstored : rowsOfWindow db customerId vBegin vEnd ≠ []) (hbegin : vBegin ≤ day)
    (hend : day ≤ vEnd) : ∃ w ∈ containing db customerId day,
      w.subPeriodStart = vBegin ∧ w.subPeriodEnd = vEnd := by
  obtain ⟨row, hrow⟩ := List.exists_mem_of_ne_nil _ hstored
  obtain ⟨hmem, hc, rfl, rfl⟩ := mem_rowsOfWindow.mp hrow
  obtain ⟨hhas, hwindow⟩ := latestByWindow_windows (db.subPeriodReturns.rows.filter fun r =>
    r.customerId = customerId ∧ r.subPeriodStart ≤ day ∧ day ≤ r.subPeriodEnd)
  have hrow : row ∈ db.subPeriodReturns.rows.filter fun r =>
      r.customerId = customerId ∧ r.subPeriodStart ≤ day ∧ day ≤ r.subPeriodEnd :=
    List.mem_filter.mpr ⟨hmem, by simp [hc, hbegin, hend]⟩
  obtain ⟨pair, hpair, hkey⟩ := List.mem_map.mp ((hhas (window row)).mpr ⟨row, hrow, rfl⟩)
  have hsame := (hwindow pair hpair).2.trans hkey
  exact ⟨pair.2, List.mem_map_of_mem hpair, congrArg Prod.fst hsame, congrArg Prod.snd hsame⟩

section Restate
variable {env : Env} {disclose : Bool} {customerId : Uuid} {affectedDate : Date}
  {triggerType : RestatementTriggerType} {source : SourceEvent} {db db' : Database} {u : Unit}

/-- **After a restatement every stored window that contains the affected date is up to date.** -/
theorem restate_upToDate
    (h : (restate env disclose customerId affectedDate triggerType source).run db = .ok (u, db'))
    (hrecorded : ∀ r ∈ db.subPeriodReturns, r.recordedAt ≤ env.transactionStart)
    {vBegin vEnd : Date} (hstored : rowsOfWindow db' customerId vBegin vEnd ≠ [])
    (hbegin : vBegin ≤ affectedDate) (hend : affectedDate ≤ vEnd) :
    upToDate db' env customerId vBegin vEnd := by
  have hstart : Restating env customerId db [] db := .start_nil hrecorded customerId
  rcases (restating_restate disclose customerId affectedDate triggerType source _ _ _ hstart
    h).windows vBegin vEnd with hrows | hup
  swap
  · exact hup
  rw [hrows] at hstored
  obtain ⟨w, hw, hwb, hwe⟩ := exists_containing hstored hbegin hend
  simp only [restate, bind_ok, read_ok] at h
  obtain ⟨windows, _, ⟨hwindows, rfl⟩, h⟩ := h
  cases hwindows
  split at h
  · rename_i hnil
    rw [hnil] at hw
    cases hw
  · rename_i window rest hcons
    simp only [bind_ok, read_ok] at h
    obtain ⟨_, mid, hloop, touched, _, ⟨-, rfl⟩, hrelink⟩ := h
    have hmid := restateWindows_done triggerType source hstart hloop
    have hlast := keeps_relinkAndCrossCheck (fun _ _ _ _ _ h hrun => h.recompute hrun)
      restating_addFeeRestatementDisclosure disclose _ touched [] _ _ _ hmid hrelink
    rw [← hcons] at hlast
    have hdone := hlast.done (w.subPeriodStart, w.subPeriodEnd)
      (by simpa using ⟨w, hw, rfl, rfl⟩)
    rwa [hwb, hwe] at hdone

theorem restate_keeps_upToDate
    (h : (restate env disclose customerId affectedDate triggerType source).run db = .ok (u, db'))
    (hrecorded : ∀ r ∈ db.subPeriodReturns, r.recordedAt ≤ env.transactionStart) {c : Uuid}
    {vBegin vEnd : Date} (hup : upToDate db env c vBegin vEnd) :
    upToDate db' env c vBegin vEnd := by
  have hstart : Restating env c db [(vBegin, vEnd)] db := .start hrecorded (by simpa using hup)
  exact (restating_restate disclose customerId affectedDate triggerType source _ _ _ hstart h).done
    (vBegin, vEnd) (by simp)

end Restate

/-! ### A correcting entry and its restatement -/

/-- **A correcting entry and its restatement.** Every stored window that contains the date of the
entry is up to date afterwards, and every window that lies before it and was up to date still is. -/
theorem restated_windows_current {env : Env} {disclose : Bool} {customerId : Uuid}
    {triggerType : RestatementTriggerType} {source : SourceEvent} {entry e : JournalEntry}
    {legs : List PostingLeg} {db₀ db₁ db₂ : Database} {u : Unit} (hknown : PostingsKnown db₀)
    (hrecorded : ∀ r ∈ db₀.subPeriodReturns, r.recordedAt ≤ env.transactionStart)
    (hpost : (writeEntry entry legs).run db₀ = .ok (e, db₁))
    (hrestate : (restate env disclose customerId entry.effectiveDate triggerType source).run db₁ =
      .ok (u, db₂)) :
    (∀ vBegin vEnd, rowsOfWindow db₂ customerId vBegin vEnd ≠ [] → vBegin ≤ entry.effectiveDate →
        entry.effectiveDate ≤ vEnd → upToDate db₂ env customerId vBegin vEnd) ∧
      ∀ vBegin vEnd, vBegin < entry.effectiveDate → vEnd < entry.effectiveDate →
        upToDate db₀ env customerId vBegin vEnd → upToDate db₂ env customerId vBegin vEnd := by
  have hreturns : db₁.subPeriodReturns = db₀.subPeriodReturns := by
    obtain ⟨-, -, rfl, t, -, rfl⟩ := writeEntry_ok.mp hpost
    rfl
  have hrecorded₁ : ∀ r ∈ db₁.subPeriodReturns, r.recordedAt ≤ env.transactionStart := by
    rw [hreturns]
    exact hrecorded
  refine ⟨fun vBegin vEnd hstored hbegin hend =>
    restate_upToDate hrestate hrecorded₁ hstored hbegin hend, fun vBegin vEnd hbegin hend hup => ?_⟩
  refine restate_keeps_upToDate hrestate hrecorded₁ ?_
  have hrows : rowsOfWindow db₁ customerId vBegin vEnd = rowsOfWindow db₀ customerId vBegin vEnd := by
    rw [rowsOfWindow, hreturns, rowsOfWindow]
  rw [upToDate_congr hrows (.of_writeEntry hpost hknown customerId hbegin)
    (.of_writeEntry hpost hknown customerId hend)]
  exact hup

/-- A deposit on day `0`, and the return of a period computed on day `3`. -/
def depositAndReturn (periodStart periodEnd : Date) : Database :=
  run [⟨envAt 1 1, .application (.initiateDeposit 1 (dollars 100))⟩,
    ⟨envAt 259200000000 2, .computeTwr 1 periodStart periodEnd⟩] (openedAccount 1)

/-- The outside at the time of the correction. -/
def correctionEnv : Env := envAt 259200000001 3

/-- A dividend of ten dollars, effective on day `1`. -/
def lateDividend : JournalEntry :=
  ⟨3, .dividend, 1, .dividendPayDate 1 (dollars 10), none, none⟩

/-- The legs of the dividend. -/
def lateDividendLegs : List PostingLeg :=
  [.money (.ofCustomer 1 .cash) (dollars 10),
    .money (.ofCustomer 1 .dividendReceivable) (dollars 10).neg]

/-- The database with the dividend posted, before its restatement. -/
def dividendPosted : Database :=
  atomically (writeEntry lateDividend lateDividendLegs) (depositAndReturn 0 3)

/-- The restatement of the dividend. -/
def lateDividendRestated : Tx Unit :=
  restate correctionEnv false 1 1 .lateDividend lateDividend.sourceEvent

theorem restated_windows_current_late_dividend :
    ¬ upToDate dividendPosted correctionEnv 1 0 3 ∧
      upToDate (atomically lateDividendRestated dividendPosted) correctionEnv 1 0 3 := by
  refine ⟨by decide +kernel, ?_⟩
  obtain ⟨e, hpost⟩ := run_of_isOk (x := writeEntry lateDividend lateDividendLegs)
    (s := depositAndReturn 0 3) (by decide +kernel)
  obtain ⟨u, hrestate⟩ := run_of_isOk (x := lateDividendRestated) (s := dividendPosted)
    (by decide +kernel)
  exact (restated_windows_current (by decide +kernel) (by decide +kernel) hpost hrestate).1 0 3
    (by decide +kernel) (by decide) (by decide)

/-- **A window that begins after the entry is left stale**: a dividend is paid on day `1`, and the
stored return of days `2` to `3` does not see its cash. -/
theorem later_window_left_stale :
    ((body ⟨correctionEnv, .payDividend 1 (dollars 10) 1⟩).run (depositAndReturn 2 3)).isOk ∧
      let db := atomically (body ⟨correctionEnv, .payDividend 1 (dollars 10) 1⟩)
        (depositAndReturn 2 3)
      rowsOfWindow db 1 2 3 ≠ [] ∧ upToDate db correctionEnv 1 2 3 = false := by
  decide +kernel

end Trueup.Restatement
