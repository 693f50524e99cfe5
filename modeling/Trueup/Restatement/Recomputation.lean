import Trueup.Restatement.Completeness

/-! # What recomputing the returns of a period changes

`compute_twr` goes over the windows of a period and adds a row for those that are not up to date
(`WindowRecomputed`); nothing that is stored is modified.

* `subPeriodReturns_ok`: what a call did, window by window.
* `subPeriodReturns_again_iff`: a second call adds nothing exactly when no row that the first one
  added is dated before a stored row of its window.
* `computeTwr_recomputes`: the same of `compute_twr`, and what it adds after a close was added. -/

namespace Trueup.Restatement

open Trueup.Core Trueup.Models Trueup.Lib Trueup.Lib.Transaction Trueup.Ledger Trueup.Valuation

/-! ### One window -/

section Window
variable {env env' : Env} {customerId : Uuid} {vBegin vEnd : Date} {db db' : Database}
  {row : SubPeriodReturn}

/-- The figures do not depend on when they are computed. -/
theorem currentSubPeriod_env (h : currentSubPeriod db env customerId vBegin vEnd = .ok row) :
    currentSubPeriod db env' customerId vBegin vEnd =
      .ok { row with recordedAt := env'.transactionStart } := by
  obtain ⟨bookBegin, bookEnd, flow, returnPct, hbegin, hend, hflow, hreturn, rfl⟩ :=
    currentSubPeriod_eq_ok.mp h
  exact currentSubPeriod_eq_ok.mpr
    ⟨bookBegin, bookEnd, flow, returnPct, hbegin, hend, hflow, hreturn, rfl⟩

theorem upToDate_env :
    upToDate db env' customerId vBegin vEnd = upToDate db env customerId vBegin vEnd := by
  have hone : ∀ {e e' : Env}, upToDate db e customerId vBegin vEnd →
      upToDate db e' customerId vBegin vEnd := by
    intro e e' h
    obtain ⟨row, current, hlatest, hcurrent, hsame⟩ := upToDate_iff.mp h
    exact upToDate_iff.mpr ⟨row, _, hlatest, currentSubPeriod_env hcurrent, hsame⟩
  exact Bool.eq_iff_iff.mpr ⟨hone, hone⟩

/-- **What a call did to a window**: nothing when it was up to date, else a row was added, and the
row that was found or added was returned. -/
def WindowRecomputed (env : Env) (customerId : Uuid) (db db' : Database) (window : Date × Date)
    (row : SubPeriodReturn) : Prop :=
  upToDate db env customerId window.1 window.2 = true ∧
      latestForSubPeriod db customerId window.1 window.2 = some row ∧
      rowsOfWindow db' customerId window.1 window.2 = rowsOfWindow db customerId window.1 window.2 ∨
    upToDate db env customerId window.1 window.2 = false ∧
      currentSubPeriod db env customerId window.1 window.2 = .ok row ∧
      rowsOfWindow db' customerId window.1 window.2 =
        rowsOfWindow db customerId window.1 window.2 ++ [row]

/-- A recomputation changes nothing exactly when the window is up to date. -/
theorem subPeriodReturn_cases
    (h : (subPeriodReturn env customerId vBegin vEnd).run db = .ok (row, db')) :
    upToDate db env customerId vBegin vEnd = true ∧
        latestForSubPeriod db customerId vBegin vEnd = some row ∧ db' = db ∨
      upToDate db env customerId vBegin vEnd = false ∧
        currentSubPeriod db env customerId vBegin vEnd = .ok row ∧
        ∃ t, db.subPeriodReturns.insert row = some t ∧ db' = { db with subPeriodReturns := t } := by
  cases hup : upToDate db env customerId vBegin vEnd with
  | true =>
    obtain ⟨row', hlatest, hrun⟩ := upToDate_iff_recompute.mp hup
    cases h.symm.trans hrun
    exact Or.inl ⟨rfl, hlatest, rfl⟩
  | false =>
    obtain ⟨current, hcurrent, ⟨hlatest, hsame, -⟩ | ⟨rfl, ht⟩⟩ := subPeriodReturn_ok h
    · have hfresh := upToDate_iff.mpr ⟨row, current, hlatest, hcurrent, hsame⟩
      rw [hup] at hfresh
      cases hfresh
    · exact Or.inr ⟨rfl, hcurrent, ht⟩

theorem subPeriodReturn_recomputed
    (h : (subPeriodReturn env customerId vBegin vEnd).run db = .ok (row, db')) :
    WindowRecomputed env customerId db db' (vBegin, vEnd) row := by
  rcases subPeriodReturn_cases h with ⟨hup, hlatest, rfl⟩ | ⟨hup, hcurrent, t, ht, rfl⟩
  · exact Or.inl ⟨hup, hlatest, rfl⟩
  · obtain ⟨hc, ha, hb, -⟩ := currentSubPeriod_ok hcurrent
    refine Or.inr ⟨hup, hcurrent, ?_⟩
    simp [rowsOfWindow, Table.rows_insert ht, hc, ha, hb]

/-- The row of a window depends on what is stored of it, and on the book and the closes at its
ends. -/
theorem WindowRecomputed.congr {db₀ db₁ : Database} {window : Date × Date}
    (hrows : rowsOfWindow db customerId window.1 window.2 =
      rowsOfWindow db₀ customerId window.1 window.2)
    (hrows' : rowsOfWindow db₁ customerId window.1 window.2 =
      rowsOfWindow db' customerId window.1 window.2)
    (hbegin : SameBook db₀ db customerId window.1) (hend : SameBook db₀ db customerId window.2)
    (h : WindowRecomputed env customerId db db' window row) :
    WindowRecomputed env customerId db₀ db₁ window row := by
  unfold WindowRecomputed at h ⊢
  rw [hrows', ← hrows, ← upToDate_congr hrows hbegin hend, ← currentSubPeriod_congr hbegin hend,
    latestForSubPeriod, ← hrows]
  exact h

theorem WindowRecomputed.unique {db₁ db₂ : Database} {window : Date × Date}
    {row₁ row₂ : SubPeriodReturn}
    (h₁ : WindowRecomputed env customerId db db₁ window row₁)
    (h₂ : WindowRecomputed env customerId db db₂ window row₂) : row₁ = row₂ := by
  rcases h₁ with ⟨hup, hrow₁, -⟩ | ⟨hup, hrow₁, -⟩ <;>
    rcases h₂ with ⟨hup', hrow₂, -⟩ | ⟨hup', hrow₂, -⟩
  · exact Option.some.inj (hrow₁.symm.trans hrow₂)
  · cases hup.symm.trans hup'
  · cases hup.symm.trans hup'
  · exact Except.ok.inj (hrow₁.symm.trans hrow₂)

/-- A window that was recomputed is left as it is by the next call exactly when the row that was
added, if any, is not dated before a stored row of the window. -/
theorem WindowRecomputed.again_iff (h : WindowRecomputed env customerId db db' (vBegin, vEnd) row)
    (hbegin : SameBook db db' customerId vBegin) (hend : SameBook db db' customerId vEnd) :
    (subPeriodReturn env' customerId vBegin vEnd).run db' = .ok (row, db') ↔
      (upToDate db env customerId vBegin vEnd = false →
        ∀ r ∈ rowsOfWindow db customerId vBegin vEnd, r.recordedAt ≤ env.transactionStart) := by
  have hfound : (subPeriodReturn env' customerId vBegin vEnd).run db' = .ok (row, db') ↔
      latestForSubPeriod db' customerId vBegin vEnd = some row ∧
        upToDate db' env' customerId vBegin vEnd := by
    constructor
    · intro hrun
      obtain ⟨current, hcurrent, ⟨hlatest, hsame, -⟩ | ⟨-, t, ht, hdb⟩⟩ := subPeriodReturn_ok hrun
      · exact ⟨hlatest, upToDate_iff.mpr ⟨row, current, hlatest, hcurrent, hsame⟩⟩
      · have hgrown := Table.rows_insert ht
        rw [show t = db'.subPeriodReturns from (congrArg Database.subPeriodReturns hdb).symm] at hgrown
        simp at hgrown
    · rintro ⟨hlatest, hup⟩
      obtain ⟨row', hlatest', hrun⟩ := upToDate_iff_recompute.mp hup
      obtain rfl := Option.some.inj (hlatest.symm.trans hlatest')
      exact hrun
  rw [hfound]
  rcases h with ⟨hup, hlatest, hrows⟩ | ⟨hup, hcurrent, hrows⟩
  · dsimp only at hup hlatest hrows
    rw [upToDate_env, upToDate_congr hrows hbegin hend, hup, latestForSubPeriod, hrows]
    simpa [latestForSubPeriod] using hlatest
  · dsimp only at hup hcurrent hrows
    have hat := (currentSubPeriod_ok hcurrent).2.2.2
    rw [latestForSubPeriod_eq, hrows]
    constructor
    · rintro ⟨hlatest, -⟩ - r hr
      rw [← hat]
      exact (History.mem_of_latest hlatest).2 r (List.mem_append_left _ hr)
    · intro hbefore
      have hlatest : History.latest SubPeriodReturn.recordedAt
          (rowsOfWindow db customerId vBegin vEnd ++ [row]) = some row := by
        refine History.latest_append_of_lt fun r hr => lt_of_le_of_ne ?_ fun heq => ?_
        · rw [hat]
          exact hbefore hup r hr
        · -- the keys of a table are distinct
          have hkeys : ((rowsOfWindow db customerId vBegin vEnd ++ [row]).map
              SubPeriodReturn.key).Nodup := by
            rw [← hrows]
            exact db'.subPeriodReturns.nodup.sublist (List.filter_sublist.map _)
          rw [List.map_append, List.nodup_append] at hkeys
          obtain ⟨-, hrc, hra, hrb⟩ := mem_rowsOfWindow.mp hr
          obtain ⟨hc, ha, hb, -⟩ := currentSubPeriod_ok hcurrent
          refine hkeys.2.2 _ (List.mem_map_of_mem hr) (SubPeriodReturn.key row) (by simp) ?_
          simp only [SubPeriodReturn.key, hrc, hra, hrb, hc, ha, hb, heq]
      have hup' : upToDate db' env customerId vBegin vEnd = true := by
        refine upToDate_iff.mpr ⟨row, row, ?_, ?_, sameFigures_refl row⟩
        · rw [latestForSubPeriod_eq, hrows]
          exact hlatest
        · rw [currentSubPeriod_congr hbegin hend]
          exact hcurrent
      exact ⟨hlatest, upToDate_env.trans hup'⟩

end Window

/-! ### All windows of a period -/

section Windows
variable {env env' : Env} {customerId : Uuid} {db db' : Database} {rows : List SubPeriodReturn}

theorem subPeriodReturn_returns {vBegin vEnd : Date} {row : SubPeriodReturn}
    (h : (subPeriodReturn env customerId vBegin vEnd).run db = .ok (row, db')) :
    ∃ t added, db' = { db with subPeriodReturns := t } ∧ t.rows = db.subPeriodReturns.rows ++ added ∧
      ∀ r ∈ added, r.subPeriodStart = vBegin ∧ r.subPeriodEnd = vEnd ∧
        upToDate db env customerId vBegin vEnd = false := by
  rcases subPeriodReturn_cases h with ⟨-, -, rfl⟩ | ⟨hup, hcurrent, t, ht, rfl⟩
  · exact ⟨_, [], rfl, by simp, by simp⟩
  · obtain ⟨-, ha, hb, -⟩ := currentSubPeriod_ok hcurrent
    refine ⟨t, [row], rfl, Table.rows_insert ht, fun r hr => ?_⟩
    obtain rfl := List.mem_singleton.mp hr
    exact ⟨ha, hb, hup⟩

theorem subPeriodReturns_cons {window : Date × Date} {windows : List (Date × Date)} :
    (subPeriodReturns env customerId (window :: windows)).run db = .ok (rows, db') ↔
      ∃ row rest mid, rows = row :: rest ∧
        (subPeriodReturn env customerId window.1 window.2).run db = .ok (row, mid) ∧
        (subPeriodReturns env customerId windows).run mid = .ok (rest, db') := by
  obtain ⟨vBegin, vEnd⟩ := window
  simp only [subPeriodReturns, bind_ok, pure_ok]
  constructor
  · rintro ⟨row, mid, hrow, rest, _, hrest, rfl, rfl⟩
    exact ⟨row, rest, mid, rfl, hrow, hrest⟩
  · rintro ⟨row, rest, mid, rfl, hrow, hrest⟩
    exact ⟨row, mid, hrow, rest, db', hrest, rfl, rfl⟩

/-- **What a call did**, window by window, and that it only added rows, to windows that were not up
to date. -/
theorem subPeriodReturns_ok : ∀ {windows : List (Date × Date)} {db : Database}
    {rows : List SubPeriodReturn}, windows.Nodup →
    (subPeriodReturns env customerId windows).run db = .ok (rows, db') →
      List.Forall₂ (WindowRecomputed env customerId db db') windows rows ∧
        (∀ a b, (a, b) ∉ windows →
          rowsOfWindow db' customerId a b = rowsOfWindow db customerId a b) ∧
        ∃ t added, db' = { db with subPeriodReturns := t } ∧
          t.rows = db.subPeriodReturns.rows ++ added ∧
          ∀ r ∈ added, (r.subPeriodStart, r.subPeriodEnd) ∈ windows ∧
            upToDate db env customerId r.subPeriodStart r.subPeriodEnd = false
  | [], db, rows, _, h => by
    obtain ⟨rfl, rfl⟩ := pure_ok.mp h
    exact ⟨.nil, fun _ _ _ => rfl, db.subPeriodReturns, [], rfl, by simp, by simp⟩
  | (vBegin, vEnd) :: windows, db, rows, hnodup, h => by
    obtain ⟨hfirst, hrest⟩ := List.nodup_cons.mp hnodup
    obtain ⟨row, rest, mid, rfl, hrow, h⟩ := subPeriodReturns_cons.mp h
    obtain ⟨hall, hother, t, added, hdb', hrows, hadded⟩ := subPeriodReturns_ok hrest h
    obtain ⟨t₁, added₁, hmid, hrows₁, hadded₁⟩ := subPeriodReturn_returns hrow
    have hbook : ∀ day, SameBook db mid customerId day := by
      intro day
      rw [hmid]
      exact .returns db t₁ customerId day
    have hsame : ∀ w ∈ windows, rowsOfWindow mid customerId w.1 w.2 =
        rowsOfWindow db customerId w.1 w.2 := by
      intro w hw
      refine subPeriodReturn_rowsOfWindow hrow ?_
      rintro ⟨-, rfl, rfl⟩
      exact hfirst hw
    refine ⟨.cons ?_ ?_, fun a b hnot => ?_, t, added₁ ++ added, ?_, ?_, fun r hr => ?_⟩
    · exact (subPeriodReturn_recomputed hrow).congr rfl (hother vBegin vEnd hfirst)
        (SameBook.of_eq rfl rfl rfl _ _) (SameBook.of_eq rfl rfl rfl _ _)
    · have hmem := (List.forall₂_and_left windows rest).mpr ⟨fun w hw => hw, hall⟩
      exact hmem.imp fun w r ⟨hw, hr⟩ => hr.congr (hsame w hw) rfl (hbook _) (hbook _)
    · rw [hother a b fun hw => hnot (List.mem_cons_of_mem _ hw)]
      refine subPeriodReturn_rowsOfWindow hrow ?_
      rintro ⟨-, rfl, rfl⟩
      exact hnot (by simp)
    · rw [hdb', hmid]
    · rw [hrows, hmid]
      dsimp only
      rw [hrows₁, List.append_assoc]
    · rcases List.mem_append.mp hr with hr | hr
      · obtain ⟨rfl, rfl, hup⟩ := hadded₁ r hr
        exact ⟨by simp, hup⟩
      · obtain ⟨hw, hup⟩ := hadded r hr
        refine ⟨List.mem_cons_of_mem _ hw, ?_⟩
        rw [← upToDate_congr (hsame _ hw) (hbook _) (hbook _)]
        exact hup

theorem subPeriodReturns_unchanged_iff : ∀ {windows : List (Date × Date)} {rows : List SubPeriodReturn},
    windows.Nodup → ((subPeriodReturns env customerId windows).run db = .ok (rows, db) ↔
      List.Forall₂ (fun window row =>
        (subPeriodReturn env customerId window.1 window.2).run db = .ok (row, db)) windows rows)
  | [], rows, _ => by
    rw [List.forall₂_nil_left_iff]
    constructor
    · intro h
      exact (pure_ok.mp h).1.symm
    · rintro rfl
      rfl
  | window :: windows, rows, hnodup => by
    have hrest := (List.nodup_cons.mp hnodup).2
    rw [subPeriodReturns_cons, List.forall₂_cons_left_iff]
    constructor
    · rintro ⟨row, rest, mid, rfl, hrow, h⟩
      obtain ⟨t₁, added₁, hmid, hrows₁, -⟩ := subPeriodReturn_returns hrow
      obtain ⟨-, -, t, added, hdb, hrows, -⟩ := subPeriodReturns_ok hrest h
      have hgrown : db.subPeriodReturns.rows = t₁.rows ++ added := by
        rw [show db.subPeriodReturns = t from congrArg Database.subPeriodReturns hdb, hrows, hmid]
      have hnone : added₁ = [] := by
        rw [hrows₁, List.append_assoc, List.self_eq_append_right, List.append_eq_nil_iff] at hgrown
        exact hgrown.1
      have hsame : mid = db := by
        rw [hnone, List.append_nil] at hrows₁
        rw [hmid, Table.ext hrows₁]
      rw [hsame] at hrow h
      exact ⟨row, rest, hrow, (subPeriodReturns_unchanged_iff hrest).mp h, rfl⟩
    · rintro ⟨row, rest, hrow, h, rfl⟩
      exact ⟨row, rest, db, rfl, hrow, (subPeriodReturns_unchanged_iff hrest).mpr h⟩

/-- **A second call** adds nothing exactly when no row that the first one added is dated before a
stored row of its window. -/
theorem subPeriodReturns_again_iff {windows : List (Date × Date)}
    (hnodup : windows.Nodup) (hbook : ∀ day, SameBook db db' customerId day)
    (h : List.Forall₂ (WindowRecomputed env customerId db db') windows rows) :
    (subPeriodReturns env' customerId windows).run db' = .ok (rows, db') ↔
      ∀ w ∈ windows, upToDate db env customerId w.1 w.2 = false →
        ∀ r ∈ rowsOfWindow db customerId w.1 w.2, r.recordedAt ≤ env.transactionStart := by
  rw [subPeriodReturns_unchanged_iff hnodup]
  clear hnodup
  induction h with
  | nil => simp
  | @cons window row windows rows hwindow _ ih =>
    rw [List.forall₂_cons, ih, List.forall_mem_cons]
    exact and_congr_left' (hwindow.again_iff (hbook _) (hbook _))

end Windows

/-! ### A period -/

/-- A close leaves the books of the other days as they are. -/
theorem SameBook.of_addDailyClose {close : DailyClose} {db db' : Database} {u : Unit}
    (h : (addDailyClose close).run db = .ok (u, db')) (customerId : Uuid) {day : Date}
    (hday : day ≠ close.marketDate) : SameBook db db' customerId day := by
  obtain ⟨-, rfl⟩ := addDailyClose_ok.mp h
  refine ⟨rfl, fun _ _ => rfl, fun securityId => ?_⟩
  have hout : ¬ (close.securityId = securityId ∧ close.marketDate = day ∧ close.status = .confirmed) :=
    fun hmatch => hday hmatch.2.1.symm
  simp only [latestConfirmed, List.filter_append, List.filter_singleton, decide_eq_false hout]
  simp

section Period
variable {env : Env} {customerId : Uuid} {periodStart periodEnd : Date} {twr : ℚ}
  {rows : List SubPeriodReturn} {db db' : Database}

/-- The window begins or ends on the day. -/
def Touches (day : Date) (window : Date × Date) : Prop := window.1 = day ∨ window.2 = day

instance (day : Date) (window : Date × Date) : Decidable (Touches day window) :=
  inferInstanceAs (Decidable (_ ∨ _))

theorem pairwise_boundaries_nodup (db : Database) (customerId : Uuid) (periodStart periodEnd : Date) :
    (pairwise (boundaries db customerId periodStart periodEnd)).Nodup :=
  pairwise_nodup ((boundaries_sorted db customerId periodStart periodEnd).imp ne_of_lt)

/-- **Recomputing returns touches only what changed**: what is stored stays; a second call, at any
time, returns the same rows and adds none, unless a row that the first call added is dated before a
stored row of its window; and after a close was added, a row is added only for a window that begins
or ends on its day or that was not up to date before. -/
theorem computeTwr_recomputes
    (h : (computeTwr env customerId periodStart periodEnd).run db = .ok ((twr, rows), db')) :
    db.subPeriodReturns.rows <+: db'.subPeriodReturns.rows ∧
    (∀ env', (computeTwr env' customerId periodStart periodEnd).run db' = .ok ((twr, rows), db') ↔
      ∀ w ∈ pairwise (boundaries db customerId periodStart periodEnd),
        upToDate db env customerId w.1 w.2 = false →
          ∀ r ∈ rowsOfWindow db customerId w.1 w.2, r.recordedAt ≤ env.transactionStart) ∧
    ∀ db₀ close u, (addDailyClose close).run db₀ = .ok (u, db) →
      (∀ r ∈ db'.subPeriodReturns, r ∉ db₀.subPeriodReturns →
        Touches close.marketDate (r.subPeriodStart, r.subPeriodEnd) ∨
          upToDate db₀ env customerId r.subPeriodStart r.subPeriodEnd = false) ∧
      List.Forall₂ (fun w row => ¬ Touches close.marketDate w →
          upToDate db₀ env customerId w.1 w.2 = true →
          latestForSubPeriod db₀ customerId w.1 w.2 = some row)
        (pairwise (boundaries db₀ customerId periodStart periodEnd)) rows := by
  have hnodup := pairwise_boundaries_nodup db customerId periodStart periodEnd
  obtain ⟨hrun, hlink⟩ := computeTwr_ok.mp h
  obtain ⟨hall, -, t, added, rfl, hrows, hadded⟩ := subPeriodReturns_ok hnodup hrun
  refine ⟨⟨added, hrows.symm⟩, fun env' => ?_, fun db₀ close u hclose => ?_⟩
  · rw [computeTwr_ok, ← subPeriodReturns_again_iff hnodup (SameBook.returns db t customerId) hall]
    exact and_iff_left hlink
  · have hbook : ∀ day ≠ close.marketDate, SameBook db₀ db customerId day :=
      fun day hday => SameBook.of_addDailyClose hclose customerId hday
    have hreturns : db.subPeriodReturns = db₀.subPeriodReturns := by
      obtain ⟨-, rfl⟩ := addDailyClose_ok.mp hclose
      rfl
    have hdays : boundaries db customerId periodStart periodEnd =
        boundaries db₀ customerId periodStart periodEnd := by
      obtain ⟨-, rfl⟩ := addDailyClose_ok.mp hclose
      rfl
    have hstored : ∀ a b, rowsOfWindow db customerId a b = rowsOfWindow db₀ customerId a b := by
      intro a b
      rw [rowsOfWindow, hreturns, rowsOfWindow]
    have hup : ∀ w, ¬ Touches close.marketDate w →
        upToDate db env customerId w.1 w.2 = upToDate db₀ env customerId w.1 w.2 := by
      intro w hw
      obtain ⟨hbegin, hend⟩ := not_or.mp hw
      exact upToDate_congr (hstored _ _) (hbook _ hbegin) (hbook _ hend)
    constructor
    · intro r hr hnew
      rw [Table.mem_iff, hrows, hreturns] at hr
      obtain ⟨-, hstale⟩ := hadded r ((List.mem_append.mp hr).resolve_left hnew)
      by_cases htouches : Touches close.marketDate (r.subPeriodStart, r.subPeriodEnd)
      · exact Or.inl htouches
      · exact Or.inr ((hup _ htouches).symm.trans hstale)
    · rw [← hdays]
      refine hall.imp fun w row hrow htouches hcurrent => ?_
      rcases hrow with ⟨-, hlatest, -⟩ | ⟨hstale, -⟩
      · rw [latestForSubPeriod, ← hstored]
        exact hlatest
      · rw [hup w htouches, hcurrent] at hstale
        cases hstale

end Period

/-! ### The late dividend -/

/-- The dividend of day `1`, after the return of a period was computed. -/
def dividendAfter (periodStart periodEnd : Date) : Database :=
  atomically (writeEntry lateDividend lateDividendLegs) (depositAndReturn periodStart periodEnd)

/-- After the dividend a first call adds a row, and a second one nothing. -/
theorem computeTwr_recomputes_dividend : ∃ twr rows db',
    (computeTwr correctionEnv 1 0 3).run (dividendAfter 0 3) = .ok ((twr, rows), db') ∧
    ∀ env', (computeTwr env' 1 0 3).run db' = .ok ((twr, rows), db') := by
  have hrun : ((computeTwr correctionEnv 1 0 3).run (dividendAfter 0 3)).isOk := by decide +kernel
  obtain ⟨⟨⟨twr, rows⟩, db'⟩, h⟩ := exists_ok_of_isOk hrun
  refine ⟨twr, rows, db', h, fun env' => ((computeTwr_recomputes h).2.1 env').mpr ?_⟩
  decide +kernel

/-- The outside of a transaction that began before the return was computed. -/
def overlappingEnv : Env := envAt 259199999999 4

/-- The close of a security on day `9`. -/
def laterClose : DailyClose := ⟨7, 9, dollarsPerShare 10, .confirmed, 259200000001⟩

/-- A row that is added by a transaction that began before the stored one's stays behind it, and is
added once more by the next call; and a close of day `9` comes before a row for days `2` to `3`,
which the dividend had left stale. -/
theorem recomputation_adds_more :
    (¬ ∀ (env env' : Env) (customerId : Uuid) (periodStart periodEnd : Date) (twr : ℚ)
      (rows : List SubPeriodReturn) (db db' : Database),
      env.transactionStart < env'.transactionStart →
      (computeTwr env customerId periodStart periodEnd).run db = .ok ((twr, rows), db') →
      (computeTwr env' customerId periodStart periodEnd).run db' = .ok ((twr, rows), db')) ∧
    ¬ ∀ (env : Env) (customerId : Uuid) (periodStart periodEnd : Date) (twr : ℚ)
      (rows : List SubPeriodReturn) (db₀ db db' : Database) (close : DailyClose) (u : Unit),
      (addDailyClose close).run db₀ = .ok (u, db) →
      (computeTwr env customerId periodStart periodEnd).run db = .ok ((twr, rows), db') →
      ∀ r ∈ db'.subPeriodReturns, r ∉ db₀.subPeriodReturns →
        Touches close.marketDate (r.subPeriodStart, r.subPeriodEnd) ∨
          rowsOfWindow db₀ customerId r.subPeriodStart r.subPeriodEnd = [] := by
  constructor
  · intro h
    obtain ⟨⟨twr, rows⟩, hfirst⟩ := run_of_isOk (x := computeTwr overlappingEnv 1 0 3)
      (s := dividendAfter 0 3) (by decide +kernel)
    have hsecond := atomically_of_ok (h overlappingEnv correctionEnv _ _ _ _ _ _ _ (by decide) hfirst)
    have hmore : (atomically (computeTwr overlappingEnv 1 0 3) (dividendAfter 0 3)).subPeriodReturns ≠
        (atomically (computeTwr correctionEnv 1 0 3)
          (atomically (computeTwr overlappingEnv 1 0 3) (dividendAfter 0 3))).subPeriodReturns := by
      decide +kernel
    rw [hsecond] at hmore
    exact hmore rfl
  · intro h
    obtain ⟨u, hclose⟩ := run_of_isOk (x := addDailyClose laterClose) (s := dividendAfter 2 3)
      (by decide +kernel)
    obtain ⟨⟨twr, rows⟩, hcompute⟩ := run_of_isOk (x := computeTwr correctionEnv 1 2 3)
      (s := atomically (addDailyClose laterClose) (dividendAfter 2 3)) (by decide +kernel)
    have hmore : ∃ r ∈ (atomically (computeTwr correctionEnv 1 2 3)
        (atomically (addDailyClose laterClose) (dividendAfter 2 3))).subPeriodReturns.rows,
        r ∉ (dividendAfter 2 3).subPeriodReturns.rows ∧
          ¬ (Touches laterClose.marketDate (r.subPeriodStart, r.subPeriodEnd) ∨
            rowsOfWindow (dividendAfter 2 3) 1 r.subPeriodStart r.subPeriodEnd = []) := by
      decide +kernel
    obtain ⟨r, hr, hnew, hnot⟩ := hmore
    exact hnot (h _ _ _ _ _ _ _ _ _ _ _ hclose hcompute r hr hnew)

end Trueup.Restatement
