import Trueup.Restatement.Recomputation

/-! # Returns compose at the days of external flows

A day inside a period with an external flow is a boundary of the period, and the windows of the
period are those of its two parts (`pairwise_boundaries_append`); a window's row depends on nothing
but the window, so that the parts come to the rows of the whole (`computeTwr_composes`). -/

namespace Trueup.Restatement

open Trueup.Core Trueup.Models Trueup.Lib Trueup.Lib.Transaction Trueup.Ledger Trueup.Valuation

/-! ### The windows of a period and of its parts -/

/-- An external flow of the customer is dated the day. -/
def HasFlowOn (db : Database) (customerId : Uuid) (day : Date) : Prop :=
  ∃ p ∈ db.postings, p.account.customerId = some customerId ∧
    ∃ entry, db.journalEntries.find p.journalEntryId = some entry ∧ isExternalFlow entry ∧
      entry.effectiveDate = day

theorem mem_flowDates_iff {db : Database} {customerId : Uuid} {periodStart periodEnd day : Date} :
    day ∈ flowDates db customerId periodStart periodEnd ↔
      HasFlowOn db customerId day ∧ periodStart < day ∧ day < periodEnd := by
  rw [mem_flowDates]
  constructor
  · rintro ⟨p, hp, hc, entry, hfind, hflow, hlo, hhi, rfl⟩
    exact ⟨⟨p, hp, hc, entry, hfind, hflow, rfl⟩, hlo, hhi⟩
  · rintro ⟨⟨p, hp, hc, entry, hfind, hflow, rfl⟩, hlo, hhi⟩
    exact ⟨p, hp, hc, entry, hfind, hflow, hlo, hhi, rfl⟩

theorem pairwise_append {α : Type} {b : α} {right : List α} :
    ∀ left : List α, pairwise (left ++ b :: right) = pairwise (left ++ [b]) ++ pairwise (b :: right)
  | [] => rfl
  | [x] => rfl
  | x :: y :: left => by
    have h := @pairwise_append α b right (y :: left)
    exact congrArg ((x, y) :: ·) h

theorem eq_append_of_greatest {days : List Date} (h : days.Pairwise (· < ·)) {b : Date} (hb : b ∈ days)
    (hgreatest : ∀ day ∈ days, day ≤ b) : ∃ left, days = left ++ [b] := by
  obtain ⟨left, right, rfl⟩ := List.append_of_mem hb
  cases right with
  | nil => exact ⟨left, rfl⟩
  | cons day right =>
    have hlt : b < day := (List.pairwise_cons.mp (List.pairwise_append.mp h).2.1).1 day (by simp)
    exact absurd (hgreatest day (by simp)) (not_le.mpr hlt)

theorem eq_cons_of_least {days : List Date} (h : days.Pairwise (· < ·)) {b : Date} (hb : b ∈ days)
    (hleast : ∀ day ∈ days, b ≤ day) : ∃ right, days = b :: right := by
  obtain ⟨left, right, rfl⟩ := List.append_of_mem hb
  cases left with
  | nil => exact ⟨right, rfl⟩
  | cons day left =>
    have hlt : day < b := (List.pairwise_cons.mp h).1 b (by simp)
    exact absurd (hleast day (by simp)) (not_le.mpr hlt)

section Period
variable {db : Database} {customerId : Uuid} {a b c : Date}

/-- The boundaries of a period that is cut at a day with a flow are those of its parts. -/
theorem boundaries_append (hab : a < b) (hbc : b < c) (hflow : HasFlowOn db customerId b) :
    ∃ left right, boundaries db customerId a b = left ++ [b] ∧
      boundaries db customerId b c = b :: right ∧
      boundaries db customerId a c = left ++ b :: right := by
  have hbefore : ∀ day ∈ boundaries db customerId a b, day ≤ b := by
    intro day hday
    rcases mem_boundaries.mp hday with rfl | rfl | hday
    · exact hab.le
    · exact le_rfl
    · exact (mem_flowDates_iff.mp hday).2.2.le
  have hafter : ∀ day ∈ boundaries db customerId b c, b ≤ day := by
    intro day hday
    rcases mem_boundaries.mp hday with rfl | rfl | hday
    · exact le_rfl
    · exact hbc.le
    · exact (mem_flowDates_iff.mp hday).2.1.le
  obtain ⟨left, hleft⟩ := eq_append_of_greatest (boundaries_sorted db customerId a b)
    (mem_boundaries.mpr (Or.inr (Or.inl rfl))) hbefore
  obtain ⟨right, hright⟩ := eq_cons_of_least (boundaries_sorted db customerId b c)
    (mem_boundaries.mpr (Or.inl rfl)) hafter
  refine ⟨left, right, hleft, hright, ?_⟩
  have hsorted : (left ++ b :: right).Pairwise (· < ·) := by
    have hl := boundaries_sorted db customerId a b
    have hr := boundaries_sorted db customerId b c
    rw [hleft, List.pairwise_append] at hl
    rw [hright] at hr
    refine List.pairwise_append.mpr ⟨hl.1, hr, fun x hx y hy => ?_⟩
    refine lt_of_lt_of_le (hl.2.2 x hx b (by simp)) ?_
    rw [← hright] at hy
    exact hafter y hy
  have hmem : ∀ day, day ∈ boundaries db customerId a c ↔ day ∈ left ++ b :: right := by
    intro day
    have hcut : day ∈ left ++ b :: right ↔ day ∈ boundaries db customerId a b ∨
        day ∈ boundaries db customerId b c := by
      rw [hleft, hright]
      simp only [List.mem_append, List.mem_cons, List.not_mem_nil, or_false]
      tauto
    rw [hcut]
    simp only [mem_boundaries, mem_flowDates_iff]
    constructor
    · rintro (rfl | rfl | ⟨hday, hlo, hhi⟩)
      · exact Or.inl (Or.inl rfl)
      · exact Or.inr (Or.inr (Or.inl rfl))
      · rcases lt_trichotomy day b with hlt | rfl | hlt
        · exact Or.inl (Or.inr (Or.inr ⟨hday, hlo, hlt⟩))
        · exact Or.inl (Or.inr (Or.inl rfl))
        · exact Or.inr (Or.inr (Or.inr ⟨hday, hlt, hhi⟩))
    · rintro ((rfl | rfl | ⟨hday, hlo, hhi⟩) | (rfl | rfl | ⟨hday, hlo, hhi⟩))
      · exact Or.inl rfl
      · exact Or.inr (Or.inr ⟨hflow, hab, hbc⟩)
      · exact Or.inr (Or.inr ⟨hday, hlo, hhi.trans hbc⟩)
      · exact Or.inr (Or.inr ⟨hflow, hab, hbc⟩)
      · exact Or.inr (Or.inl rfl)
      · exact Or.inr (Or.inr ⟨hday, hab.trans hlo, hhi⟩)
  exact eq_of_increasing (boundaries_sorted db customerId a c) hsorted hmem

/-- **The windows of a period** that is cut at a day with a flow are those of its parts. -/
theorem pairwise_boundaries_append (hab : a < b) (hbc : b < c) (hflow : HasFlowOn db customerId b) :
    pairwise (boundaries db customerId a c) =
      pairwise (boundaries db customerId a b) ++ pairwise (boundaries db customerId b c) := by
  obtain ⟨left, right, hleft, hright, hwhole⟩ := boundaries_append hab hbc hflow
  rw [hleft, hright, hwhole, pairwise_append]

end Period

/-! ### The rows -/

section Rows
variable {env : Env} {customerId : Uuid}

theorem subPeriodReturns_append {ys : List (Date × Date)} : ∀ {xs : List (Date × Date)}
    {rows : List SubPeriodReturn} {db db' : Database},
    (subPeriodReturns env customerId (xs ++ ys)).run db = .ok (rows, db') ↔
      ∃ rows₁ mid rows₂, rows = rows₁ ++ rows₂ ∧
        (subPeriodReturns env customerId xs).run db = .ok (rows₁, mid) ∧
        (subPeriodReturns env customerId ys).run mid = .ok (rows₂, db')
  | [], rows, db, db' => by
    constructor
    · intro h
      exact ⟨[], db, rows, rfl, rfl, h⟩
    · rintro ⟨rows₁, mid, rows₂, rfl, hnone, h⟩
      obtain ⟨rfl, rfl⟩ := pure_ok.mp hnone
      exact h
  | x :: xs, rows, db, db' => by
    rw [List.cons_append, subPeriodReturns_cons]
    constructor
    · rintro ⟨row, rest, mid, rfl, hrow, hrest⟩
      obtain ⟨rows₁, mid', rows₂, rfl, hrows₁, hrows₂⟩ := subPeriodReturns_append.mp hrest
      exact ⟨row :: rows₁, mid', rows₂, rfl,
        subPeriodReturns_cons.mpr ⟨row, rows₁, mid, rfl, hrow, hrows₁⟩, hrows₂⟩
    · rintro ⟨rows₁, mid', rows₂, rfl, hrows₁, hrows₂⟩
      obtain ⟨row, rest, mid, rfl, hrow, hrest⟩ := subPeriodReturns_cons.mp hrows₁
      exact ⟨row, rest ++ rows₂, mid, rfl, hrow,
        subPeriodReturns_append.mpr ⟨rest, mid', rows₂, rfl, hrest, hrows₂⟩⟩

/-- The row that a call from the state finds or computes for the window. -/
def IsRowOf (env : Env) (customerId : Uuid) (db : Database) (window : Date × Date)
    (row : SubPeriodReturn) : Prop :=
  ∃ db', WindowRecomputed env customerId db db' window row

/-- Calls from one state find or compute the same rows. -/
theorem rows_unique {db : Database} : ∀ {windows : List (Date × Date)}
    {rows rows' : List SubPeriodReturn}, List.Forall₂ (IsRowOf env customerId db) windows rows →
    List.Forall₂ (IsRowOf env customerId db) windows rows' → rows = rows'
  | _, _, _, .nil, .nil => rfl
  | _, _, _, .cons h hrest, .cons h' hrest' => by
    obtain ⟨s, hs⟩ := h
    obtain ⟨s', hs'⟩ := h'
    rw [hs.unique hs', rows_unique hrest hrest']

theorem computeTwr_of_rows {periodStart periodEnd : Date} {rows : List SubPeriodReturn}
    {db db' : Database} (h : (subPeriodReturns env customerId
      (pairwise (boundaries db customerId periodStart periodEnd))).run db = .ok (rows, db')) :
    (computeTwr env customerId periodStart periodEnd).run db =
      (link rows).map fun twr => ((twr, rows), db') := by
  cases hlink : link rows with
  | ok twr => exact computeTwr_ok.mpr ⟨h, hlink⟩
  | error e =>
    have hread : (computeTwr env customerId periodStart periodEnd).run db =
        (subPeriodReturns env customerId (pairwise (boundaries db customerId periodStart
          periodEnd)) >>= fun rows => lift (link rows) >>= fun twr => pure (twr, rows)).run db := rfl
    rw [hread, StateT.run_bind, h]
    show (lift (link rows) >>= fun twr => pure (twr, rows)).run db' = _
    rw [hlink]
    rfl

/-- **Returns compose at the days of external flows**: the rows of a period are those of its parts
before and after the day, the parts in turn store what the whole stores, and what they stored is
what a later call over the whole period finds, unless it is dated before what was stored already. -/
theorem computeTwr_composes {db : Database} {a b c : Date} (hab : a < b) (hbc : b < c)
    (hflow : HasFlowOn db customerId b) :
    (∀ whole first second db' db₁ db₂,
      (computeTwr env customerId a c).run db = .ok (whole, db') →
      (computeTwr env customerId a b).run db = .ok (first, db₁) →
      (computeTwr env customerId b c).run db = .ok (second, db₂) →
      whole.2 = first.2 ++ second.2 ∧ link (first.2 ++ second.2) = .ok whole.1) ∧
    (∀ first second mid db', (computeTwr env customerId a b).run db = .ok (first, mid) →
      (computeTwr env customerId b c).run mid = .ok (second, db') →
      (computeTwr env customerId a c).run db = (link (first.2 ++ second.2)).map
        (fun twr => ((twr, first.2 ++ second.2), db')) ∧
      ((∀ r ∈ db.subPeriodReturns, r.recordedAt ≤ env.transactionStart) → ∀ env',
        (computeTwr env' customerId a c).run db' = (link (first.2 ++ second.2)).map
          fun twr => ((twr, first.2 ++ second.2), db'))) ∧
    ∀ whole db', (computeTwr env customerId a c).run db = .ok (whole, db') →
      ∃ rows₁ mid rows₂, whole.2 = rows₁ ++ rows₂ ∧
        (computeTwr env customerId a b).run db = (link rows₁).map (fun twr => ((twr, rows₁), mid)) ∧
        (computeTwr env customerId b c).run mid =
          (link rows₂).map fun twr => ((twr, rows₂), db') := by
  have hwindows := pairwise_boundaries_append hab hbc hflow
  have hnodup := pairwise_boundaries_nodup db customerId
  -- the first part leaves the boundaries of the second as they are
  have hmiddle : ∀ {rows mid}, (subPeriodReturns env customerId
      (pairwise (boundaries db customerId a b))).run db = .ok (rows, mid) →
      boundaries mid customerId b c = boundaries db customerId b c := by
    intro rows mid h
    obtain ⟨-, -, t, -, rfl, -⟩ := subPeriodReturns_ok (hnodup a b) h
    rfl
  refine ⟨fun whole first second db' db₁ db₂ h h₁ h₂ => ?_, fun first second mid db' h₁ h₂ => ?_,
    fun whole db' h => ?_⟩
  · obtain ⟨hrun, hlink⟩ := computeTwr_ok.mp h
    obtain ⟨hrun₁, -⟩ := computeTwr_ok.mp h₁
    obtain ⟨hrun₂, -⟩ := computeTwr_ok.mp h₂
    obtain ⟨hall, -⟩ := subPeriodReturns_ok (hnodup a c) hrun
    obtain ⟨hall₁, -⟩ := subPeriodReturns_ok (hnodup a b) hrun₁
    obtain ⟨hall₂, -⟩ := subPeriodReturns_ok (hnodup b c) hrun₂
    have hof : ∀ {s : Database} (w row), WindowRecomputed env customerId db s w row →
        IsRowOf env customerId db w row := fun w row hrow => ⟨_, hrow⟩
    have hparts : List.Forall₂ (IsRowOf env customerId db) (pairwise (boundaries db customerId a b) ++
        pairwise (boundaries db customerId b c)) (first.2 ++ second.2) :=
      List.rel_append (hall₁.imp hof) (hall₂.imp hof)
    rw [← hwindows] at hparts
    have hrows := rows_unique (hall.imp hof) hparts
    exact ⟨hrows, hrows ▸ hlink⟩
  · obtain ⟨hrun₁, -⟩ := computeTwr_ok.mp h₁
    obtain ⟨hrun₂, -⟩ := computeTwr_ok.mp h₂
    rw [hmiddle hrun₁] at hrun₂
    have hrun : (subPeriodReturns env customerId (pairwise (boundaries db customerId a c))).run db =
        .ok (first.2 ++ second.2, db') := by
      rw [hwindows, subPeriodReturns_append]
      exact ⟨first.2, mid, second.2, rfl, hrun₁, hrun₂⟩
    refine ⟨computeTwr_of_rows hrun, fun hrecorded env' => ?_⟩
    obtain ⟨hall, -, t, -, rfl, -⟩ := subPeriodReturns_ok (hnodup a c) hrun
    refine computeTwr_of_rows ((subPeriodReturns_again_iff (hnodup a c)
      (SameBook.returns db t customerId) hall).mpr ?_)
    intro w _ _ r hr
    exact hrecorded r (mem_rowsOfWindow.mp hr).1
  · obtain ⟨hrun, -⟩ := computeTwr_ok.mp h
    rw [hwindows, subPeriodReturns_append] at hrun
    obtain ⟨rows₁, mid, rows₂, hrows, hrun₁, hrun₂⟩ := hrun
    refine ⟨rows₁, mid, rows₂, hrows, computeTwr_of_rows hrun₁, computeTwr_of_rows ?_⟩
    rw [hmiddle hrun₁]
    exact hrun₂

end Rows

/-- The deposit of day `0` cuts the period from the day before. -/
theorem computeTwr_composes_deposit : ∃ whole first second db' db₁ db₂,
    (computeTwr correctionEnv 1 (-1) 3).run (depositAndReturn 0 3) = .ok (whole, db') ∧
    (computeTwr correctionEnv 1 (-1) 0).run (depositAndReturn 0 3) = .ok (first, db₁) ∧
    (computeTwr correctionEnv 1 0 3).run (depositAndReturn 0 3) = .ok (second, db₂) ∧
    whole.2 = first.2 ++ second.2 := by
  have hflow : HasFlowOn (depositAndReturn 0 3) 1 0 := by
    have hday : (0 : Date) ∈ flowDates (depositAndReturn 0 3) 1 (-1) 3 := by decide +kernel
    exact (mem_flowDates_iff.mp hday).1
  obtain ⟨whole, hwhole⟩ := run_of_isOk (x := computeTwr correctionEnv 1 (-1) 3)
    (s := depositAndReturn 0 3) (by decide +kernel)
  obtain ⟨first, hfirst⟩ := run_of_isOk (x := computeTwr correctionEnv 1 (-1) 0)
    (s := depositAndReturn 0 3) (by decide +kernel)
  obtain ⟨second, hsecond⟩ := run_of_isOk (x := computeTwr correctionEnv 1 0 3)
    (s := depositAndReturn 0 3) (by decide +kernel)
  exact ⟨whole, first, second, _, _, _, hwhole, hfirst, hsecond,
    ((computeTwr_composes (by decide) (by decide) hflow).1 _ _ _ _ _ _ hwhole hfirst hsecond).1⟩

end Trueup.Restatement
