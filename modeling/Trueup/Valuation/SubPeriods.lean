import Trueup.Lib.History
import Trueup.Valuation.TwrService

/-! # The stored sub-periods

The rows `TwrService` stores are an append-only history: a recomputation adds at most one row, dated
by the start of its transaction.

* `currentSubPeriod_eq_ok`: the figures of a window.
* `subPeriodReturn_ok`: what one recomputation stored, and what it returned.
* `currentSubPeriod_congr`: the figures of a window depend on what the customer's book and the
  closes are at its two ends only.
* `boundaries_congr`: the pieces of a period depend on the set of its flow dates only. -/

namespace Trueup.Valuation

open Trueup.Core Trueup.Models Trueup.Lib Trueup.Lib.Transaction Trueup.Ledger

/-! ### One recomputation -/

/-- The return of a window, from the values at its ends and what flowed in at its end. -/
def returnOf (valueBegin valueEnd flowAmount : Money) : Except Error ℚ :=
  if valueBegin = 0 then quantizeReturn 0
  else do
    let change ← valueEnd.sub valueBegin
    let gain ← change.sub flowAmount
    quantizeReturn (← Money.ratio gain valueBegin)

/-- The figures of a window: the values of the book at its ends, the flow at its end and the return. -/
theorem currentSubPeriod_eq_ok {db : Database} {env : Env} {customerId : Uuid} {vBegin vEnd : Date}
    {row : SubPeriodReturn} : currentSubPeriod db env customerId vBegin vEnd = .ok row ↔
      ∃ bookBegin bookEnd flow returnPct, valueBook db customerId vBegin = .ok bookBegin ∧
        valueBook db customerId vEnd = .ok bookEnd ∧ flowAmountOn db customerId vEnd = .ok flow ∧
        returnOf bookBegin.totalValue bookEnd.totalValue flow = .ok returnPct ∧
        row = ⟨customerId, vBegin, vEnd, returnPct, bookBegin.totalValue, bookEnd.totalValue, flow,
          bookBegin.isPartial || bookEnd.isPartial, env.transactionStart⟩ := by
  simp only [currentSubPeriod, returnOf, except_bind_ok]
  constructor
  · rintro ⟨bookBegin, hbegin, bookEnd, hend, flow, hflow, h⟩
    split_ifs at h with hnothing
    · obtain ⟨returnPct, hreturn, h⟩ := except_bind_ok.mp h
      cases h
      exact ⟨bookBegin, bookEnd, flow, returnPct, hbegin, hend, hflow, by rwa [if_pos hnothing], rfl⟩
    · simp only [except_bind_ok] at h
      obtain ⟨change, hchange, gain, hgain, ratio, hratio, returnPct, hreturn, h⟩ := h
      cases h
      refine ⟨bookBegin, bookEnd, flow, returnPct, hbegin, hend, hflow, ?_, rfl⟩
      simp only [if_neg hnothing, except_bind_ok]
      exact ⟨change, hchange, gain, hgain, ratio, hratio, hreturn⟩
  · rintro ⟨bookBegin, bookEnd, flow, returnPct, hbegin, hend, hflow, hreturn, rfl⟩
    refine ⟨bookBegin, hbegin, bookEnd, hend, flow, hflow, ?_⟩
    split_ifs at hreturn ⊢ with hnothing
    · exact except_bind_ok.mpr ⟨returnPct, hreturn, rfl⟩
    · simp only [except_bind_ok] at hreturn ⊢
      obtain ⟨change, hchange, gain, hgain, ratio, hratio, hreturn⟩ := hreturn
      exact ⟨change, hchange, gain, hgain, ratio, hratio, returnPct, hreturn, rfl⟩

theorem currentSubPeriod_ok {db : Database} {env : Env} {customerId : Uuid} {vBegin vEnd : Date}
    {row : SubPeriodReturn} (h : currentSubPeriod db env customerId vBegin vEnd = .ok row) :
    row.customerId = customerId ∧ row.subPeriodStart = vBegin ∧ row.subPeriodEnd = vEnd ∧
      row.recordedAt = env.transactionStart := by
  obtain ⟨_, _, _, _, -, -, -, -, rfl⟩ := currentSubPeriod_eq_ok.mp h
  exact ⟨rfl, rfl, rfl, rfl⟩

theorem mem_rowsOfWindow {db : Database} {customerId : Uuid} {vBegin vEnd : Date}
    {row : SubPeriodReturn} : row ∈ rowsOfWindow db customerId vBegin vEnd ↔
      row ∈ db.subPeriodReturns ∧ row.customerId = customerId ∧ row.subPeriodStart = vBegin ∧
        row.subPeriodEnd = vEnd := by
  simp [rowsOfWindow, Table.mem_iff]

theorem latestForSubPeriod_eq (db : Database) (customerId : Uuid) (vBegin vEnd : Date) :
    latestForSubPeriod db customerId vBegin vEnd =
      History.latest SubPeriodReturn.recordedAt (rowsOfWindow db customerId vBegin vEnd) := rfl

theorem asOfForSubPeriod_eq (db : Database) (customerId : Uuid) (vBegin vEnd : Date)
    (cutoff : Instant) : asOfForSubPeriod db customerId vBegin vEnd cutoff =
      History.asOf SubPeriodReturn.recordedAt cutoff
        (rowsOfWindow db customerId vBegin vEnd) := rfl

/-- **One recomputation**: the latest stored row, when it has the figures of now, or a new row. -/
theorem subPeriodReturn_ok {env : Env} {customerId : Uuid} {vBegin vEnd : Date}
    {row : SubPeriodReturn} {db db' : Database}
    (h : (subPeriodReturn env customerId vBegin vEnd).run db = .ok (row, db')) :
    ∃ current, currentSubPeriod db env customerId vBegin vEnd = .ok current ∧
      ((latestForSubPeriod db customerId vBegin vEnd = some row ∧ sameFigures current row ∧
          db' = db) ∨
        (row = current ∧ ∃ t, db.subPeriodReturns.insert current = some t ∧
          db' = { db with subPeriodReturns := t })) := by
  simp only [subPeriodReturn, bind_ok, read_ok] at h
  obtain ⟨current, _, ⟨hcurrent, rfl⟩, existing, _, ⟨hexisting, rfl⟩, h⟩ := h
  cases hexisting
  refine ⟨current, hcurrent, ?_⟩
  split at h
  · rename_i e he
    obtain ⟨rfl, rfl⟩ := pure_ok.mp h
    obtain ⟨hlatest, hsame⟩ := Option.filter_eq_some_iff.mp he
    exact Or.inl ⟨hlatest, hsame, rfl⟩
  · simp only [bind_ok, addSubPeriodReturn_ok, pure_ok] at h
    obtain ⟨_, _, ⟨-, t, ht, rfl⟩, rfl, rfl⟩ := h
    exact Or.inr ⟨rfl, t, ht, rfl⟩

theorem subPeriodReturn_rowsOfWindow {env : Env} {customerId : Uuid} {vBegin vEnd : Date}
    {row : SubPeriodReturn} {db db' : Database}
    (h : (subPeriodReturn env customerId vBegin vEnd).run db = .ok (row, db')) {c : Uuid}
    {a b : Date} (hne : ¬ (c = customerId ∧ a = vBegin ∧ b = vEnd)) :
    rowsOfWindow db' c a b = rowsOfWindow db c a b := by
  obtain ⟨current, hcurrent, ⟨-, -, rfl⟩ | ⟨-, t, ht, rfl⟩⟩ := subPeriodReturn_ok h
  · rfl
  · obtain ⟨hc, ha, hb, -⟩ := currentSubPeriod_ok hcurrent
    simp only [rowsOfWindow, Table.rows_insert ht, List.filter_append]
    have hout : ¬ (current.customerId = c ∧ current.subPeriodStart = a ∧
        current.subPeriodEnd = b) := by
      rintro ⟨rfl, rfl, rfl⟩
      exact hne ⟨hc, ha, hb⟩
    simp [hout]

/-- When nothing was recorded at or after the start of the transaction, the row a recomputation
returns is the latest of its window afterwards, as of the start of the transaction. -/
theorem subPeriodReturn_asOf {env : Env} {customerId : Uuid} {vBegin vEnd : Date}
    {row : SubPeriodReturn} {db db' : Database}
    (h : (subPeriodReturn env customerId vBegin vEnd).run db = .ok (row, db'))
    (hbefore : ∀ r ∈ rowsOfWindow db customerId vBegin vEnd, r.recordedAt < env.transactionStart) :
    asOfForSubPeriod db' customerId vBegin vEnd env.transactionStart = some row := by
  rw [asOfForSubPeriod_eq]
  obtain ⟨current, hcurrent, ⟨hlatest, -, rfl⟩ | ⟨rfl, t, ht, rfl⟩⟩ := subPeriodReturn_ok h
  · rw [History.asOf_eq_latest fun r hr => (hbefore r hr).le]
    exact hlatest
  · obtain ⟨hc, ha, hb, hat⟩ := currentSubPeriod_ok hcurrent
    have hrows : rowsOfWindow { db with subPeriodReturns := t } customerId vBegin vEnd =
        rowsOfWindow db customerId vBegin vEnd ++ [row] := by
      simp [rowsOfWindow, Table.rows_insert ht, hc, ha, hb]
    rw [hrows, History.asOf_eq_latest, History.latest_append_of_lt]
    · intro r hr
      rw [hat]
      exact hbefore r hr
    · intro r hr
      rcases List.mem_append.mp hr with hold | hnew
      · exact (hbefore r hold).le
      · rw [List.mem_singleton.mp hnew, hat]

/-! ### What the figures depend on -/

/-- The customer's postings that are effective by a day. -/
def bookOf (db : Database) (customerId : Uuid) (day : Date) : List Posting :=
  db.postings.filter fun p =>
    decide (p.account.customerId = some customerId) && isEffectiveBy db day p

/-- The customer's book and the closes of a day are the same. -/
structure SameBook (db db' : Database) (customerId : Uuid) (day : Date) : Prop where
  postings : bookOf db' customerId day = bookOf db customerId day
  entries : ∀ p ∈ bookOf db customerId day,
    db'.journalEntries.find p.journalEntryId = db.journalEntries.find p.journalEntryId
  closes : ∀ securityId, latestConfirmed db' securityId day = latestConfirmed db securityId day

theorem SameBook.of_eq {db db' : Database} (hentries : db'.journalEntries = db.journalEntries)
    (hpostings : db'.postings = db.postings) (hcloses : db'.dailyCloses = db.dailyCloses)
    (customerId : Uuid) (day : Date) : SameBook db db' customerId day where
  postings := by simp only [bookOf, isEffectiveBy, hentries, hpostings]
  entries _ _ := by rw [hentries]
  closes _ := by simp only [latestConfirmed, hcloses]

theorem SameBook.returns (db : Database) (t : Table SubPeriodReturn.key) (customerId : Uuid)
    (day : Date) : SameBook db { db with subPeriodReturns := t } customerId day :=
  ⟨rfl, fun _ _ => rfl, fun _ => rfl⟩

theorem SameBook.of_writeEntry {entry e : JournalEntry} {legs : List PostingLeg}
    {db db' : Database} (h : (writeEntry entry legs).run db = .ok (e, db'))
    (hknown : PostingsKnown db) (customerId : Uuid) {day : Date} (hday : day < entry.effectiveDate) :
    SameBook db db' customerId day := by
  obtain ⟨-, -, rfl, t, ht, hdb'⟩ := writeEntry_ok.mp h
  have hpostings : db'.postings = db.postings ++ legs.filterMap (PostingLeg.posting e.id) := by
    rw [hdb']
  have hfind : ∀ id, db'.journalEntries.find id =
      if e.id = id then some e else db.journalEntries.find id := by
    intro id
    rw [hdb']
    exact Table.find_insert ht id
  have hold : ∀ p ∈ db.postings,
      db'.journalEntries.find p.journalEntryId = db.journalEntries.find p.journalEntryId := by
    intro p hp
    rw [hdb']
    exact Table.find_insert_of_has ht (hknown p hp)
  have hnew : (legs.filterMap (PostingLeg.posting e.id)).filter (fun p =>
      decide (p.account.customerId = some customerId) && isEffectiveBy db' day p) = [] := by
    refine List.filter_eq_nil_iff.mpr fun p hp => ?_
    obtain ⟨leg, -, hleg⟩ := List.mem_filterMap.mp hp
    obtain ⟨amount, -, rfl⟩ := Option.map_eq_some_iff.mp hleg
    simp [isEffectiveBy, hfind, hday]
  refine ⟨?_, fun p hp => hold p (List.mem_of_mem_filter hp), fun _ => by rw [hdb']; rfl⟩
  rw [bookOf, hpostings, List.filter_append, hnew, List.append_nil, bookOf]
  refine List.filter_congr fun p hp => ?_
  simp only [isEffectiveBy, hold p hp]

theorem cashBalance_eq (db : Database) (customerId : Uuid) (day : Date) :
    cashBalance db customerId day = QuantizedDecimal.ofSum
      (((bookOf db customerId day).filter (isCashOf customerId)).map (·.amount.moneyQuanta)).sum := by
  rw [cashBalance, bookOf, List.filter_filter]
  congr 4
  funext p
  by_cases hc : p.account.customerId = some customerId <;> simp [isCashOf, hc]

theorem positionPostings_eq (db : Database) (customerId : Uuid) (day : Date) :
    (db.postings.filter fun p => isUnitsOf customerId p && isEffectiveBy db day p) =
      (bookOf db customerId day).filter (isUnitsOf customerId) := by
  rw [bookOf, List.filter_filter]
  congr 1
  funext p
  by_cases hc : p.account.customerId = some customerId <;> simp [isUnitsOf, hc]

/-- The external flows of a day are in the book of the day. -/
theorem flowAmountOn_eq (db : Database) (customerId : Uuid) (day : Date) :
    flowAmountOn db customerId day = QuantizedDecimal.ofSum
      (((bookOf db customerId day).filter fun p => isCashOf customerId p &&
        decide (∃ entry ∈ db.journalEntries.find p.journalEntryId,
          isExternalFlow entry ∧ entry.effectiveDate = day)).map (·.amount.moneyQuanta)).sum := by
  rw [flowAmountOn, bookOf, List.filter_filter]
  congr 4
  funext p
  by_cases hc : p.account.customerId = some customerId
  · by_cases hflow : ∃ entry ∈ db.journalEntries.find p.journalEntryId,
        isExternalFlow entry ∧ entry.effectiveDate = day
    · obtain ⟨entry, hentry, -, hday⟩ := id hflow
      have heff : isEffectiveBy db day p = true := by
        simp only [isEffectiveBy, decide_eq_true_eq]
        exact ⟨entry, hentry, hday.le⟩
      simp [hc, heff]
    · simp only [decide_eq_false hflow, Bool.and_false, Bool.false_and]
  · simp [isCashOf, hc]

section SameBook
variable {db db' : Database} {customerId : Uuid}

theorem addPositions_congr {day : Date}
    (h : ∀ securityId, latestConfirmed db' securityId day = latestConfirmed db securityId day) :
    ∀ positions book, addPositions db' day positions book = addPositions db day positions book
  | [], _ => rfl
  | (securityId, units) :: positions, book => by
    simp only [addPositions, h securityId]
    split_ifs
    · exact addPositions_congr h positions book
    · split
      · exact addPositions_congr h positions _
      · simp only [addPositions_congr h positions]

theorem valueBook_congr {day : Date} (h : SameBook db db' customerId day) :
    valueBook db' customerId day = valueBook db customerId day := by
  have hpositions : positionUnits db' customerId day = positionUnits db customerId day := by
    simp only [positionUnits, positionPostings_eq, h.postings]
  simp only [valueBook, cashBalance_eq, h.postings, hpositions, addPositions_congr h.closes]

theorem flowAmountOn_congr {day : Date} (h : SameBook db db' customerId day) :
    flowAmountOn db' customerId day = flowAmountOn db customerId day := by
  rw [flowAmountOn_eq, flowAmountOn_eq, h.postings]
  congr 3
  refine List.filter_congr fun p hp => ?_
  rw [h.entries p hp]

/-- **The figures of a window** are those of the book at its two ends. -/
theorem currentSubPeriod_congr {env : Env} {vBegin vEnd : Date}
    (hbegin : SameBook db db' customerId vBegin) (hend : SameBook db db' customerId vEnd) :
    currentSubPeriod db' env customerId vBegin vEnd =
      currentSubPeriod db env customerId vBegin vEnd := by
  simp only [currentSubPeriod, valueBook_congr hbegin, valueBook_congr hend,
    flowAmountOn_congr hend]

end SameBook

/-! ### What is linked -/

theorem link_congr {rows rows' : List SubPeriodReturn}
    (h : rows.map (·.returnPct) = rows'.map (·.returnPct)) : link rows = link rows' := by
  have hfold : ∀ (rows : List SubPeriodReturn) (linked : ℚ),
      rows.foldl (fun linked row => context (linked * context (1 + row.returnPct))) linked =
        (rows.map (·.returnPct)).foldl (fun linked r => context (linked * context (1 + r))) linked := by
    intro rows linked
    rw [List.foldl_map]
  rw [link, link, hfold, hfold, h]

theorem subPeriodReturns_returns {env : Env} {customerId : Uuid} :
    ∀ {windows : List (Date × Date)} {db db' : Database} {rows : List SubPeriodReturn},
    (subPeriodReturns env customerId windows).run db = .ok (rows, db') →
      ∃ current, windows.mapM (fun window => currentSubPeriod db env customerId window.1 window.2) =
          .ok current ∧ rows.map (·.returnPct) = current.map (·.returnPct)
  | [], db, db', rows, hrun => by
    obtain ⟨rfl, -⟩ := pure_ok.mp hrun
    exact ⟨[], rfl, rfl⟩
  | (vBegin, vEnd) :: windows, db, db', rows, hrun => by
    simp only [subPeriodReturns, bind_ok, pure_ok] at hrun
    obtain ⟨row, db₁, hrow, rest, _, hrest, rfl, rfl⟩ := hrun
    obtain ⟨current, hcurrent, hcases⟩ := subPeriodReturn_ok hrow
    obtain ⟨currents, hcurrents, hreturns⟩ := subPeriodReturns_returns hrest
    have hsame : ∀ window : Date × Date, currentSubPeriod db₁ env customerId window.1 window.2 =
        currentSubPeriod db env customerId window.1 window.2 := by
      intro window
      rcases hcases with ⟨-, -, rfl⟩ | ⟨-, t, -, rfl⟩
      · rfl
      · exact currentSubPeriod_congr (.returns _ _ _ _) (.returns _ _ _ _)
    have hreturn : row.returnPct = current.returnPct := by
      rcases hcases with ⟨-, hfigures, -⟩ | ⟨rfl, -⟩
      · simp only [sameFigures, Bool.decide_and, Bool.and_eq_true, decide_eq_true_eq] at hfigures
        exact hfigures.1
      · rfl
    refine ⟨current :: currents, ?_, by simp [hreturn, hreturns]⟩
    rw [List.mapM_cons, hcurrent, ← mapM_congr fun window _ => hsame window, hcurrents]
    rfl

/-! ### The pieces of a period -/

theorem mem_flowDates {db : Database} {customerId : Uuid} {periodStart periodEnd day : Date} :
    day ∈ flowDates db customerId periodStart periodEnd ↔
      ∃ p ∈ db.postings, p.account.customerId = some customerId ∧
        ∃ entry, db.journalEntries.find p.journalEntryId = some entry ∧ isExternalFlow entry ∧
          periodStart < entry.effectiveDate ∧ entry.effectiveDate < periodEnd ∧
          entry.effectiveDate = day := by
  simp only [flowDates, List.mem_map, List.mem_filter, List.mem_filterMap, decide_eq_true_eq]
  constructor
  · rintro ⟨entry, ⟨⟨p, ⟨hp, hc⟩, hfind⟩, hflow, hlo, hhi⟩, rfl⟩
    exact ⟨p, hp, hc, entry, hfind, hflow, hlo, hhi, rfl⟩
  · rintro ⟨p, hp, hc, entry, hfind, hflow, hlo, hhi, rfl⟩
    exact ⟨entry, ⟨⟨p, ⟨hp, hc⟩, hfind⟩, hflow, hlo, hhi⟩, rfl⟩

theorem mem_boundaries {db : Database} {customerId : Uuid} {periodStart periodEnd day : Date} :
    day ∈ boundaries db customerId periodStart periodEnd ↔
      day = periodStart ∨ day = periodEnd ∨ day ∈ flowDates db customerId periodStart periodEnd := by
  simp only [boundaries, List.mem_insertionSort, List.mem_dedup, List.cons_append, List.mem_cons,
    List.mem_append, List.not_mem_nil, or_false]
  tauto

theorem boundaries_sorted (db : Database) (customerId : Uuid) (periodStart periodEnd : Date) :
    (boundaries db customerId periodStart periodEnd).Pairwise (· < ·) := by
  have hle : (boundaries db customerId periodStart periodEnd).Pairwise (· ≤ ·) :=
    List.pairwise_insertionSort _ _
  have hnodup : (boundaries db customerId periodStart periodEnd).Nodup :=
    (List.perm_insertionSort _ _).nodup_iff.mpr (List.nodup_dedup _)
  refine (List.pairwise_and_iff.mpr ⟨hle, hnodup⟩).imp ?_
  rintro a b ⟨hab, hne⟩
  exact lt_of_le_of_ne hab hne

theorem eq_of_increasing {days days' : List Date} (h : days.Pairwise (· < ·))
    (h' : days'.Pairwise (· < ·)) (hmem : ∀ day, day ∈ days ↔ day ∈ days') : days = days' := by
  refine List.Perm.eq_of_pairwise (fun a b _ _ hab hba => ?_) h h' ?_
  · exact absurd (hab.trans hba) (lt_irrefl a)
  · exact (List.perm_ext_iff_of_nodup (h.imp ne_of_lt) (h'.imp ne_of_lt)).mpr hmem

/-- The pieces depend on the set of the flow dates only. -/
theorem boundaries_congr {db db' : Database} {customerId : Uuid} {periodStart periodEnd : Date}
    (h : ∀ day, day ∈ flowDates db' customerId periodStart periodEnd ↔
      day ∈ flowDates db customerId periodStart periodEnd) :
    boundaries db' customerId periodStart periodEnd =
      boundaries db customerId periodStart periodEnd := by
  refine eq_of_increasing (boundaries_sorted db' customerId periodStart periodEnd)
    (boundaries_sorted db customerId periodStart periodEnd) fun day => ?_
  rw [mem_boundaries, mem_boundaries, h]

theorem pairwise_nodup {days : List Date} (h : days.Nodup) : (pairwise days).Nodup := by
  rw [pairwise]
  generalize days.tail = next
  induction days generalizing next with
  | nil => simp
  | cons day days ih =>
    rw [List.nodup_cons] at h
    cases next with
    | nil => simp
    | cons day' next =>
      rw [List.zip_cons_cons, List.nodup_cons]
      exact ⟨fun hmem => h.1 (List.of_mem_zip hmem).1, ih h.2 next⟩

theorem mem_pairwise {days : List Date} (h : days.Pairwise (· < ·)) {vBegin vEnd : Date}
    (hwindow : (vBegin, vEnd) ∈ pairwise days) : vBegin ∈ days ∧ vEnd ∈ days ∧ vBegin < vEnd ∧
      ∀ day ∈ days, day ≤ vBegin ∨ vEnd ≤ day := by
  induction days with
  | nil => simp [pairwise] at hwindow
  | cons first days ih =>
    obtain ⟨hfirst, hrest⟩ := List.pairwise_cons.mp h
    cases days with
    | nil => simp [pairwise] at hwindow
    | cons second days =>
      have hsplit : (vBegin, vEnd) = (first, second) ∨ (vBegin, vEnd) ∈ pairwise (second :: days) :=
        List.mem_cons.mp hwindow
      rcases hsplit with heq | hwindow
      · obtain ⟨rfl, rfl⟩ := Prod.mk.inj heq
        refine ⟨by simp, by simp, hfirst vEnd (by simp), fun day hday => ?_⟩
        rcases List.mem_cons.mp hday with rfl | hday
        · exact Or.inl le_rfl
        · rcases List.mem_cons.mp hday with rfl | hday
          · exact Or.inr le_rfl
          · exact Or.inr ((List.pairwise_cons.mp hrest).1 day hday).le
      · obtain ⟨hbegin, hend, hlt, hgap⟩ := ih hrest hwindow
        refine ⟨List.mem_cons_of_mem _ hbegin, List.mem_cons_of_mem _ hend, hlt, fun day hday => ?_⟩
        rcases List.mem_cons.mp hday with rfl | hday
        · exact Or.inl (hfirst vBegin hbegin).le
        · exact hgap day hday

end Trueup.Valuation
