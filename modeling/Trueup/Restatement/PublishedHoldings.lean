import Trueup.Restatement.Composition
import Trueup.Restatement.CorrectedCloses
import Trueup.Restatement.SnapshotService
import Trueup.Valuation.BookValue

/-! # What a published snapshot adds up to

The balance of a snapshot is the closing value of the last window of its period, found in a stored
row or computed now, and its holdings are queried apart from it. A stored row is found only when its
figures are those of now, so that both see the same positions at the same closes
(`publish_consistent`). -/

namespace Trueup.Restatement

open Trueup.Core Trueup.Models Trueup.Lib Trueup.Lib.Transaction Trueup.Ledger Trueup.Valuation

/-! ### The closing value -/

section Value
variable {env : Env} {customerId : Uuid} {db db' : Database} {row : SubPeriodReturn}

theorem currentSubPeriod_valueEnd {vBegin vEnd : Date}
    (h : currentSubPeriod db env customerId vBegin vEnd = .ok row) :
    ∃ book, valueBook db customerId vEnd = .ok book ∧ row.valueEnd = book.totalValue := by
  obtain ⟨_, bookEnd, _, _, -, hend, -, -, rfl⟩ := currentSubPeriod_eq_ok.mp h
  exact ⟨bookEnd, hend, rfl⟩

/-- **The closing value of a row** that is found or computed is that of the book of now. -/
theorem WindowRecomputed.valueEnd {window : Date × Date}
    (h : WindowRecomputed env customerId db db' window row) :
    ∃ book, valueBook db customerId window.2 = .ok book ∧ row.valueEnd = book.totalValue := by
  rcases h with ⟨hup, hlatest, -⟩ | ⟨-, hcurrent, -⟩
  · obtain ⟨row', current, hlatest', hcurrent, hsame⟩ := upToDate_iff.mp hup
    obtain rfl := Option.some.inj (hlatest.symm.trans hlatest')
    obtain ⟨book, hbook, hvalue⟩ := currentSubPeriod_valueEnd hcurrent
    refine ⟨book, hbook, ?_⟩
    simp only [sameFigures, decide_eq_true_eq] at hsame
    rw [← hvalue]
    exact hsame.2.2.1
  · exact currentSubPeriod_valueEnd hcurrent

theorem forall₂_last {α β : Type} {R : α → β → Prop} {as : List α} {a : α} {bs : List β}
    (h : List.Forall₂ R (as ++ [a]) bs) : ∃ first b, bs = first ++ [b] ∧ R a b := by
  have hlast := List.forall₂_drop_append bs as [a] h.flip
  obtain ⟨b, rest, hb, hrest, hdrop⟩ := List.forall₂_cons_right_iff.mp hlast
  rw [List.forall₂_nil_right_iff] at hrest
  refine ⟨bs.take as.length, b, ?_, hb⟩
  rw [← hrest, ← hdrop, List.take_append_drop]

theorem pairwise_boundaries_last (db : Database) (customerId : Uuid) {periodStart periodEnd : Date}
    (hperiod : periodStart < periodEnd) : ∃ windows vBegin,
      pairwise (boundaries db customerId periodStart periodEnd) = windows ++ [(vBegin, periodEnd)] := by
  have hgreatest : ∀ day ∈ boundaries db customerId periodStart periodEnd, day ≤ periodEnd := by
    intro day hday
    rcases mem_boundaries.mp hday with rfl | rfl | hday
    · exact hperiod.le
    · exact le_rfl
    · exact (mem_flowDates_iff.mp hday).2.2.le
  obtain ⟨left, hleft⟩ := eq_append_of_greatest
    (boundaries_sorted db customerId periodStart periodEnd)
    (mem_boundaries.mpr (Or.inr (Or.inl rfl))) hgreatest
  have hstart : periodStart ∈ left := by
    have hmem : periodStart ∈ boundaries db customerId periodStart periodEnd :=
      mem_boundaries.mpr (Or.inl rfl)
    rw [hleft, List.mem_append, List.mem_singleton] at hmem
    exact hmem.resolve_right hperiod.ne
  obtain ⟨init, vBegin, rfl⟩ := List.eq_nil_or_concat' left |>.resolve_left (List.ne_nil_of_mem hstart)
  refine ⟨pairwise (init ++ [vBegin]), vBegin, ?_⟩
  rw [hleft, List.append_assoc, List.singleton_append, pairwise_append]
  rfl

end Value

/-! ### The snapshot -/

/-- What a listed holding counts for: its quantity at its close, rounded; nothing without a
close. -/
def holdingQuanta (holding : Holding) : ℤ :=
  match holding.closePrice with
  | none => 0
  | some closePrice => notional closePrice holding.quantity

section Snapshot
variable {customerId : Uuid} {asOfDate : Date} {db : Database}

theorem holdingQuanta_holdingOf (position : Uuid × Units) :
    holdingQuanta (holdingOf db asOfDate position.1 position.2) =
      marketQuanta db asOfDate position := by
  unfold holdingQuanta holdingOf marketQuanta
  cases latestConfirmed db position.1 asOfDate <;> rfl

theorem currentHoldings_ok {holdings : List Holding}
    (h : currentHoldings db customerId asOfDate = .ok holdings) :
    (∃ positions, positionUnits db customerId asOfDate = .ok positions ∧
      (holdings.map holdingQuanta).sum = (positions.map (marketQuanta db asOfDate)).sum) ∧
    (holdings.map Holding.securityId).Nodup ∧
    ∀ s, s ∈ holdings.map Holding.securityId ↔ ledgerUnits db customerId asOfDate s ≠ 0 := by
  obtain ⟨positions, hpositions, hpure⟩ := except_bind_ok.mp h
  cases hpure
  have hheld : heldUnits db customerId asOfDate = .ok (positions.filter (·.2 ≠ 0)) :=
    except_bind_ok.mpr ⟨positions, hpositions, rfl⟩
  have hkeys : ((positions.filter fun position => position.2 ≠ 0).map fun position =>
      holdingOf db asOfDate position.1 position.2).map Holding.securityId =
        (positions.filter (·.2 ≠ 0)).map Prod.fst := by
    rw [List.map_map]
    rfl
  refine ⟨⟨positions, hpositions, ?_⟩, ?_, fun s => ?_⟩
  · rw [← sum_marketQuanta_held, List.map_map]
    exact congrArg List.sum (List.map_congr_left fun position _ => holdingQuanta_holdingOf position)
  · rw [hkeys]
    exact (heldUnits_ok hheld).1
  · rw [hkeys]
    exact mem_held_iff hheld

/-- **A published snapshot is self-consistent**: its balance is the cash as of the end of the period
and the value of what it lists, and it lists what is held then, each security once. -/
theorem publish_consistent {env : Env} {periodStart periodEnd : Date}
    (hperiod : periodStart < periodEnd) {snapshot : PublishedSnapshot} {db' : Database}
    (h : (publish env customerId periodStart periodEnd).run db = .ok (snapshot, db')) :
    (∃ cash, cashBalance db customerId periodEnd = .ok cash ∧
      snapshot.balance.quanta = cash.quanta + (snapshot.holdings.map holdingQuanta).sum) ∧
    (snapshot.holdings.map Holding.securityId).Nodup ∧
    (∀ s, s ∈ snapshot.holdings.map Holding.securityId ↔
      ledgerUnits db customerId periodEnd s ≠ 0) := by
  obtain ⟨twr, rows, holdings, mid, hcompute, hholdings, rfl, rfl⟩ := publish_ok h
  obtain ⟨hrun, -⟩ := computeTwr_ok.mp hcompute
  obtain ⟨hall, -, t, -, rfl, -⟩ := subPeriodReturns_ok
    (pairwise_boundaries_nodup db customerId periodStart periodEnd) hrun
  obtain ⟨windows, vBegin, hwindows⟩ := pairwise_boundaries_last db customerId hperiod
  rw [hwindows] at hall
  obtain ⟨first, row, rfl, hrow⟩ := forall₂_last hall
  obtain ⟨book, hbook, hvalue⟩ := hrow.valueEnd
  obtain ⟨positions, hpositions, htotal, -⟩ := valueBook_ok hbook
  obtain ⟨⟨positions', hpositions', hsum⟩, hlisted⟩ := currentHoldings_ok hholdings
  obtain rfl : positions = positions' := Except.ok.inj (hpositions.symm.trans hpositions')
  obtain ⟨cash, hcash, -⟩ := except_bind_ok.mp hbook
  refine ⟨⟨cash, hcash, ?_⟩, hlisted⟩
  dsimp only
  rw [List.getLast?_concat, Option.map_some, Option.getD_some, hvalue, htotal, hsum,
    cashBalance_quanta hcash]
  rfl

end Snapshot

/-- The share that is held is published with its close. -/
theorem publish_consistent_share : ∃ snapshot db',
    (publish correctDayOne.env 1 0 1).run heldDatabase = .ok (snapshot, db') ∧
    snapshot.holdings ≠ [] ∧ ∃ cash, cashBalance heldDatabase 1 1 = .ok cash ∧
      snapshot.balance.quanta = cash.quanta + (snapshot.holdings.map holdingQuanta).sum := by
  obtain ⟨snapshot, hpublish⟩ := run_of_isOk (x := publish correctDayOne.env 1 0 1)
    (s := heldDatabase) (by decide +kernel)
  have hlisted : ∀ s ∈ ((publish correctDayOne.env 1 0 1).run heldDatabase).toOption,
      s.1.holdings ≠ [] := by
    decide +kernel
  exact ⟨snapshot, _, hpublish, hlisted _ (by rw [hpublish]; rfl),
    (publish_consistent (by decide) hpublish).1⟩

end Trueup.Restatement
