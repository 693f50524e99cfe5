import Trueup.Reporting.LotWrites
import Trueup.Valuation.SubPeriods

/-! # What a transaction adds to the ledger and to the figures

`Grown start db₀ db` is what holds between the start of a transaction and any point of it: the
entries and postings of before are still there, what is new is of new entries, the stored
sub-periods are those of before and then rows dated by the start of the transaction, and no snapshot
and no security was touched.

The writes it talks about are in `writeEntry` and `subPeriodReturn` (`grownEntries`), so every
operation but the publication itself keeps `Grown` (`grown_body`). -/

namespace Trueup.Restatement

open Trueup.Core Trueup.Models Trueup.Lib Trueup.Lib.Transaction Trueup.Ledger Trueup.Valuation
open Trueup.Lots Trueup.Identity Trueup.Orders Trueup.Fees Trueup.Reporting

/-- **What a transaction that started at `start` added** to the ledger and the figures. -/
structure Grown (start : Instant) (db₀ db : Database) : Prop where
  entries : ∀ entry ∈ db₀.journalEntries, entry ∈ db.journalEntries
  postings : ∀ p ∈ db₀.postings, p ∈ db.postings
  newPostings : ∀ p ∈ db.postings, p ∈ db₀.postings ∨
    (db.journalEntries.Has p.journalEntryId ∧ ¬ db₀.journalEntries.Has p.journalEntryId)
  returns : ∃ rows, db.subPeriodReturns.rows = db₀.subPeriodReturns.rows ++ rows ∧
    ∀ row ∈ rows, row.recordedAt = start
  snapshots : db.publishedSnapshots = db₀.publishedSnapshots
  securities : db.securities = db₀.securities

theorem Grown.refl (start : Instant) (db : Database) : Grown start db db where
  entries _ h := h
  postings _ h := h
  newPostings _ h := Or.inl h
  returns := ⟨[], by simp, by simp⟩
  snapshots := rfl
  securities := rfl

section Writes
variable {start : Instant} {db₀ : Database}

theorem Grown.of_view {db db' : Database} (h : Grown start db₀ db)
    (hview : reportView db' = reportView db) : Grown start db₀ db' := by
  simp only [reportView, Prod.mk.injEq] at hview
  obtain ⟨he, hp, hr, hs, hsec⟩ := hview
  obtain ⟨h1, h2, h3, h4, h5, h6⟩ := h
  rw [← he] at h1 h3
  rw [← hp] at h2 h3
  rw [← hr] at h4
  exact ⟨h1, h2, h3, h4, hs.trans h5, hsec.trans h6⟩

theorem grown_writeEntry (entry : JournalEntry) (legs : List PostingLeg) :
    Keeps (Grown start db₀) (writeEntry entry legs) := by
  intro db e db' h hrun
  obtain ⟨-, -, rfl, t, ht, rfl⟩ := writeEntry_ok.mp hrun
  have hfree := (Table.insert_eq_some.mp ht).1
  have hfree₀ : ¬ db₀.journalEntries.Has e.id := by
    intro hhas
    obtain ⟨e₀, he₀, hid⟩ := Table.has_iff.mp hhas
    exact hfree (hid ▸ Table.has_of_mem (h.entries e₀ he₀))
  refine ⟨fun e₀ he₀ => (Table.mem_insert ht).mpr (Or.inl (h.entries e₀ he₀)),
    fun p hp => List.mem_append_left _ (h.postings p hp), fun p hp => ?_, h.returns, h.snapshots,
    h.securities⟩
  rcases List.mem_append.mp hp with hold | hnew
  · refine (h.newPostings p hold).imp id fun hp' => ⟨?_, hp'.2⟩
    exact (Table.has_insert ht _).mpr (Or.inl hp'.1)
  · obtain ⟨leg, -, hleg⟩ := List.mem_filterMap.mp hnew
    obtain ⟨amount, -, rfl⟩ := Option.map_eq_some_iff.mp hleg
    exact Or.inr ⟨(Table.has_insert ht _).mpr (Or.inr rfl), hfree₀⟩

end Writes

/-! ### The figures -/

section Figures
variable {env : Env} {db₀ : Database}

theorem grown_subPeriodReturn (customerId : Uuid) (vBegin vEnd : Date) :
    Keeps (Grown env.transactionStart db₀) (subPeriodReturn env customerId vBegin vEnd) := by
  intro db row db' h hrun
  obtain ⟨current, hcurrent, ⟨-, -, rfl⟩ | ⟨-, t, ht, rfl⟩⟩ := subPeriodReturn_ok hrun
  · exact h
  · obtain ⟨rows, hrows, hat⟩ := h.returns
    refine ⟨h.entries, h.postings, h.newPostings, ⟨rows ++ [current], ?_, ?_⟩, h.snapshots,
      h.securities⟩
    · rw [Table.rows_insert ht, hrows, List.append_assoc]
    · intro r hr
      rcases List.mem_append.mp hr with hold | hnew
      · exact hat r hold
      · rw [List.mem_singleton.mp hnew]
        exact (currentSubPeriod_ok hcurrent).2.2.2

variable (env db₀) in
theorem grownEntries : KeptByEntries env (Grown env.transactionStart db₀) where
  view h hview := h.of_view hview
  entry := grown_writeEntry
  returns := grown_subPeriodReturn

/-- **Every operation but the publication** adds to the ledger and to the figures, and leaves the
snapshots alone. -/
theorem grown_body (op : Op) (hop : ∀ c a b, op ≠ .publish c a b) :
    Keeps (Grown env.transactionStart db₀) (body ⟨env, op⟩) :=
  (grownEntries env db₀).body op hop

end Figures

end Trueup.Restatement
