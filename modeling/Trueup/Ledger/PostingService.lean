import Trueup.Core.Money
import Trueup.Models.Database

/-! # The posting service

`services/ledger/posting_service.py`, the one path every journal entry is written through: the legs
are checked, the entry is inserted, then one posting per leg.

`post_ok` says all that a call did when it returned: the entry is new, its legs are appended to the
postings, and nothing else has changed; the money of the legs adds up to zero
(`sum_money_of_validateLegs`). -/

namespace Trueup.Ledger

open Trueup.Core Trueup.Models Trueup.Lib Trueup.Lib.Transaction

/-- One leg of a journal entry; exactly one of the two should be set. -/
structure PostingLeg where
  account : Account
  amountMoney : Option Money
  quantityUnits : Option Units
  deriving DecidableEq

namespace PostingLeg

/-- `PostingLeg(account_id=..., amount_money=...)`. -/
def money (account : Account) (amount : Money) : PostingLeg := ⟨account, some amount, none⟩

/-- `PostingLeg(account_id=..., quantity_units=...)`. -/
def units (account : Account) (quantity : Units) : PostingLeg := ⟨account, none, some quantity⟩

/-- What the leg moves, when exactly one of the two is set. -/
def amount (leg : PostingLeg) : Option Amount :=
  match leg.amountMoney, leg.quantityUnits with
  | some a, none => some (.money a)
  | none, some q => some (.units q)
  | _, _ => none

/-- The posting written for the leg. -/
def posting (entryId : Uuid) (leg : PostingLeg) : Option Posting :=
  leg.amount.map fun amount => ⟨entryId, leg.account, amount⟩

@[simp] theorem posting_money (entryId : Uuid) (account : Account) (a : Money) :
    (money account a).posting entryId = some ⟨entryId, account, .money a⟩ := rfl

@[simp] theorem posting_units (entryId : Uuid) (account : Account) (q : Units) :
    (units account q).posting entryId = some ⟨entryId, account, .units q⟩ := rfl

end PostingLeg

/-- The loop of `_validate_legs`: the money total of the legs. -/
def sumLegs : List PostingLeg → Money → Except Error Money
  | [], total => .ok total
  | leg :: legs, total => do
    check (leg.amountMoney.isSome ≠ leg.quantityUnits.isSome) .invalidPostingLeg
    match leg.amountMoney with
    | some amount => sumLegs legs (← total.add amount)
    | none => sumLegs legs total

/-- `_validate_legs`. -/
def validateLegs (legs : List PostingLeg) : Except Error Unit := do
  check (legs ≠ []) .invalidPostingLeg
  let total ← sumLegs legs 0
  check (total = 0) (.unbalancedEntry total)

/-- The insertion of one leg's posting. -/
def addLeg (entryId : Uuid) (leg : PostingLeg) : Tx Unit := do
  let posting ← lift (ofOption (leg.posting entryId) .invalidPostingLeg)
  addPosting posting

/-- `_write`. -/
def writeEntry (entry : JournalEntry) (legs : List PostingLeg) : Tx JournalEntry := do
  lift (validateLegs legs)
  addJournalEntry entry
  each (addLeg entry.id) legs
  return entry

/-- `post`: a fresh journal entry. -/
def post (id : Uuid) (entryType : JournalEntryType) (effectiveDate : Date)
    (sourceEvent : SourceEvent) (legs : List PostingLeg) : Tx JournalEntry :=
  writeEntry
    { id, entryType, effectiveDate, sourceEvent, supersededBy := none, supersedesReason := none }
    legs

/-- `correct`: a new entry of the original's type that supersedes it. -/
def correct (id : Uuid) (original : JournalEntry) (effectiveDate : Date)
    (sourceEvent : SourceEvent) (legs : List PostingLeg) (reason : String) : Tx JournalEntry :=
  writeEntry
    { id, entryType := original.entryType, effectiveDate, sourceEvent,
      supersededBy := some original.id, supersedesReason := some reason }
    legs

/-! ### What a successful call wrote -/

theorem addLeg_ok {entryId : Uuid} {leg : PostingLeg} {db db' : Database} {u : Unit} :
    (addLeg entryId leg).run db = .ok (u, db') ↔
      ∃ p, leg.posting entryId = some p ∧ p.amount.dimension = p.account.role.dimension ∧
        db' = { db with postings := db.postings ++ [p] } := by
  simp only [addLeg, bind_ok, lift_ok, ofOption_ok, addPosting_ok]
  constructor
  · rintro ⟨p, _, ⟨h, rfl⟩, hd, rfl⟩
    exact ⟨p, h, hd, rfl⟩
  · rintro ⟨p, h, hd, rfl⟩
    exact ⟨p, db, ⟨h, rfl⟩, hd, rfl⟩

theorem each_addLeg_ok {entryId : Uuid} : ∀ {legs : List PostingLeg} {db db' : Database} {u : Unit},
    (each (addLeg entryId) legs).run db = .ok (u, db') ↔
      (∀ leg ∈ legs, ∃ p, leg.posting entryId = some p ∧
        p.amount.dimension = p.account.role.dimension) ∧
      db' = { db with postings := db.postings ++ legs.filterMap (PostingLeg.posting entryId) }
  | [], db, db', u => by
    rw [each, pure_ok]
    simp only [List.not_mem_nil, false_implies, implies_true, true_and, List.filterMap_nil,
      List.append_nil]
    exact eq_comm
  | leg :: legs, db, db', u => by
    simp only [each, bind_ok, addLeg_ok, each_addLeg_ok]
    constructor
    · rintro ⟨_, _, ⟨p, hp, hd, rfl⟩, hall, rfl⟩
      refine ⟨?_, by simp [hp]⟩
      intro leg' hleg'
      rcases List.mem_cons.mp hleg' with rfl | hmem
      · exact ⟨p, hp, hd⟩
      · exact hall leg' hmem
    · rintro ⟨hall, rfl⟩
      obtain ⟨p, hp, hd⟩ := hall leg (by simp)
      exact ⟨(), _, ⟨p, hp, hd, rfl⟩, fun leg' h => hall leg' (by simp [h]), by simp [hp]⟩

theorem writeEntry_ok {entry e : JournalEntry} {legs : List PostingLeg} {db db' : Database} :
    (writeEntry entry legs).run db = .ok (e, db') ↔
      validateLegs legs = .ok () ∧
      (∀ leg ∈ legs, ∃ p, leg.posting entry.id = some p ∧
        p.amount.dimension = p.account.role.dimension) ∧
      e = entry ∧ ∃ t, db.journalEntries.insert entry = some t ∧
        db' = { db with
          journalEntries := t
          postings := db.postings ++ legs.filterMap (PostingLeg.posting entry.id) } := by
  simp only [writeEntry, bind_ok, lift_ok, addJournalEntry_ok, each_addLeg_ok, pure_ok]
  constructor
  · rintro ⟨_, _, ⟨hv, rfl⟩, _, _, ⟨t, ht, rfl⟩, _, _, ⟨hall, rfl⟩, rfl, rfl⟩
    exact ⟨hv, hall, rfl, t, ht, rfl⟩
  · rintro ⟨hv, hall, rfl, t, ht, rfl⟩
    exact ⟨(), db, ⟨hv, rfl⟩, (), _, ⟨t, ht, rfl⟩, (), _, ⟨hall, rfl⟩, rfl, rfl⟩

/-- **What `post` did** when it returned. -/
theorem post_ok {id : Uuid} {entryType : JournalEntryType} {effectiveDate : Date}
    {sourceEvent : SourceEvent} {legs : List PostingLeg} {db db' : Database} {e : JournalEntry}
    (h : (post id entryType effectiveDate sourceEvent legs).run db = .ok (e, db')) :
    validateLegs legs = .ok () ∧
      e = ⟨id, entryType, effectiveDate, sourceEvent, none, none⟩ ∧
      ∃ t, db.journalEntries.insert e = some t ∧
        db' = { db with
          journalEntries := t
          postings := db.postings ++ legs.filterMap (PostingLeg.posting id) } := by
  obtain ⟨hv, -, rfl, t, ht, rfl⟩ := writeEntry_ok.mp h
  exact ⟨hv, rfl, t, ht, rfl⟩

/-- Every posting belongs to an entry. -/
def PostingsKnown (db : Database) : Prop := ∀ p ∈ db.postings, db.journalEntries.Has p.journalEntryId

instance (db : Database) : Decidable (PostingsKnown db) := by unfold PostingsKnown; infer_instance

/-! ### The zero-sum check -/

/-- The money quanta of a leg. -/
def PostingLeg.moneyQuanta (leg : PostingLeg) : ℤ := (leg.amountMoney.map (·.quanta)).getD 0

theorem sumLegs_quanta : ∀ {legs : List PostingLeg} {total t : Money},
    sumLegs legs total = .ok t →
      t.quanta = total.quanta + (legs.map PostingLeg.moneyQuanta).sum
  | [], total, t, h => by cases h; simp
  | leg :: legs, total, t, h => by
    rw [sumLegs, except_bind_ok] at h
    obtain ⟨_, -, h⟩ := h
    simp only [List.map_cons, List.sum_cons, PostingLeg.moneyQuanta]
    split at h
    · rename_i a ha
      obtain ⟨total', ht, h⟩ := except_bind_ok.mp h
      rw [sumLegs_quanta h, Money.add_ok.mp ht, ha]
      simp [add_assoc]
    · rename_i ha
      rw [sumLegs_quanta h, ha]
      simp

theorem sum_money_of_validateLegs {legs : List PostingLeg} (h : validateLegs legs = .ok ()) :
    (legs.map PostingLeg.moneyQuanta).sum = 0 := by
  simp only [validateLegs, except_bind_ok, check_ok] at h
  obtain ⟨-, -, t, ht, rfl⟩ := h
  have := sumLegs_quanta ht
  simpa using this.symm

end Trueup.Ledger
