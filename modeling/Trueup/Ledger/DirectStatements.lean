import Trueup.Identity.TenantIsolation
import Trueup.Ledger.Conservation

/-! # What the database guards of the ledger

The tables `journal_entry` and `posting` under any statements of the runtime credentials, written by
the services or not, of any number of sessions at READ COMMITTED: `UPDATE` and `DELETE` are revoked,
`posting_before_insert` and the `CHECK` see each row, the row policy sees what a session may see, and
`ledger_balance` sees each entry a transaction has posted to at its commit. The triggers run with the
rights of the session: the account and the postings that they read are those the policy lets
through. So the sum of `ledger_balance` may leave out the postings of others, and the condition on a
session of a customer is `OwnEntries`: it posts to entries of its own transaction, as the services do.

* `Step`: what a statement does; `Sound`, `Knows`: what no statement breaks (`statements_stable`).
* `committed_ledger_guarded`: what is committed is balanced, checked, and stays.
* `deferred_check_iff`: the check of a commit accepts what is balanced by itself, and nothing else.
* `blind_check_unbalances`: a customer's posting to an entry of others goes through. -/

namespace Trueup.Ledger.DirectStatements

open Trueup.Core
open Trueup.Models hiding UnitOfWork
open Trueup.Chat Trueup.Lib
open Trueup.Identity.TenantIsolation (UnitOfWork DbRole)

/-! ### The statements -/

/-- The session sees the rows of everybody. -/
def seesAll (uow : UnitOfWork) : Bool :=
  uow.bypassesRls || uow.tenant.role = .adviser || uow.tenant.role = .admin

/-- `posting_before_insert`, which reads the account as the session sees it. -/
def beforeInsert (uow : UnitOfWork) (row : PostingRow) : Option PostingRow :=
  if uow.admits row.account.customerId then
    if row.MatchesDimension then some row.denormalized else none
  else some { row with customerId := none }

/-- The trigger, the row policy and `exactly_one_dimension`. -/
def insertRow (uow : UnitOfWork) (row : PostingRow) : Option PostingRow :=
  (beforeInsert uow row).filter fun row => uow.admits row.customerId ∧ row.ExactlyOneDimension

/-- The committed rows, and who has inserted an entry id that is not committed. -/
structure Shared (ι : Type) where
  tables : LedgerTables
  ids : Locks Uuid ι

/-- Where a session is. -/
inductive Phase
  | idle
  /-- with the rows of its transaction -/
  | inside (uow : UnitOfWork) (own : LedgerTables)
  /-- in its `COMMIT`, after the deferred triggers -/
  | checked (uow : UnitOfWork) (own : LedgerTables)

inductive Action
  | begin (uow : UnitOfWork)
  | insertEntry (entry : JournalEntry)
  | insertPosting (values : PostingRow)
  /-- an `UPDATE` or a `DELETE` of either table -/
  | mutate
  /-- the deferred triggers of a `COMMIT` -/
  | check
  /-- the rest of it -/
  | commit
  /-- or a crash -/
  | rollback

/-- The ids of the entries that the transaction may refer to. -/
def knownIds (tables own : LedgerTables) : List Uuid := (tables.entries ++ own.entries).map (·.id)

/-- The postings that the session sees. -/
def visible (uow : UnitOfWork) (tables own : LedgerTables) : List PostingRow :=
  (tables.postings ++ own.postings).filter fun row => uow.admits row.customerId

/-- `check_journal_entry_balance`, for each posting of the transaction. -/
def passesCheck (uow : UnitOfWork) (tables own : LedgerTables) : Bool :=
  ∀ row ∈ own.postings, moneyOf (visible uow tables own) row.journalEntryId = 0

section Program
variable {ι : Type} [DecidableEq ι]

/-- The transaction ends, and writes nothing. -/
def Shared.abort (shared : Shared ι) (i : ι) : Shared ι × Phase :=
  ({ shared with ids := shared.ids.release i }, .idle)

/-- `INSERT INTO journal_entry`; it waits for another transaction that has inserted the id. -/
def insertEntry (i : ι) (shared : Shared ι) (uow : UnitOfWork) (own : LedgerTables)
    (entry : JournalEntry) : Shared ι × Phase :=
  if ¬ shared.ids.FreeFor i entry.id then (shared, .inside uow own)
  else if entry.id ∉ knownIds shared.tables own ∧
      (∀ original ∈ entry.supersededBy, original ∈ knownIds shared.tables own) then
    ({ shared with ids := shared.ids.take i [entry.id] },
      .inside uow { own with entries := own.entries ++ [entry] })
  else shared.abort i

/-- `INSERT INTO posting`. -/
def insertPosting (i : ι) (shared : Shared ι) (uow : UnitOfWork) (own : LedgerTables)
    (values : PostingRow) : Shared ι × Phase :=
  match insertRow uow values with
  | some row =>
    if row.journalEntryId ∈ knownIds shared.tables own then
      (shared, .inside uow { own with postings := own.postings ++ [row] })
    else shared.abort i
  | none => shared.abort i

/-- The statements of the sessions; the chat credential may write nothing. -/
def program : Processes.Program ι Action (Shared ι) Phase
  | _, .begin uow, shared, .idle =>
    if uow.dbRole = .chat then (shared, .idle) else (shared, .inside uow ⟨[], []⟩)
  | i, .insertEntry entry, shared, .inside uow own => insertEntry i shared uow own entry
  | i, .insertPosting values, shared, .inside uow own => insertPosting i shared uow own values
  | i, .mutate, shared, .inside _ _ => shared.abort i
  | i, .check, shared, .inside uow own =>
    if passesCheck uow shared.tables own then (shared, .checked uow own) else shared.abort i
  | i, .commit, shared, .checked _ own =>
    (⟨⟨shared.tables.entries ++ own.entries, shared.tables.postings ++ own.postings⟩,
      shared.ids.release i⟩, .idle)
  | i, .rollback, shared, _ => shared.abort i
  | _, _, shared, phase => (shared, phase)

/-- A session that does not see everything posts to entries of its own transaction. -/
def OwnEntries : ι → Action → Shared ι → Phase → Prop
  | _, .insertPosting values, _, .inside uow own =>
    seesAll uow ∨ values.journalEntryId ∈ own.entries.map (·.id)
  | _, _, _, _ => True

instance : ∀ (i : ι) (a : Action) (shared : Shared ι) (phase : Phase),
    Decidable (OwnEntries i a shared phase)
  | _, .insertPosting values, _, .inside uow own =>
    inferInstanceAs (Decidable (seesAll uow ∨ values.journalEntryId ∈ own.entries.map (·.id)))
  | _, .insertPosting _, _, .idle => isTrue trivial
  | _, .insertPosting _, _, .checked _ _ => isTrue trivial
  | _, .begin _, _, _ => isTrue trivial
  | _, .insertEntry _, _, _ => isTrue trivial
  | _, .mutate, _, _ => isTrue trivial
  | _, .check, _, _ => isTrue trivial
  | _, .commit, _, _ => isTrue trivial
  | _, .rollback, _, _ => isTrue trivial

end Program

/-- An empty ledger. -/
def start {ι : Type} : Processes.Config ι (Shared ι) Phase := ⟨⟨⟨[], []⟩, fun _ => none⟩, fun _ => .idle⟩

/-! ### What a statement did -/

section Invariant
variable {ι : Type} [DecidableEq ι] {i j : ι} {a : Action} {shared shared' : Shared ι}
  {phase phase' other : Phase}

/-- What the statement `a` of the session `i` did to the database and to the session. -/
inductive Step (i : ι) (a : Action) (shared : Shared ι) : Phase → Shared ι → Phase → Prop
  | stays (phase : Phase) : Step i a shared phase shared phase
  | begins (uow : UnitOfWork) : Step i a shared .idle shared (.inside uow ⟨[], []⟩)
  | entry (uow : UnitOfWork) (own : LedgerTables) (entry : JournalEntry)
      (free : shared.ids.FreeFor i entry.id) (unknown : entry.id ∉ knownIds shared.tables own) :
      Step i a shared (.inside uow own) { shared with ids := shared.ids.take i [entry.id] }
        (.inside uow { own with entries := own.entries ++ [entry] })
  | posting (uow : UnitOfWork) (own : LedgerTables) (values row : PostingRow)
      (made : a = .insertPosting values) (inserted : insertRow uow values = some row)
      (known : row.journalEntryId ∈ knownIds shared.tables own) :
      Step i a shared (.inside uow own) shared
        (.inside uow { own with postings := own.postings ++ [row] })
  | checks (uow : UnitOfWork) (own : LedgerTables) (passed : passesCheck uow shared.tables own) :
      Step i a shared (.inside uow own) shared (.checked uow own)
  | commits (uow : UnitOfWork) (own : LedgerTables) :
      Step i a shared (.checked uow own)
        ⟨⟨shared.tables.entries ++ own.entries, shared.tables.postings ++ own.postings⟩,
          shared.ids.release i⟩ .idle
  | aborts (phase : Phase) : Step i a shared phase { shared with ids := shared.ids.release i } .idle

/-- **What a statement did.** -/
theorem program_step (i : ι) (a : Action) (shared : Shared ι) (phase : Phase) :
    Step i a shared phase (program i a shared phase).1 (program i a shared phase).2 := by
  unfold program
  split
  · split_ifs
    · exact .stays _
    · exact .begins _
  · rename_i entry uow own
    unfold insertEntry
    split_ifs with hfree hnew
    · exact .entry uow own entry hfree hnew.1
    · exact .aborts _
    · exact .stays _
  · rename_i values uow own
    unfold insertPosting
    cases hrow : insertRow uow values with
    | none => exact .aborts _
    | some row =>
      dsimp only
      split_ifs with hknown
      · exact .posting uow own values row rfl hrow hknown
      · exact .aborts _
  · exact .aborts _
  · split_ifs with hpassed
    · exact .checks _ _ hpassed
    · exact .aborts _
  · exact .commits _ _
  · exact .aborts _
  · exact .stays _

/-! ### What it keeps -/

omit [DecidableEq ι] in
theorem admits_of_seesAll {uow : UnitOfWork} (h : seesAll uow) (customerId : Option Uuid) :
    uow.admits customerId = true := by
  unfold seesAll at h
  unfold UnitOfWork.admits Tenant.admits
  simp only [Bool.or_eq_true, decide_eq_true_eq] at h ⊢
  rcases h with (h | h) | h
  · exact Or.inl h
  · exact Or.inr (Or.inl h)
  · exact Or.inr (Or.inr (Or.inl h))

theorem seesAll_of_admits_none {uow : UnitOfWork} (h : uow.admits none = true) : seesAll uow := by
  unfold UnitOfWork.admits Tenant.admits at h
  unfold seesAll
  simp only [Bool.or_eq_true, decide_eq_true_eq, Option.isSome_none, Bool.false_eq_true, false_and,
    or_false] at h ⊢
  rcases h with h | h | h
  · exact Or.inl (Or.inl h)
  · exact Or.inl (Or.inr h)
  · exact Or.inr h

/-- A row that the database lets in. -/
structure Accepted (row : PostingRow) : Prop where
  checked : row.Checked
  customer : row.customerId = row.account.customerId

/-- **What an inserted row is.** -/
theorem insertRow_some {uow : UnitOfWork} {values row : PostingRow}
    (h : insertRow uow values = some row) :
    Accepted row ∧ uow.admits row.customerId = true ∧ row.journalEntryId = values.journalEntryId := by
  obtain ⟨hbefore, hfilter⟩ := Option.filter_eq_some_iff.mp h
  obtain ⟨hadmits, hone⟩ := of_decide_eq_true hfilter
  unfold beforeInsert at hbefore
  split_ifs at hbefore with haccount hmatches
  · cases hbefore
    exact ⟨⟨⟨hone, hmatches⟩, rfl⟩, hadmits, rfl⟩
  · -- a session that may write for no customer sees every account
    cases hbefore
    exact absurd (admits_of_seesAll (seesAll_of_admits_none hadmits) _) haccount

/-- What is committed is balanced, and was let in. -/
structure Sound (shared : Shared ι) : Prop where
  balanced : ∀ id, moneyOf shared.tables.postings id = 0
  known : ∀ row ∈ shared.tables.postings, row.journalEntryId ∈ shared.tables.entries.map (·.id)
  accepted : ∀ row ∈ shared.tables.postings, Accepted row

/-- What a session knows of the rows of its transaction. -/
structure Own (i : ι) (shared : Shared ι) (uow : UnitOfWork) (own : LedgerTables) : Prop where
  locked : ∀ entry ∈ own.entries, shared.ids entry.id = some i
  fresh : ∀ entry ∈ own.entries, entry.id ∉ shared.tables.entries.map (·.id)
  known : ∀ row ∈ own.postings, row.journalEntryId ∈ knownIds shared.tables own
  accepted : ∀ row ∈ own.postings, Accepted row
  admitted : ∀ row ∈ own.postings, uow.admits row.customerId = true
  entries : ¬ seesAll uow → ∀ row ∈ own.postings, row.journalEntryId ∈ own.entries.map (·.id)

/-- What a session knows; after its check, that its own rows are balanced. -/
def Knows (i : ι) (shared : Shared ι) : Phase → Prop
  | .idle => True
  | .inside uow own => Own i shared uow own
  | .checked uow own => Own i shared uow own ∧ ∀ id, moneyOf own.postings id = 0

/-- What a statement of the session `i` leaves alone. -/
structure Frame (i : ι) (shared shared' : Shared ι) : Prop where
  kept : ∀ entry ∈ shared.tables.entries, entry ∈ shared'.tables.entries
  added : ∀ entry ∈ shared'.tables.entries, entry ∈ shared.tables.entries ∨ shared.ids entry.id = some i
  ids : ∀ j, i ≠ j → shared.ids.Keeps shared'.ids j

omit [DecidableEq ι] in
theorem moneyOf_append (rows rows' : List PostingRow) (id : Uuid) :
    moneyOf (rows ++ rows') id = moneyOf rows id + moneyOf rows' id := by
  unfold moneyOf
  rw [List.filter_append, List.map_append, List.sum_append]

omit [DecidableEq ι] in
theorem moneyOf_of_absent {rows : List PostingRow} {id : Uuid}
    (h : ∀ row ∈ rows, row.journalEntryId ≠ id) : moneyOf rows id = 0 := by
  unfold moneyOf
  rw [List.filter_eq_nil_iff.mpr fun row hrow => by simpa using h row hrow]
  rfl

omit [DecidableEq ι] in
/-- What the check of a session adds up for an entry it has posted to is what it has posted itself. -/
theorem moneyOf_visible {uow : UnitOfWork} {own : LedgerTables} (hsound : Sound shared)
    (hown : Own i shared uow own) {row : PostingRow} (hrow : row ∈ own.postings) :
    moneyOf (visible uow shared.tables own) row.journalEntryId =
      moneyOf own.postings row.journalEntryId := by
  unfold visible
  rw [List.filter_append, moneyOf_append,
    List.filter_eq_self.mpr fun other hother => hown.admitted other hother]
  by_cases hall : seesAll uow
  · rw [List.filter_eq_self.mpr fun other _ => admits_of_seesAll hall _, hsound.balanced, zero_add]
  · -- the entry is of this transaction, so nobody else has posted to it
    obtain ⟨entry, hentry, hid⟩ := List.mem_map.mp (hown.entries hall row hrow)
    rw [moneyOf_of_absent, zero_add]
    intro other hother heq
    have hknown := hsound.known other (List.mem_of_mem_filter hother)
    rw [heq, ← hid] at hknown
    exact hown.fresh entry hentry hknown

omit [DecidableEq ι] in
/-- **The deferred check** accepts what is balanced by itself. -/
theorem passesCheck_iff {uow : UnitOfWork} {own : LedgerTables} (hsound : Sound shared)
    (hown : Own i shared uow own) :
    passesCheck uow shared.tables own ↔ ∀ id, moneyOf own.postings id = 0 := by
  unfold passesCheck
  rw [decide_eq_true_iff]
  constructor
  · intro h id
    by_cases hid : ∃ row ∈ own.postings, row.journalEntryId = id
    · obtain ⟨row, hrow, rfl⟩ := hid
      rw [← moneyOf_visible hsound hown hrow]
      exact h row hrow
    · exact moneyOf_of_absent fun row hrow heq => hid ⟨row, hrow, heq⟩
  · intro h row hrow
    rw [moneyOf_visible hsound hown hrow]
    exact h _

/-- **A statement leaves the entries of the others alone.** -/
theorem Step.frame (h : Step i a shared phase shared' phase') (hknows : Knows i shared phase) :
    Frame i shared shared' := by
  have hsame : Frame i shared shared := ⟨fun _ h => h, fun _ h => Or.inl h, fun j _ => .refl _ j⟩
  have hrelease : ∀ j, i ≠ j → shared.ids.Keeps (shared.ids.release i) j :=
    fun j hij => Locks.keeps_release hij
  cases h with
  | stays | begins | posting | checks => exact hsame
  | entry uow own entry free unknown =>
    exact { hsame with ids := fun j hij => Locks.keeps_take_other (by simpa using free) hij }
  | aborts => exact { hsame with ids := hrelease }
  | commits uow own =>
    refine ⟨fun _ h => List.mem_append_left _ h, fun entry hentry => ?_, hrelease⟩
    exact (List.mem_append.mp hentry).imp_right fun hmem => hknows.1.locked entry hmem

/-- **What is committed** after a statement. -/
theorem Step.sound (h : Step i a shared phase shared' phase') (hsound : Sound shared)
    (hknows : Knows i shared phase) : Sound shared' := by
  cases h with
  | stays | begins | posting | checks => exact hsound
  | entry | aborts => exact ⟨hsound.balanced, hsound.known, hsound.accepted⟩
  | commits uow own =>
    obtain ⟨hown, hbalanced⟩ := hknows
    refine ⟨fun id => ?_, fun row hrow => ?_, fun row hrow => ?_⟩
    · dsimp only
      rw [moneyOf_append, hsound.balanced, hbalanced, zero_add]
    · rcases List.mem_append.mp hrow with hrow | hrow
      · exact List.map_subset _ (List.subset_append_left _ _) (hsound.known row hrow)
      · exact hown.known row hrow
    · exact (List.mem_append.mp hrow).elim (hsound.accepted row) (hown.accepted row)

/-- **What a session knows** after a statement of its own. -/
theorem Step.knows (h : Step i a shared phase shared' phase') (hok : OwnEntries i a shared phase)
    (hsound : Sound shared) (hknows : Knows i shared phase) : Knows i shared' phase' := by
  cases h with
  | stays => exact hknows
  | commits | aborts => trivial
  | begins =>
    exact ⟨fun _ h => absurd h List.not_mem_nil, fun _ h => absurd h List.not_mem_nil,
      fun _ h => absurd h List.not_mem_nil, fun _ h => absurd h List.not_mem_nil,
      fun _ h => absurd h List.not_mem_nil, fun _ _ h => absurd h List.not_mem_nil⟩
  | checks uow own passed => exact ⟨hknows, (passesCheck_iff hsound hknows).mp passed⟩
  | entry uow own entry free unknown =>
    have hgrown : ∀ id ∈ knownIds shared.tables own,
        id ∈ knownIds shared.tables { own with entries := own.entries ++ [entry] } := by
      intro id hid
      simp only [knownIds, List.map_append, List.mem_append] at hid ⊢
      exact hid.imp_right Or.inl
    refine ⟨fun e he => ?_, fun e he => ?_, fun row hrow => hgrown _ (hknows.known row hrow),
      hknows.accepted, hknows.admitted, fun hall row hrow => ?_⟩
    · rcases List.mem_append.mp he with he | he
      · exact Locks.keeps_take_own _ (hknows.locked e he)
      · obtain rfl := List.mem_singleton.mp he
        exact Locks.take_mem (by simp)
    · rcases List.mem_append.mp he with he | he
      · exact hknows.fresh e he
      · obtain rfl := List.mem_singleton.mp he
        exact fun hmem => unknown (List.map_subset _ (List.subset_append_left _ _) hmem)
    · exact List.map_subset _ (List.subset_append_left _ _) (hknows.entries hall row hrow)
  | posting uow own values row made inserted known =>
    subst made
    obtain ⟨haccepted, hadmitted, hid⟩ := insertRow_some inserted
    refine ⟨hknows.locked, hknows.fresh, fun r hr => ?_, fun r hr => ?_, fun r hr => ?_,
      fun hall r hr => ?_⟩ <;> rcases List.mem_append.mp hr with hr | hr
    · exact hknows.known r hr
    · exact List.mem_singleton.mp hr ▸ known
    · exact hknows.accepted r hr
    · exact List.mem_singleton.mp hr ▸ haccepted
    · exact hknows.admitted r hr
    · exact List.mem_singleton.mp hr ▸ hadmitted
    · exact hknows.entries hall r hr
    · rw [List.mem_singleton.mp hr, hid]
      exact hok.resolve_left hall

omit [DecidableEq ι] in
theorem Own.undisturbed (hij : i ≠ j) (hframe : Frame i shared shared') {uow : UnitOfWork}
    {own : LedgerTables} (h : Own j shared uow own) : Own j shared' uow own where
  locked entry hentry := hframe.ids j hij _ (h.locked entry hentry)
  fresh entry hentry hmem := by
    obtain ⟨other, hother, hid⟩ := List.mem_map.mp hmem
    rcases hframe.added other hother with hold | hheld
    · exact h.fresh entry hentry (hid ▸ List.mem_map_of_mem hold)
    · -- the id is locked by this session, so the other one has not inserted it
      have hlocked := h.locked entry hentry
      rw [← hid, hheld] at hlocked
      exact hij (Option.some.inj hlocked)
  known row hrow := by
    have hknown := h.known row hrow
    simp only [knownIds, List.map_append, List.mem_append] at hknown ⊢
    exact hknown.imp_left fun hmem => List.map_subset _ hframe.kept hmem
  accepted := h.accepted
  admitted := h.admitted
  entries := h.entries

omit [DecidableEq ι] in
/-- **A session does not interfere with another.** -/
theorem Knows.undisturbed (hij : i ≠ j) (hframe : Frame i shared shared') (h : Knows j shared other) :
    Knows j shared' other := by
  cases other with
  | idle => trivial
  | inside uow own => exact Own.undisturbed hij hframe h
  | checked uow own => exact ⟨Own.undisturbed hij hframe h.1, h.2⟩

theorem Step.appends (h : Step i a shared phase shared' phase') :
    shared.tables.entries <+: shared'.tables.entries ∧
      shared.tables.postings <+: shared'.tables.postings := by
  cases h with
  | commits => exact ⟨List.prefix_append _ _, List.prefix_append _ _⟩
  | stays | begins | entry | posting | checks | aborts =>
    exact ⟨List.prefix_refl _, List.prefix_refl _⟩

end Invariant

/-! ### Runs -/

section Runs
variable {ι : Type} [DecidableEq ι]

/-- **No statement breaks the invariant.** -/
theorem statements_stable :
    Processes.Stable (program (ι := ι)) OwnEntries Sound Knows where
  shared i a shared phase _ hsound hknows := (program_step i a shared phase).sound hsound hknows
  own i a shared phase hok hsound hknows :=
    (program_step i a shared phase).knows hok hsound hknows
  other i _ a shared phase _ hij _ _ hknows hother :=
    hother.undisturbed hij ((program_step i a shared phase).frame hknows)

omit [DecidableEq ι] in
theorem holds_start : Processes.Holds Sound Knows (start (ι := ι)) :=
  ⟨⟨fun _ => rfl, fun _ h => absurd h List.not_mem_nil, fun _ h => absurd h List.not_mem_nil⟩,
    fun _ => trivial⟩

theorem run_prefix (steps : List (ι × Action)) (c : Processes.Config ι (Shared ι) Phase) :
    c.shared.tables.entries <+: (Processes.run program steps c).shared.tables.entries ∧
      c.shared.tables.postings <+: (Processes.run program steps c).shared.tables.postings := by
  induction steps generalizing c with
  | nil => exact ⟨List.prefix_refl _, List.prefix_refl _⟩
  | cons step steps ih =>
    obtain ⟨hentries, hpostings⟩ := (program_step step.1 step.2 c.shared (c.locals step.1)).appends
    obtain ⟨hentries', hpostings'⟩ := ih (Processes.act program step c)
    exact ⟨hentries.trans hentries', hpostings.trans hpostings'⟩

/-- **The database guards the ledger.** Under any statements of any number of sessions, of which a
customer's posts only to entries of its own transaction: the committed postings of every entry add up
to zero, each sets one of money and units, that of its account's dimension, and names the customer of
its account, and what was committed at any time is still there, in its place and unchanged. -/
theorem committed_ledger_guarded {before rest : List (ι × Action)}
    (halong : Processes.Along program OwnEntries (before ++ rest) start) :
    let past := (Processes.run program before start).shared.tables
    let now := (Processes.run program (before ++ rest) start).shared.tables
    (∀ id, moneyOf now.postings id = 0) ∧
      (∀ row ∈ now.postings, row.ExactlyOneDimension ∧ row.MatchesDimension ∧
        row.customerId = row.account.customerId) ∧
      past.entries <+: now.entries ∧ past.postings <+: now.postings := by
  have hsound := (statements_stable.run halong holds_start).1
  refine ⟨hsound.balanced, fun row hrow => ?_, ?_⟩
  · obtain ⟨⟨hone, hmatches⟩, hcustomer⟩ := hsound.accepted row hrow
    exact ⟨hone, hmatches, hcustomer⟩
  · have hrun : Processes.run program (before ++ rest) start =
        Processes.run program rest (Processes.run program before start) := List.foldl_append ..
    rw [hrun]
    exact run_prefix rest _

/-- **The deferred check is that of the service.** In every state that such statements reach, the
check of a commit accepts the transaction of a session exactly when the postings of that transaction
alone add up to zero, entry by entry: what the others do meanwhile cannot make a balanced transaction
fail, nor an unbalanced one pass. -/
theorem deferred_check_iff {steps : List (ι × Action)}
    (halong : Processes.Along program OwnEntries steps start) {i : ι} {uow : UnitOfWork}
    {own : LedgerTables} (hinside : (Processes.run program steps start).locals i = .inside uow own) :
    (Processes.run program (steps ++ [(i, .check)]) start).locals i = .checked uow own ↔
      ∀ id, moneyOf own.postings id = 0 := by
  have hholds := statements_stable.run halong holds_start
  have hown : Own i (Processes.run program steps start).shared uow own := by
    have hknows := hholds.2 i
    rw [hinside] at hknows
    exact hknows
  have hrun : Processes.run program (steps ++ [(i, .check)]) start =
      Processes.act program (i, .check) (Processes.run program steps start) := List.foldl_append ..
  rw [hrun, Processes.act_self, hinside, ← passesCheck_iff hholds.1 hown]
  by_cases hpassed : passesCheck uow (Processes.run program steps start).shared.tables own
  · exact iff_of_true (congrArg Prod.snd (if_pos hpassed)) hpassed
  · refine iff_of_false (fun h => ?_) hpassed
    rw [show program i .check (Processes.run program steps start).shared (.inside uow own) = _ from
      if_neg hpassed] at h
    cases h

/-- A session of customer 1. -/
def customerSession : UnitOfWork := ⟨⟨.customer, some 1⟩, .app⟩

/-- A session of the worker. -/
def workerSession : UnitOfWork := ⟨⟨.admin, none⟩, .worker⟩

/-- A posting of money. -/
def moneyRow (entryId : Uuid) (account : Account) (amount : Money) : Action :=
  .insertPosting ⟨entryId, account, none, some amount, none⟩

/-- An entry of customer 1. -/
def entryNamed (id : Uuid) : Action :=
  .insertEntry ⟨id, .deposit, 0, .depositInitiated 1 (dollars 5), none, none⟩

/-- A deposit of the customer as entry 1, and meanwhile a fee as entry 2, before their commits. -/
def depositAndFee : List (ℕ × Action) := [
  (0, .begin customerSession), (1, .begin workerSession), (0, entryNamed 1), (1, entryNamed 2),
  (0, moneyRow 1 (.ofCustomer 1 .cash) (dollars 5)),
  (1, moneyRow 2 (.ofCustomer 1 .cash) (dollars 5).neg),
  (0, moneyRow 1 (.ofCustomer 1 .customerEquity) (dollars 5).neg),
  (1, moneyRow 2 ⟨none, .feesExpense, none⟩ (dollars 5))]

/-- The two commits. -/
def bothCommit : List (ℕ × Action) := [(0, .check), (1, .check), (0, .commit), (1, .commit)]

theorem committed_ledger_guarded_concurrently :
    (Processes.run program (depositAndFee ++ bothCommit) start).shared.tables.postings.length = 4 ∧
      ∀ id, moneyOf (Processes.run program (depositAndFee ++ bothCommit) start).shared.tables.postings
        id = 0 :=
  ⟨by decide,
    (@committed_ledger_guarded ℕ _ depositAndFee bothCommit (by decide)).1⟩

/-- What the customer's session has inserted before its commit. -/
def depositRows : LedgerTables where
  entries := [⟨1, .deposit, 0, .depositInitiated 1 (dollars 5), none, none⟩]
  postings := [⟨1, .ofCustomer 1 .cash, some 1, some (dollars 5), none⟩,
    ⟨1, .ofCustomer 1 .customerEquity, some 1, some (dollars 5).neg, none⟩]

/-- The check of the deposit passes, while the fee is not committed. -/
theorem deferred_check_iff_deposit :
    (Processes.run program (depositAndFee ++ [(0, .check)]) start).locals 0 =
      .checked customerSession depositRows := by
  refine (@deferred_check_iff ℕ _ depositAndFee (by decide) 0 customerSession depositRows
    rfl).mpr fun id => ?_
  by_cases hid : 1 = id
  · subst hid
    decide
  · exact moneyOf_of_absent fun row hrow => by
      rcases List.mem_pair.mp hrow with rfl | rfl <;> exact hid

/-- **The check is blind to the postings of others.** A customer's session that posts to an entry of
others unbalances it: the fee, of which it does not see the other side. -/
theorem blind_check_unbalances : ¬ ∀ (steps : List (ℕ × Action)) (id : Uuid),
    moneyOf (Processes.run program steps start).shared.tables.postings id = 0 := by
  intro h
  have hfee := h (depositAndFee ++ bothCommit ++ [(0, .begin customerSession),
    (0, moneyRow 2 (.ofCustomer 1 .cash) (dollars 5)), (0, .check), (0, .commit)]) 2
  revert hfee
  decide

end Runs

end Trueup.Ledger.DirectStatements
