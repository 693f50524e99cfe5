import Trueup.Ledger.Sessions

/-! # Ledger conservation

After any run of sessions the tables hold the rows of the calls that were accepted in transactions
that have committed, and of no others.

* `flush_ok`, `write_ok`, `commit_ok`: what a flush, a call and a commit did when they returned.
* `sessions_step`: all that an action can do.
* `stable_sessions`: the tables and every session hold the rows of the calls they have accepted.
* `stable_ids`: the ids of the entries are pairwise different.
* `ledger_conservation`: each entry is balanced, so the ledger is, and each posting is of one
  dimension, that of its account.
* `writeEntry_iff_session`: a call and its commit, in a session of their own, are `writeEntry`. -/

namespace Trueup.Ledger

open Trueup.Core Trueup.Models Trueup.Lib Trueup.Lib.Transaction

/-! ### One row -/

namespace PostingRow

/-- What the database has let through. -/
def Checked (row : PostingRow) : Prop := row.ExactlyOneDimension ∧ row.MatchesDimension

theorem checked_denormalized {row : PostingRow} : row.denormalized.Checked ↔ row.Checked := Iff.rfl

end PostingRow

theorem insertPosting_ok {row row' : PostingRow} :
    insertPosting row = .ok row' ↔ row.Checked ∧ row' = row.denormalized := by
  unfold insertPosting PostingRow.Checked
  simp only [except_bind_ok, check_ok]
  constructor
  · rintro ⟨_, hmatches, _, hone, h⟩
    cases h
    exact ⟨⟨hone, hmatches⟩, rfl⟩
  · rintro ⟨⟨hone, hmatches⟩, rfl⟩
    exact ⟨(), hmatches, (), hone, rfl⟩

theorem mapM_insertPosting_ok {pending rows : List PostingRow} :
    pending.mapM insertPosting = .ok rows ↔
      (∀ row ∈ pending, row.Checked) ∧ rows = pending.map PostingRow.denormalized := by
  have hmap : List.Forall₂ (fun row row' : PostingRow => row' = row.denormalized) pending rows ↔
      rows = pending.map PostingRow.denormalized := by
    rw [eq_comm, ← List.forall₂_eq_eq_eq, List.forall₂_map_left_iff]
    simp only [eq_comm]
  rw [mapM_ok_iff, ← hmap]
  simp only [insertPosting_ok, List.forall₂_and_left]

/-! ### One action -/

namespace Session

variable {tables tables' : LedgerTables} {s s' : Session} {refused : Bool}

theorem checkEntry_ok {entry : JournalEntry} {u : Unit} : s.checkEntry tables entry = .ok u ↔
    entry.id ∉ (tables.entries ++ s.entries).map (·.id) ∧
      ∀ original ∈ entry.supersededBy, original ∈ (tables.entries ++ s.entries).map (·.id) := by
  unfold checkEntry
  simp only [except_bind_ok, check_ok, exists_const]

/-- **What a flush did** when it returned. -/
theorem flush_ok {added : Option JournalEntry} : s.flush tables added refused = .ok s' ↔
    s.failed = false ∧ refused = false ∧ (∀ entry ∈ added, s.checkEntry tables entry = .ok ()) ∧
      (∀ row ∈ s.pending, row.Checked) ∧
      s' = ⟨s.entries ++ added.toList, s.postings ++ s.pending.map PostingRow.denormalized, [], false⟩ := by
  have hadded : added.forM (s.checkEntry tables) = .ok () ↔
      ∀ entry ∈ added, s.checkEntry tables entry = .ok () := by
    cases added with
    | none => exact ⟨fun _ _ h => absurd h (Option.not_mem_none _), fun _ => rfl⟩
    | some entry => exact ⟨fun h e he => Option.mem_some_iff.mp he ▸ h, fun h => h entry rfl⟩
  unfold flush
  simp only [except_bind_ok, check_ok, exists_const, hadded, mapM_insertPosting_ok]
  constructor
  · rintro ⟨hfailed, hrefused, hentry, rows, ⟨hpending, rfl⟩, h⟩
    cases h
    exact ⟨hfailed, hrefused, hentry, hpending, rfl⟩
  · rintro ⟨hfailed, hrefused, hentry, hpending, rfl⟩
    exact ⟨hfailed, hrefused, hentry, _, ⟨hpending, rfl⟩, rfl⟩

/-- **What a call did** when it returned. -/
theorem write_ok {call : PostingCall} : s.write tables call refused = (.ok (), s') ↔
    validateLegs call.legs = .ok () ∧ ∃ flushed, s.flush tables (some call.entry) refused = .ok flushed ∧
      s' = { flushed with pending := call.legs.map (·.row call.entry.id) } := by
  unfold write
  cases validateLegs call.legs with
  | error e => simp
  | ok =>
    cases s.flush tables (some call.entry) refused with
    | error e => simp
    | ok flushed => simp [eq_comm]

/-- **What a commit did** when it returned. -/
theorem commit_ok : s.commit tables refused = .ok tables' ↔
    ∃ s', s.flush tables none refused = .ok s' ∧
      (∀ entry ∈ s'.entries, entry.id ∉ tables.entries.map (·.id)) ∧
      (∀ row ∈ s'.postings, moneyOf (tables.postings ++ s'.postings) row.journalEntryId = 0) ∧
      tables' = ⟨tables.entries ++ s'.entries, tables.postings ++ s'.postings⟩ := by
  unfold commit deferredChecks
  simp only [except_bind_ok, check_ok, exists_const]
  constructor
  · rintro ⟨s', hflush, hids, hbalanced, h⟩
    cases h
    exact ⟨s', hflush, hids, hbalanced, rfl⟩
  · rintro ⟨s', hflush, hids, hbalanced, rfl⟩
    exact ⟨s', hflush, hids, hbalanced, rfl⟩

end Session

/-- What an action leaves of the tables and of the session. -/
inductive SessionStep (w : Recorded) (holder : Holder) : Recorded × Holder → Prop
  | rejected : SessionStep w holder (w, holder)
  | broken : SessionStep w holder (w, ⟨.broken, holder.accepted⟩)
  | rolledBack : SessionStep w holder (w, ⟨.fresh, []⟩)
  | queried (s : Session) (refused : Bool) (hflush : holder.session.flush w.tables none refused = .ok s) :
    SessionStep w holder (w, ⟨s, holder.accepted⟩)
  | called (call : PostingCall) (s : Session) (refused : Bool) (hlegs : validateLegs call.legs = .ok ())
      (hflush : holder.session.flush w.tables (some call.entry) refused = .ok s) :
    SessionStep w holder (w, ⟨{ s with pending := call.legs.map (·.row call.entry.id) },
      holder.accepted ++ [call]⟩)
  | committed (s : Session) (refused : Bool)
      (hflush : holder.session.flush w.tables none refused = .ok s)
      (hids : ∀ entry ∈ s.entries, entry.id ∉ w.tables.entries.map (·.id)) :
    SessionStep w holder (⟨⟨w.tables.entries ++ s.entries, w.tables.postings ++ s.postings⟩,
      w.committed ++ holder.accepted⟩, ⟨.fresh, []⟩)

theorem sessions_step (i : ℕ) (action : SessionAction) (w : Recorded) (holder : Holder) :
    SessionStep w holder (sessions i action w holder) := by
  obtain ⟨s, accepted⟩ := holder
  cases action with
  | call call refused =>
    cases hlegs : validateLegs call.legs with
    | error e =>
      simp only [sessions, perform, Session.write, hlegs]
      exact .rejected
    | ok =>
      cases hflush : s.flush w.tables (some call.entry) refused with
      | error e =>
        simp only [sessions, perform, Session.write, hlegs, hflush]
        exact .broken
      | ok s' =>
        simp only [sessions, perform, Session.write, hlegs, hflush]
        exact .called call s' refused hlegs hflush
  | query refused =>
    cases hflush : s.flush w.tables none refused with
    | error e =>
      simp only [sessions, perform, hflush]
      exact .broken
    | ok s' =>
      simp only [sessions, perform, hflush]
      exact .queried s' refused hflush
  | commit refused =>
    cases hcommit : s.commit w.tables refused with
    | error e =>
      simp only [sessions, perform, hcommit]
      exact .broken
    | ok tables' =>
      simp only [sessions, perform, hcommit]
      obtain ⟨s', hflush, hids, -, rfl⟩ := Session.commit_ok.mp hcommit
      exact .committed s' refused hflush hids
  | rollback => exact .rolledBack

/-! ### Whose rows there are -/

/-- The rows are those of the calls, and the legs of each call have been validated. -/
structure RowsOf (calls : List PostingCall) (entries : List JournalEntry)
    (postings : List PostingRow) : Prop where
  entries : entries = calls.map PostingCall.entry
  postings : postings = calls.flatMap PostingCall.rows
  validated : ∀ call ∈ calls, validateLegs call.legs = .ok ()

theorem RowsOf.append {calls calls' : List PostingCall} {entries entries' : List JournalEntry}
    {postings postings' : List PostingRow} (h : RowsOf calls entries postings)
    (h' : RowsOf calls' entries' postings') :
    RowsOf (calls ++ calls') (entries ++ entries') (postings ++ postings') where
  entries := by rw [h.entries, h'.entries, List.map_append]
  postings := by rw [h.postings, h'.postings, List.flatMap_append]
  validated call hcall := (List.mem_append.mp hcall).elim (h.validated call) (h'.validated call)

theorem rowsOf_nil : RowsOf [] [] [] := ⟨rfl, rfl, fun _ h => absurd h List.not_mem_nil⟩

theorem rowsOf_call {call : PostingCall} (h : validateLegs call.legs = .ok ()) :
    RowsOf [call] [call.entry] call.rows where
  entries := rfl
  postings := (List.flatMap_singleton ..).symm
  validated _ hcall := List.mem_singleton.mp hcall ▸ h

/-- The tables hold the rows of the committed calls. -/
def TablesOk (w : Recorded) : Prop :=
  RowsOf w.committed w.tables.entries w.tables.postings ∧ ∀ row ∈ w.tables.postings, row.Checked

/-- An unbroken session holds the rows of the calls accepted in it. -/
def HolderOk (holder : Holder) : Prop :=
  holder.session.failed = false →
    RowsOf holder.accepted holder.session.entries
        (holder.session.postings ++ holder.session.pending.map PostingRow.denormalized) ∧
      ∀ row ∈ holder.session.postings, row.Checked

theorem holderOk_fresh : HolderOk ⟨.fresh, []⟩ :=
  fun _ => ⟨rowsOf_nil, fun _ h => absurd h List.not_mem_nil⟩

theorem holderOk_broken (accepted : List PostingCall) : HolderOk ⟨.broken, accepted⟩ :=
  fun h => Bool.noConfusion h

/-- A flush moves what is pending to the postings, and checks it. -/
theorem rowsOf_flush {tables : LedgerTables} {s s' : Session} {added : Option JournalEntry}
    {refused : Bool} {accepted : List PostingCall} (h : HolderOk ⟨s, accepted⟩)
    (hflush : s.flush tables added refused = .ok s') :
    (∃ entries, s'.entries = entries ++ added.toList ∧ RowsOf accepted entries s'.postings) ∧
      s'.pending = [] ∧ s'.failed = false ∧ ∀ row ∈ s'.postings, row.Checked := by
  obtain ⟨hfailed, -, -, hpending, rfl⟩ := Session.flush_ok.mp hflush
  obtain ⟨hrows, hchecked⟩ := h hfailed
  refine ⟨⟨_, rfl, hrows⟩, rfl, rfl, fun row hrow => ?_⟩
  rcases List.mem_append.mp hrow with hrow | hrow
  · exact hchecked row hrow
  · obtain ⟨row', hrow', rfl⟩ := List.mem_map.mp hrow
    exact PostingRow.checked_denormalized.mpr (hpending row' hrow')

/-- **An action keeps the books.** -/
theorem SessionStep.ok {w : Recorded} {holder : Holder} {next : Recorded × Holder}
    (h : SessionStep w holder next) (hw : TablesOk w) (hholder : HolderOk holder) :
    TablesOk next.1 ∧ HolderOk next.2 := by
  cases h with
  | rejected => exact ⟨hw, hholder⟩
  | broken => exact ⟨hw, holderOk_broken _⟩
  | rolledBack => exact ⟨hw, holderOk_fresh⟩
  | queried s refused hflush =>
    obtain ⟨⟨entries, hentries, hrows⟩, hpending, -, hchecked⟩ := rowsOf_flush hholder hflush
    refine ⟨hw, fun _ => ⟨?_, hchecked⟩⟩
    dsimp only
    rw [hpending, List.map_nil, List.append_nil, hentries, Option.toList_none, List.append_nil]
    exact hrows
  | called call s refused hlegs hflush =>
    obtain ⟨⟨entries, hentries, hrows⟩, -, -, hchecked⟩ := rowsOf_flush hholder hflush
    refine ⟨hw, fun _ => ⟨?_, hchecked⟩⟩
    have hnew := hrows.append (rowsOf_call hlegs)
    dsimp only
    rw [hentries, List.map_map]
    exact hnew
  | committed s refused hflush =>
    obtain ⟨⟨entries, hentries, hrows⟩, -, -, hchecked⟩ := rowsOf_flush hholder hflush
    rw [Option.toList_none, List.append_nil] at hentries
    refine ⟨⟨hw.1.append (hentries ▸ hrows), fun row hrow => ?_⟩, holderOk_fresh⟩
    exact (List.mem_append.mp hrow).elim (hw.2 row) (hchecked row)

theorem stable_sessions : Processes.Stable sessions (fun _ _ _ _ => True) TablesOk
    (fun _ _ holder => HolderOk holder) where
  shared i action w holder _ hw hholder := ((sessions_step i action w holder).ok hw hholder).1
  own i action w holder _ hw hholder := ((sessions_step i action w holder).ok hw hholder).2
  other _ _ _ _ _ _ _ _ _ _ hother := hother

/-- Run lemma: after every run the tables hold the rows of the committed calls. -/
theorem tablesOk_run (steps : List (ℕ × SessionAction)) : TablesOk (runSessions steps).shared :=
  (stable_sessions.run (Processes.along_true ..)
    ⟨⟨rowsOf_nil, fun _ h => absurd h List.not_mem_nil⟩, fun _ => holderOk_fresh⟩).1

/-! ### Ids -/

/-- The ids of the entries are pairwise different. -/
def IdsOk (entries : List JournalEntry) : Prop := (entries.map (·.id)).Nodup

theorem idsOk_flush {tables : LedgerTables} {s s' : Session} {added : Option JournalEntry}
    {refused : Bool} (h : IdsOk s.entries) (hflush : s.flush tables added refused = .ok s') :
    IdsOk s'.entries := by
  obtain ⟨-, -, hadded, -, rfl⟩ := Session.flush_ok.mp hflush
  unfold IdsOk
  dsimp only
  cases added with
  | none =>
    rw [Option.toList_none, List.append_nil]
    exact h
  | some entry =>
    obtain ⟨hfree, -⟩ := Session.checkEntry_ok.mp (hadded entry rfl)
    rw [List.map_append, List.mem_append, not_or] at hfree
    rw [Option.toList_some, List.map_append, List.nodup_append']
    refine ⟨h, List.nodup_singleton _, ?_⟩
    rw [List.map_singleton, List.disjoint_singleton]
    exact hfree.2

theorem SessionStep.idsOk {w : Recorded} {holder : Holder} {next : Recorded × Holder}
    (h : SessionStep w holder next) (hw : IdsOk w.tables.entries)
    (hholder : IdsOk holder.session.entries) :
    IdsOk next.1.tables.entries ∧ IdsOk next.2.session.entries := by
  cases h with
  | rejected => exact ⟨hw, hholder⟩
  | broken => exact ⟨hw, List.nodup_nil⟩
  | rolledBack => exact ⟨hw, List.nodup_nil⟩
  | queried s refused hflush => exact ⟨hw, idsOk_flush hholder hflush⟩
  | called call s refused hlegs hflush =>
    have hs : IdsOk s.entries := idsOk_flush hholder hflush
    exact ⟨hw, hs⟩
  | committed s refused hflush hids =>
    refine ⟨?_, List.nodup_nil⟩
    unfold IdsOk
    rw [List.map_append, List.nodup_append']
    refine ⟨hw, idsOk_flush hholder hflush, fun id htaken hnew => ?_⟩
    obtain ⟨entry, hentry, rfl⟩ := List.mem_map.mp hnew
    exact hids entry hentry htaken

theorem stable_ids : Processes.Stable sessions (fun _ _ _ _ => True)
    (fun w => IdsOk w.tables.entries) (fun _ _ holder => IdsOk holder.session.entries) where
  shared i action w holder _ hw hholder := ((sessions_step i action w holder).idsOk hw hholder).1
  own i action w holder _ hw hholder := ((sessions_step i action w holder).idsOk hw hholder).2
  other _ _ _ _ _ _ _ _ _ _ hother := hother

theorem idsOk_run (steps : List (ℕ × SessionAction)) :
    IdsOk (runSessions steps).shared.tables.entries :=
  (stable_ids.run (c := emptyLedger) (Processes.along_true ..)
    ⟨List.nodup_nil, fun _ => List.nodup_nil⟩).1

/-! ### Balance -/

theorem sum_rows_of_validateLegs {call : PostingCall} (h : validateLegs call.legs = .ok ()) :
    (call.rows.map PostingRow.moneyQuanta).sum = 0 := by
  rw [PostingCall.rows, List.map_map]
  exact sum_money_of_validateLegs h

/-- The money postings of an entry are those of the calls that wrote it. -/
theorem moneyOf_flatMap_rows (calls : List PostingCall) (entryId : Uuid) :
    moneyOf (calls.flatMap PostingCall.rows) entryId =
      ((calls.filter (·.entry.id = entryId)).map fun call =>
        (call.rows.map PostingRow.moneyQuanta).sum).sum := by
  induction calls with
  | nil => rfl
  | cons call calls ih =>
    have hids : ∀ row ∈ call.rows, row.journalEntryId = call.entry.id := by
      intro row hrow
      obtain ⟨leg, -, rfl⟩ := List.mem_map.mp hrow
      rfl
    unfold moneyOf at ih ⊢
    rw [List.flatMap_cons, List.filter_append, List.map_append, List.sum_append, ih]
    by_cases hid : call.entry.id = entryId
    · rw [List.filter_cons_of_pos (by simpa using hid), List.map_cons, List.sum_cons,
        List.filter_eq_self.mpr fun row hrow => by simpa using (hids row hrow).trans hid]
    · rw [List.filter_cons_of_neg (by simpa using hid),
        List.filter_eq_nil_iff.mpr fun row hrow => by simpa [hids row hrow] using hid]
      exact zero_add _

theorem RowsOf.moneyOf_eq_zero {calls : List PostingCall} {entries : List JournalEntry}
    {postings : List PostingRow} (h : RowsOf calls entries postings) (entryId : Uuid) :
    moneyOf postings entryId = 0 := by
  rw [h.postings, moneyOf_flatMap_rows]
  refine List.sum_eq_zero fun x hx => ?_
  obtain ⟨call, hcall, rfl⟩ := List.mem_map.mp hx
  exact sum_rows_of_validateLegs (h.validated call (List.mem_of_mem_filter hcall))

theorem RowsOf.sum_eq_zero {calls : List PostingCall} {entries : List JournalEntry}
    {postings : List PostingRow} (h : RowsOf calls entries postings) :
    (postings.map PostingRow.moneyQuanta).sum = 0 := by
  rw [h.postings, List.map_flatMap, List.flatMap, List.sum_flatten, List.map_map]
  refine List.sum_eq_zero fun x hx => ?_
  obtain ⟨call, hcall, rfl⟩ := List.mem_map.mp hx
  exact sum_rows_of_validateLegs (h.validated call hcall)

/-- **Ledger conservation.** After any interleaving of calls with arbitrary legs, queries, commits
and rollbacks of any number of sessions: the money postings of every journal entry add up to zero,
so does the ledger; every posting sets exactly one of money and units, that of its account's
dimension; and the tables hold the entries and postings of the calls that were accepted in committed
transactions, in the order of the commits, and nothing of a rejected call or of a transaction that
was rolled back. -/
theorem ledger_conservation (steps : List (ℕ × SessionAction)) :
    (∀ entry ∈ (runSessions steps).shared.tables.entries,
        moneyOf (runSessions steps).shared.tables.postings entry.id = 0) ∧
      ((runSessions steps).shared.tables.postings.map PostingRow.moneyQuanta).sum = 0 ∧
      (∀ row ∈ (runSessions steps).shared.tables.postings,
        row.ExactlyOneDimension ∧ row.MatchesDimension) ∧
      (runSessions steps).shared.tables.entries =
        (runSessions steps).shared.committed.map PostingCall.entry ∧
      (runSessions steps).shared.tables.postings =
        (runSessions steps).shared.committed.flatMap PostingCall.rows := by
  obtain ⟨hrows, hchecked⟩ := tablesOk_run steps
  exact ⟨fun entry _ => hrows.moneyOf_eq_zero entry.id, hrows.sum_eq_zero, hchecked, hrows.entries,
    hrows.postings⟩

/-! ### One call, one transaction -/

/-- The row of a posting. -/
def postingRow (posting : Posting) : PostingRow :=
  { journalEntryId := posting.journalEntryId
    account := posting.account
    customerId := posting.account.customerId
    amountMoney := match posting.amount with | .money amount => some amount | .units _ => none
    quantityUnits := match posting.amount with | .money _ => none | .units quantity => some quantity }

/-- The two tables of a database. -/
def ledgerTables (db : Database) : LedgerTables :=
  ⟨db.journalEntries.rows, db.postings.map postingRow⟩

/-- The database lets a leg through when it has a posting of its account's dimension. -/
theorem checked_row_iff {leg : PostingLeg} {entryId : Uuid} : (leg.row entryId).Checked ↔
    ∃ p, leg.posting entryId = some p ∧ p.amount.dimension = p.account.role.dimension := by
  obtain ⟨account, money, units⟩ := leg
  unfold PostingRow.Checked PostingRow.ExactlyOneDimension PostingRow.MatchesDimension PostingLeg.row
  unfold PostingLeg.posting PostingLeg.amount Amount.dimension
  cases money <;> cases units <;> cases hdim : account.role.dimension <;> simp [hdim]

theorem map_postingRow {entryId : Uuid} {legs : List PostingLeg}
    (h : ∀ leg ∈ legs, (leg.row entryId).Checked) :
    (legs.filterMap (PostingLeg.posting entryId)).map postingRow =
      legs.map fun leg => (leg.row entryId).denormalized := by
  induction legs with
  | nil => rfl
  | cons leg legs ih =>
    obtain ⟨hleg, hlegs⟩ := List.forall_mem_cons.mp h
    obtain ⟨p, hp, -⟩ := checked_row_iff.mp hleg
    rw [List.filterMap_cons_some hp, List.map_cons, List.map_cons, ih hlegs]
    congr 1
    obtain ⟨account, money, units⟩ := leg
    unfold PostingLeg.posting PostingLeg.amount at hp
    cases money <;> cases units <;> cases hp <;> rfl

theorem moneyOf_of_unknown {db : Database} (hknown : PostingsKnown db) {entryId : Uuid}
    (hid : ¬ db.journalEntries.Has entryId) : moneyOf (ledgerTables db).postings entryId = 0 := by
  unfold moneyOf
  rw [List.filter_eq_nil_iff.mpr]
  · rfl
  · intro row hrow
    obtain ⟨p, hp, rfl⟩ := List.mem_map.mp hrow
    have hhas : db.journalEntries.Has p.journalEntryId := hknown p hp
    simp only [decide_eq_true_eq]
    exact fun heq => hid (heq ▸ hhas)

/-- **One call is one `writeEntry`**: a session of its own that makes the call and commits leaves
the tables that `writeEntry` does, and returns when it does. -/
theorem writeEntry_iff_session {db : Database} (hknown : PostingsKnown db) {call : PostingCall}
    (horiginal : ∀ original ∈ call.entry.supersededBy, db.journalEntries.Has original)
    {tables : LedgerTables} :
    (∃ db', (writeEntry call.entry call.legs).run db = .ok (call.entry, db') ∧
        tables = ledgerTables db') ↔
      ∃ s, Session.fresh.write (ledgerTables db) call false = (.ok (), s) ∧
        s.commit (ledgerTables db) false = .ok tables := by
  have hids : (ledgerTables db).entries ++ Session.fresh.entries = db.journalEntries.rows :=
    List.append_nil _
  constructor
  · rintro ⟨db', hrun, rfl⟩
    obtain ⟨hlegs, hall, -, t, hinsert, rfl⟩ := writeEntry_ok.mp hrun
    obtain ⟨hfree, hrows⟩ := Table.insert_eq_some.mp hinsert
    have hchecked : ∀ leg ∈ call.legs, (leg.row call.entry.id).Checked :=
      fun leg hleg => checked_row_iff.mpr (hall leg hleg)
    have hflush : Session.fresh.flush (ledgerTables db) (some call.entry) false =
        .ok ⟨[call.entry], [], [], false⟩ := by
      refine Session.flush_ok.mpr ⟨rfl, rfl, ?_, fun _ h => absurd h List.not_mem_nil, rfl⟩
      rintro _ ⟨⟩
      rw [Session.checkEntry_ok, hids]
      exact ⟨hfree, horiginal⟩
    refine ⟨⟨[call.entry], [], call.legs.map (·.row call.entry.id), false⟩, ?_, ?_⟩
    · exact Session.write_ok.mpr ⟨hlegs, _, hflush, rfl⟩
    · refine Session.commit_ok.mpr ⟨⟨[call.entry], call.rows, [], false⟩, ?_, ?_, ?_, ?_⟩
      · refine Session.flush_ok.mpr ⟨rfl, rfl, fun _ h => absurd h (Option.not_mem_none _), ?_, ?_⟩
        · intro row hrow
          obtain ⟨leg, hleg, rfl⟩ := List.mem_map.mp hrow
          exact hchecked leg hleg
        · rw [Option.toList_none, List.append_nil, List.nil_append, List.map_map]
          rfl
      · intro entry hentry
        rw [List.mem_singleton.mp hentry]
        exact hfree
      · intro row hrow
        obtain ⟨leg, -, rfl⟩ := List.mem_map.mp hrow
        have hnew := (rowsOf_call hlegs).moneyOf_eq_zero call.entry.id
        unfold moneyOf at hnew
        show moneyOf _ call.entry.id = 0
        unfold moneyOf
        rw [List.filter_append, List.map_append, List.sum_append, hnew, add_zero]
        exact moneyOf_of_unknown hknown hfree
      · unfold ledgerTables
        rw [hrows, List.map_append, map_postingRow hchecked]
        rfl
  · rintro ⟨s, hwrite, hcommit⟩
    obtain ⟨hlegs, s', hflush, rfl⟩ := Session.write_ok.mp hwrite
    obtain ⟨-, -, hentry, -, rfl⟩ := Session.flush_ok.mp hflush
    have hfree := (Session.checkEntry_ok.mp (hentry call.entry rfl)).1
    rw [hids] at hfree
    obtain ⟨_, hflush', -, -, rfl⟩ := Session.commit_ok.mp hcommit
    obtain ⟨-, -, -, hpending, rfl⟩ := Session.flush_ok.mp hflush'
    have hchecked : ∀ leg ∈ call.legs, (leg.row call.entry.id).Checked :=
      fun leg hleg => hpending _ (List.mem_map_of_mem hleg)
    obtain ⟨t, hinsert⟩ := Table.exists_insert hfree
    refine ⟨_, writeEntry_ok.mpr ⟨hlegs, fun leg hleg => checked_row_iff.mp (hchecked leg hleg), rfl,
      t, hinsert, rfl⟩, ?_⟩
    unfold ledgerTables
    rw [Table.rows_insert hinsert, List.map_append, map_postingRow hchecked, List.map_map]
    rfl

end Trueup.Ledger
