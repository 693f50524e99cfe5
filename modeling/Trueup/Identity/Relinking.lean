import Trueup.Identity.BankLinkService
import Trueup.Lib.Locks
import Trueup.Lib.Processes

/-! # Re-linking beside login-required events

`create_link` and `apply_item_login_required`, statement by statement, by any number of processes at
read committed. A statement sees the committed links; an `UPDATE` names its row by the id alone and
waits while another transaction has the row locked; the `INSERT` waits for a transaction that may
leave or remove an entry it would conflict with. A transaction that fails or dies is rolled back.

* `Step`: what a statement does.
* `Fresh`: an `UPDATE` or `INSERT` that does not rest on a read that has been overtaken.
* `Knows`, `OneUsable`: what a transaction knows at each of its statements, and what the table says;
  no fresh statement breaks them (`relinking_stable`).
* `one_usable_link`: in every run of fresh statements every customer has at most one usable link.
* `createLink_alone`, `applyItemLoginRequired_alone`: with nobody beside it a transaction does what
  the service does as a whole. -/

namespace Trueup.Identity.Relinking

open Trueup.Core Trueup.Models Trueup.Lib

variable {ι : Type}

/-! ### The transactions -/

/-- What a transaction locks: a row, and the entries of the unique indexes. -/
inductive Key
  | row (id : Uuid)
  | activeOf (customerId : Uuid)
  | item (plaidItemId : String)
  deriving DecidableEq

/-- The committed links, and the locks. -/
structure Bank (ι : Type) where
  links : List BankLink
  locks : Locks Key ι

/-- Where a transaction is. -/
inductive Phase
  | idle
  /-- in `create_link`: the links that are still to be superseded, and those that have been -/
  | linking (newLink : BankLink) (existing superseded : List Uuid)
  | linked (newLink : BankLink) (superseded : List Uuid)
  /-- in `apply_item_login_required`, with an active link in hand -/
  | expiring (id : Uuid)
  | expired (id : Uuid)
  deriving DecidableEq

inductive Action
  /-- the `SELECT` of `supersede_and_activate` -/
  | selectUsable (newLink : BankLink)
  | updateNext
  | insert
  /-- the `SELECT` of `get_by_plaid_item_id` -/
  | selectItem (plaidItemId : String)
  | requireReauth
  | commit
  /-- an error or a crash -/
  | rollback
  deriving DecidableEq

/-- The entries of a new link. -/
def keysOf (newLink : BankLink) : List Key :=
  [.row newLink.id, .activeOf newLink.customerId, .item newLink.plaidItemId]

/-- The active links of the customer that the transaction has not superseded itself. -/
def otherActive (links : List BankLink) (customerId : Uuid) (superseded : List Uuid) :
    List BankLink :=
  links.filter fun link => link.customerId = customerId ∧ link.status = .active ∧
    link.id ∉ superseded

variable [DecidableEq ι]

/-- The `INSERT` need not wait: no other transaction has an entry of the new link, nor the row of an
active link in the way. -/
def Bank.MayInsert (bank : Bank ι) (i : ι) (newLink : BankLink) (superseded : List Uuid) : Prop :=
  (∀ k ∈ keysOf newLink, bank.locks.FreeFor i k) ∧
    ∀ link ∈ otherActive bank.links newLink.customerId superseded, bank.locks.FreeFor i (.row link.id)

instance (bank : Bank ι) (i : ι) (newLink : BankLink) (superseded : List Uuid) :
    Decidable (bank.MayInsert i newLink superseded) := inferInstanceAs (Decidable (_ ∧ _))

/-- The `INSERT` violates a unique index. -/
def Conflicts (links : List BankLink) (newLink : BankLink) (superseded : List Uuid) : Prop :=
  (∃ link ∈ links, link.id = newLink.id ∨ link.plaidItemId = newLink.plaidItemId) ∨
    otherActive links newLink.customerId superseded ≠ []

instance (links : List BankLink) (newLink : BankLink) (superseded : List Uuid) :
    Decidable (Conflicts links newLink superseded) := inferInstanceAs (Decidable (_ ∨ _))

/-- The transaction ends. -/
def Bank.release (bank : Bank ι) (i : ι) : Bank ι := { bank with locks := bank.locks.release i }

/-- The transaction commits these links. -/
def Bank.committed (bank : Bank ι) (i : ι) (links : List BankLink) : Bank ι :=
  ⟨links, bank.locks.release i⟩

/-- The links after the `UPDATE`s of a transaction. -/
def supersedeAll (superseded : List Uuid) (links : List BankLink) : List BankLink :=
  superseded.foldl (fun links id => setStatus id .superseded links) links

/-- The links as `create_link` leaves them. -/
def relinked (newLink : BankLink) (superseded : List Uuid) (links : List BankLink) : List BankLink :=
  supersedeAll superseded links ++ [{ newLink with status := .active }]

/-- What a statement does; one that has to wait, or that the process is not at, does nothing. -/
def program : Processes.Program ι Action (Bank ι) Phase
  | _, .selectUsable newLink, bank, .idle =>
    (bank, .linking newLink ((usableLinks bank.links newLink.customerId).map (·.id)) [])
  | i, .updateNext, bank, .linking newLink (id :: existing) superseded =>
    if bank.locks.FreeFor i (.row id) then
      ({ bank with locks := bank.locks.take i [.row id] }, .linking newLink existing (superseded ++ [id]))
    else (bank, .linking newLink (id :: existing) superseded)
  | i, .insert, bank, .linking newLink [] superseded =>
    if ¬ bank.MayInsert i newLink superseded then (bank, .linking newLink [] superseded)
    else if Conflicts bank.links newLink superseded then (bank.release i, .idle)
    else ({ bank with locks := bank.locks.take i (keysOf newLink) }, .linked newLink superseded)
  | _, .selectItem plaidItemId, bank, .idle =>
    match bank.links.filter (·.plaidItemId = plaidItemId) with
    | [link] => (bank, if link.status = .active then .expiring link.id else .idle)
    | _ => (bank, .idle)
  | i, .requireReauth, bank, .expiring id =>
    if bank.locks.FreeFor i (.row id) then
      ({ bank with locks := bank.locks.take i [.row id] }, .expired id)
    else (bank, .expiring id)
  | i, .commit, bank, .linked newLink superseded =>
    (bank.committed i (relinked newLink superseded bank.links), .idle)
  | i, .commit, bank, .expired id =>
    (bank.committed i (setStatus id .requiresReauth bank.links), .idle)
  | i, .rollback, bank, _ => (bank.release i, .idle)
  | _, _, bank, phase => (bank, phase)

/-- No links, and idle processes. -/
def start : Processes.Config ι (Bank ι) Phase := ⟨⟨[], fun _ => none⟩, fun _ => .idle⟩

/-! ### What a statement did -/

/-- What a statement of the process `i` did to the table and to the process. -/
inductive Step (i : ι) (bank : Bank ι) : Action → Phase → Bank ι → Phase → Prop
  | stays (a : Action) (phase : Phase) : Step i bank a phase bank phase
  | selects (newLink : BankLink) (existing : List Uuid) :
      Step i bank (.selectUsable newLink) .idle bank (.linking newLink existing [])
  | updates (newLink : BankLink) (id : Uuid) (existing superseded : List Uuid)
      (free : bank.locks.FreeFor i (.row id)) :
      Step i bank .updateNext (.linking newLink (id :: existing) superseded)
        { bank with locks := bank.locks.take i [.row id] }
        (.linking newLink existing (superseded ++ [id]))
  | inserts (newLink : BankLink) (superseded : List Uuid) (may : bank.MayInsert i newLink superseded)
      (fits : ¬ Conflicts bank.links newLink superseded) :
      Step i bank .insert (.linking newLink [] superseded)
        { bank with locks := bank.locks.take i (keysOf newLink) } (.linked newLink superseded)
  | finds (plaidItemId : String) (id : Uuid) :
      Step i bank (.selectItem plaidItemId) .idle bank (.expiring id)
  | requires (id : Uuid) (free : bank.locks.FreeFor i (.row id)) :
      Step i bank .requireReauth (.expiring id) { bank with locks := bank.locks.take i [.row id] }
        (.expired id)
  | links (newLink : BankLink) (superseded : List Uuid) :
      Step i bank .commit (.linked newLink superseded)
        (bank.committed i (relinked newLink superseded bank.links)) .idle
  | expires (id : Uuid) :
      Step i bank .commit (.expired id) (bank.committed i (setStatus id .requiresReauth bank.links)) .idle
  | rollsBack (a : Action) (phase : Phase) : Step i bank a phase (bank.release i) .idle

/-- **What a statement did.** -/
theorem program_step (i : ι) (a : Action) (bank : Bank ι) (phase : Phase) :
    Step i bank a phase (program i a bank phase).1 (program i a bank phase).2 := by
  unfold program
  split
  · exact .selects _ _
  · split_ifs with hfree
    · exact .updates _ _ _ _ hfree
    · exact .stays _ _
  · split_ifs with hmay hconflicts
    · exact .rollsBack _ _
    · exact .inserts _ _ hmay hconflicts
    · exact .stays _ _
  · split
    · split_ifs
      · exact .finds _ _
      · exact .stays _ _
    · exact .stays _ _
  · split_ifs with hfree
    · exact .requires _ hfree
    · exact .stays _ _
  · exact .links _ _
  · exact .expires _
  · exact .rollsBack _ _
  · exact .stays _ _

/-! ### One usable link -/

def IsUsable (link : BankLink) : Prop := link.status = .active ∨ link.status = .requiresReauth

/-- The ids are different, and no customer has two usable links. -/
structure OneUsable (links : List BankLink) : Prop where
  ids : (links.map (·.id)).Nodup
  usable : ∀ link ∈ links, ∀ other ∈ links, link.customerId = other.customerId → IsUsable link →
    IsUsable other → link.id = other.id

/-- What the transaction of the process `i` knows. -/
def Knows (i : ι) (bank : Bank ι) : Phase → Prop
  | .linking _ _ superseded => ∀ id ∈ superseded, bank.locks (.row id) = some i
  | .linked newLink superseded =>
    (∀ id ∈ superseded, bank.locks (.row id) = some i) ∧
    (∀ k ∈ keysOf newLink, bank.locks k = some i) ∧ (∀ link ∈ bank.links, link.id ≠ newLink.id) ∧
    ∀ link ∈ bank.links, link.customerId = newLink.customerId → IsUsable link → link.id ∈ superseded
  | .expired id => bank.locks (.row id) = some i ∧ ∀ link ∈ bank.links, link.id = id → IsUsable link
  | _ => True

/-- The statement does not rest on a read that has been overtaken: the link that an event turns has
not been superseded since it was read, and no link of the customer has come to require
re-authentication since `create_link` read the usable ones. -/
def Fresh (i : ι) : Action → Bank ι → Phase → Prop
  | .requireReauth, bank, .expiring id => bank.locks.FreeFor i (.row id) →
    ∀ link ∈ bank.links, link.id = id → link.status ≠ .superseded
  | .insert, bank, .linking newLink [] superseded => bank.MayInsert i newLink superseded →
    ¬ Conflicts bank.links newLink superseded →
    ∀ link ∈ bank.links, link.customerId = newLink.customerId → link.status = .requiresReauth →
      link.id ∈ superseded
  | _, _, _ => True

instance (i : ι) (a : Action) (bank : Bank ι) (phase : Phase) : Decidable (Fresh i a bank phase) := by
  unfold Fresh
  split <;> infer_instance

/-! ### The links after a commit -/

theorem mem_setStatus {id : Uuid} {status : BankLinkStatus} {links : List BankLink} {link : BankLink} :
    link ∈ setStatus id status links ↔
      (link ∈ links ∧ link.id ≠ id) ∨ ∃ row ∈ links, row.id = id ∧ link = { row with status } := by
  unfold setStatus
  rw [List.mem_map]
  constructor
  · rintro ⟨row, hrow, rfl⟩
    split_ifs with hid
    · exact Or.inr ⟨row, hrow, hid, rfl⟩
    · exact Or.inl ⟨hrow, hid⟩
  · rintro (⟨hlink, hid⟩ | ⟨row, hrow, hid, rfl⟩)
    · exact ⟨link, hlink, if_neg hid⟩
    · exact ⟨row, hrow, if_pos hid⟩

theorem map_setStatus {β : Type} {column : BankLink → β}
    (hcolumn : ∀ (row : BankLink) (status : BankLinkStatus), column { row with status } = column row)
    (id : Uuid) (status : BankLinkStatus) (links : List BankLink) :
    (setStatus id status links).map column = links.map column := by
  unfold setStatus
  rw [List.map_map]
  refine List.map_congr_left fun row _ => ?_
  dsimp only [Function.comp_apply]
  split_ifs
  · exact hcolumn row status
  · rfl

theorem map_id_setStatus (id : Uuid) (status : BankLinkStatus) (links : List BankLink) :
    (setStatus id status links).map (·.id) = links.map (·.id) :=
  map_setStatus (fun _ _ => rfl) id status links

/-- Superseding some links leaves the others, and the customers and items of all. -/
theorem mem_supersedeAll {superseded : List Uuid} {links : List BankLink} {link : BankLink}
    (h : link ∈ supersedeAll superseded links) :
    (link ∈ links ∧ link.id ∉ superseded) ∨ (¬ IsUsable link ∧ link.id ∈ superseded ∧
      ∃ row ∈ links, row.id = link.id ∧ row.customerId = link.customerId) := by
  induction superseded generalizing links with
  | nil => exact Or.inl ⟨h, List.not_mem_nil⟩
  | cons id superseded ih =>
    have hrest : link ∈ supersedeAll superseded (setStatus id .superseded links) := h
    rcases ih hrest with ⟨hlink, hrest⟩ | ⟨hunusable, hmem, row, hrow, hid, hcustomer⟩
    · rcases mem_setStatus.mp hlink with ⟨hold, hne⟩ | ⟨row, hrow, hid, rfl⟩
      · exact Or.inl ⟨hold, by simp [hne, hrest]⟩
      · refine Or.inr ⟨fun h => ?_, by simp [hid], row, hrow, rfl, rfl⟩
        rcases h with h | h <;> cases h
    · rcases mem_setStatus.mp hrow with ⟨hold, -⟩ | ⟨row, hold, -, rfl⟩
      · exact Or.inr ⟨hunusable, List.mem_cons_of_mem _ hmem, row, hold, hid, hcustomer⟩
      · exact Or.inr ⟨hunusable, List.mem_cons_of_mem _ hmem, row, hold, hid, hcustomer⟩

theorem map_supersedeAll {β : Type} {column : BankLink → β}
    (hcolumn : ∀ (row : BankLink) (status : BankLinkStatus), column { row with status } = column row)
    (superseded : List Uuid) (links : List BankLink) :
    (supersedeAll superseded links).map column = links.map column := by
  induction superseded generalizing links with
  | nil => rfl
  | cons id superseded ih => exact (ih _).trans (map_setStatus hcolumn id .superseded links)

theorem map_id_supersedeAll (superseded : List Uuid) (links : List BankLink) :
    (supersedeAll superseded links).map (·.id) = links.map (·.id) :=
  map_supersedeAll (fun _ _ => rfl) superseded links

theorem mem_supersedeAll_of_notMem {superseded : List Uuid} {links : List BankLink} {link : BankLink}
    (hlink : link ∈ links) (hnot : link.id ∉ superseded) : link ∈ supersedeAll superseded links := by
  induction superseded generalizing links with
  | nil => exact hlink
  | cons id superseded ih =>
    rw [List.mem_cons, not_or] at hnot
    exact ih (mem_setStatus.mpr (Or.inl ⟨hlink, hnot.1⟩)) hnot.2

theorem OneUsable.relinked {links : List BankLink} (h : OneUsable links) {newLink : BankLink}
    {superseded : List Uuid} (hnew : ∀ link ∈ links, link.id ≠ newLink.id)
    (hall : ∀ link ∈ links, link.customerId = newLink.customerId → IsUsable link →
      link.id ∈ superseded) : OneUsable (Relinking.relinked newLink superseded links) := by
  have hother : ∀ link ∈ supersedeAll superseded links,
      IsUsable link → link ∈ links ∧ link.customerId ≠ newLink.customerId := by
    intro link hlink husable
    rcases mem_supersedeAll hlink with ⟨hold, hrest⟩ | ⟨hunusable, -⟩
    · exact ⟨hold, fun hcustomer => hrest (hall link hold hcustomer husable)⟩
    · exact absurd husable hunusable
  constructor
  · unfold Relinking.relinked
    rw [List.map_append, map_id_supersedeAll]
    refine List.nodup_append'.mpr ⟨h.ids, List.nodup_singleton _, fun id hid hmem => ?_⟩
    obtain ⟨link, hlink, rfl⟩ := List.mem_map.mp hid
    exact hnew link hlink (List.mem_singleton.mp hmem)
  · intro link hlink other hmem hcustomer husable husable'
    rcases List.mem_append.mp hlink with hlink | hlink <;>
      rcases List.mem_append.mp hmem with hmem | hmem
    · exact h.usable link (hother link hlink husable).1 other (hother other hmem husable').1 hcustomer
        husable husable'
    · obtain rfl := List.mem_singleton.mp hmem
      exact absurd hcustomer (hother link hlink husable).2
    · obtain rfl := List.mem_singleton.mp hlink
      exact absurd hcustomer.symm (hother other hmem husable').2
    · rw [List.mem_singleton.mp hlink, List.mem_singleton.mp hmem]

theorem OneUsable.setStatus {links : List BankLink} (h : OneUsable links) {id : Uuid}
    {status : BankLinkStatus} (husable : ∀ link ∈ links, link.id = id → IsUsable link) :
    OneUsable (Identity.setStatus id status links) := by
  have hold : ∀ link ∈ Identity.setStatus id status links, IsUsable link →
      ∃ row ∈ links, row.id = link.id ∧ row.customerId = link.customerId ∧ IsUsable row := by
    intro link hlink hlinkUsable
    rcases mem_setStatus.mp hlink with ⟨hmem, -⟩ | ⟨row, hrow, hid, rfl⟩
    · exact ⟨link, hmem, rfl, rfl, hlinkUsable⟩
    · exact ⟨row, hrow, rfl, rfl, husable row hrow hid⟩
  refine ⟨by rw [map_id_setStatus]; exact h.ids, fun link hlink other hother hcustomer hu hu' => ?_⟩
  obtain ⟨row, hrow, hid, hsame, hrowUsable⟩ := hold link hlink hu
  obtain ⟨row', hrow', hid', hsame', hrowUsable'⟩ := hold other hother hu'
  rw [← hid, ← hid']
  exact h.usable row hrow row' hrow' (hsame.trans (hcustomer.trans hsame'.symm)) hrowUsable hrowUsable'

/-! ### The invariant -/

section Invariant
variable {i j : ι} {a : Action} {bank bank' : Bank ι} {phase phase' other : Phase}

/-- What a statement of the process `i` leaves alone: the locks of the others, and the links but for
those whose row or whose entries `i` has locked. -/
structure Frame (i : ι) (bank bank' : Bank ι) : Prop where
  locks : ∀ j, i ≠ j → bank.locks.Keeps bank'.locks j
  links : ∀ link ∈ bank'.links, link ∈ bank.links ∨
    (bank.locks (.row link.id) = some i ∧ ∃ row ∈ bank.links, row.id = link.id ∧
      row.customerId = link.customerId ∧ (IsUsable link → IsUsable row)) ∨
    ∀ k ∈ keysOf link, bank.locks k = some i

/-- **A statement leaves the others' locks and rows alone.** -/
theorem Step.frame (h : Step i bank a phase bank' phase') (hknows : Knows i bank phase) :
    Frame i bank bank' := by
  have hsame : ∀ link ∈ bank.links, link ∈ bank.links ∨
      (bank.locks (.row link.id) = some i ∧ ∃ row ∈ bank.links, row.id = link.id ∧
        row.customerId = link.customerId ∧ (IsUsable link → IsUsable row)) ∨
      ∀ k ∈ keysOf link, bank.locks k = some i := fun link hlink => Or.inl hlink
  cases h with
  | stays => exact ⟨fun j _ => .refl _ j, hsame⟩
  | selects => exact ⟨fun j _ => .refl _ j, hsame⟩
  | finds => exact ⟨fun j _ => .refl _ j, hsame⟩
  | updates newLink id existing superseded free =>
    exact ⟨fun j hj => Locks.keeps_take_other (by simpa using free) hj, hsame⟩
  | requires id free => exact ⟨fun j hj => Locks.keeps_take_other (by simpa using free) hj, hsame⟩
  | inserts newLink superseded may fits =>
    exact ⟨fun j hj => Locks.keeps_take_other may.1 hj, hsame⟩
  | rollsBack => exact ⟨fun j hj => Locks.keeps_release hj, hsame⟩
  | links newLink superseded =>
    refine ⟨fun j hj => Locks.keeps_release hj, fun link hlink => ?_⟩
    rcases List.mem_append.mp hlink with hlink | hlink
    · rcases mem_supersedeAll hlink with ⟨hold, -⟩ | ⟨hunusable, hmem, row, hrow, hid, hcustomer⟩
      · exact Or.inl hold
      · exact Or.inr (Or.inl ⟨hknows.1 _ hmem, row, hrow, hid, hcustomer,
          fun husable => absurd husable hunusable⟩)
    · rw [List.mem_singleton.mp hlink]
      exact Or.inr (Or.inr hknows.2.1)
  | expires id =>
    refine ⟨fun j hj => Locks.keeps_release hj, fun link hlink => ?_⟩
    rcases mem_setStatus.mp hlink with ⟨hold, -⟩ | ⟨row, hrow, hid, rfl⟩
    · exact Or.inl hold
    · refine Or.inr (Or.inl ⟨?_, row, hrow, rfl, rfl, fun _ => hknows.2 row hrow hid⟩)
      show bank.locks (.row row.id) = some i
      rw [hid]
      exact hknows.1

omit [DecidableEq ι] in
/-- **A transaction does not interfere with another.** -/
theorem Knows.undisturbed {j : ι} (hij : i ≠ j) (hframe : Frame i bank bank') (h : Knows j bank other) :
    Knows j bank' other := by
  have hkeep := hframe.locks j hij
  have hnot : ∀ k, bank.locks k = some j → bank.locks k ≠ some i := fun k hj hi =>
    hij (Option.some.inj (hi.symm.trans hj))
  cases other with
  | idle => trivial
  | expiring id => trivial
  | linking newLink existing superseded => exact fun id hid => hkeep _ (h id hid)
  | linked newLink superseded =>
    obtain ⟨hrows, hkeys, hnew, hall⟩ := h
    refine ⟨fun id hid => hkeep _ (hrows id hid), fun k hk => hkeep _ (hkeys k hk), fun link hlink => ?_,
      fun link hlink hcustomer husable => ?_⟩
    · rcases hframe.links link hlink with hold | ⟨-, row, hrow, hid, -⟩ | hentries
      · exact hnew link hold
      · exact hid ▸ hnew row hrow
      · intro hid
        exact hnot (.row newLink.id) (hkeys _ (by simp [keysOf])) (hid ▸ hentries _ (by simp [keysOf]))
    · rcases hframe.links link hlink with hold | ⟨-, row, hrow, hid, hsame, hrowUsable⟩ | hentries
      · exact hall link hold hcustomer husable
      · exact hid ▸ hall row hrow (hsame.trans hcustomer) (hrowUsable husable)
      · exact absurd (hcustomer ▸ hentries _ (by simp [keysOf]))
          (hnot (.activeOf newLink.customerId) (hkeys _ (by simp [keysOf])))
  | expired id =>
    refine ⟨hkeep _ h.1, fun link hlink hid => ?_⟩
    rcases hframe.links link hlink with hold | ⟨hlocked, -⟩ | hentries
    · exact h.2 link hold hid
    · exact absurd (hid ▸ hlocked) (hnot _ h.1)
    · exact absurd (hid ▸ hentries (.row link.id) (by simp [keysOf])) (hnot _ h.1)

/-- **What a transaction knows** after a fresh statement of its own. -/
theorem Step.knows (h : Step i bank a phase bank' phase') (hfresh : Fresh i a bank phase)
    (hknows : Knows i bank phase) : Knows i bank' phase' := by
  cases h with
  | stays => exact hknows
  | selects => exact fun id hid => absurd hid List.not_mem_nil
  | finds => trivial
  | updates newLink id existing superseded free =>
    intro id' hid'
    rcases List.mem_append.mp hid' with hid' | hid'
    · exact Locks.keeps_take_own _ (hknows id' hid')
    · rw [List.mem_singleton.mp hid']
      exact Locks.take_mem (by simp)
  | inserts newLink superseded may fits =>
    refine ⟨fun id hid => Locks.keeps_take_own _ (hknows id hid), fun k hk => Locks.take_mem hk,
      fun link hlink hid => fits (Or.inl ⟨link, hlink, Or.inl hid⟩),
      fun link hlink hcustomer husable => ?_⟩
    rcases husable with hactive | hreauth
    · by_contra hnot
      refine fits (Or.inr (List.ne_nil_of_mem (a := link) ?_))
      exact List.mem_filter.mpr ⟨hlink, by simp [hcustomer, hactive, hnot]⟩
    · exact hfresh may fits link hlink hcustomer hreauth
  | requires id free =>
    refine ⟨Locks.take_mem (by simp), fun link hlink hid => ?_⟩
    have hstatus := hfresh free link hlink hid
    unfold IsUsable
    cases hlinkStatus : link.status with
    | active => exact Or.inl rfl
    | requiresReauth => exact Or.inr rfl
    | superseded => exact absurd hlinkStatus hstatus
  | links => trivial
  | expires => trivial
  | rollsBack => trivial

/-- **What the table says** after a statement. -/
theorem Step.oneUsable (h : Step i bank a phase bank' phase') (hknows : Knows i bank phase)
    (hone : OneUsable bank.links) : OneUsable bank'.links := by
  cases h with
  | links newLink superseded => exact hone.relinked hknows.2.2.1 hknows.2.2.2
  | expires id => exact hone.setStatus hknows.2
  | _ => exact hone

end Invariant

/-- **No fresh statement breaks the invariant.** -/
theorem relinking_stable : Processes.Stable (program (ι := ι)) Fresh (fun bank => OneUsable bank.links)
    Knows where
  shared i a bank phase _ hone hknows := (program_step i a bank phase).oneUsable hknows hone
  own i a bank phase hfresh _ hknows := (program_step i a bank phase).knows hfresh hknows
  other i _ a bank phase _ hij _ _ hknows hother :=
    hother.undisturbed hij ((program_step i a bank phase).frame hknows)

omit [DecidableEq ι] in
theorem ok_start : Processes.Holds (fun bank : Bank ι => OneUsable bank.links) Knows start :=
  ⟨⟨List.nodup_nil, fun _ h => by cases h⟩, fun _ => trivial⟩

/-- The usable links of a customer are at most one, so `current_for_customer` returns. -/
theorem OneUsable.current {links : List BankLink} (h : OneUsable links) (customerId : Uuid) :
    (usableLinks links customerId).length ≤ 1 ∧
      ∀ db : Database, db.bankLinks = links → ∃ found, currentBankLink db customerId = .ok found := by
  have hle : (usableLinks links customerId).length ≤ 1 := by
    have hnodup : ((usableLinks links customerId).map (·.id)).Nodup :=
      h.ids.sublist (List.filter_sublist.map _)
    have hsame : ∀ link ∈ usableLinks links customerId, ∀ other ∈ usableLinks links customerId,
        link.id = other.id := by
      intro link hlink other hother
      obtain ⟨hmem, hlink⟩ := List.mem_filter.mp hlink
      obtain ⟨hmem', hother⟩ := List.mem_filter.mp hother
      obtain ⟨hcustomer, husable⟩ := of_decide_eq_true hlink
      obtain ⟨hcustomer', husable'⟩ := of_decide_eq_true hother
      exact h.usable link hmem other hmem' (hcustomer.trans hcustomer'.symm) husable husable'
    match husables : usableLinks links customerId with
    | [] => exact Nat.zero_le 1
    | [_] => exact le_rfl
    | first :: second :: rest =>
      rw [husables] at hnodup hsame
      refine absurd (hsame first (by simp) second (by simp)) fun heq => ?_
      rw [List.map_cons, List.map_cons, List.nodup_cons] at hnodup
      exact hnodup.1 (by simp [heq])
  refine ⟨hle, fun db hdb => ?_⟩
  show ∃ found, scalarOneOrNone (usableLinks db.bankLinks customerId) = .ok found
  rw [hdb]
  match usableLinks links customerId, hle with
  | [], _ => exact ⟨none, rfl⟩
  | [link], _ => exact ⟨some link, rfl⟩

/-- **One usable link.** In every run of any number of `create_link` and `apply_item_login_required`
calls whose statements are fresh, every customer has at most one committed link that is active or
requires re-authentication, and `current_for_customer` returns. -/
theorem one_usable_link (steps : List (ι × Action))
    (hfresh : Processes.Along program Fresh steps (start (ι := ι))) (customerId : Uuid) :
    (usableLinks (Processes.run program steps (start (ι := ι))).shared.links customerId).length ≤ 1 ∧
      ∀ db : Database, db.bankLinks = (Processes.run program steps (start (ι := ι))).shared.links →
        ∃ found, currentBankLink db customerId = .ok found :=
  (relinking_stable.run hfresh ok_start).1.current customerId

/-! ### A transaction on its own -/

section Alone
variable {i : ι} {links : List BankLink}

/-- A configuration in which no other process has a lock. -/
def Alone (i : ι) (links : List BankLink) (phase : Phase)
    (c : Processes.Config ι (Bank ι) Phase) : Prop :=
  c.shared.links = links ∧ c.locals i = phase ∧ ∀ k, c.shared.locks.FreeFor i k

section Statements
variable {phase : Phase} {c : Processes.Config ι (Bank ι) Phase}

theorem Alone.act (h : Alone i links phase c) (a : Action) {links' : List BankLink} {phase' : Phase}
    (hlinks : (program i a c.shared phase).1.links = links')
    (hphase : (program i a c.shared phase).2 = phase')
    (hfree : ∀ k, (program i a c.shared phase).1.locks.FreeFor i k) :
    Alone i links' phase' (Processes.act program (i, a) c) := by
  unfold Processes.act
  dsimp only
  rw [h.2.1, hphase]
  exact ⟨hlinks, Function.update_self _ _ _, hfree⟩

theorem Alone.updateNext {newLink : BankLink} {id : Uuid} {existing superseded : List Uuid}
    (h : Alone i links (.linking newLink (id :: existing) superseded) c) :
    Alone i links (.linking newLink existing (superseded ++ [id]))
      (Processes.act program (i, .updateNext) c) := by
  have hstep : program i .updateNext c.shared (.linking newLink (id :: existing) superseded) =
      ({ c.shared with locks := c.shared.locks.take i [.row id] },
        .linking newLink existing (superseded ++ [id])) := if_pos (h.2.2 _)
  refine h.act .updateNext ?_ ?_ ?_ <;> rw [hstep]
  · exact h.1
  · exact Locks.freeFor_take h.2.2

theorem Alone.insert {newLink : BankLink} {superseded : List Uuid}
    (h : Alone i links (.linking newLink [] superseded) c) :
    Alone i links (if Conflicts links newLink superseded then .idle else .linked newLink superseded)
      (Processes.act program (i, .insert) c) := by
  have hmay : c.shared.MayInsert i newLink superseded := ⟨fun k _ => h.2.2 k, fun _ _ => h.2.2 _⟩
  have hstep : program i .insert c.shared (.linking newLink [] superseded) =
      if Conflicts c.shared.links newLink superseded then (c.shared.release i, .idle)
      else ({ c.shared with locks := c.shared.locks.take i (keysOf newLink) },
        .linked newLink superseded) := by
    show (if ¬ c.shared.MayInsert i newLink superseded then _ else _) = _
    rw [if_neg (not_not_intro hmay)]
  refine h.act .insert ?_ ?_ ?_ <;> rw [hstep]
  · split_ifs <;> exact h.1
  · rw [← h.1]
    split_ifs <;> rfl
  · split_ifs
    · exact Locks.freeFor_release h.2.2
    · exact Locks.freeFor_take h.2.2

theorem Alone.commit {newLink : BankLink} {superseded : List Uuid}
    (h : Alone i links (.linked newLink superseded) c) :
    Alone i (relinked newLink superseded links) .idle (Processes.act program (i, .commit) c) :=
  h.act .commit (congrArg (relinked newLink superseded) h.1) rfl (Locks.freeFor_release h.2.2)

theorem Alone.commit_idle (h : Alone i links .idle c) :
    Alone i links .idle (Processes.act program (i, .commit) c) :=
  h.act .commit h.1 rfl h.2.2

theorem Alone.requireReauth {id : Uuid} (h : Alone i links (.expiring id) c) :
    Alone i (setStatus id .requiresReauth links) .idle
      (Processes.act program (i, .commit) (Processes.act program (i, .requireReauth) c)) := by
  have hstep : program i .requireReauth c.shared (.expiring id) =
      ({ c.shared with locks := c.shared.locks.take i [.row id] }, .expired id) := if_pos (h.2.2 _)
  have hexpired : Alone i links (.expired id) (Processes.act program (i, .requireReauth) c) := by
    refine h.act .requireReauth ?_ ?_ ?_ <;> rw [hstep]
    · exact h.1
    · exact Locks.freeFor_take h.2.2
  exact hexpired.act .commit (congrArg (setStatus id .requiresReauth) hexpired.1) rfl
    (Locks.freeFor_release hexpired.2.2)

end Statements

theorem alone_updates {newLink : BankLink} : ∀ {existing superseded : List Uuid}
    {c : Processes.Config ι (Bank ι) Phase}, Alone i links (.linking newLink existing superseded) c →
      Alone i links (.linking newLink [] (superseded ++ existing))
        (Processes.run program (List.replicate existing.length (i, .updateNext)) c)
  | [], _, _, h => by
    rw [List.append_nil]
    exact h
  | id :: existing, superseded, c, h => by
    rw [List.append_cons]
    exact alone_updates h.updateNext

omit [DecidableEq ι] in
theorem supersede_run : ∀ (existing : List BankLink) (db : Database),
    (Transaction.each (fun link : BankLink => Transaction.update fun db : Database =>
        { db with bankLinks := setStatus link.id .superseded db.bankLinks }) existing : Tx Unit).run db =
      .ok ((), { db with bankLinks := supersedeAll (existing.map (·.id)) db.bankLinks })
  | [], _ => rfl
  | link :: existing, db => supersede_run existing
      { db with bankLinks := setStatus link.id .superseded db.bankLinks }

omit [DecidableEq ι] in
theorem otherActive_supersedeAll {superseded : List Uuid} {customerId : Uuid} :
    otherActive links customerId superseded = [] ↔
      ∀ row ∈ supersedeAll superseded links, row.customerId = customerId → row.status ≠ .active := by
  constructor
  · intro hnone row hrow hcustomer hactive
    rcases mem_supersedeAll hrow with ⟨hold, hnot⟩ | ⟨hunusable, -⟩
    · have hmem : row ∈ otherActive links customerId superseded :=
        List.mem_filter.mpr ⟨hold, by simp [hcustomer, hactive, hnot]⟩
      rw [hnone] at hmem
      cases hmem
    · exact hunusable (Or.inl hactive)
  · intro hall
    refine List.eq_nil_iff_forall_not_mem.mpr fun link hlink => ?_
    obtain ⟨hmem, hother⟩ := List.mem_filter.mp hlink
    obtain ⟨hcustomer, hactive, hnot⟩ := of_decide_eq_true hother
    exact hall link (mem_supersedeAll_of_notMem hmem hnot) hcustomer hactive

omit [DecidableEq ι] in
/-- `create_link` as one unit: it raises when the insert conflicts, and leaves the links relinked
otherwise. -/
theorem atomically_createLink (db : Database) (newLink : BankLink) :
    (Transaction.atomically (createLink newLink) db).bankLinks =
      if Conflicts db.bankLinks newLink ((usableLinks db.bankLinks newLink.customerId).map (·.id)) then
        db.bankLinks
      else relinked newLink ((usableLinks db.bankLinks newLink.customerId).map (·.id)) db.bankLinks := by
  set superseded := (usableLinks db.bankLinks newLink.customerId).map (·.id) with hsuperseded
  have hrun : (createLink newLink).run db = (insertBankLink { newLink with status := .active }).run
      { db with bankLinks := supersedeAll superseded db.bankLinks } := by
    refine (Transaction.run_read_bind (s := db) rfl).trans ?_
    rw [StateT.run_bind, supersede_run]
    rfl
  have hcolumn : ∀ {β : Type} {column : BankLink → β} (value : β),
      (∀ (row : BankLink) (status : BankLinkStatus), column { row with status } = column row) →
      ((∀ row ∈ supersedeAll superseded db.bankLinks, column row ≠ value) ↔
        ∀ row ∈ db.bankLinks, column row ≠ value) := fun {β column} value hcolumn => by
    have hmap := map_supersedeAll hcolumn superseded db.bankLinks
    have hmem : ∀ links : List BankLink, (∀ row ∈ links, column row ≠ value) ↔
        value ∉ links.map column := fun links => by simp [List.mem_map]
    rw [hmem, hmem, hmap]
  have hinserts : ∀ u t, (createLink newLink).run db = .ok (u, t) ↔
      ¬ Conflicts db.bankLinks newLink superseded ∧
        { db with bankLinks := relinked newLink superseded db.bankLinks } = t := fun u t => by
    rw [hrun, insertBankLink, Transaction.write_ok]
    have hids := @hcolumn _ (·.id) newLink.id fun _ _ => rfl
    have hitems := @hcolumn _ (·.plaidItemId) newLink.plaidItemId fun _ _ => rfl
    simp only [Transaction.except_bind_ok, Transaction.check_ok, exists_const, hids, hitems,
      ← otherActive_supersedeAll, Conflicts]
    constructor
    · rintro ⟨hnewId, hnewItem, hnone, hok⟩
      refine ⟨?_, Except.ok.inj hok⟩
      rintro (⟨link, hlink, hid | hitem⟩ | hne)
      · exact hnewId link hlink hid
      · exact hnewItem link hlink hitem
      · exact hne hnone
    · rintro ⟨hfits, rfl⟩
      exact ⟨fun link hlink hid => hfits (Or.inl ⟨link, hlink, Or.inl hid⟩),
        fun link hlink hitem => hfits (Or.inl ⟨link, hlink, Or.inr hitem⟩),
        by_contra fun hne => hfits (Or.inr hne), rfl⟩
  split_ifs with hconflicts
  · rcases Transaction.atomically_cases (createLink newLink) db with ⟨u, t, hok, -⟩ | ⟨e, -, hsame⟩
    · exact absurd hconflicts ((hinserts u t).mp hok).1
    · rw [hsame]
  · rw [Transaction.atomically_of_ok ((hinserts () _).mpr ⟨hconflicts, rfl⟩)]

/-- **`create_link` on its own**: its statements, one after the other, do what it does as one
unit. -/
theorem createLink_alone (db : Database) (newLink : BankLink)
    {c : Processes.Config ι (Bank ι) Phase} (h : Alone i db.bankLinks .idle c) :
    Alone i (Transaction.atomically (createLink newLink) db).bankLinks .idle
      (Processes.run program ((i, .selectUsable newLink) ::
        (List.replicate (usableLinks db.bankLinks newLink.customerId).length (i, .updateNext) ++
          [(i, .insert), (i, .commit)])) c) := by
  set superseded := (usableLinks db.bankLinks newLink.customerId).map (·.id) with hsuperseded
  have hselected : Alone i db.bankLinks (.linking newLink superseded [])
      (Processes.act program (i, .selectUsable newLink) c) :=
    h.act (.selectUsable newLink) h.1 (by rw [hsuperseded, ← h.1]; rfl) h.2.2
  have hupdated := alone_updates hselected
  rw [List.nil_append, hsuperseded, List.length_map, ← hsuperseded] at hupdated
  have hinserted := hupdated.insert
  rw [atomically_createLink, ← hsuperseded]
  unfold Processes.run at hupdated hinserted ⊢
  rw [List.foldl_cons, List.foldl_append]
  split_ifs at hinserted ⊢
  · exact hinserted.commit_idle
  · exact hinserted.commit

/-- **`apply_item_login_required` on its own** does what it does as one unit. -/
theorem applyItemLoginRequired_alone (db : Database) (plaidItemId : String)
    {c : Processes.Config ι (Bank ι) Phase} (hids : (db.bankLinks.map (·.id)).Nodup)
    (h : Alone i db.bankLinks .idle c) :
    Alone i (Transaction.atomically (applyItemLoginRequired plaidItemId) db).bankLinks .idle
      (Processes.run program [(i, .selectItem plaidItemId), (i, .requireReauth), (i, .commit)] c) := by
  have hselect : ∀ phase, (program i (.selectItem plaidItemId) c.shared .idle) = (c.shared, phase) →
      Alone i db.bankLinks phase (Processes.act program (i, .selectItem plaidItemId) c) := by
    intro phase hstep
    refine h.act (.selectItem plaidItemId) ?_ ?_ ?_ <;> rw [hstep]
    · exact h.1
    · exact h.2.2
  have hstays : ∀ {c : Processes.Config ι (Bank ι) Phase}, Alone i db.bankLinks .idle c →
      Alone i db.bankLinks .idle
        (Processes.act program (i, .commit) (Processes.act program (i, .requireReauth) c)) :=
    fun hidle => Alone.commit_idle (hidle.act .requireReauth hidle.1 rfl hidle.2.2)
  show Alone i _ .idle (Processes.act program (i, .commit) (Processes.act program (i, .requireReauth)
    (Processes.act program (i, .selectItem plaidItemId) c)))
  by_cases hactive : ∃ link, db.bankLinks.filter (·.plaidItemId = plaidItemId) = [link] ∧
      link.status = .active
  · obtain ⟨link, hlinks, hstatus⟩ := hactive
    have hfound : getByPlaidItemId db plaidItemId = .ok (some link) :=
      scalarOneOrNone_eq_some.mpr hlinks
    have hrun : (applyItemLoginRequired plaidItemId).run db =
        (setBankLink { link with status := .requiresReauth }).run db := by
      refine (Transaction.run_read_bind (s := db) hfound).trans ?_
      show (Transaction.whenever (link.status = .active) _ : Tx Unit).run db = _
      rw [Transaction.whenever, if_pos hstatus]
    have hlink := (List.mem_filter.mp (hlinks ▸ List.mem_cons_self : link ∈ db.bankLinks.filter _)).1
    have hsame : db.bankLinks.map (fun row =>
        if row.id = link.id then { link with status := .requiresReauth } else row) =
          setStatus link.id .requiresReauth db.bankLinks := by
      refine List.map_congr_left fun row hrow => ?_
      split_ifs with hid
      · rw [List.inj_on_of_nodup_map hids hrow hlink hid]
      · rfl
    rw [Transaction.atomically_of_ok (hrun.trans ((Transaction.update_ok (a := ())).mpr rfl)), hsame]
    refine (hselect (.expiring link.id) ?_).requireReauth
    simp only [program, h.1, hlinks, hstatus, if_true]
  · have hidle : program i (.selectItem plaidItemId) c.shared .idle = (c.shared, .idle) := by
      simp only [program, h.1]
      split
      · rename_i link hlinks
        rw [if_neg fun hstatus => hactive ⟨link, hlinks, hstatus⟩]
      · rfl
    have hunchanged : (Transaction.atomically (applyItemLoginRequired plaidItemId) db).bankLinks =
        db.bankLinks := by
      rcases Transaction.atomically_cases (applyItemLoginRequired plaidItemId) db with
        ⟨u, t, hok, hsame⟩ | ⟨e, -, hsame⟩
      · obtain ⟨link, hlinks, hdb⟩ := applyItemLoginRequired_ok hok
        rw [hsame, hdb, if_neg fun hstatus => hactive ⟨link, hlinks, hstatus⟩]
      · rw [hsame]
    rw [hunchanged]
    exact hstays (hselect .idle hidle)

end Alone

/-- Process 0 links the first item of customer 1. -/
def linkFirst : List (ℕ × Action) :=
  [(0, .selectUsable ⟨1, 1, "first", .active⟩), (0, .insert), (0, .commit)]

/-- Process 0 links a second item. -/
def linkSecond : List (ℕ × Action) :=
  [(0, .selectUsable ⟨2, 1, "second", .active⟩), (0, .updateNext), (0, .insert), (0, .commit)]

/-- The login of the first item is required, and then the customer links a second one. -/
theorem one_usable_link_relinked :
    (usableLinks (Processes.run program (linkFirst ++ [(1, .selectItem "first"), (1, .requireReauth),
      (1, .commit)] ++ linkSecond) start).shared.links 1).length ≤ 1 :=
  (one_usable_link (linkFirst ++ [(1, .selectItem "first"), (1, .requireReauth), (1, .commit)] ++
    linkSecond) (by decide) 1).1

/-- **Two usable links.** The event for the first item reads its link before the customer links a
second item, and writes its status back afterwards: the customer has two usable links, and
`current_for_customer` raises. So does the customer who links two items at once, and whose first
link has come to require re-authentication before the second one is inserted. -/
theorem two_usable_links :
    (∀ db : Database, db.bankLinks = (Processes.run program (linkFirst ++ [(1, .selectItem "first")] ++
        linkSecond ++ [(1, .requireReauth), (1, .commit)]) start).shared.links →
      db.bankLinks = [⟨1, 1, "first", .requiresReauth⟩, ⟨2, 1, "second", .active⟩] ∧
        currentBankLink db 1 = .error .multipleResultsFound) ∧
    ∀ db : Database, db.bankLinks = (Processes.run program ([(2, .selectUsable
        ⟨2, 1, "second", .active⟩)] ++ linkFirst ++ [(1, .selectItem "first"), (1, .requireReauth),
        (1, .commit), (2, .insert), (2, .commit)]) start).shared.links →
      db.bankLinks = [⟨1, 1, "first", .requiresReauth⟩, ⟨2, 1, "second", .active⟩] ∧
        currentBankLink db 1 = .error .multipleResultsFound := by
  have hraises : ∀ db : Database,
      db.bankLinks = [⟨1, 1, "first", .requiresReauth⟩, ⟨2, 1, "second", .active⟩] →
        db.bankLinks = [⟨1, 1, "first", .requiresReauth⟩, ⟨2, 1, "second", .active⟩] ∧
          currentBankLink db 1 = .error .multipleResultsFound := fun db hdb =>
    ⟨hdb, by rw [currentBankLink, hdb]; rfl⟩
  exact ⟨fun db hdb => hraises db (hdb.trans (by decide)),
    fun db hdb => hraises db (hdb.trans (by decide))⟩

end Trueup.Identity.Relinking
