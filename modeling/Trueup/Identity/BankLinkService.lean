import Trueup.Identity.Eligibility

/-! # The bank link service

`services/identity/bank_link_service.py`, over `models/identity/bank_link.py`. A new link supersedes
the customer's usable ones and becomes the active one (`createLink`); the item of a link that has
to be re-authenticated turns an active link and leaves any other one as it is
(`applyItemLoginRequired_ok`, `applyItemLoginRequired_inactive`). -/

namespace Trueup.Identity

open Trueup.Core Trueup.Models Trueup.Lib Trueup.Lib.Transaction

/-- `get_by_plaid_item_id`. -/
def getByPlaidItemId (db : Database) (plaidItemId : String) : Except Error (Option BankLink) :=
  scalarOneOrNone (db.bankLinks.filter (·.plaidItemId = plaidItemId))

/-- The flush of a link. -/
def setBankLink (link : BankLink) : Tx Unit :=
  update fun db =>
    { db with bankLinks := db.bankLinks.map fun row => if row.id = link.id then link else row }

/-- `apply_item_login_required`. -/
def applyItemLoginRequired (plaidItemId : String) : Tx Unit := do
  let found ← read fun db => getByPlaidItemId db plaidItemId
  let link ← lift (ofOption found .bankLinkNotFound)
  whenever (link.status = .active) do
    setBankLink { link with status := .requiresReauth }

/-- The rows `supersede_and_activate` selects: the customer's active and requires-reauth links. -/
def usableLinks (links : List BankLink) (customerId : Uuid) : List BankLink :=
  links.filter fun link =>
    link.customerId = customerId ∧ (link.status = .active ∨ link.status = .requiresReauth)

/-- An `UPDATE` of the status of a link. -/
def setStatus (id : Uuid) (status : BankLinkStatus) (links : List BankLink) : List BankLink :=
  links.map fun row => if row.id = id then { row with status } else row

/-- The `INSERT` of a link, under its primary key, the unique item and the unique active link of a
customer. -/
def insertBankLink (link : BankLink) : Tx Unit :=
  write fun db => do
    check (∀ row ∈ db.bankLinks, row.id ≠ link.id) (.integrityError .primaryKey)
    check (∀ row ∈ db.bankLinks, row.plaidItemId ≠ link.plaidItemId)
      (.integrityError .bankLinkPlaidItemId)
    check (∀ row ∈ db.bankLinks, row.customerId = link.customerId → row.status ≠ .active)
      (.integrityError .bankLinkCustomerActive)
    return { db with bankLinks := db.bankLinks ++ [link] }

/-- `create_link`, with the link that the handle of the exchanged token makes; the flush sends the
updates of `supersede_and_activate` before its insert. -/
def createLink (newLink : BankLink) : Tx Unit := do
  let existing ← read fun db => .ok (usableLinks db.bankLinks newLink.customerId)
  each (fun link : BankLink => update fun db =>
    { db with bankLinks := setStatus link.id .superseded db.bankLinks }) existing
  insertBankLink { newLink with status := .active }

/-- **What `apply_item_login_required` did**: the link of the item, if it was active, requires
re-authentication. -/
theorem applyItemLoginRequired_ok {plaidItemId : String} {db db' : Database} {u : Unit}
    (h : (applyItemLoginRequired plaidItemId).run db = .ok (u, db')) :
    ∃ link, db.bankLinks.filter (·.plaidItemId = plaidItemId) = [link] ∧
      db' = if link.status = .active then
        { db with bankLinks := db.bankLinks.map fun row =>
            if row.id = link.id then { link with status := .requiresReauth } else row }
      else db := by
  simp only [applyItemLoginRequired, bind_ok, read_ok, lift_ok, ofOption_ok] at h
  obtain ⟨found, _, ⟨hfound, rfl⟩, link, _, ⟨rfl, rfl⟩, h⟩ := h
  refine ⟨link, scalarOneOrNone_eq_some.mp hfound, ?_⟩
  unfold whenever at h
  split_ifs at h with hactive
  · rw [if_pos hactive]
    exact update_ok.mp h
  · rw [if_neg hactive]
    exact (pure_ok.mp h).2.symm

theorem applyItemLoginRequired_inactive {plaidItemId : String} {db db' : Database} {u : Unit}
    (h : (applyItemLoginRequired plaidItemId).run db = .ok (u, db')) :
    ∀ link ∈ db'.bankLinks, link.plaidItemId = plaidItemId → link.status ≠ .active := by
  obtain ⟨found, hfound, rfl⟩ := applyItemLoginRequired_ok h
  have honly : ∀ row ∈ db.bankLinks, row.plaidItemId = plaidItemId → row = found := by
    intro row hrow hitem
    have hmem : row ∈ db.bankLinks.filter (·.plaidItemId = plaidItemId) := by simp [hrow, hitem]
    rw [hfound] at hmem
    exact List.mem_singleton.mp hmem
  intro link hlink hitem
  split_ifs at hlink with hactive
  · obtain ⟨row, hrow, rfl⟩ := List.mem_map.mp hlink
    split_ifs at hitem ⊢ with hid
    · exact fun h => by cases h
    · exact absurd (congrArg BankLink.id (honly row hrow hitem)) hid
  · rw [honly link hlink hitem]
    exact hactive

end Trueup.Identity
