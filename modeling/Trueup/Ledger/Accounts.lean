import Trueup.Models.Database

/-! # Finding and opening accounts

`services/lots/_shared.py`: the account of a customer in a role, opened on first use, or required to
be there. `getOrCreateCustomerAccount_ok` and `requireCustomerAccount_ok` say whose account it
is. -/

namespace Trueup.Ledger

open Trueup.Core Trueup.Models Trueup.Lib Trueup.Lib.Transaction

/-- The account belongs to the customer, in the role; to the security, when one is given. -/
structure IsAccountOf (account : Account) (customerId : Uuid) (role : AccountRole)
    (securityId : Option Uuid) : Prop where
  customer : account.customerId = some customerId
  role : account.role = role
  security : securityId = none ∨ account.securityId = securityId

/-- `get_or_create_customer_account`. -/
def getOrCreateCustomerAccount (customerId : Uuid) (role : AccountRole)
    (securityId : Option Uuid) : Tx Account := do
  let found ← read fun db => scalarOneOrNone (db.accountsOf customerId role securityId)
  match found with
  | some account => return account
  | none =>
    -- `Account.create` refuses a position account without a security
    require (securityId ≠ none ∨ (role ≠ .positionUnits ∧ role ≠ .positionCost)) .valueError
    addAccount ⟨some customerId, role, securityId⟩
    return ⟨some customerId, role, securityId⟩

/-- `get_or_create_house_account`: an account of no customer. -/
def getOrCreateHouseAccount (role : AccountRole) : Tx Account := do
  let found ← read fun db => scalarOneOrNone (db.accounts.filter fun account =>
    account.customerId = none ∧ account.role = role)
  match found with
  | some account => return account
  | none =>
    require (role ≠ .positionUnits ∧ role ≠ .positionCost) .valueError
    addAccount ⟨none, role, none⟩
    return ⟨none, role, none⟩

/-- `require_customer_account`. -/
def requireCustomerAccount (customerId : Uuid) (role : AccountRole) : Tx Account :=
  read fun db => do
    ofOption (← scalarOneOrNone (db.accountsOf customerId role none)) (.accountMissing role)

theorem isAccountOf_of_mem {db : Database} {account : Account} {customerId : Uuid}
    {role : AccountRole} {securityId : Option Uuid}
    (h : account ∈ db.accountsOf customerId role securityId) :
    IsAccountOf account customerId role securityId := by
  simp only [Database.accountsOf, List.mem_filter, decide_eq_true_eq] at h
  exact ⟨h.2.1, h.2.2.1, h.2.2.2⟩

theorem getOrCreateCustomerAccount_ok {customerId : Uuid} {role : AccountRole}
    {securityId : Option Uuid} {db db' : Database} {account : Account}
    (h : (getOrCreateCustomerAccount customerId role securityId).run db = .ok (account, db')) :
    IsAccountOf account customerId role securityId ∧
      ∃ accounts, db' = { db with accounts } := by
  simp only [getOrCreateCustomerAccount, bind_ok, read_ok] at h
  obtain ⟨found, _, ⟨hfound, rfl⟩, h⟩ := h
  cases found with
  | some a =>
    obtain ⟨rfl, rfl⟩ := pure_ok.mp h
    exact ⟨isAccountOf_of_mem (mem_of_scalarOneOrNone hfound), db.accounts, rfl⟩
  | none =>
    simp only [bind_ok, require_ok, addAccount_ok, pure_ok] at h
    obtain ⟨_, _, ⟨-, rfl⟩, _, _, rfl, rfl, rfl⟩ := h
    exact ⟨⟨rfl, rfl, Or.inr rfl⟩, _, rfl⟩

theorem getOrCreateHouseAccount_ok {role : AccountRole} {db db' : Database} {account : Account}
    (h : (getOrCreateHouseAccount role).run db = .ok (account, db')) :
    account.customerId = none ∧ account.role = role ∧ ∃ accounts, db' = { db with accounts } := by
  simp only [getOrCreateHouseAccount, bind_ok, read_ok] at h
  obtain ⟨found, _, ⟨hfound, rfl⟩, h⟩ := h
  cases found with
  | some a =>
    obtain ⟨rfl, rfl⟩ := pure_ok.mp h
    have ha := mem_of_scalarOneOrNone hfound
    simp only [List.mem_filter, decide_eq_true_eq] at ha
    exact ⟨ha.2.1, ha.2.2, db.accounts, rfl⟩
  | none =>
    simp only [bind_ok, require_ok, addAccount_ok, pure_ok] at h
    obtain ⟨_, _, ⟨-, rfl⟩, _, _, rfl, rfl, rfl⟩ := h
    exact ⟨rfl, rfl, _, rfl⟩

theorem requireCustomerAccount_ok {customerId : Uuid} {role : AccountRole} {db db' : Database}
    {account : Account}
    (h : (requireCustomerAccount customerId role).run db = .ok (account, db')) :
    IsAccountOf account customerId role none ∧ db' = db := by
  simp only [requireCustomerAccount, read_ok, except_bind_ok, ofOption_ok] at h
  obtain ⟨⟨found, hfound, rfl⟩, rfl⟩ := h
  exact ⟨isAccountOf_of_mem (mem_of_scalarOneOrNone hfound), rfl⟩

end Trueup.Ledger
