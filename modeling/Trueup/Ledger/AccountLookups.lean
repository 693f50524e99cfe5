import Trueup.Ledger.Accounts
import Trueup.Ledger.PostingService

/-! # When an account is found or opened

* `getOrCreateCustomerAccount_iff`, `getOrCreateHouseAccount_iff`: the account is the one there is, or
  a new one.
* `getOrCreateCustomerAccount_returns_iff`, `getOrCreateHouseAccount_returns_iff`: it takes that there
  are no two.
* `IsLedgerError`: what the lookups and the checks of an entry raise. -/

namespace Trueup.Ledger

open Trueup.Core Trueup.Models Trueup.Lib Trueup.Lib.Transaction

/-- The house accounts of a role. -/
def houseAccountsOf (db : Database) (role : AccountRole) : List Account :=
  db.accounts.filter fun account => account.customerId = none ∧ account.role = role

section Accounts
variable {db db' : Database} {account : Account} {customerId : Uuid} {role : AccountRole}
  {securityId : Option Uuid}

theorem scalarOneOrNone_eq_none {α : Type} {l : List α} : scalarOneOrNone l = .ok none ↔ l = [] := by
  match l with
  | [] => simp [scalarOneOrNone]
  | [a] => simp [scalarOneOrNone]
  | a :: b :: rest => simp [scalarOneOrNone]

theorem lookup_or_add_ok {f : Database → List Account} {c : Prop} [Decidable c] (hc : c)
    {new : Account} :
    (show Tx Account from do
      let found ← read fun db => scalarOneOrNone (f db)
      match found with
      | some account => return account
      | none =>
        require c .valueError
        addAccount new
        return new).run db = .ok (account, db') ↔
      (f db = [account] ∧ db' = db) ∨
      (f db = [] ∧ account = new ∧ db' = { db with accounts := db.accounts ++ [new] }) := by
  simp only [bind_ok, read_ok]
  constructor
  · rintro ⟨found, _, ⟨hfound, rfl⟩, h⟩
    cases found with
    | some a =>
      obtain ⟨rfl, rfl⟩ := pure_ok.mp h
      exact Or.inl ⟨scalarOneOrNone_eq_some.mp hfound, rfl⟩
    | none =>
      simp only [bind_ok, require_ok, addAccount_ok, pure_ok] at h
      obtain ⟨_, _, ⟨-, rfl⟩, _, _, rfl, rfl, rfl⟩ := h
      exact Or.inr ⟨scalarOneOrNone_eq_none.mp hfound, rfl, rfl⟩
  · rintro (⟨hone, rfl⟩ | ⟨hnone, rfl, rfl⟩)
    · exact ⟨some account, db', ⟨scalarOneOrNone_eq_some.mpr hone, rfl⟩, pure_ok.mpr ⟨rfl, rfl⟩⟩
    · refine ⟨none, db, ⟨scalarOneOrNone_eq_none.mpr hnone, rfl⟩, ?_⟩
      simp only [bind_ok, require_ok, addAccount_ok, pure_ok]
      exact ⟨(), db, ⟨hc, rfl⟩, (), _, rfl, trivial, rfl⟩

theorem getOrCreateCustomerAccount_iff
    (hrole : securityId ≠ none ∨ (role ≠ .positionUnits ∧ role ≠ .positionCost)) :
    (getOrCreateCustomerAccount customerId role securityId).run db = .ok (account, db') ↔
      (db.accountsOf customerId role securityId = [account] ∧ db' = db) ∨
      (db.accountsOf customerId role securityId = [] ∧ account = ⟨some customerId, role, securityId⟩ ∧
        db' = { db with accounts := db.accounts ++ [⟨some customerId, role, securityId⟩] }) :=
  lookup_or_add_ok (f := fun db => db.accountsOf customerId role securityId) hrole

theorem getOrCreateHouseAccount_iff (hrole : role ≠ .positionUnits ∧ role ≠ .positionCost) :
    (getOrCreateHouseAccount role).run db = .ok (account, db') ↔
      (houseAccountsOf db role = [account] ∧ db' = db) ∨
      (houseAccountsOf db role = [] ∧ account = ⟨none, role, none⟩ ∧
        db' = { db with accounts := db.accounts ++ [⟨none, role, none⟩] }) :=
  lookup_or_add_ok (f := fun db => houseAccountsOf db role) hrole

theorem getOrCreateCustomerAccount_returns_iff
    (hrole : securityId ≠ none ∨ (role ≠ .positionUnits ∧ role ≠ .positionCost)) :
    (∃ account db', (getOrCreateCustomerAccount customerId role securityId).run db =
      .ok (account, db')) ↔ (db.accountsOf customerId role securityId).length ≤ 1 := by
  simp only [getOrCreateCustomerAccount_iff hrole]
  rcases db.accountsOf customerId role securityId with _ | ⟨a, _ | ⟨b, rest⟩⟩ <;> simp

theorem getOrCreateHouseAccount_returns_iff
    (hrole : role ≠ .positionUnits ∧ role ≠ .positionCost) :
    (∃ account db', (getOrCreateHouseAccount role).run db = .ok (account, db')) ↔
      (houseAccountsOf db role).length ≤ 1 := by
  simp only [getOrCreateHouseAccount_iff hrole]
  rcases houseAccountsOf db role with _ | ⟨a, _ | ⟨b, rest⟩⟩ <;> simp

end Accounts

/-! ### What is raised -/

/-- What a lookup, or a check of an entry or of a leg, raises. -/
def IsLedgerError : Error → Prop
  | .multipleResultsFound | .valueError | .invalidOperation | .invalidPostingLeg => True
  | .unbalancedEntry _ | .dimensionMismatch => True
  | _ => False

theorem raises_getOrCreateCustomerAccount (customerId : Uuid) (role : AccountRole)
    (securityId : Option Uuid) :
    Raises IsLedgerError (getOrCreateCustomerAccount customerId role securityId) := by
  refine raises_bind (raises_read fun _ => fails_scalarOneOrNone (P := IsLedgerError) trivial _)
    fun found => ?_
  split
  · exact raises_pure _
  · exact raises_bind (raises_lift (fails_check trivial)) fun _ =>
      raises_bind (raises_update _) fun _ => raises_pure _

theorem raises_getOrCreateHouseAccount (role : AccountRole) :
    Raises IsLedgerError (getOrCreateHouseAccount role) := by
  refine raises_bind (raises_read fun _ => fails_scalarOneOrNone (P := IsLedgerError) trivial _)
    fun found => ?_
  split
  · exact raises_pure _
  · exact raises_bind (raises_lift (fails_check trivial)) fun _ =>
      raises_bind (raises_update _) fun _ => raises_pure _

theorem fails_sumLegs : ∀ (legs : List PostingLeg) (total : Money),
    Fails IsLedgerError (sumLegs legs total)
  | [], _ => fails_ok _
  | leg :: legs, total => by
    refine fails_bind (fails_check trivial) fun _ => ?_
    split
    · exact fails_bind (QuantizedDecimal.fails_ofDecimal (P := IsLedgerError) trivial trivial _)
        fun total' => fails_sumLegs legs total'
    · exact fails_sumLegs legs total

theorem fails_validateLegs (legs : List PostingLeg) : Fails IsLedgerError (validateLegs legs) :=
  fails_bind (fails_check trivial) fun _ =>
    fails_bind (fails_sumLegs _ _) fun _ => fails_check trivial

theorem raises_addLeg (entryId : Uuid) (leg : PostingLeg) :
    Raises IsLedgerError (addLeg entryId leg) :=
  raises_bind (raises_lift (fails_ofOption trivial)) fun _ =>
    raises_write fun _ => fails_bind (fails_check trivial) fun _ => fails_ok _

end Trueup.Ledger
