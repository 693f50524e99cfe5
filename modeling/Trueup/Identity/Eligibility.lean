import Trueup.Models.Database

/-! # Who may fund and trade

The eligibility check that `DepositService`, `WithdrawalService` and `OrderService` each carry, and
the bank-link check of the two funding services. -/

namespace Trueup.Identity

open Trueup.Core Trueup.Models Trueup.Lib Trueup.Lib.Transaction

/-- Why the customer is not eligible, if so. -/
def ineligibility (db : Database) (customerId : Uuid) : Option Ineligibility :=
  match db.customers.find customerId with
  | none => some .customerNotFound
  | some customer =>
    if customer.kycStatus ≠ .approved then some (.kycStatus customer.kycStatus)
    else if customer.accountApprovalStatus ≠ .approved then
      some (.accountApprovalStatus customer.accountApprovalStatus)
    else none

/-- Raise `error` with the reason unless the customer is eligible. -/
def requireEligible (error : Ineligibility → Error) (customerId : Uuid) : Tx Unit :=
  read fun db =>
    match ineligibility db customerId with
    | none => .ok ()
    | some reason => .error (error reason)

/-- `_check_funding_eligibility`, of deposits and of withdrawals. -/
def checkFundingEligibility : Uuid → Tx Unit := requireEligible .fundingNotEligible

/-- `_require_eligible_customer`, of orders. -/
def requireEligibleCustomer : Uuid → Tx Unit := requireEligible .customerNotEligible

/-- `current_for_customer`: the link that is not superseded. -/
def currentBankLink (db : Database) (customerId : Uuid) : Except Error (Option BankLink) :=
  scalarOneOrNone (db.bankLinks.filter fun link =>
    link.customerId = customerId ∧ (link.status = .active ∨ link.status = .requiresReauth))

/-- `_check_active_bank_link`. -/
def checkActiveBankLink (customerId : Uuid) : Tx BankLink :=
  read fun db => do
    let link ← ofOption (← currentBankLink db customerId) Error.noActiveBankLink
    check (link.status ≠ .requiresReauth) .bankReauthRequired
    return link

theorem requireEligible_ok {error : Ineligibility → Error} {customerId : Uuid}
    {db db' : Database} {u : Unit} :
    (requireEligible error customerId).run db = .ok (u, db') ↔
      ineligibility db customerId = none ∧ db = db' := by
  rw [requireEligible, read_ok]
  cases ineligibility db customerId with
  | none => simp
  | some reason => simp

end Trueup.Identity
