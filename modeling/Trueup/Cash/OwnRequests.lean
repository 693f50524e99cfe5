import Trueup.Cash.Commitments

/-! # What a customer's own requests do to the cash

`own_request_creates_no_cash_iff`: a deposit, a withdrawal or an order of the customer leaves
`withdrawable` no higher exactly when the amount withdrawn, or the notional of the order, is not
negative.

The operations of `System` post no dividends and no fees, and reclassify nothing. What they add to the
ledger are entries; `LedgerKnown.own_request_iff` asks only that every cash row and every obligation
has its entry, which holds with them too. -/

namespace Trueup.Cash

open Trueup.Core Trueup.Models Trueup.Lib Trueup.Lib.Transaction Trueup.Ledger Trueup.Lots
open Trueup.Identity Trueup.Orders Trueup.System

/-- A request a customer makes for the own account. -/
inductive OwnRequest
  | deposit (customerId : Uuid) (amount : Money)
  | withdrawal (customerId : Uuid) (amount : Money)
  | order (request : OrderCreationRequest)

/-- The customer of the request. -/
def OwnRequest.customerId : OwnRequest → Uuid
  | .deposit customerId _ => customerId
  | .withdrawal customerId _ => customerId
  | .order request => request.customerId

/-- The unit of work of the request. -/
def OwnRequest.body (env : Env) : OwnRequest → Tx Unit
  | .deposit customerId amount => do
    let _ ← initiateDeposit env customerId amount
  | .withdrawal customerId amount => do
    let _ ← initiateWithdrawal env customerId amount
  | .order request => do
    let _ ← createOrder env request

/-- The request asks for no negative amount: of a withdrawal the amount, of an order the price times
the quantity, rounded to money. A deposit may have any. -/
def OwnRequest.IsNonneg : OwnRequest → Prop
  | .deposit _ _ => True
  | .withdrawal _ amount => 0 ≤ amount
  | .order request => 0 ≤ notional request.referencePrice request.quantity

instance : ∀ request : OwnRequest, Decidable request.IsNonneg
  | .deposit _ _ => isTrue trivial
  | .withdrawal _ amount => inferInstanceAs (Decidable (0 ≤ amount))
  | .order request =>
    inferInstanceAs (Decidable (0 ≤ notional request.referencePrice request.quantity))

/-- A request on any books whose cash rows and obligations have their entries. -/
theorem LedgerKnown.own_request_iff {db db' : Database} (hknown : LedgerKnown db) {env : Env}
    {request : OwnRequest} (hrun : (request.body env).run db = .ok ((), db')) {w w' : Money}
    (hw : withdrawable db request.customerId = .ok w)
    (hw' : withdrawable db' request.customerId = .ok w') : w' ≤ w ↔ request.IsNonneg := by
  rw [QuantizedDecimal.le_def, withdrawable_ok hw, withdrawable_ok hw']
  clear hw hw'
  cases request with
  | deposit customerId amount =>
    obtain ⟨r, hdep⟩ := discard_ok hrun
    obtain ⟨-, hposts⟩ := initiateDeposit_posts hdep
    -- the holds are untouched, and what settles of the deposit is not positive
    have hsettled := settledCash_postsPending customerId hknown rfl hposts
    have hholds := (claims_congr hposts.orders.1 customerId).1
    simp only [OwnRequest.IsNonneg, OwnRequest.customerId, iff_true, hsettled, hholds]
    rw [if_pos (show (depositView env customerId amount).customerId = some customerId from rfl)]
    have := min_le_left 0 (depositView env customerId amount).amount
    omega
  | withdrawal customerId amount =>
    obtain ⟨r, hwd⟩ := discard_ok hrun
    have hposts := initiateWithdrawal_posts hwd
    have hsettled := settledCash_posts customerId hknown hposts
    have hholds := (claims_congr hposts.orders.1 customerId).1
    simp only [OwnRequest.IsNonneg, OwnRequest.customerId, QuantizedDecimal.le_def,
      QuantizedDecimal.quanta_zero, hsettled, hholds, List.map_singleton, List.sum_singleton,
      customerShare, if_true]
    omega
  | order request =>
    obtain ⟨order, hcreate⟩ := discard_ok hrun
    obtain ⟨amount, orders, holds, hamount, rfl, -, -, hholds, rfl⟩ := createOrder_ok hcreate
    have hsettled : settledCashQuanta { db with orders := orders, approvalHolds := holds }
        request.customerId = settledCashQuanta db request.customerId := rfl
    simp only [OwnRequest.IsNonneg, OwnRequest.customerId, hsettled, holdQuanta,
      Table.total_insert hholds]
    simp only [holdShare, newHold, and_self, if_true, hamount]
    omega

/-- **Own requests and spendable cash.** In a reachable state, a deposit, a withdrawal or an order
that succeeds leaves the customer's `withdrawable` no higher exactly when it asks for no negative
amount. -/
theorem own_request_creates_no_cash_iff {db db' : Database} (hdb : Reachable db) {env : Env}
    {request : OwnRequest} (hrun : (request.body env).run db = .ok ((), db')) {w w' : Money}
    (hw : withdrawable db request.customerId = .ok w)
    (hw' : withdrawable db' request.customerId = .ok w') : w' ≤ w ↔ request.IsNonneg :=
  (mirrored_of_reachable hdb).known.own_request_iff hrun hw hw'

/-- A deposit of 1000, confirmed. -/
def fundedAccount : Database := run [
  ⟨envAt 1 1, .initiateDeposit 1 (dollars 1000)⟩, ⟨envAt 2 2, .confirmSettlement 1⟩]
  (openedAccount 1)

theorem reachable_fundedAccount : Reachable fundedAccount :=
  ⟨openedAccount 1, _, fresh_openedAccount 1, rfl⟩

/-- A withdrawal of 400 from it. -/
def plainWithdrawal : Tx Unit := (OwnRequest.withdrawal 1 (dollars 400)).body (envAt 3 3)

theorem own_request_creates_no_cash_plain_withdrawal :
    withdrawable fundedAccount 1 = .ok (dollars 1000) ∧
    withdrawable (atomically plainWithdrawal fundedAccount) 1 = .ok (dollars 600) ∧
    dollars 600 ≤ dollars 1000 := by
  have hw : withdrawable fundedAccount 1 = .ok (dollars 1000) := by decide +kernel
  have hw' : withdrawable (atomically plainWithdrawal fundedAccount) 1 = .ok (dollars 600) := by
    decide +kernel
  obtain ⟨u, hrun⟩ := run_of_isOk (x := plainWithdrawal) (s := fundedAccount) (by decide +kernel)
  refine ⟨hw, hw', ?_⟩
  exact (@own_request_creates_no_cash_iff _ _ reachable_fundedAccount _
    (.withdrawal 1 (dollars 400)) hrun _ _ hw hw').mpr (by decide)

/-- A withdrawal of minus 100, from an account that has nothing. -/
def negativeWithdrawal : Tx Unit := (OwnRequest.withdrawal 1 (dollars 100).neg).body (envAt 1 1)

/-- The withdrawal of minus 100 succeeds and leaves 100 to withdraw. -/
theorem negative_withdrawal_creates_cash :
    Reachable (openedAccount 1) ∧ (negativeWithdrawal.run (openedAccount 1)).isOk ∧
    withdrawable (openedAccount 1) 1 = .ok 0 ∧
    withdrawable (atomically negativeWithdrawal (openedAccount 1)) 1 = .ok (dollars 100) ∧
    ¬ dollars 100 ≤ 0 :=
  ⟨⟨openedAccount 1, [], fresh_openedAccount 1, rfl⟩, by decide +kernel, by decide +kernel,
    by decide +kernel, by decide⟩

end Trueup.Cash
