import Trueup.Ledger.PostingService
import Trueup.Lib.Sums

/-! # The cash policy

`services/ledger/cash_policy_service.py` with its holds provider
`services/orders/holds_provider.py`. Nothing is stored: every figure is a sum over the postings, the
settlement obligations, the holds and the open orders.

Each figure that is returned is the integer sum it stands for, in quanta: `withdrawable_ok` and
`investable_ok`. -/

namespace Trueup.Ledger

open Trueup.Core Trueup.Models Trueup.Lib Trueup.Lib.Transaction

/-- `total += amount` over a list, from zero. -/
def sumMoney : List Money → Money → Except Error Money
  | [], total => .ok total
  | amount :: amounts, total => do sumMoney amounts (← total.add amount)

/-- A posting on a cash account of the customer. -/
def isCashOf (customerId : Uuid) (posting : Posting) : Bool :=
  posting.account.customerId = some customerId ∧ posting.account.role = .cash

/-- The filter of `settled_cash`: no settlement needed, already confirmed, or an outflow. -/
def isSettled (db : Database) (posting : Posting) : Bool :=
  (∀ o ∈ db.settlementObligations.rows, o.journalEntryId ≠ posting.journalEntryId) ∨
    (∃ o ∈ db.settlementObligations.rows,
      o.journalEntryId = posting.journalEntryId ∧ o.status = .confirmed) ∨
    posting.amount.moneyQuanta < 0

/-- The sum `settled_cash` reads, in quanta. -/
def settledCashQuanta (db : Database) (customerId : Uuid) : ℤ :=
  ((db.postings.filter fun p => isCashOf customerId p && isSettled db p).map
    (·.amount.moneyQuanta)).sum

/-- `settled_cash`. -/
def settledCash (db : Database) (customerId : Uuid) : Except Error Money :=
  QuantizedDecimal.ofSum (settledCashQuanta db customerId)

/-- A pending obligation of the customer whose entry is of the given type. -/
def isUnsettled (db : Database) (customerId : Uuid) (entryType : JournalEntryType)
    (obligation : SettlementObligation) : Bool :=
  obligation.account.customerId = some customerId ∧ obligation.status = .pending ∧
    (db.journalEntries.find obligation.journalEntryId).map (·.entryType) = some entryType

/-- The sum of `_unsettled_obligation_total`, in quanta. -/
def unsettledQuanta (db : Database) (customerId : Uuid) (entryType : JournalEntryType) : ℤ :=
  ((db.settlementObligations.rows.filter (isUnsettled db customerId entryType)).map
    (·.amountMoney.quanta)).sum

/-- `_unsettled_obligation_total`. -/
def unsettledObligationTotal (db : Database) (customerId : Uuid) (entryType : JournalEntryType) :
    Except Error Money :=
  QuantizedDecimal.ofSum (unsettledQuanta db customerId entryType)

/-- `unsettled_sale_proceeds`. -/
def unsettledSaleProceeds (db : Database) (customerId : Uuid) : Except Error Money :=
  unsettledObligationTotal db customerId .tradeSell

/-- `unsettled_deposit_proceeds`. -/
def unsettledDepositProceeds (db : Database) (customerId : Uuid) : Except Error Money :=
  unsettledObligationTotal db customerId .deposit

/-- The active holds of a customer. -/
def activeHolds (db : Database) (customerId : Uuid) : List ApprovalHold :=
  db.approvalHolds.rows.filter fun h => h.customerId = customerId ∧ h.status = .active

/-- `OrderHoldsProvider.holds`, that is `active_total_for_customer`. -/
def holds (db : Database) (customerId : Uuid) : Except Error Money :=
  sumMoney ((activeHolds db customerId).map (·.amountMoney)) 0

/-- `open_buy_orders`. -/
def openBuyOrders (db : Database) (customerId : Uuid) : List Order :=
  db.orders.rows.filter fun o => o.customerId = customerId ∧ o.side = .buy ∧ o.status.isOpen

/-- What one open buy order still commits: its remainder at the average fill price once there is
one, its hold's amount before. -/
def commitment (db : Database) (order : Order) : Except Error Money := do
  let remaining ← order.quantityRequested.sub order.filledQuantity
  match order.averageFillPrice with
  | some price => Price.times price remaining
  | none =>
    match db.approvalHolds.find order.id with
    | some hold => return hold.amountMoney
    | none => return 0

/-- The loop of `open_buy_commitments`. -/
def sumCommitments (db : Database) : List Order → Money → Except Error Money
  | [], total => .ok total
  | order :: orders, total => do
    let amount ← commitment db order
    sumCommitments db orders (← total.add amount)

/-- `OrderHoldsProvider.open_buy_commitments`. -/
def openBuyCommitments (db : Database) (customerId : Uuid) : Except Error Money :=
  sumCommitments db (openBuyOrders db customerId) 0

/-- `withdrawable`. -/
def withdrawable (db : Database) (customerId : Uuid) : Except Error Money := do
  let settled ← settledCash db customerId
  settled.sub (← holds db customerId)

/-- `investable`. -/
def investable (db : Database) (customerId : Uuid) : Except Error Money := do
  let settled ← settledCash db customerId
  let a ← settled.add (← unsettledSaleProceeds db customerId)
  let b ← a.add (← unsettledDepositProceeds db customerId)
  let c ← b.sub (← openBuyCommitments db customerId)
  c.sub (← holds db customerId)

/-! ### The figures as integer sums -/

theorem sumMoney_ok : ∀ {amounts : List Money} {total t : Money},
    sumMoney amounts total = .ok t → t.quanta = total.quanta + (amounts.map (·.quanta)).sum
  | [], total, t, h => by cases h; simp
  | a :: as, total, t, h => by
    rw [sumMoney, except_bind_ok] at h
    obtain ⟨total', ht, h⟩ := h
    rw [sumMoney_ok h, Money.add_ok.mp ht]
    simp [add_assoc]

/-- The share of a hold in its customer's holds. -/
def holdShare (customerId : Uuid) (hold : ApprovalHold) : ℤ :=
  if hold.customerId = customerId ∧ hold.status = .active then hold.amountMoney.quanta else 0

/-- The active holds of a customer, in quanta. -/
def holdQuanta (db : Database) (customerId : Uuid) : ℤ :=
  db.approvalHolds.total (holdShare customerId)

theorem holds_ok {db : Database} {customerId : Uuid} {m : Money}
    (h : holds db customerId = .ok m) : m.quanta = holdQuanta db customerId := by
  rw [sumMoney_ok h, activeHolds, List.map_map, sum_filter_map]
  simp only [Function.comp_apply, decide_eq_true_eq, QuantizedDecimal.quanta_zero, zero_add]
  rfl

/-- **`withdrawable` is settled cash less the active holds.** -/
theorem withdrawable_ok {db : Database} {customerId : Uuid} {w : Money}
    (h : withdrawable db customerId = .ok w) :
    w.quanta = settledCashQuanta db customerId - holdQuanta db customerId := by
  simp only [withdrawable, except_bind_ok] at h
  obtain ⟨settled, hs, held, hh, h⟩ := h
  rw [Money.sub_ok.mp h, Money.ofSum_ok.mp hs, holds_ok hh]

/-- **`investable`** adds the unsettled inflows and takes off the open commitments too. -/
theorem investable_ok {db : Database} {customerId : Uuid} {i : Money}
    (h : investable db customerId = .ok i) :
    ∃ commitments, openBuyCommitments db customerId = .ok commitments ∧
      i.quanta = settledCashQuanta db customerId + unsettledQuanta db customerId .tradeSell +
        unsettledQuanta db customerId .deposit - commitments.quanta -
        holdQuanta db customerId := by
  simp only [investable, except_bind_ok] at h
  obtain ⟨settled, hs, sale, hsale, a, ha, dep, hdep, b, hb, com, hcom, c, hc, held, hh, h⟩ := h
  refine ⟨com, hcom, ?_⟩
  rw [Money.sub_ok.mp h, Money.sub_ok.mp hc, Money.add_ok.mp hb, Money.add_ok.mp ha,
    Money.ofSum_ok.mp hs, Money.ofSum_ok.mp hsale, Money.ofSum_ok.mp hdep, holds_ok hh]

end Trueup.Ledger
