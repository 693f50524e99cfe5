import Trueup.Lots.SaleBalance
import Trueup.Valuation.BookValue

/-! # Who is entitled to a dividend

`declare_dividend_ex_date` dates the entitlement at the ex-date and sizes it by the lots that are
open when it is called.

* `totalRemaining_ok`: what it takes for the units held are the lots' remaining quantities.
* `declareDividendFor_ok`: one holder is credited for them, and nobody else.
* `credited_declareDividendExDate`: so is every holder.
* `dividend_as_of_ex_date_iff`: everybody gets the dividend of the units held before the ex-date
  exactly when the open lots are worth the same dividend. -/

namespace Trueup.Lots

open Trueup.Core Trueup.Models Trueup.Lib Trueup.Lib.Transaction Trueup.Ledger Trueup.Restatement
open Trueup.Valuation Trueup.Lib.Rounding

/-- The `dividend_receivable` balance. -/
def receivable (db : Database) (customerId : Uuid) : ℤ :=
  posted (IsOfRole .dividendReceivable customerId) Amount.moneyQuanta db.postings

/-- The units held before a day, by the ledger; a position that is short holds none. -/
def heldBefore (db : Database) (customerId securityId : Uuid) (day : Date) : ℤ :=
  max 0 (ledgerUnits db customerId (day - 1) securityId)

theorem sum_openForSecurity (db : Database) (customerId securityId : Uuid) :
    ((openForSecurity db customerId securityId).map (·.quantityRemaining.quanta)).sum =
      lotUnits db customerId securityId := by
  unfold openForSecurity lotUnits Table.total
  induction db.taxLots.rows with
  | nil => rfl
  | cons lot lots ih =>
    rw [List.map_cons, List.sum_cons, ← ih, List.filter_cons]
    have hnonneg := lot.remaining_nonneg
    by_cases hown : lot.customerId = customerId ∧ lot.securityId = securityId
    · by_cases hopen : 0 < lot.quantityRemaining
      · simp [hown, hopen, lotShare]
      · have hzero : lot.quantityRemaining.quanta = 0 := by
          have hle : ¬ 0 < lot.quantityRemaining.quanta := hopen
          omega
        simp [hown, hopen, lotShare, hzero]
    · have hskip : ¬ (lot.customerId = customerId ∧ lot.securityId = securityId ∧
          0 < lot.quantityRemaining) := fun h => hown ⟨h.1, h.2.1⟩
      simp [hskip, lotShare, hown]

theorem lotUnits_nonneg (db : Database) (customerId securityId : Uuid) :
    0 ≤ lotUnits db customerId securityId := by
  refine Table.total_nonneg fun lot _ => ?_
  unfold lotShare
  split_ifs
  · exact lot.remaining_nonneg
  · exact le_refl 0

/-- **The units the service goes by** are what remains of the lots. -/
theorem totalRemaining_ok {db : Database} {customerId securityId : Uuid} {quantityHeld : Units}
    (h : totalRemaining db customerId securityId = .ok quantityHeld) :
    quantityHeld.quanta = lotUnits db customerId securityId := by
  rw [sumUnits_ok h, List.map_map, ← sum_openForSecurity]
  simp only [QuantizedDecimal.quanta_zero, zero_add]
  rfl

/-- A customer without an open lot is not on the list. -/
theorem lotUnits_of_not_holding {db : Database} {customerId securityId : Uuid}
    (h : customerId ∉ listCustomersHolding db securityId) : lotUnits db customerId securityId = 0 := by
  rw [← sum_openForSecurity]
  have hnone : openForSecurity db customerId securityId = [] := by
    refine List.filter_eq_nil_iff.mpr fun lot hlot hopen => h ?_
    simp only [decide_eq_true_eq] at hopen
    unfold listCustomersHolding
    rw [List.mem_dedup, List.mem_map]
    exact ⟨lot, List.mem_filter.mpr ⟨hlot, by simpa using hopen.2⟩, hopen.1⟩
  rw [hnone]
  rfl

section Declare
variable {env : Env} {incomeAccount : Account} {securityId : Uuid} {perShareAmount : Price}
  {exDate : Date} {db db' : Database} {u : Unit}

/-- **The dividend of one holder**: a credit for the units of the lots. -/
theorem declareDividendFor_ok {customerId : Uuid} (hincome : incomeAccount.customerId = none)
    (h : (declareDividendFor env incomeAccount securityId perShareAmount exDate customerId).run db =
      .ok (u, db')) :
    db'.taxLots = db.taxLots ∧ ∀ c, receivable db' c = receivable db c +
      if c = customerId then proceedsOf perShareAmount (lotUnits db customerId securityId) else 0 := by
  simp only [declareDividendFor, bind_ok, read_ok, whenever] at h
  obtain ⟨quantityHeld, _, ⟨hheld, rfl⟩, h⟩ := h
  have hquanta := totalRemaining_ok hheld
  split_ifs at h with hpos
  · simp only [bind_ok, lift_ok] at h
    obtain ⟨amount, _, ⟨hamount, rfl⟩, account, _, haccount, entry, _, hpost, hrestate⟩ := h
    obtain ⟨hof, accounts, rfl⟩ := getOrCreateCustomerAccount_ok haccount
    obtain ⟨-, rfl, entries, -, rfl⟩ := post_ok hpost
    obtain ⟨returns, events, disclosures, rfl⟩ := restate_ok hrestate
    refine ⟨rfl, fun c => ?_⟩
    have hnot : ¬ IsOfRole .dividendReceivable c incomeAccount := fun hin => by
      rw [IsOfRole, hincome] at hin
      cases hin.1
    have hquantum : amount.quanta =
        proceedsOf perShareAmount (lotUnits db customerId securityId) := by
      rw [Price.times_ok.mp hamount, ← hquanta]
      rfl
    have hlegs : [PostingLeg.money account amount, .money incomeAccount amount.neg].filterMap
        (PostingLeg.posting (env.uuid4 (.dividendEntry customerId))) =
        [⟨env.uuid4 (.dividendEntry customerId), account, .money amount⟩,
          ⟨env.uuid4 (.dividendEntry customerId), incomeAccount, .money amount.neg⟩] := rfl
    show posted _ _ (db.postings ++ _) = _
    rw [hlegs, posted_append, posted_cons, posted_cons, posted_nil, if_neg hnot]
    simp only [isOfRole_iff hof, true_and, Amount.moneyQuanta, hquantum, add_zero, receivable,
      eq_comm (a := c)]
  · obtain ⟨-, rfl⟩ := pure_ok.mp h
    refine ⟨rfl, fun c => ?_⟩
    have hnonneg := lotUnits_nonneg db customerId securityId
    have hle : ¬ 0 < quantityHeld.quanta := hpos
    have hzero : lotUnits db customerId securityId = 0 := by omega
    rw [hzero]
    simp

/-- **The loop over the holders**: each is credited once. -/
theorem declareDividendEach_ok (hincome : incomeAccount.customerId = none) :
    ∀ {customers : List Uuid} {db db' : Database} {u : Unit}, customers.Nodup →
      (each (declareDividendFor env incomeAccount securityId perShareAmount exDate) customers).run
        db = .ok (u, db') → ∀ c, receivable db' c = receivable db c +
          if c ∈ customers then proceedsOf perShareAmount (lotUnits db c securityId) else 0
  | [], db, db', u, _, h, c => by
    obtain ⟨-, rfl⟩ := pure_ok.mp h
    simp
  | customerId :: customers, db, db', u, hnodup, h, c => by
    rw [List.nodup_cons] at hnodup
    obtain ⟨_, mid, hfirst, hrest⟩ := bind_ok.mp h
    obtain ⟨hlots, hcredit⟩ := declareDividendFor_ok hincome hfirst
    have hsame : lotUnits mid c securityId = lotUnits db c securityId := by
      unfold lotUnits
      rw [hlots]
    rw [declareDividendEach_ok hincome hnodup.2 hrest c, hcredit c, hsame, add_assoc]
    by_cases hc : c = customerId
    · subst hc
      simp [hnodup.1]
    · simp [hc]

/-- **What a dividend credits**: every customer for the units of his lots. -/
theorem credited_declareDividendExDate
    (h : (declareDividendExDate env securityId perShareAmount exDate).run db = .ok (u, db'))
    (c : Uuid) :
    receivable db' c = receivable db c + proceedsOf perShareAmount (lotUnits db c securityId) := by
  simp only [declareDividendExDate, bind_ok, read_ok] at h
  obtain ⟨incomeAccount, _, haccount, customers, _, ⟨hcustomers, rfl⟩, h⟩ := h
  obtain ⟨hincome, -, accounts, rfl⟩ := getOrCreateHouseAccount_ok haccount
  cases hcustomers
  rw [declareDividendEach_ok hincome (List.nodup_dedup _) h c]
  show receivable db c + (if c ∈ listCustomersHolding db securityId then _ else 0) = _
  split_ifs with hholds
  · rfl
  · rw [lotUnits_of_not_holding hholds, proceedsOf_zero]

/-- **Entitlement as of the ex-date**: every customer is credited for the units held before it
exactly when the lots that are open at the declaration are worth the same dividend. -/
theorem dividend_as_of_ex_date_iff
    (h : (declareDividendExDate env securityId perShareAmount exDate).run db = .ok (u, db')) :
    (∀ c, receivable db' c - receivable db c =
        proceedsOf perShareAmount (heldBefore db c securityId exDate)) ↔
      ∀ c, proceedsOf perShareAmount (lotUnits db c securityId) =
        proceedsOf perShareAmount (heldBefore db c securityId exDate) := by
  refine forall_congr' fun c => ?_
  rw [credited_declareDividendExDate h c, add_sub_cancel_left]

end Declare

/-- Ten shares are bought on a day. -/
def buyOn (day : ℕ) : List LotStep :=
  [⟨envAt (day * 86400000000) 1, .buyFill openedClock
    (fillAt (day * 86400000000) "a" (shares 10) (dollarsPerShare 100))⟩]

/-- The account of who has bought them. -/
def boughtOn (day : ℕ) : Database := runs lotBody (buyOn day) (openedAccount 1)

/-- A dividend of a dollar a share with ex-date 1, declared on day 2. -/
def lateDividend : Tx Unit :=
  declareDividendExDate (envAt (2 * 86400000000) 50) 7 (dollarsPerShare 1) 1

theorem ledgerUnits_of_no_posting {db : Database} {customerId : Uuid}
    (h : ∀ p ∈ db.postings, p.account.customerId ≠ some customerId) (day : Date) (securityId : Uuid) :
    ledgerUnits db customerId day securityId = 0 := by
  have hnone : (db.postings.filter fun p => isUnitsOf customerId p && isEffectiveBy db day p) = [] :=
    List.filter_eq_nil_iff.mpr fun p hp => by simp [isUnitsOf, h p hp]
  rw [ledgerUnits, hnone]
  rfl

/-- Bought on the day before the ex-date, declared the day after it. -/
theorem dividend_as_of_ex_date_iff_before : ∃ db',
    lateDividend.run (boughtOn 0) = .ok ((), db') ∧
      ∀ c, receivable db' c - receivable (boughtOn 0) c =
        proceedsOf (dollarsPerShare 1) (heldBefore (boughtOn 0) c 7 1) := by
  obtain ⟨u, hrun⟩ := run_of_isOk (x := lateDividend) (s := boughtOn 0) (by decide +kernel)
  refine ⟨_, hrun, (dividend_as_of_ex_date_iff hrun).mpr fun c => ?_⟩
  by_cases hc : c = 1
  · subst hc
    decide +kernel
  · have hholders : listCustomersHolding (boughtOn 0) 7 = [1] := by decide +kernel
    have hpostings : ∀ p ∈ (boughtOn 0).postings, p.account.customerId = some 1 := by decide +kernel
    rw [lotUnits_of_not_holding (by simpa [hholders] using hc), heldBefore,
      ledgerUnits_of_no_posting (fun p hp hof => hc ?_) _ _, max_self]
    rw [hpostings p hp] at hof
    exact (Option.some.inj hof).symm

/-- **A buy after the ex-date**: the shares of day 2 get the dividend of day 1. -/
theorem dividend_after_ex_date : ¬ ∀ (steps : List LotStep) (env : Env) (securityId : Uuid)
    (perShareAmount : Price) (exDate : Date) (db' : Database),
    exDate ≤ (env.now .effectiveDate).instant.utcDate →
    (declareDividendExDate env securityId perShareAmount exDate).run
      (runs lotBody steps (openedAccount 1)) = .ok ((), db') →
    ∀ c, receivable db' c - receivable (runs lotBody steps (openedAccount 1)) c =
      proceedsOf perShareAmount
        (heldBefore (runs lotBody steps (openedAccount 1)) c securityId exDate) := by
  intro h
  obtain ⟨u, hrun⟩ := run_of_isOk (x := lateDividend) (s := boughtOn 2) (by decide +kernel)
  have hclaim := h (buyOn 2) (envAt (2 * 86400000000) 50) 7 (dollarsPerShare 1) 1 _ (by decide)
    hrun 1
  exact absurd hclaim (by decide +kernel)

end Trueup.Lots
