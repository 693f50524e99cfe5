import Trueup.Cash.Mirrored

/-! # Cash, settled and not

The cash of a customer is the sum of the postings on the cash account; settled cash leaves out the
inflows whose obligation is not confirmed.

* `settledCash_posts`, `settledCash_postsPending`: an entry without an obligation settles at once,
  one with a pending obligation only as far as it is an outflow.
* `settled_add_unsettled_le`: settled cash and what is pending are no more than the cash there
  is. -/

namespace Trueup.Cash

open Trueup.Core Trueup.Models Trueup.Lib Trueup.Lib.Transaction Trueup.Ledger

/-! ### Cash -/

/-- The share of a posting in the cash of a customer. -/
def cashShare (customerId : Uuid) (p : Posting) : ℤ :=
  if isCashOf customerId p then p.amount.moneyQuanta else 0

/-- The sum of all postings on the cash account of a customer. -/
def cashQuanta (db : Database) (customerId : Uuid) : ℤ :=
  (db.postings.map (cashShare customerId)).sum

/-- The share of a cash row in the cash of a customer. -/
def customerShare (customerId : Uuid) (row : CashRow) : ℤ :=
  if row.customerId = some customerId then row.amount else 0

theorem cashQuanta_rows (db : Database) (customerId : Uuid) :
    cashQuanta db customerId = ((cashRows db).map (customerShare customerId)).sum := by
  rw [cashQuanta, cashRows, cashRowsOf, List.map_map, sum_filter_map]
  refine congrArg List.sum (List.map_congr_left fun p _ => ?_)
  by_cases hrole : p.account.role = .cash
  · simp [cashShare, isCashOf, customerShare, hrole, cashRowOf_eq p]
  · simp [cashShare, isCashOf, hrole]

theorem cash_same {db db' : Database} (h : SameCash db db') (customerId : Uuid) :
    cashQuanta db' customerId = cashQuanta db customerId := by
  rw [cashQuanta_rows, h.cash, ← cashQuanta_rows]

section Posted
variable {db db' : Database} {entryId : Uuid} {entryType : JournalEntryType} {rows : List CashRow}
  {obligation : Option ObligationView} (hp : Posts db db' entryId entryType rows obligation)
  (customerId : Uuid)
include hp

theorem cash_posts : cashQuanta db' customerId =
    cashQuanta db customerId + (rows.map (customerShare customerId)).sum := by
  rw [cashQuanta_rows, cashQuanta_rows, hp.cash, List.map_append, List.sum_append]

/-! ### Settled cash -/

variable (h : LedgerKnown db)
include h

/-- A new entry leaves the other rows as settled as they were. -/
theorem settledCash_addRows : settledCashQuanta db' customerId =
    settledCashQuanta db customerId + (rows.map (rowShare (views db') customerId)).sum := by
  have hold : ∀ row ∈ cashRows db,
      rowShare (views db') customerId row = rowShare (views db) customerId row := by
    intro row hrow
    have hne : row.entryId ≠ entryId := fun heq => hp.fresh (heq ▸ h.rows row hrow)
    have hother : ∀ v ∈ obligation.toList, v.entryId ≠ row.entryId := by
      intro v hv
      rw [hp.obligation_entry v (Option.mem_toList.mp hv)]
      exact hne.symm
    have hsettled : rowSettled (views db') row = rowSettled (views db) row := by
      rw [Bool.eq_iff_iff, rowSettled_iff, rowSettled_iff, hp.obligations]
      simp only [List.mem_append]
      refine or_congr ⟨fun hall v hv => hall v (Or.inl hv), fun hall v hv => ?_⟩
        (or_congr ⟨?_, ?_⟩ Iff.rfl)
      · exact hv.elim (hall v) (hother v)
      · rintro ⟨v, hv, heq, hconf⟩
        exact ⟨v, hv.resolve_right fun hnew => hother v hnew heq, heq, hconf⟩
      · rintro ⟨v, hv, heq, hconf⟩
        exact ⟨v, Or.inl hv, heq, hconf⟩
    rw [rowShare, hsettled, rowShare]
  rw [settledCashQuanta_rows, settledCashQuanta_rows, hp.cash, List.map_append, List.sum_append,
    List.map_congr_left hold]

theorem unsettled_posts (k : JournalEntryType) : unsettledQuanta db' customerId k =
    unsettledQuanta db customerId k +
      (obligation.toList.map (pendingShare (entryTypeOf db') customerId k)).sum := by
  have hold : ∀ v ∈ views db, pendingShare (entryTypeOf db') customerId k v =
      pendingShare (entryTypeOf db) customerId k v := by
    intro v hv
    simp only [pendingShare, hp.types v.entryId (h.obligations v hv)]
  rw [unsettledQuanta_views, unsettledQuanta_views, hp.obligations, List.map_append,
    List.sum_append, List.map_congr_left hold]

end Posted

section Settling
variable {db db' : Database} {entryId : Uuid} {entryType : JournalEntryType} {rows : List CashRow}
  (customerId : Uuid) (h : LedgerKnown db)
include h

theorem settledCash_posts (hp : Posts db db' entryId entryType rows none) :
    settledCashQuanta db' customerId =
      settledCashQuanta db customerId + (rows.map (customerShare customerId)).sum := by
  have hnew : ∀ row ∈ rows,
      rowShare (views db') customerId row = customerShare customerId row := by
    intro row hrow
    have hsettled : rowSettled (views db') row = true := by
      rw [rowSettled_iff, hp.obligations, Option.toList_none, List.append_nil,
        hp.rows_entry row hrow]
      exact Or.inl fun v hv heq => hp.fresh (heq ▸ h.obligations v hv)
    simp [rowShare, hsettled, customerShare]
  rw [settledCash_addRows hp customerId h, List.map_congr_left hnew]

theorem settledCash_postsPending {v : ObligationView} (hpending : v.status = .pending)
    (hp : Posts db db' entryId entryType [v.cashRow] (some v)) :
    settledCashQuanta db' customerId = settledCashQuanta db customerId +
      if v.customerId = some customerId then min 0 v.amount else 0 := by
  have hviews : views db' = views db ++ [v] := hp.obligations
  have hsettled : rowSettled (views db') v.cashRow = true ↔ v.amount < 0 := by
    rw [rowSettled_iff, hviews]
    constructor
    · rintro (hnone | ⟨w, hw, heq, hconf⟩ | hneg)
      · exact absurd rfl (hnone v (by simp))
      · rcases List.mem_append.mp hw with hw | hw
        · have hentry : w.entryId = entryId := heq.trans (hp.obligation_entry v rfl)
          exact absurd (hentry ▸ h.obligations w hw) hp.fresh
        · rw [List.mem_singleton.mp hw, hpending] at hconf
          cases hconf
      · exact hneg
    · exact fun hneg => Or.inr (Or.inr hneg)
  rw [settledCash_addRows hp customerId h, List.map_singleton, List.sum_singleton]
  simp only [rowShare, hsettled, ObligationView.cashRow_customerId, ObligationView.cashRow_amount]
  by_cases hc : v.customerId = some customerId
  · by_cases hneg : v.amount < 0
    · rw [if_pos ⟨hc, hneg⟩, if_pos hc, min_eq_right hneg.le]
    · rw [if_neg fun hboth => hneg hboth.2, if_pos hc, min_eq_left (not_lt.mp hneg)]
  · rw [if_neg fun hboth => hc hboth.1, if_neg hc]

end Settling

/-! ### What is pending -/

/-- The share of a cash row in its customer's cash that is not settled. -/
def openShare (vs : List ObligationView) (customerId : Uuid) (row : CashRow) : ℤ :=
  if row.customerId = some customerId ∧ ¬ rowSettled vs row then row.amount else 0

theorem openShare_nonneg (vs : List ObligationView) (customerId : Uuid) (row : CashRow) :
    0 ≤ openShare vs customerId row := by
  unfold openShare
  split_ifs with h
  · by_contra hneg
    exact h.2 (rowSettled_iff.mpr (Or.inr (Or.inr (not_le.mp hneg))))
  · exact le_rfl

theorem sum_openShare_nonneg (vs : List ObligationView) (customerId : Uuid) (rows : List CashRow) :
    0 ≤ (rows.map (openShare vs customerId)).sum := by
  refine List.sum_nonneg fun x hx => ?_
  obtain ⟨row, -, rfl⟩ := List.mem_map.mp hx
  exact openShare_nonneg vs customerId row

theorem cash_eq_settled_add_open (db : Database) (customerId : Uuid) :
    cashQuanta db customerId = settledCashQuanta db customerId +
      ((cashRows db).map (openShare (views db) customerId)).sum := by
  rw [settledCashQuanta_rows, ← List.sum_map_add, cashQuanta_rows]
  refine congrArg List.sum (List.map_congr_left fun row _ => ?_)
  by_cases hc : row.customerId = some customerId
  · by_cases hsettled : rowSettled (views db) row
    · simp [customerShare, rowShare, openShare, hc, hsettled]
    · simp [customerShare, rowShare, openShare, hc, hsettled]
  · simp [customerShare, rowShare, openShare, hc]

/-- The cash row of a pending obligation is settled only as an outflow. -/
theorem rowSettled_of_pending {db : Database} (h : Mirrored db) {v : ObligationView} (hv : v ∈ views db)
    (hpending : v.status = .pending) : rowSettled (views db) v.cashRow = true ↔ v.amount < 0 := by
  rw [rowSettled_iff]
  constructor
  · rintro (hnone | ⟨w, hw, heq, hconf⟩ | hneg)
    · exact absurd rfl (hnone v hv)
    · obtain rfl := List.inj_on_of_nodup_map h.unique hw hv heq
      rw [hpending] at hconf
      cases hconf
    · exact hneg
  · exact fun hneg => Or.inr (Or.inr hneg)

/-- What a pending obligation promises is open cash of its entry. -/
theorem pending_le_open {db : Database} (h : Mirrored db) {v : ObligationView} (hv : v ∈ views db)
    (hpending : v.status = .pending) {customerId : Uuid} (hc : v.customerId = some customerId) :
    v.amount ≤ ((cashRows db).map fun row =>
      if row.entryId = v.entryId then openShare (views db) customerId row else 0).sum := by
  have hgroup := sum_filter_map (fun row : CashRow => decide (row.entryId = v.entryId))
    (openShare (views db) customerId) (cashRows db)
  simp only [decide_eq_true_eq] at hgroup
  rw [← hgroup, h.mirror v hv, List.map_singleton, List.sum_singleton]
  simp only [openShare, rowSettled_of_pending h hv hpending, ObligationView.cashRow_customerId,
    ObligationView.cashRow_amount, hc, true_and, not_lt]
  split_ifs <;> omega

/-- **Settled and pending cash** of two kinds are no more than the cash there is. -/
theorem settled_add_unsettled_le {db : Database} (h : Mirrored db) (customerId : Uuid)
    {k k' : JournalEntryType} (hk : k ≠ k') :
    settledCashQuanta db customerId + unsettledQuanta db customerId k +
      unsettledQuanta db customerId k' ≤ cashQuanta db customerId := by
  have hgroups := sum_groups_le (·.entryId) (f := openShare (views db) customerId)
    (l := cashRows db) (fun row _ => openShare_nonneg _ customerId row) h.unique
  rw [List.map_map] at hgroups
  have hpending : unsettledQuanta db customerId k + unsettledQuanta db customerId k' ≤
      ((cashRows db).map (openShare (views db) customerId)).sum := by
    refine le_trans ?_ hgroups
    rw [unsettledQuanta_views, unsettledQuanta_views, ← List.sum_map_add]
    refine List.sum_le_sum fun v hv => ?_
    have hzero : 0 ≤ ((cashRows db).map fun row =>
        if row.entryId = v.entryId then openShare (views db) customerId row else 0).sum := by
      refine List.sum_nonneg fun x hx => ?_
      obtain ⟨row, -, rfl⟩ := List.mem_map.mp hx
      split_ifs
      · exact openShare_nonneg _ customerId row
      · exact le_rfl
    simp only [Function.comp_apply, pendingShare]
    split_ifs with h1 h2 h2
    · exact absurd (Option.some.inj (h1.2.2.symm.trans h2.2.2)) hk
    · simpa using pending_le_open h hv h1.2.1 h1.1
    · simpa using pending_le_open h hv h2.2.1 h2.1
    · simpa using hzero
  have := cash_eq_settled_add_open db customerId
  omega

theorem settledCash_le (db : Database) (customerId : Uuid) :
    settledCashQuanta db customerId ≤ cashQuanta db customerId := by
  have := sum_openShare_nonneg (views db) customerId (cashRows db)
  rw [cash_eq_settled_add_open]
  omega

end Trueup.Cash
