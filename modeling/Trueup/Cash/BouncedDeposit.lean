import Trueup.Cash.TwoRuns

/-! # A bounced deposit

`bounced_deposit_neutral_iff`: the figures of the run with a bounced deposit are those of the run
without it exactly when the amount is not positive. A positive deposit that bounces is taken off
twice: its own posting stays out of settled cash for good, and the correction counts in full. -/

namespace Trueup.Cash

open Trueup.Core Trueup.Models Trueup.Lib Trueup.Lib.Transaction Trueup.Ledger
open Trueup.Identity Trueup.Orders Trueup.System

/-! ### The figures -/

/-- What the cash policy answers for a customer. -/
structure Figures where
  settledCash : Money
  withdrawable : Money
  investable : Money
  deriving DecidableEq

/-- `settled_cash`, `withdrawable` and `investable` of a customer. -/
def figures (db : Database) (customerId : Uuid) : Except Error Figures := do
  let settled ← settledCash db customerId
  let available ← withdrawable db customerId
  return ⟨settled, available, ← investable db customerId⟩

theorem sumCommitments_congr {db db' : Database} (h : db'.approvalHolds = db.approvalHolds) :
    ∀ (orders : List Order) (total : Money),
      sumCommitments db' orders total = sumCommitments db orders total
  | [], _ => rfl
  | order :: orders, total => by
    simp only [sumCommitments, commitment, h, sumCommitments_congr h orders]

theorem openBuyCommitments_congr {db db' : Database} (h : SameOrders db db') (customerId : Uuid) :
    openBuyCommitments db' customerId = openBuyCommitments db customerId := by
  have horders : db'.orders = db.orders := congrArg Prod.fst h.1
  have hholds : db'.approvalHolds = db.approvalHolds := congrArg (fun t => t.2.2) h.1
  rw [openBuyCommitments, openBuyOrders, horders, sumCommitments_congr hholds]
  rfl

/-- **The figures in quanta** are the same in the two runs but for the settled cash. -/
theorem figures_eq_iff {db₁ db₂ : Database} (horders : SameOrders db₁ db₂) {customerId : Uuid}
    (hunsettled : ∀ entryType, unsettledQuanta db₁ customerId entryType =
      unsettledQuanta db₂ customerId entryType) {f₁ f₂ : Figures}
    (h₁ : figures db₁ customerId = .ok f₁) (h₂ : figures db₂ customerId = .ok f₂) :
    f₁ = f₂ ↔ settledCashQuanta db₁ customerId = settledCashQuanta db₂ customerId := by
  simp only [figures, except_bind_ok] at h₁ h₂
  obtain ⟨s₁, hs₁, w₁, hw₁, i₁, hi₁, h₁⟩ := h₁
  obtain ⟨s₂, hs₂, w₂, hw₂, i₂, hi₂, h₂⟩ := h₂
  cases h₁
  cases h₂
  have hs₁ := Money.ofSum_ok.mp hs₁
  have hs₂ := Money.ofSum_ok.mp hs₂
  constructor
  · intro heq
    have hsettled : s₁ = s₂ := congrArg Figures.settledCash heq
    rw [← hs₁, ← hs₂, hsettled]
  · intro heq
    have hholds : holdQuanta db₂ customerId = holdQuanta db₁ customerId := by
      rw [holdQuanta, show db₂.approvalHolds = db₁.approvalHolds from
        congrArg (fun t => t.2.2) horders.1, holdQuanta]
    have hw : w₁.quanta = w₂.quanta := by
      rw [withdrawable_ok hw₁, withdrawable_ok hw₂, heq, hholds]
    have hi : i₁.quanta = i₂.quanta := by
      obtain ⟨com₁, hcom₁, hi₁⟩ := investable_ok hi₁
      obtain ⟨com₂, hcom₂, hi₂⟩ := investable_ok hi₂
      rw [openBuyCommitments_congr horders, hcom₁] at hcom₂
      obtain rfl := Except.ok.inj hcom₂
      rw [hi₁, hi₂, heq, hholds, hunsettled, hunsettled]
    rw [QuantizedDecimal.ext (hs₁.trans (heq.trans hs₂.symm)), QuantizedDecimal.ext hw,
      QuantizedDecimal.ext hi]

section Figures
variable {hidden : List Uuid} {rows : List CashRow} {obligations : List ObligationView}
  {db₁ db₂ : Database} (h : Hides hidden rows obligations db₁ db₂) (customerId : Uuid)
include h

theorem Hides.settledCash : settledCashQuanta db₁ customerId = settledCashQuanta db₂ customerId +
    (rows.map (rowShare (views db₁) customerId)).sum := by
  have hshown : ∀ row ∈ cashRows db₂,
      rowShare (views db₁) customerId row = rowShare (views db₂) customerId row := by
    intro row hrow
    rw [← h.cash_shown, List.mem_filter] at hrow
    have hnot : row.entryId ∉ hidden := by simpa using hrow.2
    have hsettled : rowSettled (views db₁) row = rowSettled (views db₂) row := by
      have hmem : ∀ v : ObligationView, v.entryId = row.entryId →
          (v ∈ views db₂ ↔ v ∈ views db₁) := by
        intro v hv
        rw [← h.views_shown, List.mem_filter, hv]
        simp [hnot]
      rw [Bool.eq_iff_iff, rowSettled_iff, rowSettled_iff]
      refine or_congr ⟨fun hall v hv heq => hall v ((hmem v heq).mp hv) heq,
        fun hall v hv heq => hall v ((hmem v heq).mpr hv) heq⟩ (or_congr ?_ Iff.rfl)
      constructor
      · rintro ⟨v, hv, heq, hconf⟩; exact ⟨v, (hmem v heq).mpr hv, heq, hconf⟩
      · rintro ⟨v, hv, heq, hconf⟩; exact ⟨v, (hmem v heq).mp hv, heq, hconf⟩
    rw [rowShare, hsettled, rowShare]
  rw [settledCashQuanta_rows, settledCashQuanta_rows,
    ← sum_filter_add_filter_not (·.entryId ∈ hidden), h.cash_shown, h.cash_hidden,
    List.map_congr_left hshown]

theorem Hides.unsettled (entryType : JournalEntryType) :
    unsettledQuanta db₁ customerId entryType = unsettledQuanta db₂ customerId entryType +
      (obligations.map (pendingShare (entryTypeOf db₁) customerId entryType)).sum := by
  have hshown : ∀ v ∈ views db₂, pendingShare (entryTypeOf db₁) customerId entryType v =
      pendingShare (entryTypeOf db₂) customerId entryType v := by
    intro v hv
    simp only [pendingShare, h.types v hv]
  rw [unsettledQuanta_views, unsettledQuanta_views,
    ← sum_filter_add_filter_not (·.entryId ∈ hidden), h.views_shown, h.views_hidden,
    List.map_congr_left hshown]

end Figures

/-- What a bounced deposit and its return leave in the settled cash. -/
theorem Hides.bounced {db₁ db₂ : Database} {k customerId : Uuid} {v : ObligationView}
    (h : Hides [v.entryId, k] [v.cashRow, ⟨k, v.customerId, -v.amount⟩]
      [{ v with status := .failed }] db₁ db₂) (hv : v.customerId = some customerId)
    (hne : k ≠ v.entryId) (c : Uuid) : settledCashQuanta db₁ c = settledCashQuanta db₂ c -
      if customerId = c then max 0 v.amount else 0 := by
  have hviews : ∀ w ∈ views db₁, w.entryId ∈ [v.entryId, k] →
      w = { v with status := .failed } := by
    intro w hw hhidden
    have hmem : w ∈ (views db₁).filter (·.entryId ∈ [v.entryId, k]) :=
      List.mem_filter.mpr ⟨hw, by simpa using hhidden⟩
    rw [h.views_hidden] at hmem
    exact List.mem_singleton.mp hmem
  have hfailed : { v with status := .failed } ∈ views db₁ := by
    have hmem : { v with status := .failed } ∈
        (views db₁).filter (·.entryId ∈ [v.entryId, k]) := by
      rw [h.views_hidden]; simp
    exact List.mem_of_mem_filter hmem
  -- of the deposit only an outflow is settled
  have hdeposit : rowSettled (views db₁) v.cashRow = true ↔ v.amount < 0 := by
    rw [rowSettled_iff]
    constructor
    · rintro (hnone | ⟨w, hw, heq, hconf⟩ | hneg)
      · exact absurd rfl (hnone { v with status := .failed } hfailed)
      · rw [hviews w hw (by simp [heq])] at hconf
        cases hconf
      · exact hneg
    · exact fun hneg => Or.inr (Or.inr hneg)
  -- the correction has no obligation
  have hcorrection : rowSettled (views db₁) ⟨k, some customerId, -v.amount⟩ = true := by
    rw [rowSettled_iff]
    refine Or.inl fun w hw (heq : w.entryId = k) => hne ?_
    rw [← heq, hviews w hw (by simp [heq])]
  rw [h.settledCash]
  simp only [List.map_cons, List.map_nil, List.sum_cons, List.sum_nil, rowShare, hdeposit,
    hcorrection, ObligationView.cashRow_customerId, ObligationView.cashRow_amount, hv,
    Option.some.injEq, and_true]
  by_cases hc : customerId = c
  · simp only [hc, true_and, if_true]
    split_ifs <;> omega
  · simp [hc]

/-- **A bounced deposit is neutral if and only if it was not positive.** After the deposit, some
steps, its return and some more steps, the figures are those of the run without the deposit and the
return, all other steps succeeding in both, exactly when the amount is not positive or the figures
are another customer's. -/
theorem bounced_deposit_neutral_iff {db dep mid₁ mid₂ ret db₁ db₂ : Database} (hdb : Reachable db)
    {env env' : Env} {customerId : Uuid} {amount : Money} {deposit : DepositResult}
    {between after : List Step}
    (hdep : (initiateDeposit env customerId amount).run db = .ok (deposit, dep))
    (hbetween₁ : (each body between).run dep = .ok ((), mid₁))
    (hreturn : (applyAchReturn env' deposit.settlementObligationId).run mid₁ = .ok ((), ret))
    (hafter₁ : (each body after).run ret = .ok ((), db₁))
    (hbetween₂ : (each body between).run db = .ok ((), mid₂))
    (hafter₂ : (each body after).run mid₂ = .ok ((), db₂))
    {c : Uuid} {f₁ f₂ : Figures} (hf₁ : figures db₁ c = .ok f₁) (hf₂ : figures db₂ c = .ok f₂) :
    f₁ = f₂ ↔ (customerId = c → amount ≤ 0) := by
  have hm := mirrored_of_reachable hdb
  obtain ⟨hid, hposts⟩ := initiateDeposit_posts hdep
  have hmid := each_hides (Hides.deposited hm hposts) hbetween₁ hbetween₂
  have hm₁ : Mirrored mid₁ := keeps_each (I := Mirrored) (fun step _ => body_mirrored step) dep ()
    mid₁ (initiateDeposit_mirrored env customerId amount db deposit dep hm hdep) hbetween₁
  obtain ⟨v, failed, hvid, hsettles, hcorrection⟩ := applyAchReturn_settles hreturn
  -- the obligation that bounces is the one of the deposit
  obtain rfl : v = depositView env customerId amount := by
    refine views_unique hsettles.mem ?_ (hvid.trans hid)
    have hmem : depositView env customerId amount ∈
        (views mid₁).filter (·.entryId ∈ [env.uuid4 .journalEntry]) := by
      rw [hmid.views_hidden]; simp
    exact List.mem_of_mem_filter hmem
  have hne : env'.uuid4 .journalEntry ≠ env.uuid4 .journalEntry := by
    intro heq
    refine hcorrection.fresh ?_
    rw [hsettles.entries, heq]
    exact hmid.hidden_known _ (by simp)
  have hend := each_hides (hmid.returned hm₁ hsettles hcorrection) hafter₁ hafter₂
  rw [correctionRows, if_pos (show (depositView env customerId amount).role = .cash from rfl)] at hend
  have hsettled := Hides.bounced (v := depositView env customerId amount) hend rfl hne c
  rw [show (depositView env customerId amount).amount = amount.quanta from rfl] at hsettled
  have hunsettled : ∀ entryType, unsettledQuanta db₁ c entryType =
      unsettledQuanta db₂ c entryType := by
    intro entryType
    rw [hend.unsettled]
    simp [pendingShare]
  rw [figures_eq_iff hend.orders hunsettled hf₁ hf₂, hsettled, QuantizedDecimal.le_def,
    QuantizedDecimal.quanta_zero]
  split_ifs with hc
  · simp only [hc, forall_const]
    omega
  · simp [hc]

/-- A deposit of 500 and its confirmation. -/
def stepsBetween : List Step := [
  ⟨envAt 2 2, .initiateDeposit 1 (dollars 500)⟩, ⟨envAt 3 3, .confirmSettlement 2⟩]

/-- A withdrawal of 100. -/
def stepsAfter : List Step := [⟨envAt 5 5, .initiateWithdrawal 1 (dollars 100)⟩]

/-- The run with the deposit and its return. -/
def bouncedRun (amount : Money) : Tx Unit := do
  let deposit ← initiateDeposit (envAt 1 1) 1 amount
  each body stepsBetween
  applyAchReturn (envAt 4 4) deposit.settlementObligationId
  each body stepsAfter

/-- The run without them. -/
def plainRun : Tx Unit := do
  each body stepsBetween
  each body stepsAfter

theorem bounced_deposit_neutral_negative_amount :
    ∃ f₁ f₂, figures (atomically (bouncedRun (dollars 100).neg) (openedAccount 1)) 1 = .ok f₁ ∧
      figures (atomically plainRun (openedAccount 1)) 1 = .ok f₂ ∧ f₁ = f₂ := by
  have hf₁ : figures (atomically (bouncedRun (dollars 100).neg) (openedAccount 1)) 1 =
      .ok ⟨dollars 400, dollars 400, dollars 400⟩ := by decide +kernel
  have hf₂ : figures (atomically plainRun (openedAccount 1)) 1 =
      .ok ⟨dollars 400, dollars 400, dollars 400⟩ := by decide +kernel
  obtain ⟨u₁, h₁⟩ := run_of_isOk (x := bouncedRun (dollars 100).neg) (s := openedAccount 1)
    (by decide +kernel)
  obtain ⟨u₂, h₂⟩ := run_of_isOk (x := plainRun) (s := openedAccount 1) (by decide +kernel)
  obtain ⟨deposit, dep, hdep, hrest⟩ := bind_ok.mp h₁
  obtain ⟨_, mid₁, hbetween₁, hrest⟩ := bind_ok.mp hrest
  obtain ⟨_, ret, hreturn, hafter₁⟩ := bind_ok.mp hrest
  obtain ⟨_, mid₂, hbetween₂, hafter₂⟩ := bind_ok.mp h₂
  exact ⟨_, _, hf₁, hf₂, (bounced_deposit_neutral_iff
    ⟨openedAccount 1, [], fresh_openedAccount 1, rfl⟩ hdep hbetween₁ hreturn hafter₁ hbetween₂
    hafter₂ hf₁ hf₂).mpr fun _ => by decide⟩

/-- A deposit of 200 that bounces leaves settled cash, `withdrawable` and `investable` 200 lower
than they are without it. -/
theorem bounced_deposit_taken_off_twice :
    ((bouncedRun (dollars 200)).run (openedAccount 1)).isOk ∧
    (plainRun.run (openedAccount 1)).isOk ∧
    figures (atomically (bouncedRun (dollars 200)) (openedAccount 1)) 1 =
      .ok ⟨dollars 200, dollars 200, dollars 200⟩ ∧
    figures (atomically plainRun (openedAccount 1)) 1 =
      .ok ⟨dollars 400, dollars 400, dollars 400⟩ :=
  ⟨by decide +kernel, by decide +kernel, by decide +kernel, by decide +kernel⟩

end Trueup.Cash
