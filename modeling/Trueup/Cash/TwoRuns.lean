import Trueup.Cash.Mirrored

/-! # Two runs that differ by hidden entries

Two runs of the same operations, one with a deposit that later bounces and one without it, see the
same orders, the same cash and the same obligations but for the entry of the deposit and the entry
of its return (`Hides`).

* `Hides.deposited`, `Hides.returned`: the deposit and its return open and widen the difference.
* `body_hides`, `each_hides`: steps that succeed in both runs keep it. -/

namespace Trueup.Cash

open Trueup.Core Trueup.Models Trueup.Lib Trueup.Lib.Transaction Trueup.Ledger Trueup.Lots
open Trueup.Identity Trueup.Orders Trueup.System

/-! ### Hidden entries -/

theorem filter_settle {p : ObligationView → Bool} {id : Uuid} {status : SettlementObligationStatus}
    (hp : ∀ v, p (settleView id status v) = p v) (vs : List ObligationView) :
    (vs.map (settleView id status)).filter p = (vs.filter p).map (settleView id status) := by
  rw [List.filter_map]
  exact congrArg (List.map _) (List.filter_congr fun v _ => hp v)

/-- `db₁` is `db₂` with some hidden entries more, as far as the cash policy and the orders go. Of
the hidden entries it has the given cash rows and obligations. -/
structure Hides (hidden : List Uuid) (rows : List CashRow) (obligations : List ObligationView)
    (db₁ db₂ : Database) : Prop where
  orders : SameOrders db₁ db₂
  cash_shown : (cashRows db₁).filter (·.entryId ∉ hidden) = cashRows db₂
  cash_hidden : (cashRows db₁).filter (·.entryId ∈ hidden) = rows
  views_shown : (views db₁).filter (·.entryId ∉ hidden) = views db₂
  views_hidden : (views db₁).filter (·.entryId ∈ hidden) = obligations
  hidden_known : ∀ id ∈ hidden, db₁.journalEntries.Has id
  known₁ : ∀ v ∈ views db₁, db₁.journalEntries.Has v.entryId
  known₂ : ∀ v ∈ views db₂, db₂.journalEntries.Has v.entryId
  types : ∀ v ∈ views db₂, entryTypeOf db₁ v.entryId = entryTypeOf db₂ v.entryId

section Hides
variable {hidden : List Uuid} {rows : List CashRow} {obligations : List ObligationView}
  {db₁ db₂ db₁' db₂' : Database} (h : Hides hidden rows obligations db₁ db₂)
include h

theorem Hides.visible {v : ObligationView} (hv : v ∈ views db₂) :
    v ∈ views db₁ ∧ v.entryId ∉ hidden := by
  rw [← h.views_shown, List.mem_filter] at hv
  exact ⟨hv.1, by simpa using hv.2⟩

theorem Hides.same (horders : SameOrders db₁' db₂') (h₁ : SameCash db₁ db₁')
    (h₂ : SameCash db₂ db₂') : Hides hidden rows obligations db₁' db₂' := by
  refine ⟨horders, ?_, ?_, ?_, ?_, fun id hid => h₁.known id (h.hidden_known id hid),
    fun v hv => ?_, fun v hv => ?_, fun v hv => ?_⟩
  · rw [h₁.cash, h.cash_shown, h₂.cash]
  · rw [h₁.cash, h.cash_hidden]
  · rw [h₁.obligations, h.views_shown, h₂.obligations]
  · rw [h₁.obligations, h.views_hidden]
  · rw [h₁.obligations] at hv
    exact h₁.known _ (h.known₁ v hv)
  · rw [h₂.obligations] at hv
    exact h₂.known _ (h.known₂ v hv)
  · rw [h₂.obligations] at hv
    rw [h₁.types _ (h.known₁ v (h.visible hv).1), h₂.types _ (h.known₂ v hv), h.types v hv]

theorem Hides.posts {entryId : Uuid} {entryType : JournalEntryType} {new : List CashRow}
    {obligation : Option ObligationView} (h₁ : Posts db₁ db₁' entryId entryType new obligation)
    (h₂ : Posts db₂ db₂' entryId entryType new obligation) :
    Hides hidden rows obligations db₁' db₂' := by
  have hnot : entryId ∉ hidden := fun hid => h₁.fresh (h.hidden_known entryId hid)
  have hnew : ∀ row ∈ new, row.entryId ∉ hidden := fun row hrow => h₁.rows_entry row hrow ▸ hnot
  have hobl : ∀ v ∈ obligation.toList, v.entryId ∉ hidden := by
    intro v hv
    rw [h₁.obligation_entry v (Option.mem_toList.mp hv)]
    exact hnot
  refine ⟨h.orders.square h₁.orders h₂.orders, ?_, ?_, ?_, ?_,
    fun id hid => h₁.known id (h.hidden_known id hid), fun v hv => ?_, fun v hv => ?_,
    fun v hv => ?_⟩
  · rw [h₁.cash, List.filter_append, h.cash_shown, h₂.cash, List.filter_eq_self.mpr (by simpa using hnew)]
  · rw [h₁.cash, List.filter_append, h.cash_hidden,
      List.filter_eq_nil_iff.mpr (by simpa using hnew), List.append_nil]
  · rw [h₁.obligations, List.filter_append, h.views_shown, h₂.obligations,
      List.filter_eq_self.mpr (by simpa using hobl)]
  · rw [h₁.obligations, List.filter_append, h.views_hidden,
      List.filter_eq_nil_iff.mpr (by simpa using hobl), List.append_nil]
  · rw [h₁.obligations] at hv
    rcases List.mem_append.mp hv with hv | hv
    · exact h₁.known _ (h.known₁ v hv)
    · rw [h₁.obligation_entry v (Option.mem_toList.mp hv)]
      exact h₁.entry_known
  · rw [h₂.obligations] at hv
    rcases List.mem_append.mp hv with hv | hv
    · exact h₂.known _ (h.known₂ v hv)
    · rw [h₂.obligation_entry v (Option.mem_toList.mp hv)]
      exact h₂.entry_known
  · rw [h₂.obligations] at hv
    rcases List.mem_append.mp hv with hv | hv
    · rw [h₁.types _ (h.known₁ v (h.visible hv).1), h₂.types _ (h.known₂ v hv), h.types v hv]
    · rw [h₂.obligation_entry v (Option.mem_toList.mp hv), h₁.entry_type, h₂.entry_type]

theorem Hides.settles {v₁ v₂ : ObligationView} {status : SettlementObligationStatus}
    (h₁ : Settles db₁ db₁' v₁ status) (h₂ : Settles db₂ db₂' v₂ status) (hid : v₁.id = v₂.id) :
    v₁ = v₂ ∧ Hides hidden rows obligations db₁' db₂' := by
  obtain ⟨hmem, hvisible⟩ := h.visible h₂.mem
  obtain rfl := views_unique h₁.mem hmem hid
  -- no hidden obligation has the id of a visible one
  have hother : ∀ v ∈ obligations, settleView v₁.id status v = v := by
    intro v hv
    rw [← h.views_hidden, List.mem_filter] at hv
    refine if_neg fun heq => hvisible ?_
    rw [← views_unique hv.1 hmem heq]
    simpa using hv.2
  refine ⟨rfl, h.orders.square h₁.orders h₂.orders, ?_, ?_, ?_, ?_, fun id hid => ?_,
    fun v hv => ?_, fun v hv => ?_, fun v hv => ?_⟩
  · rw [h₁.cash, h.cash_shown, h₂.cash]
  · rw [h₁.cash, h.cash_hidden]
  · rw [h₁.obligations, filter_settle (fun w => by rw [settleView_entryId]), h.views_shown, h₂.obligations]
  · rw [h₁.obligations, filter_settle (fun w => by rw [settleView_entryId]), h.views_hidden,
      List.map_congr_left hother, List.map_id']
  · rw [h₁.entries]; exact h.hidden_known id hid
  · rw [h₁.obligations] at hv
    obtain ⟨w, hw, rfl⟩ := List.mem_map.mp hv
    rw [settleView_entryId, h₁.entries]
    exact h.known₁ w hw
  · rw [h₂.obligations] at hv
    obtain ⟨w, hw, rfl⟩ := List.mem_map.mp hv
    rw [settleView_entryId, h₂.entries]
    exact h.known₂ w hw
  · rw [h₂.obligations] at hv
    obtain ⟨w, hw, rfl⟩ := List.mem_map.mp hv
    rw [settleView_entryId, entryTypeOf, h₁.entries, entryTypeOf, h₂.entries]
    exact h.types w hw

end Hides

/-! ### The deposit and its return -/

section Bounce
variable {db db₁ db₂ mid db₁' : Database} {e k : Uuid} {t : JournalEntryType} {row : CashRow}
  {v : ObligationView}

/-- The deposit is the only difference to the run without it. -/
theorem Hides.deposited (hm : Mirrored db) (hp : Posts db db₁ e t [row] (some v)) :
    Hides [e] [row] [v] db₁ db := by
  have hrows : ∀ r ∈ cashRows db, r.entryId ≠ e := by
    intro r hr heq
    exact hp.fresh (heq ▸ hm.rows_known r hr)
  have hviews : ∀ w ∈ views db, w.entryId ≠ e := by
    intro w hw heq
    exact hp.fresh (heq ▸ hm.views_known w hw)
  have hrow := hp.rows_entry row (by simp)
  have hv := hp.obligation_entry v rfl
  refine ⟨hp.orders.symm, ?_, ?_, ?_, ?_, ?_, fun w hw => ?_, hm.views_known,
    fun w hw => hp.types _ (hm.views_known w hw)⟩
  · rw [hp.cash, List.filter_append, List.filter_eq_self.mpr (by simpa using hrows)]
    simp [hrow]
  · rw [hp.cash, List.filter_append, List.filter_eq_nil_iff.mpr (by simpa using hrows)]
    simp [hrow]
  · rw [hp.obligations, List.filter_append, List.filter_eq_self.mpr (by simpa using hviews)]
    simp [hv]
  · rw [hp.obligations, List.filter_append, List.filter_eq_nil_iff.mpr (by simpa using hviews)]
    simp [hv]
  · simpa using hp.entry_known
  · rw [hp.obligations] at hw
    rcases List.mem_append.mp hw with hw | hw
    · exact hp.known _ (hm.views_known w hw)
    · rw [hp.obligation_entry w (Option.mem_toList.mp hw)]
      exact hp.entry_known

/-- The return settles the hidden obligation and hides the entry of the correction too. -/
theorem Hides.returned (h : Hides [e] [row] [v] db₁ db₂) (hm : Mirrored db₁)
    (hs : Settles db₁ mid v .failed) {new : List CashRow} (hp : Posts mid db₁' k t new none) :
    Hides [e, k] (row :: new) [{ v with status := .failed }] db₁' db₂ := by
  have hfresh : ¬ db₁.journalEntries.Has k := by rw [← hs.entries]; exact hp.fresh
  have hne : k ≠ e := by
    rintro rfl
    exact hfresh (h.hidden_known k (by simp))
  have hrows : ∀ r ∈ cashRows db₁, r.entryId ≠ k := by
    intro r hr heq
    exact hfresh (heq ▸ hm.rows_known r hr)
  have hviews : ∀ w ∈ views db₁, w.entryId ≠ k := by
    intro w hw heq
    exact hfresh (heq ▸ h.known₁ w hw)
  have hv : v.entryId ∈ [e] := by
    have hmem : v ∈ (views db₁).filter (·.entryId ∈ [e]) := by rw [h.views_hidden]; simp
    simpa using (List.mem_filter.mp hmem).2
  -- no visible obligation has the id of the hidden one
  have hother : ∀ w ∈ views db₂, settleView v.id .failed w = w := by
    intro w hw
    obtain ⟨hmem, hvisible⟩ := h.visible hw
    refine if_neg fun heq => hvisible ?_
    rw [views_unique hmem hs.mem heq]
    exact hv
  have hviews' : views db₁' = (views db₁).map (settleView v.id .failed) := by
    rw [hp.obligations, hs.obligations, Option.toList_none, List.append_nil]
  have hknown : ∀ id, db₁.journalEntries.Has id → db₁'.journalEntries.Has id := by
    intro id hid
    exact hp.known id (by rw [hs.entries]; exact hid)
  refine ⟨(hs.orders.trans hp.orders).symm.trans h.orders, ?_, ?_, ?_, ?_, ?_, fun w hw => ?_,
    h.known₂, fun w hw => ?_⟩
  · have hgone : new.filter (·.entryId ∉ [e, k]) = [] :=
      List.filter_eq_nil_iff.mpr fun r hr => by simp [hp.rows_entry r hr]
    rw [hp.cash, hs.cash, List.filter_append, hgone, List.append_nil, ← h.cash_shown]
    refine List.filter_congr fun r hr => ?_
    simp [hrows r hr]
  · have hkept : new.filter (·.entryId ∈ [e, k]) = new :=
      List.filter_eq_self.mpr fun r hr => by simp [hp.rows_entry r hr]
    have hfilter : (cashRows db₁).filter (·.entryId ∈ [e, k]) = [row] := by
      rw [← h.cash_hidden]
      refine List.filter_congr fun r hr => ?_
      simp [hrows r hr]
    rw [hp.cash, hs.cash, List.filter_append, hkept, hfilter]
    rfl
  · rw [hviews', filter_settle (fun w => by rw [settleView_entryId]), ← List.map_id' (views db₂),
      ← List.map_congr_left hother, ← h.views_shown]
    refine congrArg (List.map _) (List.filter_congr fun w hw => ?_)
    simp [hviews w hw]
  · have hfilter : (views db₁).filter (·.entryId ∈ [e, k]) = [v] := by
      rw [← h.views_hidden]
      refine List.filter_congr fun w hw => ?_
      simp [hviews w hw]
    rw [hviews', filter_settle (fun w => by rw [settleView_entryId]), hfilter]
    simp [settleView]
  · intro id hid
    simp only [List.mem_cons, List.not_mem_nil, or_false] at hid
    rcases hid with rfl | rfl
    · exact hknown id (h.hidden_known id (by simp))
    · exact hp.entry_known
  · rw [hviews'] at hw
    obtain ⟨w', hw', rfl⟩ := List.mem_map.mp hw
    rw [settleView_entryId]
    exact hknown _ (h.known₁ w' hw')
  · have hmem := h.known₁ w (h.visible hw).1
    rw [hp.types _ (by rw [hs.entries]; exact hmem), entryTypeOf, hs.entries]
    exact h.types w hw

end Bounce

/-! ### The orders in the two runs -/

theorem applyNewEvent_sync (env : Env) (order : Order) (event : OrderEvent) :
    Sync SameOrders (applyNewEvent env order event) (applyNewEvent env order event) := by
  rintro db₁ db₂ state₁ db₁' state₂ db₂' ⟨horders, hcustomers⟩ h₁ h₂
  simp only [orderSide, Prod.mk.injEq] at horders
  obtain ⟨horder, hevent, hhold⟩ := horders
  obtain ⟨events₁, holds₁, hevents₁, -, hfold₁, hrel₁, rfl⟩ := applyNewEvent_ok h₁
  obtain ⟨events₂, holds₂, hevents₂, -, hfold₂, hrel₂, rfl⟩ := applyNewEvent_ok h₂
  rw [← hevent, hevents₂] at hevents₁
  obtain rfl := Option.some.inj hevents₁
  rw [hfold₂] at hfold₁
  obtain rfl := Except.ok.inj hfold₁
  rw [← hhold] at hrel₁
  obtain rfl := hrel₁.unique hrel₂
  exact ⟨rfl, by simp only [orderSide, horder], hcustomers⟩

theorem submitToBroker_sync (env : Env) (orderId : Uuid) (broker : Except Error String) :
    Sync SameOrders (submitToBroker env orderId broker) (submitToBroker env orderId broker) := by
  have hsynthesize : ∀ order eventType payload, Sync SameOrders
      (synthesizeEvent env order eventType payload) (synthesizeEvent env order eventType payload) :=
    fun order _ _ => sync_bind (applyNewEvent_sync env order _) fun _ => sync_pure _
  refine sync_bind (sync_read fun db₁ db₂ a b hsame h₁ h₂ => ?_) fun found => ?_
  · have horders : db₂.orders = db₁.orders := congrArg Prod.fst hsame.1
    rw [← horders, Except.ok.inj h₂] at h₁
    exact (Except.ok.inj h₁).symm
  · cases found with
    | none => exact sync_pure _
    | some order =>
      dsimp only
      unfold whenever
      split_ifs with happroved
      · refine sync_bind (sync_read fun db₁ db₂ a b hsame h₁ h₂ => ?_) fun reason => ?_
        · have hreason : ineligibility db₂ order.customerId =
              ineligibility db₁ order.customerId := by
            unfold ineligibility
            rw [hsame.2]
          rw [← hreason, Except.ok.inj h₂] at h₁
          exact (Except.ok.inj h₁).symm
        · cases reason with
          | some reason => exact hsynthesize order _ _
          | none => exact sync_bind (sync_lift broker) fun _ => hsynthesize order _ _
      · exact sync_pure _

theorem placeOrder_sync (env : Env) (request : OrderCreationRequest)
    (designatedLotIds : Option (List Uuid)) :
    Sync SameOrders (placeOrder env request designatedLotIds)
      (placeOrder env request designatedLotIds) := by
  rintro db₁ db₂ placed₁ db₁' placed₂ db₂' ⟨horders, hcustomers⟩ h₁ h₂
  simp only [orderSide, Prod.mk.injEq] at horders
  obtain ⟨horder, hevent, hhold⟩ := horders
  obtain ⟨created₁, mid₁, hcreate₁, rfl, rfl⟩ := placeOrder_ok h₁
  obtain ⟨created₂, mid₂, hcreate₂, rfl, rfl⟩ := placeOrder_ok h₂
  obtain ⟨amount₁, orders₁, holds₁, hamount₁, rfl, -, horders₁, hholds₁, rfl⟩ :=
    createOrder_ok hcreate₁
  obtain ⟨amount₂, orders₂, holds₂, hamount₂, rfl, -, horders₂, hholds₂, rfl⟩ :=
    createOrder_ok hcreate₂
  obtain rfl : amount₁ = amount₂ := QuantizedDecimal.ext (hamount₁.trans hamount₂.symm)
  rw [← horder, horders₂] at horders₁
  obtain rfl := Option.some.inj horders₁
  rw [← hhold, hholds₂] at hholds₁
  obtain rfl := Option.some.inj hholds₁
  exact ⟨rfl, by simp only [orderSide, hevent], hcustomers⟩

theorem approve_sync (orderId : Uuid) : Sync SameOrders (approve orderId) (approve orderId) := by
  rintro db₁ db₂ approved₁ db₁' approved₂ db₂' ⟨horders, hcustomers⟩ h₁ h₂
  simp only [orderSide, Prod.mk.injEq] at horders
  obtain ⟨horder, hevent, hhold⟩ := horders
  obtain ⟨before₁, hmem₁, hid₁, -, rfl, rfl⟩ := approve_ok h₁
  obtain ⟨before₂, hmem₂, hid₂, -, rfl, rfl⟩ := approve_ok h₂
  rw [← horder] at hmem₁
  obtain rfl := Table.eq_of_key_eq hmem₁ hmem₂ (hid₁.trans hid₂.symm)
  exact ⟨rfl, by simp only [orderSide, horder, hevent, hhold], hcustomers⟩

/-! ### Two runs -/

section Runs
variable {hidden : List Uuid} {rows : List CashRow} {obligations : List ObligationView}
  {db₁ db₂ db₁' db₂' : Database} (h : Hides hidden rows obligations db₁ db₂)
include h

/-- A step of the orders that leaves the ledger alone and does the same in both runs. -/
theorem Hides.sync {α : Type} {x : Tx α} {a b : α} (hsync : Sync SameOrders x x)
    (hsame : ∀ {db a db'}, x.run db = .ok (a, db') → SameCash db db')
    (h₁ : x.run db₁ = .ok (a, db₁')) (h₂ : x.run db₂ = .ok (b, db₂')) :
    a = b ∧ Hides hidden rows obligations db₁' db₂' := by
  obtain ⟨hab, horders⟩ := hsync db₁ db₂ a db₁' b db₂' h.orders h₁ h₂
  exact ⟨hab, h.same horders (hsame h₁) (hsame h₂)⟩

theorem handle_hides {env : Env} {fault : Option HandleStage} {message : TradeUpdate}
    {a b : Option OrderStatus} (h₁ : (handle env fault message).run db₁ = .ok (a, db₁'))
    (h₂ : (handle env fault message).run db₂ = .ok (b, db₂')) :
    Hides hidden rows obligations db₁' db₂' := by
  rcases handle_ok h₁ with ⟨hnone, rfl⟩ | ⟨eventType, order, state₁, htype₁, -, hfound₁, mid₁,
    happly₁, hlots₁⟩
  · rcases handle_ok h₂ with ⟨-, rfl⟩ | ⟨eventType, order, state, htype, -⟩
    · exact h
    · rw [hnone] at htype; cases htype
  rcases handle_ok h₂ with ⟨hnone, -⟩ | ⟨eventType', order', state₂, htype₂, -, hfound₂, mid₂,
    happly₂, hlots₂⟩
  · rw [hnone] at htype₁; cases htype₁
  obtain rfl := Option.some.inj (htype₁.symm.trans htype₂)
  -- the two runs find the same order
  obtain rfl : order = order' := by
    have horders : db₂.orders = db₁.orders := congrArg Prod.fst h.orders.1
    rw [findByClientOrderId, ← horders] at hfound₁
    exact Option.some.inj (hfound₁.symm.trans hfound₂)
  obtain ⟨rfl, hmid⟩ := h.sync (applyNewEvent_sync env order _)
    (fun hrun => applyNewEvent_sameCash hrun) happly₁ happly₂
  rcases hlots₁ with ⟨hne, rfl⟩ | ⟨hfill, x₁, q₁, p₁, hx₁, hq₁, hp₁, hlots₁⟩
  · rcases hlots₂ with ⟨-, rfl⟩ | ⟨hfill, -⟩
    · exact hmid
    · exact absurd hfill hne
  rcases hlots₂ with ⟨hne, -⟩ | ⟨-, x₂, q₂, p₂, hx₂, hq₂, hp₂, hlots₂⟩
  · exact absurd hfill hne
  obtain rfl := Option.some.inj (hx₁.symm.trans hx₂)
  obtain rfl := Except.ok.inj (hq₁.symm.trans hq₂)
  obtain rfl := Except.ok.inj (hp₁.symm.trans hp₂)
  exact hmid.posts (lotFilled_posts hlots₁) (lotFilled_posts hlots₂)

/-- **A step that succeeds in both runs** keeps the difference between them. -/
theorem body_hides {step : Step} {a b : Unit} (h₁ : (body step).run db₁ = .ok (a, db₁'))
    (h₂ : (body step).run db₂ = .ok (b, db₂')) : Hides hidden rows obligations db₁' db₂' := by
  obtain ⟨env, op⟩ := step
  cases op with
  | initiateDeposit customerId amount =>
    obtain ⟨r₁, h₁⟩ := discard_ok h₁
    obtain ⟨r₂, h₂⟩ := discard_ok h₂
    exact h.posts (initiateDeposit_posts h₁).2 (initiateDeposit_posts h₂).2
  | confirmSettlement obligationId =>
    obtain ⟨v₁, hid₁, hs₁⟩ := confirmSettlement_settles h₁
    obtain ⟨v₂, hid₂, hs₂⟩ := confirmSettlement_settles h₂
    exact (h.settles hs₁ hs₂ (hid₁.trans hid₂.symm)).2
  | applyAchReturn obligationId =>
    obtain ⟨v₁, mid₁, hid₁, hs₁, hp₁⟩ := applyAchReturn_settles h₁
    obtain ⟨v₂, mid₂, hid₂, hs₂, hp₂⟩ := applyAchReturn_settles h₂
    obtain ⟨rfl, hmid⟩ := h.settles hs₁ hs₂ (hid₁.trans hid₂.symm)
    exact hmid.posts hp₁ hp₂
  | initiateWithdrawal customerId amount =>
    obtain ⟨r₁, h₁⟩ := discard_ok h₁
    obtain ⟨r₂, h₂⟩ := discard_ok h₂
    exact h.posts (initiateWithdrawal_posts h₁) (initiateWithdrawal_posts h₂)
  | placeOrder request designatedLotIds =>
    obtain ⟨r₁, h₁⟩ := discard_ok h₁
    obtain ⟨r₂, h₂⟩ := discard_ok h₂
    exact (h.sync (placeOrder_sync env request designatedLotIds)
      (fun hrun => placeOrder_sameCash hrun) h₁ h₂).2
  | approve orderId =>
    obtain ⟨r₁, h₁⟩ := discard_ok h₁
    obtain ⟨r₂, h₂⟩ := discard_ok h₂
    exact (h.sync (approve_sync orderId) (fun hrun => approve_sameCash hrun) h₁ h₂).2
  | submitToBroker orderId broker =>
    exact (h.sync (submitToBroker_sync env orderId broker)
      (fun hrun => submitToBroker_sameCash hrun) h₁ h₂).2
  | tradeUpdate fault message =>
    obtain ⟨r₁, h₁⟩ := discard_ok h₁
    obtain ⟨r₂, h₂⟩ := discard_ok h₂
    exact handle_hides h h₁ h₂
  | applySplit securityId ratio effectiveDate =>
    obtain ⟨hcash₁, horders₁⟩ := applySplit_unseen h₁
    obtain ⟨hcash₂, horders₂⟩ := applySplit_unseen h₂
    exact h.same (h.orders.square horders₁ horders₂) hcash₁ hcash₂

theorem each_hides {steps : List Step} {a b : Unit} (h₁ : (each body steps).run db₁ = .ok (a, db₁'))
    (h₂ : (each body steps).run db₂ = .ok (b, db₂')) : Hides hidden rows obligations db₁' db₂' := by
  induction steps generalizing db₁ db₂ with
  | nil =>
    obtain ⟨-, rfl⟩ := pure_ok.mp h₁
    obtain ⟨-, rfl⟩ := pure_ok.mp h₂
    exact h
  | cons step steps ih =>
    obtain ⟨u₁, mid₁, hstep₁, h₁⟩ := bind_ok.mp h₁
    obtain ⟨u₂, mid₂, hstep₂, h₂⟩ := bind_ok.mp h₂
    exact ih (body_hides h hstep₁ hstep₂) h₁ h₂

end Runs

end Trueup.Cash
