import Trueup.Cash.LedgerView

/-! # Obligations mirror the cash

Every settlement obligation stands for the cash of one entry: the entry has one obligation, and its
only cash row is the obligation's amount, for the obligation's customer (`Mirrored`). Every step of
the system keeps this (`body_mirrored`), since each entry is written with a fresh id, and an
obligation together with its entry. -/

namespace Trueup.Cash

open Trueup.Core Trueup.Models Trueup.Lib Trueup.Lib.Transaction Trueup.Ledger Trueup.Lots
open Trueup.Identity Trueup.Orders Trueup.System

/-- Every cash row and every obligation has its entry, no two obligations have the same, and the
cash of an obligation's entry is the obligation's. -/
structure Mirrored (db : Database) : Prop where
  rows_known : ∀ row ∈ cashRows db, db.journalEntries.Has row.entryId
  views_known : ∀ v ∈ views db, db.journalEntries.Has v.entryId
  unique : ((views db).map (·.entryId)).Nodup
  mirror : ∀ v ∈ views db, (cashRows db).filter (·.entryId = v.entryId) = [v.cashRow]

/-- Every cash row and every obligation has its entry. -/
structure LedgerKnown (db : Database) : Prop where
  rows : ∀ row ∈ cashRows db, db.journalEntries.Has row.entryId
  obligations : ∀ v ∈ views db, db.journalEntries.Has v.entryId

theorem Mirrored.known {db : Database} (h : Mirrored db) : LedgerKnown db :=
  ⟨h.rows_known, h.views_known⟩

theorem LedgerKnown.same {db db' : Database} (h : LedgerKnown db) (hs : SameCash db db') :
    LedgerKnown db' := by
  refine ⟨fun row hrow => ?_, fun v hv => ?_⟩
  · rw [hs.cash] at hrow
    exact hs.known _ (h.rows row hrow)
  · rw [hs.obligations] at hv
    exact hs.known _ (h.obligations v hv)

theorem LedgerKnown.posts {db db' : Database} {entryId : Uuid} {entryType : JournalEntryType}
    {rows : List CashRow} {obligation : Option ObligationView} (h : LedgerKnown db)
    (hp : Posts db db' entryId entryType rows obligation) : LedgerKnown db' := by
  refine ⟨fun row hrow => ?_, fun v hv => ?_⟩
  · rw [hp.cash] at hrow
    rcases List.mem_append.mp hrow with hrow | hrow
    · exact hp.known _ (h.rows row hrow)
    · rw [hp.rows_entry row hrow]
      exact hp.entry_known
  · rw [hp.obligations] at hv
    rcases List.mem_append.mp hv with hv | hv
    · exact hp.known _ (h.obligations v hv)
    · rw [hp.obligation_entry v (Option.mem_toList.mp hv)]
      exact hp.entry_known

section Steps
variable {db db' : Database} (h : Mirrored db)
include h

theorem Mirrored.same (hs : SameCash db db') : Mirrored db' := by
  obtain ⟨hrows, hviews⟩ := h.known.same hs
  refine ⟨hrows, hviews, ?_, ?_⟩
  · rw [hs.obligations]; exact h.unique
  · rw [hs.obligations, hs.cash]; exact h.mirror

/-- A new entry, of which an obligation mirrors the cash. -/
theorem Mirrored.posts {entryId : Uuid} {entryType : JournalEntryType} {rows : List CashRow}
    {obligation : Option ObligationView} (hp : Posts db db' entryId entryType rows obligation)
    (hrows : ∀ v ∈ obligation, rows = [v.cashRow]) : Mirrored db' := by
  have hentry : ∀ v ∈ obligation.toList, v.entryId = entryId :=
    fun v hv => hp.obligation_entry v (Option.mem_toList.mp hv)
  obtain ⟨hknown, hviews⟩ := h.known.posts hp
  refine ⟨hknown, hviews, ?_, fun v hv => ?_⟩
  · rw [hp.obligations, List.map_append, List.nodup_append]
    refine ⟨h.unique, ?_, fun a ha b hb heq => ?_⟩
    · cases obligation <;> simp
    · obtain ⟨v, hv, rfl⟩ := List.mem_map.mp ha
      obtain ⟨w, hw, rfl⟩ := List.mem_map.mp hb
      rw [hentry w hw] at heq
      exact hp.fresh (heq ▸ h.views_known v hv)
  · rw [hp.obligations] at hv
    rw [hp.cash, List.filter_append]
    rcases List.mem_append.mp hv with hv | hv
    · have hnone : rows.filter (·.entryId = v.entryId) = [] := by
        refine List.filter_eq_nil_iff.mpr fun row hrow => ?_
        rw [decide_eq_true_eq, hp.rows_entry row hrow]
        rintro rfl
        exact hp.fresh (h.views_known v hv)
      rw [hnone, List.append_nil, h.mirror v hv]
    · have hnone : (cashRows db).filter (·.entryId = v.entryId) = [] := by
        refine List.filter_eq_nil_iff.mpr fun row hrow => ?_
        rw [decide_eq_true_eq, hentry v hv]
        rintro rfl
        exact hp.fresh (h.rows_known row hrow)
      rw [hnone, hrows v (Option.mem_toList.mp hv), List.nil_append]
      simp [ObligationView.cashRow]

theorem Mirrored.settles {v : ObligationView} {status : SettlementObligationStatus}
    (hs : Settles db db' v status) : Mirrored db' := by
  have hviews : ∀ w ∈ views db', ∃ w₀ ∈ views db, w.entryId = w₀.entryId ∧
      w.cashRow = w₀.cashRow := by
    intro w hw
    rw [hs.obligations] at hw
    obtain ⟨w₀, hw₀, rfl⟩ := List.mem_map.mp hw
    refine ⟨w₀, hw₀, ?_⟩
    unfold settleView
    split_ifs
    · exact ⟨rfl, rfl⟩
    · exact ⟨rfl, rfl⟩
  refine ⟨fun row hrow => ?_, fun w hw => ?_, ?_, fun w hw => ?_⟩
  · rw [hs.cash] at hrow
    rw [hs.entries]
    exact h.rows_known row hrow
  · obtain ⟨w₀, hw₀, heq, -⟩ := hviews w hw
    rw [hs.entries, heq]
    exact h.views_known w₀ hw₀
  · have hids : (fun w : ObligationView => w.entryId) ∘ settleView v.id status =
        fun w => w.entryId := by
      funext w
      exact settleView_entryId v.id status w
    rw [hs.obligations, List.map_map, hids]
    exact h.unique
  · obtain ⟨w₀, hw₀, heq, hrow⟩ := hviews w hw
    rw [hs.cash, heq, hrow]
    exact h.mirror w₀ hw₀

end Steps

theorem initiateDeposit_mirrored (env : Env) (customerId : Uuid) (amount : Money) :
    Keeps Mirrored (initiateDeposit env customerId amount) := by
  intro db r db' hdb h
  refine hdb.posts (initiateDeposit_posts h).2 fun v hv => ?_
  cases hv
  rfl

theorem handle_mirrored (env : Env) (fault : Option HandleStage) (message : TradeUpdate) :
    Keeps Mirrored (handle env fault message) := by
  intro db pushed db' hdb h
  rcases handle_ok h with ⟨-, rfl⟩ | ⟨eventType, order, state, -, -, -, mid, hevent, hlots⟩
  · exact hdb
  · have hmid := hdb.same (applyNewEvent_sameCash hevent)
    rcases hlots with ⟨-, rfl⟩ | ⟨-, x, q, p, -, -, -, hlots⟩
    · exact hmid
    · refine hmid.posts (lotFilled_posts hlots) fun v hv => ?_
      cases hv
      rfl

/-- **Every step of the system keeps the obligations mirrored.** -/
theorem body_mirrored (step : Step) : Keeps Mirrored (body step) := by
  obtain ⟨env, op⟩ := step
  cases op with
  | initiateDeposit customerId amount =>
    exact keeps_discard (initiateDeposit_mirrored env customerId amount)
  | confirmSettlement obligationId =>
    intro db u db' hdb h
    obtain ⟨v, -, hs⟩ := confirmSettlement_settles h
    exact hdb.settles hs
  | applyAchReturn obligationId =>
    intro db u db' hdb h
    obtain ⟨v, mid, -, hs, hp⟩ := applyAchReturn_settles h
    exact (hdb.settles hs).posts hp fun w hw => by cases hw
  | initiateWithdrawal customerId amount =>
    refine keeps_discard fun db r db' hdb h => ?_
    exact hdb.posts (initiateWithdrawal_posts h) fun w hw => by cases hw
  | placeOrder request designatedLotIds =>
    exact keeps_discard fun db r db' hdb h => hdb.same (placeOrder_sameCash h)
  | approve orderId =>
    exact keeps_discard fun db r db' hdb h => hdb.same (approve_sameCash h)
  | submitToBroker orderId broker =>
    exact fun db u db' hdb h => hdb.same (submitToBroker_sameCash h)
  | tradeUpdate fault message => exact keeps_discard (handle_mirrored env fault message)
  | applySplit securityId ratio effectiveDate =>
    exact fun db u db' hdb h => hdb.same (applySplit_unseen h).1

theorem mirrored_of_fresh {db : Database} (h : Fresh db) : Mirrored db := by
  have hrows : cashRows db = [] := by rw [cashRows, h.postings]; rfl
  have hviews : views db = [] := by rw [views, h.settlementObligations]; rfl
  refine ⟨fun row hrow => ?_, fun v hv => ?_, ?_, fun v hv => ?_⟩
  · rw [hrows] at hrow; cases hrow
  · rw [hviews] at hv; cases hv
  · rw [hviews]; exact List.nodup_nil
  · rw [hviews] at hv; cases hv

theorem mirrored_of_reachable {db : Database} (h : Reachable db) : Mirrored db :=
  reachable_of_keeps (fun _ => mirrored_of_fresh) body_mirrored h

end Trueup.Cash
