import Trueup.Identity.DepositService
import Trueup.Models.OpenedAccount

/-! # The cap of a day

`check_deposit_caps` compares the signed sum of the day's deposits with the cap, and nothing on the
way to `initiate` asks for a positive amount.

* `initiateDeposit_caps`: what an accepted deposit was compared with.
* `depositPostings_initiateDeposit`: which deposits there are after it.
* `daily_cap_holds`: over every run that accepts no negative amount, the positive deposits of a day
  stay within the cap. -/

namespace Trueup.Identity

open Trueup.Core Trueup.Models Trueup.Lib Trueup.Lib.Transaction Trueup.Ledger

/-- The postings that `deposited_on` adds up. -/
def depositPostings (db : Database) (customerId : Uuid) (effectiveDate : Date) : List Posting :=
  db.postings.filter fun p => isCashOf customerId p &&
    decide (∃ entry ∈ db.journalEntries.find p.journalEntryId,
      entry.entryType = .deposit ∧ entry.effectiveDate = effectiveDate)

theorem depositedOn_eq (db : Database) (customerId : Uuid) (effectiveDate : Date) :
    depositedOn db customerId effectiveDate = QuantizedDecimal.ofSum
      ((depositPostings db customerId effectiveDate).map (·.amount.moneyQuanta)).sum := rfl

/-- The sum of the positive deposits of a day. -/
def positiveDeposits (db : Database) (customerId : Uuid) (effectiveDate : Date) : ℤ :=
  ((depositPostings db customerId effectiveDate).map fun p => max 0 p.amount.moneyQuanta).sum

/-- A call of `initiate`, or anything that leaves the deposits alone, such as the return of one. -/
inductive DepositStep
  | initiate (env : Env) (customerId : Uuid) (amount : Money)
  | other (change : Database → Database)
      (known : ∀ db, PostingsKnown db → PostingsKnown (change db))
      (deposits : ∀ db customerId effectiveDate, PostingsKnown db →
        depositPostings (change db) customerId effectiveDate =
          depositPostings db customerId effectiveDate)

/-- What it does, under the settings of the application. -/
def DepositStep.perform (capPerTransaction capPerDay : Money) : DepositStep → Tx Unit
  | .initiate env customerId amount => do
    let _ ← initiateDeposit { env with
      depositCapPerTransaction := capPerTransaction, depositCapPerDay := capPerDay } customerId amount
  | .other change _ _ => update change

/-- The amount of a call is not negative. -/
def DepositStep.nonneg : DepositStep → Prop
  | .initiate _ _ amount => 0 ≤ amount.quanta
  | .other _ _ _ => True

section Initiate
variable {env : Env} {customerId : Uuid} {amount : Money} {db db' : Database} {r : DepositResult}

/-- **What an accepted deposit was compared with**: the signed sum of the day. -/
theorem initiateDeposit_caps (h : (initiateDeposit env customerId amount).run db = .ok (r, db')) :
    ((depositPostings db customerId (env.now .effectiveDate).instant.utcDate).map
      (·.amount.moneyQuanta)).sum + amount.quanta ≤ env.depositCapPerDay.quanta := by
  simp only [initiateDeposit, checkFundingEligibility, checkActiveBankLink, bind_ok, read_ok,
    lift_ok, requireEligible_ok, addSettlementObligation_ok, pure_ok] at h
  obtain ⟨_, _, ⟨-, rfl⟩, _, _, ⟨-, rfl⟩, deposited, _, ⟨hdeposited, rfl⟩, _, _, ⟨hcaps, rfl⟩, -⟩ := h
  rw [depositedOn_eq, Money.ofSum_ok] at hdeposited
  simp only [checkDepositCaps, except_bind_ok, check_ok] at hcaps
  obtain ⟨-, -, total, htotal, hcap⟩ := hcaps
  have hquanta := Money.add_ok.mp htotal
  have hle : total.quanta ≤ env.depositCapPerDay.quanta := hcap
  omega

/-- **The deposits after an accepted one.** -/
theorem depositPostings_initiateDeposit (hknown : PostingsKnown db)
    (h : (initiateDeposit env customerId amount).run db = .ok (r, db')) :
    PostingsKnown db' ∧ ∃ p : Posting, p.amount.moneyQuanta = amount.quanta ∧
      ∀ c day, depositPostings db' c day = depositPostings db c day ++
        if c = customerId ∧ day = (env.now .effectiveDate).instant.utcDate then [p] else [] := by
  obtain ⟨entry, cash, equity, entries, obligations, hentry, hcash, hequity, hinsert, -, rfl, -, -⟩ :=
    initiateDeposit_ok h
  refine ⟨fun p hp => ?_, ⟨entry.id, cash, .money amount⟩, rfl, fun c day => ?_⟩
  · rw [Table.has_insert hinsert]
    rcases List.mem_append.mp hp with hp | hp
    · exact Or.inl (hknown p hp)
    · rcases List.mem_pair.mp hp with rfl | rfl <;> exact Or.inr rfl
  · have hfind : entries.find entry.id = some entry := by
      rw [Table.find_insert hinsert, if_pos rfl]
    unfold depositPostings
    rw [List.filter_append]
    congr 1
    · refine List.filter_congr fun p hp => ?_
      rw [Table.find_insert_of_has hinsert (hknown p hp)]
    · have hout : isCashOf c ⟨entry.id, equity, .money amount.neg⟩ = false := by
        simp [isCashOf, hequity.role]
      have hin : isCashOf c ⟨entry.id, cash, .money amount⟩ = decide (c = customerId) := by
        simp [isCashOf, hcash.role, hcash.customer, eq_comm]
      rw [List.filter_cons, List.filter_cons, hout, hin, hfind]
      by_cases hc : c = customerId <;>
        by_cases hday : day = (env.now .effectiveDate).instant.utcDate <;>
        simp [hc, hday, hentry, eq_comm]

end Initiate

/-! ### The runs -/

/-- There are no deposits yet. -/
structure NoDeposits (db : Database) : Prop where
  known : PostingsKnown db
  none : ∀ customerId effectiveDate, depositPostings db customerId effectiveDate = []

/-- The deposits of every day are within the cap, and none is negative. -/
structure WithinCap (capPerDay : Money) (db : Database) : Prop where
  known : PostingsKnown db
  nonneg : ∀ customerId effectiveDate, ∀ p ∈ depositPostings db customerId effectiveDate,
    0 ≤ p.amount.moneyQuanta
  sum : ∀ customerId effectiveDate,
    ((depositPostings db customerId effectiveDate).map (·.amount.moneyQuanta)).sum ≤ capPerDay.quanta

section Runs
variable {capPerTransaction capPerDay : Money} {db db' : Database}

theorem NoDeposits.withinCap (h : NoDeposits db) (hcap : 0 ≤ capPerDay.quanta) :
    WithinCap capPerDay db :=
  ⟨h.known, fun c day p hp => absurd (h.none c day ▸ hp) List.not_mem_nil,
    fun c day => by rw [h.none]; exact hcap⟩

theorem WithinCap.positiveDeposits (h : WithinCap capPerDay db) (customerId : Uuid)
    (effectiveDate : Date) :
    positiveDeposits db customerId effectiveDate ≤ capPerDay.quanta := by
  have hsame : (depositPostings db customerId effectiveDate).map (fun p => max 0 p.amount.moneyQuanta) =
      (depositPostings db customerId effectiveDate).map (·.amount.moneyQuanta) :=
    List.map_congr_left fun p hp => max_eq_right (h.nonneg customerId effectiveDate p hp)
  rw [Identity.positiveDeposits, hsame]
  exact h.sum customerId effectiveDate

/-- **One accepted deposit** that is not negative. -/
theorem WithinCap.perform (h : WithinCap capPerDay db) {step : DepositStep} {u : Unit}
    (hnonneg : step.nonneg)
    (hrun : (step.perform capPerTransaction capPerDay).run db = .ok (u, db')) :
    WithinCap capPerDay db' := by
  cases step with
  | initiate env customerId amount =>
    obtain ⟨r, _, hinitiate, hpure⟩ := bind_ok.mp hrun
    obtain ⟨-, rfl⟩ := pure_ok.mp hpure
    have hcap := initiateDeposit_caps hinitiate
    obtain ⟨hknown, p, hp, hdeposits⟩ := depositPostings_initiateDeposit h.known hinitiate
    refine ⟨hknown, fun c day q hq => ?_, fun c day => ?_⟩
    · rw [hdeposits c day] at hq
      rcases List.mem_append.mp hq with hq | hq
      · exact h.nonneg c day q hq
      · split_ifs at hq
        · obtain rfl := List.mem_singleton.mp hq
          rw [hp]
          exact hnonneg
        · cases hq
    · rw [hdeposits c day]
      split_ifs with hday
      · obtain ⟨rfl, rfl⟩ := hday
        rw [List.map_append, List.sum_append, List.map_singleton, List.sum_singleton, hp]
        exact hcap
      · rw [List.append_nil]
        exact h.sum c day
  | other change known deposits =>
    rw [update_ok.mp hrun]
    refine ⟨known db h.known, fun c day => ?_, fun c day => ?_⟩
    · rw [deposits db c day h.known]
      exact h.nonneg c day
    · rw [deposits db c day h.known]
      exact h.sum c day

/-- **The cap of a day holds** over every run that accepts no negative amount. -/
theorem daily_cap_holds (hstart : NoDeposits db) (hcap : 0 ≤ capPerDay.quanta)
    (steps : List DepositStep)
    (hsteps : RunMeets (DepositStep.perform capPerTransaction capPerDay)
      (fun db step => ((step.perform capPerTransaction capPerDay).run db).isOk → step.nonneg) steps db)
    (customerId : Uuid) (effectiveDate : Date) :
    positiveDeposits (runs (DepositStep.perform capPerTransaction capPerDay) steps db) customerId
      effectiveDate ≤ capPerDay.quanta := by
  suffices hend : WithinCap capPerDay
      (runs (DepositStep.perform capPerTransaction capPerDay) steps db) from
    hend.positiveDeposits customerId effectiveDate
  refine runs_keeps_of_meets (fun db step u db' hdb hmeets hrun => ?_) steps (hstart.withinCap hcap)
    hsteps
  exact hdb.perform (hmeets (by rw [hrun]; rfl)) hrun

end Runs

/-- A deposit of customer 1 on the first day. -/
def depositOf (id : Uuid) (amount : Money) : DepositStep := .initiate (envAt 0 id) 1 amount

theorem noDeposits_openedAccount : NoDeposits (openedAccount 1) :=
  ⟨fun _ hp => absurd hp List.not_mem_nil, fun _ _ => rfl⟩

/-- Two deposits of a day reach the cap, and the third is rejected. -/
theorem daily_cap_holds_reached :
    ∃ steps, steps = [depositOf 10 (dollars 25000), depositOf 11 (dollars 25000),
        depositOf 12 (dollars 1)] ∧
      positiveDeposits (runs (DepositStep.perform (dollars 25000) (dollars 50000)) steps
        (openedAccount 1)) 1 0 = 500000000 ∧
      positiveDeposits (runs (DepositStep.perform (dollars 25000) (dollars 50000)) steps
        (openedAccount 1)) 1 0 ≤ (dollars 50000).quanta := by
  refine ⟨_, rfl, by decide +kernel, ?_⟩
  refine daily_cap_holds noDeposits_openedAccount (by decide) _ ?_ 1 0
  have hlarge : 0 ≤ (dollars 25000).quanta := by decide
  have hsmall : 0 ≤ (dollars 1).quanta := by decide
  exact ⟨fun _ => hlarge, fun _ => hlarge, fun _ => hsmall, trivial⟩

/-- **A negative amount makes room** for as much again: 75000 dollars are deposited under a cap of
50000. -/
theorem negative_deposit_evades_cap :
    ¬ ∀ (capPerTransaction capPerDay : Money) (db : Database), NoDeposits db →
      0 ≤ capPerDay.quanta → ∀ (steps : List DepositStep) (customerId : Uuid) (effectiveDate : Date),
        positiveDeposits (runs (DepositStep.perform capPerTransaction capPerDay) steps db) customerId
          effectiveDate ≤ capPerDay.quanta := by
  intro h
  have hcap := h (dollars 25000) (dollars 50000) (openedAccount 1) noDeposits_openedAccount
    (by decide) [depositOf 10 (dollars 25000).neg, depositOf 11 (dollars 25000),
      depositOf 12 (dollars 25000), depositOf 13 (dollars 25000)] 1 0
  revert hcap
  decide +kernel

end Trueup.Identity
