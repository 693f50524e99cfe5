import Trueup.Fees.HighWaterMarks
import Trueup.Ledger.AccountLookups
import Trueup.Valuation.SubPeriods

/-! # Accruals on missing prices

`value_book` leaves a position without a confirmed close out of the value and flags the book as
partial. The shadow value is computed from such books like from any other, and what a missing price
hides at the begin of a period is taken for a gain at its end.

`shadowNav_eq`: the shadow value is a function of the ledger and the closes. `partial_accrues_iff`:
on partial books an accrual has no gain exactly when the day has a row already or that value is
within the recorded mark. `missing_close_accrues`: a fee on a price that came a day late. -/

namespace Trueup.Fees

open Trueup.Core Trueup.Models Trueup.Lib Trueup.Lib.Transaction Trueup.Ledger Trueup.Valuation

/-- The days whose books the shadow value is computed from. -/
def valuedDays (db : Database) (customerId : Uuid) (accrualDate : Date) : List Date :=
  match (firstFlowDate db customerId).filter (· ≤ accrualDate) with
  | none => []
  | some firstFlow =>
    if firstFlow = accrualDate then [firstFlow] else boundaries db customerId firstFlow accrualDate

/-- One of the books is partial. -/
def UsesPartial (db : Database) (customerId : Uuid) (accrualDate : Date) : Prop :=
  ∃ day ∈ valuedDays db customerId accrualDate, (valueBook db customerId day).toOption.any (·.isPartial)

instance (db : Database) (customerId : Uuid) (accrualDate : Date) :
    Decidable (UsesPartial db customerId accrualDate) := by unfold UsesPartial; infer_instance

/-- The linked return of the periods since the first flow, as the books give it. -/
def growthFromBooks (db : Database) (env : Env) (customerId : Uuid) (firstFlow asOfDate : Date) :
    Except Error ℚ :=
  if firstFlow = asOfDate then return 0
  else do
    let rows ← (pairwise (boundaries db customerId firstFlow asOfDate)).mapM
      fun window => currentSubPeriod db env customerId window.1 window.2
    link rows

/-- The value of the first flow's day, grown by the returns of the periods since: from the ledger
and the closes, whatever is stored. -/
def navFromBooks (db : Database) (env : Env) (customerId : Uuid) (asOfDate : Date) :
    Except Error (Option Money) :=
  match (firstFlowDate db customerId).filter (· ≤ asOfDate) with
  | none => return none
  | some firstFlow => do
    let base ← valueBook db customerId firstFlow
    if base.totalValue = 0 then return none
    else do
      let growth ← growthFromBooks db env customerId firstFlow asOfDate
      let nav ← Money.scale base.totalValue (context (1 + growth))
      return some nav

/-- That value is within the recorded mark, when there are both. The books it comes from count a
position without a close for nothing (`totalValue_completed`): left out at the first flow's day or
at the begin of a period the position is a gain once it has a close, left out at an end a loss, and
it is the figure with these that the mark is held against. -/
def NavWithinMark (db : Database) (env : Env) (customerId : Uuid) (asOfDate : Date) : Prop :=
  ∀ peak ∈ peakQuanta db customerId, ∀ nav ∈ (navFromBooks db env customerId asOfDate).toOption.join,
    nav.quanta ≤ peak

instance (db : Database) (env : Env) (customerId : Uuid) (asOfDate : Date) :
    Decidable (NavWithinMark db env customerId asOfDate) := by unfold NavWithinMark; infer_instance

section Nav
variable {db db' : Database} {env : Env} {customerId : Uuid}

/-- **The shadow value** is the one of the books. -/
theorem shadowNav_eq {asOfDate : Date} {shadow : Option Money}
    (h : (shadowNav env customerId asOfDate).run db = .ok (shadow, db')) :
    navFromBooks db env customerId asOfDate = .ok shadow := by
  unfold shadowNav at h
  simp only [bind_ok, read_ok] at h
  obtain ⟨found, _, ⟨hfound, rfl⟩, h⟩ := h
  cases hfound
  unfold navFromBooks
  cases hfirst : (firstFlowDate db customerId).filter (· ≤ asOfDate) with
  | none =>
    rw [hfirst] at h
    obtain ⟨rfl, -⟩ := pure_ok.mp h
    rfl
  | some firstFlow =>
    rw [hfirst] at h
    simp only [bind_ok, read_ok] at h
    obtain ⟨base, _, ⟨hbase, rfl⟩, h⟩ := h
    refine except_bind_ok.mpr ⟨base, hbase, ?_⟩
    split_ifs at h ⊢ with hzero
    · obtain ⟨rfl, -⟩ := pure_ok.mp h
      rfl
    · simp only [bind_ok, lift_ok, pure_ok] at h
      obtain ⟨growth, _, hgrowth, nav, _, ⟨hnav, rfl⟩, rfl, rfl⟩ := h
      refine except_bind_ok.mpr ⟨growth, ?_, except_bind_ok.mpr ⟨nav, hnav, rfl⟩⟩
      unfold cumulativeTwr at hgrowth
      unfold growthFromBooks
      split_ifs at hgrowth ⊢
      · obtain ⟨rfl, -⟩ := pure_ok.mp hgrowth
        rfl
      · simp only [bind_ok, pure_ok] at hgrowth
        obtain ⟨_, _, htwr, rfl, rfl⟩ := hgrowth
        obtain ⟨hrows, hlink⟩ := computeTwr_ok.mp htwr
        obtain ⟨current, hcurrent, hreturns⟩ := subPeriodReturns_returns hrows
        exact except_bind_ok.mpr ⟨current, hcurrent, link_congr hreturns ▸ hlink⟩

end Nav

/-! ### What an accrual may raise -/

/-- Not a violated constraint. -/
def NotIntegrity (e : Error) : Prop := isIntegrityError e = false

section Raised
variable {env : Env} {feeRatePct : ℚ} {customerId : Uuid} {accrualDate : Date} {shadowValue : Money}
  {db : Database} {e : Error}

theorem notIntegrity_of_isLedgerError (e : Error) (h : IsLedgerError e) : NotIntegrity e := by
  cases e with
  | integrityError _ => cases h
  | _ => rfl

theorem has_of_insert_error {κ ρ : Type} [DecidableEq κ] {key : ρ → κ} {t : Table key} {row : ρ}
    {constraint : Error} {f : Table key → Database}
    (h : (do
      let u ← ofOption (t.insert row) constraint
      return f u : Except Error Database) = .error e) : t.Has (key row) := by
  by_contra hfree
  obtain ⟨u, hu⟩ := Table.exists_insert hfree
  rw [hu] at h
  cases h

theorem addFeeAccrual_error {accrual : FeeAccrual}
    (h : (addFeeAccrual accrual).run db = .error e) : db.feeAccruals.Has accrual.key :=
  has_of_insert_error (write_error.mp h)

theorem addHighWaterMark_error {mark : HighWaterMark}
    (h : (addHighWaterMark mark).run db = .error e) : db.highWaterMarks.Has mark.customerId :=
  has_of_insert_error (write_error.mp h)

theorem addJournalEntry_error {entry : JournalEntry}
    (h : (addJournalEntry entry).run db = .error e) : db.journalEntries.Has entry.id :=
  has_of_insert_error (write_error.mp h)

theorem writeEntry_integrity {entry : JournalEntry} {legs : List PostingLeg}
    (h : (writeEntry entry legs).run db = .error e) (he : isIntegrityError e) :
    db.journalEntries.Has entry.id := by
  have hnot : ¬ NotIntegrity e := by
    intro hnot
    rw [hnot] at he
    cases he
  unfold writeEntry at h
  rcases bind_error.mp h with h | ⟨_, t, hlegs, h⟩
  · have hraises := raises_lift (fails_validateLegs legs) db e h
    exact absurd (notIntegrity_of_isLedgerError e hraises) hnot
  obtain ⟨-, rfl⟩ := lift_ok.mp hlegs
  rcases bind_error.mp h with h | ⟨_, t, -, h⟩
  · exact addJournalEntry_error h
  · have hraises := raises_bind (raises_each (raises_addLeg entry.id) legs) fun _ => raises_pure entry
    exact absurd (notIntegrity_of_isLedgerError e (hraises t e h)) hnot

theorem getOrCreateMark_ne_error (e : Error) :
    (getOrCreateMark env customerId shadowValue).run db ≠ .error e := by
  intro h
  unfold getOrCreateMark at h
  rcases bind_error.mp h with h | ⟨existing, _, hexisting, h⟩
  · cases read_error.mp h
  simp only [read_ok] at hexisting
  obtain ⟨hexisting, rfl⟩ := hexisting
  injection hexisting with hexisting
  cases existing with
  | some mark => cases h
  | none =>
    rcases bind_error.mp h with h | ⟨_, _, -, h⟩
    · exact Table.find_eq_none.mp hexisting (addHighWaterMark_error h)
    · cases h

theorem raises_ratchet {mark : HighWaterMark} : Raises NotIntegrity (ratchet env mark shadowValue) :=
  raises_bind (raises_lift (QuantizedDecimal.fails_ofDecimal (P := NotIntegrity) rfl rfl _)) fun _ =>
    raises_ite (raises_pure _) (raises_bind (raises_update _) fun _ => raises_pure _)

/-- **An accrual violates a constraint** only if the id of its entry is taken or the day has a
row. -/
theorem accrue_integrity
    (h : (accrue env feeRatePct customerId accrualDate shadowValue).run db = .error e)
    (he : isIntegrityError e) :
    db.journalEntries.Has (env.uuid4 .journalEntry) ∨
      db.feeAccruals.Has (customerId, accrualDate) := by
  have hnot : ¬ NotIntegrity e := by
    intro hnot
    rw [hnot] at he
    cases he
  unfold accrue at h
  rcases bind_error.mp h with h | ⟨mark, db₁, hmark, h⟩
  · exact absurd h (getOrCreateMark_ne_error e)
  obtain ⟨-, marks, rfl⟩ := getOrCreateMark_ok hmark
  rcases bind_error.mp h with h | ⟨gain, db₂, hratchet, h⟩
  · exact absurd (raises_ratchet _ e h) hnot
  obtain ⟨-, marks', rfl⟩ := ratchet_ok hratchet
  rcases bind_error.mp h with h | ⟨feeAmount, db₃, hfee, h⟩
  · exact absurd (raises_lift (QuantizedDecimal.fails_ofDecimal (P := NotIntegrity) rfl rfl _) _ e h) hnot
  obtain ⟨-, rfl⟩ := lift_ok.mp hfee
  unfold postAccrual at h
  rcases bind_error.mp h with h | ⟨payable, db₄, hpayable, h⟩
  · exact absurd (notIntegrity_of_isLedgerError e (raises_getOrCreateCustomerAccount _ _ _ _ e h)) hnot
  obtain ⟨-, accounts, rfl⟩ := getOrCreateCustomerAccount_ok hpayable
  rcases bind_error.mp h with h | ⟨revenue, db₅, hrevenue, h⟩
  · exact absurd (notIntegrity_of_isLedgerError e (raises_getOrCreateHouseAccount _ _ e h)) hnot
  obtain ⟨-, -, accounts', rfl⟩ := getOrCreateHouseAccount_ok hrevenue
  rcases bind_error.mp h with h | ⟨entry, db₆, hpost, h⟩
  · exact Or.inl (writeEntry_integrity h he)
  obtain ⟨-, rfl, entries, -, rfl⟩ := post_ok hpost
  rcases bind_error.mp h with h | ⟨_, db₇, -, h⟩
  · exact Or.inr (addFeeAccrual_error h)
  · cases h

end Raised

/-! ### One accrual on partial books -/

section Partial
variable {env : Env} {feeRatePct : ℚ} {customerId : Uuid} {accrualDate : Date} {db db' : Database}
  {r : Option FeeAccrual}

/-- The gain of a row is what the value of the books is above the mark. -/
theorem accrual_gain {accrual : FeeAccrual}
    (h : (accrueForCustomer env feeRatePct customerId accrualDate).run db = .ok (some accrual, db')) :
    ∃ nav, navFromBooks db env customerId accrualDate = .ok (some nav) ∧
      ¬ db.feeAccruals.Has (customerId, accrualDate) ∧
      accrual.gainAmount.quanta = Ratchet.gain (peakQuanta db customerId) nav.quanta ∧
      peakQuanta db' customerId = some (Ratchet.raise (peakQuanta db customerId) nav.quanta) := by
  obtain ⟨shadow, db₁, hshadow, ⟨hnone, -⟩ | ⟨nav, a, rfl, ha, haccrue⟩⟩ := accrueForCustomer_ok h
  · cases hnone
  cases ha
  have hmarks : db₁.highWaterMarks = db.highWaterMarks :=
    (frames_shadowNav (fun _ _ => rfl) env customerId accrualDate).eq hshadow
  have haccruals : db₁.feeAccruals = db.feeAccruals :=
    (frames_shadowNav (fun _ _ => rfl) env customerId accrualDate).eq hshadow
  obtain ⟨hpeak, hgain, -⟩ := accrue_mark haccrue
  have hpeak₁ : peakQuanta db₁ customerId = peakQuanta db customerId := by
    unfold peakQuanta
    rw [hmarks]
  have hfree : ¬ db.feeAccruals.Has (customerId, accrualDate) := by
    obtain ⟨_, _, _, _, _, _, _, _, _, -, -, -, -, -, rfl, -, hinsert, -⟩ := accrue_ok haccrue
    have hnew := (Table.insert_eq_some.mp hinsert).1
    rw [haccruals] at hnew
    exact hnew
  rw [hpeak₁] at hpeak hgain
  exact ⟨nav, shadowNav_eq hshadow, hfree, hgain, hpeak⟩

/-- A call without a row left the marks alone; there was no value, the day had a row, or the fresh
id of the entry was taken. -/
theorem no_accrual
    (h : (accrueForCustomer env feeRatePct customerId accrualDate).run db = .ok (none, db')) :
    db'.highWaterMarks = db.highWaterMarks ∧
      (navFromBooks db env customerId accrualDate = .ok none ∨
        db.feeAccruals.Has (customerId, accrualDate) ∨
        db.journalEntries.Has (env.uuid4 .journalEntry)) := by
  unfold accrueForCustomer at h
  rw [bind_ok] at h
  obtain ⟨shadow, db₁, hshadow, h⟩ := h
  have hmarks : db₁.highWaterMarks = db.highWaterMarks :=
    (frames_shadowNav (fun _ _ => rfl) env customerId accrualDate).eq hshadow
  cases shadow with
  | none =>
    obtain ⟨-, rfl⟩ := pure_ok.mp h
    exact ⟨hmarks, Or.inl (shadowNav_eq hshadow)⟩
  | some nav =>
    rcases savepoint_ok.mp h with ⟨accrual, hnone, -⟩ | ⟨-, rfl, e, herror, hcaught⟩
    · cases hnone
    refine ⟨hmarks, Or.inr ?_⟩
    have hentries : db'.journalEntries = db.journalEntries :=
      (frames_shadowNav (fun _ _ => rfl) env customerId accrualDate).eq hshadow
    have haccruals : db'.feeAccruals = db.feeAccruals :=
      (frames_shadowNav (fun _ _ => rfl) env customerId accrualDate).eq hshadow
    have htaken := accrue_integrity herror hcaught
    rw [hentries, haccruals] at htaken
    exact htaken.symm

/-- **An accrual on partial books** has no gain and leaves the peak exactly when the day has a row
already, or what the partial books come to is within the recorded mark. -/
theorem partial_accrues_iff (hfresh : ¬ db.journalEntries.Has (env.uuid4 .journalEntry))
    (h : (accrueForCustomer env feeRatePct customerId accrualDate).run db = .ok (r, db')) :
    (UsesPartial db customerId accrualDate →
        (∀ accrual ∈ r, accrual.gainAmount = 0) ∧
          ∀ peak ∈ peakQuanta db customerId, peakQuanta db' customerId = some peak) ↔
      (UsesPartial db customerId accrualDate →
        db.feeAccruals.Has (customerId, accrualDate) ∨
          NavWithinMark db env customerId accrualDate) := by
  refine forall_congr' fun _ => ?_
  cases r with
  | none =>
    obtain ⟨hmarks, hwhy⟩ := no_accrual h
    refine iff_of_true ⟨by simp, fun peak hpeak => by rw [peakQuanta, hmarks]; exact hpeak⟩ ?_
    rcases hwhy with hnone | hrow | htaken
    · refine Or.inr fun peak _ nav hnav => ?_
      rw [hnone] at hnav
      cases hnav
    · exact Or.inl hrow
    · exact absurd htaken hfresh
  | some accrual =>
    obtain ⟨nav, hnav, hfree, hgain, hpeak⟩ := accrual_gain h
    have hwithin : NavWithinMark db env customerId accrualDate ↔
        ∀ peak ∈ peakQuanta db customerId, nav.quanta ≤ peak := by
      simp [NavWithinMark, hnav, Except.toOption]
    rw [hwithin]
    constructor
    · rintro ⟨hzero, -⟩
      refine Or.inr fun peak hmark => ?_
      rw [show peakQuanta db customerId = some peak from hmark] at hgain
      have hgain0 : accrual.gainAmount.quanta = 0 :=
        congrArg QuantizedDecimal.quanta (hzero accrual rfl)
      have hle : nav.quanta - peak ≤ 0 := max_eq_left_iff.mp (hgain.symm.trans hgain0)
      omega
    · intro hcond
      have hle := hcond.resolve_left hfree
      refine ⟨fun a ha => ?_, fun peak hmark => ?_⟩
      · cases ha
        refine QuantizedDecimal.ext (hgain.trans ?_)
        cases hmark : peakQuanta db customerId with
        | none => rfl
        | some peak =>
          have hpeak := hle peak hmark
          exact max_eq_left (by omega)
      · rw [hpeak, show peakQuanta db customerId = some peak from hmark]
        exact congrArg some (max_eq_left (hle peak hmark))

end Partial

/-- A share is held and valued on day `0`; the close of day `1` is missing. -/
def endMissing : Database :=
  accrualRun [closeComesIn 0 (dollarsPerShare 10), accrualOn 0 11] boughtShare

theorem partial_accrues_iff_end_missing :
    UsesPartial endMissing 1 1 ∧
      ∃ r db', (accrueForCustomer (envAt 86400000004 12) (1 / 5) 1 1).run endMissing = .ok (r, db') ∧
        (∀ accrual ∈ r, accrual.gainAmount = 0) ∧
        ∀ peak ∈ peakQuanta endMissing 1, peakQuanta db' 1 = some peak := by
  have huses : UsesPartial endMissing 1 1 := by decide +kernel
  obtain ⟨r, hrun⟩ := run_of_isOk (x := accrueForCustomer (envAt 86400000004 12) (1 / 5) 1 1)
    (s := endMissing) (by decide +kernel)
  have hwithin : NavWithinMark endMissing (envAt 86400000004 12) 1 1 := by decide +kernel
  exact ⟨huses, r, _, hrun,
    (partial_accrues_iff (by decide +kernel) hrun).mpr (fun _ => Or.inr hwithin) huses⟩

/-- The close of day `0` never comes in; the share closes at the price it was bought for. -/
def beginMissing : Database :=
  accrualRun [accrualOn 0 11, closeComesIn 1 (dollarsPerShare 10)] boughtShare

/-- **A missing close accrues a fee**: the price has not moved, and the book of day `0` without the
share makes a gain of the share on day `1`. -/
theorem missing_close_accrues :
    UsesPartial beginMissing 1 1 ∧ peakQuanta beginMissing 1 = some (dollars 90).quanta ∧
      ∃ accrual ∈ (accrualRun [accrualOn 1 12] beginMissing).feeAccruals.rows,
        accrual.customerId = 1 ∧ accrual.accrualDate = 1 ∧ accrual.gainAmount = dollars 10 ∧
        0 < accrual.feeAmount.quanta ∧
        peakQuanta (accrualRun [accrualOn 1 12] beginMissing) 1 = some (dollars 100).quanta := by
  decide +kernel

end Trueup.Fees
