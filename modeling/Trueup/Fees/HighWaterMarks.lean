import Trueup.Fees.FeeAccrualService
import Trueup.Lib.Ratchet
import Trueup.Reporting

/-! # The high-water mark over a run

The accruals of one customer, in any order of days and with repeats, among anything else that leaves
the customer's mark and accruals alone.

`accrue_mark`: a call that added a row has raised the mark to the shadow value, if it is above, and
the row's gain is the rise. `accrue_repeated`: a call for a day that has a row changes nothing but
stored sub-periods. `peak_telescopes`: over a run, the mark is the greatest accepted shadow value,
and the gains add up to what it has risen since the first one. -/

namespace Trueup.Fees

open Trueup.Core Trueup.Models Trueup.Lib Trueup.Lib.Transaction Trueup.Ledger Trueup.Valuation

/-- The quanta of the recorded peak of a customer. -/
def peakQuanta (db : Database) (customerId : Uuid) : Option ℤ :=
  (db.highWaterMarks.find customerId).map (·.peakValue.quanta)

/-- The accruals of a customer. -/
def accrualsOf (db : Database) (customerId : Uuid) : List FeeAccrual :=
  db.feeAccruals.rows.filter (·.customerId = customerId)

/-! ### One call -/

section Call
variable {env : Env} {feeRatePct : ℚ} {customerId : Uuid} {accrualDate : Date} {shadowValue : Money}
  {db db' : Database}

/-- The mark that the savepoint compares with is recorded for the customer. -/
theorem getOrCreateMark_find {mark : HighWaterMark}
    (h : (getOrCreateMark env customerId shadowValue).run db = .ok (mark, db')) :
    db'.highWaterMarks.find customerId = some mark ∧ mark.customerId = customerId ∧
      some mark.peakValue.quanta = some ((peakQuanta db customerId).getD shadowValue.quanta) := by
  unfold getOrCreateMark at h
  simp only [bind_ok, read_ok] at h
  obtain ⟨existing, _, ⟨hexisting, rfl⟩, h⟩ := h
  injection hexisting with hexisting
  cases existing with
  | some found =>
    obtain ⟨rfl, rfl⟩ := pure_ok.mp h
    have hid := (Table.find_eq_some.mp hexisting).2
    exact ⟨hexisting, hid, by simp [peakQuanta, hexisting]⟩
  | none =>
    simp only [bind_ok, addHighWaterMark_ok, pure_ok] at h
    obtain ⟨_, _, ⟨t, ht, rfl⟩, rfl, rfl⟩ := h
    have hfind := Table.find_insert ht customerId
    rw [if_pos rfl] at hfind
    exact ⟨hfind, rfl, by simp [peakQuanta, hexisting]⟩

theorem ratchet_find {mark : HighWaterMark} {gain : Money}
    (h : (ratchet env mark shadowValue).run db = .ok (gain, db'))
    (hmark : db.highWaterMarks.find mark.customerId = some mark) :
    peakQuanta db' mark.customerId = some (max mark.peakValue.quanta shadowValue.quanta) := by
  unfold ratchet at h
  simp only [bind_ok, lift_ok] at h
  obtain ⟨raised, _, ⟨hraised, rfl⟩, h⟩ := h
  have hquanta := Money.sub_ok.mp hraised
  split_ifs at h with hle
  · obtain ⟨rfl, rfl⟩ := pure_ok.mp h
    have hle' : shadowValue.quanta ≤ mark.peakValue.quanta := by
      rw [QuantizedDecimal.le_def, hquanta] at hle
      have hzero : (0 : Money).quanta = 0 := rfl
      omega
    rw [peakQuanta, hmark, max_eq_left hle']
    rfl
  · simp only [bind_ok, setHighWaterMark_ok, pure_ok] at h
    obtain ⟨_, _, rfl, rfl, rfl⟩ := h
    have hlt : mark.peakValue.quanta < shadowValue.quanta := by
      rw [QuantizedDecimal.le_def, hquanta] at hle
      have hzero : (0 : Money).quanta = 0 := rfl
      omega
    have hhas : db.highWaterMarks.Has mark.customerId :=
      Table.has_iff.mpr ⟨mark, (Table.find_eq_some.mp hmark).1, rfl⟩
    have hset := Table.find_set (r := { mark with
      peakValue := shadowValue, updatedAt := env.now .updatedAt }) hhas mark.customerId
    rw [if_pos rfl] at hset
    rw [peakQuanta, hset, max_eq_right hlt.le]
    rfl

theorem postAccrual_ok {gain feeAmount : Money} {accrual : FeeAccrual}
    (h : (postAccrual env customerId accrualDate gain feeAmount).run db = .ok (accrual, db')) :
    accrual.customerId = customerId ∧ accrual.gainAmount = gain ∧
      db'.highWaterMarks = db.highWaterMarks ∧
      db'.feeAccruals.rows = db.feeAccruals.rows ++ [accrual] := by
  unfold postAccrual at h
  simp only [bind_ok, addFeeAccrual_ok, pure_ok] at h
  obtain ⟨payable, _, hpayable, revenue, _, hrevenue, entry, _, hpost, _, _,
    ⟨accruals, haccruals, rfl⟩, rfl, rfl⟩ := h
  obtain ⟨-, accounts, rfl⟩ := getOrCreateCustomerAccount_ok hpayable
  obtain ⟨-, -, accounts', rfl⟩ := getOrCreateHouseAccount_ok hrevenue
  obtain ⟨-, rfl, entries, -, rfl⟩ := post_ok hpost
  exact ⟨rfl, rfl, rfl, Table.rows_insert haccruals⟩

/-- **The mark after a row was added** is the old one, raised to the shadow value, and the row's
gain is the rise. -/
theorem accrue_mark {accrual : FeeAccrual}
    (h : (accrue env feeRatePct customerId accrualDate shadowValue).run db = .ok (accrual, db')) :
    peakQuanta db' customerId = some (Ratchet.raise (peakQuanta db customerId) shadowValue.quanta) ∧
      accrual.gainAmount.quanta =
        Ratchet.gain (peakQuanta db customerId) shadowValue.quanta ∧
      accrualsOf db' customerId = accrualsOf db customerId ++ [accrual] := by
  have hgain := accrue_ok h
  unfold accrue at h
  simp only [bind_ok, lift_ok] at h
  obtain ⟨mark, db₁, hmark, gain, db₂, hratchet, feeAmount, _, ⟨-, rfl⟩, hpost⟩ := h
  obtain ⟨hfind, hid, hpeak⟩ := getOrCreateMark_find hmark
  subst hid
  have hraised := ratchet_find hratchet hfind
  have haccruals : db₂.feeAccruals = db.feeAccruals := by
    obtain ⟨-, marks, rfl⟩ := getOrCreateMark_ok hmark
    obtain ⟨-, marks', rfl⟩ := ratchet_ok hratchet
    rfl
  obtain ⟨hcustomer, -, hmarks, hrows⟩ := postAccrual_ok hpost
  refine ⟨?_, ?_, ?_⟩
  · have hsame : peakQuanta db' mark.customerId = peakQuanta db₂ mark.customerId := by
      unfold peakQuanta
      rw [hmarks]
    rw [hsame, hraised]
    injection hpeak with hpeak
    rw [hpeak]
    cases peakQuanta db mark.customerId with
    | none => exact congrArg some (max_self _)
    | some peak => rfl
  · obtain ⟨gain', _, _, _, _, _, _, _, _, hgain, -, -, -, -, rfl, -⟩ := hgain
    show gain'.quanta = _
    rw [hgain, gainOver, peakQuanta]
    cases db.highWaterMarks.find mark.customerId with
    | none => rfl
    | some found => rfl
  · unfold accrualsOf
    rw [hrows, haccruals]
    simp [hcustomer]

/-- **A call for a day that has a row** changes nothing but stored sub-periods. -/
theorem accrue_repeated (hrow : db.feeAccruals.Has (customerId, accrualDate)) :
    ∃ t, atomically (accrueForCustomer env feeRatePct customerId accrualDate) db =
      { db with subPeriodReturns := t } := by
  rcases atomically_cases (accrueForCustomer env feeRatePct customerId accrualDate) db with
    ⟨r, db', hrun, heq⟩ | ⟨e, -, heq⟩
  · rw [heq]
    obtain ⟨shadow, db₁, hshadow, hcases⟩ := accrueForCustomer_ok hrun
    have hdb₁ := shadowNav_writes hshadow
    rcases hcases with ⟨-, rfl⟩ | ⟨shadowValue, accrual, -, -, haccrue⟩
    · exact ⟨_, hdb₁⟩
    · -- the row of the day is in the way
      obtain ⟨_, _, _, _, _, _, _, _, _, -, -, -, -, -, rfl, -, hinsert, -⟩ := accrue_ok haccrue
      have hfree := (Table.insert_eq_some.mp hinsert).1
      rw [hdb₁] at hfree
      exact absurd hrow hfree
  · exact ⟨db.subPeriodReturns, heq⟩

end Call

/-! ### Runs -/

/-- Anything that leaves the customer's mark and accruals alone. -/
structure Elsewhere (customerId : Uuid) where
  change : Database → Database
  mark : ∀ db, (change db).highWaterMarks.find customerId = db.highWaterMarks.find customerId
  accruals : ∀ db, accrualsOf (change db) customerId = accrualsOf db customerId

/-- A call of `accrue_for_customer` for the customer, or anything else. -/
inductive AccrualStep (customerId : Uuid)
  | accrue (env : Env) (feeRatePct : ℚ) (accrualDate : Date)
  | elsewhere (other : Elsewhere customerId)

section Run
variable {customerId : Uuid}

/-- The database after a step. -/
def accrualStep (db : Database) : AccrualStep customerId → Database
  | .accrue env feeRatePct accrualDate =>
    atomically (accrueForCustomer env feeRatePct customerId accrualDate) db
  | .elsewhere other => other.change db

/-- The shadow value of a call that adds a row. -/
def acceptedValue (db : Database) : AccrualStep customerId → Option ℤ
  | .accrue env feeRatePct accrualDate =>
    match (shadowNav env customerId accrualDate).run db,
      (accrueForCustomer env feeRatePct customerId accrualDate).run db with
    | .ok (some shadowValue, _), .ok (some _, _) => some shadowValue.quanta
    | _, _ => none
  | .elsewhere _ => none

/-- The database after some steps. -/
def accrualRun (steps : List (AccrualStep customerId)) (db : Database) : Database :=
  steps.foldl accrualStep db

/-- The accepted shadow values of a run, in order. -/
def acceptedValues : List (AccrualStep customerId) → Database → List ℤ
  | [], _ => []
  | step :: steps, db => (acceptedValue db step).toList ++ acceptedValues steps (accrualStep db step)

/-- The customer's mark and gains are those of the values. -/
def MarkOf (db : Database) (customerId : Uuid) (values : List ℤ) : Prop :=
  Ratchet.Ratcheted values (peakQuanta db customerId)
    ((accrualsOf db customerId).map (·.gainAmount.quanta)).sum

/-- **What one step did**: an accepted value raised the mark, and without one neither the mark nor
the accruals changed. -/
theorem accrualStep_cases (db : Database) (step : AccrualStep customerId) :
    (acceptedValue db step = none ∧
      (accrualStep db step).highWaterMarks.find customerId = db.highWaterMarks.find customerId ∧
      accrualsOf (accrualStep db step) customerId = accrualsOf db customerId) ∨
    ∃ value accrual, acceptedValue db step = some value ∧
      peakQuanta (accrualStep db step) customerId =
        some (Ratchet.raise (peakQuanta db customerId) value) ∧
      accrual.gainAmount.quanta = Ratchet.gain (peakQuanta db customerId) value ∧
      accrualsOf (accrualStep db step) customerId = accrualsOf db customerId ++ [accrual] := by
  cases step with
  | elsewhere other => exact Or.inl ⟨rfl, other.mark db, other.accruals db⟩
  | accrue env feeRatePct accrualDate =>
    simp only [acceptedValue, accrualStep]
    cases hrun : (accrueForCustomer env feeRatePct customerId accrualDate).run db with
    | error e =>
      rw [atomically_of_error hrun]
      refine Or.inl ⟨?_, rfl, rfl⟩
      split
      · rename_i h; cases h
      · rfl
    | ok r =>
      obtain ⟨r, db'⟩ := r
      rw [atomically_of_ok hrun]
      obtain ⟨shadow, db₁, hshadow, hcases⟩ := accrueForCustomer_ok hrun
      have hmarks : db₁.highWaterMarks = db.highWaterMarks :=
        (frames_shadowNav (fun _ _ => rfl) env customerId accrualDate).eq hshadow
      have haccruals : db₁.feeAccruals = db.feeAccruals :=
        (frames_shadowNav (fun _ _ => rfl) env customerId accrualDate).eq hshadow
      rw [hshadow]
      rcases hcases with ⟨rfl, rfl⟩ | ⟨shadowValue, accrual, rfl, rfl, haccrue⟩
      · refine Or.inl ⟨?_, by rw [hmarks], by rw [accrualsOf, haccruals]; rfl⟩
        split
        · rename_i h; cases h
        · rfl
      · obtain ⟨hpeak, hgain, hrows⟩ := accrue_mark haccrue
        have hpeak₁ : peakQuanta db₁ customerId = peakQuanta db customerId := by
          rw [peakQuanta, hmarks]
          rfl
        have hrows₁ : accrualsOf db₁ customerId = accrualsOf db customerId := by
          rw [accrualsOf, haccruals]
          rfl
        rw [hpeak₁] at hpeak hgain
        rw [hrows₁] at hrows
        exact Or.inr ⟨_, accrual, rfl, hpeak, hgain, hrows⟩

theorem MarkOf.step {db : Database} {values : List ℤ} (h : MarkOf db customerId values)
    (step : AccrualStep customerId) :
    MarkOf (accrualStep db step) customerId (values ++ (acceptedValue db step).toList) := by
  rcases accrualStep_cases db step with ⟨hnone, hmark, hrows⟩ | ⟨value, accrual, hsome, hpeak,
    hgain, hrows⟩
  · rw [hnone, MarkOf, peakQuanta, hmark, hrows, Option.toList_none, List.append_nil]
    exact h
  · rw [hsome, MarkOf, hpeak, hrows, List.map_append, List.sum_append, List.map_singleton,
      List.sum_singleton, hgain]
    exact Ratchet.Ratcheted.append h value

theorem MarkOf.run : ∀ (steps : List (AccrualStep customerId)) {db : Database} {values : List ℤ},
    MarkOf db customerId values →
      MarkOf (accrualRun steps db) customerId (values ++ acceptedValues steps db)
  | [], _, _, h => by simpa [acceptedValues, accrualRun] using h
  | step :: steps, db, values, h => by
    have hrest := MarkOf.run steps (h.step step)
    rw [List.append_assoc] at hrest
    exact hrest

theorem peak_le_step {db : Database} (step : AccrualStep customerId) :
    ∀ peak ∈ peakQuanta db customerId, ∃ peak' ∈ peakQuanta (accrualStep db step) customerId,
      peak ≤ peak' := by
  intro peak hpeak
  rcases accrualStep_cases db step with ⟨-, hmark, -⟩ | ⟨value, accrual, -, hraised, -⟩
  · exact ⟨peak, by rw [peakQuanta, hmark]; exact hpeak, le_rfl⟩
  · refine ⟨_, hraised, ?_⟩
    rw [show peakQuanta db customerId = some peak from hpeak]
    exact le_max_left _ _

/-- **The high-water mark telescopes.** After any run of calls for a customer who had neither a mark
nor an accrual: the peak is the greatest accepted shadow value; the gains add up to the peak less
the first of them; one more step does not lower it; and a call for a day that has a row leaves the
marks, the accruals and the ledger as they were. -/
theorem peak_telescopes {db₀ : Database} (hmark : peakQuanta db₀ customerId = none)
    (haccruals : accrualsOf db₀ customerId = []) (steps : List (AccrualStep customerId)) :
    peakQuanta (accrualRun steps db₀) customerId = (acceptedValues steps db₀).max? ∧
    ((accrualsOf (accrualRun steps db₀) customerId).map (·.gainAmount.quanta)).sum =
      (peakQuanta (accrualRun steps db₀) customerId).getD 0 -
        (acceptedValues steps db₀).head?.getD 0 ∧
    (∀ step : AccrualStep customerId, ∀ peak ∈ peakQuanta (accrualRun steps db₀) customerId,
      ∃ peak' ∈ peakQuanta (accrualStep (accrualRun steps db₀) step) customerId, peak ≤ peak') ∧
    ∀ env feeRatePct accrualDate,
      (accrualRun steps db₀).feeAccruals.Has (customerId, accrualDate) →
        ∃ t, accrualStep (accrualRun steps db₀)
            (.accrue env feeRatePct accrualDate : AccrualStep customerId) =
          { accrualRun steps db₀ with subPeriodReturns := t } := by
  have hstart : MarkOf db₀ customerId [] := by
    rw [MarkOf, hmark, haccruals]
    exact Ratchet.Ratcheted.nil
  have hend := MarkOf.run steps hstart
  rw [List.nil_append] at hend
  exact ⟨hend.mark_eq, hend.gains_eq, fun step => peak_le_step step,
    fun env feeRatePct accrualDate => accrue_repeated⟩

end Run

/-- A share is bought on day `0`. -/
def boughtShare : Database := Reporting.run [
  ⟨envAt 1 1, .application (.initiateDeposit 1 (dollars 100))⟩,
  ⟨envAt 2 2, .lots (.buyFill openedClock ⟨1, 7, "b1", shares 1, dollarsPerShare 10, ⟨2, true⟩⟩)⟩]
  (openedAccount 1)

/-- A confirmed close of the share comes in. -/
def closeComesIn (day : Date) (price : Price) : AccrualStep 1 :=
  .elsewhere ⟨fun db => { db with
    dailyCloses := db.dailyCloses ++ [⟨7, day, price, .confirmed, 86400000000 * day + 3⟩] },
    fun _ => rfl, fun _ => rfl⟩

/-- The accrual of a day, with fresh ids. -/
def accrualOn (day : Date) (id : Uuid) : AccrualStep 1 :=
  .accrue (envAt (86400000000 * day + 4) id) (1 / 5) day

/-- The share closes at 10, 12, 11 and 13; the second day is accrued twice. -/
def upAndDown : List (AccrualStep 1) := [
  closeComesIn 0 (dollarsPerShare 10), accrualOn 0 11, closeComesIn 1 (dollarsPerShare 12),
  accrualOn 1 12, closeComesIn 2 (dollarsPerShare 11), accrualOn 2 13, accrualOn 1 14,
  closeComesIn 3 (dollarsPerShare 13), accrualOn 3 15]

theorem peak_telescopes_up_and_down :
    (acceptedValues upAndDown boughtShare).map (· / 10 ^ 4) = [100, 102, 101, 103] ∧
      peakQuanta (accrualRun upAndDown boughtShare) 1 =
        (acceptedValues upAndDown boughtShare).max? ∧
      ((accrualsOf (accrualRun upAndDown boughtShare) 1).map (·.gainAmount.quanta)).sum =
        (peakQuanta (accrualRun upAndDown boughtShare) 1).getD 0 -
          (acceptedValues upAndDown boughtShare).head?.getD 0 :=
  have hfresh : peakQuanta boughtShare 1 = none ∧ accrualsOf boughtShare 1 = [] := by decide +kernel
  have htelescopes := peak_telescopes hfresh.1 hfresh.2 upAndDown
  ⟨by decide +kernel, htelescopes.1, htelescopes.2.1⟩

end Trueup.Fees
