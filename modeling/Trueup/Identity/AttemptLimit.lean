import Trueup.Identity.VerdictOrder

/-! # The limit of the attempts

`start_verification` refuses a customer for the number of his attempts only when his status is
`rejected`; a pending attempt, or an approval, does not count towards the lock.

* `startVerification_ok`: what an accepted start adds.
* `attemptNumbers_verdict`, `attemptNumbers_poll`: no verdict adds or renumbers an attempt.
* `attempt_limit_iff`: the attempts of a customer stay within the limit exactly when his status is
  `rejected` whenever he starts once more after the last allowed attempt. -/

namespace Trueup.Identity

open Trueup.Core Trueup.Models Trueup.Lib Trueup.Lib.Transaction

/-- The attempt numbers of a customer, the oldest attempt first. -/
def attemptNumbers (tables : KycTables) (customerId : Uuid) : List ℤ :=
  (tables.kycSessions.rows.filter (·.customerId = customerId)).map (·.attemptNumber)

/-- The numbers `1, 2, 3, ...` up to `n`. -/
def upTo (n : ℕ) : List ℤ := (List.range n).map fun i : ℕ => (i : ℤ) + 1

/-- The attempts of a customer are numbered `1, 2, 3, ...`, and there are no more than allowed. -/
def WithinLimit (maxAttempts : ℤ) (customerId : Uuid) (tables : KycTables) : Prop :=
  ∃ n : ℕ, attemptNumbers tables customerId = upTo n ∧
    n ≤ maxAttempts.toNat

/-- A start, a verdict or a poll, of any customer. -/
inductive KycStep
  | start (kycPort : Option KycPort) (customerId : Uuid)
  | verdict (verdict : Verdict)
  | poll (kycPort : Option KycPort) (now : Instant) (customerId : Uuid)

def KycStep.perform (maxAttempts : ℤ) : KycStep → KycTx Unit
  | .start kycPort customerId => do
    let _ ← startVerification maxAttempts kycPort customerId
  | .verdict v => do
    let _ ← applyVerificationVerdict maxAttempts v.now v.providerSessionId v.stripeStatus
  | .poll kycPort now customerId => do
    let _ ← syncLatestVerification maxAttempts kycPort now customerId

/-- The session that the provider creates for a customer, if it does. -/
def createdSession (kycPort : Option KycPort) (customerId : Uuid) : Option String :=
  match kycPort with
  | none => none
  | some port => match port.createVerificationSession customerId with
    | .error _ => none
    | .ok handle => some handle.providerSessionId

/-- A start of the customer, for which the provider creates a session, comes before the last
allowed attempt or finds him rejected. -/
def KycStep.Guarded (maxAttempts : ℤ) (customerId : Uuid) (tables : KycTables) : KycStep → Prop
  | .start kycPort c => c = customerId → tables.customers.Has customerId →
      (∃ id ∈ createdSession kycPort customerId, ¬ tables.kycSessions.Has id) →
      match latestForCustomer tables customerId with
      | none => 1 ≤ maxAttempts
      | some latest => latest.attemptNumber < maxAttempts ∨
          kycStatus tables customerId = some .rejected
  | _ => True

instance (maxAttempts : ℤ) (customerId : Uuid) (tables : KycTables) :
    ∀ step : KycStep, Decidable (step.Guarded maxAttempts customerId tables)
  | .start kycPort c =>
    have : Decidable (match latestForCustomer tables customerId with
        | none => 1 ≤ maxAttempts
        | some latest => latest.attemptNumber < maxAttempts ∨
            kycStatus tables customerId = some .rejected) :=
      match latestForCustomer tables customerId with
      | none => inferInstanceAs (Decidable (1 ≤ maxAttempts))
      | some latest => inferInstanceAs (Decidable (latest.attemptNumber < maxAttempts ∨ _))
    inferInstanceAs (Decidable (c = customerId → tables.customers.Has customerId →
      (∃ id ∈ createdSession kycPort customerId, ¬ tables.kycSessions.Has id) → _))
  | .verdict _ => .isTrue trivial
  | .poll .. => .isTrue trivial

section
variable {maxAttempts : ℤ} {tables tables' : KycTables} {customerId c : Uuid}

/-! ### What each step does to the attempts -/

/-- The row that a start adds. -/
def newAttempt (tables : KycTables) (customerId : Uuid) (providerSessionId : String) : KycSession :=
  ⟨customerId, providerSessionId, .pending, match latestForCustomer tables customerId with
    | none => 1
    | some latest => latest.attemptNumber + 1, none⟩

/-- The customer is locked. -/
def Locked (maxAttempts : ℤ) (tables : KycTables) (customerId : Uuid) : Prop :=
  kycStatus tables customerId = some .rejected ∧
    ∃ latest ∈ latestForCustomer tables customerId, latest.attemptNumber ≥ maxAttempts

theorem startVerification_ok {kycPort : Option KycPort} {handle : KycSessionHandle} :
    (startVerification maxAttempts kycPort customerId).run tables = .ok (handle, tables') ↔
      tables.customers.Has customerId ∧ ¬ Locked maxAttempts tables customerId ∧
      (∃ port, kycPort = some port ∧ port.createVerificationSession customerId = .ok handle) ∧
      ∃ t, tables.kycSessions.insert (newAttempt tables customerId handle.providerSessionId) = some t ∧
        tables' = { tables with kycSessions := t } := by
  simp only [startVerification, bind_ok, read_ok, lift_ok, ofOption_ok, require_ok, write_ok,
    except_bind_ok, pure_ok]
  constructor
  · rintro ⟨customer, _, ⟨hcustomer, rfl⟩, _, _, ⟨hlatest, rfl⟩, _, _, ⟨hlock, rfl⟩, port, _,
      ⟨hport, rfl⟩, _, _, ⟨hhandle, rfl⟩, _, _, ⟨t, hinsert, htables⟩, rfl, rfl⟩
    cases hlatest
    cases htables
    obtain ⟨hmem, hid⟩ := Table.find_eq_some.mp hcustomer
    refine ⟨hid ▸ Table.has_of_mem hmem, fun hlocked => hlock ⟨?_, hlocked.2⟩,
      ⟨port, hport, hhandle⟩, t, hinsert, rfl⟩
    simpa [kycStatus, hcustomer] using hlocked.1
  · rintro ⟨hhas, hlock, ⟨port, hport, hhandle⟩, t, hinsert, rfl⟩
    obtain ⟨customer, hcustomer⟩ :=
      Option.ne_none_iff_exists'.mp fun hnone => Table.find_eq_none.mp hnone hhas
    refine ⟨customer, _, ⟨hcustomer, rfl⟩, _, _, ⟨rfl, rfl⟩, (), _, ⟨fun hlast =>
      hlock ⟨?_, hlast.2⟩, rfl⟩, port, _, ⟨hport, rfl⟩, handle, _, ⟨hhandle, rfl⟩, (), _,
      ⟨t, hinsert, rfl⟩, rfl, rfl⟩
    simp [kycStatus, hcustomer, hlast.1]

theorem attemptNumbers_start {kycPort : Option KycPort} {handle : KycSessionHandle}
    (h : (startVerification maxAttempts kycPort c).run tables = .ok (handle, tables')) :
    attemptNumbers tables' customerId = attemptNumbers tables customerId ++
      if c = customerId then [(newAttempt tables c handle.providerSessionId).attemptNumber] else [] := by
  obtain ⟨-, -, -, t, hinsert, rfl⟩ := startVerification_ok.mp h
  unfold attemptNumbers
  rw [Table.rows_insert hinsert, List.filter_append, List.map_append]
  by_cases hc : c = customerId <;> simp [newAttempt, hc]

theorem attemptNumbers_resolved {session : KycSession} {status : KycSessionStatus} {now : Instant}
    (h : session ∈ tables.kycSessions) :
    attemptNumbers (tables.resolved session status now) customerId =
      attemptNumbers tables customerId := by
  have hnumbers : ∀ tables : KycTables, attemptNumbers tables customerId =
      ((tables.kycSessions.rows.map fun s => (s.customerId, s.attemptNumber)).filter
        (·.1 = customerId)).map (·.2) := fun tables => by
    unfold attemptNumbers
    rw [List.filter_map, List.map_map]
    rfl
  rw [hnumbers, hnumbers]
  congr 2
  exact Table.map_set h rfl rfl

theorem attemptNumbers_verdict {now : Instant} {providerSessionId stripeStatus : String}
    {result : Option Uuid}
    (h : (applyVerificationVerdict maxAttempts now providerSessionId stripeStatus).run tables =
      .ok (result, tables')) :
    attemptNumbers tables' customerId = attemptNumbers tables customerId := by
  obtain ⟨session, hfind, status, -, hpending | hresolved⟩ := applyVerificationVerdict_ok.mp h
  · rw [hpending.2.2]
  · rw [hresolved.2.2.2.2]
    exact attemptNumbers_resolved (Table.find_eq_some.mp hfind).1

theorem attemptNumbers_poll {kycPort : Option KycPort} {now : Instant} {result : Option Uuid}
    (h : (syncLatestVerification maxAttempts kycPort now c).run tables = .ok (result, tables')) :
    attemptNumbers tables' customerId = attemptNumbers tables customerId := by
  obtain ⟨latest, _, hread, h⟩ := bind_ok.mp h
  obtain ⟨-, rfl⟩ := read_ok.mp hread
  cases latest with
  | none => rw [(pure_ok.mp h).2]
  | some session =>
    dsimp only at h
    split_ifs at h
    · rw [(pure_ok.mp h).2]
    · simp only [bind_ok, lift_ok] at h
      obtain ⟨port, _, ⟨-, rfl⟩, status, _, ⟨-, rfl⟩, hverdict⟩ := h
      exact attemptNumbers_verdict hverdict

/-! ### The runs -/

theorem latestForCustomer_of_numbered {n : ℕ}
    (h : attemptNumbers tables customerId = upTo n) :
    (n = 0 ∧ latestForCustomer tables customerId = none) ∨
      ∃ latest, latestForCustomer tables customerId = some latest ∧ latest.attemptNumber = n := by
  have hmem : ∀ k : ℤ, k ∈ attemptNumbers tables customerId ↔ 1 ≤ k ∧ k ≤ n := fun k => by
    rw [h, upTo, List.mem_map]
    constructor
    · rintro ⟨i, hi, rfl⟩
      have := List.mem_range.mp hi
      omega
    · rintro ⟨hpos, hle⟩
      exact ⟨(k - 1).toNat, List.mem_range.mpr (by omega), by omega⟩
  cases hlatest : latestForCustomer tables customerId with
  | none =>
    have hnil := List.argmax_eq_none.mp hlatest
    have hno : attemptNumbers tables customerId = [] := by rw [attemptNumbers, hnil]; rfl
    have hn := congrArg List.length (hno.symm.trans h)
    rw [upTo, List.length_map, List.length_range] at hn
    exact Or.inl ⟨hn.symm, rfl⟩
  | some latest =>
    refine Or.inr ⟨latest, rfl, le_antisymm ?_ ?_⟩
    · exact ((hmem _).mp (List.mem_map_of_mem (List.argmax_mem hlatest))).2
    · have hbounds := (hmem _).mp (List.mem_map_of_mem (List.argmax_mem hlatest))
      obtain ⟨last, hlast, hnumber⟩ := List.mem_map.mp ((hmem n).mpr ⟨by omega, le_rfl⟩)
      have hle := List.le_of_mem_argmax hlast hlatest
      omega

/-- A start that the code lets through adds the next number. -/
theorem attemptNumbers_start_of_numbered {n : ℕ} {kycPort : Option KycPort}
    {handle : KycSessionHandle}
    (h : attemptNumbers tables customerId = upTo n)
    (hrun : (startVerification maxAttempts kycPort customerId).run tables = .ok (handle, tables')) :
    attemptNumbers tables' customerId = upTo (n + 1) := by
  have hnext : (newAttempt tables customerId handle.providerSessionId).attemptNumber = n + 1 := by
    rcases latestForCustomer_of_numbered h with ⟨rfl, hlatest⟩ | ⟨latest, hlatest, hnumber⟩
    · simp [newAttempt, hlatest]
    · simp [newAttempt, hlatest, hnumber]
  rw [attemptNumbers_start hrun, if_pos rfl, h, hnext, upTo, upTo, List.range_succ, List.map_append]
  rfl

/-- The limit does not go below the attempts there are. -/
theorem withinLimit_iff {n : ℕ}
    (h : attemptNumbers tables customerId = upTo n) :
    WithinLimit maxAttempts customerId tables ↔ n ≤ maxAttempts.toNat := by
  constructor
  · rintro ⟨m, hm, hle⟩
    have hlength := congrArg List.length (h.symm.trans hm)
    simp only [upTo, List.length_map, List.length_range] at hlength
    omega
  · exact fun hle => ⟨n, h, hle⟩

theorem exists_of_createdSession {kycPort : Option KycPort}
    (h : ∃ id ∈ createdSession kycPort customerId, ¬ tables.kycSessions.Has id) :
    ∃ port handle, kycPort = some port ∧ port.createVerificationSession customerId = .ok handle ∧
      ¬ tables.kycSessions.Has handle.providerSessionId := by
  obtain ⟨id, hid, hnew⟩ := h
  unfold createdSession at hid
  split at hid
  · cases hid
  · rename_i port
    split at hid
    · cases hid
    · rename_i handle hhandle
      cases hid
      exact ⟨port, handle, rfl, hhandle, hnew⟩

theorem withinLimit_start_iff {n : ℕ} {kycPort : Option KycPort}
    (hn : attemptNumbers tables customerId = upTo n) (hle : n ≤ maxAttempts.toNat) :
    WithinLimit maxAttempts customerId
        (atomically ((KycStep.start kycPort customerId).perform maxAttempts) tables) ↔
      (KycStep.start kycPort customerId).Guarded maxAttempts customerId tables := by
  rcases atomically_cases ((KycStep.start kycPort customerId).perform maxAttempts) tables with
    ⟨_, tables', hrun, hafter⟩ | ⟨_, herror, hafter⟩
  · obtain ⟨handle, _, hstart, hpure⟩ := bind_ok.mp hrun
    obtain ⟨-, rfl⟩ := pure_ok.mp hpure
    obtain ⟨hhas, hlock, hport, t, hinsert, -⟩ := startVerification_ok.mp hstart
    have hcreated : ∃ id ∈ createdSession kycPort customerId, ¬ tables.kycSessions.Has id := by
      obtain ⟨port, rfl, hhandle⟩ := hport
      exact ⟨handle.providerSessionId, by simp [createdSession, hhandle],
        (Table.insert_eq_some.mp hinsert).1⟩
    rw [hafter, withinLimit_iff (attemptNumbers_start_of_numbered hn hstart), KycStep.Guarded]
    simp only [hhas, hcreated, true_imp_iff]
    rcases latestForCustomer_of_numbered hn with ⟨rfl, hlatest⟩ | ⟨latest, hlatest, hnumber⟩
    · rw [hlatest]
      omega
    · have hopen : kycStatus tables customerId = some .rejected →
          latest.attemptNumber < maxAttempts := fun hrejected =>
        not_le.mp fun hge => hlock ⟨hrejected, latest, hlatest, hge⟩
      rw [hlatest]
      dsimp only
      rw [or_iff_left_of_imp hopen, hnumber]
      omega
  · rw [hafter]
    refine iff_of_true ⟨n, hn, hle⟩ fun _ hhas hcreated => ?_
    -- whatever the provider lets through is stopped by the lock alone
    have hlocked : Locked maxAttempts tables customerId := by
      by_contra hlock
      obtain ⟨port, handle, rfl, hhandle, hnew⟩ := exists_of_createdSession hcreated
      obtain ⟨t, hinsert⟩ :=
        Table.exists_insert (r := newAttempt tables customerId handle.providerSessionId) hnew
      cases herror.symm.trans (bind_ok.mpr ⟨handle, _, startVerification_ok.mpr
        ⟨hhas, hlock, ⟨port, rfl, hhandle⟩, t, hinsert, rfl⟩, rfl⟩)
    obtain ⟨hrejected, latest, hlatest, -⟩ := hlocked
    rw [Option.mem_def.mp hlatest]
    exact Or.inr hrejected

theorem frames_perform {step : KycStep} (h : ∀ kycPort, step ≠ .start kycPort customerId) :
    Frames (attemptNumbers · customerId) (step.perform maxAttempts) := by
  cases step with
  | start kycPort c =>
    have hc : c ≠ customerId := fun heq => h kycPort (heq ▸ rfl)
    refine frames_bind (frames_of fun _ _ _ hstart => ?_) fun _ => frames_pure _
    rw [attemptNumbers_start hstart, if_neg hc, List.append_nil]
  | verdict v =>
    exact frames_bind (frames_of fun _ _ _ hrun => attemptNumbers_verdict hrun) fun _ => frames_pure _
  | poll kycPort now c =>
    exact frames_bind (frames_of fun _ _ _ hrun => attemptNumbers_poll hrun) fun _ => frames_pure _

/-- **One step** keeps the attempts within the limit exactly when it is guarded. -/
theorem withinLimit_perform_iff (step : KycStep) (h : WithinLimit maxAttempts customerId tables) :
    WithinLimit maxAttempts customerId (atomically (step.perform maxAttempts) tables) ↔
      step.Guarded maxAttempts customerId tables := by
  obtain ⟨n, hn, hle⟩ := h
  by_cases hstart : ∃ kycPort, step = .start kycPort customerId
  · obtain ⟨kycPort, rfl⟩ := hstart
    exact withinLimit_start_iff hn hle
  · have hother : ∀ kycPort, step ≠ .start kycPort customerId := fun kycPort heq => hstart ⟨_, heq⟩
    refine iff_of_true ⟨n, ?_, hle⟩ ?_
    · exact (frames_perform hother _).atomically hn
    · cases step with
      | start kycPort c => exact fun heq => absurd (heq ▸ rfl) (hother kycPort)
      | verdict v => trivial
      | poll kycPort now c => trivial

/-- **The limit of the attempts holds** in a run exactly when every start of the customer is
guarded. -/
theorem attempt_limit_iff (h : attemptNumbers tables customerId = []) (steps : List KycStep) :
    RunMeets (KycStep.perform maxAttempts) (fun tables step =>
        WithinLimit maxAttempts customerId (atomically (step.perform maxAttempts) tables)) steps tables ↔
      RunMeets (KycStep.perform maxAttempts)
        (fun tables step => step.Guarded maxAttempts customerId tables) steps tables :=
  runMeets_after_iff (fun _ step hbefore => withinLimit_perform_iff step hbefore)
    ⟨0, h, Nat.zero_le _⟩

end

/-- A start of customer 1, for which the provider creates the session `id`. -/
def startOf (id : String) : KycStep :=
  .start (some ⟨fun _ => .ok ⟨id, "secret"⟩, fun _ => .ok "processing"⟩) 1

/-- Customer 1, who has not started yet. -/
def notStarted : KycTables := attempted []

/-- The third attempt is rejected, and the fourth start is refused. -/
theorem attempt_limit_locked :
    RunMeets (KycStep.perform 3) (fun tables step =>
        WithinLimit 3 1 (atomically (step.perform 3) tables))
      [startOf "a", .verdict ⟨"a", "requires_input", 1⟩, startOf "b", startOf "c",
        .verdict ⟨"c", "requires_input", 2⟩, startOf "d"] notStarted :=
  (attempt_limit_iff (by decide) _).mpr (by decide)

/-- **Pending attempts are not counted**: a customer who abandons his attempts starts a fourth one
under a limit of three. -/
theorem abandoned_attempts_exceed_limit :
    ¬ ∀ (maxAttempts : ℤ) (tables : KycTables) (customerId : Uuid), 0 < maxAttempts →
      attemptNumbers tables customerId = [] → ∀ steps : List KycStep,
        WithinLimit maxAttempts customerId (runs (KycStep.perform maxAttempts) steps tables) := by
  intro h
  obtain ⟨n, hn, hle⟩ := h 3 notStarted 1 (by decide) (by decide)
    [startOf "a", startOf "b", startOf "c", startOf "d"]
  have hfour : attemptNumbers (runs (KycStep.perform 3)
      [startOf "a", startOf "b", startOf "c", startOf "d"] notStarted) 1 = upTo 4 := by decide
  have hlength := congrArg List.length (hfour.symm.trans hn)
  simp only [upTo, List.length_map, List.length_range] at hlength
  have hmax : (3 : ℤ).toNat = 3 := rfl
  omega

end Trueup.Identity
