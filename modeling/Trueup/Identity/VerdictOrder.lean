import Trueup.Identity.KycService

/-! # The order of the verdicts

The verdicts for the attempts of a customer come in any order, and each sets the status of the
customer without a look at the other attempts.

* `status_afterVerdicts`: the status after some verdicts is that of the last one with an effect.
* `verdict_order_iff`: the order does not matter, and no verdict of an older attempt overrides the
  approval of a newer one, exactly when all verdicts with an effect say the same, and a rejection
  among them is of no attempt older than one that has been approved. -/

namespace Trueup.Identity

open Trueup.Core Trueup.Models Trueup.Lib Trueup.Lib.Transaction

variable {maxAttempts : ℤ} {tables : KycTables} {customerId : Uuid}

/-- The tables after some verdicts, in order. -/
def afterVerdicts (maxAttempts : ℤ) (tables : KycTables) (verdicts : List Verdict) : KycTables :=
  verdicts.foldl (afterVerdict maxAttempts) tables

/-- The session ids of the verdicts are distinct: there is at most one verdict for each session. -/
def OnePerSession (verdicts : List Verdict) : Prop :=
  verdicts.Pairwise fun earlier later => earlier.providerSessionId ≠ later.providerSessionId

/-- The `kyc_status` of a customer. -/
def kycStatus (tables : KycTables) (customerId : Uuid) : Option KycStatus :=
  (tables.customers.find customerId).map (·.kycStatus)

/-- What a verdict says of the customer, when it has an effect on one of his attempts. -/
def outcome (maxAttempts : ℤ) (tables : KycTables) (customerId : Uuid) (verdict : Verdict) :
    Option KycSessionStatus :=
  ((effect maxAttempts tables verdict).filter (·.1.customerId = customerId)).map (·.2)

/-- The customer has an approved attempt that is newer than this one. -/
def NewerApproved (tables : KycTables) (session : KycSession) : Prop :=
  ∃ newer ∈ tables.kycSessions, newer.customerId = session.customerId ∧ newer.status = .approved ∧
    session.attemptNumber < newer.attemptNumber

/-- The verdict, for an older attempt of the customer, takes back the approval of a newer one. -/
def Overrides (maxAttempts : ℤ) (tables : KycTables) (customerId : Uuid) (verdict : Verdict) : Prop :=
  kycStatus tables customerId = some .approved ∧
    (∃ session, tables.kycSessions.find verdict.providerSessionId = some session ∧
      session.customerId = customerId ∧ NewerApproved tables session) ∧
    kycStatus (afterVerdict maxAttempts tables verdict) customerId ≠ some .approved

/-! ### One verdict -/

theorem outcome_eq_some {verdict : Verdict} {status : KycSessionStatus} :
    outcome maxAttempts tables customerId verdict = some status ↔
      ∃ session, effect maxAttempts tables verdict = some (session, status) ∧
        session.customerId = customerId := by
  unfold outcome
  rw [Option.map_eq_some_iff]
  constructor
  · rintro ⟨⟨session, status⟩, hfilter, rfl⟩
    obtain ⟨heffect, hcustomer⟩ := Option.filter_eq_some_iff.mp hfilter
    exact ⟨session, heffect, of_decide_eq_true hcustomer⟩
  · rintro ⟨session, heffect, hcustomer⟩
    exact ⟨(session, status), Option.filter_eq_some_iff.mpr ⟨heffect, decide_eq_true hcustomer⟩, rfl⟩

theorem kycStatus_resolved {session : KycSession} {status : KycSessionStatus} {now : Instant}
    (hcustomer : tables.customers.Has session.customerId) (customerId : Uuid) :
    kycStatus (tables.resolved session status now) customerId =
      if session.customerId = customerId then some (kycStatusOf status)
      else kycStatus tables customerId := by
  obtain ⟨customer, hfind⟩ :=
    Option.ne_none_iff_exists'.mp fun hnone => Table.find_eq_none.mp hnone hcustomer
  obtain ⟨hmem, hid⟩ := Table.find_eq_some.mp hfind
  have hhas : tables.customers.Has customer.id := Table.has_of_mem hmem
  unfold kycStatus KycTables.resolved
  rw [hfind]
  dsimp only
  rw [Table.find_set (r := ({ customer with kycStatus := kycStatusOf status } : Customer)) hhas, hid]
  split_ifs <;> rfl

theorem kycStatus_afterVerdict (verdict : Verdict) :
    kycStatus (afterVerdict maxAttempts tables verdict) customerId =
      match outcome maxAttempts tables customerId verdict with
      | none => kycStatus tables customerId
      | some status => some (kycStatusOf status) := by
  rw [afterVerdict_eq]
  cases heffect : effect maxAttempts tables verdict with
  | none => simp [outcome, heffect]
  | some resolved =>
    obtain ⟨session, status⟩ := resolved
    obtain ⟨-, -, -, -, hcustomer⟩ := effect_eq_some.mp heffect
    simp only [kycStatus_resolved hcustomer]
    by_cases hsame : session.customerId = customerId
    · rw [if_pos hsame, outcome_eq_some.mpr ⟨session, heffect, hsame⟩]
    · have hnone : outcome maxAttempts tables customerId verdict = none := by
        simp [outcome, heffect, hsame, Option.filter]
      rw [if_neg hsame, hnone]

theorem customers_afterVerdict (verdict : Verdict) (customerId : Uuid) :
    (afterVerdict maxAttempts tables verdict).customers.Has customerId ↔
      tables.customers.Has customerId := by
  rw [afterVerdict_eq]
  cases heffect : effect maxAttempts tables verdict with
  | none => rfl
  | some resolved =>
    obtain ⟨session, status⟩ := resolved
    simp only [KycTables.resolved]
    split
    · rfl
    · exact Table.has_set _

theorem kycSessions_afterVerdict {verdict : Verdict} {session : KycSession} {status : KycSessionStatus}
    (heffect : effect maxAttempts tables verdict = some (session, status)) :
    (afterVerdict maxAttempts tables verdict).kycSessions =
      tables.kycSessions.set { session with status, resolvedAt := some verdict.now } := by
  rw [afterVerdict_eq, heffect]
  rfl

theorem effect_afterVerdict {verdict other : Verdict}
    (hne : verdict.providerSessionId ≠ other.providerSessionId) :
    effect maxAttempts (afterVerdict maxAttempts tables verdict) other =
      effect maxAttempts tables other := by
  have hfind : (afterVerdict maxAttempts tables verdict).kycSessions.find other.providerSessionId =
      tables.kycSessions.find other.providerSessionId := by
    cases heffect : effect maxAttempts tables verdict with
    | none => rw [afterVerdict_eq, heffect]
    | some resolved =>
      obtain ⟨session, status⟩ := resolved
      obtain ⟨hmem, hid⟩ := Table.find_eq_some.mp (effect_eq_some.mp heffect).1
      have hhas : tables.kycSessions.Has session.providerSessionId := Table.has_of_mem hmem
      rw [kycSessions_afterVerdict heffect,
        Table.find_set (r := ({ session with status, resolvedAt := some verdict.now } : KycSession)) hhas,
        if_neg]
      exact fun heq => hne (hid.symm.trans heq)
  unfold effect
  simp only [hfind, customers_afterVerdict]

/-- An attempt approved after a verdict was so before, or is approved by it. -/
theorem approved_afterVerdict {verdict : Verdict} {session : KycSession}
    (hmem : session ∈ (afterVerdict maxAttempts tables verdict).kycSessions)
    (happroved : session.status = .approved) : session ∈ tables.kycSessions ∨
      outcome maxAttempts tables session.customerId verdict = some .approved := by
  cases heffect : effect maxAttempts tables verdict with
  | none =>
    rw [afterVerdict_eq, heffect] at hmem
    exact Or.inl hmem
  | some resolved =>
    obtain ⟨pending, status⟩ := resolved
    rw [kycSessions_afterVerdict heffect] at hmem
    rcases Table.mem_set.mp hmem with ⟨hother, -⟩ | ⟨rfl, -⟩
    · exact Or.inl hother
    · obtain rfl : status = .approved := happroved
      exact Or.inr (outcome_eq_some.mpr ⟨pending, heffect, rfl⟩)

/-! ### Some verdicts -/

theorem effect_afterVerdicts {verdicts : List Verdict} {verdict : Verdict}
    (hne : ∀ earlier ∈ verdicts, earlier.providerSessionId ≠ verdict.providerSessionId) :
    effect maxAttempts (afterVerdicts maxAttempts tables verdicts) verdict =
      effect maxAttempts tables verdict := by
  induction verdicts generalizing tables with
  | nil => rfl
  | cons first rest ih =>
    obtain ⟨hfirst, hrest⟩ := List.forall_mem_cons.mp hne
    exact (ih hrest).trans (effect_afterVerdict hfirst)

theorem outcome_afterVerdicts {verdicts : List Verdict} {verdict : Verdict}
    (hne : ∀ earlier ∈ verdicts, earlier.providerSessionId ≠ verdict.providerSessionId) :
    outcome maxAttempts (afterVerdicts maxAttempts tables verdicts) customerId verdict =
      outcome maxAttempts tables customerId verdict := by
  unfold outcome
  rw [effect_afterVerdicts hne]

theorem OnePerSession.perm {verdicts verdicts' : List Verdict} (honce : OnePerSession verdicts)
    (hperm : verdicts.Perm verdicts') : OnePerSession verdicts' :=
  hperm.pairwise honce fun hne => hne.symm

/-- **The status after some verdicts** is that of the last one with an effect. -/
theorem status_afterVerdicts {verdicts : List Verdict} (honce : OnePerSession verdicts) :
    kycStatus (afterVerdicts maxAttempts tables verdicts) customerId =
      match (verdicts.filterMap (outcome maxAttempts tables customerId)).getLast? with
      | none => kycStatus tables customerId
      | some status => some (kycStatusOf status) := by
  induction verdicts using List.reverseRecOn with
  | nil => rfl
  | append_singleton earlier verdict ih =>
    obtain ⟨hearlier, -, hne⟩ := List.pairwise_append.mp honce
    have hnew : ∀ v ∈ earlier, v.providerSessionId ≠ verdict.providerSessionId :=
      fun v hv => hne v hv verdict (List.mem_singleton_self _)
    rw [afterVerdicts, List.foldl_append, List.foldl_cons, List.foldl_nil, kycStatus_afterVerdict]
    change (match outcome maxAttempts (afterVerdicts maxAttempts tables earlier) customerId verdict with
      | none => kycStatus (afterVerdicts maxAttempts tables earlier) customerId
      | some status => some (kycStatusOf status)) = _
    rw [outcome_afterVerdicts hnew, ih hearlier, List.filterMap_append]
    cases houtcome : outcome maxAttempts tables customerId verdict <;>
      simp [houtcome]

/-- When all outcomes agree, they are what the status becomes. -/
theorem status_of_agree {verdicts : List Verdict} {status : KycSessionStatus}
    (honce : OnePerSession verdicts)
    (hagree : ∀ verdict ∈ verdicts, ∀ status' ∈ outcome maxAttempts tables customerId verdict,
      status' = status) :
    kycStatus (afterVerdicts maxAttempts tables verdicts) customerId =
      if ∃ verdict ∈ verdicts, outcome maxAttempts tables customerId verdict = some status then
        some (kycStatusOf status)
      else kycStatus tables customerId := by
  rw [status_afterVerdicts honce]
  cases hlast : (verdicts.filterMap (outcome maxAttempts tables customerId)).getLast? with
  | none =>
    rw [List.getLast?_eq_none_iff, List.filterMap_eq_nil_iff] at hlast
    rw [if_neg]
    rintro ⟨verdict, hmem, hsome⟩
    cases (hlast verdict hmem).symm.trans hsome
  | some last =>
    obtain ⟨verdict, hmem, hsome⟩ := List.mem_filterMap.mp (List.mem_of_getLast? hlast)
    obtain rfl := hagree verdict hmem last hsome
    rw [if_pos ⟨verdict, hmem, hsome⟩]

theorem approved_afterVerdicts {verdicts : List Verdict} (honce : OnePerSession verdicts)
    {session : KycSession} (hmem : session ∈ (afterVerdicts maxAttempts tables verdicts).kycSessions)
    (happroved : session.status = .approved) : session ∈ tables.kycSessions ∨
      ∃ verdict ∈ verdicts, outcome maxAttempts tables session.customerId verdict = some .approved := by
  induction verdicts using List.reverseRecOn with
  | nil => exact Or.inl hmem
  | append_singleton earlier verdict ih =>
    obtain ⟨hearlier, -, hne⟩ := List.pairwise_append.mp honce
    have hnew : ∀ v ∈ earlier, v.providerSessionId ≠ verdict.providerSessionId :=
      fun v hv => hne v hv verdict (List.mem_singleton_self _)
    rw [afterVerdicts, List.foldl_append] at hmem
    rcases approved_afterVerdict hmem happroved with hbefore | houtcome
    · rcases ih hearlier hbefore with hinitial | ⟨v, hv, houtcome⟩
      · exact Or.inl hinitial
      · exact Or.inr ⟨v, List.mem_append_left _ hv, houtcome⟩
    · rw [← afterVerdicts, outcome_afterVerdicts hnew] at houtcome
      exact Or.inr ⟨verdict, List.mem_append_right _ (List.mem_singleton_self _), houtcome⟩

/-! ### Any order -/

/-- The status after the verdicts is one and the same for any two orders of them. -/
def AnyOrder (maxAttempts : ℤ) (tables : KycTables) (customerId : Uuid) (verdicts : List Verdict) : Prop :=
  ∀ first second : List Verdict, first.Perm verdicts → second.Perm verdicts →
    kycStatus (afterVerdicts maxAttempts tables first) customerId =
      kycStatus (afterVerdicts maxAttempts tables second) customerId

/-- In no order of the verdicts does one of them take back the approval of a newer attempt. -/
def NeverOverrides (maxAttempts : ℤ) (tables : KycTables) (customerId : Uuid) (verdicts : List Verdict) :
    Prop :=
  ∀ earlier verdict later, (earlier ++ verdict :: later).Perm verdicts →
    ¬ Overrides maxAttempts (afterVerdicts maxAttempts tables earlier) customerId verdict

/-- All verdicts with an effect on an attempt of the customer say the same of him. -/
def Agree (maxAttempts : ℤ) (tables : KycTables) (customerId : Uuid) (verdicts : List Verdict) : Prop :=
  ∀ first ∈ verdicts, ∀ second ∈ verdicts,
    ∀ status ∈ outcome maxAttempts tables customerId first,
    ∀ status' ∈ outcome maxAttempts tables customerId second, status = status'

/-- The customer is approved, and one of the verdicts rejects an attempt older than an approved
one. -/
def RejectsOlder (maxAttempts : ℤ) (tables : KycTables) (customerId : Uuid) (verdicts : List Verdict) :
    Prop :=
  kycStatus tables customerId = some .approved ∧ ∃ verdict ∈ verdicts, ∃ session,
    effect maxAttempts tables verdict = some (session, .rejected) ∧ session.customerId = customerId ∧
      NewerApproved tables session

theorem outcome_terminal {verdict : Verdict} {status : KycSessionStatus}
    (houtcome : outcome maxAttempts tables customerId verdict = some status) : status ≠ .pending := by
  obtain ⟨session, heffect, -⟩ := outcome_eq_some.mp houtcome
  exact (effect_eq_some.mp heffect).2.2.1

theorem kycStatusOf_injective {status status' : KycSessionStatus} (hterminal : status ≠ .pending)
    (hterminal' : status' ≠ .pending) (h : kycStatusOf status = kycStatusOf status') :
    status = status' := by
  cases status <;> cases status' <;> simp_all [kycStatusOf]

theorem status_of_last {earlier : List Verdict} {verdict : Verdict} {status : KycSessionStatus}
    (honce : OnePerSession (earlier ++ [verdict]))
    (houtcome : outcome maxAttempts tables customerId verdict = some status) :
    kycStatus (afterVerdicts maxAttempts tables (earlier ++ [verdict])) customerId =
      some (kycStatusOf status) := by
  rw [status_afterVerdicts honce, List.filterMap_append]
  simp [houtcome]

theorem exists_last {verdicts : List Verdict} {verdict : Verdict} (hmem : verdict ∈ verdicts) :
    ∃ earlier, (earlier ++ [verdict]).Perm verdicts := by
  obtain ⟨front, back, rfl⟩ := List.append_of_mem hmem
  refine ⟨front ++ back, ?_⟩
  rw [List.append_assoc]
  exact (List.perm_append_singleton verdict back).append_left front

/-- An order that decides the status alone has verdicts that agree. -/
theorem AnyOrder.agree {verdicts : List Verdict} (honce : OnePerSession verdicts)
    (hany : AnyOrder maxAttempts tables customerId verdicts) :
    Agree maxAttempts tables customerId verdicts := by
  intro first hfirst second hsecond status hstatus status' hstatus'
  obtain ⟨before, hbefore⟩ := exists_last hfirst
  obtain ⟨before', hbefore'⟩ := exists_last hsecond
  have hsame := hany _ _ hbefore hbefore'
  rw [status_of_last (honce.perm hbefore.symm) hstatus,
    status_of_last (honce.perm hbefore'.symm) hstatus'] at hsame
  exact kycStatusOf_injective (outcome_terminal hstatus) (outcome_terminal hstatus')
    (Option.some.inj hsame)

theorem Agree.exists_status {verdicts : List Verdict}
    (hagree : Agree maxAttempts tables customerId verdicts) :
    ∃ status, ∀ verdict ∈ verdicts, ∀ status' ∈ outcome maxAttempts tables customerId verdict,
      status' = status := by
  by_cases hsome : ∃ verdict ∈ verdicts, ∃ status,
      outcome maxAttempts tables customerId verdict = some status
  · obtain ⟨verdict, hmem, status, hstatus⟩ := hsome
    exact ⟨status, fun other hother status' hstatus' =>
      hagree other hother verdict hmem status' hstatus' status hstatus⟩
  · exact ⟨.pending, fun verdict hmem status hstatus => absurd ⟨verdict, hmem, status, hstatus⟩ hsome⟩

theorem Agree.anyOrder {verdicts : List Verdict} (honce : OnePerSession verdicts)
    (hagree : Agree maxAttempts tables customerId verdicts) :
    AnyOrder maxAttempts tables customerId verdicts := by
  intro first second hfirst hsecond
  obtain ⟨status, hstatus⟩ := hagree.exists_status
  rw [status_of_agree (honce.perm hfirst.symm) fun v hv => hstatus v (hfirst.mem_iff.mp hv),
    status_of_agree (honce.perm hsecond.symm) fun v hv => hstatus v (hsecond.mem_iff.mp hv)]
  simp only [hfirst.mem_iff, hsecond.mem_iff]

/-- A verdict that takes back an approval has the outcome `rejected`, whatever came before it. -/
theorem Overrides.effect {earlier : List Verdict} {verdict : Verdict}
    (hne : ∀ v ∈ earlier, v.providerSessionId ≠ verdict.providerSessionId)
    (hoverrides : Overrides maxAttempts (afterVerdicts maxAttempts tables earlier) customerId verdict) :
    ∃ session, effect maxAttempts tables verdict = some (session, .rejected) ∧
      session.customerId = customerId ∧
      NewerApproved (afterVerdicts maxAttempts tables earlier) session := by
  obtain ⟨happroved, ⟨session, hfind, hcustomer, hnewer⟩, hafter⟩ := hoverrides
  rw [kycStatus_afterVerdict] at hafter
  cases houtcome : outcome maxAttempts (afterVerdicts maxAttempts tables earlier) customerId verdict with
  | none =>
    rw [houtcome] at hafter
    exact absurd happroved hafter
  | some status =>
    rw [houtcome] at hafter
    obtain ⟨resolved, heffect, -⟩ := outcome_eq_some.mp houtcome
    obtain ⟨hfound, -, hterminal, -⟩ := effect_eq_some.mp heffect
    obtain rfl := Option.some.inj (hfound.symm.trans hfind)
    rw [effect_afterVerdicts hne] at heffect
    have hrejected : status = .rejected := by
      cases status with
      | pending => exact absurd rfl hterminal
      | approved => exact absurd rfl hafter
      | rejected => rfl
    exact ⟨resolved, hrejected ▸ heffect, hcustomer, hnewer⟩

/-- **When the order of the verdicts does not matter**, and none takes back the approval of a newer
attempt: when those with an effect say the same, and they reject no attempt older than an approved
one. -/
theorem verdict_order_iff (maxAttempts : ℤ) (tables : KycTables) (customerId : Uuid)
    (verdicts : List Verdict) (honce : OnePerSession verdicts) :
    (AnyOrder maxAttempts tables customerId verdicts ∧
        NeverOverrides maxAttempts tables customerId verdicts) ↔
      (Agree maxAttempts tables customerId verdicts ∧
        ¬ RejectsOlder maxAttempts tables customerId verdicts) := by
  constructor
  · rintro ⟨hany, hnever⟩
    refine ⟨hany.agree honce, ?_⟩
    rintro ⟨happroved, verdict, hmem, session, heffect, hcustomer, hnewer⟩
    obtain ⟨front, back, rfl⟩ := List.append_of_mem hmem
    refine hnever [] verdict (front ++ back) List.perm_middle.symm ⟨happroved, ?_, ?_⟩
    · exact ⟨session, (effect_eq_some.mp heffect).1, hcustomer, hnewer⟩
    · change kycStatus (afterVerdict maxAttempts tables verdict) customerId ≠ _
      rw [kycStatus_afterVerdict, outcome_eq_some.mpr ⟨session, heffect, hcustomer⟩]
      simp [kycStatusOf]
  · rintro ⟨hagree, holder⟩
    refine ⟨hagree.anyOrder honce, ?_⟩
    intro earlier verdict later hperm hoverrides
    obtain ⟨hearlier, -, hne⟩ := List.pairwise_append.mp (honce.perm hperm.symm)
    have hmem : verdict ∈ verdicts :=
      hperm.mem_iff.mp (List.mem_append_right _ List.mem_cons_self)
    have hmemEarlier : ∀ v ∈ earlier, v ∈ verdicts :=
      fun v hv => hperm.mem_iff.mp (List.mem_append_left _ hv)
    obtain ⟨session, heffect, hcustomer, newer, hnewer, hsame, happroved, hlt⟩ :=
      hoverrides.effect fun v hv => hne v hv verdict List.mem_cons_self
    have hrejected : outcome maxAttempts tables customerId verdict = some .rejected :=
      outcome_eq_some.mpr ⟨session, heffect, hcustomer⟩
    -- no verdict approves an attempt, so the approvals are there from the start
    have hall : ∀ v ∈ earlier, ∀ status ∈ outcome maxAttempts tables customerId v,
        status = .rejected :=
      fun v hv status hstatus => hagree v (hmemEarlier v hv) verdict hmem status hstatus _ hrejected
    have hinitial : kycStatus tables customerId = some .approved := by
      have hstatus := hoverrides.1
      rw [status_of_agree hearlier hall] at hstatus
      split_ifs at hstatus with hsome
      · cases hstatus
      · exact hstatus
    refine holder ⟨hinitial, verdict, hmem, session, heffect, hcustomer, newer, ?_, hsame, happroved,
      hlt⟩
    rcases approved_afterVerdicts hearlier hnewer happroved with hbefore | ⟨v, hv, houtcome⟩
    · exact hbefore
    · rw [hsame, hcustomer] at houtcome
      cases hall v hv _ houtcome

/-- The provider's client, when it creates this session. -/
def portOf (providerSessionId : String) : KycPort where
  createVerificationSession := fun _ => .ok ⟨providerSessionId, "secret"⟩
  retrieveVerificationSession := fun _ => .error .providerError

/-- Customer 1, and the attempts that he has started. -/
def attempted (sessions : List String) : KycTables :=
  sessions.foldl (fun tables providerSessionId =>
      atomically (startVerification 3 (some (portOf providerSessionId)) 1) tables)
    ⟨⟨[⟨1, .pending, .pending⟩], by decide⟩, ∅⟩

/-- Two attempts are verified. -/
theorem verdict_order_iff_verified :
    AnyOrder 3 (attempted ["first", "second"]) 1 [⟨"first", "verified", 5⟩, ⟨"second", "verified", 6⟩] ∧
      NeverOverrides 3 (attempted ["first", "second"]) 1
        [⟨"first", "verified", 5⟩, ⟨"second", "verified", 6⟩] := by
  refine (verdict_order_iff 3 _ 1 _ (by simp [OnePerSession])).mpr ⟨?_, ?_⟩
  · have houtcome : ∀ verdict ∈ [(⟨"first", "verified", 5⟩ : Verdict), ⟨"second", "verified", 6⟩],
        outcome 3 (attempted ["first", "second"]) 1 verdict = some .approved := by decide
    intro first hfirst second hsecond status hstatus status' hstatus'
    cases (houtcome first hfirst).symm.trans hstatus
    cases (houtcome second hsecond).symm.trans hstatus'
    rfl
  · rintro ⟨happroved, -⟩
    revert happroved
    decide

/-- **The older attempt decides.** The second attempt is verified and then the first one, abandoned,
is canceled: the customer is rejected. In the other order he is approved. -/
theorem older_verdict_overrides :
    (attempted ["first", "second"]).kycSessions.rows =
        [⟨1, "first", .pending, 1, none⟩, ⟨1, "second", .pending, 2, none⟩] ∧
      kycStatus (afterVerdicts 3 (attempted ["first", "second"])
        [⟨"first", "canceled", 6⟩, ⟨"second", "verified", 5⟩]) 1 = some .approved ∧
      kycStatus (afterVerdicts 3 (attempted ["first", "second"])
        [⟨"second", "verified", 5⟩, ⟨"first", "canceled", 6⟩]) 1 = some .rejected ∧
      Overrides 3 (afterVerdicts 3 (attempted ["first", "second"]) [⟨"second", "verified", 5⟩]) 1
        ⟨"first", "canceled", 6⟩ := by
  refine ⟨by decide, by decide, by decide, by decide, ?_,
    by decide⟩
  exact ⟨⟨1, "first", .pending, 1, none⟩, by decide, rfl,
    ⟨1, "second", .approved, 2, some 5⟩, Table.mem_iff.mpr (by decide), rfl, rfl, by decide⟩

end Trueup.Identity
