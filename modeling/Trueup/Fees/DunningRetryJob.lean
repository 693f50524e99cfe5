import Trueup.Fees.ApplicableOutcomes

/-! # The retries of a run of the dunning job

`jobs/dunning_retry.py`: the due dunning states are read in one unit of work, in no particular
order, and `charge_fee` is called for one after the other.

* `Alike`: two states in which `charge_fee` does the same for a charge (`Alike.chargeFee`); it is so
  of the states before and after a call for another charge (`alike_chargeFee`).
* `retries_isolated_iff`: every due charge is attempted, with the effect of a run for it alone,
  exactly when no call but the last raises. -/

namespace Trueup.Fees.Charging

open Trueup.Core Trueup.Models Trueup.Lib Trueup.Lib.Transaction Trueup.Ledger

/-- `list_due`. -/
def listDue (db : Database) (now : Instant) : List DunningState :=
  db.dunningStates.rows.filter fun dunning =>
    dunning.status = .retrying ∧ dunning.nextRetryAt.instant ≤ now

/-- What has come of a run: the charges that were attempted, whether it raised, and the database. -/
structure JobOutcome where
  attempted : List Uuid
  result : Except ChargeFailure Unit
  db : Database

/-- The loop `for fee_charge_id in fee_charge_ids`; `env` is what the call for a charge reads. -/
def retryEach (env : Uuid → Env) (maxAttempts : ℕ) (provider : ChargeRequest → Answer) :
    List Uuid → Database → JobOutcome
  | [], db => ⟨[], .ok (), db⟩
  | id :: ids, db =>
    match chargeFee (env id) maxAttempts provider id db with
    | (.ok _, db) =>
      let rest := retryEach env maxAttempts provider ids db
      { rest with attempted := id :: rest.attempted }
    | (.error e, db) => ⟨[id], .error e, db⟩

/-- `DunningRetryJob.perform`, with the due states as the query returns them. -/
def perform (env : Uuid → Env) (maxAttempts : ℕ) (provider : ChargeRequest → Answer)
    (due : List DunningState) (db : Database) : JobOutcome :=
  retryEach env maxAttempts provider (due.map (·.feeChargeId)) db

/-! ### States in which a call does the same -/

/-- The charge has the Stripe id, or is about to get it. -/
def Carries (provider : ChargeRequest → Answer) (db : Database) (feeChargeId : Uuid) (s : String) :
    Prop :=
  (∃ charge, db.feeCharges.find feeChargeId = some charge ∧ charge.stripeChargeId = some s) ∨
    ∃ request handle, chargeRequest db feeChargeId = .ok (some request) ∧
      provider request = .handle handle ∧ handle.stripeChargeId = s

/-- The two states are alike in all that `charge_fee` looks at for a charge, whose Stripe ids are
among `own`. -/
structure Alike (env : Env) (own : String → Prop) (feeChargeId : Uuid) (db db₁ : Database) : Prop where
  charge : db₁.feeCharges.find feeChargeId = db.feeCharges.find feeChargeId
  dunning : db₁.dunningStates.find feeChargeId = db.dunningStates.find feeChargeId
  methods : db₁.paymentMethods = db.paymentMethods
  payable : ∀ c, (db₁.accountsOf c .feesAccruedPayable none).length ≤ 1 ↔
    (db.accountsOf c .feesAccruedPayable none).length ≤ 1
  collected : (houseAccountsOf db₁ .feeRevenueCollected).length ≤ 1 ↔
    (houseAccountsOf db .feeRevenueCollected).length ≤ 1
  entry : db₁.journalEntries.Has (env.uuid4 .journalEntry) ↔
    db.journalEntries.Has (env.uuid4 .journalEntry)
  free : ∀ row, row.id = feeChargeId → (∀ s ∈ row.stripeChargeId, own s) →
    (db₁.freeForCharge row = .ok () ↔ db.freeForCharge row = .ok ())

section Alike
variable {env : Env} {own : String → Prop} {maxAttempts : ℕ} {provider : ChargeRequest → Answer}
  {feeChargeId : Uuid} {db db₁ db₂ : Database}

theorem Alike.refl : Alike env own feeChargeId db db :=
  ⟨rfl, rfl, rfl, fun _ => Iff.rfl, Iff.rfl, Iff.rfl, fun _ _ _ => Iff.rfl⟩

theorem Alike.trans (h : Alike env own feeChargeId db db₁) (h' : Alike env own feeChargeId db₁ db₂) :
    Alike env own feeChargeId db db₂ :=
  ⟨h'.charge.trans h.charge, h'.dunning.trans h.dunning, h'.methods.trans h.methods,
    fun c => (h'.payable c).trans (h.payable c), h'.collected.trans h.collected,
    h'.entry.trans h.entry, fun row hid hown => (h'.free row hid hown).trans (h.free row hid hown)⟩

theorem Alike.chargeRows (h : Alike env own feeChargeId db db₁) :
    chargeRows db₁ feeChargeId = chargeRows db feeChargeId := by
  rw [Charging.chargeRows, Charging.chargeRows, h.charge, h.dunning]

theorem Alike.chargeRequest (h : Alike env own feeChargeId db db₁) :
    chargeRequest db₁ feeChargeId = chargeRequest db feeChargeId := by
  rw [Charging.chargeRequest, Charging.chargeRequest, getFeeCharge, getFeeCharge, h.charge, h.methods]

theorem commitOutcome_returns_iff {body : Tx Unit} {db : Database} :
    (commitOutcome body db).1 = .ok () ↔ ∃ db', body.run db = .ok ((), db') := by
  cases h : body.run db with
  | error e => simp [commitOutcome_of_error h]
  | ok r =>
    obtain ⟨u, db'⟩ := r
    simp [commitOutcome_of_ok h]

theorem commitOutcome_rows {body : Tx Unit} {rows : Option FeeCharge × Option DunningState}
    (hreturns : (∃ db', body.run db₁ = .ok ((), db')) ↔ ∃ db', body.run db = .ok ((), db'))
    (hrows₁ : ∀ db', body.run db₁ = .ok ((), db') → chargeRows db' feeChargeId = rows)
    (hrows : ∀ db', body.run db = .ok ((), db') → chargeRows db' feeChargeId = rows)
    (hkept : chargeRows db₁ feeChargeId = chargeRows db feeChargeId) :
    chargeRows (commitOutcome body db₁).2 feeChargeId =
      chargeRows (commitOutcome body db).2 feeChargeId := by
  cases h₁ : body.run db₁ with
  | error e₁ =>
    cases h : body.run db with
    | error e => rw [commitOutcome_of_error h₁, commitOutcome_of_error h]; exact hkept
    | ok r =>
      obtain ⟨_, hrun⟩ := hreturns.mpr ⟨r.2, h⟩
      rw [h₁] at hrun
      cases hrun
  | ok r₁ =>
    obtain ⟨_, hrun⟩ := hreturns.mp ⟨r₁.2, h₁⟩
    rw [commitOutcome_of_ok h₁, commitOutcome_of_ok hrun]
    exact (hrows₁ _ h₁).trans (hrows _ hrun).symm

theorem Alike.storable (h : Alike env own feeChargeId db db₁) {row : FeeCharge}
    (hid : row.id = feeChargeId) (hown : ∀ s ∈ row.stripeChargeId, own s) :
    Storable db₁ row ↔ Storable db row := by
  rw [Storable, Storable, h.free row hid hown]

theorem Alike.collectable (h : Alike env own feeChargeId db db₁) {charge : FeeCharge}
    {stripeChargeId : String} (hfind : db.feeCharges.find feeChargeId = some charge)
    (hown : own stripeChargeId) :
    Collectable env charge stripeChargeId db₁ ↔ Collectable env charge stripeChargeId db := by
  have hid : charge.id = feeChargeId := (Table.find_eq_some.mp hfind).2
  have hstorable : Storable db₁ (succeededCharge charge stripeChargeId (env.uuid4 .journalEntry)
      charge) ↔ Storable db (succeededCharge charge stripeChargeId (env.uuid4 .journalEntry) charge) :=
    h.storable hid fun s hs => by
      have hs' : some stripeChargeId = some s := by simpa [succeededCharge] using hs
      cases hs'
      exact hown
  have hfind₁ := h.charge.trans hfind
  constructor
  · rintro ⟨hpayable, hcollected, hentry, row, hrow, hrow'⟩
    rw [hid, hfind₁] at hrow
    cases hrow
    exact ⟨(h.payable _).mp hpayable, h.collected.mp hcollected, fun hhas => hentry (h.entry.mpr hhas),
      charge, by rw [hid]; exact hfind, hstorable.mp hrow'⟩
  · rintro ⟨hpayable, hcollected, hentry, row, hrow, hrow'⟩
    rw [hid, hfind] at hrow
    cases hrow
    exact ⟨(h.payable _).mpr hpayable, h.collected.mpr hcollected, fun hhas => hentry (h.entry.mp hhas),
      charge, by rw [hid]; exact hfind₁, hstorable.mpr hrow'⟩

/-- **A call does the same** in states that are alike. -/
theorem Alike.chargeFee (h : Alike env own feeChargeId db db₁) (maxAttempts : ℕ)
    (hown : ∀ s, Carries provider db feeChargeId s → own s) :
    ((chargeFee env maxAttempts provider feeChargeId db₁).1 = .ok () ↔
      (chargeFee env maxAttempts provider feeChargeId db).1 = .ok ()) ∧
    Charging.chargeRows (chargeFee env maxAttempts provider feeChargeId db₁).2 feeChargeId =
      Charging.chargeRows (chargeFee env maxAttempts provider feeChargeId db).2 feeChargeId := by
  simp only [Charging.chargeFee, h.chargeRequest]
  cases hrequest : Charging.chargeRequest db feeChargeId with
  | error e => exact ⟨by simp, h.chargeRows⟩
  | ok request =>
    cases request with
    | none => exact ⟨Iff.rfl, h.chargeRows⟩
    | some request =>
      obtain ⟨charge, method, hfind, hchargeable, -, -⟩ := chargeRequest_ok.mp hrequest
      have hid : charge.id = feeChargeId := (Table.find_eq_some.mp hfind).2
      have hfind₁ := h.charge.trans hfind
      dsimp only
      cases hanswer : provider request with
      | error => exact ⟨Iff.rfl, h.chargeRows⟩
      | declined =>
        have hopen : isClosed charge = false := isClosed_of_isChargeable hchargeable
        have hreturns : (∃ db', (applyChargeFailure env maxAttempts feeChargeId).run db₁ =
            .ok ((), db')) ↔ ∃ db', (applyChargeFailure env maxAttempts feeChargeId).run db =
            .ok ((), db') := by
          rw [applyChargeFailure_returns_iff hfind hopen, applyChargeFailure_returns_iff hfind₁ hopen,
            h.dunning, h.storable hid fun s hs => hown s (Or.inl ⟨charge, hfind, hs⟩)]
        refine ⟨?_, commitOutcome_rows hreturns (fun db' hrun => ?_)
          (fun db' hrun => (applyChargeFailure_rows hfind hopen hrun).2.1) h.chargeRows⟩
        · rw [applyAnswer, applyAnswer, commitOutcome_returns_iff, commitOutcome_returns_iff, hreturns]
        · rw [(applyChargeFailure_rows hfind₁ hopen hrun).2.1, h.dunning]
      | handle handle =>
        have hopen : charge.status ≠ .succeeded := not_succeeded_of_isChargeable hchargeable
        have hreturns : (∃ db', (applyChargeSuccess env feeChargeId handle.stripeChargeId).run db₁ =
            .ok ((), db')) ↔ ∃ db', (applyChargeSuccess env feeChargeId handle.stripeChargeId).run db =
            .ok ((), db') := by
          rw [applyChargeSuccess_returns_iff hfind hopen, applyChargeSuccess_returns_iff hfind₁ hopen,
            h.collectable hfind (hown _ (Or.inr ⟨request, handle, hrequest, hanswer, rfl⟩))]
        refine ⟨?_, commitOutcome_rows hreturns
          (fun db' hrun => (applyChargeSuccess_rows hfind₁ hopen hrun).1)
          (fun db' hrun => (applyChargeSuccess_rows hfind hopen hrun).1) h.chargeRows⟩
        rw [applyAnswer, applyAnswer, commitOutcome_returns_iff, commitOutcome_returns_iff, hreturns]

theorem freeForCharge_set {row row₀ row' : FeeCharge} (hfind : db.feeCharges.find row₀.id = some row₀)
    (hset : db₁.feeCharges = db.feeCharges.set row') (hid : row'.id = row₀.id)
    (hcustomer : row'.customerId = row₀.customerId)
    (hbegin : row'.billingPeriodStart = row₀.billingPeriodStart)
    (hend : row'.billingPeriodEnd = row₀.billingPeriodEnd) (hne : row₀.id ≠ row.id)
    (hstripe : ∀ s ∈ row.stripeChargeId, row₀.stripeChargeId ≠ some s ∧ row'.stripeChargeId ≠ some s ∨
      row'.stripeChargeId = row₀.stripeChargeId) :
    db₁.freeForCharge row = .ok () ↔ db.freeForCharge row = .ok () := by
  have hmem₀ : row₀ ∈ db.feeCharges := (Table.find_eq_some.mp hfind).1
  have hmem : row' ∈ db₁.feeCharges := by
    rw [hset]
    exact Table.mem_set_self hmem₀ hid.symm
  -- every row of the one table has a counterpart in the other
  have hforth : ∀ c ∈ db₁.feeCharges, c.id ≠ row'.id → c ∈ db.feeCharges := fun c hc hcid => by
    rw [hset] at hc
    rcases Table.mem_set.mp hc with ⟨hmem, -⟩ | ⟨rfl, -⟩
    · exact hmem
    · exact absurd rfl hcid
  have hback : ∀ c ∈ db.feeCharges, c.id ≠ row'.id → c ∈ db₁.feeCharges := fun c hc hcid => by
    rw [hset]
    exact Table.mem_set.mpr (Or.inl ⟨hc, hcid⟩)
  rw [freeForCharge_ok, freeForCharge_ok]
  constructor
  · rintro ⟨hperiod, hids⟩
    refine ⟨fun c hc hcid => ?_, fun c hc hcid s hs => ?_⟩
    · by_cases hkey : c.id = row'.id
      · obtain rfl := Table.eq_of_key_eq hc hmem₀ (hkey.trans hid)
        rw [← hcustomer, ← hbegin, ← hend]
        exact hperiod row' hmem (by rw [hid]; exact hcid)
      · exact hperiod c (hback c hc hkey) hcid
    · by_cases hkey : c.id = row'.id
      · obtain rfl := Table.eq_of_key_eq hc hmem₀ (hkey.trans hid)
        rcases hstripe s hs with ⟨hnot, -⟩ | hsame
        · exact hnot
        · rw [← hsame]
          exact hids row' hmem (by rw [hid]; exact hcid) s hs
      · exact hids c (hback c hc hkey) hcid s hs
  · rintro ⟨hperiod, hids⟩
    refine ⟨fun c hc hcid => ?_, fun c hc hcid s hs => ?_⟩
    · by_cases hkey : c.id = row'.id
      · obtain rfl := Table.eq_of_key_eq hc hmem hkey
        rw [hcustomer, hbegin, hend]
        exact hperiod row₀ hmem₀ hne
      · exact hperiod c (hforth c hc hkey) hcid
    · by_cases hkey : c.id = row'.id
      · obtain rfl := Table.eq_of_key_eq hc hmem hkey
        rcases hstripe s hs with ⟨-, hnot⟩ | hsame
        · exact hnot
        · rw [hsame]
          exact hids row₀ hmem₀ hne s hs
      · exact hids c (hforth c hc hkey) hcid s hs

/-- **A failure of another charge** changes nothing that a call looks at. -/
theorem alike_applyChargeFailure (env' : Env) {charge : FeeCharge} {u : Unit}
    (hfind : db.feeCharges.find charge.id = some charge) (hopen : isClosed charge = false)
    (hne : charge.id ≠ feeChargeId)
    (hrun : (applyChargeFailure env' maxAttempts charge.id).run db = .ok (u, db₁)) :
    Alike env own feeChargeId db db₁ := by
  obtain ⟨⟨charges, dunnings, hdb₁⟩, -, hothers⟩ := applyChargeFailure_rows hfind hopen hrun
  have hrows := hothers feeChargeId hne.symm
  obtain ⟨charge', hfind', hcases⟩ := applyChargeFailure_ok hrun
  rw [hfind] at hfind'
  cases hfind'
  rcases hcases with ⟨hclosed, -⟩ | ⟨-, hrecord⟩
  · rw [hopen] at hclosed
    cases hclosed
  · obtain ⟨charges', dunnings', hdb₁', hcharges⟩ := recordFailure_ok hrecord
    refine ⟨congrArg Prod.fst hrows, congrArg Prod.snd hrows, by rw [hdb₁],
      fun c => by rw [hdb₁]; exact Iff.rfl, by rw [hdb₁]; exact Iff.rfl,
      by rw [hdb₁], fun row hrow _ => ?_⟩
    rcases hcharges with hsame | ⟨row₀, status, hrow₀, -, hset⟩
    · have hkept : db₁.feeCharges = db.feeCharges := by rw [hdb₁', hsame]
      rw [freeForCharge_congr hkept row]
    · rw [hfind] at hrow₀
      cases hrow₀
      have hset' : db₁.feeCharges = db.feeCharges.set
          { charge with status := flushed charge.status status charge.status } := by
        rw [hdb₁', hset]
      exact freeForCharge_set hfind hset' rfl rfl rfl rfl (by rw [hrow]; exact hne)
        fun s hs => Or.inr rfl

/-- **A success of another charge** changes nothing that a call looks at. -/
theorem alike_applyChargeSuccess (env' : Env) {charge : FeeCharge} {stripeChargeId : String} {u : Unit}
    (hfind : db.feeCharges.find charge.id = some charge) (hopen : charge.status ≠ .succeeded)
    (hne : charge.id ≠ feeChargeId) (hentry : env'.uuid4 .journalEntry ≠ env.uuid4 .journalEntry)
    (hcarried : ∀ s, own s → charge.stripeChargeId ≠ some s) (hcharged : ¬ own stripeChargeId)
    (hrun : (applyChargeSuccess env' charge.id stripeChargeId).run db = .ok (u, db₁)) :
    Alike env own feeChargeId db db₁ := by
  have hrows := (applyChargeSuccess_rows hfind hopen hrun).2 feeChargeId hne.symm
  obtain ⟨charge', hfind', hcases⟩ := applyChargeSuccess_ok hrun
  rw [hfind] at hfind'
  cases hfind'
  rcases hcases with ⟨hsucceeded, -⟩ | ⟨-, db₂, dunnings, hcollect, hdb₁⟩
  · exact absurd hsucceeded hopen
  · obtain ⟨payable, collected, entry, row₀, accounts, entries, -, -, -, hentry', hentries,
      hrow₀, hdb₂⟩ := collect_ok hcollect
    rw [hfind] at hrow₀
    cases hrow₀
    obtain ⟨hpayables, hhouse⟩ := collect_accounts hcollect
    have hset : db₁.feeCharges = db.feeCharges.set
        (succeededCharge charge stripeChargeId entry.id charge) := by
      rw [hdb₁, hdb₂]
    refine ⟨congrArg Prod.fst hrows, congrArg Prod.snd hrows, by rw [hdb₁, hdb₂],
      fun c => by rw [hdb₁]; exact hpayables c, by rw [hdb₁]; exact hhouse, ?_,
      fun row hrow hown => ?_⟩
    · rw [hdb₁, hdb₂]
      show entries.Has _ ↔ _
      rw [Table.has_insert hentries, hentry']
      simp [hentry.symm]
    · refine freeForCharge_set hfind hset rfl rfl rfl rfl (by rw [hrow]; exact hne)
        fun s hs => Or.inl ⟨hcarried s (hown s hs), fun hstripe => ?_⟩
      have hcarries : some stripeChargeId = some s := by simpa [succeededCharge] using hstripe
      cases hcarries
      exact hcharged (hown _ hs)

/-- **A call for another charge** changes nothing that a call looks at. -/
theorem alike_chargeFee (env' : Env) {otherId : Uuid} (hne : otherId ≠ feeChargeId)
    (hentry : env'.uuid4 .journalEntry ≠ env.uuid4 .journalEntry)
    (hown : ∀ s, own s → ¬ Carries provider db otherId s) :
    Alike env own feeChargeId db (Charging.chargeFee env' maxAttempts provider otherId db).2 := by
  unfold Charging.chargeFee
  cases hrequest : Charging.chargeRequest db otherId with
  | error e => exact .refl
  | ok request =>
    cases request with
    | none => exact .refl
    | some request =>
      obtain ⟨charge, method, hfind, hchargeable, -, -⟩ := chargeRequest_ok.mp hrequest
      obtain rfl : charge.id = otherId := (Table.find_eq_some.mp hfind).2
      dsimp only
      cases hanswer : provider request with
      | error => exact .refl
      | declined =>
        rw [applyAnswer, commitOutcome_snd]
        rcases atomically_cases (applyChargeFailure env' maxAttempts charge.id) db with
          ⟨u, db', hrun, heq⟩ | ⟨e, -, heq⟩
        · rw [heq]
          exact alike_applyChargeFailure env' hfind (isClosed_of_isChargeable hchargeable) hne hrun
        · rw [heq]
          exact .refl
      | handle handle =>
        rw [applyAnswer, commitOutcome_snd]
        rcases atomically_cases (applyChargeSuccess env' charge.id handle.stripeChargeId) db with
          ⟨u, db', hrun, heq⟩ | ⟨e, -, heq⟩
        · rw [heq]
          refine alike_applyChargeSuccess env' hfind (not_succeeded_of_isChargeable hchargeable) hne
            hentry (fun s hs hstripe => hown s hs (Or.inl ⟨charge, hfind, hstripe⟩)) (fun hs => ?_) hrun
          exact hown _ hs (Or.inr ⟨request, handle, hrequest, hanswer, rfl⟩)
        · rw [heq]
          exact .refl

theorem Alike.carries_iff (h : Alike env own feeChargeId db db₁) {s : String} :
    Carries provider db₁ feeChargeId s ↔ Carries provider db feeChargeId s := by
  rw [Carries, Carries, h.charge, h.chargeRequest]

end Alike

/-! ### When a call returns -/

/-- The answer of the provider can be applied. -/
def Applicable (env : Env) (db : Database) (charge : FeeCharge) : Answer → Prop
  | .handle handle => Collectable env charge handle.stripeChargeId db
  | .declined =>
    (∀ d, db.dunningStates.find charge.id = some d → d.maxAttempts ≤ d.attemptNumber + 1) →
      Storable db charge
  | .error => False

/-- The charge is there, and if it is charged, its customer has a payment method and the answer of
the provider can be applied. -/
def CanCharge (env : Env) (provider : ChargeRequest → Answer) (db : Database) (feeChargeId : Uuid) :
    Prop :=
  ∃ charge, db.feeCharges.find feeChargeId = some charge ∧ (isChargeable charge = true →
    ∃ method, db.paymentMethods.find charge.customerId = some method ∧
      Applicable env db charge (provider ⟨method.stripeCustomerId, method.stripePaymentMethodId,
        charge.totalAccrued, feeChargeId⟩))

/-- **When a call returns.** -/
theorem chargeFee_returns_iff {env : Env} {maxAttempts : ℕ} {provider : ChargeRequest → Answer}
    {feeChargeId : Uuid} {db : Database} :
    (chargeFee env maxAttempts provider feeChargeId db).1 = .ok () ↔
      CanCharge env provider db feeChargeId := by
  cases hfind : db.feeCharges.find feeChargeId with
  | none =>
    have hrequest : chargeRequest db feeChargeId = .error .feeChargeNotFound := by
      rw [chargeRequest, getFeeCharge_none hfind]
      rfl
    simp [chargeFee, hrequest, CanCharge, hfind]
  | some charge =>
    have hget := getFeeCharge_some hfind
    have hid : charge.id = feeChargeId := (Table.find_eq_some.mp hfind).2
    simp only [CanCharge, hfind, Option.some.injEq, exists_eq_left']
    cases hchargeable : isChargeable charge with
    | false =>
      have hrequest : chargeRequest db feeChargeId = .ok none := by
        rw [chargeRequest, hget]
        exact if_neg (by simp [hchargeable])
      simp [chargeFee, hrequest]
    | true =>
      cases hmethod : db.paymentMethods.find charge.customerId with
      | none =>
        have hrequest : chargeRequest db feeChargeId = .error .noPaymentMethod := by
          rw [chargeRequest, hget]
          show (if isChargeable charge = true then _ else _) = _
          rw [if_pos hchargeable, hmethod]
          rfl
        simp [chargeFee, hrequest]
      | some method =>
        have hrequest := chargeRequest_ok.mpr ⟨charge, method, hfind, hchargeable, hmethod, rfl⟩
        simp only [chargeFee, hrequest, Option.some.injEq, exists_eq_left', forall_const]
        cases provider ⟨method.stripeCustomerId, method.stripePaymentMethodId, charge.totalAccrued,
          feeChargeId⟩ with
        | error => simp [applyAnswer, Applicable]
        | declined =>
          have hopen : isClosed charge = false := by
            simp only [isChargeable, decide_eq_true_eq] at hchargeable
            rcases hchargeable with hstatus | hstatus <;> simp [isClosed, hstatus]
          rw [applyAnswer, commitOutcome_returns_iff, applyChargeFailure_returns_iff hfind hopen,
            Applicable, hid]
        | handle handle =>
          have hopen : charge.status ≠ .succeeded := fun hstatus => by
            simp [isChargeable, hstatus] at hchargeable
          rw [applyAnswer, commitOutcome_returns_iff, applyChargeSuccess_returns_iff hfind hopen,
            Applicable]

/-! ### The loop -/

section Loop
variable {env : Uuid → Env} {maxAttempts : ℕ} {provider : ChargeRequest → Answer}
  {db db₁ : Database}

/-- The charges are told apart by their journal entries and by their Stripe ids: uuids and Stripe
ids are unique. -/
structure Apart (env : Uuid → Env) (provider : ChargeRequest → Answer) (db : Database)
    (ids : List Uuid) : Prop where
  entries : ∀ id ∈ ids, ∀ id' ∈ ids, id ≠ id' →
    (env id).uuid4 .journalEntry ≠ (env id').uuid4 .journalEntry
  stripe : ∀ id ∈ ids, ∀ id' ∈ ids, id ≠ id' → ∀ s, Carries provider db id s →
    ¬ Carries provider db id' s

theorem Apart.of_subset {ids ids' : List Uuid} (h : Apart env provider db ids) (hsub : ids' ⊆ ids) :
    Apart env provider db ids' :=
  ⟨fun id hid id' hid' => h.entries id (hsub hid) id' (hsub hid'),
    fun id hid id' hid' => h.stripe id (hsub hid) id' (hsub hid')⟩

/-- A call for one of the charges is nothing to another. -/
theorem Apart.after {ids : List Uuid} (hapart : Apart env provider db ids) (maxAttempts : ℕ)
    {id id' : Uuid} (hid : id ∈ ids) (hid' : id' ∈ ids) (hne : id ≠ id')
    (hlike : Alike (env id) (Carries provider db id) id db db₁) :
    Alike (env id') (Carries provider db id') id' db₁
      (chargeFee (env id) maxAttempts provider id db₁).2 := by
  refine alike_chargeFee (env id) hne (hapart.entries id hid id' hid' hne) fun s hs hcarries => ?_
  exact hapart.stripe id' hid' id hid (Ne.symm hne) s hs (hlike.carries_iff.mp hcarries)

theorem retryEach_ok {id : Uuid} {ids : List Uuid} {u : Unit} {db' : Database}
    (h : chargeFee (env id) maxAttempts provider id db = (.ok u, db')) :
    retryEach env maxAttempts provider (id :: ids) db =
      ⟨id :: (retryEach env maxAttempts provider ids db').attempted,
        (retryEach env maxAttempts provider ids db').result,
        (retryEach env maxAttempts provider ids db').db⟩ := by
  rw [retryEach, h]

theorem retryEach_error {id : Uuid} {ids : List Uuid} {e : ChargeFailure} {db' : Database}
    (h : chargeFee (env id) maxAttempts provider id db = (.error e, db')) :
    retryEach env maxAttempts provider (id :: ids) db = ⟨[id], .error e, db'⟩ := by
  rw [retryEach, h]

theorem retryEach_single (env : Uuid → Env) (maxAttempts : ℕ) (provider : ChargeRequest → Answer)
    (id : Uuid) (db : Database) :
    (retryEach env maxAttempts provider [id] db).attempted = [id] ∧
      (retryEach env maxAttempts provider [id] db).db =
        (chargeFee (env id) maxAttempts provider id db).2 := by
  cases hcall : chargeFee (env id) maxAttempts provider id db with
  | mk result db' =>
    cases result with
    | error e => rw [retryEach_error hcall]; exact ⟨rfl, rfl⟩
    | ok u => rw [retryEach_ok hcall]; exact ⟨rfl, rfl⟩

theorem chargeRows_retryEach (maxAttempts : ℕ) {x : Uuid} : ∀ {ids : List Uuid} {db₁ : Database},
    (x :: ids).Nodup → Apart env provider db (x :: ids) →
    (∀ id ∈ ids, Alike (env id) (Carries provider db id) id db db₁) →
    chargeRows (retryEach env maxAttempts provider ids db₁).db x = chargeRows db₁ x
  | [], _, _, _, _ => rfl
  | id :: ids, db₁, hnodup, hapart, halike => by
    simp only [List.nodup_cons, List.mem_cons, not_or] at hnodup
    obtain ⟨⟨hne, hx⟩, hid, hnodup⟩ := hnodup
    have hlike := halike id (by simp)
    have hkept := (hapart.after maxAttempts (by simp) (by simp) (Ne.symm hne)
      hlike).chargeRows
    cases hcall : chargeFee (env id) maxAttempts provider id db₁ with
    | mk result db₂ =>
      rw [hcall] at hkept
      cases result with
      | error e =>
        rw [retryEach_error hcall]
        exact hkept
      | ok u =>
        have hrest : ∀ id' ∈ ids, Alike (env id') (Carries provider db id') id' db db₂ :=
          fun id' hid' => by
            have hne' : id ≠ id' := fun heq => hid (heq ▸ hid')
            have hstep := hapart.after maxAttempts (by simp) (by simp [hid']) hne'
              hlike
            rw [hcall] at hstep
            exact (halike id' (by simp [hid'])).trans hstep
        have hapart' : Apart env provider db (x :: ids) :=
          hapart.of_subset (List.cons_subset_cons x (List.subset_cons_self id ids))
        rw [retryEach_ok hcall]
        exact (chargeRows_retryEach maxAttempts (List.nodup_cons.mpr ⟨hx, hnodup⟩) hapart' hrest).trans hkept

/-- **The loop**, from a state that is like the first one to all the charges: all of them are
attempted, with the effect of a call in the first state, exactly when all calls but the last
return. -/
theorem retryEach_iff (maxAttempts : ℕ) : ∀ {ids : List Uuid} {db₁ : Database}, ids.Nodup →
    Apart env provider db ids →
    (∀ id ∈ ids, Alike (env id) (Carries provider db id) id db db₁) →
    (((retryEach env maxAttempts provider ids db₁).attempted = ids ∧
      ∀ id ∈ ids, chargeRows (retryEach env maxAttempts provider ids db₁).db id =
        chargeRows (chargeFee (env id) maxAttempts provider id db).2 id) ↔
      ∀ id ∈ ids.dropLast, CanCharge (env id) provider db id)
  | [], _, _, _, _ => by simp [retryEach]
  | [id], db₁, _, _, halike => by
    obtain ⟨hattempted, hdb⟩ := retryEach_single env maxAttempts provider id db₁
    refine iff_of_true ⟨hattempted, fun id' hid' => ?_⟩ (by simp)
    obtain rfl := List.mem_singleton.mp hid'
    rw [hdb]
    exact ((halike id' (by simp)).chargeFee maxAttempts fun s hs => hs).2
  | id :: id₂ :: ids, db₁, hnodup, hapart, halike => by
    have hlike := halike id (by simp)
    obtain ⟨hreturns, hrows⟩ := hlike.chargeFee maxAttempts fun s hs => hs
    have hcan : (chargeFee (env id) maxAttempts provider id db₁).1 = .ok () ↔
        CanCharge (env id) provider db id := hreturns.trans chargeFee_returns_iff
    obtain ⟨hid, hnodup'⟩ := List.nodup_cons.mp hnodup
    have hdrop : (∀ id' ∈ (id :: id₂ :: ids).dropLast, CanCharge (env id') provider db id') ↔
        CanCharge (env id) provider db id ∧
          ∀ id' ∈ (id₂ :: ids).dropLast, CanCharge (env id') provider db id' := by
      rw [List.dropLast_cons_cons, List.forall_mem_cons]
    rw [hdrop]
    cases hcall : chargeFee (env id) maxAttempts provider id db₁ with
    | mk result db₂ =>
      rw [hcall] at hcan hrows
      cases result with
      | error e =>
        rw [retryEach_error hcall]
        refine iff_of_false (fun h => ?_) (fun h => ?_)
        · have hlength := congrArg List.length h.1
          simp at hlength
        · have hok := hcan.mpr h.1
          cases hok
      | ok u =>
        have hrest : ∀ id' ∈ id₂ :: ids, Alike (env id') (Carries provider db id') id' db db₂ :=
          fun id' hid' => by
            have hne' : id ≠ id' := fun heq => hid (heq ▸ hid')
            have hstep := hapart.after maxAttempts (by simp) (.tail _ hid') hne' hlike
            rw [hcall] at hstep
            exact (halike id' (.tail _ hid')).trans hstep
        have hloop := retryEach_iff maxAttempts hnodup' (hapart.of_subset (List.subset_cons_self _ _)) hrest
        have hkept := chargeRows_retryEach maxAttempts hnodup hapart hrest
        rw [retryEach_ok hcall, ← hloop, List.forall_mem_cons, hkept, hrows]
        simp [hcan.mp rfl]

end Loop

/-- A charge whose first attempt has failed, and its dunning. -/
def failedCharge (feeChargeId customerId : Uuid) : FeeCharge × DunningState :=
  (⟨feeChargeId, customerId, 0, 30, ⟨50000, by decide⟩, 0, .failed, none, none⟩,
    ⟨feeChargeId, customerId, 1, ⟨0, true⟩, 4, .retrying⟩)

/-- The charges of customers 1 and 2 are due; only customer 2 has a payment method. -/
def twoDue : Database := { openedAccount 1 with
  feeCharges := ⟨[(failedCharge 16 1).1, (failedCharge 17 2).1], by decide⟩
  dunningStates := ⟨[(failedCharge 16 1).2, (failedCharge 17 2).2], by decide⟩
  paymentMethods := ⟨[⟨2, "cus", "pm"⟩], by decide⟩ }

/-- Every call is charged. -/
def alwaysCharged (_ : ChargeRequest) : Answer := .handle ⟨"ch", "succeeded"⟩

theorem not_carries_twoDue (s : String) : ¬ Carries alwaysCharged twoDue 16 s := by
  rintro (⟨charge, hfind, hstripe⟩ | ⟨request, handle, hrequest, -⟩)
  · cases hfind
    cases hstripe
  · cases hrequest

theorem apart_twoDue {ids : List Uuid} (hids : ids ⊆ [16, 17]) :
    Apart (envAt 0) alwaysCharged twoDue ids := by
  refine ⟨fun id _ id' _ hne => hne, fun id hid id' hid' hne s hs hs' => ?_⟩
  obtain rfl | rfl : id = 16 ∨ id = 17 := by simpa using hids hid
  · exact not_carries_twoDue s hs
  · obtain rfl | rfl : id' = 16 ∨ id' = 17 := by simpa using hids hid'
    · exact not_carries_twoDue s hs'
    · exact hne rfl

end Trueup.Fees.Charging
