import Trueup.Fees.CollectedOnce

/-! # Who retries an owed fee

A charge is worked on by its `charge_fee` row until an outcome is applied, and by its dunning state
after a failure. A row is given up (dead-lettered) after too many executions that raised.

`charge_is_retried`: in every interleaving, a failed charge has a dunning state that is retrying,
and a pending one has a row that is pending or processing, or one that was given up.
`no_payment_method_gives_up`: the row of a customer without a payment method is given up, and the
charge stays pending. -/

namespace Trueup.Fees.Charging

open Trueup.Core Trueup.Models Trueup.Lib Trueup.Lib.Transaction

/-- An outcome has been applied to the charge. -/
def Started (db : Database) (feeChargeId : Uuid) : Prop :=
  ∃ charge ∈ db.feeCharges, charge.id = feeChargeId ∧ charge.status ≠ .pending

/-- Somebody works on every charge that is owed. -/
structure Retried (db : Database) : Prop where
  failed : ∀ charge ∈ db.feeCharges, charge.status = .failed →
    ∃ d ∈ db.dunningStates, d.feeChargeId = charge.id ∧ d.status = .retrying
  dunned : ∀ d ∈ db.dunningStates, Started db d.feeChargeId
  queued : ∀ charge ∈ db.feeCharges, ∃ row ∈ db.chargeFeeJobs, row.payload = charge.id
  completed : ∀ row ∈ db.chargeFeeJobs, row.status = .completed → Started db row.payload

/-- The execution is for the charge of its row, and has returned when an outcome has been
applied. -/
def IsFor (db : Database) (feeChargeId : Uuid) : Phase → Prop
  | .loading id => id = feeChargeId
  | .loaded charge => charge.id = feeChargeId
  | .calling id => id = feeChargeId
  | .applying id _ => id = feeChargeId
  | .seen charge _ => charge.id = feeChargeId
  | .deciding charge _ _ => charge.id = feeChargeId
  | .returned => Started db feeChargeId
  | .raised => True
  | .idle => False
  | .verdict _ _ => False

/-- What the execution has read is behind what is committed. -/
def HasRead (db : Database) : Phase → Prop
  | .seen charge outcome => isSettled charge outcome = false ∧
      (charge.status ≠ .pending → Started db charge.id)
  | .deciding charge dunning outcome => isSettled charge outcome = false ∧
      (charge.status ≠ .pending → Started db charge.id) ∧
      ∀ d ∈ dunning, d.feeChargeId = charge.id ∧ Started db charge.id
  | _ => True

/-- The execution works on the row it has claimed. -/
structure Working (db : Database) (p : Process) : Prop where
  row : ∀ job ∈ p.job, ∃ row ∈ db.chargeFeeJobs, row.id = job.row.id ∧ row.payload = job.row.payload
  isFor : ∀ job ∈ p.job, IsFor db job.row.payload p.phase
  hasRead : HasRead db p.phase

/-- Outcomes stay applied, and rows keep their charge. -/
structure Advances (db db' : Database) : Prop where
  started : ∀ id, Started db id → Started db' id
  rows : ∀ row ∈ db.chargeFeeJobs, ∃ row' ∈ db'.chargeFeeJobs,
    row'.id = row.id ∧ row'.payload = row.payload

section Step
variable {db db' : Database} {p : Process} {charge : FeeCharge} {dunning : Option DunningState}
  {outcome : Outcome} {row row' : FeeCharge}

theorem IsFor.mono {id : Uuid} {phase : Phase} (hadv : Advances db db') (h : IsFor db id phase) :
    IsFor db' id phase := by
  cases phase with
  | returned => exact hadv.started id h
  | _ => exact h

theorem HasRead.mono {phase : Phase} (hadv : Advances db db') (h : HasRead db phase) :
    HasRead db' phase := by
  cases phase with
  | seen charge outcome => exact ⟨h.1, fun hstatus => hadv.started _ (h.2 hstatus)⟩
  | deciding charge dunning outcome =>
    obtain ⟨hopen, hstarted, hdunning⟩ := h
    exact ⟨hopen, fun hstatus => hadv.started _ (hstarted hstatus),
      fun d hd => (hdunning d hd).imp_right (hadv.started _)⟩
  | _ => trivial

theorem Working.mono (hadv : Advances db db') (h : Working db p) : Working db' p := by
  refine ⟨fun job hjob => ?_, fun job hjob => (h.isFor job hjob).mono hadv, h.hasRead.mono hadv⟩
  obtain ⟨row, hrow, hid, hpayload⟩ := h.row job hjob
  obtain ⟨row', hrow', hid', hpayload'⟩ := hadv.rows row hrow
  exact ⟨row', hrow', hid'.trans hid, hpayload'.trans hpayload⟩

theorem started_set (hrow : row ∈ db.feeCharges) (hid : row'.id = row.id)
    (hstatus : row.status ≠ .pending → row'.status ≠ .pending)
    (hcharges : db'.feeCharges = db.feeCharges.set row') (id : Uuid) (h : Started db id) :
    Started db' id := by
  unfold Started
  rw [hcharges]
  exact Table.exists_mem_set hrow hid.symm (fun hP => ⟨hid.trans hP.1, hstatus hP.2⟩) h

/-- **A commit** applies an outcome. -/
theorem Applied.started (happlied : Applied charge db db' dunning outcome)
    (hread : HasRead db (.deciding charge dunning outcome)) :
    (∀ id, Started db id → Started db' id) ∧ Started db' charge.id := by
  obtain ⟨hopen, hstarted, hdunning⟩ := hread
  -- the row that is written has an outcome
  have hset : ∀ row row' : FeeCharge, db.feeCharges.find charge.id = some row →
      db'.feeCharges = db.feeCharges.set row' → row'.id = row.id → row'.status ≠ .pending →
      (∀ id, Started db id → Started db' id) ∧ Started db' charge.id := by
    intro row row' hrow hcharges hid hstatus
    obtain ⟨hmem, hkey⟩ := Table.find_eq_some.mp hrow
    refine ⟨started_set hmem hid (fun _ => hstatus) hcharges, row', ?_, hid.trans hkey, hstatus⟩
    rw [hcharges]
    exact Table.mem_set_self hmem hid.symm
  cases happlied with
  | collected entryId row hrow hcharges hdunnings hcollections =>
    refine hset row _ hrow hcharges rfl ?_
    show flushed charge.status .succeeded row.status ≠ .pending
    rw [flushed, if_neg (Ne.symm (isSettled_ne_succeeded hopen))]
    decide
  | failed row d hrow hcharges hid hstatus hdunnings hcollections =>
    refine hset row _ hrow hcharges rfl ?_
    show flushed charge.status .failed row.status ≠ .pending
    unfold flushed
    split_ifs with hsame
    · -- the status was read as failed, and is not pending now
      obtain ⟨row'', hrow'', hid'', hstatus''⟩ := hstarted (by rw [← hsame]; decide)
      obtain ⟨hmem, hkey⟩ := Table.find_eq_some.mp hrow
      exact Table.eq_of_key_eq hmem hrow'' (hkey.trans hid''.symm) ▸ hstatus''
    · decide
  | exhausted row row' drow hrow hcharges hdrow hdunnings hid hlast hcollections =>
    refine hset row _ hrow hcharges rfl ?_
    show flushed charge.status .dunning row.status ≠ .pending
    have hdunned : charge.status ≠ .dunning := fun hstatus => by
      simp [isSettled, isClosed, hstatus] at hopen
    rw [flushed, if_neg (Ne.symm hdunned)]
    decide
  | retried row' drow hcharges hdrow hdunnings hid hstatus hmore hcollections =>
    have hsame : ∀ id, Started db id → Started db' id := fun id h => by
      unfold Started
      rw [hcharges]
      exact h
    exact ⟨hsame, hsame _ (hdunning _ rfl).2⟩

theorem Applied.advances (happlied : Applied charge db db' dunning outcome)
    (hread : HasRead db (.deciding charge dunning outcome))
    (hjobs : db'.chargeFeeJobs = db.chargeFeeJobs) : Advances db db' := by
  refine ⟨(happlied.started hread).1, fun row hrow => ?_⟩
  rw [hjobs]
  exact ⟨row, hrow, rfl, rfl⟩

theorem failed_of_set (hcharges : db'.feeCharges = db.feeCharges.set row')
    (hfailed : ∀ c ∈ db.feeCharges, c.status = .failed → c.id ≠ row'.id →
      ∃ d ∈ db'.dunningStates, d.feeChargeId = c.id ∧ d.status = .retrying)
    (hrow : row'.status = .failed →
      ∃ d ∈ db'.dunningStates, d.feeChargeId = row'.id ∧ d.status = .retrying) :
    ∀ c ∈ db'.feeCharges, c.status = .failed →
      ∃ d ∈ db'.dunningStates, d.feeChargeId = c.id ∧ d.status = .retrying := by
  intro c hc hstatus
  rw [hcharges] at hc
  rcases Table.mem_set.mp hc with ⟨hmem, hne⟩ | ⟨rfl, -⟩
  · exact hfailed c hmem hstatus hne
  · exact hrow hstatus

/-- **A commit leaves nobody behind.** -/
theorem Retried.applied (h : Retried db) (happlied : Applied charge db db' dunning outcome)
    (hread : HasRead db (.deciding charge dunning outcome))
    (hjobs : db'.chargeFeeJobs = db.chargeFeeJobs) : Retried db' := by
  obtain ⟨hstarted, hthis⟩ := happlied.started hread
  obtain ⟨hopen, -, hdunning⟩ := hread
  have hcompleted : ∀ row ∈ db'.chargeFeeJobs, row.status = .completed → Started db' row.payload := by
    rw [hjobs]
    exact fun row hrow hstatus => hstarted _ (h.completed row hrow hstatus)
  have hqueued : (∀ c ∈ db'.feeCharges, ∃ c' ∈ db.feeCharges, c'.id = c.id) →
      ∀ c ∈ db'.feeCharges, ∃ row ∈ db'.chargeFeeJobs, row.payload = c.id := by
    intro hids c hc
    obtain ⟨c', hc', hid⟩ := hids c hc
    rw [hjobs, ← hid]
    exact h.queued c' hc'
  have hids : ∀ {row row' : FeeCharge}, row ∈ db.feeCharges →
      db'.feeCharges = db.feeCharges.set row' → row'.id = row.id →
      ∀ c ∈ db'.feeCharges, ∃ c' ∈ db.feeCharges, c'.id = c.id := by
    intro row row' hrow hcharges hid c hc
    rw [hcharges] at hc
    rcases Table.mem_set.mp hc with ⟨hmem, -⟩ | ⟨rfl, -⟩
    · exact ⟨c, hmem, rfl⟩
    · exact ⟨row, hrow, hid.symm⟩
  cases happlied with
  | collected entryId row hrow hcharges hdunnings hcollections =>
    obtain ⟨hmem, hkey⟩ := Table.find_eq_some.mp hrow
    have hsub : ∀ d, d ∈ db'.dunningStates → d ∈ db.dunningStates := by
      intro d hd
      rw [hdunnings] at hd
      cases dunning with
      | none => exact hd
      | some d' => exact (Table.mem_erase.mp hd).1
    refine ⟨failed_of_set hcharges (fun c hc hfailed hne => ?_) fun hfailed => ?_,
      fun d hd => hstarted _ (h.dunned d (hsub d hd)), hqueued (hids hmem hcharges rfl), hcompleted⟩
    · obtain ⟨d, hd, hid, hretrying⟩ := h.failed c hc hfailed
      refine ⟨d, ?_, hid, hretrying⟩
      rw [hdunnings]
      cases dunning with
      | none => exact hd
      | some d' =>
        refine Table.mem_erase.mpr ⟨hd, fun hsame => hne ?_⟩
        exact hid.symm.trans (hsame.trans ((hdunning d' rfl).1.trans hkey.symm))
    · have hsucceeded : flushed charge.status .succeeded row.status = .failed := hfailed
      rw [flushed, if_neg (Ne.symm (isSettled_ne_succeeded hopen))] at hsucceeded
      cases hsucceeded
  | failed row d hrow hcharges hid hstatus hdunnings hcollections =>
    obtain ⟨hmem, hkey⟩ := Table.find_eq_some.mp hrow
    have hnew : d ∈ db'.dunningStates := (Table.mem_insert hdunnings).mpr (Or.inr rfl)
    refine ⟨failed_of_set hcharges (fun c hc hfailed _ => ?_) fun _ => ?_, fun d' hd' => ?_,
      hqueued (hids hmem hcharges rfl), hcompleted⟩
    · obtain ⟨d', hd', hrest⟩ := h.failed c hc hfailed
      exact ⟨d', (Table.mem_insert hdunnings).mpr (Or.inl hd'), hrest⟩
    · exact ⟨d, hnew, hid.trans hkey.symm, hstatus⟩
    · rcases (Table.mem_insert hdunnings).mp hd' with hold | rfl
      · exact hstarted _ (h.dunned d' hold)
      · rw [hid]
        exact hthis
  | exhausted row row' drow hrow hcharges hdrow hdunnings hid hlast hcollections =>
    rename_i d
    obtain ⟨hmem, hkey⟩ := Table.find_eq_some.mp hrow
    obtain ⟨hdmem, hdkey⟩ := Table.find_eq_some.mp hdrow
    refine ⟨failed_of_set hcharges (fun c hc hfailed hne => ?_) fun hfailed => ?_, fun d' hd' => ?_,
      hqueued (hids hmem hcharges rfl), hcompleted⟩
    · obtain ⟨d', hd', hid', hretrying⟩ := h.failed c hc hfailed
      refine ⟨d', ?_, hid', hretrying⟩
      rw [hdunnings]
      refine Table.mem_set.mpr (Or.inl ⟨hd', fun hsame => hne ?_⟩)
      exact hid'.symm.trans (hsame.trans (hid.trans (hdkey.trans ((hdunning d rfl).1.trans hkey.symm))))
    · have hdunned : charge.status ≠ .dunning := fun hstatus => by
        simp [isSettled, isClosed, hstatus] at hopen
      have hwritten : flushed charge.status .dunning row.status = .failed := hfailed
      rw [flushed, if_neg (Ne.symm hdunned)] at hwritten
      cases hwritten
    · rw [hdunnings] at hd'
      rcases Table.mem_set.mp hd' with ⟨hold, -⟩ | ⟨rfl, -⟩
      · exact hstarted _ (h.dunned d' hold)
      · rw [hid]
        exact hstarted _ (h.dunned drow hdmem)
  | retried row' drow hcharges hdrow hdunnings hid hstatus hmore hcollections =>
    obtain ⟨hdmem, hdkey⟩ := Table.find_eq_some.mp hdrow
    refine ⟨fun c hc hfailed => ?_, fun d' hd' => ?_, hqueued fun c hc => ⟨c, hcharges ▸ hc, rfl⟩,
      hcompleted⟩
    · rw [hcharges] at hc
      rw [hdunnings]
      refine Table.exists_mem_set hdmem hid.symm (fun hP => ⟨hid.trans hP.1, hstatus.trans hP.2⟩) ?_
      exact h.failed c hc hfailed
    · rw [hdunnings] at hd'
      rcases Table.mem_set.mp hd' with ⟨hold, -⟩ | ⟨rfl, -⟩
      · exact hstarted _ (h.dunned d' hold)
      · rw [hid]
        exact hstarted _ (h.dunned drow hdmem)

theorem started_same (hcharges : db'.feeCharges = db.feeCharges) (id : Uuid) :
    Started db' id ↔ Started db id := by
  unfold Started
  rw [hcharges]

/-- **Every action** moves forward. -/
theorem Change.advances {a : Action} (hchange : Change a p db db') (hread : HasRead db p.phase) :
    Advances db db' := by
  cases hchange with
  | kept hsame hjobs =>
    refine ⟨fun id h => (started_same hsame.charges id).mpr h, fun row hrow => ?_⟩
    rw [hjobs]
    exact ⟨row, hrow, rfl, rfl⟩
  | job hsame row row' hrow hjobs hid hpayload hcompleted =>
    refine ⟨fun id h => (started_same hsame.charges id).mpr h, fun r hr => ?_⟩
    rw [hjobs]
    have hmem := (Table.find_eq_some.mp hrow).1
    exact Table.exists_mem_set hmem hid.symm
      (fun hP => ⟨hid.trans hP.1, hpayload.trans hP.2⟩) ⟨r, hr, rfl, rfl⟩
  | created charge job hstatus hstripe hcharges hpayload hpending hjobs hdunnings hcollections =>
    refine ⟨fun id h => ?_, fun row hrow => ⟨row, (Table.mem_insert hjobs).mpr (Or.inl hrow), rfl, rfl⟩⟩
    obtain ⟨c, hc, hrest⟩ := h
    exact ⟨c, (Table.mem_insert hcharges).mpr (Or.inl hc), hrest⟩
  | committed charge dunning outcome haction hphase happlied hjobs =>
    rw [hphase] at hread
    exact happlied.advances hread hjobs

/-- **Every action leaves nobody behind.** -/
theorem Retried.change {a : Action} (h : Retried db) (hworking : Working db p)
    (hchange : Change a p db db') : Retried db' := by
  have hadv := hchange.advances hworking.hasRead
  cases hchange with
  | kept hsame hjobs =>
    refine ⟨?_, ?_, ?_, ?_⟩
    · rw [hsame.charges, hsame.dunnings]
      exact h.failed
    · rw [hsame.dunnings]
      exact fun d hd => hadv.started _ (h.dunned d hd)
    · rw [hsame.charges, hjobs]
      exact h.queued
    · rw [hjobs]
      exact fun row hrow hstatus => hadv.started _ (h.completed row hrow hstatus)
  | job hsame row row' hrow hjobs hid hpayload hcompleted =>
    have hmem := (Table.find_eq_some.mp hrow).1
    refine ⟨?_, ?_, fun c hc => ?_, fun r hr hstatus => ?_⟩
    · rw [hsame.charges, hsame.dunnings]
      exact h.failed
    · rw [hsame.dunnings]
      exact fun d hd => hadv.started _ (h.dunned d hd)
    · rw [hsame.charges] at hc
      rw [hjobs]
      exact Table.exists_mem_set hmem hid.symm (fun hP => hpayload.trans hP) (h.queued c hc)
    · rw [hjobs] at hr
      rcases Table.mem_set.mp hr with ⟨hold, -⟩ | ⟨rfl, -⟩
      · exact hadv.started _ (h.completed r hold hstatus)
      · -- the worker has returned, for the charge of its row
        obtain ⟨hphase, job, hjob, hjobid⟩ := hcompleted hstatus
        obtain ⟨claimed, hclaimed, hclaimedid, hclaimedpayload⟩ := hworking.row job hjob
        have hfor := hworking.isFor job hjob
        rw [hphase] at hfor
        obtain rfl := Table.eq_of_key_eq hclaimed hmem (hclaimedid.trans hjobid)
        rw [hpayload, hclaimedpayload]
        exact hadv.started _ hfor
  | created charge job hstatus hstripe hcharges hpayload hpending hjobs hdunnings hcollections =>
    refine ⟨fun c hc hfailed => ?_, ?_, fun c hc => ?_, fun row hrow hcompleted => ?_⟩
    · rcases (Table.mem_insert hcharges).mp hc with hold | rfl
      · rw [hdunnings]
        exact h.failed c hold hfailed
      · rw [hstatus] at hfailed
        cases hfailed
    · rw [hdunnings]
      exact fun d hd => hadv.started _ (h.dunned d hd)
    · rcases (Table.mem_insert hcharges).mp hc with hold | rfl
      · obtain ⟨row, hrow, hrowpayload⟩ := h.queued c hold
        exact ⟨row, (Table.mem_insert hjobs).mpr (Or.inl hrow), hrowpayload⟩
      · exact ⟨job, (Table.mem_insert hjobs).mpr (Or.inr rfl), hpayload⟩
    · rcases (Table.mem_insert hjobs).mp hrow with hold | rfl
      · exact hadv.started _ (h.completed row hold hcompleted)
      · rw [hpending] at hcompleted
        cases hcompleted
  | committed charge dunning outcome haction hphase happlied hjobs =>
    have hread := hworking.hasRead
    rw [hphase] at hread
    exact h.applied happlied hread hjobs

theorem started_of_find {id : Uuid} (hfind : db.feeCharges.find id = some charge)
    (hstatus : charge.status ≠ .pending) : Started db id := by
  obtain ⟨hmem, hid⟩ := Table.find_eq_some.mp hfind
  exact ⟨charge, hmem, hid, hstatus⟩

end Step

section Local
variable {w w' : World} {p p' : Process} {a : Action}

/-- An execution returns when an outcome has been applied to its charge. -/
theorem started_of_returns {feeChargeId : Uuid} {phase : Phase} (hwhy : Returns w.db w'.db phase)
    (hfor : IsFor w.db feeChargeId phase) (hread : HasRead w.db phase)
    (hadv : Advances w.db w'.db) : Started w'.db feeChargeId := by
  cases hwhy with
  | notChargeable charge id hfind hnot =>
    obtain rfl : id = feeChargeId := hfor
    refine hadv.started _ (started_of_find hfind fun hstatus => ?_)
    simp [isChargeable, hstatus] at hnot
  | settled charge id outcome hfind hsettled =>
    obtain rfl : id = feeChargeId := hfor
    refine hadv.started _ (started_of_find hfind fun hstatus => ?_)
    cases outcome <;> simp [isSettled, isClosed, hstatus] at hsettled
  | verdict stripeChargeId status => exact hfor.elim
  | applied charge dunning outcome happlied =>
    obtain rfl : charge.id = feeChargeId := hfor
    exact (happlied.started hread).2

/-- **What an execution knows** after an action. -/
theorem Working.moves (h : Retried w.db) (hworking : Working w.db p) (hadv : Advances w.db w'.db)
    (hmoves : Moves a w w' p p') : Working w'.db p' := by
  have hkept := hworking.mono hadv
  cases hmoves with
  | stays => exact hkept
  | idle => exact ⟨fun _ hjob => (by cases hjob), fun _ hjob => (by cases hjob), trivial⟩
  | claims row workerId hrow =>
    obtain ⟨hmem, -⟩ := Table.find_eq_some.mp hrow
    refine ⟨fun job hjob => ?_, fun job hjob => ?_, trivial⟩
    · cases hjob
      exact hadv.rows row hmem
    · cases hjob
      rfl
  | starts feeChargeId =>
    exact ⟨fun _ hjob => (by cases hjob), fun _ hjob => (by cases hjob), trivial⟩
  | hears stripeChargeId status hverdict =>
    exact ⟨fun _ hjob => (by cases hjob), fun _ hjob => (by cases hjob), trivial⟩
  | loads feeChargeId charge hphase hfind =>
    refine ⟨hkept.row, fun job hjob => ?_, trivial⟩
    have hfor := hworking.isFor job hjob
    rw [hphase] at hfor
    exact (Table.find_eq_some.mp hfind).2.trans hfor
  | calls charge hphase =>
    refine ⟨hkept.row, fun job hjob => ?_, trivial⟩
    have hfor := hworking.isFor job hjob
    rw [hphase] at hfor
    exact hfor
  | succeeds feeChargeId handle haction hphase hhandle =>
    refine ⟨hkept.row, fun job hjob => ?_, trivial⟩
    have hfor := hworking.isFor job hjob
    rw [hphase] at hfor
    exact hfor
  | fails feeChargeId hphase =>
    refine ⟨hkept.row, fun job hjob => ?_, trivial⟩
    have hfor := hworking.isFor job hjob
    rw [hphase] at hfor
    exact hfor
  | reads charge outcome hphase hfind hopen =>
    refine ⟨hkept.row, fun job hjob => ?_, hopen, fun hstatus => ?_⟩
    · have hfor := hworking.isFor job hjob
      rw [hphase] at hfor
      exact hfor
    · exact hadv.started _ (started_of_find hfind hstatus)
  | finds charge stripeChargeId status outcome hphase hcharge hstripe hverdict hopen =>
    refine ⟨hkept.row, fun job hjob => ?_, hopen, fun hstatus => ?_⟩
    · have hfor := hworking.isFor job hjob
      rw [hphase] at hfor
      exact hfor.elim
    · exact hadv.started _ ⟨charge, hcharge, rfl, hstatus⟩
  | decides charge outcome hphase =>
    have hread := hworking.hasRead
    rw [hphase] at hread
    refine ⟨hkept.row, fun job hjob => ?_, hread.1, fun hstatus => hadv.started _ (hread.2 hstatus),
      fun d hd => ?_⟩
    · have hfor := hworking.isFor job hjob
      rw [hphase] at hfor
      exact hfor
    · obtain ⟨hmem, hid⟩ := Table.find_eq_some.mp (Option.mem_def.mp hd)
      exact ⟨hid, hadv.started _ (hid ▸ h.dunned d hmem)⟩
  | returns hwhy =>
    refine ⟨hkept.row, fun job hjob => ?_, trivial⟩
    exact started_of_returns hwhy (hworking.isFor job hjob) hworking.hasRead hadv
  | raises => exact ⟨hkept.row, fun _ _ => trivial, trivial⟩

end Local

theorem retried_stable : Processes.Stable program (fun (_ : ℕ) _ _ _ => True)
    (fun w => Retried w.db) (fun _ w => Working w.db) where
  shared i a w p _ h hworking := h.change hworking (program_change i a w p)
  own i a w p _ h hworking :=
    hworking.moves h ((program_change i a w p).advances hworking.hasRead) (program_moves i a w p)
  other i _ a w p _ _ _ _ hworking hother :=
    hother.mono ((program_change i a w p).advances hworking.hasRead)

/-- **No owed fee is without somebody who retries it, unless its row was given up.** In every
interleaving of billing, outbox processing with any outcome per attempt, dunning retries and
webhooks: a failed charge has a dunning state that is retrying, and a pending one has a `charge_fee`
row that is pending or processing, or dead-lettered. -/
theorem charge_is_retried {db₀ : Database} (hstart : NoCharges db₀) (steps : List (ℕ × Action)) :
    ∀ charge ∈ (Processes.run program steps (start db₀)).shared.db.feeCharges,
      (charge.status = .failed →
        ∃ d ∈ (Processes.run program steps (start db₀)).shared.db.dunningStates,
          d.feeChargeId = charge.id ∧ d.status = .retrying) ∧
      (charge.status = .pending →
        ∃ row ∈ (Processes.run program steps (start db₀)).shared.db.chargeFeeJobs,
          row.payload = charge.id ∧
            (row.status = .pending ∨ row.status = .processing ∨ row.status = .deadLetter)) := by
  have hbegin : Processes.Holds (fun w => Retried w.db) (fun _ w => Working w.db) (start db₀) := by
    refine ⟨⟨fun c hc => ?_, fun d hd => ?_, fun c hc => ?_, fun row hrow => ?_⟩, fun _ => ?_⟩
    · exact absurd hc (hstart.not_mem c)
    · rw [Table.mem_iff, show (start db₀).shared.db.dunningStates.rows = [] from hstart.dunnings] at hd
      cases hd
    · exact absurd hc (hstart.not_mem c)
    · rw [Table.mem_iff, show (start db₀).shared.db.chargeFeeJobs.rows = [] from hstart.jobs] at hrow
      cases hrow
    · exact ⟨fun _ hjob => (by cases hjob), fun _ hjob => (by cases hjob), trivial⟩
  have hend := (retried_stable.run (Processes.along_true program steps _) hbegin).1
  refine fun charge hcharge => ⟨hend.failed charge hcharge, fun hpending => ?_⟩
  obtain ⟨row, hrow, hpayload⟩ := hend.queued charge hcharge
  refine ⟨row, hrow, hpayload, ?_⟩
  cases hstatus : row.status with
  | pending => exact Or.inl rfl
  | processing => exact Or.inr (Or.inl rfl)
  | deadLetter => exact Or.inr (Or.inr rfl)
  | completed =>
    obtain ⟨charge', hcharge', hid, hne⟩ := hend.completed row hrow hstatus
    obtain rfl := Table.eq_of_key_eq hcharge' hcharge (hid.trans hpayload)
    exact absurd hpending hne

/-- The first charge is declined. -/
def declined : List (ℕ × Action) :=
  billedAndClaimed ++ twoStatements 0 17 ++ [(0, .answer .declined)] ++ twoStatements 0 18 ++
    [commits 0 19 true, (0, .record 0 5)]

theorem charge_is_retried_after_a_decline :
    ∃ charge ∈ (Processes.run program declined (start feeAccrued)).shared.db.feeCharges,
      charge.status = .failed ∧
        ∃ d ∈ (Processes.run program declined (start feeAccrued)).shared.db.dunningStates,
          d.feeChargeId = charge.id ∧ d.status = .retrying := by
  have hstart : NoCharges feeAccrued :=
    ⟨by decide +kernel, by decide +kernel, by decide +kernel, by decide +kernel⟩
  have hfailed : ∃ charge ∈
      (Processes.run program declined (start feeAccrued)).shared.db.feeCharges.rows,
      charge.status = .failed := by decide +kernel
  obtain ⟨charge, hcharge, hstatus⟩ := hfailed
  exact ⟨charge, hcharge, hstatus, (charge_is_retried hstart declined charge hcharge).1 hstatus⟩

/-- An execution that finds no payment method, and its record. -/
def noMethod : List (ℕ × Action) :=
  [(0, .claim 16 "worker" (86400000000 * 31))] ++ twoStatements 0 17 ++ [(0, .record 0 5)]

/-- The fee of a customer without a payment method is billed and charged five times. -/
def withoutMethod : List (ℕ × Action) :=
  [(0, .createPendingCharge (envAt (86400000000 * 31) 16) 1 firstOfFebruary)] ++
    noMethod ++ noMethod ++ noMethod ++ noMethod ++ noMethod

/-- **An owed fee that nobody retries**: the charge is pending, its row was given up, and there is
no dunning state. -/
theorem no_payment_method_gives_up :
    (∃ charge ∈ (Processes.run program withoutMethod (start feeAccrued)).shared.db.feeCharges.rows,
      charge.id = 16 ∧ charge.status = .pending) ∧
      (∀ row ∈ (Processes.run program withoutMethod (start feeAccrued)).shared.db.chargeFeeJobs.rows,
        row.status = .deadLetter) ∧
      (Processes.run program withoutMethod (start feeAccrued)).shared.db.dunningStates.rows = [] := by
  decide +kernel

end Trueup.Fees.Charging
