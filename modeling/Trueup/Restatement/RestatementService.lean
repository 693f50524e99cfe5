import Trueup.Valuation.TwrService

/-! # Restatement

`services/restatement` and `services/fees/fee_restatement_disclosure_service.py`: after a correcting
entry the stored windows around its date are recomputed, each with a restatement event, and the
published periods around it are linked again, checked against their watermark and, when a fee was
charged for them, disclosed.

A restatement raises or writes sub-period returns, restatement events and disclosures; it touches
nothing else (`restate_ok`). -/

namespace Trueup.Restatement

open Trueup.Core Trueup.Models Trueup.Lib Trueup.Lib.Transaction Trueup.Valuation

/-! ### Snapshots -/

/-- The loop of `derive`: the row of each window as of the watermark. -/
def rowsAsOf (db : Database) (customerId : Uuid) (cutoff : Instant) :
    List (Date × Date) → Except Error (List SubPeriodReturn)
  | [] => .ok []
  | (vBegin, vEnd) :: windows => do
    let row ← ofOption (asOfForSubPeriod db customerId vBegin vEnd cutoff) Error.snapshotDerivation
    let rows ← rowsAsOf db customerId cutoff windows
    return row :: rows

/-- `derive`: the linked return and the balance as of the watermark. -/
def derive (db : Database) (customerId : Uuid) (periodStart periodEnd : Date) (cutoff : Instant) :
    Except Error (ℚ × Money) := do
  let windows := pairwise (boundaries db customerId periodStart periodEnd)
  let rows ← rowsAsOf db customerId cutoff windows
  let twr ← link rows
  return (twr, (rows.getLast?.map (·.valueEnd)).getD 0)

/-- `cross_check`. -/
def crossCheck (db : Database) (snapshot : PublishedSnapshot) : Except Error Unit := do
  let (twr, balance) ← derive db snapshot.customerId snapshot.periodStart snapshot.periodEnd
    snapshot.publishWatermark
  check (twr = snapshot.twr ∧ balance = snapshot.balance) .snapshotCrossCheckFailed

/-- `list_touching`. -/
def listTouching (db : Database) (customerId : Uuid) (day : Date) : List PublishedSnapshot :=
  db.publishedSnapshots.filter fun s =>
    s.customerId = customerId ∧ s.periodStart ≤ day ∧ day ≤ s.periodEnd

/-! ### Fee disclosures -/

/-- `has_succeeded_charge_for_period`. -/
def succeededChargeForPeriod (db : Database) (customerId : Uuid) (periodStart periodEnd : Date) :
    Except Error (Option FeeCharge) :=
  scalarOneOrNone (db.feeCharges.rows.filter fun charge => charge.customerId = customerId ∧
    charge.billingPeriodStart ≤ periodEnd ∧ periodStart ≤ charge.billingPeriodEnd ∧
    charge.status = .succeeded)

/-- `check_and_disclose`. -/
def checkAndDisclose (customerId : Uuid) (periodStart periodEnd : Date)
    (restatementEventId : Uuid) : Tx Unit := do
  let charge ← read fun db => succeededChargeForPeriod db customerId periodStart periodEnd
  match charge with
  | none => return ()
  | some charge =>
    addFeeRestatementDisclosure { customerId, feeChargeId := charge.id, restatementEventId }

/-! ### The pipeline -/

instance window_lawfulBEq : LawfulBEq (Date × Date) := inferInstance

/-- `containing`: the latest row of every stored window that contains the day. -/
def containing (db : Database) (customerId : Uuid) (day : Date) : List SubPeriodReturn :=
  (latestByWindow (db.subPeriodReturns.rows.filter fun row => row.customerId = customerId ∧
    row.subPeriodStart ≤ day ∧ day ≤ row.subPeriodEnd)).rows.map Prod.snd

/-- The body of `_relink_and_cross_check` for one snapshot; `relinked` are the periods done. -/
def relinkSnapshot (env : Env) (disclose : Bool) (customerId restatementEventId : Uuid)
    (relinked : List (Date × Date)) (snapshot : PublishedSnapshot) : Tx Unit := do
  whenever ((snapshot.periodStart, snapshot.periodEnd) ∉ relinked) do
    let _ ← computeTwr env customerId snapshot.periodStart snapshot.periodEnd
  read fun db => crossCheck db snapshot
  whenever disclose do
    checkAndDisclose customerId snapshot.periodStart snapshot.periodEnd restatementEventId

/-- `_relink_and_cross_check`. -/
def relinkAndCrossCheck (env : Env) (disclose : Bool) (customerId restatementEventId : Uuid) :
    List PublishedSnapshot → List (Date × Date) → Tx Unit
  | [], _ => return ()
  | snapshot :: snapshots, relinked => do
    relinkSnapshot env disclose customerId restatementEventId relinked snapshot
    relinkAndCrossCheck env disclose customerId restatementEventId snapshots
      ((snapshot.periodStart, snapshot.periodEnd) :: relinked)

/-- The recomputation of one window, with its restatement event. -/
def restateWindow (env : Env) (customerId : Uuid) (triggerType : RestatementTriggerType)
    (source : SourceEvent) (window : SubPeriodReturn) : Tx Unit := do
  addRestatementEvent {
    id := env.uuid4 (.restatementEvent source window.subPeriodStart window.subPeriodEnd)
    customerId, affectedPeriodStart := window.subPeriodStart
    affectedPeriodEnd := window.subPeriodEnd, triggerType, triggerSourceEvent := source }
  let _ ← subPeriodReturn env customerId window.subPeriodStart window.subPeriodEnd

/-- `restate`; `disclose` says whether a fee-disclosure checker was given. -/
def restate (env : Env) (disclose : Bool) (customerId : Uuid) (affectedDate : Date)
    (triggerType : RestatementTriggerType) (source : SourceEvent) : Tx Unit := do
  let windows ← read fun db => .ok (containing db customerId affectedDate)
  match windows with
  | [] =>
    addRestatementEvent {
      id := env.uuid4 (.restatementEvent source affectedDate affectedDate)
      customerId, affectedPeriodStart := affectedDate, affectedPeriodEnd := affectedDate
      triggerType, triggerSourceEvent := source }
  | window :: rest =>
    each (restateWindow env customerId triggerType source) (window :: rest)
    let touched ← read fun db => .ok (listTouching db customerId affectedDate)
    relinkAndCrossCheck env disclose customerId
      (env.uuid4 (.restatementEvent source window.subPeriodStart window.subPeriodEnd)) touched []

/-! ### What is written -/

section Keeps
variable {I : Database → Prop} {env : Env} {customerId : Uuid}
  (hrecompute : ∀ vBegin vEnd, Keeps I (subPeriodReturn env customerId vBegin vEnd))
  (hevent : ∀ event, Keeps I (addRestatementEvent event))
  (hdisclosure : ∀ disclosure, Keeps I (addFeeRestatementDisclosure disclosure))

include hrecompute hdisclosure in
theorem keeps_relinkAndCrossCheck (disclose : Bool) (id : Uuid) : ∀ snapshots relinked,
    Keeps I (relinkAndCrossCheck env disclose customerId id snapshots relinked)
  | [], _ => keeps_pure _
  | snapshot :: snapshots, relinked => by
    refine keeps_bind (keeps_bind (keeps_whenever ?_) fun _ => keeps_bind (keeps_read _) fun _ =>
      keeps_whenever (keeps_bind (keeps_read _) fun charge => ?_)) fun _ =>
      keeps_relinkAndCrossCheck disclose id snapshots _
    · exact keeps_bind (keeps_computeTwr hrecompute _ _) fun _ => keeps_pure _
    · cases charge with
      | none => exact keeps_pure _
      | some charge => exact hdisclosure _

include hrecompute hevent in
theorem keeps_restateWindow (triggerType : RestatementTriggerType) (source : SourceEvent)
    (window : SubPeriodReturn) :
    Keeps I (restateWindow env customerId triggerType source window) :=
  keeps_bind (hevent _) fun _ => keeps_bind (hrecompute _ _) fun _ => keeps_pure _

include hrecompute hevent hdisclosure in
/-- **The rule of a restatement**: what the recomputations of the customer's windows and the two
logs keep, the restatement keeps. -/
theorem keeps_restate (disclose : Bool) (affectedDate : Date)
    (triggerType : RestatementTriggerType) (source : SourceEvent) :
    Keeps I (restate env disclose customerId affectedDate triggerType source) := by
  refine keeps_bind (keeps_read _) fun windows => ?_
  cases windows with
  | nil => exact hevent _
  | cons window rest =>
    refine keeps_bind (keeps_each fun w _ =>
      keeps_restateWindow hrecompute hevent triggerType source w) fun _ => ?_
    exact keeps_bind (keeps_read _) fun _ => keeps_relinkAndCrossCheck hrecompute hdisclosure _ _ _ _

end Keeps

/-- The database without what a restatement writes. -/
def withoutRestatement (db : Database) : Database :=
  { db with subPeriodReturns := ∅, restatementEvents := [], feeRestatementDisclosures := [] }

theorem frames_restate (env : Env) (disclose : Bool) (customerId : Uuid) (affectedDate : Date)
    (triggerType : RestatementTriggerType) (source : SourceEvent) :
    Frames withoutRestatement
      (restate env disclose customerId affectedDate triggerType source) := by
  refine fun c => keeps_restate (fun vBegin vEnd => ?_) (fun event => ?_) (fun disclosure => ?_)
    disclose affectedDate triggerType source
  · exact frames_subPeriodReturn (fun _ _ => rfl) env customerId vBegin vEnd c
  · refine frames_of (fun s a s' h => ?_) c
    rw [addRestatementEvent_ok.mp h]
    rfl
  · refine frames_of (fun s a s' h => ?_) c
    rw [addFeeRestatementDisclosure_ok.mp h]
    rfl

/-- **A restatement writes its own three tables only.** -/
theorem restate_ok {env : Env} {disclose : Bool} {customerId : Uuid} {affectedDate : Date}
    {triggerType : RestatementTriggerType} {source : SourceEvent} {db db' : Database} {u : Unit}
    (h : (restate env disclose customerId affectedDate triggerType source).run db = .ok (u, db')) :
    ∃ returns events disclosures, db' = { db with
      subPeriodReturns := returns, restatementEvents := events
      feeRestatementDisclosures := disclosures } := by
  have hf := (frames_restate env disclose customerId affectedDate triggerType source).eq h
  refine ⟨db'.subPeriodReturns, db'.restatementEvents, db'.feeRestatementDisclosures, ?_⟩
  cases db
  cases db'
  simp only [withoutRestatement, Database.mk.injEq] at hf ⊢
  tauto

end Trueup.Restatement
