import Trueup.Lib.Commuting
import Trueup.Lots.WashSaleService
import Trueup.Models.OpenedAccount
import Trueup.Reporting
import Trueup.Restatement.CloseRecording
import Trueup.Valuation.SubPeriods

/-! # Disclosures of restated fees

A restatement that is given a fee-disclosure checker looks up, for every published period it
touches, the succeeded charge whose billing period overlaps it.

* `restate_disclosing_ok`: a restatement with a checker does what it does without, and discloses the
  one overlapping charge of each touched period, if there is no second one.
* `RestatesAs.discloses`: the operations of the five sites disclose by their restatement only, and
  those of a site without a checker nothing at all.
* `charges_disclosed_iff`: when every overlapping charge is disclosed. -/

namespace Trueup.Restatement

open Trueup.Core Trueup.Models Trueup.Lib Trueup.Lib.Transaction Trueup.Ledger Trueup.Valuation
open Trueup.Lots

/-! ### The sites -/

/-- The places that construct a `RestatementService`. -/
inductive TriggerSite
  | exDateDividend | payDateDividend | split | washSaleAdjustment | correctedClose
  deriving DecidableEq

/-- Whether the site passes a `fee_disclosure_checker`. -/
def TriggerSite.hasChecker : TriggerSite → Bool
  | .exDateDividend => true
  | .payDateDividend => false
  | .split => true
  | .washSaleAdjustment => true
  | .correctedClose => false

/-- The `trigger_type` of the site. -/
def TriggerSite.triggerType : TriggerSite → RestatementTriggerType
  | .exDateDividend => .lateDividend
  | .payDateDividend => .lateDividend
  | .split => .split
  | .washSaleAdjustment => .washSaleAdjustment
  | .correctedClose => .correctedClose

/-- The restatement of a site. -/
def restateFrom (env : Env) (site : TriggerSite) (customerId : Uuid) (affectedDate : Date)
    (source : SourceEvent) : Tx Unit :=
  restate env site.hasChecker customerId affectedDate site.triggerType source

/-- What has been disclosed. -/
def disclosed (db : Database) : List FeeRestatementDisclosure := db.feeRestatementDisclosures

/-- The operation ends in the restatement of the site, for the customer and the day; what comes
before decides on its source event, and discloses nothing. -/
inductive RestatesAs (env : Env) (site : TriggerSite) (customerId : Uuid) (affectedDate : Date) :
    Tx Unit → Prop
  | restate (source : SourceEvent) :
    RestatesAs env site customerId affectedDate (restateFrom env site customerId affectedDate source)
  | bind {α : Type} (x : Tx α) (f : α → Tx Unit) (hx : Frames disclosed x)
      (h : ∀ a, RestatesAs env site customerId affectedDate (f a)) :
    RestatesAs env site customerId affectedDate (x >>= f)
  | whenever (c : Prop) [Decidable c] (x : Tx Unit)
      (h : RestatesAs env site customerId affectedDate x) :
    RestatesAs env site customerId affectedDate (whenever c x)

theorem frames_disclosed_getOrCreateCustomerAccount (customerId : Uuid) (role : AccountRole)
    (securityId : Option Uuid) :
    Frames disclosed (getOrCreateCustomerAccount customerId role securityId) := by
  refine frames_of fun db a db' h => ?_
  obtain ⟨-, accounts, rfl⟩ := getOrCreateCustomerAccount_ok h
  rfl

theorem frames_disclosed_post (id : Uuid) (entryType : JournalEntryType) (effectiveDate : Date)
    (source : SourceEvent) (legs : List PostingLeg) :
    Frames disclosed (post id entryType effectiveDate source legs) := by
  refine frames_of fun db a db' h => ?_
  obtain ⟨-, -, t, -, rfl⟩ := post_ok h
  rfl

theorem restatesAs_declareDividendFor (env : Env) (incomeAccount : Account) (securityId : Uuid)
    (perShareAmount : Price) (exDate : Date) (customerId : Uuid) :
    RestatesAs env .exDateDividend customerId exDate
      (declareDividendFor env incomeAccount securityId perShareAmount exDate customerId) :=
  .bind _ _ (frames_read _) fun _ => .whenever _ _ <| .bind _ _ (frames_lift _) fun _ =>
    .bind _ _ (frames_disclosed_getOrCreateCustomerAccount _ _ _) fun _ =>
    .bind _ _ (frames_disclosed_post _ _ _ _ _) fun _ => .restate _

theorem restatesAs_payDividend (env : Env) (customerId : Uuid) (amount : Money) (payDate : Date) :
    RestatesAs env .payDateDividend customerId payDate
      (payDividend env customerId amount payDate) := by
  refine .bind _ _ (frames_read _) fun _ =>
    .bind _ _ (frames_disclosed_getOrCreateCustomerAccount _ _ _) fun _ =>
    .bind _ _ (frames_disclosed_post _ _ _ _ _) fun _ =>
    .bind _ _ (frames_of fun db a db' h => ?_) fun _ => .restate _
  obtain ⟨t, -, rfl⟩ := addSettlementObligation_ok.mp h
  rfl

theorem restatesAs_splitCustomer (env : Env) (securityId : Uuid) (ratio : SplitRatio)
    (effectiveDate : Date) (customerId : Uuid) :
    RestatesAs env .split customerId effectiveDate
      (splitCustomer env securityId ratio effectiveDate customerId) := by
  refine .bind _ _ (frames_read _) fun _ => .whenever _ _ <| .bind _ _ (frames_lift _) fun _ =>
    .bind _ _ (frames_each fun lotId _ => frames_of fun db a db' h => ?_) fun _ =>
    .bind _ _ (frames_lift _) fun _ =>
    .bind _ _ (frames_disclosed_getOrCreateCustomerAccount _ _ _) fun _ =>
    .bind _ _ (frames_disclosed_post _ _ _ _ _) fun _ => .restate _
  obtain ⟨lot, -, lot', -, -, rfl⟩ := scaleLot_ok h
  rfl

theorem restatesAs_adjust (env : Env) (consumption : LotConsumption) (lot : TaxLot) :
    RestatesAs env .washSaleAdjustment lot.customerId lot.acquiredAt
      (adjust env consumption lot) := by
  refine .bind _ _ (frames_disclosed_getOrCreateCustomerAccount _ _ _) fun _ =>
    .bind _ _ (frames_disclosed_getOrCreateCustomerAccount _ _ _) fun _ =>
    .bind _ _ (frames_disclosed_post _ _ _ _ _) fun _ =>
    .bind _ _ (frames_of fun db a db' h => ?_) fun _ => .bind _ _ (frames_lift _) fun _ =>
    .bind _ _ (frames_of fun db a db' h => ?_) fun _ => .bind _ _ (frames_lift _) fun _ =>
    .bind _ _ (frames_of fun db a db' h => ?_) fun _ => .restate _
  · obtain ⟨t, -, rfl⟩ := addWashSaleAdjustment_ok.mp h
    rfl
  · rw [setTaxLot_ok.mp h]
    rfl
  · rw [setLotConsumption_ok.mp h]
    rfl

theorem injectCorrectedPrice_eq (env : Env) (securityId : Uuid) (marketDate : Date) (newClose : Price) :
    injectCorrectedPrice env securityId marketDate newClose = (do
      addDailyClose (closeAt env securityId marketDate newClose)
      let customers ← read fun db => .ok (listCustomersHolding db securityId)
      each (fun customerId => restateFrom env .correctedClose customerId marketDate
        (.simulatedCorrectedClose securityId marketDate newClose)) customers) := rfl

/-! ### With a checker and without -/

/-- The succeeded charges whose billing period overlaps the period of a snapshot. -/
def overlappingCharges (db : Database) (customerId : Uuid) (snapshot : PublishedSnapshot) :
    List FeeCharge :=
  db.feeCharges.rows.filter fun charge => charge.customerId = customerId ∧
    charge.billingPeriodStart ≤ snapshot.periodEnd ∧
    snapshot.periodStart ≤ charge.billingPeriodEnd ∧ charge.status = .succeeded

/-- The disclosures of the charges of some snapshots. -/
def disclosuresOf (db : Database) (customerId restatementEventId : Uuid)
    (snapshots : List PublishedSnapshot) : List FeeRestatementDisclosure :=
  snapshots.flatMap fun snapshot => (overlappingCharges db customerId snapshot).map fun charge =>
    ⟨customerId, charge.id, restatementEventId⟩

/-- The database with other disclosures. -/
def withDisclosures (disclosures : List FeeRestatementDisclosure) (db : Database) : Database :=
  { db with feeRestatementDisclosures := disclosures }

theorem checkAndDisclose_ok {customerId eventId : Uuid} {snapshot : PublishedSnapshot}
    {db db' : Database} {u : Unit} :
    (checkAndDisclose customerId snapshot.periodStart snapshot.periodEnd eventId).run db = .ok (u, db') ↔
      (overlappingCharges db customerId snapshot).length ≤ 1 ∧
        db' = withDisclosures (db.feeRestatementDisclosures ++
          (overlappingCharges db customerId snapshot).map fun charge =>
            ⟨customerId, charge.id, eventId⟩) db := by
  have hcharges : succeededChargeForPeriod db customerId snapshot.periodStart snapshot.periodEnd =
      scalarOneOrNone (overlappingCharges db customerId snapshot) := rfl
  simp only [checkAndDisclose, bind_ok, read_ok, hcharges]
  match overlappingCharges db customerId snapshot with
  | [] =>
    constructor
    · rintro ⟨_, _, ⟨hnone, rfl⟩, hdone⟩
      cases hnone
      obtain ⟨-, rfl⟩ := pure_ok.mp hdone
      exact ⟨Nat.zero_le 1, by rw [List.map_nil, List.append_nil]; rfl⟩
    · rintro ⟨-, rfl⟩
      refine ⟨none, db, ⟨rfl, rfl⟩, pure_ok.mpr ⟨rfl, ?_⟩⟩
      rw [List.map_nil, List.append_nil]
      rfl
  | [charge] => simp [scalarOneOrNone, addFeeRestatementDisclosure_ok, withDisclosures]
  | _ :: _ :: _ => simp [scalarOneOrNone]

section Commutes
variable {env : Env} {customerId : Uuid} (disclosures : List FeeRestatementDisclosure)

theorem commutes_subPeriodReturn (vBegin vEnd : Date) :
    Commutes (withDisclosures disclosures) (subPeriodReturn env customerId vBegin vEnd) := by
  have hbook : ∀ db day, SameBook db (withDisclosures disclosures db) customerId day :=
    fun _ _ => ⟨rfl, fun _ _ => rfl, fun _ => rfl⟩
  refine commutes_bind (commutes_read fun db => currentSubPeriod_congr (hbook db _) (hbook db _))
    fun row => commutes_bind (commutes_read fun _ => rfl) fun existing => ?_
  split
  · exact commutes_pure _
  · refine commutes_bind (commutes_write fun db => ?_) fun _ => commutes_pure _
    show (check _ _ >>= fun _ => ofOption (db.subPeriodReturns.insert row) _ >>= fun t => _) = _
    cases (check (|row.returnPct| < 10 ^ 8) Error.dataError : Except Error Unit) with
    | error e => rfl
    | ok =>
      cases db.subPeriodReturns.insert row <;> rfl

theorem commutes_computeTwr (periodStart periodEnd : Date) :
    Commutes (withDisclosures disclosures) (computeTwr env customerId periodStart periodEnd) := by
  have hwindows : ∀ windows,
      Commutes (withDisclosures disclosures) (subPeriodReturns env customerId windows) := by
    intro windows
    induction windows with
    | nil => exact commutes_pure _
    | cons window windows ih =>
      exact commutes_bind (commutes_subPeriodReturn disclosures _ _) fun _ =>
        commutes_bind ih fun _ => commutes_pure _
  exact commutes_bind (commutes_read fun _ => rfl) fun _ => commutes_bind (hwindows _) fun _ =>
    commutes_bind (commutes_lift _) fun _ => commutes_pure _

theorem crossCheck_withDisclosures (db : Database) (snapshot : PublishedSnapshot) :
    crossCheck (withDisclosures disclosures db) snapshot = crossCheck db snapshot := by
  have hrows : ∀ windows, rowsAsOf (withDisclosures disclosures db) snapshot.customerId
      snapshot.publishWatermark windows =
        rowsAsOf db snapshot.customerId snapshot.publishWatermark windows := by
    intro windows
    induction windows with
    | nil => rfl
    | cons window windows ih =>
      unfold rowsAsOf
      rw [ih]
      rfl
  unfold crossCheck derive
  simp only [hrows]
  rfl

theorem commutes_relinkAndCrossCheck (eventId : Uuid) (snapshots : List PublishedSnapshot)
    (relinked : List (Date × Date)) : Commutes (withDisclosures disclosures)
      (relinkAndCrossCheck env false customerId eventId snapshots relinked) := by
  induction snapshots generalizing relinked with
  | nil => exact commutes_pure _
  | cons snapshot snapshots ih =>
    refine commutes_bind (commutes_bind (commutes_whenever (commutes_bind
      (commutes_computeTwr disclosures _ _) fun _ => commutes_pure _)) fun _ =>
      commutes_bind (commutes_read fun db => crossCheck_withDisclosures disclosures db snapshot) fun _ =>
        commutes_pure ()) fun _ => ih _

end Commutes

/-! ### What is disclosed -/

section Disclosing
variable {env : Env} {customerId : Uuid}

/-- What the disclosures are made of. -/
def feeTables (db : Database) : Table FeeCharge.id × List FeeRestatementDisclosure :=
  (db.feeCharges, db.feeRestatementDisclosures)

/-- Without a checker nothing is disclosed, and the charges are left alone. -/
theorem frames_feeTables_relinkSnapshot (eventId : Uuid) (relinked : List (Date × Date))
    (snapshot : PublishedSnapshot) :
    Frames feeTables (relinkSnapshot env false customerId eventId relinked snapshot) :=
  frames_bind (frames_ite (frames_bind (frames_computeTwr (fun _ _ => rfl) env customerId _ _)
    fun _ => frames_pure _) (frames_pure _)) fun _ => frames_bind (frames_read _) fun _ => frames_pure _

theorem frames_feeTables_relink (eventId : Uuid) (snapshots : List PublishedSnapshot)
    (relinked : List (Date × Date)) :
    Frames feeTables (relinkAndCrossCheck env false customerId eventId snapshots relinked) := by
  induction snapshots generalizing relinked with
  | nil => exact frames_pure _
  | cons snapshot snapshots ih =>
    exact frames_bind (frames_feeTables_relinkSnapshot eventId relinked snapshot) fun _ => ih _

theorem overlappingCharges_congr {db db' : Database} (h : db'.feeCharges = db.feeCharges) :
    overlappingCharges db' customerId = overlappingCharges db customerId := by
  funext snapshot
  unfold overlappingCharges
  rw [h]

theorem relinkSnapshot_true (eventId : Uuid) (relinked : List (Date × Date))
    (snapshot : PublishedSnapshot) :
    relinkSnapshot env true customerId eventId relinked snapshot =
      relinkSnapshot env false customerId eventId relinked snapshot >>= fun _ =>
        checkAndDisclose customerId snapshot.periodStart snapshot.periodEnd eventId := by
  unfold relinkSnapshot
  simp only [bind_assoc]
  rfl

theorem relinkSnapshot_disclosing_ok {eventId : Uuid} {relinked : List (Date × Date)}
    {snapshot : PublishedSnapshot} {db db' : Database} :
    (relinkSnapshot env true customerId eventId relinked snapshot).run db = .ok ((), db') ↔
      ∃ plain, (relinkSnapshot env false customerId eventId relinked snapshot).run db =
          .ok ((), plain) ∧
        (overlappingCharges db customerId snapshot).length ≤ 1 ∧
        db' = withDisclosures (db.feeRestatementDisclosures ++
          (overlappingCharges db customerId snapshot).map fun charge =>
            ⟨customerId, charge.id, eventId⟩) plain := by
  rw [relinkSnapshot_true, bind_ok]
  have hplain : ∀ t, (relinkSnapshot env false customerId eventId relinked snapshot).run db =
      .ok ((), t) → t.feeRestatementDisclosures = db.feeRestatementDisclosures ∧
        overlappingCharges t customerId = overlappingCharges db customerId := by
    intro t ht
    have heq := (frames_feeTables_relinkSnapshot eventId relinked snapshot).eq ht
    exact ⟨congrArg Prod.snd heq, overlappingCharges_congr (congrArg Prod.fst heq)⟩
  constructor
  · rintro ⟨_, plain, hrun, hcheck⟩
    obtain ⟨hdisclosures, hcharges⟩ := hplain plain hrun
    rw [checkAndDisclose_ok, hdisclosures, hcharges] at hcheck
    exact ⟨plain, hrun, hcheck⟩
  · rintro ⟨plain, hrun, hcheck⟩
    obtain ⟨hdisclosures, hcharges⟩ := hplain plain hrun
    refine ⟨(), plain, hrun, ?_⟩
    rw [checkAndDisclose_ok, hdisclosures, hcharges]
    exact hcheck

/-- **The loop with a checker** does what it does without, and discloses the one charge of each
period. -/
theorem relink_disclosing_ok {eventId : Uuid} {snapshots : List PublishedSnapshot}
    {relinked : List (Date × Date)} {db db' : Database} :
    (relinkAndCrossCheck env true customerId eventId snapshots relinked).run db = .ok ((), db') ↔
      ∃ plain, (relinkAndCrossCheck env false customerId eventId snapshots relinked).run db =
          .ok ((), plain) ∧
        (∀ snapshot ∈ snapshots, (overlappingCharges db customerId snapshot).length ≤ 1) ∧
        db' = withDisclosures (db.feeRestatementDisclosures ++
          disclosuresOf db customerId eventId snapshots) plain := by
  induction snapshots generalizing db relinked with
  | nil =>
    have hnone : ∀ plain : Database, withDisclosures (plain.feeRestatementDisclosures ++
        disclosuresOf plain customerId eventId []) plain = plain := by
      intro plain
      unfold disclosuresOf
      rw [List.flatMap_nil, List.append_nil]
      rfl
    unfold relinkAndCrossCheck
    constructor
    · intro hrun
      obtain ⟨-, rfl⟩ := pure_ok.mp hrun
      exact ⟨db, hrun, fun _ h => absurd h List.not_mem_nil, (hnone db).symm⟩
    · rintro ⟨plain, hrun, -, rfl⟩
      obtain ⟨-, rfl⟩ := pure_ok.mp hrun
      rw [hnone db]
      exact hrun
  | cons snapshot snapshots ih =>
    have hmid : ∀ {plain}, (relinkSnapshot env false customerId eventId relinked snapshot).run db =
        .ok ((), plain) → ∀ disclosures,
          overlappingCharges (withDisclosures disclosures plain) customerId =
            overlappingCharges db customerId := fun hplain _ =>
      overlappingCharges_congr (congrArg Prod.fst
        ((frames_feeTables_relinkSnapshot eventId relinked snapshot).eq hplain))
    have hlist : db.feeRestatementDisclosures ++ disclosuresOf db customerId eventId (snapshot :: snapshots) =
        db.feeRestatementDisclosures ++ (overlappingCharges db customerId snapshot).map (fun charge =>
          ⟨customerId, charge.id, eventId⟩) ++ disclosuresOf db customerId eventId snapshots := by
      unfold disclosuresOf
      rw [List.flatMap_cons, List.append_assoc]
    unfold relinkAndCrossCheck
    simp only [List.forall_mem_cons, bind_ok, hlist]
    constructor
    · rintro ⟨_, mid, hfirst, hrest⟩
      obtain ⟨plain, hplain, hone, rfl⟩ := relinkSnapshot_disclosing_ok.mp hfirst
      obtain ⟨last, hrun, hall, rfl⟩ := ih.mp hrest
      -- the rest runs as it does without the disclosure of this period
      obtain ⟨final, hfinal, rfl⟩ := (commutes_relinkAndCrossCheck _ eventId snapshots _).ok.mp hrun
      refine ⟨final, ⟨(), plain, hplain, hfinal⟩, ⟨hone, ?_⟩, ?_⟩
      · rwa [hmid hplain] at hall
      · unfold disclosuresOf
        rw [hmid hplain]
        rfl
    · rintro ⟨final, ⟨_, plain, hplain, hfinal⟩, ⟨hone, hall⟩, rfl⟩
      refine ⟨(), _, relinkSnapshot_disclosing_ok.mpr ⟨plain, hplain, hone, rfl⟩, ih.mpr ⟨_,
        (commutes_relinkAndCrossCheck _ eventId snapshots _).ok.mpr ⟨final, hfinal, rfl⟩, ?_, ?_⟩⟩
      · rwa [hmid hplain]
      · unfold disclosuresOf
        rw [hmid hplain]
        rfl

theorem frames_addRestatementEvent (event : RestatementEvent) :
    Frames (fun db => (db.publishedSnapshots, feeTables db)) (addRestatementEvent event) :=
  frames_of fun _ _ _ hrun => by rw [addRestatementEvent_ok.mp hrun]; rfl

/-- The windows are computed again before any published period, and disclose nothing. -/
theorem frames_restateWindows (triggerType : RestatementTriggerType) (source : SourceEvent)
    (windows : List SubPeriodReturn) :
    Frames (fun db => (db.publishedSnapshots, feeTables db))
      (each (restateWindow env customerId triggerType source) windows) :=
  frames_each fun _ _ => frames_bind (frames_addRestatementEvent _) fun _ =>
    frames_bind (frames_subPeriodReturn (fun _ _ => rfl) env customerId _ _) fun _ => frames_pure _

variable {disclose : Bool} {affectedDate : Date} {triggerType : RestatementTriggerType}
  {source : SourceEvent} {db db' : Database}

/-- The two ways a restatement goes: a bare event, or the windows and then the touched periods. -/
theorem restate_cases :
    (restate env disclose customerId affectedDate triggerType source).run db = .ok ((), db') ↔
      (containing db customerId affectedDate = [] ∧
        (addRestatementEvent {
          id := env.uuid4 (.restatementEvent source affectedDate affectedDate)
          customerId, affectedPeriodStart := affectedDate, affectedPeriodEnd := affectedDate
          triggerType, triggerSourceEvent := source }).run db = .ok ((), db')) ∨
      ∃ window rest mid, containing db customerId affectedDate = window :: rest ∧
        (each (restateWindow env customerId triggerType source) (window :: rest)).run db =
          .ok ((), mid) ∧
        (relinkAndCrossCheck env disclose customerId
          (env.uuid4 (.restatementEvent source window.subPeriodStart window.subPeriodEnd))
          (listTouching db customerId affectedDate) []).run mid = .ok ((), db') := by
  have htouching : ∀ windows mid,
      (each (restateWindow env customerId triggerType source) windows).run db = .ok ((), mid) →
        listTouching mid customerId affectedDate = listTouching db customerId affectedDate := by
    intro windows mid hrun
    have hsnapshots : mid.publishedSnapshots = db.publishedSnapshots :=
      congrArg Prod.fst ((frames_restateWindows triggerType source windows).eq hrun)
    unfold listTouching
    rw [hsnapshots]
  unfold restate
  simp only [bind_ok, read_ok]
  constructor
  · rintro ⟨windows, _, ⟨hwindows, rfl⟩, hrun⟩
    cases hwindows
    match hcontaining : containing db customerId affectedDate with
    | [] =>
      rw [hcontaining] at hrun
      exact Or.inl ⟨rfl, hrun⟩
    | window :: rest =>
      rw [hcontaining] at hrun
      simp only [bind_ok, read_ok] at hrun
      obtain ⟨_, mid, hwindows, _, _, ⟨htouched, rfl⟩, hrelink⟩ := hrun
      cases htouched
      rw [htouching _ mid hwindows] at hrelink
      exact Or.inr ⟨window, rest, mid, rfl, hwindows, hrelink⟩
  · rintro (⟨hcontaining, hrun⟩ | ⟨window, rest, mid, hcontaining, hwindows, hrelink⟩)
    · refine ⟨_, db, ⟨rfl, rfl⟩, ?_⟩
      rw [hcontaining]
      exact hrun
    · refine ⟨_, db, ⟨rfl, rfl⟩, ?_⟩
      rw [hcontaining]
      simp only [bind_ok, read_ok]
      refine ⟨(), mid, hwindows, _, mid, ⟨rfl, rfl⟩, ?_⟩
      rw [htouching _ mid hwindows]
      exact hrelink

theorem restate_not_disclosing
    (h : (restate env false customerId affectedDate triggerType source).run db = .ok ((), db')) :
    db'.feeRestatementDisclosures = db.feeRestatementDisclosures := by
  rcases restate_cases.mp h with ⟨-, hrun⟩ | ⟨window, rest, mid, -, hwindows, hrelink⟩
  · exact congrArg (fun t => t.2.2) ((frames_addRestatementEvent _).eq hrun)
  · have hmid := congrArg (fun t => t.2.2) ((frames_restateWindows triggerType source _).eq hwindows)
    have hlast := congrArg Prod.snd ((frames_feeTables_relink _ _ _).eq hrelink)
    exact hlast.trans hmid

/-- **A restatement with a checker** does what it does without. If a window contains the date, no
touched period has a second overlapping charge, and the first ones are disclosed. -/
theorem restate_disclosing_ok :
    (restate env true customerId affectedDate triggerType source).run db = .ok ((), db') ↔
      ∃ plain, (restate env false customerId affectedDate triggerType source).run db =
          .ok ((), plain) ∧
        ((containing db customerId affectedDate = [] ∧ db' = plain) ∨
          (containing db customerId affectedDate ≠ [] ∧
            (∀ snapshot ∈ listTouching db customerId affectedDate,
              (overlappingCharges db customerId snapshot).length ≤ 1) ∧
            ∃ window ∈ (containing db customerId affectedDate).head?,
              db' = withDisclosures (db.feeRestatementDisclosures ++ disclosuresOf db customerId
                (env.uuid4 (.restatementEvent source window.subPeriodStart window.subPeriodEnd))
                (listTouching db customerId affectedDate)) plain)) := by
  have hmid : ∀ {windows mid},
      (each (restateWindow env customerId triggerType source) windows).run db = .ok ((), mid) →
        mid.feeRestatementDisclosures = db.feeRestatementDisclosures ∧
          overlappingCharges mid customerId = overlappingCharges db customerId := by
    intro windows mid hrun
    have heq := (frames_restateWindows triggerType source windows).eq hrun
    exact ⟨congrArg (fun t => t.2.2) heq, overlappingCharges_congr (congrArg (fun t => t.2.1) heq)⟩
  constructor
  · intro h
    rcases restate_cases.mp h with ⟨hnone, hrun⟩ | ⟨window, rest, mid, hcontaining, hwindows, hrelink⟩
    · exact ⟨db', restate_cases.mpr (Or.inl ⟨hnone, hrun⟩), Or.inl ⟨hnone, rfl⟩⟩
    · obtain ⟨plain, hplain, hone, rfl⟩ := relink_disclosing_ok.mp hrelink
      obtain ⟨hdisclosures, hcharges⟩ := hmid hwindows
      refine ⟨plain, restate_cases.mpr (Or.inr ⟨window, rest, mid, hcontaining, hwindows, hplain⟩),
        Or.inr ⟨?_, ?_, window, ?_, ?_⟩⟩
      · rw [hcontaining]
        exact List.cons_ne_nil _ _
      · rwa [hcharges] at hone
      · rw [hcontaining]
        rfl
      · unfold disclosuresOf
        rw [hdisclosures, hcharges]
  · rintro ⟨plain, hplain, hcases⟩
    rcases restate_cases.mp hplain with ⟨hnone, hrun⟩ | ⟨window, rest, mid, hcontaining, hwindows, hrelink⟩
    · rcases hcases with ⟨-, rfl⟩ | ⟨hsome, -⟩
      · exact restate_cases.mpr (Or.inl ⟨hnone, hrun⟩)
      · exact absurd hnone hsome
    · rcases hcases with ⟨hnone, -⟩ | ⟨-, hone, first, hfirst, rfl⟩
      · rw [hcontaining] at hnone
        cases hnone
      · rw [hcontaining] at hfirst
        cases hfirst
        obtain ⟨hdisclosures, hcharges⟩ := hmid hwindows
        refine restate_cases.mpr (Or.inr ⟨window, rest, mid, hcontaining, hwindows,
          relink_disclosing_ok.mpr ⟨plain, hrelink, ?_, ?_⟩⟩)
        · rwa [hcharges]
        · unfold disclosuresOf
          rw [hdisclosures, hcharges]

end Disclosing

/-! ### The sites, again -/

section Sites
variable {env : Env} {site : TriggerSite} {customerId : Uuid} {affectedDate : Date}
  {source : SourceEvent} {db : Database}

/-- **An operation discloses by its restatement only**: it has disclosed nothing, or its restatement
went through from a state with the disclosures of before. -/
theorem RestatesAs.discloses {x : Tx Unit} (h : RestatesAs env site customerId affectedDate x) :
    ∀ {db db' : Database}, x.run db = .ok ((), db') →
      disclosed db' = disclosed db ∨ ∃ source mid, disclosed mid = disclosed db ∧
        (restateFrom env site customerId affectedDate source).run mid = .ok ((), db') := by
  induction h with
  | restate source => exact fun {db db'} hrun => Or.inr ⟨source, db, rfl, hrun⟩
  | bind x f hx h ih =>
    intro db db' hrun
    obtain ⟨a, mid, hfirst, hrest⟩ := bind_ok.mp hrun
    have hmid := hx.eq hfirst
    rcases ih a hrest with hnone | ⟨source, last, hlast, hrestate⟩
    · exact Or.inl (hnone.trans hmid)
    · exact Or.inr ⟨source, last, hlast.trans hmid, hrestate⟩
  | whenever c x h ih =>
    intro db db' hrun
    unfold Transaction.whenever at hrun
    split_ifs at hrun with hc
    · exact ih hrun
    · obtain ⟨-, rfl⟩ := pure_ok.mp hrun
      exact Or.inl rfl

/-- Without a checker, the operations of a site disclose nothing. -/
theorem RestatesAs.not_disclosing {x : Tx Unit} (h : RestatesAs env site customerId affectedDate x)
    (hsite : site.hasChecker = false) : Frames disclosed x := by
  refine frames_of fun db u db' hrun => ?_
  rcases h.discloses hrun with hnone | ⟨source, mid, hmid, hrestate⟩
  · exact hnone
  · unfold restateFrom at hrestate
    rw [hsite] at hrestate
    exact (restate_not_disclosing hrestate).trans hmid

/-- **The operations without a checker**: neither the payment of a dividend nor a corrected close
discloses anything, whatever has been charged. -/
theorem payDividend_discloses_nothing (env : Env) (customerId : Uuid) (amount : Money) (payDate : Date) :
    Frames disclosed (payDividend env customerId amount payDate) :=
  (restatesAs_payDividend env customerId amount payDate).not_disclosing rfl

theorem injectCorrectedPrice_discloses_nothing (env : Env) (securityId : Uuid) (marketDate : Date)
    (newClose : Price) :
    Frames disclosed (injectCorrectedPrice env securityId marketDate newClose) := by
  rw [injectCorrectedPrice_eq]
  refine frames_bind (frames_of fun db u db' h => ?_) fun _ => frames_bind (frames_read _) fun _ =>
    frames_each fun c _ =>
      (show RestatesAs env .correctedClose c marketDate _ from .restate _).not_disclosing rfl
  obtain ⟨-, rfl⟩ := addDailyClose_ok.mp h
  rfl

/-- A restatement of the site completes, and records a disclosure for every succeeded charge whose
billing period overlaps a published period it touches. -/
def DisclosesCharges (env : Env) (site : TriggerSite) (customerId : Uuid) (affectedDate : Date)
    (source : SourceEvent) (db : Database) : Prop :=
  ∀ snapshot ∈ listTouching db customerId affectedDate,
    ∀ charge ∈ overlappingCharges db customerId snapshot,
      ∃ db' new, (restateFrom env site customerId affectedDate source).run db = .ok ((), db') ∧
        db'.feeRestatementDisclosures = db.feeRestatementDisclosures ++ new ∧
        ∃ disclosure ∈ new, disclosure.customerId = customerId ∧ disclosure.feeChargeId = charge.id

theorem DisclosesCharges.hasChecker (h : DisclosesCharges env site customerId affectedDate source db)
    {snapshot : PublishedSnapshot} (hsnapshot : snapshot ∈ listTouching db customerId affectedDate)
    {charge : FeeCharge} (hcharge : charge ∈ overlappingCharges db customerId snapshot) :
    site.hasChecker = true := by
  obtain ⟨db', new, hrun, hnew, disclosure, hdisclosure, -⟩ := h snapshot hsnapshot charge hcharge
  by_contra hchecker
  unfold restateFrom at hrun
  rw [Bool.not_eq_true] at hchecker
  rw [hchecker] at hrun
  rw [restate_not_disclosing hrun, List.self_eq_append_right] at hnew
  rw [hnew] at hdisclosure
  cases hdisclosure

/-- **When every charge of a restated period is disclosed**: there is none, or the site gives a
checker, a stored window contains the date, no touched period has two, and the restatement goes
through; when it does is a matter of the stored rows and the books before it
(`Restatement.restate_isOk_iff`). -/
theorem charges_disclosed_iff (env : Env) (site : TriggerSite) (customerId : Uuid)
    (affectedDate : Date) (source : SourceEvent) (db : Database) :
    DisclosesCharges env site customerId affectedDate source db ↔
      (∀ snapshot ∈ listTouching db customerId affectedDate,
        overlappingCharges db customerId snapshot = []) ∨
      (site.hasChecker ∧ containing db customerId affectedDate ≠ [] ∧
        (∀ snapshot ∈ listTouching db customerId affectedDate,
          (overlappingCharges db customerId snapshot).length ≤ 1) ∧
        ((restate env false customerId affectedDate site.triggerType source).run db).isOk) := by
  constructor
  · intro h
    by_cases hnone : ∀ snapshot ∈ listTouching db customerId affectedDate,
        overlappingCharges db customerId snapshot = []
    · exact Or.inl hnone
    · push Not at hnone
      obtain ⟨snapshot, hsnapshot, hcharges⟩ := hnone
      obtain ⟨charge, hcharge⟩ := List.exists_mem_of_ne_nil _ hcharges
      have hchecker := h.hasChecker hsnapshot hcharge
      obtain ⟨db', new, hrun, hnew, disclosure, hdisclosure, -⟩ := h snapshot hsnapshot charge hcharge
      unfold restateFrom at hrun
      rw [hchecker] at hrun
      obtain ⟨plain, hplain, ⟨-, rfl⟩ | ⟨hsome, hone, -⟩⟩ := restate_disclosing_ok.mp hrun
      · rw [restate_not_disclosing hplain, List.self_eq_append_right] at hnew
        rw [hnew] at hdisclosure
        cases hdisclosure
      · exact Or.inr ⟨hchecker, hsome, hone, by rw [hplain]; rfl⟩
  · rintro (hnone | ⟨hchecker, hsome, hone, hok⟩) snapshot hsnapshot charge hcharge
    · rw [hnone snapshot hsnapshot] at hcharge
      cases hcharge
    · obtain ⟨_, hplain⟩ := run_of_isOk hok
      obtain ⟨window, rest, hcontaining⟩ := List.exists_cons_of_ne_nil hsome
      have hrun := restate_disclosing_ok.mpr ⟨_, hplain, Or.inr ⟨hsome, hone, window,
        by rw [hcontaining]; rfl, rfl⟩⟩
      unfold restateFrom
      rw [hchecker]
      exact ⟨_, _, hrun, rfl, _, List.mem_flatMap.mpr
        ⟨snapshot, hsnapshot, List.mem_map_of_mem hcharge⟩, rfl, rfl⟩

/-- A published period of days `0` to `3`, and the charge of the fee for it. -/
def publishedAndCharged : Database :=
  { Reporting.run [⟨envAt 1 1, .application (.initiateDeposit 1 (dollars 100))⟩,
      ⟨envAt 259200000000 2, .publish 1 0 3⟩] (openedAccount 1) with
    feeCharges := ⟨[⟨9, 1, 0, 3, dollars 1, 259200000000, .succeeded, some "ch_9", none⟩], by simp⟩ }

/-- **A dividend paid late into the charged period** is restated, and not disclosed. -/
theorem late_dividend_not_disclosed :
    ((payDividend (envAt 259200000001 3) 1 (dollars 10) 1).run publishedAndCharged).isOk ∧
      (atomically (payDividend (envAt 259200000001 3) 1 (dollars 10) 1)
        publishedAndCharged).feeRestatementDisclosures = [] ∧
      ¬ DisclosesCharges (envAt 259200000001 3) .payDateDividend 1 1
        (.dividendPayDate 1 (dollars 10)) publishedAndCharged := by
  refine ⟨by decide +kernel, by decide +kernel, fun h => ?_⟩
  have htouched : ∃ snapshot ∈ listTouching publishedAndCharged 1 1,
      overlappingCharges publishedAndCharged 1 snapshot ≠ [] := by decide +kernel
  obtain ⟨snapshot, hsnapshot, hcharges⟩ := htouched
  obtain ⟨charge, hcharge⟩ := List.exists_mem_of_ne_nil _ hcharges
  cases h.hasChecker hsnapshot hcharge

end Sites

end Trueup.Restatement
