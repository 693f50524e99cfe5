import Trueup.Cash.Investable
import Trueup.Cash.OwnRequests
import Trueup.Cash.SaleHolds
import Trueup.Identity.DepositCaps
import Trueup.Lib.LockedUnits

/-! # Concurrent requests of the customers

`models/ledger/customer_cash_lock.py`: `initiate` of deposits and of withdrawals and `create_order`
take the row of their customer with `SELECT ... FOR UPDATE` after they have checked the customer and the
bank link, and decide on the cash under it. Any number of processes serve requests at READ
COMMITTED, in any order of their statements, and may crash. A customer's session sees the rows of that
customer only.

Fills, settlements and returns do not take the row, and are not in these runs; nor is account
approval, which makes the row.

* `RequestCall.unit`: a request, statement by statement; `unit_serial`: alone, it is the request of
  the services.
* `requests_linearizable`: the answers and the data are those of the requests one after another.
* `concurrent_daily_cap`, `concurrent_requests_covered`: so the cap of a day holds, and the holds are
  covered, whatever the order. -/

namespace Trueup.Cash

open Trueup.Core Trueup.Models Trueup.Lib Trueup.Lib.Transaction Trueup.Ledger
open Trueup.Identity Trueup.Orders Trueup.System Trueup.Lib.LockedUnits

/-! ### Before the lock -/

/-- What no request changes: the customers and the bank links. -/
def standing (db : Database) : Table Customer.id × List BankLink := (db.customers, db.bankLinks)

/-- The read of `_check_funding_eligibility` and of `_require_eligible_customer`. -/
def eligible (error : Ineligibility → Error) (customerId : Uuid) (db : Database) : Except Error Unit :=
  (ineligibility db customerId).elim (.ok ()) fun reason => .error (error reason)

/-- The read of `_check_active_bank_link`. -/
def activeBankLink (customerId : Uuid) (db : Database) : Except Error BankLink := do
  let link ← ofOption (← currentBankLink db customerId) Error.noActiveBankLink
  check (link.status ≠ .requiresReauth) .bankReauthRequired
  return link

theorem requireEligible_eq (error : Ineligibility → Error) (customerId : Uuid) :
    requireEligible error customerId = read (eligible error customerId) := by
  unfold requireEligible eligible
  congr 1
  funext db
  cases ineligibility db customerId with
  | none => rfl
  | some reason => rfl

theorem checkActiveBankLink_eq (customerId : Uuid) :
    checkActiveBankLink customerId = read (activeBankLink customerId) := rfl

theorem readsFixed_eligible (error : Ineligibility → Error) (customerId : Uuid) :
    ReadsFixed standing (eligible error customerId) := by
  intro db db' h
  have hcustomers : db.customers = db'.customers := congrArg Prod.fst h
  simp only [eligible, ineligibility, hcustomers]

theorem readsFixed_activeBankLink (customerId : Uuid) :
    ReadsFixed standing (activeBankLink customerId) := by
  intro db db' h
  have hlinks : db.bankLinks = db'.bankLinks := congrArg Prod.snd h
  simp only [activeBankLink, currentBankLink, hlinks]

/-! ### Under the lock -/

open Statements in
/-- The loop of `PostingService._write`. -/
def addLegs (entryId : Uuid) : List PostingLeg → Statements Error Database Unit
  | [] => pure ()
  | leg :: legs => do
    execute (addLeg entryId leg)
    addLegs entryId legs

open Statements in
/-- `PostingService.post`. -/
def postStatements (id : Uuid) (entryType : JournalEntryType) (effectiveDate : Date)
    (sourceEvent : SourceEvent) (legs : List PostingLeg) : Statements Error Database JournalEntry := do
  let entry : JournalEntry :=
    { id, entryType, effectiveDate, sourceEvent, supersededBy := none, supersedesReason := none }
  execute (lift (validateLegs legs))
  execute (addJournalEntry entry)
  addLegs entry.id legs
  return entry

open Statements in
/-- `withdrawable`. -/
def withdrawableStatements (customerId : Uuid) : Statements Error Database Money := do
  let settled ← execute (read fun db => settledCash db customerId)
  let held ← execute (read fun db => holds db customerId)
  execute (lift (settled.sub held))

open Statements in
/-- The loop of `open_buy_commitments`, which looks up the hold of each order. -/
def commitmentStatements : List Order → Money → Statements Error Database Money
  | [], total => pure total
  | order :: orders, total => do
    let amount ← execute (read fun db => commitment db order)
    let total ← execute (lift (total.add amount))
    commitmentStatements orders total

open Statements in
/-- `investable`. -/
def investableStatements (customerId : Uuid) : Statements Error Database Money := do
  let settled ← execute (read fun db => settledCash db customerId)
  let sales ← execute (read fun db => unsettledSaleProceeds db customerId)
  let a ← execute (lift (settled.add sales))
  let deposits ← execute (read fun db => unsettledDepositProceeds db customerId)
  let b ← execute (lift (a.add deposits))
  let orders ← execute (read fun db => .ok (openBuyOrders db customerId))
  let committed ← commitmentStatements orders 0
  let c ← execute (lift (b.sub committed))
  let held ← execute (read fun db => holds db customerId)
  execute (lift (c.sub held))

theorem serial_addLegs (entryId : Uuid) (legs : List PostingLeg) :
    (addLegs entryId legs).serial = each (addLeg entryId) legs := by
  induction legs with
  | nil => rfl
  | cons leg legs ih => simp only [addLegs, each, Statements.serial_bind, Statements.serial_execute, ih]

theorem serial_postStatements (id : Uuid) (entryType : JournalEntryType) (effectiveDate : Date)
    (sourceEvent : SourceEvent) (legs : List PostingLeg) :
    (postStatements id entryType effectiveDate sourceEvent legs).serial =
      post id entryType effectiveDate sourceEvent legs := by
  simp only [postStatements, post, writeEntry, Statements.serial_bind, Statements.serial_execute,
    serial_addLegs, Statements.serial_pure]

theorem serial_withdrawableStatements (customerId : Uuid) :
    (withdrawableStatements customerId).serial = read fun db => withdrawable db customerId := by
  simp only [withdrawableStatements, Statements.serial_bind, Statements.serial_execute, lift,
    read_bind_read]
  rfl

theorem serial_commitmentStatements (orders : List Order) (total : Money) :
    (commitmentStatements orders total).serial = read fun db => sumCommitments db orders total := by
  induction orders generalizing total with
  | nil => rfl
  | cons order orders ih =>
    simp only [commitmentStatements, Statements.serial_bind, Statements.serial_execute, lift, ih,
      read_bind_read]
    rfl

theorem serial_investableStatements (customerId : Uuid) :
    (investableStatements customerId).serial = read fun db => investable db customerId := by
  simp only [investableStatements, Statements.serial_bind, Statements.serial_execute, lift,
    serial_commitmentStatements, read_bind_read]
  rfl

/-! ### The requests -/

/-- What a request returned. -/
inductive RequestResult
  | deposit (result : DepositResult)
  | withdrawal (result : WithdrawalResult)
  | order (order : Order)

/-- A request, and what the outside answers while it is served. -/
structure RequestCall where
  env : Env
  request : OwnRequest

/-- Whose row is locked. -/
def RequestCall.customerId (call : RequestCall) : Uuid := call.request.customerId

/-- The request of the services. -/
def OwnRequest.serve (env : Env) : OwnRequest → Tx RequestResult
  | .deposit customerId amount => do return .deposit (← initiateDeposit env customerId amount)
  | .withdrawal customerId amount => do
    return .withdrawal (← initiateWithdrawal env customerId amount)
  | .order request => do return .order (← createOrder env request)

open Statements in
/-- `DepositService.initiate`, under the lock. -/
def depositStatements (env : Env) (customerId : Uuid) (amount : Money) :
    Statements Error Database RequestResult := do
  let today := (env.now .effectiveDate).instant.utcDate
  let depositedToday ← execute (read fun db => depositedOn db customerId today)
  execute (lift
    (checkDepositCaps amount depositedToday env.depositCapPerTransaction env.depositCapPerDay))
  let cashAccount ← execute (accountFor customerId .cash)
  let equityAccount ← execute (accountFor customerId .customerEquity)
  let entry ← postStatements (env.uuid4 .journalEntry) .deposit today
    (.depositInitiated customerId amount)
    [.money cashAccount amount, .money equityAccount amount.neg]
  let obligation := depositObligation env customerId amount entry.id cashAccount today
  execute (addSettlementObligation obligation)
  return .deposit ⟨entry.id, obligation.id, obligation.expectedSettlementDate⟩

open Statements in
/-- `WithdrawalService.initiate`, under the lock. -/
def withdrawalStatements (env : Env) (customerId : Uuid) (amount : Money) (destination : BankLink) :
    Statements Error Database RequestResult := do
  let available ← withdrawableStatements customerId
  execute (require (amount ≤ available) .insufficientWithdrawableCash)
  let cashAccount ← execute (requireCustomerAccount customerId .cash)
  let equityAccount ← execute (requireCustomerAccount customerId .customerEquity)
  let entry ← postStatements (env.uuid4 .journalEntry) .withdrawal
    (env.now .effectiveDate).instant.utcDate (.withdrawalInitiated customerId amount)
    [.money cashAccount amount.neg, .money equityAccount amount]
  return .withdrawal ⟨entry.id, destination.id⟩

open Statements in
/-- The gate of `create_order`. -/
def investableGate (request : OrderCreationRequest) (notional : Money) :
    Statements Error Database Unit :=
  whenever (request.side = .buy) do
    let available ← investableStatements request.customerId
    execute (require (notional ≤ available) (.insufficientInvestableCash notional available))

open Statements in
/-- `create_order`, under the lock. -/
def orderStatements (env : Env) (request : OrderCreationRequest) :
    Statements Error Database RequestResult := do
  let notional ← execute (lift (Price.times request.referencePrice request.quantity))
  investableGate request notional
  let order := newOrder env request notional
  execute (addOrder order)
  execute (openHold order.id request.customerId notional)
  return .order order

/-- A request, statement by statement. -/
def OwnRequest.unit (env : Env) : OwnRequest → Guarded standing Error RequestResult
  | .deposit customerId amount =>
    .look (eligible .fundingNotEligible customerId) (readsFixed_eligible _ _) fun _ =>
      .look (activeBankLink customerId) (readsFixed_activeBankLink _) fun _ =>
        .acquire (depositStatements env customerId amount)
  | .withdrawal customerId amount =>
    .look (eligible .fundingNotEligible customerId) (readsFixed_eligible _ _) fun _ =>
      .look (activeBankLink customerId) (readsFixed_activeBankLink _) fun destination =>
        .acquire (withdrawalStatements env customerId amount destination)
  | .order request =>
    .look (eligible .customerNotEligible request.customerId) (readsFixed_eligible _ _) fun _ =>
      .acquire (orderStatements env request)

theorem serial_investableGate (request : OrderCreationRequest) (notional : Money) :
    (investableGate request notional).serial = requireInvestable request notional := by
  simp only [investableGate, requireInvestable, Statements.serial_whenever, Statements.serial_bind,
    serial_investableStatements, Statements.serial_execute]

/-- **Alone, a request is the request of the services.** -/
theorem unit_serial (env : Env) (request : OwnRequest) :
    (request.unit env).serial = request.serve env := by
  cases request with
  | deposit customerId amount =>
    simp only [OwnRequest.unit, OwnRequest.serve, Guarded.serial, depositStatements, initiateDeposit,
      checkFundingEligibility, requireEligible_eq, checkActiveBankLink_eq, Statements.serial_bind,
      Statements.serial_execute, Statements.serial_pure, serial_postStatements, bind_assoc, pure_bind]
  | withdrawal customerId amount =>
    simp only [OwnRequest.unit, OwnRequest.serve, Guarded.serial, withdrawalStatements,
      initiateWithdrawal, checkFundingEligibility, requireEligible_eq, checkActiveBankLink_eq,
      Statements.serial_bind, Statements.serial_execute, Statements.serial_pure,
      serial_withdrawableStatements, serial_postStatements, bind_assoc, pure_bind]
  | order request =>
    simp only [OwnRequest.unit, OwnRequest.serve, Guarded.serial, orderStatements, createOrder,
      requireEligibleCustomer, requireEligible_eq, Statements.serial_bind, Statements.serial_execute,
      Statements.serial_pure, serial_investableGate, bind_assoc, pure_bind]

section Served
variable {env : Env} {db db' : Database} {result : RequestResult}

theorem serve_deposit_ok {customerId : Uuid} {amount : Money}
    (h : ((OwnRequest.deposit customerId amount).serve env).run db = .ok (result, db')) :
    ∃ r, (initiateDeposit env customerId amount).run db = .ok (r, db') := by
  obtain ⟨r, _, hrun, hpure⟩ := bind_ok.mp h
  obtain ⟨-, rfl⟩ := pure_ok.mp hpure
  exact ⟨r, hrun⟩

theorem serve_withdrawal_ok {customerId : Uuid} {amount : Money}
    (h : ((OwnRequest.withdrawal customerId amount).serve env).run db = .ok (result, db')) :
    ∃ r, (initiateWithdrawal env customerId amount).run db = .ok (r, db') := by
  obtain ⟨r, _, hrun, hpure⟩ := bind_ok.mp h
  obtain ⟨-, rfl⟩ := pure_ok.mp hpure
  exact ⟨r, hrun⟩

theorem serve_order_ok {request : OrderCreationRequest}
    (h : ((OwnRequest.order request).serve env).run db = .ok (result, db')) :
    ∃ order, (createOrder env request).run db = .ok (order, db') := by
  obtain ⟨order, _, hrun, hpure⟩ := bind_ok.mp h
  obtain ⟨-, rfl⟩ := pure_ok.mp hpure
  exact ⟨order, hrun⟩

/-- **No request changes a customer or a bank link.** -/
theorem serve_standing {request : OwnRequest} (h : (request.serve env).run db = .ok (result, db')) :
    standing db' = standing db := by
  cases request with
  | deposit customerId amount =>
    obtain ⟨r, hdeposit⟩ := serve_deposit_ok h
    obtain ⟨_, _, _, _, _, -, -, -, -, -, rfl, -⟩ := initiateDeposit_ok hdeposit
    rfl
  | withdrawal customerId amount =>
    obtain ⟨r, hwithdrawal⟩ := serve_withdrawal_ok h
    obtain ⟨_, _, _, _, _, -, -, -, -, -, -, rfl⟩ := initiateWithdrawal_ok hwithdrawal
    rfl
  | order request =>
    obtain ⟨order, hcreate⟩ := serve_order_ok h
    obtain ⟨_, _, _, -, -, -, -, -, rfl⟩ := createOrder_ok hcreate
    rfl

end Served

/-! ### Any interleaving -/

/-- The unit of work of a call. -/
def RequestCall.unit (call : RequestCall) : Guarded standing Error RequestResult :=
  call.request.unit call.env

/-- The call as one transaction. -/
def RequestCall.serve (call : RequestCall) : Tx RequestResult := call.request.serve call.env

theorem serial_unit : (fun call : RequestCall => call.unit.serial) = RequestCall.serve := by
  funext call
  exact unit_serial call.env call.request

theorem keepsFixed_unit : KeepsFixed RequestCall.unit := by
  intro call db result db' h
  have hserve : (call.unit.serial) = call.serve := unit_serial call.env call.request
  rw [hserve] at h
  exact serve_standing h

section Runs
variable {ι : Type} [DecidableEq ι]

/-- What is there after some statements of the processes `ι`: the database of each customer, the locks,
and the requests that were answered. -/
def served (data : Uuid → Database) (steps : List (ι × Action RequestCall)) :
    Shared ι Uuid Error Database RequestResult RequestCall :=
  (Processes.run (program RequestCall.customerId RequestCall.unit) steps (start data)).shared

/-- **Concurrent requests are linearizable.** However the statements of any number of processes
interleave, and wherever some of them crash, the customers' databases and the answers are those of the
answered requests one after another, each as one transaction, in the order of the answers. -/
theorem requests_linearizable (data : Uuid → Database) (steps : List (ι × Action RequestCall)) :
    serially RequestCall.customerId RequestCall.serve ((served data steps).answered.map Prod.fst) data =
      ((served data steps).data, (served data steps).answered) := by
  rw [← serial_unit]
  exact linearizable keepsFixed_unit data steps

/-- What each request keeps alone is kept by all of them. -/
theorem served_keeps {P : RequestCall → Prop} {I : Uuid → Database → Prop}
    (hkept : KeptBy RequestCall.customerId RequestCall.serve P I) {data : Uuid → Database}
    (hstart : ∀ customerId, I customerId (data customerId)) {steps : List (ι × Action RequestCall)}
    (hcalls : ∀ i call, (i, .call call) ∈ steps → P call) (customerId : Uuid) :
    I customerId ((served data steps).data customerId) := by
  rw [← serial_unit] at hkept
  exact linearizable_keeps keepsFixed_unit hkept hstart hcalls customerId

end Runs

/-! ### The cap of a day -/

/-- Under the cap of the application, and a deposit is not negative. -/
structure RequestCall.UnderCap (capPerDay : Money) (call : RequestCall) : Prop where
  cap : call.env.depositCapPerDay = capPerDay
  nonneg : ∀ customerId amount, call.request = .deposit customerId amount → 0 ≤ amount.quanta

theorem depositPostings_initiateWithdrawal {env : Env} {customerId : Uuid} {amount : Money}
    {db db' : Database} {r : WithdrawalResult} (hknown : PostingsKnown db)
    (h : (initiateWithdrawal env customerId amount).run db = .ok (r, db')) :
    PostingsKnown db' ∧ ∀ c day, depositPostings db' c day = depositPostings db c day := by
  obtain ⟨_, entry, cash, equity, entries, -, -, hentry, -, -, hinsert, rfl⟩ := initiateWithdrawal_ok h
  refine ⟨fun p hp => ?_, fun c day => ?_⟩
  · rw [Table.has_insert hinsert]
    rcases List.mem_append.mp hp with hp | hp
    · exact Or.inl (hknown p hp)
    · rcases List.mem_pair.mp hp with rfl | rfl <;> exact Or.inr rfl
  · have hfind : entries.find entry.id = some entry := by
      rw [Table.find_insert hinsert, if_pos rfl]
    have htype : entry.entryType = .withdrawal := by rw [hentry]
    have hnone : ([⟨entry.id, cash, .money amount.neg⟩, ⟨entry.id, equity, .money amount⟩].filter
        fun p : Posting => isCashOf c p && decide (∃ e ∈ entries.find p.journalEntryId,
          e.entryType = .deposit ∧ e.effectiveDate = day)) = [] := by
      refine List.filter_eq_nil_iff.mpr fun p hp => ?_
      rcases List.mem_pair.mp hp with rfl | rfl <;> simp [hfind, htype]
    unfold depositPostings
    rw [List.filter_append]
    refine (congrArg (_ ++ ·) hnone).trans ?_
    rw [List.append_nil]
    refine List.filter_congr fun p hp => ?_
    rw [Table.find_insert_of_has hinsert (hknown p hp)]

theorem withinCap_congr {capPerDay : Money} {db db' : Database} (h : WithinCap capPerDay db)
    (hknown : PostingsKnown db') (hsame : ∀ c day, depositPostings db' c day = depositPostings db c day) :
    WithinCap capPerDay db' := by
  refine ⟨hknown, fun c day => ?_, fun c day => ?_⟩
  · rw [hsame c day]
    exact h.nonneg c day
  · rw [hsame c day]
    exact h.sum c day

/-- **One request** leaves the deposits of every day within the cap. -/
theorem withinCap_keptBy (capPerDay : Money) :
    KeptBy RequestCall.customerId RequestCall.serve (RequestCall.UnderCap capPerDay)
      (fun _ db => WithinCap capPerDay db) := by
  rintro ⟨env, request⟩ db result db' ⟨hcap, hnonneg⟩ hdb hrun
  cases request with
  | deposit customerId amount =>
    obtain ⟨r, hdeposit⟩ := serve_deposit_ok hrun
    have hamount : (DepositStep.initiate env customerId amount).nonneg := hnonneg customerId amount rfl
    have hstep : ((DepositStep.initiate env customerId amount).perform env.depositCapPerTransaction
        env.depositCapPerDay).run db = .ok ((), db') := bind_ok.mpr ⟨r, db', hdeposit, rfl⟩
    rw [← hcap] at hdb ⊢
    exact hdb.perform hamount hstep
  | withdrawal customerId amount =>
    obtain ⟨r, hwithdrawal⟩ := serve_withdrawal_ok hrun
    obtain ⟨hknown, hsame⟩ := depositPostings_initiateWithdrawal hdb.known hwithdrawal
    exact withinCap_congr hdb hknown hsame
  | order request =>
    obtain ⟨order, hcreate⟩ := serve_order_ok hrun
    obtain ⟨_, _, _, -, -, -, -, -, rfl⟩ := createOrder_ok hcreate
    exact withinCap_congr hdb hdb.known fun _ _ => rfl

/-- **The cap of a day holds for concurrent deposits.** However the statements of any number of
requests interleave, the positive deposits of a day stay within the cap, if no deposit is negative. -/
theorem concurrent_daily_cap {ι : Type} [DecidableEq ι] {capPerDay : Money} {data : Uuid → Database}
    (hstart : ∀ customerId, WithinCap capPerDay (data customerId))
    {steps : List (ι × Action RequestCall)}
    (hcalls : ∀ i call, (i, .call call) ∈ steps → call.UnderCap capPerDay)
    (customerId : Uuid) (effectiveDate : Date) :
    positiveDeposits ((served data steps).data customerId) customerId effectiveDate ≤
      capPerDay.quanta :=
  (served_keeps (withinCap_keptBy capPerDay) hstart hcalls customerId).positiveDeposits customerId
    effectiveDate

/-- Two processes are called, and then execute their statements in turn. -/
def inTurn (first second : RequestCall) (n : ℕ) : List (Bool × Action RequestCall) :=
  [(false, .call first), (true, .call second)] ++
    (List.replicate n [(false, Action.advance), (true, Action.advance)]).flatten

theorem mem_inTurn {first second call : RequestCall} {n : ℕ} {i : Bool}
    (h : (i, Action.call call) ∈ inTurn first second n) : call = first ∨ call = second := by
  rcases List.mem_append.mp h with h | h
  · rcases List.mem_pair.mp h with h | h
    · cases h
      exact Or.inl rfl
    · cases h
      exact Or.inr rfl
  · obtain ⟨pair, hpair, hmem⟩ := List.mem_flatten.mp h
    rw [List.eq_of_mem_replicate hpair] at hmem
    rcases List.mem_pair.mp hmem with h | h
    · cases h
    · cases h

/-- A deposit of customer 1 on the first day, under a cap of 50000 dollars. -/
def cappedDeposit (id : Uuid) (amount : Money) : RequestCall :=
  ⟨{ envAt 0 id with depositCapPerDay := dollars 50000 }, .deposit 1 amount⟩

theorem underCap_cappedDeposit (id : Uuid) {amount : Money} (hamount : 0 ≤ amount.quanta) :
    (cappedDeposit id amount).UnderCap (dollars 50000) where
  cap := rfl
  nonneg _ _ h := by
    cases h
    exact hamount

theorem withinCap_openedAccount (customerId : Uuid) :
    WithinCap (dollars 50000) (openedAccount customerId) :=
  NoDeposits.withinCap ⟨fun _ hp => absurd hp List.not_mem_nil, fun _ _ => rfl⟩ (by decide)

/-- Of two deposits of 30000 dollars at the same time, one is made. -/
theorem concurrent_daily_cap_at_once :
    ∃ steps, steps = inTurn (cappedDeposit 10 (dollars 30000)) (cappedDeposit 11 (dollars 30000)) 30 ∧
      positiveDeposits ((served openedAccount steps).data 1) 1 0 = 300000000 ∧
      positiveDeposits ((served openedAccount steps).data 1) 1 0 ≤ (dollars 50000).quanta := by
  refine ⟨_, rfl, by decide +kernel, ?_⟩
  refine concurrent_daily_cap withinCap_openedAccount (fun i call hcall => ?_) 1 0
  rcases mem_inTurn hcall with rfl | rfl
  · exact underCap_cappedDeposit 10 (by decide)
  · exact underCap_cappedDeposit 11 (by decide)

/-! ### The holds are covered -/

/-- The cash of the customer, settled or not, covers the active holds. -/
structure HoldsCovered (customerId : Uuid) (db : Database) : Prop where
  mirrored : Mirrored db
  committed : 0 ≤ committedQuanta db customerId
  covered : holdQuanta db customerId ≤ cashQuanta db customerId

/-- A deposit is not negative, and an order buys. -/
structure RequestCall.Plain (call : RequestCall) : Prop where
  nonneg : ∀ customerId amount, call.request = .deposit customerId amount → 0 ≤ amount.quanta
  buys : ∀ request, call.request = .order request → request.side = .buy

theorem createOrder_committed {env : Env} {request : OrderCreationRequest} {db db' : Database}
    {order : Order} (h : (createOrder env request).run db = .ok (order, db')) :
    committedQuanta db' request.customerId = committedQuanta db request.customerId := by
  have hinvestable := createOrder_investable h
  have hheld := createOrder_holdQuanta h
  obtain ⟨amount, orders, holds, -, -, -, -, -, rfl⟩ := createOrder_ok h
  set db' : Database := { db with orders := orders, approvalHolds := holds } with hdb'
  obtain ⟨hsettled, hunsettled⟩ :=
    ledger_congr (show ledgerSide db' = ledgerSide db from rfl) request.customerId
  unfold investableQuanta at hinvestable
  rw [hsettled, hunsettled, hunsettled, hheld] at hinvestable
  omega

/-- **One request** leaves the holds of its customer covered. -/
theorem holdsCovered_keptBy :
    KeptBy RequestCall.customerId RequestCall.serve RequestCall.Plain HoldsCovered := by
  rintro ⟨env, request⟩ db result db' ⟨hnonneg, hbuys⟩ hdb hrun
  cases request with
  | deposit customerId amount =>
    obtain ⟨r, hdeposit⟩ := serve_deposit_ok hrun
    obtain ⟨-, hposts⟩ := initiateDeposit_posts hdeposit
    have hamount : 0 ≤ amount.quanta := hnonneg customerId amount rfl
    have hside : orderSide db' = orderSide db := hposts.orders.1
    have hcash := cash_posts hposts customerId
    have hcovered : holdQuanta db customerId ≤ cashQuanta db customerId := hdb.covered
    refine ⟨initiateDeposit_mirrored env customerId amount db r db' hdb.mirrored hdeposit, ?_, ?_⟩
    · exact (committed_congr hside _).symm ▸ hdb.committed
    · show holdQuanta db' customerId ≤ cashQuanta db' customerId
      have hrow : customerShare customerId (depositView env customerId amount).cashRow = amount.quanta :=
        if_pos rfl
      rw [(claims_congr hside customerId).1, hcash, List.map_singleton, List.sum_singleton, hrow]
      omega
  | withdrawal customerId amount =>
    obtain ⟨r, hwithdrawal⟩ := serve_withdrawal_ok hrun
    have hposts := initiateWithdrawal_posts hwithdrawal
    have hside : orderSide db' = orderSide db := hposts.orders.1
    obtain ⟨available, _, _, _, _, hav, hle, -⟩ := initiateWithdrawal_ok hwithdrawal
    refine ⟨hdb.mirrored.posts hposts (by simp), (committed_congr hside _).symm ▸ hdb.committed, ?_⟩
    show holdQuanta db' customerId ≤ cashQuanta db' customerId
    rw [QuantizedDecimal.le_def, withdrawable_ok hav] at hle
    have hsettled := settledCash_le db customerId
    rw [(claims_congr hside customerId).1, cash_posts hposts customerId, List.map_singleton,
      List.sum_singleton]
    simp only [customerShare, if_true]
    omega
  | order request =>
    obtain ⟨order, hcreate⟩ := serve_order_ok hrun
    have hheld := createOrder_holdQuanta hcreate
    have hcommitted := createOrder_committed hcreate
    obtain ⟨amount, orders, holds, hamount, -, hgate, -, -, rfl⟩ := createOrder_ok hcreate
    obtain ⟨available, hav, hle⟩ := hgate (hbuys request rfl)
    rw [QuantizedDecimal.le_def, investable_quanta hav, hamount, investableQuanta] at hle
    have hpending := settled_add_unsettled_le hdb.mirrored request.customerId
      (show JournalEntryType.tradeSell ≠ .deposit by decide)
    have hcommitted₀ : 0 ≤ committedQuanta db request.customerId := hdb.committed
    set db' : Database := { db with orders := orders, approvalHolds := holds } with hdb'
    have hcash : cashQuanta db' request.customerId = cashQuanta db request.customerId := rfl
    obtain ⟨hrows, hviews, hunique, hmirror⟩ := hdb.mirrored
    refine ⟨⟨hrows, hviews, hunique, hmirror⟩, ?_, ?_⟩
    · show 0 ≤ committedQuanta db' request.customerId
      rw [hcommitted]
      exact hcommitted₀
    · show holdQuanta db' request.customerId ≤ cashQuanta db' request.customerId
      rw [hheld, hcash]
      omega

/-- **No cash is promised twice.** However the statements of any number of requests interleave, the
cash of each customer covers the active holds, if no deposit is negative and every order buys. -/
theorem concurrent_requests_covered {ι : Type} [DecidableEq ι] {data : Uuid → Database}
    (hstart : ∀ customerId, HoldsCovered customerId (data customerId))
    {steps : List (ι × Action RequestCall)}
    (hcalls : ∀ i call, (i, .call call) ∈ steps → call.Plain) (customerId : Uuid) :
    holdQuanta ((served data steps).data customerId) customerId ≤
      cashQuanta ((served data steps).data customerId) customerId :=
  (served_keeps holdsCovered_keptBy hstart hcalls customerId).covered

/-- Customer 1 has 1000 dollars, and nobody else has any. -/
def oneFunded (customerId : Uuid) : Database :=
  if customerId = 1 then fundedAccount else openedAccount customerId

theorem holdsCovered_oneFunded (customerId : Uuid) : HoldsCovered customerId (oneFunded customerId) := by
  unfold oneFunded
  split_ifs with h
  · subst h
    exact ⟨mirrored_of_reachable reachable_fundedAccount, by decide +kernel, by decide +kernel⟩
  · exact ⟨mirrored_of_fresh (fresh_openedAccount customerId), le_rfl, le_rfl⟩

/-- An order of customer 1 for 60 shares at 10 dollars. -/
def buySixty (id : Uuid) : RequestCall :=
  ⟨envAt 3 id, .order ⟨1, 1, .buy, shares 60, dollarsPerShare 10⟩⟩

theorem plain_buySixty (id : Uuid) : (buySixty id).Plain where
  nonneg _ _ h := by cases h
  buys _ h := by
    cases h
    rfl

/-- Of two orders of 600 dollars at the same time, one is placed. -/
theorem concurrent_requests_covered_at_once :
    ∃ steps, steps = inTurn (buySixty 10) (buySixty 11) 30 ∧
      holdQuanta ((served oneFunded steps).data 1) 1 = 6000000 ∧
      cashQuanta ((served oneFunded steps).data 1) 1 = 10000000 ∧
      holdQuanta ((served oneFunded steps).data 1) 1 ≤ cashQuanta ((served oneFunded steps).data 1) 1 := by
  refine ⟨_, rfl, by decide +kernel, by decide +kernel, ?_⟩
  refine concurrent_requests_covered holdsCovered_oneFunded (fun i call hcall => ?_) 1
  rcases mem_inTurn hcall with rfl | rfl
  · exact plain_buySixty 10
  · exact plain_buySixty 11

end Trueup.Cash
