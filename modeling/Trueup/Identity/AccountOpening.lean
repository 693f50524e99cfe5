import Trueup.Identity.KycService
import Trueup.Lib.Locks
import Trueup.Lib.Processes

/-! # The opening of accounts

`approve_if_eligible` of `services/identity/account_approval_service.py`, in the transactions that reach
it: the webhook of the provider (`controllers/webhooks/stripe_identity.py`), the poll of
`get_identity_status` (`controllers/api/identity.py`), and beside them the override of an adviser. They
run statement by statement, by any number of processes at read committed. What a session has loaded it
keeps, and what it changes is written with its next query: the `UPDATE` of `customer` therefore comes
before the accounts are looked for.

No index makes the accounts of a customer unique.

* `Step`: what a statement does; `Knows`: what a transaction knows of its customer at each of its
  statements.
* `verdict_alone`: alone, the statements of the webhook do what the service does.
* `accounts_opened_once`: a customer has one cash account, one equity account and one lock if the
  account is approved, and none otherwise; an approval stays.
* `opening_succeeds`: a transaction that has begun to open accounts goes on to its commit.
* `granted_twice`: two verdicts at once may both answer that they have granted the approval. -/

namespace Trueup.Identity.AccountOpening

open Trueup.Core Trueup.Models Trueup.Lib

/-! ### The transactions -/

/-- A row that a transaction locks, or the key of one it inserts. -/
inductive RowLock
  | customer (id : Uuid)
  | kycSession (providerSessionId : String)
  | cashLock (customerId : Uuid)
  deriving DecidableEq

/-- The committed rows: of `account` those of the two roles that are opened, with their customers. The
calls of `approve_if_eligible` that have returned `True` are on record. -/
structure Shared (ι : Type) where
  tables : KycTables
  accounts : List (Uuid × AccountRole)
  cashLocks : List Uuid
  granted : List Uuid
  locks : Locks RowLock ι

/-- What a verdict makes of the session it has loaded. -/
structure Judged where
  session : KycSession
  status : KycSessionStatus
  resolvedAt : Instant

/-- What `_ensure_ledger_accounts` has found. -/
structure Found where
  cash : Bool
  equity : Bool
  cashLock : Bool

/-- Where a transaction is. -/
inductive Phase
  | idle
  /-- in `get_identity_status`, with a pending customer loaded -/
  | polled (loaded : Customer)
  /-- the session is resolved in memory; the poll has its customer loaded already -/
  | judging (judged : Judged) (loaded : Option Customer)
  | sessionUpdated (judged : Judged) (loaded : Option Customer)
  | judged (judged : Judged) (loaded : Customer)
  /-- in `_ensure_ledger_accounts` -/
  | opening (judged : Judged) (loaded : Customer)
  | cashSeen (judged : Judged) (loaded : Customer) (cash : Bool)
  | equitySeen (judged : Judged) (loaded : Customer) (cash equity : Bool)
  /-- at the end, with what was found if the approval is granted -/
  | closing (judged : Judged) (loaded : Customer) (found : Option Found)
  | flushed (judged : Judged) (loaded : Customer) (found : Option Found)
  | overriding (loaded : Customer)
  | overridden (loaded : Customer)

inductive Action
  | register (customerId : Uuid)
  /-- the `INSERT` of `start_verification` -/
  | insertSession (session : KycSession)
  /-- the webhook: the `SELECT` of the session, and `resolve` -/
  | deliver (providerSessionId stripeStatus : String) (now : Instant)
  /-- the poll: the `SELECT` of the customer -/
  | poll (customerId : Uuid)
  /-- the `SELECT` of the latest session, the answer of the provider, and `resolve` -/
  | ask (stripeStatus : String) (now : Instant)
  /-- the `UPDATE` of the session, before the `SELECT` of the customer -/
  | updateSession
  | findCustomer
  /-- the `SELECT` of `approve_if_eligible`, with the `UPDATE` of the customer before it -/
  | updateCustomer
  | findCash
  | findEquity
  | findCashLock
  /-- the writes that are left for the commit -/
  | flush
  | override (customerId : Uuid)
  | commit
  /-- an error or a crash -/
  | rollback

/-- The customer's `kyc_status` is changed by the verdict. -/
def IsDirty (judged : Judged) (loaded : Customer) : Prop :=
  loaded.kycStatus ≠ kycStatusOf judged.status

instance (judged : Judged) (loaded : Customer) : Decidable (IsDirty judged loaded) :=
  inferInstanceAs (Decidable (_ ≠ _))

/-- `approve_if_eligible` goes on to open the accounts. -/
def IsEligible (judged : Judged) (loaded : Customer) : Prop :=
  kycStatusOf judged.status = .approved ∧ loaded.accountApprovalStatus ≠ .approved

instance (judged : Judged) (loaded : Customer) : Decidable (IsEligible judged loaded) :=
  inferInstanceAs (Decidable (_ ∧ _))

/-- The session with its verdict. -/
def Judged.row (judged : Judged) : KycSession :=
  { judged.session with status := judged.status, resolvedAt := some judged.resolvedAt }

/-- `apply_verification_verdict` up to `resolve`. -/
def judge (maxAttempts : ℤ) (session : KycSession) (stripeStatus : String) (now : Instant)
    (loaded : Option Customer) : Phase :=
  match mapVerificationSessionStatus stripeStatus session.attemptNumber maxAttempts with
  | .error _ => .idle
  | .ok status =>
    if status = .pending ∨ session.status ≠ .pending then .idle
    else .judging ⟨session, status, now⟩ loaded

/-- `scalar_one_or_none`: whether there is a row, unless there are several. -/
def scalarFound : ℕ → Option Bool
  | 0 => some false
  | 1 => some true
  | _ => none

section Program
variable {ι : Type} [DecidableEq ι]

/-- The transaction ends, and writes nothing. -/
def Shared.abort (shared : Shared ι) (i : ι) : Shared ι × Phase :=
  ({ shared with locks := shared.locks.release i }, .idle)

/-- The transaction takes locks and goes on. -/
def Shared.locking (shared : Shared ι) (i : ι) (keys : List RowLock) (phase : Phase) :
    Shared ι × Phase := ({ shared with locks := shared.locks.take i keys }, phase)

/-- The customers after a change of one, if it is there. -/
def setCustomer (customers : Table Customer.id) (id : Uuid) (change : Customer → Customer) :
    Table Customer.id :=
  match customers.find id with
  | none => customers
  | some row => customers.set { change row with id := row.id }

/-- The `UPDATE`s of `customer` of a verdict. -/
def customerAfter (judged : Judged) (loaded : Customer) (found : Option Found) (row : Customer) :
    Customer where
  id := row.id
  kycStatus := if IsDirty judged loaded then kycStatusOf judged.status else row.kycStatus
  accountApprovalStatus := if found.isSome then .approved else row.accountApprovalStatus

/-- The accounts that are opened. -/
def openedAccounts (customerId : Uuid) (found : Found) : List (Uuid × AccountRole) :=
  (if found.cash then [] else [(customerId, .cash)]) ++
    if found.equity then [] else [(customerId, .customerEquity)]

/-- What a verdict commits. -/
def Shared.committed (shared : Shared ι) (i : ι) (judged : Judged) (loaded : Customer)
    (found : Option Found) : Shared ι where
  tables := {
    customers := setCustomer shared.tables.customers loaded.id (customerAfter judged loaded found)
    kycSessions := shared.tables.kycSessions.set judged.row }
  accounts := shared.accounts ++ (found.map (openedAccounts loaded.id)).getD []
  cashLocks := shared.cashLocks ++ if (found.map Found.cashLock).getD true then [] else [loaded.id]
  granted := shared.granted ++ if found.isSome then [loaded.id] else []
  locks := shared.locks.release i

/-- What a verdict commits whose customer is missing. -/
def Shared.resolved (shared : Shared ι) (i : ι) (judged : Judged) : Shared ι :=
  { shared with
    tables := { shared.tables with kycSessions := shared.tables.kycSessions.set judged.row }
    locks := shared.locks.release i }

/-- What an override commits. -/
def Shared.overridden (shared : Shared ι) (i : ι) (loaded : Customer) : Shared ι where
  tables := { shared.tables with
    customers := setCustomer shared.tables.customers loaded.id fun row =>
      { row with kycStatus := .pending } }
  accounts := shared.accounts
  cashLocks := shared.cashLocks
  granted := shared.granted
  locks := shared.locks.release i

/-- The keys that the writes of a commit lock. -/
def flushKeys (customerId : Uuid) (found : Found) : List RowLock :=
  .customer customerId :: if found.cashLock then [] else [.cashLock customerId]

/-- The `UPDATE` of the session, under the trigger `kyc_session_single_transition`. -/
def updateSession (i : ι) (shared : Shared ι) (judged : Judged) (loaded : Option Customer) :
    Shared ι × Phase :=
  let key := judged.session.providerSessionId
  if ¬ shared.locks.FreeFor i (.kycSession key) then (shared, .judging judged loaded)
  else
    match shared.tables.kycSessions.find key with
    | none => shared.abort i
    | some row =>
      if row.status ≠ .pending then shared.abort i
      else shared.locking i [.kycSession key] (.sessionUpdated judged loaded)

/-- The `UPDATE` of the customer, if its status is changed, and the tests of `approve_if_eligible`. -/
def updateCustomer (i : ι) (shared : Shared ι) (judged : Judged) (loaded : Customer) :
    Shared ι × Phase :=
  let next := if IsEligible judged loaded then .opening judged loaded else .closing judged loaded none
  if ¬ IsDirty judged loaded then (shared, next)
  else if shared.locks.FreeFor i (.customer loaded.id) then
    shared.locking i [.customer loaded.id] next
  else (shared, .judged judged loaded)

/-- The writes that are left for the commit of a verdict. -/
def flush (i : ι) (shared : Shared ι) (judged : Judged) (loaded : Customer) :
    Option Found → Shared ι × Phase
  | none => (shared, .flushed judged loaded none)
  | some found =>
    if ¬ ∀ k ∈ flushKeys loaded.id found, shared.locks.FreeFor i k then
      (shared, .closing judged loaded (some found))
    else if found.cashLock = false ∧ loaded.id ∈ shared.cashLocks then shared.abort i
    else shared.locking i (flushKeys loaded.id found) (.flushed judged loaded (some found))

/-- What a statement does; one that has to wait, or that the process is not at, does nothing. -/
def program (maxAttempts : ℤ) : Processes.Program ι Action (Shared ι) Phase
  | _, .register customerId, shared, .idle =>
    match shared.tables.customers.insert ⟨customerId, .pending, .pending⟩ with
    | none => (shared, .idle)
    | some customers => ({ shared with tables := { shared.tables with customers } }, .idle)
  | _, .insertSession session, shared, .idle =>
    if session.status = .pending ∧ shared.tables.customers.Has session.customerId then
      match shared.tables.kycSessions.insert session with
      | none => (shared, .idle)
      | some kycSessions => ({ shared with tables := { shared.tables with kycSessions } }, .idle)
    else (shared, .idle)
  | _, .deliver providerSessionId stripeStatus now, shared, .idle =>
    match shared.tables.kycSessions.find providerSessionId with
    | none => (shared, .idle)
    | some session => (shared, judge maxAttempts session stripeStatus now none)
  | _, .poll customerId, shared, .idle =>
    match shared.tables.customers.find customerId with
    | none => (shared, .idle)
    | some customer => (shared, if customer.kycStatus = .pending then .polled customer else .idle)
  | _, .ask stripeStatus now, shared, .polled loaded =>
    match latestForCustomer shared.tables loaded.id with
    | none => (shared, .idle)
    | some session => (shared, judge maxAttempts session stripeStatus now (some loaded))
  | i, .updateSession, shared, .judging judged loaded => updateSession i shared judged loaded
  | i, .findCustomer, shared, .sessionUpdated judged loaded =>
    match loaded.or (shared.tables.customers.find judged.session.customerId) with
    | none => (shared.resolved i judged, .idle)
    | some customer => (shared, .judged judged customer)
  | i, .updateCustomer, shared, .judged judged loaded => updateCustomer i shared judged loaded
  | i, .findCash, shared, .opening judged loaded =>
    match scalarFound (shared.accounts.count (loaded.id, .cash)) with
    | none => shared.abort i
    | some cash => (shared, .cashSeen judged loaded cash)
  | i, .findEquity, shared, .cashSeen judged loaded cash =>
    match scalarFound (shared.accounts.count (loaded.id, .customerEquity)) with
    | none => shared.abort i
    | some equity => (shared, .equitySeen judged loaded cash equity)
  | _, .findCashLock, shared, .equitySeen judged loaded cash equity =>
    (shared, .closing judged loaded (some ⟨cash, equity, loaded.id ∈ shared.cashLocks⟩))
  | i, .flush, shared, .closing judged loaded found => flush i shared judged loaded found
  | i, .commit, shared, .flushed judged loaded found =>
    (shared.committed i judged loaded found, .idle)
  | _, .override customerId, shared, .idle =>
    match shared.tables.customers.find customerId with
    | none => (shared, .idle)
    | some customer => (shared, .overriding customer)
  | i, .flush, shared, .overriding loaded =>
    if loaded.kycStatus = .pending then (shared, .idle)
    else if shared.locks.FreeFor i (.customer loaded.id) then
      shared.locking i [.customer loaded.id] (.overridden loaded)
    else (shared, .overriding loaded)
  | i, .commit, shared, .overridden loaded => (shared.overridden i loaded, .idle)
  | i, .rollback, shared, _ => shared.abort i
  | _, _, shared, phase => (shared, phase)

end Program

/-- No customers, and idle processes. -/
def start {ι : Type} : Processes.Config ι (Shared ι) Phase :=
  ⟨⟨⟨∅, ∅⟩, [], [], [], fun _ => none⟩, fun _ => .idle⟩

/-! ### What a transaction knows -/

section Invariant
variable {ι : Type} [DecidableEq ι] {maxAttempts : ℤ} {i j : ι} {a : Action} {shared shared' : Shared ι}
  {phase phase' other : Phase}

/-- The account of the customer is approved. -/
def Shared.isOpen (shared : Shared ι) (id : Uuid) : Bool :=
  (shared.tables.customers.find id).any fun row => row.accountApprovalStatus = .approved

/-- How many rows are opened: one for a customer whose account is approved. -/
structure Sound (shared : Shared ι) : Prop where
  cash : ∀ id, shared.accounts.count (id, .cash) = (shared.isOpen id).toNat
  equity : ∀ id, shared.accounts.count (id, .customerEquity) = (shared.isOpen id).toNat
  cashLock : ∀ id, shared.cashLocks.count id = (shared.isOpen id).toNat
  /-- the account of a verified customer is approved -/
  gate : ∀ id row, shared.tables.customers.find id = some row → row.kycStatus = .approved →
    row.accountApprovalStatus = .approved

/-- A customer that was committed when it was loaded. -/
structure Loaded (shared : Shared ι) (loaded : Customer) : Prop where
  has : shared.tables.customers.Has loaded.id
  gate : loaded.kycStatus = .approved → loaded.accountApprovalStatus = .approved
  isOpen : loaded.accountApprovalStatus = .approved → shared.isOpen loaded.id = true

/-- While accounts are opened, the customer is locked. -/
structure Opening (i : ι) (shared : Shared ι) (judged : Judged) (loaded : Customer) : Prop where
  known : Loaded shared loaded
  eligible : IsEligible judged loaded
  lock : shared.locks (.customer loaded.id) = some i

/-- What is found, if the account is approved or not. -/
def allFound (isOpen : Bool) : Found := ⟨isOpen, isOpen, isOpen⟩

/-- The end of a verdict. -/
def Closing (i : ι) (shared : Shared ι) (judged : Judged) (loaded : Customer) : Option Found → Prop
  | none => Loaded shared loaded ∧ ¬ IsEligible judged loaded
  | some found => Opening i shared judged loaded ∧ found = allFound (shared.isOpen loaded.id)

/-- **What a transaction knows.** -/
def Knows (i : ι) (shared : Shared ι) : Phase → Prop
  | .idle | .overriding _ | .overridden _ => True
  | .polled loaded | .judged _ loaded => Loaded shared loaded
  | .judging _ loaded | .sessionUpdated _ loaded => ∀ customer ∈ loaded, Loaded shared customer
  | .opening judged loaded => Opening i shared judged loaded
  | .cashSeen judged loaded cash =>
    Opening i shared judged loaded ∧ cash = shared.isOpen loaded.id
  | .equitySeen judged loaded cash equity =>
    Opening i shared judged loaded ∧ cash = shared.isOpen loaded.id ∧ equity = shared.isOpen loaded.id
  | .closing judged loaded found | .flushed judged loaded found => Closing i shared judged loaded found

/-- What a statement of the process `i` leaves to the others. -/
structure Frame (i : ι) (shared shared' : Shared ι) : Prop where
  has : ∀ id, shared.tables.customers.Has id → shared'.tables.customers.Has id
  isOpen : ∀ id, shared'.isOpen id = shared.isOpen id ∨
    shared.locks (.customer id) = some i ∧ shared'.isOpen id = true
  locks : ∀ j, i ≠ j → shared.locks.Keeps shared'.locks j

/-- What a statement keeps. -/
structure Kept (i : ι) (shared shared' : Shared ι) (phase' : Phase) : Prop where
  sound : Sound shared'
  frame : Frame i shared shared'
  knows : Knows i shared' phase'

/-! ### The customers after a change -/

omit [DecidableEq ι] in
theorem loaded_of_find {id : Uuid} {row : Customer} (hsound : Sound shared)
    (hfind : shared.tables.customers.find id = some row) : Loaded shared row := by
  obtain ⟨hmem, rfl⟩ := Table.find_eq_some.mp hfind
  refine ⟨Table.has_of_mem hmem, hsound.gate _ _ hfind, fun happroved => ?_⟩
  simp [Shared.isOpen, hfind, happroved]

theorem find_setCustomer (customers : Table Customer.id) (id : Uuid) (change : Customer → Customer)
    (k : Uuid) : (setCustomer customers id change).find k =
      if k = id then (customers.find id).map fun row => { change row with id := row.id }
      else customers.find k := by
  unfold setCustomer
  cases hfind : customers.find id with
  | none =>
    by_cases hk : k = id
    · rw [if_pos hk, hk, Option.map_none]
      exact hfind
    · rw [if_neg hk]
  | some row =>
    obtain ⟨hmem, rfl⟩ := Table.find_eq_some.mp hfind
    have hhas : customers.Has row.id := Table.has_of_mem hmem
    have hset := Table.find_set (t := customers) (r := { change row with id := row.id }) hhas k
    refine hset.trans ?_
    by_cases hk : k = row.id
    · rw [if_pos hk, if_pos hk.symm, Option.map_some]
    · rw [if_neg hk, if_neg (Ne.symm hk)]

theorem has_setCustomer (customers : Table Customer.id) (id : Uuid) (change : Customer → Customer)
    (k : Uuid) : (setCustomer customers id change).Has k ↔ customers.Has k := by
  unfold setCustomer
  cases customers.find id with
  | none => exact Iff.rfl
  | some row => exact Table.has_set k

omit [DecidableEq ι] in
/-- An account goes on to be approved, or not, if the change of its customer does not say so. -/
theorem isOpen_setCustomer {id : Uuid} {change : Customer → Customer}
    (hcustomers : shared'.tables.customers = setCustomer shared.tables.customers id change)
    (hchange : ∀ row, (change row).accountApprovalStatus = row.accountApprovalStatus) (k : Uuid) :
    shared'.isOpen k = shared.isOpen k := by
  unfold Shared.isOpen
  rw [hcustomers, find_setCustomer]
  split_ifs with hk
  · rw [hk]
    cases shared.tables.customers.find id with
    | none => rfl
    | some row => simp [hchange]
  · rfl

/-! ### What a statement keeps -/

theorem scalarFound_toNat (b : Bool) : scalarFound b.toNat = some b := by
  cases b <;> rfl

omit [DecidableEq ι] in
theorem Frame.refl (i : ι) (shared : Shared ι) : Frame i shared shared :=
  ⟨fun _ h => h, fun _ => Or.inl rfl, fun j _ => Locks.Keeps.refl _ j⟩

omit [DecidableEq ι] in
theorem kept_same (hsound : Sound shared) (hknows : Knows i shared phase') :
    Kept i shared shared phase' := ⟨hsound, .refl i shared, hknows⟩

omit [DecidableEq ι] in
/-- The rows that are opened stay, if the approvals do. -/
theorem Sound.congr (hsound : Sound shared) (hopen : ∀ id, shared'.isOpen id = shared.isOpen id)
    (haccounts : shared'.accounts = shared.accounts) (hcashLocks : shared'.cashLocks = shared.cashLocks)
    (hgate : ∀ id row, shared'.tables.customers.find id = some row → row.kycStatus = .approved →
      row.accountApprovalStatus = .approved) : Sound shared' where
  cash id := by rw [haccounts, hopen, hsound.cash]
  equity id := by rw [haccounts, hopen, hsound.equity]
  cashLock id := by rw [hcashLocks, hopen, hsound.cashLock]
  gate := hgate

theorem kept_abort (hsound : Sound shared) :
    Kept i shared (shared.abort i).1 (shared.abort i).2 where
  sound := ⟨hsound.cash, hsound.equity, hsound.cashLock, hsound.gate⟩
  frame := ⟨fun _ h => h, fun _ => Or.inl rfl, fun _ hij => Locks.keeps_release hij⟩
  knows := trivial

omit [DecidableEq ι] in
theorem kept_locking {keys : List RowLock} (hsound : Sound shared)
    (hfree : ∀ k ∈ keys, shared.locks.FreeFor i k)
    (hknows : Knows i (shared.locking i keys phase').1 phase') :
    Kept i shared (shared.locking i keys phase').1 (shared.locking i keys phase').2 where
  sound := ⟨hsound.cash, hsound.equity, hsound.cashLock, hsound.gate⟩
  frame := ⟨fun _ h => h, fun _ => Or.inl rfl, fun _ hij => Locks.keeps_take_other hfree hij⟩
  knows := hknows

omit [DecidableEq ι] in
theorem kept_sessions {kycSessions : Table KycSession.providerSessionId} {locks : Locks RowLock ι}
    (hsound : Sound shared) (hlocks : ∀ j, i ≠ j → shared.locks.Keeps locks j) :
    Kept i shared { shared with tables := { shared.tables with kycSessions }, locks } .idle where
  sound := ⟨hsound.cash, hsound.equity, hsound.cashLock, hsound.gate⟩
  frame := ⟨fun _ h => h, fun _ => Or.inl rfl, hlocks⟩
  knows := trivial

omit [DecidableEq ι] in
theorem kept_register {customerId : Uuid} {customers : Table Customer.id} (hsound : Sound shared)
    (hinsert : shared.tables.customers.insert ⟨customerId, .pending, .pending⟩ = some customers) :
    Kept i shared { shared with tables := { shared.tables with customers } } .idle := by
  have hfind := Table.find_insert hinsert
  have hopen : ∀ id, (Shared.isOpen { shared with tables := { shared.tables with customers } } id) =
      shared.isOpen id := by
    intro id
    unfold Shared.isOpen
    rw [hfind]
    split_ifs with hid
    · have hmiss : ¬ shared.tables.customers.Has id := fun hhas => by
        rw [← hid] at hhas
        simp [Table.insert_eq_none.mpr hhas] at hinsert
      rw [Table.find_eq_none.mpr hmiss]
      rfl
    · rfl
  refine ⟨hsound.congr hopen rfl rfl fun id row hrow hkyc => ?_,
    ⟨fun id hhas => ?_, fun id => Or.inl (hopen id), fun j _ => Locks.Keeps.refl _ j⟩, trivial⟩
  · have hrow' := (hfind id).symm.trans hrow
    split_ifs at hrow' with hid
    · cases hrow'
      cases hkyc
    · exact hsound.gate id row hrow' hkyc
  · exact (Table.has_insert hinsert id).mpr (Or.inl hhas)

/-- An override sets no approval back. -/
theorem kept_override {loaded : Customer} (hsound : Sound shared) :
    Kept i shared (shared.overridden i loaded) .idle := by
  have hopen : ∀ id, (shared.overridden i loaded).isOpen id = shared.isOpen id :=
    isOpen_setCustomer rfl fun _ => rfl
  refine ⟨hsound.congr hopen rfl rfl fun id row hrow hkyc => ?_,
    ⟨fun id => (has_setCustomer _ _ _ id).mpr, fun id => Or.inl (hopen id),
      fun _ hij => Locks.keeps_release hij⟩, trivial⟩
  have hrow' := (find_setCustomer _ _ _ id).symm.trans hrow
  split_ifs at hrow' with hid
  · obtain ⟨old, -, rfl⟩ := Option.map_eq_some_iff.mp hrow'
    cases hkyc
  · exact hsound.gate id row hrow' hkyc

theorem kept_ungranted {judged : Judged} {loaded : Customer} (hsound : Sound shared)
    (hclosing : Closing i shared judged loaded none) :
    Kept i shared (shared.committed i judged loaded none) .idle := by
  obtain ⟨hloaded, hineligible⟩ := hclosing
  have hopen : ∀ id, (shared.committed i judged loaded none).isOpen id = shared.isOpen id :=
    isOpen_setCustomer rfl fun _ => rfl
  refine ⟨hsound.congr hopen (List.append_nil _) (List.append_nil _) fun id row hrow hkyc => ?_,
    ⟨fun id => (has_setCustomer _ _ _ id).mpr, fun id => Or.inl (hopen id),
      fun _ hij => Locks.keeps_release hij⟩, trivial⟩
  have hrow' := (find_setCustomer _ _ _ id).symm.trans hrow
  split_ifs at hrow' with hid
  · obtain ⟨old, hold, rfl⟩ := Option.map_eq_some_iff.mp hrow'
    have hkyc' : (if IsDirty judged loaded then kycStatusOf judged.status else old.kycStatus) =
      .approved := hkyc
    show old.accountApprovalStatus = .approved
    split_ifs at hkyc' with hdirty
    · -- the verdict is an approval, so the account has been approved before
      have happroved : loaded.accountApprovalStatus = .approved :=
        not_not.mp fun hnot => hineligible ⟨hkyc', hnot⟩
      have hisOpen := hloaded.isOpen happroved
      simpa [Shared.isOpen, hold] using hisOpen
    · exact hsound.gate _ old hold hkyc'
  · exact hsound.gate id row hrow' hkyc

theorem count_openedAccounts (customerId id : Uuid) (isOpen : Bool) {role : AccountRole}
    (hrole : role = .cash ∨ role = .customerEquity) :
    (openedAccounts customerId (allFound isOpen)).count (id, role) =
      if id = customerId then (!isOpen).toNat else 0 := by
  by_cases hid : id = customerId
  · rcases hrole with rfl | rfl <;> cases isOpen <;> simp [openedAccounts, allFound, hid]
  · have hne : customerId ≠ id := Ne.symm hid
    rcases hrole with rfl | rfl <;> cases isOpen <;> simp [openedAccounts, allFound, hid, hne]

theorem kept_granted {judged : Judged} {loaded : Customer} (hsound : Sound shared)
    (hopening : Opening i shared judged loaded) :
    Kept i shared (shared.committed i judged loaded (some (allFound (shared.isOpen loaded.id))))
      .idle := by
  obtain ⟨old, hold⟩ :=
    Option.ne_none_iff_exists'.mp fun hnone => Table.find_eq_none.mp hnone hopening.known.has
  set shared' := shared.committed i judged loaded (some (allFound (shared.isOpen loaded.id)))
    with hshared'
  have hfind := find_setCustomer shared.tables.customers loaded.id
    (customerAfter judged loaded (some (allFound (shared.isOpen loaded.id))))
  have hopen : ∀ id, shared'.isOpen id = if id = loaded.id then true else shared.isOpen id := by
    intro id
    show ((setCustomer _ _ _).find id).any _ = _
    rw [hfind]
    split_ifs with hid
    · simp [hold, customerAfter]
    · rfl
  -- a row is opened exactly if there is none
  have hopened : ∀ id, (shared'.isOpen id).toNat = (shared.isOpen id).toNat +
      if id = loaded.id then (!shared.isOpen loaded.id).toNat else 0 := by
    intro id
    rw [hopen]
    split_ifs with hid
    · rw [hid]
      cases shared.isOpen loaded.id <;> rfl
    · rfl
  have haccounts : ∀ id role, role = .cash ∨ role = .customerEquity →
      shared.accounts.count (id, role) = (shared.isOpen id).toNat →
      shared'.accounts.count (id, role) = (shared'.isOpen id).toNat := by
    intro id role hrole hcount
    rw [hopened, ← hcount, ← count_openedAccounts loaded.id id _ hrole, ← List.count_append]
    rfl
  refine ⟨⟨fun id => haccounts id _ (Or.inl rfl) (hsound.cash id),
      fun id => haccounts id _ (Or.inr rfl) (hsound.equity id), fun id => ?_,
      fun id row hrow hkyc => ?_⟩,
    ⟨fun id => (has_setCustomer _ _ _ id).mpr, fun id => ?_, fun _ hij => Locks.keeps_release hij⟩,
    trivial⟩
  · have hlocks : shared'.cashLocks = shared.cashLocks ++
      if shared.isOpen loaded.id then [] else [loaded.id] := rfl
    rw [hopened, hlocks, List.count_append, hsound.cashLock]
    cases shared.isOpen loaded.id with
    | false =>
      by_cases hid : id = loaded.id
      · simp [hid]
      · simp [hid, Ne.symm hid]
    | true => simp
  · have hrow' := (hfind id).symm.trans hrow
    split_ifs at hrow' with hid
    · obtain ⟨row', -, rfl⟩ := Option.map_eq_some_iff.mp hrow'
      rfl
    · exact hsound.gate id row hrow' hkyc
  · rw [hopen]
    split_ifs with hid
    · rw [hid]
      exact Or.inr ⟨hopening.lock, rfl⟩
    · exact Or.inl rfl

/-! ### Sessions that are loaded -/

omit [DecidableEq ι] in
theorem Loaded.framed {loaded : Customer} (hframe : Frame i shared shared')
    (h : Loaded shared loaded) : Loaded shared' loaded := by
  refine ⟨hframe.has _ h.has, h.gate, fun happroved => ?_⟩
  rcases hframe.isOpen loaded.id with hsame | ⟨-, hopen⟩
  · exact hsame.trans (h.isOpen happroved)
  · exact hopen

omit [DecidableEq ι] in
theorem Opening.framed {judged : Judged} {loaded : Customer} (hij : i ≠ j)
    (hframe : Frame i shared shared') (h : Opening j shared judged loaded) :
    Opening j shared' judged loaded ∧ shared'.isOpen loaded.id = shared.isOpen loaded.id := by
  refine ⟨⟨h.known.framed hframe, h.eligible, hframe.locks j hij _ h.lock⟩, ?_⟩
  rcases hframe.isOpen loaded.id with hsame | ⟨hlock, -⟩
  · exact hsame
  · rw [h.lock] at hlock
    exact absurd (Option.some.inj hlock).symm hij

omit [DecidableEq ι] in
/-- **A process does not interfere with another.** -/
theorem Knows.undisturbed (hij : i ≠ j) (hframe : Frame i shared shared')
    (h : Knows j shared other) : Knows j shared' other := by
  cases other with
  | idle | overriding | overridden => trivial
  | polled | judged => exact Loaded.framed hframe h
  | judging judged loaded | sessionUpdated judged loaded =>
    exact fun customer hmem => (h customer hmem).framed hframe
  | opening => exact (Opening.framed hij hframe h).1
  | cashSeen judged loaded cash =>
    obtain ⟨hopening, hsame⟩ := Opening.framed hij hframe h.1
    exact ⟨hopening, h.2.trans hsame.symm⟩
  | equitySeen judged loaded cash equity =>
    obtain ⟨hopening, hsame⟩ := Opening.framed hij hframe h.1
    exact ⟨hopening, h.2.1.trans hsame.symm, h.2.2.trans hsame.symm⟩
  | closing judged loaded found | flushed judged loaded found =>
    cases found with
    | none => exact ⟨h.1.framed hframe, h.2⟩
    | some found =>
      obtain ⟨hopening, hsame⟩ := Opening.framed hij hframe h.1
      exact ⟨hopening, h.2.trans (congrArg allFound hsame.symm)⟩

/-! ### The statements -/

omit [DecidableEq ι] in
theorem knows_judge {session : KycSession} {stripeStatus : String} {now : Instant}
    {loaded : Option Customer} (h : ∀ customer ∈ loaded, Loaded shared customer) :
    Knows i shared (judge maxAttempts session stripeStatus now loaded) := by
  unfold judge
  split
  · trivial
  · split_ifs
    · trivial
    · exact h

omit [DecidableEq ι] in
/-- A customer that is eligible is changed by the verdict, and locked therefore. -/
theorem isDirty_of_isEligible {judged : Judged} {loaded : Customer} (hloaded : Loaded shared loaded)
    (h : IsEligible judged loaded) : IsDirty judged loaded := fun hsame =>
  h.2 (hloaded.gate (hsame.trans h.1))

omit [DecidableEq ι] in
theorem mem_cashLocks (hsound : Sound shared) (id : Uuid) :
    id ∈ shared.cashLocks ↔ shared.isOpen id = true := by
  rw [← List.count_pos_iff, hsound.cashLock]
  cases shared.isOpen id <;> simp

omit [DecidableEq ι] in
theorem lock_found (hsound : Sound shared) (id : Uuid) :
    ¬ ((allFound (shared.isOpen id)).cashLock = false ∧ id ∈ shared.cashLocks) := by
  rw [mem_cashLocks hsound]
  rintro ⟨hclosed, hopen⟩
  have hfound : shared.isOpen id = false := hclosed
  rw [hopen] at hfound
  cases hfound

theorem updateSession_kept {judged : Judged} {loaded : Option Customer} (hsound : Sound shared)
    (hloaded : ∀ customer ∈ loaded, Loaded shared customer) :
    Kept i shared (updateSession i shared judged loaded).1 (updateSession i shared judged loaded).2 := by
  unfold updateSession
  dsimp only
  split_ifs with hfree
  · cases shared.tables.kycSessions.find judged.session.providerSessionId with
    | none => exact kept_abort hsound
    | some row =>
      dsimp only
      split_ifs
      · exact kept_abort hsound
      · exact kept_locking hsound (by simpa using hfree) fun customer hmem =>
          ⟨(hloaded customer hmem).has, (hloaded customer hmem).gate, (hloaded customer hmem).isOpen⟩
  · exact kept_same hsound hloaded

theorem updateCustomer_kept {judged : Judged} {loaded : Customer} (hsound : Sound shared)
    (hloaded : Loaded shared loaded) :
    Kept i shared (updateCustomer i shared judged loaded).1
      (updateCustomer i shared judged loaded).2 := by
  have hlocked : ∀ keys, Loaded (shared.locking i keys .idle).1 loaded := fun _ =>
    ⟨hloaded.has, hloaded.gate, hloaded.isOpen⟩
  unfold updateCustomer
  dsimp only
  by_cases heligible : IsEligible judged loaded
  · have hdirty := isDirty_of_isEligible hloaded heligible
    rw [if_pos heligible, if_neg (not_not.mpr hdirty)]
    split_ifs with hfree
    · exact kept_locking hsound (by simpa using hfree)
        ⟨hlocked _, heligible, Locks.take_mem (by simp)⟩
    · exact kept_same hsound hloaded
  · rw [if_neg heligible]
    split_ifs with hdirty hfree
    · exact kept_locking hsound (by simpa using hfree) ⟨hlocked _, heligible⟩
    · exact kept_same hsound hloaded
    · exact kept_same hsound ⟨hloaded, heligible⟩

theorem flush_kept {judged : Judged} {loaded : Customer} {found : Option Found} (hsound : Sound shared)
    (hclosing : Closing i shared judged loaded found) :
    Kept i shared (flush i shared judged loaded found).1 (flush i shared judged loaded found).2 := by
  cases found with
  | none => exact kept_same hsound hclosing
  | some found =>
    unfold flush
    dsimp only
    split_ifs with hfree
    · exact kept_abort hsound
    · obtain ⟨⟨hloaded, heligible, -⟩, hfound⟩ := hclosing
      exact kept_locking hsound hfree ⟨⟨⟨hloaded.has, hloaded.gate, hloaded.isOpen⟩, heligible,
        Locks.take_mem List.mem_cons_self⟩, hfound⟩
    · exact kept_same hsound hclosing

theorem commit_kept {judged : Judged} {loaded : Customer} {found : Option Found} (hsound : Sound shared)
    (hclosing : Closing i shared judged loaded found) :
    Kept i shared (shared.committed i judged loaded found) .idle := by
  cases found with
  | none => exact kept_ungranted hsound hclosing
  | some found =>
    obtain ⟨hopening, rfl⟩ := hclosing
    exact kept_granted hsound hopening

/-- **What a statement keeps.** -/
theorem program_kept (hsound : Sound shared) (hknows : Knows i shared phase) :
    Kept i shared (program maxAttempts i a shared phase).1 (program maxAttempts i a shared phase).2 := by
  unfold program
  split
  · split
    · exact kept_same hsound trivial
    · rename_i hinsert
      exact kept_register hsound hinsert
  · split_ifs
    · split
      · exact kept_same hsound trivial
      · exact kept_sessions hsound fun j _ => Locks.Keeps.refl _ j
    · exact kept_same hsound trivial
  · split
    · exact kept_same hsound trivial
    · exact kept_same hsound (knows_judge fun _ h => by cases h)
  · split
    · exact kept_same hsound trivial
    · rename_i hfind
      split_ifs
      · exact kept_same hsound (loaded_of_find hsound hfind)
      · exact kept_same hsound trivial
  · split
    · exact kept_same hsound trivial
    · refine kept_same hsound (knows_judge fun customer hmem => ?_)
      obtain rfl := Option.some.inj hmem
      exact hknows
  · exact updateSession_kept hsound hknows
  · rename_i judged loaded
    split
    · exact kept_sessions hsound fun _ hij => Locks.keeps_release hij
    · rename_i customer hcustomer
      refine kept_same hsound ?_
      rcases Option.or_eq_some_iff.mp hcustomer with hloaded | ⟨-, hfind⟩
      · exact hknows customer hloaded
      · exact loaded_of_find hsound hfind
  · exact updateCustomer_kept hsound hknows
  · rename_i judged loaded
    rw [hsound.cash, scalarFound_toNat]
    exact kept_same hsound ⟨hknows, rfl⟩
  · rename_i judged loaded cash
    rw [hsound.equity, scalarFound_toNat]
    exact kept_same hsound ⟨hknows.1, hknows.2, rfl⟩
  · rename_i judged loaded cash equity
    obtain ⟨hopening, rfl, rfl⟩ := hknows
    refine kept_same hsound ⟨hopening, ?_⟩
    simp [allFound, mem_cashLocks hsound]
  · exact flush_kept hsound hknows
  · exact commit_kept hsound hknows
  · split
    · exact kept_same hsound trivial
    · exact kept_same hsound trivial
  · split_ifs with hpending hfree
    · exact kept_same hsound trivial
    · exact kept_locking hsound (by simpa using hfree) trivial
    · exact kept_same hsound trivial
  · exact kept_override hsound
  · exact kept_abort hsound
  · exact kept_same hsound hknows

/-- The sessions in which accounts are being opened. -/
def Phase.IsOpening : Phase → Prop
  | .opening .. | .cashSeen .. | .equitySeen .. | .closing _ _ (some _) => True
  | _ => False

/-- A transaction that has begun to open accounts goes on until its commit, unless it crashes. -/
theorem program_opening (hsound : Sound shared) (hknows : Knows i shared phase)
    (hopening : phase.IsOpening) (ha : a ≠ .rollback) :
    (program maxAttempts i a shared phase).2 ≠ .idle := by
  unfold program
  split <;> try cases hopening
  · rw [hsound.cash, scalarFound_toNat]
    intro hidle
    cases hidle
  · rw [hsound.equity, scalarFound_toNat]
    intro hidle
    cases hidle
  · intro hidle
    cases hidle
  · rename_i judged loaded found
    cases found with
    | none => cases hopening
    | some found =>
      obtain ⟨-, rfl⟩ := hknows
      unfold flush
      dsimp only
      rw [if_neg (lock_found hsound loaded.id)]
      split_ifs
      · intro hidle
        cases hidle
      · intro hidle
        cases hidle
  · exact absurd rfl ha
  · rintro rfl
    cases hopening

end Invariant

/-! ### A verdict alone -/

section Alone
variable {ι : Type} [DecidableEq ι] {maxAttempts : ℤ} {i : ι} {shared : Shared ι} {judged : Judged}
  {customer : Customer}

omit [DecidableEq ι] in
theorem judge_of_effect_eq_none {verdict : Verdict} {session : KycSession}
    (hcustomer : shared.tables.customers.Has session.customerId)
    (hfind : shared.tables.kycSessions.find verdict.providerSessionId = some session)
    (heffect : effect maxAttempts shared.tables verdict = none) :
    judge maxAttempts session verdict.stripeStatus verdict.now none = .idle := by
  unfold judge
  cases hstatus : mapVerificationSessionStatus verdict.stripeStatus session.attemptNumber maxAttempts with
  | error => rfl
  | ok status =>
    dsimp only
    split_ifs with hnone
    · rfl
    · rw [not_or, not_not] at hnone
      rw [effect_eq_some.mpr ⟨hfind, hstatus, hnone.1, hnone.2, hcustomer⟩] at heffect
      cases heffect

/-- The tables with the verdict. -/
def decided (tables : KycTables) (judged : Judged) (customer : Customer) (found : Option Found) :
    KycTables where
  customers := setCustomer tables.customers customer.id (customerAfter judged customer found)
  kycSessions := tables.kycSessions.set judged.row

theorem alone_ineligible (hfree : ∀ k, shared.locks.FreeFor i k)
    (hineligible : ¬ IsEligible judged customer) :
    let after := Processes.alone (program maxAttempts) i [.updateCustomer, .findCash, .findEquity,
      .findCashLock, .flush, .commit] shared (.judged judged customer)
    after.1.tables = decided shared.tables judged customer none ∧ after.2 = .idle := by
  by_cases hdirty : IsDirty judged customer
  · have hupdate : program maxAttempts i .updateCustomer shared (.judged judged customer) =
        shared.locking i [.customer customer.id] (.closing judged customer none) := by
      show updateCustomer i shared judged customer = _
      unfold updateCustomer
      dsimp only
      rw [if_neg hineligible, if_neg (not_not.mpr hdirty), if_pos (hfree _)]
    rw [Processes.alone_cons hupdate]
    exact ⟨rfl, rfl⟩
  · have hupdate : program maxAttempts i .updateCustomer shared (.judged judged customer) =
        (shared, .closing judged customer none) := by
      show updateCustomer i shared judged customer = _
      unfold updateCustomer
      dsimp only
      rw [if_neg hineligible, if_pos hdirty]
    rw [Processes.alone_cons hupdate]
    exact ⟨rfl, rfl⟩

theorem alone_eligible (hsound : Sound shared) (hfree : ∀ k, shared.locks.FreeFor i k)
    (hloaded : Loaded shared customer) (heligible : IsEligible judged customer) :
    let after := Processes.alone (program maxAttempts) i [.updateCustomer, .findCash, .findEquity,
      .findCashLock, .flush, .commit] shared (.judged judged customer)
    after.1.tables = decided shared.tables judged customer
      (some (allFound (shared.isOpen customer.id))) ∧ after.2 = .idle := by
  have hdirty := isDirty_of_isEligible hloaded heligible
  have hupdate : program maxAttempts i .updateCustomer shared (.judged judged customer) =
      shared.locking i [.customer customer.id] (.opening judged customer) := by
    show updateCustomer i shared judged customer = _
    unfold updateCustomer
    dsimp only
    rw [if_pos heligible, if_neg (not_not.mpr hdirty), if_pos (hfree _)]
  have hcash : program maxAttempts i .findCash
      (shared.locking i [.customer customer.id] (.opening judged customer)).1 (.opening judged customer) =
      ((shared.locking i [.customer customer.id] (.opening judged customer)).1,
        .cashSeen judged customer (shared.isOpen customer.id)) := by
    unfold program Shared.locking
    dsimp only
    rw [hsound.cash, scalarFound_toNat]
  have hequity : program maxAttempts i .findEquity
      (shared.locking i [.customer customer.id] (.opening judged customer)).1
      (.cashSeen judged customer (shared.isOpen customer.id)) =
      ((shared.locking i [.customer customer.id] (.opening judged customer)).1,
        .equitySeen judged customer (shared.isOpen customer.id) (shared.isOpen customer.id)) := by
    unfold program Shared.locking
    dsimp only
    rw [hsound.equity, scalarFound_toNat]
  have hcashLock : program maxAttempts i .findCashLock
      (shared.locking i [.customer customer.id] (.opening judged customer)).1
      (.equitySeen judged customer (shared.isOpen customer.id) (shared.isOpen customer.id)) =
      ((shared.locking i [.customer customer.id] (.opening judged customer)).1,
        .closing judged customer (some (allFound (shared.isOpen customer.id)))) := by
    unfold program Shared.locking
    simp [allFound, mem_cashLocks hsound]
  have hall : ∀ k ∈ flushKeys customer.id (allFound (shared.isOpen customer.id)),
      (shared.locks.take i [.customer customer.id]).FreeFor i k := fun k _ => Locks.freeFor_take hfree k
  have hflush : program maxAttempts i .flush
      (shared.locking i [.customer customer.id] (.opening judged customer)).1
      (.closing judged customer (some (allFound (shared.isOpen customer.id)))) =
      (shared.locking i [.customer customer.id] (.opening judged customer)).1.locking i
        (flushKeys customer.id (allFound (shared.isOpen customer.id)))
        (.flushed judged customer (some (allFound (shared.isOpen customer.id)))) :=
    (if_neg (not_not.mpr hall)).trans (if_neg (lock_found hsound customer.id))
  intro after
  have hsteps : after = Processes.alone (program maxAttempts) i [.commit]
      ((shared.locking i [.customer customer.id] (.opening judged customer)).1.locking i
        (flushKeys customer.id (allFound (shared.isOpen customer.id))) .idle).1
      (.flushed judged customer (some (allFound (shared.isOpen customer.id)))) :=
    (Processes.alone_cons hupdate).trans ((Processes.alone_cons hcash).trans
      ((Processes.alone_cons hequity).trans ((Processes.alone_cons hcashLock).trans
        (Processes.alone_cons hflush))))
  rw [hsteps]
  exact ⟨rfl, rfl⟩

theorem find_decided {tables : KycTables} {found : Option Found} {session : KycSession}
    {status : KycSessionStatus} {now : Instant}
    (hfind : tables.customers.find session.customerId = some customer) (id : Uuid) :
    ((decided tables ⟨session, status, now⟩ customer found).customers.find id).map Customer.kycStatus =
      ((tables.resolved session status now).customers.find id).map Customer.kycStatus := by
  obtain ⟨hmem, hid⟩ := Table.find_eq_some.mp hfind
  have hhas : tables.customers.Has customer.id := Table.has_of_mem hmem
  have hresolved : (tables.resolved session status now).customers =
      tables.customers.set { customer with kycStatus := kycStatusOf status } := by
    unfold KycTables.resolved
    rw [hfind]
  have hset := Table.find_set (t := tables.customers)
    (r := { customer with kycStatus := kycStatusOf status }) hhas id
  have hdecided := find_setCustomer tables.customers customer.id
    (customerAfter ⟨session, status, now⟩ customer found) id
  rw [hresolved, hset]
  refine (congrArg (Option.map Customer.kycStatus) hdecided).trans ?_
  by_cases hk : id = customer.id
  · rw [if_pos hk, if_pos hk.symm, hid, hfind]
    show some (ite (IsDirty _ _) _ _) = some _
    split_ifs with hdirty
    · rfl
    · exact congrArg some (not_not.mp hdirty)
  · rw [if_neg hk, if_neg (Ne.symm hk)]

theorem alone_judged (maxAttempts : ℤ) (i : ι) (judged : Judged) {session : KycSession}
    (hsound : Sound shared) (hfree : ∀ k, shared.locks.FreeFor i k)
    (hsession : shared.tables.kycSessions.find judged.session.providerSessionId = some session)
    (hpending : session.status = .pending)
    (hcustomer : shared.tables.customers.find judged.session.customerId = some customer) :
    let after := Processes.alone (program maxAttempts) i [.updateSession, .findCustomer,
      .updateCustomer, .findCash, .findEquity, .findCashLock, .flush, .commit] shared
      (.judging judged none)
    ∃ found, after.1.tables = decided shared.tables judged customer found ∧ after.2 = .idle := by
  have hupdate : program maxAttempts i .updateSession shared (.judging judged none) =
      ((shared.locking i [.kycSession judged.session.providerSessionId] (.sessionUpdated judged none)).1,
        .sessionUpdated judged none) := by
    show updateSession i shared judged none = _
    unfold updateSession
    dsimp only
    rw [if_neg (not_not.mpr (hfree _)), hsession]
    exact if_neg (not_not.mpr hpending)
  have hloads : program maxAttempts i .findCustomer
      (shared.locking i [.kycSession judged.session.providerSessionId] (.sessionUpdated judged none)).1
      (.sessionUpdated judged none) =
      ((shared.locking i [.kycSession judged.session.providerSessionId] (.sessionUpdated judged none)).1,
        .judged judged customer) := by
    unfold program Shared.locking
    dsimp only
    rw [Option.none_or, hcustomer]
  have hsound' : Sound (shared.locking i [.kycSession judged.session.providerSessionId]
      (.sessionUpdated judged none)).1 := ⟨hsound.cash, hsound.equity, hsound.cashLock, hsound.gate⟩
  rw [Processes.alone_cons hupdate, Processes.alone_cons hloads]
  by_cases heligible : IsEligible judged customer
  · exact ⟨_, alone_eligible hsound' (Locks.freeFor_take hfree) (loaded_of_find hsound' hcustomer) heligible⟩
  · exact ⟨_, alone_ineligible (Locks.freeFor_take hfree) heligible⟩

/-- **The statements of a verdict are its service.** Alone, and with no lock in its way, the webhook
leaves the sessions and the status of each customer as `apply_verification_verdict` does. -/
theorem verdict_alone (verdict : Verdict) (hsound : Sound shared)
    (hfree : ∀ k, shared.locks.FreeFor i k)
    (hcustomers : ∀ session ∈ shared.tables.kycSessions,
      shared.tables.customers.Has session.customerId) :
    let after := Processes.alone (program maxAttempts) i
      [.deliver verdict.providerSessionId verdict.stripeStatus verdict.now, .updateSession,
        .findCustomer, .updateCustomer, .findCash, .findEquity, .findCashLock, .flush, .commit]
      shared .idle
    after.2 = .idle ∧
    after.1.tables.kycSessions = (afterVerdict maxAttempts shared.tables verdict).kycSessions ∧
    ∀ id, (after.1.tables.customers.find id).map Customer.kycStatus =
      ((afterVerdict maxAttempts shared.tables verdict).customers.find id).map Customer.kycStatus := by
  rw [afterVerdict_eq]
  cases heffect : effect maxAttempts shared.tables verdict with
  | none =>
    have hdeliver : program maxAttempts i (.deliver verdict.providerSessionId verdict.stripeStatus
        verdict.now) shared .idle = (shared, .idle) := by
      unfold program
      dsimp only
      cases hfind : shared.tables.kycSessions.find verdict.providerSessionId with
      | none => rfl
      | some session =>
        have hmem := (Table.find_eq_some.mp hfind).1
        dsimp only
        rw [judge_of_effect_eq_none (hcustomers session hmem) hfind heffect]
    rw [Processes.alone_cons hdeliver]
    exact ⟨rfl, rfl, fun _ => rfl⟩
  | some resolved =>
    obtain ⟨session, status⟩ := resolved
    obtain ⟨hfind, hstatus, hterminal, hpending, hhas⟩ := effect_eq_some.mp heffect
    obtain ⟨customer, hcustomer⟩ :=
      Option.ne_none_iff_exists'.mp fun hnone => Table.find_eq_none.mp hnone hhas
    obtain ⟨hmem, hkey⟩ := Table.find_eq_some.mp hfind
    have hdeliver : program maxAttempts i (.deliver verdict.providerSessionId verdict.stripeStatus
        verdict.now) shared .idle = (shared, .judging ⟨session, status, verdict.now⟩ none) := by
      unfold program judge
      dsimp only
      rw [hfind]
      dsimp only
      rw [hstatus]
      exact congrArg (Prod.mk shared) (if_neg (by simp [hterminal, hpending]))
    have hrow : shared.tables.kycSessions.find session.providerSessionId = some session := by
      rw [hkey, hfind]
    obtain ⟨found, htables, hidle⟩ := alone_judged maxAttempts i ⟨session, status, verdict.now⟩
      hsound hfree hrow hpending hcustomer
    rw [Processes.alone_cons hdeliver]
    refine ⟨hidle, ?_, fun id => ?_⟩
    · rw [htables]
      rfl
    · rw [htables]
      exact find_decided hcustomer id

end Alone

/-! ### Runs -/

section Runs
variable {ι : Type} [DecidableEq ι] (maxAttempts : ℤ)

/-- **No statement breaks what is known.** -/
theorem opening_stable : Processes.Stable (program (ι := ι) maxAttempts) (fun _ _ _ _ => True) Sound
    Knows where
  shared _ _ _ _ _ hsound hknows := (program_kept hsound hknows).sound
  own _ _ _ _ _ hsound hknows := (program_kept hsound hknows).knows
  other _ _ _ _ _ _ hij _ hsound hknows hother :=
    hother.undisturbed hij (program_kept hsound hknows).frame

omit [DecidableEq ι] in
theorem holds_start : Processes.Holds Sound Knows (start (ι := ι)) := by
  have hnone : ∀ id, (start (ι := ι)).shared.isOpen id = false := fun _ => rfl
  refine ⟨⟨fun id => ?_, fun id => ?_, fun id => ?_, fun id row hfind => ?_⟩, fun _ => trivial⟩
  · rw [hnone]
    rfl
  · rw [hnone]
    rfl
  · rw [hnone]
    rfl
  · cases hfind

theorem holds_run (steps : List (ι × Action)) :
    Processes.Holds Sound Knows (Processes.run (program maxAttempts) steps start) :=
  (opening_stable maxAttempts).run (Processes.along_true _ steps _) holds_start

theorem isOpen_stays {customerId : Uuid} {c : Processes.Config ι (Shared ι) Phase}
    (hc : Processes.Holds Sound Knows c) (hopen : c.shared.isOpen customerId = true)
    (rest : List (ι × Action)) :
    (Processes.run (program maxAttempts) rest c).shared.isOpen customerId = true := by
  have hact : ∀ (step : ι × Action) (c : Processes.Config ι (Shared ι) Phase), True →
      Processes.Holds Sound Knows c ∧ c.shared.isOpen customerId = true →
      Processes.Holds Sound Knows (Processes.act (program maxAttempts) step c) ∧
        (Processes.act (program maxAttempts) step c).shared.isOpen customerId = true := by
    intro step c _ hc
    have hkept : Kept step.1 c.shared (Processes.act (program maxAttempts) step c).shared
      (program maxAttempts step.1 step.2 c.shared (c.locals step.1)).2 :=
        program_kept hc.1.1 (hc.1.2 step.1)
    refine ⟨(opening_stable maxAttempts).act trivial hc.1, ?_⟩
    rcases hkept.frame.isOpen customerId with hsame | ⟨-, hopens⟩
    · exact hsame.trans hc.2
    · exact hopens
  exact (Processes.run_keeps
    (I := fun c => Processes.Holds Sound Knows c ∧ c.shared.isOpen customerId = true)
    hact (Processes.along_true _ rest c) ⟨hc, hopen⟩).2

/-- **Accounts are opened once.** After any statements of any number of verdicts and overrides, in any
order, a customer has exactly one cash account, one equity account and one lock if the account is
approved, and none otherwise. A customer that is verified is approved, and an approval stays. -/
theorem accounts_opened_once (steps rest : List (ι × Action)) (customerId : Uuid) :
    let c := Processes.run (program maxAttempts) steps start
    let opened := if c.shared.isOpen customerId = true then 1 else 0
    c.shared.accounts.count (customerId, .cash) = opened ∧
    c.shared.accounts.count (customerId, .customerEquity) = opened ∧
    c.shared.cashLocks.count customerId = opened ∧
    (∀ customer, c.shared.tables.customers.find customerId = some customer →
      customer.kycStatus = .approved → c.shared.isOpen customerId = true) ∧
    (c.shared.isOpen customerId = true →
      (Processes.run (program maxAttempts) rest c).shared.isOpen customerId = true) := by
  intro c opened
  have hholds := holds_run maxAttempts steps
  have hopened : (c.shared.isOpen customerId).toNat = opened := by
    show _ = if c.shared.isOpen customerId = true then 1 else 0
    cases c.shared.isOpen customerId <;> rfl
  refine ⟨?_, ?_, ?_, fun customer hfind hkyc => ?_,
    fun hopen => isOpen_stays maxAttempts hholds hopen rest⟩
  · exact (hholds.1.cash customerId).trans hopened
  · exact (hholds.1.equity customerId).trans hopened
  · exact (hholds.1.cashLock customerId).trans hopened
  · have happroved := hholds.1.gate customerId customer hfind hkyc
    show (c.shared.tables.customers.find customerId).any _ = true
    rw [hfind]
    simpa using happroved

/-- **The opening of accounts does not fail.** In every state that is reached, whatever statement comes
next, a transaction that opens accounts goes on: no query finds two rows, and no lock is there already. -/
theorem opening_succeeds (steps : List (ι × Action)) (i : ι) (a : Action) (ha : a ≠ .rollback)
    (hopening : ((Processes.run (program maxAttempts) steps start).locals i).IsOpening) :
    (program maxAttempts i a (Processes.run (program maxAttempts) steps start).shared
      ((Processes.run (program maxAttempts) steps start).locals i)).2 ≠ .idle :=
  program_opening (holds_run maxAttempts steps).1 ((holds_run maxAttempts steps).2 i) hopening ha

end Runs

/-- Two verdicts on two sessions of a customer, both under way when the first is committed. -/
def atOnce : List (Bool × Action) := [
  (false, .register 1), (false, .insertSession ⟨1, "vs_1", .pending, 1, none⟩),
  (false, .insertSession ⟨1, "vs_2", .pending, 2, none⟩),
  (false, .deliver "vs_1" "verified" 10), (true, .deliver "vs_2" "verified" 11),
  (false, .updateSession), (true, .updateSession), (false, .findCustomer), (true, .findCustomer),
  (false, .updateCustomer), (true, .updateCustomer), (false, .findCash), (false, .findEquity),
  (false, .findCashLock), (false, .flush), (false, .commit), (true, .updateCustomer)]

theorem opening_succeeds_atOnce :
    (program 3 true .findCash (Processes.run (program 3) atOnce start).shared
      ((Processes.run (program 3) atOnce start).locals true)).2 ≠ .idle :=
  opening_succeeds 3 atOnce true .findCash (by simp) (by
    have hphase : ∃ judged loaded,
        (Processes.run (program 3) atOnce start).locals true = .opening judged loaded := ⟨_, _, rfl⟩
    obtain ⟨judged, loaded, hphase⟩ := hphase
    rw [hphase]
    trivial)

/-- **An approval may be granted twice**: `approve_if_eligible` looks at the customer as it was loaded.
There is one account of each role all the same. -/
theorem granted_twice :
    let c := Processes.run (program 3) (atOnce ++ [(true, .findCash), (true, .findEquity),
      (true, .findCashLock), (true, .flush), (true, .commit)]) start
    c.shared.granted = [1, 1] ∧ c.shared.accounts = [(1, .cash), (1, .customerEquity)] ∧
      c.shared.cashLocks = [1] := by
  decide

end Trueup.Identity.AccountOpening
