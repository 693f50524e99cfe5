import Trueup.Chat.CuratedViews
import Trueup.Lib.Locks
import Trueup.Lib.Processes

/-! # Tenant isolation

The units of work of any number of processes over the pooled connections of `extensions.py`, in any
order of their statements: `core/uow.py`, under the `tenant_isolation` policies of the tables.
`set_config` is local to its transaction, so a session that goes on after its commit runs on a
connection, its old one or another, on which nothing is set.

* `Step`: what a statement does.
* `Sound`, `Knows`: what the connections and the answers are, and what a process knows; no statement
  breaks them (`unitOfWork_stable`).
* `answers_of_tenant`: until it ends its transaction a session sees the rows of its tenant, all of them
  and no other, and afterwards none.
* `changed_by_tenant`: the rows of a customer change only by a commit of the customer's own, of staff
  or of the worker. -/

namespace Trueup.Identity.TenantIsolation

open Trueup.Core Trueup.Models Trueup.Chat Trueup.Lib

/-! ### The settings of a connection -/

/-- What `current_setting` reads: null where the setting was never set on the connection, the empty
string once the transaction that set it has ended, or what was set; `''` is also what is set where
there is no customer. -/
structure Settings where
  role : Option (Option SessionRole)
  customerId : Option (Option Uuid)
  deriving DecidableEq

/-- Those of a new connection. -/
def Settings.fresh : Settings := ⟨none, none⟩

/-- The end of the transaction. -/
def Settings.afterTransaction (settings : Settings) : Settings :=
  ⟨settings.role.map fun _ => none, settings.customerId.map fun _ => none⟩

/-- The policy `tenant_isolation`; a null is equal to nothing. -/
def Settings.admits (settings : Settings) (customerId : Option Uuid) : Bool :=
  settings.role = some (some .adviser) ∨ settings.role = some (some .admin) ∨
    (customerId.isSome ∧ settings.customerId = some customerId)

/-- Nothing is set. -/
structure Settings.Clear (settings : Settings) : Prop where
  role : settings.role = none ∨ settings.role = some none
  customerId : settings.customerId = none ∨ settings.customerId = some none

/-- The settings that a unit of work makes for its tenant. -/
def Settings.of (tenant : Tenant) : Settings := ⟨some (some tenant.role), some tenant.customerId⟩

theorem Settings.clear_fresh : Settings.fresh.Clear := ⟨Or.inl rfl, Or.inl rfl⟩

theorem Settings.clear_afterTransaction (settings : Settings) : settings.afterTransaction.Clear := by
  obtain ⟨role, customerId⟩ := settings
  refine ⟨?_, ?_⟩
  · cases role with
    | none => exact Or.inl rfl
    | some role => exact Or.inr rfl
  · cases customerId with
    | none => exact Or.inl rfl
    | some customerId => exact Or.inr rfl

theorem Settings.Clear.admits {settings : Settings} (h : settings.Clear) (customerId : Option Uuid) :
    settings.admits customerId = false := by
  unfold Settings.admits
  rcases h.role with hrole | hrole <;> rcases h.customerId with hid | hid <;> cases customerId <;>
    simp [hrole, hid]

theorem Settings.admits_of (tenant : Tenant) (customerId : Option Uuid) :
    (Settings.of tenant).admits customerId = tenant.admits customerId := by
  unfold Settings.admits Settings.of Tenant.admits
  simp only [Option.some.injEq, eq_comm]

/-! ### The database -/

/-- The credential of a connection; `owner` serves no request. -/
inductive DbRole
  | app | worker | chat
  deriving DecidableEq

/-- `UnitOfWork`. -/
structure UnitOfWork where
  tenant : Tenant
  dbRole : DbRole

/-- `trueup_worker` bypasses the policies. -/
def UnitOfWork.bypassesRls (uow : UnitOfWork) : Bool := uow.dbRole = .worker

/-- The rows that a unit of work is to see. -/
def UnitOfWork.admits (uow : UnitOfWork) (customerId : Option Uuid) : Bool :=
  uow.bypassesRls || uow.tenant.admits customerId

/-- A statement, with its condition. -/
inductive Statement (ρ : Type)
  | select (condition : ρ → Bool)
  | insert (row : ρ)
  | update (condition : ρ → Bool) (set : ρ → ρ)
  | delete (condition : ρ → Bool)

/-- What a statement did to a row. -/
inductive Change (ρ : Type)
  | inserted (row : ρ)
  | updated (old new : ρ)
  | deleted (row : ρ)

/-- The rows before and after. -/
def Change.rows {ρ : Type} : Change ρ → List ρ
  | .inserted row => [row]
  | .updated old new => [old, new]
  | .deleted row => [row]

def Change.apply {ρ : Type} [DecidableEq ρ] (rows : List ρ) : Change ρ → List ρ
  | .inserted row => rows ++ [row]
  | .updated old new => rows.map fun row => if row = old then new else row
  | .deleted old => rows.filter fun row => row ≠ old

/-- An answer to a `select`: the unit of work, whether its session had not ended a transaction, the rows
there were for its transaction, the condition, and what it saw. -/
structure Answer (ρ : Type) where
  uow : UnitOfWork
  first : Bool
  base : List ρ
  condition : ρ → Bool
  seen : List ρ

/-! ### The processes -/

/-- The committed rows, the connections with their settings, those that are checked out, and the answers
so far. -/
structure Shared (ι κ ρ : Type) where
  rows : List ρ
  settings : DbRole × κ → Settings
  pool : Locks (DbRole × κ) ι
  answers : List (Answer ρ)

/-- A session: its unit of work, the connection of its transaction, whether it has not ended one, and
what it has not committed. -/
structure Session (κ ρ : Type) where
  uow : UnitOfWork
  connection : Option κ
  first : Bool
  pending : List (Change ρ)

/-- Where a process is. -/
inductive Phase (κ ρ : Type)
  | idle
  /-- in `__enter__`, with a session that has executed nothing -/
  | entered (uow : UnitOfWork)
  /-- in `__enter__`, after `app.role` -/
  | roleSet (uow : UnitOfWork) (connection : κ)
  | inside (session : Session κ ρ)

inductive Action (κ ρ : Type)
  | enter (uow : UnitOfWork)
  /-- `set_config('app.role', …)`, on the connection that is checked out for it -/
  | setRole (connection : κ)
  /-- `set_config('app.customer_id', …)` -/
  | setCustomerId
  /-- a new transaction, for the next statement -/
  | checkOut (connection : κ)
  | execute (statement : Statement ρ)
  | commit
  | rollback
  /-- `__exit__`, or an error in `__enter__` -/
  | exit
  /-- the connection is lost, and replaced in the pool -/
  | disconnect

section Program
variable {ι κ ρ : Type} [DecidableEq ι] [DecidableEq κ] [DecidableEq ρ] (customerIdOf : ρ → Option Uuid)

/-- The transaction on the connection ends. -/
def Shared.release (shared : Shared ι κ ρ) (i : ι) (settings : Settings → Settings) (dbRole : DbRole) :
    Option κ → Shared ι κ ρ
  | none => shared
  | some connection => { shared with
      settings := Function.update shared.settings (dbRole, connection)
        (settings (shared.settings (dbRole, connection)))
      pool := shared.pool.release i }

/-- The session without its transaction. -/
def Session.ended (session : Session κ ρ) : Session κ ρ :=
  { session with connection := none, first := false, pending := [] }

/-- The rows of the transaction that the policy admits. -/
def Session.visible (session : Session κ ρ) (shared : Shared ι κ ρ) (connection : κ)
    (condition : ρ → Bool) : List ρ :=
  (session.pending.foldl Change.apply shared.rows).filter fun row =>
    (session.uow.bypassesRls ||
      (shared.settings (session.uow.dbRole, connection)).admits (customerIdOf row)) && condition row

/-- What a statement does to the rows that it sees. -/
def Session.touches (session : Session κ ρ) (shared : Shared ι κ ρ) (connection : κ) :
    Statement ρ → List (Change ρ)
  | .select _ => []
  | .insert row => [.inserted row]
  | .update condition set =>
    (session.visible customerIdOf shared connection condition).map fun row => .updated row (set row)
  | .delete condition =>
    (session.visible customerIdOf shared connection condition).map Change.deleted

/-- The changes of a statement; none where the policy refuses a row. -/
def Session.changes (session : Session κ ρ) (shared : Shared ι κ ρ) (connection : κ)
    (statement : Statement ρ) : Option (List (Change ρ)) :=
  if ∀ change ∈ session.touches customerIdOf shared connection statement, ∀ row ∈ change.rows,
      session.uow.bypassesRls ||
        (shared.settings (session.uow.dbRole, connection)).admits (customerIdOf row) then
    some (session.touches customerIdOf shared connection statement)
  else none

/-- The answer to a `select`. -/
def Session.answers (session : Session κ ρ) (shared : Shared ι κ ρ) (connection : κ) :
    Statement ρ → List (Answer ρ)
  | .select condition => [⟨session.uow, session.first, session.pending.foldl Change.apply shared.rows,
      condition, session.visible customerIdOf shared connection condition⟩]
  | _ => []

/-- A statement on a connection of the process; an error ends the transaction. -/
def Session.execute (session : Session κ ρ) (shared : Shared ι κ ρ) (i : ι) (connection : κ)
    (statement : Statement ρ) : Shared ι κ ρ × Phase κ ρ :=
  match session.changes customerIdOf shared connection statement with
  | some changes =>
    ({ shared with
        answers := shared.answers ++ session.answers customerIdOf shared connection statement },
      .inside { session with pending := session.pending ++ changes })
  | none => (shared.release i .afterTransaction session.uow.dbRole session.connection,
      .inside session.ended)

/-- The statements. -/
def program : Processes.Program ι (Action κ ρ) (Shared ι κ ρ) (Phase κ ρ)
  | _, .enter uow, shared, .idle =>
    if uow.tenant.role = .customer ∧ uow.tenant.customerId = none then (shared, .idle)
    else (shared, .entered uow)
  | i, .setRole connection, shared, .entered uow =>
    if shared.pool (uow.dbRole, connection) = none then
      ({ shared with
          settings := Function.update shared.settings (uow.dbRole, connection)
            { shared.settings (uow.dbRole, connection) with role := some (some uow.tenant.role) }
          pool := shared.pool.take i [(uow.dbRole, connection)] }, .roleSet uow connection)
    else (shared, .entered uow)
  | _, .setCustomerId, shared, .roleSet uow connection =>
    ({ shared with
        settings := Function.update shared.settings (uow.dbRole, connection)
          { shared.settings (uow.dbRole, connection) with customerId := some uow.tenant.customerId } },
      .inside ⟨uow, some connection, true, []⟩)
  | i, .checkOut connection, shared, .inside session =>
    if session.connection = none ∧ shared.pool (session.uow.dbRole, connection) = none then
      ({ shared with pool := shared.pool.take i [(session.uow.dbRole, connection)] },
        .inside { session with connection := some connection })
    else (shared, .inside session)
  | i, .execute statement, shared, .inside session =>
    match session.connection with
    | some connection => session.execute customerIdOf shared i connection statement
    | none => (shared, .inside session)
  | i, .commit, shared, .inside session =>
    ({ shared.release i .afterTransaction session.uow.dbRole session.connection with
        rows := session.pending.foldl Change.apply shared.rows }, .inside session.ended)
  | i, .rollback, shared, .inside session =>
    (shared.release i .afterTransaction session.uow.dbRole session.connection, .inside session.ended)
  | i, .exit, shared, .inside session =>
    (shared.release i .afterTransaction session.uow.dbRole session.connection, .idle)
  | i, .exit, shared, .roleSet uow connection =>
    (shared.release i .afterTransaction uow.dbRole (some connection), .idle)
  | _, .exit, shared, .entered _ => (shared, .idle)
  | i, .disconnect, shared, .inside session =>
    (shared.release i (fun _ => .fresh) session.uow.dbRole session.connection, .inside session.ended)
  | i, .disconnect, shared, .roleSet uow connection =>
    (shared.release i (fun _ => .fresh) uow.dbRole (some connection), .idle)
  | _, _, shared, phase => (shared, phase)

end Program

/-- The rows at the start, new connections, and idle processes. -/
def start {ι κ ρ : Type} (rows : List ρ) : Processes.Config ι (Shared ι κ ρ) (Phase κ ρ) :=
  ⟨⟨rows, fun _ => .fresh, fun _ => none, []⟩, fun _ => .idle⟩

/-! ### What a statement did -/

section Invariant
variable {ι κ ρ : Type} [DecidableEq ι] [DecidableEq κ] [DecidableEq ρ]
  {customerIdOf : ρ → Option Uuid} {i j : ι} {a : Action κ ρ} {shared shared' : Shared ι κ ρ}
  {phase phase' other : Phase κ ρ}

/-- What a statement of the process `i` did to the database and to the process. -/
inductive Step (customerIdOf : ρ → Option Uuid) (i : ι) (shared : Shared ι κ ρ) :
    Phase κ ρ → Shared ι κ ρ → Phase κ ρ → Prop
  | stays (phase : Phase κ ρ) : Step customerIdOf i shared phase shared phase
  | enters (uow : UnitOfWork) : Step customerIdOf i shared .idle shared (.entered uow)
  | setsRole (uow : UnitOfWork) (connection : κ)
      (free : shared.pool (uow.dbRole, connection) = none) :
      Step customerIdOf i shared (.entered uow)
        { shared with
          settings := Function.update shared.settings (uow.dbRole, connection)
            { shared.settings (uow.dbRole, connection) with role := some (some uow.tenant.role) }
          pool := shared.pool.take i [(uow.dbRole, connection)] } (.roleSet uow connection)
  | setsCustomerId (uow : UnitOfWork) (connection : κ) :
      Step customerIdOf i shared (.roleSet uow connection)
        { shared with
          settings := Function.update shared.settings (uow.dbRole, connection)
            { shared.settings (uow.dbRole, connection) with
              customerId := some uow.tenant.customerId } }
        (.inside ⟨uow, some connection, true, []⟩)
  | checksOut (session : Session κ ρ) (connection : κ) (none : session.connection = none)
      (free : shared.pool (session.uow.dbRole, connection) = Option.none) :
      Step customerIdOf i shared (.inside session)
        { shared with pool := shared.pool.take i [(session.uow.dbRole, connection)] }
        (.inside { session with connection := some connection })
  | executes (session : Session κ ρ) (connection : κ) (statement : Statement ρ)
      (changes : List (Change ρ)) (own : session.connection = some connection)
      (allowed : session.changes customerIdOf shared connection statement = some changes) :
      Step customerIdOf i shared (.inside session)
        { shared with
          answers := shared.answers ++ session.answers customerIdOf shared connection statement }
        (.inside { session with pending := session.pending ++ changes })
  | ends (session : Session κ ρ) (settings : Settings → Settings)
      (clear : ∀ s, (settings s).Clear) (rows : List ρ)
      (committed : rows = shared.rows ∨ rows = session.pending.foldl Change.apply shared.rows)
      (next : Phase κ ρ) (left : next = .idle ∨ next = .inside session.ended) :
      Step customerIdOf i shared (.inside session)
        { shared.release i settings session.uow.dbRole session.connection with rows } next
  | leaves (uow : UnitOfWork) : Step customerIdOf i shared (.entered uow) shared .idle
  | fails (uow : UnitOfWork) (connection : κ) (settings : Settings → Settings)
      (clear : ∀ s, (settings s).Clear) :
      Step customerIdOf i shared (.roleSet uow connection)
        (shared.release i settings uow.dbRole (some connection)) .idle

omit [DecidableEq ρ] in
theorem release_rows (settings : Settings → Settings) (dbRole : DbRole) (connection : Option κ) :
    { shared.release i settings dbRole connection with rows := shared.rows } =
      shared.release i settings dbRole connection := by
  cases connection <;> rfl

theorem step_ends (session : Session κ ρ) {settings : Settings → Settings}
    (clear : ∀ s, (settings s).Clear) (left : phase' = .idle ∨ phase' = .inside session.ended) :
    Step customerIdOf i shared (.inside session)
      (shared.release i settings session.uow.dbRole session.connection) phase' := by
  rw [← release_rows]
  exact .ends session settings clear shared.rows (Or.inl rfl) phase' left

/-- **What a statement did.** -/
theorem program_step (i : ι) (a : Action κ ρ) (shared : Shared ι κ ρ) (phase : Phase κ ρ) :
    Step customerIdOf i shared phase (program customerIdOf i a shared phase).1
      (program customerIdOf i a shared phase).2 := by
  unfold program
  split
  · split_ifs
    · exact .stays _
    · exact .enters _
  · split_ifs with hfree
    · exact .setsRole _ _ hfree
    · exact .stays _
  · exact .setsCustomerId _ _
  · split_ifs with hfree
    · exact .checksOut _ _ hfree.1 hfree.2
    · exact .stays _
  · rename_i statement session
    split
    · rename_i connection hown
      unfold Session.execute
      cases hchanges : session.changes customerIdOf shared connection statement with
      | some changes => exact .executes _ _ _ _ hown hchanges
      | none => exact step_ends _ Settings.clear_afterTransaction (Or.inr rfl)
    · exact .stays _
  · exact .ends _ _ Settings.clear_afterTransaction _ (Or.inr rfl) _ (Or.inr rfl)
  · exact step_ends _ Settings.clear_afterTransaction (Or.inr rfl)
  · exact step_ends _ Settings.clear_afterTransaction (Or.inl rfl)
  · exact .fails _ _ _ Settings.clear_afterTransaction
  · exact .leaves _
  · exact step_ends _ (fun _ => Settings.clear_fresh) (Or.inr rfl)
  · exact .fails _ _ _ fun _ => Settings.clear_fresh
  · exact .stays _

/-! ### What the connections are -/

/-- What an answer is to be. -/
def Answer.expected (customerIdOf : ρ → Option Uuid) (answer : Answer ρ) : List ρ :=
  answer.base.filter fun row =>
    (if answer.first then answer.uow.admits (customerIdOf row) else answer.uow.bypassesRls) &&
      answer.condition row

/-- What the connections and the answers are. -/
structure Sound (customerIdOf : ρ → Option Uuid) (shared : Shared ι κ ρ) : Prop where
  clear : ∀ key, shared.pool key = none → (shared.settings key).Clear
  answers : ∀ answer ∈ shared.answers, answer.seen = answer.expected customerIdOf

/-- The connection that a process has checked out. -/
def Phase.connection : Phase κ ρ → Option (DbRole × κ)
  | .idle | .entered _ => none
  | .roleSet uow connection => some (uow.dbRole, connection)
  | .inside session => session.connection.map fun connection => (session.uow.dbRole, connection)

/-- The settings are those of the tenant until the session ends a transaction, and then there are
none. -/
def Session.Set (session : Session κ ρ) (settings : Settings) : Prop :=
  if session.first then settings = .of session.uow.tenant else settings.Clear

/-- The connection of the process is set for it, and what it has not committed is of its tenant. -/
def Prepared (customerIdOf : ρ → Option Uuid) (shared : Shared ι κ ρ) : Phase κ ρ → Prop
  | .idle | .entered _ => True
  | .roleSet uow connection =>
    (shared.settings (uow.dbRole, connection)).role = some (some uow.tenant.role)
  | .inside session =>
    (∀ connection, session.connection = some connection →
      session.Set (shared.settings (session.uow.dbRole, connection))) ∧
    (session.connection = none → session.first = false) ∧
    ∀ change ∈ session.pending, ∀ row ∈ change.rows, session.uow.admits (customerIdOf row) = true

/-- What a process knows: it has its own connection and no other, and that is set for it. -/
def Knows (customerIdOf : ρ → Option Uuid) (i : ι) (shared : Shared ι κ ρ) (phase : Phase κ ρ) : Prop :=
  (∀ key, shared.pool key = some i ↔ phase.connection = some key) ∧ Prepared customerIdOf shared phase

/-- What a statement of the process `i` leaves alone: the connections of the others. -/
structure Frame (i : ι) (shared shared' : Shared ι κ ρ) : Prop where
  pool : ∀ j, i ≠ j → ∀ key, shared'.pool key = some j ↔ shared.pool key = some j
  settings : ∀ j, i ≠ j → ∀ key, shared.pool key = some j → shared'.settings key = shared.settings key

omit [DecidableEq ι] [DecidableEq κ] [DecidableEq ρ] in
theorem Session.Set.admits {session : Session κ ρ} {settings : Settings} (h : session.Set settings)
    (customerId : Option Uuid) :
    (session.uow.bypassesRls || settings.admits customerId) =
      if session.first then session.uow.admits customerId else session.uow.bypassesRls := by
  unfold Session.Set at h
  split_ifs at h ⊢ with hfirst
  · rw [h, Settings.admits_of]
    rfl
  · rw [h.admits, Bool.or_false]

omit [DecidableEq ι] [DecidableEq κ] [DecidableEq ρ] in
theorem Session.Set.of_admits {session : Session κ ρ} {settings : Settings} (h : session.Set settings)
    {customerId : Option Uuid}
    (hadmits : (session.uow.bypassesRls || settings.admits customerId) = true) :
    session.uow.admits customerId = true := by
  rw [h.admits] at hadmits
  split_ifs at hadmits
  · exact hadmits
  · unfold UnitOfWork.admits
    rw [hadmits, Bool.true_or]

omit [DecidableEq ι] [DecidableEq ρ] in
/-- A process that takes a free connection leaves the others theirs. -/
theorem pool_take {key : DbRole × κ} (hfree : shared.pool key = none) (hij : i ≠ j)
    (key' : DbRole × κ) :
    shared.pool.take i [key] key' = some j ↔ shared.pool key' = some j :=
  ⟨Locks.keeps_of_take_other hij key',
    Locks.keeps_take_other (fun _ hk => Or.inl (List.mem_singleton.mp hk ▸ hfree)) hij key'⟩

omit [DecidableEq ρ] in
theorem frame_release (settings : Settings → Settings) {dbRole : DbRole} (connection : Option κ)
    (howns : ∀ key, shared.pool key = some i ↔
      (connection.map fun connection => (dbRole, connection)) = some key) :
    Frame i shared (shared.release i settings dbRole connection) := by
  cases connection with
  | none => exact ⟨fun _ _ _ => Iff.rfl, fun _ _ _ _ => rfl⟩
  | some connection =>
    refine ⟨fun j hij key => ⟨Locks.keeps_of_release key, Locks.keeps_release hij key⟩,
      fun j hij key hkey => Function.update_of_ne ?_ _ _⟩
    rintro rfl
    exact hij (Option.some.inj (((howns _).mpr rfl).symm.trans hkey))

omit [DecidableEq ρ] in
theorem clear_release {settings : Settings → Settings} (hclear : ∀ s, (settings s).Clear)
    {dbRole : DbRole} (connection : Option κ)
    (howns : ∀ key, shared.pool key = some i ↔
      (connection.map fun connection => (dbRole, connection)) = some key)
    (hfree : ∀ key, shared.pool key = none → (shared.settings key).Clear) (key : DbRole × κ)
    (hkey : (shared.release i settings dbRole connection).pool key = none) :
    ((shared.release i settings dbRole connection).settings key).Clear := by
  cases connection with
  | none => exact hfree key hkey
  | some connection =>
    by_cases hown : key = (dbRole, connection)
    · subst hown
      have hsettings : (shared.release i settings dbRole (some connection)).settings
          (dbRole, connection) = settings (shared.settings (dbRole, connection)) :=
        Function.update_self _ _ _
      rw [hsettings]
      exact hclear _
    · have hsettings : (shared.release i settings dbRole (some connection)).settings key =
          shared.settings key := Function.update_of_ne hown _ _
      rw [hsettings]
      refine hfree key ?_
      have hne : shared.pool key ≠ some i := fun h => hown (Option.some.inj ((howns key).mp h)).symm
      have hpool : (if shared.pool key = some i then none else shared.pool key) = none := hkey
      rwa [if_neg hne] at hpool

omit [DecidableEq ρ] in
theorem owns_release {settings : Settings → Settings} {dbRole : DbRole} (connection : Option κ)
    (howns : ∀ key, shared.pool key = some i ↔
      (connection.map fun connection => (dbRole, connection)) = some key) (key : DbRole × κ) :
    (shared.release i settings dbRole connection).pool key = some i ↔ none = some key := by
  refine ⟨fun h => ?_, fun h => (by cases h)⟩
  cases connection with
  | none => exact (howns key).mp h
  | some connection => exact absurd h (Locks.release_self key)

omit [DecidableEq ι] [DecidableEq κ] [DecidableEq ρ] in
/-- The policy admits the rows that a statement changes. -/
theorem changes_admitted [DecidableEq ρ] {session : Session κ ρ} {connection : κ} {statement : Statement ρ}
    {changes : List (Change ρ)}
    (h : session.changes customerIdOf shared connection statement = some changes) :
    ∀ change ∈ changes, ∀ row ∈ change.rows, (session.uow.bypassesRls ||
      (shared.settings (session.uow.dbRole, connection)).admits (customerIdOf row)) = true := by
  unfold Session.changes at h
  split_ifs at h with hadmitted
  exact Option.some.inj h ▸ hadmitted

/-- **A statement leaves the others their connections.** -/
theorem Step.frame (h : Step customerIdOf i shared phase shared' phase')
    (hknows : Knows customerIdOf i shared phase) : Frame i shared shared' := by
  have hsame : Frame i shared shared := ⟨fun _ _ _ => Iff.rfl, fun _ _ _ _ => rfl⟩
  cases h with
  | stays | enters | executes | leaves => exact ⟨hsame.pool, hsame.settings⟩
  | setsRole uow connection free =>
    refine ⟨fun j hij => pool_take free hij, fun j hij key hkey => Function.update_of_ne ?_ _ _⟩
    rintro rfl
    rw [free] at hkey
    cases hkey
  | setsCustomerId uow connection =>
    refine ⟨hsame.pool, fun j hij key hkey => Function.update_of_ne ?_ _ _⟩
    rintro rfl
    exact hij (Option.some.inj (((hknows.1 _).mpr rfl).symm.trans hkey))
  | checksOut session connection none free => exact ⟨fun j hij => pool_take free hij, hsame.settings⟩
  | ends session settings clear rows committed next left =>
    have hframe := frame_release settings _ hknows.1
    exact ⟨hframe.pool, hframe.settings⟩
  | fails uow connection settings clear => exact frame_release _ (some connection) hknows.1

/-- **What the connections and the answers are** after a statement. -/
theorem Step.sound (h : Step customerIdOf i shared phase shared' phase')
    (hknows : Knows customerIdOf i shared phase) (hsound : Sound customerIdOf shared) :
    Sound customerIdOf shared' := by
  have htake : ∀ key key' : DbRole × κ, shared.pool.take i [key] key' = none →
      key' ≠ key ∧ shared.pool key' = none := by
    intro key key' hnone
    by_cases hkey : key' = key
    · rw [Locks.take_mem (by simp [hkey])] at hnone
      cases hnone
    · exact ⟨hkey, by simpa [Locks.take, hkey] using hnone⟩
  cases h with
  | stays | enters | leaves => exact hsound
  | setsRole uow connection free =>
    refine ⟨fun key hkey => ?_, hsound.answers⟩
    obtain ⟨hne, hnone⟩ := htake _ key hkey
    dsimp only
    rw [Function.update_of_ne hne]
    exact hsound.clear key hnone
  | setsCustomerId uow connection =>
    refine ⟨fun key hkey => ?_, hsound.answers⟩
    have hne : key ≠ (uow.dbRole, connection) := by
      rintro rfl
      rw [show shared.pool (uow.dbRole, connection) = some i from (hknows.1 _).mpr rfl] at hkey
      cases hkey
    dsimp only
    rw [Function.update_of_ne hne]
    exact hsound.clear key hkey
  | checksOut session connection none free =>
    exact ⟨fun key hkey => hsound.clear key (htake _ key hkey).2, hsound.answers⟩
  | executes session connection statement changes own allowed =>
    refine ⟨hsound.clear, fun answer hmem => ?_⟩
    rcases List.mem_append.mp hmem with hold | hnew
    · exact hsound.answers answer hold
    · have hset := hknows.2.1 connection own
      cases statement with
      | select condition =>
        rw [List.mem_singleton.mp hnew]
        exact List.filter_congr fun row _ => congrArg (· && condition row) (hset.admits _)
      | insert | update | delete => exact absurd hnew List.not_mem_nil
  | ends session settings clear rows committed next left =>
    refine ⟨clear_release clear _ hknows.1 hsound.clear, ?_⟩
    cases hconnection : session.connection <;> exact hsound.answers
  | fails uow connection settings clear =>
    exact ⟨clear_release clear (some connection) hknows.1 hsound.clear, hsound.answers⟩

/-- **What a process knows** after a statement of its own. -/
theorem Step.knows (h : Step customerIdOf i shared phase shared' phase')
    (hsound : Sound customerIdOf shared) (hknows : Knows customerIdOf i shared phase) :
    Knows customerIdOf i shared' phase' := by
  obtain ⟨howns, hprepared⟩ := hknows
  have htake : ∀ key : DbRole × κ, phase.connection = none →
      ∀ key', shared.pool.take i [key] key' = some i ↔ some key = some key' := by
    intro key hnone key'
    rw [Locks.take_singleton_self, howns key', hnone, Option.some.injEq, eq_comm (a := key)]
    simp
  cases h with
  | stays => exact ⟨howns, hprepared⟩
  | enters | leaves => exact ⟨howns, trivial⟩
  | setsRole uow connection free =>
    refine ⟨htake _ rfl, ?_⟩
    exact congrArg Settings.role (Function.update_self (uow.dbRole, connection) _ shared.settings)
  | setsCustomerId uow connection =>
    refine ⟨howns, fun connection' hconnection => ?_, fun h => (by cases h),
      fun _ h => absurd h List.not_mem_nil⟩
    obtain rfl := Option.some.inj hconnection
    refine (Function.update_self (uow.dbRole, connection) _ shared.settings).trans ?_
    exact congrArg (Settings.mk · _) hprepared
  | checksOut session connection none free =>
    obtain ⟨-, hfirst, hpending⟩ := hprepared
    refine ⟨htake _ (by simp [Phase.connection, none]), fun connection' hconnection => ?_,
      fun h => (by cases h), hpending⟩
    -- the session has ended a transaction, and nothing is set on a connection that was free
    obtain rfl := Option.some.inj hconnection
    unfold Session.Set
    rw [if_neg (by simp [hfirst none])]
    exact hsound.clear _ free
  | executes session connection statement changes own allowed =>
    obtain ⟨hset, hfirst, hpending⟩ := hprepared
    refine ⟨howns, hset, hfirst, fun change hmem row hrow => ?_⟩
    rcases List.mem_append.mp hmem with hold | hnew
    · exact hpending change hold row hrow
    · exact (hset connection own).of_admits (changes_admitted allowed change hnew row hrow)
  | ends session settings clear rows committed next left =>
    rcases left with rfl | rfl
    · exact ⟨owns_release _ howns, trivial⟩
    · exact ⟨owns_release _ howns, fun _ h => (by cases h), fun _ => rfl,
        fun _ h => absurd h List.not_mem_nil⟩
  | fails uow connection settings clear => exact ⟨owns_release (some connection) howns, trivial⟩

omit [DecidableEq ι] [DecidableEq κ] [DecidableEq ρ] in
/-- **A process does not interfere with another.** -/
theorem Knows.undisturbed (hij : i ≠ j) (hframe : Frame i shared shared')
    (h : Knows customerIdOf j shared other) : Knows customerIdOf j shared' other := by
  obtain ⟨howns, hprepared⟩ := h
  refine ⟨fun key => (hframe.pool j hij key).trans (howns key), ?_⟩
  cases other with
  | idle | entered => trivial
  | roleSet uow connection =>
    have hsettings := hframe.settings j hij _ ((howns (uow.dbRole, connection)).mpr rfl)
    exact (congrArg Settings.role hsettings).trans hprepared
  | inside session =>
    refine ⟨fun connection hconnection => ?_, hprepared.2⟩
    rw [hframe.settings j hij _ ((howns _).mpr (by simp [Phase.connection, hconnection]))]
    exact hprepared.1 connection hconnection

end Invariant

/-! ### Runs -/

section Runs
variable {ι κ ρ : Type} [DecidableEq ι] [DecidableEq κ] [DecidableEq ρ]
  (customerIdOf : ρ → Option Uuid)

/-- **No statement breaks the invariant.** -/
theorem unitOfWork_stable : Processes.Stable (program (ι := ι) (κ := κ) customerIdOf)
    (fun _ _ _ _ => True) (Sound customerIdOf) (Knows customerIdOf) where
  shared i a shared phase _ hsound hknows := (program_step i a shared phase).sound hknows hsound
  own i a shared phase _ hsound hknows := (program_step i a shared phase).knows hsound hknows
  other i _ a shared phase _ hij _ _ hknows hother :=
    hother.undisturbed hij ((program_step i a shared phase).frame hknows)

omit [DecidableEq ι] [DecidableEq κ] [DecidableEq ρ] in
theorem holds_start (rows : List ρ) :
    Processes.Holds (Sound customerIdOf) (Knows customerIdOf) (start (ι := ι) (κ := κ) rows) :=
  ⟨⟨fun _ _ => Settings.clear_fresh, fun _ h => absurd h List.not_mem_nil⟩,
    fun _ => ⟨fun _ => ⟨fun h => (by cases h), fun h => (by cases h)⟩, trivial⟩⟩

theorem holds_run (rows : List ρ) (steps : List (ι × Action κ ρ)) :
    Processes.Holds (Sound customerIdOf) (Knows customerIdOf)
      (Processes.run (program customerIdOf) steps (start rows)) :=
  (unitOfWork_stable customerIdOf).run (Processes.along_true _ _ _) (holds_start customerIdOf rows)

/-- **A session sees the rows of its tenant.** However the statements of any number of units of work
interleave on the pooled connections, a `select` answers, of the rows that meet its condition, those of
its tenant, all of them and no other, until its session ends a transaction, and none afterwards: the
settings are those of no other unit of work. Only the worker sees every row. -/
theorem answers_of_tenant (rows : List ρ) (steps : List (ι × Action κ ρ)) :
    let c := Processes.run (program customerIdOf) steps (start (ι := ι) (κ := κ) rows)
    (∀ answer ∈ c.shared.answers, answer.seen = answer.base.filter fun row =>
      (if answer.first then answer.uow.admits (customerIdOf row) else answer.uow.bypassesRls) &&
        answer.condition row) ∧
    ∀ answer ∈ c.shared.answers, answer.uow.dbRole ≠ .worker → answer.uow.tenant.role = .customer →
      ∀ row ∈ answer.seen, customerIdOf row = answer.uow.tenant.customerId := by
  intro c
  have hseen := (holds_run customerIdOf rows steps).1.answers
  refine ⟨hseen, fun answer hmem hworker hcustomer row hrow => ?_⟩
  have hbypass : answer.uow.bypassesRls = false := by simp [UnitOfWork.bypassesRls, hworker]
  rw [hseen answer hmem] at hrow
  obtain ⟨hadmits, -⟩ := Bool.and_eq_true _ _ ▸ (List.mem_filter.mp hrow).2
  split_ifs at hadmits
  · have hof : (customerIdOf row).isSome = true ∧ customerIdOf row = answer.uow.tenant.customerId := by
      simpa [UnitOfWork.admits, hbypass, Tenant.admits, hcustomer] using hadmits
    exact hof.2
  · exact Bool.noConfusion (hbypass.symm.trans hadmits)

/-- A session that reads again after its commit, and another customer's on the same connection. -/
example :
    let enter (customerId : Uuid) : List (ℕ × Action ℕ (ℕ × Option Uuid)) :=
      [(customerId, .enter ⟨⟨.customer, some customerId⟩, .app⟩), (customerId, .setRole 0),
        (customerId, .setCustomerId), (customerId, .execute (.select fun _ => true))]
    let again := [(7, .commit), (7, .checkOut 0), (7, .execute (.select fun _ => true)), (7, .exit)]
    (Processes.run (program Prod.snd) (enter 7 ++ again ++ enter 8)
      (start [(1, some 7), (2, some 8)])).shared.answers.map Answer.seen =
        [[(1, some 7)], [], [(2, some 8)]] := by
  decide

/-- The rows of a customer. -/
def ofCustomer (customerId : Uuid) (rows : List ρ) : List ρ :=
  rows.filter fun row => customerIdOf row = some customerId

variable {customerIdOf}

omit [DecidableEq ι] [DecidableEq κ] in
theorem ofCustomer_apply {customerId : Uuid} {change : Change ρ}
    (h : ∀ row ∈ change.rows, customerIdOf row ≠ some customerId) (rows : List ρ) :
    ofCustomer customerIdOf customerId (Change.apply rows change) =
      ofCustomer customerIdOf customerId rows := by
  unfold ofCustomer
  cases change with
  | inserted row =>
    have hrow := h row (List.mem_singleton_self _)
    simp [Change.apply, hrow]
  | updated old new =>
    have hold := h old (by simp [Change.rows])
    have hnew := h new (by simp [Change.rows])
    induction rows with
    | nil => rfl
    | cons row rows ih =>
      by_cases hrow : row = old
      · subst hrow
        simpa [Change.apply, hold, hnew] using ih
      · by_cases hof : customerIdOf row = some customerId <;> simpa [Change.apply, hrow, hof] using ih
  | deleted old =>
    have hold := h old (List.mem_singleton_self _)
    unfold Change.apply
    rw [List.filter_filter]
    refine List.filter_congr fun row _ => ?_
    by_cases hrow : row = old
    · subst hrow
      simp [hold]
    · simp [hrow]

theorem ofCustomer_foldl {customerId : Uuid} : ∀ changes : List (Change ρ),
    (∀ change ∈ changes, ∀ row ∈ change.rows, customerIdOf row ≠ some customerId) → ∀ rows : List ρ,
      ofCustomer customerIdOf customerId (changes.foldl Change.apply rows) =
        ofCustomer customerIdOf customerId rows
  | [], _, _ => rfl
  | change :: changes, h, rows =>
    (ofCustomer_foldl changes (fun change' hmem => h change' (List.mem_cons_of_mem _ hmem)) _).trans
      (ofCustomer_apply (h change List.mem_cons_self) rows)

theorem rows_program {i : ι} {a : Action κ ρ} (ha : a ≠ .commit) (shared : Shared ι κ ρ)
    (phase : Phase κ ρ) : (program customerIdOf i a shared phase).1.rows = shared.rows := by
  have hrelease : ∀ settings dbRole connection,
      (shared.release i settings dbRole connection).rows = shared.rows := by
    intro settings dbRole connection
    cases connection <;> rfl
  unfold program
  split
  · split_ifs <;> rfl
  · split_ifs <;> rfl
  · rfl
  · split_ifs <;> rfl
  · split
    · unfold Session.execute
      split
      · rfl
      · exact hrelease _ _ _
    · rfl
  · exact absurd rfl ha
  all_goals first | rfl | exact hrelease _ _ _

/-- **The rows of a customer are changed by its own units of work.** At every step of every such run
the rows of a customer stay as they are, unless the step is the commit of a unit of work of the
customer, of staff or of the worker. -/
theorem changed_by_tenant (customerIdOf : ρ → Option Uuid) (rows : List ρ)
    (steps : List (ι × Action κ ρ)) (i : ι) (a : Action κ ρ) (customerId : Uuid) :
    let c := Processes.run (program customerIdOf) steps (start rows)
    ofCustomer customerIdOf customerId
        (Processes.act (program customerIdOf) (i, a) c).shared.rows =
      ofCustomer customerIdOf customerId c.shared.rows ∨
    a = .commit ∧ ∃ session, c.locals i = .inside session ∧
      session.uow.admits (some customerId) = true := by
  intro c
  by_cases ha : a = .commit
  · subst ha
    cases hphase : c.locals i with
    | idle | entered | roleSet =>
      left
      unfold Processes.act
      dsimp only
      rw [hphase]
      rfl
    | inside session =>
      by_cases hadmits : session.uow.admits (some customerId) = true
      · exact Or.inr ⟨rfl, session, rfl, hadmits⟩
      · left
        have hknows := (holds_run customerIdOf rows steps).2 i
        unfold Processes.act
        dsimp only
        rw [hphase]
        refine ofCustomer_foldl _ (fun change hchange row hrow hof => hadmits ?_) _
        rw [← hof]
        rw [show (Processes.run (program customerIdOf) steps (start rows)).locals i = _ from hphase]
          at hknows
        exact hknows.2.2.2 change hchange row hrow
  · exact Or.inl (congrArg _ (rows_program ha _ _))

end Runs

end Trueup.Identity.TenantIsolation
