import Trueup.Core.Clock
import Trueup.Lib.Processes
import Trueup.Models.Enums

/-! # Logging in

`controllers/api/auth.py` over `services/identity/auth.py`, and the operator command of
`jobs/create_staff.py`: any number of browser sessions, one request at a time each, with the requests
of different sessions in any order. The `UPDATE` of `/mfa/enroll` is a step of its own, as other
requests may come between its reads and its commit. `verifyPassword` is `ph.verify`, `verifyTotp` is
`pyotp.TOTP(secret).verify`; of Flask-Login, a session has the id of its user, and a browser the id in
its remember-me cookie.

* `second_factor_needed`: whoever has no valid code of an enrolled staff member is never logged in as
  that member and never changes the secret, with the password or without.
* `staff_session_proved`: a session of a staff member has given the password and then a valid code.
* `registered_email_shadows`: a customer who registers the email of a staff member locks the member
  out for ever. -/

namespace Trueup.Identity.Auth

open Trueup.Core Trueup.Models Trueup.Lib

/-! ### The tables and the sessions -/

inductive StaffRole
  | adviser | admin
  deriving DecidableEq

structure Customer where
  id : Uuid
  email : String
  passwordHash : String
  deriving DecidableEq

structure Staff where
  id : Uuid
  email : String
  passwordHash : String
  role : StaffRole
  totpSecretEncrypted : Option String
  deriving DecidableEq

structure Accounts where
  customers : List Customer
  staff : List Staff

inductive Principal
  | customer (customer : Customer)
  | staff (staff : Staff)
  deriving DecidableEq

def Principal.passwordHash : Principal → String
  | .customer row => row.passwordHash
  | .staff row => row.passwordHash

/-- What the requests raise. -/
inductive AuthError
  | validationError (message code : String)
  | unauthenticated (message : String)
  | forbidden (message : String)
  | conflict (message code : String)
  deriving DecidableEq

def Accounts.findPrincipalByEmail (accounts : Accounts) (email : String) : Option Principal :=
  match accounts.customers.find? (·.email = email) with
  | some customer => some (.customer customer)
  | none => (accounts.staff.find? (·.email = email)).map .staff

def Accounts.findPrincipalById (accounts : Accounts) (userId : Uuid) : Option Principal :=
  match accounts.customers.find? (·.id = userId) with
  | some customer => some (.customer customer)
  | none => (accounts.staff.find? (·.id = userId)).map .staff

/-- A browser session. -/
structure Session where
  /-- the user of `login_user` -/
  userId : Option Uuid
  pendingMfaUserId : Option Uuid
  /-- the user of the remember-me cookie -/
  remembered : Option Uuid
  /-- the staff member whose secret a request in progress is about to write -/
  enrolling : Option Uuid

section Requests
variable (verifyPassword : String → String → Bool) (verifyTotp : String → String → Instant → Bool)

def authenticate (accounts : Accounts) (email password : String) : Option Principal :=
  match accounts.findPrincipalByEmail email with
  | none => none
  | some principal => if verifyPassword principal.passwordHash password then some principal else none

/-- `register`; the id is the default of the column, the hash is `hash_password` of the password. -/
def register (accounts : Accounts) (id : Uuid) (email password passwordHash : String) :
    Except AuthError Customer :=
  if password.length < 8 then .error (.validationError "" "validation_failed")
  else if (accounts.customers.find? (·.email = email)).isSome then
    .error (.validationError "Email already registered" "email_taken")
  else .ok ⟨id, email, passwordHash⟩

def login (accounts : Accounts) (email password : String) : Except AuthError Principal :=
  match authenticate verifyPassword accounts email password with
  | none => .error (.unauthenticated "Invalid credentials")
  | some principal => .ok principal

/-- `mfa_enroll` up to its `UPDATE`: the staff member whose secret is to be written. -/
def mfaEnroll (accounts : Accounts) (session : Session) (password : Option String) :
    Except AuthError Staff :=
  match session.pendingMfaUserId with
  | some userId =>
    match accounts.findPrincipalById userId with
    | some (.staff staff) =>
      if staff.totpSecretEncrypted.isSome then
        .error (.conflict "MFA is already enrolled for this account; use /mfa/verify"
          "mfa_already_enrolled")
      else .ok staff
    | _ => .error (.forbidden "Only staff can enroll in MFA")
  | none =>
    match session.userId.bind accounts.findPrincipalById with
    | some (.staff staff) =>
      match password with
      | some password =>
        if verifyPassword staff.passwordHash password then .ok staff
        else .error (.forbidden "password re-entry is required to replace MFA enrollment")
      | none => .error (.forbidden "password re-entry is required to replace MFA enrollment")
    | _ => .error (.unauthenticated "No pending MFA session")

def mfaVerify (accounts : Accounts) (session : Session) (code : String) (now : Instant) :
    Except AuthError Staff :=
  match session.pendingMfaUserId with
  | none => .error (.unauthenticated "No pending MFA session")
  | some userId =>
    match accounts.findPrincipalById userId with
    | some (.staff staff) =>
      match staff.totpSecretEncrypted with
      | none => .error (.forbidden "MFA not enrolled")
      | some secret =>
        if secret = "" then .error (.forbidden "MFA not enrolled")
        else if verifyTotp secret code now then .ok staff
        else .error (.unauthenticated "Invalid MFA code")
    | _ => .error (.forbidden "Only staff can verify MFA")

/-- `CreateStaffJob.run`, of an email that is normalized already. -/
def createStaff (accounts : Accounts) (id : Uuid) (email passwordHash : String) (role : StaffRole) :
    Option Staff :=
  if (accounts.customers.find? (·.email = email)).isSome then none
  else if (accounts.staff.find? (·.email = email)).isSome then none
  else some ⟨id, email, passwordHash, role, none⟩

/-- The rows after the `UPDATE` of a secret. -/
def setSecret (staffId : Uuid) (secret : String) (staff : List Staff) : List Staff :=
  staff.map fun member =>
    if member.id = staffId then { member with totpSecretEncrypted := some secret } else member

/-! ### The steps -/

inductive Action
  | register (id : Uuid) (email password passwordHash : String)
  | login (email password : String) (remember : Bool)
  /-- `logout`, with what becomes of the remember-me cookie -/
  | logout (forgets : Bool)
  /-- the session runs out -/
  | expire
  /-- a request without a user, with the remember-me cookie -/
  | remembered
  | mfaEnroll (password : Option String)
  /-- `generate_totp_secret`, and the commit -/
  | commitEnroll (secret : String)
  /-- the request in progress fails -/
  | abandonEnroll
  | mfaVerify (code : String) (now : Instant)
  /-- the operator command -/
  | createStaff (id : Uuid) (email passwordHash : String) (role : StaffRole)

variable {ι : Type}

/-- What a step does to the tables and to its session. -/
def program : Processes.Program ι Action Accounts Session
  | _, .register id email password passwordHash, accounts, session =>
    match register accounts id email password passwordHash with
    | .error _ => (accounts, session)
    | .ok customer => ({ accounts with customers := accounts.customers ++ [customer] }, session)
  | _, .login email password remember, accounts, session =>
    match login verifyPassword accounts email password with
    | .error _ => (accounts, session)
    | .ok (.staff staff) => (accounts, { session with pendingMfaUserId := some staff.id })
    | .ok (.customer customer) => (accounts, { session with
        userId := some customer.id
        remembered := if remember then some customer.id else session.remembered })
  | _, .logout forgets, accounts, session => (accounts, { session with
      userId := none
      pendingMfaUserId := none
      remembered := if forgets then none else session.remembered })
  | _, .expire, accounts, session =>
    (accounts, { session with userId := none, pendingMfaUserId := none })
  | _, .remembered, accounts, session =>
    (accounts, { session with userId := session.userId.or session.remembered })
  | _, .mfaEnroll password, accounts, session =>
    match mfaEnroll verifyPassword accounts session password with
    | .error _ => (accounts, session)
    | .ok staff => (accounts, { session with enrolling := some staff.id })
  | _, .commitEnroll secret, accounts, session =>
    match session.enrolling with
    | none => (accounts, session)
    | some staffId =>
      ({ accounts with staff := setSecret staffId secret accounts.staff },
        { session with enrolling := none })
  | _, .abandonEnroll, accounts, session => (accounts, { session with enrolling := none })
  | _, .mfaVerify code now, accounts, session =>
    match mfaVerify verifyTotp accounts session code now with
    | .error _ => (accounts, session)
    | .ok staff => (accounts, { session with userId := some staff.id, pendingMfaUserId := none })
  | _, .createStaff id email passwordHash role, accounts, session =>
    match createStaff accounts id email passwordHash role with
    | none => (accounts, session)
    | some staff => ({ accounts with staff := accounts.staff ++ [staff] }, session)

/-! ### What a step did -/

/-- What a step did. -/
inductive Step (accounts : Accounts) (session : Session) : Action → Accounts → Session → Prop
  | stays (a : Action) : Step accounts session a accounts session
  | registers (id : Uuid) (email password passwordHash : String)
      (free : ∀ customer ∈ accounts.customers, customer.email ≠ email) :
      Step accounts session (.register id email password passwordHash)
        { accounts with customers := accounts.customers ++ [⟨id, email, passwordHash⟩] } session
  | entersPassword (email password : String) (remember : Bool) (member : Staff)
      (found : authenticate verifyPassword accounts email password = some (.staff member)) :
      Step accounts session (.login email password remember) accounts
        { session with pendingMfaUserId := some member.id }
  | logsIn (email password : String) (remember : Bool) (customer : Customer)
      (found : authenticate verifyPassword accounts email password = some (.customer customer)) :
      Step accounts session (.login email password remember) accounts
        { session with
          userId := some customer.id
          remembered := if remember then some customer.id else session.remembered }
  | ends (a : Action) (remembered : Option Uuid)
      (kept : remembered = none ∨ remembered = session.remembered) :
      Step accounts session a accounts ⟨none, none, remembered, session.enrolling⟩
  | restores : Step accounts session .remembered accounts
      { session with userId := session.userId.or session.remembered }
  | enrolls (password : Option String) (member : Staff)
      (checked : mfaEnroll verifyPassword accounts session password = .ok member) :
      Step accounts session (.mfaEnroll password) accounts { session with enrolling := some member.id }
  | writes (secret : String) (staffId : Uuid) (enrolling : session.enrolling = some staffId) :
      Step accounts session (.commitEnroll secret)
        { accounts with staff := setSecret staffId secret accounts.staff }
        { session with enrolling := none }
  | abandons : Step accounts session .abandonEnroll accounts { session with enrolling := none }
  | verifies (code : String) (now : Instant) (member : Staff)
      (checked : mfaVerify verifyTotp accounts session code now = .ok member) :
      Step accounts session (.mfaVerify code now) accounts
        { session with userId := some member.id, pendingMfaUserId := none }
  | creates (id : Uuid) (email passwordHash : String) (role : StaffRole)
      (free : ∀ member ∈ accounts.staff, member.email ≠ email) :
      Step accounts session (.createStaff id email passwordHash role)
        { accounts with staff := accounts.staff ++ [⟨id, email, passwordHash, role, none⟩] } session

theorem authenticate_of_login {accounts : Accounts} {email password : String} {principal : Principal}
    (h : login verifyPassword accounts email password = .ok principal) :
    authenticate verifyPassword accounts email password = some principal := by
  unfold login at h
  split at h
  · cases h
  · cases h
    assumption

/-- **What a step did.** -/
theorem program_step (i : ι) (a : Action) (accounts : Accounts) (session : Session) :
    Step verifyPassword verifyTotp accounts session a
      (program verifyPassword verifyTotp i a accounts session).1
      (program verifyPassword verifyTotp i a accounts session).2 := by
  unfold program
  split
  · split
    · exact .stays _
    · rename_i customer hregister
      unfold register at hregister
      split_ifs at hregister with hlength htaken
      cases hregister
      refine .registers _ _ _ _ fun other hother heq => htaken ?_
      exact List.find?_isSome.mpr ⟨other, hother, by simpa using heq⟩
  · split
    · exact .stays _
    · exact .entersPassword _ _ _ _ (authenticate_of_login _ ‹_›)
    · exact .logsIn _ _ _ _ (authenticate_of_login _ ‹_›)
  · refine .ends _ _ ?_
    split_ifs
    · exact Or.inl rfl
    · exact Or.inr rfl
  · exact .ends _ _ (Or.inr rfl)
  · exact .restores
  · split
    · exact .stays _
    · exact .enrolls _ _ ‹_›
  · split
    · exact .stays _
    · exact .writes _ _ ‹_›
  · exact .abandons
  · split
    · exact .stays _
    · exact .verifies _ _ _ ‹_›
  · split
    · exact .stays _
    · rename_i member hcreate
      unfold createStaff at hcreate
      split_ifs at hcreate with hcustomer htaken
      cases hcreate
      refine .creates _ _ _ _ fun other hother heq => htaken ?_
      exact List.find?_isSome.mpr ⟨other, hother, by simpa using heq⟩

/-! ### What the checks found -/

section Checks
variable {verifyPassword : String → String → Bool} {verifyTotp : String → String → Instant → Bool}
  {accounts accounts' : Accounts} {session session' : Session} {member : Staff} {a : Action}

theorem staff_of_findPrincipalById {userId : Uuid}
    (h : accounts.findPrincipalById userId = some (.staff member)) :
    member ∈ accounts.staff ∧ member.id = userId := by
  unfold Accounts.findPrincipalById at h
  split at h
  · cases h
  · obtain ⟨found, hfind, heq⟩ := Option.map_eq_some_iff.mp h
    cases heq
    exact ⟨List.mem_of_find?_eq_some hfind, by simpa using List.find?_some hfind⟩

theorem findPrincipalByEmail_of_authenticate {email password : String} {principal : Principal}
    (h : authenticate verifyPassword accounts email password = some principal) :
    accounts.findPrincipalByEmail email = some principal ∧
      verifyPassword principal.passwordHash password = true := by
  unfold authenticate at h
  split at h
  · cases h
  · rename_i found hfind
    split_ifs at h with hpassword
    cases h
    exact ⟨hfind, hpassword⟩

theorem customer_of_authenticate {email password : String} {customer : Customer}
    (h : authenticate verifyPassword accounts email password = some (.customer customer)) :
    customer ∈ accounts.customers := by
  have hfind := (findPrincipalByEmail_of_authenticate h).1
  unfold Accounts.findPrincipalByEmail at hfind
  split at hfind
  · cases hfind
    exact List.mem_of_find?_eq_some ‹_›
  · obtain ⟨found, -, heq⟩ := Option.map_eq_some_iff.mp hfind
    cases heq

theorem staff_of_authenticate {email password : String}
    (h : authenticate verifyPassword accounts email password = some (.staff member)) :
    member ∈ accounts.staff ∧ member.email = email ∧
      ∀ customer ∈ accounts.customers, customer.email ≠ email := by
  have hfind := (findPrincipalByEmail_of_authenticate h).1
  unfold Accounts.findPrincipalByEmail at hfind
  split at hfind
  · cases hfind
  · rename_i hnone
    obtain ⟨found, hfound, heq⟩ := Option.map_eq_some_iff.mp hfind
    cases heq
    exact ⟨List.mem_of_find?_eq_some hfound, by simpa using List.find?_some hfound,
      fun customer hmem heq => List.find?_eq_none.mp hnone customer hmem (by simpa using heq)⟩

/-- An enrolment that passed its checks: of a member who is not enrolled, from a pending login, or of the
member who is logged in and has given the password. -/
theorem mfaEnroll_ok {password : Option String}
    (h : mfaEnroll verifyPassword accounts session password = .ok member) :
    member ∈ accounts.staff ∧
      (session.pendingMfaUserId = some member.id ∧ member.totpSecretEncrypted = none ∨
        session.pendingMfaUserId = none ∧ session.userId = some member.id ∧
          ∃ given, password = some given ∧ verifyPassword member.passwordHash given = true) := by
  unfold mfaEnroll at h
  split at h
  · rename_i userId hpending
    split at h
    · rename_i found hfind
      obtain ⟨hmem, rfl⟩ := staff_of_findPrincipalById hfind
      split_ifs at h with henrolled
      cases h
      exact ⟨hmem, Or.inl ⟨hpending, by simpa using henrolled⟩⟩
    · cases h
  · rename_i hpending
    split at h
    · rename_i found hfind
      obtain ⟨userId, huser, hfind⟩ := Option.bind_eq_some_iff.mp hfind
      obtain ⟨hmem, rfl⟩ := staff_of_findPrincipalById hfind
      split at h
      · rename_i given
        split_ifs at h with hpassword
        cases h
        exact ⟨hmem, Or.inr ⟨hpending, huser, given, rfl, hpassword⟩⟩
      · cases h
    · cases h

theorem mfaVerify_ok {code : String} {now : Instant}
    (h : mfaVerify verifyTotp accounts session code now = .ok member) :
    member ∈ accounts.staff ∧ session.pendingMfaUserId = some member.id ∧
      ∃ secret, member.totpSecretEncrypted = some secret ∧ verifyTotp secret code now = true := by
  unfold mfaVerify at h
  split at h
  · cases h
  · rename_i userId hpending
    split at h
    · rename_i found hfind
      obtain ⟨hmem, rfl⟩ := staff_of_findPrincipalById hfind
      split at h
      · cases h
      · rename_i secret hsecret
        split_ifs at h with hempty hcode
        cases h
        exact ⟨hmem, hpending, secret, hsecret, hcode⟩
    · cases h

end Checks

end Requests

variable {ι : Type} {verifyPassword : String → String → Bool}
  {verifyTotp : String → String → Instant → Bool} {accounts accounts' : Accounts}
  {session session' : Session} {a : Action}

/-! ### The second factor -/

section SecondFactor
variable {A : Set ι} {s : Uuid} {i : ι}

/-- The id is that of an enrolled member of the staff and of no customer. -/
structure Enrolled (s : Uuid) (accounts : Accounts) : Prop where
  secret : ∀ member ∈ accounts.staff, member.id = s → member.totpSecretEncrypted.isSome
  notCustomer : ∀ customer ∈ accounts.customers, customer.id ≠ s

/-- The session is not that of the member, and is not about to become so. -/
structure Outside (s : Uuid) (session : Session) : Prop where
  userId : session.userId ≠ some s
  remembered : session.remembered ≠ some s
  enrolling : session.enrolling ≠ some s

/-- The rows of the member. -/
def rowsOf (s : Uuid) (accounts : Accounts) : List Staff := accounts.staff.filter (·.id = s)

/-- A new row has another id. -/
def NewIds (s : Uuid) : Action → Prop
  | .register id _ _ _ => id ≠ s
  | .createStaff id _ _ _ => id ≠ s
  | _ => True

/-- The step is not one of the sessions in `A` with a valid code of the member. -/
def WithoutCode (verifyTotp : String → String → Instant → Bool) (A : Set ι) (s : Uuid) (i : ι)
    (a : Action) (accounts : Accounts) (session : Session) : Prop :=
  NewIds s a ∧ (i ∈ A → ∀ code now, a = .mfaVerify code now → session.pendingMfaUserId = some s →
    ∀ member ∈ accounts.staff, member.id = s → ∀ secret, member.totpSecretEncrypted = some secret →
      verifyTotp secret code now = false)

theorem mem_setSecret {staffId : Uuid} {secret : String} {staff : List Staff} {member : Staff}
    (h : member ∈ setSecret staffId secret staff) :
    ∃ row ∈ staff, row.id = member.id ∧ (member = row ∨ member.totpSecretEncrypted = some secret) := by
  obtain ⟨row, hrow, rfl⟩ := List.mem_map.mp h
  split_ifs
  · exact ⟨row, hrow, rfl, Or.inr rfl⟩
  · exact ⟨row, hrow, rfl, Or.inl rfl⟩

theorem filter_setSecret {staffId : Uuid} (hne : staffId ≠ s) (secret : String) (staff : List Staff) :
    (setSecret staffId secret staff).filter (·.id = s) = staff.filter (·.id = s) := by
  unfold setSecret
  induction staff with
  | nil => rfl
  | cons member staff ih =>
    rw [List.map_cons]
    by_cases hid : member.id = s
    · rw [if_neg fun heq => hne (heq.symm.trans hid), List.filter_cons_of_pos (by simpa using hid),
        List.filter_cons_of_pos (by simpa using hid), ih]
    · rw [List.filter_cons_of_neg, List.filter_cons_of_neg (by simpa using hid), ih]
      split_ifs <;> simpa using hid

theorem Step.enrolled (h : Step verifyPassword verifyTotp accounts session a accounts' session')
    (hnew : NewIds s a) (henrolled : Enrolled s accounts) : Enrolled s accounts' := by
  cases h with
  | registers id email password passwordHash free =>
    refine { henrolled with notCustomer := fun customer hmem => ?_ }
    rcases List.mem_append.mp hmem with hold | hlast
    · exact henrolled.notCustomer customer hold
    · rw [List.mem_singleton.mp hlast]
      exact hnew
  | writes secret staffId enrolling =>
    refine { henrolled with secret := fun member hmem hid => ?_ }
    obtain ⟨row, hrow, hsame, rfl | hsecret⟩ := mem_setSecret hmem
    · exact henrolled.secret _ hrow hid
    · rw [hsecret]
      rfl
  | creates id email passwordHash role free =>
    refine { henrolled with secret := fun member hmem hid => ?_ }
    rcases List.mem_append.mp hmem with hold | hlast
    · exact henrolled.secret member hold hid
    · rw [List.mem_singleton.mp hlast] at hid
      exact absurd hid hnew
  | _ => exact henrolled

theorem Step.outside (h : Step verifyPassword verifyTotp accounts session a accounts' session')
    (hwithout : WithoutCode verifyTotp A s i a accounts session) (hi : i ∈ A)
    (henrolled : Enrolled s accounts) (hout : Outside s session) : Outside s session' := by
  cases h with
  | logsIn email password remember customer found =>
    have hne := henrolled.notCustomer customer (customer_of_authenticate found)
    refine ⟨fun heq => hne (Option.some.inj heq), ?_, hout.enrolling⟩
    dsimp only
    split_ifs
    · exact fun heq => hne (Option.some.inj heq)
    · exact hout.remembered
  | ends a remembered kept =>
    refine ⟨fun heq => (by cases heq), ?_, hout.enrolling⟩
    rcases kept with rfl | rfl
    · exact fun heq => by cases heq
    · exact hout.remembered
  | restores =>
    refine ⟨fun heq => ?_, hout.remembered, hout.enrolling⟩
    rcases Option.or_eq_some_iff.mp heq with huser | ⟨-, hremembered⟩
    · exact hout.userId huser
    · exact hout.remembered hremembered
  | enrolls password member checked =>
    refine ⟨hout.userId, hout.remembered, fun heq => ?_⟩
    have hid := Option.some.inj heq
    obtain ⟨hmem, ⟨-, hnone⟩ | ⟨-, huser, -⟩⟩ := mfaEnroll_ok checked
    · have hsome := henrolled.secret member hmem hid
      rw [hnone] at hsome
      cases hsome
    · exact hout.userId (hid ▸ huser)
  | verifies code now member checked =>
    refine ⟨fun heq => ?_, hout.remembered, hout.enrolling⟩
    have hid : member.id = s := Option.some.inj heq
    obtain ⟨hmem, hpending, secret, hsecret, hcode⟩ := mfaVerify_ok checked
    rw [hwithout.2 hi code now rfl (hid ▸ hpending) member hmem hid secret hsecret] at hcode
    cases hcode
  | writes => exact ⟨hout.userId, hout.remembered, fun heq => by cases heq⟩
  | abandons => exact ⟨hout.userId, hout.remembered, fun heq => by cases heq⟩
  | entersPassword => exact ⟨hout.userId, hout.remembered, hout.enrolling⟩
  | stays => exact hout
  | registers => exact hout
  | creates => exact hout

theorem Step.rowsOf (h : Step verifyPassword verifyTotp accounts session a accounts' session')
    (hnew : NewIds s a) (hout : Outside s session) : Auth.rowsOf s accounts' = Auth.rowsOf s accounts := by
  cases h with
  | writes secret staffId enrolling =>
    have hne : staffId ≠ s := fun heq => hout.enrolling (heq ▸ enrolling)
    exact filter_setSecret hne secret accounts.staff
  | creates id email passwordHash role free =>
    have hid : id ≠ s := hnew
    show List.filter _ (accounts.staff ++ [_]) = _
    rw [List.filter_append, List.filter_cons_of_neg (by simpa using hid), List.filter_nil, List.append_nil]
    rfl
  | _ => rfl

variable [DecidableEq ι]

omit [DecidableEq ι] in
theorem secondFactor_stable : Processes.Stable (program (ι := ι) verifyPassword verifyTotp)
    (WithoutCode verifyTotp A s) (Enrolled s) (fun i _ session => i ∈ A → Outside s session) where
  shared i a accounts session hwithout henrolled _ :=
    (program_step verifyPassword verifyTotp i a accounts session).enrolled hwithout.1 henrolled
  own i a accounts session hwithout henrolled hout hi :=
    (program_step verifyPassword verifyTotp i a accounts session).outside hwithout hi henrolled (hout hi)
  other _ _ _ _ _ _ _ _ _ _ hother := hother

/-- **The second factor is needed.** In every run in which the sessions in `A` present no valid code of
an enrolled member of the staff, though they may know the password, none of them is ever logged in as
the member, nor writes the member's row. -/
theorem second_factor_needed (A : Set ι) (s : Uuid) (steps : List (ι × Action))
    (c : Processes.Config ι Accounts Session) (henrolled : Enrolled s c.shared)
    (hout : ∀ i ∈ A, Outside s (c.locals i))
    (hsteps : Processes.Along (program verifyPassword verifyTotp) (WithoutCode verifyTotp A s) steps c) :
    (∀ i ∈ A, ((Processes.run (program verifyPassword verifyTotp) steps c).locals i).userId ≠ some s) ∧
    ∀ before step rest, steps = before ++ step :: rest → step.1 ∈ A →
      rowsOf s (Processes.run (program verifyPassword verifyTotp) (before ++ [step]) c).shared =
        rowsOf s (Processes.run (program verifyPassword verifyTotp) before c).shared := by
  have hrun : ∀ {steps}, Processes.Along (program verifyPassword verifyTotp) (WithoutCode verifyTotp A s)
      steps c → _ := fun halong => secondFactor_stable.run halong ⟨henrolled, fun i hi => hout i hi⟩
  refine ⟨fun i hi => ((hrun hsteps).2 i hi).userId, fun before step rest heq hi => ?_⟩
  have hbefore := hrun (Processes.Along.of_append _ (heq ▸ hsteps))
  have hok := (Processes.along_iff _).mp hsteps before step rest heq
  unfold Processes.run
  rw [List.foldl_append]
  exact (program_step verifyPassword verifyTotp step.1 step.2 _ _).rowsOf hok.1 (hbefore.2 step.1 hi)

/-- A session that has the password of the member, tries to enroll and to guess a code. -/
def guessing : List (ℕ × Action) :=
  [(1, .login "adviser@trueup.example" "password" false), (1, .mfaEnroll (some "password")),
    (1, .commitEnroll "mine"), (1, .mfaVerify "000000" 5)]

/-- One enrolled member of the staff, and no session. -/
def oneMember : Processes.Config ℕ Accounts Session :=
  ⟨⟨[], [⟨7, "adviser@trueup.example", "password", .adviser, some "secret"⟩]⟩,
    fun _ => ⟨none, none, none, none⟩⟩

theorem second_factor_needed_guessing :
    ((Processes.run (program (· == ·) fun _ code _ => code == "123456") guessing
      oneMember).locals 1).userId ≠ some 7 := by
  refine (second_factor_needed {1} 7 guessing oneMember ⟨fun member hmem _ => ?_, fun _ h => by cases h⟩
    (fun _ _ => ⟨fun h => (by cases h), fun h => (by cases h), fun h => (by cases h)⟩)
    ⟨⟨trivial, fun _ _ _ h => by cases h⟩,
      ⟨trivial, fun _ _ _ h => by cases h⟩, ⟨trivial, fun _ _ _ h => by cases h⟩,
      ⟨trivial, fun _ code now h _ _ _ _ _ _ => by cases h; rfl⟩, trivial⟩).1 1 rfl
  rw [List.mem_singleton.mp hmem]
  rfl

end SecondFactor

/-! ### Both factors -/

section Proved
variable [DecidableEq ι] {c : Processes.Config ι Accounts Session} {steps : List (ι × Action)} {i : ι}
  {u : Uuid}

/-- The session has given the email and the password of the member. -/
def PasswordGiven (verifyPassword : String → String → Bool) (verifyTotp : String → String → Instant → Bool)
    (c : Processes.Config ι Accounts Session) (steps : List (ι × Action)) (i : ι) (u : Uuid) : Prop :=
  ∃ before email password remember rest member,
    steps = before ++ (i, .login email password remember) :: rest ∧
      authenticate verifyPassword (Processes.run (program verifyPassword verifyTotp) before c).shared
        email password = some (.staff member) ∧ member.id = u

/-- After that, it has given a code that was valid for the secret of the member. -/
def CodeGiven (verifyPassword : String → String → Bool) (verifyTotp : String → String → Instant → Bool)
    (c : Processes.Config ι Accounts Session) (steps : List (ι × Action)) (i : ι) (u : Uuid) : Prop :=
  ∃ before code now rest, steps = before ++ (i, .mfaVerify code now) :: rest ∧
    PasswordGiven verifyPassword verifyTotp c before i u ∧
    ∃ member ∈ (Processes.run (program verifyPassword verifyTotp) before c).shared.staff, member.id = u ∧
      ∃ secret, member.totpSecretEncrypted = some secret ∧ verifyTotp secret code now = true

theorem PasswordGiven.append (h : PasswordGiven verifyPassword verifyTotp c steps i u)
    (more : List (ι × Action)) : PasswordGiven verifyPassword verifyTotp c (steps ++ more) i u := by
  obtain ⟨before, email, password, remember, rest, member, rfl, hfound, hid⟩ := h
  exact ⟨before, email, password, remember, rest ++ more, member, by simp, hfound, hid⟩

theorem CodeGiven.append (h : CodeGiven verifyPassword verifyTotp c steps i u)
    (more : List (ι × Action)) : CodeGiven verifyPassword verifyTotp c (steps ++ more) i u := by
  obtain ⟨before, code, now, rest, rfl, hpassword, hmember⟩ := h
  exact ⟨before, code, now, rest ++ more, by simp, hpassword, hmember⟩

/-- No customer has the id of a member of the staff. -/
def DistinctIds (accounts : Accounts) : Prop :=
  ∀ customer ∈ accounts.customers, ∀ member ∈ accounts.staff, customer.id ≠ member.id

/-- The id of a new row is not one of the other table. -/
def FreshId (_ : ι) (a : Action) (accounts : Accounts) (_ : Session) : Prop :=
  match a with
  | .register id _ _ _ => ∀ member ∈ accounts.staff, id ≠ member.id
  | .createStaff id _ _ _ => ∀ customer ∈ accounts.customers, customer.id ≠ id
  | _ => True

def IsCustomer (accounts : Accounts) (u : Uuid) : Prop := ∃ customer ∈ accounts.customers, customer.id = u

omit [DecidableEq ι] in
theorem Step.distinctIds (h : Step verifyPassword verifyTotp accounts session a accounts' session')
    (hfresh : FreshId i a accounts session) (hdistinct : DistinctIds accounts) : DistinctIds accounts' := by
  cases h with
  | registers id email password passwordHash free =>
    intro customer hmem member hmember
    rcases List.mem_append.mp hmem with hold | hlast
    · exact hdistinct customer hold member hmember
    · rw [List.mem_singleton.mp hlast]
      exact hfresh member hmember
  | writes secret staffId enrolling =>
    intro customer hmem member hmember
    obtain ⟨row, hrow, hid, -⟩ := mem_setSecret hmember
    exact hid ▸ hdistinct customer hmem row hrow
  | creates id email passwordHash role free =>
    intro customer hmem member hmember
    rcases List.mem_append.mp hmember with hold | hlast
    · exact hdistinct customer hmem member hold
    · rw [List.mem_singleton.mp hlast]
      exact hfresh customer hmem
  | _ => exact hdistinct

theorem Step.isCustomer (h : Step verifyPassword verifyTotp accounts session a accounts' session')
    (hu : IsCustomer accounts u) : IsCustomer accounts' u := by
  obtain ⟨customer, hmem, hid⟩ := hu
  cases h with
  | registers => exact ⟨customer, List.mem_append_left _ hmem, hid⟩
  | _ => exact ⟨customer, hmem, hid⟩

/-- How the session `i` came by its users. -/
structure Provenance (verifyPassword : String → String → Bool)
    (verifyTotp : String → String → Instant → Bool) (c : Processes.Config ι Accounts Session)
    (steps : List (ι × Action)) (i : ι) (accounts : Accounts) (session : Session) : Prop where
  userId : ∀ u, session.userId = some u →
    IsCustomer accounts u ∨ CodeGiven verifyPassword verifyTotp c steps i u
  remembered : ∀ u, session.remembered = some u → IsCustomer accounts u
  pending : ∀ u, session.pendingMfaUserId = some u →
    PasswordGiven verifyPassword verifyTotp c steps i u

theorem Provenance.append {j : ι} (h : Provenance verifyPassword verifyTotp c steps j accounts session)
    (hcustomers : ∀ u, IsCustomer accounts u → IsCustomer accounts' u) (more : List (ι × Action)) :
    Provenance verifyPassword verifyTotp c (steps ++ more) j accounts' session where
  userId u hu := (h.userId u hu).imp (hcustomers u) fun hcode => hcode.append more
  remembered u hu := hcustomers u (h.remembered u hu)
  pending u hu := (h.pending u hu).append more

/-- **A step of the session** itself. -/
theorem Provenance.own {accounts' : Accounts} {session' : Session}
    (hstep : Step verifyPassword verifyTotp
      (Processes.run (program verifyPassword verifyTotp) steps c).shared session a accounts' session')
    (h : Provenance verifyPassword verifyTotp c steps i
      (Processes.run (program verifyPassword verifyTotp) steps c).shared session) :
    Provenance verifyPassword verifyTotp c (steps ++ [(i, a)]) i accounts' session' := by
  have hkeep := h.append (fun u => hstep.isCustomer) [(i, a)]
  cases hstep with
  | entersPassword email password remember member found =>
    refine { hkeep with pending := fun u hu => ?_ }
    exact ⟨steps, email, password, remember, [], member, rfl, found, Option.some.inj hu⟩
  | logsIn email password remember customer found =>
    have hcustomer : ∀ u, some customer.id = some u → IsCustomer _ u := fun u hu =>
      ⟨customer, customer_of_authenticate found, Option.some.inj hu⟩
    refine { hkeep with userId := fun u hu => Or.inl (hcustomer u hu), remembered := fun u hu => ?_ }
    dsimp only at hu
    split_ifs at hu
    · exact hcustomer u hu
    · exact hkeep.remembered u hu
  | ends a remembered kept =>
    refine ⟨fun u hu => (by cases hu), fun u hu => ?_, fun u hu => by cases hu⟩
    rcases kept with rfl | rfl
    · cases hu
    · exact hkeep.remembered u hu
  | restores =>
    refine { hkeep with userId := fun u hu => ?_ }
    rcases Option.or_eq_some_iff.mp hu with huser | ⟨-, hremembered⟩
    · exact hkeep.userId u huser
    · exact Or.inl (hkeep.remembered u hremembered)
  | verifies code now member checked =>
    obtain ⟨hmem, hpending, secret, hsecret, hcode⟩ := mfaVerify_ok checked
    refine ⟨fun u hu => ?_, hkeep.remembered, fun u hu => by cases hu⟩
    obtain rfl : member.id = u := Option.some.inj hu
    exact Or.inr ⟨steps, code, now, [], rfl, h.pending _ hpending, member, hmem, rfl, secret, hsecret,
      hcode⟩
  | enrolls => exact { hkeep with }
  | writes => exact { hkeep with }
  | abandons => exact { hkeep with }
  | stays => exact hkeep
  | registers => exact hkeep
  | creates => exact hkeep

/-- **Both factors.** In every run from no sessions, a session whose user is a member of the staff has
given the member's email and password, and after that a code that was valid for the member's secret at
that time. -/
theorem staff_session_proved (c : Processes.Config ι Accounts Session) (steps : List (ι × Action))
    (hempty : ∀ i, c.locals i = ⟨none, none, none, none⟩) (hdistinct : DistinctIds c.shared)
    (hsteps : Processes.Along (program verifyPassword verifyTotp) FreshId steps c) (i : ι) (u : Uuid)
    (huser : ((Processes.run (program verifyPassword verifyTotp) steps c).locals i).userId = some u)
    (hstaff : ∃ member ∈ (Processes.run (program verifyPassword verifyTotp) steps c).shared.staff,
      member.id = u) : CodeGiven verifyPassword verifyTotp c steps i u := by
  have hrun : ∀ {steps}, Processes.Along (program verifyPassword verifyTotp) FreshId steps c →
      DistinctIds (Processes.run (program verifyPassword verifyTotp) steps c).shared ∧
        ∀ i, Provenance verifyPassword verifyTotp c steps i
          (Processes.run (program verifyPassword verifyTotp) steps c).shared
          ((Processes.run (program verifyPassword verifyTotp) steps c).locals i) := by
    intro steps halong
    induction steps using List.reverseRecOn with
    | nil =>
      refine ⟨hdistinct, fun i => ?_⟩
      show Provenance _ _ c [] i c.shared (c.locals i)
      rw [hempty i]
      exact ⟨fun u h => (by cases h), fun u h => (by cases h), fun u h => by cases h⟩
    | append_singleton steps step ih =>
      obtain ⟨hids, hprovenance⟩ := ih (Processes.Along.of_append _ halong)
      have hfresh := (Processes.along_iff _).mp halong steps step [] rfl
      have hstep := program_step verifyPassword verifyTotp step.1 step.2
        (Processes.run (program verifyPassword verifyTotp) steps c).shared
        ((Processes.run (program verifyPassword verifyTotp) steps c).locals step.1)
      have hlast : Processes.run (program verifyPassword verifyTotp) (steps ++ [step]) c =
          Processes.act (program verifyPassword verifyTotp) step
            (Processes.run (program verifyPassword verifyTotp) steps c) := by
        unfold Processes.run
        rw [List.foldl_append]
        rfl
      rw [hlast]
      refine ⟨hstep.distinctIds hfresh hids, fun j => ?_⟩
      by_cases hj : j = step.1
      · subst hj
        rw [show step = (step.1, step.2) from rfl, Processes.act_self]
        exact (hprovenance step.1).own hstep
      · rw [show step = (step.1, step.2) from rfl, Processes.act_of_ne _ hj]
        exact (hprovenance j).append (fun u => hstep.isCustomer) [step]
  obtain ⟨hids, hprovenance⟩ := hrun hsteps
  rcases (hprovenance i).userId u huser with ⟨customer, hmem, hid⟩ | hcode
  · obtain ⟨member, hmember, hsame⟩ := hstaff
    exact absurd (hid.trans hsame.symm) (hids customer hmem member hmember)
  · exact hcode

/-- A member who logs in. -/
def loggingIn : List (ℕ × Action) :=
  [(1, .login "adviser@trueup.example" "password" false), (1, .mfaVerify "123456" 5)]

theorem staff_session_proved_logging_in :
    CodeGiven (· == ·) (fun _ code _ => code == "123456") oneMember loggingIn 1 7 :=
  staff_session_proved oneMember loggingIn (fun _ => rfl) (fun _ h => by cases h)
    ⟨trivial, trivial, trivial⟩ 1 7 (by decide)
    ⟨⟨7, "adviser@trueup.example", "password", .adviser, some "secret"⟩, by decide, rfl⟩

end Proved

/-! ### The same email -/

section Shadowed
variable [DecidableEq ι] {s : Uuid} {email : String}

/-- The id is that of members of the staff with the email, which a customer has too. -/
structure Shadowed (s : Uuid) (email : String) (accounts : Accounts) : Prop where
  customer : ∃ customer ∈ accounts.customers, customer.email = email
  member : ∀ member ∈ accounts.staff, member.id = s → member.email = email
  notCustomer : ∀ customer ∈ accounts.customers, customer.id ≠ s

/-- Nothing of the session is about the member. -/
structure Unrelated (s : Uuid) (session : Session) : Prop extends Outside s session where
  pending : session.pendingMfaUserId ≠ some s

omit [DecidableEq ι] in
theorem Step.shadowed (h : Step verifyPassword verifyTotp accounts session a accounts' session')
    (hnew : NewIds s a) (hshadowed : Shadowed s email accounts) : Shadowed s email accounts' := by
  cases h with
  | registers id newEmail password passwordHash free =>
    obtain ⟨customer, hmem, hemail⟩ := hshadowed.customer
    refine ⟨⟨customer, List.mem_append_left _ hmem, hemail⟩, hshadowed.member, fun other hother => ?_⟩
    rcases List.mem_append.mp hother with hold | hlast
    · exact hshadowed.notCustomer other hold
    · rw [List.mem_singleton.mp hlast]
      exact hnew
  | writes secret staffId enrolling =>
    refine { hshadowed with member := fun member hmem hid => ?_ }
    obtain ⟨row, hrow, rfl⟩ := List.mem_map.mp hmem
    split_ifs at hid ⊢ <;> exact hshadowed.member row hrow hid
  | creates id newEmail passwordHash role free =>
    refine { hshadowed with member := fun member hmem hid => ?_ }
    rcases List.mem_append.mp hmem with hold | hlast
    · exact hshadowed.member member hold hid
    · rw [List.mem_singleton.mp hlast] at hid
      exact absurd hid hnew
  | _ => exact hshadowed

omit [DecidableEq ι] in
theorem Step.unrelated (h : Step verifyPassword verifyTotp accounts session a accounts' session')
    (hshadowed : Shadowed s email accounts) (hsession : Unrelated s session) : Unrelated s session' := by
  cases h with
  | entersPassword given password remember member found =>
    refine ⟨⟨hsession.userId, hsession.remembered, hsession.enrolling⟩, fun heq => ?_⟩
    -- the customer with the email is looked up first
    obtain ⟨hmem, hemail, hnone⟩ := staff_of_authenticate found
    obtain ⟨customer, hcustomer, hsame⟩ := hshadowed.customer
    have hmember := hshadowed.member member hmem (Option.some.inj heq)
    exact hnone customer hcustomer (hsame.trans (hmember.symm.trans hemail))
  | logsIn given password remember customer found =>
    have hne := hshadowed.notCustomer customer (customer_of_authenticate found)
    refine ⟨⟨fun heq => hne (Option.some.inj heq), ?_, hsession.enrolling⟩, hsession.pending⟩
    dsimp only
    split_ifs
    · exact fun heq => hne (Option.some.inj heq)
    · exact hsession.remembered
  | ends a remembered kept =>
    refine ⟨⟨fun heq => (by cases heq), ?_, hsession.enrolling⟩, fun heq => by cases heq⟩
    rcases kept with rfl | rfl
    · exact fun heq => by cases heq
    · exact hsession.remembered
  | restores =>
    refine ⟨⟨fun heq => ?_, hsession.remembered, hsession.enrolling⟩, hsession.pending⟩
    rcases Option.or_eq_some_iff.mp heq with huser | ⟨-, hremembered⟩
    · exact hsession.userId huser
    · exact hsession.remembered hremembered
  | enrolls password member checked =>
    refine ⟨⟨hsession.userId, hsession.remembered, fun heq => ?_⟩, hsession.pending⟩
    have hid := Option.some.inj heq
    obtain ⟨-, ⟨hpending, -⟩ | ⟨-, huser, -⟩⟩ := mfaEnroll_ok checked
    · exact hsession.pending (hid ▸ hpending)
    · exact hsession.userId (hid ▸ huser)
  | verifies code now member checked =>
    refine ⟨⟨fun heq => ?_, hsession.remembered, hsession.enrolling⟩, fun heq => by cases heq⟩
    obtain ⟨-, hpending, -⟩ := mfaVerify_ok checked
    exact hsession.pending (Option.some.inj heq ▸ hpending)
  | writes =>
    exact ⟨⟨hsession.userId, hsession.remembered, fun heq => by cases heq⟩, hsession.pending⟩
  | abandons =>
    exact ⟨⟨hsession.userId, hsession.remembered, fun heq => by cases heq⟩, hsession.pending⟩
  | stays => exact hsession
  | registers => exact hsession
  | creates => exact hsession

omit [DecidableEq ι] in
theorem shadowed_stable : Processes.Stable (program (ι := ι) verifyPassword verifyTotp)
    (fun _ a _ _ => NewIds s a) (Shadowed s email) (fun _ _ session => Unrelated s session) where
  shared i a accounts session hnew hshadowed _ :=
    (program_step verifyPassword verifyTotp i a accounts session).shadowed hnew hshadowed
  own i a accounts session _ hshadowed hsession :=
    (program_step verifyPassword verifyTotp i a accounts session).unrelated hshadowed hsession
  other _ _ _ _ _ _ _ _ _ _ hother := hother

/-- **A registered email shadows a member of the staff.** `register` looks at the emails of customers
only, and `login` looks a customer up first: once a visitor has registered the email of a member who has
no session, no session is ever again that of the member, whatever password and code are given. -/
theorem registered_email_shadows (c : Processes.Config ι Accounts Session) (s : Uuid) (email : String)
    (hmember : ∀ member ∈ c.shared.staff, member.id = s → member.email = email)
    (hcustomers : ∀ customer ∈ c.shared.customers, customer.id ≠ s ∧ customer.email ≠ email)
    (hsessions : ∀ i, Unrelated s (c.locals i)) (visitor : ι) (id : Uuid) (password passwordHash : String)
    (hpassword : 8 ≤ password.length) (hid : id ≠ s) (steps : List (ι × Action))
    (hnew : ∀ step ∈ steps, NewIds s step.2) (i : ι) :
    ((Processes.run (program verifyPassword verifyTotp)
      ((visitor, .register id email password passwordHash) :: steps) c).locals i).userId ≠ some s := by
  have hregister : register c.shared id email password passwordHash = .ok ⟨id, email, passwordHash⟩ := by
    unfold register
    rw [if_neg (not_lt.mpr hpassword), if_neg]
    rw [List.find?_isSome]
    rintro ⟨customer, hmem, hemail⟩
    exact (hcustomers customer hmem).2 (by simpa using hemail)
  have hact : Processes.act (program verifyPassword verifyTotp)
      (visitor, .register id email password passwordHash) c =
        ⟨{ c.shared with customers := c.shared.customers ++ [⟨id, email, passwordHash⟩] }, c.locals⟩ := by
    unfold Processes.act program
    dsimp only
    rw [hregister]
    exact congrArg _ (Function.update_eq_self _ _)
  have hstart : Processes.Holds (Shadowed s email) (fun _ _ session => Unrelated s session)
      (Processes.act (program verifyPassword verifyTotp)
        (visitor, .register id email password passwordHash) c) := by
    rw [hact]
    refine ⟨⟨⟨_, List.mem_append_right _ (List.mem_singleton_self _), rfl⟩, hmember,
      fun customer hmem => ?_⟩, hsessions⟩
    rcases List.mem_append.mp hmem with hold | hlast
    · exact (hcustomers customer hold).1
    · rw [List.mem_singleton.mp hlast]
      exact hid
  have halong : Processes.Along (program verifyPassword verifyTotp) (fun _ a _ _ => NewIds s a) steps
      (Processes.act (program verifyPassword verifyTotp)
        (visitor, .register id email password passwordHash) c) := by
    rw [Processes.along_iff]
    rintro before step rest rfl
    exact hnew step (List.mem_append_right _ List.mem_cons_self)
  exact ((shadowed_stable.run halong hstart).2 i).userId

theorem registered_email_shadows_member :
    ((Processes.run (program (· == ·) fun _ code _ => code == "123456")
      ((0, .register 8 "adviser@trueup.example" "visitor-password" "visitor-password") :: loggingIn)
      oneMember).locals 1).userId ≠ some 7 :=
  registered_email_shadows oneMember 7 "adviser@trueup.example"
    (fun _ hmem _ => List.mem_singleton.mp hmem ▸ rfl) (fun _ h => by cases h)
    (fun _ => ⟨⟨fun h => (by cases h), fun h => (by cases h), fun h => (by cases h)⟩, fun h => by cases h⟩)
    0 8 "visitor-password" "visitor-password" (by decide) (by decide) loggingIn
    (fun step hmem => by
      rcases List.mem_cons.mp hmem with rfl | hmem
      · trivial
      · rw [List.mem_singleton.mp hmem]
        trivial) 1

end Shadowed

end Trueup.Identity.Auth
