import CarFlow.Auth.Service
import CarFlow.Lib.ExclusionConstraint
import CarFlow.Lib.RowTable
import CarFlow.Lib.TransitionSystem

/-!
# Registration

`POST /auth/register` of `services/auth`, any number of requests side by side under READ COMMITTED.
`register_user` first looks for the email, and then leaves it to the unique constraint of `users`
to settle a race: an insert waits for another transaction that has inserted the email, and fails if
that one commits. Both ways to find the email taken are answered alike.

## The model

* A request starts where its guard has found no row for its key. What the guard does after the
  build is in `Shared.Idempotency`: here a transaction commits, or is aborted at any point.
* An administrator is not made by registration. The rows that the table starts with are
  those that were inserted by hand.
* A `uuid4` is an identifier that no row has. argon2 is a parameter.

## Implementation notes

The users that are committed and the rows that are pending are an `Exclusive` family, of rows that
differ in email and identifier. `created` has each row with the request that it was made for, and
`Makes` says what such a row is, column by column. An insert that meets a pending row of its email
waits, which is no step: there is nothing to say of it but that it is not refused.

## Main results

* `RegistrationsOk.step` — the invariant
* `registrations_exactly_once` — **one account for each email**, and refusals are truthful
-/

namespace CarFlow

/-! ### Models and schemas -/

/-- A row of `users`, with the columns that registration and login read. -/
structure UserRow extends User where
  email : String
  name : String
  passwordHash : String
  deriving DecidableEq

/-- The roles that registration takes. -/
inductive RegisterRole
  | renter
  | host
  deriving DecidableEq

/-- A role as it is stored. -/
def RegisterRole.code : RegisterRole → String
  | .renter => "renter"
  | .host => "host"

/-- `RegisterRequest`, validated. The email is as `EmailStr` leaves it. -/
structure RegisterRequest where
  email : String
  name : String
  password : String
  role : RegisterRole := .renter
  name_length : 1 ≤ name.length ∧ name.length ≤ 120
  password_length : 8 ≤ password.length

/-- What `PasswordHasher.verify` does. -/
inductive Verification
  | returns
  /-- `VerifyMismatchError`. -/
  | mismatch
  /-- Another error of argon2. -/
  | raises
  deriving DecidableEq

/-- argon2's `PasswordHasher`. -/
structure PasswordHasher where
  /-- `hash`, with the salt that it draws. -/
  hash : String → String → String
  verify : String → String → Verification

/-- A hash is verified by its own password, and by no other. -/
def PasswordHasher.Correct (hasher : PasswordHasher) : Prop :=
  ∀ password salt candidate, hasher.verify (hasher.hash password salt) candidate =
    if candidate = password then .returns else .mismatch

/-- `get_by_email`. -/
def getByEmail (users : List UserRow) (email : String) : Option UserRow :=
  RowTable.lookup UserRow.email users email

/-- `get_by_id`. -/
def getUserById (users : List UserRow) (userId : Uuid) : Option UserRow :=
  RowTable.lookup (fun user => user.id) users userId

section Registrations

variable (hasher : PasswordHasher)

/-- `hash_password`. -/
def hashPassword (password salt : String) : String := hasher.hash password salt

/-- The row that `UserRepository.create` inserts for a request. -/
def RegisterRequest.row (request : RegisterRequest) (id : Uuid) (salt : String) : UserRow where
  id := id
  role := request.role.code
  email := request.email
  name := request.name
  passwordHash := hashPassword hasher request.password salt

/-! ### The transactions

A request reads, inserts and commits in three steps, with any number of others in between. The rows
that are inserted and not committed are what the unique constraint waits for. -/

/-- How far `register_user` has got. -/
inductive RegistrationStage
  | started
  /-- `get_by_email` has found nothing. -/
  | looked
  /-- The flush has inserted the row. -/
  | inserted (row : UserRow)

/-- A registration under way. -/
structure Registration where
  request : RegisterRequest
  stage : RegistrationStage := .started

/-- The table, the registrations under way, the accounts they have made, and the requests that were
answered with `email already registered`. Nothing reads the last two. -/
structure Registrations where
  users : List UserRow
  underway : List Registration := []
  created : List (RegisterRequest × UserRow) := []
  refused : List RegisterRequest := []

inductive RegistrationAction
  | begin (request : RegisterRequest)
  | lookUp (i : ℕ)
  /-- The flush, with the identifier and the salt that are drawn before it. -/
  | insert (i : ℕ) (id : Uuid) (salt : String)
  | commit (i : ℕ)
  | abort (i : ℕ)

/-- The row a registration has inserted. -/
def Registration.row? (t : Registration) : Option UserRow :=
  match t.stage with
  | .inserted row => some row
  | _ => none

/-- A `uuid4`, unlike those of the rows that any transaction has inserted. -/
def Registrations.Draws (s : Registrations) (id : Uuid) : Prop :=
  id < 16 ^ 32 ∧ (∀ user ∈ s.users, user.id ≠ id) ∧
    ∀ t ∈ s.underway, ∀ row ∈ t.row?, row.id ≠ id

instance (s : Registrations) (id : Uuid) : Decidable (s.Draws id) :=
  inferInstanceAs (Decidable (_ ∧ _ ∧ _))

/-- Another unfinished transaction has inserted the email. -/
def EmailPending (others : List Registration) (email : String) : Prop :=
  ∃ t ∈ others, ∃ row ∈ t.row?, row.email = email

instance (others : List Registration) (email : String) : Decidable (EmailPending others email) := by
  unfold EmailPending
  infer_instance

/-- The request is answered with 409, and its session rolled back. -/
def Registrations.refuse (s : Registrations) (i : ℕ) (request : RegisterRequest) : Registrations :=
  { s with underway := s.underway.eraseIdx i, refused := s.refused ++ [request] }

/-- One step. -/
def registrationStep (s : Registrations) : RegistrationAction → Option Registrations
  | .begin request => some { s with underway := s.underway ++ [{ request }] }
  | .lookUp i => do
    let t ← s.underway[i]?
    match t.stage with
    | .started =>
      match getByEmail s.users t.request.email with
      | some _ => some (s.refuse i t.request)
      | none => some { s with underway := s.underway.set i { t with stage := .looked } }
    | _ => none
  | .insert i id salt => do
    let t ← s.underway[i]?
    match t.stage with
    | .looked =>
      if ¬ s.Draws id then none
      else if EmailPending (s.underway.eraseIdx i) t.request.email then none
      else if (getByEmail s.users t.request.email).isSome then some (s.refuse i t.request)
      else
        let row := t.request.row hasher id salt
        some { s with underway := s.underway.set i { t with stage := .inserted row } }
    | _ => none
  | .commit i => do
    let t ← s.underway[i]?
    let row ← t.row?
    some { s with
      users := s.users ++ [row]
      underway := s.underway.eraseIdx i
      created := s.created ++ [(t.request, row)] }
  | .abort i => do
    let _ ← s.underway[i]?
    some { s with underway := s.underway.eraseIdx i }

/-- Registration, on a table that holds some rows. -/
def registrations (seeded : List UserRow) : TransitionSystem Registrations RegistrationAction where
  init := { users := seeded }
  step := registrationStep hasher

end Registrations

/-- The ways a step can go. -/
inductive RegistrationStep (hasher : PasswordHasher) (s : Registrations) :
    RegistrationAction → Registrations → Prop
  | began (request : RegisterRequest) : RegistrationStep hasher s (.begin request)
      { s with underway := s.underway ++ [{ request }] }
  | refused (a : RegistrationAction) (i : ℕ) (t : Registration) (user : UserRow)
      (hi : s.underway[i]? = some t) (huser : getByEmail s.users t.request.email = some user) :
      RegistrationStep hasher s a (s.refuse i t.request)
  | looked (i : ℕ) (t : Registration) (hi : s.underway[i]? = some t)
      (hfree : getByEmail s.users t.request.email = none) :
      RegistrationStep hasher s (.lookUp i)
        { s with underway := s.underway.set i { t with stage := .looked } }
  | inserted (i : ℕ) (id : Uuid) (salt : String) (t : Registration)
      (hi : s.underway[i]? = some t) (hid : s.Draws id)
      (hpending : ¬ EmailPending (s.underway.eraseIdx i) t.request.email)
      (hfree : getByEmail s.users t.request.email = none) :
      RegistrationStep hasher s (.insert i id salt)
        { s with
          underway :=
            s.underway.set i { t with stage := .inserted (t.request.row hasher id salt) } }
  | committed (i : ℕ) (t : Registration) (row : UserRow) (hi : s.underway[i]? = some t)
      (hrow : t.row? = some row) : RegistrationStep hasher s (.commit i)
        { s with
          users := s.users ++ [row]
          underway := s.underway.eraseIdx i
          created := s.created ++ [(t.request, row)] }
  | aborted (i : ℕ) : RegistrationStep hasher s (.abort i)
      { s with underway := s.underway.eraseIdx i }

theorem registrationStep_cases {hasher : PasswordHasher} {s s' : Registrations}
    {a : RegistrationAction} (h : registrationStep hasher s a = some s') :
    RegistrationStep hasher s a s' := by
  cases a with
  | begin request =>
    cases h
    exact .began request
  | lookUp i =>
    simp only [registrationStep, Option.bind_eq_bind, Option.bind_eq_some_iff] at h
    obtain ⟨t, hi, h⟩ := h
    split at h
    · split at h
      · rename_i user huser
        cases h
        exact .refused _ i t user hi huser
      · rename_i hfree
        cases h
        exact .looked i t hi hfree
    · cases h
  | insert i id salt =>
    simp only [registrationStep, Option.bind_eq_bind, Option.bind_eq_some_iff] at h
    obtain ⟨t, hi, h⟩ := h
    split at h
    · split at h
      · cases h
      rename_i hid
      split at h
      · cases h
      rename_i hpending
      split at h
      · rename_i huser
        obtain ⟨user, huser⟩ := Option.isSome_iff_exists.mp huser
        cases h
        exact .refused _ i t user hi huser
      · rename_i hfree
        cases h
        exact .inserted i id salt t hi (not_not.mp hid) hpending
          (Option.not_isSome_iff_eq_none.mp hfree)
    · cases h
  | commit i =>
    simp only [registrationStep, Option.bind_eq_bind, Option.bind_eq_some_iff] at h
    obtain ⟨t, hi, row, hrow, h⟩ := h
    cases h
    exact .committed i t row hi hrow
  | abort i =>
    simp only [registrationStep, Option.bind_eq_bind, Option.bind_eq_some_iff] at h
    obtain ⟨t, hi, h⟩ := h
    cases h
    exact .aborted i

/-! ### The invariant -/

/-- Two rows of `users`: the constraints of the table. -/
def UserRow.Apart (user user' : UserRow) : Prop := user.email ≠ user'.email ∧ user.id ≠ user'.id

theorem UserRow.Apart.symm (user user' : UserRow) (h : user.Apart user') : user'.Apart user :=
  ⟨h.1.symm, h.2.symm⟩

/-- A row that was made for a request: what the request says, with a hash of its password. -/
structure RegisterRequest.Makes (hasher : PasswordHasher) (request : RegisterRequest)
    (row : UserRow) : Prop where
  id_lt : row.id < 16 ^ 32
  email : row.email = request.email
  name : row.name = request.name
  role : row.role = match request.role with
    | .renter => "renter"
    | .host => "host"
  passwordHash : ∃ salt, row.passwordHash = hasher.hash request.password salt

/-- The rows that a table may start with: administrators. -/
structure Seeded (seeded : List UserRow) : Prop where
  apart : seeded.Pairwise UserRow.Apart
  role : ∀ user ∈ seeded, user.role = "admin"
  id_lt : ∀ user ∈ seeded, user.id < 16 ^ 32

/-- **The invariant.** -/
structure RegistrationsOk (hasher : PasswordHasher) (seeded : List UserRow) (s : Registrations) :
    Prop where
  exclusive : Exclusive UserRow.Apart Registration.row? s.users s.underway
  users : s.users = seeded ++ s.created.map Prod.snd
  created : ∀ x ∈ s.created, x.1.Makes hasher x.2
  inserted : ∀ t ∈ s.underway, ∀ row ∈ t.row?, t.request.Makes hasher row
  refused : ∀ request ∈ s.refused, ∃ user ∈ s.users, user.email = request.email

section Invariant

variable {hasher : PasswordHasher} {seeded : List UserRow} {s s' : Registrations}
  {a : RegistrationAction}

theorem RegisterRequest.makes_row (request : RegisterRequest) {id : Uuid} (salt : String)
    (hid : id < 16 ^ 32) : request.Makes hasher (request.row hasher id salt) where
  id_lt := hid
  email := rfl
  name := rfl
  role := by
    rw [RegisterRequest.row]
    cases request.role <;> rfl
  passwordHash := ⟨salt, rfl⟩

theorem RegistrationsOk.step (h : RegistrationsOk hasher seeded s)
    (hstep : RegistrationStep hasher s a s') : RegistrationsOk hasher seeded s' := by
  have hset {i : ℕ} {t' : Registration} (ht' : ∀ row ∈ t'.row?, t'.request.Makes hasher row) :
      ∀ u ∈ s.underway.set i t', ∀ row ∈ u.row?, u.request.Makes hasher row := by
    intro u hu
    rcases List.mem_or_eq_of_mem_set hu with hu | rfl
    · exact h.inserted u hu
    · exact ht'
  have herase (i : ℕ) : ∀ u ∈ s.underway.eraseIdx i, ∀ row ∈ u.row?, u.request.Makes hasher row :=
    fun u hu => h.inserted u (ProcessFamily.mem_of_mem_eraseIdx hu)
  cases hstep with
  | began request =>
    refine { h with exclusive := h.exclusive.start rfl, inserted := fun u hu row hrow => ?_ }
    rcases List.mem_append.mp hu with hu | hu
    · exact h.inserted u hu row hrow
    · rw [List.mem_singleton.mp hu] at hrow
      cases hrow
  | refused _ i t user hi huser =>
    refine { h with exclusive := h.exclusive.finish i, inserted := herase i
                    refused := fun request hr => ?_ }
    rcases List.mem_append.mp hr with hr | hr
    · exact h.refused request hr
    · rw [List.mem_singleton.mp hr]
      exact ⟨user, RowTable.mem_of_lookup huser, RowTable.key_of_lookup huser⟩
  | looked i t hi hfree =>
    exact { h with exclusive := h.exclusive.idle rfl
                   inserted := hset fun row hrow => by cases hrow }
  | inserted i id salt t hi hid hpending hfree =>
    refine { h with exclusive := ?_, inserted := hset fun row hrow => ?_ }
    · refine h.exclusive.insert UserRow.Apart.symm hi rfl (fun user huser => ⟨?_, ?_⟩)
        fun u hu row hrow => ⟨?_, ?_⟩
      · exact RowTable.lookup_eq_none_iff.mp hfree user huser
      · exact hid.2.1 user huser
      · exact fun hemail => hpending ⟨u, hu, row, hrow, hemail⟩
      · exact hid.2.2 u (ProcessFamily.mem_of_mem_eraseIdx hu) row hrow
    · cases hrow
      exact t.request.makes_row salt hid.1
  | committed i t row hi hrow =>
    have hmem : t ∈ s.underway := List.mem_of_getElem? hi
    exact {
      exclusive := h.exclusive.commit UserRow.Apart.symm hi hrow
      users := by rw [h.users, List.map_append, ← List.append_assoc]; rfl
      created := fun x hx => by
        rcases List.mem_append.mp hx with hx | hx
        · exact h.created x hx
        · rw [List.mem_singleton.mp hx]
          exact h.inserted t hmem row hrow
      inserted := herase i
      refused := fun request hr => by
        obtain ⟨user, huser, hemail⟩ := h.refused request hr
        exact ⟨user, List.mem_append_left _ huser, hemail⟩ }
  | aborted i => exact { h with exclusive := h.exclusive.finish i, inserted := herase i }

theorem registrationsOk_of_reachable (hseeded : Seeded seeded)
    (h : (registrations hasher seeded).Reachable s) : RegistrationsOk hasher seeded s := by
  refine h.invariant _ ?_ fun _ _ _ _ hs hstep => hs.step (registrationStep_cases hstep)
  exact {
    exclusive := .nil hseeded.apart
    users := (List.append_nil seeded).symm
    created := fun _ hx => absurd hx List.not_mem_nil
    inserted := fun _ ht => absurd ht List.not_mem_nil
    refused := fun _ hr => absurd hr List.not_mem_nil }

/-! ### Progress

A request that is where an email is free can be led to its account by its own steps. -/

theorem leads_of_inserted {i : ℕ} {t : Registration} {row : UserRow}
    (hi : s.underway[i]? = some t) (hstage : t.stage = .inserted row) :
    ∃ s', (registrations hasher seeded).Leads s s' ∧ row ∈ s'.users := by
  have hrow : t.row? = some row := by rw [Registration.row?, hstage]
  have hstep : (registrations hasher seeded).step s (.commit i) = some { s with
      users := s.users ++ [row]
      underway := s.underway.eraseIdx i
      created := s.created ++ [(t.request, row)] } := by
    simp [registrations, registrationStep, hi, hrow]
  exact ⟨_, TransitionSystem.leads_of_step hstep,
    List.mem_append_right _ (List.mem_singleton_self row)⟩

/-- A registration at another stage. -/
theorem getElem?_set_stage {i : ℕ} {t : Registration} (hi : s.underway[i]? = some t)
    (stage : RegistrationStage) :
    (s.underway.set i { t with stage })[i]? = some { t with stage } :=
  List.getElem?_set_self (List.getElem?_eq_some_iff.mp hi).1

theorem leads_of_looked {i : ℕ} {t : Registration} {id : Uuid} (hi : s.underway[i]? = some t)
    (hstage : t.stage = .looked) (hid : s.Draws id)
    (hfree : getByEmail s.users t.request.email = none)
    (hpending : ¬ EmailPending (s.underway.eraseIdx i) t.request.email) :
    ∃ s', (registrations hasher seeded).Leads s s' ∧
      ∃ row ∈ s'.users, t.request.Makes hasher row := by
  have hstep : (registrations hasher seeded).step s (.insert i id "") = some { s with
      underway := s.underway.set i
        { t with stage := .inserted (t.request.row hasher id "") } } := by
    simp [registrations, registrationStep, hi, hstage, hid, hpending, hfree]
  obtain ⟨s', hleads, hrow⟩ := leads_of_inserted (s := { s with
      underway := s.underway.set i { t with stage := .inserted (t.request.row hasher id "") } })
    (getElem?_set_stage hi _) rfl
  exact ⟨s', (TransitionSystem.leads_of_step hstep).trans hleads, _, hrow,
    t.request.makes_row "" hid.1⟩

/-- A registration whose email nobody has gets through. -/
theorem RegistrationsOk.leads_created (h : RegistrationsOk hasher seeded s) {i : ℕ}
    {t : Registration} {id : Uuid} (hi : s.underway[i]? = some t) (hid : s.Draws id)
    (hfree : ∀ user ∈ s.users, user.email ≠ t.request.email)
    (hpending : ¬ EmailPending (s.underway.eraseIdx i) t.request.email) :
    ∃ s', (registrations hasher seeded).Leads s s' ∧
      ∃ row ∈ s'.users, t.request.Makes hasher row := by
  have hnone : getByEmail s.users t.request.email = none := RowTable.lookup_eq_none_iff.mpr hfree
  cases hstage : t.stage with
  | started =>
    have hstep : (registrations hasher seeded).step s (.lookUp i) = some { s with
        underway := s.underway.set i { t with stage := .looked } } := by
      simp [registrations, registrationStep, hi, hstage, hnone]
    have hid' : ({ s with
        underway := s.underway.set i { t with stage := .looked } } : Registrations).Draws id := by
      refine ⟨hid.1, hid.2.1, fun u hu row hrow => ?_⟩
      rcases List.mem_or_eq_of_mem_set hu with hu | rfl
      · exact hid.2.2 u hu row hrow
      · cases hrow
    obtain ⟨s', hleads, hmade⟩ := leads_of_looked (t := { t with stage := .looked })
      (getElem?_set_stage hi .looked) rfl hid' hnone (by rwa [List.eraseIdx_set_eq])
    exact ⟨s', (TransitionSystem.leads_of_step hstep).trans hleads, hmade⟩
  | looked => exact leads_of_looked hi hstage hid hnone hpending
  | inserted row =>
    obtain ⟨s', hleads, hrow⟩ := leads_of_inserted hi hstage
    have hmem : t ∈ s.underway := List.mem_of_getElem? hi
    exact ⟨s', hleads, row, hrow, h.inserted t hmem row (by simp [Registration.row?, hstage])⟩

/-- **Registrations side by side make one account for each email**, for the request that it was
asked for in; a request is refused only if its email is that of an account; and one whose email
nobody has, or is about to have, can get its account. -/
theorem registrations_exactly_once (hseeded : Seeded seeded)
    (h : (registrations hasher seeded).Reachable s) :
    (s.users.map UserRow.email).Nodup ∧ (s.users.map fun user => user.id).Nodup ∧
    s.users = seeded ++ s.created.map Prod.snd ∧
    (∀ x ∈ s.created, x.1.Makes hasher x.2) ∧
    (∀ request ∈ s.refused, ∃ user ∈ s.users, user.email = request.email) ∧
    ∀ i t id, s.underway[i]? = some t → s.Draws id →
      (∀ user ∈ s.users, user.email ≠ t.request.email) →
      ¬ EmailPending (s.underway.eraseIdx i) t.request.email →
      ∃ s', (registrations hasher seeded).Leads s s' ∧
        ∃ row ∈ s'.users, t.request.Makes hasher row := by
  have hok := registrationsOk_of_reachable hseeded h
  have hapart := hok.exclusive.committed
  refine ⟨?_, ?_, hok.users, hok.created, hok.refused,
    fun i t id hi hid hfree hpending => hok.leads_created hi hid hfree hpending⟩
  · exact List.pairwise_map.mpr (hapart.imp And.left)
  · exact List.pairwise_map.mpr (hapart.imp And.right)

end Invariant

/-- A hasher that keeps the password as it is. -/
def sampleHasher : PasswordHasher where
  hash password _ := password
  verify passwordHash password := if password = passwordHash then .returns else .mismatch

/-- A renter who registers. -/
def sampleRegistration : RegisterRequest where
  email := "a@example.com"
  name := "Alex"
  password := "supersecret123"
  name_length := by decide
  password_length := by decide

/-- Two registrations of one email: both find it free, one is made to wait until the other has
committed, and is then refused. -/
def sampleRegistrationRace : List RegistrationAction :=
  [.begin sampleRegistration, .begin sampleRegistration, .lookUp 0, .lookUp 1, .insert 1 5 "",
    .commit 1, .insert 0 6 "", .begin sampleRegistration]

theorem registrations_exactly_once_sampleRegistrationRace :
    ∃ s, (registrations sampleHasher []).Reachable s ∧ s.refused.length = 1 ∧
      (s.users.map UserRow.email).Nodup ∧
      ∃ user ∈ s.users, user.email = "a@example.com" ∧ user.name = "Alex" ∧
        user.role = "renter" ∧ user.passwordHash = "supersecret123" := by
  have hseeded : Seeded [] := ⟨List.Pairwise.nil, by simp, by simp⟩
  have hend : ((registrations sampleHasher []).run { users := [] } sampleRegistrationRace).map
      (fun s => (s.refused.length, s.created.map Prod.fst)) = some (1, [sampleRegistration]) := rfl
  obtain ⟨s, hrun, hs⟩ := Option.map_eq_some_iff.mp hend
  obtain ⟨hrefused, hcreated⟩ := Prod.mk.inj hs
  have hreachable := TransitionSystem.reachable_of_run .init hrun
  obtain ⟨hnodup, -, husers, hmakes, -⟩ := registrations_exactly_once hseeded hreachable
  obtain ⟨x, hx, hrequest⟩ := List.mem_map.mp (hcreated ▸ List.mem_singleton_self _)
  obtain ⟨-, hemail, hname, hrole, salt, hhash⟩ := hrequest ▸ hmakes x hx
  exact ⟨s, hreachable, hrefused, hnodup, x.2, husers ▸ List.mem_map_of_mem hx, hemail, hname,
    hrole, hhash⟩

end CarFlow
