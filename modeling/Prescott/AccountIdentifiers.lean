import Mathlib.Data.List.Pairwise
import Prescott.AuthenticationEffects
import Prescott.TransitionSystem

namespace Prescott

/-!
# Login identifiers

A user may log in with the login or with the email.  Registration compares
logins with logins and emails with emails, so an identifier names one account
as long as no login is the email of another user.
-/

/-- A login with the identifier may select the user. -/
def AuthenticationState.Selects
    (state : AuthenticationState)
    (identifier : String)
    (user : User) :
    Prop :=
  user ∈ state.users.table.rows ∧ user.IsNamed identifier

/-- A registration runs alone and resolves. -/
def Registers
    (before : AuthenticationState)
    (registerData : AuthenticationRegisterDto)
    (after : AuthenticationState) :
    Prop :=
  Settles authenticationHost (AuthenticationService.register registerData)
    before (.ok ()) after

/-- If the operation is about a user, it is about this one. -/
def AuthenticationOp.Concerns (user : User) : AuthenticationOp → Prop
  | .findSessionByIp userId _ => userId = user.id
  | .verifyPassword hash _ => hash = user.password
  | .signPayload userId => userId = user.id
  | .findSessionsByUser userId => userId = user.id
  | .deleteSessionsByUser userId => userId = user.id
  | .insertSession session => session.userId = user.id
  | _ => True

/-- Neither data clashes with the other across the columns. -/
def AuthenticationRegisterDto.Apart
    (left right : AuthenticationRegisterDto) :
    Prop :=
  left.login ≠ right.email ∧ left.email ≠ right.login

/-- Neither user clashes with the other across the columns. -/
def User.Apart (left right : User) : Prop :=
  left.login ≠ right.email ∧ left.email ≠ right.login

instance : Std.Symm User.Apart where
  symm _ _ apart := ⟨apart.2.symm, apart.1.symm⟩

/-- Every identifier names one account, now and since its registration. -/
structure NamesOneAccount
    (registrations : List AuthenticationRegisterDto)
    (state : AuthenticationState) :
    Prop where
  unique :
    ∀ identifier user other,
      state.Selects identifier user →
      state.Selects identifier other →
      other = user
  /-- A login is about the one user that its identifier names. -/
  login :
    ∀ config loginData ip op reached user,
      Awaits authenticationHost
        (AuthenticationService.login config loginData ip) state op reached →
      state.Selects loginData.login user →
      op.Concerns user
  lasting :
    ∀ earlier later middle,
      registrations = earlier ++ later →
      Run Registers (.initial .empty) earlier middle →
      Run Registers middle later state →
      ∀ identifier user other,
        middle.Selects identifier user →
        state.Selects identifier other →
        other = user

namespace AuthenticationService

variable {before reached : AuthenticationState}
variable {op : AuthenticationOp}

/-- Adding a session is about its user only. -/
theorem addRefreshSession_concerns
    (config : AuthenticationConfig)
    (user : User)
    (ip : String) :
    (addRefreshSession config user.id ip).AwaitsOnly
      (AuthenticationOp.Concerns user) := by
  refine .bind (.perform rfl) fun accessToken => ?_
  refine .bind (.perform trivial) fun refreshToken => ?_
  refine .bind (.perform rfl) fun sessions => ?_
  have wipes :
      (wipeOverflow config user.id sessions).AwaitsOnly
        (AuthenticationOp.Concerns user) := by
    unfold wipeOverflow
    split
    · exact .perform rfl
    · trivial
  refine .bind wipes fun _ => ?_
  refine .bind (.perform trivial) fun createdAt => ?_
  exact .bind (.perform rfl) fun _ => trivial

/-- After its first statement a login is about a user it has selected. -/
theorem login_concerns
    {config : AuthenticationConfig}
    {loginData : AuthenticationLoginDto}
    {ip : String}
    (awaits :
      Awaits authenticationHost (login config loginData ip) before op
        reached) :
    op = .findUserByEmailOrLogin loginData.login ∨
      ∃ user, before.Selects loginData.login user ∧ op.Concerns user := by
  rcases awaits.of_perform_bind with ⟨isFirst, _⟩ | ⟨input, found, middle,
      answered, rest⟩
  · exact .inl isFirst
  · right
    cases input <;> try cases answered
    cases selected : before.users.findByEmailOrLogin loginData.login with
    | none =>
        rw [selected] at rest
        exact (Awaits.not_settled rest).elim
    | some user =>
        rw [selected] at rest
        refine ⟨user, UserTable.mem_of_findByEmailOrLogin selected, ?_⟩
        refine Async.AwaitsOnly.of_awaits ?_ rest
        refine .bind (.perform rfl) fun session => ?_
        cases session with
        | some session => trivial
        | none =>
            refine .bind (.perform rfl) fun valid => ?_
            cases valid with
            | false => trivial
            | true => exact addRefreshSession_concerns config user ip

end AuthenticationService

namespace Registers

variable {before after : AuthenticationState}
variable {registerData : AuthenticationRegisterDto}
variable {registrations : List AuthenticationRegisterDto}

/-- The login and the email that a row and a registration have in common. -/
abbrev identifiers (registerData : AuthenticationRegisterDto) :
    String × String :=
  (registerData.login, registerData.email)

/-- A registration appends its row and keeps the others. -/
theorem rows_eq
    (registers : Registers before registerData after) :
    ∃ password,
      after.users.table.rows =
        before.users.table.rows ++
          [{ id := before.users.table.nextId
             login := registerData.login
             fullName := registerData.fullName
             email := registerData.email
             password }] := by
  rcases AuthenticationService.register_settles registers with
      ⟨_, _, rejected, _⟩ | ⟨password, users, inserted, _, rfl⟩
  · cases rejected
  · unfold UserTable.insert at inserted
    split at inserted
    · split at inserted
      · cases inserted
        exact ⟨password, rfl⟩
      · cases inserted
    · cases inserted

/-- The rows are the registrations in their order. -/
theorem identifiers_of_run
    (run : Run Registers (.initial .empty) registrations after) :
    (after.users.table.rows.map fun user => (user.login, user.email)) =
      registrations.map identifiers := by
  induction run with
  | nil => rfl
  | snoc earlier last inductionHypothesis =>
      obtain ⟨password, shape⟩ := rows_eq last
      rw [shape, List.map_append, List.map_append, inductionHypothesis]
      rfl

/-- No registration takes a row away. -/
theorem mem_of_run
    {user : User}
    (run : Run Registers before registrations after)
    (member : user ∈ before.users.table.rows) :
    user ∈ after.users.table.rows :=
  run.invariant (fun state => user ∈ state.users.table.rows)
    (fun _ _ _ present registers => by
      obtain ⟨_, shape⟩ := rows_eq registers
      rw [shape]
      exact List.mem_append_left _ present)
    member

end Registers

namespace AuthenticationState

variable {registrations : List AuthenticationRegisterDto}
variable {state : AuthenticationState}

/-- Registrations are apart when their rows are. -/
theorem pairwise_apart_iff
    (run : Run Registers (.initial .empty) registrations state) :
    registrations.Pairwise AuthenticationRegisterDto.Apart ↔
      state.users.table.rows.Pairwise User.Apart := by
  let apart (left right : String × String) : Prop :=
    left.1 ≠ right.2 ∧ left.2 ≠ right.1
  calc
    registrations.Pairwise AuthenticationRegisterDto.Apart ↔
        (registrations.map Registers.identifiers).Pairwise apart := by
      rw [List.pairwise_map]
      exact Iff.rfl
    _ ↔ (state.users.table.rows.map fun user =>
          (user.login, user.email)).Pairwise apart := by
      rw [Registers.identifiers_of_run run]
    _ ↔ state.users.table.rows.Pairwise User.Apart := by
      rw [List.pairwise_map]
      exact Iff.rfl

/-- Rows are apart as soon as every identifier selects one user. -/
theorem apart_of_unique
    (unique :
      ∀ identifier user other,
        state.Selects identifier user →
        state.Selects identifier other →
        other = user) :
    state.users.table.rows.Pairwise User.Apart := by
  refine List.Nodup.pairwise_of_forall_ne
    (List.Nodup.of_map _ state.users.loginsNodup) ?_
  intro left leftMember right rightMember different
  constructor
  · intro same
    exact different
      (unique left.login right left ⟨rightMember, .inr same.symm⟩
        ⟨leftMember, .inl rfl⟩)
  · intro same
    exact different
      (unique left.email right left ⟨rightMember, .inl same.symm⟩
        ⟨leftMember, .inr rfl⟩)

/-- Where the rows are apart, an identifier selects one user. -/
theorem unique_of_apart
    (apart : state.users.table.rows.Pairwise User.Apart)
    {identifier : String}
    {user other : User}
    (selects : state.Selects identifier user)
    (selectsOther : state.Selects identifier other) :
    other = user := by
  obtain ⟨member, isNamed⟩ := selects
  obtain ⟨otherMember, otherNamed⟩ := selectsOther
  by_contra different
  have clash := apart.forall otherMember member different
  rcases isNamed with login | email
  · rcases otherNamed with otherLogin | otherEmail
    · exact different
        (List.inj_on_of_nodup_map state.users.loginsNodup otherMember member
          (otherLogin.trans login.symm))
    · exact clash.2 (otherEmail.trans login.symm)
  · rcases otherNamed with otherLogin | otherEmail
    · exact clash.1 (otherLogin.trans email.symm)
    · exact different
        (List.inj_on_of_nodup_map state.users.emailsNodup otherMember member
          (otherEmail.trans email.symm))

end AuthenticationState

end Prescott
