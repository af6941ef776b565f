import Prescott.Errors
import Prescott.Table

namespace Prescott

/-!
# Users

The table `users` with the constraints of its migration.
-/

/-- A row of `users`; the timestamps are read by no function. -/
structure User where
  id : Nat
  login : String
  fullName : String
  email : String
  password : String
  deriving Repr, DecidableEq

instance : Keyed User :=
  ⟨User.id⟩

/-- The identifier is the login or the email of the user. -/
def User.IsNamed (user : User) (identifier : String) : Prop :=
  user.login = identifier ∨ user.email = identifier

/-- The body of a registration. -/
structure AuthenticationRegisterDto where
  login : String
  fullName : String
  email : String
  password : String
  deriving Repr, DecidableEq

/-- `users`, whose logins and emails are unique. -/
structure UserTable where
  table : Table User
  loginsNodup : (table.rows.map User.login).Nodup
  emailsNodup : (table.rows.map User.email).Nodup

namespace UserTable

/-- The table after the migrations. -/
def empty : UserTable where
  table := .empty
  loginsNodup := List.nodup_nil
  emailsNodup := List.nodup_nil

/-- A table with one registered user. -/
def single (data : AuthenticationRegisterDto) : UserTable where
  table :=
    Table.empty.insert
      (fun id =>
        { id
          login := data.login
          fullName := data.fullName
          email := data.email
          password := data.password })
      (fun _ => rfl)
  loginsNodup := List.nodup_singleton _
  emailsNodup := List.nodup_singleton _

/-- `insert` into `users`, which fails when a unique constraint does. -/
def insert
    (users : UserTable)
    (data : AuthenticationRegisterDto) :
    Except AppError UserTable :=
  if noLogin : ∀ row ∈ users.table.rows, row.login ≠ data.login then
    if noEmail : ∀ row ∈ users.table.rows, row.email ≠ data.email then
      .ok
        { table :=
            users.table.insert
              (fun id =>
                { id
                  login := data.login
                  fullName := data.fullName
                  email := data.email
                  password := data.password })
              (fun _ => rfl)
          loginsNodup := Table.nodup_insert _ users.loginsNodup noLogin
          emailsNodup := Table.nodup_insert _ users.emailsNodup noEmail }
    else
      .error (.uniqueViolation "users.email")
  else
    .error (.uniqueViolation "users.login")

/-- An insert that clashes with no row succeeds. -/
theorem exists_insert_ok
    {users : UserTable}
    {data : AuthenticationRegisterDto}
    (noLogin : ∀ row ∈ users.table.rows, row.login ≠ data.login)
    (noEmail : ∀ row ∈ users.table.rows, row.email ≠ data.email) :
    ∃ after, users.insert data = .ok after := by
  unfold insert
  rw [dif_pos noLogin, dif_pos noEmail]
  exact ⟨_, rfl⟩

/--
The first row of `select` with the condition on either column.  SQLite searches
the unique index of `login` before that of `email`.
-/
def findByEmailOrLogin (users : UserTable) (criterion : String) : Option User :=
  (users.table.first fun user => user.login == criterion).or
    (users.table.first fun user => user.email == criterion)

theorem mem_of_findByEmailOrLogin
    {users : UserTable}
    {criterion : String}
    {user : User}
    (found : users.findByEmailOrLogin criterion = some user) :
    user ∈ users.table.rows ∧ user.IsNamed criterion := by
  rcases Option.or_eq_some_iff.mp found with byLogin | ⟨_, byEmail⟩
  · obtain ⟨member, same⟩ := Table.mem_of_first byLogin
    exact ⟨member, .inl (beq_iff_eq.mp same)⟩
  · obtain ⟨member, same⟩ := Table.mem_of_first byEmail
    exact ⟨member, .inr (beq_iff_eq.mp same)⟩

/-- A user is found by an identifier that is the login of no other user. -/
theorem findByEmailOrLogin_iff
    {users : UserTable}
    {criterion : String}
    {user : User}
    (member : user ∈ users.table.rows)
    (named : user.IsNamed criterion) :
    users.findByEmailOrLogin criterion = some user ↔
      ∀ other ∈ users.table.rows, other.login = criterion → other = user := by
  cases byLogin : users.table.first fun user => user.login == criterion with
  | some first =>
      obtain ⟨firstMember, isLogin⟩ := Table.mem_of_first byLogin
      have sameLogin := beq_iff_eq.mp isLogin
      rw [findByEmailOrLogin, byLogin, Option.some_or, Option.some_inj]
      constructor
      · rintro rfl other otherMember otherLogin
        exact List.inj_on_of_nodup_map users.loginsNodup otherMember firstMember
          (otherLogin.trans sameLogin.symm)
      · exact fun unique => unique first firstMember sameLogin
  | none =>
      have noLogin
          {other : User}
          (otherMember : other ∈ users.table.rows) :
          other.login ≠ criterion :=
        beq_eq_false_iff_ne.mp (Table.first_eq_none.mp byLogin other otherMember)
      refine iff_of_true ?_ fun _ otherMember same => (noLogin otherMember same).elim
      have sameEmail : user.email = criterion := named.resolve_left (noLogin member)
      rw [findByEmailOrLogin, byLogin, Option.none_or]
      cases byEmail : users.table.first fun user => user.email == criterion with
      | none =>
          exact (beq_eq_false_iff_ne.mp (Table.first_eq_none.mp byEmail user member)
            sameEmail).elim
      | some other =>
          obtain ⟨otherMember, isEmail⟩ := Table.mem_of_first byEmail
          rw [List.inj_on_of_nodup_map users.emailsNodup otherMember member
            ((beq_iff_eq.mp isEmail).trans sameEmail.symm)]

/-- A successful insert keeps all old rows. -/
theorem mem_of_insert_ok
    {users after : UserTable}
    {data : AuthenticationRegisterDto}
    (inserted : users.insert data = .ok after)
    {user : User}
    (member : user ∈ users.table.rows) :
    user ∈ after.table.rows := by
  unfold insert at inserted
  split at inserted
  · split at inserted
    · cases inserted
      exact Table.mem_rows_insert.mpr (.inl member)
    · cases inserted
  · cases inserted

end UserTable

end Prescott
