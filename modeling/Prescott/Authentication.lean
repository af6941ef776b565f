import Prescott.AsyncProgram
import Prescott.Users

namespace Prescott

/-!
# Refresh sessions

The table `refresh_sessions` with the constraints of its migration, and the
operations that the authentication services await: the statements on `users`
and `refresh_sessions`, password hashing, token signing, `randomUUID` and the
clock.
-/

/-- A row of `refresh_sessions`; times are milliseconds. -/
structure RefreshSession where
  id : Nat
  userId : Nat
  refreshToken : String
  ip : String
  expiresIn : Int
  createdAt : Int
  deriving Repr, DecidableEq

instance : Keyed RefreshSession :=
  ⟨RefreshSession.id⟩

/-- The body of a login. -/
structure AuthenticationLoginDto where
  login : String
  password : String
  deriving Repr, DecidableEq

/-- What a login and a refresh are answered with. -/
structure TokenPairDto where
  accessToken : String
  refreshToken : String
  deriving Repr, DecidableEq

/-- The columns an insert into `refresh_sessions` is given. -/
structure NewRefreshSession where
  userId : Nat
  refreshToken : String
  ip : String
  expiresIn : Int
  createdAt : Int
  deriving Repr, DecidableEq

/-- The row for an identifier. -/
def NewRefreshSession.row
    (session : NewRefreshSession)
    (id : Nat) :
    RefreshSession where
  id := id
  userId := session.userId
  refreshToken := session.refreshToken
  ip := session.ip
  expiresIn := session.expiresIn
  createdAt := session.createdAt

theorem NewRefreshSession.key_row
    (session : NewRefreshSession)
    (id : Nat) :
    Keyed.key (session.row id) = id :=
  rfl

/-- `refresh_sessions`, unique in its tokens and in user and address. -/
structure SessionTable where
  table : Table RefreshSession
  tokensNodup : (table.rows.map RefreshSession.refreshToken).Nodup
  userIpsNodup :
    (table.rows.map fun session => (session.userId, session.ip)).Nodup

namespace SessionTable

/-- The table after the migrations. -/
def empty : SessionTable where
  table := .empty
  tokensNodup := List.nodup_nil
  userIpsNodup := List.nodup_nil

/-- The rows in the order of their insertion. -/
def rows (sessions : SessionTable) : List RefreshSession :=
  sessions.table.rows

/-- `insert` into `refresh_sessions`, which fails when a constraint does. -/
def insert
    (sessions : SessionTable)
    (session : NewRefreshSession) :
    Except AppError SessionTable :=
  if noToken :
      ∀ row ∈ sessions.rows,
        row.refreshToken ≠ session.refreshToken then
    if noUserIp :
        ∀ row ∈ sessions.rows,
          (row.userId, row.ip) ≠ (session.userId, session.ip) then
      .ok
        { table := sessions.table.insert session.row session.key_row
          tokensNodup := Table.nodup_insert _ sessions.tokensNodup noToken
          userIpsNodup := Table.nodup_insert _ sessions.userIpsNodup noUserIp }
    else
      .error (.uniqueViolation
        "refresh_sessions.user_id, refresh_sessions.ip")
  else
    .error (.uniqueViolation "refresh_sessions.refresh_token")

/-- `delete` from `refresh_sessions`. -/
def deleteWhere
    (sessions : SessionTable)
    (condition : RefreshSession → Bool) :
    SessionTable where
  table := sessions.table.deleteWhere condition
  tokensNodup := Table.nodup_deleteWhere condition sessions.tokensNodup
  userIpsNodup := Table.nodup_deleteWhere condition sessions.userIpsNodup

/-- A token belongs to one session. -/
theorem eq_of_refreshToken
    {sessions : SessionTable}
    {left right : RefreshSession}
    (leftMember : left ∈ sessions.rows)
    (rightMember : right ∈ sessions.rows)
    (same : left.refreshToken = right.refreshToken) :
    left = right :=
  List.inj_on_of_nodup_map sessions.tokensNodup leftMember rightMember same

/-- A user has one session for each address. -/
theorem eq_of_userIp
    {sessions : SessionTable}
    {left right : RefreshSession}
    (leftMember : left ∈ sessions.rows)
    (rightMember : right ∈ sessions.rows)
    (sameUser : left.userId = right.userId)
    (sameIp : left.ip = right.ip) :
    left = right :=
  List.inj_on_of_nodup_map sessions.userIpsNodup leftMember rightMember
    (Prod.ext sameUser sameIp)

@[simp] theorem mem_rows_deleteWhere
    {sessions : SessionTable}
    {condition : RefreshSession → Bool}
    {session : RefreshSession} :
    session ∈ (sessions.deleteWhere condition).rows ↔
      session ∈ sessions.rows ∧ condition session = false :=
  Table.mem_rows_deleteWhere

/-- A successful insert appends the new row and clashes with no old one. -/
theorem insert_ok
    {sessions after : SessionTable}
    {session : NewRefreshSession}
    (inserted : sessions.insert session = .ok after) :
    after.rows = sessions.rows ++ [session.row sessions.table.nextId] ∧
      (∀ row ∈ sessions.rows,
        row.refreshToken ≠ session.refreshToken) ∧
      ∀ row ∈ sessions.rows,
        (row.userId, row.ip) ≠ (session.userId, session.ip) := by
  unfold insert at inserted
  split at inserted
  · rename_i noToken
    split at inserted
    · rename_i noUserIp
      cases inserted
      exact ⟨rfl, noToken, noUserIp⟩
    · cases inserted
  · cases inserted

/-- An insert that clashes with no row succeeds. -/
theorem exists_insert_ok
    {sessions : SessionTable}
    {session : NewRefreshSession}
    (noToken :
      ∀ row ∈ sessions.rows, row.refreshToken ≠ session.refreshToken)
    (noUserIp :
      ∀ row ∈ sessions.rows,
        (row.userId, row.ip) ≠ (session.userId, session.ip)) :
    ∃ after, sessions.insert session = .ok after := by
  unfold insert
  rw [dif_pos noToken, dif_pos noUserIp]
  exact ⟨_, rfl⟩

end SessionTable

/-- What the authentication services await. -/
inductive AuthenticationOp where
  | findUserByEmail (email : String)
  | findUserByLogin (login : String)
  | findUserByEmailOrLogin (criterion : String)
  | insertUser (data : AuthenticationRegisterDto)
  | findSessionByIp (userId : Nat) (ip : String)
  | findSessionsByUser (userId : Nat)
  | findSessionByToken (refreshToken : String)
  | deleteSessionsByUser (userId : Nat)
  | deleteSessionById (id : Nat)
  | insertSession (session : NewRefreshSession)
  | hashPassword (password : String)
  | verifyPassword (hash password : String)
  | signPayload (userId : Nat)
  | randomUUID
  | now
  deriving Repr, DecidableEq

/-- The types these operations resolve with. -/
abbrev AuthenticationOp.Result : AuthenticationOp → Type
  | .findUserByEmail _ => Option User
  | .findUserByLogin _ => Option User
  | .findUserByEmailOrLogin _ => Option User
  | .insertUser _ => Unit
  | .findSessionByIp _ _ => Option RefreshSession
  | .findSessionsByUser _ => List RefreshSession
  | .findSessionByToken _ => Option RefreshSession
  | .deleteSessionsByUser _ => Unit
  | .deleteSessionById _ => Unit
  | .insertSession _ => Unit
  | .hashPassword _ => String
  | .verifyPassword _ _ => Bool
  | .signPayload _ => String
  | .randomUUID => String
  | .now => Int

/-- The signature of the authentication services. -/
abbrev authenticationSignature : Signature where
  Op := AuthenticationOp
  Result := AuthenticationOp.Result

/-- What the code cannot see: values of packages and of the clock. -/
inductive AuthenticationInput where
  /-- A database statement is executed. -/
  | statement
  | text (value : String)
  | verdict (valid : Bool)
  | time (milliseconds : Int)
  /-- A package rejects. -/
  | rejection (message : String)
  deriving Repr, DecidableEq

/-- The two tables, and the values `randomUUID` has returned so far. -/
structure AuthenticationState where
  users : UserTable
  sessions : SessionTable
  generated : List String

namespace AuthenticationState

/-- No session and no token yet. -/
def initial (users : UserTable) : AuthenticationState where
  users := users
  sessions := .empty
  generated := []

/-- Whether the foreign key `user_id` refers to a row. -/
def userExists (state : AuthenticationState) (userId : Nat) : Bool :=
  state.users.table.rows.any fun user => user.id == userId

/-- Execute an insert whose result is a new table. -/
def insertSession
    (state : AuthenticationState)
    (session : NewRefreshSession) :
    Except AppError Unit × AuthenticationState :=
  if state.userExists session.userId then
    match state.sessions.insert session with
    | .ok sessions => (.ok (), { state with sessions })
    | .error reason => (.error reason, state)
  else
    (.error (.foreignKeyViolation "refresh_sessions.user_id"), state)

end AuthenticationState

/--
The host of the authentication services.  `randomUUID` never repeats a value;
the packages may reject; statements fail when a constraint does.
-/
def authenticationHost :
    Host authenticationSignature AppError
      AuthenticationState AuthenticationInput
  | .findUserByEmail email, .statement, state =>
      some (.ok (state.users.table.first fun user => user.email == email),
        state)
  | .findUserByLogin login, .statement, state =>
      some (.ok (state.users.table.first fun user => user.login == login),
        state)
  | .findUserByEmailOrLogin criterion, .statement, state =>
      some (.ok (state.users.findByEmailOrLogin criterion), state)
  | .insertUser data, .statement, state =>
      match state.users.insert data with
      | .ok users => some (.ok (), { state with users })
      | .error reason => some (.error reason, state)
  | .findSessionByIp userId ip, .statement, state =>
      some (.ok (state.sessions.table.first fun session =>
        session.userId == userId && session.ip == ip), state)
  | .findSessionsByUser userId, .statement, state =>
      some (.ok (state.sessions.table.select fun session =>
        session.userId == userId), state)
  | .findSessionByToken refreshToken, .statement, state =>
      some (.ok (state.sessions.table.first fun session =>
        session.refreshToken == refreshToken), state)
  | .deleteSessionsByUser userId, .statement, state =>
      some (.ok (),
        { state with
          sessions := state.sessions.deleteWhere fun session =>
            session.userId == userId })
  | .deleteSessionById id, .statement, state =>
      some (.ok (),
        { state with
          sessions := state.sessions.deleteWhere fun session =>
            session.id == id })
  | .insertSession session, .statement, state =>
      some (state.insertSession session)
  | .hashPassword _, .text hash, state => some (.ok hash, state)
  | .verifyPassword _ _, .verdict valid, state => some (.ok valid, state)
  | .signPayload _, .text token, state => some (.ok token, state)
  | .hashPassword _, .rejection message, state =>
      some (.error (.failure message), state)
  | .verifyPassword _ _, .rejection message, state =>
      some (.error (.failure message), state)
  | .signPayload _, .rejection message, state =>
      some (.error (.failure message), state)
  | .randomUUID, .text value, state =>
      if value ∈ state.generated then
        none
      else
        some (.ok value,
          { state with generated := state.generated ++ [value] })
  | .now, .time milliseconds, state => some (.ok milliseconds, state)
  | _, _, _ => none

end Prescott
