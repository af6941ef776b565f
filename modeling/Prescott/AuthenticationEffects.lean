import Prescott.AuthenticationService

namespace Prescott

/-!
# Effects of the authentication programs

What each program of the authentication plugin does when it runs alone: one
lemma for each data access function and one for each method built on them.
-/

variable {before after : AuthenticationState}

/-- The operations that are a database statement. -/
def AuthenticationOp.isStatement : AuthenticationOp → Bool
  | .hashPassword _ => false
  | .verifyPassword _ _ => false
  | .signPayload _ => false
  | .randomUUID => false
  | .now => false
  | _ => true

/-- A statement is executed, and nothing else. -/
theorem AuthenticationOp.input_of_statement
    {op : AuthenticationOp}
    {input : AuthenticationInput}
    {result : Except AppError op.Result × AuthenticationState}
    (isStatement : op.isStatement = true)
    (answered : authenticationHost op input before = some result) :
    input = .statement := by
  cases op <;> cases input <;>
    first
    | rfl
    | cases answered; done
    | cases isStatement

/-- A database statement has one effect. -/
theorem AuthenticationOp.statement_settles
    {op : AuthenticationOp}
    {outcome answer : Except AppError op.Result}
    {changed : AuthenticationState}
    (isStatement : op.isStatement = true)
    (executed :
      authenticationHost op .statement before = some (answer, changed)) :
    Settles authenticationHost op.perform before outcome after ↔
      outcome = answer ∧ after = changed := by
  rw [perform, Settles.perform_iff]
  constructor
  · rintro ⟨input, answered⟩
    rw [input_of_statement isStatement answered, executed] at answered
    cases answered
    exact ⟨rfl, rfl⟩
  · rintro ⟨rfl, rfl⟩
    exact ⟨.statement, executed⟩

namespace UserDao

theorem findByEmail_settles
    {email : String}
    {outcome : Except AppError (Option User)} :
    Settles authenticationHost (findByEmail email) before outcome after ↔
      outcome =
          .ok (before.users.table.first fun user => user.email == email) ∧
        after = before :=
  AuthenticationOp.statement_settles rfl rfl

theorem findByLogin_settles
    {login : String}
    {outcome : Except AppError (Option User)} :
    Settles authenticationHost (findByLogin login) before outcome after ↔
      outcome =
          .ok (before.users.table.first fun user => user.login == login) ∧
        after = before :=
  AuthenticationOp.statement_settles rfl rfl

theorem findByEmailOrLogin_settles
    {criterion : String}
    {outcome : Except AppError (Option User)} :
    Settles authenticationHost (findByEmailOrLogin criterion)
        before outcome after ↔
      outcome = .ok (before.users.findByEmailOrLogin criterion) ∧ after = before :=
  AuthenticationOp.statement_settles rfl rfl

theorem add_settles
    {user : AuthenticationRegisterDto}
    {outcome : Except AppError Unit} :
    Settles authenticationHost (add user) before outcome after ↔
      (∃ users,
        before.users.insert user = .ok users ∧
          outcome = .ok () ∧
          after = { before with users }) ∨
      (∃ reason,
        before.users.insert user = .error reason ∧
          outcome = .error reason ∧
          after = before) := by
  rw [add, AuthenticationOp.perform, Settles.perform_iff]
  constructor
  · rintro ⟨input, answered⟩
    cases input <;> try cases answered
    simp only [authenticationHost] at answered
    split at answered
    · rename_i users inserted
      cases answered
      exact .inl ⟨users, inserted, rfl, rfl⟩
    · rename_i reason rejected
      cases answered
      exact .inr ⟨reason, rejected, rfl, rfl⟩
  · rintro (⟨users, inserted, rfl, rfl⟩ | ⟨reason, rejected, rfl, rfl⟩)
    · exact ⟨.statement, by simp [authenticationHost, inserted]⟩
    · exact ⟨.statement, by simp [authenticationHost, rejected]⟩

end UserDao

namespace RefreshSessionDao

theorem findByIp_settles
    {userId : Nat}
    {ip : String}
    {outcome : Except AppError (Option RefreshSession)} :
    Settles authenticationHost (findByIp userId ip) before outcome after ↔
      outcome =
          .ok (before.sessions.table.first fun session =>
            session.userId == userId && session.ip == ip) ∧
        after = before :=
  AuthenticationOp.statement_settles rfl rfl

theorem findByUser_settles
    {userId : Nat}
    {outcome : Except AppError (List RefreshSession)} :
    Settles authenticationHost (findByUser userId) before outcome after ↔
      outcome =
          .ok (before.sessions.table.select fun session =>
            session.userId == userId) ∧
        after = before :=
  AuthenticationOp.statement_settles rfl rfl

theorem findByToken_settles
    {refreshToken : String}
    {outcome : Except AppError (Option RefreshSession)} :
    Settles authenticationHost (findByToken refreshToken)
        before outcome after ↔
      outcome =
          .ok (before.sessions.table.first fun session =>
            session.refreshToken == refreshToken) ∧
        after = before :=
  AuthenticationOp.statement_settles rfl rfl

theorem deleteByUser_settles
    {userId : Nat}
    {outcome : Except AppError Unit} :
    Settles authenticationHost (deleteByUser userId) before outcome after ↔
      outcome = .ok () ∧
        after =
          { before with
            sessions := before.sessions.deleteWhere fun session =>
              session.userId == userId } :=
  AuthenticationOp.statement_settles rfl rfl

theorem deleteById_settles
    {id : Nat}
    {outcome : Except AppError Unit} :
    Settles authenticationHost (deleteById id) before outcome after ↔
      outcome = .ok () ∧
        after =
          { before with
            sessions := before.sessions.deleteWhere fun session =>
              session.id == id } :=
  AuthenticationOp.statement_settles rfl rfl

theorem add_settles
    {session : NewRefreshSession}
    {outcome : Except AppError Unit} :
    Settles authenticationHost (add session) before outcome after ↔
      before.insertSession session = (outcome, after) := by
  rw [add, AuthenticationOp.perform, Settles.perform_iff]
  constructor
  · rintro ⟨input, answered⟩
    cases input <;> try cases answered
    exact Option.some.inj answered
  · intro inserted
    exact ⟨.statement, congrArg some inserted⟩

/-- The session of a token is deleted and returned; without one, nothing. -/
theorem deleteByTokenAndGet_settles
    {refreshToken : String}
    {outcome : Except AppError (Option RefreshSession)}
    (settles :
      Settles authenticationHost (deleteByTokenAndGet refreshToken)
        before outcome after) :
    (outcome = .ok none ∧
      after = before ∧
      ∀ row ∈ before.sessions.rows, row.refreshToken ≠ refreshToken) ∨
    ∃ session ∈ before.sessions.rows,
      session.refreshToken = refreshToken ∧
        outcome = .ok (some session) ∧
        after =
          { before with
            sessions := before.sessions.deleteWhere fun row =>
              row.id == session.id } := by
  simp only [deleteByTokenAndGet, Settles.bind_iff, findByToken_settles]
    at settles
  rcases settles with
      ⟨found, middle, ⟨shape, rfl⟩, rest⟩ | ⟨reason, ⟨shape, _⟩, _⟩
  · cases shape
    split at rest
    · rename_i absent
      obtain ⟨rfl, rfl⟩ := Settles.pure_iff.mp rest
      have noRow := Table.first_eq_none.mp absent
      exact .inl ⟨rfl, rfl, fun row member same => by
        simpa [same] using noRow row member⟩
    · rename_i session found
      have member := Table.mem_of_first found
      simp only [Settles.bind_iff, deleteById_settles, Settles.pure_iff]
        at rest
      rcases rest with
          ⟨_, middle, ⟨_, rfl⟩, rfl, rfl⟩ | ⟨_, ⟨shape, _⟩, _⟩
      · exact .inr
          ⟨session, member.1, by simpa using member.2, rfl, rfl⟩
      · cases shape
  · cases shape

end RefreshSessionDao

theorem PasswordService.hash_settles
    {password : String}
    {outcome : Except AppError String} :
    Settles authenticationHost (hash password) before outcome after ↔
      ((∃ value, outcome = .ok value) ∨
        ∃ message, outcome = .error (.failure message)) ∧
        after = before := by
  rw [hash, AuthenticationOp.perform, Settles.perform_iff]
  constructor
  · rintro ⟨input, answered⟩
    cases input <;> cases answered <;> simp
  · rintro ⟨⟨value, rfl⟩ | ⟨message, rfl⟩, rfl⟩
    · exact ⟨.text value, rfl⟩
    · exact ⟨.rejection message, rfl⟩

theorem PasswordService.verify_settles
    {hash password : String}
    {outcome : Except AppError Bool} :
    Settles authenticationHost (verify hash password) before outcome after ↔
      ((∃ valid, outcome = .ok valid) ∨
        ∃ message, outcome = .error (.failure message)) ∧
        after = before := by
  rw [verify, AuthenticationOp.perform, Settles.perform_iff]
  constructor
  · rintro ⟨input, answered⟩
    cases input <;> cases answered <;> simp
  · rintro ⟨⟨valid, rfl⟩ | ⟨message, rfl⟩, rfl⟩
    · exact ⟨.verdict valid, rfl⟩
    · exact ⟨.rejection message, rfl⟩

theorem JwtService.sign_settles
    {userId : Nat}
    {outcome : Except AppError String} :
    Settles authenticationHost (sign userId) before outcome after ↔
      ((∃ token, outcome = .ok token) ∨
        ∃ message, outcome = .error (.failure message)) ∧
        after = before := by
  rw [sign, AuthenticationOp.perform, Settles.perform_iff]
  constructor
  · rintro ⟨input, answered⟩
    cases input <;> cases answered <;> simp
  · rintro ⟨⟨token, rfl⟩ | ⟨message, rfl⟩, rfl⟩
    · exact ⟨.text token, rfl⟩
    · exact ⟨.rejection message, rfl⟩

theorem randomUUID_settles
    {outcome : Except AppError String} :
    Settles authenticationHost randomUUID before outcome after ↔
      ∃ value,
        value ∉ before.generated ∧
          outcome = .ok value ∧
          after =
            { before with generated := before.generated ++ [value] } := by
  rw [randomUUID, AuthenticationOp.perform, Settles.perform_iff]
  constructor
  · rintro ⟨input, answered⟩
    cases input <;> try cases answered
    simp only [authenticationHost] at answered
    split at answered
    · cases answered
    · rename_i value fresh
      cases answered
      exact ⟨value, fresh, rfl, rfl⟩
  · rintro ⟨value, fresh, rfl, rfl⟩
    exact ⟨.text value, by simp [authenticationHost, fresh]⟩

theorem now_settles
    {outcome : Except AppError Int} :
    Settles authenticationHost now before outcome after ↔
      (∃ time, outcome = .ok time) ∧ after = before := by
  rw [now, AuthenticationOp.perform, Settles.perform_iff]
  constructor
  · rintro ⟨input, answered⟩
    cases input <;> cases answered
    exact ⟨⟨_, rfl⟩, rfl⟩
  · rintro ⟨⟨time, rfl⟩, rfl⟩
    exact ⟨.time time, rfl⟩

namespace AuthenticationState

/-- The user has a row in `users`. -/
theorem userExists_iff
    {state : AuthenticationState}
    {userId : Nat} :
    state.userExists userId = true ↔
      ∃ user ∈ state.users.table.rows, user.id = userId := by
  simp [userExists]

/-- An insert for a known user changes the table as the constraints allow. -/
theorem insertSession_ok
    {state : AuthenticationState}
    {session : NewRefreshSession}
    {sessions : SessionTable}
    (userKnown : state.userExists session.userId = true)
    (inserted : state.sessions.insert session = .ok sessions) :
    state.insertSession session = (.ok (), { state with sessions }) := by
  simp [insertSession, userKnown, inserted]

/-- The table in which `addRefreshSession` inserts: a full user is wiped. -/
def madeRoom
    (config : AuthenticationConfig)
    (state : AuthenticationState)
    (userId : Nat) :
    SessionTable :=
  if (state.sessions.table.select fun session =>
      session.userId == userId).length ≥ config.maxSessions then
    state.sessions.deleteWhere fun session => session.userId == userId
  else
    state.sessions

/-- The state after the session is deleted by its identifier. -/
def withoutSession
    (state : AuthenticationState)
    (session : RefreshSession) :
    AuthenticationState :=
  { state with
    sessions := state.sessions.deleteWhere fun row =>
      row.id == session.id }

theorem mem_of_mem_madeRoom
    {config : AuthenticationConfig}
    {state : AuthenticationState}
    {userId : Nat}
    {session : RefreshSession}
    (member : session ∈ (state.madeRoom config userId).rows) :
    session ∈ state.sessions.rows := by
  unfold madeRoom at member
  split at member
  · exact (SessionTable.mem_rows_deleteWhere.mp member).1
  · exact member

end AuthenticationState

namespace AuthenticationService

/-- The overflow wipe leaves the user room for one more session. -/
theorem wipeOverflow_settles
    {config : AuthenticationConfig}
    {userId : Nat}
    {outcome : Except AppError Unit} :
    Settles authenticationHost
        (wipeOverflow config userId
          (before.sessions.table.select fun session =>
            session.userId == userId))
        before outcome after ↔
      outcome = .ok () ∧
        after =
          { before with sessions := before.madeRoom config userId } := by
  unfold wipeOverflow AuthenticationState.madeRoom
  split
  · exact RefreshSessionDao.deleteByUser_settles
  · exact Settles.pure_iff

/--
`addRefreshSession` fails before it changes anything, or it draws a new token
and settles like the insert into the table with room.
-/
theorem addRefreshSession_settles
    {config : AuthenticationConfig}
    {userId : Nat}
    {ip : String}
    {outcome : Except AppError TokenPairDto}
    (settles :
      Settles authenticationHost (addRefreshSession config userId ip)
        before outcome after) :
    (∃ message, outcome = .error (.failure message) ∧ after = before) ∨
    ∃ accessToken refreshToken createdAt inserted,
      refreshToken ∉ before.generated ∧
        AuthenticationState.insertSession
          { before with
            sessions := before.madeRoom config userId
            generated := before.generated ++ [refreshToken] }
          { userId
            refreshToken
            ip
            expiresIn := config.refreshExpiresIn
            createdAt } = (inserted, after) ∧
        outcome =
          inserted.map fun _ => { accessToken, refreshToken } := by
  unfold addRefreshSession at settles
  rcases Settles.bind_iff.mp settles with
      ⟨accessToken, _, signed, rest⟩ | ⟨reason, signed, rejected⟩
  · obtain ⟨_, rfl⟩ := JwtService.sign_settles.mp signed
    rcases Settles.bind_iff.mp rest with
        ⟨refreshToken, _, drawn, rest⟩ | ⟨reason, drawn, _⟩
    · obtain ⟨value, fresh, shape, rfl⟩ := randomUUID_settles.mp drawn
      cases shape
      rcases Settles.bind_iff.mp rest with
          ⟨sessions, _, found, rest⟩ | ⟨reason, found, _⟩
      · obtain ⟨shape, rfl⟩ := RefreshSessionDao.findByUser_settles.mp found
        cases shape
        rcases Settles.bind_iff.mp rest with
            ⟨_, _, wiped, rest⟩ | ⟨reason, wiped, _⟩
        · obtain ⟨_, rfl⟩ := wipeOverflow_settles.mp wiped
          rcases Settles.bind_iff.mp rest with
              ⟨createdAt, _, read, rest⟩ | ⟨reason, read, _⟩
          · obtain ⟨_, rfl⟩ := now_settles.mp read
            rcases Settles.bind_iff.mp rest with
                ⟨_, _, added, rest⟩ | ⟨reason, added, rejected⟩
            · obtain ⟨rfl, rfl⟩ := Settles.pure_iff.mp rest
              exact .inr ⟨accessToken, refreshToken, createdAt, _, fresh,
                RefreshSessionDao.add_settles.mp added, rfl⟩
            · exact .inr ⟨accessToken, refreshToken, createdAt, _, fresh,
                RefreshSessionDao.add_settles.mp added, rejected⟩
          · obtain ⟨⟨_, shape⟩, _⟩ := now_settles.mp read
            cases shape
        · cases (wipeOverflow_settles.mp wiped).1
      · cases (RefreshSessionDao.findByUser_settles.mp found).1
    · obtain ⟨_, _, shape, _⟩ := randomUUID_settles.mp drawn
      cases shape
  · obtain ⟨⟨_, shape⟩ | ⟨message, shape⟩, rfl⟩ :=
      JwtService.sign_settles.mp signed
    · cases shape
    · cases shape
      exact .inl ⟨message, rejected, rfl⟩

/-- Logging in checks the user and the address before it adds a session. -/
theorem login_settles
    {config : AuthenticationConfig}
    {loginData : AuthenticationLoginDto}
    {ip : String}
    {outcome : Except AppError TokenPairDto}
    (settles :
      Settles authenticationHost (login config loginData ip)
        before outcome after) :
    (∃ reason,
      reason.isConstraintViolation = false ∧
        outcome = .error reason ∧
        after = before) ∨
    ∃ user,
      before.users.findByEmailOrLogin loginData.login = some user ∧
        (∀ row ∈ before.sessions.rows,
          ¬ (row.userId = user.id ∧ row.ip = ip)) ∧
        Settles authenticationHost (addRefreshSession config user.id ip)
          before outcome after := by
  simp only [login, Settles.bind_iff, UserDao.findByEmailOrLogin_settles]
    at settles
  rcases settles with
      ⟨found, _, ⟨shape, rfl⟩, rest⟩ | ⟨_, ⟨shape, _⟩, _⟩
  · cases shape
    split at rest
    · exact .inl ⟨_, rfl, Settles.throw_iff.mp rest⟩
    · rename_i user found
      simp only [Settles.bind_iff, RefreshSessionDao.findByIp_settles]
        at rest
      rcases rest with
          ⟨session, _, ⟨shape, rfl⟩, rest⟩ | ⟨_, ⟨shape, _⟩, _⟩
      · cases shape
        split at rest
        · exact .inl ⟨_, rfl, Settles.throw_iff.mp rest⟩
        · rename_i absent
          have noRow := Table.first_eq_none.mp absent
          rcases Settles.bind_iff.mp rest with
              ⟨valid, _, verified, later⟩ | ⟨reason, verified, rejected⟩
          · obtain ⟨_, rfl⟩ := PasswordService.verify_settles.mp verified
            split at later
            · exact .inl ⟨_, rfl, Settles.throw_iff.mp later⟩
            · refine .inr ⟨user, found, ?_, later⟩
              rintro row rowMember ⟨sameUser, sameIp⟩
              simpa [sameUser, sameIp] using noRow row rowMember
          · obtain ⟨⟨_, shape⟩ | ⟨message, shape⟩, rfl⟩ :=
              PasswordService.verify_settles.mp verified
            · cases shape
            · cases shape
              exact .inl ⟨_, rfl, rejected, rfl⟩
      · cases shape
  · cases shape

/-- Refreshing takes the session of the token before it looks at it. -/
theorem refreshTokens_settles
    {config : AuthenticationConfig}
    {refreshToken ip : String}
    {outcome : Except AppError TokenPairDto}
    (settles :
      Settles authenticationHost (refreshTokens config refreshToken ip)
        before outcome after) :
    (∃ reason,
      reason.isConstraintViolation = false ∧
        outcome = .error reason ∧
        after = before ∧
        ∀ row ∈ before.sessions.rows, row.refreshToken ≠ refreshToken) ∨
    ∃ session ∈ before.sessions.rows,
      session.refreshToken = refreshToken ∧
        ((∃ reason,
          reason.isConstraintViolation = false ∧
            outcome = .error reason ∧
            after = before.withoutSession session) ∨
        (session.ip = ip ∧
          Settles authenticationHost
            (addRefreshSession config session.userId ip)
            (before.withoutSession session) outcome after)) := by
  unfold refreshTokens at settles
  rcases Settles.bind_iff.mp settles with
      ⟨found, _, deleted, rest⟩ | ⟨reason, deleted, rejected⟩
  · rcases RefreshSessionDao.deleteByTokenAndGet_settles deleted with
        ⟨shape, rfl, absent⟩ | ⟨session, member, hasToken, shape, rfl⟩
    · cases shape
      obtain ⟨rejected, rfl⟩ := Settles.throw_iff.mp rest
      exact .inl ⟨_, rfl, rejected, rfl, absent⟩
    · cases shape
      refine .inr ⟨session, member, hasToken, ?_⟩
      simp only [exchange] at rest
      split at rest
      · exact .inl ⟨_, rfl, Settles.throw_iff.mp rest⟩
      · rename_i sameIp
        rcases Settles.bind_iff.mp rest with
            ⟨currentTime, _, read, rest⟩ | ⟨reason, read, rejected⟩
        · obtain ⟨_, rfl⟩ := now_settles.mp read
          split at rest
          · exact .inl ⟨_, rfl, Settles.throw_iff.mp rest⟩
          · exact .inr ⟨not_ne_iff.mp sameIp, rest⟩
        · obtain ⟨⟨_, shape⟩, _⟩ := now_settles.mp read
          cases shape
  · rcases RefreshSessionDao.deleteByTokenAndGet_settles deleted with
        ⟨shape, _⟩ | ⟨_, _, _, shape, _⟩
    · cases shape
    · cases shape

/-- Logging out takes the session of the token and nothing else. -/
theorem logout_settles
    {refreshToken ip : String}
    {outcome : Except AppError Unit}
    (settles :
      Settles authenticationHost (logout refreshToken ip)
        before outcome after) :
    (∃ reason,
      reason.isConstraintViolation = false ∧
        outcome = .error reason ∧
        after = before ∧
        ∀ row ∈ before.sessions.rows, row.refreshToken ≠ refreshToken) ∨
    ∃ session ∈ before.sessions.rows,
      session.refreshToken = refreshToken ∧
        after = before.withoutSession session ∧
        (outcome = .ok () ∨
          ∃ reason,
            reason.isConstraintViolation = false ∧
              outcome = .error reason) := by
  unfold logout at settles
  rcases Settles.bind_iff.mp settles with
      ⟨found, _, deleted, rest⟩ | ⟨reason, deleted, rejected⟩
  · rcases RefreshSessionDao.deleteByTokenAndGet_settles deleted with
        ⟨shape, rfl, absent⟩ | ⟨session, member, hasToken, shape, rfl⟩
    · cases shape
      obtain ⟨rejected, rfl⟩ := Settles.throw_iff.mp rest
      exact .inl ⟨_, rfl, rejected, rfl, absent⟩
    · cases shape
      refine .inr ⟨session, member, hasToken, ?_⟩
      dsimp only at rest
      split at rest
      · obtain ⟨rejected, rfl⟩ := Settles.throw_iff.mp rest
        exact ⟨rfl, .inr ⟨_, rfl, rejected⟩⟩
      · obtain ⟨resolved, rfl⟩ := Settles.pure_iff.mp rest
        exact ⟨rfl, .inl resolved⟩
  · rcases RefreshSessionDao.deleteByTokenAndGet_settles deleted with
        ⟨shape, _⟩ | ⟨_, _, _, shape, _⟩
    · cases shape
    · cases shape

/-- Registering inserts a user whose login and email it found unused. -/
theorem register_settles
    {registerData : AuthenticationRegisterDto}
    {outcome : Except AppError Unit}
    (settles :
      Settles authenticationHost (register registerData)
        before outcome after) :
    (∃ reason,
      reason.isConstraintViolation = false ∧
        outcome = .error reason ∧
        after = before) ∨
    ∃ password users,
      before.users.insert { registerData with password } = .ok users ∧
        outcome = .ok () ∧
        after = { before with users } := by
  simp only [register, Settles.bind_iff, UserDao.findByEmail_settles]
    at settles
  rcases settles with
      ⟨found, _, ⟨shape, rfl⟩, rest⟩ | ⟨_, ⟨shape, _⟩, _⟩
  · cases shape
    split at rest
    · exact .inl ⟨_, rfl, Settles.throw_iff.mp rest⟩
    · rename_i noEmail
      simp only [Settles.bind_iff, UserDao.findByLogin_settles] at rest
      rcases rest with
          ⟨found, state, ⟨shape, rfl⟩, rest⟩ | ⟨_, ⟨shape, _⟩, _⟩
      · cases shape
        split at rest
        · exact .inl ⟨_, rfl, Settles.throw_iff.mp rest⟩
        · rename_i noLogin
          rcases Settles.bind_iff.mp rest with
              ⟨password, state, hashed, later⟩ | ⟨reason, hashed, rejected⟩
          · obtain ⟨_, rfl⟩ := PasswordService.hash_settles.mp hashed
            obtain ⟨users, inserted⟩ :
                ∃ users,
                  state.users.insert { registerData with password } =
                    .ok users := by
              apply UserTable.exists_insert_ok
              · intro row member same
                simpa [same] using Table.first_eq_none.mp noLogin row member
              · intro row member same
                simpa [same] using Table.first_eq_none.mp noEmail row member
            rcases UserDao.add_settles.mp later with
                ⟨others, insertedOthers, resolved, changed⟩ |
                ⟨reason, rejected, _⟩
            · exact .inr ⟨password, others, insertedOthers, resolved, changed⟩
            · rw [inserted] at rejected
              cases rejected
          · obtain ⟨⟨_, shape⟩ | ⟨message, shape⟩, rfl⟩ :=
              PasswordService.hash_settles.mp hashed
            · cases shape
            · cases shape
              exact .inl ⟨_, rfl, rejected, rfl⟩
      · cases shape
  · cases shape

end AuthenticationService

end Prescott
