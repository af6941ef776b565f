import Prescott.AccountIdentifiers
import Prescott.AuthenticationService
import Prescott.JsNumbers

namespace Prescott

/-!
# Access tokens

What the packages for hashes and tokens are given and return, the hook that
reads an access token from a request, and the phases of the authentication
requests that tell whose tokens they may sign.
-/

/-- What a token is signed for. -/
structure UserPayload where
  userId : Nat
  deriving Repr, DecidableEq

/-- `argon2` and `jsonwebtoken` with the options they are called with. -/
structure CredentialPackages where
  /-- The hash of a password under the salt that is drawn. -/
  hash : (salt password : String) → String
  verifyHash : (hash password : String) → Bool
  /-- The token that is signed at a time. -/
  sign : UserPayload → (signedAt : Int) → String
  verifyToken : (token : String) → (now : Int) → Except String UserPayload

/-- A hash fits its password only, and a token tells what was signed. -/
structure CredentialPackages.Sound (packages : CredentialPackages) : Prop where
  password_eq :
    ∀ salt password presented,
      packages.verifyHash (packages.hash salt password) presented = true →
      presented = password
  payload_eq :
    ∀ payload signedAt now verified,
      packages.verifyToken (packages.sign payload signedAt) now = .ok verified →
      verified = payload

/-- The host whose hashes, verdicts and tokens are those of the packages. -/
def credentialHost (packages : CredentialPackages) :
    Host authenticationSignature AppError AuthenticationState AuthenticationInput
  | .hashPassword password, .text salt, state =>
      some (.ok (packages.hash salt password), state)
  | .verifyPassword hash password, .verdict _, state =>
      some (.ok (packages.verifyHash hash password), state)
  | .signPayload userId, .time signedAt, state =>
      some (.ok (packages.sign ⟨userId⟩ signedAt), state)
  | .signPayload _, .text _, _ => none
  | op, input, state => authenticationHost op input state

/-- What the packages answer is among the answers of the other host. -/
theorem authenticationHost_of_credentialHost
    {packages : CredentialPackages}
    {op : AuthenticationOp}
    {input : AuthenticationInput}
    {before after : AuthenticationState}
    {answer : Except AppError op.Result}
    (answered : credentialHost packages op input before = some (answer, after)) :
    ∃ input, authenticationHost op input before = some (answer, after) := by
  cases op with
  | hashPassword password =>
      cases input with
      | text salt => exact ⟨.text (packages.hash salt password), answered⟩
      | rejection message => exact ⟨.rejection message, answered⟩
      | _ => cases answered
  | verifyPassword hash password =>
      cases input with
      | verdict valid => exact ⟨.verdict (packages.verifyHash hash password), answered⟩
      | rejection message => exact ⟨.rejection message, answered⟩
      | _ => cases answered
  | signPayload userId =>
      cases input with
      | time signedAt => exact ⟨.text (packages.sign ⟨userId⟩ signedAt), answered⟩
      | rejection message => exact ⟨.rejection message, answered⟩
      | _ => cases answered
  | _ => exact ⟨input, answered⟩

/-- The authentication routes with these packages. -/
abbrev credentialService
    (packages : CredentialPackages)
    (config : AuthenticationConfig) :
    Service authenticationSignature AppError AuthenticationState
      AuthenticationInput AuthenticationCall AuthenticationReply where
  body := authenticationRoutes config
  host := credentialHost packages

/-- The access token after the scheme of an authorization header. -/
def accessTokenOf (authorization : String) : String :=
  String.ofList (JsNumber.trim (authorization.toList.drop "Bearer".length))

/-- The hook of `createValidationHook`: the payload, or the error it replies with. -/
def validationHook
    (verify : String → Except String UserPayload)
    (authorization : Option String) :
    Except HttpError UserPayload :=
  let error := HttpError.unauthorized "Invalid access token"
  match authorization with
  | none => .error error
  | some authorization =>
      if authorization.isEmpty || !"Bearer".isPrefixOf authorization then
        .error error
      else
        match verify (accessTokenOf authorization) with
        | .ok payload => .ok payload
        | .error _ => .error error

/-- What is let through has a token that verifies. -/
theorem verified_of_validationHook
    {verify : String → Except String UserPayload}
    {authorization : String}
    {payload : UserPayload}
    (accepted : validationHook verify (some authorization) = .ok payload) :
    verify (accessTokenOf authorization) = .ok payload := by
  simp only [validationHook] at accepted
  split at accepted
  · cases accepted
  · split at accepted
    · cases accepted
      assumption
    · cases accepted

/-- The address a request comes from, where its handler reads it. -/
def AuthenticationCall.ip : AuthenticationCall → Option String
  | .register _ => none
  | .login _ ip => some ip
  | .refreshTokens _ ip => some ip
  | .logout _ ip => some ip

/-- How far a request is on the way to its tokens. -/
inductive AccessPhase where
  | beginning
  /-- A registration has the hash of its password. -/
  | hashed (hash : String)
  /-- A login has found its user. -/
  | identified (user : User)
  /-- The row of the presented token is read and not yet deleted. -/
  | selected (session : RefreshSession)
  /-- The request has proved who it is; a refresh does so by the row it deleted. -/
  | granted (origin : Option RefreshSession) (userId : Nat)
  | signed (origin : Option RefreshSession) (userId : Nat) (accessToken : String)
  /-- A refresh token is drawn and not yet inserted. -/
  | issuing
      (origin : Option RefreshSession)
      (userId : Nat)
      (accessToken refreshToken : String)
  | issued
      (origin : Option RefreshSession)
      (userId : Nat)
      (accessToken refreshToken : String)
  | closed
  deriving Repr, DecidableEq

namespace AccessPhase

/-- The session row that a request presented and deleted. -/
def origin : AccessPhase → Option RefreshSession
  | .granted origin _ | .signed origin _ _ | .issuing origin _ _ _
  | .issued origin _ _ _ => origin
  | _ => none

/-- The refresh token that is drawn and not yet inserted. -/
def drawn : AccessPhase → Option String
  | .issuing _ _ _ refreshToken => some refreshToken
  | _ => none

/-- The operations a request may await in a phase. -/
def permits (call : AuthenticationCall) : AccessPhase → AuthenticationOp → Prop
  | .beginning, op =>
      match call with
      | .register registerData =>
          op = .findUserByEmail registerData.email ∨
            op = .findUserByLogin registerData.login ∨
            op = .hashPassword registerData.password
      | .login loginData _ => op = .findUserByEmailOrLogin loginData.login
      | .refreshTokens refreshToken _ | .logout refreshToken _ =>
          op = .findSessionByToken refreshToken
  | .hashed hash, op =>
      ∃ registerData,
        call = .register registerData ∧
          op = .insertUser { registerData with password := hash }
  | .identified user, op =>
      ∃ loginData ip,
        call = .login loginData ip ∧
          (op = .findSessionByIp user.id ip ∨
            op = .verifyPassword user.password loginData.password)
  | .selected session, op => op = .deleteSessionById session.id
  | .granted _ userId, op => op = .now ∨ op = .signPayload userId
  | .signed _ _ _, op => op = .randomUUID
  | .issuing _ userId _ refreshToken, op =>
      op = .findSessionsByUser userId ∨ op = .deleteSessionsByUser userId ∨
        op = .now ∨
        ∃ session : NewRefreshSession,
          op = .insertSession session ∧ session.userId = userId ∧
            session.refreshToken = refreshToken ∧ call.ip = some session.ip
  | .issued _ _ _ _, _ => False
  | .closed, _ => False

/-- The phase of a request after an answer. -/
def advance
    (call : AuthenticationCall)
    (phase : AccessPhase)
    (op : AuthenticationOp)
    (answer : Except AppError op.Result) :
    AccessPhase :=
  match phase, op, answer with
  | .beginning, .findUserByEmail _, .ok _ => .beginning
  | .beginning, .findUserByLogin _, .ok _ => .beginning
  | .beginning, .hashPassword _, .ok hash => .hashed hash
  | .beginning, .findUserByEmailOrLogin _, .ok (some user) => .identified user
  | .beginning, .findSessionByToken _, .ok (some session) => .selected session
  | .identified user, .findSessionByIp _ _, .ok none => .identified user
  | .identified user, .verifyPassword _ _, .ok true => .granted none user.id
  | .selected session, _, .ok _ =>
      if call.ip = some session.ip then
        .granted (some session) session.userId
      else
        .closed
  | .granted origin userId, .now, .ok _ => .granted origin userId
  | .granted origin userId, .signPayload _, .ok accessToken =>
      .signed origin userId accessToken
  | .signed origin userId accessToken, .randomUUID, .ok refreshToken =>
      .issuing origin userId accessToken refreshToken
  | .issuing origin userId accessToken refreshToken, .insertSession _, .ok _ =>
      .issued origin userId accessToken refreshToken
  | .issuing origin userId accessToken refreshToken, .findSessionsByUser _, .ok _
  | .issuing origin userId accessToken refreshToken, .deleteSessionsByUser _, .ok _
  | .issuing origin userId accessToken refreshToken, .now, .ok _ =>
      .issuing origin userId accessToken refreshToken
  | _, _, _ => .closed

/-- What a request has gone through when it resolves. -/
def finishes (call : AuthenticationCall) :
    AccessPhase → Except AppError AuthenticationReply → Prop
  | phase, .ok (.tokens pair) =>
      (∃ userId,
        phase = .issued phase.origin userId pair.accessToken pair.refreshToken) ∧
        (call.presents.isSome = true → phase.origin.isSome = true)
  | phase, .ok .done => call.presents.isSome = true → phase.origin.isSome = true
  | _, .error _ => True

/-- What a permitted operation and its answer do to the phase of a request. -/
inductive Advances (call : AuthenticationCall) :
    AccessPhase → (op : AuthenticationOp) → Except AppError op.Result →
      AccessPhase → Prop where
  | closed
      {phase : AccessPhase}
      {op : AuthenticationOp}
      {answer : Except AppError op.Result} :
      Advances call phase op answer .closed
  | stays
      {phase : AccessPhase}
      {op : AuthenticationOp}
      {answer : Except AppError op.Result}
      (notInserted : ∀ session, op ≠ .insertSession session)
      (notSelected : ∀ session, phase ≠ .selected session) :
      Advances call phase op answer phase
  | hashed
      {registerData : AuthenticationRegisterDto}
      {hash : String}
      (isCall : call = .register registerData) :
      Advances call .beginning (.hashPassword registerData.password) (.ok hash)
        (.hashed hash)
  | identified
      {loginData : AuthenticationLoginDto}
      {ip : String}
      {user : User}
      (isCall : call = .login loginData ip) :
      Advances call .beginning (.findUserByEmailOrLogin loginData.login)
        (.ok (some user)) (.identified user)
  | selected
      {refreshToken : String}
      {session : RefreshSession}
      (presents : call.presents = some refreshToken) :
      Advances call .beginning (.findSessionByToken refreshToken) (.ok (some session))
        (.selected session)
  | verified
      {loginData : AuthenticationLoginDto}
      {ip : String}
      {user : User}
      (isCall : call = .login loginData ip) :
      Advances call (.identified user)
        (.verifyPassword user.password loginData.password) (.ok true)
        (.granted none user.id)
  | taken
      {session : RefreshSession}
      (sameIp : call.ip = some session.ip) :
      Advances call (.selected session) (.deleteSessionById session.id) (.ok ())
        (.granted (some session) session.userId)
  | signed
      {origin : Option RefreshSession}
      {userId : Nat}
      {accessToken : String} :
      Advances call (.granted origin userId) (.signPayload userId) (.ok accessToken)
        (.signed origin userId accessToken)
  | drawn
      {origin : Option RefreshSession}
      {userId : Nat}
      {accessToken refreshToken : String} :
      Advances call (.signed origin userId accessToken) .randomUUID (.ok refreshToken)
        (.issuing origin userId accessToken refreshToken)
  | issued
      {origin : Option RefreshSession}
      {userId : Nat}
      {accessToken refreshToken : String}
      {session : NewRefreshSession} :
      Advances call (.issuing origin userId accessToken refreshToken)
        (.insertSession session) (.ok ())
        (.issued origin userId accessToken refreshToken)

/-- All that the answer to a permitted operation can lead to. -/
theorem advances_advance
    {call : AuthenticationCall}
    {phase : AccessPhase}
    {op : AuthenticationOp}
    (answer : Except AppError op.Result)
    (permitted : phase.permits call op) :
    Advances call phase op answer (phase.advance call op answer) := by
  cases phase with
  | beginning =>
      cases call with
      | register registerData =>
          rcases permitted with rfl | rfl | rfl
          · cases answer with
            | error reason => exact .closed
            | ok found => exact .stays nofun nofun
          · cases answer with
            | error reason => exact .closed
            | ok found => exact .stays nofun nofun
          · cases answer with
            | error reason => exact .closed
            | ok hash => exact .hashed rfl
      | login loginData ip =>
          cases permitted
          cases answer with
          | error reason => exact .closed
          | ok found =>
              cases found with
              | none => exact .closed
              | some user => exact .identified rfl
      | refreshTokens refreshToken ip | logout refreshToken ip =>
          cases permitted
          cases answer with
          | error reason => exact .closed
          | ok found =>
              cases found with
              | none => exact .closed
              | some session => exact .selected rfl
  | hashed hash =>
      obtain ⟨registerData, rfl, rfl⟩ := permitted
      exact .closed
  | identified user =>
      obtain ⟨loginData, ip, rfl, rfl | rfl⟩ := permitted
      · cases answer with
        | error reason => exact .closed
        | ok found =>
            cases found with
            | none => exact .stays nofun nofun
            | some session => exact .closed
      · cases answer with
        | error reason => exact .closed
        | ok valid =>
            cases valid with
            | false => exact .closed
            | true => exact .verified rfl
  | selected session =>
      cases permitted
      cases answer with
      | error reason => exact .closed
      | ok done =>
          by_cases sameIp : call.ip = some session.ip
          · simp only [advance, if_pos sameIp]
            exact .taken sameIp
          · simp only [advance, if_neg sameIp]
            exact .closed
  | granted origin userId =>
      rcases permitted with rfl | rfl
      · cases answer with
        | error reason => exact .closed
        | ok time => exact .stays nofun nofun
      · cases answer with
        | error reason => exact .closed
        | ok accessToken => exact .signed
  | signed origin userId accessToken =>
      cases permitted
      cases answer with
      | error reason => exact .closed
      | ok refreshToken => exact .drawn
  | issuing origin userId accessToken refreshToken =>
      rcases permitted with rfl | rfl | rfl | ⟨session, rfl, _⟩
      all_goals
        cases answer with
        | error reason => exact .closed
        | ok value =>
            first
              | exact .issued
              | exact .stays nofun nofun
  | issued origin userId accessToken refreshToken => exact permitted.elim
  | closed => exact permitted.elim

end AccessPhase

/-- The protocol of the authentication routes, as far as access goes. -/
abbrev accessProtocol :
    Protocol authenticationSignature AppError AuthenticationCall
      AuthenticationReply where
  Phase := AccessPhase
  start := fun _ => .beginning
  permits := AccessPhase.permits
  advance := AccessPhase.advance
  finishes := AccessPhase.finishes

namespace AccessPhase

variable {config : AuthenticationConfig}
variable {call : AuthenticationCall}

/-- `addRefreshSession` signs, draws and inserts for the user it is granted. -/
theorem conforms_addRefreshSession
    {origin : Option RefreshSession}
    {userId : Nat}
    {ip : String}
    (sameIp : call.ip = some ip)
    (hasOrigin : call.presents.isSome = true → origin.isSome = true) :
    accessProtocol.Conforms call (.granted origin userId)
      (AuthenticationService.addRefreshSession config userId ip >>=
        fun pair => pure (.tokens pair)) := by
  simp only [AuthenticationService.addRefreshSession, bind_assoc, pure_bind]
  refine Protocol.conforms_perform_bind.mpr
    ⟨.inr rfl, fun accessToken => ?_, fun _ => trivial⟩
  refine Protocol.conforms_perform_bind.mpr
    ⟨rfl, fun refreshToken => ?_, fun _ => trivial⟩
  have inserts :
      accessProtocol.Conforms call
        (.issuing origin userId accessToken refreshToken)
        (do
          let createdAt ← now
          RefreshSessionDao.add
            { userId
              refreshToken
              ip
              expiresIn := config.refreshExpiresIn
              createdAt }
          pure (AuthenticationReply.tokens { accessToken, refreshToken })) := by
    refine Protocol.conforms_perform_bind.mpr
      ⟨.inr (.inr (.inl rfl)), fun createdAt => ?_, fun _ => trivial⟩
    refine Protocol.conforms_perform_bind.mpr
      ⟨.inr (.inr (.inr ⟨_, rfl, rfl, rfl, sameIp⟩)), fun _ => ?_, fun _ => trivial⟩
    exact ⟨⟨userId, rfl⟩, hasOrigin⟩
  refine Protocol.conforms_perform_bind.mpr
    ⟨.inl rfl, fun sessions => ?_, fun _ => trivial⟩
  unfold AuthenticationService.wipeOverflow
  split
  · exact Protocol.conforms_perform_bind.mpr
      ⟨.inr (.inl rfl), fun _ => inserts, fun _ => trivial⟩
  · exact inserts

/-- The two statements of `deleteByTokenAndGet` and what follows them. -/
theorem conforms_deleteByTokenAndGet
    {refreshToken : String}
    (permitted :
      permits call .beginning (.findSessionByToken refreshToken))
    {next : Option RefreshSession → AuthenticationProgram AuthenticationReply}
    (absent : accessProtocol.Conforms call .closed (next none))
    (taken :
      ∀ session,
        accessProtocol.Conforms call
          (if call.ip = some session.ip then
            .granted (some session) session.userId
          else
            .closed)
          (next (some session))) :
    accessProtocol.Conforms call .beginning
      (RefreshSessionDao.deleteByTokenAndGet refreshToken >>= next) := by
  simp only [RefreshSessionDao.deleteByTokenAndGet, bind_assoc]
  refine Protocol.conforms_perform_bind.mpr
    ⟨permitted, fun found => ?_, fun _ => trivial⟩
  cases found with
  | none =>
      exact absent
  | some session =>
      simp only [bind_assoc]
      exact Protocol.conforms_perform_bind.mpr
        ⟨rfl, fun _ => taken session, fun _ => trivial⟩

/-- Every handler keeps to the protocol. -/
theorem conforms_routes
    (config : AuthenticationConfig)
    (call : AuthenticationCall) :
    accessProtocol.Conforms call .beginning (authenticationRoutes config call) := by
  cases call with
  | register registerData =>
      simp only [authenticationRoutes, AuthenticationService.register, bind_assoc]
      refine Protocol.conforms_perform_bind.mpr
        ⟨.inl rfl, fun byEmail => ?_, fun _ => trivial⟩
      cases byEmail with
      | some user =>
          exact trivial
      | none =>
          simp only [bind_assoc]
          refine Protocol.conforms_perform_bind.mpr
            ⟨.inr (.inl rfl), fun byLogin => ?_, fun _ => trivial⟩
          cases byLogin with
          | some user =>
              exact trivial
          | none =>
              simp only [bind_assoc]
              refine Protocol.conforms_perform_bind.mpr
                ⟨.inr (.inr rfl), fun hashedPassword => ?_, fun _ => trivial⟩
              refine Protocol.conforms_perform_bind.mpr
                ⟨⟨registerData, rfl, rfl⟩, fun _ presented => ?_, fun _ => trivial⟩
              cases presented
  | login loginData ip =>
      simp only [authenticationRoutes, AuthenticationService.login, bind_assoc]
      refine Protocol.conforms_perform_bind.mpr
        ⟨rfl, fun found => ?_, fun _ => trivial⟩
      cases found with
      | none =>
          exact trivial
      | some user =>
          simp only [bind_assoc]
          refine Protocol.conforms_perform_bind.mpr
            ⟨⟨loginData, ip, rfl, .inl rfl⟩, fun session => ?_, fun _ => trivial⟩
          cases session with
          | some session =>
              exact trivial
          | none =>
              simp only [bind_assoc]
              refine Protocol.conforms_perform_bind.mpr
                ⟨⟨loginData, ip, rfl, .inr rfl⟩, fun valid => ?_, fun _ => trivial⟩
              cases valid with
              | false =>
                  exact trivial
              | true =>
                  refine conforms_addRefreshSession rfl fun presented => ?_
                  cases presented
  | refreshTokens refreshToken ip =>
      simp only [authenticationRoutes, AuthenticationService.refreshTokens,
        bind_assoc]
      refine conforms_deleteByTokenAndGet
        (by exact rfl) trivial fun session => ?_
      simp only [AuthenticationService.exchange]
      by_cases sameIp : session.ip = ip
      · rw [if_neg (not_not.mpr sameIp), if_pos (by exact congrArg some sameIp.symm)]
        simp only [bind_assoc]
        refine Protocol.conforms_perform_bind.mpr
          ⟨.inl rfl, fun currentTime => ?_, fun _ => trivial⟩
        split
        · exact trivial
        · exact conforms_addRefreshSession rfl fun _ => rfl
      · rw [if_pos sameIp]
        exact trivial
  | logout refreshToken ip =>
      simp only [authenticationRoutes, AuthenticationService.logout, bind_assoc]
      refine conforms_deleteByTokenAndGet
        (by exact rfl) trivial fun session => ?_
      dsimp only
      by_cases sameIp : session.ip = ip
      · rw [if_neg (not_not.mpr sameIp), if_pos (by exact congrArg some sameIp.symm)]
        exact fun _ => rfl
      · rw [if_pos sameIp]
        exact trivial

end AccessPhase

end Prescott
