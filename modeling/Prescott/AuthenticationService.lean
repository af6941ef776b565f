import Prescott.AsyncInterleaving
import Prescott.Authentication

namespace Prescott

/-!
# The authentication service

The programs of `AuthenticationService` and of the data access objects below
it.  The services in between only forward their calls.
-/

/-- The programs of the authentication plugin. -/
abbrev AuthenticationProgram (α : Type) :=
  Async authenticationSignature AppError α

/-- Await one operation. -/
abbrev AuthenticationOp.perform (op : AuthenticationOp) :
    AuthenticationProgram op.Result :=
  @Async.perform authenticationSignature AppError op

namespace UserDao

/-- `select * from users where email = ?`, the first row. -/
def findByEmail (email : String) :
    AuthenticationProgram (Option User) :=
  AuthenticationOp.perform (.findUserByEmail email)

/-- `select * from users where login = ?`, the first row. -/
def findByLogin (login : String) :
    AuthenticationProgram (Option User) :=
  AuthenticationOp.perform (.findUserByLogin login)

/-- The user with this email or login. -/
def findByEmailOrLogin (criterion : String) :
    AuthenticationProgram (Option User) :=
  AuthenticationOp.perform (.findUserByEmailOrLogin criterion)

/-- Insert a user; the password is the stored hash. -/
def add (user : AuthenticationRegisterDto) :
    AuthenticationProgram Unit :=
  AuthenticationOp.perform (.insertUser user)

end UserDao

namespace RefreshSessionDao

/-- The session of a user at an address. -/
def findByIp (userId : Nat) (ip : String) :
    AuthenticationProgram (Option RefreshSession) :=
  AuthenticationOp.perform (.findSessionByIp userId ip)

/-- All sessions of a user. -/
def findByUser (userId : Nat) :
    AuthenticationProgram (List RefreshSession) :=
  AuthenticationOp.perform (.findSessionsByUser userId)

/-- Delete all sessions of a user. -/
def deleteByUser (userId : Nat) :
    AuthenticationProgram Unit :=
  AuthenticationOp.perform (.deleteSessionsByUser userId)

/-- Delete the session with an identifier. -/
def deleteById (id : Nat) :
    AuthenticationProgram Unit :=
  AuthenticationOp.perform (.deleteSessionById id)

/-- The session with a token. -/
def findByToken (refreshToken : String) :
    AuthenticationProgram (Option RefreshSession) :=
  AuthenticationOp.perform (.findSessionByToken refreshToken)

/-- Two statements: the selected session is deleted by its identifier. -/
def deleteByTokenAndGet (refreshToken : String) :
    AuthenticationProgram (Option RefreshSession) := do
  match ← findByToken refreshToken with
  | none =>
      return none
  | some session =>
      deleteById session.id
      return some session

/-- Insert a session. -/
def add (session : NewRefreshSession) :
    AuthenticationProgram Unit :=
  AuthenticationOp.perform (.insertSession session)

end RefreshSessionDao

namespace PasswordService

/-- `argon2.hash`, with a fresh salt. -/
def hash (password : String) :
    AuthenticationProgram String :=
  AuthenticationOp.perform (.hashPassword password)

/-- `argon2.verify`. -/
def verify (hash password : String) :
    AuthenticationProgram Bool :=
  AuthenticationOp.perform (.verifyPassword hash password)

end PasswordService

/-- `JwtService.sign` on the payload with this `userId`. -/
def JwtService.sign (userId : Nat) :
    AuthenticationProgram String :=
  AuthenticationOp.perform (.signPayload userId)

/-- A fresh identifier, which becomes a refresh token. -/
def randomUUID : AuthenticationProgram String :=
  AuthenticationOp.perform .randomUUID

/-- `Date.now()` and `new Date()`. -/
def now : AuthenticationProgram Int :=
  AuthenticationOp.perform .now

/-- The values of the configuration that the service reads. -/
structure AuthenticationConfig where
  maxSessions : Nat := 5
  refreshExpiresIn : Int := 5184000000
  deriving Repr, DecidableEq

namespace AuthenticationService

/-- Register a user whose email and login are not taken; the password is stored as a hash. -/
def register (registerData : AuthenticationRegisterDto) :
    AuthenticationProgram Unit := do
  match ← UserDao.findByEmail registerData.email with
  | some _ =>
      throw (.entityConflict "Email is already taken")
  | none =>
      match ← UserDao.findByLogin registerData.login with
      | some _ =>
          throw (.entityConflict "Login is already taken")
      | none =>
          let hashedPassword ← PasswordService.hash registerData.password
          UserDao.add { registerData with password := hashedPassword }

/-- The overflow wipe: a full user loses all sessions. -/
def wipeOverflow
    (config : AuthenticationConfig)
    (userId : Nat)
    (sessions : List RefreshSession) :
    AuthenticationProgram Unit :=
  if sessions.length ≥ config.maxSessions then
    RefreshSessionDao.deleteByUser userId
  else
    pure ()

/--
Sign an access token and store a session with a fresh refresh token; too many
sessions are wiped before.
-/
def addRefreshSession
    (config : AuthenticationConfig)
    (userId : Nat)
    (ip : String) :
    AuthenticationProgram TokenPairDto := do
  let accessToken ← JwtService.sign userId
  let refreshToken ← randomUUID
  let sessions ← RefreshSessionDao.findByUser userId
  wipeOverflow config userId sessions
  let createdAt ← now
  RefreshSessionDao.add
    { userId
      refreshToken
      ip
      expiresIn := config.refreshExpiresIn
      createdAt }
  return { accessToken, refreshToken }

/-- Log a user in at an address where it has no session. -/
def login
    (config : AuthenticationConfig)
    (loginData : AuthenticationLoginDto)
    (ip : String) :
    AuthenticationProgram TokenPairDto := do
  match ← UserDao.findByEmailOrLogin loginData.login with
  | none =>
      throw (.accessDenied "Incorrect login")
  | some user =>
      match ← RefreshSessionDao.findByIp user.id ip with
      | some _ =>
          throw (.accessDenied "Already logged in")
      | none =>
          match ← PasswordService.verify user.password
              loginData.password with
          | false =>
              throw (.accessDenied "Incorrect password")
          | true =>
              addRefreshSession config user.id ip

/-- The part of `refreshTokens` after the session is deleted and read. -/
def exchange
    (config : AuthenticationConfig)
    (ip : String)
    (session : RefreshSession) :
    AuthenticationProgram TokenPairDto :=
  if session.ip ≠ ip then
    throw (.entityNotFound "Invalid refresh session")
  else do
    let currentTime ← now
    if session.createdAt + session.expiresIn < currentTime then
      throw (.unauthorizedUser "Token expired")
    else
      addRefreshSession config session.userId ip

/-- Exchange a refresh token for a new pair; the old one is spent in any case. -/
def refreshTokens
    (config : AuthenticationConfig)
    (refreshToken : String)
    (ip : String) :
    AuthenticationProgram TokenPairDto := do
  match ← RefreshSessionDao.deleteByTokenAndGet refreshToken with
  | none =>
      throw (.entityNotFound "Invalid refresh session")
  | some session =>
      exchange config ip session

/-- End the session of a refresh token. -/
def logout
    (refreshToken : String)
    (ip : String) :
    AuthenticationProgram Unit := do
  match ← RefreshSessionDao.deleteByTokenAndGet refreshToken with
  | none =>
      throw (.entityNotFound "Invalid refresh session")
  | some session =>
      if session.ip ≠ ip then
        throw (.entityNotFound "Invalid refresh session")
      else
        pure ()

end AuthenticationService

/-- A request to one of the authentication routes. -/
inductive AuthenticationCall where
  | register (registerData : AuthenticationRegisterDto)
  | login (loginData : AuthenticationLoginDto) (ip : String)
  | refreshTokens (refreshToken ip : String)
  | logout (refreshToken ip : String)
  deriving Repr, DecidableEq

/-- The token a request presents. -/
def AuthenticationCall.presents : AuthenticationCall → Option String
  | .refreshTokens refreshToken _ => some refreshToken
  | .logout refreshToken _ => some refreshToken
  | _ => none

/-- What a route handler sends: a token pair or an empty body. -/
inductive AuthenticationReply where
  | done
  | tokens (pair : TokenPairDto)
  deriving Repr, DecidableEq

/-- The handlers of the authentication routes. -/
def authenticationRoutes (config : AuthenticationConfig) :
    AuthenticationCall → AuthenticationProgram AuthenticationReply
  | .register registerData => do
      AuthenticationService.register registerData
      return .done
  | .login loginData ip => do
      let tokenPair ← AuthenticationService.login config loginData ip
      return .tokens tokenPair
  | .refreshTokens refreshToken ip => do
      let tokenPair ←
        AuthenticationService.refreshTokens config refreshToken ip
      return .tokens tokenPair
  | .logout refreshToken ip => do
      AuthenticationService.logout refreshToken ip
      return .done

/-- Concurrent requests on one database. -/
abbrev authenticationService (config : AuthenticationConfig) :
    Service authenticationSignature AppError AuthenticationState
      AuthenticationInput AuthenticationCall AuthenticationReply where
  body := authenticationRoutes config
  host := authenticationHost

end Prescott
