import Prescott.AccessTokens

namespace Prescott

/-!
# Who is given access

Along every interleaving of authentication requests, the rows and the requests
in progress keep their evidence: a user is a registration, and a session or a
token goes back to a login that presented the registered password.
-/

section Answers

variable {op : AuthenticationOp}
variable {input : AuthenticationInput}
variable {before after : AuthenticationState}
variable {answer : Except AppError op.Result}

/-- Users are added by registrations only. -/
theorem users_of_answered
    (answered : authenticationHost op input before = some (answer, after)) :
    after.users = before.users ∨
      ∃ data, op = .insertUser data ∧ before.users.insert data = .ok after.users := by
  cases op with
  | insertUser data =>
      cases input with
      | statement =>
          simp only [authenticationHost] at answered
          split at answered
          · rename_i users inserted
            cases answered
            exact .inr ⟨data, rfl, inserted⟩
          · cases answered
            exact .inl rfl
      | _ => cases answered
  | insertSession session =>
      cases input with
      | statement =>
          have effect := Option.some.inj answered
          unfold AuthenticationState.insertSession at effect
          split at effect
          · split at effect <;> cases effect <;> exact .inl rfl
          · cases effect
            exact .inl rfl
      | _ => cases answered
  | randomUUID =>
      cases input with
      | text value =>
          simp only [authenticationHost] at answered
          split at answered
          · cases answered
          · cases answered
            exact .inl rfl
      | _ => cases answered
  | _ => cases input <;> cases answered <;> exact .inl rfl

/-- A row of `users` is an old one or the one of the registration. -/
theorem mem_users_of_answered
    (answered : authenticationHost op input before = some (answer, after))
    {user : User}
    (member : user ∈ after.users.table.rows) :
    user ∈ before.users.table.rows ∨
      ∃ data,
        op = .insertUser data ∧ user.login = data.login ∧ user.email = data.email ∧
          user.password = data.password := by
  rcases users_of_answered answered with same | ⟨data, rfl, inserted⟩
  · exact .inl (same ▸ member)
  · unfold UserTable.insert at inserted
    split at inserted
    · split at inserted
      · rw [← Except.ok.inj inserted] at member
        rcases Table.mem_rows_insert.mp member with old | rfl
        · exact .inl old
        · exact .inr ⟨data, rfl, rfl, rfl, rfl⟩
      · cases inserted
    · cases inserted

/-- No user is ever deleted. -/
theorem mem_users_kept
    (answered : authenticationHost op input before = some (answer, after))
    {user : User}
    (member : user ∈ before.users.table.rows) :
    user ∈ after.users.table.rows := by
  rcases users_of_answered answered with same | ⟨data, _, inserted⟩
  · exact same ▸ member
  · exact UserTable.mem_of_insert_ok inserted member

/-- A row of `refresh_sessions` is an old one or the one that is inserted. -/
theorem mem_sessions_of_answered
    (answered : authenticationHost op input before = some (answer, after))
    {session : RefreshSession}
    (member : session ∈ after.sessions.rows) :
    session ∈ before.sessions.rows ∨
      ∃ new id,
        op = .insertSession new ∧ session = new.row id ∧ answer.isOk = true := by
  cases op with
  | insertSession new =>
      cases input with
      | statement =>
          have effect := Option.some.inj answered
          unfold AuthenticationState.insertSession at effect
          split at effect
          · split at effect
            · rename_i sessions inserted
              cases effect
              rw [(SessionTable.insert_ok inserted).1] at member
              rcases List.mem_append.mp member with old | added
              · exact .inl old
              · exact .inr ⟨new, _, rfl, List.mem_singleton.mp added, rfl⟩
            · cases effect
              exact .inl member
          · cases effect
            exact .inl member
      | _ => cases answered
  | insertUser data =>
      cases input with
      | statement =>
          simp only [authenticationHost] at answered
          split at answered <;> cases answered <;> exact .inl member
      | _ => cases answered
  | randomUUID =>
      cases input with
      | text value =>
          simp only [authenticationHost] at answered
          split at answered
          · cases answered
          · cases answered
            exact .inl member
      | _ => cases answered
  | deleteSessionsByUser userId | deleteSessionById id =>
      cases input <;> cases answered
      exact .inl (SessionTable.mem_rows_deleteWhere.mp member).1
  | _ => cases input <;> cases answered <;> exact .inl member

end Answers

/-- The view of concurrent requests that ask for access. -/
abbrev AccessView :=
  accessProtocol.View AuthenticationState

namespace AccessView

/-- The request has begun. -/
def Began (view : AccessView) (call : AuthenticationCall) : Prop :=
  ∃ pid phase, view.progress pid = some ⟨call, phase⟩

/-- The row is the one that a registration request asked for. -/
def Registered
    (packages : CredentialPackages)
    (view : AccessView)
    (user : User) :
    Prop :=
  ∃ registerData salt,
    view.Began (.register registerData) ∧
      user.login = registerData.login ∧ user.email = registerData.email ∧
      user.password = packages.hash salt registerData.password

/--
Somebody has presented the password of the user from the address: the one whose
hash the registration of the user has stored in the row, and which fits it.
-/
def LoggedIn
    (packages : CredentialPackages)
    (view : AccessView)
    (userId : Nat)
    (ip : String) :
    Prop :=
  ∃ user registerData salt loginData,
    user ∈ view.shared.users.table.rows ∧ user.id = userId ∧
      view.Began (.register registerData) ∧
      user.login = registerData.login ∧ user.email = registerData.email ∧
      user.password = packages.hash salt registerData.password ∧
      view.Began (.login loginData ip) ∧ user.IsNamed loginData.login ∧
      packages.verifyHash user.password loginData.password = true ∧
      loginData.password = registerData.password

/-- The request comes from an address from which the user has logged in. -/
def GrantedTo
    (packages : CredentialPackages)
    (view : AccessView)
    (call : AuthenticationCall)
    (userId : Nat) :
    Prop :=
  ∃ ip, call.ip = some ip ∧ view.LoggedIn packages userId ip

/-- What stands behind the phase of a request. -/
def Backs
    (packages : CredentialPackages)
    (view : AccessView)
    (call : AuthenticationCall) :
    AccessPhase → Prop
  | .hashed hash =>
      ∃ registerData salt,
        call = .register registerData ∧ hash = packages.hash salt registerData.password
  | .identified user =>
      user ∈ view.shared.users.table.rows ∧
        ∃ loginData ip, call = .login loginData ip ∧ user.IsNamed loginData.login
  | .selected session => view.LoggedIn packages session.userId session.ip
  | .granted _ userId => view.GrantedTo packages call userId
  | .signed _ userId accessToken | .issuing _ userId accessToken _
  | .issued _ userId accessToken _ =>
      view.GrantedTo packages call userId ∧
        ∃ signedAt, accessToken = packages.sign ⟨userId⟩ signedAt
  | .beginning | .closed => True

/-- Every user, every session and every request has its evidence. -/
structure Accounted (packages : CredentialPackages) (view : AccessView) : Prop where
  users : ∀ user ∈ view.shared.users.table.rows, view.Registered packages user
  sessions :
    ∀ session ∈ view.shared.sessions.rows,
      view.LoggedIn packages session.userId session.ip
  requests :
    ∀ pid call phase,
      view.progress pid = some ⟨call, phase⟩ → view.Backs packages call phase

/-- Requests that have begun and users that are registered remain. -/
structure Extends (before after : AccessView) : Prop where
  began : ∀ call, before.Began call → after.Began call
  users :
    ∀ user ∈ before.shared.users.table.rows, user ∈ after.shared.users.table.rows

section Extends

variable {packages : CredentialPackages}
variable {before after : AccessView}
variable {call : AuthenticationCall}
variable {userId : Nat}
variable {ip : String}

theorem Registered.mono
    {user : User}
    (registered : before.Registered packages user)
    (extends_ : before.Extends after) :
    after.Registered packages user := by
  obtain ⟨registerData, salt, began, fields⟩ := registered
  exact ⟨registerData, salt, extends_.began _ began, fields⟩

theorem LoggedIn.mono
    (loggedIn : before.LoggedIn packages userId ip)
    (extends_ : before.Extends after) :
    after.LoggedIn packages userId ip := by
  obtain ⟨user, registerData, salt, loginData, member, sameId, registered, sameLogin,
    sameEmail, hashed, login, presented⟩ := loggedIn
  exact ⟨user, registerData, salt, loginData, extends_.users _ member, sameId,
    extends_.began _ registered, sameLogin, sameEmail, hashed, extends_.began _ login,
    presented⟩

theorem GrantedTo.mono
    (granted : before.GrantedTo packages call userId)
    (extends_ : before.Extends after) :
    after.GrantedTo packages call userId := by
  obtain ⟨ip, sameIp, loggedIn⟩ := granted
  exact ⟨ip, sameIp, loggedIn.mono extends_⟩

theorem Backs.mono
    {phase : AccessPhase}
    (backs : before.Backs packages call phase)
    (extends_ : before.Extends after) :
    after.Backs packages call phase := by
  cases phase with
  | hashed hash => exact backs
  | identified user => exact ⟨extends_.users _ backs.1, backs.2⟩
  | selected session => exact LoggedIn.mono backs extends_
  | granted origin userId => exact GrantedTo.mono backs extends_
  | signed origin userId accessToken => exact ⟨backs.1.mono extends_, backs.2⟩
  | issuing origin userId accessToken refreshToken =>
      exact ⟨backs.1.mono extends_, backs.2⟩
  | issued origin userId accessToken refreshToken =>
      exact ⟨backs.1.mono extends_, backs.2⟩
  | beginning => trivial
  | closed => trivial

end Extends

/-- A request that begins or goes on is still the same request. -/
theorem Extends.place
    {view : AccessView}
    {pid : Nat}
    {call : AuthenticationCall}
    {phase : AccessPhase}
    {shared : AuthenticationState}
    (sameCall : ∀ progress, view.progress pid = some progress → progress.call = call)
    (users :
      ∀ user ∈ view.shared.users.table.rows, user ∈ shared.users.table.rows) :
    view.Extends (view.place pid ⟨call, phase⟩ shared) where
  began := by
    rintro other ⟨otherPid, otherPhase, present⟩
    by_cases same : otherPid = pid
    · subst same
      refine ⟨otherPid, phase, ?_⟩
      simp only [Protocol.View.place, Function.update_self]
      rw [← sameCall _ present]
    · refine ⟨otherPid, otherPhase, ?_⟩
      simp only [Protocol.View.place, Function.update_of_ne same]
      exact present
  users := users

section Step

variable {packages : CredentialPackages}
variable {view : AccessView}
variable {call : AuthenticationCall}
variable {phase : AccessPhase}
variable {op : AuthenticationOp}
variable {input : AuthenticationInput}
variable {answer : Except AppError op.Result}
variable {shared : AuthenticationState}

/-- A login whose password verifies has presented the registered one. -/
theorem LoggedIn.of_verified
    (sound : packages.Sound)
    (accounted : view.Accounted packages)
    {user : User}
    (member : user ∈ view.shared.users.table.rows)
    {loginData : AuthenticationLoginDto}
    {ip : String}
    (began : view.Began (.login loginData ip))
    (named : user.IsNamed loginData.login)
    (verified : packages.verifyHash user.password loginData.password = true) :
    view.LoggedIn packages user.id ip := by
  obtain ⟨registerData, salt, registered, sameLogin, sameEmail, hashed⟩ :=
    accounted.users user member
  refine ⟨user, registerData, salt, loginData, member, rfl, registered, sameLogin,
    sameEmail, hashed, began, named, verified, ?_⟩
  rw [hashed] at verified
  exact sound.password_eq _ _ _ verified

/-- What an answer leads to is backed by what has been there before. -/
theorem Backs.advance
    (sound : packages.Sound)
    (accounted : view.Accounted packages)
    {pid : Nat}
    (present : view.progress pid = some ⟨call, phase⟩)
    (permitted : phase.permits call op)
    (answered : credentialHost packages op input view.shared = some (answer, shared)) :
    view.Backs packages call (phase.advance call op answer) := by
  have backs := accounted.requests pid call phase present
  have advances := AccessPhase.advances_advance answer permitted
  generalize phase.advance call op answer = next at advances ⊢
  cases advances with
  | closed => trivial
  | stays => exact backs
  | @hashed registerData hash isCall =>
      cases input <;> cases answered
      exact ⟨registerData, _, isCall, rfl⟩
  | @identified loginData ip user isCall =>
      cases input <;> try cases answered
      obtain ⟨found, _⟩ := Prod.mk.inj (Option.some.inj answered)
      obtain ⟨member, named⟩ := UserTable.mem_of_findByEmailOrLogin (Except.ok.inj found)
      exact ⟨member, loginData, ip, isCall, named⟩
  | @selected refreshToken session presents =>
      cases input <;> try cases answered
      obtain ⟨found, _⟩ := Prod.mk.inj (Option.some.inj answered)
      exact accounted.sessions session (Table.mem_of_first (Except.ok.inj found)).1
  | @verified loginData ip user isCall =>
      subst isCall
      obtain ⟨member, _, _, sameCall, named⟩ := backs
      cases sameCall
      cases input <;> try cases answered
      obtain ⟨verdict, _⟩ := Prod.mk.inj (Option.some.inj answered)
      exact ⟨ip, rfl, .of_verified sound accounted member ⟨pid, _, present⟩ named
        (Except.ok.inj verdict)⟩
  | @taken session sameIp => exact ⟨session.ip, sameIp, backs⟩
  | signed =>
      cases input <;> cases answered
      exact ⟨backs, _, rfl⟩
  | drawn => exact backs
  | issued => exact backs

/-- A turn keeps the evidence. -/
theorem Accounted.step
    (sound : packages.Sound)
    {config : AuthenticationConfig}
    {after : AccessView}
    {turn : Turn AuthenticationCall AuthenticationInput}
    (accounted : view.Accounted packages)
    (moved :
      accessProtocol.Moves (credentialService packages config) view turn after) :
    after.Accounted packages := by
  cases moved with
  | @invoke pid call shared fresh begun =>
      cases begun
      have extends_ : view.Extends (view.place pid ⟨call, .beginning⟩ view.shared) :=
        .place (fun progress present => by rw [fresh] at present; cases present)
          fun _ member => member
      refine ⟨fun user member => (accounted.users user member).mono extends_,
        fun session member => (accounted.sessions session member).mono extends_, ?_⟩
      intro other otherCall otherPhase found
      rcases Protocol.View.place_cases found with ⟨_, shape⟩ | ⟨_, earlier⟩
      · cases shape
        exact trivial
      · exact (accounted.requests _ _ _ earlier).mono extends_
  | @resume pid call phase op input answer shared present permitted answered =>
      obtain ⟨_, hostAnswered⟩ := authenticationHost_of_credentialHost answered
      have extends_ :
          view.Extends (view.place pid ⟨call, phase.advance call op answer⟩ shared) :=
        .place (fun progress found => by rw [present] at found; cases found; rfl)
          fun _ member => mem_users_kept hostAnswered member
      have backs := accounted.requests pid call phase present
      refine ⟨?_, ?_, ?_⟩
      · intro user member
        rcases mem_users_of_answered hostAnswered member with
            old | ⟨data, rfl, sameLogin, sameEmail, samePassword⟩
        · exact (accounted.users user old).mono extends_
        · -- a registration inserts the hash that it was given
          cases phase <;> simp [AccessPhase.permits] at permitted
          case beginning => cases call <;> simp at permitted
          case hashed hash =>
            obtain ⟨registerData, rfl, rfl⟩ := permitted
            obtain ⟨_, salt, sameCall, hashed⟩ := backs
            cases sameCall
            exact ⟨registerData, salt, extends_.began _ ⟨pid, _, present⟩, sameLogin,
              sameEmail, samePassword.trans hashed⟩
      · intro session member
        rcases mem_sessions_of_answered hostAnswered member with
            old | ⟨new, id, rfl, rfl, _⟩
        · exact (accounted.sessions session old).mono extends_
        · cases phase <;> simp [AccessPhase.permits] at permitted
          case beginning => cases call <;> simp at permitted
          case issuing =>
            obtain ⟨rfl, _, sameIp⟩ := permitted
            obtain ⟨⟨ip, callIp, loggedIn⟩, _⟩ := backs
            rw [sameIp] at callIp
            cases callIp
            exact loggedIn.mono extends_
      · intro other otherCall otherPhase found
        rcases Protocol.View.place_cases found with ⟨_, shape⟩ | ⟨_, earlier⟩
        · cases shape
          exact (Backs.advance sound accounted present permitted answered).mono extends_
        · exact (accounted.requests _ _ _ earlier).mono extends_

theorem Accounted.initially :
    Accounted packages (.initial accessProtocol (.initial .empty)) where
  users := by
    rintro user ⟨⟩
  sessions := by
    rintro session ⟨⟩
  requests := by
    rintro pid call phase ⟨⟩

end Step

end AccessView

/--
An access token that the server has handed out lets a request through only as
a user whose password, as the registration of this user's row has stored it,
somebody has presented at a login, from the address that the token was handed
out to.
-/
theorem accessToken_vouched
    {packages : CredentialPackages}
    (sound : packages.Sound)
    {config : AuthenticationConfig}
    {turns : List (Turn AuthenticationCall AuthenticationInput)}
    {final : Interleaving AuthenticationState accessProtocol}
    (run :
      Run (Interleaving.Step (credentialService packages config) fun _ _ => True)
        (.initial accessProtocol (.initial .empty)) turns final)
    {pid : Nat}
    {pair : TokenPairDto}
    (replied : final.reply pid = some (.tokens pair))
    {authorization : String}
    (bears : accessTokenOf authorization = pair.accessToken)
    {now : Int}
    {payload : UserPayload}
    (accepted :
      validationHook (packages.verifyToken · now) (some authorization) = .ok payload) :
    ∃ process,
      final.processes pid = some process ∧
        AccessView.GrantedTo packages final.view process.call payload.userId := by
  obtain ⟨moves, conforming⟩ :=
    Interleaving.moves_of_run (AccessPhase.conforms_routes config) run
  have accounted :=
    moves.invariant (AccessView.Accounted packages)
      (fun _ _ _ accounted taken => accounted.step sound taken.2)
      AccessView.Accounted.initially
  obtain ⟨call, phase, present, ⟨userId, shape⟩, _⟩ := conforming.finishes replied
  have backs := accounted.requests pid call phase present
  rw [shape] at backs
  obtain ⟨granted, signedAt, signed⟩ := backs
  have verified := verified_of_validationHook accepted
  rw [bears, signed] at verified
  obtain ⟨process, isProcess, same⟩ := Option.map_eq_some_iff.mp present
  cases same
  rw [sound.payload_eq _ _ _ _ verified]
  exact ⟨process, isProcess, granted⟩

/-- Hashes that show the salt and the password, and tokens that show the user. -/
def plainPackages : CredentialPackages where
  hash salt password :=
    String.ofList (salt.toList.filter (· != '$') ++ '$' :: password.toList)
  verifyHash hash password :=
    hash.toList.dropWhile (· != '$') == '$' :: password.toList
  sign payload _ := String.ofList ("jwt.".toList ++ Nat.toDigits 10 payload.userId)
  verifyToken token _ :=
    if "jwt.".toList.isPrefixOf token.toList then
      .ok ⟨Nat.ofDigitChars 10 (token.toList.drop 4) 0⟩
    else
      .error "invalid token"

theorem plainPackages_sound : plainPackages.Sound where
  password_eq := by
    intro salt password presented verified
    have skipped :
        (salt.toList.filter (· != '$')).dropWhile (· != '$') = [] := by
      simp
    simp only [plainPackages, String.toList_ofList, beq_iff_eq,
      List.dropWhile_append, skipped] at verified
    simpa [← String.toList_inj] using verified.symm
  payload_eq := by
    rintro ⟨userId⟩ signedAt now verified accepted
    simp only [plainPackages, String.toList_ofList] at accepted
    rw [if_pos (by simp)] at accepted
    cases accepted
    simp

/-- A user registers and logs in. -/
def accessTurns : List (Turn AuthenticationCall AuthenticationInput) :=
  [.invoke 0 (.register ⟨"ada", "Ada", "ada@host", "secret"⟩),
    .resume 0 .statement, .resume 0 .statement, .resume 0 (.text "s"),
    .resume 0 .statement, .invoke 1 (.login ⟨"ada@host", "secret"⟩ "10.0.0.1"),
    .resume 1 .statement, .resume 1 .statement, .resume 1 (.verdict true),
    .resume 1 (.time 0), .resume 1 (.text "t1"), .resume 1 .statement,
    .resume 1 (.time 0), .resume 1 .statement]

/-- The token of the login is vouched for by the login. -/
theorem accessToken_vouched_login :
    ∃ final : Interleaving AuthenticationState accessProtocol,
      final.reply 1 = some (.tokens ⟨"jwt.1", "t1"⟩) ∧
        validationHook (plainPackages.verifyToken · 0) (some "Bearer jwt.1") = .ok ⟨1⟩ ∧
        ∃ process,
          final.processes 1 = some process ∧
            AccessView.GrantedTo plainPackages final.view process.call 1 := by
  obtain ⟨final, run, replied⟩ :
      ∃ final,
        Run (Interleaving.Step (credentialService plainPackages {}) fun _ _ => True)
          (.initial accessProtocol (.initial .empty)) accessTurns final ∧
        final.reply 1 = some (.tokens ⟨"jwt.1", "t1"⟩) :=
    ⟨_, Interleaving.run_of_foldlM rfl, rfl⟩
  have accepted :
      validationHook (plainPackages.verifyToken · 0) (some "Bearer jwt.1") = .ok ⟨1⟩ := by
    decide +kernel
  exact ⟨final, replied, accepted,
    accessToken_vouched plainPackages_sound run replied (by decide +kernel) accepted⟩

end Prescott
