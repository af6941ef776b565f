import Mathlib.Data.Fintype.EquivFin
import Prescott.SessionLifetimes

namespace Prescott

/-!
# Expired sessions

A login looks for a session of the user and the address, and does not look at
its age.  Nothing removes a session when it expires, so it keeps its user from
logging in until it is presented or wiped.  The token that a login issues is
accepted until it expires, unless it is wiped before.
-/

/-- The password is the user's, no package rejects, and the clock shows this time. -/
def AuthenticationInput.isCorrect (user : User) (now : Int) :
    AuthenticationOp → AuthenticationInput → Bool
  | .verifyPassword hash _, .verdict valid => valid || hash != user.password
  | _, .time milliseconds => milliseconds == now
  | _, .rejection _ => false
  | _, _ => true

/-- The host at one time, for requests with the password of the user. -/
def correctHost (user : User) (now : Int) :
    Host authenticationSignature AppError
      AuthenticationState AuthenticationInput :=
  fun op input state =>
    if input.isCorrect user now op then authenticationHost op input state else none

section CorrectHost

variable {user : User}
variable {now : Int}
variable {before after : AuthenticationState}

theorem correctHost_eq_some
    {op : AuthenticationOp}
    {input : AuthenticationInput}
    {result : Except AppError op.Result × AuthenticationState} :
    correctHost user now op input before = some result ↔
      input.isCorrect user now op = true ∧
        authenticationHost op input before = some result := by
  unfold correctHost
  split
  · rename_i isCorrect
    simp [isCorrect]
  · rename_i isWrong
    simp [isWrong]

/-- What happens on the correct inputs happens on the host. -/
theorem settles_of_correctHost
    {α : Type}
    {program : AuthenticationProgram α}
    {outcome : Except AppError α}
    (settles : Settles (correctHost user now) program before outcome after) :
    Settles authenticationHost program before outcome after := by
  induction settles with
  | settled outcome state => exact .settled outcome state
  | await answered rest inductionHypothesis =>
      exact .await (correctHost_eq_some.mp answered).2 inductionHypothesis

/-- A statement that does not fail resolves with its answer. -/
theorem fulfils_statement
    {op : AuthenticationOp}
    {value : op.Result}
    {post : op.Result → AuthenticationState → Prop}
    (isStatement : op.isStatement = true)
    (answered :
      authenticationHost op .statement before = some (.ok value, after))
    (holds : post value after) :
    Fulfils (correctHost user now) op.perform before post := by
  have isCorrect : AuthenticationInput.statement.isCorrect user now op = true := by
    cases op <;> rfl
  refine .perform ⟨.statement, _, correctHost_eq_some.mpr ⟨isCorrect, answered⟩⟩ ?_
  intro input answer reached resolved
  obtain ⟨_, resolved⟩ := correctHost_eq_some.mp resolved
  rw [AuthenticationOp.input_of_statement isStatement resolved, answered] at resolved
  cases resolved
  exact ⟨value, rfl, holds⟩

theorem now_fulfils
    {post : Int → AuthenticationState → Prop}
    (holds : post now before) :
    Fulfils (correctHost user now) Prescott.now before post := by
  refine .perform
    ⟨.time now, _, correctHost_eq_some.mpr ⟨beq_self_eq_true now, rfl⟩⟩ ?_
  intro input answer reached resolved
  obtain ⟨isCorrect, answered⟩ := correctHost_eq_some.mp resolved
  cases input <;> cases answered
  obtain rfl := beq_iff_eq.mp isCorrect
  exact ⟨_, rfl, holds⟩

theorem randomUUID_fulfils
    {post : String → AuthenticationState → Prop}
    (holds :
      ∀ value ∉ before.generated,
        post value { before with generated := before.generated ++ [value] }) :
    Fulfils (correctHost user now) randomUUID before post := by
  obtain ⟨fresh, unused⟩ :=
    Infinite.exists_notMem_finset before.generated.toFinset
  rw [List.mem_toFinset] at unused
  refine .perform
    ⟨.text fresh, _, correctHost_eq_some.mpr ⟨rfl, if_neg unused⟩⟩ ?_
  intro input answer reached resolved
  obtain ⟨_, answered⟩ := correctHost_eq_some.mp resolved
  cases input <;> simp only [authenticationHost, reduceCtorEq] at answered
  split at answered
  · cases answered
  · rename_i isNew
    cases answered
    exact ⟨_, rfl, holds _ isNew⟩

theorem sign_fulfils
    {userId : Nat}
    {post : String → AuthenticationState → Prop}
    (holds : ∀ token, post token before) :
    Fulfils (correctHost user now) (JwtService.sign userId) before post := by
  refine .perform
    ⟨.text "", _, correctHost_eq_some.mpr ⟨rfl, rfl⟩⟩ ?_
  intro input answer reached resolved
  obtain ⟨isCorrect, answered⟩ := correctHost_eq_some.mp resolved
  cases input <;> cases answered
  · exact ⟨_, rfl, holds _⟩
  · cases isCorrect

theorem verify_fulfils
    {password : String}
    {post : Bool → AuthenticationState → Prop}
    (holds : post true before) :
    Fulfils (correctHost user now) (PasswordService.verify user.password password) before
      post := by
  refine .perform
    ⟨.verdict true, _, correctHost_eq_some.mpr ⟨rfl, rfl⟩⟩ ?_
  intro input answer reached resolved
  obtain ⟨isCorrect, answered⟩ := correctHost_eq_some.mp resolved
  cases input <;> cases answered
  · obtain rfl : _ = true := by
      simpa [AuthenticationInput.isCorrect] using isCorrect
    exact ⟨_, rfl, holds⟩
  · cases isCorrect

end CorrectHost

namespace AuthenticationService

variable {config : AuthenticationConfig}
variable {user : User}
variable {now : Int}
variable {before : AuthenticationState}

/-- A session of the user and the address that the pair belongs to. -/
def Issued
    (config : AuthenticationConfig)
    (now : Int)
    (userId : Nat)
    (ip : String)
    (pair : TokenPairDto)
    (after : AuthenticationState) :
    Prop :=
  ∃ session ∈ after.sessions.rows,
    session.refreshToken = pair.refreshToken ∧
      session.userId = userId ∧
      session.ip = ip ∧
      session.createdAt = now ∧
      session.expiresIn = config.refreshExpiresIn

theorem wipeOverflow_fulfils
    {userId : Nat}
    {post : Unit → AuthenticationState → Prop}
    (holds : post () { before with sessions := before.madeRoom config userId }) :
    Fulfils (correctHost user now)
      (wipeOverflow config userId
        (before.sessions.table.select fun session => session.userId == userId))
      before post := by
  unfold AuthenticationState.madeRoom at holds
  unfold wipeOverflow
  split
  · rename_i full
    rw [if_pos full] at holds
    exact fulfils_statement rfl rfl holds
  · rename_i room
    rw [if_neg room] at holds
    exact .pure holds

/-- Where the address has no session a pair is issued. -/
theorem addRefreshSession_fulfils
    {userId : Nat}
    {ip : String}
    (wellKept : before.WellKept config)
    (userKnown : before.userExists userId = true)
    (noUserIp :
      ∀ row ∈ before.sessions.rows, ¬ (row.userId = userId ∧ row.ip = ip)) :
    Fulfils (correctHost user now) (addRefreshSession config userId ip) before
      (Issued config now userId ip) := by
  refine .bind (sign_fulfils fun accessToken => ?_)
  refine .bind (randomUUID_fulfils fun refreshToken fresh => ?_)
  refine .bind (fulfils_statement rfl rfl ?_)
  refine .bind (wipeOverflow_fulfils ?_)
  refine .bind (now_fulfils ?_)
  let session : NewRefreshSession :=
    { userId
      refreshToken
      ip
      expiresIn := config.refreshExpiresIn
      createdAt := now }
  obtain ⟨sessions, inserted⟩ :
      ∃ sessions,
        (before.madeRoom config userId).insert session = .ok sessions := by
    apply SessionTable.exists_insert_ok
    · rintro row member rfl
      exact fresh
        (wellKept.issued row (AuthenticationState.mem_of_mem_madeRoom member))
    · intro row member same
      exact noUserIp row (AuthenticationState.mem_of_mem_madeRoom member)
        (Prod.mk.inj same)
  refine .bind (fulfils_statement rfl
    (congrArg some (AuthenticationState.insertSession_ok userKnown inserted)) ?_)
  refine .pure ⟨session.row (before.madeRoom config userId).table.nextId, ?_,
    rfl, rfl, rfl, rfl, rfl⟩
  rw [(SessionTable.insert_ok inserted).1]
  exact List.mem_append_right _ (List.mem_singleton.mpr rfl)

/-- A stored token is accepted from its address until it expires. -/
theorem refreshTokens_fulfils
    {session : RefreshSession}
    (wellKept : before.WellKept config)
    (member : session ∈ before.sessions.rows)
    (valid : now ≤ session.createdAt + session.expiresIn) :
    Fulfils (correctHost user now)
      (refreshTokens config session.refreshToken session.ip) before
      (Issued config now session.userId session.ip) := by
  have found :
      authenticationHost (.findSessionByToken session.refreshToken) .statement
          before =
        some (.ok (some session), before) := by
    have isFirst :
        (before.sessions.table.first fun row =>
          row.refreshToken == session.refreshToken) = some session := by
      cases first : before.sessions.table.first fun row =>
          row.refreshToken == session.refreshToken with
      | none =>
          have other := Table.first_eq_none.mp first session member
          rw [beq_self_eq_true] at other
          cases other
      | some row =>
          obtain ⟨rowMember, matching⟩ := Table.mem_of_first first
          rw [SessionTable.eq_of_refreshToken rowMember member
            (beq_iff_eq.mp matching)]
    rw [authenticationHost, isFirst]
  refine .bind (.bind (fulfils_statement rfl found ?_))
  refine .bind (fulfils_statement rfl rfl ?_)
  refine .pure ?_
  change Fulfils (correctHost user now) (exchange config session.ip session)
    (before.withoutSession session) _
  unfold exchange
  rw [if_neg (not_not_intro rfl)]
  refine .bind (now_fulfils ?_)
  rw [if_neg (Int.not_lt.mpr valid)]
  exact addRefreshSession_fulfils (wellKept.withoutSession session)
    (wellKept.owned session member) (AuthenticationState.noUserIp_withoutSession member)

/-- A login with the right password issues a pair where there is no session. -/
theorem login_fulfils
    {loginData : AuthenticationLoginDto}
    {ip : String}
    (wellKept : before.WellKept config)
    (found : before.users.findByEmailOrLogin loginData.login = some user)
    (noUserIp :
      ∀ row ∈ before.sessions.rows, ¬ (row.userId = user.id ∧ row.ip = ip)) :
    Fulfils (correctHost user now) (login config loginData ip) before
      (Issued config now user.id ip) := by
  have named :
      authenticationHost (.findUserByEmailOrLogin loginData.login) .statement
          before =
        some (.ok (some user), before) := by
    rw [authenticationHost, found]
  have noSession :
      authenticationHost (.findSessionByIp user.id ip) .statement before =
        some (.ok none, before) := by
    have none :
        (before.sessions.table.first fun session =>
          session.userId == user.id && session.ip == ip) = none := by
      refine Table.first_eq_none.mpr fun row member => ?_
      simpa using fun sameUser sameIp =>
        noUserIp row member ⟨sameUser, sameIp⟩
    rw [authenticationHost, none]
  refine .bind (fulfils_statement rfl named ?_)
  refine .bind (fulfils_statement rfl noSession ?_)
  refine .bind (verify_fulfils ?_)
  exact addRefreshSession_fulfils wellKept
    (AuthenticationState.userExists_of_found found) noUserIp

/-- A login is rejected where there is a session, whatever its age. -/
theorem login_rejected
    {loginData : AuthenticationLoginDto}
    {ip : String}
    {session : RefreshSession}
    (found : before.users.findByEmailOrLogin loginData.login = some user)
    (member : session ∈ before.sessions.rows)
    (sameUser : session.userId = user.id)
    (sameIp : session.ip = ip) :
    Settles (correctHost user now) (login config loginData ip) before
      (.error (.accessDenied "Already logged in")) before := by
  have named :
      authenticationHost (.findUserByEmailOrLogin loginData.login) .statement
          before =
        some (.ok (some user), before) := by
    rw [authenticationHost, found]
  have isSome :
      (before.sessions.table.first fun row =>
        row.userId == user.id && row.ip == ip).isSome = true :=
    Table.first_isSome.mpr ⟨session, member, by simp [sameUser, sameIp]⟩
  obtain ⟨row, isFirst⟩ := Option.isSome_iff_exists.mp isSome
  have foundSession :
      authenticationHost (.findSessionByIp user.id ip) .statement before =
        some (.ok (some row), before) := by
    rw [authenticationHost, isFirst]
  refine Settles.bind_iff.mpr (.inl ⟨some user, before, ?_, ?_⟩)
  · exact Settles.perform_iff.mpr
      ⟨.statement, correctHost_eq_some.mpr ⟨rfl, named⟩⟩
  · refine Settles.bind_iff.mpr (.inl ⟨some row, before, ?_, ?_⟩)
    · exact Settles.perform_iff.mpr
        ⟨.statement, correctHost_eq_some.mpr ⟨rfl, foundSession⟩⟩
    · exact Settles.throw_iff.mpr ⟨rfl, rfl⟩

/-- A token that no session has is refused. -/
theorem refreshTokens_rejected
    {refreshToken ip : String}
    (absent : ∀ row ∈ before.sessions.rows, row.refreshToken ≠ refreshToken) :
    Settles (correctHost user now) (refreshTokens config refreshToken ip) before
      (.error (.entityNotFound "Invalid refresh session")) before := by
  have found :
      authenticationHost (.findSessionByToken refreshToken) .statement before =
        some (.ok none, before) := by
    have noRow :
        (before.sessions.table.first fun row => row.refreshToken == refreshToken) = none :=
      Table.first_eq_none.mpr fun row member => beq_eq_false_iff_ne.mpr (absent row member)
    rw [authenticationHost, noRow]
  refine Settles.bind_iff.mpr (.inl ⟨none, before, ?_, Settles.throw_iff.mpr ⟨rfl, rfl⟩⟩)
  refine Settles.bind_iff.mpr (.inl ⟨none, before, ?_, Settles.pure_iff.mpr ⟨rfl, rfl⟩⟩)
  exact Settles.perform_iff.mpr ⟨.statement, correctHost_eq_some.mpr ⟨rfl, found⟩⟩

/-- A login issues its pair to the user that its identifier leads to. -/
theorem found_of_login
    {loginData : AuthenticationLoginDto}
    {ip : String}
    {pair : TokenPairDto}
    {after : AuthenticationState}
    (wellKept : before.WellKept config)
    (member : user ∈ before.users.table.rows)
    (settles :
      Settles (correctHost user now) (login config loginData ip) before (.ok pair) after)
    (issued : Issued config now user.id ip pair after) :
    before.users.findByEmailOrLogin loginData.login = some user := by
  rcases login_settles (settles_of_correctHost settles) with
      ⟨_, _, rejected, _⟩ | ⟨other, found, noUserIp, adds⟩
  · cases rejected
  · rcases wellKept.added (AuthenticationState.userExists_of_found found) noUserIp adds with
        ⟨_, rejected, _⟩ | ⟨_, added, resolved, isOther, sameToken, _, _, _, rows⟩
    · cases rejected
    · cases resolved
      obtain ⟨session, isSession, hasToken, sameUser, _⟩ := issued
      have addedMember : added ∈ after.sessions.rows := by
        rw [rows]
        exact List.mem_append_right _ (List.mem_singleton.mpr rfl)
      have same : session = added :=
        SessionTable.eq_of_refreshToken isSession addedMember
          (hasToken.trans sameToken.symm)
      have sameId : other.id = user.id := by rw [← isOther, ← same, sameUser]
      rw [found, Table.eq_of_key (UserTable.mem_of_findByEmailOrLogin found).1 member sameId]

end AuthenticationService

open AuthenticationService

/-- The token is accepted from the address: it is exchanged for a pair of the user. -/
def AcceptsToken
    (config : AuthenticationConfig)
    (state : AuthenticationState)
    (user : User)
    (now : Int)
    (refreshToken ip : String) :
    Prop :=
  Fulfils (correctHost user now) (refreshTokens config refreshToken ip) state
    (Issued config now user.id ip)

/--
A login with the password of the user issues a pair to the user, and when other
requests have been handled after it, none of which presents the token, the token
is accepted from the address at a time at which it has not expired.
-/
def LogsIn
    (config : AuthenticationConfig)
    (state : AuthenticationState)
    (user : User)
    (now : Int)
    (loginData : AuthenticationLoginDto)
    (ip : String)
    (laterRequests : List SettledRequest)
    (time : Int) :
    Prop :=
  Fulfils (correctHost user now) (login config loginData ip) state fun pair issued =>
    Issued config now user.id ip pair issued ∧
      ∀ later,
        Run (Handled config) issued laterRequests later →
        (∀ request ∈ laterRequests, ¬request.Presents pair.refreshToken) →
        time ≤ now + config.refreshExpiresIn →
        AcceptsToken config later user time pair.refreshToken ip

/--
None of the requests after the login wipes the sessions of the user before the
token is presented or expires.
-/
def SparesSessions
    (config : AuthenticationConfig)
    (state : AuthenticationState)
    (user : User)
    (now : Int)
    (loginData : AuthenticationLoginDto)
    (ip : String)
    (laterRequests : List SettledRequest)
    (time : Int) :
    Prop :=
  ∀ pair issued later,
    Settles (correctHost user now) (login config loginData ip) state (.ok pair) issued →
    Run (Handled config) issued laterRequests later →
    (∀ request ∈ laterRequests, ¬request.Presents pair.refreshToken) →
    time ≤ now + config.refreshExpiresIn →
    Run (HandledSparing config user.id) issued laterRequests later

section

variable {config : AuthenticationConfig}
variable {state issued later : AuthenticationState}
variable {user : User}
variable {now time : Int}
variable {ip : String}
variable {pair : TokenPairDto}
variable {laterRequests : List SettledRequest}

/--
After a login, along requests that do not present its token, the token is
accepted until it expires if and only if none of them wipes the sessions.
-/
theorem acceptsToken_iff
    (atLeastOne : 1 ≤ config.maxSessions)
    (wellKept : issued.WellKept config)
    (isIssued : Issued config now user.id ip pair issued)
    (run : Run (Handled config) issued laterRequests later)
    (notPresented : ∀ request ∈ laterRequests, ¬request.Presents pair.refreshToken)
    (inTime : time ≤ now + config.refreshExpiresIn) :
    AcceptsToken config later user time pair.refreshToken ip ↔
      Run (HandledSparing config user.id) issued laterRequests later := by
  obtain ⟨session, member, sameToken, sameUser, rfl, created, expires⟩ := isIssued
  rw [← sameToken] at notPresented ⊢
  rw [← sameUser, ← wellKept.kept_run_iff atLeastOne member run notPresented]
  obtain ⟨laterKept, grows⟩ := wellKept.of_run atLeastOne run
  constructor
  · intro accepts
    by_contra gone
    have absent
        (row : RefreshSession)
        (rowMember : row ∈ later.sessions.rows) :
        row.refreshToken ≠ session.refreshToken := by
      intro same
      rcases grows.sessions row rowMember with old | fresh
      · rw [SessionTable.eq_of_refreshToken old member same] at rowMember
        exact gone rowMember
      · exact fresh (same ▸ wellKept.issued session member)
    obtain ⟨_, resolved, _⟩ := accepts.resolves _ _ (refreshTokens_rejected absent)
    cases resolved
  · intro stored
    unfold AcceptsToken
    rw [← sameUser]
    exact refreshTokens_fulfils laterKept stored (by rw [created, expires]; exact inTime)

end

/--
After every run of requests and at every time, a login with an identifier and
the password of a user succeeds and gives a token that is accepted until it
expires if and only if the user has no session at the address, be it valid or
expired, the identifier is the login of no other user, and no later request
wipes the sessions of the user.
-/
theorem logsIn_iff
    (config : AuthenticationConfig)
    (atLeastOne : 1 ≤ config.maxSessions)
    (users : UserTable)
    (requests : List SettledRequest)
    (state : AuthenticationState)
    (run : Run (Handled config) (.initial users) requests state)
    (user : User)
    (member : user ∈ state.users.table.rows)
    (loginData : AuthenticationLoginDto)
    (named : user.IsNamed loginData.login)
    (ip : String)
    (now : Int)
    (laterRequests : List SettledRequest)
    (time : Int) :
    LogsIn config state user now loginData ip laterRequests time ↔
      (∀ session ∈ state.sessions.rows, ¬(session.userId = user.id ∧ session.ip = ip)) ∧
        (∀ other ∈ state.users.table.rows, other.login = loginData.login → other = user) ∧
          SparesSessions config state user now loginData ip laterRequests time := by
  have wellKept := wellKept_of_run atLeastOne run
  have stillKept
      {pair : TokenPairDto}
      {issued : AuthenticationState}
      (settles :
        Settles (correctHost user now) (login config loginData ip) state (.ok pair) issued) :
      issued.WellKept config := by
    have handled : Handled config state ⟨.login loginData ip, .ok (.tokens pair)⟩ issued :=
      Settles.bind_pure_iff.mpr ⟨.ok pair, settles_of_correctHost settles, rfl⟩
    exact wellKept_of_run atLeastOne (run.snoc handled)
  rw [← UserTable.findByEmailOrLogin_iff member named]
  constructor
  · intro logsIn
    obtain ⟨outcome, issued, settles⟩ := logsIn.settles
    obtain ⟨pair, rfl, isIssued, _⟩ := logsIn.resolves outcome issued settles
    have found := found_of_login wellKept member settles isIssued
    refine ⟨?_, found, ?_⟩
    · rintro session sessionMember ⟨sameUser, sameIp⟩
      obtain ⟨_, resolved, _⟩ :=
        logsIn.resolves _ _ (login_rejected found sessionMember sameUser sameIp)
      cases resolved
    · intro other reached later others laterRun notPresented inTime
      obtain ⟨_, resolved, isOther, accepts⟩ := logsIn.resolves _ _ others
      cases resolved
      exact (acceptsToken_iff atLeastOne (stillKept others) isOther laterRun notPresented
        inTime).mp (accepts later laterRun notPresented inTime)
  · rintro ⟨noUserIp, found, spares⟩
    have fulfils :
        Fulfils (correctHost user now) (login config loginData ip) state
          (Issued config now user.id ip) :=
      login_fulfils wellKept found noUserIp
    refine ⟨fulfils.settles, fun outcome issued settles => ?_⟩
    obtain ⟨pair, rfl, isIssued⟩ := fulfils.resolves outcome issued settles
    refine ⟨pair, rfl, isIssued, fun later laterRun notPresented inTime => ?_⟩
    exact (acceptsToken_iff atLeastOne (stillKept settles) isIssued laterRun notPresented
      inTime).mpr (spares pair issued later settles laterRun notPresented inTime)

/-- Ada's row. -/
def ada : User :=
  ⟨1, "ada", "Ada", "ada@host", "#"⟩

/-- A registration, and a login of Ada with a wrong password. -/
def requestsOfOthers : List SettledRequest :=
  [⟨.register ⟨"bob", "Bob", "bob@host", "pw"⟩, .ok .done⟩,
    ⟨.login ⟨"ada", "secrte"⟩ "10.0.0.2", .error (.accessDenied "Incorrect password")⟩]

/--
Ada has a session at one address; she logs in from another one, and after other
requests her token is accepted at the last moment.
-/
theorem logsIn_iff_secondAddress :
    ∃ state,
      Run (Handled {}) (.initial (.single ⟨"ada", "Ada", "ada@host", "#"⟩))
          [⟨.login ⟨"ada", "secret"⟩ "10.0.0.1", .ok (.tokens ⟨"jwt", "t1"⟩)⟩] state ∧
        LogsIn {} state ada 5 ⟨"ada@host", "secret"⟩ "10.0.0.2" requestsOfOthers
          5184000005 := by
  have run :=
    Run.single
      (show Handled {} (.initial (.single ⟨"ada", "Ada", "ada@host", "#"⟩))
          ⟨.login ⟨"ada", "secret"⟩ "10.0.0.1",
            .ok (.tokens ⟨"jwt", "t1"⟩)⟩ _
        from Settles.of_runAlone
          [.statement, .statement, .verdict true, .text "jwt", .text "t1",
            .statement, .time 0, .statement]
          rfl)
  have noOverflow
      (request : SettledRequest)
      (member : request ∈ requestsOfOthers)
      (before : AuthenticationState) :
      ¬request.Overflows {} ada.id before := by
    rintro ⟨⟨_, accepted⟩, _, _, _, _, isCall, _⟩
    rcases List.mem_cons.mp member with rfl | isLast
    · cases isCall
    · rw [List.mem_singleton.mp isLast] at accepted
      cases accepted
  refine ⟨_, run, (logsIn_iff {} (by decide) _ _ _ run ada (List.mem_singleton.mpr rfl) _
    (.inr rfl) _ _ _ _).mpr ⟨?_, ?_, ?_⟩⟩
  · rintro session member ⟨_, sameIp⟩
    rw [List.mem_singleton.mp member] at sameIp
    exact absurd sameIp (by decide)
  · intro other member _
    exact List.mem_singleton.mp member
  · exact fun _ _ _ _ laterRun _ _ => laterRun.sparing noOverflow

/-- Ada logs in once; when the session has expired she cannot log in again. -/
theorem expiredSession_locksOut :
    ∃ state,
      Run (Handled {}) (.initial (.single ⟨"ada", "Ada", "ada@host", "#"⟩))
          [⟨.login ⟨"ada", "secret"⟩ "10.0.0.1", .ok (.tokens ⟨"jwt", "t1"⟩)⟩]
          state ∧
        (∀ session ∈ state.sessions.rows,
          session.createdAt + session.expiresIn < 5184000001) ∧
        ¬LogsIn {} state ada 5184000001 ⟨"ada", "secret"⟩ "10.0.0.1" [] 5184000001 := by
  have run :=
    Run.single
      (show Handled {} (.initial (.single ⟨"ada", "Ada", "ada@host", "#"⟩))
          ⟨.login ⟨"ada", "secret"⟩ "10.0.0.1",
            .ok (.tokens ⟨"jwt", "t1"⟩)⟩ _
        from Settles.of_runAlone
          [.statement, .statement, .verdict true, .text "jwt", .text "t1",
            .statement, .time 0, .statement]
          rfl)
  refine ⟨_, run, ?_, ?_⟩
  · intro session member
    obtain rfl := List.mem_singleton.mp member
    decide
  · intro logsIn
    obtain ⟨_, resolved, _⟩ :=
      logsIn.resolves _ _ (login_rejected rfl (List.mem_singleton.mpr rfl) rfl rfl)
    cases resolved

end Prescott
