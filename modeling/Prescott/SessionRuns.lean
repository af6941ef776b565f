import Prescott.AuthenticationEffects
import Prescott.TransitionSystem

namespace Prescott

/-!
# The session table under sequential requests

Requests run to completion one after the other.  The invariant bounds the
sessions of every user and ties the stored tokens to the generated ones; a
token that has been presented is no longer stored, and a generated token is
never stored a second time.
-/

/-- A request to an authentication route with the way it settled. -/
structure SettledRequest where
  call : AuthenticationCall
  outcome : Except AppError AuthenticationReply

namespace SettledRequest

/-- The request failed because of a constraint of the database. -/
def violatesConstraint (request : SettledRequest) : Bool :=
  match request.outcome with
  | .ok _ => false
  | .error reason => reason.isConstraintViolation

/-- The request presents the token. -/
def Presents (request : SettledRequest) (token : String) : Prop :=
  request.call.presents = some token

/-- The request was answered successfully. -/
def Accepted (request : SettledRequest) : Prop :=
  ∃ reply, request.outcome = .ok reply

end SettledRequest

/-- A request runs alone from one state to another. -/
def Handled
    (config : AuthenticationConfig)
    (before : AuthenticationState)
    (request : SettledRequest)
    (after : AuthenticationState) :
    Prop :=
  Settles authenticationHost (authenticationRoutes config request.call)
    before request.outcome after

namespace AuthenticationState

/-- The user that an identifier leads to is there. -/
theorem userExists_of_found
    {state : AuthenticationState}
    {identifier : String}
    {user : User}
    (found : state.users.findByEmailOrLogin identifier = some user) :
    state.userExists user.id = true :=
  userExists_iff.mpr ⟨user, (UserTable.mem_of_findByEmailOrLogin found).1, rfl⟩

/-- The sessions of a user. -/
def sessionsOf (state : AuthenticationState) (userId : Nat) :
    List RefreshSession :=
  state.sessions.table.select fun session => session.userId == userId

/-- The invariant of the session table between requests. -/
structure WellKept
    (config : AuthenticationConfig)
    (state : AuthenticationState) :
    Prop where
  bounded : ∀ userId, (state.sessionsOf userId).length ≤ config.maxSessions
  issued :
    ∀ session ∈ state.sessions.rows, session.refreshToken ∈ state.generated
  owned :
    ∀ session ∈ state.sessions.rows, state.userExists session.userId = true

/-- Generated tokens stay generated, and only new tokens enter the table. -/
structure Grows (before after : AuthenticationState) : Prop where
  generated : ∀ token ∈ before.generated, token ∈ after.generated
  sessions :
    ∀ session ∈ after.sessions.rows,
      session ∈ before.sessions.rows ∨
        session.refreshToken ∉ before.generated

namespace Grows

theorem refl (state : AuthenticationState) : Grows state state where
  generated := fun _ member => member
  sessions := fun _ member => .inl member

theorem trans
    {first middle last : AuthenticationState}
    (earlier : Grows first middle)
    (later : Grows middle last) :
    Grows first last where
  generated := fun token member =>
    later.generated token (earlier.generated token member)
  sessions := by
    intro session member
    rcases later.sessions session member with old | fresh
    · exact earlier.sessions session old
    · exact .inr fun generated =>
        fresh (earlier.generated _ generated)

/-- A generated token that is not stored is never stored again. -/
theorem absent
    {before after : AuthenticationState}
    (grows : Grows before after)
    {token : String}
    (generated : token ∈ before.generated)
    (absent :
      ∀ session ∈ before.sessions.rows, session.refreshToken ≠ token) :
    ∀ session ∈ after.sessions.rows, session.refreshToken ≠ token := by
  intro session member same
  rcases grows.sessions session member with old | fresh
  · exact absent session old same
  · exact fresh (same ▸ generated)

theorem withoutSession
    (state : AuthenticationState)
    (session : RefreshSession) :
    Grows state (state.withoutSession session) where
  generated := fun _ member => member
  sessions := fun _ member =>
    .inl (SessionTable.mem_rows_deleteWhere.mp member).1

end Grows

/-- The deleted session's token is gone from the table. -/
theorem absent_withoutSession
    {state : AuthenticationState}
    {session : RefreshSession}
    (member : session ∈ state.sessions.rows) :
    ∀ row ∈ (state.withoutSession session).sessions.rows,
      row.refreshToken ≠ session.refreshToken := by
  intro row rowMember same
  obtain ⟨old, otherId⟩ := SessionTable.mem_rows_deleteWhere.mp rowMember
  rw [SessionTable.eq_of_refreshToken old member same] at otherId
  simp at otherId

/-- Its user has no session at its address any more. -/
theorem noUserIp_withoutSession
    {state : AuthenticationState}
    {session : RefreshSession}
    (member : session ∈ state.sessions.rows) :
    ∀ row ∈ (state.withoutSession session).sessions.rows,
      ¬(row.userId = session.userId ∧ row.ip = session.ip) := by
  rintro row rowMember ⟨sameUser, sameIp⟩
  obtain ⟨old, otherId⟩ := SessionTable.mem_rows_deleteWhere.mp rowMember
  rw [SessionTable.eq_of_userIp old member sameUser sameIp] at otherId
  simp at otherId

namespace WellKept

variable {config : AuthenticationConfig}
variable {state before after : AuthenticationState}

theorem initially (users : UserTable) :
    WellKept config (.initial users) where
  bounded := fun _ => Nat.zero_le _
  issued := fun _ member => by cases member
  owned := fun _ member => by cases member

/-- Deleting a session keeps the table well kept. -/
theorem withoutSession
    (wellKept : state.WellKept config)
    (session : RefreshSession) :
    (state.withoutSession session).WellKept config where
  bounded := by
    intro userId
    refine Nat.le_trans (List.Sublist.length_le ?_) (wellKept.bounded userId)
    exact List.Sublist.filter _ List.filter_sublist
  issued := fun row member =>
    wellKept.issued row (SessionTable.mem_rows_deleteWhere.mp member).1
  owned := fun row member =>
    wellKept.owned row (SessionTable.mem_rows_deleteWhere.mp member).1

/-- Registering a user keeps the table well kept. -/
theorem withUsers
    (wellKept : state.WellKept config)
    {users : UserTable}
    (kept : ∀ user ∈ state.users.table.rows, user ∈ users.table.rows) :
    WellKept config { state with users } where
  bounded := wellKept.bounded
  issued := wellKept.issued
  owned := by
    intro session member
    obtain ⟨user, userMember, same⟩ :=
      userExists_iff.mp (wellKept.owned session member)
    exact userExists_iff.mpr ⟨user, kept user userMember, same⟩

/-- After the overflow wipe a user has room for one more session. -/
theorem madeRoom_length
    (atLeastOne : 1 ≤ config.maxSessions)
    (userId : Nat) :
    ((state.madeRoom config userId).rows.filter fun session =>
        session.userId == userId).length + 1 ≤ config.maxSessions := by
  unfold madeRoom
  split
  · have empty :
        ((state.sessions.deleteWhere fun session =>
            session.userId == userId).rows.filter fun session =>
          session.userId == userId) = [] := by
      simp [SessionTable.deleteWhere, SessionTable.rows, Table.deleteWhere]
    rw [empty]
    exact atLeastOne
  · rename_i room
    exact Nat.not_le.mp room

/-- The overflow wipe removes no session of another user. -/
theorem madeRoom_length_le
    (userId other : Nat) :
    ((state.madeRoom config userId).rows.filter fun session =>
        session.userId == other).length ≤
      (state.sessionsOf other).length := by
  unfold madeRoom
  split
  · exact (List.Sublist.filter _ List.filter_sublist).length_le
  · exact Nat.le_refl _

/--
Adding a session for an address the user has no session for succeeds, unless
signing fails: a row with a new token comes after those the wipe has left.
-/
theorem added
    (wellKept : before.WellKept config)
    {userId : Nat}
    {ip : String}
    (userKnown : before.userExists userId = true)
    (noUserIp :
      ∀ row ∈ before.sessions.rows, ¬ (row.userId = userId ∧ row.ip = ip))
    {outcome : Except AppError TokenPairDto}
    (settles :
      Settles authenticationHost
        (AuthenticationService.addRefreshSession config userId ip)
        before outcome after) :
    (∃ message, outcome = .error (.failure message) ∧ after = before) ∨
    ∃ pair session,
      outcome = .ok pair ∧
        session.userId = userId ∧
        session.refreshToken = pair.refreshToken ∧
        pair.refreshToken ∉ before.generated ∧
        after.users = before.users ∧
        after.generated = before.generated ++ [pair.refreshToken] ∧
        after.sessions.rows = (before.madeRoom config userId).rows ++ [session] := by
  rcases AuthenticationService.addRefreshSession_settles settles with
      failed | ⟨accessToken, refreshToken, createdAt, inserted, fresh, added, rfl⟩
  · exact .inl failed
  · obtain ⟨sessions, succeeded⟩ :
        ∃ sessions,
          (before.madeRoom config userId).insert
            { userId
              refreshToken
              ip
              expiresIn := config.refreshExpiresIn
              createdAt } = .ok sessions := by
      apply SessionTable.exists_insert_ok
      · intro row member same
        have old := mem_of_mem_madeRoom member
        have sameToken : row.refreshToken = refreshToken := same
        exact fresh (sameToken ▸ wellKept.issued row old)
      · intro row member same
        have old := mem_of_mem_madeRoom member
        exact noUserIp row old (Prod.mk.inj same)
    cases added.symm.trans (insertSession_ok userKnown succeeded)
    obtain ⟨rows, _, _⟩ := SessionTable.insert_ok succeeded
    exact .inr ⟨_, _, rfl, rfl, rfl, fresh, rfl, rfl, rows⟩

/-- So it keeps the table well kept. -/
theorem addRefreshSession
    (wellKept : before.WellKept config)
    (atLeastOne : 1 ≤ config.maxSessions)
    {userId : Nat}
    {ip : String}
    (userKnown : before.userExists userId = true)
    (noUserIp :
      ∀ row ∈ before.sessions.rows, ¬ (row.userId = userId ∧ row.ip = ip))
    {outcome : Except AppError TokenPairDto}
    (settles :
      Settles authenticationHost
        (AuthenticationService.addRefreshSession config userId ip)
        before outcome after) :
    after.WellKept config ∧
      Grows before after ∧
      ∀ reason,
        outcome = .error reason → reason.isConstraintViolation = false := by
  rcases wellKept.added userKnown noUserIp settles with
      ⟨message, rfl, rfl⟩ |
      ⟨pair, session, rfl, rfl, sameToken, fresh, sameUsers, generated, rows⟩
  · refine ⟨wellKept, .refl _, ?_⟩
    rintro reason ⟨⟩
    rfl
  · refine ⟨⟨?_, ?_, ?_⟩, ⟨?_, ?_⟩, ?_⟩
    · intro other
      change (after.sessions.rows.filter _).length ≤ _
      rw [rows, List.filter_append, List.length_append]
      by_cases same : session.userId = other
      · subst same
        simpa using madeRoom_length atLeastOne session.userId
      · have kept :=
          Nat.le_trans (@madeRoom_length_le config _ session.userId other)
            (wellKept.bounded other)
        simpa [same] using kept
    · intro row member
      rw [rows] at member
      rw [generated]
      rcases List.mem_append.mp member with old | new
      · exact List.mem_append_left _
          (wellKept.issued row (mem_of_mem_madeRoom old))
      · rw [List.mem_singleton.mp new, sameToken]
        exact List.mem_append_right _ (List.mem_singleton.mpr rfl)
    · intro row member
      rw [rows] at member
      unfold userExists
      rw [sameUsers]
      rcases List.mem_append.mp member with old | new
      · exact wellKept.owned row (mem_of_mem_madeRoom old)
      · rw [List.mem_singleton.mp new]
        exact userKnown
    · intro token member
      rw [generated]
      exact List.mem_append_left _ member
    · intro row member
      rw [rows] at member
      rcases List.mem_append.mp member with old | new
      · exact .inl (mem_of_mem_madeRoom old)
      · rw [List.mem_singleton.mp new, sameToken]
        exact .inr fresh
    · rintro reason ⟨⟩

end WellKept

/-- What a request does to a well-kept session table. -/
structure Outcome
    (config : AuthenticationConfig)
    (before : AuthenticationState)
    (request : SettledRequest)
    (after : AuthenticationState) :
    Prop where
  wellKept : after.WellKept config
  grows : Grows before after
  noViolation : request.violatesConstraint = false
  spent :
    ∀ token,
      request.Presents token →
      ∀ session ∈ after.sessions.rows, session.refreshToken ≠ token
  backed :
    ∀ token,
      request.Presents token →
      request.Accepted →
      ∃ session ∈ before.sessions.rows, session.refreshToken = token

namespace Outcome

variable {config : AuthenticationConfig}
variable {before after : AuthenticationState}

/-- A request that presents no token. -/
theorem of_no_token
    {call : AuthenticationCall}
    (noToken : call.presents = none)
    {outcome : Except AppError AuthenticationReply}
    (wellKept : after.WellKept config)
    (grows : Grows before after)
    (noViolation :
      SettledRequest.violatesConstraint ⟨call, outcome⟩ = false) :
    Outcome config before ⟨call, outcome⟩ after where
  wellKept := wellKept
  grows := grows
  noViolation := noViolation
  spent := fun token presents => by
    have shape : call.presents = some token := presents
    rw [noToken] at shape
    cases shape
  backed := fun token presents => by
    have shape : call.presents = some token := presents
    rw [noToken] at shape
    cases shape

/-- A request that presents a token no session has. -/
theorem of_unknown_token
    {call : AuthenticationCall}
    {token : String}
    (presents : call.presents = some token)
    {reason : AppError}
    (noViolation : reason.isConstraintViolation = false)
    (wellKept : before.WellKept config)
    (absent :
      ∀ row ∈ before.sessions.rows, row.refreshToken ≠ token) :
    Outcome config before ⟨call, .error reason⟩ before where
  wellKept := wellKept
  grows := .refl _
  noViolation := noViolation
  spent := fun other presentsOther => by
    cases presents.symm.trans presentsOther
    exact absent
  backed := fun _ _ ⟨_, accepted⟩ => by cases accepted

/-- A request that presents the token of a session, which it deletes. -/
theorem of_taken_session
    {call : AuthenticationCall}
    {outcome : Except AppError AuthenticationReply}
    {session : RefreshSession}
    (member : session ∈ before.sessions.rows)
    (presents : call.presents = some session.refreshToken)
    (issued : session.refreshToken ∈ before.generated)
    (wellKept : after.WellKept config)
    (grows : Grows (before.withoutSession session) after)
    (noViolation :
      SettledRequest.violatesConstraint ⟨call, outcome⟩ = false) :
    Outcome config before ⟨call, outcome⟩ after where
  wellKept := wellKept
  grows := (Grows.withoutSession before session).trans grows
  noViolation := noViolation
  spent := fun other presentsOther => by
    cases presents.symm.trans presentsOther
    exact grows.absent issued (absent_withoutSession member)
  backed := fun other presentsOther _ => by
    cases presents.symm.trans presentsOther
    exact ⟨session, member, rfl⟩

theorem register
    (wellKept : before.WellKept config)
    {registerData : AuthenticationRegisterDto}
    {outcome : Except AppError AuthenticationReply}
    (handled :
      Handled config before ⟨.register registerData, outcome⟩ after) :
    Outcome config before ⟨.register registerData, outcome⟩ after := by
  obtain ⟨result, settles, shape⟩ := Settles.bind_pure_iff.mp handled
  cases shape
  rcases AuthenticationService.register_settles settles with
      ⟨reason, noViolation, rfl, rfl⟩ |
      ⟨password, users, inserted, rfl, rfl⟩
  · exact of_no_token rfl wellKept (.refl _) noViolation
  · exact of_no_token rfl
      (wellKept.withUsers fun user member =>
        UserTable.mem_of_insert_ok inserted member)
      ⟨fun _ member => member, fun _ member => .inl member⟩
      rfl

theorem login
    (wellKept : before.WellKept config)
    (atLeastOne : 1 ≤ config.maxSessions)
    {loginData : AuthenticationLoginDto}
    {ip : String}
    {outcome : Except AppError AuthenticationReply}
    (handled :
      Handled config before ⟨.login loginData ip, outcome⟩ after) :
    Outcome config before ⟨.login loginData ip, outcome⟩ after := by
  obtain ⟨result, settles, shape⟩ := Settles.bind_pure_iff.mp handled
  cases shape
  rcases AuthenticationService.login_settles settles with
      ⟨reason, noViolation, rfl, rfl⟩ | ⟨user, found, noUserIp, adds⟩
  · exact of_no_token rfl wellKept (.refl _) noViolation
  · obtain ⟨stillKept, grows, noViolation⟩ :=
      wellKept.addRefreshSession atLeastOne
        (userExists_of_found found) noUserIp adds
    refine of_no_token rfl stillKept grows ?_
    cases result with
    | ok pair =>
        rfl
    | error reason =>
        exact noViolation reason rfl

theorem refreshTokens
    (wellKept : before.WellKept config)
    (atLeastOne : 1 ≤ config.maxSessions)
    {refreshToken ip : String}
    {outcome : Except AppError AuthenticationReply}
    (handled :
      Handled config before ⟨.refreshTokens refreshToken ip, outcome⟩
        after) :
    Outcome config before ⟨.refreshTokens refreshToken ip, outcome⟩
      after := by
  obtain ⟨result, settles, shape⟩ := Settles.bind_pure_iff.mp handled
  cases shape
  rcases AuthenticationService.refreshTokens_settles settles with
      ⟨reason, noViolation, rfl, rfl, absent⟩ |
      ⟨session, member, rfl,
        ⟨reason, noViolation, rfl, rfl⟩ | ⟨sameIp, adds⟩⟩
  · exact of_unknown_token rfl noViolation wellKept absent
  · exact of_taken_session member rfl (wellKept.issued session member)
      (wellKept.withoutSession session) (.refl _) noViolation
  · subst sameIp
    obtain ⟨stillKept, grows, noViolation⟩ :=
      (wellKept.withoutSession session).addRefreshSession atLeastOne
        (wellKept.owned session member) (noUserIp_withoutSession member) adds
    refine of_taken_session member rfl (wellKept.issued session member)
      stillKept grows ?_
    cases result with
    | ok pair =>
        rfl
    | error reason =>
        exact noViolation reason rfl

theorem logout
    (wellKept : before.WellKept config)
    {refreshToken ip : String}
    {outcome : Except AppError AuthenticationReply}
    (handled :
      Handled config before ⟨.logout refreshToken ip, outcome⟩ after) :
    Outcome config before ⟨.logout refreshToken ip, outcome⟩ after := by
  obtain ⟨result, settles, shape⟩ := Settles.bind_pure_iff.mp handled
  cases shape
  rcases AuthenticationService.logout_settles settles with
      ⟨reason, noViolation, rfl, rfl, absent⟩ |
      ⟨session, member, rfl, rfl, rfl | ⟨reason, noViolation, rfl⟩⟩
  · exact of_unknown_token rfl noViolation wellKept absent
  · exact of_taken_session member rfl (wellKept.issued session member)
      (wellKept.withoutSession session) (.refl _) rfl
  · exact of_taken_session member rfl (wellKept.issued session member)
      (wellKept.withoutSession session) (.refl _) noViolation

/-- Every request keeps the session table well kept. -/
theorem of_handled
    (wellKept : before.WellKept config)
    (atLeastOne : 1 ≤ config.maxSessions)
    {request : SettledRequest}
    (handled : Handled config before request after) :
    Outcome config before request after := by
  obtain ⟨call, outcome⟩ := request
  cases call with
  | register registerData =>
      exact register wellKept handled
  | login loginData ip =>
      exact login wellKept atLeastOne handled
  | refreshTokens refreshToken ip =>
      exact refreshTokens wellKept atLeastOne handled
  | logout refreshToken ip =>
      exact logout wellKept handled

end Outcome

end AuthenticationState

open AuthenticationState

/-- A run from a well-kept table keeps it well kept, and only new tokens enter it. -/
theorem AuthenticationState.WellKept.of_run
    {config : AuthenticationConfig}
    (atLeastOne : 1 ≤ config.maxSessions)
    {middle final : AuthenticationState}
    (wellKept : middle.WellKept config)
    {requests : List SettledRequest}
    (run : Run (Handled config) middle requests final) :
    final.WellKept config ∧ Grows middle final := by
  refine run.invariant (fun state => state.WellKept config ∧ Grows middle state) ?_
    ⟨wellKept, .refl _⟩
  rintro _ _ _ ⟨kept, grows⟩ handled
  have outcome := Outcome.of_handled kept atLeastOne handled
  exact ⟨outcome.wellKept, grows.trans outcome.grows⟩

/-- The states between requests are well kept. -/
theorem wellKept_of_run
    {config : AuthenticationConfig}
    (atLeastOne : 1 ≤ config.maxSessions)
    {users : UserTable}
    {requests : List SettledRequest}
    {final : AuthenticationState}
    (run : Run (Handled config) (.initial users) requests final) :
    final.WellKept config :=
  ((WellKept.initially users).of_run atLeastOne run).1

/-- No request of a run fails because of a constraint of the database. -/
theorem noViolation_of_run
    {config : AuthenticationConfig}
    (atLeastOne : 1 ≤ config.maxSessions)
    {users : UserTable}
    {requests : List SettledRequest}
    {final : AuthenticationState}
    (run : Run (Handled config) (.initial users) requests final) :
    ∀ request ∈ requests, request.violatesConstraint = false := by
  induction run with
  | nil =>
      intro request member
      cases member
  | snoc earlier last inductionHypothesis =>
      intro request member
      rcases List.mem_append.mp member with inEarlier | isLast
      · exact inductionHypothesis request inEarlier
      · rw [List.mem_singleton.mp isLast]
        exact (Outcome.of_handled
          (wellKept_of_run atLeastOne earlier) atLeastOne last).noViolation

/--
From a state in which a generated token belongs to no session, no request that
presents it is accepted.
-/
theorem not_accepted_of_absent
    {config : AuthenticationConfig}
    (atLeastOne : 1 ≤ config.maxSessions)
    {middle final : AuthenticationState}
    (wellKept : middle.WellKept config)
    {token : String}
    (generated : token ∈ middle.generated)
    (absent :
      ∀ session ∈ middle.sessions.rows, session.refreshToken ≠ token)
    {requests : List SettledRequest}
    (run : Run (Handled config) middle requests final) :
    ∀ request ∈ requests, request.Presents token → ¬ request.Accepted := by
  induction run with
  | nil =>
      exact fun _ member => by cases member
  | snoc earlier last inductionHypothesis =>
      obtain ⟨kept, grows⟩ := wellKept.of_run atLeastOne earlier
      intro request member presents accepted
      rcases List.mem_append.mp member with inEarlier | isLast
      · exact inductionHypothesis request inEarlier presents accepted
      · rw [List.mem_singleton.mp isLast] at presents accepted
        obtain ⟨session, sessionMember, hasToken⟩ :=
          (Outcome.of_handled kept atLeastOne last).backed token presents accepted
        exact grows.absent generated absent session sessionMember hasToken

/--
The session table under any sequence of sequential requests: at most
`maxSessions` rows for a user and one for a user and an address, distinct
tokens, no insert that violates a constraint, and a token that had been
generated when it was presented is never accepted again.
-/
theorem sessionTable_wellKept
    (config : AuthenticationConfig)
    (atLeastOne : 1 ≤ config.maxSessions)
    (users : UserTable)
    (requests : List SettledRequest)
    (final : AuthenticationState)
    (run : Run (Handled config) (.initial users) requests final) :
    (∀ userId, (final.sessionsOf userId).length ≤ config.maxSessions) ∧
      (∀ left ∈ final.sessions.rows, ∀ right ∈ final.sessions.rows,
        left.userId = right.userId → left.ip = right.ip → left = right) ∧
      (final.sessions.rows.map RefreshSession.refreshToken).Nodup ∧
      (∀ request ∈ requests, request.violatesConstraint = false) ∧
      ∀ leading presented trailing before middle,
        Run (Handled config) (.initial users) leading before →
        Handled config before presented middle →
        Run (Handled config) middle trailing final →
        ∀ token,
          presented.Presents token →
          token ∈ middle.generated →
          ∀ request ∈ trailing,
            request.Presents token → ¬ request.Accepted := by
  have wellKept := wellKept_of_run atLeastOne run
  refine ⟨wellKept.bounded, ?_, final.sessions.tokensNodup,
    noViolation_of_run atLeastOne run, ?_⟩
  · intro left leftMember right rightMember sameUser sameIp
    exact SessionTable.eq_of_userIp leftMember rightMember sameUser sameIp
  · intro leading presented trailing before middle earlier handled later
      token presents generated
    have outcome :=
      Outcome.of_handled (wellKept_of_run atLeastOne earlier) atLeastOne
        handled
    exact not_accepted_of_absent atLeastOne outcome.wellKept generated
      (outcome.spent token presents) later

/-- A user logs in, refreshes the tokens and presents the old one again. -/
theorem sessionTable_wellKept_replay :
    ∃ final,
      Run (Handled {}) (.initial (.single ⟨"ada", "Ada", "ada@host", "#"⟩))
        [⟨.login ⟨"ada", "secret"⟩ "10.0.0.1", .ok (.tokens ⟨"jwt", "t1"⟩)⟩,
          ⟨.refreshTokens "t1" "10.0.0.1", .ok (.tokens ⟨"jwt", "t2"⟩)⟩,
          ⟨.refreshTokens "t1" "10.0.0.1",
            .error (.entityNotFound "Invalid refresh session")⟩]
        final ∧
      final.sessions.rows.map RefreshSession.refreshToken = ["t2"] ∧
      (final.sessionsOf 1).length ≤ 5 := by
  have run :=
    Run.snoc (Run.snoc (Run.single
      (show Handled {} (.initial (.single ⟨"ada", "Ada", "ada@host", "#"⟩))
          ⟨.login ⟨"ada", "secret"⟩ "10.0.0.1",
            .ok (.tokens ⟨"jwt", "t1"⟩)⟩ _
        from Settles.of_runAlone
          [.statement, .statement, .verdict true, .text "jwt", .text "t1",
            .statement, .time 0, .statement]
          rfl))
      (show Handled {} _
          ⟨.refreshTokens "t1" "10.0.0.1",
            .ok (.tokens ⟨"jwt", "t2"⟩)⟩ _
        from Settles.of_runAlone
          [.statement, .statement, .time 1, .text "jwt", .text "t2",
            .statement, .time 1, .statement]
          rfl))
      (show Handled {} _
          ⟨.refreshTokens "t1" "10.0.0.1",
            .error (.entityNotFound "Invalid refresh session")⟩ _
        from Settles.of_runAlone [.statement] rfl)
  exact ⟨_, run, rfl,
    (sessionTable_wellKept {} (by decide) _ _ _ run).1 1⟩

end Prescott
