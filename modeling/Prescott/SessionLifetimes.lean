import Prescott.SessionRuns

namespace Prescott

/-!
# How long a session is kept

Requests of others leave a session alone.  Besides the request that presents its
token, only the overflow wipe removes it: a login of its user, from any address,
that finds `maxSessions` sessions.
-/

namespace SettledRequest

/-- An accepted login of a user whose sessions are at their limit. -/
def Overflows
    (config : AuthenticationConfig)
    (userId : Nat)
    (before : AuthenticationState)
    (request : SettledRequest) :
    Prop :=
  request.Accepted ∧
    config.maxSessions ≤ (before.sessionsOf userId).length ∧
      ∃ loginData ip user,
        request.call = .login loginData ip ∧
          before.users.findByEmailOrLogin loginData.login = some user ∧
            user.id = userId

end SettledRequest

/-- A request that does not wipe the sessions of the user. -/
def HandledSparing
    (config : AuthenticationConfig)
    (userId : Nat)
    (before : AuthenticationState)
    (request : SettledRequest)
    (after : AuthenticationState) :
    Prop :=
  Handled config before request after ∧ ¬request.Overflows config userId before

/-- Requests that are no such logins are handled without a wipe. -/
theorem Run.sparing
    {config : AuthenticationConfig}
    {userId : Nat}
    {before after : AuthenticationState}
    {requests : List SettledRequest}
    (run : Run (Handled config) before requests after)
    (noOverflow :
      ∀ request ∈ requests, ∀ state, ¬request.Overflows config userId state) :
    Run (HandledSparing config userId) before requests after := by
  induction run with
  | nil => exact .nil
  | snoc earlier handled inductionHypothesis =>
      refine .snoc (inductionHypothesis fun request early =>
        noOverflow request (List.mem_append_left _ early)) ⟨handled, ?_⟩
      exact noOverflow _ (List.mem_append_right _ (List.mem_singleton.mpr rfl)) _

namespace AuthenticationState

variable {config : AuthenticationConfig}
variable {before after : AuthenticationState}
variable {session taken : RefreshSession}
variable {userId : Nat}

/-- What the wipe leaves of the sessions of all users. -/
theorem mem_madeRoom_iff
    (member : session ∈ before.sessions.rows) :
    session ∈ (before.madeRoom config userId).rows ↔
      ¬(config.maxSessions ≤ (before.sessionsOf userId).length ∧ session.userId = userId) := by
  unfold madeRoom
  split
  · rename_i full
    have isFull : config.maxSessions ≤ (before.sessionsOf userId).length := full
    simp [member, isFull]
  · rename_i room
    have hasRoom : ¬config.maxSessions ≤ (before.sessionsOf userId).length := room
    exact iff_of_true member fun isFull => hasRoom isFull.1

/-- Another session is still there when one has been taken. -/
theorem mem_withoutSession
    (member : session ∈ before.sessions.rows)
    (takenMember : taken ∈ before.sessions.rows)
    (isOther : session.refreshToken ≠ taken.refreshToken) :
    session ∈ (before.withoutSession taken).sessions.rows := by
  refine SessionTable.mem_rows_deleteWhere.mpr ⟨member, ?_⟩
  rw [beq_eq_false_iff_ne]
  intro sameId
  exact isOther (congrArg RefreshSession.refreshToken
    (Table.eq_of_key member takenMember sameId))

/-- When one of his sessions has been taken, a user has room for another one. -/
theorem WellKept.room_of_taken
    (wellKept : before.WellKept config)
    (takenMember : taken ∈ before.sessions.rows) :
    ¬config.maxSessions ≤ ((before.withoutSession taken).sessionsOf taken.userId).length := by
  have shorter :
      ((before.withoutSession taken).sessionsOf taken.userId).length <
        (before.sessionsOf taken.userId).length := by
    have fewer :
        ((before.sessionsOf taken.userId).filter fun row => !(row.id == taken.id)).length <
          (before.sessionsOf taken.userId).length := by
      refine List.length_filter_lt_length_iff_exists.mpr ⟨taken, ?_, by simp⟩
      exact Table.mem_select.mpr ⟨takenMember, beq_self_eq_true _⟩
    refine lt_of_eq_of_lt (congrArg List.length ?_) fewer
    change List.filter _ (List.filter _ before.sessions.table.rows) =
      List.filter _ (List.filter _ before.sessions.table.rows)
    rw [List.filter_filter, List.filter_filter]
    exact List.filter_congr fun row _ => Bool.and_comm ..
  exact Nat.not_le_of_lt (Nat.lt_of_lt_of_le shorter (wellKept.bounded taken.userId))

/-- A session is among the rows that an addition has left, unless it is wiped. -/
theorem mem_added_iff
    {rows : List RefreshSession}
    {added : RefreshSession}
    (wellKept : before.WellKept config)
    (member : session ∈ before.sessions.rows)
    (fresh : added.refreshToken ∉ before.generated)
    (isRows : rows = (before.madeRoom config userId).rows ++ [added]) :
    session ∈ rows ↔
      ¬(config.maxSessions ≤ (before.sessionsOf userId).length ∧ session.userId = userId) := by
  rw [← mem_madeRoom_iff member, isRows, List.mem_append]
  refine or_iff_left fun isNew => fresh ?_
  rw [← List.mem_singleton.mp isNew]
  exact wellKept.issued session member

/-- A login keeps the sessions of all users but those of a user whose sessions it wipes. -/
theorem WellKept.kept_login_iff
    (wellKept : before.WellKept config)
    (member : session ∈ before.sessions.rows)
    {loginData : AuthenticationLoginDto}
    {ip : String}
    {outcome : Except AppError AuthenticationReply}
    (handled : Handled config before ⟨.login loginData ip, outcome⟩ after) :
    session ∈ after.sessions.rows ↔
      ¬SettledRequest.Overflows config session.userId before
        ⟨.login loginData ip, outcome⟩ := by
  obtain ⟨result, settles, shape⟩ := Settles.bind_pure_iff.mp handled
  cases shape
  have refused
      {reason : AppError}
      (accepted : SettledRequest.Accepted ⟨.login loginData ip, .error reason⟩) :
      False := by
    obtain ⟨_, ⟨⟩⟩ := accepted
  rcases AuthenticationService.login_settles settles with
      ⟨reason, _, rfl, rfl⟩ | ⟨user, found, noUserIp, adds⟩
  · exact iff_of_true member fun overflows => refused overflows.1
  · rcases wellKept.added (userExists_of_found found) noUserIp adds with
        ⟨message, rfl, rfl⟩ | ⟨pair, added, rfl, _, sameToken, fresh, _, _, rows⟩
    · exact iff_of_true member fun overflows => refused overflows.1
    · rw [mem_added_iff wellKept member (sameToken ▸ fresh) rows]
      refine not_congr ⟨?_, ?_⟩
      · rintro ⟨full, sameUser⟩
        exact ⟨⟨_, rfl⟩, sameUser ▸ full, loginData, ip, user, rfl, found, sameUser.symm⟩
      · rintro ⟨_, full, _, _, other, ⟨⟩, foundOther, sameUser⟩
        obtain rfl := Option.some.inj (found.symm.trans foundOther)
        exact ⟨sameUser ▸ full, sameUser.symm⟩

/-- A refresh of another session has room for its row and wipes nothing. -/
theorem WellKept.kept_refreshTokens
    (wellKept : before.WellKept config)
    (member : session ∈ before.sessions.rows)
    {refreshToken ip : String}
    (isOther : session.refreshToken ≠ refreshToken)
    {outcome : Except AppError AuthenticationReply}
    (handled : Handled config before ⟨.refreshTokens refreshToken ip, outcome⟩ after) :
    session ∈ after.sessions.rows := by
  obtain ⟨result, settles, _⟩ := Settles.bind_pure_iff.mp handled
  rcases AuthenticationService.refreshTokens_settles settles with
      ⟨_, _, _, rfl, _⟩ | ⟨taken, takenMember, rfl, ⟨_, _, _, rfl⟩ | ⟨rfl, adds⟩⟩
  · exact member
  · exact mem_withoutSession member takenMember isOther
  · have left := mem_withoutSession member takenMember isOther
    have stillKept := wellKept.withoutSession taken
    rcases stillKept.added (wellKept.owned taken takenMember)
        (noUserIp_withoutSession takenMember) adds with
        ⟨_, _, rfl⟩ | ⟨_, added, _, _, sameToken, fresh, _, _, rows⟩
    · exact left
    · rw [mem_added_iff stillKept left (sameToken ▸ fresh) rows]
      exact fun full => wellKept.room_of_taken takenMember full.1

/--
A session whose token a request does not present is kept, unless the request is
a login that wipes the sessions of its user.
-/
theorem WellKept.kept_iff
    (wellKept : before.WellKept config)
    (member : session ∈ before.sessions.rows)
    {request : SettledRequest}
    (notPresented : ¬request.Presents session.refreshToken)
    (handled : Handled config before request after) :
    session ∈ after.sessions.rows ↔ ¬request.Overflows config session.userId before := by
  obtain ⟨call, outcome⟩ := request
  have spared
      (noLogin : ∀ loginData ip, call ≠ .login loginData ip) :
      ¬SettledRequest.Overflows config session.userId before ⟨call, outcome⟩ :=
    fun ⟨_, _, loginData, ip, _, isCall, _⟩ => noLogin loginData ip isCall
  cases call with
  | register registerData =>
      refine iff_of_true ?_ (spared nofun)
      obtain ⟨result, settles, _⟩ := Settles.bind_pure_iff.mp handled
      rcases AuthenticationService.register_settles settles with
          ⟨_, _, _, rfl⟩ | ⟨_, _, _, _, rfl⟩
      · exact member
      · exact member
  | login loginData ip => exact wellKept.kept_login_iff member handled
  | refreshTokens refreshToken ip =>
      have isOther : session.refreshToken ≠ refreshToken :=
        fun same => notPresented (congrArg some same.symm)
      exact iff_of_true (wellKept.kept_refreshTokens member isOther handled) (spared nofun)
  | logout refreshToken ip =>
      refine iff_of_true ?_ (spared nofun)
      have isOther : session.refreshToken ≠ refreshToken :=
        fun same => notPresented (congrArg some same.symm)
      obtain ⟨result, settles, _⟩ := Settles.bind_pure_iff.mp handled
      rcases AuthenticationService.logout_settles settles with
          ⟨_, _, _, rfl, _⟩ | ⟨taken, takenMember, rfl, rfl, _⟩
      · exact member
      · exact mem_withoutSession member takenMember isOther

/-- A run without a wipe keeps the session. -/
theorem WellKept.kept_of_sparing
    (atLeastOne : 1 ≤ config.maxSessions)
    (wellKept : before.WellKept config)
    (member : session ∈ before.sessions.rows)
    {requests : List SettledRequest}
    (run : Run (HandledSparing config session.userId) before requests after)
    (notPresented : ∀ request ∈ requests, ¬request.Presents session.refreshToken) :
    session ∈ after.sessions.rows := by
  induction run with
  | nil => exact member
  | @snoc middle final leading last earlier spares inductionHypothesis =>
      obtain ⟨handled, notOverflow⟩ := spares
      have there :=
        inductionHypothesis fun request early =>
          notPresented request (List.mem_append_left _ early)
      have middleKept :=
        (wellKept.of_run atLeastOne (earlier.mono fun _ _ _ taken => taken.1)).1
      exact (middleKept.kept_iff there
        (notPresented last (List.mem_append_right _ (List.mem_singleton.mpr rfl)))
        handled).mpr notOverflow

/-- A run that keeps the session has no wipe in it. -/
theorem WellKept.sparing_of_kept
    (atLeastOne : 1 ≤ config.maxSessions)
    (wellKept : before.WellKept config)
    (member : session ∈ before.sessions.rows)
    {requests : List SettledRequest}
    (run : Run (Handled config) before requests after)
    (notPresented : ∀ request ∈ requests, ¬request.Presents session.refreshToken)
    (kept : session ∈ after.sessions.rows) :
    Run (HandledSparing config session.userId) before requests after := by
  induction run with
  | nil => exact .nil
  | @snoc middle final leading last earlier handled inductionHypothesis =>
      obtain ⟨middleKept, grows⟩ := wellKept.of_run atLeastOne earlier
      have outcome := Outcome.of_handled middleKept atLeastOne handled
      -- the token has been generated, so it has not come back
      have there : session ∈ middle.sessions.rows :=
        (outcome.grows.sessions session kept).resolve_right fun fresh =>
          fresh (grows.generated _ (wellKept.issued session member))
      refine .snoc
        (inductionHypothesis
          (fun request early => notPresented request (List.mem_append_left _ early)) there)
        ⟨handled, ?_⟩
      exact (middleKept.kept_iff there
        (notPresented last (List.mem_append_right _ (List.mem_singleton.mpr rfl)))
        handled).mp kept

/--
Along a run that does not present its token, a session is kept if and only if no
request wipes the sessions of its user.
-/
theorem WellKept.kept_run_iff
    (atLeastOne : 1 ≤ config.maxSessions)
    (wellKept : before.WellKept config)
    (member : session ∈ before.sessions.rows)
    {requests : List SettledRequest}
    (run : Run (Handled config) before requests after)
    (notPresented : ∀ request ∈ requests, ¬request.Presents session.refreshToken) :
    session ∈ after.sessions.rows ↔
      Run (HandledSparing config session.userId) before requests after :=
  ⟨wellKept.sparing_of_kept atLeastOne member run notPresented,
    fun spared => wellKept.kept_of_sparing atLeastOne member spared notPresented⟩

end AuthenticationState

end Prescott
