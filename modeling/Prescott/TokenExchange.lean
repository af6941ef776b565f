import Prescott.AuthenticationService

namespace Prescott

/-!
# Exchanging a refresh token concurrently

Concurrent requests switch at every statement.  The phases follow which
session row a request has read, whether it has deleted it, and which token it
has drawn.  All statements about interleavings are proved on these phases.
-/

/-- The stages of `addRefreshSession` after the new token is drawn. -/
inductive AddingStage where
  | listing
  /-- The overflow wipe of this user is the next statement. -/
  | wiping (userId : Nat)
  | inserting
  deriving Repr, DecidableEq

/-- How far a request is, as its awaited operations show it. -/
inductive TokenPhase where
  /-- No session row is read by token and no token is drawn. -/
  | preparing
  /-- The row of the presented token is read and not yet deleted. -/
  | selected (session : RefreshSession)
  /-- The row of the presented token is deleted by this request. -/
  | exchanging (session : RefreshSession)
  /-- A new token is drawn; `origin` is the row it was exchanged for. -/
  | adding
      (origin : Option RefreshSession)
      (token : String)
      (stage : AddingStage)
  /-- The row of the new token is inserted. -/
  | added (origin : Option RefreshSession) (token : String)
  /-- The request can no longer succeed, or it was a logout. -/
  | ended
  deriving Repr, DecidableEq

namespace TokenPhase

/-- The session row a request has read by its token. -/
def origin : TokenPhase → Option RefreshSession
  | .selected session => some session
  | .exchanging session => some session
  | .adding origin _ _ => origin
  | .added origin _ => origin
  | _ => none

/-- The session row a request has deleted. -/
def spent : TokenPhase → Option RefreshSession
  | .exchanging session => some session
  | .adding origin _ _ => origin
  | .added origin _ => origin
  | _ => none

/-- The token a request has drawn and not yet inserted. -/
def drawn : TokenPhase → Option String
  | .adding _ token _ => some token
  | _ => none

/-- The rows that the next statement of a request deletes. -/
def deletes : TokenPhase → RefreshSession → Prop
  | .selected session, row => row.id = session.id
  | .adding _ _ (.wiping userId), row => row.userId = userId
  | _, _ => False

/-- As before, as a check. -/
def removes : TokenPhase → RefreshSession → Bool
  | .selected session, row => row.id == session.id
  | .adding _ _ (.wiping userId), row => row.userId == userId
  | _, _ => false

theorem removes_of_deletes
    {phase : TokenPhase}
    {row : RefreshSession}
    (deletes : phase.deletes row) :
    phase.removes row = true := by
  unfold TokenPhase.deletes at deletes
  unfold TokenPhase.removes
  split at deletes
  · exact beq_iff_eq.mpr deletes
  · exact beq_iff_eq.mpr deletes
  · exact deletes.elim

/-- The request has read a row by its token and is not yet answered. -/
def exchanges : TokenPhase → Option RefreshSession
  | .selected session => some session
  | .exchanging session => some session
  | .adding origin _ _ => origin
  | _ => none

end TokenPhase

/-- Operations that neither read a session by token nor change a session. -/
def AuthenticationOp.prepares : AuthenticationOp → Bool
  | .findUserByEmail _ => true
  | .findUserByLogin _ => true
  | .findUserByEmailOrLogin _ => true
  | .insertUser _ => true
  | .findSessionByIp _ _ => true
  | .hashPassword _ => true
  | .verifyPassword _ _ => true
  | .signPayload _ => true
  | .now => true
  | _ => false

/-- The operations a request may await in a phase. -/
def TokenPhase.permits (call : AuthenticationCall) :
    TokenPhase → AuthenticationOp → Prop
  | .preparing, op =>
      op.prepares = true ∨
        (∃ token,
          call.presents = some token ∧ op = .findSessionByToken token) ∨
        (call.presents = none ∧ op = .randomUUID)
  | .selected session, op => op = .deleteSessionById session.id
  | .exchanging _, op =>
      op = .now ∨ (∃ userId, op = .signPayload userId) ∨ op = .randomUUID
  | .adding _ _ .listing, op => ∃ userId, op = .findSessionsByUser userId
  | .adding _ _ (.wiping userId), op => op = .deleteSessionsByUser userId
  | .adding origin token .inserting, op =>
      op = .now ∨
        ∃ session : NewRefreshSession,
          op = .insertSession session ∧
            session.refreshToken = token ∧
            ∀ row,
              origin = some row →
              session.userId = row.userId ∧ session.ip = row.ip
  | .added _ _, _ => False
  | .ended, _ => False

/-- The phase of a request after an answer. -/
def TokenPhase.advance
    (config : AuthenticationConfig)
    (call : AuthenticationCall) :
    TokenPhase →
      (op : AuthenticationOp) →
      Except AppError op.Result →
      TokenPhase
  | .preparing, .findSessionByToken _, .ok (some session) =>
      .selected session
  | .preparing, .findSessionByToken _, _ => .ended
  | .preparing, .randomUUID, .ok token => .adding none token .listing
  | .preparing, _, _ => .preparing
  | .selected session, _, .ok _ =>
      match call with
      | .refreshTokens _ ip =>
          if session.ip = ip then .exchanging session else .ended
      | _ => .ended
  | .selected _, _, .error _ => .ended
  | .exchanging session, .now, .ok currentTime =>
      if session.createdAt + session.expiresIn < currentTime then
        .ended
      else
        .exchanging session
  | .exchanging session, .signPayload _, .ok _ => .exchanging session
  | .exchanging session, .randomUUID, .ok token =>
      .adding (some session) token .listing
  | .exchanging _, _, _ => .ended
  | .adding origin token .listing, .findSessionsByUser userId, .ok sessions =>
      if sessions.length ≥ config.maxSessions then
        .adding origin token (.wiping userId)
      else
        .adding origin token .inserting
  | .adding origin token (.wiping _), _, .ok _ =>
      .adding origin token .inserting
  | .adding origin token .inserting, .insertSession _, .ok _ =>
      .added origin token
  | .adding origin token .inserting, .now, .ok _ =>
      .adding origin token .inserting
  | .adding _ _ _, _, _ => .ended
  | .added origin token, _, _ => .added origin token
  | .ended, _, _ => .ended

/-- A request that answers with a token pair has inserted its row. -/
def TokenPhase.finishes (call : AuthenticationCall) :
    TokenPhase → Except AppError AuthenticationReply → Prop
  | phase, .ok (.tokens pair) =>
      ∃ origin,
        phase = .added origin pair.refreshToken ∧
          (call.presents.isSome = true → origin.isSome = true)
  | _, _ => True

/-- The protocol of the authentication routes. -/
abbrev tokenProtocol (config : AuthenticationConfig) :
    Protocol authenticationSignature AppError AuthenticationCall
      AuthenticationReply where
  Phase := TokenPhase
  start := fun _ => .preparing
  permits := TokenPhase.permits
  advance := TokenPhase.advance config
  finishes := TokenPhase.finishes

namespace TokenPhase

variable {config : AuthenticationConfig}

/-- `addRefreshSession` goes through its stages. -/
theorem conforms_addRefreshSession
    {call : AuthenticationCall}
    {phase : TokenPhase}
    {origin : Option RefreshSession}
    {userId : Nat}
    {ip : String}
    (signs : phase.permits call (.signPayload userId))
    (signed :
      ∀ accessToken,
        phase.advance config call (.signPayload userId) (.ok accessToken) =
          phase)
    (draws : phase.permits call .randomUUID)
    (drawn :
      ∀ token,
        phase.advance config call .randomUUID (.ok token) =
          .adding origin token .listing)
    (sameOwner :
      ∀ row, origin = some row → userId = row.userId ∧ ip = row.ip)
    (hasOrigin : call.presents.isSome = true → origin.isSome = true) :
    (tokenProtocol config).Conforms call phase
      (AuthenticationService.addRefreshSession config userId ip >>=
        fun pair => pure (.tokens pair)) := by
  simp only [AuthenticationService.addRefreshSession, bind_assoc, pure_bind]
  refine Protocol.conforms_perform_bind.mpr
    ⟨signs, fun accessToken => ?_, fun _ => trivial⟩
  rw [show (tokenProtocol config).advance call phase (.signPayload userId)
    (.ok accessToken) = phase from signed accessToken]
  refine Protocol.conforms_perform_bind.mpr
    ⟨draws, fun token => ?_, fun _ => trivial⟩
  rw [show (tokenProtocol config).advance call phase .randomUUID
    (.ok token) = .adding origin token .listing from drawn token]
  have inserts :
      (tokenProtocol config).Conforms call (.adding origin token .inserting)
        (do
          let createdAt ← now
          RefreshSessionDao.add
            { userId
              refreshToken := token
              ip
              expiresIn := config.refreshExpiresIn
              createdAt }
          pure (AuthenticationReply.tokens
            { accessToken, refreshToken := token })) := by
    refine Protocol.conforms_perform_bind.mpr
      ⟨.inl rfl, fun createdAt => ?_, fun _ => trivial⟩
    refine Protocol.conforms_perform_bind.mpr
      ⟨.inr ⟨_, rfl, rfl, sameOwner⟩, fun _ => ?_, fun _ => trivial⟩
    exact ⟨origin, rfl, hasOrigin⟩
  refine Protocol.conforms_perform_bind.mpr
    ⟨⟨userId, rfl⟩, fun sessions => ?_, fun _ => trivial⟩
  change (tokenProtocol config).Conforms call
    (if sessions.length ≥ config.maxSessions then
      .adding origin token (.wiping userId)
    else
      .adding origin token .inserting) _
  unfold AuthenticationService.wipeOverflow
  split
  · exact Protocol.conforms_perform_bind.mpr
      ⟨rfl, fun _ => inserts, fun _ => trivial⟩
  · exact inserts

/-- The two statements of `deleteByTokenAndGet` and what follows them. -/
theorem conforms_deleteByTokenAndGet
    {call : AuthenticationCall}
    {refreshToken : String}
    (presents : call.presents = some refreshToken)
    {next : Option RefreshSession → AuthenticationProgram AuthenticationReply}
    (absent : (tokenProtocol config).Conforms call .ended (next none))
    (taken :
      ∀ session,
        (tokenProtocol config).Conforms call
          (TokenPhase.advance config call (.selected session)
            (.deleteSessionById session.id) (.ok ()))
          (next (some session))) :
    (tokenProtocol config).Conforms call .preparing
      (RefreshSessionDao.deleteByTokenAndGet refreshToken >>= next) := by
  simp only [RefreshSessionDao.deleteByTokenAndGet, bind_assoc]
  refine Protocol.conforms_perform_bind.mpr
    ⟨.inr (.inl ⟨refreshToken, presents, rfl⟩), fun found => ?_,
      fun _ => trivial⟩
  cases found with
  | none =>
      exact absent
  | some session =>
      simp only [bind_assoc]
      exact Protocol.conforms_perform_bind.mpr
        ⟨rfl, fun _ => taken session, fun _ => trivial⟩

/-- Every handler keeps to the protocol. -/
theorem conforms_routes
    (config : AuthenticationConfig)
    (call : AuthenticationCall) :
    (tokenProtocol config).Conforms call .preparing
      (authenticationRoutes config call) := by
  cases call with
  | register registerData =>
      simp only [authenticationRoutes, AuthenticationService.register,
        bind_assoc]
      refine Protocol.conforms_perform_bind.mpr
        ⟨.inl rfl, fun byEmail => ?_, fun _ => trivial⟩
      cases byEmail with
      | some user =>
          exact trivial
      | none =>
          simp only [bind_assoc]
          refine Protocol.conforms_perform_bind.mpr
            ⟨.inl rfl, fun byLogin => ?_, fun _ => trivial⟩
          cases byLogin with
          | some user =>
              exact trivial
          | none =>
              simp only [bind_assoc]
              refine Protocol.conforms_perform_bind.mpr
                ⟨.inl rfl, fun hashedPassword => ?_, fun _ => trivial⟩
              exact Protocol.conforms_perform_bind.mpr
                ⟨.inl rfl, fun _ => trivial, fun _ => trivial⟩
  | login loginData ip =>
      simp only [authenticationRoutes, AuthenticationService.login,
        bind_assoc]
      refine Protocol.conforms_perform_bind.mpr
        ⟨.inl rfl, fun found => ?_, fun _ => trivial⟩
      cases found with
      | none =>
          exact trivial
      | some user =>
          simp only [bind_assoc]
          refine Protocol.conforms_perform_bind.mpr
            ⟨.inl rfl, fun session => ?_, fun _ => trivial⟩
          cases session with
          | some session =>
              exact trivial
          | none =>
              simp only [bind_assoc]
              refine Protocol.conforms_perform_bind.mpr
                ⟨.inl rfl, fun valid => ?_, fun _ => trivial⟩
              cases valid with
              | false =>
                  exact trivial
              | true =>
                  exact conforms_addRefreshSession (.inl rfl)
                    (fun _ => rfl) (.inr (.inr ⟨rfl, rfl⟩))
                    (fun _ => rfl) (by simp)
                    (by simp [AuthenticationCall.presents])
  | refreshTokens refreshToken ip =>
      simp only [authenticationRoutes, AuthenticationService.refreshTokens,
        bind_assoc]
      refine conforms_deleteByTokenAndGet rfl trivial fun session => ?_
      simp only [AuthenticationService.exchange, advance]
      by_cases sameIp : session.ip = ip
      · rw [if_pos sameIp, if_neg (not_not.mpr sameIp)]
        simp only [bind_assoc]
        refine Protocol.conforms_perform_bind.mpr
          ⟨.inl rfl, fun currentTime => ?_, fun _ => trivial⟩
        simp only [advance]
        split
        · exact trivial
        · refine conforms_addRefreshSession (.inr (.inl ⟨_, rfl⟩))
            (fun _ => rfl) (.inr (.inr rfl)) (fun _ => rfl) ?_ (by simp)
          rintro row ⟨⟩
          exact ⟨rfl, sameIp.symm⟩
      · rw [if_neg sameIp, if_pos sameIp]
        exact trivial
  | logout refreshToken ip =>
      simp only [authenticationRoutes, AuthenticationService.logout,
        bind_assoc]
      refine conforms_deleteByTokenAndGet rfl trivial fun session => ?_
      dsimp only
      split
      · exact trivial
      · exact trivial

end TokenPhase

end Prescott
