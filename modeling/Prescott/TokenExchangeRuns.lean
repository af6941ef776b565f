import Prescott.SessionRuns
import Prescott.TokenExchange

namespace Prescott

/-!
# Interleavings of token exchanges

For a fixed token the invariant follows its life: not generated, drawn by one
request, stored in one row, and gone from the table.  Requests that read the
row while it was stored may still race when it is gone; then the row of the
first winner is what makes the insert of every other one fail.
-/

/-- The view of concurrent authentication requests. -/
abbrev TokenView (config : AuthenticationConfig) :=
  (tokenProtocol config).View AuthenticationState

/-- What one awaited operation does to the database and to its request. -/
inductive TokenMove
    (call : AuthenticationCall)
    (before : AuthenticationState) :
    TokenPhase → AuthenticationState → TokenPhase → Prop where
  /-- Nothing that matters: the request stays where it is or gives up. -/
  | keep
      {phase laterPhase : TokenPhase}
      {after : AuthenticationState}
      (sessions : after.sessions = before.sessions)
      (generated : after.generated = before.generated)
      (later :
        laterPhase = .ended ∨
          laterPhase = phase ∨
          ∃ origin token stage laterStage,
            phase = .adding origin token stage ∧
              laterPhase = .adding origin token laterStage) :
      TokenMove call before phase after laterPhase
  /-- The row of the presented token is read. -/
  | select
      {session : RefreshSession}
      (member : session ∈ before.sessions.rows)
      (presents : call.presents = some session.refreshToken) :
      TokenMove call before .preparing before (.selected session)
  /-- A new token is drawn. -/
  | draw
      {phase : TokenPhase}
      {origin : Option RefreshSession}
      {token : String}
      (fresh : token ∉ before.generated)
      (shape :
        (phase = .preparing ∧ origin = none) ∨
          ∃ session, phase = .exchanging session ∧ origin = some session) :
      TokenMove call before phase
        { before with generated := before.generated ++ [token] }
        (.adding origin token .listing)
  /-- The row that was read is deleted by its identifier. -/
  | take
      {session : RefreshSession}
      {laterPhase : TokenPhase}
      (later :
        laterPhase = .ended ∨
          (laterPhase = .exchanging session ∧
            ∃ token, call = .refreshTokens token session.ip)) :
      TokenMove call before (.selected session)
        { before with
          sessions := before.sessions.deleteWhere fun row =>
            row.id == session.id }
        laterPhase
  /-- The overflow wipe. -/
  | wipe
      {origin : Option RefreshSession}
      {token : String}
      {userId : Nat} :
      TokenMove call before (.adding origin token (.wiping userId))
        { before with
          sessions := before.sessions.deleteWhere fun row =>
            row.userId == userId }
        (.adding origin token .inserting)
  /-- The row of the new token is inserted. -/
  | insert
      {origin : Option RefreshSession}
      {session : NewRefreshSession}
      {sessions : SessionTable}
      (inserted : before.sessions.insert session = .ok sessions)
      (sameOwner :
        ∀ row,
          origin = some row →
          session.userId = row.userId ∧ session.ip = row.ip) :
      TokenMove call before
        (.adding origin session.refreshToken .inserting)
        { before with sessions }
        (.added origin session.refreshToken)

namespace TokenMove

variable {config : AuthenticationConfig}
variable {call : AuthenticationCall}
variable {before after : AuthenticationState}
variable {phase : TokenPhase}
variable {op : AuthenticationOp}
variable {input : AuthenticationInput}

/-- Operations that prepare a login or registration change no session. -/
theorem host_prepares
    (prepares : op.prepares = true)
    {answer : Except AppError op.Result}
    (answered : authenticationHost op input before = some (answer, after)) :
    after.sessions = before.sessions ∧
      after.generated = before.generated := by
  cases op <;> cases prepares <;> cases input <;> try cases answered
  all_goals first
    | exact ⟨rfl, rfl⟩
    | skip
  simp only [authenticationHost] at answered
  split at answered <;> cases answered <;> exact ⟨rfl, rfl⟩

theorem of_preparing
    (permitted : TokenPhase.permits call .preparing op)
    {answer : Except AppError op.Result}
    (answered : authenticationHost op input before = some (answer, after)) :
    TokenMove call before .preparing after
      (TokenPhase.preparing.advance config call op answer) := by
  rcases permitted with prepares | ⟨token, presents, rfl⟩ | ⟨_, rfl⟩
  · obtain ⟨sessions, generated⟩ := host_prepares prepares answered
    refine .keep sessions generated (.inr (.inl ?_))
    cases op <;> cases prepares <;> rfl
  · cases input <;> cases answered
    cases found :
        before.sessions.table.first fun session =>
          session.refreshToken == token with
    | none =>
        exact .keep rfl rfl (.inl rfl)
    | some session =>
        obtain ⟨member, hasToken⟩ := Table.mem_of_first found
        rw [beq_iff_eq] at hasToken
        exact .select member (by rw [presents, hasToken])
  · cases input <;> try cases answered
    simp only [authenticationHost] at answered
    split at answered
    · cases answered
    · rename_i token fresh
      cases answered
      exact .draw fresh (.inl ⟨rfl, rfl⟩)

theorem of_selected
    {session : RefreshSession}
    (permitted : TokenPhase.permits call (.selected session) op)
    {answer : Except AppError op.Result}
    (answered : authenticationHost op input before = some (answer, after)) :
    TokenMove call before (.selected session) after
      ((TokenPhase.selected session).advance config call op answer) := by
  cases permitted
  cases input <;> cases answered
  refine .take ?_
  cases call with
  | refreshTokens token ip =>
      by_cases sameIp : session.ip = ip
      · subst sameIp
        exact .inr ⟨if_pos rfl, token, rfl⟩
      · exact .inl (if_neg sameIp)
  | register registerData =>
      exact .inl rfl
  | login loginData ip =>
      exact .inl rfl
  | logout token ip =>
      exact .inl rfl

theorem of_exchanging
    {session : RefreshSession}
    (permitted : TokenPhase.permits call (.exchanging session) op)
    {answer : Except AppError op.Result}
    (answered : authenticationHost op input before = some (answer, after)) :
    TokenMove call before (.exchanging session) after
      ((TokenPhase.exchanging session).advance config call op answer) := by
  rcases permitted with rfl | ⟨userId, rfl⟩ | rfl
  · cases input <;> cases answered
    rename_i currentTime
    by_cases expired : session.createdAt + session.expiresIn < currentTime
    · exact .keep rfl rfl (.inl (if_pos expired))
    · exact .keep rfl rfl (.inr (.inl (if_neg expired)))
  · cases input <;> cases answered
    · exact .keep rfl rfl (.inr (.inl rfl))
    · exact .keep rfl rfl (.inl rfl)
  · cases input <;> try cases answered
    simp only [authenticationHost] at answered
    split at answered
    · cases answered
    · rename_i token fresh
      cases answered
      exact .draw fresh (.inr ⟨session, rfl, rfl⟩)

theorem of_adding
    {origin : Option RefreshSession}
    {token : String}
    {stage : AddingStage}
    (permitted : TokenPhase.permits call (.adding origin token stage) op)
    {answer : Except AppError op.Result}
    (answered : authenticationHost op input before = some (answer, after)) :
    TokenMove call before (.adding origin token stage) after
      ((TokenPhase.adding origin token stage).advance config call op
        answer) := by
  cases stage with
  | listing =>
      obtain ⟨userId, rfl⟩ := permitted
      cases input <;> cases answered
      refine .keep rfl rfl (.inr (.inr ⟨origin, token, .listing, ?_⟩))
      simp only [TokenPhase.advance]
      split
      · exact ⟨.wiping userId, trivial, rfl⟩
      · exact ⟨.inserting, trivial, rfl⟩
  | wiping userId =>
      cases permitted
      cases input <;> cases answered
      exact .wipe
  | inserting =>
      rcases permitted with rfl | ⟨session, rfl, rfl, sameOwner⟩
      · cases input <;> cases answered
        exact .keep rfl rfl (.inr (.inl rfl))
      · cases input <;> try cases answered
        have effect := Option.some.inj answered
        unfold AuthenticationState.insertSession at effect
        split at effect
        · split at effect
          · rename_i sessions inserted
            cases effect
            exact .insert inserted sameOwner
          · cases effect
            exact .keep rfl rfl (.inl rfl)
        · cases effect
          exact .keep rfl rfl (.inl rfl)

/-- Every answered operation of a request is one of the moves. -/
theorem of_answered
    (permitted : phase.permits call op)
    {answer : Except AppError op.Result}
    (answered : authenticationHost op input before = some (answer, after)) :
    TokenMove call before phase after
      (phase.advance config call op answer) := by
  cases phase with
  | preparing =>
      exact of_preparing permitted answered
  | selected session =>
      exact of_selected permitted answered
  | exchanging session =>
      exact of_exchanging permitted answered
  | adding origin token stage =>
      exact of_adding permitted answered
  | added origin token =>
      exact permitted.elim
  | ended =>
      exact permitted.elim

end TokenMove

namespace TokenView

variable {config : AuthenticationConfig}

/-- No row has the token. -/
def Unstored (view : TokenView config) (token : String) : Prop :=
  ∀ row ∈ view.shared.sessions.rows, row.refreshToken ≠ token

/-- At most the request `owner` has drawn the token and may insert it. -/
def DrawnOnlyBy
    (view : TokenView config)
    (token : String)
    (owner : Option Nat) :
    Prop :=
  ∀ pid call phase,
    view.progress pid = some ⟨call, phase⟩ →
    phase.drawn = some token →
    some pid = owner

/-- Every request that has read a row of the token is in an allowed phase. -/
def Held
    (view : TokenView config)
    (token : String)
    (allowed : TokenPhase → Prop) :
    Prop :=
  ∀ pid call phase session,
    view.progress pid = some ⟨call, phase⟩ →
    phase.origin = some session →
    session.refreshToken = token →
    allowed phase

/-- A request was answered with `newToken` in exchange for the session. -/
def Won
    (view : TokenView config)
    (pid : Nat)
    (session : RefreshSession)
    (newToken : String) :
    Prop :=
  ∃ call, view.progress pid = some ⟨call, .added (some session) newToken⟩

/-- A refresh from the session's address has read it and is not answered. -/
def Racing
    (view : TokenView config)
    (pid : Nat)
    (session : RefreshSession) :
    Prop :=
  ∃ token phase,
    view.progress pid = some ⟨.refreshTokens token session.ip, phase⟩ ∧
      phase.exchanges = some session

/--
A row that was inserted in exchange for a session another refresh is still
racing for.
-/
def Awaited (view : TokenView config) (row : RefreshSession) : Prop :=
  ∃ winner other session,
    winner ≠ other ∧
      view.Won winner session row.refreshToken ∧
      view.Racing other session

/-- The statement that the turn executes deletes no awaited row. -/
def KeepsAwaitedRows
    (view : TokenView config)
    (turn : Turn AuthenticationCall AuthenticationInput) :
    Prop :=
  ∀ pid input call phase,
    turn = .resume pid input →
    view.progress pid = some ⟨call, phase⟩ →
    ∀ row ∈ view.shared.sessions.rows,
      phase.deletes row → ¬ view.Awaited row

/-- The life of a token. -/
inductive TokenLife (view : TokenView config) (token : String) : Prop where
  | unborn
      (fresh : token ∉ view.shared.generated)
      (unstored : view.Unstored token)
      (undrawn : view.DrawnOnlyBy token none)
      (unheld : view.Held token fun _ => False)
  | drawn
      (owner : Nat)
      (generated : token ∈ view.shared.generated)
      (unstored : view.Unstored token)
      (only : view.DrawnOnlyBy token (some owner))
      (unheld : view.Held token fun _ => False)
  | stored
      (session : RefreshSession)
      (generated : token ∈ view.shared.generated)
      (member : session ∈ view.shared.sessions.rows)
      (hasToken : session.refreshToken = token)
      (undrawn : view.DrawnOnlyBy token none)
      (held : view.Held token fun phase => phase = .selected session)
  | spent
      (session : RefreshSession)
      (generated : token ∈ view.shared.generated)
      (hasToken : session.refreshToken = token)
      (unstored : view.Unstored token)
      (undrawn : view.DrawnOnlyBy token none)
      (held : view.Held token fun phase => phase.origin = some session)
      (once :
        ∀ left right leftToken rightToken,
          view.Won left session leftToken →
          view.Won right session rightToken →
          left = right)
      (backed :
        ∀ winner other newToken,
          winner ≠ other →
          view.Won winner session newToken →
          view.Racing other session →
          ∃ row ∈ view.shared.sessions.rows,
            row.refreshToken = newToken ∧
              row.userId = session.userId ∧
              row.ip = session.ip)

section Place

variable {view : TokenView config}
variable {pid : Nat}
variable {call : AuthenticationCall}
variable {phase : TokenPhase}
variable {shared : AuthenticationState}
variable {token : String}

theorem DrawnOnlyBy.place
    {owner : Option Nat}
    (only : view.DrawnOnlyBy token owner)
    (placed : phase.drawn = some token → some pid = owner) :
    DrawnOnlyBy (view.place pid ⟨call, phase⟩ shared) token owner := by
  intro other otherCall otherPhase present drawn
  rcases Protocol.View.place_cases present with
      ⟨rfl, shape⟩ | ⟨_, earlier⟩
  · cases shape
    exact placed drawn
  · exact only other otherCall otherPhase earlier drawn

theorem Held.place
    {allowed : TokenPhase → Prop}
    (held : view.Held token allowed)
    (placed :
      ∀ session,
        phase.origin = some session →
        session.refreshToken = token →
        allowed phase) :
    Held (view.place pid ⟨call, phase⟩ shared) token allowed := by
  intro other otherCall otherPhase session present origin hasToken
  rcases Protocol.View.place_cases present with
      ⟨rfl, shape⟩ | ⟨_, earlier⟩
  · cases shape
    exact placed session origin hasToken
  · exact held other otherCall otherPhase session earlier origin hasToken

theorem Won.of_place
    {winner : Nat}
    {session : RefreshSession}
    {newToken : String}
    (won :
      Won (view.place pid ⟨call, phase⟩ shared) winner session newToken) :
    (winner = pid ∧ phase = .added (some session) newToken) ∨
      (winner ≠ pid ∧ view.Won winner session newToken) := by
  obtain ⟨winnerCall, present⟩ := won
  rcases Protocol.View.place_cases present with
      ⟨same, shape⟩ | ⟨different, earlier⟩
  · cases shape
    exact .inl ⟨same, rfl⟩
  · exact .inr ⟨different, winnerCall, earlier⟩

theorem Racing.of_place
    {other : Nat}
    {session : RefreshSession}
    (racing : Racing (view.place pid ⟨call, phase⟩ shared) other session) :
    (other = pid ∧
      (∃ presented, call = .refreshTokens presented session.ip) ∧
      phase.exchanges = some session) ∨
      (other ≠ pid ∧ view.Racing other session) := by
  obtain ⟨otherToken, otherPhase, present, exchanges⟩ := racing
  rcases Protocol.View.place_cases present with
      ⟨same, shape⟩ | ⟨different, earlier⟩
  · cases shape
    exact .inl ⟨same, ⟨otherToken, rfl⟩, exchanges⟩
  · exact .inr ⟨different, otherToken, otherPhase, earlier, exchanges⟩

/--
A turn that neither draws, stores nor removes the token and lets its request
learn nothing new about it leaves the token where it is in its life.
-/
theorem TokenLife.place
    (life : view.TokenLife token)
    (generated : token ∈ shared.generated ↔ token ∈ view.shared.generated)
    (rows :
      ∀ row,
        row.refreshToken = token →
        (row ∈ shared.sessions.rows ↔ row ∈ view.shared.sessions.rows))
    (keepsAwaited :
      ∀ row ∈ view.shared.sessions.rows,
        view.Awaited row → row ∈ shared.sessions.rows)
    (drawn :
      phase.drawn = some token →
      ∃ earlier,
        view.progress pid = some ⟨call, earlier⟩ ∧
          earlier.drawn = some token)
    (origin :
      ∀ session,
        phase.origin = some session →
        session.refreshToken = token →
        ∃ earlier,
          view.progress pid = some ⟨call, earlier⟩ ∧
            earlier.origin = some session ∧
            (session ∈ view.shared.sessions.rows →
              earlier = .selected session →
              phase = .selected session))
    (exchanges :
      ∀ session,
        phase.exchanges = some session →
        session.refreshToken = token →
        ∃ earlier,
          view.progress pid = some ⟨call, earlier⟩ ∧
            earlier.exchanges = some session)
    (won :
      ∀ session newToken,
        phase = .added (some session) newToken →
        session.refreshToken = token →
        view.progress pid = some ⟨call, phase⟩) :
    TokenLife (view.place pid ⟨call, phase⟩ shared) token := by
  have unstoredPlace :
      view.Unstored token →
      Unstored (view.place pid ⟨call, phase⟩ shared) token := by
    intro unstored row member hasToken
    exact unstored row ((rows row hasToken).mp member) hasToken
  have drawnPlace :
      ∀ owner,
        view.DrawnOnlyBy token owner →
        DrawnOnlyBy (view.place pid ⟨call, phase⟩ shared) token owner := by
    intro owner only
    refine only.place fun drawnNow => ?_
    obtain ⟨earlier, present, drawnEarlier⟩ := drawn drawnNow
    exact only pid call earlier present drawnEarlier
  have unheldPlace :
      (view.Held token fun _ => False) →
      Held (view.place pid ⟨call, phase⟩ shared) token fun _ => False := by
    intro unheld
    refine unheld.place fun session shape hasToken => ?_
    obtain ⟨earlier, present, earlierShape, _⟩ :=
      origin session shape hasToken
    exact unheld pid call earlier session present earlierShape hasToken
  cases life with
  | unborn fresh unstored undrawn unheld =>
      exact .unborn (fun member => fresh (generated.mp member))
        (unstoredPlace unstored) (drawnPlace _ undrawn) (unheldPlace unheld)
  | drawn owner old unstored only unheld =>
      exact .drawn owner (generated.mpr old) (unstoredPlace unstored)
        (drawnPlace _ only) (unheldPlace unheld)
  | stored session old member hasToken undrawn held =>
      refine .stored session (generated.mpr old)
        ((rows session hasToken).mpr member) hasToken
        (drawnPlace _ undrawn) (held.place ?_)
      intro heldSession shape heldToken
      obtain ⟨earlier, present, earlierShape, staysSelected⟩ :=
        origin heldSession shape heldToken
      have selected :=
        held pid call earlier heldSession present earlierShape heldToken
      subst selected
      cases earlierShape
      exact staysSelected member rfl
  | spent session old hasToken unstored undrawn held once backed =>
      have wonEarlier :
          ∀ winner newToken,
            Won (view.place pid ⟨call, phase⟩ shared) winner session
              newToken →
            view.Won winner session newToken := by
        intro winner newToken wonNow
        rcases wonNow.of_place with ⟨rfl, shape⟩ | ⟨_, earlier⟩
        · subst shape
          exact ⟨call, won session newToken rfl hasToken⟩
        · exact earlier
      refine .spent session (generated.mpr old) hasToken
        (unstoredPlace unstored) (drawnPlace _ undrawn)
        (held.place ?_) ?_ ?_
      · intro heldSession shape heldToken
        obtain ⟨earlier, present, earlierShape, _⟩ :=
          origin heldSession shape heldToken
        have same :=
          held pid call earlier heldSession present earlierShape heldToken
        rw [shape, ← earlierShape, same]
      · intro left right leftToken rightToken leftWon rightWon
        exact once left right leftToken rightToken
          (wonEarlier left leftToken leftWon)
          (wonEarlier right rightToken rightWon)
      · intro winner other newToken different winnerWon otherRacing
        have racingEarlier : view.Racing other session := by
          rcases otherRacing.of_place with
              ⟨rfl, ⟨presented, rfl⟩, shape⟩ | ⟨_, earlier⟩
          · obtain ⟨earlier, present, earlierShape⟩ :=
              exchanges session shape hasToken
            exact ⟨presented, earlier, present, earlierShape⟩
          · exact earlier
        have winnerEarlier := wonEarlier winner newToken winnerWon
        obtain ⟨row, member, rowToken, sameUser, sameIp⟩ :=
          backed winner other newToken different winnerEarlier racingEarlier
        refine ⟨row, keepsAwaited row member ?_, rowToken, sameUser, sameIp⟩
        exact ⟨winner, other, session, different,
          rowToken.symm ▸ winnerEarlier, racingEarlier⟩

/-- Only while it is stored does a row have the token. -/
theorem TokenLife.stored_of_member
    (life : view.TokenLife token)
    {row : RefreshSession}
    (member : row ∈ view.shared.sessions.rows)
    (hasToken : row.refreshToken = token) :
    token ∈ view.shared.generated ∧
      view.DrawnOnlyBy token none ∧
      view.Held token fun phase => phase = .selected row := by
  cases life with
  | unborn fresh unstored undrawn unheld =>
      exact (unstored row member hasToken).elim
  | drawn owner generated unstored only unheld =>
      exact (unstored row member hasToken).elim
  | stored session generated sessionMember sessionToken undrawn held =>
      have same :=
        SessionTable.eq_of_refreshToken member sessionMember
          (hasToken.trans sessionToken.symm)
      subst same
      exact ⟨generated, undrawn, held⟩
  | spent session generated sessionToken unstored undrawn held once backed =>
      exact (unstored row member hasToken).elim

/-- Reading the row of the token is possible only while it is stored. -/
theorem TokenLife.select
    (life : view.TokenLife token)
    {session : RefreshSession}
    (member : session ∈ view.shared.sessions.rows) :
    TokenLife (view.place pid ⟨call, .selected session⟩ view.shared)
      token := by
  by_cases hasToken : session.refreshToken = token
  · obtain ⟨generated, undrawn, held⟩ :=
      life.stored_of_member member hasToken
    refine .stored session generated member hasToken
      (undrawn.place fun drawn => by cases drawn) (held.place ?_)
    intro other shape _
    cases shape
    rfl
  · refine life.place Iff.rfl (fun _ _ => Iff.rfl) (fun _ kept _ => kept)
      (fun drawn => by cases drawn) ?_ ?_ (fun _ _ shape => by cases shape)
    · intro other shape otherToken
      cases shape
      exact (hasToken otherToken).elim
    · intro other shape otherToken
      cases shape
      exact (hasToken otherToken).elim

/-- Drawing a token begins its life; the other tokens are not touched. -/
theorem TokenLife.draw
    (life : view.TokenLife token)
    {earlier : TokenPhase}
    (present : view.progress pid = some ⟨call, earlier⟩)
    {origin : Option RefreshSession}
    (sameOrigin : ∀ session, origin = some session →
      earlier.exchanges = some session ∧
        earlier.origin = some session ∧
        earlier ≠ .selected session)
    {newToken : String}
    (fresh : newToken ∉ view.shared.generated) :
    TokenLife
      (view.place pid ⟨call, .adding origin newToken .listing⟩
        { view.shared with
          generated := view.shared.generated ++ [newToken] })
      token := by
  by_cases isNew : newToken = token
  · subst isNew
    cases life with
    | unborn notGenerated unstored undrawn unheld =>
        refine .drawn pid (List.mem_append_right _ List.mem_cons_self)
          unstored ?_ (unheld.place ?_)
        · refine DrawnOnlyBy.place ?_ fun _ => rfl
          intro other otherCall otherPhase otherPresent drawn
          cases undrawn other otherCall otherPhase otherPresent drawn
        · intro session shape hasToken
          exact unheld pid call earlier session present
            (sameOrigin session shape).2.1 hasToken
    | drawn owner generated =>
        exact (fresh generated).elim
    | stored session generated =>
        exact (fresh generated).elim
    | spent session generated =>
        exact (fresh generated).elim
  · refine life.place ?_ (fun _ _ => Iff.rfl) (fun _ kept _ => kept)
      (fun drawn => (isNew (Option.some.inj drawn)).elim) ?_ ?_
      (fun _ _ shape => by cases shape)
    · simp [Ne.symm isNew]
    · intro session shape _
      obtain ⟨_, sameSession, notSelected⟩ := sameOrigin session shape
      exact ⟨earlier, present, sameSession, fun _ selected =>
        (notSelected selected).elim⟩
    · intro session shape _
      exact ⟨earlier, present, (sameOrigin session shape).1⟩

/-- Deleting rows ends the life of a stored token among them. -/
theorem TokenLife.delete
    (life : view.TokenLife token)
    {earlier : TokenPhase}
    (present : view.progress pid = some ⟨call, earlier⟩)
    {condition : RefreshSession → Bool}
    (keepsAwaited :
      ∀ row ∈ view.shared.sessions.rows,
        condition row = true → ¬ view.Awaited row)
    (drawn : ∀ value, phase.drawn = some value → earlier.drawn = some value)
    (origin :
      ∀ session, phase.origin = some session → earlier.origin = some session)
    (exchanges :
      ∀ session,
        phase.exchanges = some session → earlier.exchanges = some session)
    (notWon : ∀ session newToken, phase ≠ .added (some session) newToken)
    (takesOwn :
      ∀ session, earlier = .selected session → condition session = true) :
    TokenLife
      (view.place pid ⟨call, phase⟩
        { view.shared with
          sessions := view.shared.sessions.deleteWhere condition })
      token := by
  by_cases hit :
      ∃ row ∈ view.shared.sessions.rows,
        row.refreshToken = token ∧ condition row = true
  · obtain ⟨row, member, hasToken, deleted⟩ := hit
    obtain ⟨generated, undrawn, held⟩ :=
      life.stored_of_member member hasToken
    have nobodyWon :
        ∀ winner newToken,
          ¬ Won
            (view.place pid ⟨call, phase⟩
              { view.shared with
                sessions := view.shared.sessions.deleteWhere condition })
            winner row newToken := by
      intro winner newToken won
      rcases won.of_place with ⟨_, shape⟩ | ⟨_, winnerCall, winnerPresent⟩
      · exact notWon row newToken shape
      · cases held winner winnerCall _ row winnerPresent rfl hasToken
    refine .spent row generated hasToken ?_
      (undrawn.place fun drawnNow =>
        undrawn pid call earlier present (drawn token drawnNow))
      (Held.place (fun other otherCall otherPhase session otherPresent
        otherOrigin otherToken => ?_) ?_) ?_ ?_
    · intro other otherMember otherToken
      obtain ⟨old, kept⟩ := SessionTable.mem_rows_deleteWhere.mp otherMember
      have same :=
        SessionTable.eq_of_refreshToken old member
          (otherToken.trans hasToken.symm)
      subst same
      rw [deleted] at kept
      cases kept
    · rw [held other otherCall otherPhase session otherPresent otherOrigin
        otherToken]
      rfl
    · intro session shape sessionToken
      have selected :=
        held pid call earlier session present (origin session shape)
          sessionToken
      have earlierOrigin := origin session shape
      rw [selected] at earlierOrigin
      rw [shape, ← earlierOrigin]
      rfl
    · intro left right leftToken _ leftWon
      exact (nobodyWon left leftToken leftWon).elim
    · intro winner other newToken _ winnerWon
      exact (nobodyWon winner newToken winnerWon).elim
  · refine life.place Iff.rfl ?_ ?_ ?_ ?_ ?_ ?_
    · intro row hasToken
      refine ⟨fun kept => (SessionTable.mem_rows_deleteWhere.mp kept).1,
        fun member => SessionTable.mem_rows_deleteWhere.mpr ⟨member, ?_⟩⟩
      exact Bool.eq_false_iff.mpr fun deleted =>
        hit ⟨row, member, hasToken, deleted⟩
    · intro row member awaited
      refine SessionTable.mem_rows_deleteWhere.mpr ⟨member, ?_⟩
      exact Bool.eq_false_iff.mpr fun deleted =>
        keepsAwaited row member deleted awaited
    · intro drawnNow
      exact ⟨earlier, present, drawn token drawnNow⟩
    · intro session shape hasToken
      refine ⟨earlier, present, origin session shape, ?_⟩
      intro member selected
      exact (hit ⟨session, member, hasToken, takesOwn session selected⟩).elim
    · intro session shape _
      exact ⟨earlier, present, exchanges session shape⟩
    · intro session newToken shape _
      exact (notWon session newToken shape).elim

/-- Inserting the drawn token stores it. -/
theorem TokenLife.insert_drawn
    {origin : Option RefreshSession}
    {session : NewRefreshSession}
    (life : view.TokenLife session.refreshToken)
    (present :
      view.progress pid =
        some ⟨call, .adding origin session.refreshToken .inserting⟩)
    {sessions : SessionTable}
    (inserted : view.shared.sessions.insert session = .ok sessions) :
    TokenLife
      (view.place pid ⟨call, .added origin session.refreshToken⟩
        { view.shared with sessions })
      session.refreshToken := by
  obtain ⟨rows, _, _⟩ := SessionTable.insert_ok inserted
  cases life with
  | unborn _ _ undrawn _ =>
      cases undrawn pid call _ present rfl
  | stored _ _ _ _ undrawn _ =>
      cases undrawn pid call _ present rfl
  | spent _ _ _ _ undrawn _ _ _ =>
      cases undrawn pid call _ present rfl
  | drawn owner generated unstored only unheld =>
      cases only pid call _ present rfl
      refine .stored (session.row view.shared.sessions.table.nextId) generated
        ?_ rfl ?_ (Held.place (fun other otherCall otherPhase held
          otherPresent otherOrigin otherToken => ?_) ?_)
      · change _ ∈ sessions.rows
        rw [rows]
        exact List.mem_append_right _ List.mem_cons_self
      · intro other otherCall otherPhase otherPresent drawn
        rcases Protocol.View.place_cases otherPresent with
            ⟨_, shape⟩ | ⟨different, earlier⟩
        · cases shape
          cases drawn
        · cases only other otherCall otherPhase earlier drawn
          exact (different rfl).elim
      · exact (unheld other otherCall otherPhase held otherPresent otherOrigin
          otherToken).elim
      · intro held shape heldToken
        exact (unheld pid call _ held present shape heldToken).elim

/--
Inserting in exchange for the row of a spent token succeeds only for the first
of its requests: the row of an earlier winner would clash.
-/
theorem TokenLife.insert_exchanged
    (life : view.TokenLife token)
    {origin : RefreshSession}
    (originToken : origin.refreshToken = token)
    {presented : String}
    (isRefresh : call = .refreshTokens presented origin.ip)
    {session : NewRefreshSession}
    (otherToken : session.refreshToken ≠ token)
    (present :
      view.progress pid =
        some ⟨call, .adding (some origin) session.refreshToken .inserting⟩)
    (sameUser : session.userId = origin.userId)
    (sameIp : session.ip = origin.ip)
    {sessions : SessionTable}
    (inserted : view.shared.sessions.insert session = .ok sessions) :
    TokenLife
      (view.place pid ⟨call, .added (some origin) session.refreshToken⟩
        { view.shared with sessions })
      token := by
  obtain ⟨rows, _, noClash⟩ := SessionTable.insert_ok inserted
  cases life with
  | unborn _ _ _ unheld =>
      exact (unheld pid call _ origin present rfl originToken).elim
  | drawn _ _ _ _ unheld =>
      exact (unheld pid call _ origin present rfl originToken).elim
  | stored _ _ _ _ _ held =>
      cases held pid call _ origin present rfl originToken
  | spent spentSession generated hasToken unstored undrawn held once backed =>
      cases held pid call _ origin present rfl originToken
      have nobodyWon :
          ∀ winner newToken,
            winner ≠ pid → ¬ view.Won winner origin newToken := by
        intro winner newToken different won
        obtain ⟨row, member, _, rowUser, rowIp⟩ :=
          backed winner pid newToken different won
            ⟨presented, _, isRefresh ▸ present, rfl⟩
        apply noClash row member
        rw [rowUser, rowIp, sameUser, sameIp]
      have onlyPid :
          ∀ winner newToken,
            Won
              (view.place pid
                ⟨call, .added (some origin) session.refreshToken⟩
                { view.shared with sessions })
              winner origin newToken →
            winner = pid ∧ newToken = session.refreshToken := by
        intro winner newToken won
        rcases won.of_place with ⟨same, shape⟩ | ⟨different, earlier⟩
        · cases shape
          exact ⟨same, rfl⟩
        · exact (nobodyWon winner newToken different earlier).elim
      refine .spent origin generated hasToken ?_
        (undrawn.place fun drawn => by cases drawn)
        (held.place fun other shape _ => by cases shape; rfl) ?_ ?_
      · intro row member rowToken
        change row ∈ sessions.rows at member
        rw [rows] at member
        rcases List.mem_append.mp member with old | new
        · exact unstored row old rowToken
        · rw [List.mem_singleton.mp new] at rowToken
          exact otherToken rowToken
      · intro left right leftToken rightToken leftWon rightWon
        rw [(onlyPid left leftToken leftWon).1,
          (onlyPid right rightToken rightWon).1]
      · intro winner other newToken _ winnerWon _
        obtain ⟨_, rfl⟩ := onlyPid winner newToken winnerWon
        refine ⟨session.row view.shared.sessions.table.nextId, ?_, rfl,
          sameUser, sameIp⟩
        change _ ∈ sessions.rows
        rw [rows]
        exact List.mem_append_right _ List.mem_cons_self

/-- Only a refresh from its address exchanges the row of the token. -/
structure Placed (call : AuthenticationCall) (phase : TokenPhase) : Prop where
  presents :
    ∀ session,
      phase.origin = some session →
      call.presents = some session.refreshToken
  refreshes :
    ∀ session,
      phase.spent = some session →
      ∃ token, call = .refreshTokens token session.ip

/-- Every move keeps requests placed. -/
theorem Placed.move
    {before after : AuthenticationState}
    {laterPhase : TokenPhase}
    (placed : Placed call phase)
    (move : TokenMove call before phase after laterPhase) :
    Placed call laterPhase := by
  cases move with
  | keep _ _ later =>
      rcases later with rfl | rfl | ⟨origin, token, stage, _, rfl, rfl⟩
      · exact ⟨fun _ shape => (by cases shape),
          fun _ shape => by cases shape⟩
      · exact placed
      · exact ⟨placed.presents, placed.refreshes⟩
  | select member presents =>
      refine ⟨fun session shape => ?_, fun _ shape => by cases shape⟩
      cases shape
      exact presents
  | draw fresh shape =>
      rcases shape with ⟨rfl, rfl⟩ | ⟨session, rfl, rfl⟩
      · exact ⟨fun _ shape => (by cases shape),
          fun _ shape => by cases shape⟩
      · exact ⟨placed.presents, placed.refreshes⟩
  | take later =>
      rcases later with rfl | ⟨rfl, isRefresh⟩
      · exact ⟨fun _ shape => (by cases shape),
          fun _ shape => by cases shape⟩
      · refine ⟨placed.presents, fun _ shape => ?_⟩
        cases shape
        exact isRefresh
  | wipe =>
      exact ⟨placed.presents, placed.refreshes⟩
  | insert =>
      exact ⟨placed.presents, placed.refreshes⟩

/-- Every move that keeps the awaited rows goes on with the life. -/
theorem TokenLife.move
    (life : view.TokenLife token)
    (placed : Placed call phase)
    (present : view.progress pid = some ⟨call, phase⟩)
    (keepsAwaited :
      ∀ row ∈ view.shared.sessions.rows,
        phase.deletes row → ¬ view.Awaited row)
    {laterPhase : TokenPhase}
    (move : TokenMove call view.shared phase shared laterPhase) :
    TokenLife (view.place pid ⟨call, laterPhase⟩ shared) token := by
  cases move with
  | keep sessions generated later =>
      have sameRows : shared.sessions.rows = view.shared.sessions.rows := by
        rw [sessions]
      refine life.place (by rw [generated]) (fun row _ => by rw [sameRows])
        (fun row member _ => sameRows ▸ member) ?_ ?_ ?_ ?_
      · intro drawn
        rcases later with rfl | rfl | ⟨origin, value, stage, _, rfl, rfl⟩
        · cases drawn
        · exact ⟨_, present, drawn⟩
        · exact ⟨_, present, drawn⟩
      · intro session shape _
        rcases later with rfl | rfl | ⟨origin, value, stage, _, rfl, rfl⟩
        · cases shape
        · exact ⟨_, present, shape, fun _ selected => selected⟩
        · exact ⟨_, present, shape, fun _ selected => by cases selected⟩
      · intro session shape _
        rcases later with rfl | rfl | ⟨origin, value, stage, _, rfl, rfl⟩
        · cases shape
        · exact ⟨_, present, shape⟩
        · exact ⟨_, present, shape⟩
      · intro session newToken shape _
        rcases later with rfl | rfl | ⟨origin, value, stage, _, rfl, rfl⟩
        · cases shape
        · exact present
        · cases shape
  | select member presents =>
      exact life.select member
  | draw fresh shape =>
      refine life.draw present ?_ fresh
      intro session origin
      rcases shape with ⟨rfl, rfl⟩ | ⟨exchanged, rfl, rfl⟩
      · cases origin
      · exact ⟨origin, origin, fun selected => by cases selected⟩
  | @take session laterPhase later =>
      refine life.delete present ?_ ?_ ?_ ?_ ?_ ?_
      · intro row member deleted
        exact keepsAwaited row member
          (by simpa [TokenPhase.deletes] using deleted)
      · rcases later with rfl | ⟨rfl, _⟩
        · exact fun _ shape => by cases shape
        · exact fun _ shape => by cases shape
      · rcases later with rfl | ⟨rfl, _⟩
        · exact fun _ shape => by cases shape
        · exact fun _ shape => shape
      · rcases later with rfl | ⟨rfl, _⟩
        · exact fun _ shape => by cases shape
        · exact fun _ shape => shape
      · rcases later with rfl | ⟨rfl, _⟩
        · exact fun _ _ shape => by cases shape
        · exact fun _ _ shape => by cases shape
      · intro own shape
        cases shape
        simp
  | wipe =>
      refine life.delete present ?_ (fun _ shape => shape)
        (fun _ shape => shape) (fun _ shape => shape)
        (fun _ _ shape => by cases shape) (fun _ shape => by cases shape)
      intro row member deleted
      exact keepsAwaited row member
        (by simpa [TokenPhase.deletes] using deleted)
  | @insert origin session sessions inserted sameOwner =>
      by_cases isToken : session.refreshToken = token
      · subst isToken
        exact life.insert_drawn present inserted
      · by_cases exchanged :
            ∃ row, origin = some row ∧ row.refreshToken = token
        · obtain ⟨row, rfl, rowToken⟩ := exchanged
          obtain ⟨presented, isRefresh⟩ := placed.refreshes row rfl
          obtain ⟨sameUser, sameIp⟩ := sameOwner row rfl
          exact life.insert_exchanged rowToken isRefresh isToken present
            sameUser sameIp inserted
        · obtain ⟨rows, _, _⟩ := SessionTable.insert_ok inserted
          have sameRows :
              ∀ row, row ∈ sessions.rows ↔
                row ∈ view.shared.sessions.rows ∨
                  row = session.row view.shared.sessions.table.nextId := by
            intro row
            rw [rows]
            simp
          refine life.place Iff.rfl ?_
            (fun row member _ => (sameRows row).mpr (.inl member))
            (fun drawn => by cases drawn) ?_
            (fun _ shape => by cases shape) ?_
          · intro row hasToken
            refine (sameRows row).trans ⟨fun member => ?_, .inl⟩
            rcases member with old | rfl
            · exact old
            · exact (isToken hasToken).elim
          · intro row shape rowToken
            exact (exchanged ⟨row, shape, rowToken⟩).elim
          · intro row newToken shape rowToken
            cases shape
            exact (exchanged ⟨row, rfl, rowToken⟩).elim

/-- A request that begins has read and drawn nothing. -/
theorem TokenLife.invoke
    (life : view.TokenLife token) :
    TokenLife (view.place pid ⟨call, .preparing⟩ view.shared) token :=
  life.place Iff.rfl (fun _ _ => Iff.rfl) (fun _ kept _ => kept)
    (fun drawn => by cases drawn) (fun _ shape => by cases shape)
    (fun _ shape => by cases shape) (fun _ _ shape => by cases shape)

end Place

/-- All requests are placed. -/
def AllPlaced (view : TokenView config) : Prop :=
  ∀ pid call phase,
    view.progress pid = some ⟨call, phase⟩ → Placed call phase

/-- Every turn keeps all requests placed. -/
theorem AllPlaced.step
    {before after : TokenView config}
    {turn : Turn AuthenticationCall AuthenticationInput}
    (placed : before.AllPlaced)
    (moves :
      (tokenProtocol config).Moves (authenticationService config)
        before turn after) :
    after.AllPlaced := by
  intro other otherCall otherPhase present
  cases moves with
  | invoke fresh begun =>
      rcases Protocol.View.place_cases present with
          ⟨_, shape⟩ | ⟨_, earlier⟩
      · cases shape
        exact ⟨fun _ shape => (by cases shape),
          fun _ shape => by cases shape⟩
      · exact placed other otherCall otherPhase earlier
  | resume earlierPresent permitted answered =>
      rcases Protocol.View.place_cases present with
          ⟨_, shape⟩ | ⟨_, earlier⟩
      · cases shape
        exact (placed _ _ _ earlierPresent).move
          (TokenMove.of_answered permitted answered)
      · exact placed other otherCall otherPhase earlier

/-- All requests are placed, and the token is somewhere in its life. -/
structure Exchanging (token : String) (view : TokenView config) : Prop where
  placed : view.AllPlaced
  life : view.TokenLife token

namespace Exchanging

variable {token : String}

theorem initially (users : UserTable) :
    Exchanging token
      (Protocol.View.initial (tokenProtocol config) (.initial users)) where
  placed := fun _ _ _ present => by cases present
  life := .unborn (fun member => by cases member)
    (fun _ member => by cases member)
    (fun _ _ _ present => by cases present)
    (fun _ _ _ _ present => by cases present)

/-- Every turn that keeps the awaited rows keeps the invariant. -/
theorem step
    {before after : TokenView config}
    {turn : Turn AuthenticationCall AuthenticationInput}
    (exchanging : Exchanging token before)
    (taken :
      before.KeepsAwaitedRows turn ∧
        (tokenProtocol config).Moves (authenticationService config)
          before turn after) :
    Exchanging token after := by
  obtain ⟨keeps, moves⟩ := taken
  refine ⟨exchanging.placed.step moves, ?_⟩
  cases moves with
  | @invoke pid call shared fresh begun =>
      cases begun
      exact exchanging.life.invoke
  | @resume pid call phase op input answer shared present permitted
      answered =>
      exact exchanging.life.move (exchanging.placed pid call phase present)
        present (keeps pid input call phase rfl present)
        (TokenMove.of_answered permitted answered)

/-- Two requests that were answered for the token are one. -/
theorem eq_of_won
    {view : TokenView config}
    (exchanging : Exchanging token view)
    {left right : Nat}
    {leftSession rightSession : RefreshSession}
    {leftToken rightToken : String}
    (leftWon : view.Won left leftSession leftToken)
    (rightWon : view.Won right rightSession rightToken)
    (leftPresents : leftSession.refreshToken = token)
    (rightPresents : rightSession.refreshToken = token) :
    left = right := by
  obtain ⟨leftCall, leftPresent⟩ := leftWon
  obtain ⟨rightCall, rightPresent⟩ := rightWon
  cases exchanging.life with
  | unborn _ _ _ unheld =>
      exact (unheld _ _ _ _ leftPresent rfl leftPresents).elim
  | drawn _ _ _ _ unheld =>
      exact (unheld _ _ _ _ leftPresent rfl leftPresents).elim
  | stored _ _ _ _ _ held =>
      cases held _ _ _ _ leftPresent rfl leftPresents
  | spent session _ _ _ _ held once _ =>
      cases held _ _ _ _ leftPresent rfl leftPresents
      cases held _ _ _ _ rightPresent rfl rightPresents
      exact once left right leftToken rightToken
        ⟨leftCall, leftPresent⟩ ⟨rightCall, rightPresent⟩

end Exchanging

end TokenView

/-- The call `pid` is a refresh of the token that was answered with tokens. -/
def ExchangedBy
    {config : AuthenticationConfig}
    (final : Interleaving AuthenticationState (tokenProtocol config))
    (token : String)
    (pid : Nat) :
    Prop :=
  ∃ process ip pair,
    final.processes pid = some process ∧
      process.call = .refreshTokens token ip ∧
      final.reply pid = some (.tokens pair)

/-- The answered refresh has inserted a row in exchange for one of the token. -/
theorem ExchangedBy.won
    {config : AuthenticationConfig}
    {final : Interleaving AuthenticationState (tokenProtocol config)}
    (conforming : final.Conforming)
    {token : String}
    (exchanging : TokenView.Exchanging token final.view)
    {pid : Nat}
    (exchanged : ExchangedBy final token pid) :
    ∃ session newToken,
      TokenView.Won final.view pid session newToken ∧
        session.refreshToken = token := by
  obtain ⟨process, ip, pair, present, isRefresh, replied⟩ := exchanged
  obtain ⟨call, phase, inPhase, finishes⟩ := conforming.finishes replied
  obtain ⟨origin, rfl, hasOrigin⟩ := finishes
  have sameCall : call = .refreshTokens token ip := by
    simp only [Interleaving.view, present, Option.map_some,
      Option.some.injEq] at inPhase
    rw [← isRefresh]
    exact (congrArg Protocol.Progress.call inPhase).symm
  subst sameCall
  obtain ⟨session, rfl⟩ := Option.isSome_iff_exists.mp (hasOrigin rfl)
  refine ⟨session, pair.refreshToken, ⟨_, inPhase⟩, ?_⟩
  have presents :=
    (exchanging.placed pid _ _ inPhase).presents session rfl
  exact (Option.some.inj presents).symm

/--
In every interleaving whose statements delete no awaited row, a refresh token
is exchanged for new tokens at most once.
-/
theorem refreshToken_exchangedOnce
    (config : AuthenticationConfig)
    (users : UserTable)
    (turns : List (Turn AuthenticationCall AuthenticationInput))
    (final : Interleaving AuthenticationState (tokenProtocol config))
    (run :
      Run
        (Interleaving.Step (authenticationService config)
          TokenView.KeepsAwaitedRows)
        (.initial (tokenProtocol config) (.initial users)) turns final)
    (token : String)
    (left right : Nat)
    (leftExchanged : ExchangedBy final token left)
    (rightExchanged : ExchangedBy final token right) :
    left = right := by
  obtain ⟨moves, conforming⟩ :=
    Interleaving.moves_of_run (TokenPhase.conforms_routes config) run
  have exchanging :=
    moves.invariant (TokenView.Exchanging token)
      (fun _ _ _ exchanging taken => exchanging.step taken)
      (TokenView.Exchanging.initially users)
  obtain ⟨_, _, leftWon, leftPresents⟩ :=
    leftExchanged.won conforming exchanging
  obtain ⟨_, _, rightWon, rightPresents⟩ :=
    rightExchanged.won conforming exchanging
  exact exchanging.eq_of_won leftWon rightWon leftPresents rightPresents

/-- The condition on a turn, for requests with identifiers below a bound. -/
def checksAwaitedRows
    (bound : Nat)
    {config : AuthenticationConfig}
    (view : TokenView config)
    (turn : Turn AuthenticationCall AuthenticationInput) :
    Bool :=
  match view.progress turn.pid with
  | none => true
  | some ⟨_, phase⟩ =>
      view.shared.sessions.rows.all fun row =>
        !phase.removes row ||
          (List.range bound).all fun winner =>
            match view.progress winner with
            | some ⟨_, .added (some session) newToken⟩ =>
                newToken != row.refreshToken ||
                  (List.range bound).all fun other =>
                    winner == other ||
                      match view.progress other with
                      | some ⟨_, racing⟩ => racing.exchanges != some session
                      | none => true
            | _ => true

theorem checksAwaitedRows_ensures
    {bound : Nat}
    {config : AuthenticationConfig}
    {calls : Interleaving AuthenticationState (tokenProtocol config)}
    (below : calls.Below bound)
    (turn : Turn AuthenticationCall AuthenticationInput)
    (passed : checksAwaitedRows bound calls.view turn = true) :
    TokenView.KeepsAwaitedRows calls.view turn := by
  rintro pid input call phase rfl present row member deletes
    ⟨winner, other, session, different, ⟨winnerCall, won⟩, token, racing, found, exchanges⟩
  simp only [checksAwaitedRows, Turn.pid, present] at passed
  have rowKept := List.all_eq_true.mp passed row member
  rw [TokenPhase.removes_of_deletes deletes] at rowKept
  have winnerKept :=
    List.all_eq_true.mp (by simpa using rowKept) winner (below.mem_range won)
  simp only [won, bne_self_eq_false, Bool.false_or] at winnerKept
  have otherKept := List.all_eq_true.mp winnerKept other (below.mem_range found)
  simp [different, found, exchanges] at otherKept

/-- One user has logged in and holds the token `t1`. -/
def loginTurns : List (Turn AuthenticationCall AuthenticationInput) :=
  [.invoke 0 (.login ⟨"ada", "secret"⟩ "10.0.0.1"),
    .resume 0 .statement, .resume 0 .statement, .resume 0 (.verdict true),
    .resume 0 (.text "jwt"), .resume 0 (.text "t1"), .resume 0 .statement,
    .resume 0 (.time 0), .resume 0 .statement]

/-- The turns of a refresh after its row is read, up to the new token. -/
def exchangeTurns (pid : Nat) (newToken : String) :
    List (Turn AuthenticationCall AuthenticationInput) :=
  [.resume pid .statement, .resume pid (.time 1), .resume pid (.text "jwt"),
    .resume pid (.text newToken), .resume pid .statement,
    .resume pid (.time 1), .resume pid .statement]

/-- The state in which one user is registered. -/
def oneUser : AuthenticationState :=
  .initial (.single ⟨"ada", "Ada", "ada@host", "#"⟩)

/--
Two refreshes both read the row of `t1` before either deletes it.  The first one
is answered with `t2`, and the insert of the second one meets the row of `t2`.
-/
def racingTurns : List (Turn AuthenticationCall AuthenticationInput) :=
  loginTurns ++
    [.invoke 1 (.refreshTokens "t1" "10.0.0.1"),
      .invoke 2 (.refreshTokens "t1" "10.0.0.1"),
      .resume 2 .statement, .resume 1 .statement] ++
    exchangeTurns 1 "t2" ++ exchangeTurns 2 "t3"

/-- Of two racing refreshes one exchanges the token of the login. -/
theorem refreshToken_exchangedOnce_racing :
    ∃ final : Interleaving AuthenticationState (tokenProtocol {}),
      Run
          (Interleaving.Step (authenticationService {}) TokenView.KeepsAwaitedRows)
          (.initial (tokenProtocol {}) oneUser) racingTurns final ∧
        ExchangedBy final "t1" 1 ∧
        (∃ process,
          final.processes 2 = some process ∧
            process.call = .refreshTokens "t1" "10.0.0.1" ∧
            process.residual.isSettled = true) ∧
        ∀ other, ExchangedBy final "t1" other → 1 = other := by
  have run
      (final : Interleaving AuthenticationState (tokenProtocol {}))
      (executed :
        (Interleaving.initial (tokenProtocol {}) oneUser).executeIf
            (authenticationService {}) (checksAwaitedRows 3) racingTurns =
          some final) :=
    Interleaving.run_of_executeIf_below
      (fun _ below turn passed => checksAwaitedRows_ensures below turn passed)
      (fun _ _ => rfl) (by decide) executed
  obtain ⟨final, guarded, exchanged, settled⟩ :
      ∃ final : Interleaving AuthenticationState (tokenProtocol {}),
        Run
            (Interleaving.Step (authenticationService {}) TokenView.KeepsAwaitedRows)
            (.initial (tokenProtocol {}) oneUser) racingTurns final ∧
          ExchangedBy final "t1" 1 ∧
          ∃ process,
            final.processes 2 = some process ∧
              process.call = .refreshTokens "t1" "10.0.0.1" ∧
              process.residual.isSettled = true :=
    ⟨_, run _ rfl, ⟨_, _, _, rfl, rfl, rfl⟩, _, rfl, rfl, rfl⟩
  exact ⟨final, guarded, exchanged, settled, fun other otherExchanged =>
    refreshToken_exchangedOnce {} _ _ final guarded "t1" 1 other exchanged
      otherExchanged⟩

/--
Two refreshes both read the row of `t1`.  The first one is answered, its new
row is deleted by a logout, and the insert of the second one succeeds too.
-/
theorem refreshToken_exchangedTwice :
    ∃ final,
      Run
        (Interleaving.Step (authenticationService {}) fun _ _ => True)
        (.initial (tokenProtocol {}) oneUser)
        (loginTurns ++
          [.invoke 1 (.refreshTokens "t1" "10.0.0.1"),
            .invoke 2 (.refreshTokens "t1" "10.0.0.1"),
            .resume 2 .statement, .resume 1 .statement] ++
          exchangeTurns 1 "t2" ++
          [.invoke 3 (.logout "t2" "10.0.0.1"),
            .resume 3 .statement, .resume 3 .statement] ++
          exchangeTurns 2 "t3")
        final ∧
      ExchangedBy final "t1" 1 ∧
      ExchangedBy final "t1" 2 :=
  ⟨_, Interleaving.run_of_foldlM rfl, ⟨_, _, _, rfl, rfl, rfl⟩,
    ⟨_, _, _, rfl, rfl, rfl⟩⟩

end Prescott
