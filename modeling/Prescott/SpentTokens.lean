import Prescott.AccessRuns

namespace Prescott

/-!
# Spent refresh tokens

A refresh token is drawn once, inserted once and deleted at most once.  So a
token that a request has used up, by a refresh or by a logout, is dead in every
interleaving: no request that begins afterwards can use it.
-/

section Answers

variable {op : AuthenticationOp}
variable {input : AuthenticationInput}
variable {before after : AuthenticationState}
variable {answer : Except AppError op.Result}

/-- Tokens are generated by `randomUUID` only. -/
theorem generated_of_answered
    (answered : authenticationHost op input before = some (answer, after)) :
    after.generated = before.generated ∨
      op = .randomUUID ∧
        ∃ token ∉ before.generated, after.generated = before.generated ++ [token] := by
  cases op with
  | randomUUID =>
      cases input with
      | text token =>
          simp only [authenticationHost] at answered
          split at answered
          · cases answered
          · rename_i fresh
            cases answered
            exact .inr ⟨rfl, token, fresh, rfl⟩
      | _ => cases answered
  | insertUser data =>
      cases input with
      | statement =>
          simp only [authenticationHost] at answered
          split at answered <;> cases answered <;> exact .inl rfl
      | _ => cases answered
  | insertSession session =>
      cases input with
      | statement =>
          have effect := Option.some.inj answered
          unfold AuthenticationState.insertSession at effect
          split at effect
          · split at effect <;> cases effect <;> exact .inl rfl
          · cases effect
            exact .inl rfl
      | _ => cases answered
  | _ => cases input <;> cases answered <;> exact .inl rfl

theorem mem_generated_kept
    (answered : authenticationHost op input before = some (answer, after))
    {token : String}
    (member : token ∈ before.generated) :
    token ∈ after.generated := by
  rcases generated_of_answered answered with same | ⟨_, _, _, same⟩
  · exact same ▸ member
  · rw [same]
    exact List.mem_append_left _ member

end Answers

namespace AccessPhase

variable {call : AuthenticationCall}
variable {phase : AccessPhase}
variable {op : AuthenticationOp}

/-- A session is inserted with the token that its request has drawn. -/
theorem drawn_of_insertSession
    {session : NewRefreshSession}
    (permitted : phase.permits call (.insertSession session)) :
    phase.drawn = some session.refreshToken := by
  cases phase <;> simp [permits] at permitted
  case beginning => cases call <;> simp at permitted
  case issuing => simp [drawn, permitted.2.1]

/-- A drawn token was drawn before, or it is the answer of `randomUUID`. -/
theorem drawn_advance
    {input : AuthenticationInput}
    {before after : AuthenticationState}
    {answer : Except AppError op.Result}
    (answered : authenticationHost op input before = some (answer, after))
    (permitted : phase.permits call op)
    {token : String}
    (drawn : (phase.advance call op answer).drawn = some token) :
    phase.drawn = some token ∨
      token ∉ before.generated ∧ token ∈ after.generated := by
  have advances := advances_advance answer permitted
  generalize phase.advance call op answer = next at advances drawn
  cases advances with
  | stays => exact .inl drawn
  | drawn =>
      cases input <;> try cases answered
      simp only [authenticationHost] at answered
      split at answered
      · cases answered
      · rename_i fresh
        cases answered
        obtain rfl := Option.some.inj drawn
        exact .inr ⟨fresh, List.mem_append_right _ (List.mem_singleton.mpr rfl)⟩
  | _ => cases drawn

/-- A row is selected by the token that the request presents. -/
theorem selected_advance
    {input : AuthenticationInput}
    {before after : AuthenticationState}
    {answer : Except AppError op.Result}
    (answered : authenticationHost op input before = some (answer, after))
    (permitted : phase.permits call op)
    {session : RefreshSession}
    (selected : phase.advance call op answer = .selected session) :
    session ∈ before.sessions.rows ∧ call.presents = some session.refreshToken ∧
      after = before := by
  have advances := advances_advance answer permitted
  generalize phase.advance call op answer = next at advances selected
  cases advances with
  | stays _ notSelected => exact (notSelected session selected).elim
  | selected presents =>
      cases selected
      cases input <;> try cases answered
      obtain ⟨found, sameState⟩ := Prod.mk.inj (Option.some.inj answered)
      obtain ⟨member, hasToken⟩ := Table.mem_of_first (Except.ok.inj found)
      rw [beq_iff_eq] at hasToken
      exact ⟨member, by rw [presents, hasToken], sameState.symm⟩
  | _ => cases selected

/-- A request has its origin before, or it deletes the row it has selected. -/
theorem origin_advance
    {answer : Except AppError op.Result}
    (permitted : phase.permits call op)
    {session : RefreshSession}
    (origin : (phase.advance call op answer).origin = some session) :
    phase.origin = some session ∨
      phase = .selected session ∧ op = .deleteSessionById session.id ∧
        answer.isOk = true := by
  have advances := advances_advance answer permitted
  generalize phase.advance call op answer = next at advances origin
  cases advances with
  | stays | signed | drawn | issued => exact .inl origin
  | taken =>
      cases origin
      exact .inr ⟨rfl, rfl, rfl⟩
  | _ => cases origin

end AccessPhase

namespace AccessView

/--
The token is generated and no request has yet to insert it, and only rows with
these identifiers have it.
-/
structure OnlyIn (view : AccessView) (token : String) (ids : Nat → Prop) : Prop where
  generated : token ∈ view.shared.generated
  notDrawn :
    ∀ pid call phase,
      view.progress pid = some ⟨call, phase⟩ → phase.drawn ≠ some token
  rows :
    ∀ row ∈ view.shared.sessions.rows, row.refreshToken = token → ids row.id

/-- The token is in no row and never will be. -/
def Dead (view : AccessView) (token : String) : Prop :=
  view.OnlyIn token fun _ => False

variable {config : AuthenticationConfig}
variable {view after : AccessView}
variable {token : String}
variable {turn : Turn AuthenticationCall AuthenticationInput}

/-- No turn brings such a token into another row. -/
theorem OnlyIn.step
    {ids : Nat → Prop}
    (only : view.OnlyIn token ids)
    (moved :
      accessProtocol.Moves (authenticationService config) view turn after) :
    after.OnlyIn token ids := by
  cases moved with
  | @invoke pid call shared fresh begun =>
      cases begun
      refine ⟨only.generated, ?_, only.rows⟩
      intro other otherCall otherPhase found
      rcases Protocol.View.place_cases found with ⟨_, shape⟩ | ⟨_, earlier⟩
      · cases shape
        nofun
      · exact only.notDrawn _ _ _ earlier
  | @resume pid call phase op input answer shared present permitted answered =>
      refine ⟨mem_generated_kept answered only.generated, ?_, ?_⟩
      · intro other otherCall otherPhase found drawn
        rcases Protocol.View.place_cases found with ⟨_, shape⟩ | ⟨_, earlier⟩
        · cases shape
          rcases AccessPhase.drawn_advance answered permitted drawn with
              before | ⟨fresh, _⟩
          · exact only.notDrawn _ _ _ present before
          · exact fresh only.generated
        · exact only.notDrawn _ _ _ earlier drawn
      · intro row member sameToken
        rcases mem_sessions_of_answered answered member with
            old | ⟨new, id, rfl, rfl, _⟩
        · exact only.rows row old sameToken
        · have drawn := AccessPhase.drawn_of_insertSession permitted
          rw [show new.refreshToken = token from sameToken] at drawn
          exact (only.notDrawn _ _ _ present drawn).elim

/-- Where the tokens of the rows and of the requests are. -/
structure TokensPlaced (view : AccessView) : Prop where
  stored :
    ∀ row ∈ view.shared.sessions.rows, row.refreshToken ∈ view.shared.generated
  drawn :
    ∀ pid call phase token,
      view.progress pid = some ⟨call, phase⟩ →
      phase.drawn = some token →
      token ∈ view.shared.generated ∧
        ∀ row ∈ view.shared.sessions.rows, row.refreshToken ≠ token
  drawnApart :
    ∀ pid other call otherCall phase otherPhase token,
      view.progress pid = some ⟨call, phase⟩ →
      view.progress other = some ⟨otherCall, otherPhase⟩ →
      phase.drawn = some token →
      otherPhase.drawn = some token →
      pid = other
  selected :
    ∀ pid call session,
      view.progress pid = some ⟨call, .selected session⟩ →
      call.presents = some session.refreshToken ∧
        view.OnlyIn session.refreshToken fun id => id = session.id
  spent :
    ∀ pid call phase session,
      view.progress pid = some ⟨call, phase⟩ →
      phase.origin = some session →
      call.presents = some session.refreshToken ∧ view.Dead session.refreshToken

/-- The token of a row is in no other row and has not to be inserted any more. -/
theorem TokensPlaced.onlyIn_of_member
    (placed : view.TokensPlaced)
    {session : RefreshSession}
    (member : session ∈ view.shared.sessions.rows) :
    view.OnlyIn session.refreshToken fun id => id = session.id where
  generated := placed.stored session member
  notDrawn := by
    intro pid call phase present drawn
    exact (placed.drawn pid call phase _ present drawn).2 session member rfl
  rows := by
    intro row rowMember sameToken
    rw [SessionTable.eq_of_refreshToken rowMember member sameToken]

theorem TokensPlaced.step
    (placed : view.TokensPlaced)
    (moved :
      accessProtocol.Moves (authenticationService config) view turn after) :
    after.TokensPlaced := by
  have keepsOnly : ∀ {token ids}, view.OnlyIn token ids → after.OnlyIn token ids :=
    fun only => only.step moved
  cases moved with
  | @invoke pid call shared fresh begun =>
      cases begun
      refine ⟨placed.stored, ?_, ?_, ?_, ?_⟩
      · intro other otherCall otherPhase token found drawn
        rcases Protocol.View.place_cases found with ⟨_, shape⟩ | ⟨_, earlier⟩
        · cases shape
          cases drawn
        · exact placed.drawn _ _ _ _ earlier drawn
      · intro one other oneCall otherCall onePhase otherPhase token oneFound
          otherFound oneDrawn otherDrawn
        rcases Protocol.View.place_cases oneFound with ⟨_, shape⟩ | ⟨_, oneEarlier⟩
        · cases shape
          cases oneDrawn
        rcases Protocol.View.place_cases otherFound with ⟨_, shape⟩ | ⟨_, otherEarlier⟩
        · cases shape
          cases otherDrawn
        exact placed.drawnApart _ _ _ _ _ _ _ oneEarlier otherEarlier oneDrawn otherDrawn
      · intro other otherCall session found
        rcases Protocol.View.place_cases found with ⟨_, shape⟩ | ⟨_, earlier⟩
        · cases shape
        · have before := placed.selected _ _ _ earlier
          exact ⟨before.1, keepsOnly before.2⟩
      · intro other otherCall otherPhase session found origin
        rcases Protocol.View.place_cases found with ⟨_, shape⟩ | ⟨_, earlier⟩
        · cases shape
          cases origin
        · have before := placed.spent _ _ _ _ earlier origin
          exact ⟨before.1, keepsOnly before.2⟩
  | @resume pid call phase op input answer shared present permitted answered =>
      refine ⟨?_, ?_, ?_, ?_, ?_⟩
      · intro row member
        rcases mem_sessions_of_answered answered member with
            old | ⟨new, id, rfl, rfl, _⟩
        · exact mem_generated_kept answered (placed.stored row old)
        · exact mem_generated_kept answered
            (placed.drawn _ _ _ _ present (AccessPhase.drawn_of_insertSession permitted)).1
      · -- a drawn token is fresh, and it is stored when it is no longer drawn
        intro other otherCall otherPhase token found drawn
        have notInserted :
            ∀ new id,
              op = .insertSession new →
              answer.isOk = true →
              (new.row id).refreshToken = token →
              phase.drawn = some token →
              False := by
          rintro new id rfl isOk rfl ownDrawn
          rcases Protocol.View.place_cases found with ⟨_, shape⟩ | ⟨different, earlier⟩
          · cases shape
            cases answer with
            | error reason => cases isOk
            | ok done =>
                cases phase <;> simp [AccessPhase.permits] at permitted
                case beginning => cases call <;> simp at permitted
                case issuing => cases drawn
          · exact different
              (placed.drawnApart _ _ _ _ _ _ _ earlier present drawn ownDrawn)
        have before :
            token ∈ shared.generated ∧
              ∀ row ∈ view.shared.sessions.rows, row.refreshToken ≠ token := by
          rcases Protocol.View.place_cases found with ⟨_, shape⟩ | ⟨_, earlier⟩
          · cases shape
            rcases AccessPhase.drawn_advance answered permitted drawn with
                earlier | ⟨fresh, generated⟩
            · have known := placed.drawn _ _ _ _ present earlier
              exact ⟨mem_generated_kept answered known.1, known.2⟩
            · refine ⟨generated, fun row member sameToken => fresh ?_⟩
              rw [← sameToken]
              exact placed.stored row member
          · have known := placed.drawn _ _ _ _ earlier drawn
            exact ⟨mem_generated_kept answered known.1, known.2⟩
        refine ⟨before.1, fun row member sameToken => ?_⟩
        rcases mem_sessions_of_answered answered member with
            old | ⟨new, id, isInsert, rfl, isOk⟩
        · exact before.2 row old sameToken
        · refine notInserted new id isInsert isOk sameToken ?_
          subst isInsert
          rw [← sameToken]
          exact AccessPhase.drawn_of_insertSession permitted
      · intro one other oneCall otherCall onePhase otherPhase token oneFound
          otherFound oneDrawn otherDrawn
        have ofPlaced :
            ∀ {third thirdCall thirdPhase},
              view.progress third = some ⟨thirdCall, thirdPhase⟩ →
              thirdPhase.drawn = some token →
              (phase.advance call op answer).drawn = some token →
              third = pid := by
          intro third thirdCall thirdPhase earlier drawn ownDrawn
          rcases AccessPhase.drawn_advance answered permitted ownDrawn with
              before | ⟨fresh, _⟩
          · exact placed.drawnApart _ _ _ _ _ _ _ earlier present drawn before
          · exact (fresh (placed.drawn _ _ _ _ earlier drawn).1).elim
        rcases Protocol.View.place_cases oneFound with ⟨rfl, oneShape⟩ | ⟨_, oneEarlier⟩
        · rcases Protocol.View.place_cases otherFound with
              ⟨rfl, _⟩ | ⟨_, otherEarlier⟩
          · rfl
          · cases oneShape
            exact (ofPlaced otherEarlier otherDrawn oneDrawn).symm
        · rcases Protocol.View.place_cases otherFound with
              ⟨rfl, otherShape⟩ | ⟨_, otherEarlier⟩
          · cases otherShape
            exact ofPlaced oneEarlier oneDrawn otherDrawn
          · exact placed.drawnApart _ _ _ _ _ _ _ oneEarlier otherEarlier oneDrawn
              otherDrawn
      · intro other otherCall session found
        rcases Protocol.View.place_cases found with ⟨_, shape⟩ | ⟨_, earlier⟩
        · obtain ⟨rfl, shape⟩ := Protocol.Progress.mk.inj shape
          obtain ⟨member, presents, _⟩ :=
            AccessPhase.selected_advance answered permitted shape.symm
          exact ⟨presents, keepsOnly (placed.onlyIn_of_member member)⟩
        · have before := placed.selected _ _ _ earlier
          exact ⟨before.1, keepsOnly before.2⟩
      · intro other otherCall otherPhase session found origin
        rcases Protocol.View.place_cases found with ⟨_, shape⟩ | ⟨_, earlier⟩
        · obtain ⟨rfl, rfl⟩ := Protocol.Progress.mk.inj shape
          rcases AccessPhase.origin_advance permitted origin with
              before | ⟨rfl, rfl, _⟩
          · have known := placed.spent _ _ _ _ present before
            exact ⟨known.1, keepsOnly known.2⟩
          · -- the deleted row was the only one with the token
            obtain ⟨presents, only⟩ := placed.selected _ _ _ present
            have later := keepsOnly only
            refine ⟨presents, later.generated, later.notDrawn, ?_⟩
            intro row member sameToken
            have hasId := later.rows row member sameToken
            cases input <;> cases answered
            have deleted := (SessionTable.mem_rows_deleteWhere.mp member).2
            rw [beq_eq_false_iff_ne] at deleted
            exact deleted hasId
        · have before := placed.spent _ _ _ _ earlier origin
          exact ⟨before.1, keepsOnly before.2⟩

theorem TokensPlaced.initially (users : UserTable) :
    TokensPlaced (.initial accessProtocol (.initial users)) where
  stored := by
    rintro row ⟨⟩
  drawn := by
    rintro pid call phase token ⟨⟩
  drawnApart := by
    rintro pid other call otherCall phase otherPhase token ⟨⟩
  selected := by
    rintro pid call session ⟨⟩
  spent := by
    rintro pid call phase session ⟨⟩

/-- Requests that come too late for a token never select a row by it. -/
structure TooLate (view : AccessView) (token : String) (late : Nat → Prop) : Prop where
  dead : view.Dead token
  neverOrigin :
    ∀ pid call phase,
      late pid →
      view.progress pid = some ⟨call, phase⟩ →
      call.presents = some token →
      phase.origin = none ∧ ∀ session, phase ≠ .selected session

theorem TooLate.step
    {late : Nat → Prop}
    (tooLate : view.TooLate token late)
    (moved :
      accessProtocol.Moves (authenticationService config) view turn after) :
    after.TooLate token late := by
  refine ⟨tooLate.dead.step moved, ?_⟩
  intro other otherCall otherPhase isLate found presents
  cases moved with
  | @invoke pid call shared fresh begun =>
      rcases Protocol.View.place_cases found with ⟨_, shape⟩ | ⟨_, earlier⟩
      · cases shape
        exact ⟨rfl, nofun⟩
      · exact tooLate.neverOrigin _ _ _ isLate earlier presents
  | @resume pid call phase op input answer shared present permitted answered =>
      rcases Protocol.View.place_cases found with ⟨rfl, shape⟩ | ⟨_, earlier⟩
      · obtain ⟨rfl, rfl⟩ := Protocol.Progress.mk.inj shape
        have before := tooLate.neverOrigin _ _ _ isLate present presents
        constructor
        · by_contra hasOrigin
          obtain ⟨session, origin⟩ := Option.ne_none_iff_exists'.mp hasOrigin
          rcases AccessPhase.origin_advance permitted origin with
              earlier | ⟨selected, _⟩
          · rw [before.1] at earlier
            cases earlier
          · exact before.2 session selected
        · intro session selected
          obtain ⟨member, hasToken, _⟩ :=
            AccessPhase.selected_advance answered permitted selected
          rw [presents] at hasToken
          exact tooLate.dead.rows session member (Option.some.inj hasToken).symm
      · exact tooLate.neverOrigin _ _ _ isLate earlier presents

end AccessView

/-- A request that presents the token, a refresh or a logout, has resolved. -/
def SpentBy
    (config : Interleaving AuthenticationState accessProtocol)
    (token : String)
    (pid : Nat) :
    Prop :=
  ∃ process,
    config.processes pid = some process ∧
      process.call.presents = some token ∧ process.residual.resolved.isSome = true

/-- A request that has resolved with a token has deleted the row of the token. -/
theorem SpentBy.origin
    {config : Interleaving AuthenticationState accessProtocol}
    {token : String}
    {pid : Nat}
    (spent : SpentBy config token pid)
    (conforming : config.Conforming) :
    ∃ call phase session,
      config.view.progress pid = some ⟨call, phase⟩ ∧
        call.presents = some token ∧ phase.origin = some session := by
  obtain ⟨process, present, presents, resolved⟩ := spent
  obtain ⟨value, isValue⟩ := Option.isSome_iff_exists.mp resolved
  have replied : config.reply pid = some value := by
    simp only [Interleaving.reply, present, Option.bind_some, isValue]
  obtain ⟨call, phase, found, finishes⟩ := conforming.finishes replied
  have sameCall : process.call = call := by
    simp only [Interleaving.view, present, Option.map_some, Option.some.injEq] at found
    exact congrArg Protocol.Progress.call found
  rw [sameCall] at presents
  have presentsSome : call.presents.isSome = true := by
    rw [presents]
    rfl
  have hasOrigin : phase.origin.isSome = true := by
    cases value with
    | done => exact finishes presentsSome
    | tokens pair => exact finishes.2 presentsSome
  obtain ⟨session, origin⟩ := Option.isSome_iff_exists.mp hasOrigin
  exact ⟨call, phase, session, found, presents, origin⟩

/--
In every interleaving, once a refresh or a logout has succeeded with a token,
no refresh and no logout that begins later succeeds with it.
-/
theorem spentToken_neverAccepted
    {config : AuthenticationConfig}
    {users : UserTable}
    {leading trailing : List (Turn AuthenticationCall AuthenticationInput)}
    {middle final : Interleaving AuthenticationState accessProtocol}
    (earlier :
      Run (Interleaving.Step (authenticationService config) fun _ _ => True)
        (.initial accessProtocol (.initial users)) leading middle)
    (later :
      Run (Interleaving.Step (authenticationService config) fun _ _ => True)
        middle trailing final)
    {token : String}
    {pid : Nat}
    (spent : SpentBy middle token pid)
    {other : Nat}
    (notBegun : middle.processes other = none) :
    ¬ SpentBy final token other := by
  obtain ⟨moves, conforming⟩ :=
    Interleaving.moves_of_run (AccessPhase.conforms_routes config) earlier
  obtain ⟨laterMoves, finalConforming⟩ :=
    conforming.moves_of_run (AccessPhase.conforms_routes config) later
  have placed :=
    moves.invariant AccessView.TokensPlaced
      (fun _ _ _ placed taken => placed.step taken.2)
      (AccessView.TokensPlaced.initially users)
  obtain ⟨call, phase, session, present, presents, origin⟩ := spent.origin conforming
  obtain ⟨hasToken, dead⟩ := placed.spent _ _ _ _ present origin
  rw [presents] at hasToken
  cases hasToken
  have tooLate : AccessView.TooLate middle.view session.refreshToken (· = other) := by
    refine ⟨dead, ?_⟩
    rintro _ otherCall otherPhase rfl found
    simp [Interleaving.view, notBegun] at found
  have stillLate :=
    laterMoves.invariant
      (fun view => AccessView.TooLate view session.refreshToken (· = other))
      (fun _ _ _ late taken => late.step taken.2) tooLate
  intro again
  obtain ⟨otherCall, otherPhase, otherSession, found, otherPresents, otherOrigin⟩ :=
    again.origin finalConforming
  have noOrigin := (stillLate.neverOrigin _ _ _ rfl found otherPresents).1
  rw [otherOrigin] at noOrigin
  cases noOrigin

/-- One user has logged in and logged out again. -/
def logoutTurns : List (Turn AuthenticationCall AuthenticationInput) :=
  [.invoke 0 (.login ⟨"ada", "secret"⟩ "10.0.0.1"),
    .resume 0 .statement, .resume 0 .statement, .resume 0 (.verdict true),
    .resume 0 (.text "jwt"), .resume 0 (.text "t1"), .resume 0 .statement,
    .resume 0 (.time 0), .resume 0 .statement,
    .invoke 1 (.logout "t1" "10.0.0.1"), .resume 1 .statement, .resume 1 .statement]

/-- The token of a login that was logged out does not refresh any more. -/
theorem spentToken_neverAccepted_logout :
    ∃ final : Interleaving AuthenticationState accessProtocol,
      Run (Interleaving.Step (authenticationService {}) fun _ _ => True)
          (.initial accessProtocol
            (.initial (.single ⟨"ada", "Ada", "ada@host", "#"⟩)))
          (logoutTurns ++
            [.invoke 2 (.refreshTokens "t1" "10.0.0.1"), .resume 2 .statement])
          final ∧
        ¬ SpentBy final "t1" 2 := by
  obtain ⟨middle, earlier, spent, notBegun, final, later⟩ :
      ∃ middle : Interleaving AuthenticationState accessProtocol,
        Run (Interleaving.Step (authenticationService {}) fun _ _ => True)
            (.initial accessProtocol
              (.initial (.single ⟨"ada", "Ada", "ada@host", "#"⟩)))
            logoutTurns middle ∧
          SpentBy middle "t1" 1 ∧ middle.processes 2 = none ∧
          ∃ final,
            Run (Interleaving.Step (authenticationService {}) fun _ _ => True) middle
              [.invoke 2 (.refreshTokens "t1" "10.0.0.1"), .resume 2 .statement] final :=
    ⟨_, Interleaving.run_of_foldlM rfl, ⟨_, rfl, rfl, rfl⟩, rfl, _,
      Interleaving.run_of_foldlM rfl⟩
  exact ⟨final, earlier.append later, spentToken_neverAccepted earlier later spent notBegun⟩

end Prescott
