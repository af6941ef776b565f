import Prescott.GuardedRequests

namespace Prescott

/-!
# Groups that have been deleted

The request that deletes a group finds it and then deletes its row, with which
the memberships go.  Identifiers are not given twice and memberships need their
group, so nothing that is still on its way brings anything of it back.
-/

/-- How far a request is with the deletion of its group. -/
inductive DeletionPhase where
  /-- The hook looks the group up. -/
  | looking
  /-- The caller owns the group. -/
  | found
  | deleted
  /-- Nothing is deleted any more, or the request is another one. -/
  | other
  deriving Repr, DecidableEq

/-- The group that a call deletes. -/
def GuardedCall.deletes? : GuardedCall → Option Nat
  | .request ⟨_, .deleteGroup groupId⟩ => some groupId
  | _ => none

namespace DeletionPhase

/-- Before its first operation, a deletion has to look its group up. -/
def start (call : GuardedCall) : DeletionPhase :=
  if call.deletes?.isSome then looking else other

/-- What a call may do in a phase. -/
def permits (call : GuardedCall) : DeletionPhase → AuthorizationOp → Prop
  | looking, op => ∃ groupId, call.deletes? = some groupId ∧ op = .findGroupById groupId
  | found, op => ∃ groupId, call.deletes? = some groupId ∧ op = .deleteGroupById groupId
  | deleted, _ => False
  | other, _ => True

/-- The phase after an operation has been answered. -/
def advance (phase : DeletionPhase) :
    (op : AuthorizationOp) → Except AppError op.Result → DeletionPhase
  | .findGroupById _, .ok (some _) => if phase = looking then found else other
  | .deleteGroupById _, .ok () => if phase = found then deleted else other
  | _, _ => other

/-- The deletion of a group, followed from outside. -/
abbrev protocol :
    Protocol authorizationSignature AppError GuardedCall AuthorizationReply where
  Phase := DeletionPhase
  start := start
  permits := permits
  advance := fun _ => advance
  finishes := fun call phase outcome =>
    call.deletes?.isSome = true → outcome.isOk = true → phase = deleted

theorem advance_other
    (op : AuthorizationOp)
    (answer : Except AppError op.Result) :
    advance other op answer = other := by
  fun_cases advance other op answer
  case case1 wrong => cases wrong
  case case3 wrong => cases wrong
  all_goals rfl

/-- Calls that delete no group may do anything. -/
theorem conforms_other
    {call : GuardedCall}
    (deletesNothing : call.deletes? = none)
    (program : AuthorizationProgram AuthorizationReply) :
    protocol.Conforms call other program := by
  induction program with
  | settled outcome =>
      intro deletes
      rw [deletesNothing] at deletes
      cases deletes
  | await op resume inductionHypothesis =>
      refine ⟨trivial, fun answer => ?_⟩
      change protocol.Conforms call (advance other op answer) (resume answer)
      rw [advance_other]
      exact inductionHypothesis answer

/-- The route finds the group and deletes it. -/
theorem conforms_deleteGroup
    (caller groupId : Nat) :
    protocol.Conforms (.request ⟨caller, .deleteGroup groupId⟩) looking
      (authorizationRoutes ⟨caller, .deleteGroup groupId⟩) := by
  simp only [authorizationRoutes, AuthHooks.groupOwnerHook,
    AuthHooks.isGroupOwnerThrowable, bind_assoc]
  refine Protocol.conforms_perform_bind.mpr
    ⟨⟨groupId, rfl, rfl⟩, fun group => ?_, fun _ _ isOk => by cases isOk⟩
  cases group with
  | none =>
      intro _ isOk
      cases isOk
  | some group =>
      simp only [pure_bind]
      cases group.ownerId == caller with
      | false =>
          intro _ isOk
          cases isOk
      | true =>
          exact Protocol.conforms_perform_bind.mpr
            ⟨⟨groupId, rfl, rfl⟩, fun _ _ _ => rfl, fun _ _ isOk => by cases isOk⟩

theorem conforms
    (call : GuardedCall) :
    protocol.Conforms call (start call) (guardedServices.body call) := by
  cases deletes : call.deletes? with
  | none =>
      rw [start, deletes]
      exact conforms_other deletes _
  | some groupId =>
      rw [start, deletes]
      unfold GuardedCall.deletes? at deletes
      split at deletes
      · rename_i caller deleted
        exact conforms_deleteGroup caller deleted
      · cases deletes

end DeletionPhase

/-- The identifier has been given, and its group is not there. -/
def AuthorizationState.Gone (state : AuthorizationState) (groupId : Nat) : Prop :=
  groupId < state.groups.nextId ∧ ∀ group ∈ state.groups.rows, group.id ≠ groupId

namespace AuthorizationState

variable {before after : AuthorizationState}
variable {op : AuthorizationOp}
variable {groupId : Nat}

/-- A group that is gone stays so. -/
theorem Gone.kept
    (gone : before.Gone groupId)
    (effect : StatementEffect op before after) :
    after.Gone groupId := by
  have follows := effect.follows
  refine ⟨Nat.lt_of_lt_of_le gone.1 follows.groups.nextId_le, ?_⟩
  rintro group member rfl
  exact gone.2 group (follows.groups.old group member gone.1) rfl

theorem gone_deleteGroup
    (given : groupId < before.groups.nextId) :
    (before.deleteGroup groupId).Gone groupId := by
  refine ⟨given, ?_⟩
  rintro group member rfl
  have kept := (Table.mem_rows_deleteWhere.mp member).2
  simp at kept

end AuthorizationState

/-- What the requests that delete groups have achieved. -/
structure DeletionsDone (view : DeletionPhase.protocol.View AuthorizationState) : Prop where
  found :
    ∀ pid call groupId,
      view.progress pid = some ⟨call, .found⟩ →
      call.deletes? = some groupId →
      groupId < view.shared.groups.nextId
  deleted :
    ∀ pid call groupId,
      view.progress pid = some ⟨call, .deleted⟩ →
      call.deletes? = some groupId →
      view.shared.Gone groupId

namespace DeletionsDone

theorem step
    {before after : DeletionPhase.protocol.View AuthorizationState}
    {turn : Turn GuardedCall Unit}
    (done : DeletionsDone before)
    (moves : Protocol.Moves guardedServices DeletionPhase.protocol before turn after) :
    DeletionsDone after := by
  cases moves with
  | @invoke pid call shared fresh begun =>
      obtain rfl := Option.some.inj begun
      have begins : ∀ phase : DeletionPhase,
          phase = DeletionPhase.start call → phase = .looking ∨ phase = .other := by
        rintro _ rfl
        unfold DeletionPhase.start
        split
        · exact .inl rfl
        · exact .inr rfl
      constructor
      · intro other otherCall groupId found deletes
        rcases Protocol.View.place_cases found with ⟨_, shape⟩ | ⟨_, earlier⟩
        · rcases begins _ (congrArg Protocol.Progress.phase shape) with isPhase | isPhase <;>
            cases isPhase
        · exact done.found other otherCall groupId earlier deletes
      · intro other otherCall groupId found deletes
        rcases Protocol.View.place_cases found with ⟨_, shape⟩ | ⟨_, earlier⟩
        · rcases begins _ (congrArg Protocol.Progress.phase shape) with isPhase | isPhase <;>
            cases isPhase
        · exact done.deleted other otherCall groupId earlier deletes
  | @resume pid call phase op input answer shared present permitted answered =>
      have executed := Option.some.inj answered
      obtain rfl : (op.execute before.shared).1 = answer := congrArg Prod.fst executed
      obtain rfl : (op.execute before.shared).2 = shared := congrArg Prod.snd executed
      have effect : AuthorizationState.StatementEffect op before.shared _ :=
        AuthorizationState.statementEffect_execute op
      constructor
      · intro other otherCall groupId found deletes
        rcases Protocol.View.place_cases found with ⟨rfl, shape⟩ | ⟨_, earlier⟩
        · obtain ⟨rfl, isFound⟩ := Protocol.Progress.mk.inj shape
          cases phase with
          | looking =>
              obtain ⟨_, deletesAgain, rfl⟩ := permitted
              obtain rfl := Option.some.inj (deletes.symm.trans deletesAgain)
              cases group : before.shared.groups.first fun group => group.id == groupId with
              | none =>
                  simp [AuthorizationOp.execute, group, DeletionPhase.advance] at isFound
              | some row =>
                  obtain ⟨member, sameId⟩ := Table.mem_of_first group
                  rw [← beq_iff_eq.mp sameId]
                  exact before.shared.groups.keysBelow row member
          | found =>
              obtain ⟨_, _, rfl⟩ := permitted
              cases isFound
          | deleted => exact permitted.elim
          | other => cases isFound.trans (DeletionPhase.advance_other op _)
        · exact Nat.lt_of_lt_of_le (done.found other otherCall groupId earlier deletes)
            effect.follows.groups.nextId_le
      · intro other otherCall groupId found deletes
        rcases Protocol.View.place_cases found with ⟨rfl, shape⟩ | ⟨_, earlier⟩
        · obtain ⟨rfl, isDeleted⟩ := Protocol.Progress.mk.inj shape
          cases phase with
          | looking =>
              obtain ⟨_, _, rfl⟩ := permitted
              revert isDeleted
              simp only [AuthorizationOp.execute]
              cases before.shared.groups.first fun group => _ <;> intro isDeleted <;>
                cases isDeleted
          | found =>
              obtain ⟨_, deletesAgain, rfl⟩ := permitted
              obtain rfl := Option.some.inj (deletes.symm.trans deletesAgain)
              exact AuthorizationState.gone_deleteGroup
                (done.found _ otherCall groupId present deletes)
          | deleted => exact permitted.elim
          | other => cases isDeleted.trans (DeletionPhase.advance_other op _)
        · exact (done.deleted other otherCall groupId earlier deletes).kept effect

end DeletionsDone

/-- A request that has deleted a group has left nothing of it. -/
theorem gone_of_deleted
    {start : AuthorizationState}
    {turns : List (Turn GuardedCall Unit)}
    {final : GuardedConfig}
    (run : Run GuardedStep (guardedStart start) turns final)
    {pid groupId : Nat}
    {process : Process GuardedCall.protocol}
    {reply : AuthorizationReply}
    (present : final.processes pid = some process)
    (deletes : process.call.deletes? = some groupId)
    (resolved : process.residual = .settled (.ok reply)) :
    final.shared.Gone groupId := by
  -- the same run, followed along the protocol of deletions
  obtain ⟨followed, followedRun, matching⟩ := Interleaving.follow DeletionPhase.protocol run
  obtain ⟨moves, conforming⟩ :=
    Interleaving.moves_of_run DeletionPhase.conforms followedRun
  have done :=
    moves.invariant DeletionsDone (fun _ _ _ done ⟨_, moved⟩ => done.step moved)
      ⟨nofun, nofun⟩
  have same := matching.processes pid
  rw [present] at same
  obtain ⟨followedProcess, followedPresent, shape⟩ := Option.map_eq_some_iff.mp same
  obtain ⟨sameCall, sameResidual⟩ := Prod.mk.inj shape
  have finishes := conforming pid followedProcess followedPresent
  rw [sameResidual, resolved] at finishes
  have isDeleted : followedProcess.phase = .deleted :=
    finishes (by rw [sameCall, deletes]; rfl) rfl
  have gone : followed.shared.Gone groupId := by
    refine done.deleted pid followedProcess.call groupId ?_ (by rw [sameCall, deletes])
    simp [Interleaving.view, followedPresent, isDeleted]
  rw [matching.shared] at gone
  exact gone

/-- A group that is gone stays gone in every further run. -/
theorem AuthorizationState.Gone.of_run
    {middle final : GuardedConfig}
    {turns : List (Turn GuardedCall Unit)}
    {groupId : Nat}
    (gone : middle.shared.Gone groupId)
    (conforming : middle.Conforming)
    (run : Run GuardedStep middle turns final) :
    final.shared.Gone groupId := by
  obtain ⟨moves, _⟩ := conforming.moves_of_run GuardedCall.conforms run
  refine moves.invariant (fun view => view.shared.Gone groupId) ?_ gone
  rintro before turn after gone ⟨_, moved⟩
  cases moved with
  | invoke fresh begun =>
      obtain rfl := Option.some.inj begun
      exact gone
  | @resume pid call phase op input answer shared present permitted answered =>
      have executed := Option.some.inj answered
      obtain rfl : (op.execute before.shared).2 = shared := congrArg Prod.snd executed
      exact gone.kept (AuthorizationState.statementEffect_execute op)

/--
In every interleaving, once a request has deleted a group: the group and its
memberships are never in the tables again, and a guarded call for the group
that begins later neither resolves nor changes anything.
-/
theorem deletedGroup_final
    (start : AuthorizationState)
    (rolesRefer : start.RolesRefer)
    (membershipsRefer : start.MembershipsRefer)
    (turns further : List (Turn GuardedCall Unit))
    (middle final : GuardedConfig)
    (run : Run GuardedStep (guardedStart start) turns middle)
    (later : Run GuardedStep middle further final)
    (pid caller groupId : Nat)
    (process : Process GuardedCall.protocol)
    (present : middle.processes pid = some process)
    (deletes : process.call = .request ⟨caller, .deleteGroup groupId⟩)
    (resolved : process.residual = .settled (.ok .done)) :
    (∀ group ∈ final.shared.groups.rows, group.id ≠ groupId) ∧
      (∀ userGroup ∈ final.shared.userGroups.rows, userGroup.groupId ≠ groupId) ∧
      ∀ other otherProcess check,
        middle.processes other = none →
        final.processes other = some otherProcess →
        otherProcess.call.check? = some check →
        check.groupId = groupId →
          (∀ reply, otherProcess.residual ≠ .settled (.ok reply)) ∧
            ∀ input after,
              GuardedStep final (.resume other input) after →
                after.shared = final.shared := by
  have gone : middle.shared.Gone groupId :=
    gone_of_deleted run present (by rw [deletes]; rfl) resolved
  have initialSound : GuardsSound (guardedStart start).view :=
    .initially rolesRefer membershipsRefer
  obtain ⟨sound, conforming⟩ :=
    initialSound.of_run (fun _ _ found => by cases found) run
  obtain ⟨lastSound, lastConforming⟩ := sound.of_run conforming later
  have goneLast := gone.of_run conforming later
  refine ⟨goneLast.2, ?_, ?_⟩
  · rintro userGroup membership rfl
    obtain ⟨group, member, sameId⟩ := lastSound.membershipsRefer userGroup membership
    exact goneLast.2 group member sameId
  · intro other otherProcess check notYet otherPresent guarded isGroup
    have inPhase :
        final.view.progress other = some ⟨otherProcess.call, otherProcess.phase⟩ := by
      simp [Interleaving.view, otherPresent]
    have neverCleared : otherProcess.phase ≠ .cleared := by
      intro isCleared
      rw [isCleared] at inPhase
      have notBefore : middle.view.progress other ≠ some ⟨otherProcess.call, .cleared⟩ := by
        simp [Interleaving.view, notYet]
      obtain ⟨earlier, rest, moment, _, prior, _, _, group, member, sameId, _⟩ :=
        allowed_atSomeMoment sound conforming later guarded notBefore inPhase
      exact (gone.of_run conforming prior).2 group member (sameId.trans isGroup)
    constructor
    · intro reply settled
      rcases phase_of_settled lastConforming otherPresent settled with
        ⟨isCleared, _⟩ | ⟨_, _, wrong⟩
      · exact neverCleared isCleared
      · cases wrong
    · intro input after taken
      obtain ⟨call, phase, op, answer, shared, found, _, permitted, answered, shape⟩ :=
        lastConforming.resumes taken.2
      obtain ⟨rfl, rfl⟩ :=
        Protocol.Progress.mk.inj (Option.some.inj (found.symm.trans inPhase))
      calc
        after.shared = shared := congrArg Protocol.View.shared shape
        _ = (AuthorizationOp.execute op final.shared).2 :=
          (congrArg Prod.snd (Option.some.inj answered)).symm
        _ = final.shared := GuardPhase.execute_of_permits permitted neverCleared

/-- A member is added while the group is deleted. -/
def deletingTurns : List (Turn GuardedCall Unit) :=
  [.invoke 0 (.request ⟨1, .createGroup "readers"⟩)] ++ List.replicate 3 (.resume 0 ()) ++
    [.invoke 1 (.request ⟨1, .addUserToGroup 1 2⟩)] ++ List.replicate 3 (.resume 1 ()) ++
    [.invoke 2 (.request ⟨1, .deleteGroup 1⟩)] ++ List.replicate 2 (.resume 2 ())

/-- The member is not inserted, and the owner may not look at a task any more. -/
def afterDeletion : List (Turn GuardedCall Unit) :=
  [.resume 1 (), .invoke 3 (.check "view_task" 1 1), .resume 3 ()]

theorem deletedGroup_final_readers :
    ∃ middle final,
      Run GuardedStep (guardedStart threeUsers) deletingTurns middle ∧
        Run GuardedStep middle afterDeletion final ∧
        final.shared.userGroups.rows = [] ∧
        (∀ group ∈ final.shared.groups.rows, group.id ≠ 1) ∧
        ∃ process,
          final.processes 3 = some process ∧
            ∀ reply, process.residual ≠ .settled (.ok reply) := by
  obtain ⟨middle, final, executed, executedLater, ⟨process, present, deletes, resolved⟩,
    notYet, rows, check, checkPresent, isCheck⟩ :
      ∃ middle final : GuardedConfig,
        deletingTurns.foldlM (Interleaving.step? guardedServices) (guardedStart threeUsers) =
            some middle ∧
          afterDeletion.foldlM (Interleaving.step? guardedServices) middle = some final ∧
          (∃ process,
            middle.processes 2 = some process ∧
              process.call = .request ⟨1, .deleteGroup 1⟩ ∧
                process.residual = .settled (.ok .done)) ∧
          middle.processes 3 = none ∧
          final.shared.userGroups.rows = [] ∧
          ∃ process,
            final.processes 3 = some process ∧ process.call = .check "view_task" 1 1 :=
    ⟨_, _, rfl, rfl, ⟨_, rfl, rfl, rfl⟩, rfl, rfl, _, rfl, rfl⟩
  have run := Interleaving.run_of_foldlM executed
  have later := Interleaving.run_of_foldlM executedLater
  obtain ⟨groupGone, _, refused⟩ :=
    deletedGroup_final threeUsers ⟨by decide, by decide⟩ (fun _ member => by cases member)
      deletingTurns afterDeletion middle final run later 2 1 1 process present deletes resolved
  refine ⟨middle, final, run, later, rows, groupGone, check, checkPresent, ?_⟩
  exact (refused 3 check ⟨.permission "view_task", 1, 1⟩ notYet checkPresent
    (by rw [isCheck]; rfl) rfl).1

end Prescott
