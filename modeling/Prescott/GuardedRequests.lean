import Prescott.AccessGuards
import Prescott.CallMoments

namespace Prescott

/-!
# Decisions of concurrent hooks

What a hook decides is what the tables say at one moment of its request, in
every interleaving.  A request that is let through was allowed at such a
moment, and until then it has changed nothing.
-/

/-- A request to the authorization routes, or the hook of a task route. -/
inductive GuardedCall where
  | request (request : AuthorizationRequest)
  | check (permission : String) (groupId userId : Nat)
  deriving Repr, DecidableEq

/-- What the hook of a call checks. -/
def GuardedCall.check? : GuardedCall → Option GuardCheck
  | .request sent => sent.check?
  | .check permission groupId userId => some ⟨.permission permission, groupId, userId⟩

/-- What runs for a call; the handler behind the hook of a task route is left out. -/
def guardedRoutes : GuardedCall → AuthorizationProgram AuthorizationReply
  | .request request => authorizationRoutes request
  | .check permission groupId userId => do
      AuthHooks.permissionHook permission groupId userId
      return .done

/-- The routes with their hooks, on the tables. -/
def guardedServices :
    Service authorizationSignature AppError AuthorizationState Unit
      GuardedCall AuthorizationReply where
  body := guardedRoutes
  host := authorizationHost

namespace GuardedCall

/-- Behind the hook of a task route nothing is left that could fail. -/
def Settles : GuardedCall → Except AppError AuthorizationReply → Prop
  | .request _, _ => True
  | .check _ _ _, outcome => outcome = .ok .done

/-- The guards of the calls, followed from outside. -/
abbrev protocol :
    Protocol authorizationSignature AppError GuardedCall AuthorizationReply :=
  GuardPhase.protocol check? Settles

theorem conforms
    (call : GuardedCall) :
    protocol.Conforms call (protocol.start call) (guardedServices.body call) := by
  cases call with
  | request sent => exact GuardPhase.conforms_routes sent rfl fun _ => trivial
  | check permission groupId userId =>
      have guarded :
          check? (.check permission groupId userId) =
            some ⟨.permission permission, groupId, userId⟩ := rfl
      exact GuardPhase.conforms_guarded guarded (.inl ⟨rfl, rfl⟩)

end GuardedCall

/-- All calls of guarded routes over the tables. -/
abbrev GuardedConfig :=
  Interleaving AuthorizationState GuardedCall.protocol

/-- A turn of any call. -/
abbrev GuardedStep : GuardedConfig → Turn GuardedCall Unit → GuardedConfig → Prop :=
  Interleaving.Step guardedServices fun _ _ => True

/-- The foreign keys hold, and who is known not to be the owner is not. -/
structure GuardsSound (view : GuardedCall.protocol.View AuthorizationState) : Prop where
  rolesRefer : view.shared.RolesRefer
  membershipsRefer : view.shared.MembershipsRefer
  notOwner :
    ∀ pid call check,
      view.progress pid = some ⟨call, .notOwner⟩ →
      call.check? = some check →
      check.groupId < view.shared.groups.nextId ∧
        ∀ group ∈ view.shared.groups.rows,
          group.id = check.groupId → group.ownerId ≠ check.userId

namespace GuardsSound

variable {before after : GuardedCall.protocol.View AuthorizationState}
variable {turn : Turn GuardedCall Unit}

/-- Nobody becomes the owner of a group that was another user's. -/
theorem step
    (sound : GuardsSound before)
    (moves : Protocol.Moves guardedServices GuardedCall.protocol before turn after) :
    GuardsSound after := by
  cases moves with
  | @invoke pid call shared fresh begun =>
      obtain rfl := Option.some.inj begun
      refine ⟨sound.rolesRefer, sound.membershipsRefer, ?_⟩
      intro other otherCall check found guarded
      rcases Protocol.View.place_cases found with ⟨_, shape⟩ | ⟨_, earlier⟩
      · have begins := congrArg Protocol.Progress.phase shape
        change GuardPhase.notOwner = GuardPhase.start _ call at begins
        unfold GuardPhase.start at begins
        split at begins <;> cases begins
      · exact sound.notOwner other otherCall check earlier guarded
  | @resume pid call phase op input answer shared present permitted answered =>
      have executed := Option.some.inj answered
      obtain rfl : (op.execute before.shared).1 = answer := congrArg Prod.fst executed
      obtain rfl : (op.execute before.shared).2 = shared := congrArg Prod.snd executed
      have effect : AuthorizationState.StatementEffect op before.shared _ :=
        AuthorizationState.statementEffect_execute op
      refine ⟨sound.rolesRefer.execute op, effect.membershipsRefer sound.membershipsRefer, ?_⟩
      have kept : ∀ check : GuardCheck,
          (check.groupId < before.shared.groups.nextId ∧
            ∀ group ∈ before.shared.groups.rows,
              group.id = check.groupId → group.ownerId ≠ check.userId) →
          check.groupId < (op.execute before.shared).2.groups.nextId ∧
            ∀ group ∈ (op.execute before.shared).2.groups.rows,
              group.id = check.groupId → group.ownerId ≠ check.userId := by
        rintro check ⟨given, notOwner⟩
        refine ⟨Nat.lt_of_lt_of_le given effect.follows.groups.nextId_le, ?_⟩
        intro group member sameId
        refine notOwner group (effect.follows.groups.old group member ?_) sameId
        rw [← sameId] at given
        exact given
      intro other otherCall check found guarded
      rcases Protocol.View.place_cases found with ⟨rfl, shape⟩ | ⟨_, earlier⟩
      · obtain ⟨rfl, isNotOwner⟩ := Protocol.Progress.mk.inj shape
        refine kept check ?_
        cases phase with
        | asking =>
            have isNotOwner :=
              isNotOwner.trans (GuardPhase.advance_asking_execute guarded permitted)
            unfold GuardPhase.afterGroup at isNotOwner
            split at isNotOwner
            · cases isNotOwner
            · rename_i group groupFound
              obtain ⟨member, sameId⟩ := Table.mem_of_first groupFound
              split at isNotOwner
              · cases isNotOwner
              · rename_i notOwner
                rw [← beq_iff_eq.mp sameId]
                refine ⟨before.shared.groups.keysBelow group member, ?_⟩
                intro same sameMember isSame
                rw [Table.eq_of_key sameMember member isSame]
                exact notOwner
        | notOwner => exact sound.notOwner other otherCall check present guarded
        | cleared => cases isNotOwner
        | refused => exact permitted.elim
      · exact kept check (sound.notOwner other otherCall check earlier guarded)

/-- No call has begun. -/
theorem initially
    {start : AuthorizationState}
    (rolesRefer : start.RolesRefer)
    (membershipsRefer : start.MembershipsRefer) :
    GuardsSound (.initial GuardedCall.protocol start) :=
  ⟨rolesRefer, membershipsRefer, fun _ _ _ present => by cases present⟩

/-- From sound guards on, the guards stay sound. -/
theorem of_run
    {first final : GuardedConfig}
    {turns : List (Turn GuardedCall Unit)}
    (sound : GuardsSound first.view)
    (conforming : first.Conforming)
    (run : Run GuardedStep first turns final) :
    GuardsSound final.view ∧ final.Conforming := by
  obtain ⟨moves, stillConforming⟩ := conforming.moves_of_run GuardedCall.conforms run
  exact ⟨moves.invariant GuardsSound (fun _ _ _ sound moved => sound.step moved.2) sound,
    stillConforming⟩

end GuardsSound

section Moments

variable {first final : GuardedConfig}
variable {turns : List (Turn GuardedCall Unit)}
variable {pid : Nat}
variable {call : GuardedCall}
variable {check : GuardCheck}

theorem GuardPhase.start_guarded
    (guarded : call.check? = some check) :
    start GuardedCall.check? call = asking := by
  rw [start, guarded]
  rfl

/-- A call that gets cleared has been allowed at the moment of its last read. -/
theorem allowed_atSomeMoment
    (sound : GuardsSound first.view)
    (conforming : first.Conforming)
    (run : Run GuardedStep first turns final)
    (guarded : call.check? = some check)
    (notYet : first.view.progress pid ≠ some ⟨call, .cleared⟩)
    (present : final.view.progress pid = some ⟨call, .cleared⟩) :
    Interleaving.AtSomeMoment GuardedStep first turns final pid check.AllowedBy := by
  obtain ⟨earlier, later, before, after, split, prior, rest, phase, op, input, answer, found,
    notCleared, awaits, permitted, answered, isCleared⟩ :=
    Interleaving.exists_entering GuardedCall.conforms (· = .cleared) conforming run
      (by simp [GuardPhase.start_guarded guarded])
      (fun _ found atFirst => notYet (atFirst ▸ found)) present rfl
  have executed := Option.some.inj answered
  obtain rfl : (op.execute before.shared).1 = answer := congrArg Prod.fst executed
  have soundBefore := (sound.of_run conforming prior).1
  exact ⟨earlier, later, before, split, prior, rest, ⟨op, awaits⟩,
    GuardPhase.allowed_of_cleared soundBefore.rolesRefer soundBefore.membershipsRefer guarded
      permitted notCleared isCleared⟩

/-- A call that gets refused was not allowed at the moment of its last read. -/
theorem not_allowed_atSomeMoment
    (sound : GuardsSound first.view)
    (conforming : first.Conforming)
    (run : Run GuardedStep first turns final)
    (guarded : call.check? = some check)
    (notYet : first.view.progress pid ≠ some ⟨call, .refused⟩)
    (present : final.view.progress pid = some ⟨call, .refused⟩) :
    Interleaving.AtSomeMoment GuardedStep first turns final pid
      fun state => ¬check.AllowedBy state := by
  obtain ⟨earlier, later, before, after, split, prior, rest, phase, op, input, answer, found,
    notRefused, awaits, permitted, answered, isRefused⟩ :=
    Interleaving.exists_entering GuardedCall.conforms (· = .refused) conforming run
      (by simp [GuardPhase.start_guarded guarded])
      (fun _ found atFirst => notYet (atFirst ▸ found)) present rfl
  have executed := Option.some.inj answered
  obtain rfl : (op.execute before.shared).1 = answer := congrArg Prod.fst executed
  have soundBefore := (sound.of_run conforming prior).1
  refine ⟨earlier, later, before, split, prior, rest, ⟨op, awaits⟩, ?_⟩
  refine GuardPhase.not_allowed_of_refused soundBefore.rolesRefer guarded ?_ permitted isRefused
  rintro rfl
  exact (soundBefore.notOwner pid call check found guarded).2

/-- The outcome of a call tells how its hook has decided. -/
theorem phase_of_settled
    {process : Process GuardedCall.protocol}
    {outcome : Except AppError AuthorizationReply}
    (conforming : final.Conforming)
    (present : final.processes pid = some process)
    (settled : process.residual = .settled outcome) :
    process.phase = .cleared ∧ process.call.Settles outcome ∨
      process.phase = .refused ∧ ∃ reason, outcome = .error reason := by
  have conforms := conforming pid process present
  rw [settled] at conforms
  exact conforms

end Moments

/-- No call has begun yet. -/
abbrev guardedStart (start : AuthorizationState) : GuardedConfig :=
  Interleaving.initial GuardedCall.protocol start

/--
In every interleaving of requests to the authorization routes and of hooks of
task routes: a guarded call that resolves was allowed by the tables at one
moment of its lifetime; a hook of a task route that rejects was, at one moment
of its lifetime, not allowed by them; and when a guarded call changes the
tables, it has been allowed before.
-/
theorem guards_decidedAtOneMoment
    (start : AuthorizationState)
    (rolesRefer : start.RolesRefer)
    (membershipsRefer : start.MembershipsRefer)
    (turns : List (Turn GuardedCall Unit))
    (final : GuardedConfig)
    (run : Run GuardedStep (guardedStart start) turns final)
    (pid : Nat)
    (process : Process GuardedCall.protocol)
    (present : final.processes pid = some process)
    (check : GuardCheck)
    (guarded : process.call.check? = some check) :
    (∀ reply,
      process.residual = .settled (.ok reply) →
        Interleaving.AtSomeMoment GuardedStep (guardedStart start) turns final pid
          check.AllowedBy) ∧
      (∀ permission groupId userId reason,
        process.call = .check permission groupId userId →
        process.residual = .settled (.error reason) →
          Interleaving.AtSomeMoment GuardedStep (guardedStart start) turns final pid
            fun state => ¬check.AllowedBy state) ∧
      ∀ input after,
        GuardedStep final (.resume pid input) after →
        after.shared ≠ final.shared →
          Interleaving.AtSomeMoment GuardedStep (guardedStart start) turns final pid
            check.AllowedBy := by
  have sound : GuardsSound (guardedStart start).view :=
    .initially rolesRefer membershipsRefer
  have conforming : (guardedStart start).Conforming :=
    fun _ _ found => by cases found
  have conformingLast := (sound.of_run conforming run).2
  have notBegun (progress : GuardedCall.protocol.Progress) :
      (guardedStart start).view.progress pid ≠ some progress := by
    intro found
    cases found
  have inPhase : final.view.progress pid = some ⟨process.call, process.phase⟩ := by
    simp [Interleaving.view, present]
  have allowed
      (isCleared : process.phase = .cleared) :
      Interleaving.AtSomeMoment GuardedStep (guardedStart start) turns final pid
        check.AllowedBy := by
    rw [isCleared] at inPhase
    exact allowed_atSomeMoment sound conforming run guarded (notBegun _) inPhase
  refine ⟨?_, ?_, ?_⟩
  · intro reply settled
    rcases phase_of_settled conformingLast present settled with ⟨isCleared, _⟩ | ⟨_, _, wrong⟩
    · exact allowed isCleared
    · cases wrong
  · intro permission groupId userId reason isCheck settled
    rcases phase_of_settled conformingLast present settled with ⟨_, settles⟩ | ⟨isRefused, _⟩
    · rw [isCheck] at settles
      cases settles
    · rw [isRefused] at inPhase
      exact not_allowed_atSomeMoment sound conforming run guarded (notBegun _) inPhase
  · intro input after taken changes
    obtain ⟨call, phase, op, answer, shared, found, _, permitted, answered, shape⟩ :=
      conformingLast.resumes taken.2
    obtain ⟨rfl, rfl⟩ := Protocol.Progress.mk.inj (Option.some.inj (found.symm.trans inPhase))
    refine allowed (Classical.byContradiction fun notCleared => changes ?_)
    calc
      after.shared = shared := congrArg Protocol.View.shared shape
      _ = (AuthorizationOp.execute op final.shared).2 :=
        (congrArg Prod.snd (Option.some.inj answered)).symm
      _ = final.shared := GuardPhase.execute_of_permits permitted notCleared

/-- While the first user makes a group, the hooks of two task routes run. -/
def hookTurns : List (Turn GuardedCall Unit) :=
  [.invoke 0 (.request ⟨1, .createGroup "readers"⟩), .resume 0 (), .resume 0 (),
    .invoke 1 (.check "view_task" 1 1), .invoke 2 (.check "view_task" 1 3), .resume 2 (),
    .resume 1 (), .resume 0 (), .resume 2 ()]

theorem guards_decidedAtOneMoment_hooks :
    ∃ final,
      Run GuardedStep (guardedStart threeUsers) hookTurns final ∧
        Interleaving.AtSomeMoment GuardedStep (guardedStart threeUsers) hookTurns final 1
          (GuardCheck.AllowedBy ⟨.permission "view_task", 1, 1⟩) ∧
        Interleaving.AtSomeMoment GuardedStep (guardedStart threeUsers) hookTurns final 2
          fun state => ¬GuardCheck.AllowedBy ⟨.permission "view_task", 1, 3⟩ state := by
  obtain ⟨final, executed, ⟨owner, ownerPresent, ownerCall, ownerSettled⟩,
    stranger, strangerPresent, strangerCall, strangerSettled⟩ :
      ∃ final,
        hookTurns.foldlM (Interleaving.step? guardedServices) (guardedStart threeUsers) =
            some final ∧
          (∃ process,
            final.processes 1 = some process ∧
              process.call = .check "view_task" 1 1 ∧
                process.residual = .settled (.ok .done)) ∧
          ∃ process,
            final.processes 2 = some process ∧
              process.call = .check "view_task" 1 3 ∧
                process.residual =
                  .settled (.error (.http (.unauthorized
                    "User do not have required permission"))) :=
    ⟨_, rfl, ⟨_, rfl, rfl, rfl⟩, _, rfl, rfl, rfl⟩
  have run := Interleaving.run_of_foldlM executed
  have decided := guards_decidedAtOneMoment threeUsers ⟨by decide, by decide⟩
    (fun _ member => by cases member) hookTurns final run
  refine ⟨final, run, ?_, ?_⟩
  · exact (decided 1 owner ownerPresent _ (by rw [ownerCall]; rfl)).1 _ ownerSettled
  · exact (decided 2 stranger strangerPresent _ (by rw [strangerCall]; rfl)).2.1 _ _ _ _
      strangerCall strangerSettled

end Prescott
