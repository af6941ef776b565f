import Prescott.MembershipRows

namespace Prescott

/-!
# Guards of concurrent requests

A hook decides a request by two statements, and between them and after them
other requests change the tables.  Seen from outside, a guarded request asks
for the group, then for what its user holds in it, and only then goes on.
-/

/-- What a hook asks of the user of a request. -/
inductive AccessGuard where
  | groupOwner
  | role (role : String)
  | permission (permission : String)
  deriving Repr, DecidableEq

namespace AccessGuard

/-- The hook that a guard stands for, on a group and a user. -/
def hook : AccessGuard → Nat → Nat → AuthorizationProgram Unit
  | .groupOwner => AuthHooks.groupOwnerHook
  | .role name => AuthHooks.roleHook name
  | .permission name => AuthHooks.permissionHook name

/-- The user holds in the group what the guard asks of users who do not own it. -/
def HeldBy (guard : AccessGuard) (state : AuthorizationState) (groupId userId : Nat) :
    Prop :=
  match guard with
  | .groupOwner => False
  | .role name => state.HasRole groupId userId name
  | .permission name => state.HoldsPermission name groupId userId

/-- The statement by which the guard reads it. -/
def reads (guard : AccessGuard) (groupId userId : Nat) : Option AuthorizationOp :=
  match guard with
  | .groupOwner => none
  | .role _ => some (.findRolesByUserAndGroup groupId userId)
  | .permission _ => some (.findPermissionsByUserAndGroup groupId userId)

end AccessGuard

/-- A guard with the group and the user that it is asked about. -/
structure GuardCheck where
  guard : AccessGuard
  groupId : Nat
  userId : Nat
  deriving Repr, DecidableEq

namespace GuardCheck

/-- The hook of a check on its own group and user. -/
def hook (check : GuardCheck) : AuthorizationProgram Unit :=
  check.guard.hook check.groupId check.userId

/-- The group is there, and the user owns it or holds what the guard asks for. -/
def AllowedBy (check : GuardCheck) (state : AuthorizationState) : Prop :=
  ∃ group ∈ state.groups.rows,
    group.id = check.groupId ∧
      (group.ownerId = check.userId ∨
        check.guard.HeldBy state check.groupId check.userId)

end GuardCheck

/-- The guard of a route; a group may be made by everybody. -/
def AuthorizationRequest.check? (request : AuthorizationRequest) : Option GuardCheck :=
  match request.route with
  | .createGroup _ => none
  | .deleteGroup groupId => some ⟨.groupOwner, groupId, request.caller⟩
  | .addUserToGroup groupId _ | .deleteUserFromGroup groupId _ =>
      some ⟨.role "group_manager", groupId, request.caller⟩
  | .addUserRole groupId _ _ | .deleteUserRole groupId _ _ =>
      some ⟨.role "role_manager", groupId, request.caller⟩

/-- How far the hook of a call has come. -/
inductive GuardPhase where
  /-- The group is looked up. -/
  | asking
  /-- The group is there, and its owner is another user. -/
  | notOwner
  | cleared
  | refused
  deriving Repr, DecidableEq

namespace GuardPhase

section Protocol

variable {Call : Type}

/-- A call without a guard is cleared from the beginning. -/
def start (check? : Call → Option GuardCheck) (call : Call) : GuardPhase :=
  if (check? call).isSome then asking else cleared

/-- What may be awaited in a phase; a call that is cleared may await anything. -/
def permits (check? : Call → Option GuardCheck) (call : Call) :
    GuardPhase → AuthorizationOp → Prop
  | asking, op => ∃ check, check? call = some check ∧ op = .findGroupById check.groupId
  | notOwner, op =>
      ∃ check,
        check? call = some check ∧
          check.guard.reads check.groupId check.userId = some op
  | cleared, _ => True
  | refused, _ => False

/-- What the hook makes of the group. -/
def afterGroup (check : GuardCheck) : Option Group → GuardPhase
  | none => refused
  | some group =>
      if group.ownerId = check.userId then
        cleared
      else if check.guard = .groupOwner then
        refused
      else
        notOwner

/-- The phase after the answer to a statement. -/
def advance (check? : Call → Option GuardCheck) (call : Call) (phase : GuardPhase)
    (op : AuthorizationOp) (answer : Except AppError op.Result) : GuardPhase :=
  match phase, check? call with
  | asking, some check =>
      match op, answer with
      | .findGroupById _, .ok group => afterGroup check group
      | _, _ => refused
  | notOwner, some ⟨.role role, _, _⟩ =>
      match op, answer with
      | .findRolesByUserAndGroup _ _, .ok roles =>
          if roles.contains role then cleared else refused
      | _, _ => refused
  | notOwner, some ⟨.permission permission, _, _⟩ =>
      match op, answer with
      | .findPermissionsByUserAndGroup _ _, .ok permissions =>
          if permissions.contains permission then cleared else refused
      | _, _ => refused
  | cleared, _ => cleared
  | _, _ => refused

/--
The calls of a service that hooks guard.  A call that is refused rejects, and
one that is cleared settles as `settles` says.
-/
abbrev protocol
    (check? : Call → Option GuardCheck)
    (settles : Call → Except AppError AuthorizationReply → Prop) :
    Protocol authorizationSignature AppError Call AuthorizationReply where
  Phase := GuardPhase
  start := start check?
  permits := permits check?
  advance := advance check?
  finishes := fun call phase outcome =>
    phase = cleared ∧ settles call outcome ∨
      phase = refused ∧ ∃ reason, outcome = .error reason

variable {check? : Call → Option GuardCheck}
variable {settles : Call → Except AppError AuthorizationReply → Prop}
variable {call : Call}
variable {check : GuardCheck}

/-- A call that is cleared stays so. -/
theorem leads_cleared
    {α : Type}
    {post : Except AppError α → GuardPhase → Prop}
    (holds : ∀ outcome, post outcome cleared)
    (program : AuthorizationProgram α) :
    (protocol check? settles).Leads call post cleared program := by
  induction program with
  | settled outcome => exact holds outcome
  | await op resume inductionHypothesis =>
      exact ⟨trivial, inductionHypothesis⟩

/-- What a hook is known to have done when it has settled. -/
def Decided (outcome : Except AppError Unit) (phase : GuardPhase) : Prop :=
  phase = if outcome.isOk then cleared else refused

theorem advance_asking
    (guarded : check? call = some check)
    (groupId : Nat)
    (group : Option Group) :
    advance check? call asking (.findGroupById groupId) (.ok group) =
      afterGroup check group := by
  simp only [advance, guarded]

/-- The first statement of every hook. -/
theorem leads_isGroupOwnerThrowable
    (guarded : check? call = some check)
    {next : Bool → AuthorizationProgram Unit}
    (owned : (protocol check? settles).Leads call Decided cleared (next true))
    (notOwned :
      (protocol check? settles).Leads call Decided
        (if check.guard = .groupOwner then refused else notOwner) (next false)) :
    (protocol check? settles).Leads call Decided asking
      (AuthHooks.isGroupOwnerThrowable check.groupId check.userId >>= next) := by
  simp only [AuthHooks.isGroupOwnerThrowable, bind_assoc]
  refine Protocol.leads_perform_bind.mpr
    ⟨⟨check, guarded, rfl⟩, fun found => ?_, fun reason => ?_⟩
  · rw [show (protocol check? settles).advance call asking (.findGroupById check.groupId)
      (.ok found) = afterGroup check found from advance_asking guarded check.groupId found]
    cases found with
    | none => rfl
    | some group =>
        simp only [pure_bind, afterGroup]
        by_cases isOwner : group.ownerId = check.userId
        · rw [if_pos isOwner, beq_iff_eq.mpr isOwner]
          exact owned
        · rw [if_neg isOwner, beq_eq_false_iff_ne.mpr isOwner]
          exact notOwned
  · simp only [advance, guarded]
    rfl

/-- Every hook is cleared or refused as its two statements say. -/
theorem leads_hook
    (guarded : check? call = some check) :
    (protocol check? settles).Leads call Decided asking check.hook := by
  obtain ⟨guard, groupId, userId⟩ := check
  unfold GuardCheck.hook
  cases guard with
  | groupOwner =>
      exact leads_isGroupOwnerThrowable guarded rfl rfl
  | role role =>
      refine leads_isGroupOwnerThrowable guarded rfl ?_
      simp only [reduceCtorEq, if_false]
      refine Protocol.leads_perform_bind.mpr
        ⟨⟨_, guarded, rfl⟩, fun roles => ?_, fun reason => ?_⟩
      · simp only [advance, guarded]
        cases roles.contains role <;> rfl
      · simp only [advance, guarded]
        rfl
  | permission permission =>
      refine leads_isGroupOwnerThrowable guarded rfl ?_
      simp only [reduceCtorEq, if_false]
      refine Protocol.leads_perform_bind.mpr
        ⟨⟨_, guarded, rfl⟩, fun permissions => ?_, fun reason => ?_⟩
      · simp only [advance, guarded]
        cases permissions.contains permission <;> rfl
      · simp only [advance, guarded]
        rfl

/-- A hook with whatever comes after it. -/
theorem conforms_guarded
    (guarded : check? call = some check)
    {handler : AuthorizationProgram AuthorizationReply}
    (handled : (protocol check? settles).Conforms call cleared handler) :
    (protocol check? settles).Conforms call (start check? call)
      (check.hook >>= fun _ => handler) := by
  rw [start, guarded, Option.isSome_some, if_pos rfl]
  refine (leads_hook guarded).bind ?_ ?_
  · intro value phase decided
    rw [show phase = cleared from decided]
    exact handled
  · intro reason phase decided
    exact .inr ⟨decided, reason, rfl⟩

end Protocol

/-- The authorization routes are guarded as `check?` says. -/
theorem conforms_routes
    {Call : Type}
    {check? : Call → Option GuardCheck}
    {settles : Call → Except AppError AuthorizationReply → Prop}
    {call : Call}
    (request : AuthorizationRequest)
    (isRequest : check? call = request.check?)
    (settlesAnyhow : ∀ outcome, settles call outcome) :
    (protocol check? settles).Conforms call (start check? call)
      (authorizationRoutes request) := by
  have handled : ∀ handler, (protocol check? settles).Conforms call cleared handler :=
    leads_cleared fun outcome => .inl ⟨rfl, settlesAnyhow outcome⟩
  obtain ⟨caller, route⟩ := request
  cases route with
  | createGroup groupName =>
      rw [start, isRequest]
      exact handled _
  | deleteGroup groupId => exact conforms_guarded isRequest (handled _)
  | addUserToGroup groupId userId => exact conforms_guarded isRequest (handled _)
  | deleteUserFromGroup groupId userId => exact conforms_guarded isRequest (handled _)
  | addUserRole groupId userId role => exact conforms_guarded isRequest (handled _)
  | deleteUserRole groupId userId role => exact conforms_guarded isRequest (handled _)

end GuardPhase

namespace GuardCheck

variable {state : AuthorizationState}
variable {check : GuardCheck}

/-- The owner of a group is allowed everything in it. -/
theorem AllowedBy.of_owner
    {group : Group}
    (found : (state.groups.first fun group => group.id == check.groupId) = some group)
    (isOwner : group.ownerId = check.userId) :
    check.AllowedBy state := by
  obtain ⟨member, sameId⟩ := Table.mem_of_first found
  exact ⟨group, member, beq_iff_eq.mp sameId, .inl isOwner⟩

/-- What is held in a group is held in one that is there. -/
theorem AllowedBy.of_held
    (membershipsRefer : state.MembershipsRefer)
    (held : check.guard.HeldBy state check.groupId check.userId) :
    check.AllowedBy state := by
  have groupExists : ∃ group ∈ state.groups.rows, group.id = check.groupId := by
    obtain ⟨guard, groupId, userId⟩ := check
    cases guard with
    | groupOwner => exact held.elim
    | role name =>
        obtain ⟨userGroup, membership, ⟨rfl, _⟩, _⟩ := held
        exact membershipsRefer userGroup membership
    | permission name =>
        obtain ⟨userGroup, membership, rfl, _⟩ := held
        exact membershipsRefer userGroup membership
  obtain ⟨group, member, sameId⟩ := groupExists
  exact ⟨group, member, sameId, .inr held⟩

/-- Whoever is not the owner is allowed what is held only. -/
theorem AllowedBy.held
    (notOwner :
      ∀ group ∈ state.groups.rows,
        group.id = check.groupId → group.ownerId ≠ check.userId)
    (allowed : check.AllowedBy state) :
    check.guard.HeldBy state check.groupId check.userId := by
  obtain ⟨group, member, sameId, isOwner | held⟩ := allowed
  · exact absurd isOwner (notOwner group member sameId)
  · exact held

end GuardCheck

namespace GuardPhase

variable {Call : Type}
variable {check? : Call → Option GuardCheck}
variable {call : Call}
variable {state : AuthorizationState}
variable {check : GuardCheck}
variable {op : AuthorizationOp}
variable {phase : GuardPhase}

/-- What is read after the group says whether the guard is held. -/
theorem advance_notOwner
    (rolesRefer : state.RolesRefer)
    (guarded : check? call = some check)
    (permitted : notOwner.permits check? call op) :
    (check.guard.HeldBy state check.groupId check.userId ∧
        notOwner.advance check? call op (op.execute state).1 = cleared) ∨
      (¬check.guard.HeldBy state check.groupId check.userId ∧
        notOwner.advance check? call op (op.execute state).1 = refused) := by
  obtain ⟨_, guardedAgain, reads⟩ := permitted
  obtain rfl := Option.some.inj (guarded.symm.trans guardedAgain)
  obtain ⟨guard, groupId, userId⟩ := check
  cases guard with
  | groupOwner => cases reads
  | role name =>
      obtain rfl := Option.some.inj reads
      simp only [advance, guarded, AuthorizationOp.execute, AccessGuard.HeldBy,
        ← AuthorizationState.mem_rolesOf, ← List.contains_iff_mem]
      cases (state.rolesOf groupId userId).contains name <;> simp
  | permission name =>
      obtain rfl := Option.some.inj reads
      simp only [advance, guarded, AuthorizationOp.execute, AccessGuard.HeldBy,
        ← AuthorizationState.mem_permissionsOf rolesRefer, ← List.contains_iff_mem]
      cases (state.permissionsOf groupId userId).contains name <;> simp

/-- The first statement of a hook looks its group up. -/
theorem advance_asking_execute
    (guarded : check? call = some check)
    (permitted : asking.permits check? call op) :
    asking.advance check? call op (op.execute state).1 =
      afterGroup check (state.groups.first fun group => group.id == check.groupId) := by
  obtain ⟨_, guardedAgain, rfl⟩ := permitted
  obtain rfl := Option.some.inj (guarded.symm.trans guardedAgain)
  simp only [advance, guarded, AuthorizationOp.execute]

/-- A hook that has not cleared its call only reads. -/
theorem execute_of_permits
    (permitted : phase.permits check? call op)
    (notCleared : phase ≠ cleared) :
    (op.execute state).2 = state := by
  cases phase with
  | asking =>
      obtain ⟨check, _, rfl⟩ := permitted
      rfl
  | notOwner =>
      obtain ⟨⟨guard, groupId, userId⟩, _, reads⟩ := permitted
      cases guard with
      | groupOwner => cases reads
      | role name =>
          obtain rfl := Option.some.inj reads
          rfl
      | permission name =>
          obtain rfl := Option.some.inj reads
          rfl
  | cleared => exact absurd rfl notCleared
  | refused => exact permitted.elim

/-- A call is cleared by a statement that finds it allowed. -/
theorem allowed_of_cleared
    (rolesRefer : state.RolesRefer)
    (membershipsRefer : state.MembershipsRefer)
    (guarded : check? call = some check)
    (permitted : phase.permits check? call op)
    (notCleared : phase ≠ cleared)
    (isCleared :
      phase.advance check? call op (op.execute state).1 = cleared) :
    check.AllowedBy state := by
  cases phase with
  | asking =>
      rw [advance_asking_execute guarded permitted] at isCleared
      unfold afterGroup at isCleared
      split at isCleared
      · cases isCleared
      · rename_i group found
        split at isCleared
        · rename_i isOwner
          exact .of_owner found isOwner
        · split at isCleared <;> cases isCleared
  | notOwner =>
      rcases advance_notOwner rolesRefer guarded permitted with ⟨held, _⟩ | ⟨_, isRefused⟩
      · exact .of_held membershipsRefer held
      · cases isRefused.symm.trans isCleared
  | cleared => exact absurd rfl notCleared
  | refused => exact permitted.elim

/-- A call is refused by a statement that finds it not allowed. -/
theorem not_allowed_of_refused
    (rolesRefer : state.RolesRefer)
    (guarded : check? call = some check)
    (notOwned :
      phase = notOwner →
      ∀ group ∈ state.groups.rows,
        group.id = check.groupId → group.ownerId ≠ check.userId)
    (permitted : phase.permits check? call op)
    (isRefused :
      phase.advance check? call op (op.execute state).1 = refused) :
    ¬check.AllowedBy state := by
  intro allowed
  cases phase with
  | asking =>
      obtain ⟨group, member, sameId, held⟩ := allowed
      have found :
          (state.groups.first fun group => group.id == check.groupId) = some group :=
        Table.first_of_key member sameId
      rw [advance_asking_execute guarded permitted, found, afterGroup] at isRefused
      split at isRefused
      · cases isRefused
      · rename_i notOwner
        split at isRefused
        · rename_i isOwnerGuard
          have never := held.resolve_left notOwner
          rw [isOwnerGuard] at never
          exact never
        · cases isRefused
  | notOwner =>
      rcases advance_notOwner rolesRefer guarded permitted with
        ⟨_, isCleared⟩ | ⟨notHeld, _⟩
      · cases isRefused.symm.trans isCleared
      · exact notHeld (allowed.held (notOwned rfl))
  | cleared => cases isRefused
  | refused => exact permitted.elim

end GuardPhase

end Prescott
