import Prescott.AccessGuards

namespace Prescott

/-!
# Where roles and memberships come from

Requests run concurrently and a hook has decided before its handler runs.  Even
so, every row of a role goes back to a request of the owner of the group, and
every membership to a request of the owner or of somebody whom the owner has
made a manager.
-/

/-- The requests, followed by what they add and by what their hooks decide. -/
abbrev delegationProtocol :
    Protocol authorizationSignature AppError AuthorizationRequest
      AuthorizationReply :=
  MembershipPhase.protocol.prod
    (GuardPhase.protocol AuthorizationRequest.check? fun _ _ => True)

/-- The routes follow both protocols. -/
theorem conforms_delegationProtocol
    (request : AuthorizationRequest) :
    delegationProtocol.Conforms request (delegationProtocol.start request)
      (authorizationServices.body request) :=
  (MembershipPhase.conforms_authorizationRoutes request).prod
    (GuardPhase.conforms_routes request rfl fun _ => trivial)

/-- What is seen of the requests. -/
abbrev DelegationView :=
  delegationProtocol.View AuthorizationState

namespace MembershipPhase

/-- What a request adds is what its route names. -/
def FollowsRoute (request : AuthorizationRequest) : MembershipPhase → Prop
  | checking groupId userId => request.route = .addUserToGroup groupId userId
  | inserting groupId userId =>
      request.route = .addUserToGroup groupId userId ∨
        userId = request.caller ∧ ∃ name, request.route = .createGroup name
  | reading groupId userId roleName | checked groupId userId roleName
  | allowed groupId userId roleName | locating groupId userId roleName _
  | granting groupId userId roleName _ _ =>
      request.route = .addUserRole groupId userId roleName ∧ request.caller ≠ userId
  | starting | hooked | working => True

variable {request : AuthorizationRequest}
variable {phase : MembershipPhase}
variable {op : AuthorizationOp}

theorem followsRoute_admitted :
    (admitted request).FollowsRoute request := by
  unfold admitted
  split
  · rename_i isRoute
    split
    · trivial
    · rename_i other
      exact ⟨isRoute, other⟩
  · trivial

theorem followsRoute_start :
    (start request).FollowsRoute request := by
  unfold start
  split <;> trivial

/-- A group is inserted for the caller who makes it. -/
theorem route_of_insertGroup
    {name : String}
    {ownerId : Nat}
    (permitted : phase.permits request (.insertGroup name ownerId)) :
    request.route = .createGroup name ∧ ownerId = request.caller := by
  cases phase with
  | starting =>
      simp only [permits] at permitted
      split at permitted
      · rename_i isRoute
        rcases permitted with absurd | same
        · cases absurd
        · obtain ⟨rfl, rfl⟩ := AuthorizationOp.insertGroup.inj same
          exact ⟨isRoute, rfl⟩
      · cases permitted
      · cases permitted
      · exact permitted.elim
  | hooked =>
      simp only [permits] at permitted
      split at permitted
      · rcases permitted with absurd | absurd <;> cases absurd
      · cases permitted
      · exact permitted.elim
  | working => exact permitted.elim
  | _ => cases permitted

/-- The statements of a request go on with what its route names. -/
theorem FollowsRoute.advance
    {answer : Except AppError op.Result}
    (follows : phase.FollowsRoute request)
    (permitted : phase.permits request op) :
    (phase.advance request op answer).FollowsRoute request := by
  fun_cases MembershipPhase.advance request phase op answer
  case case7 =>
    obtain ⟨isRoute, isCaller⟩ := route_of_insertGroup permitted
    exact .inr ⟨isCaller, _, isRoute⟩
  all_goals first
    | exact follows
    | trivial
    | exact followsRoute_admitted
    | assumption
    | exact .inl follows

/-- What a request has found out, and what stays true. -/
def Backed (state : AuthorizationState) (request : AuthorizationRequest) :
    MembershipPhase → Prop
  | inserting groupId _ =>
      ∀ name, request.route = .createGroup name → OwnedBy state groupId request.caller
  | allowed groupId _ _ => OwnedBy state groupId request.caller
  | locating groupId _ roleName roleId =>
      OwnedBy state groupId request.caller ∧ IsNamed state roleId roleName
  | granting groupId userId roleName userGroupId roleId =>
      OwnedBy state groupId request.caller ∧ IsNamed state roleId roleName ∧
        IsMembership state userGroupId groupId userId
  | _ => True

variable {before after : AuthorizationState}

theorem backed_admitted :
    (admitted request).Backed before request := by
  rcases @admitted_cases request with isNext | isNext | ⟨_, _, _, isNext⟩ <;>
    rw [isNext] <;> trivial

theorem Backed.kept
    (backed : phase.Backed before request)
    (effect : AuthorizationState.StatementEffect op before after) :
    phase.Backed after request := by
  have follows := effect.follows
  have named : ∀ roleId roleName,
      IsNamed before roleId roleName → IsNamed after roleId roleName := by
    intro roleId roleName
    rw [IsNamed, IsNamed, effect.roles]
    exact id
  cases phase with
  | inserting groupId userId => exact fun name isRoute => (backed name isRoute).kept follows
  | allowed groupId userId roleName => exact backed.kept follows
  | locating groupId userId roleName roleId =>
      exact ⟨backed.1.kept follows, named _ _ backed.2⟩
  | granting groupId userId roleName userGroupId roleId =>
      exact ⟨backed.1.kept follows, named _ _ backed.2.1, backed.2.2.kept follows⟩
  | _ => trivial

/-- A group that has just been found belongs to the user that it names. -/
theorem ownedBy_of_first
    {groupId : Nat}
    {group : Group}
    (found : (before.groups.first fun group => group.id == groupId) = some group) :
    OwnedBy before groupId group.ownerId := by
  obtain ⟨member, sameId⟩ := Table.mem_of_first found
  obtain rfl := beq_iff_eq.mp sameId
  refine ⟨before.groups.keysBelow group member, ?_⟩
  intro other otherMember same
  rw [Table.eq_of_key otherMember member same]

/-- A group that has just been made belongs to the user who has made it. -/
theorem backed_insertGroup
    {name : String} :
    (advance request starting (.insertGroup name request.caller)
        (AuthorizationOp.execute (.insertGroup name request.caller) before).1).Backed
      (AuthorizationOp.execute (.insertGroup name request.caller) before).2 request := by
  simp only [AuthorizationOp.execute, AuthorizationState.insertGroup]
  split
  · trivial
  · split
    · intro _ _
      refine ⟨Nat.lt_succ_self _, ?_⟩
      intro group member isNew
      rcases Table.mem_rows_insert.mp member with old | rfl
      · have below : group.id < before.groups.nextId := before.groups.keysBelow group old
        exact absurd isNew (Nat.ne_of_lt below)
      · rfl
    · trivial

/-- What a request relies on it has been answered. -/
theorem Backed.advance
    (backed : phase.Backed before request)
    (follows : phase.FollowsRoute request)
    (permitted : phase.permits request op) :
    (phase.advance request op (op.execute before).1).Backed
      (op.execute before).2 request := by
  have decided : ∀ groupId,
      (MembershipPhase.advance request starting (.findGroupById groupId)
        (AuthorizationOp.execute (.findGroupById groupId) before).1).Backed
        before request := by
    intro groupId
    simp only [AuthorizationOp.execute]
    cases before.groups.first fun group => group.id == groupId with
    | none => trivial
    | some group =>
        simp only [MembershipPhase.advance]
        split
        · exact backed_admitted
        · trivial
  cases phase with
  | starting =>
      simp only [permits] at permitted
      split at permitted
      · rcases permitted with rfl | rfl
        · trivial
        · exact backed_insertGroup
      · subst permitted
        exact decided _
      · subst permitted
        exact decided _
      · exact permitted.elim
  | hooked =>
      simp only [permits] at permitted
      split at permitted
      · rename_i groupId userId isRoute
        rcases permitted with rfl | rfl
        · exact backed_admitted
        · simp only [AuthorizationOp.execute]
          cases before.users.table.first fun user => user.id == userId with
          | none => trivial
          | some user =>
              simp only [MembershipPhase.advance, isRoute]
              trivial
      · subst permitted
        exact backed_admitted
      · exact permitted.elim
  | checking groupId userId =>
      cases permitted
      simp only [AuthorizationOp.execute]
      cases (before.userGroups.first fun row =>
          row.groupId == groupId && row.userId == userId).isSome with
      | true => trivial
      | false =>
          intro name isRoute
          cases follows.symm.trans isRoute
  | inserting groupId userId =>
      cases permitted
      generalize AuthorizationOp.execute _ before = executed
      obtain ⟨_ | _, _⟩ := executed <;> trivial
  | reading groupId userId roleName =>
      cases permitted
      simp only [AuthorizationOp.execute, MembershipPhase.advance]
      split <;> trivial
  | checked groupId userId roleName =>
      cases permitted
      simp only [AuthorizationOp.execute]
      cases found : before.groups.first fun group => group.id == groupId with
      | none => trivial
      | some group =>
          simp only [MembershipPhase.advance]
          split
          · rename_i isOwner
            have owned := ownedBy_of_first found
            rw [isOwner] at owned
            exact owned
          · trivial
  | allowed groupId userId roleName =>
      cases permitted
      simp only [AuthorizationOp.execute]
      cases found : before.roles.first fun role => role.name == roleName with
      | none => trivial
      | some role =>
          obtain ⟨member, sameName⟩ := Table.mem_of_first found
          exact ⟨backed, role, member, rfl, beq_iff_eq.mp sameName⟩
  | locating groupId userId roleName roleId =>
      cases permitted
      simp only [AuthorizationOp.execute]
      cases found : before.userGroups.first fun row =>
          row.groupId == groupId && row.userId == userId with
      | none => trivial
      | some userGroup =>
          obtain ⟨member, isMember⟩ := Table.mem_of_first found
          refine ⟨backed.1, backed.2, before.userGroups.keysBelow userGroup member, ?_⟩
          intro row rowMember same
          rw [Table.eq_of_key rowMember member same]
          simpa using isMember
  | granting groupId userId roleName userGroupId roleId =>
      cases permitted
      generalize AuthorizationOp.execute _ before = executed
      obtain ⟨_ | _, _⟩ := executed <;> trivial
  | working =>
      rw [advance_working permitted]
      trivial

end MembershipPhase

namespace DelegationView

/-- The request has been sent, whatever has become of it. -/
def HasBegun (view : DelegationView) (request : AuthorizationRequest) : Prop :=
  ∃ pid phase, view.progress pid = some ⟨request, phase⟩

/-- The owner of the group has asked for the user to get the role. -/
def Vouched (view : DelegationView) (groupId userId : Nat) (roleName : String) : Prop :=
  ∃ owner,
    MembershipPhase.OwnedBy view.shared groupId owner ∧
      owner ≠ userId ∧
      view.HasBegun ⟨owner, .addUserRole groupId userId roleName⟩

/-- The user owns the group, or its owner has asked for a manager. -/
def Managed (view : DelegationView) (groupId userId : Nat) : Prop :=
  MembershipPhase.OwnedBy view.shared groupId userId ∨
    view.Vouched groupId userId "group_manager"

/-- The user has made the group, or a manager has asked for a member. -/
def Joined (view : DelegationView) (groupId userId : Nat) : Prop :=
  (MembershipPhase.OwnedBy view.shared groupId userId ∧
      ∃ name, view.HasBegun ⟨userId, .createGroup name⟩) ∨
    ∃ caller,
      view.HasBegun ⟨caller, .addUserToGroup groupId userId⟩ ∧
        view.Managed groupId caller

/-- What is stored, and what a hook has let through, has its request. -/
structure Delegation (view : DelegationView) : Prop where
  rolesRefer : view.shared.RolesRefer
  membershipsRefer : view.shared.MembershipsRefer
  roles :
    ∀ userRole ∈ view.shared.userRoles.rows,
    ∀ userGroup ∈ view.shared.userGroups.rows,
      userGroup.id = userRole.userGroupId →
      ∀ role ∈ view.shared.roles.rows,
        role.id = userRole.roleId →
        view.Vouched userGroup.groupId userGroup.userId role.name
  memberships :
    ∀ userGroup ∈ view.shared.userGroups.rows,
      view.Joined userGroup.groupId userGroup.userId
  follows :
    ∀ pid request phase,
      view.progress pid = some ⟨request, phase⟩ → phase.1.FollowsRoute request
  backed :
    ∀ pid request phase,
      view.progress pid = some ⟨request, phase⟩ → phase.1.Backed view.shared request
  cleared :
    ∀ pid request phase groupId userId,
      view.progress pid = some ⟨request, phase⟩ →
      phase.2 = .cleared →
      request.route = .addUserToGroup groupId userId →
      view.Managed groupId request.caller

/-- Groups keep their owners, and what has begun has begun. -/
structure Extends (earlier later : DelegationView) : Prop where
  follows : earlier.shared.Follows later.shared
  begun : ∀ request, earlier.HasBegun request → later.HasBegun request

section Extends

variable {earlier later : DelegationView}
variable {groupId userId : Nat}
variable {roleName : String}

theorem Vouched.mono
    (vouched : earlier.Vouched groupId userId roleName)
    (extended : earlier.Extends later) :
    later.Vouched groupId userId roleName := by
  obtain ⟨owner, owned, other, begun⟩ := vouched
  exact ⟨owner, owned.kept extended.follows, other, extended.begun _ begun⟩

theorem Managed.mono
    (managed : earlier.Managed groupId userId)
    (extended : earlier.Extends later) :
    later.Managed groupId userId := by
  rcases managed with owned | vouched
  · exact .inl (owned.kept extended.follows)
  · exact .inr (vouched.mono extended)

theorem Joined.mono
    (joined : earlier.Joined groupId userId)
    (extended : earlier.Extends later) :
    later.Joined groupId userId := by
  rcases joined with ⟨owned, name, begun⟩ | ⟨caller, begun, managed⟩
  · exact .inl ⟨owned.kept extended.follows, name, extended.begun _ begun⟩
  · exact .inr ⟨caller, extended.begun _ begun, managed.mono extended⟩

end Extends

section Step

variable {view : DelegationView}
variable {pid : Nat}
variable {request : AuthorizationRequest}
variable {phase : delegationProtocol.Phase}
variable {op : AuthorizationOp}

/-- A request in progress has been sent. -/
theorem HasBegun.of_progress
    {route : AuthorizationRoute}
    (present : view.progress pid = some ⟨request, phase⟩)
    (isRoute : request.route = route) :
    view.HasBegun ⟨request.caller, route⟩ := by
  refine ⟨pid, phase, ?_⟩
  rw [← isRoute]
  exact present

/-- A call that begins or goes on keeps what has begun. -/
theorem HasBegun.place
    {other : AuthorizationRequest}
    {next : delegationProtocol.Phase}
    {shared : AuthorizationState}
    (found : ∀ earlier, view.progress pid = some earlier → earlier.call = request)
    (begun : view.HasBegun other) :
    HasBegun (view.place pid ⟨request, next⟩ shared) other := by
  obtain ⟨otherPid, otherPhase, present⟩ := begun
  by_cases same : otherPid = pid
  · subst same
    obtain rfl : other = request := found _ present
    exact ⟨otherPid, next, by simp [Protocol.View.place]⟩
  · exact ⟨otherPid, otherPhase,
      by simpa [Protocol.View.place, Function.update_of_ne same] using present⟩

/-- Who is let through by the hook of `addUserToGroup` manages the group. -/
theorem Delegation.managed_of_allowed
    (delegation : view.Delegation)
    {groupId userId : Nat}
    (allowed : GuardCheck.AllowedBy ⟨.role "group_manager", groupId, userId⟩ view.shared) :
    view.Managed groupId userId := by
  obtain ⟨group, member, rfl, isOwner | held⟩ := allowed
  · obtain rfl := isOwner
    refine .inl ⟨view.shared.groups.keysBelow group member, ?_⟩
    intro other otherMember same
    rw [Table.eq_of_key otherMember member same]
  · obtain ⟨userGroup, membership, ⟨inGroup, rfl⟩, userRole, present, sameId, role,
      roleMember, sameRole, isManager⟩ := held
    have vouched := delegation.roles userRole present userGroup membership sameId.symm role
      roleMember sameRole
    rw [isManager, inGroup] at vouched
    exact .inr vouched

/-- A role that is granted is one that the owner has asked for. -/
theorem Delegation.vouched_of_granting
    (delegation : view.Delegation)
    (present : view.progress pid = some ⟨request, phase⟩)
    {userGroup : UserGroup}
    {role : Role}
    (membership : userGroup ∈ view.shared.userGroups.rows)
    (roleMember : role ∈ view.shared.roles.rows)
    (permitted : phase.1.permits request (.insertUserRole userGroup.id role.id)) :
    view.Vouched userGroup.groupId userGroup.userId role.name := by
  obtain ⟨membershipPhase, guardPhase⟩ := phase
  obtain ⟨groupId, userId, roleName, rfl⟩ :=
    MembershipPhase.granting_of_permits permitted
  obtain ⟨isRoute, other⟩ := delegation.follows pid request _ present
  obtain ⟨owned, ⟨named, namedMember, namedId, rfl⟩, isMembership⟩ :=
    delegation.backed pid request _ present
  obtain ⟨rfl, rfl⟩ := isMembership.2 userGroup membership rfl
  obtain rfl : named = role := Table.eq_of_key namedMember roleMember namedId
  exact ⟨request.caller, owned, other, .of_progress present isRoute⟩

/-- A membership that is inserted has its request. -/
theorem Delegation.joined_of_inserting
    (delegation : view.Delegation)
    (present : view.progress pid = some ⟨request, phase⟩)
    {groupId userId : Nat}
    (permitted : delegationProtocol.permits request phase (.insertUserGroup groupId userId)) :
    view.Joined groupId userId := by
  obtain ⟨membershipPhase, guardPhase⟩ := phase
  obtain ⟨inserts, clears⟩ := permitted
  have isCleared : guardPhase = .cleared := by
    by_contra notCleared
    cases guardPhase with
    | asking =>
        obtain ⟨_, _, absurd⟩ := clears
        cases absurd
    | notOwner =>
        obtain ⟨⟨guard, _, _⟩, _, reads⟩ := clears
        cases guard <;> cases reads
    | cleared => exact notCleared rfl
    | refused => exact clears
  obtain rfl := MembershipPhase.inserting_of_permits inserts
  rcases delegation.follows pid request _ present with isRoute | ⟨rfl, name, isRoute⟩
  · exact .inr ⟨request.caller, .of_progress present isRoute,
      delegation.cleared pid request _ groupId userId present isCleared isRoute⟩
  · exact .inl ⟨delegation.backed pid request _ present name isRoute, name,
      .of_progress present isRoute⟩

/-- A turn stores nothing without a request. -/
theorem Delegation.step
    {before after : DelegationView}
    {turn : Turn AuthorizationRequest Unit}
    (delegation : before.Delegation)
    (moves : Protocol.Moves authorizationServices delegationProtocol before turn after) :
    after.Delegation := by
  cases moves with
  | @invoke pid request shared fresh begun =>
      obtain rfl := Option.some.inj begun
      have extended :
          before.Extends
            (before.place pid ⟨request, delegationProtocol.start request⟩ before.shared) :=
        ⟨⟨.refl _, .refl _⟩, fun _ => HasBegun.place fun _ found => by
          rw [fresh] at found
          cases found⟩
      refine ⟨delegation.rolesRefer, delegation.membershipsRefer, ?_, ?_, ?_, ?_, ?_⟩
      · intro userRole present userGroup membership sameId role roleMember sameRole
        exact (delegation.roles userRole present userGroup membership sameId role roleMember
          sameRole).mono extended
      · intro userGroup membership
        exact (delegation.memberships userGroup membership).mono extended
      · intro other otherRequest phase found
        rcases Protocol.View.place_cases found with ⟨_, shape⟩ | ⟨_, earlier⟩
        · cases shape
          exact MembershipPhase.followsRoute_start
        · exact delegation.follows other otherRequest phase earlier
      · intro other otherRequest phase found
        rcases Protocol.View.place_cases found with ⟨_, shape⟩ | ⟨_, earlier⟩
        · cases shape
          change (MembershipPhase.start request).Backed before.shared request
          unfold MembershipPhase.start
          split <;> trivial
        · exact delegation.backed other otherRequest phase earlier
      · intro other otherRequest phase groupId userId found isCleared isRoute
        rcases Protocol.View.place_cases found with ⟨_, shape⟩ | ⟨_, earlier⟩
        · cases shape
          change GuardPhase.start AuthorizationRequest.check? request = .cleared at isCleared
          simp [GuardPhase.start, AuthorizationRequest.check?, isRoute] at isCleared
        · exact (delegation.cleared other otherRequest phase groupId userId earlier isCleared
            isRoute).mono extended
  | @resume pid request phase op input answer shared present permitted answered =>
      have executed := Option.some.inj answered
      obtain rfl : (op.execute before.shared).1 = answer := congrArg Prod.fst executed
      obtain rfl : (op.execute before.shared).2 = shared := congrArg Prod.snd executed
      have effect : AuthorizationState.StatementEffect op before.shared _ :=
        AuthorizationState.statementEffect_execute op
      have extended :
          before.Extends
            (before.place pid
              ⟨request,
                delegationProtocol.advance request phase op (op.execute before.shared).1⟩
              (op.execute before.shared).2) :=
        ⟨effect.follows, fun _ => HasBegun.place fun _ found => by
          rw [present] at found
          cases found
          rfl⟩
      refine ⟨delegation.rolesRefer.execute op,
        effect.membershipsRefer delegation.membershipsRefer, ?_, ?_, ?_, ?_, ?_⟩
      · intro userRole stored userGroup membership sameId role roleMember sameRole
        refine Vouched.mono ?_ extended
        change role ∈ (op.execute before.shared).2.roles.rows at roleMember
        rw [effect.roles] at roleMember
        rcases effect.userRole stored with old | ⟨rfl, _, sameGroups, _⟩
        · -- the membership of an old row is an old one
          obtain ⟨known, knownMember, knownId⟩ :=
            delegation.rolesRefer.membership userRole old
          obtain rfl : known = userGroup :=
            effect.follows.userGroups.eq_of_key knownMember membership
              (knownId.trans sameId.symm)
          exact delegation.roles userRole old known knownMember sameId role roleMember sameRole
        · change userGroup ∈ (AuthorizationOp.execute _ before.shared).2.userGroups.rows
            at membership
          rw [sameGroups] at membership
          refine delegation.vouched_of_granting present membership roleMember ?_
          rw [sameId, sameRole]
          exact permitted.1
      · intro userGroup membership
        refine Joined.mono ?_ extended
        rcases effect.userGroup membership with old | ⟨rfl, _⟩
        · exact delegation.memberships userGroup old
        · exact delegation.joined_of_inserting present permitted
      · intro other otherRequest otherPhase found
        rcases Protocol.View.place_cases found with ⟨_, shape⟩ | ⟨_, earlier⟩
        · cases shape
          exact (delegation.follows pid request phase present).advance permitted.1
        · exact delegation.follows other otherRequest otherPhase earlier
      · intro other otherRequest otherPhase found
        rcases Protocol.View.place_cases found with ⟨_, shape⟩ | ⟨_, earlier⟩
        · cases shape
          exact (delegation.backed pid request phase present).advance
            (delegation.follows pid request phase present) permitted.1
        · exact (delegation.backed other otherRequest otherPhase earlier).kept effect
      · intro other otherRequest otherPhase groupId userId found isCleared isRoute
        refine Managed.mono ?_ extended
        rcases Protocol.View.place_cases found with ⟨_, shape⟩ | ⟨_, earlier⟩
        · obtain ⟨rfl, rfl⟩ := Protocol.Progress.mk.inj shape
          by_cases already : phase.2 = .cleared
          · exact delegation.cleared pid otherRequest phase groupId userId present already
              isRoute
          · have guarded :
                otherRequest.check? =
                  some ⟨.role "group_manager", groupId, otherRequest.caller⟩ := by
              rw [AuthorizationRequest.check?, isRoute]
            exact delegation.managed_of_allowed
              (GuardPhase.allowed_of_cleared delegation.rolesRefer
                delegation.membershipsRefer guarded permitted.2 already isCleared)
        · exact delegation.cleared other otherRequest otherPhase groupId userId earlier
            isCleared isRoute

end Step

/-- Before the first group nothing needs a request. -/
theorem Delegation.initially
    (users : UserTable)
    (roles : Table Role)
    (permissions : Table Permission)
    (rolePermissions : List RolePermission) :
    Delegation (.initial delegationProtocol
      (.initial users roles permissions rolePermissions)) where
  rolesRefer := ⟨nofun, nofun⟩
  membershipsRefer := fun _ member => by cases member
  roles := fun _ member => by cases member
  memberships := fun _ member => by cases member
  follows := fun _ _ _ present => by cases present
  backed := fun _ _ _ present => by cases present
  cleared := fun _ _ _ _ _ present => by cases present

end DelegationView

/-- All requests over the tables. -/
abbrev DelegationConfig :=
  Interleaving AuthorizationState delegationProtocol

/-- The request is one of those that have been sent. -/
def DelegationConfig.HasBegun
    (config : DelegationConfig)
    (request : AuthorizationRequest) :
    Prop :=
  ∃ pid process, config.processes pid = some process ∧ process.call = request

/--
What the tables hold goes back to the owners of the groups: every role of a
member, every membership but the owner's own, and with the roles every
permission.
-/
structure DelegatedByOwners (config : DelegationConfig) : Prop where
  roles :
    ∀ userRole ∈ config.shared.userRoles.rows,
      ∃ userGroup ∈ config.shared.userGroups.rows,
        userGroup.id = userRole.userGroupId ∧
          ∃ group ∈ config.shared.groups.rows,
            group.id = userGroup.groupId ∧
              group.ownerId ≠ userGroup.userId ∧
              ∃ role ∈ config.shared.roles.rows,
                role.id = userRole.roleId ∧
                  config.HasBegun
                    ⟨group.ownerId, .addUserRole group.id userGroup.userId role.name⟩
  memberships :
    ∀ userGroup ∈ config.shared.userGroups.rows,
      ∃ group ∈ config.shared.groups.rows,
        group.id = userGroup.groupId ∧
          ((userGroup.userId = group.ownerId ∧
              ∃ name, config.HasBegun ⟨group.ownerId, .createGroup name⟩) ∨
            ∃ caller,
              config.HasBegun ⟨caller, .addUserToGroup group.id userGroup.userId⟩ ∧
                (caller = group.ownerId ∨
                  config.HasBegun
                    ⟨group.ownerId, .addUserRole group.id caller "group_manager"⟩))
  permissions :
    ∀ permission groupId userId,
      config.shared.HoldsPermission permission groupId userId →
        ∃ group ∈ config.shared.groups.rows,
          group.id = groupId ∧
            group.ownerId ≠ userId ∧
            ∃ role ∈ config.shared.roles.rows,
              config.shared.Maps role permission ∧
                config.HasBegun ⟨group.ownerId, .addUserRole groupId userId role.name⟩

namespace DelegationView

variable {config : DelegationConfig}

/-- What has begun is one of the calls. -/
theorem HasBegun.of_view
    {request : AuthorizationRequest}
    (begun : HasBegun config.view request) :
    config.HasBegun request := by
  obtain ⟨pid, phase, present⟩ := begun
  obtain ⟨process, found, shape⟩ := Option.map_eq_some_iff.mp present
  exact ⟨pid, process, found, congrArg Protocol.Progress.call shape⟩

/-- The owner of a group that is there is the one of its row. -/
theorem owner_of_ownedBy
    {view : DelegationView}
    {groupId owner : Nat}
    {group : Group}
    (owned : MembershipPhase.OwnedBy view.shared groupId owner)
    (member : group ∈ view.shared.groups.rows)
    (sameId : group.id = groupId) :
    owner = group.ownerId :=
  (owned.2 group member sameId).symm

theorem Vouched.byOwner
    {groupId userId : Nat}
    {roleName : String}
    {group : Group}
    (vouched : Vouched config.view groupId userId roleName)
    (member : group ∈ config.shared.groups.rows)
    (sameId : group.id = groupId) :
    group.ownerId ≠ userId ∧
      config.HasBegun ⟨group.ownerId, .addUserRole groupId userId roleName⟩ := by
  obtain ⟨owner, owned, other, begun⟩ := vouched
  obtain rfl := owner_of_ownedBy owned member sameId
  exact ⟨other, begun.of_view⟩

theorem Delegation.delegatedByOwners
    (delegation : Delegation config.view) :
    DelegatedByOwners config := by
  have vouchedRole :
      ∀ userRole ∈ config.shared.userRoles.rows,
      ∀ userGroup ∈ config.shared.userGroups.rows,
      ∀ role ∈ config.shared.roles.rows,
        userGroup.id = userRole.userGroupId → role.id = userRole.roleId →
          ∃ group ∈ config.shared.groups.rows,
            group.id = userGroup.groupId ∧
              group.ownerId ≠ userGroup.userId ∧
              config.HasBegun
                ⟨group.ownerId, .addUserRole group.id userGroup.userId role.name⟩ := by
    intro userRole stored userGroup membership role roleMember sameId sameRole
    obtain ⟨group, member, inGroup⟩ := delegation.membershipsRefer userGroup membership
    have vouched := delegation.roles userRole stored userGroup membership sameId role
      roleMember sameRole
    rw [← inGroup] at vouched
    obtain ⟨other, begun⟩ := vouched.byOwner member rfl
    exact ⟨group, member, inGroup, other, begun⟩
  constructor
  · intro userRole stored
    obtain ⟨userGroup, membership, sameId⟩ := delegation.rolesRefer.membership userRole stored
    obtain ⟨role, roleMember, sameRole⟩ := delegation.rolesRefer.role userRole stored
    obtain ⟨group, member, inGroup, other, begun⟩ :=
      vouchedRole userRole stored userGroup membership role roleMember sameId sameRole
    exact ⟨userGroup, membership, sameId, group, member, inGroup, other, role, roleMember,
      sameRole, begun⟩
  · intro userGroup membership
    obtain ⟨group, member, inGroup⟩ := delegation.membershipsRefer userGroup membership
    have joined := delegation.memberships userGroup membership
    rw [← inGroup] at joined
    refine ⟨group, member, inGroup, ?_⟩
    rcases joined with ⟨owned, name, begun⟩ | ⟨caller, begun, managed⟩
    · have isOwner := owner_of_ownedBy owned member rfl
      rw [isOwner] at begun
      exact .inl ⟨isOwner, name, begun.of_view⟩
    · refine .inr ⟨caller, begun.of_view, ?_⟩
      rcases managed with owned | vouched
      · exact .inl (owner_of_ownedBy owned member rfl)
      · exact .inr (vouched.byOwner member rfl).2
  · rintro permission groupId userId ⟨userGroup, membership, rfl, rfl, role, roleMember, maps,
      userRole, stored, sameId, sameRole⟩
    obtain ⟨group, member, inGroup, other, begun⟩ :=
      vouchedRole userRole stored userGroup membership role roleMember sameId.symm
        sameRole.symm
    rw [inGroup] at begun
    exact ⟨group, member, inGroup, other, role, roleMember, maps, begun⟩

end DelegationView

/--
Start from tables without groups and let requests to the authorization routes
run in any interleaving: whatever the tables hold at any time goes back to
requests of the owners of the groups.
-/
theorem access_delegatedByOwners
    (users : UserTable)
    (roles : Table Role)
    (permissions : Table Permission)
    (rolePermissions : List RolePermission)
    (turns : List (Turn AuthorizationRequest Unit))
    (final : DelegationConfig)
    (run :
      Run (Interleaving.Step authorizationServices fun _ _ => True)
        (.initial delegationProtocol (.initial users roles permissions rolePermissions))
        turns final) :
    DelegatedByOwners final := by
  obtain ⟨moves, _⟩ := Interleaving.moves_of_run conforms_delegationProtocol run
  have delegation :=
    moves.invariant DelegationView.Delegation
      (fun _ _ _ delegation ⟨_, moved⟩ => delegation.step moved)
      (.initially users roles permissions rolePermissions)
  exact delegation.delegatedByOwners

/-- The owner makes a manager, who adds a member while the owner removes the manager. -/
def managingTurns : List (Turn AuthorizationRequest Unit) :=
  [.invoke 0 ⟨1, .createGroup "readers"⟩] ++ List.replicate 3 (.resume 0 ()) ++
    [.invoke 1 ⟨1, .addUserToGroup 1 2⟩] ++ List.replicate 4 (.resume 1 ()) ++
    [.invoke 2 ⟨1, .addUserRole 1 2 "group_manager"⟩] ++ List.replicate 6 (.resume 2 ()) ++
    [.invoke 3 ⟨2, .addUserToGroup 1 3⟩, .resume 3 (), .resume 3 (),
      .invoke 4 ⟨1, .deleteUserFromGroup 1 2⟩] ++ List.replicate 3 (.resume 4 ()) ++
    List.replicate 3 (.resume 3 ())

theorem access_delegatedByOwners_manager :
    ∃ final,
      Run (Interleaving.Step authorizationServices fun _ _ => True)
          (.initial delegationProtocol threeUsers) managingTurns final ∧
        final.shared.userGroups.rows = [⟨1, 1, 1⟩, ⟨3, 1, 3⟩] ∧
        DelegatedByOwners final := by
  obtain ⟨final, executed, rows⟩ :
      ∃ final : DelegationConfig,
        managingTurns.foldlM (Interleaving.step? authorizationServices)
            (.initial delegationProtocol threeUsers) = some final ∧
          final.shared.userGroups.rows = [⟨1, 1, 1⟩, ⟨3, 1, 3⟩] :=
    ⟨_, rfl, rfl⟩
  have run := Interleaving.run_of_foldlM executed
  exact ⟨final, run, rows, access_delegatedByOwners _ _ _ _ managingTurns final run⟩

end Prescott
