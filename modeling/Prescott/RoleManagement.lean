import Prescott.AuthorizationEffects
import Prescott.TransitionSystem

namespace Prescott

/-!
# Role management over whole runs

Requests run one after another.  The owner of a group stays a member of it,
and the two roles that manage it are granted and taken away by the owner only.
-/

/-- A request is handled from one state to another. -/
def AuthorizationHandled
    (before : AuthorizationState)
    (request : AuthorizationRequest)
    (after : AuthorizationState) :
    Prop :=
  ∃ outcome,
    Settles authorizationHost (authorizationRoutes request)
      before outcome after

namespace AuthorizationState

/-- The owner of every group is a member of it. -/
def OwnersAreMembers (state : AuthorizationState) : Prop :=
  ∀ group ∈ state.groups.rows,
    ∃ userGroup ∈ state.userGroups.rows,
      userGroup.groupId = group.id ∧ userGroup.userId = group.ownerId

/-- A row of `user_roles` that makes a member of the group one of its managers. -/
def GivesManagement
    (state : AuthorizationState)
    (userRole : UserRole)
    (group : Group) :
    Prop :=
  userRole ∈ state.userRoles.rows ∧
    group ∈ state.groups.rows ∧
    (∃ userGroup ∈ state.userGroups.rows,
      userGroup.id = userRole.userGroupId ∧ userGroup.groupId = group.id) ∧
    ∃ role ∈ state.roles.rows,
      role.id = userRole.roleId ∧ role.name ∈ ROLES

/-- A later state: old identifiers still name the old groups and memberships. -/
structure Follows (earlier later : AuthorizationState) : Prop where
  groups : earlier.groups.Follows later.groups
  userGroups : earlier.userGroups.Follows later.userGroups

end AuthorizationState

namespace AuthorizationEffect

variable {caller : Nat}
variable {before after : AuthorizationState}

theorem follows
    {earlier : AuthorizationState}
    (precedes : earlier.Follows before)
    (effect : AuthorizationEffect caller before after) :
    earlier.Follows after := by
  cases effect with
  | nothing =>
      exact precedes
  | createGroup name =>
      exact ⟨precedes.groups.insert (Group.mk · name caller) fun _ => rfl,
        precedes.userGroups.insert
          (UserGroup.mk · before.groups.nextId caller) fun _ => rfl⟩
  | deleteGroup member isOwner =>
      exact ⟨precedes.groups.deleteWhere _,
        precedes.userGroups.deleteWhere _⟩
  | addUser groupId userId =>
      exact ⟨precedes.groups,
        precedes.userGroups.insert
          (UserGroup.mk · groupId userId) fun _ => rfl⟩
  | removeUser member isOwner other =>
      exact ⟨precedes.groups, precedes.userGroups.deleteWhere _⟩
  | addRole roleId member isOwner membership sameGroup =>
      exact ⟨precedes.groups, precedes.userGroups⟩
  | removeRole member allowed membership sameGroup roleMember =>
      exact ⟨precedes.groups, precedes.userGroups⟩

/-- No effect takes the membership of an owner away and leaves the group. -/
theorem ownersAreMembers
    (membersBefore : before.OwnersAreMembers)
    (effect : AuthorizationEffect caller before after) :
    after.OwnersAreMembers := by
  cases effect with
  | nothing =>
      exact membersBefore
  | createGroup name =>
      intro group member
      rcases Table.mem_rows_insert.mp member with old | rfl
      · obtain ⟨userGroup, present, sameGroup, sameUser⟩ :=
          membersBefore group old
        exact ⟨userGroup, Table.mem_rows_insert.mpr (.inl present),
          sameGroup, sameUser⟩
      · exact ⟨_, Table.mem_rows_insert.mpr (.inr rfl), rfl, rfl⟩
  | @deleteGroup deleted member isOwner =>
      intro group remaining
      obtain ⟨old, kept⟩ := Table.mem_rows_deleteWhere.mp remaining
      obtain ⟨userGroup, present, sameGroup, sameUser⟩ :=
        membersBefore group old
      refine ⟨userGroup,
        Table.mem_rows_deleteWhere.mpr ⟨present, ?_⟩, sameGroup, sameUser⟩
      rw [sameGroup]
      exact kept
  | addUser groupId userId =>
      intro group member
      obtain ⟨userGroup, present, sameGroup, sameUser⟩ :=
        membersBefore group member
      exact ⟨userGroup, Table.mem_rows_insert.mpr (.inl present),
        sameGroup, sameUser⟩
  | @removeUser managed userId managedMember isOwner other =>
      intro group member
      obtain ⟨userGroup, present, sameGroup, sameUser⟩ :=
        membersBefore group member
      refine ⟨userGroup,
        Table.mem_rows_deleteWhere.mpr ⟨present, ?_⟩, sameGroup, sameUser⟩
      -- The removed member of the managed group is not its owner.
      by_cases sameId : group.id = managed.id
      · have same : group = managed :=
          Table.eq_of_key member managedMember sameId
        have notOwner : userGroup.userId ≠ userId := by
          rw [sameUser, same, isOwner]
          exact Ne.symm other
        simp [notOwner]
      · have otherGroup : userGroup.groupId ≠ managed.id := by
          rw [sameGroup]
          exact sameId
        simp [otherGroup]
  | addRole roleId member isOwner membership sameGroup =>
      exact membersBefore
  | removeRole member allowed membership sameGroup roleMember =>
      exact membersBefore

/-- A role appears only because the owner of a group grants it to a member. -/
theorem granted_by_owner
    {userRole : UserRole}
    (effect : AuthorizationEffect caller before after)
    (absent : userRole ∉ before.userRoles.rows)
    (present : userRole ∈ after.userRoles.rows) :
    ∃ group ∈ before.groups.rows,
      ∃ userGroup ∈ before.userGroups.rows,
        group.ownerId = caller ∧
          userGroup.id = userRole.userGroupId ∧
          userGroup.groupId = group.id := by
  cases effect with
  | nothing =>
      exact absurd present absent
  | createGroup name =>
      exact absurd present absent
  | deleteGroup member isOwner =>
      exact absurd (Table.mem_rows_deleteWhere.mp present).1 absent
  | addUser groupId userId =>
      exact absurd present absent
  | removeUser member isOwner other =>
      exact absurd (Table.mem_rows_deleteWhere.mp present).1 absent
  | addRole roleId member isOwner membership sameGroup =>
      rcases Table.mem_rows_insert.mp present with old | rfl
      · exact absurd old absent
      · exact ⟨_, member, _, membership, isOwner, rfl, sameGroup⟩
  | removeRole member allowed membership sameGroup roleMember =>
      exact absurd (Table.mem_rows_deleteWhere.mp present).1 absent

/-- The group a membership belongs to is the only one. -/
theorem eq_of_membership
    {group other : Group}
    {left right : UserGroup}
    (member : group ∈ before.groups.rows)
    (otherMember : other ∈ before.groups.rows)
    (leftMember : left ∈ before.userGroups.rows)
    (rightMember : right ∈ before.userGroups.rows)
    (sameMembership : left.id = right.id)
    (leftGroup : left.groupId = group.id)
    (rightGroup : right.groupId = other.id) :
    group = other := by
  have same : left = right :=
    Table.eq_of_key leftMember rightMember sameMembership
  have sameId : group.id = other.id := by
    rw [← leftGroup, same, rightGroup]
  exact Table.eq_of_key member otherMember sameId

/-- A cascade over the memberships of a group takes roles of that group. -/
theorem owner_of_cascade
    {managed group : Group}
    {userRole : UserRole}
    {condition : UserGroup → Bool}
    (managedMember : managed ∈ before.groups.rows)
    (gives : before.GivesManagement userRole group)
    (ofManaged :
      ∀ userGroup,
        condition userGroup = true → userGroup.groupId = managed.id)
    (removed :
      userRole ∉
        (before.userRoles.deleteWhere fun row =>
          before.userGroups.rows.any fun userGroup =>
            condition userGroup && userGroup.id == row.userGroupId).rows) :
    group = managed := by
  obtain ⟨present, member, ⟨userGroup, membership, sameId, sameGroup⟩, _⟩ :=
    gives
  have cascaded :
      ∃ row ∈ before.userGroups.rows,
        condition row = true ∧ row.id = userRole.userGroupId := by
    by_contra none
    push Not at none
    refine removed (Table.mem_rows_deleteWhere.mpr ⟨present, ?_⟩)
    rw [List.any_eq_false]
    intro row rowMember taken
    rw [Bool.and_eq_true, beq_iff_eq] at taken
    exact none row rowMember taken.1 taken.2
  obtain ⟨row, rowMember, matching, rowId⟩ := cascaded
  exact eq_of_membership member managedMember membership rowMember
    (sameId.trans rowId.symm) sameGroup (ofManaged row matching)

/-- The row of a manager disappears only by an act of the owner. -/
theorem removed_by_owner
    {userRole : UserRole}
    {group : Group}
    (effect : AuthorizationEffect caller before after)
    (gives : before.GivesManagement userRole group)
    (removed : userRole ∉ after.userRoles.rows) :
    caller = group.ownerId := by
  cases effect with
  | nothing =>
      exact absurd gives.1 removed
  | createGroup name =>
      exact absurd gives.1 removed
  | deleteGroup member isOwner =>
      have same := owner_of_cascade member gives
        (fun _ matching => beq_iff_eq.mp matching) removed
      rw [same, isOwner]
  | addUser groupId userId =>
      exact absurd gives.1 removed
  | removeUser member isOwner other =>
      have same := owner_of_cascade member gives
        (fun _ matching => beq_iff_eq.mp (Bool.and_eq_true_iff.mp matching).1)
        removed
      rw [same, isOwner]
  | addRole roleId member isOwner membership sameGroup =>
      exact absurd (Table.mem_rows_insert.mpr (.inl gives.1)) removed
  | @removeRole managed userGroup role member allowed membership sameGroup
      roleMember =>
      obtain ⟨present, groupMember,
          ⟨ownMembership, ownMember, ownId, ownGroup⟩,
          ownRole, ownRoleMember, ownRoleId, isProtected⟩ := gives
      have deleted :
          userRole.userGroupId = userGroup.id ∧
            userRole.roleId = role.id := by
        by_contra kept
        refine removed (Table.mem_rows_deleteWhere.mpr ⟨present, ?_⟩)
        rw [Bool.and_eq_false_iff, beq_eq_false_iff_ne, beq_eq_false_iff_ne]
        exact not_and_or.mp kept
      have same : group = managed :=
        eq_of_membership groupMember member ownMember membership
          (ownId.trans deleted.1) ownGroup sameGroup
      have sameRole : ownRole = role :=
        Table.eq_of_key ownRoleMember roleMember
          (ownRoleId.trans deleted.2)
      rw [sameRole] at isProtected
      rcases allowed with isOwner | unprotected
      · rw [same, isOwner]
      · exact absurd isProtected unprotected

end AuthorizationEffect

namespace AuthorizationState

variable {requests : List AuthorizationRequest}

theorem ownersAreMembers_of_run
    {initial final : AuthorizationState}
    (run : Run AuthorizationHandled initial requests final)
    (initially : initial.OwnersAreMembers) :
    final.OwnersAreMembers :=
  run.invariant OwnersAreMembers
    (fun _ _ _ members ⟨_, settles⟩ =>
      (AuthorizationEffect.of_settles settles).ownersAreMembers members)
    initially

theorem follows_of_run
    {initial final : AuthorizationState}
    (run : Run AuthorizationHandled initial requests final) :
    initial.Follows final :=
  run.invariant (Follows initial)
    (fun _ _ _ follows ⟨_, settles⟩ =>
      (AuthorizationEffect.of_settles settles).follows follows)
    ⟨.refl _, .refl _⟩

end AuthorizationState

/--
Role management over any sequence of requests: the owner of every group is a
member of it; every row that gives a member one of the two managing roles was
inserted by a request of the owner of the group; and whatever the next request
is, it removes such a row only if the owner makes it.
-/
theorem roleManagement_byOwner
    (users : UserTable)
    (roles : Table Role)
    (permissions : Table Permission)
    (rolePermissions : List RolePermission)
    (requests : List AuthorizationRequest)
    (final : AuthorizationState)
    (run :
      Run AuthorizationHandled
        (.initial users roles permissions rolePermissions) requests final) :
    final.OwnersAreMembers ∧
      (∀ userRole group,
        final.GivesManagement userRole group →
        ∃ leading request trailing before after,
          requests = leading ++ request :: trailing ∧
            Run AuthorizationHandled
              (.initial users roles permissions rolePermissions)
              leading before ∧
            AuthorizationHandled before request after ∧
            Run AuthorizationHandled after trailing final ∧
            userRole ∉ before.userRoles.rows ∧
            userRole ∈ after.userRoles.rows ∧
            group ∈ before.groups.rows ∧
            request.caller = group.ownerId) ∧
      ∀ userRole group request after,
        final.GivesManagement userRole group →
        AuthorizationHandled final request after →
        userRole ∉ after.userRoles.rows →
        request.caller = group.ownerId := by
  refine ⟨?_, ?_, ?_⟩
  · exact AuthorizationState.ownersAreMembers_of_run run
      fun group member => by cases member
  · intro userRole group ⟨present, member, ⟨userGroup, membership, sameId,
      sameGroup⟩, _⟩
    obtain ⟨leading, request, trailing, before, after, shape, earlier,
        handled, later, absent, inserted⟩ :=
      run.exists_onset (fun state => userRole ∈ state.userRoles.rows)
        (fun initially => by cases initially) present
    obtain ⟨outcome, settles⟩ := handled
    obtain ⟨granting, grantingMember, granted, grantedMember, isOwner,
        grantedId, grantedGroup⟩ :=
      (AuthorizationEffect.of_settles settles).granted_by_owner absent inserted
    have follows : before.Follows final :=
      AuthorizationState.follows_of_run
        ((Run.single ⟨outcome, settles⟩).append later)
    have sameMembership : granted = userGroup :=
      follows.userGroups.eq_of_key grantedMember membership
        (grantedId.trans sameId.symm)
    have same : granting = group :=
      follows.groups.eq_of_key grantingMember member
        (by
          change granting.id = group.id
          rw [← grantedGroup, sameMembership, sameGroup])
    subst same
    exact ⟨leading, request, trailing, before, after, shape, earlier,
      ⟨outcome, settles⟩, later, absent, inserted, grantingMember,
      isOwner.symm⟩
  · intro userRole group request after gives ⟨outcome, settles⟩ removed
    exact (AuthorizationEffect.of_settles settles).removed_by_owner gives
      removed

/-- An owner makes a member a manager; then only the owner can undo it. -/
theorem roleManagement_byOwner_grant :
    ∃ users final,
      UserTable.insert (.single ⟨"ada", "Ada", "ada@host", "#"⟩)
          ⟨"bob", "Bob", "bob@host", "#"⟩ = .ok users ∧
        Run AuthorizationHandled
          (.initial users
            (Table.empty.insert (Role.mk · "group_manager") fun _ => rfl)
            .empty [])
          [⟨1, .createGroup "readers"⟩, ⟨1, .addUserToGroup 1 2⟩,
            ⟨1, .addUserRole 1 2 "group_manager"⟩]
          final ∧
        final.GivesManagement ⟨1, 2, 1⟩ ⟨1, "readers", 1⟩ ∧
        ∀ request after,
          AuthorizationHandled final request after →
          UserRole.mk 1 2 1 ∉ after.userRoles.rows →
          request.caller = 1 := by
  have gives :
      ∀ final : AuthorizationState,
        final.userRoles.rows = [⟨1, 2, 1⟩] →
        final.groups.rows = [⟨1, "readers", 1⟩] →
        final.userGroups.rows = [⟨1, 1, 1⟩, ⟨2, 1, 2⟩] →
        final.roles.rows = [⟨1, "group_manager"⟩] →
        final.GivesManagement ⟨1, 2, 1⟩ ⟨1, "readers", 1⟩ := by
    intro final userRoles groups userGroups roles
    simp [AuthorizationState.GivesManagement, userRoles, groups, userGroups,
      roles, ROLES]
  let users : UserTable :=
    (UserTable.insert (.single ⟨"ada", "Ada", "ada@host", "#"⟩)
      ⟨"bob", "Bob", "bob@host", "#"⟩).toOption.getD .empty
  have run :=
    Run.snoc (Run.snoc (Run.single
      (show AuthorizationHandled
          (.initial users
            (Table.empty.insert (Role.mk · "group_manager") fun _ => rfl)
            .empty [])
          ⟨1, .createGroup "readers"⟩ _
        from ⟨_, Settles.of_runAlone [(), (), ()] rfl⟩))
      (show AuthorizationHandled _ ⟨1, .addUserToGroup 1 2⟩ _
        from ⟨_, Settles.of_runAlone [(), (), (), ()] rfl⟩))
      (show AuthorizationHandled _ ⟨1, .addUserRole 1 2 "group_manager"⟩ _
        from ⟨_, Settles.of_runAlone [(), (), (), (), (), ()] rfl⟩)
  exact ⟨users, _, rfl, run, gives _ rfl rfl rfl rfl,
    fun request after =>
      (roleManagement_byOwner _ _ _ _ _ _ run).2.2 _ _ request after
        (gives _ rfl rfl rfl rfl)⟩

end Prescott
