import Prescott.MembershipRequests
import Prescott.PermissionDecisions
import Prescott.DelegatedManagement

namespace Prescott

/-!
# Rows of memberships and roles

No constraint keeps a membership or a role from being inserted twice, so one
row for each is a property of the interleavings: it holds as long as no two
requests for the same row stand between their check and their insert.
-/

namespace AuthorizationState

/-- A user has one membership in a group, and a membership has a role once. -/
structure RowsUnique (state : AuthorizationState) : Prop where
  userGroups :
    ∀ left ∈ state.userGroups.rows, ∀ right ∈ state.userGroups.rows,
      left.groupId = right.groupId → left.userId = right.userId → left = right
  userRoles :
    ∀ left ∈ state.userRoles.rows, ∀ right ∈ state.userRoles.rows,
      left.userGroupId = right.userGroupId → left.roleId = right.roleId → left = right

/-- The user has no membership in the group. -/
def NoMember (state : AuthorizationState) (groupId userId : Nat) : Prop :=
  ∀ row ∈ state.userGroups.rows, ¬(row.groupId = groupId ∧ row.userId = userId)

/-- A membership of the user in the group has a role of this name. -/
def HasRole (state : AuthorizationState) (groupId userId : Nat) (roleName : String) :
    Prop :=
  ∃ userGroup ∈ state.userGroups.rows,
    (userGroup.groupId = groupId ∧ userGroup.userId = userId) ∧
      ∃ userRole ∈ state.userRoles.rows,
        userRole.userGroupId = userGroup.id ∧
          ∃ role ∈ state.roles.rows,
            role.id = userRole.roleId ∧ role.name = roleName

/-- The user owns the group, which is there. -/
def Owns (state : AuthorizationState) (userId groupId : Nat) : Prop :=
  ∃ group ∈ state.groups.rows, group.id = groupId ∧ group.ownerId = userId

/-- Every membership is one of a group that is there. -/
def MembershipsRefer (state : AuthorizationState) : Prop :=
  ∀ userGroup ∈ state.userGroups.rows,
    ∃ group ∈ state.groups.rows, group.id = userGroup.groupId

/-- What a statement may do to the tables. -/
inductive StatementEffect (op : AuthorizationOp) (before : AuthorizationState) :
    AuthorizationState → Prop where
  | nothing : StatementEffect op before before
  | insertUserGroup
      (groupId userId : Nat)
      (isInsert : op = .insertUserGroup groupId userId)
      (groupExists : ∃ group ∈ before.groups.rows, group.id = groupId) :
      StatementEffect op before
        { before with
          userGroups :=
            before.userGroups.insert (fun id => { id, groupId, userId }) fun _ => rfl }
  | insertGroup
      (name : String)
      (ownerId : Nat)
      (isInsert : op = .insertGroup name ownerId) :
      StatementEffect op before
        { before with
          groups := before.groups.insert (fun id => { id, name, ownerId }) fun _ => rfl }
  | insertUserRole
      (userGroupId roleId : Nat)
      (isInsert : op = .insertUserRole userGroupId roleId)
      (membershipExists : ∃ row ∈ before.userGroups.rows, row.id = userGroupId) :
      StatementEffect op before
        { before with
          userRoles :=
            before.userRoles.insert
              (fun rowId => { rowId, userGroupId, roleId }) fun _ => rfl }
  | deleteUserGroups (condition : UserGroup → Bool) :
      StatementEffect op before (before.deleteUserGroups condition)
  | deleteGroup (id : Nat) :
      StatementEffect op before (before.deleteGroup id)
  | deleteUserRoles (condition : UserRole → Bool) :
      StatementEffect op before
        { before with userRoles := before.userRoles.deleteWhere condition }

variable {state before after : AuthorizationState}
variable {op : AuthorizationOp}
variable {groupId userId : Nat}
variable {roleName : String}

theorem statementEffect_execute
    (op : AuthorizationOp) :
    StatementEffect op state (op.execute state).2 := by
  cases op with
  | insertUserGroup groupId userId =>
      simp only [AuthorizationOp.execute, AuthorizationState.insertUserGroup]
      split
      · split
        · rename_i groupExists
          obtain ⟨group, member, sameId⟩ := Table.first_isSome.mp groupExists
          exact .insertUserGroup groupId userId rfl ⟨group, member, beq_iff_eq.mp sameId⟩
        · exact .nothing
      · exact .nothing
  | deleteUserGroup groupId userId => exact .deleteUserGroups _
  | insertGroup name ownerId =>
      simp only [AuthorizationOp.execute, AuthorizationState.insertGroup]
      split
      · exact .nothing
      · split
        · exact .insertGroup name ownerId rfl
        · exact .nothing
  | deleteGroupById id => exact .deleteGroup id
  | insertUserRole userGroupId roleId =>
      simp only [AuthorizationOp.execute, AuthorizationState.insertUserRole]
      split
      · split
        · rename_i membershipExists _
          obtain ⟨row, member, sameId⟩ := Table.first_isSome.mp membershipExists
          exact .insertUserRole userGroupId roleId rfl ⟨row, member, beq_iff_eq.mp sameId⟩
        · exact .nothing
      · exact .nothing
  | deleteUserRole userGroupId roleId => exact .deleteUserRoles _
  | _ => exact .nothing

theorem mem_rolesOf :
    roleName ∈ state.rolesOf groupId userId ↔
      state.HasRole groupId userId roleName := by
  simp only [rolesOf, List.mem_flatMap, List.mem_map, Table.mem_select, beq_iff_eq,
    Bool.and_eq_true]
  constructor
  · rintro ⟨userRole, userRoleMember, userGroup, ⟨membership, sameId, isMember⟩,
      role, ⟨roleMember, sameRole⟩, sameName⟩
    exact ⟨userGroup, membership, isMember, userRole, userRoleMember, sameId.symm,
      role, roleMember, sameRole, sameName⟩
  · rintro ⟨userGroup, membership, isMember, userRole, userRoleMember, sameId,
      role, roleMember, sameRole, sameName⟩
    exact ⟨userRole, userRoleMember, userGroup, ⟨membership, sameId.symm, isMember⟩,
      role, ⟨roleMember, sameRole⟩, sameName⟩

namespace StatementEffect

theorem follows
    (effect : StatementEffect op before after) :
    before.Follows after := by
  have sameGroups := Table.Follows.refl before.groups
  have sameUserGroups := Table.Follows.refl before.userGroups
  cases effect with
  | nothing | insertUserRole | deleteUserRoles => exact ⟨sameGroups, sameUserGroups⟩
  | insertUserGroup groupId userId =>
      exact ⟨sameGroups, sameUserGroups.insert (UserGroup.mk · groupId userId) fun _ => rfl⟩
  | insertGroup name ownerId =>
      exact ⟨sameGroups.insert (Group.mk · name ownerId) fun _ => rfl, sameUserGroups⟩
  | deleteUserGroups condition => exact ⟨sameGroups, sameUserGroups.deleteWhere _⟩
  | deleteGroup id => exact ⟨sameGroups.deleteWhere _, sameUserGroups.deleteWhere _⟩

theorem roles
    (effect : StatementEffect op before after) :
    after.roles = before.roles := by
  cases effect <;> rfl

/-- A new membership is the one that the statement has inserted. -/
theorem userGroup
    {row : UserGroup}
    (effect : StatementEffect op before after)
    (member : row ∈ after.userGroups.rows) :
    row ∈ before.userGroups.rows ∨
      op = .insertUserGroup row.groupId row.userId ∧
        row.id = before.userGroups.nextId := by
  cases effect with
  | nothing | insertUserRole | deleteUserRoles | insertGroup => exact .inl member
  | insertUserGroup groupId userId isInsert =>
      rcases Table.mem_rows_insert.mp member with old | rfl
      · exact .inl old
      · exact .inr ⟨isInsert, rfl⟩
  | deleteUserGroups | deleteGroup =>
      exact .inl (Table.mem_rows_deleteWhere.mp member).1

/-- A new row of a role is the one that the statement has inserted. -/
theorem userRole
    {row : UserRole}
    (effect : StatementEffect op before after)
    (member : row ∈ after.userRoles.rows) :
    row ∈ before.userRoles.rows ∨
      op = .insertUserRole row.userGroupId row.roleId ∧
        row.rowId = before.userRoles.nextId ∧
        after.userGroups = before.userGroups ∧
        ∃ userGroup ∈ before.userGroups.rows, userGroup.id = row.userGroupId := by
  cases effect with
  | nothing | insertGroup | insertUserGroup => exact .inl member
  | insertUserRole userGroupId roleId isInsert membershipExists =>
      rcases Table.mem_rows_insert.mp member with old | rfl
      · exact .inl old
      · exact .inr ⟨isInsert, rfl, rfl, membershipExists⟩
  | deleteUserGroups | deleteGroup | deleteUserRoles =>
      exact .inl (Table.mem_rows_deleteWhere.mp member).1

/-- A new group is the one that the statement has inserted. -/
theorem group
    {row : Group}
    (effect : StatementEffect op before after)
    (member : row ∈ after.groups.rows) :
    row ∈ before.groups.rows ∨ row.id = before.groups.nextId := by
  cases effect with
  | nothing | insertUserGroup | insertUserRole | deleteUserRoles | deleteUserGroups =>
      exact .inl member
  | insertGroup name ownerId =>
      rcases Table.mem_rows_insert.mp member with old | rfl
      · exact .inl old
      · exact .inr rfl
  | deleteGroup id => exact .inl (Table.mem_rows_deleteWhere.mp member).1

theorem membershipsRefer
    (effect : StatementEffect op before after)
    (refer : before.MembershipsRefer) :
    after.MembershipsRefer := by
  intro row member
  cases effect with
  | nothing | insertUserRole | deleteUserRoles => exact refer row member
  | insertUserGroup groupId userId isInsert groupExists =>
      rcases Table.mem_rows_insert.mp member with old | rfl
      · exact refer row old
      · exact groupExists
  | insertGroup name ownerId =>
      obtain ⟨group, present, sameId⟩ := refer row member
      exact ⟨group, Table.mem_rows_insert.mpr (.inl present), sameId⟩
  | deleteUserGroups condition =>
      exact refer row (Table.mem_rows_deleteWhere.mp member).1
  | deleteGroup id =>
      obtain ⟨old, kept⟩ := Table.mem_rows_deleteWhere.mp member
      obtain ⟨group, present, sameId⟩ := refer row old
      refine ⟨group, Table.mem_rows_deleteWhere.mpr ⟨present, ?_⟩, sameId⟩
      rw [sameId]
      exact kept

/-- A role that a user has now was had before, or the statement has added it. -/
theorem hasRole
    (effect : StatementEffect op before after)
    (refer : before.RolesRefer)
    (has : after.HasRole groupId userId roleName) :
    before.HasRole groupId userId roleName ∨
      ∃ userGroup ∈ before.userGroups.rows,
        (userGroup.groupId = groupId ∧ userGroup.userId = userId) ∧
          ∃ role ∈ before.roles.rows,
            role.name = roleName ∧ op = .insertUserRole userGroup.id role.id := by
  obtain ⟨userGroup, membership, isMember, userRole, present, sameId, role, roleMember,
    sameRole, sameName⟩ := has
  rw [effect.roles] at roleMember
  rcases effect.userRole present with old | ⟨isInsert, -, sameGroups, -⟩
  · rcases effect.userGroup membership with known | ⟨-, isNew⟩
    · exact .inl ⟨userGroup, known, isMember, userRole, old, sameId, role, roleMember,
        sameRole, sameName⟩
    · -- a role of a membership that is not there yet
      obtain ⟨earlier, earlierMember, earlierId⟩ := refer.membership userRole old
      have below : earlier.id < before.userGroups.nextId :=
        before.userGroups.keysBelow earlier earlierMember
      rw [earlierId, sameId, isNew] at below
      exact absurd below (Nat.lt_irrefl _)
  · rw [sameGroups] at membership
    refine .inr ⟨userGroup, membership, isMember, role, roleMember, sameName, ?_⟩
    rw [isInsert, sameId, sameRole]

theorem noMember
    (effect : StatementEffect op before after)
    (none : before.NoMember groupId userId)
    (other : op ≠ .insertUserGroup groupId userId) :
    after.NoMember groupId userId := by
  rintro row member ⟨rfl, rfl⟩
  rcases effect.userGroup member with old | ⟨isInsert, -⟩
  · exact none row old ⟨rfl, rfl⟩
  · exact other isInsert

end StatementEffect

end AuthorizationState

namespace MembershipPhase

/-- Whoever adds to the group is the one who owns it, as long as it is there. -/
def OwnedBy (state : AuthorizationState) (groupId caller : Nat) : Prop :=
  groupId < state.groups.nextId ∧
    ∀ group ∈ state.groups.rows, group.id = groupId → group.ownerId = caller

/-- A caller who owns the group adds a role that the user does not have. -/
def IsMissing
    (state : AuthorizationState)
    (caller groupId userId : Nat)
    (roleName : String) :
    Prop :=
  state.Owns caller groupId → ¬state.HasRole groupId userId roleName

/-- The role has this name. -/
def IsNamed (state : AuthorizationState) (roleId : Nat) (roleName : String) : Prop :=
  ∃ role ∈ state.roles.rows, role.id = roleId ∧ role.name = roleName

/-- The membership, as long as it is there, is the one of the user in the group. -/
def IsMembership (state : AuthorizationState) (id groupId userId : Nat) : Prop :=
  id < state.userGroups.nextId ∧
    ∀ row ∈ state.userGroups.rows,
      row.id = id → row.groupId = groupId ∧ row.userId = userId

/-- What a request in a phase relies on. -/
def Relies (state : AuthorizationState) (request : AuthorizationRequest) :
    MembershipPhase → Prop
  | hooked =>
      ∀ groupId userId,
        request.route = .addUserToGroup groupId userId → groupId < state.groups.nextId
  | checking groupId _ => groupId < state.groups.nextId
  | inserting groupId userId =>
      groupId < state.groups.nextId ∧ state.NoMember groupId userId
  | checked groupId userId roleName =>
      IsMissing state request.caller groupId userId roleName
  | allowed groupId userId roleName =>
      IsMissing state request.caller groupId userId roleName ∧
        OwnedBy state groupId request.caller
  | locating groupId userId roleName roleId =>
      IsMissing state request.caller groupId userId roleName ∧
        OwnedBy state groupId request.caller ∧ IsNamed state roleId roleName
  | granting groupId userId roleName userGroupId roleId =>
      IsMissing state request.caller groupId userId roleName ∧
        OwnedBy state groupId request.caller ∧ IsNamed state roleId roleName ∧
          IsMembership state userGroupId groupId userId
  | _ => True

/-- Two requests of which the second one must not insert after the first. -/
def Conflicts
    (request other : AuthorizationRequest)
    (phase otherPhase : MembershipPhase) :
    Prop :=
  (∃ groupId userId,
      phase = inserting groupId userId ∧ otherPhase = inserting groupId userId) ∨
    ∃ grant,
      phase.grants = some grant ∧ otherPhase.grants = some grant ∧
        request.caller = other.caller

variable {before after : AuthorizationState}
variable {op : AuthorizationOp}
variable {request other : AuthorizationRequest}
variable {phase otherPhase : MembershipPhase}

theorem inserting_of_permits
    {groupId userId : Nat}
    (permitted : phase.permits request (.insertUserGroup groupId userId)) :
    phase = inserting groupId userId := by
  cases phase with
  | inserting => cases permitted; rfl
  | starting | hooked =>
      simp only [permits] at permitted
      split at permitted <;> simp at permitted
  | working => exact permitted.elim
  | _ => cases permitted

theorem granting_of_permits
    {userGroupId roleId : Nat}
    (permitted : phase.permits request (.insertUserRole userGroupId roleId)) :
    ∃ groupId userId roleName,
      phase = granting groupId userId roleName userGroupId roleId := by
  cases phase with
  | granting => cases permitted; exact ⟨_, _, _, rfl⟩
  | starting | hooked =>
      simp only [permits] at permitted
      split at permitted <;> simp at permitted
  | working => exact permitted.elim
  | _ => cases permitted

theorem OwnedBy.kept
    {groupId caller : Nat}
    (owned : OwnedBy before groupId caller)
    (follows : before.Follows after) :
    OwnedBy after groupId caller := by
  refine ⟨Nat.lt_of_lt_of_le owned.1 follows.groups.nextId_le, ?_⟩
  rintro group member rfl
  exact owned.2 group (follows.groups.old group member owned.1) rfl

theorem IsMembership.kept
    {id groupId userId : Nat}
    (isMembership : IsMembership before id groupId userId)
    (follows : before.Follows after) :
    IsMembership after id groupId userId := by
  refine ⟨Nat.lt_of_lt_of_le isMembership.1 follows.userGroups.nextId_le, ?_⟩
  rintro row member rfl
  exact isMembership.2 row
    (follows.userGroups.old row member isMembership.1) rfl

/-- A statement that grants the role comes from a request that conflicts. -/
theorem IsMissing.kept
    {groupId userId : Nat}
    {roleName : String}
    (missing : IsMissing before request.caller groupId userId roleName)
    (effect : AuthorizationState.StatementEffect op before after)
    (rolesRefer : before.RolesRefer)
    (membershipsRefer : before.MembershipsRefer)
    (permitted : otherPhase.permits other op)
    (otherRelies : otherPhase.Relies before other)
    (apart : otherPhase.grants = some (groupId, userId, roleName) →
      request.caller ≠ other.caller) :
    IsMissing after request.caller groupId userId roleName := by
  rintro ⟨group, member, isGroup, isOwner⟩ has
  have ownedBefore : ∀ userGroup ∈ before.userGroups.rows,
      userGroup.groupId = groupId → group ∈ before.groups.rows := by
    rintro userGroup membership rfl
    obtain ⟨known, knownMember, sameId⟩ := membershipsRefer userGroup membership
    refine (effect.group member).resolve_right fun isNew => ?_
    have below : known.id < before.groups.nextId :=
      before.groups.keysBelow known knownMember
    rw [sameId, ← isGroup, isNew] at below
    exact Nat.lt_irrefl _ below
  rcases effect.hasRole rolesRefer has with
      hadRole | ⟨userGroup, membership, ⟨rfl, rfl⟩, role, roleMember, rfl, rfl⟩
  · obtain ⟨userGroup, membership, ⟨inGroup, ofUser⟩, roleRow⟩ := hadRole
    exact missing
      ⟨group, ownedBefore userGroup membership inGroup, isGroup, isOwner⟩
      ⟨userGroup, membership, ⟨inGroup, ofUser⟩, roleRow⟩
  · obtain ⟨otherGroup, otherUser, otherName, rfl⟩ := granting_of_permits permitted
    obtain ⟨_, ownedBy, ⟨named, namedMember, namedId, rfl⟩, isMembership⟩ := otherRelies
    obtain ⟨rfl, rfl⟩ := isMembership.2 userGroup membership rfl
    obtain rfl : named = role := Table.eq_of_key namedMember roleMember namedId
    have groupBefore := ownedBefore userGroup membership rfl
    exact apart rfl (isOwner.symm.trans (ownedBy.2 group groupBefore isGroup))

/-- What another request does leaves what this one relies on. -/
theorem Relies.kept
    (relies : phase.Relies before request)
    (effect : AuthorizationState.StatementEffect op before after)
    (rolesRefer : before.RolesRefer)
    (membershipsRefer : before.MembershipsRefer)
    (permitted : otherPhase.permits other op)
    (otherRelies : otherPhase.Relies before other)
    (apart : ¬Conflicts request other phase otherPhase) :
    phase.Relies after request := by
  have follows := effect.follows
  have known : ∀ groupId < before.groups.nextId, groupId < after.groups.nextId :=
    fun _ below => Nat.lt_of_lt_of_le below follows.groups.nextId_le
  have stillMissing : ∀ groupId userId roleName,
      phase.grants = some (groupId, userId, roleName) →
      IsMissing before request.caller groupId userId roleName →
      IsMissing after request.caller groupId userId roleName := by
    intro groupId userId roleName grants missing
    refine missing.kept effect rolesRefer membershipsRefer permitted otherRelies ?_
    intro otherGrants sameCaller
    exact apart (.inr ⟨_, grants, otherGrants, sameCaller⟩)
  cases phase with
  | hooked => exact fun groupId userId route => known groupId (relies groupId userId route)
  | checking groupId userId => exact known groupId relies
  | inserting groupId userId =>
      refine ⟨known groupId relies.1, effect.noMember relies.2 ?_⟩
      rintro rfl
      exact apart (.inl ⟨groupId, userId, rfl, inserting_of_permits permitted⟩)
  | checked groupId userId roleName => exact stillMissing _ _ _ rfl relies
  | allowed groupId userId roleName =>
      exact ⟨stillMissing _ _ _ rfl relies.1, relies.2.kept follows⟩
  | locating groupId userId roleName roleId =>
      obtain ⟨missing, owned, named⟩ := relies
      refine ⟨stillMissing _ _ _ rfl missing, owned.kept follows, ?_⟩
      rw [IsNamed, effect.roles]
      exact named
  | granting groupId userId roleName userGroupId roleId =>
      obtain ⟨missing, owned, named, isMembership⟩ := relies
      refine ⟨stillMissing _ _ _ rfl missing, owned.kept follows, ?_,
        isMembership.kept follows⟩
      rw [IsNamed, effect.roles]
      exact named
  | starting | reading | working => trivial

/-- The hook admits a request that knows its group. -/
theorem relies_admitted
    (known : ∀ groupId userId,
      request.route = .addUserToGroup groupId userId → groupId < after.groups.nextId) :
    (admitted request).Relies after request := by
  unfold admitted
  split
  · split
    · trivial
    · trivial
  · exact known

/-- A new group has no members yet. -/
theorem relies_insertGroup
    {name : String}
    {ownerId : Nat}
    (membershipsRefer : before.MembershipsRefer) :
    (advance request starting (.insertGroup name ownerId)
      (AuthorizationOp.execute (.insertGroup name ownerId) before).1).Relies
      (AuthorizationOp.execute (.insertGroup name ownerId) before).2 request := by
  simp only [AuthorizationOp.execute, AuthorizationState.insertGroup]
  split
  · trivial
  · split
    · refine ⟨Nat.lt_succ_self _, ?_⟩
      rintro row member ⟨isNew, -⟩
      obtain ⟨group, groupMember, sameId⟩ := membershipsRefer row member
      have below : group.id < before.groups.nextId :=
        before.groups.keysBelow group groupMember
      rw [sameId, isNew] at below
      exact Nat.lt_irrefl _ below
    · trivial

/-- The hook has found the group of the request. -/
theorem relies_findGroup
    {groupId : Nat}
    (ofRequest : ∀ id userId, request.route = .addUserToGroup id userId → id = groupId) :
    (advance request starting (.findGroupById groupId)
      (AuthorizationOp.execute (.findGroupById groupId) before).1).Relies
      before request := by
  simp only [AuthorizationOp.execute]
  cases found : before.groups.first fun group => group.id == groupId with
  | none => trivial
  | some group =>
      obtain ⟨member, sameId⟩ := Table.mem_of_first found
      have known : ∀ id userId,
          request.route = .addUserToGroup id userId → id < before.groups.nextId := by
        intro id userId route
        rw [ofRequest id userId route, ← beq_iff_eq.mp sameId]
        exact before.groups.keysBelow group member
      simp only [MembershipPhase.advance]
      split
      · exact relies_admitted known
      · exact known

/-- What a request relies on is what its statements have answered. -/
theorem Relies.advance
    (relies : phase.Relies before request)
    (membershipsRefer : before.MembershipsRefer)
    (permitted : phase.permits request op) :
    (phase.advance request op (op.execute before).1).Relies
      (op.execute before).2 request := by
  cases phase with
  | starting =>
      simp only [permits] at permitted
      split at permitted
      · rcases permitted with rfl | rfl
        · trivial
        · exact relies_insertGroup membershipsRefer
      · subst permitted
        exact relies_findGroup fun _ _ same => by simp_all
      · subst permitted
        exact relies_findGroup fun _ _ same => by simp_all
      · exact permitted.elim
  | hooked =>
      simp only [permits] at permitted
      split at permitted
      · rename_i groupId userId isRoute
        rcases permitted with rfl | rfl
        · exact relies_admitted relies
        · simp only [AuthorizationOp.execute]
          cases before.users.table.first fun user => user.id == userId with
          | none => trivial
          | some user =>
              simp only [MembershipPhase.advance, isRoute]
              exact relies groupId userId isRoute
      · subst permitted
        exact relies_admitted relies
      · exact permitted.elim
  | checking groupId userId =>
      cases permitted
      simp only [AuthorizationOp.execute]
      cases present : (before.userGroups.first fun row =>
          row.groupId == groupId && row.userId == userId).isSome with
      | true => trivial
      | false =>
          refine ⟨relies, ?_⟩
          rintro row member ⟨rfl, rfl⟩
          rw [Option.isSome_eq_false_iff, Option.isNone_iff_eq_none] at present
          simpa using Table.first_eq_none.mp present row member
  | inserting groupId userId =>
      cases permitted
      generalize AuthorizationOp.execute _ before = executed
      obtain ⟨_ | _, _⟩ := executed <;> trivial
  | reading groupId userId roleName =>
      cases permitted
      simp only [AuthorizationOp.execute, MembershipPhase.advance]
      split
      · trivial
      · rename_i absent
        intro _ has
        exact absent (List.contains_iff_mem.mpr (AuthorizationState.mem_rolesOf.mpr has))
  | checked groupId userId roleName =>
      cases permitted
      simp only [AuthorizationOp.execute]
      cases found : before.groups.first fun group => group.id == groupId with
      | none => trivial
      | some group =>
          simp only [MembershipPhase.advance]
          split
          · rename_i isOwner
            obtain ⟨member, sameId⟩ := Table.mem_of_first found
            obtain rfl := beq_iff_eq.mp sameId
            refine ⟨relies, before.groups.keysBelow group member, ?_⟩
            intro other otherMember same
            rw [Table.eq_of_key otherMember member same]
            exact isOwner
          · trivial
  | allowed groupId userId roleName =>
      cases permitted
      simp only [AuthorizationOp.execute]
      cases found : before.roles.first fun role => role.name == roleName with
      | none => trivial
      | some role =>
          obtain ⟨member, sameName⟩ := Table.mem_of_first found
          exact ⟨relies.1, relies.2, role, member, rfl, beq_iff_eq.mp sameName⟩
  | locating groupId userId roleName roleId =>
      cases permitted
      simp only [AuthorizationOp.execute]
      cases found : before.userGroups.first fun row =>
          row.groupId == groupId && row.userId == userId with
      | none => trivial
      | some userGroup =>
          obtain ⟨member, isMember⟩ := Table.mem_of_first found
          obtain ⟨missing, owned, named⟩ := relies
          refine ⟨missing, owned, named, before.userGroups.keysBelow userGroup member, ?_⟩
          intro row rowMember same
          rw [Table.eq_of_key rowMember member same]
          simpa using isMember
  | granting groupId userId roleName userGroupId roleId =>
      cases permitted
      generalize AuthorizationOp.execute _ before = executed
      obtain ⟨_ | _, _⟩ := executed <;> trivial
  | working =>
      rw [advance_working permitted]
      trivial

theorem admitted_cases :
    admitted request = hooked ∨ admitted request = working ∨
      ∃ groupId userId roleName, admitted request = reading groupId userId roleName := by
  unfold admitted
  split
  · split
    · exact .inr (.inl rfl)
    · exact .inr (.inr ⟨_, _, _, rfl⟩)
  · exact .inl rfl

/-- A role that is on its way was on its way, or its user's roles have been read. -/
theorem grants_advance
    {grant : Nat × Nat × String}
    {answer : Except AppError op.Result}
    (grants : (phase.advance request op answer).grants = some grant) :
    phase.grants = some grant ∨
      phase = reading grant.1 grant.2.1 grant.2.2 := by
  have admittedNothing : (admitted request).grants ≠ some grant := by
    rcases @admitted_cases request with isNext | isNext | ⟨_, _, _, isNext⟩ <;>
      rw [isNext] <;> simp [MembershipPhase.grants]
  revert grants
  fun_cases MembershipPhase.advance request phase op answer
  all_goals intro grants
  all_goals first
    | exact .inl grants
    | exact (admittedNothing grants).elim
    | cases grants; exact .inr rfl
    | cases grants

/-- A membership is inserted next if it has been missed, or its group is new. -/
theorem inserting_advance
    {groupId userId : Nat}
    (permitted : phase.permits request op)
    (inserts :
      phase.advance request op (op.execute before).1 = inserting groupId userId) :
    phase = checking groupId userId ∨ groupId = before.groups.nextId := by
  have admittedNothing : admitted request ≠ inserting groupId userId := by
    rcases @admitted_cases request with isNext | isNext | ⟨_, _, _, isNext⟩ <;>
      rw [isNext] <;> simp
  generalize executed : op.execute before = result at inserts
  obtain ⟨answer, after⟩ := result
  revert inserts
  fun_cases MembershipPhase.advance request phase op answer
  all_goals intro inserts
  all_goals first
    | exact (admittedNothing inserts).elim
    | cases inserts; exact .inl rfl
    | cases inserts
  case case1 => cases permitted
  case case7 =>
    simp only [AuthorizationOp.execute, AuthorizationState.insertGroup] at executed
    split at executed
    · cases executed
    · split at executed
      · cases executed
        exact .inr rfl
      · cases executed

theorem Conflicts.symm
    (conflicts : Conflicts request other phase otherPhase) :
    Conflicts other request otherPhase phase := by
  rcases conflicts with ⟨groupId, userId, mine, theirs⟩ | ⟨grant, mine, theirs, same⟩
  · exact .inl ⟨groupId, userId, theirs, mine⟩
  · exact .inr ⟨grant, theirs, mine, same.symm⟩

theorem relies_start :
    (start request).Relies before request := by
  unfold start
  split <;> trivial

/-- A request that begins has checked nothing. -/
theorem not_conflicts_start :
    ¬Conflicts request other (start request) otherPhase := by
  have begins : start request = starting ∨ start request = working := by
    unfold start
    split <;> simp
  rcases begins with begins | begins <;> rw [begins] <;>
    simp [Conflicts, grants]

end MembershipPhase

/-- What is seen of requests that run concurrently. -/
abbrev MembershipView :=
  MembershipPhase.protocol.View AuthorizationState

namespace MembershipView

/--
No request checks for a row while another one, which has missed the same row,
has still to insert it.  A role is inserted for the owner of the group only, so
for roles the two are requests of one caller.
-/
def ChecksAlone (view : MembershipView) : Turn AuthorizationRequest Unit → Prop
  | .invoke _ _ => True
  | .resume pid _ =>
      (∀ groupId userId,
        view.InPhase pid (.checking groupId userId) →
        ∀ other, other ≠ pid → ¬view.InPhase other (.inserting groupId userId)) ∧
      ∀ request groupId userId roleName,
        view.progress pid = some ⟨request, .reading groupId userId roleName⟩ →
        ∀ other otherRequest phase,
          other ≠ pid →
          view.progress other = some ⟨otherRequest, phase⟩ →
          phase.grants = some (groupId, userId, roleName) →
          otherRequest.caller ≠ request.caller

/-- Rows are unique, and every request relies on what is the case. -/
structure AddsOnce (view : MembershipView) : Prop where
  rolesRefer : view.shared.RolesRefer
  membershipsRefer : view.shared.MembershipsRefer
  unique : view.shared.RowsUnique
  relies :
    ∀ pid request phase,
      view.progress pid = some ⟨request, phase⟩ →
      MembershipPhase.Relies view.shared request phase
  alone :
    ∀ pid other request otherRequest phase otherPhase,
      pid ≠ other →
      view.progress pid = some ⟨request, phase⟩ →
      view.progress other = some ⟨otherRequest, otherPhase⟩ →
      ¬MembershipPhase.Conflicts request otherRequest phase otherPhase

variable {view : MembershipView}
variable {pid : Nat}
variable {request : AuthorizationRequest}
variable {phase : MembershipPhase}
variable {op : AuthorizationOp}

/-- The statement of a request that has missed its row does not repeat one. -/
theorem AddsOnce.rowsUnique
    (addsOnce : view.AddsOnce)
    (present : view.progress pid = some ⟨request, phase⟩)
    (permitted : phase.permits request op) :
    (op.execute view.shared).2.RowsUnique := by
  have effect : AuthorizationState.StatementEffect op view.shared _ :=
    AuthorizationState.statementEffect_execute op
  have relies := addsOnce.relies pid request phase present
  have newMembership : ∀ old ∈ view.shared.userGroups.rows,
      op ≠ .insertUserGroup old.groupId old.userId := by
    rintro old member rfl
    obtain rfl := MembershipPhase.inserting_of_permits permitted
    exact relies.2 old member ⟨rfl, rfl⟩
  have newRole : ∀ old ∈ view.shared.userRoles.rows,
      (∃ userGroup ∈ view.shared.userGroups.rows, userGroup.id = old.userGroupId) →
      op ≠ .insertUserRole old.userGroupId old.roleId := by
    rintro old member ⟨userGroup, membership, sameId⟩ rfl
    obtain ⟨groupId, userId, roleName, rfl⟩ :=
      MembershipPhase.granting_of_permits permitted
    obtain ⟨missing, ownedBy, named, isMembership⟩ := relies
    have isMember := isMembership.2 userGroup membership sameId
    obtain ⟨group, groupMember, isGroup⟩ :=
      addsOnce.membershipsRefer userGroup membership
    rw [isMember.1] at isGroup
    exact missing ⟨group, groupMember, isGroup, ownedBy.2 group groupMember isGroup⟩
      ⟨userGroup, membership, isMember, old, member, sameId.symm, named⟩
  constructor
  · intro left leftMember right rightMember sameGroup sameUser
    rcases effect.userGroup leftMember with leftOld | ⟨leftInsert, leftNew⟩
    · rcases effect.userGroup rightMember with rightOld | ⟨rightInsert, _⟩
      · exact addsOnce.unique.userGroups left leftOld right rightOld sameGroup sameUser
      · rw [← sameGroup, ← sameUser] at rightInsert
        exact absurd rightInsert (newMembership left leftOld)
    · rcases effect.userGroup rightMember with rightOld | ⟨_, rightNew⟩
      · rw [sameGroup, sameUser] at leftInsert
        exact absurd leftInsert (newMembership right rightOld)
      · exact Table.eq_of_key leftMember rightMember (leftNew.trans rightNew.symm)
  · intro left leftMember right rightMember sameMembership sameRole
    rcases effect.userRole leftMember with leftOld | ⟨leftInsert, leftNew, _, refers⟩
    · rcases effect.userRole rightMember with rightOld | ⟨rightInsert, _, _, refers⟩
      · exact addsOnce.unique.userRoles left leftOld right rightOld sameMembership
          sameRole
      · rw [← sameMembership, ← sameRole] at rightInsert
        rw [← sameMembership] at refers
        exact absurd rightInsert (newRole left leftOld refers)
    · rcases effect.userRole rightMember with rightOld | ⟨_, rightNew, _⟩
      · rw [sameMembership, sameRole] at leftInsert
        rw [sameMembership] at refers
        exact absurd leftInsert (newRole right rightOld refers)
      · exact Table.eq_of_key leftMember rightMember (leftNew.trans rightNew.symm)

/-- A request that has taken a step is still apart from the other ones. -/
theorem AddsOnce.apart
    {other : Nat}
    {otherRequest : AuthorizationRequest}
    {otherPhase : MembershipPhase}
    {input : Unit}
    (addsOnce : view.AddsOnce)
    (present : view.progress pid = some ⟨request, phase⟩)
    (permitted : phase.permits request op)
    (alone : view.ChecksAlone (.resume pid input))
    (different : pid ≠ other)
    (otherPresent : view.progress other = some ⟨otherRequest, otherPhase⟩) :
    ¬MembershipPhase.Conflicts request otherRequest
      (phase.advance request op (op.execute view.shared).1) otherPhase := by
  rintro (⟨groupId, userId, inserts, rfl⟩ | ⟨grant, grants, otherGrants, sameCaller⟩)
  · rcases MembershipPhase.inserting_advance permitted inserts with rfl | isNew
    · exact alone.1 groupId userId ⟨request, present⟩ other different.symm
        ⟨otherRequest, otherPresent⟩
    · have otherRelies := addsOnce.relies other _ _ otherPresent
      rw [isNew] at otherRelies
      exact Nat.lt_irrefl _ otherRelies.1
  · rcases MembershipPhase.grants_advance grants with granted | rfl
    · exact addsOnce.alone pid other _ _ _ _ different present otherPresent
        (.inr ⟨grant, granted, otherGrants, sameCaller⟩)
    · exact alone.2 _ _ _ _ present other _ _ different.symm otherPresent otherGrants
        sameCaller.symm

/-- A turn in which no two requests add the same row keeps the rows unique. -/
theorem AddsOnce.step
    {before after : MembershipView}
    {turn : Turn AuthorizationRequest Unit}
    (addsOnce : before.AddsOnce)
    (alone : before.ChecksAlone turn)
    (moves :
      Protocol.Moves authorizationServices MembershipPhase.protocol before turn after) :
    after.AddsOnce := by
  cases moves with
  | @invoke pid request shared fresh begun =>
      obtain rfl := Option.some.inj begun
      refine ⟨addsOnce.rolesRefer, addsOnce.membershipsRefer, addsOnce.unique, ?_, ?_⟩
      · intro other otherRequest phase found
        rcases Protocol.View.place_cases found with ⟨_, shape⟩ | ⟨_, earlier⟩
        · cases shape
          exact MembershipPhase.relies_start
        · exact addsOnce.relies other otherRequest phase earlier
      · intro left right leftRequest rightRequest leftPhase rightPhase different
          leftFound rightFound conflicts
        rcases Protocol.View.place_cases leftFound with ⟨_, shape⟩ | ⟨_, leftEarlier⟩
        · cases shape
          exact MembershipPhase.not_conflicts_start conflicts
        · rcases Protocol.View.place_cases rightFound with
              ⟨_, shape⟩ | ⟨_, rightEarlier⟩
          · cases shape
            exact MembershipPhase.not_conflicts_start conflicts.symm
          · exact addsOnce.alone left right _ _ _ _ different leftEarlier rightEarlier
              conflicts
  | @resume pid request phase op input answer shared present permitted answered =>
      obtain ⟨rfl, rfl⟩ := Prod.mk.inj (Option.some.inj answered)
      have effect : AuthorizationState.StatementEffect op before.shared _ :=
        AuthorizationState.statementEffect_execute op
      have relies := addsOnce.relies pid request phase present
      refine ⟨addsOnce.rolesRefer.execute op,
        effect.membershipsRefer addsOnce.membershipsRefer,
        addsOnce.rowsUnique present permitted, ?_, ?_⟩
      · intro other otherRequest otherPhase found
        rcases Protocol.View.place_cases found with ⟨_, shape⟩ | ⟨different, earlier⟩
        · cases shape
          exact relies.advance addsOnce.membershipsRefer permitted
        · exact (addsOnce.relies other otherRequest otherPhase earlier).kept effect
            addsOnce.rolesRefer addsOnce.membershipsRefer permitted relies
            (addsOnce.alone other pid _ _ _ _ different earlier present)
      · intro left right leftRequest rightRequest leftPhase rightPhase different
          leftFound rightFound conflicts
        rcases Protocol.View.place_cases leftFound with
            ⟨rfl, leftShape⟩ | ⟨_, leftEarlier⟩
        · rcases Protocol.View.place_cases rightFound with
              ⟨same, _⟩ | ⟨_, rightEarlier⟩
          · exact different same.symm
          · cases leftShape
            exact addsOnce.apart present permitted alone different rightEarlier conflicts
        · rcases Protocol.View.place_cases rightFound with
              ⟨rfl, rightShape⟩ | ⟨_, rightEarlier⟩
          · cases rightShape
            exact addsOnce.apart present permitted alone different.symm leftEarlier
              conflicts.symm
          · exact addsOnce.alone left right _ _ _ _ different leftEarlier rightEarlier
              conflicts

/-- No request has begun. -/
theorem AddsOnce.initially
    {start : AuthorizationState}
    (rolesRefer : start.RolesRefer)
    (membershipsRefer : start.MembershipsRefer)
    (unique : start.RowsUnique) :
    MembershipView.AddsOnce (.initial MembershipPhase.protocol start) := by
  refine ⟨rolesRefer, membershipsRefer, unique, ?_, ?_⟩
  · intro pid request phase present
    cases present
  · intro pid other request otherRequest phase otherPhase _ present
    cases present

end MembershipView

/-- Of a membership that is there only one row is found. -/
theorem AuthorizationState.RowsUnique.found
    {state : AuthorizationState}
    {row : UserGroup}
    (unique : state.RowsUnique)
    (member : row ∈ state.userGroups.rows) :
    (state.userGroups.first fun other =>
      other.groupId == row.groupId && other.userId == row.userId) = some row := by
  cases found : state.userGroups.first fun other =>
      other.groupId == row.groupId && other.userId == row.userId with
  | none =>
      have differs := Table.first_eq_none.mp found row member
      simp at differs
  | some other =>
      obtain ⟨otherMember, isSame⟩ := Table.mem_of_first found
      rw [Bool.and_eq_true, beq_iff_eq, beq_iff_eq] at isSame
      rw [unique.userGroups other otherMember row member isSame.1 isSame.2]

/--
For every interleaving of the statements of requests to the authorization
routes in which no two requests stand between their check and their insert of
the same row: a user has one membership row in a group, a membership has one
row for each of its roles, and the row that `RoleService` acts on is the one
of the user in the group.
-/
theorem memberships_unique
    (start : AuthorizationState)
    (rolesRefer : start.RolesRefer)
    (membershipsRefer : start.MembershipsRefer)
    (unique : start.RowsUnique)
    (turns : List (Turn AuthorizationRequest Unit))
    (final : Interleaving AuthorizationState MembershipPhase.protocol)
    (run :
      Run (Interleaving.Step authorizationServices MembershipView.ChecksAlone)
        (.initial MembershipPhase.protocol start) turns final) :
    final.shared.RowsUnique ∧
      ∀ row ∈ final.shared.userGroups.rows,
        (final.shared.userGroups.first fun other =>
          other.groupId == row.groupId && other.userId == row.userId) = some row := by
  obtain ⟨moves, _⟩ :=
    Interleaving.moves_of_run MembershipPhase.conforms_authorizationRoutes run
  have addsOnce :=
    moves.invariant MembershipView.AddsOnce
      (fun _ _ _ addsOnce ⟨alone, moved⟩ => addsOnce.step alone moved)
      (.initially rolesRefer membershipsRefer unique)
  exact ⟨addsOnce.unique, fun _ member => addsOnce.unique.found member⟩

/-- The condition, for requests with identifiers below a bound. -/
def checksAlone (bound : Nat) (view : MembershipView) : Turn AuthorizationRequest Unit → Bool
  | .invoke _ _ => true
  | .resume pid _ =>
      match view.progress pid with
      | some ⟨request, phase⟩ =>
          (List.range bound).all fun other =>
            other == pid ||
              match view.progress other, phase with
              | some ⟨_, otherPhase⟩, .checking groupId userId =>
                  otherPhase != .inserting groupId userId
              | some ⟨otherRequest, otherPhase⟩, .reading groupId userId roleName =>
                  otherPhase.grants != some (groupId, userId, roleName) ||
                    otherRequest.caller != request.caller
              | _, _ => true
      | none => true

theorem checksAlone_ensures
    {bound : Nat}
    {config : Interleaving AuthorizationState MembershipPhase.protocol}
    (below : config.Below bound)
    (turn : Turn AuthorizationRequest Unit)
    (passed : checksAlone bound config.view turn = true) :
    MembershipView.ChecksAlone config.view turn := by
  cases turn with
  | invoke pid request => trivial
  | resume pid input =>
      simp only [checksAlone] at passed
      constructor
      · rintro groupId userId ⟨request, present⟩ other different ⟨otherRequest, found⟩
        rw [present] at passed
        have compared := List.all_eq_true.mp passed other (below.mem_range found)
        simp [different, found] at compared
      · intro request groupId userId roleName present other otherRequest phase different
          found grants
        rw [present] at passed
        have compared := List.all_eq_true.mp passed other (below.mem_range found)
        simpa [different, found, grants] using compared

/-- The first user makes a group and adds the second and the third one at once. -/
def addingTurns : List (Turn AuthorizationRequest Unit) :=
  [.invoke 0 ⟨1, .createGroup "readers"⟩] ++ List.replicate 3 (.resume 0 ()) ++
    [.invoke 1 ⟨1, .addUserToGroup 1 2⟩, .invoke 2 ⟨1, .addUserToGroup 1 3⟩] ++
    List.replicate 3 (.resume 1 ()) ++ List.replicate 4 (.resume 2 ()) ++
    [.resume 1 (), .invoke 3 ⟨1, .addUserRole 1 2 "reader"⟩] ++
    List.replicate 6 (.resume 3 ())

theorem memberships_unique_adding :
    ∃ final,
      Run (Interleaving.Step authorizationServices MembershipView.ChecksAlone)
          (.initial MembershipPhase.protocol threeUsers) addingTurns final ∧
        final.shared.userGroups.rows = [⟨1, 1, 1⟩, ⟨2, 1, 3⟩, ⟨3, 1, 2⟩] ∧
        final.shared.RowsUnique := by
  have run
      (final : Interleaving AuthorizationState MembershipPhase.protocol)
      (executed :
        (Interleaving.initial MembershipPhase.protocol threeUsers).executeIf
            authorizationServices (checksAlone 4) addingTurns = some final) :=
    Interleaving.run_of_executeIf_below
      (fun _ below turn passed => checksAlone_ensures below turn passed)
      (fun _ _ => rfl) (by decide) executed
  refine ⟨_, run _ rfl, rfl, ?_⟩
  exact (memberships_unique threeUsers ⟨by decide, by decide⟩
    (fun _ member => by cases member) ⟨by decide, by decide⟩ _ _ (run _ rfl)).1

/-- The same user is added twice at once. -/
def addingTwiceTurns : List (Turn AuthorizationRequest Unit) :=
  [.invoke 0 ⟨1, .createGroup "readers"⟩] ++ List.replicate 3 (.resume 0 ()) ++
    [.invoke 1 ⟨1, .addUserToGroup 1 2⟩, .invoke 2 ⟨1, .addUserToGroup 1 2⟩] ++
    List.replicate 3 (.resume 1 ()) ++ List.replicate 3 (.resume 2 ()) ++
    [.resume 1 (), .resume 2 ()]

theorem memberships_repeated :
    ∃ final,
      Run (Interleaving.Step authorizationServices fun _ _ => True)
          (.initial MembershipPhase.protocol threeUsers) addingTwiceTurns final ∧
        final.shared.userGroups.rows = [⟨1, 1, 1⟩, ⟨2, 1, 2⟩, ⟨3, 1, 2⟩] ∧
        ¬final.shared.RowsUnique := by
  have run
      (final : Interleaving AuthorizationState MembershipPhase.protocol)
      (executed :
        addingTwiceTurns.foldlM (Interleaving.step? authorizationServices)
            (.initial MembershipPhase.protocol threeUsers) = some final) :=
    Interleaving.run_of_foldlM executed
  refine ⟨_, run _ rfl, rfl, ?_⟩
  intro unique
  cases unique.userGroups ⟨2, 1, 2⟩ (by decide) ⟨3, 1, 2⟩ (by decide) rfl rfl

end Prescott
