import Prescott.RoleManagement

namespace Prescott

/-!
# Permission decisions

The permission hook of a group lets a user through exactly when the tables say
so: by ownership, or by a role of the current membership.  A membership takes
its roles with it, and no later membership gets them back.
-/

namespace AuthorizationState

/-- The hook of the permission lets the user through on the group. -/
def LetsThrough
    (state : AuthorizationState)
    (permission : String)
    (groupId userId : Nat) :
    Prop :=
  ∃ after,
    Settles authorizationHost
      (AuthHooks.permissionHook permission groupId userId)
      state (.ok ()) after

/-- The table `role_permissions` maps the role to the permission. -/
def Maps
    (state : AuthorizationState)
    (role : Role)
    (permission : String) :
    Prop :=
  ∃ mapping ∈ state.rolePermissions,
    mapping.roleId = role.id ∧
      ∃ mapped ∈ state.permissions.rows,
        mapped.id = mapping.permissionId ∧ mapped.name = permission

/-- The user is a member of the group and holds in it a role with the permission. -/
def HoldsPermission
    (state : AuthorizationState)
    (permission : String)
    (groupId userId : Nat) :
    Prop :=
  ∃ userGroup ∈ state.userGroups.rows,
    userGroup.groupId = groupId ∧
      userGroup.userId = userId ∧
      ∃ role ∈ state.roles.rows,
        state.Maps role permission ∧
          ∃ userRole ∈ state.userRoles.rows,
            userRole.userGroupId = userGroup.id ∧
              userRole.roleId = role.id

/-- The group exists, and the user owns it or holds the permission in it. -/
def Permits
    (state : AuthorizationState)
    (permission : String)
    (groupId userId : Nat) :
    Prop :=
  ∃ group ∈ state.groups.rows,
    group.id = groupId ∧
      (group.ownerId = userId ∨
        state.HoldsPermission permission groupId userId)

/-- The foreign keys of `user_roles` name existing rows. -/
structure RolesRefer (state : AuthorizationState) : Prop where
  membership :
    ∀ userRole ∈ state.userRoles.rows,
      ∃ userGroup ∈ state.userGroups.rows,
        userGroup.id = userRole.userGroupId
  role :
    ∀ userRole ∈ state.userRoles.rows,
      ∃ role ∈ state.roles.rows, role.id = userRole.roleId

/-- The user does not own the group and holds no role in it. -/
structure Stripped
    (state : AuthorizationState)
    (groupId userId : Nat) :
    Prop where
  refer : state.RolesRefer
  /-- The identifier is taken, so no new group gets it. -/
  given : groupId < state.groups.nextId
  notOwner :
    ∀ group ∈ state.groups.rows,
      group.id = groupId → group.ownerId ≠ userId
  noRole :
    ∀ userGroup ∈ state.userGroups.rows,
      userGroup.groupId = groupId →
      userGroup.userId = userId →
      ∀ userRole ∈ state.userRoles.rows,
        userRole.userGroupId ≠ userGroup.id

end AuthorizationState

/-- Any statement but the insert into `user_roles`. -/
def AuthorizationOp.GrantsNothing : AuthorizationOp → Prop
  | .insertUserRole _ _ => False
  | _ => True

/-- A statement leaves the state it is executed to. -/
theorem AuthorizationOp.answered
    {op : AuthorizationOp}
    {input : Unit}
    {before after : AuthorizationState}
    {answer : Except AppError op.Result}
    (answered :
      authorizationHost op input before = some (answer, after)) :
    after = (op.execute before).2 :=
  (congrArg Prod.snd (Option.some.inj answered)).symm

/-- A request with what it was answered. -/
structure AuthorizationExchange where
  request : AuthorizationRequest
  outcome : Except AppError AuthorizationReply

/-- A request is handled and answered. -/
def AuthorizationExchanged
    (before : AuthorizationState)
    (exchange : AuthorizationExchange)
    (after : AuthorizationState) :
    Prop :=
  Settles authorizationHost (authorizationRoutes exchange.request)
    before exchange.outcome after

/-- The exchange has granted the user a role in the group. -/
def AuthorizationExchange.Grants
    (exchange : AuthorizationExchange)
    (groupId userId : Nat) :
    Prop :=
  exchange.outcome = .ok .done ∧
    ∃ role, exchange.request.route = .addUserRole groupId userId role

namespace AuthorizationState

variable {state : AuthorizationState}
variable {permission : String}
variable {groupId userId : Nat}

/-- The four-table join finds the permissions of the roles of the membership. -/
theorem mem_permissionsOf
    (refer : state.RolesRefer) :
    permission ∈ state.permissionsOf groupId userId ↔
      state.HoldsPermission permission groupId userId := by
  simp only [permissionsOf, List.mem_flatMap, List.mem_map, Table.mem_select,
    beq_iff_eq, Bool.and_eq_true]
  constructor
  · rintro ⟨mapping, mappingMember, mapped, ⟨mappedMember, mappedId⟩,
      userRole, ⟨userRoleMember, sameRole⟩,
      userGroup, ⟨membership, sameId, sameGroup, sameUser⟩, sameName⟩
    obtain ⟨role, roleMember, roleId⟩ := refer.role userRole userRoleMember
    exact ⟨userGroup, membership, sameGroup, sameUser, role, roleMember,
      ⟨mapping, mappingMember, sameRole.symm.trans roleId.symm,
        mapped, mappedMember, mappedId, sameName⟩,
      userRole, userRoleMember, sameId.symm, roleId.symm⟩
  · rintro ⟨userGroup, membership, sameGroup, sameUser, role, _,
      ⟨mapping, mappingMember, mappingRole,
        mapped, mappedMember, mappedId, sameName⟩,
      userRole, userRoleMember, sameId, sameRole⟩
    exact ⟨mapping, mappingMember, mapped, ⟨mappedMember, mappedId⟩,
      userRole, ⟨userRoleMember, sameRole.trans mappingRole.symm⟩,
      userGroup, ⟨membership, sameId.symm, sameGroup, sameUser⟩, sameName⟩

/-- The hook lets the owner and the holders of the permission through. -/
theorem letsThrough_iff
    (refer : state.RolesRefer) :
    state.LetsThrough permission groupId userId ↔
      state.Permits permission groupId userId := by
  constructor
  · rintro ⟨after, settles⟩
    obtain ⟨isOwner, middle, tested, rest⟩ := Settles.resolved_bind settles
    obtain ⟨rfl, owner⟩ := AuthHooks.isGroupOwnerThrowable_settles tested
    obtain ⟨group, member, sameId, isOwnerIff⟩ := owner isOwner rfl
    refine ⟨group, member, sameId, ?_⟩
    split at rest
    · exact .inl (isOwnerIff.mp rfl)
    · have decided := AuthorizationOp.perform_bind_settles.mp rest
      simp only [AuthorizationOp.execute] at decided
      split at decided
      · rename_i holds
        exact .inr ((mem_permissionsOf refer).mp
          (List.contains_iff_mem.mp holds))
      · obtain ⟨rejected, _⟩ := Settles.throw_iff.mp decided
        cases rejected
  · rintro ⟨group, member, sameId, allowed⟩
    have found :
        state.groups.first (fun group => group.id == groupId) =
          some group :=
      Table.first_of_key member sameId
    refine ⟨state, ?_⟩
    simp only [AuthHooks.permissionHook, AuthHooks.isGroupOwnerThrowable,
      bind_assoc]
    refine AuthorizationOp.perform_bind_settles.mpr ?_
    simp only [AuthorizationOp.execute, found, pure_bind]
    by_cases isOwner : group.ownerId = userId
    · simp only [isOwner, beq_self_eq_true]
      exact Settles.pure_iff.mpr ⟨rfl, rfl⟩
    · rw [beq_eq_false_iff_ne.mpr isOwner]
      refine AuthorizationOp.perform_bind_settles.mpr ?_
      have holds :
          (state.permissionsOf groupId userId).contains permission = true :=
        List.contains_iff_mem.mpr ((mem_permissionsOf refer).mpr
          (allowed.resolve_left isOwner))
      simp only [AuthorizationOp.execute, holds, if_true]
      exact Settles.pure_iff.mpr ⟨rfl, rfl⟩

/-- Memberships take their roles with them. -/
theorem RolesRefer.deleteUserGroups
    (refer : state.RolesRefer)
    (condition : UserGroup → Bool) :
    (state.deleteUserGroups condition).RolesRefer where
  membership userRole member := by
    obtain ⟨present, kept⟩ := Table.mem_rows_deleteWhere.mp member
    obtain ⟨userGroup, membership, sameId⟩ :=
      refer.membership userRole present
    refine ⟨userGroup, Table.mem_rows_deleteWhere.mpr ⟨membership, ?_⟩,
      sameId⟩
    have spared := List.any_eq_false.mp kept userGroup membership
    simpa [sameId] using spared
  role userRole member :=
    refer.role userRole (Table.mem_rows_deleteWhere.mp member).1

/-- Every statement respects the foreign keys of `user_roles`. -/
theorem RolesRefer.execute
    (refer : state.RolesRefer)
    (op : AuthorizationOp) :
    (op.execute state).2.RolesRefer := by
  cases op with
  | insertUserGroup groupId userId =>
      simp only [AuthorizationOp.execute, insertUserGroup]
      split
      · split
        · refine ⟨fun userRole member => ?_, refer.role⟩
          obtain ⟨userGroup, membership, sameId⟩ :=
            refer.membership userRole member
          exact ⟨userGroup, Table.mem_rows_insert.mpr (.inl membership),
            sameId⟩
        · exact refer
      · exact refer
  | deleteUserGroup groupId userId =>
      exact refer.deleteUserGroups _
  | insertGroup name ownerId =>
      simp only [AuthorizationOp.execute, insertGroup]
      split
      · exact refer
      · split
        · exact ⟨refer.membership, refer.role⟩
        · exact refer
  | deleteGroupById id =>
      have kept :
          AuthorizationState.RolesRefer
            { state with
              groups := state.groups.deleteWhere fun group => group.id == id } :=
        ⟨refer.membership, refer.role⟩
      exact kept.deleteUserGroups _
  | insertUserRole userGroupId roleId =>
      simp only [AuthorizationOp.execute, insertUserRole]
      split
      · split
        · rename_i membershipExists roleExists
          obtain ⟨userGroup, membership, sameId⟩ :=
            Table.first_isSome.mp membershipExists
          obtain ⟨role, roleMember, sameRole⟩ :=
            Table.first_isSome.mp roleExists
          constructor
          · intro userRole member
            rcases Table.mem_rows_insert.mp member with old | rfl
            · exact refer.membership userRole old
            · exact ⟨userGroup, membership, beq_iff_eq.mp sameId⟩
          · intro userRole member
            rcases Table.mem_rows_insert.mp member with old | rfl
            · exact refer.role userRole old
            · exact ⟨role, roleMember, beq_iff_eq.mp sameRole⟩
        · exact refer
      · exact refer
  | deleteUserRole userGroupId roleId =>
      exact ⟨fun userRole member =>
          refer.membership userRole (Table.mem_rows_deleteWhere.mp member).1,
        fun userRole member =>
          refer.role userRole (Table.mem_rows_deleteWhere.mp member).1⟩
  | _ => exact refer

theorem rolesRefer_of_run
    {initial final : AuthorizationState}
    {requests : List AuthorizationRequest}
    (run : Run AuthorizationHandled initial requests final)
    (initially : initial.RolesRefer) :
    final.RolesRefer := by
  refine run.invariant RolesRefer (fun before request after refer handled => ?_)
    initially
  obtain ⟨outcome, settles⟩ := handled
  have anything :
      (authorizationRoutes request).AwaitsOnly fun _ => True :=
    .of_forall _ fun _ => trivial
  refine anything.preserves RolesRefer ?_ settles refer
  intro op input state answer next _ refer answered
  rw [AuthorizationOp.answered answered]
  exact refer.execute op

namespace Stripped

/-- Deleting memberships gives nobody a role. -/
theorem deleteUserGroups
    (stripped : state.Stripped groupId userId)
    (condition : UserGroup → Bool) :
    (state.deleteUserGroups condition).Stripped groupId userId where
  refer := stripped.refer.deleteUserGroups condition
  given := stripped.given
  notOwner := stripped.notOwner
  noRole userGroup membership sameGroup sameUser userRole member :=
    stripped.noRole userGroup (Table.mem_rows_deleteWhere.mp membership).1
      sameGroup sameUser userRole (Table.mem_rows_deleteWhere.mp member).1

/-- A role for somebody else or in another group is no role in this one. -/
theorem insertUserRole
    {userGroup : UserGroup}
    (stripped : state.Stripped groupId userId)
    (member : userGroup ∈ state.userGroups.rows)
    (other : ¬ (userGroup.groupId = groupId ∧ userGroup.userId = userId))
    (roleId : Nat)
    (refer :
      ({ state with
        userRoles :=
          state.userRoles.insert
            (fun rowId => { rowId, userGroupId := userGroup.id, roleId })
            (fun _ => rfl) } : AuthorizationState).RolesRefer) :
    ({ state with
      userRoles :=
        state.userRoles.insert
          (fun rowId => { rowId, userGroupId := userGroup.id, roleId })
          (fun _ => rfl) } : AuthorizationState).Stripped groupId userId where
  refer := refer
  given := stripped.given
  notOwner := stripped.notOwner
  noRole own ownMember sameGroup sameUser userRole present := by
    rcases Table.mem_rows_insert.mp present with old | rfl
    · exact stripped.noRole own ownMember sameGroup sameUser userRole old
    · intro sameId
      have same : userGroup = own := Table.eq_of_key member ownMember sameId
      exact other ⟨same ▸ sameGroup, same ▸ sameUser⟩

/-- No statement but the grant of a role gives a member a role. -/
theorem execute
    {op : AuthorizationOp}
    (stripped : state.Stripped groupId userId)
    (grantsNothing : op.GrantsNothing) :
    (op.execute state).2.Stripped groupId userId := by
  have refer := stripped.refer.execute op
  cases op with
  | insertUserGroup otherGroup otherUser =>
      simp only [AuthorizationOp.execute,
        AuthorizationState.insertUserGroup] at refer ⊢
      split
      · split
        · rename_i userExists groupExists
          simp only [userExists, groupExists, if_true] at refer
          refine ⟨refer, stripped.given, stripped.notOwner, ?_⟩
          intro userGroup membership sameGroup sameUser userRole member
          rcases Table.mem_rows_insert.mp membership with old | rfl
          · exact stripped.noRole userGroup old sameGroup sameUser userRole
              member
          · -- The roles refer to memberships with smaller identifiers.
            obtain ⟨earlier, earlierMember, earlierId⟩ :=
              stripped.refer.membership userRole member
            have below := state.userGroups.keysBelow earlier earlierMember
            rw [← earlierId]
            exact Nat.ne_of_lt below
        · exact stripped
      · exact stripped
  | deleteUserGroup otherGroup otherUser =>
      exact stripped.deleteUserGroups _
  | insertGroup name ownerId =>
      simp only [AuthorizationOp.execute,
        AuthorizationState.insertGroup] at refer ⊢
      split
      · exact stripped
      · split
        · rename_i nameFree ownerExists
          simp only [nameFree, ownerExists, if_true] at refer
          refine ⟨refer, Nat.lt_succ_of_lt stripped.given, ?_,
            stripped.noRole⟩
          intro group member sameId
          rcases Table.mem_rows_insert.mp member with old | rfl
          · exact stripped.notOwner group old sameId
          · exact absurd sameId (Nat.ne_of_gt stripped.given)
        · exact stripped
  | deleteGroupById id =>
      have kept :
          AuthorizationState.Stripped
            { state with
              groups := state.groups.deleteWhere fun group => group.id == id }
            groupId userId :=
        ⟨⟨stripped.refer.membership, stripped.refer.role⟩, stripped.given,
          fun group member =>
            stripped.notOwner group (Table.mem_rows_deleteWhere.mp member).1,
          stripped.noRole⟩
      exact kept.deleteUserGroups _
  | insertUserRole userGroupId roleId =>
      exact grantsNothing.elim
  | deleteUserRole userGroupId roleId =>
      exact ⟨refer, stripped.given, stripped.notOwner,
        fun userGroup membership sameGroup sameUser userRole member =>
          stripped.noRole userGroup membership sameGroup sameUser userRole
            (Table.mem_rows_deleteWhere.mp member).1⟩
  | _ => exact stripped

/-- Without a role and the ownership there is no permission. -/
theorem not_letsThrough
    (stripped : state.Stripped groupId userId) :
    ¬ state.LetsThrough permission groupId userId := by
  intro lets
  obtain ⟨group, member, sameId, isOwner | holds⟩ :=
    (letsThrough_iff stripped.refer).mp lets
  · exact stripped.notOwner group member sameId isOwner
  · obtain ⟨userGroup, membership, sameGroup, sameUser, _, _, _, userRole,
        present, sameMembership, _⟩ := holds
    exact stripped.noRole userGroup membership sameGroup sameUser userRole
      present sameMembership

/-- The removal of a member from a group strips the member. -/
theorem of_deleteUserFromGroup
    {before after : AuthorizationState}
    {managerId : Nat}
    (refer : before.RolesRefer)
    (settles :
      Settles authorizationHost
        (AuthorizationService.deleteUserFromGroup groupId managerId userId)
        before (.ok ()) after) :
    after.Stripped groupId userId := by
  rcases AuthorizationService.deleteUserFromGroup_settles settles with
      ⟨_, _, rejected⟩ | ⟨group, member, sameId, isOwner, other, rfl⟩
  · cases rejected
  · refine ⟨refer.deleteUserGroups _, ?_, ?_, ?_⟩
    · rw [← sameId]
      exact before.groups.keysBelow group member
    · intro same sameMember sameGroup
      have unique : same = group :=
        Table.eq_of_key sameMember member (sameGroup.trans sameId.symm)
      rw [unique, isOwner]
      exact Ne.symm other
    · intro userGroup membership sameGroup sameUser
      have spared := (Table.mem_rows_deleteWhere.mp membership).2
      simp [sameGroup, sameUser, sameId] at spared

end Stripped

end AuthorizationState

section GrantsNothing

variable {groupId userId callerId : Nat}

/-- A statement that adds nothing grants nothing. -/
theorem AuthorizationOp.AddsNothing.grantsNothing
    {op : AuthorizationOp}
    (addsNothing : op.AddsNothing) :
    op.GrantsNothing := by
  cases op with
  | insertUserRole userGroupId roleId => exact addsNothing.elim
  | _ => trivial

namespace AuthorizationService

theorem createGroup_grantsNothing
    {groupName : String} :
    (createGroup groupName callerId).AwaitsOnly
      AuthorizationOp.GrantsNothing := by
  refine .bind (.perform trivial) fun group => ?_
  cases group with
  | some group => trivial
  | none =>
      exact .bind (.perform trivial) fun groupId =>
        .bind (.perform trivial) fun _ => trivial

theorem addUserToGroup_grantsNothing :
    (addUserToGroup groupId userId).AwaitsOnly
      AuthorizationOp.GrantsNothing := by
  refine .bind (.perform trivial) fun user => ?_
  cases user with
  | none => trivial
  | some user =>
      refine .bind (.perform trivial) fun present => ?_
      cases present with
      | true => trivial
      | false => exact .perform trivial

end AuthorizationService

/-- Only the route that adds a role to a member grants one. -/
theorem authorizationRoutes_grantsNothing
    {request : AuthorizationRequest}
    (other :
      ∀ groupId userId role,
        request.route ≠ .addUserRole groupId userId role) :
    (authorizationRoutes request).AwaitsOnly
      AuthorizationOp.GrantsNothing := by
  have grants :
      ∀ op : AuthorizationOp, op.AddsNothing → op.GrantsNothing :=
    fun _ addsNothing => addsNothing.grantsNothing
  obtain ⟨caller, route⟩ := request
  cases route with
  | createGroup groupName =>
      exact .bind AuthorizationService.createGroup_grantsNothing
        fun _ => trivial
  | deleteGroup groupId =>
      exact .bind (AuthHooks.groupOwnerHook_addsNothing.mono grants) fun _ =>
        .bind (.perform trivial) fun _ => trivial
  | addUserToGroup groupId userId =>
      exact .bind (AuthHooks.roleHook_addsNothing.mono grants) fun _ =>
        .bind AuthorizationService.addUserToGroup_grantsNothing
          fun _ => trivial
  | deleteUserFromGroup groupId userId =>
      exact .bind (AuthHooks.roleHook_addsNothing.mono grants) fun _ =>
        .bind (AuthorizationService.deleteUserFromGroup_addsNothing.mono grants)
          fun _ => trivial
  | addUserRole groupId userId role =>
      exact (other groupId userId role rfl).elim
  | deleteUserRole groupId userId role =>
      exact .bind (AuthHooks.roleHook_addsNothing.mono grants) fun _ =>
        .bind (AuthorizationService.deleteUserRole_addsNothing.mono grants)
          fun _ => trivial

end GrantsNothing

namespace AuthorizationState

variable {groupId userId : Nat}

/-- Adding a role to a member adds it to a membership, or nothing happens. -/
theorem addUserRole_exchanged
    {before after : AuthorizationState}
    {caller : Nat}
    {role : String}
    {outcome : Except AppError AuthorizationReply}
    (exchanged :
      AuthorizationExchanged before
        ⟨⟨caller, .addUserRole groupId userId role⟩, outcome⟩ after) :
    after = before ∨
      outcome = .ok .done ∧
        ∃ userGroup ∈ before.userGroups.rows,
          userGroup.groupId = groupId ∧
            userGroup.userId = userId ∧
            ∃ roleId,
              after =
                { before with
                  userRoles :=
                    before.userRoles.insert
                      (fun rowId =>
                        { rowId, userGroupId := userGroup.id, roleId })
                      (fun _ => rfl) } := by
  rcases Settles.bind_iff.mp exchanged with
      ⟨_, _, checked, rest⟩ | ⟨_, checked, _⟩
  · obtain ⟨rfl, _⟩ := AuthHooks.roleHook_settles checked
    obtain ⟨result, ran, shape⟩ := Settles.bind_pure_iff.mp rest
    rcases AuthorizationService.addUserRole_settles ran with
        unchanged | ⟨_, _, _, _, roleId, adding⟩
    · exact .inl unchanged
    · rcases AuthorizationService.addRole_settles adding with
          unchanged |
          ⟨rfl, userGroup, membership, sameGroup, sameUser, inserted⟩
      · exact .inl unchanged
      · exact .inr ⟨shape, userGroup, membership, sameGroup, sameUser,
          roleId, inserted⟩
  · obtain ⟨rfl, _⟩ := AuthHooks.roleHook_settles checked
    exact .inl rfl

/-- A member without roles stays so until a role is granted. -/
theorem Stripped.exchanged
    {before after : AuthorizationState}
    {exchange : AuthorizationExchange}
    (stripped : before.Stripped groupId userId)
    (exchanged : AuthorizationExchanged before exchange after)
    (grantsNone : ¬ exchange.Grants groupId userId) :
    after.Stripped groupId userId := by
  obtain ⟨⟨caller, route⟩, outcome⟩ := exchange
  by_cases adds :
      ∃ otherGroup otherUser role,
        route = .addUserRole otherGroup otherUser role
  · obtain ⟨otherGroup, otherUser, role, rfl⟩ := adds
    have refer : after.RolesRefer :=
      rolesRefer_of_run (.single ⟨outcome, exchanged⟩) stripped.refer
    rcases addUserRole_exchanged exchanged with
        rfl | ⟨resolved, userGroup, membership, sameGroup, sameUser, roleId,
          rfl⟩
    · exact stripped
    · refine stripped.insertUserRole membership ?_ roleId refer
      rintro ⟨rfl, rfl⟩
      refine grantsNone ⟨resolved, role, ?_⟩
      rw [sameGroup, sameUser]
  · have grantsNothing :
        (authorizationRoutes ⟨caller, route⟩).AwaitsOnly
          AuthorizationOp.GrantsNothing :=
      authorizationRoutes_grantsNothing fun otherGroup otherUser role same =>
        adds ⟨otherGroup, otherUser, role, same⟩
    refine grantsNothing.preserves (Stripped · groupId userId) ?_ exchanged
      stripped
    intro op input state answer next allowed stripped answered
    rw [AuthorizationOp.answered answered]
    exact stripped.execute allowed

theorem Stripped.of_run
    {initial final : AuthorizationState}
    {exchanges : List AuthorizationExchange}
    (run : Run AuthorizationExchanged initial exchanges final)
    (grantsNone : ∀ exchange ∈ exchanges, ¬ exchange.Grants groupId userId)
    (initially : initial.Stripped groupId userId) :
    final.Stripped groupId userId := by
  induction run with
  | nil =>
      exact initially
  | snoc earlier last inductionHypothesis =>
      have before :=
        inductionHypothesis fun exchange member =>
          grantsNone exchange (List.mem_append_left _ member)
      exact before.exchanged last
        (grantsNone _ (List.mem_append_right _ (List.mem_singleton_self _)))

end AuthorizationState

/--
Permissions over any sequence of requests: the hook lets a user through on a
group exactly when the group exists and the user owns it or holds in it a role
with the permission; and once the removal of a user from a group has resolved,
no hook lets the user through on the group until a role is granted again.
-/
theorem permissions_followMembership
    (users : UserTable)
    (roles : Table Role)
    (permissions : Table Permission)
    (rolePermissions : List RolePermission)
    (requests : List AuthorizationRequest)
    (state : AuthorizationState)
    (run :
      Run AuthorizationHandled
        (.initial users roles permissions rolePermissions) requests state) :
    (∀ permission groupId userId,
      state.LetsThrough permission groupId userId ↔
        state.Permits permission groupId userId) ∧
      ∀ caller groupId userId reply removed exchanges later,
        AuthorizationExchanged state
          ⟨⟨caller, .deleteUserFromGroup groupId userId⟩, .ok reply⟩
          removed →
        Run AuthorizationExchanged removed exchanges later →
        (∀ exchange ∈ exchanges, ¬ exchange.Grants groupId userId) →
        ∀ permission, ¬ later.LetsThrough permission groupId userId := by
  have refer : state.RolesRefer :=
    AuthorizationState.rolesRefer_of_run run
      ⟨fun _ _ => by contradiction, fun _ _ => by contradiction⟩
  refine ⟨fun permission groupId userId =>
    AuthorizationState.letsThrough_iff refer, ?_⟩
  intro caller groupId userId reply removed exchanges later exchanged laterRun
    grantsNone permission
  obtain ⟨_, _, checked, rest⟩ := Settles.resolved_bind exchanged
  obtain ⟨rfl, _⟩ := AuthHooks.roleHook_settles checked
  obtain ⟨result, ran, shape⟩ := Settles.bind_pure_iff.mp rest
  cases result with
  | error reason =>
      cases shape
  | ok value =>
      have stripped :=
        AuthorizationState.Stripped.of_deleteUserFromGroup refer ran
      exact (stripped.of_run laterRun grantsNone).not_letsThrough

/-- A member views tasks by a role, and no more after leaving and coming back. -/
theorem permissions_followMembership_readded :
    ∃ users granted removed readded,
      UserTable.insert (.single ⟨"ada", "Ada", "ada@host", "#"⟩)
          ⟨"bob", "Bob", "bob@host", "#"⟩ = .ok users ∧
        Run AuthorizationHandled
          (.initial users
            (Table.empty.insert (Role.mk · "task_viewer") fun _ => rfl)
            (Table.empty.insert (Permission.mk · "view_task") fun _ => rfl)
            [⟨1, 1⟩])
          [⟨1, .createGroup "readers"⟩, ⟨1, .addUserToGroup 1 2⟩,
            ⟨1, .addUserRole 1 2 "task_viewer"⟩]
          granted ∧
        granted.LetsThrough "view_task" 1 2 ∧
        AuthorizationExchanged granted
          ⟨⟨1, .deleteUserFromGroup 1 2⟩, .ok .done⟩ removed ∧
        Run AuthorizationExchanged removed
          [⟨⟨1, .addUserToGroup 1 2⟩, .ok .done⟩] readded ∧
        ¬ readded.LetsThrough "view_task" 1 2 := by
  let users : UserTable :=
    (UserTable.insert (.single ⟨"ada", "Ada", "ada@host", "#"⟩)
      ⟨"bob", "Bob", "bob@host", "#"⟩).toOption.getD .empty
  have run :=
    Run.snoc (Run.snoc (Run.single
      (show AuthorizationHandled
          (.initial users
            (Table.empty.insert (Role.mk · "task_viewer") fun _ => rfl)
            (Table.empty.insert (Permission.mk · "view_task") fun _ => rfl)
            [⟨1, 1⟩])
          ⟨1, .createGroup "readers"⟩ _
        from ⟨_, Settles.of_runAlone [(), (), ()] rfl⟩))
      (show AuthorizationHandled _ ⟨1, .addUserToGroup 1 2⟩ _
        from ⟨_, Settles.of_runAlone [(), (), (), ()] rfl⟩))
      (show AuthorizationHandled _ ⟨1, .addUserRole 1 2 "task_viewer"⟩ _
        from ⟨_, Settles.of_runAlone [(), (), (), (), (), ()] rfl⟩)
  have decisions := permissions_followMembership _ _ _ _ _ _ run
  have exchange
      {start before after : AuthorizationState}
      {requests : List AuthorizationRequest}
      {request : AuthorizationRequest}
      {inputs : List Unit}
      (_ : Run AuthorizationHandled start requests before)
      (executed :
        (authorizationRoutes request).runAlone authorizationHost inputs
          before = some (.ok .done, after)) :
      AuthorizationExchanged before ⟨request, .ok .done⟩ after :=
    .of_runAlone inputs executed
  have removal :=
    @exchange _ _ _ _ ⟨1, .deleteUserFromGroup 1 2⟩ [(), (), ()] run rfl
  have readding :=
    @exchange _ _ _ _ ⟨1, .addUserToGroup 1 2⟩ [(), (), (), ()]
      (.single ⟨_, removal⟩) rfl
  refine ⟨users, _, _, _, rfl, run, (decisions.1 _ _ _).mpr ?_, removal,
    .single readding, ?_⟩
  · exact ⟨⟨1, "readers", 1⟩, .head _, rfl, .inr
      ⟨⟨2, 1, 2⟩, .tail _ (.head _), rfl, rfl, ⟨1, "task_viewer"⟩, .head _,
        ⟨⟨1, 1⟩, .head _, rfl, ⟨1, "view_task"⟩, .head _, rfl, rfl⟩,
        ⟨1, 2, 1⟩, .head _, rfl, rfl⟩⟩
  · refine decisions.2 _ _ _ _ _ _ _ removal (.single readding) ?_ _
    intro exchange member
    cases List.mem_singleton.mp member
    rintro ⟨_, _, adds⟩
    cases adds

end Prescott
