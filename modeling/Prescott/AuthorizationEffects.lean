import Prescott.AuthorizationService

namespace Prescott

/-!
# Effects of the authorization requests

Whatever a request to an authorization route does, it is one of seven effects,
each with the facts its hook and its guards have established.
-/

variable {before after : AuthorizationState}

/-- A statement settles with its only answer. -/
theorem AuthorizationOp.perform_settles
    {op : AuthorizationOp}
    {outcome : Except AppError op.Result} :
    Settles authorizationHost op.perform before outcome after ↔
      (outcome, after) = op.execute before := by
  rw [perform, Settles.perform_iff]
  constructor
  · rintro ⟨_, answered⟩
    exact (Option.some.inj answered).symm
  · intro answered
    exact ⟨(), congrArg some answered.symm⟩

/-- After a statement the program goes on with its only answer. -/
theorem AuthorizationOp.perform_bind_settles
    {op : AuthorizationOp}
    {α : Type}
    {next : op.Result → AuthorizationProgram α}
    {outcome : Except AppError α} :
    Settles authorizationHost (op.perform >>= next) before outcome after ↔
      match op.execute before with
      | (.ok value, middle) =>
          Settles authorizationHost (next value) middle outcome after
      | (.error reason, middle) =>
          outcome = .error reason ∧ after = middle := by
  rw [Settles.bind_iff]
  simp only [AuthorizationOp.perform_settles]
  rcases executed : op.execute before with ⟨answer, middle⟩
  cases answer with
  | ok value =>
      constructor
      · rintro (⟨_, _, answered, rest⟩ | ⟨_, answered, _⟩)
        · cases answered
          exact rest
        · cases answered
      · exact fun rest => .inl ⟨value, middle, rfl, rest⟩
  | error reason =>
      constructor
      · rintro (⟨_, _, answered, _⟩ | ⟨_, answered, rejected⟩)
        · cases answered
        · cases answered
          exact ⟨rejected, rfl⟩
      · rintro ⟨rejected, rfl⟩
        exact .inr ⟨reason, rfl, rejected⟩

/-- Destructuring resolves with the value and changes nothing. -/
theorem destructure_settles
    {α : Type}
    {property : String}
    {value : Option α}
    {outcome : Except AppError α}
    (settles :
      Settles authorizationHost (destructure property value)
        before outcome after) :
    after = before ∧
      ∀ result, outcome = .ok result → value = some result := by
  cases value with
  | none =>
      obtain ⟨rfl, rfl⟩ := Settles.throw_iff.mp settles
      exact ⟨rfl, fun _ resolved => by cases resolved⟩
  | some found =>
      obtain ⟨rfl, rfl⟩ := Settles.pure_iff.mp settles
      exact ⟨rfl, fun _ resolved => by cases resolved; rfl⟩

namespace AuthHooks

/-- The ownership test reads the group of the path and changes nothing. -/
theorem isGroupOwnerThrowable_settles
    {groupId userId : Nat}
    {outcome : Except AppError Bool}
    (settles :
      Settles authorizationHost (isGroupOwnerThrowable groupId userId)
        before outcome after) :
    after = before ∧
      ∀ isOwner,
        outcome = .ok isOwner →
        ∃ group ∈ before.groups.rows,
          group.id = groupId ∧ (isOwner = true ↔ group.ownerId = userId) := by
  rcases Settles.bind_iff.mp settles with
      ⟨found, _, read, rest⟩ | ⟨reason, read, _⟩
  · cases AuthorizationOp.perform_settles.mp read
    split at rest
    · obtain ⟨rfl, rfl⟩ := Settles.throw_iff.mp rest
      exact ⟨rfl, fun _ resolved => by cases resolved⟩
    · rename_i group found
      obtain ⟨rfl, rfl⟩ := Settles.pure_iff.mp rest
      obtain ⟨member, sameId⟩ := Table.mem_of_first found
      refine ⟨rfl, fun isOwner resolved => ?_⟩
      cases resolved
      exact ⟨group, member, by simpa using sameId, by simp⟩
  · cases AuthorizationOp.perform_settles.mp read

/-- The owner hook lets only the owner of the group through. -/
theorem groupOwnerHook_settles
    {groupId userId : Nat}
    {outcome : Except AppError Unit}
    (settles :
      Settles authorizationHost (groupOwnerHook groupId userId)
        before outcome after) :
    after = before ∧
      (outcome = .ok () →
        ∃ group ∈ before.groups.rows,
          group.id = groupId ∧ group.ownerId = userId) := by
  rcases Settles.bind_iff.mp settles with
      ⟨isOwner, _, tested, rest⟩ | ⟨reason, tested, rejected⟩
  · obtain ⟨rfl, owner⟩ := isGroupOwnerThrowable_settles tested
    obtain ⟨group, member, sameId, isOwnerIff⟩ := owner isOwner rfl
    split at rest
    · obtain ⟨rfl, rfl⟩ := Settles.pure_iff.mp rest
      exact ⟨rfl, fun _ => ⟨group, member, sameId, isOwnerIff.mp rfl⟩⟩
    · obtain ⟨rfl, rfl⟩ := Settles.throw_iff.mp rest
      exact ⟨rfl, fun resolved => by cases resolved⟩
  · obtain ⟨rfl, _⟩ := isGroupOwnerThrowable_settles tested
    exact ⟨rfl, fun resolved => by rw [rejected] at resolved; cases resolved⟩

/-- The role hook lets the owner and the holders of the role through. -/
theorem roleHook_settles
    {role : String}
    {groupId userId : Nat}
    {outcome : Except AppError Unit}
    (settles :
      Settles authorizationHost (roleHook role groupId userId)
        before outcome after) :
    after = before ∧
      (outcome = .ok () →
        ∃ group ∈ before.groups.rows,
          group.id = groupId ∧
            (group.ownerId = userId ∨
              role ∈ before.rolesOf groupId userId)) := by
  rcases Settles.bind_iff.mp settles with
      ⟨isOwner, _, tested, rest⟩ | ⟨reason, tested, rejected⟩
  · obtain ⟨rfl, owner⟩ := isGroupOwnerThrowable_settles tested
    obtain ⟨group, member, sameId, isOwnerIff⟩ := owner isOwner rfl
    split at rest
    · obtain ⟨rfl, rfl⟩ := Settles.pure_iff.mp rest
      exact ⟨rfl, fun _ =>
        ⟨group, member, sameId, .inl (isOwnerIff.mp rfl)⟩⟩
    · rcases Settles.bind_iff.mp rest with
          ⟨roles, _, read, later⟩ | ⟨reason, read, _⟩
      · cases AuthorizationOp.perform_settles.mp read
        split at later
        · rename_i holds
          obtain ⟨rfl, rfl⟩ := Settles.pure_iff.mp later
          exact ⟨rfl, fun _ =>
            ⟨group, member, sameId, .inr (by simpa using holds)⟩⟩
        · obtain ⟨rfl, rfl⟩ := Settles.throw_iff.mp later
          exact ⟨rfl, fun resolved => by cases resolved⟩
      · cases AuthorizationOp.perform_settles.mp read
  · obtain ⟨rfl, _⟩ := isGroupOwnerThrowable_settles tested
    exact ⟨rfl, fun resolved => by rw [rejected] at resolved; cases resolved⟩

end AuthHooks

/-- What a request of a caller does to the tables. -/
inductive AuthorizationEffect
    (caller : Nat)
    (before : AuthorizationState) :
    AuthorizationState → Prop where
  | nothing :
      AuthorizationEffect caller before before
  | createGroup
      (name : String) :
      AuthorizationEffect caller before
        { before with
          groups :=
            before.groups.insert
              (fun id => { id, name, ownerId := caller })
              (fun _ => rfl)
          userGroups :=
            before.userGroups.insert
              (fun id =>
                { id
                  groupId := before.groups.nextId
                  userId := caller })
              (fun _ => rfl) }
  | deleteGroup
      {group : Group}
      (member : group ∈ before.groups.rows)
      (isOwner : group.ownerId = caller) :
      AuthorizationEffect caller before (before.deleteGroup group.id)
  | addUser
      (groupId userId : Nat) :
      AuthorizationEffect caller before
        { before with
          userGroups :=
            before.userGroups.insert
              (fun id => { id, groupId, userId }) (fun _ => rfl) }
  | removeUser
      {group : Group}
      {userId : Nat}
      (member : group ∈ before.groups.rows)
      (isOwner : group.ownerId = caller)
      (other : userId ≠ caller) :
      AuthorizationEffect caller before
        (before.deleteUserGroups fun row =>
          row.groupId == group.id && row.userId == userId)
  | addRole
      {group : Group}
      {userGroup : UserGroup}
      (roleId : Nat)
      (member : group ∈ before.groups.rows)
      (isOwner : group.ownerId = caller)
      (membership : userGroup ∈ before.userGroups.rows)
      (sameGroup : userGroup.groupId = group.id) :
      AuthorizationEffect caller before
        { before with
          userRoles :=
            before.userRoles.insert
              (fun rowId =>
                { rowId, userGroupId := userGroup.id, roleId })
              (fun _ => rfl) }
  | removeRole
      {group : Group}
      {userGroup : UserGroup}
      {role : Role}
      (member : group ∈ before.groups.rows)
      (allowed : group.ownerId = caller ∨ role.name ∉ ROLES)
      (membership : userGroup ∈ before.userGroups.rows)
      (sameGroup : userGroup.groupId = group.id)
      (roleMember : role ∈ before.roles.rows) :
      AuthorizationEffect caller before
        { before with
          userRoles :=
            before.userRoles.deleteWhere fun row =>
              row.userGroupId == userGroup.id && row.roleId == role.id }

namespace AuthorizationService

variable {caller groupId userId : Nat}

/-- A looked up and destructured row is one of its table. -/
theorem findRole_settles
    {α : Type}
    {roleName : String}
    {next : Role → AuthorizationProgram α}
    {outcome : Except AppError α}
    (settles :
      Settles authorizationHost
        (do
          let role ← RoleDao.findByName roleName
          let role ← destructure "id" role
          next role)
        before outcome after) :
    after = before ∨
      ∃ role ∈ before.roles.rows,
        role.name = roleName ∧
          Settles authorizationHost (next role) before outcome after := by
  have rest := AuthorizationOp.perform_bind_settles.mp settles
  simp only [AuthorizationOp.execute] at rest
  rcases Settles.bind_iff.mp rest with
      ⟨role, _, destructured, later⟩ | ⟨_, destructured, _⟩
  · obtain ⟨rfl, found⟩ := destructure_settles destructured
    obtain ⟨member, sameName⟩ := Table.mem_of_first (found role rfl)
    exact .inr ⟨role, member, beq_iff_eq.mp sameName, later⟩
  · exact .inl (destructure_settles destructured).1

/-- A looked up and destructured membership is one of the user in the group. -/
theorem findUserGroup_settles
    {next : UserGroup → AuthorizationProgram Unit}
    {outcome : Except AppError Unit}
    (settles :
      Settles authorizationHost
        (do
          let userGroup ← GroupDao.findUserGroup groupId userId
          let userGroup ← destructure "id" userGroup
          next userGroup)
        before outcome after) :
    after = before ∨
      ∃ userGroup ∈ before.userGroups.rows,
        userGroup.groupId = groupId ∧
          userGroup.userId = userId ∧
          Settles authorizationHost (next userGroup)
            before outcome after := by
  have rest := AuthorizationOp.perform_bind_settles.mp settles
  simp only [AuthorizationOp.execute] at rest
  rcases Settles.bind_iff.mp rest with
      ⟨userGroup, _, destructured, later⟩ | ⟨_, destructured, _⟩
  · obtain ⟨rfl, found⟩ := destructure_settles destructured
    obtain ⟨member, matching⟩ := Table.mem_of_first (found userGroup rfl)
    simp only [Bool.and_eq_true, beq_iff_eq] at matching
    exact .inr ⟨userGroup, member, matching.1, matching.2, later⟩
  · exact .inl (destructure_settles destructured).1

/-- Granting a role inserts it for a membership or fails without effect. -/
theorem addRole_settles
    {roleId : Nat}
    {outcome : Except AppError Unit}
    (settles :
      Settles authorizationHost (RoleService.add groupId userId roleId)
        before outcome after) :
    after = before ∨
      outcome = .ok () ∧
        ∃ userGroup ∈ before.userGroups.rows,
          userGroup.groupId = groupId ∧
            userGroup.userId = userId ∧
            after =
              { before with
                userRoles :=
                  before.userRoles.insert
                    (fun rowId =>
                      { rowId, userGroupId := userGroup.id, roleId })
                    (fun _ => rfl) } := by
  rcases findUserGroup_settles settles with
      unchanged | ⟨userGroup, membership, sameGroup, sameUser, granting⟩
  · exact .inl unchanged
  · have answered := AuthorizationOp.perform_settles.mp granting
    simp only [AuthorizationOp.execute,
      AuthorizationState.insertUserRole] at answered
    split at answered
    · split at answered
      · cases answered
        exact .inr ⟨rfl, userGroup, membership, sameGroup, sameUser, rfl⟩
      · cases answered
        exact .inl rfl
    · cases answered
      exact .inl rfl

/-- Taking a role away deletes its rows for one membership. -/
theorem removeRole_effect
    {group : Group}
    {role : Role}
    {outcome : Except AppError Unit}
    (member : group ∈ before.groups.rows)
    (sameId : group.id = groupId)
    (roleMember : role ∈ before.roles.rows)
    (allowed : group.ownerId = caller ∨ role.name ∉ ROLES)
    (settles :
      Settles authorizationHost (RoleService.remove groupId userId role.id)
        before outcome after) :
    AuthorizationEffect caller before after := by
  rcases findUserGroup_settles settles with
      unchanged | ⟨userGroup, membership, sameGroup, _, removing⟩
  · rw [unchanged]
    exact .nothing
  · cases AuthorizationOp.perform_settles.mp removing
    exact .removeRole member allowed membership
      (sameGroup.trans sameId.symm) roleMember

/-- The insert of the membership succeeds once the group is inserted. -/
theorem createGroup_effect
    {groupName : String}
    {outcome : Except AppError Nat}
    (settles :
      Settles authorizationHost (createGroup groupName caller)
        before outcome after) :
    AuthorizationEffect caller before after := by
  have rest := AuthorizationOp.perform_bind_settles.mp settles
  simp only [AuthorizationOp.execute] at rest
  split at rest
  · obtain ⟨_, rfl⟩ := Settles.throw_iff.mp rest
    exact .nothing
  · have later := AuthorizationOp.perform_bind_settles.mp rest
    simp only [AuthorizationOp.execute,
      AuthorizationState.insertGroup] at later
    by_cases nameTaken :
        (before.groups.first fun group => group.name == groupName).isSome
    · rw [if_pos nameTaken] at later
      obtain ⟨_, rfl⟩ := later
      exact .nothing
    · rw [if_neg nameTaken] at later
      by_cases ownerExists :
          (before.users.table.first fun user => user.id == caller).isSome
      · rw [if_pos ownerExists] at later
        have last := AuthorizationOp.perform_bind_settles.mp later
        simp only [AuthorizationOp.execute,
          AuthorizationState.insertUserGroup] at last
        rw [if_pos ownerExists, if_pos] at last
        · obtain ⟨_, rfl⟩ := Settles.pure_iff.mp last
          exact .createGroup groupName
        · exact Table.first_isSome.mpr
            ⟨_, Table.mem_rows_insert.mpr (.inr rfl), by simp⟩
      · rw [if_neg ownerExists] at later
        obtain ⟨_, rfl⟩ := later
        exact .nothing

/-- Inserting a membership fails without effect or inserts it. -/
theorem insertUserGroup_effect
    {outcome : Except AppError Unit}
    (settles :
      Settles authorizationHost (GroupDao.addUser groupId userId)
        before outcome after) :
    AuthorizationEffect caller before after := by
  have answered := AuthorizationOp.perform_settles.mp settles
  simp only [AuthorizationOp.execute,
    AuthorizationState.insertUserGroup] at answered
  split at answered
  · split at answered
    · cases answered
      exact .addUser groupId userId
    · cases answered
      exact .nothing
  · cases answered
    exact .nothing

theorem addUserToGroup_effect
    {outcome : Except AppError Unit}
    (settles :
      Settles authorizationHost (addUserToGroup groupId userId)
        before outcome after) :
    AuthorizationEffect caller before after := by
  have rest := AuthorizationOp.perform_bind_settles.mp settles
  simp only [AuthorizationOp.execute] at rest
  split at rest
  · obtain ⟨_, rfl⟩ := Settles.throw_iff.mp rest
    exact .nothing
  · have later := AuthorizationOp.perform_bind_settles.mp rest
    simp only [AuthorizationOp.execute] at later
    split at later
    · obtain ⟨_, rfl⟩ := Settles.throw_iff.mp later
      exact .nothing
    · exact insertUserGroup_effect later

/-- The unbound method reference rejects on the two protected roles. -/
theorem someUnbound_ROLES_settles
    {outcome : Except AppError Bool}
    (settles :
      Settles authorizationHost (someUnbound ROLES) before outcome after) :
    after = before ∧ ∃ reason, outcome = .error reason := by
  obtain ⟨rfl, rfl⟩ := Settles.throw_iff.mp settles
  exact ⟨rfl, _, rfl⟩

/-- Only the owner passes the check; anyone else meets the `TypeError`. -/
theorem checkRemovable_settles
    {ownerId : Nat}
    {outcome : Except AppError Unit}
    (settles :
      Settles authorizationHost
        (checkRemovable groupId ownerId caller userId) before outcome after) :
    after = before ∧ (outcome = .ok () → caller = ownerId) := by
  unfold checkRemovable at settles
  split at settles
  · have rest := AuthorizationOp.perform_bind_settles.mp settles
    simp only [AuthorizationOp.execute] at rest
    rcases Settles.bind_iff.mp rest with
        ⟨_, _, tested, _⟩ | ⟨_, tested, rejected⟩
    · obtain ⟨_, _, resolved⟩ := someUnbound_ROLES_settles tested
      cases resolved
    · obtain ⟨rfl, _⟩ := someUnbound_ROLES_settles tested
      exact ⟨rfl, fun resolved => by rw [rejected] at resolved; cases resolved⟩
  · rename_i isOwner
    obtain ⟨_, rfl⟩ := Settles.pure_iff.mp settles
    exact ⟨rfl, fun _ => not_not.mp isOwner⟩

/-- Only the owner passes the check; anyone else meets the `TypeError`. -/
theorem checkGrantable_settles
    {ownerId : Nat}
    {outcome : Except AppError Unit}
    (settles :
      Settles authorizationHost (checkGrantable ownerId caller)
        before outcome after) :
    after = before ∧ (outcome = .ok () → caller = ownerId) := by
  unfold checkGrantable at settles
  split at settles
  · rcases Settles.bind_iff.mp settles with
        ⟨_, _, tested, _⟩ | ⟨_, tested, rejected⟩
    · obtain ⟨_, _, resolved⟩ := someUnbound_ROLES_settles tested
      cases resolved
    · obtain ⟨rfl, _⟩ := someUnbound_ROLES_settles tested
      exact ⟨rfl, fun resolved => by rw [rejected] at resolved; cases resolved⟩
  · rename_i isOwner
    obtain ⟨_, rfl⟩ := Settles.pure_iff.mp settles
    exact ⟨rfl, fun _ => not_not.mp isOwner⟩

/-- A member is removed for the owner of the group, or nothing happens. -/
theorem deleteUserFromGroup_settles
    {outcome : Except AppError Unit}
    (settles :
      Settles authorizationHost
        (deleteUserFromGroup groupId caller userId) before outcome after) :
    (after = before ∧ ∃ reason, outcome = .error reason) ∨
      ∃ group ∈ before.groups.rows,
        group.id = groupId ∧
          group.ownerId = caller ∧
          userId ≠ caller ∧
          after =
            before.deleteUserGroups fun row =>
              row.groupId == group.id && row.userId == userId := by
  unfold deleteUserFromGroup at settles
  split at settles
  · obtain ⟨rejected, rfl⟩ := Settles.throw_iff.mp settles
    exact .inl ⟨rfl, _, rejected⟩
  · rename_i other
    have rest := AuthorizationOp.perform_bind_settles.mp settles
    simp only [AuthorizationOp.execute] at rest
    rcases Settles.bind_iff.mp rest with
        ⟨group, _, destructured, later⟩ | ⟨_, destructured, rejected⟩
    · obtain ⟨rfl, found⟩ := destructure_settles destructured
      obtain ⟨member, sameId⟩ := Table.mem_of_first (found group rfl)
      rcases Settles.bind_iff.mp later with
          ⟨_, _, checked, last⟩ | ⟨_, checked, rejected⟩
      · obtain ⟨rfl, isOwner⟩ := checkRemovable_settles checked
        have deleted := AuthorizationOp.perform_settles.mp last
        rw [← beq_iff_eq.mp sameId] at deleted
        cases deleted
        exact .inr ⟨group, member, beq_iff_eq.mp sameId,
          (isOwner rfl).symm, Ne.symm other, rfl⟩
      · obtain ⟨rfl, _⟩ := checkRemovable_settles checked
        exact .inl ⟨rfl, _, rejected⟩
    · obtain ⟨rfl, _⟩ := destructure_settles destructured
      exact .inl ⟨rfl, _, rejected⟩

theorem deleteUserFromGroup_effect
    {outcome : Except AppError Unit}
    (settles :
      Settles authorizationHost
        (deleteUserFromGroup groupId caller userId) before outcome after) :
    AuthorizationEffect caller before after := by
  rcases deleteUserFromGroup_settles settles with
      ⟨rfl, _⟩ | ⟨group, member, _, isOwner, other, rfl⟩
  · exact .nothing
  · exact .removeUser member isOwner other

/-- A role is granted for the owner of the group, or nothing happens. -/
theorem addUserRole_settles
    {roleName : String}
    {outcome : Except AppError Unit}
    (settles :
      Settles authorizationHost
        (addUserRole groupId caller userId roleName) before outcome after) :
    after = before ∨
      ∃ group ∈ before.groups.rows,
        group.id = groupId ∧
          group.ownerId = caller ∧
          ∃ roleId,
            Settles authorizationHost (RoleService.add groupId userId roleId)
              before outcome after := by
  unfold addUserRole at settles
  split at settles
  · obtain ⟨_, rfl⟩ := Settles.throw_iff.mp settles
    exact .inl rfl
  · have read := AuthorizationOp.perform_bind_settles.mp settles
    simp only [AuthorizationOp.execute] at read
    have rest := AuthorizationOp.perform_bind_settles.mp read
    simp only [AuthorizationOp.execute] at rest
    rcases Settles.bind_iff.mp rest with
        ⟨group, _, destructured, later⟩ | ⟨_, destructured, _⟩
    · obtain ⟨rfl, found⟩ := destructure_settles destructured
      obtain ⟨member, sameId⟩ := Table.mem_of_first (found group rfl)
      rcases Settles.bind_iff.mp later with
          ⟨_, _, checked, granting⟩ | ⟨_, checked, _⟩
      · obtain ⟨rfl, isOwner⟩ := checkGrantable_settles checked
        split at granting
        · obtain ⟨_, rfl⟩ := Settles.throw_iff.mp granting
          exact .inl rfl
        · rcases findRole_settles granting with
              unchanged | ⟨role, _, _, adding⟩
          · exact .inl unchanged
          · exact .inr ⟨group, member, beq_iff_eq.mp sameId,
              (isOwner rfl).symm, role.id, adding⟩
      · obtain ⟨rfl, _⟩ := checkGrantable_settles checked
        exact .inl rfl
    · obtain ⟨rfl, _⟩ := destructure_settles destructured
      exact .inl rfl

theorem addUserRole_effect
    {roleName : String}
    {outcome : Except AppError Unit}
    (settles :
      Settles authorizationHost
        (addUserRole groupId caller userId roleName) before outcome after) :
    AuthorizationEffect caller before after := by
  rcases addUserRole_settles settles with
      rfl | ⟨group, member, sameId, isOwner, roleId, adding⟩
  · exact .nothing
  · rcases addRole_settles adding with
        rfl | ⟨_, userGroup, membership, sameGroup, _, rfl⟩
    · exact .nothing
    · exact .addRole roleId member isOwner membership
        (sameGroup.trans sameId.symm)

theorem deleteUserRole_effect
    {roleName : String}
    {outcome : Except AppError Unit}
    (settles :
      Settles authorizationHost
        (deleteUserRole groupId caller userId roleName)
        before outcome after) :
    AuthorizationEffect caller before after := by
  unfold deleteUserRole at settles
  split at settles
  · obtain ⟨_, rfl⟩ := Settles.throw_iff.mp settles
    exact .nothing
  · have rest := AuthorizationOp.perform_bind_settles.mp settles
    simp only [AuthorizationOp.execute] at rest
    rcases Settles.bind_iff.mp rest with
        ⟨group, _, destructured, later⟩ | ⟨_, destructured, _⟩
    · obtain ⟨rfl, found⟩ := destructure_settles destructured
      obtain ⟨member, sameId⟩ := Table.mem_of_first (found group rfl)
      split at later
      · obtain ⟨_, rfl⟩ := Settles.throw_iff.mp later
        exact .nothing
      · rename_i passed
        rcases findRole_settles later with
            unchanged | ⟨role, roleMember, sameName, removing⟩
        · rw [unchanged]
          exact .nothing
        · have allowed : group.ownerId = caller ∨ role.name ∉ ROLES := by
            by_cases isOwner : group.ownerId = caller
            · exact .inl isOwner
            · refine .inr fun isProtected => passed ⟨Ne.symm isOwner, ?_⟩
              rw [← sameName]
              exact List.contains_iff_mem.mpr isProtected
          exact removeRole_effect member (beq_iff_eq.mp sameId)
            roleMember allowed removing
    · obtain ⟨rfl, _⟩ := destructure_settles destructured
      exact .nothing

end AuthorizationService

namespace AuthorizationEffect

variable {caller : Nat}

/-- A handler that replies after its service call has the call's effect. -/
theorem of_reply
    {α β : Type}
    {body : AuthorizationProgram α}
    {reply : α → β}
    {outcome : Except AppError β}
    (bodyEffect :
      ∀ result,
        Settles authorizationHost body before result after →
        AuthorizationEffect caller before after)
    (settles :
      Settles authorizationHost
        (do
          let value ← body
          return reply value)
        before outcome after) :
    AuthorizationEffect caller before after := by
  obtain ⟨result, ran, _⟩ := Settles.bind_pure_iff.mp settles
  exact bodyEffect result ran

/-- A guarded handler has an effect only when its hook lets it through. -/
theorem of_guarded
    {α : Type}
    {hook : AuthorizationProgram Unit}
    {handler : AuthorizationProgram α}
    {passed : Prop}
    {outcome : Except AppError α}
    (hookSettles :
      ∀ {result middle},
        Settles authorizationHost hook before result middle →
        middle = before ∧ (result = .ok () → passed))
    (handlerEffect :
      passed →
      Settles authorizationHost handler before outcome after →
      AuthorizationEffect caller before after)
    (settles :
      Settles authorizationHost
        (do
          hook
          handler)
        before outcome after) :
    AuthorizationEffect caller before after := by
  rcases Settles.bind_iff.mp settles with
      ⟨_, _, checked, rest⟩ | ⟨_, checked, _⟩
  · obtain ⟨rfl, lets⟩ := hookSettles checked
    exact handlerEffect (lets rfl) rest
  · obtain ⟨rfl, _⟩ := hookSettles checked
    exact .nothing

/-- Every settled request has one of the effects. -/
theorem of_settles
    {request : AuthorizationRequest}
    {outcome : Except AppError AuthorizationReply}
    (settles :
      Settles authorizationHost (authorizationRoutes request)
        before outcome after) :
    AuthorizationEffect request.caller before after := by
  obtain ⟨caller, route⟩ := request
  cases route with
  | createGroup groupName =>
      exact of_reply
        (fun _ => AuthorizationService.createGroup_effect) settles
  | deleteGroup groupId =>
      refine of_guarded AuthHooks.groupOwnerHook_settles
        (fun ⟨group, member, sameId, isOwner⟩ handled => ?_) settles
      refine of_reply (fun _ deleting => ?_) handled
      cases AuthorizationOp.perform_settles.mp deleting
      rw [← sameId]
      exact .deleteGroup member isOwner
  | addUserToGroup groupId userId =>
      exact of_guarded AuthHooks.roleHook_settles
        (fun _ => of_reply fun _ =>
          AuthorizationService.addUserToGroup_effect) settles
  | deleteUserFromGroup groupId userId =>
      exact of_guarded AuthHooks.roleHook_settles
        (fun _ => of_reply fun _ =>
          AuthorizationService.deleteUserFromGroup_effect) settles
  | addUserRole groupId userId role =>
      exact of_guarded AuthHooks.roleHook_settles
        (fun _ => of_reply fun _ =>
          AuthorizationService.addUserRole_effect) settles
  | deleteUserRole groupId userId role =>
      exact of_guarded AuthHooks.roleHook_settles
        (fun _ => of_reply fun _ =>
          AuthorizationService.deleteUserRole_effect) settles

end AuthorizationEffect

end Prescott
