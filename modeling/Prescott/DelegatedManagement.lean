import Prescott.RoleManagement

namespace Prescott

/-!
# Delegated management

Managers who do not own their group ask `ROLES.some` with a method that has
lost its receiver.  The first call of it raises a `TypeError`, so no such
request is carried out and none is denied.
-/

namespace AuthorizationService

variable {before after : AuthorizationState}
variable {group : Group}
variable {caller userId : Nat}

/-- The group of a request is found by its identifier. -/
theorem findById_settles
    {α : Type}
    {next : Group → AuthorizationProgram α}
    {outcome : Except AppError α}
    (member : group ∈ before.groups.rows) :
    Settles authorizationHost
        (do
          let group ← GroupDao.findById group.id
          let group ← destructure "ownerId" group
          next group)
        before outcome after ↔
      Settles authorizationHost (next group) before outcome after := by
  have found :
      before.groups.first (fun row => row.id == group.id) = some group :=
    Table.first_of_key member rfl
  refine AuthorizationOp.perform_bind_settles.trans ?_
  simp only [AuthorizationOp.execute, found]
  rfl

/-- The removal by a manager who is not the owner. -/
theorem deleteUserFromGroup_byManager
    {outcome : Except AppError Unit}
    (member : group ∈ before.groups.rows)
    (notOwner : caller ≠ group.ownerId)
    (other : userId ≠ caller) :
    Settles authorizationHost (deleteUserFromGroup group.id caller userId)
        before outcome after ↔
      outcome = .error includesUnbound ∧ after = before := by
  unfold deleteUserFromGroup
  rw [if_neg other.symm]
  refine (findById_settles member).trans ?_
  rw [checkRemovable, if_pos notOwner, bind_assoc]
  refine AuthorizationOp.perform_bind_settles.trans ?_
  exact Settles.throw_iff

/-- The grant by a manager who is not the owner. -/
theorem addUserRole_byManager
    {roleName : String}
    {outcome : Except AppError Unit}
    (member : group ∈ before.groups.rows)
    (notOwner : caller ≠ group.ownerId)
    (other : userId ≠ caller) :
    Settles authorizationHost (addUserRole group.id caller userId roleName)
        before outcome after ↔
      outcome = .error includesUnbound ∧ after = before := by
  unfold addUserRole
  rw [if_neg other.symm]
  refine AuthorizationOp.perform_bind_settles.trans ?_
  refine (findById_settles member).trans ?_
  rw [checkGrantable, if_pos notOwner]
  exact Settles.throw_iff

end AuthorizationService

/-- A member other than the owner has a managing role in the group. -/
structure Manages
    (state : AuthorizationState)
    (group : Group)
    (caller : Nat)
    (role : String) :
    Prop where
  member : group ∈ state.groups.rows
  notOwner : caller ≠ group.ownerId
  holds : role ∈ state.rolesOf group.id caller

/-- Only the owner may decide on this user: the owner, or one of the managers. -/
def IsProtected (state : AuthorizationState) (group : Group) (userId : Nat) : Prop :=
  userId = group.ownerId ∨ ∃ role ∈ ROLES, role ∈ state.rolesOf group.id userId

/-- The user is a member of the group. -/
def IsMember (state : AuthorizationState) (group : Group) (userId : Nat) : Prop :=
  ∃ row ∈ state.userGroups.rows, row.groupId = group.id ∧ row.userId = userId

instance (state : AuthorizationState) (group : Group) (userId : Nat) :
    Decidable (IsProtected state group userId) :=
  inferInstanceAs (Decidable (_ ∨ _))

instance (state : AuthorizationState) (group : Group) (userId : Nat) :
    Decidable (IsMember state group userId) :=
  inferInstanceAs (Decidable (∃ row ∈ _, _))

/-- The removal resolves and leaves no membership of the user. -/
def RemovalWorks
    (state : AuthorizationState)
    (group : Group)
    (caller userId : Nat) :
    Prop :=
  ∃ after,
    Settles authorizationHost
        (AuthorizationService.deleteUserFromGroup group.id caller userId)
        state (.ok ()) after ∧
      ¬IsMember after group userId

/-- The removal rejects with `AccessDenied` and changes nothing. -/
def RemovalDenied
    (state : AuthorizationState)
    (group : Group)
    (caller userId : Nat) :
    Prop :=
  ∃ message,
    Settles authorizationHost
      (AuthorizationService.deleteUserFromGroup group.id caller userId)
      state (.error (.accessDenied message)) state

/-- The grant resolves and adds the role to the user, and nothing else. -/
def GrantWorks
    (state : AuthorizationState)
    (group : Group)
    (caller userId : Nat)
    (roleName : String) :
    Prop :=
  ∃ after,
    Settles authorizationHost
        (AuthorizationService.addUserRole group.id caller userId roleName)
        state (.ok ()) after ∧
      ∀ groupId other,
        (after.rolesOf groupId other).Perm
          (if groupId = group.id ∧ other = userId then
            roleName :: state.rolesOf groupId other
          else
            state.rolesOf groupId other)

/--
No manager who does not own the group gets what delegated management promises:
an unprotected member is not removed, gets no role that managers may grant,
and the removal of a protected user is not denied.
-/
theorem delegatedManagement_never
    (state : AuthorizationState)
    (group : Group)
    (caller userId : Nat)
    (other : userId ≠ caller) :
    (Manages state group caller "group_manager" →
        IsMember state group userId → ¬IsProtected state group userId →
        ¬RemovalWorks state group caller userId) ∧
      (Manages state group caller "role_manager" →
        IsMember state group userId → ¬IsProtected state group userId →
        ∀ role ∈ state.roles.rows, role.name ∉ ROLES →
          role.name ∉ state.rolesOf group.id userId →
          ¬GrantWorks state group caller userId role.name) ∧
      (Manages state group caller "group_manager" →
        IsProtected state group userId →
        ¬RemovalDenied state group caller userId) := by
  refine ⟨?_, ?_, ?_⟩
  · rintro manages - - ⟨after, settles, -⟩
    have rejects :=
      (AuthorizationService.deleteUserFromGroup_byManager manages.member
        manages.notOwner other).mp settles
    cases rejects.1
  · rintro manages - - role - - - ⟨after, settles, -⟩
    have rejects :=
      (AuthorizationService.addUserRole_byManager manages.member
        manages.notOwner other).mp settles
    cases rejects.1
  · rintro manages - ⟨message, settles⟩
    have rejects :=
      (AuthorizationService.deleteUserFromGroup_byManager manages.member
        manages.notOwner other).mp settles
    cases rejects.1

/-- Three users and three roles, before the first group. -/
def threeUsers : AuthorizationState :=
  .initial
    ((do
      let users ← UserTable.insert (.single ⟨"ada", "Ada", "ada@host", "#"⟩)
        ⟨"bob", "Bob", "bob@host", "#"⟩
      users.insert ⟨"cyn", "Cyn", "cyn@host", "#"⟩).toOption.getD .empty)
    (((Table.empty.insert (Role.mk · "group_manager") fun _ => rfl).insert
      (Role.mk · "role_manager") fun _ => rfl).insert
      (Role.mk · "reader") fun _ => rfl)
    .empty []

/-- The first user makes the second one a manager in a group with the third. -/
def delegatingRequests : List AuthorizationRequest :=
  [⟨1, .createGroup "readers"⟩, ⟨1, .addUserToGroup 1 2⟩, ⟨1, .addUserToGroup 1 3⟩,
    ⟨1, .addUserRole 1 2 "group_manager"⟩, ⟨1, .addUserRole 1 2 "role_manager"⟩]

/-- A state that requests lead to, with a manager and an unprotected member. -/
theorem manages_reachable :
    ∃ final,
      Run AuthorizationHandled threeUsers delegatingRequests final ∧
        (∀ role ∈ ROLES, Manages final ⟨1, "readers", 1⟩ 2 role) ∧
        IsMember final ⟨1, "readers", 1⟩ 3 ∧
        ¬IsProtected final ⟨1, "readers", 1⟩ 3 ∧
        ⟨3, "reader"⟩ ∈ final.roles.rows ∧
        final.rolesOf 1 3 = [] := by
  have run :=
    Run.snoc (Run.snoc (Run.snoc (Run.snoc (Run.single
      (show AuthorizationHandled threeUsers ⟨1, .createGroup "readers"⟩ _
        from ⟨_, Settles.of_runAlone [(), (), ()] rfl⟩))
      (show AuthorizationHandled _ ⟨1, .addUserToGroup 1 2⟩ _
        from ⟨_, Settles.of_runAlone [(), (), (), ()] rfl⟩))
      (show AuthorizationHandled _ ⟨1, .addUserToGroup 1 3⟩ _
        from ⟨_, Settles.of_runAlone [(), (), (), ()] rfl⟩))
      (show AuthorizationHandled _ ⟨1, .addUserRole 1 2 "group_manager"⟩ _
        from ⟨_, Settles.of_runAlone [(), (), (), (), (), ()] rfl⟩))
      (show AuthorizationHandled _ ⟨1, .addUserRole 1 2 "role_manager"⟩ _
        from ⟨_, Settles.of_runAlone [(), (), (), (), (), ()] rfl⟩)
  refine ⟨_, run, ?_, ?_, ?_, ?_, ?_⟩
  · intro role isManaging
    simp [ROLES] at isManaging
    rcases isManaging with rfl | rfl
    · exact ⟨by decide, by decide, by decide⟩
    · exact ⟨by decide, by decide, by decide⟩
  · decide
  · decide
  · decide
  · decide

theorem delegatedManagement_never_readers :
    ∃ final,
      Run AuthorizationHandled threeUsers delegatingRequests final ∧
        ¬RemovalWorks final ⟨1, "readers", 1⟩ 2 3 ∧
        ¬GrantWorks final ⟨1, "readers", 1⟩ 2 3 "reader" ∧
        ¬RemovalDenied final ⟨1, "readers", 1⟩ 2 1 := by
  obtain ⟨final, run, manages, isMember, unprotected, isRole, noRoles⟩ :=
    manages_reachable
  have never := delegatedManagement_never final ⟨1, "readers", 1⟩ 2 3 (by decide)
  have managesGroup := manages "group_manager" (by decide)
  have managesRoles := manages "role_manager" (by decide)
  refine ⟨final, run, never.1 managesGroup isMember unprotected, ?_, ?_⟩
  · exact never.2.1 managesRoles isMember unprotected ⟨3, "reader"⟩ isRole
      (by decide) (by simp [noRoles])
  · exact (delegatedManagement_never final ⟨1, "readers", 1⟩ 2 1 (by decide)).2.2
      managesGroup (.inl rfl)

/-- The manager's removal of the third user raises the `TypeError`. -/
theorem delegatedRemoval_rejects :
    ∃ final,
      Run AuthorizationHandled threeUsers delegatingRequests final ∧
        Manages final ⟨1, "readers", 1⟩ 2 "group_manager" ∧
        IsMember final ⟨1, "readers", 1⟩ 3 ∧
        ¬IsProtected final ⟨1, "readers", 1⟩ 3 ∧
        Settles authorizationHost (AuthorizationService.deleteUserFromGroup 1 2 3)
          final (.error includesUnbound) final ∧
        ¬RemovalWorks final ⟨1, "readers", 1⟩ 2 3 := by
  obtain ⟨final, run, manages, isMember, unprotected, -⟩ := manages_reachable
  have managesGroup := manages "group_manager" (by decide)
  have rejects :
      ∀ outcome after,
        Settles authorizationHost (AuthorizationService.deleteUserFromGroup 1 2 3)
            final outcome after ↔
          outcome = .error includesUnbound ∧ after = final :=
    fun _ _ =>
      AuthorizationService.deleteUserFromGroup_byManager managesGroup.member
        managesGroup.notOwner (by decide)
  refine ⟨final, run, managesGroup, isMember, unprotected,
    (rejects _ _).mpr ⟨rfl, rfl⟩, ?_⟩
  rintro ⟨after, settles, -⟩
  cases ((rejects _ _).mp settles).1

end Prescott
