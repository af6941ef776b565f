import Prescott.AsyncProgram
import Prescott.Users

namespace Prescott

/-!
# Groups, memberships and roles

The tables behind authorization with the constraints of their migrations, and
the statements of the data access objects on them.  Deleting a group deletes
its memberships, and deleting a membership deletes its roles.
-/

/-- A row of `groups`. -/
structure Group where
  id : Nat
  name : String
  ownerId : Nat
  deriving Repr, DecidableEq

/-- A row of `user_groups`. -/
structure UserGroup where
  id : Nat
  groupId : Nat
  userId : Nat
  deriving Repr, DecidableEq

/--
A row of `user_roles`.  The table has no key of its own; `rowId` only tells
equal rows apart and is read by no statement.
-/
structure UserRole where
  rowId : Nat
  userGroupId : Nat
  roleId : Nat
  deriving Repr, DecidableEq

/-- A row of `roles`. -/
structure Role where
  id : Nat
  name : String
  deriving Repr, DecidableEq

/-- A row of `permissions`. -/
structure Permission where
  id : Nat
  name : String
  deriving Repr, DecidableEq

/-- A row of `role_permissions`. -/
structure RolePermission where
  roleId : Nat
  permissionId : Nat
  deriving Repr, DecidableEq

instance : Keyed Group :=
  ⟨Group.id⟩

instance : Keyed UserGroup :=
  ⟨UserGroup.id⟩

instance : Keyed UserRole :=
  ⟨UserRole.rowId⟩

instance : Keyed Role :=
  ⟨Role.id⟩

instance : Keyed Permission :=
  ⟨Permission.id⟩

/-- The tables that the authorization plugin reads and writes. -/
structure AuthorizationState where
  users : UserTable
  groups : Table Group
  userGroups : Table UserGroup
  userRoles : Table UserRole
  roles : Table Role
  permissions : Table Permission
  rolePermissions : List RolePermission

namespace AuthorizationState

/-- The tables after the migrations, with some users and no group. -/
def initial
    (users : UserTable)
    (roles : Table Role)
    (permissions : Table Permission)
    (rolePermissions : List RolePermission) :
    AuthorizationState where
  users := users
  groups := .empty
  userGroups := .empty
  userRoles := .empty
  roles := roles
  permissions := permissions
  rolePermissions := rolePermissions

/-- `select roles.name` of a user in a group, joined over three tables. -/
def rolesOf (state : AuthorizationState) (groupId userId : Nat) :
    List String :=
  state.userRoles.rows.flatMap fun userRole =>
    (state.userGroups.select fun userGroup =>
        userGroup.id == userRole.userGroupId &&
          (userGroup.groupId == groupId && userGroup.userId == userId)).flatMap
      fun _ =>
        (state.roles.select fun role => role.id == userRole.roleId).map
          Role.name

/-- `select permissions.name` of a user in a group, joined over four tables. -/
def permissionsOf (state : AuthorizationState) (groupId userId : Nat) :
    List String :=
  state.rolePermissions.flatMap fun rolePermission =>
    (state.permissions.select fun permission =>
        permission.id == rolePermission.permissionId).flatMap
      fun permission =>
        (state.userRoles.select fun userRole =>
            userRole.roleId == rolePermission.roleId).flatMap
          fun userRole =>
            (state.userGroups.select fun userGroup =>
                userGroup.id == userRole.userGroupId &&
                  (userGroup.groupId == groupId &&
                    userGroup.userId == userId)).map
              fun _ => permission.name

/-- Delete memberships; their roles follow by the foreign key. -/
def deleteUserGroups
    (state : AuthorizationState)
    (condition : UserGroup → Bool) :
    AuthorizationState :=
  { state with
    userGroups := state.userGroups.deleteWhere condition
    userRoles :=
      state.userRoles.deleteWhere fun userRole =>
        state.userGroups.rows.any fun userGroup =>
          condition userGroup && userGroup.id == userRole.userGroupId }

/-- Delete a group; its memberships follow by the foreign key. -/
def deleteGroup (state : AuthorizationState) (id : Nat) :
    AuthorizationState :=
  deleteUserGroups
    { state with groups := state.groups.deleteWhere fun group => group.id == id }
    fun userGroup => userGroup.groupId == id

end AuthorizationState

/-- The statements that the authorization plugin awaits. -/
inductive AuthorizationOp where
  | findUserById (id : Nat)
  | findGroupByName (name : String)
  | findGroupById (id : Nat)
  | findUserGroup (groupId userId : Nat)
  | checkUserInGroup (groupId userId : Nat)
  | insertUserGroup (groupId userId : Nat)
  | deleteUserGroup (groupId userId : Nat)
  | insertGroup (name : String) (ownerId : Nat)
  | deleteGroupById (id : Nat)
  | findRoleByName (name : String)
  | findRolesByUserAndGroup (groupId userId : Nat)
  | insertUserRole (userGroupId roleId : Nat)
  | deleteUserRole (userGroupId roleId : Nat)
  | findPermissionsByUserAndGroup (groupId userId : Nat)
  deriving Repr, DecidableEq

/-- The types these statements resolve with. -/
abbrev AuthorizationOp.Result : AuthorizationOp → Type
  | .findUserById _ => Option User
  | .findGroupByName _ => Option Group
  | .findGroupById _ => Option Group
  | .findUserGroup _ _ => Option UserGroup
  | .checkUserInGroup _ _ => Bool
  | .insertUserGroup _ _ => Unit
  | .deleteUserGroup _ _ => Unit
  | .insertGroup _ _ => Nat
  | .deleteGroupById _ => Unit
  | .findRoleByName _ => Option Role
  | .findRolesByUserAndGroup _ _ => List String
  | .insertUserRole _ _ => Unit
  | .deleteUserRole _ _ => Unit
  | .findPermissionsByUserAndGroup _ _ => List String

/-- The signature of the authorization plugin. -/
abbrev authorizationSignature : Signature where
  Op := AuthorizationOp
  Result := AuthorizationOp.Result

namespace AuthorizationState

/-- `insert` into `user_groups`, whose foreign keys have to exist. -/
def insertUserGroup
    (state : AuthorizationState)
    (groupId userId : Nat) :
    Except AppError Unit × AuthorizationState :=
  if (state.users.table.first fun user => user.id == userId).isSome then
    if (state.groups.first fun group => group.id == groupId).isSome then
      (.ok (),
        { state with
          userGroups :=
            state.userGroups.insert
              (fun id => { id, groupId, userId }) (fun _ => rfl) })
    else
      (.error (.foreignKeyViolation "user_groups.group_id"), state)
  else
    (.error (.foreignKeyViolation "user_groups.user_id"), state)

/-- `insert` into `groups`: the name is new and the owner exists. -/
def insertGroup
    (state : AuthorizationState)
    (name : String)
    (ownerId : Nat) :
    Except AppError Nat × AuthorizationState :=
  if (state.groups.first fun group => group.name == name).isSome then
    (.error (.uniqueViolation "groups.name"), state)
  else
    if (state.users.table.first fun user => user.id == ownerId).isSome then
      (.ok state.groups.nextId,
        { state with
          groups :=
            state.groups.insert
              (fun id => { id, name, ownerId }) (fun _ => rfl) })
    else
      (.error (.foreignKeyViolation "groups.owner_id"), state)

/-- `insert` into `user_roles`, whose foreign keys have to exist. -/
def insertUserRole
    (state : AuthorizationState)
    (userGroupId roleId : Nat) :
    Except AppError Unit × AuthorizationState :=
  if (state.userGroups.first fun row => row.id == userGroupId).isSome then
    if (state.roles.first fun role => role.id == roleId).isSome then
      (.ok (),
        { state with
          userRoles :=
            state.userRoles.insert
              (fun rowId => { rowId, userGroupId, roleId }) (fun _ => rfl) })
    else
      (.error (.foreignKeyViolation "user_roles.role_id"), state)
  else
    (.error (.foreignKeyViolation "user_roles.user_group_id"), state)

end AuthorizationState

/--
The answer and the effect of a statement.  The tasks are not among these tables:
that the deletion of a group with tasks breaks a foreign key is left out, so
more groups are deleted here than by the server.
-/
def AuthorizationOp.execute :
    (op : AuthorizationOp) →
    AuthorizationState →
    Except AppError op.Result × AuthorizationState
  | .findUserById id, state =>
      (.ok (state.users.table.first fun user => user.id == id), state)
  | .findGroupByName name, state =>
      (.ok (state.groups.first fun group => group.name == name), state)
  | .findGroupById id, state =>
      (.ok (state.groups.first fun group => group.id == id), state)
  | .findUserGroup groupId userId, state =>
      (.ok (state.userGroups.first fun row =>
        row.groupId == groupId && row.userId == userId), state)
  | .checkUserInGroup groupId userId, state =>
      (.ok (state.userGroups.first fun row =>
        row.groupId == groupId && row.userId == userId).isSome, state)
  | .insertUserGroup groupId userId, state =>
      state.insertUserGroup groupId userId
  | .deleteUserGroup groupId userId, state =>
      (.ok (), state.deleteUserGroups fun row =>
        row.groupId == groupId && row.userId == userId)
  | .insertGroup name ownerId, state => state.insertGroup name ownerId
  | .deleteGroupById id, state => (.ok (), state.deleteGroup id)
  | .findRoleByName name, state =>
      (.ok (state.roles.first fun role => role.name == name), state)
  | .findRolesByUserAndGroup groupId userId, state =>
      (.ok (state.rolesOf groupId userId), state)
  | .insertUserRole userGroupId roleId, state =>
      state.insertUserRole userGroupId roleId
  | .deleteUserRole userGroupId roleId, state =>
      (.ok (),
        { state with
          userRoles :=
            state.userRoles.deleteWhere fun row =>
              row.userGroupId == userGroupId && row.roleId == roleId })
  | .findPermissionsByUserAndGroup groupId userId, state =>
      (.ok (state.permissionsOf groupId userId), state)

/-- The host of the authorization plugin; a statement has one effect. -/
def authorizationHost :
    Host authorizationSignature AppError AuthorizationState Unit :=
  fun op _ state => some (op.execute state)

end Prescott
