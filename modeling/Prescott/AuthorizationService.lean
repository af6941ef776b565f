import Prescott.Authorization

namespace Prescott

/-!
# The authorization service and its hooks

The programs of `AuthorizationService`, of the hooks that guard the routes and
of the routes themselves.  A hook that replies with an error is a program that
rejects with it: the handler does not run.
-/

/-- The programs of the authorization plugin. -/
abbrev AuthorizationProgram (α : Type) :=
  Async authorizationSignature AppError α

/-- Await one statement. -/
abbrev AuthorizationOp.perform (op : AuthorizationOp) :
    AuthorizationProgram op.Result :=
  @Async.perform authorizationSignature AppError op

/-- `findById` of the user data access object. -/
def UserService.findById (userId : Nat) :
    AuthorizationProgram (Option User) :=
  AuthorizationOp.perform (.findUserById userId)

namespace GroupDao

/-- The group with a name. -/
def findByName (name : String) :
    AuthorizationProgram (Option Group) :=
  AuthorizationOp.perform (.findGroupByName name)

/-- The group with an identifier. -/
def findById (id : Nat) :
    AuthorizationProgram (Option Group) :=
  AuthorizationOp.perform (.findGroupById id)

/-- The membership row of a user in a group. -/
def findUserGroup (groupId userId : Nat) :
    AuthorizationProgram (Option UserGroup) :=
  AuthorizationOp.perform (.findUserGroup groupId userId)

/-- Whether a user is a member of a group. -/
def checkUserInGroup (groupId userId : Nat) :
    AuthorizationProgram Bool :=
  AuthorizationOp.perform (.checkUserInGroup groupId userId)

/-- Insert a membership row. -/
def addUser (groupId userId : Nat) :
    AuthorizationProgram Unit :=
  AuthorizationOp.perform (.insertUserGroup groupId userId)

/-- Delete a membership row. -/
def deleteUser (groupId userId : Nat) :
    AuthorizationProgram Unit :=
  AuthorizationOp.perform (.deleteUserGroup groupId userId)

/-- Insert a group and return its identifier. -/
def create (name : String) (ownerId : Nat) :
    AuthorizationProgram Nat :=
  AuthorizationOp.perform (.insertGroup name ownerId)

/-- Delete a group with all that refers to it. -/
def deleteById (id : Nat) :
    AuthorizationProgram Unit :=
  AuthorizationOp.perform (.deleteGroupById id)

end GroupDao

namespace RoleDao

/-- The role with a name. -/
def findByName (name : String) :
    AuthorizationProgram (Option Role) :=
  AuthorizationOp.perform (.findRoleByName name)

/-- The names of the roles of a user in a group. -/
def findByUserAndGroup (groupId userId : Nat) :
    AuthorizationProgram (List String) :=
  AuthorizationOp.perform (.findRolesByUserAndGroup groupId userId)

/-- Give a member a role. -/
def add (userGroupId roleId : Nat) :
    AuthorizationProgram Unit :=
  AuthorizationOp.perform (.insertUserRole userGroupId roleId)

/-- Take a role from a member. -/
def remove (userGroupId roleId : Nat) :
    AuthorizationProgram Unit :=
  AuthorizationOp.perform (.deleteUserRole userGroupId roleId)

end RoleDao

/-- The names of the permissions of a user in a group. -/
def PermissionDao.findByUserAndGroup (groupId userId : Nat) :
    AuthorizationProgram (List String) :=
  AuthorizationOp.perform (.findPermissionsByUserAndGroup groupId userId)

/-- Destructuring `undefined` raises a `TypeError`. -/
def destructure {α : Type} (property : String) :
    Option α → AuthorizationProgram α
  | some value => pure value
  | none =>
      throw (.typeError s!"Cannot destructure property '{property}'")

namespace RoleService

/-- Give a user of a group a role. -/
def add (groupId userId roleId : Nat) :
    AuthorizationProgram Unit := do
  let userGroup ← GroupDao.findUserGroup groupId userId
  let userGroup ← destructure "id" userGroup
  RoleDao.add userGroup.id roleId

/-- Take a role from a user of a group. -/
def remove (groupId userId roleId : Nat) :
    AuthorizationProgram Unit := do
  let userGroup ← GroupDao.findUserGroup groupId userId
  let userGroup ← destructure "id" userGroup
  RoleDao.remove userGroup.id roleId

end RoleService

/-- The roles that only a group owner may take away. -/
def ROLES : List String :=
  ["group_manager", "role_manager"]

/-- What the first call of the unbound method raises. -/
def includesUnbound : AppError :=
  .typeError "Cannot convert undefined or null to object"

/--
`ROLES.some(roles.includes)`.  The method is passed without its receiver, so
its first call reads `undefined`; `some` returns without a call only on an
empty array.
-/
def someUnbound (array : List String) : AuthorizationProgram Bool :=
  match array with
  | [] => pure false
  | _ :: _ => throw includesUnbound

namespace AuthorizationService

/-- Create a group and make its owner a member. -/
def createGroup (groupName : String) (userId : Nat) :
    AuthorizationProgram Nat := do
  match ← GroupDao.findByName groupName with
  | some _ =>
      throw (.entityConflict "Group already exists")
  | none =>
      let groupId ← GroupDao.create groupName userId
      GroupDao.addUser groupId userId
      return groupId

/-- Delete a group; the hook has checked the caller. -/
def deleteGroup (groupId : Nat) :
    AuthorizationProgram Unit :=
  GroupDao.deleteById groupId

/-- Add an existing user to a group it is not in. -/
def addUserToGroup (groupId userId : Nat) :
    AuthorizationProgram Unit := do
  match ← UserService.findById userId with
  | none =>
      throw (.entityNotFound "User does not exist")
  | some _ =>
      match ← GroupDao.checkUserInGroup groupId userId with
      | true =>
          throw (.entityConflict "User already is a group member")
      | false =>
          GroupDao.addUser groupId userId

/-- What `deleteUserFromGroup` demands of a manager who is not the owner. -/
def checkRemovable (groupId ownerId managerId userId : Nat) :
    AuthorizationProgram Unit :=
  if managerId ≠ ownerId then do
    let _ ← RoleDao.findByUserAndGroup groupId userId
    let protectedRole ← someUnbound ROLES
    if protectedRole || userId == ownerId then
      throw (.accessDenied "User do not have required privileges")
    else
      pure ()
  else
    pure ()

/-- Remove a user from a group; a caller who is not its owner is checked first. -/
def deleteUserFromGroup (groupId managerId userId : Nat) :
    AuthorizationProgram Unit :=
  if managerId = userId then
    throw (.entityConflict "User can not the leave group in such a way")
  else do
    let group ← GroupDao.findById groupId
    let group ← destructure "ownerId" group
    checkRemovable groupId group.ownerId managerId userId
    GroupDao.deleteUser groupId userId

/-- The guard `managerId !== ownerId && ROLES.some(userRoles.includes)`. -/
def checkGrantable (ownerId managerId : Nat) :
    AuthorizationProgram Unit :=
  if managerId ≠ ownerId then do
    let protectedRole ← someUnbound ROLES
    if protectedRole then
      throw (.accessDenied "User must be an owner to add this role")
    else
      pure ()
  else
    pure ()

/-- Give a member a role; a caller who is not the owner is checked first. -/
def addUserRole
    (groupId managerId userId : Nat)
    (roleName : String) :
    AuthorizationProgram Unit :=
  if managerId = userId then
    throw (.entityConflict "User can not add role to himself")
  else do
    let userRoles ← RoleDao.findByUserAndGroup groupId userId
    let group ← GroupDao.findById groupId
    let group ← destructure "ownerId" group
    checkGrantable group.ownerId managerId
    if userRoles.contains roleName then
      throw (.accessDenied "User already has this role")
    else do
      let role ← RoleDao.findByName roleName
      let role ← destructure "id" role
      RoleService.add groupId userId role.id

/-- Take a role from a member of the group. -/
def deleteUserRole
    (groupId managerId userId : Nat)
    (roleName : String) :
    AuthorizationProgram Unit :=
  if managerId = userId then
    throw (.entityConflict "User can not remove own role")
  else do
    let group ← GroupDao.findById groupId
    let group ← destructure "ownerId" group
    if managerId ≠ group.ownerId ∧ ROLES.contains roleName then
      throw (.accessDenied "User must be an owner to remove this role")
    else do
      let role ← RoleDao.findByName roleName
      let role ← destructure "id" role
      RoleService.remove groupId userId role.id

end AuthorizationService

namespace AuthHooks

/-- Whether the user owns the group, which has to exist. -/
def isGroupOwnerThrowable (groupId userId : Nat) :
    AuthorizationProgram Bool := do
  match ← GroupDao.findById groupId with
  | none =>
      throw (.http (.notFound "Group does not exist"))
  | some group =>
      return group.ownerId == userId

/-- Let only the owner of the group through. -/
def groupOwnerHook (groupId userId : Nat) :
    AuthorizationProgram Unit := do
  match ← isGroupOwnerThrowable groupId userId with
  | true =>
      pure ()
  | false =>
      throw (.http (.unauthorized "User is not a group owner"))

/-- Let the owner and whoever has the permission through. -/
def permissionHook
    (permission : String)
    (groupId userId : Nat) :
    AuthorizationProgram Unit := do
  match ← isGroupOwnerThrowable groupId userId with
  | true =>
      pure ()
  | false =>
      let permissions ← PermissionDao.findByUserAndGroup groupId userId
      if permissions.contains permission then
        pure ()
      else
        throw (.http
          (.unauthorized "User do not have required permission"))

/-- Let the owner and whoever has the role through. -/
def roleHook
    (role : String)
    (groupId userId : Nat) :
    AuthorizationProgram Unit := do
  match ← isGroupOwnerThrowable groupId userId with
  | true =>
      pure ()
  | false =>
      let roles ← RoleDao.findByUserAndGroup groupId userId
      if roles.contains role then
        pure ()
      else
        throw (.http
          (.unauthorized "User do not have required privileges"))

end AuthHooks

/-- The routes of the authorization plugin with their parameters. -/
inductive AuthorizationRoute where
  | createGroup (groupName : String)
  | deleteGroup (groupId : Nat)
  | addUserToGroup (groupId userId : Nat)
  | deleteUserFromGroup (groupId userId : Nat)
  | addUserRole (groupId userId : Nat) (role : String)
  | deleteUserRole (groupId userId : Nat) (role : String)
  deriving Repr, DecidableEq

/-- A request with the user identifier of its validated access token. -/
structure AuthorizationRequest where
  caller : Nat
  route : AuthorizationRoute
  deriving Repr, DecidableEq

/-- What a handler sends: the identifier of a new group or an empty body. -/
inductive AuthorizationReply where
  | groupId (id : Nat)
  | done
  deriving Repr, DecidableEq

/-- The routes: first the hook, then the handler. -/
def authorizationRoutes (request : AuthorizationRequest) :
    AuthorizationProgram AuthorizationReply :=
  match request.route with
  | .createGroup groupName => do
      let groupId ←
        AuthorizationService.createGroup groupName request.caller
      return .groupId groupId
  | .deleteGroup groupId => do
      AuthHooks.groupOwnerHook groupId request.caller
      AuthorizationService.deleteGroup groupId
      return .done
  | .addUserToGroup groupId userId => do
      AuthHooks.roleHook "group_manager" groupId request.caller
      AuthorizationService.addUserToGroup groupId userId
      return .done
  | .deleteUserFromGroup groupId userId => do
      AuthHooks.roleHook "group_manager" groupId request.caller
      AuthorizationService.deleteUserFromGroup groupId request.caller userId
      return .done
  | .addUserRole groupId userId role => do
      AuthHooks.roleHook "role_manager" groupId request.caller
      AuthorizationService.addUserRole groupId request.caller userId role
      return .done
  | .deleteUserRole groupId userId role => do
      AuthHooks.roleHook "role_manager" groupId request.caller
      AuthorizationService.deleteUserRole groupId request.caller userId role
      return .done

/-- Any statement but the inserts that a group and its members are made of. -/
def AuthorizationOp.AddsNothing : AuthorizationOp → Prop
  | .insertUserGroup _ _ | .insertUserRole _ _ | .insertGroup _ _ => False
  | _ => True

section AddsNothing

variable {groupId userId callerId : Nat}

theorem destructure_addsNothing
    {α : Type}
    (property : String)
    (value : Option α) :
    (destructure property value).AwaitsOnly AuthorizationOp.AddsNothing := by
  cases value with
  | none => trivial
  | some found => trivial

namespace AuthHooks

theorem isGroupOwnerThrowable_addsNothing :
    (isGroupOwnerThrowable groupId userId).AwaitsOnly
      AuthorizationOp.AddsNothing := by
  refine .bind (.perform trivial) fun group => ?_
  cases group with
  | none => trivial
  | some group => trivial

theorem groupOwnerHook_addsNothing :
    (groupOwnerHook groupId userId).AwaitsOnly
      AuthorizationOp.AddsNothing := by
  refine .bind isGroupOwnerThrowable_addsNothing fun isOwner => ?_
  cases isOwner with
  | true => trivial
  | false => trivial

theorem roleHook_addsNothing
    {role : String} :
    (roleHook role groupId userId).AwaitsOnly
      AuthorizationOp.AddsNothing := by
  refine .bind isGroupOwnerThrowable_addsNothing fun isOwner => ?_
  cases isOwner with
  | true => trivial
  | false =>
      refine .bind (.perform trivial) fun roles => ?_
      split
      · trivial
      · trivial

end AuthHooks

namespace AuthorizationService

theorem checkGrantable_addsNothing
    {ownerId managerId : Nat} :
    (checkGrantable ownerId managerId).AwaitsOnly
      AuthorizationOp.AddsNothing := by
  unfold checkGrantable
  split
  · trivial
  · trivial

theorem deleteUserFromGroup_addsNothing :
    (deleteUserFromGroup groupId callerId userId).AwaitsOnly
      AuthorizationOp.AddsNothing := by
  unfold deleteUserFromGroup
  split
  · trivial
  · refine .bind (.perform trivial) fun group => ?_
    refine .bind (destructure_addsNothing _ _) fun group => ?_
    refine .bind ?_ fun _ => .perform trivial
    unfold checkRemovable
    split
    · exact .bind (.perform trivial) fun _ => trivial
    · trivial

theorem deleteUserRole_addsNothing
    {roleName : String} :
    (deleteUserRole groupId callerId userId roleName).AwaitsOnly
      AuthorizationOp.AddsNothing := by
  unfold deleteUserRole
  split
  · trivial
  · refine .bind (.perform trivial) fun group => ?_
    refine .bind (destructure_addsNothing _ _) fun group => ?_
    split
    · trivial
    · refine .bind (.perform trivial) fun role => ?_
      refine .bind (destructure_addsNothing _ _) fun role => ?_
      refine .bind (.perform trivial) fun userGroup => ?_
      exact .bind (destructure_addsNothing _ _) fun _ => .perform trivial

end AuthorizationService

end AddsNothing

end Prescott
