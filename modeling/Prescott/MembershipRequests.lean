import Prescott.AuthorizationService
import Prescott.AsyncInterleaving

namespace Prescott

/-!
# Requests that add memberships and roles

The requests to the authorization routes run concurrently.  Seen from outside,
one that adds a membership or a role first reads whether it is there and then
inserts it, in two statements or more; any other one inserts neither.
-/

/-- The authorization routes over their tables. -/
def authorizationServices :
    Service authorizationSignature AppError AuthorizationState Unit
      AuthorizationRequest AuthorizationReply where
  body := authorizationRoutes
  host := authorizationHost

/-- How far a request is with what it adds. -/
inductive MembershipPhase where
  /-- The group is made, or the hook reads it. -/
  | starting
  /-- The hook has found the group. -/
  | hooked
  /-- `checkUserInGroup` is awaited. -/
  | checking (groupId userId : Nat)
  /-- The membership is not there and is inserted next. -/
  | inserting (groupId userId : Nat)
  /-- The roles of the user are read next. -/
  | reading (groupId userId : Nat) (roleName : String)
  /-- The role is not there; `findById` of the group is awaited. -/
  | checked (groupId userId : Nat) (roleName : String)
  /-- The caller owns the group; the role is looked up. -/
  | allowed (groupId userId : Nat) (roleName : String)
  | locating (groupId userId : Nat) (roleName : String) (roleId : Nat)
  | granting (groupId userId : Nat) (roleName : String) (userGroupId roleId : Nat)
  /-- Nothing is added any more. -/
  | working
  deriving Repr, DecidableEq

namespace MembershipPhase

/-- The role that is on its way, and to whom. -/
def grants : MembershipPhase → Option (Nat × Nat × String)
  | checked groupId userId roleName | allowed groupId userId roleName
  | locating groupId userId roleName _
  | granting groupId userId roleName _ _ => some (groupId, userId, roleName)
  | _ => none

/-- Where a request begins. -/
def start (request : AuthorizationRequest) : MembershipPhase :=
  match request.route with
  | .createGroup _ | .addUserToGroup _ _ | .addUserRole _ _ _ => starting
  | _ => working

/-- What may be awaited in a phase. -/
def permits (request : AuthorizationRequest) : MembershipPhase → AuthorizationOp → Prop
  | starting, op =>
      match request.route with
      | .createGroup name =>
          op = .findGroupByName name ∨ op = .insertGroup name request.caller
      | .addUserToGroup groupId _ | .addUserRole groupId _ _ =>
          op = .findGroupById groupId
      | _ => False
  | hooked, op =>
      match request.route with
      | .addUserToGroup groupId userId =>
          op = .findRolesByUserAndGroup groupId request.caller ∨ op = .findUserById userId
      | .addUserRole groupId _ _ =>
          op = .findRolesByUserAndGroup groupId request.caller
      | _ => False
  | checking groupId userId, op => op = .checkUserInGroup groupId userId
  | inserting groupId userId, op => op = .insertUserGroup groupId userId
  | reading groupId userId _, op => op = .findRolesByUserAndGroup groupId userId
  | checked groupId _ _, op => op = .findGroupById groupId
  | allowed _ _ roleName, op => op = .findRoleByName roleName
  | locating groupId userId _ _, op => op = .findUserGroup groupId userId
  | granting _ _ _ userGroupId roleId, op => op = .insertUserRole userGroupId roleId
  | working, op => op.AddsNothing

/-- After the hook: a role is added to another user, whose roles are read. -/
def admitted (request : AuthorizationRequest) : MembershipPhase :=
  match request.route with
  | .addUserRole groupId userId roleName =>
      if request.caller = userId then working else reading groupId userId roleName
  | _ => hooked

/-- The phase after the answer to a statement. -/
def advance (request : AuthorizationRequest) (phase : MembershipPhase) :
    (op : AuthorizationOp) → Except AppError op.Result → MembershipPhase
  | .findGroupByName _, .ok _ => phase
  | .findGroupById _, .ok (some group) =>
      match phase with
      | starting => if group.ownerId = request.caller then admitted request else hooked
      | checked groupId userId roleName =>
          if group.ownerId = request.caller then
            allowed groupId userId roleName
          else
            working
      | _ => working
  | .insertGroup _ ownerId, .ok groupId => inserting groupId ownerId
  | .findRolesByUserAndGroup _ _, .ok roles =>
      match phase with
      | hooked => admitted request
      | reading groupId userId roleName =>
          if roles.contains roleName then
            working
          else
            checked groupId userId roleName
      | _ => working
  | .findUserById _, .ok (some _) =>
      match phase, request.route with
      | hooked, .addUserToGroup groupId userId => checking groupId userId
      | _, _ => working
  | .checkUserInGroup _ _, .ok false =>
      match phase with
      | checking groupId userId => inserting groupId userId
      | _ => working
  | .findRoleByName _, .ok (some role) =>
      match phase with
      | allowed groupId userId roleName => locating groupId userId roleName role.id
      | _ => working
  | .findUserGroup _ _, .ok (some userGroup) =>
      match phase with
      | locating groupId userId roleName roleId =>
          granting groupId userId roleName userGroup.id roleId
      | _ => working
  | _, _ => working

/-- The requests of the authorization plugin, by what they add. -/
abbrev protocol :
    Protocol authorizationSignature AppError AuthorizationRequest
      AuthorizationReply where
  Phase := MembershipPhase
  start := start
  permits := permits
  advance := advance
  finishes := fun _ _ _ => True

variable {request : AuthorizationRequest}

/-- A request that adds nothing goes on adding nothing. -/
theorem advance_working
    {op : AuthorizationOp}
    (addsNothing : op.AddsNothing)
    (answer : Except AppError op.Result) :
    advance request working op answer = working := by
  cases op with
  | insertUserGroup groupId userId | insertUserRole userGroupId roleId
  | insertGroup groupName ownerId =>
      exact addsNothing.elim
  | findUserById userId | findGroupById groupId | findGroupByName groupName
  | checkUserInGroup groupId userId
  | findRoleByName roleName | findUserGroup groupId userId =>
      rcases answer with _ | value
      · rfl
      · cases value <;> rfl
  | _ => cases answer <;> rfl

theorem leads_working
    {α : Type}
    {program : AuthorizationProgram α}
    (only : program.AwaitsOnly AuthorizationOp.AddsNothing) :
    protocol.Leads request (fun _ phase => phase = working) working program := by
  induction program with
  | settled outcome => rfl
  | await op resume inductionHypothesis =>
      refine ⟨only.1, fun answer => ?_⟩
      change protocol.Leads request _ (advance request working op answer) _
      rw [advance_working only.1]
      exact inductionHypothesis answer (only.2 answer)

/-- Destructuring awaits nothing. -/
theorem leads_destructure
    {α β : Type}
    {property : String}
    {phase : MembershipPhase}
    {post : Except AppError β → MembershipPhase → Prop}
    {value : Option α}
    {next : α → AuthorizationProgram β}
    (found : ∀ result, value = some result →
      protocol.Leads request post phase (next result))
    (rejected : ∀ reason, post (.error reason) phase) :
    protocol.Leads request post phase (destructure property value >>= next) := by
  cases value with
  | none => exact rejected _
  | some result => exact found result rfl

/-- The other requests add nothing at all. -/
theorem authorizationRoutes_addsNothing
    (begins : start request = working) :
    (authorizationRoutes request).AwaitsOnly AuthorizationOp.AddsNothing := by
  obtain ⟨caller, route⟩ := request
  cases route with
  | createGroup groupName => cases begins
  | addUserToGroup groupId userId => cases begins
  | addUserRole groupId userId role => cases begins
  | deleteGroup groupId =>
      exact .bind AuthHooks.groupOwnerHook_addsNothing fun _ =>
        .bind (.perform trivial) fun _ => trivial
  | deleteUserFromGroup groupId userId =>
      exact .bind AuthHooks.roleHook_addsNothing fun _ =>
        .bind AuthorizationService.deleteUserFromGroup_addsNothing
          fun _ => trivial
  | deleteUserRole groupId userId role =>
      exact .bind AuthHooks.roleHook_addsNothing fun _ =>
        .bind AuthorizationService.deleteUserRole_addsNothing
          fun _ => trivial

/-- A request that is let through has been admitted by its hook. -/
theorem leads_roleHook
    {role : String}
    {groupId : Nat}
    (finds : permits request starting (.findGroupById groupId))
    (reads : permits request hooked (.findRolesByUserAndGroup groupId request.caller)) :
    protocol.Leads request
      (fun outcome phase => outcome = .ok () → phase = admitted request) starting
      (AuthHooks.roleHook role groupId request.caller) := by
  simp only [AuthHooks.roleHook, AuthHooks.isGroupOwnerThrowable, bind_assoc]
  refine Protocol.leads_perform_bind.mpr
    ⟨finds, fun found => ?_, fun _ rejected => by cases rejected⟩
  cases found with
  | none =>
      intro resolved
      cases resolved
  | some group =>
      rw [show protocol.advance request starting (.findGroupById groupId)
          (.ok (some group)) =
        if group.ownerId = request.caller then admitted request else hooked from rfl]
      simp only [pure_bind]
      by_cases isOwner : group.ownerId = request.caller
      · rw [if_pos isOwner, beq_iff_eq.mpr isOwner]
        exact fun _ => rfl
      · rw [if_neg isOwner, beq_eq_false_iff_ne.mpr isOwner]
        refine Protocol.leads_perform_bind.mpr
          ⟨reads, fun roles => ?_, fun _ rejected => by cases rejected⟩
        change protocol.Leads request _ (admitted request) _
        split
        · exact fun _ => rfl
        · intro resolved
          cases resolved

theorem conforms_createGroup
    {caller : Nat}
    {groupName : String} :
    protocol.Conforms ⟨caller, .createGroup groupName⟩ starting
      (authorizationRoutes ⟨caller, .createGroup groupName⟩) := by
  simp only [authorizationRoutes, AuthorizationService.createGroup, bind_assoc]
  refine Protocol.conforms_perform_bind.mpr
    ⟨.inl rfl, fun found => ?_, fun _ => trivial⟩
  cases found with
  | some group => trivial
  | none =>
      simp only [bind_assoc]
      refine Protocol.conforms_perform_bind.mpr
        ⟨.inr rfl, fun groupId => ?_, fun _ => trivial⟩
      exact Protocol.conforms_perform_bind.mpr
        ⟨rfl, fun _ => trivial, fun _ => trivial⟩

theorem conforms_addUserToGroup
    {caller groupId userId : Nat} :
    protocol.Conforms ⟨caller, .addUserToGroup groupId userId⟩ starting
      (authorizationRoutes ⟨caller, .addUserToGroup groupId userId⟩) := by
  have guarded :=
    @leads_roleHook ⟨caller, .addUserToGroup groupId userId⟩ "group_manager" groupId
      rfl (.inl rfl)
  refine guarded.bind ?_ fun _ _ _ => trivial
  intro _ phase isAdmitted
  obtain rfl : phase = hooked := isAdmitted rfl
  simp only [AuthorizationService.addUserToGroup, bind_assoc]
  refine Protocol.conforms_perform_bind.mpr
    ⟨.inr rfl, fun found => ?_, fun _ => trivial⟩
  cases found with
  | none => trivial
  | some user =>
      simp only [bind_assoc]
      refine Protocol.conforms_perform_bind.mpr
        ⟨rfl, fun isMember => ?_, fun _ => trivial⟩
      cases isMember with
      | true => trivial
      | false =>
          exact Protocol.conforms_perform_bind.mpr
            ⟨rfl, fun _ => trivial, fun _ => trivial⟩

theorem conforms_addUserRole
    {caller groupId userId : Nat}
    {roleName : String} :
    protocol.Conforms ⟨caller, .addUserRole groupId userId roleName⟩ starting
      (authorizationRoutes ⟨caller, .addUserRole groupId userId roleName⟩) := by
  have guarded :=
    @leads_roleHook ⟨caller, .addUserRole groupId userId roleName⟩ "role_manager"
      groupId rfl rfl
  refine guarded.bind ?_ fun _ _ _ => trivial
  intro _ phase isAdmitted
  obtain rfl := isAdmitted rfl
  unfold admitted AuthorizationService.addUserRole
  by_cases same : caller = userId
  · simp only [if_pos same]
    trivial
  · simp only [if_neg same, bind_assoc]
    refine Protocol.conforms_perform_bind.mpr
      ⟨rfl, fun userRoles => ?_, fun _ => trivial⟩
    rw [show protocol.advance ⟨caller, .addUserRole groupId userId roleName⟩
        (reading groupId userId roleName) (.findRolesByUserAndGroup groupId userId)
        (.ok userRoles) =
      if userRoles.contains roleName then working
      else checked groupId userId roleName from rfl]
    cases present : userRoles.contains roleName with
    | true =>
        simp only [if_true]
        refine Protocol.Leads.mono (leads_working ?_) fun _ _ _ => trivial
        refine .bind (.perform trivial) fun found => ?_
        refine .bind (destructure_addsNothing _ _) fun group => ?_
        exact .bind AuthorizationService.checkGrantable_addsNothing fun _ => trivial
    | false =>
        simp only [Bool.false_eq_true, if_false]
        refine Protocol.conforms_perform_bind.mpr
          ⟨rfl, fun found => ?_, fun _ => trivial⟩
        refine leads_destructure ?_ fun _ => trivial
        rintro group rfl
        rw [show protocol.advance ⟨caller, .addUserRole groupId userId roleName⟩
            (checked groupId userId roleName) (.findGroupById groupId)
            (.ok (some group)) =
          if group.ownerId = caller then allowed groupId userId roleName
          else working from rfl]
        unfold AuthorizationService.checkGrantable
        by_cases isOwner : caller = group.ownerId
        · simp only [isOwner, ne_eq, not_true_eq_false, if_false, if_true, pure_bind,
            bind_assoc]
          refine Protocol.conforms_perform_bind.mpr
            ⟨rfl, fun role => ?_, fun _ => trivial⟩
          refine leads_destructure ?_ fun _ => trivial
          rintro role rfl
          simp only [RoleService.add, bind_assoc]
          refine Protocol.conforms_perform_bind.mpr
            ⟨rfl, fun userGroup => ?_, fun _ => trivial⟩
          refine leads_destructure ?_ fun _ => trivial
          rintro userGroup rfl
          exact Protocol.conforms_perform_bind.mpr
            ⟨rfl, fun _ => trivial, fun _ => trivial⟩
        · rw [if_neg (Ne.symm isOwner), if_pos isOwner]
          trivial

/-- The routes follow the protocol. -/
theorem conforms_authorizationRoutes
    (request : AuthorizationRequest) :
    protocol.Conforms request (start request) (authorizationRoutes request) := by
  by_cases begins : start request = working
  · rw [begins]
    exact (leads_working (authorizationRoutes_addsNothing begins)).mono
      fun _ _ _ => trivial
  · obtain ⟨caller, route⟩ := request
    cases route with
    | createGroup groupName => exact conforms_createGroup
    | addUserToGroup groupId userId => exact conforms_addUserToGroup
    | addUserRole groupId userId roleName => exact conforms_addUserRole
    | deleteGroup | deleteUserFromGroup | deleteUserRole => exact absurd rfl begins

end MembershipPhase

end Prescott
