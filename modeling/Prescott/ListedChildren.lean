import Prescott.TaskTransitions

namespace Prescott

/-!
# The children that are still to be removed

`deleteExecutable` lists the containers of a task once and then removes them
by force, one after the other.  Beside the phases, a second protocol follows
which of the listed containers are left.
-/

/-- The operation removes a container by force. -/
def TaskOp.removesByForce : TaskOp → Bool
  | .dockerRemove _ isForce => isForce
  | _ => false

/-- The listed children that are left after an answer. -/
def childrenAfter (childrenLeft : List String) :
    (op : TaskOp) → Except AppError op.Result → List String
  | .getEnvChildren _, .ok names => names
  | .dockerRemove _ true, _ => childrenLeft.tail
  | _, _ => childrenLeft

/-- What is removed by force is the next of the listed children. -/
abbrev childrenProtocol :
    Protocol taskSignature AppError TaskCall TaskReply where
  Phase := List String
  start := fun _ => []
  permits := fun _ childrenLeft op =>
    ∀ container,
      op = .dockerRemove container true → childrenLeft.head? = some container
  advance := fun _ childrenLeft op answer =>
    childrenAfter childrenLeft op answer
  finishes := fun _ _ _ => True

/-- The call clears the environment of a task on its way. -/
def TaskCall.clears : TaskCall → Bool
  | .deleteTask _ | .updateTask _ _ => true
  | _ => false

/-- The call is about to clear the environment of a task, or it does. -/
def TaskPhase.clears : TaskPhase → Bool
  | .unregistering _ _ | .clearing _ _ => true
  | _ => false

namespace TaskPhase

variable {α : Type}
variable {call : TaskCall}
variable {phase : TaskPhase}
variable {op : TaskOp}

/-- Containers are removed by force where an environment is cleared. -/
theorem clears_of_permits
    (permitted : phase.permits call op)
    (removes : op.removesByForce = true) :
    phase.clears = true := by
  cases op with
  | dockerRemove container isForce =>
      cases removes
      cases phase <;> simp [permits] at permitted
      case beginning => cases call <;> simp [TaskCall.firstOp] at permitted
      case clearing => rfl
  | _ => cases removes

/-- No other call comes to clear an environment. -/
theorem clears_advance
    {answer : Except AppError op.Result}
    (otherCall : call.clears = false)
    (notClearing : phase.clears = false)
    (permitted : phase.permits call op) :
    (phase.advance call op answer).clears = false := by
  have advances := advances_advance answer permitted
  generalize phase.advance call op answer = next at advances ⊢
  cases advances with
  | failed fails =>
      cases fails with
      | same => exact notClearing
      | _ => rfl
  | deletes isCall | updates isCall =>
      subst isCall
      cases otherCall
  | unregistered | clearing | clearedForUpdate | clearedForDelete =>
      cases notClearing
  | present | dispatched => cases call <;> rfl
  | _ => rfl

/-- A call that clears no environment removes no container by force. -/
theorem awaitsOnly_of_leads
    {post : Except AppError α → TaskPhase → Prop}
    {program : TaskProgram α}
    (leads : taskProtocol.Leads call post phase program)
    (otherCall : call.clears = false)
    (notClearing : phase.clears = false) :
    program.AwaitsOnly fun (op : TaskOp) => op.removesByForce = false := by
  induction program generalizing phase with
  | settled outcome =>
      trivial
  | await op resume inductionHypothesis =>
      refine ⟨?_, fun answer => inductionHypothesis answer (leads.2 answer)
        (clears_advance otherCall notClearing leads.1)⟩
      by_contra removes
      rw [Bool.not_eq_false] at removes
      rw [clears_of_permits leads.1 removes] at notClearing
      cases notClearing

end TaskPhase

namespace ListedChildren

variable {α : Type}
variable {call : TaskCall}
variable {childrenLeft : List String}

theorem permits_of_spares
    {op : TaskOp}
    (spares : op.removesByForce = false) :
    childrenProtocol.permits call childrenLeft op := by
  rintro container rfl
  cases spares

/-- Nothing is said of a program that removes no container by force. -/
theorem leads_of_awaitsOnly
    {program : TaskProgram α}
    (only : program.AwaitsOnly fun (op : TaskOp) => op.removesByForce = false) :
    childrenProtocol.Leads call (fun _ _ => True) childrenLeft program := by
  induction program generalizing childrenLeft with
  | settled outcome =>
      trivial
  | await op resume inductionHypothesis =>
      exact ⟨permits_of_spares only.1, fun answer =>
        inductionHypothesis answer (only.2 answer)⟩

/-- The children are removed in the order in which they were listed. -/
theorem leads_deleteAllChildren
    {envId : String} :
    childrenProtocol.Leads call (fun _ _ => True) childrenLeft
      (TaskExecutorService.deleteAllChildren envId true) := by
  refine Protocol.leads_perform_bind.mpr
    ⟨permits_of_spares rfl, fun handleIds => ?_, fun _ => trivial⟩
  change childrenProtocol.Leads call _ handleIds _
  induction handleIds with
  | nil =>
      trivial
  | cons handleId rest inductionHypothesis =>
      have deleted :
          childrenProtocol.Leads call (fun _ left => left = rest)
            (handleId :: rest) (EnvHandle.delete ⟨handleId⟩ true) :=
        ⟨by rintro container ⟨⟩; rfl, fun _ => rfl⟩
      have attempted :
          childrenProtocol.Leads call (fun _ left => left = rest)
            (handleId :: rest) (EnvHandle.delete ⟨handleId⟩ true).attempt :=
        deleted.attempt fun _ _ same => same
      refine attempted.bind ?_ fun _ _ _ => trivial
      rintro _ _ rfl
      exact inductionHypothesis

theorem leads_deleteExecutable
    {taskId : Nat} :
    childrenProtocol.Leads call (fun _ _ => True) childrenLeft
      (TaskExecutorService.deleteExecutable taskId) := by
  refine Protocol.leads_perform_bind.mpr
    ⟨permits_of_spares rfl, fun _ => ?_, fun _ => trivial⟩
  refine leads_deleteAllChildren.bind ?_ fun _ _ _ => trivial
  exact fun _ _ _ => ⟨permits_of_spares rfl, fun _ => trivial⟩

theorem awaitsOnly_scheduleExecutable
    {taskId : Nat}
    {taskConfig : TaskConfigDto} :
    (TaskExecutorService.scheduleExecutable taskId taskConfig).AwaitsOnly
      fun (op : TaskOp) => op.removesByForce = false := by
  refine .bind (.perform rfl) fun found => ?_
  cases found with
  | true =>
      trivial
  | false =>
      exact .bind (.perform rfl) fun _ => .perform rfl

theorem conforms_updateTask
    {taskId : Nat}
    {taskConfig : LocalTaskConfig} :
    childrenProtocol.Conforms call childrenLeft
      (taskBody (.updateTask taskId taskConfig)) := by
  simp only [taskBody, TaskService.updateTask, TaskDao.findByIdThrowable,
    TaskExecutorService.updateExecutable, bind_assoc]
  refine Protocol.conforms_perform_bind.mpr
    ⟨permits_of_spares rfl, fun found => ?_, fun _ => trivial⟩
  cases found with
  | none =>
      trivial
  | some task =>
      simp only [pure_bind]
      refine leads_deleteExecutable.bind ?_ fun _ _ _ => trivial
      refine fun _ _ _ => leads_of_awaitsOnly ?_
      exact .bind awaitsOnly_scheduleExecutable fun _ =>
        .bind (.perform rfl) fun _ => trivial

theorem conforms_deleteTask
    {taskId : Nat} :
    childrenProtocol.Conforms call childrenLeft
      (taskBody (.deleteTask taskId)) := by
  simp only [taskBody, TaskService.deleteTask, TaskDao.findByIdThrowable,
    bind_assoc]
  refine Protocol.conforms_perform_bind.mpr
    ⟨permits_of_spares rfl, fun found => ?_, fun _ => trivial⟩
  cases found with
  | none =>
      trivial
  | some task =>
      simp only [pure_bind]
      split
      · trivial
      · simp only [bind_assoc]
        refine leads_deleteExecutable.bind ?_ fun _ _ _ => trivial
        refine fun _ _ _ => leads_of_awaitsOnly ?_
        exact .bind (.bind (.perform rfl) fun _ => .perform rfl) fun _ =>
          .bind (.perform rfl) fun _ => trivial

/-- All calls remove what they have listed. -/
theorem conforms_taskBody
    (call : TaskCall) :
    childrenProtocol.Conforms call (childrenProtocol.start call)
      (taskBody call) := by
  have others
      (otherCall : call.clears = false) :
      childrenProtocol.Conforms call (childrenProtocol.start call)
        (taskBody call) :=
    leads_of_awaitsOnly
      (TaskPhase.awaitsOnly_of_leads (TaskPhase.conforms_taskBody call)
        otherCall (by cases call <;> rfl))
  cases call with
  | updateTask taskId taskConfig => exact conforms_updateTask
  | deleteTask taskId => exact conforms_deleteTask
  | _ => exact others rfl

end ListedChildren

/-- The phases of the task calls together with the children that are left. -/
abbrev clearingProtocol :
    Protocol taskSignature AppError TaskCall TaskReply :=
  taskProtocol.prod childrenProtocol

theorem conforms_clearing
    (call : TaskCall) :
    clearingProtocol.Conforms call (clearingProtocol.start call)
      (taskBody call) :=
  (TaskPhase.conforms_taskBody call).prod (ListedChildren.conforms_taskBody call)

end Prescott
