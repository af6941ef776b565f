import Prescott.TaskPhases

namespace Prescott

/-!
# The transitions between the phases of the task calls

`TaskPhase.advance` computes the phase after an answer; here is the same as a
relation, so that a statement about the next phase is proved by cases on how
it can be reached.
-/

namespace TaskPhase

/-- The task whose lock is held in a phase. -/
def lockOf : TaskPhase → Option Nat
  | .counting taskId _ | .creating taskId _ | .unlocking taskId _ =>
      some taskId
  | _ => none

/-- Where a failed operation leads. -/
inductive FailsTo (phase : TaskPhase) : TaskPhase → Prop where
  | same
      (free : phase.lockOf = none) :
      FailsTo phase phase
  /-- A child that cannot be stopped is passed over. -/
  | stopping
      {taskId childrenLeft : Nat}
      (isPhase : phase = .stopping taskId (childrenLeft + 1)) :
      FailsTo phase (.stopping taskId childrenLeft)
  | settled : FailsTo phase (.settled false)
  | failing : FailsTo phase .failing
  | leaving : FailsTo phase .leaving
  | unlocking
      {taskId : Nat}
      (held : phase.lockOf = some taskId) :
      FailsTo phase (.unlocking taskId .failed)

/-- The phases after an answer; how a call ends is not told apart. -/
inductive Advances (call : TaskCall) :
    TaskPhase → (op : TaskOp) → Except AppError op.Result → TaskPhase →
      Prop where
  | failed
      {phase next : TaskPhase}
      {op : TaskOp}
      {reason : AppError}
      (fails : FailsTo phase next) :
      Advances call phase op (.error reason) next
  | ended
      {phase : TaskPhase}
      {op : TaskOp}
      {value : op.Result}
      {resolved : Bool} :
      Advances call phase op (.ok value) (.settled resolved)
  | left
      {phase : TaskPhase}
      {op : TaskOp}
      {value : op.Result} :
      Advances call phase op (.ok value) .leaving
  | unnamed
      {name : String} :
      Advances call .beginning (.findTaskByName name) (.ok none) .inserting
  | deletes
      {taskId : Nat}
      {task : Task}
      (isCall : call = .deleteTask taskId) :
      Advances call .beginning (.findTaskById taskId) (.ok (some task))
        (.unregistering taskId none)
  | stops
      {taskId : Nat}
      {task : Task}
      (isCall : call = .stopTask taskId) :
      Advances call .beginning (.findTaskById taskId) (.ok (some task))
        (.deactivating taskId)
  | starts
      {taskId : Nat}
      {task : Task}
      (isCall : call = .startTask taskId) :
      Advances call .beginning (.findTaskById taskId) (.ok (some task))
        (.checkingEntry taskId task.config)
  | updates
      {taskId : Nat}
      {task : Task}
      {taskConfig : LocalTaskConfig}
      (isCall : call = .updateTask taskId taskConfig) :
      Advances call .beginning (.findTaskById taskId) (.ok (some task))
        (.unregistering taskId (some { task.config with config := taskConfig }))
  | fires
      {taskId : Nat}
      {task : Task}
      (isCall : call = .callback taskId) :
      Advances call .beginning (.findTaskById taskId) (.ok (some task))
        (.locking taskId task.config.times 4)
  | runs
      {runHandle : TaskRunHandle}
      {task : Task}
      (isCall : call = .executor runHandle)
      (active : task.active = true) :
      Advances call .beginning (.findTaskById runHandle.taskId)
        (.ok (some task)) (.launching task.config)
  | built
      {taskId : Nat}
      {dto : BuildEnvDto}
      {taskConfig : TaskConfigDto}
      (isCall : call = .build taskId taskConfig) :
      Advances call .beginning (.buildEnv dto) (.ok ()) (.starting taskId)
  | inserted
      {taskId : Nat}
      {data : NewTask} :
      Advances call .inserting (.insertTask data) (.ok taskId)
        (.checkingEntry taskId data.config)
  | missing
      {taskId id : Nat}
      {taskConfig : TaskConfigDto} :
      Advances call (.checkingEntry taskId taskConfig) (.schedulerExists id)
        (.ok false) (.scheduling taskId taskConfig)
  | scheduled
      {taskId : Nat}
      {taskConfig : TaskConfigDto}
      {op : TaskOp}
      {value : op.Result} :
      Advances call (.scheduling taskId taskConfig) op (.ok value)
        (.dispatching taskId taskConfig)
  | present
      {taskId id : Nat}
      {taskConfig : TaskConfigDto} :
      Advances call (.checkingEntry taskId taskConfig) (.schedulerExists id)
        (.ok true) (afterSchedule call taskId taskConfig)
  | dispatched
      {taskId : Nat}
      {taskConfig : TaskConfigDto}
      {op : TaskOp}
      {value : op.Result} :
      Advances call (.dispatching taskId taskConfig) op (.ok value)
        (afterSchedule call taskId taskConfig)
  | deactivated
      {taskId : Nat}
      {op : TaskOp}
      {value : op.Result} :
      Advances call (.deactivating taskId) op (.ok value)
        (.unscheduling taskId)
  | unscheduled
      {taskId : Nat}
      {op : TaskOp}
      {value : op.Result} :
      Advances call (.unscheduling taskId) op (.ok value) (.listing taskId)
  | listed
      {taskId childrenLeft : Nat}
      {op : TaskOp}
      {value : op.Result} :
      Advances call (.listing taskId) op (.ok value)
        (.stopping taskId childrenLeft)
  | stopping
      {taskId childrenLeft : Nat}
      {op : TaskOp}
      {value : op.Result} :
      Advances call (.stopping taskId (childrenLeft + 1)) op (.ok value)
        (.stopping taskId childrenLeft)
  | unregistered
      {taskId : Nat}
      {taskConfig : Option TaskConfigDto}
      {op : TaskOp}
      {value : op.Result} :
      Advances call (.unregistering taskId taskConfig) op (.ok value)
        (.clearing taskId taskConfig)
  | clearing
      {taskId : Nat}
      {taskConfig : Option TaskConfigDto}
      {op : TaskOp}
      {value : op.Result} :
      Advances call (.clearing taskId taskConfig) op (.ok value)
        (.clearing taskId taskConfig)
  | clearedForUpdate
      {taskId : Nat}
      {taskConfig : TaskConfigDto}
      {op : TaskOp}
      {value : op.Result} :
      Advances call (.clearing taskId (some taskConfig)) op (.ok value)
        (.checkingEntry taskId taskConfig)
  | clearedForDelete
      {taskId : Nat}
      {op : TaskOp}
      {value : op.Result} :
      Advances call (.clearing taskId none) op (.ok value) (.flushing taskId)
  | flushing
      {taskId : Nat}
      {op : TaskOp}
      {value : op.Result} :
      Advances call (.flushing taskId) op (.ok value) (.flushing taskId)
  | flushed
      {taskId : Nat}
      {op : TaskOp}
      {value : op.Result} :
      Advances call (.flushing taskId) op (.ok value) (.deletingRow taskId)
  | busy
      {taskId : Nat}
      {times : Option Rat}
      {retriesLeft : Nat}
      {resource : String} :
      Advances call (.locking taskId times retriesLeft)
        (.lockResource resource) (.ok false)
        (.locking taskId times retriesLeft)
  | retries
      {taskId : Nat}
      {times : Option Rat}
      {retriesLeft delay : Nat} :
      Advances call (.locking taskId times (retriesLeft + 1))
        (.setTimeout delay) (.ok ()) (.locking taskId times retriesLeft)
  | lockedLimited
      {taskId : Nat}
      {limit : Rat}
      {retriesLeft : Nat} :
      Advances call (.locking taskId (some limit) retriesLeft)
        (.lockResource (toString taskId)) (.ok true) (.counting taskId limit)
  | lockedUnlimited
      {taskId : Nat}
      {retriesLeft : Nat} :
      Advances call (.locking taskId none retriesLeft)
        (.lockResource (toString taskId)) (.ok true)
        (.creating taskId .infinity)
  | counted
      {taskId : Nat}
      {limit : Rat}
      {runsCount : Nat}
      (allowed : (runsCount : Rat) < limit) :
      Advances call (.counting taskId limit) (.countRunsByTask taskId)
        (.ok runsCount) (.creating taskId (.finite (runsCount + 1)))
  | refused
      {taskId : Nat}
      {limit : Rat}
      {op : TaskOp}
      {value : op.Result} :
      Advances call (.counting taskId limit) op (.ok value)
        (.unlocking taskId .refused)
  | created
      {taskId : Nat}
      {rank : RunRank}
      {taskRun : TaskRun} :
      Advances call (.creating taskId rank) (.insertRun taskId rank .pending)
        (.ok taskRun) (.unlocking taskId (.registered taskRun))
  | unlocked
      {taskId : Nat}
      {taskRun : TaskRun}
      {op : TaskOp}
      {value : op.Result} :
      Advances call (.unlocking taskId (.registered taskRun)) op (.ok value)
        (.enqueueing
          { taskId, runId := taskRun.id, runRank := taskRun.rank })
  | unlockedRefused
      {taskId : Nat}
      {op : TaskOp}
      {value : op.Result} :
      Advances call (.unlocking taskId .refused) op (.ok value)
        (.disabling taskId)
  | launched
      {taskConfig : TaskConfigDto}
      {envId container : String}
      {limitations : Option Limitations} :
      Advances call (.launching taskConfig) (.runEnv envId limitations)
        (.ok container) (.marking container taskConfig.times)
  | marked
      {container : String}
      {times : Option Rat}
      {op : TaskOp}
      {value : op.Result} :
      Advances call (.marking container times) op (.ok value)
        (.waiting container times)
  | terminated
      {container : String}
      {times : Option Rat}
      {exitCode : Int}
      {op : TaskOp}
      {value : op.Result} :
      Advances call (.waiting container times) op (.ok value)
        (.finishing container exitCode times)
  | finished
      {container : String}
      {exitCode : Int}
      {times : Option Rat}
      {op : TaskOp}
      {value : op.Result} :
      Advances call (.finishing container exitCode times) op (.ok value)
        (.removing container times)
  | reached
      {runHandle : TaskRunHandle}
      {container : String}
      {limit : Rat}
      {op : TaskOp}
      {value : op.Result}
      (isCall : call = .executor runHandle)
      (reaches : runHandle.runRank.reaches limit = true) :
      Advances call (.removing container (some limit)) op (.ok value)
        .autoUnscheduling
  | autoUnscheduled
      {op : TaskOp}
      {value : op.Result} :
      Advances call .autoUnscheduling op (.ok value) .autoStopping
  | autoStopping
      {op : TaskOp}
      {value : op.Result} :
      Advances call .autoStopping op (.ok value) .autoStopping
  | fails
      {runHandle : TaskRunHandle}
      {op : TaskOp}
      {value : op.Result}
      (isCall : call = .executor runHandle) :
      Advances call .failing op (.ok value) (.deactivating runHandle.taskId)

variable {call : TaskCall}
variable {phase : TaskPhase}
variable {op : TaskOp}

theorem afterFirst_failed
    {reason : AppError} :
    afterFirst call op (.error reason) =
      match call with
      | .executor _ => .failing
      | _ => .settled false := by
  cases op <;> rfl

theorem failsTo_afterStop :
    FailsTo phase (afterStop call false) := by
  cases call <;> constructor

theorem failsTo_advance
    {reason : AppError} :
    FailsTo phase (phase.advance call op (.error reason)) := by
  cases phase with
  | beginning =>
      simp only [advance, afterFirst_failed]
      cases call <;> constructor
  | deactivating | unscheduling =>
      exact failsTo_afterStop
  | listing =>
      cases op <;> exact failsTo_afterStop
  | stopping taskId childrenLeft =>
      cases childrenLeft with
      | zero => exact failsTo_afterStop
      | succ childrenLeft => exact .stopping rfl
  | counting | creating =>
      cases op <;> exact .unlocking rfl
  | unlocking taskId registration =>
      cases registration <;> exact .settled
  | removing container times =>
      cases call <;> cases times <;> constructor
  | failing =>
      cases call <;> cases op <;> exact .leaving
  | waiting | autoStopping | clearing | flushing | locking | checkingEntry
  | inserting | launching =>
      cases op <;> first | exact .same rfl | exact .settled | exact .failing
  | settled resolved =>
      exact .same rfl
  | _ =>
      constructor

theorem advances_afterFirst
    {value : op.Result}
    (permitted : call.firstOp = some op) :
    Advances call .beginning op (.ok value) (afterFirst call op (.ok value)) := by
  cases call with
  | createTask groupId userId taskConfig =>
      cases permitted
      cases value with
      | none => exact .unnamed
      | some task => exact .ended
  | build taskId taskConfig =>
      cases permitted
      exact .built rfl
  | exit => cases permitted
  | deleteTask taskId =>
      cases permitted
      cases value with
      | none => exact .ended
      | some task =>
          simp only [afterFirst]
          split
          · exact .ended
          · exact .deletes rfl
  | stopTask taskId =>
      cases permitted
      cases value with
      | none => exact .ended
      | some task =>
          simp only [afterFirst]
          split
          · exact .stops rfl
          · exact .ended
  | startTask taskId =>
      cases permitted
      cases value with
      | none => exact .ended
      | some task =>
          simp only [afterFirst]
          split
          · exact .ended
          · exact .starts rfl
  | updateTask taskId taskConfig =>
      cases permitted
      cases value with
      | none => exact .ended
      | some task => exact .updates rfl
  | callback taskId =>
      cases permitted
      cases value with
      | none => exact .ended
      | some task =>
          simp only [afterFirst]
          split
          · exact .fires rfl
          · exact .ended
  | executor runHandle =>
      cases permitted
      cases value with
      | none => exact .left
      | some task =>
          simp only [afterFirst]
          split
          · exact .runs rfl ‹_›
          · exact .left

/-- A permitted operation advances along one of the transitions. -/
theorem advances_advance
    (answer : Except AppError op.Result)
    (permitted : phase.permits call op) :
    Advances call phase op answer (phase.advance call op answer) := by
  cases answer with
  | error reason =>
      exact .failed failsTo_advance
  | ok value =>
      cases phase with
      | beginning =>
          exact advances_afterFirst permitted
      | inserting =>
          obtain ⟨_, _, _, _, rfl⟩ := permitted
          exact .inserted
      | checkingEntry taskId taskConfig =>
          cases permitted
          cases value with
          | false => exact .missing
          | true => exact .present
      | scheduling taskId taskConfig => exact .scheduled
      | dispatching taskId taskConfig => exact .dispatched
      | activating | storing | deletingRow | starting | enqueueing
      | disabling => exact .ended
      | deactivating taskId => exact .deactivated
      | unscheduling taskId => exact .unscheduled
      | listing taskId =>
          cases permitted
          exact .listed
      | stopping taskId childrenLeft =>
          cases childrenLeft with
          | zero => cases call <;> first | exact .ended | exact .left
          | succ childrenLeft => exact .stopping
      | unregistering taskId taskConfig => exact .unregistered
      | clearing taskId taskConfig =>
          rcases permitted with rfl | ⟨_, rfl⟩ | rfl
          · exact .clearing
          · exact .clearing
          · cases taskConfig with
            | none => exact .clearedForDelete
            | some taskConfig => exact .clearedForUpdate
      | flushing taskId =>
          rcases permitted with rfl | rfl
          · exact .flushing
          · exact .flushed
      | locking taskId times retriesLeft =>
          rcases permitted with rfl | rfl
          · cases value with
            | false => exact .busy
            | true =>
                cases times with
                | none => exact .lockedUnlimited
                | some limit => exact .lockedLimited
          · cases retriesLeft with
            | zero => exact .ended
            | succ retriesLeft => exact .retries
      | counting taskId limit =>
          cases permitted
          simp only [advance]
          split
          · exact .counted ‹_›
          · exact .refused
      | creating taskId rank =>
          cases permitted
          exact .created
      | unlocking taskId registration =>
          cases registration with
          | failed => exact .ended
          | refused => exact .unlockedRefused
          | registered taskRun => exact .unlocked
      | launching taskConfig =>
          obtain ⟨_, _, rfl⟩ := permitted
          exact .launched
      | marking container times => exact .marked
      | waiting container times =>
          rcases permitted with rfl | rfl
          · exact .terminated
          · exact .terminated
      | finishing container exitCode times => exact .finished
      | removing container times =>
          obtain ⟨runHandle, rfl, rfl⟩ := permitted
          cases times with
          | none => exact .left
          | some limit =>
              simp only [advance]
              split
              · exact .reached rfl ‹_›
              · exact .left
      | autoUnscheduling => exact .autoUnscheduled
      | autoStopping =>
          obtain ⟨_, rfl, rfl | ⟨_, rfl⟩ | rfl | rfl⟩ := permitted
          · exact .autoStopping
          · exact .autoStopping
          · exact .autoStopping
          · exact .left
      | failing =>
          obtain ⟨_, rfl, rfl⟩ := permitted
          cases value with
          | none => exact .left
          | some task =>
              simp only [advance]
              split
              · exact .fails rfl
              · exact .left
      | leaving => exact .ended
      | settled resolved => exact .ended

end TaskPhase

end Prescott
