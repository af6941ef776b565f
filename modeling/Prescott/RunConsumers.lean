import Prescott.RunFiles
import Prescott.RunLaunches

namespace Prescott

/-!
# The consumers of a run

The start of a run dispatches one consumer of its logs and one of its metrics.
No run is started twice, and so no file is ever written by two consumers.
-/

namespace TaskView

/-- A call may still come to record the start of the run. -/
inductive AwaitsStart (view : TaskView) (runId : Nat) : Prop where
  | launch
      {runHandle : TaskRunHandle}
      (sameRun : runHandle.runId = runId)
      (awaits : view.AwaitsLaunch runHandle)
  | marking
      {pid : Nat}
      {runHandle : TaskRunHandle}
      {container : String}
      {times : Option Rat}
      (sameRun : runHandle.runId = runId)
      (present :
        view.progress pid = some ⟨.executor runHandle, .marking container times⟩)

section Moves

variable {config : TaskServerConfig}
variable {mayFail : TaskOp → Bool}
variable {view : TaskView}
variable {pid runId : Nat}
variable {call : TaskCall}
variable {phase : TaskPhase}
variable {op : TaskOp}
variable {input : TaskInput ⊕ AppError}
variable {answer : Except AppError op.Result}
variable {shared : TaskState}

/-- A run that awaits its start after an answer did so before, or it is new. -/
theorem AwaitsStart.of_answered
    (present : view.progress pid = some ⟨call, phase⟩)
    (permitted : phase.permits call op)
    (answered :
      (taskHost config).failing mayFail op input view.shared = some (answer, shared))
    (awaits :
      TaskView.AwaitsStart
        (view.place pid ⟨call, phase.advance call op answer⟩ shared) runId) :
    view.AwaitsStart runId ∨ runId = view.shared.tables.taskRuns.nextId := by
  cases awaits with
  | launch sameRun awaits =>
      rcases awaits.of_answered present permitted answered with earlier | isNew
      · exact .inl (.launch sameRun earlier)
      · exact .inr (sameRun.symm.trans isNew)
  | marking sameRun found =>
      rcases Protocol.View.place_cases found with ⟨rfl, shape⟩ | ⟨_, earlier⟩
      · obtain ⟨rfl, shape⟩ := Protocol.Progress.mk.inj shape
        have advances := TaskPhase.advances_advance answer permitted
        rw [← shape] at advances
        cases advances with
        | failed fails =>
            cases fails with
            | same => exact .inl (.marking sameRun present)
        | launched => exact .inl (.launch sameRun (.launching _ _ present))
      · exact .inl (.marking sameRun earlier)

/-- The beginning of a call lets no further run await its start. -/
theorem AwaitsStart.of_begun
    (begun : beginTaskCall config call view.shared = some shared)
    (awaits :
      TaskView.AwaitsStart
        (view.place pid ⟨call, taskProtocol.start call⟩ shared) runId) :
    view.AwaitsStart runId := by
  cases awaits with
  | launch sameRun awaits =>
      refine .launch sameRun ?_
      cases awaits with
      | queued member => exact .queued (mem_queue_of_begun begun member)
      | carried other carries =>
          rcases carries.of_begun begun with earlier | ⟨_, _, shape⟩
          · exact .carried other earlier
          · exact .queued (by rw [shape]; exact List.mem_cons_self)
      | launching other taskConfig found =>
          rcases Protocol.View.place_cases found with ⟨_, shape⟩ | ⟨_, earlier⟩
          · cases call <;> cases shape
          · exact .launching other taskConfig earlier
  | marking sameRun found =>
      rcases Protocol.View.place_cases found with ⟨_, shape⟩ | ⟨_, earlier⟩
      · cases call <;> cases shape
      · exact .marking sameRun earlier

/-- Whose executor waits for the container, that run awaits no start. -/
theorem not_awaitsStart_of_waiting
    {runHandle : TaskRunHandle}
    {container : String}
    {times : Option Rat}
    (owned : view.RunsOwned)
    (present :
      view.progress pid = some ⟨.executor runHandle, .waiting container times⟩) :
    ¬view.AwaitsStart runHandle.runId := by
  have carries := carries_of_executor present
  intro awaits
  cases awaits with
  | launch sameRun awaits =>
      cases awaits with
      | queued member =>
          exact owned.notQueued _ _ _ carries (List.mem_map.mpr ⟨_, member, sameRun⟩)
      | carried other otherCarries =>
          obtain rfl := owned.unique _ _ _ _ _ _ carries otherCarries sameRun.symm
          obtain ⟨_, _, found, carried⟩ := otherCarries
          rw [present] at found
          cases found
          cases carried
      | launching other taskConfig found =>
          obtain rfl :=
            owned.unique _ _ _ _ _ _ carries (carries_of_executor found) sameRun.symm
          rw [present] at found
          cases found
  | marking sameRun found =>
      obtain rfl :=
        owned.unique _ _ _ _ _ _ carries (carries_of_executor found) sameRun.symm
      rw [present] at found
      cases found

end Moves

end TaskView

namespace RunFiles

/-- No run has two consumers of a kind, and none has them before its start. -/
structure SoleConsumers (files : RunFiles) : Prop where
  recorded : files.StartsRecorded
  started :
    ∀ consumer ∈ files.consumers,
      ¬TaskView.AwaitsStart files.calls.view consumer.runHandle.runId
  nodup :
    (files.consumers.map fun consumer =>
      (consumer.kind, consumer.runHandle.runId)).Nodup

section Steps

variable {config : TaskServerConfig}
variable {mayFail : TaskOp → Bool}
variable {before after : RunFiles}
variable {turn : Turn TaskCall (TaskInput ⊕ AppError)}
variable {calls : Interleaving TaskState taskProtocol}

/-- What a turn dispatches belongs to a run that has awaited its start. -/
theorem registered_cases
    (conforming : before.calls.Conforming)
    (owned : TaskView.RunsOwned calls.view)
    (stepped :
      before.calls.step? ((taskServices config).failing mayFail) turn = some calls) :
    before.registered turn = [] ∨
      ∃ runHandle,
        before.registered turn =
            [⟨.log, runHandle, .ensuring⟩, ⟨.metric, runHandle, .ensuring⟩] ∧
          TaskView.AwaitsStart before.calls.view runHandle.runId ∧
          ¬TaskView.AwaitsStart calls.view runHandle.runId := by
  cases turn with
  | invoke pid call => exact .inl rfl
  | resume pid input =>
      cases input with
      | inr reason => exact .inl rfl
      | inl input =>
          obtain ⟨⟨call, phase, residual⟩, op, resume, answer, shared, present, awaiting,
            answered, rfl⟩ := Interleaving.step?_resume stepped
          change residual = _ at awaiting
          subst awaiting
          have permitted := (conforming pid _ present).1
          simp only [registered, present]
          split
          next runHandle _ runId dto _ shape =>
            cases shape
            split
            next isRunning =>
              refine .inr ⟨runHandle, rfl, ?_⟩
              obtain ⟨_, isCall, rfl, starts | ⟨_, _, _, _, notRunning⟩⟩ :=
                TaskPhase.updating_of_permits permitted
              · cases isCall
                obtain ⟨container, times, rfl, _⟩ := starts
                have inView :
                    before.calls.view.progress pid =
                      some ⟨.executor runHandle, .marking container times⟩ := by
                  simp [Interleaving.view, present]
                refine ⟨.marking rfl inView, ?_⟩
                cases answered
                rw [Interleaving.view_update] at owned ⊢
                exact TaskView.not_awaitsStart_of_waiting owned
                  (Function.update_self ..)
              · rw [isRunning] at notRunning
                rcases notRunning with wrong | wrong <;> cases wrong
            next => exact .inl rfl
          next => exact .inl rfl

/-- No turn lets a run of a consumer await its start again. -/
theorem not_awaitsStart_of_turn
    (recorded : before.StartsRecorded)
    (stepped :
      before.calls.step? ((taskServices config).failing mayFail) turn = some calls)
    {runId : Nat}
    (isKnown : runId < before.calls.shared.tables.taskRuns.nextId)
    (started : ¬TaskView.AwaitsStart before.calls.view runId) :
    ¬TaskView.AwaitsStart calls.view runId := by
  intro awaits
  cases turn with
  | invoke pid call =>
      simp only [Interleaving.step?] at stepped
      split at stepped
      · cases stepped
      · obtain ⟨shared, begun, rfl⟩ := Option.map_eq_some_iff.mp stepped
        rw [Interleaving.view_update] at awaits
        exact started (awaits.of_begun begun)
  | resume pid input =>
      obtain ⟨⟨call, phase, residual⟩, op, resume, answer, shared, present, awaiting,
        answered, rfl⟩ := Interleaving.step?_resume stepped
      change residual = _ at awaiting
      subst awaiting
      have permitted := (recorded.conforming pid _ present).1
      have inView : before.calls.view.progress pid = some ⟨call, phase⟩ := by
        simp [Interleaving.view, present]
      rw [Interleaving.view_update] at awaits
      rcases awaits.of_answered inView permitted answered with earlier | rfl
      · exact started earlier
      · exact Nat.lt_irrefl _ isKnown

/-- A turn leaves the consumers whose they are, and dispatches others. -/
theorem SoleConsumers.turned
    (sole : before.SoleConsumers)
    (stepped :
      before.calls.step? ((taskServices config).failing mayFail) turn = some calls) :
    SoleConsumers
      { calls
        directories :=
          before.directories.filter fun directory =>
            before.flushed turn ≠ some directory
        consumers :=
          before.consumers.map (unlink (before.flushed turn)) ++
            before.registered turn } := by
  have recorded := sole.recorded.turned stepped
  have sameOwner (consumer : Consumer) :
      (unlink (before.flushed turn) consumer).kind = consumer.kind ∧
        (unlink (before.flushed turn) consumer).runHandle = consumer.runHandle := by
    unfold unlink
    split <;> exact ⟨rfl, rfl⟩
  have kept (consumer : Consumer) (listed : consumer ∈ before.consumers) :
      ¬TaskView.AwaitsStart calls.view consumer.runHandle.runId :=
    not_awaitsStart_of_turn sole.recorded stepped
      (sole.recorded.consumers consumer listed).known (sole.started consumer listed)
  have oldOwners :
      (before.consumers.map (unlink (before.flushed turn))).map
          (fun consumer => (consumer.kind, consumer.runHandle.runId)) =
        before.consumers.map fun consumer =>
          (consumer.kind, consumer.runHandle.runId) := by
    rw [List.map_map]
    refine List.map_congr_left fun consumer _ => ?_
    simp only [Function.comp_apply, sameOwner consumer]
  refine ⟨recorded, ?_, ?_⟩
  · intro consumer listed
    rcases List.mem_append.mp listed with old | isNew
    · obtain ⟨earlier, earlierListed, rfl⟩ := List.mem_map.mp old
      rw [(sameOwner earlier).2]
      exact kept earlier earlierListed
    · rcases registered_cases sole.recorded.conforming recorded.owned stepped with
          nothing | ⟨runHandle, dispatched, _, notAwaited⟩
      · rw [nothing] at isNew
        cases isNew
      · rw [dispatched] at isNew
        rcases List.mem_pair.mp isNew with rfl | rfl <;> exact notAwaited
  · rw [List.map_append, oldOwners]
    rcases registered_cases sole.recorded.conforming recorded.owned stepped with
        nothing | ⟨runHandle, dispatched, awaited, _⟩
    · rw [nothing, List.map_nil, List.append_nil]
      exact sole.nodup
    · rw [dispatched]
      refine sole.nodup.append (by simp) ?_
      intro owner isOld isNew
      obtain ⟨consumer, listed, rfl⟩ := List.mem_map.mp isOld
      refine sole.started consumer listed ?_
      have sameRun : consumer.runHandle.runId = runHandle.runId := by
        simp only [List.map_cons, List.map_nil] at isNew
        rcases List.mem_pair.mp isNew with same | same <;>
          exact congrArg Prod.snd same
      rw [sameRun]
      exact awaited

theorem SoleConsumers.place
    (sole : before.SoleConsumers)
    {position : Nat}
    {consumer : Consumer}
    (found : before.consumers[position]? = some consumer)
    (stage : ConsumerStage) :
    (before.place position consumer stage).SoleConsumers where
  recorded := sole.recorded.place found stage
  started := by
    intro other member
    rcases List.mem_or_eq_of_mem_set member with old | rfl
    · exact sole.started other old
    · exact sole.started consumer (List.mem_of_getElem? found)
  nodup := by
    obtain ⟨inRange, rfl⟩ := List.getElem?_eq_some_iff.mp found
    have sameOwners :
        (before.consumers.set position
              { before.consumers[position] with stage }).map
            (fun consumer => (consumer.kind, consumer.runHandle.runId)) =
          before.consumers.map fun consumer =>
            (consumer.kind, consumer.runHandle.runId) := by
      refine List.ext_getElem (by simp) fun other _ _ => ?_
      simp only [List.getElem_map, List.getElem_set]
      split
      next same =>
        subst same
        rfl
      next => rfl
    change ((before.consumers.set position
      { before.consumers[position] with stage }).map _).Nodup
    rw [sameOwners]
    exact sole.nodup

/-- Writing entries moves no call and no queue. -/
theorem SoleConsumers.writeEntries
    (sole : before.SoleConsumers)
    {kind : EntryKind}
    {runHandle : TaskRunHandle}
    (started : before.calls.shared.tables.HasStarted runHandle.runId)
    (entries : List kind.Entry) :
    (before.withShared
      (before.calls.shared.writeEntries runHandle.taskId runHandle.runId kind
        entries)).SoleConsumers where
  recorded := sole.recorded.writeEntries started entries
  started := by
    intro consumer listed awaits
    refine sole.started consumer listed ?_
    cases awaits with
    | launch sameRun awaits =>
        refine .launch sameRun ?_
        cases awaits with
        | queued member => exact .queued (by cases kind <;> exact member)
        | carried other carries => exact .carried other carries
        | launching other taskConfig found => exact .launching other taskConfig found
    | marking sameRun found => exact .marking sameRun found
  nodup := sole.nodup

/-- Whatever happens, every file has one consumer at most. -/
theorem SoleConsumers.step
    {event : FileEvent}
    (sole : before.SoleConsumers)
    (stepped : before.step? config mayFail event = some after) :
    after.SoleConsumers := by
  cases event with
  | turn turn =>
      obtain ⟨calls, turned, rfl⟩ := Option.map_eq_some_iff.mp stepped
      exact sole.turned turned
  | ensureDirectory position =>
      simp only [step?] at stepped
      split at stepped
      next consumer found =>
        split at stepped <;> cases stepped
        have placed := sole.place found .opening
        have recorded := placed.recorded
        exact ⟨⟨recorded.conforming, recorded.owned, recorded.consumers,
          recorded.stored⟩, placed.started, placed.nodup⟩
      next => cases stepped
  | openFile position =>
      simp only [step?] at stepped
      split at stepped
      next consumer found =>
        split at stepped
        next =>
          split at stepped <;> cases stepped
          · exact (sole.place found .writing).writeEntries
              (sole.recorded.consumers consumer (List.mem_of_getElem? found)) []
          · exact sole.place found .finished
        next => cases stepped
      next => cases stepped
  | write position kind entry =>
      simp only [step?] at stepped
      split at stepped
      next ownKind runHandle found =>
        split at stepped
        next =>
          obtain ⟨entries, _, rfl⟩ := Option.map_eq_some_iff.mp stepped
          exact sole.writeEntries
            (sole.recorded.consumers _ (List.mem_of_getElem? found)) _
        next => cases stepped
      next =>
        cases stepped
        exact sole
      next => cases stepped
  | finish position =>
      simp only [step?] at stepped
      split at stepped
      next consumer found =>
        cases stepped
        exact sole.place found .finished
      next => cases stepped

theorem soleConsumers_initial : initial.SoleConsumers where
  recorded := startsRecorded_initial
  started := nofun
  nodup := List.nodup_nil

/-- Two consumers of one file are the same. -/
theorem SoleConsumers.eq_of_file
    (sole : before.SoleConsumers)
    {position other : Nat}
    {consumer otherConsumer : Consumer}
    (found : before.consumers[position]? = some consumer)
    (otherFound : before.consumers[other]? = some otherConsumer)
    (sameKind : consumer.kind = otherConsumer.kind)
    (sameRun : consumer.runHandle.runId = otherConsumer.runHandle.runId) :
    position = other := by
  obtain ⟨inRange, _⟩ := List.getElem?_eq_some_iff.mp found
  refine (List.getElem?_inj (by simpa using inRange) sole.nodup).mp ?_
  rw [List.getElem?_map, List.getElem?_map, found, otherFound, Option.map_some,
    Option.map_some, sameKind, sameRun]

end Steps

end RunFiles

end Prescott
