import Prescott.ServerRestart

namespace Prescott

/-!
# The runs after a crash

A crash leaves the tables as the last statement has left them.  A start-up that
nothing disturbs enqueues an executor for every pending run of an active task,
and for no other run.
-/

namespace TaskTables

/-- The runs that the start-up enqueues executors for. -/
def startedRuns (tables : TaskTables) : List Nat :=
  tables.activeTasks.flatMap fun task =>
    (tables.pendingRuns task.id).map TaskRun.id

variable {tables : TaskTables}
variable {taskId : Nat}

theorem map_runId_pendingHandles :
    (tables.pendingHandles taskId).map TaskRunHandle.runId =
      (tables.pendingRuns taskId).map TaskRun.id := by
  simp [pendingHandles]

/-- No two pending runs of a task have one identifier. -/
theorem nodup_pendingRuns :
    ((tables.pendingRuns taskId).map TaskRun.id).Nodup := by
  have sorted :
      ((tables.pendingRuns taskId).map TaskRun.id).Perm
        (((tables.runsOf taskId).filter fun run =>
          run.status == .pending).map TaskRun.id) :=
    (List.perm_insertionSort _ _).map TaskRun.id
  have found :
      (((tables.runsOf taskId).filter fun run =>
        run.status == .pending).map TaskRun.id).Sublist
          (tables.taskRuns.rows.map TaskRun.id) :=
    (List.filter_sublist.trans List.filter_sublist).map TaskRun.id
  exact sorted.nodup_iff.mpr (found.nodup tables.taskRuns.keysNodup)

/-- The runs of different tasks are different ones. -/
theorem disjoint_pendingRuns
    {other : Nat}
    (different : taskId ≠ other) :
    List.Disjoint ((tables.pendingRuns taskId).map TaskRun.id)
      ((tables.pendingRuns other).map TaskRun.id) := by
  intro runId member otherMember
  obtain ⟨run, found, rfl⟩ := List.mem_map.mp member
  obtain ⟨otherRun, otherFound, sameId⟩ := List.mem_map.mp otherMember
  obtain ⟨row, ofTask, _⟩ := mem_pendingRuns.mp found
  obtain ⟨otherRow, ofOther, _⟩ := mem_pendingRuns.mp otherFound
  rw [Table.eq_of_key otherRow row sameId, ofTask] at ofOther
  exact different ofOther

/-- The executors of the start-up belong to different runs. -/
theorem nodup_startedRuns :
    tables.startedRuns.Nodup := by
  refine List.nodup_flatMap.mpr ⟨fun _ _ => nodup_pendingRuns, ?_⟩
  exact (List.pairwise_map.mp nodup_activeTasks).imp disjoint_pendingRuns

end TaskTables

variable {config : TaskServerConfig}
variable {state started : TaskState}

/-- A start-up that resolves has enqueued the pending runs and no others. -/
theorem queue_of_registerFromDatabase
    (settles :
      Settles (taskHost config) TaskService.registerFromDatabase
        state.restarted (.ok ()) started) :
    started.tables = state.tables ∧
      started.queue.map TaskRunHandle.runId = state.tables.startedRuns := by
  have valid := valid_of_registerFromDatabase settles
  obtain ⟨_, rfl⟩ := (registerFromDatabase_iff valid).mp settles
  refine ⟨tables_foldl_registered, ?_⟩
  rw [queue_foldl_registered, List.map_append, List.map_flatMap]
  simp only [TaskTables.map_runId_pendingHandles]
  rfl

/-- What the start-up enqueues is a pending row of its task. -/
theorem row_of_registerFromDatabase
    {runHandle : TaskRunHandle}
    (settles :
      Settles (taskHost config) TaskService.registerFromDatabase
        state.restarted (.ok ()) started)
    (queued : runHandle ∈ started.queue) :
    ∃ run ∈ started.tables.taskRuns.rows,
      run.id = runHandle.runId ∧
        run.taskId = runHandle.taskId ∧ run.status = .pending := by
  rw [(queue_of_registerFromDatabase settles).1]
  have valid := valid_of_registerFromDatabase settles
  obtain ⟨_, rfl⟩ := (registerFromDatabase_iff valid).mp settles
  rw [queue_foldl_registered] at queued
  rcases List.mem_append.mp queued with before | added
  · cases before
  · obtain ⟨task, _, handle⟩ := List.mem_flatMap.mp added
    obtain ⟨run, isPending, rfl⟩ := List.mem_map.mp handle
    obtain ⟨member, sameTask, pending⟩ := TaskTables.mem_pendingRuns.mp isPending
    exact ⟨run, member, rfl, sameTask, pending⟩

end Prescott
