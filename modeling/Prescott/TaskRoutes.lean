import Prescott.AuthorizationService
import Prescott.TaskService

namespace Prescott

/-!
# The task routes

The routes below `/groups/:groupId/tasks/:taskId`.  Each is guarded by
`permissionHook`, which looks at the group of the path only.
-/

/-- The routes that name a task. -/
inductive TaskRoute where
  | getTask
  | deleteTask
  | updateTask (taskConfig : LocalTaskConfig)
  | stopTask
  | startTask
  | getRuns
  | searchLogs
      (runId : Nat) (search : EntrySearchDto) (paging : EntryPaging)
  | searchMetrics
      (runId : Nat) (search : EntrySearchDto) (paging : EntryPaging)
  | aggregateMetrics
      (runId : Nat) (search : EntrySearchDto) (apply : String)
  deriving Repr, DecidableEq

/-- The permission a route asks for. -/
def TaskRoute.permission : TaskRoute → String
  | .getTask => "view_task"
  | .deleteTask => "delete_task"
  | .updateTask _ => "update_task"
  | .stopTask => "stop_task"
  | .startTask => "start_task"
  | .getRuns => "view_task"
  | .searchLogs _ _ _ => "view_task"
  | .searchMetrics _ _ _ => "view_metrics"
  | .aggregateMetrics _ _ _ => "view_metrics"

/-- A request with the user identifier of its validated access token. -/
structure TaskRequest where
  caller : Nat
  groupId : Nat
  taskId : Nat
  route : TaskRoute
  deriving Repr, DecidableEq

/-- What a handler sends. -/
inductive TaskResponse where
  | task (task : Task)
  | runs (runs : List TaskRun)
  | logs (page : EntryPage LogEntry)
  | metrics (page : EntryPage MetricEntry)
  | aggregated (metrics : List (String × MetricValue))
  | empty
  deriving DecidableEq

/-- The hook of a request, on the group that its path names. -/
def TaskRequest.hook (request : TaskRequest) : AuthorizationProgram Unit :=
  AuthHooks.permissionHook request.route.permission request.groupId
    request.caller

/-- The handler of a request. -/
def TaskRequest.handler
    (config : TaskServerConfig)
    (request : TaskRequest) :
    TaskProgram TaskResponse :=
  match request.route with
  | .getTask => do
      let task ← TaskService.getTask request.taskId
      return .task task
  | .deleteTask => do
      TaskService.deleteTask request.taskId
      return .empty
  | .updateTask taskConfig => do
      TaskService.updateTask request.taskId taskConfig
      return .empty
  | .stopTask => do
      TaskService.stopTask request.taskId
      return .empty
  | .startTask => do
      TaskService.startTask request.taskId
      return .empty
  | .getRuns => do
      let runs ← TaskRunService.getAll request.taskId
      return .runs runs
  | .searchLogs runId search paging => do
      let page ←
        TaskRunService.searchLogs config.regExp config.format request.taskId runId
          search paging
      return .logs page
  | .searchMetrics runId search paging => do
      let page ←
        TaskRunService.searchMetrics config.format request.taskId runId search
          paging
      return .metrics page
  | .aggregateMetrics runId search apply => do
      let metrics ←
        TaskRunService.aggregateMetrics config.format request.taskId runId search
          apply
      return .aggregated metrics

end Prescott
