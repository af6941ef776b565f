import Prescott.TransitionSystem
import Prescott.AsyncProgram
import Prescott.AsyncInterleaving
import Prescott.Errors
import Prescott.Pagination
import Prescott.EntrySearch
import Prescott.EntryFiles
import Prescott.PageTraversal
import Prescott.PageWindows
import Prescott.ListStatistics
import Prescott.JsNumbers
import Prescott.MetricAggregation
import Prescott.DockerSizes
import Prescott.Dockerfiles
import Prescott.RunTimers
import Prescott.CaseConversion
import Prescott.PosixPaths
import Prescott.ContractLoading
import Prescott.ShellCommands
import Prescott.Utf8Decoding
import Prescott.LogCapture
import Prescott.LogPipes
import Prescott.JsonText
import Prescott.LineReading
import Prescott.LogFile
import Prescott.MetricFile
import Prescott.TaskQueue
import Prescott.TaskQueueRuns
import Prescott.Table
import Prescott.Users
import Prescott.Authentication
import Prescott.AuthenticationService
import Prescott.AuthenticationEffects
import Prescott.SessionRuns
import Prescott.SessionLifetimes
import Prescott.ExpiredSessions
import Prescott.TokenExchange
import Prescott.TokenExchangeRuns
import Prescott.Authorization
import Prescott.AuthorizationService
import Prescott.AuthorizationEffects
import Prescott.RoleManagement
import Prescott.DelegatedManagement
import Prescott.MembershipRequests
import Prescott.AccountIdentifiers
import Prescott.PermissionDecisions
import Prescott.MembershipRows
import Prescott.Tasks
import Prescott.TaskWorld
import Prescott.InMemoryMutex
import Prescott.MutexRuns
import Prescott.TaskService
import Prescott.TaskRoutes
import Prescott.TaskIsolation
import Prescott.TaskPhases
import Prescott.TaskTransitions
import Prescott.CronActivity
import Prescott.RunRegistration
import Prescott.RunRanks
import Prescott.RunStatuses
import Prescott.StopFinality
import Prescott.TendedContainers
import Prescott.AutomaticStops
import Prescott.TaskSchedules
import Prescott.TaskStarting
import Prescott.ServerRestart
import Prescott.RunRecovery
import Prescott.StartUp
import Prescott.UntouchedTasks
import Prescott.RecoveredRuns
import Prescott.StartUpRecovery
import Prescott.StoredSchedules
import Prescott.TaskImages
import Prescott.TaskNames
import Prescott.ListedChildren
import Prescott.RunContainers
import Prescott.TaskUpdates
import Prescott.TaskCommand
import Prescott.FailedRequests
import Prescott.ContainerExits
import Prescott.RunEndings
import Prescott.RunFiles
import Prescott.EscapeCodes
import Prescott.MetricCapture
import Prescott.MetricRows
import Prescott.MetricChunks
import Prescott.AccessTokens
import Prescott.AccessRuns
import Prescott.SpentTokens
import Prescott.RunLaunches
import Prescott.TaskDeletion
import Prescott.AccessGuards
import Prescott.CallMoments
import Prescott.GuardedRequests
import Prescott.RoleDelegation
import Prescott.GroupDeletion
import Prescott.ShellWords
import Prescott.DockerCommands
import Prescott.FileTree
import Prescott.RunConsumers
import Prescott.DataFiles
import Prescott.Utf8Encoding
import Prescott.TaskScripts
import Prescott.AsyncHistory
import Prescott.ContractBootstrap
import Prescott.PluggedContracts
import Prescott.LogDelivery
