import QingzhouSSH.Lib.Text
import QingzhouSSH.Lib.Shell
import QingzhouSSH.Lib.OrdMap
import QingzhouSSH.Core.Error
import QingzhouSSH.Core.Json
import QingzhouSSH.Core.Tasks.Model
import QingzhouSSH.Core.Tasks.Parameters
import QingzhouSSH.Lib.Template
import QingzhouSSH.Core.Tasks.Render
import QingzhouSSH.Core.Tasks.Catalog
import QingzhouSSH.Lib.ShellTemplate
import QingzhouSSH.Core.Tasks.Recovery
import QingzhouSSH.Core.Redaction
import QingzhouSSH.Core.Ssh.Executor
import QingzhouSSH.Core.Tasks.Availability
import QingzhouSSH.Core.Workflows.Validation
import QingzhouSSH.Domain.Operation
import QingzhouSSH.Repositories.ExecutionRepository
import QingzhouSSH.Repositories.OperationRepository
import QingzhouSSH.Services.ExecutionService
import QingzhouSSH.Services.OperationPreview
import QingzhouSSH.Services.TaskRemediation
import QingzhouSSH.Services.WorkflowNodes
import QingzhouSSH.Domain.OperationRestore
import QingzhouSSH.Lib.Process
import QingzhouSSH.Repositories.OperationRestoreRepository
import QingzhouSSH.Services.OperationRestoreService
import QingzhouSSH.Core.Workflows.Condition
import QingzhouSSH.Core.Workflows.Graph
import QingzhouSSH.Domain.WorkflowEvents
import QingzhouSSH.Repositories.WorkflowRepository
import QingzhouSSH.Services.WorkflowDrivers
import QingzhouSSH.Services.WorkflowRuns
import QingzhouSSH.Services.WorkflowCancel
import QingzhouSSH.Core.Sftp.Pipeline
import QingzhouSSH.Core.Sftp.PipelinedDownload
import QingzhouSSH.Core.Sftp.Transfer
import QingzhouSSH.Core.Workflows.StateMachine
import QingzhouSSH.Domain.OperationBatch
import QingzhouSSH.Lib.History
import QingzhouSSH.Lib.Table
import QingzhouSSH.Repositories.OperationBatchRepository
import QingzhouSSH.Repositories.TransferJobRepository
import QingzhouSSH.Repositories.WorkflowRestorePoints
import QingzhouSSH.Repositories.WorkflowRunStore
import QingzhouSSH.Services.OperationBatchService
import QingzhouSSH.Services.RestorePointService
import QingzhouSSH.Services.TransferQueueRuns
import QingzhouSSH.Core.Logs.Command
import QingzhouSSH.Core.Logs.Parser
import QingzhouSSH.Core.Logs.Records
import QingzhouSSH.Lib.Exit
import QingzhouSSH.Services.ExecutionRecords
import QingzhouSSH.Services.LogService
import QingzhouSSH.Services.OperationResults
import QingzhouSSH.Services.ScriptPackages
import QingzhouSSH.Services.WorkflowCourse
import QingzhouSSH.Services.WorkflowRetry
import QingzhouSSH.Core.Tasks.OperationResult
import QingzhouSSH.Repositories.WorkflowVersions
import QingzhouSSH.Core.ProbeSections
import QingzhouSSH.Services.UpdateSettings
import QingzhouSSH.Services.UpdateInstalls
import QingzhouSSH.Services.ScriptConfirmations
import QingzhouSSH.Domain.Utf8Decoding
import QingzhouSSH.Core.RedactedSecrets
import QingzhouSSH.Repositories.OperationRestoreItems
import QingzhouSSH.Services.RestoreAttempts
import QingzhouSSH.Services.OperationRollbacks
import QingzhouSSH.Core.Tasks.Conclusions
import QingzhouSSH.Core.Sftp.Overwrite
import QingzhouSSH.Core.RedactedKeys
import QingzhouSSH.Core.Logs.TimeRange
import QingzhouSSH.Services.SnapshotCommands
import QingzhouSSH.Core.Tasks.Cron
import QingzhouSSH.Core.Tasks.Quoting
import QingzhouSSH.Core.Scripts.PowershellLauncher
import QingzhouSSH.Lib.World
import QingzhouSSH.Services.WorkflowRollbacks
import QingzhouSSH.Core.Logs.Contexts
import QingzhouSSH.Core.Logs.ResultStore
import QingzhouSSH.Core.Sftp.Browser
import QingzhouSSH.Services.OperationOutput
import QingzhouSSH.Core.Workflows.GraphMaps
import QingzhouSSH.Services.NetworkParameters
import QingzhouSSH.Core.RestorePaths
import QingzhouSSH.Features.DirectorySessionCache
import QingzhouSSH.Services.OperationReportService
import QingzhouSSH.Core.Updates.Manifest
import QingzhouSSH.Core.DataMigration.Retry
import QingzhouSSH.Services.RestoreCleanup
import QingzhouSSH.Services.ServerConnector
import QingzhouSSH.Core.JsonRoundTrip
import QingzhouSSH.Core.JsonRecord
import QingzhouSSH.Core.DataMigration.Journal
import QingzhouSSH.Core.DataRoot
import QingzhouSSH.Core.DataMigration.Worker
import QingzhouSSH.Core.DataMigration.CrashSafety
import QingzhouSSH.Core.DataMigration.Completion
import QingzhouSSH.Repositories.OperationHistory
