import GenieCloud.Lib.Runs
import GenieCloud.Lib.Result
import GenieCloud.Lib.Lww
import GenieCloud.Lib.OrderBy
import GenieCloud.Lib.Record
import GenieCloud.Lib.Table
import GenieCloud.Lib.Utf16
import GenieCloud.Lib.Json
import GenieCloud.Util.Db
import GenieCloud.Util.Lock
import GenieCloud.Sql.SyncTable
import GenieCloud.Sql.Merge
import GenieCloud.Sql.SyncClients
import GenieCloud.Dbproxy.SyncTable
import GenieCloud.Almond.EngineProcess
import GenieCloud.Almond.UserLocks
import GenieCloud.Almond.EngineManager
import GenieCloud.Almond.SingleEngine
import GenieCloud.K8s.UserReconciler
import GenieCloud.Auth.Jwt
import GenieCloud.Auth.OAuth2
import GenieCloud.Auth.Tokens
import GenieCloud.Auth.EmailVerified
import GenieCloud.Auth.SecondFactor
import GenieCloud.Nlp.ModelCache
import GenieCloud.Thingpedia.Approval
import GenieCloud.Thingpedia.ExampleRows
import GenieCloud.Thingpedia.FactoryView
import GenieCloud.Thingpedia.SchemaView
import GenieCloud.Thingpedia.Versions
import GenieCloud.Thingpedia.Visibility
import GenieCloud.Training.TrainingJob
import GenieCloud.Training.Schedule
import GenieCloud.Training.Daemon
import GenieCloud.Training.Terminal
import GenieCloud.Training.Slots
import GenieCloud.Training.Queue
import GenieCloud.Training.Dependencies
import GenieCloud.Lib.Chunks
import GenieCloud.Util.GrowableBuffer
import GenieCloud.Lib.Assoc
import GenieCloud.Util.TimedCache
import GenieCloud.Lib.JsonPrefix
import GenieCloud.Util.JsonDatagramSocket
import GenieCloud.Almond.ControlSocket
import GenieCloud.Almond.Preferences
import GenieCloud.Almond.WorkerK8s
import GenieCloud.Almond.EngineManagerClient
import GenieCloud.Lib.Objects
import GenieCloud.Almond.EngineManagerClientK8s
import GenieCloud.Routes.AccountDeletion
import GenieCloud.Training.JobWatcher
import GenieCloud.Lib.Promises
import GenieCloud.Util.PromiseLock
import GenieCloud.Lib.Transaction
import GenieCloud.Sql.Statements
import GenieCloud.Sql.Journal
import GenieCloud.Sql.LocalTable
import GenieCloud.Sql.Isolation
import GenieCloud.Dbproxy.Proxy
import GenieCloud.Routes.ExampleLikes
import GenieCloud.Mturk.Statements
import GenieCloud.Mturk.Batches
import GenieCloud.Mturk.TrainingFlag
import GenieCloud.Mturk.Votes
import GenieCloud.Lib.Varchar
import GenieCloud.Thingpedia.Discovery
import GenieCloud.Thingpedia.SchemaRoundTrip
import GenieCloud.Thingpedia.DatasetSync
import GenieCloud.Auth.Authorization
import GenieCloud.Lib.Router
import GenieCloud.Routes.MyApi
import GenieCloud.Dbproxy.KeyValue
import GenieCloud.Almond.CommittedRow
import GenieCloud.Routes.Websockets
import GenieCloud.Mturk.Programs
import GenieCloud.Auth.Recovery
import GenieCloud.Almond.Records
import GenieCloud.Almond.FailedStart
import GenieCloud.Almond.SendSocket
import GenieCloud.Sql.ReplaceAll
import GenieCloud.Lib.Groups
import GenieCloud.Thingpedia.SchemaRows
import GenieCloud.Thingpedia.Snapshots
import GenieCloud.Util.ValidateTag
import GenieCloud.Util.Utterance
import GenieCloud.Util.ExampleNames
import GenieCloud.Nlp.Learn
import GenieCloud.Training.Completion
import GenieCloud.Training.KilledJob
import GenieCloud.Lib.GoJson
import GenieCloud.Dbproxy.Search
import GenieCloud.Lib.SplitOn
import GenieCloud.Thingpedia.BestResult
import GenieCloud.Auth.Usernames
import GenieCloud.Util.I18n
import GenieCloud.Thingpedia.DeviceSetup
import GenieCloud.Lib.Regex
import GenieCloud.Training.DevicePattern
import GenieCloud.Training.Paraphrases
import GenieCloud.Training.DatasetUpdate
import GenieCloud.Mturk.BatchUpload
import GenieCloud.Thingpedia.EntityUpload
import GenieCloud.Thingpedia.TranslatePage
import GenieCloud.Thingpedia.DatasetText
import GenieCloud.Nlp.SpeechToken
import GenieCloud.Almond.Webhooks
import GenieCloud.Util.KfInferenceUrl
import GenieCloud.Training.Constants
import GenieCloud.Thingpedia.WeeklyCredits
import GenieCloud.Nlp.ExactMatchers
import GenieCloud.Routes.CloudSync
import GenieCloud.Routes.MyConversation
import GenieCloud.Lib.LegacyUrl
import GenieCloud.Auth.RedirectUrls
import GenieCloud.Lib.UrlResolve
import GenieCloud.Util.CodeStorage
import GenieCloud.Util.Random
import GenieCloud.Util.StreamUtils
import GenieCloud.Lib.RegExp
import GenieCloud.Util.Tokenize
import GenieCloud.Util.BufferLookup
import GenieCloud.Util.StraddlingWrites
import GenieCloud.Util.UtteranceChunks
import GenieCloud.Routes.Organizations
import GenieCloud.Nlp.ModelReload
import GenieCloud.Nlp.SpeechStream
import GenieCloud.Thingpedia.Translations
import GenieCloud.Almond.ControlChannels
import GenieCloud.Thingpedia.ClassValidation
import GenieCloud.K8s.DeveloperBackend
