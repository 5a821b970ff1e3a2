import Baas.Adb.Sync
import Baas.Adb.SyncRun
import Baas.Auth.CanonicalJson
import Baas.Auth.CanonicalJsonRead
import Baas.Auth.CanonicalJsonText
import Baas.Auth.SecureEnvelope
import Baas.Auth.SecureEnvelopeRun
import Baas.Lib.Ancestry
import Baas.Lib.Arena
import Baas.Lib.Base64Url
import Baas.Lib.Binary64
import Baas.Lib.ByteOrder
import Baas.Lib.Decimal
import Baas.Lib.Durable
import Baas.Lib.Expansion
import Baas.Lib.Fips180
import Baas.Lib.Frontier
import Baas.Lib.Interaction
import Baas.Lib.JsonGrammar
import Baas.Lib.JsonPointer
import Baas.Lib.JsonText
import Baas.Lib.LinkedQueue
import Baas.Lib.LittleEndian
import Baas.Lib.OrderedMap
import Baas.Lib.PathText
import Baas.Lib.PrefixCode
import Baas.Lib.Program
import Baas.Lib.Rotation
import Baas.Lib.Rounds
import Baas.Lib.Scalars
import Baas.Lib.SquareMultiply
import Baas.Lib.Threads
import Baas.Lib.Tokens
import Baas.Lib.Transition
import Baas.Lib.Utf8
import Baas.Lib.Volume
import Baas.Pipe.Connection
import Baas.Pipe.ConnectionPhase
import Baas.Pipe.ConnectionRule
import Baas.Pipe.ConnectionRun
import Baas.Pipe.Framing
import Baas.Pipe.FramingRun
import Baas.Pipe.FramingStream
import Baas.Pipe.Ingress
import Baas.Pipe.OpenRequest
import Baas.Procedure.CoDetect
import Baas.Procedure.CoDetectDefinition
import Baas.Procedure.CoDetectIdentity
import Baas.Procedure.CoDetectReading
import Baas.Procedure.CoDetectRun
import Baas.Procedure.CoDetectSpelling
import Baas.Procedure.Coordinator
import Baas.Procedure.CoordinatorRun
import Baas.Procedure.DevicePort
import Baas.Procedure.DevicePortRule
import Baas.Procedure.DevicePortRun
import Baas.Procedure.Host
import Baas.Procedure.HostRun
import Baas.Procedure.HostValues
import Baas.Procedure.SupportBundle
import Baas.Procedure.SupportBundleExact
import Baas.Procedure.SupportBundleRun
import Baas.Repository.PublishJson
import Baas.Repository.PublishJsonRead
import Baas.Repository.Sha256
import Baas.Repository.Sha256Run
import Baas.Repository.TreeFormat
import Baas.Repository.TreeFormatRun
import Baas.Repository.TreeFormatText
import Baas.Repository.Updater
import Baas.Repository.UpdaterFiles
import Baas.Repository.UpdaterRun
import Baas.Repository.UpdaterSteps
import Baas.Resource.Archive
import Baas.Resource.ArchiveRun
import Baas.Resource.EventConfig
import Baas.Resource.EventConfigRun
import Baas.Resource.Import
import Baas.Resource.ImportDisk
import Baas.Resource.ImportLayout
import Baas.Resource.ImportRecord
import Baas.Resource.ImportRecovery
import Baas.Resource.ImportRun
import Baas.Resource.Json
import Baas.Resource.MemoryStore
import Baas.Resource.MemoryStoreRun
import Baas.Resource.PatchRfc
import Baas.Resource.PatchRfcRun
import Baas.Resource.Publication
import Baas.Resource.PublicationDelivery
import Baas.Resource.PublicationLead
import Baas.Resource.PublicationQueue
import Baas.Resource.PublicationRun
import Baas.Resource.PublicationSlots
import Baas.Resource.Replay
import Baas.Resource.Store
import Baas.Runtime.TaskOwner
import Baas.Runtime.TaskOwnerAbort
import Baas.Runtime.TaskOwnerCapture
import Baas.Runtime.TaskOwnerChange
import Baas.Runtime.TaskOwnerEffect
import Baas.Runtime.TaskOwnerInvariant
import Baas.Runtime.TaskOwnerLifecycle
import Baas.Runtime.TaskOwnerLifetime
import Baas.Runtime.TaskOwnerOrder
import Baas.Runtime.TaskOwnerRegistry
import Baas.Runtime.TaskOwnerSections
import Baas.Runtime.TaskOwnerStep
import Baas.Runtime.TaskOwnerStops
import Baas.Scheduler.Completion
import Baas.Scheduler.Planning
import Baas.Scheduler.Policy
import Baas.Scheduler.PolicyJson
import Baas.Scheduler.PolicyJsonRead
import Baas.Scheduler.PolicyJsonRun
import Baas.Scheduler.PolicyJsonShape
import Baas.Scheduler.PolicyJsonWrite
import Baas.Scheduler.Validity
import Baas.Script.Arithmetic
import Baas.Script.CapturesRun
import Baas.Script.Equality
import Baas.Script.EqualityRun
import Baas.Script.ErrorBounds
import Baas.Script.ErrorRun
import Baas.Script.Executor
import Baas.Script.ExecutorAnswers
import Baas.Script.ExecutorBooks
import Baas.Script.ExecutorEnd
import Baas.Script.ExecutorMove
import Baas.Script.ExecutorRun
import Baas.Script.ExecutorShutdown
import Baas.Script.Heap
import Baas.Script.HeapAccounts
import Baas.Script.HeapBooks
import Baas.Script.HeapChange
import Baas.Script.HeapCollect
import Baas.Script.HeapData
import Baas.Script.HeapError
import Baas.Script.HeapLedger
import Baas.Script.HeapMark
import Baas.Script.HeapOps
import Baas.Script.HeapRelease
import Baas.Script.HeapRotation
import Baas.Script.HeapRun
import Baas.Script.HeapSound
import Baas.Script.HeapThrow
import Baas.Script.HeapWrite
import Baas.Script.HostNames
import Baas.Script.Lexer
import Baas.Script.LexerPieces
import Baas.Script.LexerPlaces
import Baas.Script.LexerStrings
import Baas.Script.ModuleSpecifier
import Baas.Script.Names
import Baas.Script.Parser
import Baas.Script.ParserRun
import Baas.Script.SemanticAnalyzer
import Baas.Script.Sequences
import Baas.Script.Syntax
import Baas.Script.Text
import Baas.Trigger.Catalog
import Baas.Trigger.Ingress
import Baas.Trigger.IngressRun
import Baas.Trigger.Session
import Baas.Trigger.SessionConservation
import Baas.Trigger.SessionFlags
import Baas.Trigger.SessionHistory
import Baas.Trigger.SessionInvariant
import Baas.Trigger.SessionRun
import Baas.Trigger.SessionStep
import Baas.WebSocket.Authority
import Baas.WebSocket.AuthorityGrammar
import Baas.WebSocket.AuthorityRun
import Baas.WebSocket.Handshake
import Baas.WebSocket.HandshakeFields
import Baas.WebSocket.HandshakeGrammar
import Baas.WebSocket.HandshakeRun
import Baas.WebSocket.HandshakeValues
