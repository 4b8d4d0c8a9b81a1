import CantonSdk.Base.Agreement
import CantonSdk.Base.Alike
import CantonSdk.Base.Approximation
import CantonSdk.Base.Calendar
import CantonSdk.Base.CalendarText
import CantonSdk.Base.Checked
import CantonSdk.Base.CodePointOrder
import CantonSdk.Base.Decimal
import CantonSdk.Base.DecimalText
import CantonSdk.Base.Effectful
import CantonSdk.Base.Framing
import CantonSdk.Base.HalfEven
import CantonSdk.Base.HostMap
import CantonSdk.Base.HostShape
import CantonSdk.Base.HostValue
import CantonSdk.Base.KeyedMap
import CantonSdk.Base.Loop
import CantonSdk.Base.Persistent
import CantonSdk.Base.Pushing
import CantonSdk.Base.Readable
import CantonSdk.Base.Related
import CantonSdk.Base.Search
import CantonSdk.Base.Segments
import CantonSdk.Base.Sorting
import CantonSdk.Base.Stateful
import CantonSdk.Base.Text
import CantonSdk.Base.Transition
import CantonSdk.Base.Traversal
import CantonSdk.Base.Window
import CantonSdk.Base.Worklist
import CantonSdk.Commands.GrpcMapper
import CantonSdk.Commands.JsonMapper
import CantonSdk.Commands.LedgerJson
import CantonSdk.Commands.ProducedValues
import CantonSdk.Commands.Resubmission
import CantonSdk.Commands.TransportParity
import CantonSdk.Commands.Weights
import CantonSdk.DamlInterface.AnalysisRuns
import CantonSdk.DamlInterface.Analyzer
import CantonSdk.DamlInterface.Closed
import CantonSdk.DamlInterface.Names
import CantonSdk.DamlInterface.Registry
import CantonSdk.DamlInterface.RelativeModuleSpecifier
import CantonSdk.DamlInterface.Samples.Annotations
import CantonSdk.DamlInterface.Samples.Completeness
import CantonSdk.DamlInterface.Samples.Emitter
import CantonSdk.DamlInterface.Samples.Scoping
import CantonSdk.DamlInterface.Samples.Termination
import CantonSdk.DamlInterface.Samples.Types
import CantonSdk.DamlLf.Interpreter.ArithmeticRange
import CantonSdk.DamlLf.Interpreter.BuiltinDispatch
import CantonSdk.DamlLf.Interpreter.Cancellation
import CantonSdk.DamlLf.Interpreter.Elimination
import CantonSdk.DamlLf.Interpreter.Evaluator
import CantonSdk.DamlLf.Interpreter.ExactArithmetic
import CantonSdk.DamlLf.Interpreter.ExactDecimal
import CantonSdk.DamlLf.Interpreter.ExactText
import CantonSdk.DamlLf.Interpreter.Expression
import CantonSdk.DamlLf.Interpreter.FiniteMaps
import CantonSdk.DamlLf.Interpreter.FunctionMap
import CantonSdk.DamlLf.Interpreter.Inspection
import CantonSdk.DamlLf.Interpreter.LedgerRecord
import CantonSdk.DamlLf.Interpreter.LexicalScope
import CantonSdk.DamlLf.Interpreter.NumericRounding
import CantonSdk.DamlLf.Interpreter.OrderCoherence
import CantonSdk.DamlLf.Interpreter.Preservation
import CantonSdk.DamlLf.Interpreter.ReplayState
import CantonSdk.DamlLf.Interpreter.Rollback
import CantonSdk.DamlLf.Interpreter.RuntimeValue
import CantonSdk.DamlLf.Mapper.ExpressionPath
import CantonSdk.DamlLf.Mapper.ExpressionTransparency
import CantonSdk.DamlLf.Mapper.Interning
import CantonSdk.DamlLf.Mapper.MappedExpression
import CantonSdk.DamlLf.Mapper.MapperSteps
import CantonSdk.DamlLf.Mapper.ModelMapper
import CantonSdk.DamlLf.Mapper.RawPackage
import CantonSdk.DamlLf.Mapper.ReferenceCycles
import CantonSdk.DamlLf.Mapper.TypeTransparency
import CantonSdk.DamlLf.Model
import CantonSdk.DamlValues.AcceptedValues
import CantonSdk.DamlValues.Descriptor
import CantonSdk.DamlValues.EventSource
import CantonSdk.DamlValues.Fuel
import CantonSdk.DamlValues.JsonImages
import CantonSdk.DamlValues.KeyReading
import CantonSdk.DamlValues.LedgerKeys
import CantonSdk.DamlValues.Likeness
import CantonSdk.DamlValues.MapKeys
import CantonSdk.DamlValues.MappedValues
import CantonSdk.DamlValues.Meaning
import CantonSdk.DamlValues.NumericText
import CantonSdk.DamlValues.QueryRows
import CantonSdk.DamlValues.SharedTypes
import CantonSdk.DamlValues.ValueConverter
import CantonSdk.DamlValues.WireForms
import CantonSdk.Debugger.CallStack
import CantonSdk.Debugger.ComparableValue
import CantonSdk.Debugger.Comparison
import CantonSdk.Debugger.ContractIds
import CantonSdk.Debugger.DeterminismSound
import CantonSdk.Debugger.DeterminismValidator
import CantonSdk.Debugger.Encodings
import CantonSdk.Debugger.Envelopes
import CantonSdk.Debugger.EnvironmentBuilder
import CantonSdk.Debugger.EnvironmentClosed
import CantonSdk.Debugger.Idempotence
import CantonSdk.Debugger.Normalizer
import CantonSdk.Debugger.Renormalization
import CantonSdk.Debugger.SameValues
import CantonSdk.Debugger.SessionStore
import CantonSdk.Debugger.StepProjection
import CantonSdk.Debugger.Stepping
import CantonSdk.Debugger.UntypedNormalizer
import CantonSdk.Hashing.CantonHash
import CantonSdk.Hashing.ElementBounds
import CantonSdk.Hashing.Fingerprint
import CantonSdk.Hashing.KeyBounds
import CantonSdk.Query.Canonical.Ast
import CantonSdk.Query.Canonical.Comparison
import CantonSdk.Query.Canonical.Dataset
import CantonSdk.Query.Canonical.Evaluator
import CantonSdk.Query.Canonical.FilterMeaning
import CantonSdk.Query.Canonical.JsonText
import CantonSdk.Query.Canonical.LikePattern
import CantonSdk.Query.Canonical.NormalForm
import CantonSdk.Query.Canonical.PublicIdentity
import CantonSdk.Query.Canonical.QueryArguments
import CantonSdk.Query.Canonical.QueryNormalizer
import CantonSdk.Query.Canonical.RowOrder
import CantonSdk.Query.Canonical.Schema
import CantonSdk.Query.Canonical.Value
import CantonSdk.Query.Grpc.ActiveContracts
import CantonSdk.Query.Grpc.ActiveQueries
import CantonSdk.Query.Grpc.CacheInvalidation
import CantonSdk.Query.Grpc.CacheProtocol
import CantonSdk.Query.Grpc.ContractCache
import CantonSdk.Query.Grpc.DatasetColumns
import CantonSdk.Query.Grpc.DeltaConsistency
import CantonSdk.Query.Grpc.DeltaRefresh
import CantonSdk.Query.Grpc.HistoryRange
import CantonSdk.Query.Grpc.IncrementalHistory
import CantonSdk.Query.Grpc.InverseEdges
import CantonSdk.Query.Grpc.LedgerApi
import CantonSdk.Query.Grpc.Lifecycle
import CantonSdk.Query.Grpc.MapperStages
import CantonSdk.Query.Grpc.OrderIndependence
import CantonSdk.Query.Grpc.PackageMetadata
import CantonSdk.Query.Grpc.Reconciliation
import CantonSdk.Query.Grpc.ReferencedPackages
import CantonSdk.Query.Grpc.RelationDataset
import CantonSdk.Query.Grpc.RelationMapper
import CantonSdk.Query.Grpc.SnapshotInvariant
import CantonSdk.Query.Grpc.SnapshotReader
import CantonSdk.Query.Grpc.StoredSnapshot
import CantonSdk.Query.Grpc.ValueMapper
import CantonSdk.Query.Pqs.AcceptedQueries
import CantonSdk.Query.Pqs.GuardSoundness
import CantonSdk.Query.Pqs.InjectionFree
import CantonSdk.Query.Pqs.Placeholders
import CantonSdk.Query.Pqs.PostgresLexer
import CantonSdk.Query.Pqs.ReadOnlySql
import CantonSdk.Query.Pqs.Readiness
import CantonSdk.Query.Pqs.RelationalCompiler
import CantonSdk.Query.Pqs.SchemaProfile
import CantonSdk.Query.Pqs.SqlCompiler
import CantonSdk.Query.Pqs.SqlText
import CantonSdk.Query.Pqs.StatementParameters
import CantonSdk.Query.Pqs.StatementTokens
import CantonSdk.Services.ActiveContractsTraversal
import CantonSdk.Services.DecentralizedParty
import CantonSdk.Services.PartyFinalization
import CantonSdk.Testing.CampaignMetrics
import CantonSdk.Testing.CampaignRunner
import CantonSdk.Testing.CampaignVerdict
import CantonSdk.Transports.ErrorInfoEncoding
import CantonSdk.Transports.ErrorInfoExact
import CantonSdk.Transports.ErrorInfoReading
import CantonSdk.Transports.TopologyCodec
import CantonSdk.Transports.TopologyRoundTrip
import CantonSdk.Transports.WireReader
