import CMFuzz.ByteCodec
import CMFuzz.LineStream
import CMFuzz.WordMixing
import CMFuzz.MajorityPoll
import CMFuzz.RuntimeText
import CMFuzz.WireProtocol
import CMFuzz.BridgeParsers
import CMFuzz.ParserAgreement
import CMFuzz.SplitMix
import CMFuzz.OpenSSLReference
import CMFuzz.VectorGeneration
import CMFuzz.GeneratorTrace
import CMFuzz.RequestRoundTrip
import CMFuzz.BackendLoops
import CMFuzz.ReplyCollection
import CMFuzz.VoteOracle
import CMFuzz.VoteRuling
import CMFuzz.RunAccounting
import CMFuzz.ViolationLog
import CMFuzz.VoteExactness
import CMFuzz.BackendOrder
import CMFuzz.Coverage
import CMFuzz.RunnerMain
import CMFuzz.BufferAccess
import CMFuzz.ComputeClis
import CMFuzz.BridgeDispatch
import CMFuzz.ComputeBounds
import CMFuzz.GeneratorBounds
import CMFuzz.FaultBuilds
import CMFuzz.BlockModes
import CMFuzz.FuzzEngine
import CMFuzz.NonceHarnesses
import CMFuzz.HpkeHarness
import CMFuzz.PqcDifferential
import CMFuzz.RandomPrograms
import CMFuzz.ReplayHarnesses
import CMFuzz.RandomCalls
import CMFuzz.ReaderRuns
import CMFuzz.MutationSelector
import CMFuzz.TradComposition
import CMFuzz.BigNumbers
import CMFuzz.EcdsaSequence
import CMFuzz.PayloadGrammar
import CMFuzz.HexGrammar
import CMFuzz.SampleMoments
import CMFuzz.TimingStatistics
import CMFuzz.DrawGranularity
import CMFuzz.InputSeed
import CMFuzz.BestScan
import CMFuzz.TimingVerdict
import CMFuzz.TimingSymmetry
import CMFuzz.TimedTargets
import CMFuzz.SeededSchemes
import CMFuzz.HarnessBuilds
import CMFuzz.HarnessVerdicts
import CMFuzz.SelfTests
import CMFuzz.KeySchedules
import CMFuzz.MultilibDifferential
import CMFuzz.Streams
import CMFuzz.TraditionalHarnesses
import CMFuzz.Rounds
import CMFuzz.TalliedBridges
import CMFuzz.BfvOracles
import CMFuzz.CkksOracles
import CMFuzz.ReleaseBuilds
import CMFuzz.CbcMalleability
import CMFuzz.CompositionSelfTests
import CMFuzz.LibraryAnswers
import CMFuzz.FleetAgreement
import CMFuzz.ConformingFleets
import CMFuzz.EcdsaReports
import CMFuzz.Stages
import CMFuzz.PqcPrograms
import CMFuzz.PqcKats
