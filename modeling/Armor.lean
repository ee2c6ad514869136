import Armor.Cross.Parameters
import Armor.Cross.Shake
import Armor.Cross.TreeWalk
import Armor.Cross.SeedTree
import Armor.Cross.SeedTreeFacts
import Armor.Cross.Merkle
import Armor.Cross.MerkleFacts
import Armor.Cross.TreeGuarantees
import Armor.Lib.Run
import Armor.Tls.Control
import Armor.Tls.Deadlock
import Armor.Keccak.Permutation
import Armor.Keccak.TwoLane
import Armor.Keccak.TwoLaneFacts
import Armor.Keccak.ShakeAgreement
import Armor.Cross.Completeness
import Armor.Cross.ContextTrace
import Armor.Cross.ArithmeticAgreement
import Armor.Cross.TreeEquivalence
import Armor.Cross.Queues
import Armor.Keccak.Assembly
import Armor.Keccak.AssemblyFacts
import Armor.Keccak.Serving
import Armor.Keccak.Streaming
import Armor.Lib.Appending
import Armor.Lib.Decimal
import Armor.Lib.FileTree
import Armor.Lib.Mean
import Armor.Lib.Text
import Armor.Results.ClassicAverages
import Armor.Results.ComputationalAverages
import Armor.Results.HandshakeAverages
import Armor.Results.HandshakeMetrics
import Armor.Results.MemoryResults
import Armor.Results.ParsedResults
import Armor.Results.SpeedResults
import Armor.Results.TlsSpeedAverages
import Armor.Tls.MachineId
import Armor.Tls.OpensslConf
import Armor.Tls.Redelivery
import Armor.Cross.FlagLayouts
import Armor.Keccak.TwoLaneBytes
import Armor.Lib.Numerals
import Armor.Lib.Script
import Armor.Results.SpeedLog
import Armor.Setup.AlgorithmLists
import Armor.Setup.ResultDirs
import Armor.Setup.SpeedLimits
import Armor.Tls.Ports
import Armor.Tls.SpeedTest
import Armor.Cross.Canonical
import Armor.Cross.Acceptance
import Armor.Cross.Binding
import Armor.Cross.Knowledge
import Armor.Cross.KeyFacts
import Armor.Cross.Api
import Armor.Cross.Unbiased
import Armor.Tls.ResultFiles
import Armor.Tls.Termination
import Armor.Tls.Credentials
import Armor.Results.ComputationalCampaign
import Armor.Tls.HandshakeCampaign
import Armor.Lib.Collision
import Armor.Lib.SelfInverse
import Armor.Keccak.Invertible
import Armor.Tls.SpeedCampaign
import Armor.Results.MemoryPrograms
