import DocaApps.Lib.BitWindow
import DocaApps.Ipsec.AntiReplay
import DocaApps.Proofs.AntiReplay
import DocaApps.Common.Pack
import DocaApps.Ipsec.PolicySocket
import DocaApps.Proofs.PolicySocket
import DocaApps.Ipsec.Encap
import DocaApps.Ipsec.FlowCommon
import DocaApps.Ipsec.FlowDecrypt
import DocaApps.Ipsec.FlowEncrypt
import DocaApps.Ipsec.Policy
import DocaApps.Proofs.FlowCommon
import DocaApps.Proofs.FlowDecrypt
import DocaApps.Proofs.FlowEncrypt
import DocaApps.Proofs.Classification
import DocaApps.Proofs.PolicyRun
import DocaApps.Ipsec.MbufChain
import DocaApps.Ipsec.PacketDecap
import DocaApps.Proofs.MbufChain
import DocaApps.Proofs.PacketParts
import DocaApps.Proofs.PacketRoundTrip
import DocaApps.Allreduce.Core
import DocaApps.Allreduce.Client
import DocaApps.Allreduce.Daemon
import DocaApps.Allreduce.Events
import DocaApps.Common.FlowPipesManager
import DocaApps.Proofs.MemPool
import DocaApps.Lib.Runs
import DocaApps.Proofs.FlowPipesManager
import DocaApps.Proofs.PipesCollisions
import DocaApps.Proofs.PipesCapacity
import DocaApps.Switch.Core
import DocaApps.Pcc.RttTemplate
import DocaApps.Proofs.RttTemplate
import DocaApps.Proofs.SwitchInStep
import DocaApps.L2Reflector.Device
import DocaApps.Proofs.L2Reflector
import DocaApps.Proofs.FlowTable
import DocaApps.SimpleFwd.FlowTable
import DocaApps.Proofs.AgingBuckets
import DocaApps.Proofs.IdleFlows
import DocaApps.SimpleFwd.Packet
import DocaApps.Proofs.PacketBounds
import DocaApps.Proofs.TunnelKeys
import DocaApps.Common.FlowPipe
import DocaApps.Lib.CountedLoop
import DocaApps.NatApp.Core
import DocaApps.Proofs.FlowPipe
import DocaApps.Proofs.NatRoundTrip
import DocaApps.Common.FlowParser
import DocaApps.Firewall.Core
import DocaApps.Lib.Fallible
import DocaApps.Proofs.FirewallDrop
import DocaApps.Common.FileServer
import DocaApps.FileIntegrity.Server
import DocaApps.Proofs.FileIntegrity
import DocaApps.FileCompression.Server
import DocaApps.Proofs.FileCompression
import DocaApps.DmaCopy.Core
import DocaApps.Proofs.DmaCopyInvariant
import DocaApps.Proofs.DmaCopyHost
import DocaApps.Proofs.DmaCopyDpu
import DocaApps.Proofs.DmaCopy
import DocaApps.Proofs.DmaCopyWaits
import DocaApps.Proofs.PacketChain
import DocaApps.Proofs.PacketTail
import DocaApps.Proofs.PacketInside
import DocaApps.Ipsec.UnsecuredBurst
import DocaApps.Proofs.SequenceNumbers
import DocaApps.Proofs.EncapLengths
import DocaApps.Allreduce.Offloaded
import DocaApps.Proofs.OffloadedAnswers
import DocaApps.Lib.KeyedList
import DocaApps.Common.FlowSkeleton
import DocaApps.Proofs.FlowSkeleton
import DocaApps.Grpc.Orchestrator
import DocaApps.Proofs.Orchestrator
import DocaApps.DpaAllToAll.Core
import DocaApps.Proofs.A2aInvariant
import DocaApps.Proofs.A2aKernel
import DocaApps.Proofs.A2aRuns
import DocaApps.Ipsec.Key
import DocaApps.Lib.HexText
import DocaApps.Proofs.KeyParsing
import DocaApps.Ipsec.BadSyndrome
import DocaApps.Proofs.BadSyndrome
import DocaApps.Ipsec.SecuredBurst
import DocaApps.Ipsec.Worker
import DocaApps.Lib.Splitting
import DocaApps.Proofs.Worker
import DocaApps.Lib.BatchFill
import DocaApps.NatApp.Insertion
import DocaApps.Proofs.NatInsertion
import DocaApps.Ipsec.PolicyRecord
import DocaApps.Proofs.RecordFields
import DocaApps.Proofs.PolicyParse
import DocaApps.Proofs.IdleGateway
import DocaApps.Proofs.PolicyRecord
import DocaApps.Lib.Endings
import DocaApps.Ipsec.BulkInsertion
import DocaApps.Proofs.BulkTracking
import DocaApps.Proofs.BulkDecryption
import DocaApps.Proofs.BulkOverflow
import DocaApps.Pcc.Clock
import DocaApps.Proofs.RateReactions
import DocaApps.Proofs.RttClock
import DocaApps.Proofs.RttAborts
import DocaApps.Proofs.RttResults
import DocaApps.Proofs.AddressTexts
import DocaApps.Common.StructParser
import DocaApps.Proofs.StructSplitting
import DocaApps.Common.StructFields
import DocaApps.Proofs.StructFields
import DocaApps.Proofs.MatchFields
import DocaApps.Proofs.ActionsFields
import DocaApps.Allreduce.Addresses
import DocaApps.Proofs.DestAddresses
import DocaApps.Allreduce.Connect
import DocaApps.Allreduce.Requests
import DocaApps.Proofs.Connect
import DocaApps.Proofs.UcxRequests
import DocaApps.SecureChannel.Core
import DocaApps.Proofs.SecureChannel
import DocaApps.Proofs.FirewallShell
import DocaApps.Common.FwdFields
import DocaApps.Proofs.RssQueues
import DocaApps.Proofs.ParamsCommands
import DocaApps.Proofs.TableSize
import DocaApps.Proofs.Lcores
import DocaApps.Proofs.ReceiveTimeouts
import DocaApps.Proofs.FileTransfer
import DocaApps.Proofs.LateSends
import DocaApps.Proofs.Telemetry
import DocaApps.Proofs.DpdkPorts
import DocaApps.Proofs.AppShield
import DocaApps.Proofs.ReflectorSetup
import DocaApps.Proofs.A2aSetup
import DocaApps.Proofs.ShellHistory
import DocaApps.Proofs.PackItems
import DocaApps.Proofs.ParamUpdates
import DocaApps.Proofs.PccThreads
import DocaApps.Proofs.IndexPartition
import DocaApps.Proofs.TreeReduction
import DocaApps.Proofs.OptionalRuns
import DocaApps.Ipsec.SaRelease
import DocaApps.Proofs.SaRelease
import DocaApps.Allreduce.GpuKernels
import DocaApps.Proofs.GpuReduction
