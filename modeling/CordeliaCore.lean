import CordeliaCore.KeyedTable
import CordeliaCore.TableEdits
import CordeliaCore.DedupRegister
import CordeliaCore.StepRuns
import CordeliaCore.Flooding
import CordeliaCore.CursorPaging
import CordeliaCore.CursorReading
import CordeliaCore.SeparatedFields
import CordeliaCore.SortedChoice
import CordeliaCore.TextEncodings
import CordeliaCore.GreedyBatches
import CordeliaCore.QuotedLiterals
import CordeliaCore.CivilTime
import CordeliaCore.CryptoPrimitives
import CordeliaCore.ProtocolMessages
import CordeliaCore.Timestamps
import CordeliaCore.StorageRows
import CordeliaCore.StorageSqlite
import CordeliaCore.ReplicationEngine
import CordeliaCore.ApiHandlers
import CordeliaCore.SwarmDescriptors
import CordeliaCore.SwarmHandlers
import CordeliaCore.ReplicationAntiEntropy
import CordeliaCore.ReplicationLoop
import CordeliaCore.PeerGovernor
import CordeliaCore.ReceiveEffect
import CordeliaCore.ApiEffect
import CordeliaCore.DescriptorEffect
import CordeliaCore.AntiEntropyEffect
import CordeliaCore.LoopEffect
import CordeliaCore.PushEffect
import CordeliaCore.GovernorEffect
import CordeliaCore.InboundTasks
import CordeliaCore.GroupRegistry
import CordeliaCore.DescriptorAuthority
import CordeliaCore.GroupIsolation
import CordeliaCore.ReceiveConvergence
import CordeliaCore.DeletionOrdering
import CordeliaCore.RelayFlooding
import CordeliaCore.PartitionHeal
import CordeliaCore.SyncCoverage
import CordeliaCore.PrivateItems
import CordeliaCore.DescriptorEmission
import CordeliaCore.DescriptorConvergence
import CordeliaCore.InboundAcceptance
import CordeliaCore.RelayForwarding
import CordeliaCore.GroupProvenance
import CordeliaCore.DeletedGroups
import CordeliaCore.StampOrder
import CordeliaCore.ServedItems
import CordeliaCore.ReplicaAgreement
import CordeliaCore.EntrySteps
import CordeliaCore.GovernorBounds
import CordeliaCore.PeerStates
import CordeliaCore.PeerTransitions
import CordeliaCore.PeerPool
import CordeliaCore.PoolActions
import CordeliaCore.GovernorLoop
import CordeliaCore.PoolAgreement
import CordeliaCore.SqlScripts
import CordeliaCore.StorageSchema
import CordeliaCore.SchemaLayouts
import CordeliaCore.SchemaMigration
import CordeliaCore.SchemaRestart
import CordeliaCore.StorageDevices
import CordeliaCore.DeviceTokens
import CordeliaCore.StorageJournal
import CordeliaCore.OwnerPinning
import CordeliaCore.GroupEvents
import CordeliaCore.CopyOnWrite
import CordeliaCore.RetryQueue
import CordeliaCore.ConcurrentWrites
import CordeliaCore.WriteAgreement
import CordeliaCore.DeviceRevocation
import CordeliaCore.ReceiveProgress
import CordeliaCore.ReceiveFaults
import CordeliaCore.GroupPaging
import CordeliaCore.MergeFrame
import CordeliaCore.DescriptorCanon
import CordeliaCore.DialDecisions
import CordeliaCore.DialBackoff
import CordeliaCore.DialConsistency
import CordeliaCore.PeerReplacement
import CordeliaCore.ConnectedFlag
import CordeliaCore.PeerPromotion
import CordeliaCore.PeerGossip
import CordeliaCore.GroupExchange
import CordeliaCore.BatchSplitting
import CordeliaCore.WireSizes
import CordeliaCore.StorageAtomicity
import CordeliaCore.FullTextSearch
import CordeliaCore.SearchQueries
import CordeliaCore.NodeKeys
import CordeliaCore.PendingCalls
import CordeliaCore.NodeConfig
import CordeliaCore.SwarmTask
import CordeliaCore.SwarmCalls
import CordeliaCore.SwarmConnections
import CordeliaCore.FloodCoverage
import CordeliaCore.RelayCoverage
import CordeliaCore.PullGossip
import CordeliaCore.ReplicaConvergence
import CordeliaCore.NodeTasks
import CordeliaCore.PushRouting
import CordeliaCore.RequestServers
import CordeliaCore.ApiRouter
import CordeliaCore.ApiGuarantees
import CordeliaCore.ApiMemory
import CordeliaCore.EventLogs
import CordeliaCore.PoolEffect
import CordeliaCore.DialProvenance
import CordeliaCore.Bootnodes
import CordeliaCore.SyncSchedule
import CordeliaCore.Base64Decoding
import CordeliaCore.PayloadEncryption
import CordeliaCore.WriteDelivery
