import FlowDiscovery.Machine
import FlowDiscovery.Dict
import FlowDiscovery.BoundedQueue
import FlowDiscovery.KeyedSort
import FlowDiscovery.PyText
import FlowDiscovery.PyTime
import FlowDiscovery.PyLexers
import FlowDiscovery.EventTypes
import FlowDiscovery.FlowAdapters
import FlowDiscovery.FlowIngest
import FlowDiscovery.GroupIndex
import FlowDiscovery.GroupAggregator
import FlowDiscovery.GroupDecisions
import FlowDiscovery.SankeyPublisher
import FlowDiscovery.FlowWindower
import FlowDiscovery.Correlator
import FlowDiscovery.Conservation
import FlowDiscovery.DeltaWindows
import FlowDiscovery.EmissionOrder
import FlowDiscovery.LossyAccounting
import FlowDiscovery.GroupReload
import FlowDiscovery.ExcludedGroups
import FlowDiscovery.IdentityIndex
import FlowDiscovery.IdentityResolution
import FlowDiscovery.SqlText
import FlowDiscovery.IdentityService
import FlowDiscovery.NacAdapters
import FlowDiscovery.Framing
import FlowDiscovery.PyBytes
import FlowDiscovery.SyslogReceiver
import FlowDiscovery.AdGroupSync
import FlowDiscovery.FlowPublisher
import FlowDiscovery.IdIngest
import FlowDiscovery.PyIpaddress
import FlowDiscovery.WsSankey
import FlowDiscovery.AppResolver
import FlowDiscovery.CatalogReload
import FlowDiscovery.PyJson
import FlowDiscovery.SankeyFanout
import FlowDiscovery.PyBase64
import FlowDiscovery.PyJsonRoundTrip
import FlowDiscovery.Cursor
import FlowDiscovery.RawFlows
import FlowDiscovery.SankeyApi
import FlowDiscovery.WebFilter
import FlowDiscovery.FilterAgreement
import FlowDiscovery.SankeyStream
import FlowDiscovery.StreamConsumer
import FlowDiscovery.DeltaNumbers
import FlowDiscovery.RaisingTasks
import FlowDiscovery.Writer
import FlowDiscovery.GroupsService
import FlowDiscovery.Applications
import FlowDiscovery.AuditTrail
import FlowDiscovery.ResolverWorker
import FlowDiscovery.EntraSignin
import FlowDiscovery.LcdListing
import FlowDiscovery.StrandSums
import FlowDiscovery.GroupLinks
import FlowDiscovery.SourceAddresses
import FlowDiscovery.DeltaGraph
import FlowDiscovery.TiedBindings
import FlowDiscovery.TumblingWindows
import FlowDiscovery.ResolutionOrder
import FlowDiscovery.SuffixPatterns
import FlowDiscovery.LabelKinds
import FlowDiscovery.AuthVerify
import FlowDiscovery.DropOldest
import FlowDiscovery.OctetCounting
import FlowDiscovery.TokenBucket
import FlowDiscovery.TopLinks
import FlowDiscovery.CursorErrors
import FlowDiscovery.RejectedEvents
import FlowDiscovery.SigninPages
import FlowDiscovery.JwtVerify
import FlowDiscovery.LogFormats
import FlowDiscovery.Ad4624
import FlowDiscovery.PyJsonNesting
import FlowDiscovery.SyslogHeader
import FlowDiscovery.GroupSizes
import FlowDiscovery.WriterBatches
import FlowDiscovery.CursorRoundTrip
import FlowDiscovery.DeltaWire
import FlowDiscovery.DnsQueue
import FlowDiscovery.FlowBus
import FlowDiscovery.GroupSums
import FlowDiscovery.HistoricalSankey
import FlowDiscovery.IdentityBus
import FlowDiscovery.LiveFeed
import FlowDiscovery.WindowReports
import FlowDiscovery.EntraGroups
import FlowDiscovery.FortiGateLog
import FlowDiscovery.MembersModal
import FlowDiscovery.MockGenerator
import FlowDiscovery.SaasLabels
import FlowDiscovery.Sessions
