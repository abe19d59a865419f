import Tollwing.AWSTopology
import Tollwing.Attribution
import Tollwing.Bands
import Tollwing.Chargeback
import Tollwing.Classifier
import Tollwing.ClassifierSpec
import Tollwing.ClusterCIDRs
import Tollwing.ClusterIPIndex
import Tollwing.ClusterInformer
import Tollwing.ColoredSearch
import Tollwing.ContainerID
import Tollwing.CostEngine
import Tollwing.CostExport
import Tollwing.CostReport
import Tollwing.CycleSearch
import Tollwing.DNSCacheBound
import Tollwing.DNSCapture
import Tollwing.DNSResponses
import Tollwing.DNSRetention
import Tollwing.DNSTracker
import Tollwing.Differential
import Tollwing.DnatEvents
import Tollwing.DurableUpgrade
import Tollwing.Durations
import Tollwing.EdgeSource
import Tollwing.EndpointSlices
import Tollwing.EnricherCache
import Tollwing.Exporter
import Tollwing.FinMap
import Tollwing.FixedPoint
import Tollwing.FlowConservation
import Tollwing.FlowStream
import Tollwing.GoJson
import Tollwing.GraphReports
import Tollwing.GraphTotals
import Tollwing.HandlePoll
import Tollwing.Handover
import Tollwing.Inflow
import Tollwing.Informer
import Tollwing.IntentCache
import Tollwing.IntentGenerations
import Tollwing.IntentJoin
import Tollwing.IntentOrigin
import Tollwing.LiveOverlay
import Tollwing.Loader
import Tollwing.LongestMatch
import Tollwing.MeterReset
import Tollwing.MetricsText
import Tollwing.NATRoute
import Tollwing.NetAddr
import Tollwing.NodeAgent
import Tollwing.NodeBooks
import Tollwing.NodeSystem
import Tollwing.NodeTotals
import Tollwing.NonnegPrices
import Tollwing.Outlets
import Tollwing.ParseAddr
import Tollwing.PathShares
import Tollwing.PeerIdentity
import Tollwing.PeeringGuard
import Tollwing.PerfectBill
import Tollwing.PodCardinality
import Tollwing.PodEviction
import Tollwing.PodIndex
import Tollwing.PodLeftovers
import Tollwing.PodRecords
import Tollwing.PollAccounting
import Tollwing.PollFallback
import Tollwing.PollLoops
import Tollwing.PrefixOverlap
import Tollwing.PrefixTree
import Tollwing.PriceList
import Tollwing.PricingOracle
import Tollwing.ProgramFallback
import Tollwing.QueryCounts
import Tollwing.QuicEgress
import Tollwing.QuicFrames
import Tollwing.Quote
import Tollwing.RateCard
import Tollwing.RateRefresh
import Tollwing.Recency
import Tollwing.Reconcile
import Tollwing.ReconcileReport
import Tollwing.Regions
import Tollwing.ScanFloat
import Tollwing.ScanReport
import Tollwing.Scenario
import Tollwing.ServiceGraph
import Tollwing.ServiceIdentity
import Tollwing.ServiceMapping
import Tollwing.Sessions
import Tollwing.SharedIndex
import Tollwing.SharedTable
import Tollwing.Shutdown
import Tollwing.SidecarProcesses
import Tollwing.SingleMeter
import Tollwing.SliceOrder
import Tollwing.SliceSort
import Tollwing.SlotRing
import Tollwing.SocketCleanup
import Tollwing.SocketTables
import Tollwing.StructLayout
import Tollwing.SubjectTokens
import Tollwing.SubnetZones
import Tollwing.Subscriber
import Tollwing.TcpLifecycle
import Tollwing.TcpSessions
import Tollwing.TerraformPlan
import Tollwing.TopologyRefresh
import Tollwing.UdpOwner
import Tollwing.UnknownTraffic
import Tollwing.UsageTypes
import Tollwing.Windows
import Tollwing.WireEvents
import Tollwing.ZoneFeed
import Tollwing.ZoneLookup
import Tollwing.ZoneResolver
