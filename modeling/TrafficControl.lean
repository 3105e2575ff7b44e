import TrafficControl.TrafficRouter.LongestPrefix
import TrafficControl.TrafficRouter.MatchOrder
import TrafficControl.TrafficRouter.Hash.MinimalDisruption
import TrafficControl.TrafficRouter.Secure.KeyManager
import TrafficControl.TrafficRouter.Config.Publication
import TrafficControl.TrafficRouter.Loc.FederationScan
import TrafficControl.TrafficRouter.Dns.KeyMaintenance
import TrafficControl.TrafficRouter.Dns.ZoneMaintenance
import TrafficControl.TrafficRouter.Ds.SteeringSwap
import TrafficControl.TrafficRouter.Loc.RedirectLoops
import TrafficControl.TrafficRouter.Loc.DatabaseReplacement
import TrafficControl.TrafficRouter.Config.ReleasedFlags
import TrafficControl.TrafficRouter.Config.RejectedSnapshots
import TrafficControl.TrafficRouter.Config.CertificateWait
import TrafficControl.TrafficMonitor.ToWrap.CRConfigRaw
import TrafficControl.TrafficMonitor.Peer.Availability
import TrafficControl.TrafficMonitor.Manager.CombinedDeliveryServices
import TrafficControl.TrafficMonitor.Threadsafe.UnpolledCaches
import TrafficControl.TrafficMonitor.Health.Thresholds
import TrafficControl.TrafficMonitor.Manager.LostUpdates
import TrafficControl.TrafficMonitor.Manager.MonitorConfig
import TrafficControl.TrafficMonitor.Manager.ResultVitals
import TrafficControl.TrafficOps.ToCookie.Authenticity
import TrafficControl.TrafficOps.Request.ActiveRequests
import TrafficControl.TrafficOps.Api.TenantIsolation
import TrafficControl.TrafficOps.Api.ConcurrentDeletes
import TrafficControl.Lib.Forest
import TrafficControl.TrafficOps.Tenant.Utils
import TrafficControl.TrafficOps.Tenant.Agreement
import TrafficControl.Lib.Guards
import TrafficControl.TrafficOps.Tenant.TenantApi
import TrafficControl.TrafficOps.Tenant.Hierarchy
import TrafficControl.TrafficOps.Keys.Riak
import TrafficControl.TrafficOps.Keys.Handlers
import TrafficControl.TrafficOps.Keys.TenantProtection
import TrafficControl.TrafficOps.Keys.SslReadBack
import TrafficControl.TrafficOps.Servers.Assignment
import TrafficControl.TrafficOps.Servers.FailedAssignment
import TrafficControl.Lib.DoubleText
import TrafficControl.TrafficMonitor.Health.TMParameters
import TrafficControl.TrafficOps.Monitoring.Profiles
import TrafficControl.TrafficOps.Monitoring.ParameterTrip
import TrafficControl.Lib.Calendar
import TrafficControl.TrafficStats.DailySummary
import TrafficControl.Lib.SharedLists
import TrafficControl.TrafficStats.Publishing
import TrafficControl.TrafficStats.Conservation
import TrafficControl.Lib.CStrings
import TrafficControl.Lib.InetAddress
import TrafficControl.TrafficServer.Astats.Access
import TrafficControl.TrafficServer.Astats.AllowedClients
import TrafficControl.TrafficMonitor.Health.ThresholdGrammar
import TrafficControl.TrafficStats.InfluxHosts
import TrafficControl.Lib.DottedNames
import TrafficControl.TrafficMonitor.DsData.Data
import TrafficControl.TrafficMonitor.DsData.Json
import TrafficControl.TrafficStats.DsValues
import TrafficControl.TrafficRouterGolang.Quadtree.Cells
import TrafficControl.TrafficRouterGolang.Quadtree.Tree
import TrafficControl.TrafficRouterGolang.Quadtree.Nearest
import TrafficControl.TrafficMonitor.Ds.Rates
import TrafficControl.TrafficMonitor.Cache.Astats
import TrafficControl.TrafficMonitor.Cache.AstatsBounds
import TrafficControl.Lib.KeyedSums
import TrafficControl.TrafficMonitor.Ds.CreateStats
import TrafficControl.TrafficMonitor.Cache.RemapStats
import TrafficControl.TrafficMonitor.Ds.StatTotals
import TrafficControl.Lib.Validation
import TrafficControl.TrafficOps.Deliveryservice.Validate
import TrafficControl.TrafficOps.Servers.AssignedFiles
import TrafficControl.Lib.Appends
import TrafficControl.Lib.FirstMatch
import TrafficControl.Lib.Submatch
import TrafficControl.TrafficOps.Routing.RouteMap
import TrafficControl.TrafficOps.Routing.Paths
import TrafficControl.TrafficOps.Routing.Matching
import TrafficControl.TrafficOps.Routing.Tables
import TrafficControl.TrafficOps.Routing.Dispatch
import TrafficControl.Lib.PaddedBase64
import TrafficControl.TrafficOps.Auth.Password
import TrafficControl.TrafficOps.Auth.Verification
import TrafficControl.Lib.TimeLayout
import TrafficControl.GoTc.Time
import TrafficControl.TrafficOps.Api.UniqueConstraint
import TrafficControl.TrafficRouter.NetworkSpecificity
import TrafficControl.TrafficRouter.Loc.WhiteList
import TrafficControl.Lib.DoubleBits
import TrafficControl.Lib.LinearProbing
import TrafficControl.TrafficRouter.Hash.DoubleHasher
import TrafficControl.TrafficRouter.Hash.TargetOrder
import TrafficControl.TrafficRouter.Hash.SteeringOrder
import TrafficControl.TrafficRouter.Router.NullSelection
import TrafficControl.TrafficRouter.Dns.SigningKey
import TrafficControl.Lib.Lexicographic
import TrafficControl.TrafficRouter.Dns.CanonicalOrder
import TrafficControl.TrafficRouter.Dns.ZoneLookup
import TrafficControl.TrafficRouter.Dns.ZoneSignerImpl
import TrafficControl.TrafficRouter.Dns.NameServer
import TrafficControl.TrafficRouter.Dns.AuthenticatedDenial
import TrafficControl.TrafficRouterGolang.Quadtree.Range
import TrafficControl.Lib.FirstDifference
import TrafficControl.TrafficRouter.MatcherComparison
import TrafficControl.TrafficMonitor.Datareq.StatSummary
import TrafficControl.TrafficRouter.Dns.AbstractProtocol
import TrafficControl.Lib.PrefixCode
import TrafficControl.TrafficRouter.Dns.NameText
import TrafficControl.TrafficRouter.Dns.SignedSets
import TrafficControl.Lib.KeyValueLine
import TrafficControl.TrafficRouter.Http.HTTPAccessEventBuilder
import TrafficControl.TrafficRouter.Http.AccessLine
import TrafficControl.TrafficRouter.Dns.NameLookup
import TrafficControl.TrafficRouter.Dns.AnswerEndings
import TrafficControl.TrafficRouter.Dns.AnsweredQueries
import TrafficControl.Lib.JsonText
import TrafficControl.TrafficServer.Astats.DecodedStats
import TrafficControl.Lib.RoundRobin
import TrafficControl.TrafficRouterGolang.Router
import TrafficControl.TrafficRouterGolang.RouterRuns
import TrafficControl.TrafficRouterGolang.Answers
import TrafficControl.TrafficOps.Ort.AppliedUpdates
import TrafficControl.TrafficOps.Ort.ScriptModes
import TrafficControl.TrafficOps.Topology.ServedRedirects
