import OpxNasLinux.Lib.Run
import OpxNasLinux.Lib.Loop
import OpxNasLinux.Lib.TwoWay
import OpxNasLinux.NlMsg
import OpxNasLinux.VrfIds
import OpxNasLinux.Lib.Listing
import OpxNasLinux.MacTable
import OpxNasLinux.Lib.Follow
import OpxNasLinux.McastCache
import OpxNasLinux.McastEvents
import OpxNasLinux.IfBonds
import OpxNasLinux.IfBridges
import OpxNasLinux.IfCache
import OpxNasLinux.IfHandlers
import OpxNasLinux.IfLink
import OpxNasLinux.IfNames
import OpxNasLinux.Lib.Bisect
import OpxNasLinux.Lib.Dict
import OpxNasLinux.Lib.Alloc
import OpxNasLinux.Lib.Delimited
import OpxNasLinux.IdTool
import OpxNasLinux.SvcsRule
import OpxNasLinux.SvcsRuleList
import OpxNasLinux.SvcsRuleCache
import OpxNasLinux.CacheEdits
import OpxNasLinux.CacheSteps
import OpxNasLinux.IncomingRule
import OpxNasLinux.OutgoingRule
import OpxNasLinux.CacheInvariants
import OpxNasLinux.CacheWorld
import OpxNasLinux.KernelChain
import OpxNasLinux.Host
import OpxNasLinux.VrfTool
import OpxNasLinux.HostFrames
import OpxNasLinux.VethSetUp
import OpxNasLinux.VrfLifeCycle
import OpxNasLinux.VethRegistry
import OpxNasLinux.SrcIpEffects
import OpxNasLinux.SrcIp
import OpxNasLinux.IpSvcsRules
import OpxNasLinux.DefaultVrf
import OpxNasLinux.OutgoingHandlers
import OpxNasLinux.OutgoingPorts
import OpxNasLinux.CacheOutcomes
import OpxNasLinux.UpdateRefused
import OpxNasLinux.UpdateResult
import OpxNasLinux.CacheMutex
import OpxNasLinux.ProcessRules
import OpxNasLinux.Lib.Search
import OpxNasLinux.InetText
import OpxNasLinux.NormalAddress
import OpxNasLinux.IncomingIptables
import OpxNasLinux.IptablesListing
import OpxNasLinux.ListingColumns
import OpxNasLinux.ListingReadBack
import OpxNasLinux.RuleGet
import OpxNasLinux.RuleSelected
import OpxNasLinux.NlSockets
import OpxNasLinux.Lib.ByteStore
import OpxNasLinux.NlBuild
import OpxNasLinux.NlReadBack
import OpxNasLinux.RouteMsg
import OpxNasLinux.RouteHops
import OpxNasLinux.RouteReadBack
import OpxNasLinux.RouteDelete
import OpxNasLinux.Lib.Pool
import OpxNasLinux.IdLowest
import OpxNasLinux.BaseVrf
import OpxNasLinux.RouteRoom
import OpxNasLinux.Lib.Exit
import OpxNasLinux.NlDump
import OpxNasLinux.RouteInfo
import OpxNasLinux.AttrTables
import OpxNasLinux.DumpLists
import OpxNasLinux.AddressSpelling
import OpxNasLinux.RtaLoop
import OpxNasLinux.NeighNetconf
import OpxNasLinux.McastIfNames
import OpxNasLinux.McastNetlink
import OpxNasLinux.McastPublished
import OpxNasLinux.Nflog
import OpxNasLinux.IpAddress
import OpxNasLinux.IpNetconf
import OpxNasLinux.VrfUpdate
import OpxNasLinux.TaggedIntf
import OpxNasLinux.MacRetry
import OpxNasLinux.IfObject
import OpxNasLinux.IfAccess
import OpxNasLinux.IfStack
import OpxNasLinux.LagPort
import OpxNasLinux.VrfChains
import OpxNasLinux.OutgoingChains
import OpxNasLinux.SnoopRules
import OpxNasLinux.SnoopRoutes
import OpxNasLinux.BaseIp
import OpxNasLinux.Ipv6Text
import OpxNasLinux.Ipv6Rules
import OpxNasLinux.Ipsec
import OpxNasLinux.DadTimer
import OpxNasLinux.EventStats
import OpxNasLinux.StatsLedger
import OpxNasLinux.EventThread
import OpxNasLinux.IpInfo
import OpxNasLinux.HashMaxQueue
import OpxNasLinux.IncomingCalls
import OpxNasLinux.StaticMrouters
import OpxNasLinux.VrfIntf
