import NetworkManager.GlibAux.KeyFileAux
import NetworkManager.Core.ConfigDeviceState
import NetworkManager.Core.ConfigPrecedence
import NetworkManager.Platform.GlobalTrackerWeak
import NetworkManager.Platform.MptcpAddrsRun
import NetworkManager.Platform.Ip4AddressOrder
import NetworkManager.Platform.Ip6AddressOrder
import NetworkManager.Core.DnsManagerUpToDate
import NetworkManager.Core.L3ConfigDataMerge
import NetworkManager.Core.NDiscReceived
import NetworkManager.GlibAux.DedupMultiRun
import NetworkManager.Core.AcdNeverStuck
import NetworkManager.Core.AcdJustified
import NetworkManager.Core.AcdDefendType
import NetworkManager.Core.DhclientDuid
import NetworkManager.Settings.ShvarFileMap
import NetworkManager.Core.BondManagerConverges
import NetworkManager.Settings.RoutingRuleRoundTrip
import NetworkManager.Core.GlobalDnsTakesEffect
import NetworkManager.CloudSetup.MangleConnection
import NetworkManager.Lldp.TablesAgree
import NetworkManager.Core.Ip6PrefixDelegation
import NetworkManager.Core.DefaultRoute
import NetworkManager.Core.AutoconnectRetries
import NetworkManager.Core.PolicySecondariesSound
import NetworkManager.Core.CheckpointSound
import NetworkManager.Core.ConnectivitySound
import NetworkManager.Core.OvsdbReplicaSound
import NetworkManager.Core.OvsdbCallsSound
import NetworkManager.Core.NetnsSharedIp
import NetworkManager.Core.L3CfgCommitType
import NetworkManager.Core.DnsResolvConfText
import NetworkManager.Core.DhcpRouteOptions
import NetworkManager.Core.DhcpSearchList
import NetworkManager.Platform.IpRouteNormalize
import NetworkManager.Core.L3ConfigDataBestDefaultRoute
import NetworkManager.Core.L3ConfigDataCmp
import NetworkManager.Core.NDiscLifetimes
import NetworkManager.GlibAux.PrioqRuns
import NetworkManager.Settings.KeyfileKey
import NetworkManager.Core.DhclientClientId
import NetworkManager.GlibAux.DbusPathCmp
import NetworkManager.Core.SettingsUpdate
import NetworkManager.Settings.VariantAttributesKnown
import NetworkManager.GlibAux.EnvVarName
import NetworkManager.Core.MatchSpecDevice
import NetworkManager.GlibAux.Uuid
import NetworkManager.Core.ReverseDns
import NetworkManager.Settings.SettingVerify
import NetworkManager.InitrdGenerator.IpMethod
import NetworkManager.Core.OvsdbReapply
import NetworkManager.Core.WfdIes
import NetworkManager.Core.FirewallScripts
import NetworkManager.GlibAux.ArrayFindBsearchRange
import NetworkManager.Core.ManagerState
import NetworkManager.Settings.SettingOption
import NetworkManager.Core.WifiInformationElements
import NetworkManager.GlibAux.JsonAux
import NetworkManager.Core.DeviceRouteMetric
import NetworkManager.Core.WifiUtils
import NetworkManager.Settings.SettingBond
import NetworkManager.Settings.SettingWireguard
