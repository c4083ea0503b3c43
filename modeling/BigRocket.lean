import BigRocket.Bonding.Path3Theorems
import BigRocket.Relay.CapacityTheorems
import BigRocket.Netstack.DeliveryTheorems
import BigRocket.Netstack.HalfCloseTheorems
import BigRocket.Netstack.PortTheorems
import BigRocket.Routing.NameFormTheorems
import BigRocket.Routing.RulesTheorems
import BigRocket.Socks.ConnectTheorems
import BigRocket.Socks.HttpHead
import BigRocket.Upstream.DetourTheorems
import BigRocket.Masque.DatagramTheorems
import BigRocket.Masque.DrainTheorems
import BigRocket.Tls.HelloTheorems
import BigRocket.Service.PacketEngineTheorems
import BigRocket.Service.UpstreamChoiceTheorems
import BigRocket.Config.UriPartsTheorems
import BigRocket.Bonding.SendQueueTheorems
import BigRocket.Service.SessionTrackerTheorems
import BigRocket.Service.WeightCalculatorTheorems
import BigRocket.Routing.EntryTheorems
import BigRocket.Prober.ManualRangeTheorems
import BigRocket.Bonding.RequestTheorems
import BigRocket.Service.XrayLinkTheorems
import BigRocket.Service.PathLossTheorems
import BigRocket.Service.IpParserTheorems
import BigRocket.Service.ChecksumTheorems
import BigRocket.Bonding.RampTheorems
import BigRocket.Relay.SegmentTheorems
import BigRocket.Relay.UdpRelayTheorems
import BigRocket.Relay.AckOrderTheorems
import BigRocket.Relay.TeardownTheorems
import BigRocket.Service.SupervisorAlertTheorems
import BigRocket.Service.SupervisorTimerTheorems
import BigRocket.Service.IdentityTheorems
import BigRocket.Config.LooseBase64ArrayTheorems
import BigRocket.Config.ShadowsocksTheorems
import BigRocket.Config.VmessTheorems
import BigRocket.Service.UdpAssociateTheorems
import BigRocket.Service.ConnectRelayTheorems
import BigRocket.Dns.HttpsEch
import BigRocket.Dns.Lookup
import BigRocket.Netstack.CreditTheorems
import BigRocket.Netstack.FlushTx
import BigRocket.Tls.EchSession
import BigRocket.Tls.FragmentingStream
import BigRocket.Tunnel.ExitPolicy
import BigRocket.Tunnel.Rekey
import BigRocket.Tunnel.ZeroTrust
import BigRocket.Prober.CandidateTheorems
import BigRocket.Prober.WgScan
import BigRocket.Masque.GatewayStrikes
import BigRocket.Bonding.PathSockets
import BigRocket.Service.AetherRuntime
