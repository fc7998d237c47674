import QuicProxy.Proxy.Anytls.Auth
import QuicProxy.Proxy.Anytls.Datagram
import QuicProxy.Proxy.Anytls.Delivery
import QuicProxy.Proxy.Anytls.Drain
import QuicProxy.Proxy.Anytls.Isolation
import QuicProxy.Proxy.Anytls.Ownership
import QuicProxy.Proxy.Anytls.PaddingIndex
import QuicProxy.Proxy.Anytls.ReadFrame
import QuicProxy.Proxy.Anytls.UotSegments
import QuicProxy.Proxy.Anytls.Written
import QuicProxy.Proxy.AddressSync
import QuicProxy.Proxy.HandshakeFirst
import QuicProxy.Proxy.Hysteria2.Connection
import QuicProxy.Proxy.Hysteria2.DefragTable
import QuicProxy.Proxy.Inbound
import QuicProxy.Proxy.Inbound.Http
import QuicProxy.Proxy.Inbound.QuicRevocation
import QuicProxy.Proxy.Inbound.TcpRevocation
import QuicProxy.Proxy.Inbound.UserUpdate
import QuicProxy.Dns.Durable
import QuicProxy.Dns.OneToOne
import QuicProxy.Proxy.Observe.Conservation
import QuicProxy.Proxy.Observe.Credentials
import QuicProxy.Proxy.Observe.Removed
import QuicProxy.Proxy.Router.Locks
import QuicProxy.Proxy.Router.Relay
import QuicProxy.Proxy.Shadowquic.Attribution
import QuicProxy.Proxy.Shadowquic.WaitingDatagrams
import QuicProxy.Proxy.Shadowquic.ZeroRtt
import QuicProxy.Proxy.Shadowsocks.Datagram
import QuicProxy.Utils.KeyedNotify
import QuicProxy.Utils.PrefixedReadStream
import QuicProxy.Proxy.SessionCloser
import QuicProxy.Proxy.Trojan
import QuicProxy.Dns.Flight
import QuicProxy.Dns.ResponseCache
import QuicProxy.Dns.Exchange
import QuicProxy.Proxy.DnsOutbound
import QuicProxy.Proxy.Router.DispatchPacket
import QuicProxy.Proxy.Vmess.Listen
import QuicProxy.Proxy.Vmess.Fidelity
import QuicProxy.Proxy.Vmess.Datagram
import QuicProxy.Proxy.Hysteria2.UdpSession
import QuicProxy.Cache.RedbStore
import QuicProxy.Proxy.Router.ObservedPacket
import QuicProxy.Proxy.Router.ObservedStream
import QuicProxy.Proxy.AddressParsers
import QuicProxy.Proxy.Hysteria2.TcpReads
import QuicProxy.Proxy.Hysteria2.QpackRoundTrip
import QuicProxy.Proxy.Hysteria2.FieldSection
import QuicProxy.Proxy.Vmess.Header
import QuicProxy.Proxy.Router.SelectOut
import QuicProxy.Dns.TtlLimits
import QuicProxy.Dns.FakeIpRange
import QuicProxy.Proxy.Outbound.Selector
import QuicProxy.Proxy.Outbound.OrderAddrs
import QuicProxy.Proxy.Outbound.ConnectTcpAny
import QuicProxy.Utils.Ntp
import QuicProxy.Utils.PollFill
import QuicProxy.Proxy.Vmess.Kdf
import QuicProxy.Proxy.TargetText
import QuicProxy.Proxy.Inbound.HttpTargets
import QuicProxy.Proxy.Router.DirectReplies
import QuicProxy.Proxy.Router.UdpSessions
import QuicProxy.Proxy.Outbound.StreamPool
import QuicProxy.Proxy.Socks5
import QuicProxy.Proxy.Socks5Udp
import QuicProxy.Proxy.TrojanHandshake
import QuicProxy.Proxy.Vmess.Handshake
import QuicProxy.Proxy.Anytls.Client
import QuicProxy.Proxy.Shadowquic.Connection
import QuicProxy.Dns.FakeRoute
import QuicProxy.Dns.DohClient
import QuicProxy.Api.PersistStore
import QuicProxy.Proxy.Hysteria2.Auth
import QuicProxy.Proxy.Outbound.Transport
