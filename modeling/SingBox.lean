import SingBox.LegacyPreMatch
import SingBox.MatchSource
import SingBox.DnsRace
import SingBox.StreamSniff
import SingBox.PacketSniff
import SingBox.PreMatch
import SingBox.QuicSniff
import SingBox.XorConn
import SingBox.VlessSessions
import SingBox.FakeIPRestart
import SingBox.SudokuRoundTrip
import SingBox.SrsRoundTrip
import SingBox.FailoverStream
import SingBox.FailoverLocks
import SingBox.DnsMuxOnce
import SingBox.DnsPoolSharing
import SingBox.SavedBinary
import SingBox.UploadQueue
import SingBox.DnsClientChecks
import SingBox.DnsClientOptions
import SingBox.DnsLifetime
import SingBox.RealmConnect
import SingBox.RecordNonces
import SingBox.KipReplay
import SingBox.KipFrames
import SingBox.KcpWindow
import SingBox.BondAssembly
import SingBox.RelayClosing
import SingBox.KcpListener
import SingBox.KcpOptions
import SingBox.TrafficQuota
import SingBox.RemoteProvider
import SingBox.CacheBuckets
import SingBox.Kmutex
import SingBox.CallObfuscator
import SingBox.ManagedLimiter
import SingBox.UrlTestSelect
import SingBox.OutboundManager
