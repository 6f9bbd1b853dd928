import Eular.Utp.Stream.Proofs.PeerFin
import Eular.Utp.Stream.Proofs.Reassembly
import Eular.Utp.Send.Proofs.Retransmission
import Eular.Utp.Connection.Proofs.HistoryExact
import Eular.Utp.Connection.Proofs.Admission
import Eular.Utp.Connection.Proofs.FlowAgreement
import Eular.Utp.Connection.Proofs.Resend
import Eular.Utp.Send.Proofs.Order
import Eular.Utp.Send.Proofs.Probes
import Eular.Utp.Send.Proofs.Carriers
import Eular.Utp.Context.Proofs.Replay
import Eular.Utp.Scheduler.Proofs.Aging
import Eular.Utp.Context.Proofs.ConnectOutcome
import Eular.Utp.Context.Proofs.PendingRuns
import Eular.Utp.Congestion.Proofs.LossReports
import Eular.Utp.Send.Proofs.ProbeSize
import Eular.Kcp.Proofs.Acks
import Eular.Kcp.Proofs.WindowProbe
import Eular.Kcp.Proofs.MtuProbe
import Eular.Kcp.Proofs.HeaderCodec
import Eular.Kcp.Proofs.HeaderParsing
import Eular.Kcp.Proofs.SafeArithmetic
import Eular.Kcp.Proofs.Packing
import Eular.Kcp.Proofs.ConnectionIds
import Eular.Utils.Proofs.ConsistentHash
import Eular.Utils.Proofs.LruCache
import Eular.Kcp.Proofs.ClosingRuns
import Eular.Ntrs.Proofs.Auth
import Eular.Ntrs.Proofs.SnapshotRoundTrip
import Eular.Ntrs.Proofs.StunRoundTrip
import Eular.Ntrs.Proofs.Punch
import Eular.Ntrs.Proofs.HubMembership
import Eular.Utils.Proofs.CodeConvert
import Eular.Utils.Proofs.RingBuffer
import Eular.Utils.Proofs.BitMap
import Eular.Utils.Proofs.BufferStream
import Eular.Libevent.Proofs.Async
import Eular.Utils.Proofs.TimerProgress
import Eular.Config.Proofs.PathMaps
import Eular.Config.Proofs.Yaml
import Eular.Config.Proofs.IniRoundTrip
import Eular.Ntrs.Proofs.NatClass
import Eular.Ntrs.Proofs.AsyncComplete
import Eular.Utp.Congestion.Proofs.WindowedMax
import Eular.Utp.Proofs.MtuSearch
import Eular.Utp.Congestion.Proofs.RttEstimates
import Eular.Utp.Stream.Proofs.AckedPrefix
import Eular.Kcp.Proofs.Transfer
import Eular.Utp.Wire.AckFrame
