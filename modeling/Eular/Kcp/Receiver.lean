/-
The receiving half of kcp's control block (`kcp_protocol.c`, the
`kcp_rcv_*` functions and `on_kcp_push_pcaket`; `kcpp.c`, `kcp_recv`).

Three structures hold what has arrived and was not handed over: the tree
`rcv_buf` of the segments by `sn`, the tree `rcv_packet` of the assemblies
by `psn`, and the list `rcv_packet_list` of the same assemblies by
`start_sn`. The first is only ever asked for a number, so it is the list of
the numbers in it; the other two hold the same objects, so they are one
list, in the order of `rcv_packet_list`. Of the free list only the length
is kept. The context has its socket, so that `SOCKET_CLOSED` is never
answered; what `malloc` grants is an input.
-/
import Eular.Kcp.Segment

namespace Eular.Kcp

/-- The fields of `KcpConnection` the receiving side works on. -/
structure KcpReceiver where
  rcvNxt : Nat := 0
  rcvWnd : Int := KCP_WND_RCV
  nrcvBuf : Int := 0
  nrcvQue : Int := 0
  nrcvBufUnused : Int := 0
  rcvQueueBytes : Int := 0
  rcvQueue : List KcpSegment := []
  /-- the numbers in the tree `rcv_buf` -/
  rcvBuf : List Nat := []
  rcvPacketList : List KcpPacketAssembly := []
  /-- the length of `rcv_buf_unused` -/
  rcvBufUnused : Nat := 0
  ackItem : List KcpAck := []
deriving DecidableEq, Repr

-- ==== assemblies

namespace KcpPacketAssembly

/-- The loop of `kcp_rcv_packet_is_complete`. -/
def consecutive : Nat → List KcpSegment → Bool
  | _, [] => true
  | expectedSn, pos :: rest => pos.sn == expectedSn && consecutive (u32 (expectedSn + 1)) rest

variable (packet : KcpPacketAssembly)

/-- `kcp_rcv_packet_is_complete`. -/
def isComplete : Bool :=
  packet.hasHead && packet.expectedFrags != 0 && packet.expectedFrags == packet.receivedFrags
    && consecutive packet.startSn packet.fragments

/-- `packet->start_sn + packet->expected_frags`. -/
def endSn : Nat := u32 (packet.startSn + packet.expectedFrags)

/-- The first fragment says how many there are. -/
def setHead (segment : KcpSegment) : KcpPacketAssembly :=
  { packet with hasHead := true, expectedFrags := u16 segment.wnd, startSn := segment.sn }

/-- The fragment takes its place, and is counted. -/
def addFragment (segment : KcpSegment) : KcpPacketAssembly :=
  { packet with
    fragments := packet.fragments.orderedInsert (fun a b => a.frg < b.frg) segment
    receivedFrags := u16 (packet.receivedFrags + 1)
    totalSize := i32 (packet.totalSize + i32 segment.len) }

end KcpPacketAssembly

/-- `kcp_rcv_packet_order_insert`. -/
def orderInsert (packet : KcpPacketAssembly) (packets : List KcpPacketAssembly) :
    List KcpPacketAssembly :=
  packets.orderedInsert (fun p q => p.startSn < q.startSn) packet

/-- The assembly a segment belongs to is found or created. -/
def findOrCreate (segment : KcpSegment) (packets : List KcpPacketAssembly) :
    List KcpPacketAssembly :=
  if packets.any (·.psn == segment.psn) then packets
  else
    orderInsert
      { psn := segment.psn, startSn := u32 (segment.sn + 2 ^ 32 - segment.frg) } packets

/-- The segment enters its assembly; with the first fragment the assembly
takes its place in the list anew. -/
def storeFragment (segment : KcpSegment) (packets : List KcpPacketAssembly) :
    List KcpPacketAssembly :=
  if segment.frg = 0 then
    match packets.find? (·.psn == segment.psn) with
    | some packet =>
      orderInsert ((packet.setHead segment).addFragment segment)
        (packets.eraseP (·.psn == segment.psn))
    | none => packets
  else
    packets.map fun packet =>
      if packet.psn == segment.psn then packet.addFragment segment else packet

-- ==== PUSH

/-- What a processed PUSH asks of the control block: to tell its window, or
to call `read_event_cb`. -/
inductive PushOutcome where
  | nothing
  | tell
  | read (size : Int)
deriving DecidableEq, Repr

namespace KcpReceiver

variable (r : KcpReceiver)

/-- `kcp_wnd_unused`. -/
def wndUnused : Int :=
  if r.nrcvBuf < r.rcvWnd then r.rcvWnd - r.nrcvBuf else 0

/-- `kcp_conn->rcv_nxt + kcp_conn->rcv_wnd`. -/
def windowEnd : Nat := u32OfInt (r.rcvNxt + r.rcvWnd)

/-- `kcp_segment_recv_get`, where it gets one. -/
def segmentRecvGet : KcpReceiver :=
  if 0 < r.rcvBufUnused then
    { r with rcvBufUnused := r.rcvBufUnused - 1, nrcvBufUnused := i32 (r.nrcvBufUnused - 1) }
  else r

/-- `kcp_segment_recv_put`. -/
def segmentRecvPut : KcpReceiver :=
  if r.nrcvBufUnused < r.rcvWnd then
    { r with rcvBufUnused := r.rcvBufUnused + 1, nrcvBufUnused := i32 (r.nrcvBufUnused + 1) }
  else r

/-- The segment a PUSH is copied to. -/
def segmentOf (p : KcpPush) : KcpSegment where
  frg := p.frg
  wnd := p.wnd
  ts := p.ts
  sn := p.sn
  psn := p.psn
  una := p.una
  data := p.data

/-- `rcv_nxt` steps over the numbers the tree holds. Each step meets a
number once, so there are at most as many as the tree has. -/
def advance (rcvBuf : List Nat) : Nat → Nat → Nat
  | 0, nxt => nxt
  | fuel + 1, nxt => if nxt ∈ rcvBuf then advance rcvBuf fuel (u32 (nxt + 1)) else nxt

/-- The segment is stored and `rcv_nxt` follows. -/
def store (segment : KcpSegment) : KcpReceiver :=
  let rcvBuf := segment.sn :: r.rcvBuf
  { r with
    rcvPacketList := storeFragment segment (findOrCreate segment r.rcvPacketList)
    rcvBuf
    nrcvBuf := i32 (r.nrcvBuf + 1)
    rcvNxt :=
      if segment.sn = r.rcvNxt then advance rcvBuf rcvBuf.length (u32 (r.rcvNxt + 1))
      else r.rcvNxt }

/-- One fragment goes from the tree to `rcv_queue`. -/
def moveFragment (pos : KcpSegment) : KcpReceiver :=
  { r with
    rcvBuf := r.rcvBuf.erase pos.sn
    rcvQueue := r.rcvQueue ++ [pos]
    nrcvBuf := i32 (r.nrcvBuf - 1)
    nrcvQue := i32 (r.nrcvQue + 1)
    rcvQueueBytes := i32 (r.rcvQueueBytes + i32 pos.len) }

/-- The assembly at the head of the list can be handed over. -/
def headReady : Bool :=
  match r.rcvPacketList with
  | [] => false
  | packet :: _ => packet.isComplete && packet.endSn ≤ r.rcvNxt

/-- The end of `on_kcp_push_pcaket`: the message at the head is handed
over. -/
def handOver : KcpReceiver × PushOutcome :=
  match r.rcvPacketList with
  | [] => (r, .nothing)
  | packet :: rest =>
    if packet.isComplete && packet.endSn ≤ r.rcvNxt then
      ({ packet.fragments.foldl moveFragment r with rcvPacketList := rest },
        .read packet.totalSize)
    else (r, .nothing)

/-- The requests for an ACK item and, with an empty free list, a segment. -/
def requests : Nat := if 0 < r.rcvBufUnused then 1 else 2

/-- `on_kcp_push_pcaket`, past the update of the keepalive. -/
def onPush (p : KcpPush) (now : Nat) (malloc : Malloc := none) :
    KcpReceiver × PushOutcome :=
  if r.windowEnd ≤ p.sn then (r, .tell)
  else if p.sn < r.rcvNxt then (r, .nothing)
  else if malloc.refuses r.requests then (r, .nothing)
  else
    let noAssembly := !r.rcvPacketList.any (·.psn == p.psn) && malloc.refuses (r.requests + 1)
    let r := r.segmentRecvGet
    -- a segment the tree holds already takes its ACK item back with it, as
    -- does one whose assembly cannot be created
    if p.sn ∈ r.rcvBuf then (r.segmentRecvPut, .nothing)
    else if noAssembly then (r.segmentRecvPut, .nothing)
    else
      let r := { r with ackItem := r.ackItem ++ [KcpAck.mk p.sn p.psn now] }
      (r.store (segmentOf p)).handOver

-- ==== read

/-- What `kcp_recv` copies, and what it returns. -/
structure Read where
  copied : List UInt8
  peekSize : Int
deriving DecidableEq, Repr

/-- The bytes the caller is told it has. -/
def Read.returned (read : Read) : List UInt8 := read.copied.take read.peekSize.toNat

/-- One turn of the loop of `kcp_recv`. -/
def takeSegment (q : KcpReceiver × Read) (pos : KcpSegment) : KcpReceiver × Read :=
  let r := { q.1 with rcvQueueBytes := i32 (q.1.rcvQueueBytes - i32 pos.len) }.segmentRecvPut
  ({ r with nrcvQue := i32 (r.nrcvQue - 1) },
    ⟨q.2.copied ++ pos.data, i32 (q.2.peekSize + i32 pos.len)⟩)

/-- `kcp_recv`, in the state `state` of the connection; the last component
asks to tell the window. -/
def recv (state : KcpConnectionState) (size : Nat) :
    Except KcpError (KcpReceiver × Read × Bool) :=
  if size = 0 then .error .INVALID_PARAM
  else if state ≠ .CONNECTED then .error .INVALID_STATE
  else if r.rcvQueue.isEmpty then .error .OP_TRY_AGAIN
  else if i32 size < r.rcvQueueBytes then .error .BUFFER_TOO_SMALL
  else
    let recover := r.rcvWnd ≤ r.nrcvQue
    let q := r.rcvQueue.foldl takeSegment ({ r with rcvQueue := [] }, ⟨[], 0⟩)
    .ok (q.1, q.2, recover && q.1.nrcvQue < q.1.rcvWnd)

end KcpReceiver

end Eular.Kcp
