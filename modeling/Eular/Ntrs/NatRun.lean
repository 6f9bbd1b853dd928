/-
A NAT detection and what it takes place in: the client behind a translator,
two probe servers, and the packets between them.

A packet is a request beyond the translator, an answer before it, or a
datagram it has let in. One event moves one packet a hop, loses it, doubles
it, has the client read it or fires the client's timer, so that packets are
late and out of order as they please; a packet that is never moved again is as
good as lost. The translator keeps a record of what it lets in (`passages`),
with the remotes written to until then.
-/
import Eular.Lib.Run
import Eular.Ntrs.NatProbe

namespace Eular.Ntrs

open Lib

-- ==== the parties

/-- An address of the ranges set aside for private networks. -/
def Ip.IsPrivate : Ip → Prop
  | .v4 value =>
    value &&& 0xFF000000 = 0x0A000000 ∨ value &&& 0xFFF00000 = 0xAC100000 ∨
      value &&& 0xFFFF0000 = 0xC0A80000
  | .v6 _ => False

/-- A bound socket of a private address, which `getsockname` may not name
before the socket is connected. The look-up ends with a `connect` to
`AF_UNSPEC`, which gives up a port the system chose (`portBound` is false): so
the port was given to `bind`, or the endpoint is known and none is looked up. -/
structure PrivateSocket extends UdpSocket where
  portBound : Bool
  port_kept : portBound = true ∨ name.ip ≠ .any ∧ name.port ≠ 0
  name_private : name.ip = .any ∨ name.ip.IsPrivate
  route_private : ∀ remote endpoint, route remote = some endpoint → endpoint.ip.IsPrivate

/-- A translator of IPv4 with room for two mappings. -/
structure NatGateway extends Translator Ip UInt16 where
  publicIp_v4 : isIpv4Text publicIp = true
  port_ne : ∀ used, allocate used ≠ 0
  room : 2 ≤ capacity

def NatGateway.natClass (gateway : NatGateway) : NatClass :=
  match gateway.mapping, gateway.filtering with
  | .endpointIndependent, .endpointIndependent => .fullCone
  | .endpointIndependent, .addressDependent => .ipRestricted
  | .endpointIndependent, .addressAndPortDependent => .portRestricted
  | _, _ => .symmetric

/-- How much a class promises to let in. -/
def NatClass.openness : NatClass → Nat
  | .openPublic => 5
  | .openPublicWithFirewall => 4
  | .fullCone => 3
  | .ipRestricted => 2
  | .portRestricted => 1
  | .symmetric | .symmetricMultiLine | .unknown | .udpBlocked => 0

/-- Two probe servers at different addresses. The primary one has a second
port, and `otherAddr` is what an answer says besides. -/
structure ProbeServers where
  primary : Address
  secondary : Address
  altPort : UInt16
  otherAddr : BinaryPhase → Option Address
  ip_ne : primary.ip ≠ secondary.ip
  alt_ne : altPort ≠ primary.port
  primary_port : primary.port ≠ 0
  secondary_port : secondary.port ≠ 0
  altPort_ne : altPort ≠ 0
  otherAddr_changePort : ∀ other, otherAddr .changePort = some other → other = primary

namespace ProbeServers

variable (servers : ProbeServers)

/-- The primary server at its second port. -/
def alternate : Address := ⟨servers.primary.ip, servers.altPort⟩

/-- Where the answer to a request is sent from. -/
def origin (server : Address) : BinaryPhase → Address
  | .changePort => servers.alternate
  | .changeIp => servers.secondary
  | _ => server

/-- The answer to a request of `source`. -/
def answer (source server : Address) (request : ProbeRequest) : ProbeFrame where
  frameType := if request.frameType = .filterReq then .filterRsp else .probeRsp
  phase := request.phase
  token := some request.token
  mappedAddr := some source
  originAddr := some (servers.origin server request.phase)
  otherAddr := servers.otherAddr request.phase

/-- `probe_addrs`. -/
def addrs : Fin 2 → Address := fun i => if i = 0 then servers.primary else servers.secondary

end ProbeServers

/-- What a detection takes place in. -/
structure NatScene where
  gateway : NatGateway
  servers : ProbeServers
  socket : PrivateSocket

-- ==== the world

inductive Packet where
  /-- on its way to `server`, from the public endpoint `source` -/
  | request (source server : Address) (frame : ProbeRequest)
  /-- on its way to the public endpoint `target` -/
  | answer (source target : Address) (frame : ProbeFrame)
  /-- let in, at the socket -/
  | datagram (source : Address) (frame : ProbeFrame)
deriving DecidableEq

def Packet.phase : Packet → BinaryPhase
  | .request _ _ frame => frame.phase
  | .answer _ _ frame => frame.phase
  | .datagram _ frame => frame.phase

/-- The translator let something of `source` in, when `remotes` had been
written to. -/
structure Passage where
  source : Address
  remotes : List Address
deriving DecidableEq

structure NatWorld where
  request : NatRequest
  table : Table Ip UInt16 := []
  net : List Packet := []
  passages : List Passage := []

inductive NatEvent where
  /-- the timer fires -/
  | timeout (sendto : Sendto)
  /-- the client reads the `i`-th packet, if it is at the socket -/
  | read (i : Nat) (sendto : Sendto)
  /-- the `i`-th packet moves on -/
  | hop (i : Nat)
  | lose (i : Nat)
  | copy (i : Nat)
deriving DecidableEq

namespace NatScene

variable (scene : NatScene)

/-- What the client sends goes out through the translator. -/
def emit (world : NatWorld) (sending : Sending) : NatWorld :=
  match sending.packet with
  | none => { world with request := sending.request }
  | some (server, frame) =>
    let left := scene.gateway.outbound world.table server
    { world with
      request := sending.request
      table := left.1
      net := world.net ++ [.request ⟨scene.gateway.publicIp, left.2⟩ server frame] }

/-- A request is answered, an answer is let in or not. -/
def hop (world : NatWorld) (i : Nat) : NatWorld :=
  match world.net[i]? with
  | some (.request source server frame) =>
    { world with
      net := world.net.set i (.answer (scene.servers.origin server frame.phase) source
        (scene.servers.answer source server frame)) }
  | some (.answer source target frame) =>
    if target.ip = scene.gateway.publicIp ∧
        scene.gateway.Admits world.table target.port source then
      { world with
        net := world.net.set i (.datagram source frame)
        passages := ⟨source, world.table.remotes⟩ :: world.passages }
    else { world with net := world.net.eraseIdx i }
  | _ => world

/-- The client reads a packet that is at its socket. -/
def read (world : NatWorld) (i : Nat) (sendto : Sendto) : NatWorld :=
  match world.net[i]? with
  | some (.datagram source frame) =>
    scene.emit { world with net := world.net.eraseIdx i }
      (world.request.asyncNatIoCb scene.socket.toUdpSocket source frame sendto)
  | _ => world

/-- One step. The events of a request that is done are freed. -/
def step (world : NatWorld) : NatEvent → NatWorld
  | .timeout sendto =>
    if world.request.timerArmed then
      scene.emit world (world.request.asyncNatTimeoutCb scene.socket.toUdpSocket sendto)
    else world
  | .read i sendto =>
    if world.request.delivered.isNone then scene.read world i sendto else world
  | .hop i => scene.hop world i
  | .lose i => { world with net := world.net.eraseIdx i }
  | .copy i => { world with net := world.net ++ (world.net[i]?).toList }

/-- A detection begins, with both servers and a socket nothing was sent from. -/
def start (requestId : UInt64) (options : DetectNatOptions) (sendto : Sendto) : NatWorld :=
  let request := submitAsyncNatRequest requestId options true scene.servers.addrs
  scene.emit { request } (request.startAsyncNatIo scene.socket.toUdpSocket sendto)

end NatScene

/-- Nothing gets lost in this step: no packet, no send, and no phase is given
up while a packet of it is under way. -/
def NatWorld.Lossless (world : NatWorld) : NatEvent → Prop
  | .timeout sendto =>
    sendto = .sent ∧ (world.request.probeAttempts + 1 < world.request.probeMaxAttempts ∨
      ∀ p ∈ world.net, p.phase ≠ world.request.natPhase.toBinary)
  | .read _ sendto => sendto = .sent
  | .hop _ => True
  | .lose _ => False
  | .copy _ => True

instance (world : NatWorld) (event : NatEvent) : Decidable (world.Lossless event) := by
  cases event <;> unfold NatWorld.Lossless <;> infer_instance

/-- The timer of a detection still under way fires. -/
def NatWorld.Fires (world : NatWorld) : NatEvent → Prop
  | .timeout _ => world.request.timerArmed = true
  | _ => False

instance (world : NatWorld) (event : NatEvent) : Decidable (world.Fires event) := by
  cases event <;> unfold NatWorld.Fires <;> infer_instance

/-- Something of `source` was let in while nothing had been sent to another
address than the primary server's. -/
def NatScene.LetIn (scene : NatScene) (passages : List Passage) (source : Address) : Prop :=
  ∃ passage ∈ passages, passage.source = source ∧
    ∀ remote ∈ passage.remotes, remote = scene.servers.primary

end Eular.Ntrs
