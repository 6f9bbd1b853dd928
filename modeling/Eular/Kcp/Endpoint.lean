/-
One side of a connection as a machine, and what its steps do to the two
halves of the control block.

The application sends, reads and sets the window size, a packet comes in,
the write timer runs out. What the flush does to the receiving half is to
empty the list of ACK items; the packets of the peer that are not PUSHes
leave that half alone.
-/
import Eular.Lib.Run
import Eular.Kcp.Flush

namespace Eular.Kcp

/-- What can happen to one side of a connection. -/
inductive EndpointOp where
  | send (data : List UInt8) (malloc : Malloc := none)
  | recv (size : Nat)
  | packet (packet : KcpPacket) (now : Nat) (malloc : Malloc := none)
  | flush (now : Nat) (outcomes : List SendOutcome)
  | windowSize (value : Nat)
deriving DecidableEq, Repr

namespace KcpConnection

/-- `kcp_ioctl` with `IOCTL_WINDOW_SIZE`; the windows are signed fields, the
value is not. -/
def setWindowSize (c : KcpConnection) (value : Nat) : KcpConnection :=
  { c with
    rcv := { c.rcv with rcvWnd := i32 (max KCP_WND_RCV (u32 value)) }
    snd := { c.snd with sndWnd := i32 (max KCP_WND_SND (u32 value)) } }

/-- One step; of the calls that fail only a send without memory changes
something. Packets reach a connected side only. -/
def step (xxh64 : Nat → Nat) (c : KcpConnection) : EndpointOp → KcpConnection
  | .send data malloc =>
    match c.send data malloc with
    | .ok c => c
    | .error (_, c) => c
  | .recv size =>
    match c.recv size with
    | .ok q => q.1
    | .error _ => c
  | .packet packet now malloc =>
    if c.state = .CONNECTED then (c.input packet now malloc).1 else c
  | .flush now outcomes => (c.flush xxh64 now outcomes).conn
  | .windowSize value => c.setWindowSize value

/-- A flush at `now` takes place, and the keepalive has not run out. -/
def Flushes (c : KcpConnection) (now : Nat) : Prop :=
  c.state = .CONNECTED ∧ c.tsFlush ≤ now / 1000 ∧ (c.ping.onPingTimeout now).2 = false

instance (c : KcpConnection) (now : Nat) : Decidable (c.Flushes now) :=
  inferInstanceAs (Decidable (_ ∧ _ ∧ _))

-- ==== the packing loop

/-- The rule for the loop over `snd_buf`: what holds of the packing whatever
it has noted, and is kept when one of the segments is put, holds in the
end. -/
theorem transmit_inv {c : KcpConnection} {now : Nat} {P : Packing → Prop} {Q : KcpSegment → Prop}
    (hnote : ∀ p d, P p → P (note p d)) (hpay : ∀ p d, P p → P (pay p d))
    (hexit : ∀ p exit, P p → P { p with exit })
    (hput : ∀ p pos, P p → Q pos → P (p.put c.mtu pos))
    (hchoose : ∀ credit pos, Q pos → Q (c.choose now credit pos).pos) :
    ∀ {segments : List KcpSegment} {p : Packing}, P p → (∀ pos ∈ segments, Q pos) →
      P (c.transmit now p segments).1 ∧ ∀ pos ∈ (c.transmit now p segments).2, Q pos := by
  intro segments
  induction segments with
  | nil => intro p hp hall; exact ⟨hp, hall⟩
  | cons pos rest ih =>
    intro p hp hall
    obtain ⟨hpos, hrest⟩ := List.forall_mem_cons.mp hall
    have hpos' := hchoose p.credit pos hpos
    have hp' := hnote p (c.choose now p.credit pos) hp
    rw [transmit]
    dsimp only
    split
    · exact ⟨hexit _ _ hp', List.forall_mem_cons.mpr ⟨hpos', hrest⟩⟩
    · split
      · have hnext := hput _ _ (hpay _ (c.choose now p.credit pos) hp') hpos'
        split
        · exact ⟨hnext, List.forall_mem_cons.mpr ⟨hpos', hrest⟩⟩
        · exact ⟨(ih hnext hrest).1, List.forall_mem_cons.mpr ⟨hpos', (ih hnext hrest).2⟩⟩
      · exact ⟨(ih hp' hrest).1, List.forall_mem_cons.mpr ⟨hpos', (ih hp' hrest).2⟩⟩

-- ==== the receiving half

section Receiving

variable {c : KcpConnection} {now : Nat} {malloc : Malloc}

@[simp] theorem rcv_fillWindow (queue : List KcpSegment) :
    (fillWindow now c queue).rcv = c.rcv := by
  induction queue generalizing c with
  | nil => rfl
  | cons segment rest ih =>
    rw [fillWindow]
    split
    · rw [ih]
    · rfl

theorem rcv_flushPings {xxh64 : Nat → Nat} {h : HeaderBuffer} :
    (flushPings xxh64 c now h).1.rcv = c.rcv := by
  unfold flushPings
  dsimp only
  split
  · split <;> rfl
  · split <;> rfl

theorem rcv_flushHeaders (xxh64 : Nat → Nat) (wire : Wire) :
    (flushHeaders xxh64 c now wire).2.1.rcv = { c.rcv with ackItem := [] } := by
  unfold flushHeaders
  dsimp only
  split
  · rfl
  · show (flushPings xxh64 _ now _).1.rcv = _
    rw [rcv_flushPings]

theorem rcv_flushSegments (wire : Wire) : (c.flushSegments now wire).conn.rcv = c.rcv := by
  unfold flushSegments
  dsimp only
  split
  · exact rcv_fillWindow _
  · exact rcv_fillWindow _
  · exact rcv_fillWindow _

theorem rcv_flush (xxh64 : Nat → Nat) (c : KcpConnection) (now : Nat)
    (outcomes : List SendOutcome) :
    (c.flush xxh64 now outcomes).conn.rcv = c.rcv
      ∨ (c.flush xxh64 now outcomes).conn.rcv = { c.rcv with ackItem := [] } := by
  unfold flush
  split
  · exact .inl rfl
  · refine .inr ?_
    dsimp only
    split
    · exact rcv_flushHeaders xxh64 _
    · rw [rcv_flushSegments]
      exact rcv_flushHeaders xxh64 _

theorem rcv_onPush (p : KcpPush) :
    (c.onPush p now malloc).1.rcv = (c.rcv.onPush p now malloc).1 := by
  unfold onPush
  dsimp only
  split <;> rfl

theorem rcv_input (packet : KcpPacket) :
    (c.input packet now malloc).1.rcv
      = match packet with
        | .push p => (c.rcv.onPush p now malloc).1
        | _ => c.rcv := by
  cases packet with
  | ack header =>
    show ((c.setRmtWnd header.wnd).onAck header now).rcv = c.rcv
    unfold onAck
    split <;> rfl
  | push p =>
    show ((if 0 < p.frg then c.setRmtWnd p.wnd else c).onPush p now malloc).1.rcv = _
    rw [rcv_onPush]
    split <;> rfl
  | control cmd wnd packetTs ts sn =>
    unfold input
    dsimp only
    split
    · rfl
    · split
      · rfl
      · split
        · rfl
        · split <;> rfl

end Receiving

end KcpConnection

-- ==== reads

namespace KcpReceiver

variable {r r' : KcpReceiver}

/-- What `kcp_recv` leaves alone: everything but the queue and what is
counted with it. -/
def unread (r : KcpReceiver) :=
  (r.rcvNxt, r.rcvWnd, r.nrcvBuf, r.rcvBuf, r.rcvPacketList, r.ackItem)

theorem unread_segmentRecvPut (r : KcpReceiver) : r.segmentRecvPut.unread = r.unread := by
  unfold segmentRecvPut
  split <;> rfl

theorem unread_takeSegment (q : KcpReceiver × Read) (pos : KcpSegment) :
    (takeSegment q pos).1.unread = q.1.unread :=
  unread_segmentRecvPut _

theorem unread_foldl_takeSegment (queue : List KcpSegment) (q : KcpReceiver × Read) :
    (queue.foldl takeSegment q).1.unread = q.1.unread := by
  induction queue generalizing q with
  | nil => rfl
  | cons pos rest ih => rw [List.foldl_cons, ih, unread_takeSegment]

theorem unread_recv {state : KcpConnectionState} {size : Nat} {read : Read} {tell : Bool}
    (h : r.recv state size = .ok (r', read, tell)) : r'.unread = r.unread := by
  unfold recv at h
  split at h
  · cases h
  · split at h
    · cases h
    · split at h
      · cases h
      · split at h
        · cases h
        · cases h
          exact unread_foldl_takeSegment r.rcvQueue _

end KcpReceiver

-- ==== steps

namespace KcpConnection

variable {c : KcpConnection} {xxh64 : Nat → Nat}

theorem rcv_send (data : List UInt8) (malloc : Malloc) :
    (c.step xxh64 (.send data malloc)).rcv = c.rcv := by
  unfold step send
  dsimp only
  split
  case h_1 hsend => split at hsend <;> cases hsend; rfl
  case h_2 hsend => split at hsend <;> cases hsend; rfl

theorem unread_recv {size : Nat} {q : KcpConnection × KcpReceiver.Read}
    (h : c.recv size = .ok q) : q.1.rcv.unread = c.rcv.unread := by
  unfold recv at h
  split at h
  case h_1 hrecv => cases h; exact KcpReceiver.unread_recv hrecv
  case h_2 => cases h

/-- What a step does to the receiving half, apart from what `kcp_recv` takes
out of the queue. -/
theorem step_rcv (xxh64 : Nat → Nat) (op : EndpointOp) :
    (c.step xxh64 op).rcv.unread = c.rcv.unread
      ∨ (∃ now outcomes, op = .flush now outcomes
          ∧ (c.step xxh64 op).rcv = { c.rcv with ackItem := [] })
      ∨ (∃ p now malloc, op = .packet (.push p) now malloc ∧ c.state = .CONNECTED
          ∧ (c.step xxh64 op).rcv = (c.rcv.onPush p now malloc).1)
      ∨ ∃ value, op = .windowSize value
          ∧ (c.step xxh64 op).rcv = { c.rcv with rcvWnd := i32 (max KCP_WND_RCV (u32 value)) } := by
  cases op with
  | send data malloc => exact .inl (congrArg _ (rcv_send data malloc))
  | recv size =>
    refine .inl ?_
    cases hrecv : c.recv size with
    | ok q => simp only [step, hrecv, unread_recv hrecv]
    | error code => simp only [step, hrecv]
  | packet packet now malloc =>
    by_cases hstate : c.state = .CONNECTED
    · have hstep : (c.step xxh64 (.packet packet now malloc)).rcv
          = (c.input packet now malloc).1.rcv := by
        simp only [step, if_pos hstate]
      rw [rcv_input] at hstep
      cases packet with
      | push p => exact .inr (.inr (.inl ⟨p, now, malloc, rfl, hstate, hstep⟩))
      | ack header => exact .inl (by rw [hstep])
      | control cmd wnd packetTs ts sn => exact .inl (by rw [hstep])
    · exact .inl (by simp only [step, if_neg hstate])
  | flush now outcomes =>
    obtain hsame | hcleared := rcv_flush xxh64 c now outcomes
    · exact .inl (congrArg _ hsame)
    · exact .inr (.inl ⟨now, outcomes, rfl, hcleared⟩)
  | windowSize value => exact .inr (.inr (.inr ⟨value, rfl, rfl⟩))

end KcpConnection

end Eular.Kcp
