/-
The data that waits at a connection, in `snd_buf` and `snd_queue`, and the
fields that size it (`gauges`), along a step of the transfer.

A flush moves data from the one list to the other and leaves the gauges
alone. An ACK takes data out of `snd_buf`, and it is the only step that
changes the estimates of the round trip. `kcp_send` is the only one that
brings data in, in pieces of `mss` bytes.
-/
import Eular.Kcp.Proofs.Bookkeeping

namespace Eular.Kcp

-- ==== one message

theorem length_of_mem_fragments {mss psn count n i : Nat} {data : List UInt8} {pos : KcpSegment}
    (hpos : pos ∈ fragments mss psn count n i data) : pos.len ≤ mss := by
  induction n generalizing i data with
  | zero => cases hpos
  | succ n ih =>
    rw [fragments] at hpos
    obtain rfl | hpos := List.mem_cons.mp hpos
    · exact List.length_take_le mss data
    · exact ih hpos

namespace KcpSender

variable {s : KcpSender}

/-- The estimates of the round trip. -/
def estimates (s : KcpSender) : Int × Int × Int × Int := (s.rxSrtt, s.rxRttval, s.rxRto, s.rxMinrto)

-- ==== ACKs

/-- The segment an ACK of `sn` names, if it is there. -/
def named (sn : Nat) : List KcpSegment → Option KcpSegment
  | [] => none
  | pos :: rest =>
    if pos.sn < sn then named sn rest
    else if pos.sn = sn then some pos
    else none

variable (b : KcpBbr) (interval : Int) (ack : KcpAckHeader) (now : Nat)

/-- The estimates after the segment named has left: a segment sent once is a sample. -/
def sampled (s : KcpSender) (pos : Option KcpSegment) : Int × Int × Int × Int :=
  match pos with
  | some pos =>
    if pos.xmit = 1 then (s.updateRto interval (rttOf pos ack now)).estimates else s.estimates
  | none => s.estimates

theorem sampled_rmtWnd (s : KcpSender) (rmtWnd : Int) (pos : Option KcpSegment) :
    ({ s with rmtWnd } : KcpSender).sampled interval ack now pos
      = s.sampled interval ack now pos := by
  unfold sampled
  cases pos with
  | none => rfl
  | some pos =>
    dsimp only
    split
    · unfold updateRto
      dsimp only
      split <;> rfl
    · rfl

theorem sublist_ackSn (q : KcpSender × AckSample) (l : List KcpSegment) :
    ((ackSn b interval ack now q l).2.map (·.data)).Sublist (l.map (·.data)) := by
  induction l with
  | nil => exact List.Sublist.refl _
  | cons pos rest ih =>
    rw [ackSn]
    split
    · exact ih.cons_cons pos.data
    · split
      · exact (List.Sublist.refl _).cons pos.data
      · exact List.Sublist.refl _

theorem estimates_ackSn (q : KcpSender × AckSample) (l : List KcpSegment) :
    (ackSn b interval ack now q l).1.1.estimates
      = q.1.sampled interval ack now (named ack.sn l) := by
  induction l with
  | nil => rfl
  | cons pos rest ih =>
    rw [ackSn, named]
    split
    · exact ih
    · split
      · unfold sampled
        dsimp only
        split <;> rfl
      · rfl

theorem sublist_ackUna (una : Nat) (q : KcpSender × AckSample) (l : List KcpSegment) :
    ((ackUna b una now q l).2.map (·.data)).Sublist (l.map (·.data)) := by
  induction l generalizing q with
  | nil => exact List.Sublist.refl _
  | cons pos rest ih =>
    rw [ackUna]
    split
    · exact (ih _).cons pos.data
    · exact List.Sublist.refl _

theorem estimates_ackUna (una : Nat) (q : KcpSender × AckSample) (l : List KcpSegment) :
    (ackUna b una now q l).1.1.estimates = q.1.estimates := by
  induction l generalizing q with
  | nil => rfl
  | cons pos rest ih =>
    rw [ackUna]
    split
    · exact ih _
    · rfl

theorem sndQueue_ackSn (q : KcpSender × AckSample) (l : List KcpSegment) :
    (ackSn b interval ack now q l).1.1.sndQueue = q.1.sndQueue := by
  induction l with
  | nil => rfl
  | cons pos rest ih =>
    rw [ackSn]
    split
    · exact ih
    · split
      · dsimp only
        split
        · show (q.1.updateRto interval _).sndQueue = _
          exact congrArg (fun r => r.2.2.2.2) (numbers_updateRto interval _)
        · rfl
      · rfl

theorem sndQueue_ackUna (una : Nat) (q : KcpSender × AckSample) (l : List KcpSegment) :
    (ackUna b una now q l).1.1.sndQueue = q.1.sndQueue := by
  induction l generalizing q with
  | nil => rfl
  | cons pos rest ih =>
    rw [ackUna]
    split
    · exact ih _
    · rfl

/-- The segment an ACK is a sample of, unless it is passed over. -/
def answered (s : KcpSender) (ack : KcpAckHeader) : Option KcpSegment :=
  if ack.sn < s.sndUna ∨ s.sndNxt < ack.sn then none else named ack.sn s.sndBuf

theorem onAck_frame (s : KcpSender) (mss : Nat) :
    ((s.onAck b mss interval ack now).1.sndBuf.map (·.data)).Sublist (s.sndBuf.map (·.data))
      ∧ (s.onAck b mss interval ack now).1.sndQueue = s.sndQueue
      ∧ (s.onAck b mss interval ack now).1.estimates
          = s.sampled interval ack now (s.answered ack) := by
  rw [onAck_eq]
  by_cases houtside : ack.sn < s.sndUna ∨ s.sndNxt < ack.sn
  · rw [if_pos houtside, answered, if_pos houtside]
    exact ⟨List.Sublist.refl _, rfl, rfl⟩
  · rw [if_neg houtside, answered, if_neg houtside]
    refine ⟨(sublist_ackUna b now _ _ _).trans (sublist_ackSn b interval ack now _ _), ?_, ?_⟩
    · exact (sndQueue_ackUna b now _ _ _).trans (sndQueue_ackSn b interval ack now _ _)
    · exact (estimates_ackUna b now _ _ _).trans (estimates_ackSn b interval ack now _ _)

end KcpSender

-- ==== flushes

namespace KcpConnection

variable {c : KcpConnection} {now : Nat} {malloc : Malloc} {xxh64 : Nat → Nat}

/-- The data that waits to be sent or to be acknowledged. -/
def payloads (c : KcpConnection) : List (List UInt8) :=
  (c.snd.sndBuf ++ c.snd.sndQueue).map (·.data)

/-- The sizes and the estimates. -/
def gauges (c : KcpConnection) := (c.mtu, c.mss, c.interval, c.snd.estimates)

theorem payloads_fillWindow (now : Nat) (c : KcpConnection) (queue : List KcpSegment) :
    (fillWindow now c queue).payloads = (c.snd.sndBuf ++ queue).map (·.data) := by
  induction queue generalizing c with
  | nil => rfl
  | cons segment rest ih =>
    rw [fillWindow_cons]
    split
    · rw [ih]
      show ((c.snd.sndBuf ++ [c.numberSegment now segment]) ++ rest).map (·.data) = _
      simp only [List.map_append, List.map_cons, List.append_assoc]
      rfl
    · rfl

@[simp] theorem gauges_fillWindow (now : Nat) (c : KcpConnection) (queue : List KcpSegment) :
    (fillWindow now c queue).gauges = c.gauges := by
  induction queue generalizing c with
  | nil => rfl
  | cons segment rest ih =>
    rw [fillWindow_cons]
    split
    · rw [ih]
      rfl
    · rfl

@[simp] theorem gauges_windowProbe (c : KcpConnection) (now : Nat) :
    (c.windowProbe now).gauges = c.gauges := by
  unfold windowProbe gauges
  split
  · split
    · rfl
    · split <;> rfl
  · rfl

theorem gauges_flushPings {h : HeaderBuffer} :
    (flushPings xxh64 c now h).1.gauges = c.gauges := by
  unfold flushPings
  dsimp only
  split
  · split <;> rfl
  · split <;> rfl

theorem gauges_flushHeaders (xxh64 : Nat → Nat) (c : KcpConnection) (now : Nat) (wire : Wire) :
    (flushHeaders xxh64 c now wire).2.1.gauges = c.gauges := by
  unfold flushHeaders
  dsimp only
  split
  · exact gauges_windowProbe _ _
  · show (flushPings xxh64 _ now _).1.gauges = _
    rw [gauges_flushPings]
    exact gauges_windowProbe _ _

theorem gauges_flushSegments (c : KcpConnection) (now : Nat) (wire : Wire) :
    (c.flushSegments now wire).conn.gauges = c.gauges := by
  unfold flushSegments
  dsimp only
  split
  · exact gauges_fillWindow _ _ _
  · exact gauges_fillWindow _ _ _
  · exact gauges_fillWindow _ _ _

theorem gauges_flush (xxh64 : Nat → Nat) (c : KcpConnection) (now : Nat)
    (outcomes : List SendOutcome) : (c.flush xxh64 now outcomes).conn.gauges = c.gauges := by
  unfold flush
  split
  · rfl
  · dsimp only
    split
    · exact gauges_flushHeaders xxh64 c now _
    · exact (gauges_flushSegments _ now _).trans (gauges_flushHeaders xxh64 c now _)

theorem payloads_flush (xxh64 : Nat → Nat) (c : KcpConnection) (now : Nat)
    (outcomes : List SendOutcome) : (c.flush xxh64 now outcomes).conn.payloads = c.payloads := by
  obtain hsame | ⟨-, c', buf, hsending, hcore, hsnd⟩ := snd_flush xxh64 c now outcomes
  · unfold payloads
    rw [hsame]
  · have hsnd' : c'.snd = c.snd := congrArg (·.1) hsending
    have hdata : buf.map (·.data)
        = (fillWindow now c' c'.snd.sndQueue).snd.sndBuf.map (·.data) := by
      have hfield : (fun pos : KcpSegment => pos.data)
          = (fun q => q.2.2.2.2) ∘ KcpSegment.core := rfl
      rw [hfield, ← List.map_map, ← List.map_map, hcore]
    calc (c.flush xxh64 now outcomes).conn.payloads
        = (buf ++ (fillWindow now c' c'.snd.sndQueue).snd.sndQueue).map (·.data) := by
          unfold payloads
          rw [hsnd]
      _ = (fillWindow now c' c'.snd.sndQueue).payloads := by
          rw [payloads, List.map_append, List.map_append, hdata]
      _ = c.payloads := by rw [payloads_fillWindow, hsnd', payloads]

-- ==== steps

def sizes (c : KcpConnection) : Nat × Nat × Int := (c.mtu, c.mss, c.interval)

theorem frame_input (packet : KcpPacket) (hack : ∀ ack, packet ≠ .ack ack) :
    (c.input packet now malloc).1.payloads = c.payloads
      ∧ (c.input packet now malloc).1.gauges = c.gauges := by
  cases packet with
  | ack ack => exact absurd rfl (hack ack)
  | push p =>
    unfold input onPush
    dsimp only
    split
    · split <;> exact ⟨rfl, rfl⟩
    · split <;> exact ⟨rfl, rfl⟩
    · split <;> exact ⟨rfl, rfl⟩
  | control cmd wnd packetTs ts sn =>
    unfold input
    dsimp only
    repeat' split
    all_goals exact ⟨rfl, rfl⟩

theorem onAck_frame (ack : KcpAckHeader) (hstate : c.state = .CONNECTED) :
    ((c.input (.ack ack) now).1.payloads).Sublist c.payloads
      ∧ (c.input (.ack ack) now).1.sizes = c.sizes
      ∧ (c.input (.ack ack) now).1.snd.estimates
          = c.snd.sampled c.interval ack now (c.snd.answered ack) := by
  have halive : ¬ (c.setRmtWnd ack.wnd).state = .DISCONNECTED := by
    show ¬ c.state = .DISCONNECTED
    rw [hstate]
    decide
  show ((onAck (c.setRmtWnd ack.wnd) ack now).payloads).Sublist c.payloads
    ∧ (onAck (c.setRmtWnd ack.wnd) ack now).sizes = c.sizes
    ∧ (onAck (c.setRmtWnd ack.wnd) ack now).snd.estimates = _
  unfold onAck
  rw [if_neg halive]
  obtain ⟨hbuf, hqueue, hestimates⟩ :=
    (c.setRmtWnd ack.wnd).snd.onAck_frame c.bbr c.interval ack now c.mss
  refine ⟨?_, rfl, hestimates.trans (KcpSender.sampled_rmtWnd _ _ _ _ _ _)⟩
  unfold payloads
  rw [List.map_append, List.map_append]
  refine hbuf.append ?_
  have hsame : ((c.setRmtWnd ack.wnd).snd.onAck c.bbr c.mss c.interval ack now).1.sndQueue
      = c.snd.sndQueue := hqueue
  exact hsame ▸ List.Sublist.refl _

/-- The rule for the data that waits: where `kcp_send` cuts it short enough, none of it gets
longer than `limit`. -/
theorem step_payloads (limit : Nat) (op : EndpointOp)
    (hall : ∀ data ∈ c.payloads, data.length ≤ limit)
    (hmss : c.state = .CONNECTED → c.mss ≤ limit) :
    ∀ data ∈ (c.step xxh64 op).payloads, data.length ≤ limit := by
  cases op with
  | send data malloc =>
    unfold step
    dsimp only
    obtain ⟨hstate, -, -, unused, counter, que, hsend⟩ | ⟨code, unused, counter, hsend⟩ :=
      send_cases c data malloc
    · rw [hsend]
      intro d hd
      unfold payloads KcpSender.stocked at hd
      dsimp only at hd
      rw [← List.append_assoc, List.map_append] at hd
      obtain hd | hd := List.mem_append.mp hd
      · exact hall d hd
      · obtain ⟨pos, hpos, rfl⟩ := List.mem_map.mp hd
        exact (length_of_mem_fragments hpos).trans (hmss hstate)
    · rw [hsend]
      exact hall
  | recv size =>
    unfold step recv
    dsimp only
    split <;> rename_i hrecv
    · split at hrecv <;> cases hrecv
      exact hall
    · exact hall
  | packet packet now malloc =>
    unfold step
    dsimp only
    split
    case isFalse => exact hall
    case isTrue hstate =>
    cases packet with
    | ack ack => exact fun d hd => hall d ((onAck_frame ack hstate).1.subset hd)
    | push p => rwa [(frame_input (.push p) fun ack h => nomatch h).1]
    | control cmd wnd packetTs ts sn =>
      rwa [(frame_input (.control cmd wnd packetTs ts sn) fun ack h => nomatch h).1]
  | flush now outcomes =>
    show ∀ data ∈ (c.flush xxh64 now outcomes).conn.payloads, _
    rwa [payloads_flush]
  | windowSize value => exact hall

theorem step_gauges (xxh64 : Nat → Nat) (c : KcpConnection) (op : EndpointOp) :
    (c.step xxh64 op).gauges = c.gauges
      ∨ ∃ ack now malloc, op = .packet (.ack ack) now malloc ∧ c.state = .CONNECTED
          ∧ (c.step xxh64 op).sizes = c.sizes
          ∧ (c.step xxh64 op).snd.estimates
              = c.snd.sampled c.interval ack now (c.snd.answered ack) := by
  cases op with
  | send data malloc =>
    left
    unfold step
    dsimp only
    obtain ⟨-, -, -, unused, counter, que, hsend⟩ | ⟨code, unused, counter, hsend⟩ :=
      send_cases c data malloc
    · rw [hsend]
      rfl
    · rw [hsend]
      rfl
  | recv size =>
    left
    unfold step recv
    dsimp only
    split <;> rename_i hrecv
    · split at hrecv <;> cases hrecv
      rfl
    · rfl
  | packet packet now malloc =>
    unfold step
    dsimp only
    by_cases hstate : c.state = .CONNECTED
    · rw [if_pos hstate]
      cases packet with
      | ack ack => exact .inr ⟨ack, now, malloc, rfl, hstate, (onAck_frame ack hstate).2⟩
      | push p => exact .inl (frame_input (.push p) fun ack h => nomatch h).2
      | control cmd wnd packetTs ts sn =>
        exact .inl (frame_input (.control cmd wnd packetTs ts sn) fun ack h => nomatch h).2
    · rw [if_neg hstate]
      exact .inl rfl
  | flush now outcomes => exact .inl (gauges_flush xxh64 c now outcomes)
  | windowSize value => exact .inl rfl

-- ==== state

theorem state_fillWindow (queue : List KcpSegment) : (fillWindow now c queue).state = c.state := by
  induction queue generalizing c with
  | nil => rfl
  | cons segment rest ih =>
    rw [fillWindow_cons]
    split
    · exact ih
    · rfl

theorem state_windowProbe : (c.windowProbe now).state = c.state := by
  unfold windowProbe
  split
  · split
    · rfl
    · split <;> rfl
  · rfl

theorem state_flushPings {h : HeaderBuffer} :
    (flushPings xxh64 c now h).1.state = c.state := by
  unfold flushPings
  dsimp only
  split
  · split <;> rfl
  · split <;> rfl

theorem state_flushHeaders (xxh64 : Nat → Nat) (c : KcpConnection) (now : Nat) (wire : Wire) :
    (flushHeaders xxh64 c now wire).2.1.state = c.state
      ∨ (flushHeaders xxh64 c now wire).2.1.state = .DISCONNECTED := by
  unfold flushHeaders
  dsimp only
  split
  · exact .inr rfl
  · left
    show (flushPings xxh64 _ now _).1.state = _
    rw [state_flushPings]
    exact state_windowProbe

theorem state_flushSegments (c : KcpConnection) (now : Nat) (wire : Wire) :
    (c.flushSegments now wire).conn.state = c.state
      ∨ (c.flushSegments now wire).conn.state = .DISCONNECTED := by
  unfold flushSegments
  dsimp only
  split
  · exact .inl (state_fillWindow _)
  · exact .inr rfl
  · exact .inl (state_fillWindow _)

theorem state_step (xxh64 : Nat → Nat) (c : KcpConnection) (op : EndpointOp) :
    (c.step xxh64 op).state = c.state ∨ (c.step xxh64 op).state = .DISCONNECTED := by
  cases op with
  | send data malloc =>
    left
    unfold step
    dsimp only
    obtain ⟨-, -, -, unused, counter, que, hsend⟩ | ⟨code, unused, counter, hsend⟩ :=
      send_cases c data malloc
    · rw [hsend]
    · rw [hsend]
  | recv size =>
    left
    unfold step recv
    dsimp only
    split <;> rename_i hrecv
    · split at hrecv <;> cases hrecv
      rfl
    · rfl
  | packet packet now malloc =>
    left
    unfold step
    dsimp only
    split
    case isFalse => rfl
    case isTrue hstate =>
    cases packet with
    | ack ack =>
      show ((c.setRmtWnd ack.wnd).onAck ack now).state = _
      unfold onAck
      split <;> rfl
    | push p =>
      unfold input onPush
      dsimp only
      split
      · split <;> rfl
      · split <;> rfl
      · split <;> rfl
    | control cmd wnd packetTs ts sn =>
      unfold input
      dsimp only
      repeat' split
      all_goals rfl
  | flush now outcomes =>
    show (c.flush xxh64 now outcomes).conn.state = _
      ∨ (c.flush xxh64 now outcomes).conn.state = _
    unfold flush
    split
    · exact .inl rfl
    · dsimp only
      have hheaders := state_flushHeaders xxh64 c now { outcomes }
      split
      · exact hheaders
      · obtain hsame | hended := state_flushSegments
          (flushHeaders xxh64 c now { outcomes }).2.1 now
          (flushHeaders xxh64 c now { outcomes }).1.wire
        · rw [hsame]
          exact hheaders
        · exact .inr hended
  | windowSize value => exact .inl rfl

end KcpConnection

end Eular.Kcp
