/-
How a flush packs the segments it chooses.

Every segment that waits has to fit a datagram by itself: then the packing
loop ends, and what it chooses is written once, in order, into datagrams of at
most `mtu` bytes, in no more than `KCP_PACKET_COUNT` of the caches. `kcp_send`
cuts the segments for the MTU there is at that time. A search for the path MTU
may lower it afterwards, and then the loop does not end.
-/
import Eular.Kcp.Lifetime
import Eular.Kcp.Proofs.Waiting

namespace Eular.Kcp

open Lib

@[simp] theorem datagramSize_nil : datagramSize [] = 0 := rfl

@[simp] theorem datagramSize_append (d e : Datagram) :
    datagramSize (d ++ e) = datagramSize d + datagramSize e := by
  unfold datagramSize
  rw [List.map_append, List.sum_append]

@[simp] theorem datagramSize_singleton (packet : KcpPacket) :
    datagramSize [packet] = packet.size := by
  unfold datagramSize
  simp

-- ==== socket

theorem Wire.send_spec (w : Wire) (datagrams : List Datagram) :
    (w.send datagrams).1.offered = w.offered ++ datagrams
      ∧ (w.send datagrams).1.outcomes = w.outcomes.tail
      ∧ (w.send datagrams).2 = (w.outcomes.head?.map (·.status)).getD .sent := by
  unfold Wire.send
  split
  case h_1 hnone => rw [hnone]; exact ⟨rfl, rfl, rfl⟩
  case h_2 o rest hsome => rw [hsome]; exact ⟨rfl, rfl, rfl⟩

-- ==== headers

namespace HeaderBuffer

variable {mtu : Nat} {h : HeaderBuffer}

/-- What is in the buffer and what was sent are datagrams of the MTU. -/
structure Room (mtu : Nat) (h : HeaderBuffer) : Prop where
  buffer : datagramSize h.buffer ≤ mtu
  offered : ∀ d ∈ h.wire.offered, datagramSize d ≤ mtu

theorem Room.sendBuffer (hroom : Room mtu h) : Room mtu h.sendBuffer := by
  refine ⟨Nat.zero_le mtu, fun d hd => ?_⟩
  unfold HeaderBuffer.sendBuffer at hd
  dsimp only at hd
  rw [(Wire.send_spec h.wire [h.buffer]).1] at hd
  obtain hd | hd := List.mem_append.mp hd
  · exact hroom.offered d hd
  · rw [List.mem_singleton.mp hd]
    exact hroom.buffer

theorem Room.makeRoom (hroom : Room mtu h) (hmtu : KCP_HEADER_SIZE ≤ mtu) :
    Room mtu (h.makeRoom mtu) ∧ datagramSize (h.makeRoom mtu).buffer + KCP_HEADER_SIZE ≤ mtu := by
  unfold HeaderBuffer.makeRoom
  split
  case isTrue => exact ⟨hroom.sendBuffer, by show 0 + KCP_HEADER_SIZE ≤ mtu; omega⟩
  case isFalse hle => exact ⟨hroom, not_lt.mp hle⟩

theorem Room.putAck (hroom : Room mtu h) (hmtu : KCP_HEADER_SIZE ≤ mtu)
    (hlast : datagramSize h.buffer + KCP_HEADER_SIZE ≤ mtu) (wnd una now : Nat) (pos : KcpAck) :
    Room mtu (h.putAck mtu wnd una now pos)
      ∧ datagramSize (h.putAck mtu wnd una now pos).buffer + KCP_HEADER_SIZE ≤ mtu := by
  refine Room.makeRoom (h := { h with buffer := _, cmd := _ }) ⟨?_, hroom.offered⟩ hmtu
  rw [datagramSize_append, datagramSize_singleton]
  exact hlast

theorem Room.putControl (hroom : Room mtu h) (hmtu : KCP_HEADER_SIZE ≤ mtu)
    (cmd wnd packetTs ts sn : Nat) : Room mtu (h.putControl mtu cmd wnd packetTs ts sn) := by
  obtain ⟨hmade, hlast⟩ := hroom.makeRoom hmtu
  refine ⟨?_, hmade.offered⟩
  show datagramSize ((h.makeRoom mtu).buffer ++ [KcpPacket.control _ _ _ _ _]) ≤ mtu
  rw [datagramSize_append, datagramSize_singleton]
  exact hlast

theorem Room.finish (hroom : Room mtu h) : Room mtu h.finish := by
  unfold HeaderBuffer.finish
  split
  · exact hroom
  · exact hroom.sendBuffer

end HeaderBuffer

namespace KcpConnection

variable {c : KcpConnection} {now : Nat} {xxh64 : Nat → Nat}
variable {p : Packing}

theorem room_flushAcks (hmtu : KCP_HEADER_SIZE ≤ c.mtu) (outcomes : List SendOutcome) :
    HeaderBuffer.Room c.mtu (c.flushAcks now { outcomes }) := by
  unfold flushAcks
  suffices hfold : ∀ (items : List KcpAck) (h : HeaderBuffer), h.Room c.mtu →
      datagramSize h.buffer + KCP_HEADER_SIZE ≤ c.mtu →
      (items.foldl (HeaderBuffer.putAck c.mtu (u16OfInt c.rcv.wndUnused) c.rcv.rcvNxt now) h).Room
        c.mtu by
    refine hfold _ _ ⟨Nat.zero_le _, fun d hd => nomatch hd⟩ ?_
    rw [datagramSize_nil]
    omega
  intro items
  induction items with
  | nil => intro h hroom _; exact hroom
  | cons pos rest ih =>
    intro h hroom hlast
    obtain ⟨hroom', hlast'⟩ :=
      hroom.putAck hmtu hlast (u16OfInt c.rcv.wndUnused) c.rcv.rcvNxt now pos
    exact ih _ hroom' hlast'

theorem room_flushProbes (now : Nat) {h : HeaderBuffer} (hroom : h.Room c.mtu)
    (hmtu : KCP_HEADER_SIZE ≤ c.mtu) :
    (c.flushProbes now h).Room c.mtu := by
  unfold flushProbes
  dsimp only
  have hask : HeaderBuffer.Room c.mtu
      (if c.probe.askSend then h.putControl c.mtu KCP_CMD_WASK 0 now 0 0 else h) := by
    split
    · exact hroom.putControl hmtu _ _ _ _ _
    · exact hroom
  split
  · exact hask.putControl hmtu _ _ _ _ _
  · exact hask

theorem room_flushPings (xxh64 : Nat → Nat) (now : Nat) {h : HeaderBuffer}
    (hroom : h.Room c.mtu) (hmtu : KCP_HEADER_SIZE ≤ c.mtu) :
    (flushPings xxh64 c now h).2.Room c.mtu := by
  unfold flushPings
  dsimp only
  have hping := hroom.putControl hmtu KCP_CMD_PING 0 0 now (xxh64 now)
  split
  · split
    · exact hping.putControl hmtu _ _ _ _ _
    · exact hroom.putControl hmtu _ _ _ _ _
  · split
    · exact hping
    · exact hroom

theorem room_flushHeaders (xxh64 : Nat → Nat) (c : KcpConnection) (now : Nat)
    (hmtu : KCP_HEADER_SIZE ≤ c.mtu) (outcomes : List SendOutcome) :
    (flushHeaders xxh64 c now { outcomes }).1.Room c.mtu := by
  have hprobed : (c.windowProbe now).mtu = c.mtu :=
    congrArg (fun q => q.1) (gauges_windowProbe c now)
  have hacks : (c.flushAcks now { outcomes }).Room (c.windowProbe now).mtu := by
    rw [hprobed]
    exact room_flushAcks hmtu outcomes
  rw [← hprobed] at hmtu ⊢
  have hprobes := room_flushProbes now
    (c := { c.windowProbe now with rcv := { c.rcv with ackItem := [] } }) hacks hmtu
  unfold flushHeaders
  dsimp only
  split
  · exact hprobes
  · exact (room_flushPings xxh64 now (c := { c.windowProbe now with
      rcv := { c.rcv with ackItem := [] }
      ping := ((c.windowProbe now).ping.onPingTimeout now).1 }) hprobes hmtu).finish

-- ==== the caches

namespace Packing

variable {mtu : Nat} {p : Packing} {pos : KcpSegment}

/-- What is in the caches and what was sent are datagrams of the MTU, and a cache is left. -/
structure Room (mtu : Nat) (p : Packing) : Prop where
  cache : datagramSize p.cache ≤ mtu
  full : ∀ d ∈ p.full, datagramSize d ≤ mtu
  offered : ∀ d ∈ p.wire.offered, datagramSize d ≤ mtu
  slots : p.full.length < KCP_PACKET_COUNT

/-- The packets written since `sent` was sent: they are in datagrams, one behind the other. -/
def Written (sent : List Datagram) (packets : List KcpPacket) (p : Packing) : Prop :=
  ∃ datagrams, p.wire.offered = sent ++ datagrams
    ∧ (datagrams ++ p.full ++ [p.cache]).flatten = packets

/-- A segment, as a datagram carries it. -/
def packetOf (pos : KcpSegment) : KcpPacket := .push pos.encode

theorem size_packetOf (pos : KcpSegment) : (packetOf pos).size = KCP_HEADER_SIZE + pos.len := rfl

theorem send_cases (p : Packing) (datagrams : List Datagram) :
    ((p.wire.send datagrams).2 = .sent
        ∧ p.send datagrams = { p with wire := (p.wire.send datagrams).1 })
      ∨ ((p.wire.send datagrams).2 ≠ .sent
        ∧ ∃ exit, exit ≠ .hangs ∧ exit ≠ .tooManyRetrans ∧ exit ≠ .done
          ∧ p.send datagrams
              = { p with wire := (p.wire.send datagrams).1, exit := some exit }) := by
  unfold Packing.send
  generalize p.wire.send datagrams = q
  obtain ⟨wire, status⟩ := q
  cases status with
  | sent => exact .inl ⟨rfl, rfl⟩
  | again => exact .inr ⟨nofun, .tryAgain, nofun, nofun, nofun, rfl⟩
  | failed => exact .inr ⟨nofun, .writeError, nofun, nofun, nofun, rfl⟩

/-- What becomes of a segment that fits a datagram: it goes behind the others, into the next
cache, or, when that was the last one, behind a batch that is sent. A batch that is refused
ends the flush. -/
theorem put_cases (hexit : p.exit = none) (hfits : KCP_HEADER_SIZE + pos.len ≤ mtu) :
    (datagramSize p.cache + (KCP_HEADER_SIZE + pos.len) ≤ mtu
        ∧ p.put mtu pos = { p with cache := p.cache ++ [packetOf pos] })
      ∨ (mtu < datagramSize p.cache + (KCP_HEADER_SIZE + pos.len)
        ∧ p.full.length + 1 < KCP_PACKET_COUNT
        ∧ p.put mtu pos = { p with full := p.full ++ [p.cache], cache := [packetOf pos] })
      ∨ (mtu < datagramSize p.cache + (KCP_HEADER_SIZE + pos.len)
        ∧ KCP_PACKET_COUNT ≤ p.full.length + 1
        ∧ ((p.wire.send (p.full ++ [p.cache])).2 = .sent
            ∧ p.put mtu pos = { p with
                wire := (p.wire.send (p.full ++ [p.cache])).1, full := [], cache := [packetOf pos] }
          ∨ (p.wire.send (p.full ++ [p.cache])).2 ≠ .sent
            ∧ ∃ exit, exit ≠ .hangs ∧ exit ≠ .tooManyRetrans ∧ p.put mtu pos = { p with
                wire := (p.wire.send (p.full ++ [p.cache])).1
                full := []
                cache := []
                exit := some exit })) := by
  unfold put
  dsimp only
  by_cases hroom : datagramSize p.cache + (KCP_HEADER_SIZE + pos.len) ≤ mtu
  · exact .inl ⟨hroom, by rw [if_pos hroom]; rfl⟩
  rw [if_neg hroom, List.length_append, List.length_singleton]
  by_cases hlast : KCP_PACKET_COUNT ≤ p.full.length + 1
  · refine .inr (.inr ⟨not_le.mp hroom, hlast, ?_⟩)
    rw [if_pos hlast]
    obtain ⟨hsent, hsend⟩ | ⟨hrefused, exit, hhangs, hretrans, -, hsend⟩ :=
      send_cases { p with full := p.full ++ [p.cache], cache := [] } (p.full ++ [p.cache])
    · refine .inl ⟨hsent, ?_⟩
      rw [hsend, hexit, if_pos hfits]
      rfl
    · refine .inr ⟨hrefused, exit, hhangs, hretrans, ?_⟩
      rw [hsend]
      rfl
  · refine .inr (.inl ⟨not_le.mp hroom, not_le.mp hlast, ?_⟩)
    rw [if_neg hlast, hexit, if_pos hfits]
    rfl

theorem Room.append (hroom : Room mtu p)
    (hlast : datagramSize p.cache + (KCP_HEADER_SIZE + pos.len) ≤ mtu) :
    Room mtu { p with cache := p.cache ++ [packetOf pos] } := by
  refine ⟨?_, hroom.full, hroom.offered, hroom.slots⟩
  rw [datagramSize_append, datagramSize_singleton, size_packetOf]
  exact hlast

theorem Room.fulls (hroom : Room mtu p) : ∀ d ∈ p.full ++ [p.cache], datagramSize d ≤ mtu := by
  intro d hd
  obtain hd | hd := List.mem_append.mp hd
  · exact hroom.full d hd
  · rw [List.mem_singleton.mp hd]
    exact hroom.cache

theorem Room.offered_send (hroom : Room mtu p) :
    ∀ d ∈ (p.wire.send (p.full ++ [p.cache])).1.offered, datagramSize d ≤ mtu := by
  rw [(Wire.send_spec p.wire (p.full ++ [p.cache])).1]
  intro d hd
  obtain hd | hd := List.mem_append.mp hd
  · exact hroom.offered d hd
  · exact hroom.fulls d hd

theorem Room.put (hroom : Room mtu p) (hexit : p.exit = none)
    (hfits : KCP_HEADER_SIZE + pos.len ≤ mtu) :
    Room mtu (p.put mtu pos) ∧ (p.put mtu pos).exit ≠ some .hangs := by
  have hnone : p.exit ≠ some .hangs := by
    rw [hexit]
    exact nofun
  have hsize : datagramSize [packetOf pos] ≤ mtu := by
    rw [datagramSize_singleton, size_packetOf]
    exact hfits
  obtain ⟨hlast, hput⟩ | ⟨-, hslots, hput⟩ | ⟨-, -, ⟨-, hput⟩ | ⟨-, exit, hexit', -, hput⟩⟩ :=
    put_cases hexit hfits
  · rw [hput]
    exact ⟨hroom.append hlast, hnone⟩
  · rw [hput]
    refine ⟨⟨hsize, hroom.fulls, hroom.offered, ?_⟩, hnone⟩
    rw [List.length_append, List.length_singleton]
    exact hslots
  · rw [hput]
    exact ⟨⟨hsize, (fun d hd => nomatch hd), hroom.offered_send,
      show 0 < KCP_PACKET_COUNT by decide⟩, hnone⟩
  · rw [hput]
    exact ⟨⟨Nat.zero_le mtu, (fun d hd => nomatch hd), hroom.offered_send,
      show 0 < KCP_PACKET_COUNT by decide⟩, fun h => hexit' (Option.some.inj h)⟩

theorem Written.put {sent : List Datagram} {packets : List KcpPacket}
    (hwritten : Written sent packets p) (hexit : p.exit = none)
    (hfits : KCP_HEADER_SIZE + pos.len ≤ mtu) (hput : (p.put mtu pos).exit = none) :
    Written sent (packets ++ [packetOf pos]) (p.put mtu pos) := by
  obtain ⟨datagrams, hoffered, hflat⟩ := hwritten
  have hsend := (Wire.send_spec p.wire (p.full ++ [p.cache])).1
  obtain ⟨-, heq⟩ | ⟨-, -, heq⟩ | ⟨-, -, ⟨-, heq⟩ | ⟨-, exit, -, -, heq⟩⟩ :=
    put_cases hexit hfits
  · rw [heq]
    refine ⟨datagrams, hoffered, ?_⟩
    rw [← hflat]
    simp
  · rw [heq]
    refine ⟨datagrams, hoffered, ?_⟩
    rw [← hflat]
    simp
  · rw [heq]
    refine ⟨datagrams ++ (p.full ++ [p.cache]), ?_, ?_⟩
    · dsimp only
      rw [hsend, hoffered, List.append_assoc]
    · rw [← hflat]
      simp
  · rw [heq] at hput
    cases hput

end Packing

-- ==== the packing loop

/-- What a chosen segment leaves of the credit. -/
def creditAfter (d : Choice) : Nat :=
  if d.isRetransmit && d.pos.len ≤ d.credit then d.credit - d.pos.len else d.credit

/-- The segments a flush chooses to send. -/
def chosen (c : KcpConnection) (now : Nat) : Nat → List KcpSegment → List KcpSegment
  | _, [] => []
  | credit, pos :: rest =>
    let d := c.choose now credit pos
    if KCP_RETRANSMISSION_MAX < d.pos.xmit then []
    else if d.needSend then d.pos :: c.chosen now (creditAfter d) rest
    else c.chosen now d.credit rest

/-- The socket refuses a batch of `KCP_PACKET_COUNT` full datagrams while segments of these sizes
are written, with `used` bytes in the cache and `full` caches before it. -/
def refusesBatch (mtu : Nat) : List Nat → Nat → Nat → List SendOutcome → Bool
  | [], _, _, _ => false
  | size :: sizes, used, full, answers =>
    if used + size ≤ mtu then refusesBatch mtu sizes (used + size) full answers
    else if full + 1 < KCP_PACKET_COUNT then refusesBatch mtu sizes size (full + 1) answers
    else
      (answers.head?.map (·.status)).getD .sent ≠ .sent
        || refusesBatch mtu sizes size 0 answers.tail

/-- The sizes of segments, as they are written. -/
def sizesOf (segments : List KcpSegment) : List Nat :=
  segments.map fun pos => KCP_HEADER_SIZE + pos.len

/-- The socket refuses a batch in the rest of the loop. -/
def Packing.refuses (mtu : Nat) (p : Packing) (segments : List KcpSegment) : Bool :=
  refusesBatch mtu (sizesOf segments) (datagramSize p.cache) p.full.length p.wire.outcomes

theorem Packing.put_accepted {mtu : Nat} {pos : KcpSegment} {rest : List KcpSegment}
    (hexit : p.exit = none) (hfits : KCP_HEADER_SIZE + pos.len ≤ mtu)
    (haccepted : p.refuses mtu (pos :: rest) = false) :
    (p.put mtu pos).exit = none ∧ (p.put mtu pos).refuses mtu rest = false := by
  unfold Packing.refuses sizesOf at haccepted ⊢
  rw [List.map_cons, refusesBatch] at haccepted
  obtain ⟨-, houtcomes, hstatus⟩ := Wire.send_spec p.wire (p.full ++ [p.cache])
  obtain ⟨hlast, hput⟩ | ⟨hover, hslots, hput⟩ | ⟨hover, hslots, ⟨hsent, hput⟩
    | ⟨hrefused, exit, -, -, hput⟩⟩ := Packing.put_cases hexit hfits
  · rw [if_pos hlast] at haccepted
    rw [hput]
    refine ⟨hexit, ?_⟩
    rw [datagramSize_append, datagramSize_singleton, Packing.size_packetOf]
    exact haccepted
  · rw [if_neg (not_le.mpr hover), if_pos hslots] at haccepted
    rw [hput]
    refine ⟨hexit, ?_⟩
    rw [datagramSize_singleton, Packing.size_packetOf, List.length_append]
    exact haccepted
  · rw [if_neg (not_le.mpr hover), if_neg (not_lt.mpr hslots), Bool.or_eq_false_iff] at haccepted
    rw [hput]
    refine ⟨hexit, ?_⟩
    dsimp only
    rw [datagramSize_singleton, Packing.size_packetOf, houtcomes]
    exact haccepted.2
  · rw [if_neg (not_le.mpr hover), if_neg (not_lt.mpr hslots), Bool.or_eq_false_iff,
      ← hstatus] at haccepted
    simp only [ne_eq, decide_not, Bool.not_eq_false', decide_eq_true_eq] at haccepted
    exact absurd haccepted.1 hrefused

theorem Packing.put_counts (mtu : Nat) (p : Packing) (pos : KcpSegment) :
    (p.put mtu pos).credit = p.credit ∧ (p.put mtu pos).needFlush = p.needFlush := by
  unfold Packing.put
  dsimp only
  split
  · exact ⟨rfl, rfl⟩
  · split
    · split
      · exact ⟨rfl, rfl⟩
      · split <;> exact ⟨rfl, rfl⟩
    · split
      · exact ⟨rfl, rfl⟩
      · split <;> exact ⟨rfl, rfl⟩

theorem len_choose (credit : Nat) (pos : KcpSegment) :
    (c.choose now credit pos).pos.len = pos.len :=
  congrArg (fun q : Nat × Nat × Nat × Nat × List UInt8 => q.2.2.2.2.length) (core_choose credit pos)

theorem Packing.Room.paid {mtu : Nat} (hroom : p.Room mtu) (d : Choice) :
    (pay (note p d) d).Room mtu :=
  ⟨hroom.cache, hroom.full, hroom.offered, hroom.slots⟩

theorem Packing.Room.noted {mtu : Nat} (hroom : p.Room mtu) (d : Choice) :
    (note p d).Room mtu :=
  ⟨hroom.cache, hroom.full, hroom.offered, hroom.slots⟩

/-- Where every segment fits a datagram, the loop ends, and all along it there is a cache left
and no datagram is too long. -/
theorem transmit_room (now : Nat) (segments : List KcpSegment) (hroom : p.Room c.mtu)
    (hexit : p.exit = none) (hfits : ∀ pos ∈ segments, KCP_HEADER_SIZE + pos.len ≤ c.mtu) :
    (c.transmit now p segments).1.Room c.mtu
      ∧ (c.transmit now p segments).1.exit ≠ some .hangs := by
  induction segments generalizing p with
  | nil =>
    refine ⟨hroom, ?_⟩
    show p.exit ≠ _
    rw [hexit]
    intro heq
    cases heq
  | cons pos rest ih =>
    obtain ⟨hpos, hrest⟩ := List.forall_mem_cons.mp hfits
    rw [transmit]
    dsimp only
    generalize hd : c.choose now p.credit pos = d
    have hlen : KCP_HEADER_SIZE + d.pos.len ≤ c.mtu := by
      rw [← hd, len_choose]
      exact hpos
    split
    · have hnoted := hroom.noted d
      exact ⟨⟨hnoted.cache, hnoted.full, hnoted.offered, hnoted.slots⟩, fun heq => by cases heq⟩
    · split
      · have hput := (hroom.paid d).put hexit hlen
        split
        case isTrue => exact hput
        case isFalse hgoes =>
          exact ih hput.1 (Option.not_isSome_iff_eq_none.mp hgoes) hrest
      · exact ih (hroom.noted d) hexit hrest

theorem transmit_written (now : Nat) {sent : List Datagram} (segments : List KcpSegment)
    (packets : List KcpPacket) (hwritten : p.Written sent packets)
    (hexit : p.exit = none)
    (hfits : ∀ pos ∈ segments, KCP_HEADER_SIZE + pos.len ≤ c.mtu)
    (haccepted : p.refuses c.mtu (c.chosen now p.credit segments) = false) :
    (c.transmit now p segments).1.Written sent
        (packets ++ (c.chosen now p.credit segments).map Packing.packetOf)
      ∧ ((c.transmit now p segments).1.exit = none
        ∨ (c.transmit now p segments).1.exit = some .tooManyRetrans) := by
  induction segments generalizing p packets with
  | nil =>
    rw [chosen, List.map_nil, List.append_nil]
    exact ⟨hwritten, .inl hexit⟩
  | cons pos rest ih =>
    obtain ⟨hpos, hrest⟩ := List.forall_mem_cons.mp hfits
    rw [transmit, chosen] at *
    dsimp only at haccepted ⊢
    have hlen : KCP_HEADER_SIZE + (c.choose now p.credit pos).pos.len ≤ c.mtu := by
      rw [len_choose]
      exact hpos
    generalize c.choose now p.credit pos = d at haccepted hlen ⊢
    split
    case isTrue =>
      rw [List.map_nil, List.append_nil]
      exact ⟨hwritten, .inr rfl⟩
    case isFalse hretrans =>
      rw [if_neg hretrans] at haccepted
      split
      case isTrue hneed =>
        rw [if_pos hneed] at haccepted
        obtain ⟨hgoes, hrestAccepted⟩ :=
          Packing.put_accepted (p := pay (note p d) d) hexit hlen haccepted
        have hput : ((pay (note p d) d).put c.mtu d.pos).Written sent
            (packets ++ [Packing.packetOf d.pos]) :=
          Packing.Written.put hwritten hexit hlen hgoes
        have hcredit : ((pay (note p d) d).put c.mtu d.pos).credit = creditAfter d :=
          (Packing.put_counts c.mtu (pay (note p d) d) d.pos).1
        rw [if_neg (by rw [hgoes]; exact Bool.false_ne_true)]
        rw [← hcredit] at hrestAccepted ⊢
        obtain ⟨hend, hexits⟩ := ih _ hput hgoes hrest hrestAccepted
        refine ⟨?_, hexits⟩
        rw [List.append_assoc] at hend
        exact hend
      case isFalse hneed =>
        rw [if_neg hneed] at haccepted
        exact ih _ (p := note p d) hwritten hexit hrest haccepted

theorem transmit_needFlush (segments : List KcpSegment)
    (hneed : p.needFlush = true ∨ c.chosen now p.credit segments ≠ []) :
    (c.transmit now p segments).1.needFlush = true := by
  induction segments generalizing p with
  | nil => exact hneed.resolve_right fun hne => hne rfl
  | cons pos rest ih =>
    rw [transmit]
    rw [chosen] at hneed
    dsimp only at hneed ⊢
    generalize c.choose now p.credit pos = d at hneed ⊢
    split
    case isTrue hretrans =>
      rw [if_pos hretrans] at hneed
      exact hneed.resolve_right fun hne => hne rfl
    case isFalse hretrans =>
      rw [if_neg hretrans] at hneed
      split
      case isTrue =>
        have hpaid : ((pay (note p d) d).put c.mtu d.pos).needFlush = true :=
          (Packing.put_counts c.mtu (pay (note p d) d) d.pos).2
        split
        · exact hpaid
        · exact ih (.inl hpaid)
      case isFalse hsends =>
        rw [if_neg hsends] at hneed
        exact ih hneed

-- ==== flush

variable {outcomes : List SendOutcome}

/-- The connection as the packing loop finds it. -/
def readyToSend (xxh64 : Nat → Nat) (c : KcpConnection) (now : Nat) (outcomes : List SendOutcome) :
    KcpConnection :=
  let c := (flushHeaders xxh64 c now { outcomes }).2.1
  let c := fillWindow now c c.snd.sndQueue
  { c with bbr := c.bbr.refill c.mss now }

/-- The datagrams of headers a flush sends before. -/
def headerWire (xxh64 : Nat → Nat) (c : KcpConnection) (now : Nat) (outcomes : List SendOutcome) :
    Wire :=
  (flushHeaders xxh64 c now { outcomes }).1.wire

/-- What a flush chooses to send. -/
def flushChosen (xxh64 : Nat → Nat) (c : KcpConnection) (now : Nat) (outcomes : List SendOutcome) :
    List KcpSegment :=
  (c.readyToSend xxh64 now outcomes).chosen now (c.readyToSend xxh64 now outcomes).bbr.pacingCredit
    (c.readyToSend xxh64 now outcomes).snd.sndBuf

/-- The caches once the loop has been over the first `n` segments of `snd_buf`. -/
def packing (xxh64 : Nat → Nat) (c : KcpConnection) (now : Nat) (outcomes : List SendOutcome)
    (n : Nat) : Packing :=
  ((c.readyToSend xxh64 now outcomes).transmit now
    { credit := (c.readyToSend xxh64 now outcomes).bbr.pacingCredit
      wire := c.headerWire xxh64 now outcomes }
    ((c.readyToSend xxh64 now outcomes).snd.sndBuf.take n)).1

/-- The same, at the end of the loop. -/
def packed (xxh64 : Nat → Nat) (c : KcpConnection) (now : Nat) (outcomes : List SendOutcome) :
    Packing :=
  c.packing xxh64 now outcomes (c.readyToSend xxh64 now outcomes).snd.sndBuf.length

/-- The socket refuses a batch of full datagrams while others wait to be written. -/
def flushRefused (xxh64 : Nat → Nat) (c : KcpConnection) (now : Nat) (outcomes : List SendOutcome) :
    Bool :=
  refusesBatch c.mtu (sizesOf (c.flushChosen xxh64 now outcomes)) 0 0
    (c.headerWire xxh64 now outcomes).outcomes

structure Packs (xxh64 : Nat → Nat) (c : KcpConnection) (now : Nat) (outcomes : List SendOutcome) :
    Prop where
  ends : (c.flush xxh64 now outcomes).exit ≠ .hangs
  le_mtu : ∀ d ∈ (c.flush xxh64 now outcomes).wire.offered,
    datagramSize d ≤ c.mtu ∧ datagramSize d ≤ ETHERNET_MTU
  slots : c.Flushes now → ∀ n,
    (c.packing xxh64 now outcomes n).full.length + 1 ≤ KCP_PACKET_COUNT
  once : c.Flushes now →
    (c.packed xxh64 now outcomes).Written (c.headerWire xxh64 now outcomes).offered
      ((c.flushChosen xxh64 now outcomes).map Packing.packetOf)
  sent : c.Flushes now → (c.flush xxh64 now outcomes).exit ≠ .tooManyRetrans →
    ∃ datagrams, (c.flush xxh64 now outcomes).wire.offered
        = (c.headerWire xxh64 now outcomes).offered ++ datagrams
      ∧ datagrams.flatten = (c.flushChosen xxh64 now outcomes).map Packing.packetOf

theorem mtu_readyToSend : (c.readyToSend xxh64 now outcomes).mtu = c.mtu := by
  have hheaders := gauges_flushHeaders xxh64 c now { outcomes }
  have hfilled := gauges_fillWindow now (flushHeaders xxh64 c now { outcomes }).2.1
    (flushHeaders xxh64 c now { outcomes }).2.1.snd.sndQueue
  exact congrArg (fun q => q.1) (hfilled.trans hheaders)

theorem payloads_readyToSend (xxh64 : Nat → Nat) (c : KcpConnection) (now : Nat)
    (outcomes : List SendOutcome) : (c.readyToSend xxh64 now outcomes).payloads = c.payloads := by
  have hsnd : (flushHeaders xxh64 c now { outcomes }).2.1.snd = c.snd :=
    congrArg (fun q => q.1) (sending_flushHeaders xxh64 c now { outcomes })
  have hfilled := payloads_fillWindow now (flushHeaders xxh64 c now { outcomes }).2.1
    (flushHeaders xxh64 c now { outcomes }).2.1.snd.sndQueue
  exact hfilled.trans (by rw [hsnd, payloads])

/-- How a flush that takes place ends: as the loop does, or with the rest that is sent. -/
theorem flush_packed (xxh64 : Nat → Nat) (outcomes : List SendOutcome) (hflush : c.Flushes now) :
    (c.flush xxh64 now outcomes).wire = (sendRest (c.packed xxh64 now outcomes)).wire
      ∧ (c.flush xxh64 now outcomes).exit
          = (sendRest (c.packed xxh64 now outcomes)).exit.getD .done := by
  obtain ⟨hstate, hdue, halive⟩ := hflush
  have hheaders : (flushHeaders xxh64 c now { outcomes }).2.2 = false := by
    rw [ranOut_flushHeaders]
    exact halive
  have hnotDue : ¬ (c.state ≠ .CONNECTED || decide (now / 1000 < c.tsFlush)) = true := by
    simp only [hstate, ne_eq, not_true_eq_false, decide_false, Bool.false_or, decide_eq_true_eq]
    exact not_lt.mpr hdue
  unfold packed packing
  rw [flush, if_neg hnotDue, List.take_length]
  dsimp only
  rw [hheaders]
  show (flushSegments _ now _).wire = _ ∧ (flushSegments _ now _).exit = _
  unfold flushSegments
  dsimp only
  split
  case h_1 hexit => exact ⟨rfl, (congrArg (fun e => e.getD .done) hexit).symm⟩
  case h_2 hexit => exact ⟨rfl, (congrArg (fun e => e.getD .done) hexit).symm⟩
  case h_3 exit _ hexit => exact ⟨rfl, (congrArg (fun e => e.getD .done) hexit).symm⟩

/-- Every segment that waits fits a datagram by itself. -/
def AllFit (c : KcpConnection) : Prop :=
  ∀ pos ∈ c.snd.sndQueue ++ c.snd.sndBuf, KCP_HEADER_SIZE + pos.len ≤ c.mtu

theorem allFit_iff :
    c.AllFit ↔ ∀ data ∈ c.payloads, KCP_HEADER_SIZE + data.length ≤ c.mtu := by
  unfold AllFit payloads
  constructor
  · intro hall data hdata
    obtain ⟨pos, hpos, rfl⟩ := List.mem_map.mp hdata
    exact hall pos (List.mem_append.mpr (List.mem_append.mp hpos).symm)
  · intro hall pos hpos
    exact hall pos.data
      (List.mem_map_of_mem (List.mem_append.mpr (List.mem_append.mp hpos).symm))

theorem fits_readyToSend (hall : c.AllFit) :
    ∀ pos ∈ (c.readyToSend xxh64 now outcomes).snd.sndBuf,
      KCP_HEADER_SIZE + pos.len ≤ (c.readyToSend xxh64 now outcomes).mtu := by
  intro pos hpos
  rw [mtu_readyToSend]
  refine allFit_iff.mp hall pos.data ?_
  rw [← payloads_readyToSend xxh64 c now outcomes]
  exact List.mem_map_of_mem (List.mem_append_left _ hpos)

theorem packing_room (hmtu : KCP_HEADER_SIZE ≤ c.mtu) (hall : c.AllFit) (n : Nat) :
    (c.packing xxh64 now outcomes n).Room c.mtu
      ∧ (c.packing xxh64 now outcomes n).exit ≠ some .hangs := by
  have hroom := transmit_room now (c := c.readyToSend xxh64 now outcomes)
    (p := { credit := (c.readyToSend xxh64 now outcomes).bbr.pacingCredit
            wire := c.headerWire xxh64 now outcomes })
    ((c.readyToSend xxh64 now outcomes).snd.sndBuf.take n)
    ⟨Nat.zero_le _, (fun d hd => nomatch hd), ?_, show 0 < KCP_PACKET_COUNT by decide⟩ rfl
    fun pos hpos => fits_readyToSend hall pos (List.mem_of_mem_take hpos)
  · rw [mtu_readyToSend] at hroom
    exact hroom
  · rw [mtu_readyToSend]
    exact (room_flushHeaders xxh64 c now hmtu outcomes).offered

theorem packed_written (hall : c.AllFit) (haccepted : c.flushRefused xxh64 now outcomes = false) :
    (c.packed xxh64 now outcomes).Written (c.headerWire xxh64 now outcomes).offered
        ((c.flushChosen xxh64 now outcomes).map Packing.packetOf)
      ∧ ((c.packed xxh64 now outcomes).exit = none
        ∨ (c.packed xxh64 now outcomes).exit = some .tooManyRetrans) := by
  unfold packed packing
  rw [List.take_length]
  refine transmit_written now (c := c.readyToSend xxh64 now outcomes)
    (p := { credit := (c.readyToSend xxh64 now outcomes).bbr.pacingCredit
            wire := c.headerWire xxh64 now outcomes })
    _ [] ⟨[], (List.append_nil _).symm, rfl⟩ rfl (fits_readyToSend hall) ?_
  rw [mtu_readyToSend]
  exact haccepted

theorem flush_le_mtu (xxh64 : Nat → Nat) (now : Nat) (outcomes : List SendOutcome)
    (hmtu : KCP_HEADER_SIZE ≤ c.mtu) (hall : c.AllFit) :
    (c.flush xxh64 now outcomes).exit ≠ .hangs
      ∧ ∀ d ∈ (c.flush xxh64 now outcomes).wire.offered, datagramSize d ≤ c.mtu := by
  by_cases hflush : c.Flushes now
  · obtain ⟨hwire, hexit⟩ := flush_packed xxh64 outcomes hflush
    obtain ⟨hroom, hhangs⟩ : (c.packed xxh64 now outcomes).Room c.mtu
        ∧ (c.packed xxh64 now outcomes).exit ≠ some .hangs := packing_room hmtu hall _
    rw [hwire, hexit]
    generalize c.packed xxh64 now outcomes = p at hroom hhangs ⊢
    unfold sendRest
    split
    case isTrue hrest =>
      obtain ⟨-, hsend⟩ | ⟨-, exit, hexit', -, -, hsend⟩ := p.send_cases (p.full ++ [p.cache])
      · rw [hsend]
        have hnone : p.exit = none := by
          cases hp : p.exit with
          | none => rfl
          | some exit => rw [hp] at hrest; cases hrest
        refine ⟨?_, hroom.offered_send⟩
        show p.exit.getD .done ≠ .hangs
        rw [hnone]
        exact nofun
      · rw [hsend]
        exact ⟨hexit', hroom.offered_send⟩
    case isFalse =>
      refine ⟨?_, hroom.offered⟩
      cases hp : p.exit with
      | none => exact nofun
      | some exit =>
        rw [hp] at hhangs
        exact fun h => hhangs (congrArg some h)
  · unfold flush
    split
    case isTrue => exact ⟨nofun, fun d hd => nomatch hd⟩
    case isFalse hdue =>
      dsimp only
      split
      case isTrue => exact ⟨nofun, (room_flushHeaders xxh64 c now hmtu outcomes).offered⟩
      case isFalse hranOut =>
        rw [ranOut_flushHeaders] at hranOut
        simp only [ne_eq, Bool.or_eq_true, decide_eq_true_eq, not_or, not_not, not_lt] at hdue
        exact absurd ⟨hdue.1, hdue.2, Bool.eq_false_iff.mpr hranOut⟩ hflush

theorem flush_sent (hall : c.AllFit) (hflush : c.Flushes now)
    (haccepted : c.flushRefused xxh64 now outcomes = false)
    (hexit : (c.flush xxh64 now outcomes).exit ≠ .tooManyRetrans) :
    ∃ datagrams, (c.flush xxh64 now outcomes).wire.offered
        = (c.headerWire xxh64 now outcomes).offered ++ datagrams
      ∧ datagrams.flatten = (c.flushChosen xxh64 now outcomes).map Packing.packetOf := by
  obtain ⟨⟨datagrams, hoffered, hflat⟩, hexits⟩ := packed_written hall haccepted
  obtain ⟨hwire, hexit'⟩ := flush_packed xxh64 outcomes hflush
  have hneed : c.flushChosen xxh64 now outcomes ≠ [] →
      (c.packed xxh64 now outcomes).needFlush = true := by
    intro hne
    unfold packed packing
    rw [List.take_length]
    exact transmit_needFlush _ (.inr hne)
  rw [hwire]
  rw [hexit'] at hexit
  generalize c.packed xxh64 now outcomes = p at *
  generalize c.flushChosen xxh64 now outcomes = segments at *
  obtain hnone | hretrans := hexits
  · unfold sendRest
    rw [hnone]
    by_cases hrest : p.needFlush = true
    · rw [hrest]
      refine ⟨datagrams ++ p.full ++ [p.cache], ?_, hflat⟩
      have hsent := (Wire.send_spec p.wire (p.full ++ [p.cache])).1
      show (p.wire.send (p.full ++ [p.cache])).1.offered = _
      rw [hsent, hoffered]
      simp
    · rw [Bool.eq_false_iff.mpr hrest]
      have hnil : segments = [] := by
        by_contra hne
        exact hrest (hneed hne)
      rw [hnil, List.map_nil] at hflat ⊢
      refine ⟨datagrams, hoffered, ?_⟩
      rw [List.append_assoc, List.flatten_append] at hflat
      exact (List.append_eq_nil_iff.mp hflat).1
  · refine absurd ?_ hexit
    unfold sendRest
    rw [hretrans]
    show (p.exit.getD .done) = _
    rw [hretrans]
    rfl

-- ==== runs

/-- What the handshake, a search for the path MTU and the socket have to keep to: the MTU has
room for a byte and is that of a datagram's buffer, what waits fits it, and no batch of full
datagrams is refused. -/
def KeepsMtu (xxh64 : Nat → Nat) (k : KcpSetting) (c : KcpConnection) : LifetimeOp → Prop
  | .synReceived _ syn sent _ =>
    sent = true → c.state = .SYN_SENT →
      KCP_HEADER_SIZE < min (k.remoteMtu syn.mtu) c.mtu
        ∧ min (k.remoteMtu syn.mtu) c.mtu ≤ ETHERNET_MTU
  | .accepted _ => c.state = .SYN_RECEIVED → KCP_HEADER_SIZE < c.mtu ∧ c.mtu ≤ ETHERNET_MTU
  | .probeCompleted mtu code =>
    c.state = .CONNECTED → code = NO_ERROR → c.mtu ≤ u32 mtu →
      ipUdpHeaderSize k.ipv6 + KCP_HEADER_SIZE < u32 mtu
        ∧ u32 mtu ≤ ipUdpHeaderSize k.ipv6 + ETHERNET_MTU
        ∧ ∀ pos ∈ c.snd.sndQueue ++ c.snd.sndBuf,
          ipUdpHeaderSize k.ipv6 + KCP_HEADER_SIZE + pos.len ≤ u32 mtu
  | .transfer (.flush now outcomes) =>
    c.Flushes now → c.flushRefused xxh64 now outcomes = false
  | _ => True

instance (xxh64 : Nat → Nat) (k : KcpSetting) (c : KcpConnection) :
    (op : LifetimeOp) → Decidable (KeepsMtu xxh64 k c op)
  | .synReceived .. => inferInstanceAs (Decidable (_ → _))
  | .accept _ => isTrue trivial
  | .accepted _ => inferInstanceAs (Decidable (_ → _))
  | .configure _ => isTrue trivial
  | .probeCompleted .. => inferInstanceAs (Decidable (_ → _))
  | .transfer (.flush ..) => inferInstanceAs (Decidable (_ → _))
  | .transfer (.packet ..) => isTrue trivial
  | .transfer (.send ..) => isTrue trivial
  | .transfer (.recv _) => isTrue trivial
  | .transfer (.windowSize _) => isTrue trivial

/-- What the steps keep. Before it is connected a connection has nothing to send. -/
structure PackInv (c : KcpConnection) : Prop where
  mss_eq : c.mss = sub32 c.mtu KCP_HEADER_SIZE
  unconnected : c.state = .SYN_SENT ∨ c.state = .SYN_RECEIVED →
    ∀ data ∈ c.payloads, data.length ≤ 0
  connected : c.state = .CONNECTED →
    KCP_HEADER_SIZE < c.mtu ∧ c.mtu ≤ ETHERNET_MTU
      ∧ ∀ data ∈ c.payloads, KCP_HEADER_SIZE + data.length ≤ c.mtu

variable {k : KcpSetting}

theorem PackInv.init {state : KcpConnectionState}
    (hstate : state = .SYN_SENT ∨ state = .SYN_RECEIVED) (fastlimit : Int) (now : Nat) :
    PackInv (init k state fastlimit now) := by
  refine ⟨rfl, (fun _ data hdata => nomatch hdata), fun hconnected => ?_⟩
  have heq : state = .CONNECTED := hconnected
  rw [heq] at hstate
  exact absurd hstate (by decide)

theorem PackInv.connect (h : PackInv c) (hstate : c.state = .SYN_SENT ∨ c.state = .SYN_RECEIVED)
    {c' : KcpConnection} (hmss : c'.mss = sub32 c'.mtu KCP_HEADER_SIZE)
    (hpayloads : c'.payloads = c.payloads) (hstate' : c'.state = .CONNECTED)
    (hlow : KCP_HEADER_SIZE < c'.mtu) (hhigh : c'.mtu ≤ ETHERNET_MTU) : PackInv c' := by
  refine ⟨hmss, fun hwaits => ?_, fun _ => ⟨hlow, hhigh, fun data hdata => ?_⟩⟩
  · rw [hstate'] at hwaits
    exact absurd hwaits (by decide)
  · rw [hpayloads] at hdata
    have hnone := h.unconnected hstate data hdata
    omega

theorem PackInv.congr (h : PackInv c) {c' : KcpConnection} (hmtu : c'.mtu = c.mtu)
    (hmss : c'.mss = c.mss) (hstate : c'.state = c.state ∨ c'.state = .DISCONNECTED)
    (hpayloads : c'.payloads = c.payloads) : PackInv c' := by
  refine ⟨by rw [hmss, hmtu, h.mss_eq], fun hwaits => ?_, fun hconnected => ?_⟩
  · obtain hsame | hended := hstate
    · rw [hpayloads]
      exact h.unconnected (hsame ▸ hwaits)
    · rw [hended] at hwaits
      exact absurd hwaits (by decide)
  · obtain hsame | hended := hstate
    · rw [hpayloads, hmtu]
      exact h.connected (hsame ▸ hconnected)
    · rw [hended] at hconnected
      exact absurd hconnected (by decide)

theorem PackInv.establish (h : PackInv c) (now : Nat) : PackInv (c.establish now) := by
  obtain ⟨hstate, hmtu, hmss, -, hsnd⟩ := establish_fields c now
  exact h.congr hmtu hmss (.inl hstate) (by rw [payloads, payloads, hsnd])

theorem PackInv.transfer (h : PackInv c) (op : EndpointOp) : PackInv (c.step xxh64 op) := by
  have hsizes : (c.step xxh64 op).sizes = c.sizes := by
    obtain hsame | ⟨ack, now, malloc, -, -, hsizes, -⟩ := step_gauges xxh64 c op
    · exact congrArg (fun q => (q.1, q.2.1, q.2.2.1)) hsame
    · exact hsizes
  have hmtu : (c.step xxh64 op).mtu = c.mtu := congrArg (fun q => q.1) hsizes
  have hmss : (c.step xxh64 op).mss = c.mss := congrArg (fun q => q.2.1) hsizes
  have hstate := state_step xxh64 c op
  refine ⟨by rw [hmss, hmtu, h.mss_eq], fun hwaits => ?_, fun hconnected => ?_⟩
  · obtain hsame | hended := hstate
    · rw [hsame] at hwaits
      refine step_payloads _ op (h.unconnected hwaits) fun hconnected => ?_
      rw [hconnected] at hwaits
      exact absurd hwaits (by decide)
    · rw [hended] at hwaits
      exact absurd hwaits (by decide)
  · obtain hsame | hended := hstate
    · rw [hsame] at hconnected
      obtain ⟨hlow, hhigh, hall⟩ := h.connected hconnected
      have hpieces : c.mss ≤ c.mtu - KCP_HEADER_SIZE := by
        rw [h.mss_eq, sub32_of_le hlow.le]
      rw [hmtu]
      refine ⟨hlow, hhigh, fun data hdata => ?_⟩
      have hlen := step_payloads (c.mtu - KCP_HEADER_SIZE) op
        (fun data hdata => Nat.le_sub_of_add_le' (hall data hdata)) (fun _ => hpieces) data hdata
      omega
    · rw [hended] at hconnected
      exact absurd hconnected (by decide)

theorem PackInv.setEstimates (h : PackInv c) (srtt rttval : Int) :
    PackInv { c with snd := { c.snd with rxSrtt := srtt, rxRttval := rttval } } :=
  ⟨h.mss_eq, h.unconnected, h.connected⟩

theorem PackInv.disconnect (h : PackInv c) : PackInv { c with state := .DISCONNECTED } :=
  h.congr rfl rfl (.inr rfl) rfl

theorem PackInv.onSynReceived (h : PackInv c) (synTs : Nat) (syn : KcpSynNode) (sent : Bool)
    (now : Nat) (hop : KeepsMtu xxh64 k c (.synReceived synTs syn sent now)) :
    PackInv (c.onSynReceived k synTs syn sent now) := by
  unfold KcpConnection.onSynReceived
  generalize i32 (sub64 (sub64 now synTs) (sub64 syn.ts syn.packetTs)) = srtt
  have hkept := h.setEstimates srtt (srtt.tdiv 2)
  dsimp only
  split
  case isTrue hsent =>
    split
    case isTrue hstate =>
      obtain ⟨hlow, hhigh⟩ := hop hsent hstate
      refine PackInv.establish ?_ now
      exact hkept.connect (.inl hstate) rfl rfl rfl hlow hhigh
    case isFalse => exact hkept
  case isFalse =>
    split
    · exact hkept
    · exact hkept.disconnect

theorem PackInv.onMtuProbeCompleted (h : PackInv c) (mtu : Nat) (code : Int)
    (hop : KeepsMtu xxh64 k c (.probeCompleted mtu code)) :
    PackInv (c.onMtuProbeCompleted k (u32 mtu) code) := by
  unfold KcpConnection.onMtuProbeCompleted
  split
  case isFalse => exact h
  case isTrue hcode =>
    split
    case isTrue => exact h
    case isFalse hle =>
      refine ⟨rfl, h.unconnected, fun hconnected => ?_⟩
      obtain ⟨hlow, hhigh, hall⟩ := hop hconnected hcode (not_lt.mp hle)
      show KCP_HEADER_SIZE < sub32 (u32 mtu) (ipUdpHeaderSize k.ipv6)
        ∧ sub32 (u32 mtu) (ipUdpHeaderSize k.ipv6) ≤ ETHERNET_MTU
        ∧ ∀ data ∈ c.payloads,
          KCP_HEADER_SIZE + data.length ≤ sub32 (u32 mtu) (ipUdpHeaderSize k.ipv6)
      rw [sub32_of_le (by omega)]
      refine ⟨by omega, by omega, fun data hdata => ?_⟩
      obtain ⟨pos, hpos, rfl⟩ := List.mem_map.mp hdata
      have hfits := hall pos (List.mem_append.mpr (List.mem_append.mp hpos).symm)
      have hlen : pos.len = pos.data.length := rfl
      omega

theorem packInv_step (h : PackInv c) (op : LifetimeOp) (hop : KeepsMtu xxh64 k c op) :
    PackInv (c.stepLifetime xxh64 k op) := by
  cases op with
  | synReceived synTs syn sent now => exact h.onSynReceived synTs syn sent now hop
  | accept option =>
    unfold stepLifetime
    dsimp only
    split
    case isTrue hstate =>
      refine ⟨rfl, h.unconnected, fun hconnected => ?_⟩
      have hsame : c.state = .CONNECTED := hconnected
      rw [hstate] at hsame
      cases hsame
    case isFalse => exact h
  | accepted now =>
    unfold stepLifetime onAccepted
    dsimp only
    split
    case isTrue hstate =>
      obtain ⟨hlow, hhigh⟩ := hop hstate
      have hconnected : PackInv { c with state := .CONNECTED } :=
        h.connect (.inr hstate) h.mss_eq rfl rfl hlow hhigh
      split
      · exact hconnected.establish now
      · exact hconnected
    case isFalse => exact h
  | configure config =>
    have hnodelay : PackInv (c.configureNodelay config.nodelay) := by
      unfold configureNodelay
      split
      · exact h.congr rfl rfl (.inl rfl) rfl
      · exact h
    show PackInv (c.configure config)
    unfold configure
    dsimp only
    generalize c.configureNodelay config.nodelay = c' at hnodelay ⊢
    split
    · exact hnodelay
    · split
      · exact hnodelay.congr rfl rfl (.inl rfl) rfl
      · exact hnodelay.congr rfl rfl (.inl rfl) rfl
  | probeCompleted mtu code => exact h.onMtuProbeCompleted mtu code hop
  | transfer op => exact h.transfer op

/-- Along a life whose steps all keep to the MTU, what waits fits a datagram, and every flush
ends and packs what it sends as it should. -/
theorem flush_packs (xxh64 : Nat → Nat) (k : KcpSetting) (state : KcpConnectionState)
    (fastlimit : Int) (start : Nat) (ops : List LifetimeOp)
    (hstate : state = .SYN_SENT ∨ state = .SYN_RECEIVED)
    (hok : Meets (stepLifetime xxh64 k) (KeepsMtu xxh64 k) (init k state fastlimit start) ops)
    (now : Nat) (outcomes : List SendOutcome)
    (hflush : KeepsMtu xxh64 k (run (stepLifetime xxh64 k) (init k state fastlimit start) ops)
      (.transfer (.flush now outcomes))) :
    Packs xxh64 (run (stepLifetime xxh64 k) (init k state fastlimit start) ops) now outcomes
      ∧ ((run (stepLifetime xxh64 k) (init k state fastlimit start) ops).state = .CONNECTED →
        AllFit (run (stepLifetime xxh64 k) (init k state fastlimit start) ops)) := by
  have hinv : PackInv (run (stepLifetime xxh64 k) (init k state fastlimit start) ops) :=
    run_inv (P := PackInv) (fun _ op h hop => packInv_step h op hop)
      (PackInv.init hstate fastlimit start) hok
  generalize run (stepLifetime xxh64 k) (init k state fastlimit start) ops = c at hinv hflush ⊢
  refine ⟨?_, fun hconnected => allFit_iff.mpr (hinv.connected hconnected).2.2⟩
  by_cases hconnected : c.state = .CONNECTED
  · obtain ⟨hlow, hhigh, hall⟩ := hinv.connected hconnected
    have hfit : c.AllFit := allFit_iff.mpr hall
    obtain ⟨hends, hoffered⟩ :=
      flush_le_mtu xxh64 now outcomes hlow.le hfit
    refine ⟨hends, fun d hd => ⟨hoffered d hd, (hoffered d hd).trans hhigh⟩, ?_, ?_, ?_⟩
    · exact fun _ n => (packing_room hlow.le hfit n).1.slots
    · exact fun hdue => (packed_written hfit (hflush hdue)).1
    · exact fun hdue hexit => flush_sent hfit hdue (hflush hdue) hexit
  · have hidle : c.flush xxh64 now outcomes = ⟨c, { outcomes }, [], .notDue⟩ := by
      rw [flush, if_pos (by simp [hconnected])]
    refine ⟨?_, ?_, fun hdue => absurd hdue.1 hconnected, fun hdue => absurd hdue.1 hconnected,
      fun hdue => absurd hdue.1 hconnected⟩
    · rw [hidle]
      intro heq
      cases heq
    · rw [hidle]
      intro d hd
      cases hd

/-- A client at 1300 bytes that sends 100, and the path takes more. -/
def raisedMtu : List LifetimeOp :=
  [.synReceived 0 ⟨1000, 2000, some 1300⟩ true 41000, .transfer (.send (List.replicate 100 7)),
    .probeCompleted 1472 NO_ERROR]

theorem flush_packs_raisedMtu :
    Packs id (run (stepLifetime id ⟨1400, false, false, true⟩)
        (init ⟨1400, false, false, true⟩ .SYN_SENT 0 0) raisedMtu) 200000 []
      ∧ ((run (stepLifetime id ⟨1400, false, false, true⟩)
          (init ⟨1400, false, false, true⟩ .SYN_SENT 0 0) raisedMtu).state = .CONNECTED →
        AllFit (run (stepLifetime id ⟨1400, false, false, true⟩)
          (init ⟨1400, false, false, true⟩ .SYN_SENT 0 0) raisedMtu)) :=
  flush_packs id ⟨1400, false, false, true⟩ .SYN_SENT 0 0 raisedMtu (by decide)
    (by decide +kernel) 200000 [] (by decide +kernel)

/-- A search that finds the MTU there is takes 28 bytes off it: a full segment that waits fits no
datagram any more, and the flush does not end. With an MTU of 9000 a datagram is longer than the
cache it is written into. -/
theorem shrunk_mtu_hangs :
    ((run (stepLifetime id ⟨1300, false, false, true⟩)
        (init ⟨1300, false, false, true⟩ .SYN_SENT 0 0)
        [.synReceived 0 ⟨1000, 2000, none⟩ true 41000,
          .transfer (.send (List.replicate 1268 7)),
          .probeCompleted 1300 NO_ERROR]).flush id 200000 []).exit = .hangs
      ∧ ∃ d ∈ ((run (stepLifetime id ⟨9000, false, false, true⟩)
        (init ⟨9000, false, false, true⟩ .SYN_SENT 0 0)
        [.synReceived 0 ⟨1000, 2000, none⟩ true 41000,
          .transfer (.send (List.replicate 4000 7))]).flush id 200000 []).wire.offered,
        ETHERNET_MTU < datagramSize d := by
  decide +kernel

end KcpConnection

end Eular.Kcp
