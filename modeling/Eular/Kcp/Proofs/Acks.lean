/-
Which PUSHes are acknowledged (`on_kcp_push_pcaket` and the ACKs of
`on_kcp_write_timeout`).

A flush sends one ACK for each item that waits, and each of them carries
`rcv_nxt` as its `una`. So a segment is acknowledged by the next flush
exactly if an item bears its number, or some item waits and the number is
below `rcv_nxt`. Of the three ways a PUSH can go, only that of a segment
that was not there before leaves an item; one below `rcv_nxt` returns before
the item is made, and one the tree holds takes its item back. Once the
flush that acknowledged a segment has emptied the list, and that ACK is
lost, the retransmissions are not answered any more.

# The proof

`acks` reads the ACKs off what a flush has offered to the socket and still
holds in the buffer; every part of the flush keeps them but the loop over
the items, which adds one each. `Remembered` is what the receiver has to
know before the PUSH.
-/
import Eular.Kcp.Proofs.Receiving

namespace Eular.Kcp

open Lib

-- ==== the ACKs sent

/-- The ACKs among the packets of a datagram. -/
def acksIn (d : Datagram) : List KcpAckHeader :=
  d.filterMap fun
    | .ack header => some header
    | _ => none

def acksOf (ds : List Datagram) : List KcpAckHeader := ds.flatMap acksIn

@[simp] theorem acksOf_nil : acksOf [] = [] := rfl

@[simp] theorem acksOf_append (ds es : List Datagram) :
    acksOf (ds ++ es) = acksOf ds ++ acksOf es :=
  List.flatMap_append

@[simp] theorem acksOf_singleton (d : Datagram) : acksOf [d] = acksIn d := by simp [acksOf]

@[simp] theorem acksIn_append (d e : Datagram) : acksIn (d ++ e) = acksIn d ++ acksIn e :=
  List.filterMap_append

@[simp] theorem acksIn_nil : acksIn [] = [] := rfl

@[simp] theorem acksIn_ack (header : KcpAckHeader) : acksIn [.ack header] = [header] := rfl

@[simp] theorem acksIn_push (p : KcpPush) : acksIn [.push p] = [] := rfl

@[simp] theorem acksIn_control (cmd wnd packetTs ts sn : Nat) :
    acksIn [.control cmd wnd packetTs ts sn] = [] := rfl

@[simp] theorem Wire.offered_send (w : Wire) (ds : List Datagram) :
    (w.send ds).1.offered = w.offered ++ ds := by
  unfold send
  split <;> rfl

namespace HeaderBuffer

/-- The ACKs offered and those in the buffer. -/
def acks (h : HeaderBuffer) : List KcpAckHeader := acksOf h.wire.offered ++ acksIn h.buffer

theorem acks_sendBuffer (h : HeaderBuffer) : h.sendBuffer.acks = h.acks := by
  simp [acks, sendBuffer]

theorem acks_makeRoom (mtu : Nat) (h : HeaderBuffer) : (h.makeRoom mtu).acks = h.acks := by
  unfold makeRoom
  split
  · exact acks_sendBuffer h
  · rfl

theorem acks_putAck (mtu wnd una now : Nat) (h : HeaderBuffer) (pos : KcpAck) :
    (h.putAck mtu wnd una now pos).acks
      = h.acks ++ [{ wnd, packetTs := pos.ts, ackTs := now, sn := pos.sn, una }] := by
  unfold putAck
  rw [acks_makeRoom]
  simp [acks]

theorem acks_putControl (mtu cmd wnd packetTs ts sn : Nat) (h : HeaderBuffer) :
    (h.putControl mtu cmd wnd packetTs ts sn).acks = h.acks := by
  rw [← acks_makeRoom mtu h]
  simp [acks, putControl]

theorem acks_finish (h : HeaderBuffer) : acksOf h.finish.wire.offered = h.acks := by
  unfold finish
  split
  case isTrue hempty =>
    rw [List.isEmpty_iff] at hempty
    simp [acks, hempty]
  case isFalse => simp [acks, sendBuffer]

end HeaderBuffer

namespace KcpConnection

variable {c : KcpConnection} {xxh64 : Nat → Nat} {now : Nat} {wire : Wire} {h : HeaderBuffer}

/-- The header that acknowledges an item. -/
def ackHeader (c : KcpConnection) (now : Nat) (pos : KcpAck) : KcpAckHeader where
  wnd := u16OfInt c.rcv.wndUnused
  packetTs := pos.ts
  ackTs := now
  sn := pos.sn
  una := c.rcv.rcvNxt

theorem acks_flushAcks :
    (c.flushAcks now wire).acks = acksOf wire.offered ++ c.rcv.ackItem.map (c.ackHeader now) := by
  have hfold : ∀ (items : List KcpAck) (h : HeaderBuffer),
      (items.foldl (HeaderBuffer.putAck c.mtu (u16OfInt c.rcv.wndUnused) c.rcv.rcvNxt now) h).acks
        = h.acks ++ items.map (c.ackHeader now) := by
    intro items
    induction items with
    | nil => simp
    | cons pos rest ih =>
      intro h
      rw [List.foldl_cons, ih, HeaderBuffer.acks_putAck]
      simp [ackHeader]
  have hstart : HeaderBuffer.acks { wire } = acksOf wire.offered := by simp [HeaderBuffer.acks]
  rw [flushAcks, hfold, hstart]

theorem acks_flushProbes : (c.flushProbes now h).acks = h.acks := by
  unfold flushProbes
  dsimp only
  split
  · rw [HeaderBuffer.acks_putControl]
    split
    · rw [HeaderBuffer.acks_putControl]
    · rfl
  · split
    · rw [HeaderBuffer.acks_putControl]
    · rfl

theorem acks_flushPings : (flushPings xxh64 c now h).2.acks = h.acks := by
  unfold flushPings
  dsimp only
  split
  · rw [HeaderBuffer.acks_putControl]
    split
    · exact HeaderBuffer.acks_putControl ..
    · rfl
  · split
    · exact HeaderBuffer.acks_putControl ..
    · rfl

theorem acks_flushHeaders (xxh64 : Nat → Nat) (wire : Wire)
    (halive : (c.ping.onPingTimeout now).2 = false) :
    (flushHeaders xxh64 c now wire).2.2 = false
      ∧ acksOf (flushHeaders xxh64 c now wire).1.wire.offered
          = acksOf wire.offered ++ c.rcv.ackItem.map (c.ackHeader now) := by
  have hping : (c.windowProbe now).ping = c.ping := by
    unfold windowProbe
    split
    · split
      · rfl
      · split <;> rfl
    · rfl
  unfold flushHeaders
  dsimp only
  rw [hping, if_neg (by simp [halive])]
  refine ⟨rfl, ?_⟩
  rw [HeaderBuffer.acks_finish, acks_flushPings, acks_flushProbes, acks_flushAcks]

-- ==== the segments

/-- A packing loop that has no ACK in its caches. -/
structure NoAcks (sent : List KcpAckHeader) (p : Packing) : Prop where
  offered : acksOf p.wire.offered = sent
  full : acksOf p.full = []
  cache : acksIn p.cache = []

variable {sent : List KcpAckHeader} {p : Packing}

theorem NoAcks.send {datagrams : List Datagram} (hp : NoAcks sent p)
    (hdatagrams : acksOf datagrams = []) : NoAcks sent (p.send datagrams) where
  offered := by simp [Packing.send, hp.offered, hdatagrams]
  full := hp.full
  cache := hp.cache

theorem NoAcks.put (hp : NoAcks sent p) (mtu : Nat) (pos : KcpSegment) :
    NoAcks sent (p.put mtu pos) := by
  have hcache : acksIn [KcpPacket.push pos.encode] = [] := rfl
  have hnext : NoAcks sent { p with full := p.full ++ [p.cache], cache := [] } :=
    ⟨hp.offered, by simp [hp.full, hp.cache], rfl⟩
  unfold Packing.put
  dsimp only
  split
  · exact ⟨hp.offered, hp.full, by simp [hp.cache]⟩
  · split
    · have hsent := hnext.send hnext.full
      split
      · exact ⟨hsent.offered, rfl, rfl⟩
      · split
        · exact ⟨hsent.offered, rfl, hcache⟩
        · exact ⟨hsent.offered, rfl, rfl⟩
    · split
      · exact hnext
      · split
        · exact ⟨hnext.offered, hnext.full, hcache⟩
        · exact ⟨hnext.offered, hnext.full, rfl⟩

theorem NoAcks.transmit (hp : NoAcks sent p) (segments : List KcpSegment) :
    NoAcks sent (c.transmit now p segments).1 := by
  refine (transmit_inv (Q := fun _ => True) ?_ ?_ ?_ ?_ ?_ hp fun _ _ => trivial).1
  · exact fun p d hp => ⟨hp.offered, hp.full, hp.cache⟩
  · exact fun p d hp => ⟨hp.offered, hp.full, hp.cache⟩
  · exact fun p exit hp => ⟨hp.offered, hp.full, hp.cache⟩
  · exact fun p pos hp _ => hp.put c.mtu pos
  · exact fun credit pos _ => trivial

theorem NoAcks.sendRest (hp : NoAcks sent p) : NoAcks sent (sendRest p) := by
  unfold KcpConnection.sendRest
  split
  · exact hp.send (by simp [hp.full, hp.cache])
  · exact hp

theorem acks_flushSegments :
    acksOf (c.flushSegments now wire).wire.offered = acksOf wire.offered := by
  have hstart : ∀ credit, NoAcks (acksOf wire.offered) { credit, wire } :=
    fun _ => ⟨rfl, rfl, rfl⟩
  unfold flushSegments
  dsimp only
  split
  · exact ((hstart _).transmit _).sendRest.offered
  · exact ((hstart _).transmit _).sendRest.offered
  · exact ((hstart _).transmit _).sendRest.offered

theorem acks_flush (hflush : c.Flushes now) (outcomes : List SendOutcome) :
    acksOf (c.flush xxh64 now outcomes).wire.offered = c.rcv.ackItem.map (c.ackHeader now) := by
  obtain ⟨hstate, hdue, halive⟩ := hflush
  obtain ⟨hgoes, hacks⟩ := acks_flushHeaders xxh64 { outcomes } halive
  have hnot : ¬ (c.state ≠ .CONNECTED || decide (now / 1000 < c.tsFlush)) = true := by
    simp [hstate, hdue]
  unfold flush
  rw [if_neg hnot]
  dsimp only
  rw [if_neg (by simp [hgoes]), acks_flushSegments, hacks]
  simp

end KcpConnection

-- ==== the obligation

namespace KcpReceiver

variable {r : KcpReceiver} {sn : Nat}

/-- A flush now would acknowledge `sn`. -/
def Owes (r : KcpReceiver) (sn : Nat) : Prop :=
  ∃ pos ∈ r.ackItem, pos.sn = sn ∨ sn < r.rcvNxt

/-- A PUSH with the number `sn` will be acknowledged: the segment is new, or
an item for it waits still, or it was delivered and some other item
waits. -/
def WillAck (r : KcpReceiver) (sn : Nat) : Prop :=
  (r.rcvNxt ≤ sn ∧ sn ∉ r.rcvBuf) ∨ (∃ pos ∈ r.ackItem, pos.sn = sn)
    ∨ (sn < r.rcvNxt ∧ r.ackItem ≠ [])

instance (r : KcpReceiver) (sn : Nat) : Decidable (r.WillAck sn) :=
  inferInstanceAs (Decidable (_ ∨ _ ∨ _))

theorem owes_iff_of_known (h : sn < r.rcvNxt ∨ sn ∈ r.rcvBuf) : r.Owes sn ↔ r.WillAck sn := by
  constructor
  · rintro ⟨pos, hpos, heq | hlt⟩
    · exact .inr (.inl ⟨pos, hpos, heq⟩)
    · exact .inr (.inr ⟨hlt, List.ne_nil_of_mem hpos⟩)
  · rintro (⟨hle, hnew⟩ | ⟨pos, hpos, heq⟩ | ⟨hlt, hsome⟩)
    · cases h with
      | inl hlt => omega
      | inr hmem => exact absurd hmem hnew
    · exact ⟨pos, hpos, .inl heq⟩
    · obtain ⟨pos, hpos⟩ := List.exists_mem_of_ne_nil _ hsome
      exact ⟨pos, hpos, .inr hlt⟩

theorem owes_onPush (h : r.Fits) {p : KcpPush} (now : Nat) (hwindow : p.sn < r.windowEnd) :
    (r.onPush p now).1.Owes p.sn ↔ r.WillAck p.sn := by
  obtain ⟨hle, -⟩ | ⟨-, hold, hpush⟩ | ⟨-, hnew, hmem, hpush⟩ | ⟨-, hnew, hfresh, hpush⟩ :=
    onPush_cases r p now none
  · omega
  · rw [hpush]
    exact owes_iff_of_known (.inl (hold rfl))
  · have hsame : r.segmentRecvGet.segmentRecvPut.unread = r.unread :=
      (unread_segmentRecvPut _).trans (unread_segmentRecvGet r)
    simp only [unread, Prod.mk.injEq] at hsame
    rw [hpush, ← owes_iff_of_known (.inr (hmem rfl))]
    simp only [Owes, hsame.1, hsame.2.2.2.2.2]
  · obtain ⟨-, -, hitem⟩ := accept_spec h now hwindow
    have hkept := window_handOver (r.accept p now)
    simp only [window, Prod.mk.injEq] at hkept
    rw [hpush]
    refine ⟨fun _ => .inl ⟨hnew, hfresh⟩, fun _ => ⟨⟨p.sn, p.psn, now⟩, ?_, .inl rfl⟩⟩
    rw [hkept.2.2, hitem]
    simp

theorem keeps_onPush (h : r.Fits) (p : KcpPush) (now : Nat) (malloc : Malloc) :
    (r.onPush p now malloc).1.Fits ∧ r.rcvNxt ≤ (r.onPush p now malloc).1.rcvNxt
      ∧ ∀ pos ∈ r.ackItem, pos ∈ (r.onPush p now malloc).1.ackItem := by
  obtain ⟨-, hpush⟩ | ⟨-, -, hpush⟩ | ⟨-, -, -, hpush⟩ | ⟨hwindow, -, -, hpush⟩ :=
    onPush_cases r p now malloc
  · rw [hpush]
    exact ⟨h, le_refl _, fun pos hpos => hpos⟩
  · rw [hpush]
    exact ⟨h, le_refl _, fun pos hpos => hpos⟩
  · have hsame : r.segmentRecvGet.segmentRecvPut.unread = r.unread :=
      (unread_segmentRecvPut _).trans (unread_segmentRecvGet r)
    have hfits := h.of_unread hsame
    simp only [unread, Prod.mk.injEq] at hsame
    rw [hpush]
    exact ⟨hfits, hsame.1.symm.le, fun pos hpos => by rw [hsame.2.2.2.2.2]; exact hpos⟩
  · obtain ⟨hfits, hle, hitem⟩ := accept_spec h now hwindow
    have hkept := window_handOver (r.accept p now)
    simp only [window, Prod.mk.injEq] at hkept
    rw [hpush]
    refine ⟨hfits.handOver, by rw [hkept.1]; exact hle, fun pos hpos => ?_⟩
    rw [hkept.2.2, hitem]
    exact List.mem_append_left _ hpos

end KcpReceiver

-- ==== over runs

namespace KcpConnection

variable {c : KcpConnection} {xxh64 : Nat → Nat} {sn : Nat}

/-- The ACKs that wait are not sent. No flush is let in, not even one that is
not due and would send nothing. -/
def KeepsItems (_ : KcpConnection) : EndpointOp → Prop
  | .flush _ _ => False
  | _ => True

theorem fits_step (h : c.rcv.Fits) (op : EndpointOp) : (c.step xxh64 op).rcv.Fits := by
  obtain hsame | ⟨now, outcomes, -, hrcv⟩ | ⟨p, now, malloc, -, -, hrcv⟩ | ⟨value, -, hrcv⟩ :=
    step_rcv (c := c) xxh64 op
  · exact h.of_unread hsame
  · rw [hrcv]
    exact ⟨h.nxt, h.buf⟩
  · rw [hrcv]
    exact (KcpReceiver.keeps_onPush h p now malloc).1
  · rw [hrcv]
    exact ⟨h.nxt, h.buf⟩

theorem owes_step (h : c.rcv.Fits ∧ c.rcv.Owes sn) {op : EndpointOp} (hop : c.KeepsItems op) :
    (c.step xxh64 op).rcv.Fits ∧ (c.step xxh64 op).rcv.Owes sn := by
  obtain ⟨hfits, pos, hpos, hsn⟩ := h
  refine ⟨fits_step hfits op, pos, ?_⟩
  obtain hsame | ⟨now, outcomes, rfl, -⟩ | ⟨p, now, malloc, -, -, hrcv⟩ | ⟨value, -, hrcv⟩ :=
    step_rcv (c := c) xxh64 op
  · simp only [KcpReceiver.unread, Prod.mk.injEq] at hsame
    rw [hsame.1, hsame.2.2.2.2.2]
    exact ⟨hpos, hsn⟩
  · exact hop.elim
  · obtain ⟨-, hle, hall⟩ := KcpReceiver.keeps_onPush hfits p now malloc
    rw [hrcv]
    exact ⟨hall pos hpos, hsn.imp_right fun hlt => by omega⟩
  · rw [hrcv]
    exact ⟨hpos, hsn⟩

/-- The flush at `now` sends an ACK that names `sn` or lies beyond it. -/
def Acknowledges (xxh64 : Nat → Nat) (c : KcpConnection) (now : Nat)
    (outcomes : List SendOutcome) (sn : Nat) : Prop :=
  ∃ ack ∈ acksOf (c.flush xxh64 now outcomes).wire.offered, ack.sn = sn ∨ sn < ack.una

instance (xxh64 : Nat → Nat) (c : KcpConnection) (now : Nat) (outcomes : List SendOutcome)
    (sn : Nat) : Decidable (c.Acknowledges xxh64 now outcomes sn) :=
  inferInstanceAs (Decidable (∃ ack ∈ _, _))

theorem acknowledges_iff {now : Nat} (hflush : c.Flushes now) (outcomes : List SendOutcome) :
    c.Acknowledges xxh64 now outcomes sn ↔ c.rcv.Owes sn := by
  unfold Acknowledges
  rw [acks_flush hflush]
  constructor
  · rintro ⟨ack, hack, hcovers⟩
    obtain ⟨pos, hpos, rfl⟩ := List.mem_map.mp hack
    exact ⟨pos, hpos, hcovers⟩
  · rintro ⟨pos, hpos, hcovers⟩
    exact ⟨c.ackHeader now pos, List.mem_map_of_mem hpos, hcovers⟩

theorem fits_connected (mtu : Nat) (fastlimit : Int) (start : Nat) :
    (connected mtu fastlimit start).rcv.Fits where
  nxt := show 0 < 2 ^ 32 by omega
  buf := fun _ hn => absurd hn List.not_mem_nil

/-- In every state a run leads to, and for every PUSH of the window: if the
segment will be acknowledged, the next flush that takes place does so,
whatever happens before it; and a flush right after the PUSH acknowledges
it in no other case. -/
theorem reacknowledges_iff (xxh64 : Nat → Nat) (mtu : Nat) (fastlimit : Int) (start : Nat)
    (ops : List EndpointOp) (c : KcpConnection)
    (hreached : run (step xxh64) (connected mtu fastlimit start) ops = c)
    (hconnected : c.state = .CONNECTED) (p : KcpPush) (hwindow : p.sn < c.rcv.windowEnd) (t : Nat) :
    (c.rcv.WillAck p.sn →
        ∀ between, Meets (step xxh64) KeepsItems (c.step xxh64 (.packet (.push p) t)) between →
        ∀ now outcomes,
          (run (step xxh64) (c.step xxh64 (.packet (.push p) t)) between).Flushes now →
          (run (step xxh64) (c.step xxh64 (.packet (.push p) t)) between).Acknowledges
            xxh64 now outcomes p.sn)
      ∧ ∀ now outcomes, (c.step xxh64 (.packet (.push p) t)).Flushes now →
          ((c.step xxh64 (.packet (.push p) t)).Acknowledges xxh64 now outcomes p.sn
            ↔ c.rcv.WillAck p.sn) := by
  have hfits : c.rcv.Fits := by
    rw [← hreached]
    exact run_inv_of_step (P := fun c : KcpConnection => c.rcv.Fits)
      (fun c op h => fits_step h op) ops
      (fits_connected mtu fastlimit start)
  have hpush : (c.step xxh64 (.packet (.push p) t)).rcv = (c.rcv.onPush p t).1 := by
    simp only [step, if_pos hconnected, rcv_input]
  have howes : (c.step xxh64 (.packet (.push p) t)).rcv.Owes p.sn ↔ c.rcv.WillAck p.sn := by
    rw [hpush]
    exact KcpReceiver.owes_onPush hfits t hwindow
  constructor
  · intro hwill between hbetween now outcomes hflush
    refine (acknowledges_iff hflush outcomes).mpr ?_
    exact (run_inv (P := fun c : KcpConnection => c.rcv.Fits ∧ c.rcv.Owes p.sn)
      (fun c op h hop => owes_step h hop)
      ⟨fits_step hfits _, howes.mpr hwill⟩ hbetween).2
  · intro now outcomes hflush
    rw [acknowledges_iff hflush outcomes, howes]

-- ==== the lost ACK

/-- A message of one byte in one segment. -/
def onlySegment : KcpPush where
  frg := 0
  wnd := 1
  ts := 0
  sn := 0
  psn := 0
  una := 0
  data := [7]

/-- It arrives and is acknowledged. -/
def acknowledgedOnce : List EndpointOp :=
  [.packet (.push onlySegment) 1000000, .flush 1100000 []]

/-- A segment on its way for the first time is acknowledged. -/
theorem reacknowledges_iff_new :
    ((connected 1472 5 1000000).step (fun _ => 0)
      (.packet (.push onlySegment) 1000000)).Acknowledges
      (fun _ => 0) 1100000 [] 0 :=
  ((reacknowledges_iff (fun _ => 0) 1472 5 1000000 [] _ rfl rfl onlySegment (by decide) 1000000).2
    1100000 [] (by decide)).mpr (by decide)

/-- The ACK is lost and the segment comes again: the flush after it sends
no ACK at all. -/
theorem not_reacknowledged_lostAck :
    ¬ ∀ (xxh64 : Nat → Nat) (mtu : Nat) (fastlimit : Int) (start : Nat) (ops : List EndpointOp)
        (p : KcpPush) (t now : Nat) (outcomes : List SendOutcome),
      (run (step xxh64) (connected mtu fastlimit start) ops).state = .CONNECTED →
      p.sn < (run (step xxh64) (connected mtu fastlimit start) ops).rcv.windowEnd →
      (run (step xxh64) (connected mtu fastlimit start)
        (ops ++ [.packet (.push p) t])).Flushes now →
      (run (step xxh64) (connected mtu fastlimit start)
        (ops ++ [.packet (.push p) t])).Acknowledges xxh64 now outcomes p.sn := by
  intro hall
  have hacks := hall (fun _ => 0) 1472 5 1000000 acknowledgedOnce onlySegment 1300000 1400000 []
    (by decide) (by decide) (by decide)
  revert hacks
  decide

end KcpConnection

end Eular.Kcp
