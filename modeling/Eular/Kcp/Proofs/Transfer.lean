/-
Two ends of a connection and the network between them, which loses, copies
and reorders (`Transfer`): what is read is what was sent.

A message the sender accepts is cut into segments; they are numbered in the
order they were made (`Sends`), and every PUSH a flush offers the socket
carries one of them (`Carries`). Other packets do not matter: an ACK no
receiver sent may make the sender forget a segment, and nothing else.
-/
import Eular.Kcp.Proofs.Acks
import Eular.Kcp.Proofs.Delivery
import Eular.Kcp.Proofs.Waiting

namespace Eular.Kcp

open Lib
open KcpReceiver (segmentOf)
open KcpSender (AckSample ackSn ackUna length_fragments)
open KcpConnection (Packing fillWindow flushHeaders flushPings)

-- ==== the network

/-- The PUSHes of some datagrams. -/
def pushesOf (ds : List Datagram) : List KcpPush :=
  ds.flatten.filterMap fun
    | .push p => some p
    | _ => none

/-- A connection seen in one direction: its ends, the PUSHes the sender
offered its socket, the messages it accepted, and what was read. -/
structure Transfer where
  sender : KcpConnection
  receiver : KcpConnection
  wire : List KcpPush := []
  accepted : List (List UInt8) := []
  read : List UInt8 := []

inductive TransferOp where
  | sender (op : EndpointOp)
  | receiver (op : EndpointOp)

/-- The network delivers what is on the wire, whenever and as often as it
likes; packets that are no PUSH may be anything. -/
def Transfer.mayHappen (t : Transfer) : EndpointOp → Bool
  | .packet (.push p) .. => p ∈ t.wire
  | _ => true

def Transfer.step (xxh64 : Nat → Nat) (t : Transfer) : TransferOp → Transfer
  | .sender op =>
    { t with
      sender := t.sender.step xxh64 op
      wire := match op with
        | .flush now outcomes =>
          t.wire ++ pushesOf (t.sender.flush xxh64 now outcomes).wire.offered
        | _ => t.wire
      accepted := match op with
        | .send data malloc =>
          match t.sender.send data malloc with
          | .ok _ => t.accepted ++ [data]
          | .error _ => t.accepted
        | _ => t.accepted }
  | .receiver op =>
    if t.mayHappen op then
      { t with
        receiver := t.receiver.step xxh64 op
        read := match op with
          | .recv size =>
            match t.receiver.recv size with
            | .ok q => t.read ++ q.2.copied
            | .error _ => t.read
          | _ => t.read }
    else t

/-- What the sender makes of a message. -/
def segmentsOf (mss psn : Nat) (data : List UInt8) : List KcpSegment :=
  fragments mss psn (fragmentation mss data.length) (fragmentation mss data.length) 0 data

def messagesOf (mss : Nat) (accepted : List (List UInt8)) : List (List KcpSegment) :=
  accepted.mapIdx fun psn data => segmentsOf mss psn data

variable {mss psn : Nat} {data : List UInt8} {accepted sent : List (List UInt8)}
  {pos : KcpSegment}

-- ==== the messages

theorem getElem?_fragments {count n i j : Nat}
    (h : (fragments mss psn count n i data)[j]? = some pos) :
    pos.frg = i + j ∧ pos.psn = psn ∧ (pos.frg = 0 → pos.wnd = count) := by
  induction n generalizing i j data with
  | zero => cases h
  | succ n ih =>
    rw [fragments] at h
    cases j with
    | zero => cases h; exact ⟨rfl, rfl, fun hzero => if_pos hzero⟩
    | succ j =>
      obtain ⟨hfrg, hrest⟩ := ih h
      exact ⟨by omega, hrest⟩

theorem flatten_fragments (count n i : Nat) (data : List UInt8) :
    ((fragments mss psn count n i data).map (·.data)).flatten = data.take (n * mss) := by
  induction n generalizing i data with
  | zero => simp [fragments]
  | succ n ih =>
    rw [fragments, List.map_cons, List.flatten_cons, ih, Nat.succ_mul, Nat.add_comm,
      List.take_add]

theorem le_fragmentation_mul (hmss : 0 < mss) (size : Nat) :
    size ≤ fragmentation mss size * mss := by
  unfold fragmentation
  have hdiv := Nat.div_add_mod (size + mss - 1) mss
  have hmod := Nat.mod_lt (size + mss - 1) hmss
  rw [Nat.mul_comm]
  omega

/-- The segments of a message are its bytes. -/
theorem flatten_segmentsOf (hmss : 0 < mss) :
    ((segmentsOf mss psn data).map (·.data)).flatten = data := by
  rw [segmentsOf, flatten_fragments, List.take_of_length_le (le_fragmentation_mul hmss _)]

/-- What `kcp_send` asks of a message. -/
def Sendable (mss : Nat) (data : List UInt8) : Prop :=
  data ≠ [] ∧ fragmentation mss data.length ≤ KCP_PACKET_SIZE

theorem countable_messagesOf (hmss : 0 < mss) (hall : ∀ data ∈ sent, Sendable mss data)
    (hlast : (messagesOf mss sent).flatten.length < 2 ^ 32) : Countable (messagesOf mss sent) := by
  have hcases : ∀ m ∈ messagesOf mss sent, ∃ psn, ∃ data ∈ sent, segmentsOf mss psn data = m := by
    intro m hm
    obtain ⟨psn, hpsn, rfl⟩ := List.mem_mapIdx.mp hm
    exact ⟨psn, _, List.getElem_mem hpsn, rfl⟩
  refine ⟨fun m hm hnil => ?_, fun m hm => ?_, hlast⟩
  · obtain ⟨psn, data, hdata, rfl⟩ := hcases m hm
    have hflat : ((segmentsOf mss psn data).map (·.data)).flatten = data :=
      flatten_segmentsOf hmss
    rw [hnil] at hflat
    exact (hall data hdata).1 hflat.symm
  · obtain ⟨psn, data, hdata, rfl⟩ := hcases m hm
    rw [segmentsOf, length_fragments]
    exact (hall data hdata).2.trans_lt (by decide)

/-- A segment that waits has its place among the messages. -/
theorem belongs_segmentOf (hall : ∀ data ∈ sent, Sendable mss data) {place : KcpSegment} {n : Nat}
    (hplace : (messagesOf mss sent).flatten[n]? = some place)
    (hpos : pos.sn = n ∧ pos.frg = place.frg ∧ pos.psn = place.psn ∧ pos.data = place.data
      ∧ (pos.frg = 0 → pos.wnd = place.wnd)) :
    Belongs (messagesOf mss sent) (segmentOf pos.encode) := by
  obtain ⟨hsn, hfrg, hpsn, hdata, hwnd⟩ := hpos
  obtain ⟨k, m, i, hk, hi, hn⟩ := exists_startOf_add hplace
  have hget := hk
  rw [messagesOf, List.getElem?_mapIdx] at hget
  obtain ⟨data, hmem, rfl⟩ := Option.map_eq_some_iff.mp hget
  obtain ⟨hplaceFrg, hplacePsn, hplaceWnd⟩ := getElem?_fragments hi
  have hlen : (segmentsOf mss k data).length = fragmentation mss data.length :=
    length_fragments ..
  have hshort : fragmentation mss data.length ≤ 64 :=
    (hall data (List.mem_of_getElem? hmem)).2
  have hlt := (List.getElem?_eq_some_iff.mp hi).1
  have hfrg' : u8 pos.frg = i := by
    rw [hfrg, hplaceFrg, u8]
    omega
  refine ⟨segmentsOf mss k data, ?_, ?_, ?_, fun hzero => ?_⟩
  · show (messagesOf mss sent)[pos.psn]? = _
    rw [hpsn, hplacePsn, hk]
  · show (segmentsOf mss k data)[u8 pos.frg]?.map (·.data) = some pos.data
    rw [hfrg', hi, hdata, Option.map_some]
  · show pos.sn = startOf _ pos.psn + u8 pos.frg
    rw [hfrg', hpsn, hplacePsn, hsn, hn]
  · have hi0 : i = 0 := hfrg'.symm.trans hzero
    have hfirst : pos.frg = 0 := by omega
    have hcount := u16_of_lt (n := fragmentation mss data.length) (by omega)
    show u16 (u16 pos.wnd) = _
    rw [hwnd hfirst, hplaceWnd (by omega), hlen, hcount, hcount]

theorem belongs_core {ms : List (List KcpSegment)} {pos pos' : KcpSegment}
    (h : pos.core = pos'.core) : Belongs ms (segmentOf pos.encode)
      ↔ Belongs ms (segmentOf pos'.encode) := by
  simp only [KcpSegment.core, Prod.mk.injEq] at h
  simp only [Belongs, KcpReceiver.segmentOf, KcpSegment.encode, h]

-- ==== the sender

/-- What waits are the messages accepted, from the number `snd_nxt` on, and
what is in `snd_buf` belongs to the messages `sent`. -/
structure Sends (mss : Nat) (sent accepted : List (List UInt8)) (s : KcpSender) : Prop where
  psn : s.psnNxt = accepted.length
  nxt : s.sndNxt ≤ (messagesOf mss accepted).flatten.length
  queue : s.sndQueue = (messagesOf mss accepted).flatten.drop s.sndNxt
  buf : ∀ pos ∈ s.sndBuf, Belongs (messagesOf mss sent) (segmentOf pos.encode)

namespace Sends

variable {s s' : KcpSender}

/-- The numbers and the queue decide, and the segments of `snd_buf` up to their clocks. -/
theorem congr (h : Sends mss sent accepted s)
    (hplan : (s'.psnNxt, s'.sndNxt, s'.sndQueue) = (s.psnNxt, s.sndNxt, s.sndQueue))
    (hbuf : s'.sndBuf.map KcpSegment.core ⊆ s.sndBuf.map KcpSegment.core) :
    Sends mss sent accepted s' := by
  simp only [Prod.mk.injEq] at hplan
  obtain ⟨hpsn, hnxt, hqueue⟩ := hplan
  refine ⟨by rw [hpsn, h.psn], by rw [hnxt]; exact h.nxt, by rw [hqueue, hnxt, h.queue],
    fun pos hpos => ?_⟩
  obtain ⟨pos', hpos', heq⟩ := List.mem_map.mp (hbuf (List.mem_map_of_mem hpos))
  exact (belongs_core heq).mp (h.buf pos' hpos')

theorem messagesOf_concat (accepted : List (List UInt8)) (data : List UInt8) :
    (messagesOf mss (accepted ++ [data])).flatten
      = (messagesOf mss accepted).flatten ++ segmentsOf mss accepted.length data := by
  simp [messagesOf, List.mapIdx_append]

/-- A message that is accepted comes last, cut into its segments. -/
theorem send (h : Sends mss sent accepted s) (hlast : accepted.length + 1 < 2 ^ 32)
    (unused : Nat) (counter que : Int) :
    Sends mss sent (accepted ++ [data]) { s.stocked unused counter with
      sndQueue := s.sndQueue ++ segmentsOf mss s.psnNxt data
      nsndQue := que
      psnNxt := u32 (s.psnNxt + 1) } := by
  have hle := h.nxt
  refine ⟨?_, ?_, ?_, h.buf⟩
  · show u32 (s.psnNxt + 1) = _
    rw [h.psn, List.length_append, List.length_singleton, u32_of_lt hlast]
  · show s.sndNxt ≤ _
    rw [messagesOf_concat, List.length_append]
    omega
  · show s.sndQueue ++ segmentsOf mss s.psnNxt data = _
    rw [h.queue, h.psn, messagesOf_concat]
    exact (List.drop_append_of_le_length hle).symm

theorem ackSn_kept (b : KcpBbr) (interval : Int) (ack : KcpAckHeader) (now : Nat)
    (q : KcpSender × AckSample) (l : List KcpSegment) :
    let p := ackSn b interval ack now q l
    (p.1.1.psnNxt, p.1.1.sndNxt, p.1.1.sndQueue) = (q.1.psnNxt, q.1.sndNxt, q.1.sndQueue)
      ∧ (p.2.map KcpSegment.core).Sublist (l.map KcpSegment.core) := by
  induction l with
  | nil => exact ⟨rfl, List.Sublist.refl _⟩
  | cons pos rest ih =>
    unfold ackSn
    split
    · exact ⟨ih.1, ih.2.cons_cons _⟩
    · split
      · refine ⟨?_, (List.Sublist.refl _).cons _⟩
        dsimp only [KcpSender.acknowledge]
        split
        · unfold KcpSender.updateRto
          dsimp only
          split <;> rfl
        · rfl
      · exact ⟨rfl, List.Sublist.refl _⟩

theorem ackUna_kept (b : KcpBbr) (una now : Nat) (q : KcpSender × AckSample)
    (l : List KcpSegment) :
    let p := ackUna b una now q l
    (p.1.1.psnNxt, p.1.1.sndNxt, p.1.1.sndQueue) = (q.1.psnNxt, q.1.sndNxt, q.1.sndQueue)
      ∧ (p.2.map KcpSegment.core).Sublist (l.map KcpSegment.core) := by
  induction l generalizing q with
  | nil => exact ⟨rfl, List.Sublist.refl _⟩
  | cons pos rest ih =>
    unfold ackUna
    split
    · obtain ⟨hplan, hsub⟩ := ih (KcpSender.acknowledge b now q pos)
      exact ⟨hplan, hsub.cons _⟩
    · exact ⟨rfl, List.Sublist.refl _⟩

/-- An ACK takes segments out and adds none. -/
theorem onAck (h : Sends mss sent accepted s) (b : KcpBbr) (n : Nat) (interval : Int)
    (ack : KcpAckHeader) (now : Nat) :
    Sends mss sent accepted (s.onAck b n interval ack now).1 := by
  rw [KcpSender.onAck_eq]
  split
  · exact h
  · have hsn := ackSn_kept b interval ack now (s, {}) s.sndBuf
    have huna := ackUna_kept b ack.una now (ackSn b interval ack now (s, {}) s.sndBuf).1
      (ackSn b interval ack now (s, {}) s.sndBuf).2
    exact h.congr (huna.1.trans hsn.1) (huna.2.trans hsn.2).subset

/-- A flush numbers the segments in the order of the queue. -/
theorem fillWindow {c : KcpConnection} {now : Nat} {queue : List KcpSegment}
    (hsent : accepted <+: sent) (hall : ∀ data ∈ sent, Sendable mss data)
    (hlast : (messagesOf mss sent).flatten.length < 2 ^ 32)
    (h : Sends mss sent accepted { c.snd with sndQueue := queue }) :
    Sends mss sent accepted (fillWindow now c queue).snd := by
  induction queue generalizing c with
  | nil => exact h
  | cons segment rest ih =>
    unfold KcpConnection.fillWindow
    split
    case isFalse => exact h
    case isTrue =>
      obtain ⟨tail, rfl⟩ := hsent
      have hqueue : segment :: rest = (messagesOf mss accepted).flatten.drop c.snd.sndNxt :=
        h.queue
      have hplace : (messagesOf mss accepted).flatten[c.snd.sndNxt]? = some segment := by
        rw [← List.head?_drop, ← hqueue, List.head?_cons]
      have hlt := (List.getElem?_eq_some_iff.mp hplace).1
      have happend : ∃ later, (messagesOf mss (accepted ++ tail)).flatten
          = (messagesOf mss accepted).flatten ++ later := by
        simp [messagesOf, List.mapIdx_append]
      obtain ⟨later, hlater⟩ := happend
      have hnxt : u32 (c.snd.sndNxt + 1) = c.snd.sndNxt + 1 := by
        rw [hlater, List.length_append] at hlast
        exact u32_of_lt (by omega)
      refine ih ⟨h.psn, ?_, ?_, ?_⟩
      · show u32 (c.snd.sndNxt + 1) ≤ _
        omega
      · show rest = _
        rw [hnxt, List.drop_add_one_eq_tail_drop, ← hqueue, List.tail_cons]
      · show ∀ pos ∈ c.snd.sndBuf ++ [c.numberSegment now segment], _
        refine List.forall_mem_append.mpr ⟨h.buf, List.forall_mem_singleton.mpr ?_⟩
        have hthere : (messagesOf mss (accepted ++ tail)).flatten[c.snd.sndNxt]?
            = some segment := by
          rw [hlater, List.getElem?_append_left hlt, hplace]
        exact belongs_segmentOf hall hthere
          ⟨rfl, rfl, rfl, rfl, fun hzero => if_neg (Nat.not_lt_of_le (Nat.le_of_eq hzero))⟩

end Sends

-- ==== the datagrams

/-- Every PUSH in the datagrams belongs to the messages. -/
def Carries (ms : List (List KcpSegment)) (ds : List Datagram) : Prop :=
  ∀ p, KcpPacket.push p ∈ ds.flatten → Belongs ms (segmentOf p)

section Datagrams

variable {ms : List (List KcpSegment)} {ds es : List Datagram} {h : HeaderBuffer}
  {c : KcpConnection} {p : Packing} {now : Nat}

@[simp] theorem carries_nil : Carries ms [] := fun _ hp => nomatch hp

@[simp] theorem carries_append : Carries ms (ds ++ es) ↔ Carries ms ds ∧ Carries ms es := by
  simp only [Carries, List.flatten_append, List.mem_append, or_imp, forall_and]

@[simp] theorem carries_empty : Carries ms [[]] := fun _ hp => nomatch hp

@[simp] theorem carries_concat {d e : Datagram} :
    Carries ms [d ++ e] ↔ Carries ms [d] ∧ Carries ms [e] := by
  simp [Carries, or_imp, forall_and]

theorem carries_plain {packet : KcpPacket} (hplain : ∀ p, packet ≠ .push p) :
    Carries ms [[packet]] := fun p hp => by
  simp only [List.flatten_cons, List.flatten_nil, List.append_nil, List.mem_singleton] at hp
  exact absurd hp.symm (hplain p)

/-- What a header buffer offered and holds. -/
def HeaderBuffer.Carries (ms : List (List KcpSegment)) (h : HeaderBuffer) : Prop :=
  Kcp.Carries ms h.wire.offered ∧ Kcp.Carries ms [h.buffer]

namespace HeaderBuffer.Carries

theorem sendBuffer (hh : h.Carries ms) : h.sendBuffer.Carries ms := by
  refine ⟨?_, carries_empty⟩
  show Kcp.Carries ms (h.wire.send [h.buffer]).1.offered
  rw [Wire.offered_send]
  exact carries_append.mpr hh

theorem makeRoom (hh : h.Carries ms) (mtu : Nat) : (h.makeRoom mtu).Carries ms := by
  unfold HeaderBuffer.makeRoom
  split
  · exact hh.sendBuffer
  · exact hh

theorem putControl (hh : h.Carries ms) (mtu cmd wnd packetTs ts sn : Nat) :
    (h.putControl mtu cmd wnd packetTs ts sn).Carries ms :=
  ⟨(hh.makeRoom mtu).1, carries_concat.mpr
    ⟨(hh.makeRoom mtu).2, carries_plain fun _ heq => nomatch heq⟩⟩

theorem putAck (hh : h.Carries ms) (mtu wnd una now : Nat) (pos : KcpAck) :
    (h.putAck mtu wnd una now pos).Carries ms := by
  unfold HeaderBuffer.putAck
  refine makeRoom (?_ : HeaderBuffer.Carries ms _) mtu
  exact ⟨hh.1, carries_concat.mpr ⟨hh.2, carries_plain fun _ heq => nomatch heq⟩⟩

theorem finish (hh : h.Carries ms) : h.finish.Carries ms := by
  unfold HeaderBuffer.finish
  split
  · exact hh
  · exact hh.sendBuffer

theorem foldl_putAck (mtu wnd una now : Nat) (items : List KcpAck) (hh : h.Carries ms) :
    (items.foldl (HeaderBuffer.putAck mtu wnd una now) h).Carries ms := by
  induction items generalizing h with
  | nil => exact hh
  | cons item rest ih => exact ih (hh.putAck mtu wnd una now item)

end HeaderBuffer.Carries

/-- ACKs, probes and pings are no PUSHes. -/
theorem carries_flushHeaders (xxh64 : Nat → Nat) (wire : Wire) (hwire : Carries ms wire.offered) :
    Carries ms (flushHeaders xxh64 c now wire).1.wire.offered := by
  have hacks : (c.flushAcks now wire).Carries ms :=
    .foldl_putAck _ _ _ _ _ ⟨hwire, carries_empty⟩
  have hprobes : ∀ (c : KcpConnection) {h : HeaderBuffer}, h.Carries ms →
      (c.flushProbes now h).Carries ms := by
    intro c h hh
    unfold KcpConnection.flushProbes
    dsimp only
    repeat' split
    · exact (hh.putControl ..).putControl ..
    · exact hh.putControl ..
    · exact hh.putControl ..
    · exact hh
  have hpings : ∀ (c : KcpConnection) {h : HeaderBuffer}, h.Carries ms →
      (flushPings xxh64 c now h).2.Carries ms := by
    intro c h hh
    unfold flushPings
    dsimp only
    repeat' split
    · exact (hh.putControl ..).putControl ..
    · exact hh.putControl ..
    · exact hh.putControl ..
    · exact hh
  unfold flushHeaders
  dsimp only
  split
  · exact (hprobes _ hacks).1
  · exact (hpings _ (hprobes _ hacks)).finish.1

/-- What a packing loop offered and holds. -/
def Packed (ms : List (List KcpSegment)) (p : Packing) : Prop :=
  Kcp.Carries ms p.wire.offered ∧ Kcp.Carries ms p.full ∧ Kcp.Carries ms [p.cache]

theorem Packed.send (hp : Packed ms p) (hds : Kcp.Carries ms ds) :
    Packed ms (p.send ds) :=
  ⟨by simpa [Packing.send] using And.intro hp.1 hds, hp.2⟩

theorem Packed.put (hp : Packed ms p) (mtu : Nat)
    (hpos : Belongs ms (segmentOf pos.encode)) : Packed ms (p.put mtu pos) := by
  have hpacket : Kcp.Carries ms [[.push pos.encode]] := by
    intro q hq
    simp only [List.flatten_cons, List.flatten_nil, List.append_nil, List.mem_singleton] at hq
    cases hq
    exact hpos
  have hnext : Packed ms { p with full := p.full ++ [p.cache], cache := [] } :=
    ⟨hp.1, carries_append.mpr hp.2, carries_empty⟩
  unfold Packing.put
  dsimp only
  split
  · exact ⟨hp.1, hp.2.1, carries_concat.mpr ⟨hp.2.2, hpacket⟩⟩
  · split
    · have hsent := hnext.send hnext.2.1
      split
      · exact ⟨hsent.1, carries_nil, carries_empty⟩
      · split
        · exact ⟨hsent.1, carries_nil, hpacket⟩
        · exact ⟨hsent.1, carries_nil, carries_empty⟩
    · split
      · exact hnext
      · split
        · exact ⟨hnext.1, hnext.2.1, hpacket⟩
        · exact hnext

/-- Whatever a flush offers carries segments of the messages. -/
theorem carries_flush {xxh64 : Nat → Nat} {outcomes : List SendOutcome}
    (hall : ∀ c' : KcpConnection, c'.snd = c.snd →
      ∀ pos ∈ (fillWindow now c' c'.snd.sndQueue).snd.sndBuf,
        Belongs ms (segmentOf pos.encode)) :
    Carries ms (c.flush xxh64 now outcomes).wire.offered := by
  have hheaders : Carries ms (flushHeaders xxh64 c now { outcomes }).1.wire.offered :=
    carries_flushHeaders xxh64 _ carries_nil
  have hsnd := congrArg (·.1) (KcpConnection.sending_flushHeaders xxh64 c now { outcomes })
  unfold KcpConnection.flush
  split
  · exact carries_nil
  · dsimp only
    split
    · exact hheaders
    · generalize flushHeaders xxh64 c now { outcomes } = q at hheaders hsnd
      have hsent : ∀ bbr credit, Packed ms (KcpConnection.sendRest
          ({ fillWindow now q.2.1 q.2.1.snd.sndQueue with bbr }.transmit now
            { credit, wire := q.1.wire }
              (fillWindow now q.2.1 q.2.1.snd.sndQueue).snd.sndBuf).1) := by
        intro bbr credit
        have hput : Packed ms ({ fillWindow now q.2.1 q.2.1.snd.sndQueue with bbr }.transmit now
            { credit, wire := q.1.wire } (fillWindow now q.2.1 q.2.1.snd.sndQueue).snd.sndBuf).1 :=
          (KcpConnection.transmit_inv (P := Packed ms)
            (Q := fun pos => Belongs ms (segmentOf pos.encode))
            (fun _ _ hp => hp) (fun _ _ hp => hp) (fun _ _ hp => hp)
            (fun _ _ hp hpos => hp.put _ hpos)
            (fun credit pos hpos => (belongs_core (KcpConnection.core_choose credit pos)).mpr hpos)
            ⟨hheaders, carries_nil, carries_empty⟩ (hall q.2.1 hsnd)).1
        unfold KcpConnection.sendRest
        split
        · exact hput.send (carries_append.mpr hput.2)
        · exact hput
      unfold KcpConnection.flushSegments
      dsimp only
      split <;> exact (hsent _ _).1

end Datagrams

-- ==== the runs

theorem Sends.input {c : KcpConnection} (h : Sends mss sent accepted c.snd) (packet : KcpPacket)
    (now : Nat) (malloc : Malloc) : Sends mss sent accepted (c.input packet now malloc).1.snd := by
  have hset : ∀ wnd, Sends mss sent accepted (c.setRmtWnd wnd).snd :=
    fun _ => h.congr rfl (List.Subset.refl _)
  cases packet with
  | ack header =>
    show Sends _ _ _ ((c.setRmtWnd header.wnd).onAck header now).snd
    unfold KcpConnection.onAck
    split
    · exact hset _
    · exact (hset _).onAck _ _ _ _ _
  | push p =>
    show Sends _ _ _ ((if 0 < p.frg then c.setRmtWnd p.wnd else c).onPush p now malloc).1.snd
    rw [KcpConnection.snd_onPush]
    split
    · exact hset _
    · exact h
  | control cmd wnd packetTs ts sn =>
    unfold KcpConnection.input
    dsimp only
    repeat' split
    all_goals first | exact h | exact hset _

/-- What holds along a run that ends with the messages `sent` accepted. -/
structure Flows (mss : Nat) (sent : List (List UInt8)) (t : Transfer) : Prop where
  size : t.sender.mss = mss
  sends : Sends mss sent t.accepted t.sender.snd
  wire : ∀ p ∈ t.wire, Belongs (messagesOf mss sent) (segmentOf p)
  delivers : Delivers (messagesOf mss sent) t.receiver.rcv t.read

namespace Flows

variable {t : Transfer} {xxh64 : Nat → Nat}

theorem size_step (c : KcpConnection) (op : EndpointOp) : (c.step xxh64 op).mss = c.mss := by
  obtain hsame | ⟨-, -, -, -, -, hsame, -⟩ := KcpConnection.step_gauges xxh64 c op
  · exact congrArg (·.2.1) hsame
  · exact congrArg (·.2.1) hsame

/-- A step of the sender, by its kind. -/
theorem sender (hall : ∀ data ∈ sent, Sendable mss data)
    (hlast : (messagesOf mss sent).flatten.length < 2 ^ 32) (h : Flows mss sent t)
    (op : EndpointOp) (hsent : (t.step xxh64 (.sender op)).accepted <+: sent)
    (hshort : sent.length < 2 ^ 32) : Flows mss sent (t.step xxh64 (.sender op)) := by
  have hfill : t.accepted <+: sent → ∀ c : KcpConnection, c.snd = t.sender.snd →
      ∀ now, Sends mss sent t.accepted (KcpConnection.fillWindow now c c.snd.sndQueue).snd :=
    fun hsent c hc now => .fillWindow hsent hall hlast (hc ▸ h.sends)
  refine ⟨(size_step _ _).trans h.size, ?_, ?_, h.delivers⟩
  · cases op with
    | send data malloc =>
      obtain ⟨-, -, -, unused, counter, que, hsend⟩ | ⟨code, unused, counter, hsend⟩ :=
        send_cases t.sender data malloc
      · simp only [Transfer.step, KcpConnection.step, hsend] at hsent ⊢
        have hlen := hsent.length_le.trans_lt hshort
        rw [List.length_append, List.length_singleton] at hlen
        rw [h.size]
        exact h.sends.send hlen unused counter que
      · simp only [Transfer.step, KcpConnection.step, hsend]
        exact h.sends.congr rfl (List.Subset.refl _)
    | recv size =>
      show Sends _ _ _ (t.sender.step xxh64 (.recv size)).snd
      unfold KcpConnection.step KcpConnection.recv
      dsimp only
      cases t.sender.rcv.recv t.sender.state size <;> exact h.sends
    | packet packet now malloc =>
      show Sends _ _ _ (t.sender.step xxh64 (.packet packet now malloc)).snd
      unfold KcpConnection.step
      dsimp only
      split
      · exact h.sends.input packet now malloc
      · exact h.sends
    | flush now outcomes =>
      obtain hsame | ⟨-, c, buf, hc, hbuf, hflush⟩ :=
        KcpConnection.snd_flush xxh64 t.sender now outcomes
      · exact hsame ▸ h.sends
      · show Sends _ _ _ (t.sender.flush xxh64 now outcomes).conn.snd
        rw [hflush]
        exact (hfill hsent c (congrArg (·.1) hc) now).congr rfl (hbuf ▸ List.Subset.refl _)
    | windowSize value => exact h.sends.congr rfl (List.Subset.refl _)
  · cases op with
    | flush now outcomes =>
      refine List.forall_mem_append.mpr ⟨h.wire, fun p hp => ?_⟩
      have hoffered : Carries _ (t.sender.flush xxh64 now outcomes).wire.offered :=
        carries_flush fun c hc => (hfill hsent c hc now).buf
      obtain ⟨packet, hpacket, heq⟩ := List.mem_filterMap.mp hp
      cases packet <;> cases heq
      exact hoffered p hpacket
    | _ => exact h.wire

/-- A step of the receiver: only a PUSH of the wire brings it anything. -/
theorem receiver (hms : Countable (messagesOf mss sent)) (h : Flows mss sent t)
    (op : EndpointOp) : Flows mss sent (t.step xxh64 (.receiver op)) := by
  unfold Transfer.step
  dsimp only
  split
  case isFalse => exact h
  case isTrue hmay =>
  refine ⟨h.size, h.sends, h.wire, ?_⟩
  cases op with
  | send data malloc =>
    have hrcv : (t.receiver.step xxh64 (.send data malloc)).rcv = t.receiver.rcv :=
      KcpConnection.rcv_send data malloc
    exact hrcv ▸ h.delivers
  | recv size =>
    cases hrecv : t.receiver.rcv.recv t.receiver.state size with
    | error code => simpa only [KcpConnection.step, KcpConnection.recv, hrecv] using h.delivers
    | ok q =>
      simpa only [KcpConnection.step, KcpConnection.recv, hrecv] using h.delivers.recv hrecv
  | packet packet now malloc =>
    show Delivers _ (t.receiver.step xxh64 (.packet packet now malloc)).rcv t.read
    unfold KcpConnection.step
    dsimp only
    split
    case isFalse => exact h.delivers
    case isTrue =>
    rw [KcpConnection.rcv_input]
    cases packet with
    | push p =>
      exact h.delivers.onPush hms (h.wire p (by simpa [Transfer.mayHappen] using hmay)) now malloc
    | ack header => exact h.delivers
    | control cmd wnd packetTs ts sn => exact h.delivers
  | flush now outcomes =>
    obtain hsame | hcleared := KcpConnection.rcv_flush xxh64 t.receiver now outcomes
    · exact hsame ▸ h.delivers
    · exact hcleared ▸ h.delivers.congr rfl rfl rfl rfl
  | windowSize value => exact h.delivers.congr rfl rfl rfl rfl

end Flows

theorem accepted_grows (xxh64 : Nat → Nat) (t : Transfer) (op : TransferOp) :
    t.accepted <+: (t.step xxh64 op).accepted := by
  unfold Transfer.step
  repeat' split
  all_goals first | exact List.prefix_rfl | exact List.prefix_append _ _

/-- The messages accepted could be sent. -/
def Sendables (mss : Nat) (t : Transfer) : Prop :=
  t.sender.mss = mss ∧ ∀ data ∈ t.accepted, Sendable mss data

theorem Sendables.step (xxh64 : Nat → Nat) {t : Transfer} (op : TransferOp)
    (h : Sendables mss t) : Sendables mss (t.step xxh64 op) := by
  cases op with
  | receiver op =>
    unfold Transfer.step
    dsimp only
    split <;> exact h
  | sender op =>
    refine ⟨(Flows.size_step _ _).trans h.1, ?_⟩
    cases op with
    | send data malloc =>
      obtain ⟨-, hne, hfits, unused, counter, que, hsend⟩ | ⟨code, unused, counter, hsend⟩ :=
        send_cases t.sender data malloc
      · simp only [Transfer.step, hsend]
        have hsendable : Sendable mss data := ⟨hne, h.1 ▸ hfits⟩
        exact List.forall_mem_append.mpr ⟨h.2, List.forall_mem_singleton.mpr hsendable⟩
      · simpa only [Transfer.step, hsend] using h.2
    | _ => exact h.2

/-- What is read, and what waits in `rcv_queue`, are the messages accepted, whole, in order and
once each: at every moment of every run, however the network loses, copies and reorders. The MTU
is that of the start: no probe changes the sender's `mss` in the run. -/
theorem delivered_in_order (xxh64 : Nat → Nat) {mtu : Nat} (mtu' : Nat)
    (fastlimit fastlimit' : Int) (start start' : Nat) (hmtu : KCP_HEADER_SIZE < mtu)
    {ops : List TransferOp} {t : Transfer}
    (ht : run (Transfer.step xxh64)
      { sender := .connected mtu fastlimit start
        receiver := .connected mtu' fastlimit' start' } ops = t)
    (hlast : (messagesOf (mtu - KCP_HEADER_SIZE) t.accepted).flatten.length < 2 ^ 32) :
    ∃ j k, j ≤ k ∧ k ≤ t.accepted.length ∧ t.read = (t.accepted.take j).flatten
      ∧ payload t.receiver.rcv.rcvQueue = ((t.accepted.take k).drop j).flatten := by
  have hmss : 0 < mtu - KCP_HEADER_SIZE := Nat.sub_pos_of_lt hmtu
  have hall : ∀ data ∈ t.accepted, Sendable (mtu - KCP_HEADER_SIZE) data :=
    (ht ▸ run_inv_of_step (fun t op => Sendables.step xxh64 op) ops ⟨rfl, by simp⟩ :
      Sendables (mtu - KCP_HEADER_SIZE) t).2
  have hms := countable_messagesOf hmss hall hlast
  have hshort := (length_le_flatten hms.ne).trans_lt hlast
  rw [messagesOf, List.length_mapIdx] at hshort
  have hstart : Flows (mtu - KCP_HEADER_SIZE) t.accepted
      { sender := .connected mtu fastlimit start
        receiver := .connected mtu' fastlimit' start' } := by
    refine ⟨rfl, ⟨rfl, Nat.zero_le _, rfl, by simp [KcpConnection.connected]⟩, by simp, ?_⟩
    have hheld : Held {} := ⟨List.nodup_nil, List.Perm.refl _, List.nodup_nil⟩
    exact ⟨0, 0, le_refl _, Nat.zero_le _,
      ⟨hheld, ⟨fun _ hq => (nomatch hq), .nil⟩, le_refl _, fun n _ hn => absurd hn n.not_lt_zero⟩,
      rfl, rfl⟩
  have hstep : ∀ (t' : Transfer) op,
      (t'.accepted <+: t.accepted → Flows (mtu - KCP_HEADER_SIZE) t.accepted t') →
      (t'.step xxh64 op).accepted <+: t.accepted →
      Flows (mtu - KCP_HEADER_SIZE) t.accepted (t'.step xxh64 op) := by
    intro t' op h hsent
    have hflows := h ((accepted_grows xxh64 t' op).trans hsent)
    cases op with
    | sender op => exact hflows.sender hall hlast op hsent hshort
    | receiver op => exact hflows.receiver hms op
  have hflows := run_inv_of_step (P := fun t' => t'.accepted <+: t.accepted → Flows _ _ t') hstep
    ops fun _ => hstart
  rw [ht] at hflows
  obtain ⟨j, k, hjk, hk, -, hread, hqueue⟩ := (hflows List.prefix_rfl).delivers
  have hpayload : (messagesOf (mtu - KCP_HEADER_SIZE) t.accepted).map payload = t.accepted := by
    refine List.ext_getElem (by simp [messagesOf]) fun i _ _ => ?_
    simp only [messagesOf, List.getElem_map, List.getElem_mapIdx]
    exact flatten_segmentsOf hmss
  rw [hpayload] at hread hqueue
  exact ⟨j, k, hjk, by simpa [messagesOf] using hk, hread, hqueue⟩

/-- Two fragments of one message, the second first, and both twice. -/
def reordered : List TransferOp :=
  let first : KcpPacket := .push ⟨0, 2, 40000, 0, 0, 0, [1, 2]⟩
  let second : KcpPacket := .push ⟨1, 256, 40000, 1, 0, 0, [3]⟩
  [.sender (.send [1, 2, 3]), .sender (.flush 40000 []), .receiver (.packet second 50000),
    .receiver (.packet second 50001), .receiver (.packet first 50002),
    .receiver (.packet first 50003), .receiver (.recv 10)]

theorem delivered_in_order_reordered :
    let t := run (Transfer.step id)
      { sender := .connected 34 0 0, receiver := .connected 34 0 0 } reordered
    t.read = [1, 2, 3] ∧ ∃ j k, j ≤ k ∧ k ≤ t.accepted.length
      ∧ t.read = (t.accepted.take j).flatten
      ∧ payload t.receiver.rcv.rcvQueue = ((t.accepted.take k).drop j).flatten :=
  ⟨by decide +kernel, delivered_in_order id 34 0 0 0 0 (by decide) rfl (by decide +kernel)⟩

end Eular.Kcp
