/-
No byte a stream sent is forgotten, and no FIN: as long as it is not
acknowledged, a packet has it.

Two things are carried along a run. Every packet that is kept is laid
out as its table says (`PacketOut.Laid`), so that what it has is found in
it; and whatever a stream sent is in a packet the send control still has,
or in one that was acknowledged (`Queues.Carry`). Packets leave the
queues in three ways besides acknowledgement, and none loses anything: a
probe has no STREAM frame, nothing is ever scheduled, and a packet that
was split leaves only when all its chunks were sent and kept.

# Early data

The one way to lose bytes is not to keep them at all: what
`sendStreamFrame` sends before the handshake is done, as early data, is
not tracked, although the stream goes on behind it. `Tracks` says of an
event that it is no such send.
-/
import Eular.Utp.Send.Proofs.StreamFrames

namespace Eular.Utp

open Lib

-- ==== carriers

/-- A frame of the packet has it. -/
def QueuedPacket.Carries (q : QueuedPacket) (part : StreamPart) : Prop :=
  ∃ frame, q.packet.HasFrame frame ∧ frame.Has part

/-- The packet is laid out as it says. -/
def QueuedPacket.Laid (content : UInt32 → Nat → UInt8) (q : QueuedPacket) : Prop :=
  q.packet.Laid content q.streamId q.streamOffset

/-- A packet that is acknowledged has it, or one that is in a queue. -/
def Queues.Carry (s : Queues) (part : StreamPart) : Prop :=
  (∃ q ∈ s.acked, q.Carries part) ∨ ∃ q ∈ s.unackedPackets ++ s.lostPackets, q.Carries part

section Flags

variable {content : UInt32 → Nat → UInt8} {packet packet' : PacketOut}
  {streamId streamOffset : Nat}

theorem PacketOut.Laid.lost (h : packet.Laid content streamId streamOffset) :
    (handleRegularLostPacket packet).Laid content streamId streamOffset := by
  refine ⟨h.plaintext, fun fm hfm hstream => ?_⟩
  have hat := h.streams fm hfm hstream
  exact ⟨hat.stays, hat.nonempty, hat.lower, hat.upper, hat.behindAck, hat.noProbe, hat.frame⟩

theorem PacketOut.Laid.resent (h : packet.Laid content streamId streamOffset) :
    (afterRetransmit packet).Laid content streamId streamOffset := by
  refine ⟨h.plaintext, fun fm hfm hstream => ?_⟩
  have hat := h.streams fm hfm hstream
  exact ⟨hat.stays, hat.nonempty, hat.lower, hat.upper, hat.behindAck, hat.noProbe, hat.frame⟩

theorem PacketOut.Laid.unAcked (h : packet.Laid content streamId streamOffset) :
    ({ packet with poFlags := { packet.poFlags with unAcked := true } } : PacketOut).Laid content
      streamId streamOffset := by
  refine ⟨h.plaintext, fun fm hfm hstream => ?_⟩
  have hat := h.streams fm hfm hstream
  exact ⟨hat.stays, hat.nonempty, hat.lower, hat.upper, hat.behindAck, hat.noProbe, hat.frame⟩

end Flags

-- ==== rules

/-- Nothing is scheduled, the frames that are sent are the streams' own, and a
packet that was split leaves only when others have what it has. -/
def carryRules (content : UInt32 → Nat → UInt8) : Rules where
  mayStream frame := frame.Genuine content
  mayKeep s q := (∀ p ∈ s.lostPackets, p.Laid content) → q.Laid content
  maySchedule _ := False
  mayRetire s q := q.Laid content → ∀ part, q.Carries part →
    ∃ p ∈ s.unackedPackets, p.Carries part

variable {content : UInt32 → Nat → UInt8}

theorem Rules.Source.genuine {s : Queues} {frame : FrameStream}
    (h : (carryRules content).Source s frame) (hlost : ∀ p ∈ s.lostPackets, p.Laid content) :
    frame.Genuine content := by
  rcases h with hgenuine | ⟨q, hq, budget, -, fm, hfm, hstream, -, whole, hdecode, hchunk⟩
  · exact hgenuine
  · obtain ⟨whole', hdecode', hgenuine, -⟩ := ((hlost q hq).streams fm hfm hstream).frame
    cases hdecode.symm.trans hdecode'
    exact FrameStream.genuine_chunks hgenuine hchunk

theorem laid_of_no_stream {env : SendEnv} {req : SendRequest} {packet : PacketOut}
    (hkept : KeptOf env req packet) (hclear : req.packetFlags.encrypted = false)
    (hmetas : ∀ g ∈ req.frameMetas, g.1 ≠ .stream) (streamId streamOffset : Nat) :
    packet.Laid content streamId streamOffset := by
  refine ⟨hkept.keepPlaintext hclear, fun fm hfm hstream => ?_⟩
  rw [hkept.frameMeta] at hfm
  exact absurd hstream (not_mem_buildFrameMeta hmetas hfm)

theorem carryRules_keeps (gcm : Gcm) (env : SendCtlEnv) : (carryRules content).Keeps gcm env := by
  intro s req streamId streamOffset ptr wire packet hissued hsent hlost
  have hkept := (keptOf_sent hsent).1
  have hnone : ∀ g ∈ ([] : List (FrameType × Nat)), g.1 ≠ .stream :=
    fun _ h => absurd h List.not_mem_nil
  apply PacketOut.Laid.unAcked
  cases hissued with
  | control req => exact laid_of_no_stream hkept rfl hnone _ _
  | stream frame trailer _ hsource =>
    exact ((carryRequest_stream frame trailer).laid hkept (hsource.genuine hlost)).1
  | ackStream frame ack trailer _ hsource =>
    exact ((carryRequest_ackStream hkept.fits).laid hkept (hsource.genuine hlost)).1
  | early frame token _ hsource =>
    exact ((carryRequest_early hkept.fits).laid hkept (hsource.genuine hlost)).1
  | ack ack => exact laid_of_no_stream hkept rfl hnone _ _
  | flush q st _ hbatch _ =>
    refine laid_of_no_stream hkept rfl (fun g hg => ?_) _ _
    obtain ⟨fm, -, -, -, hother⟩ := hbatch.frames g hg
    exact hother
  | probe packetSize => exact laid_of_no_stream hkept rfl hnone _ _

-- ==== split

/-- Early data may be sent: what is sent then is not kept. -/
def SendCtlEnv.early (env : SendCtlEnv) : Bool := env.state = .initialSent && env.zeroRtt.isSome

namespace SendControl

variable {gcm : Gcm} {env : SendCtlEnv}

theorem state_of_sendStreamFrame_ok (hearly : env.early = false) {s : SendControl}
    {frame : FrameStream} (hok : (s.sendStreamFrame gcm env frame).1.ok = true) :
    env.state = .connected := by
  by_contra hstate
  unfold sendStreamFrame at hok
  split_ifs at hok with hclosing hearly' hlen
  · exact absurd hok (by simp [Status.ok, Status.error])
  · exact absurd hok (by simp [Status.ok, Status.error])
  · unfold SendCtlEnv.early at hearly
    rw [hearly] at hearly'
    simp [hstate] at hearly'
  · unfold SendCtlEnv.early at hearly
    rw [hearly] at hearly'
    simp [hstate] at hearly'

theorem sendStreamFrame_carried (hearly : env.early = false) {s : SendControl}
    {frame : FrameStream} (hgenuine : frame.Genuine content)
    (hok : (s.sendStreamFrame gcm env frame).1.ok = true) :
    ∃ q ∈ (s.sendStreamFrame gcm env frame).2.unackedPackets, q.packet.HasFrame frame.onWire := by
  obtain ⟨t, req, packet, hreq, hkept, hunacked⟩ :=
    (sendStreamFrame_sent (state_of_sendStreamFrame_ok hearly hok) hok).kept
  refine ⟨_, by rw [hunacked]; exact List.mem_append_right _ List.mem_cons_self, ?_⟩
  obtain ⟨trailer, rfl | ⟨ack, rfl⟩⟩ := hreq
  · exact ((carryRequest_stream frame trailer).laid hkept hgenuine).2
  · exact ((carryRequest_ackStream hkept.fits).laid hkept hgenuine).2

theorem carryRules_retires (gcm : Gcm) (hearly : env.early = false) :
    (carryRules content).Retires gcm env := by
  intro s q hq hok hlaid part ⟨frame, hframe, hpart⟩
  have hrule : SplitRule (splitCalls gcm env) (s.splitEnv env) q.packet fun done _ t =>
      ∀ g ∈ done, ∃ p ∈ t.unackedPackets, p.packet.HasFrame g.onWire := by
    constructor
    · intro done sentAny t g ht hchunk
      have hsent : Reaches Queues.move (Queues.Sending anyRules) t.toQueues
          (t.sendStreamFrame gcm env g).2.toQueues :=
        t.sendStreamFrame_reaches (anyRules_keeps gcm env) (.inl trivial)
      have hkeep : ∀ g' ∈ done, ∃ p ∈ (t.sendStreamFrame gcm env g).2.unackedPackets,
          p.packet.HasFrame g'.onWire := by
        intro g' hg'
        obtain ⟨p, hp, hhas⟩ := ht g' hg'
        exact ⟨p, mem_unacked_of_sending hsent hp, hhas⟩
      obtain ⟨fm, hfm, hstream, -, whole, hdecode, hmem⟩ := hchunk
      obtain ⟨whole', hdecode', hgenuine, -⟩ := (hlaid.streams fm hfm hstream).frame
      cases hdecode.symm.trans hdecode'
      split
      · next hgo =>
          refine List.forall_mem_append.mpr ⟨hkeep, List.forall_mem_singleton.mpr ?_⟩
          exact sendStreamFrame_carried hearly (FrameStream.genuine_chunks hgenuine hmem) hgo
      · exact hkeep
    · intro done st hst _ _
      have hsent : Reaches Queues.move (Queues.Sending anyRules) st.conn.toQueues
          (st.conn.sendPacket gcm env (flushRequest q.packet st) 0 0).2.toQueues := by
        rcases @SendControl.sendPacket_cases gcm env st.conn (flushRequest q.packet st) 0 0
          with hsame | htaken | ⟨wire, packet, hsent, hkept⟩
        · rw [hsame]
          exact .refl _
        · rw [htaken]
          exact .single QueueMove.takeNumber trivial
        · rw [hkept]
          exact .single (QueueMove.keep _) ⟨rfl, (keptOf_sent hsent).1.packno, trivial⟩
      rw [ite_self]
      intro g hg
      obtain ⟨p, hp, hhas⟩ := hst g hg
      exact ⟨p, mem_unacked_of_sending hsent hp, hhas⟩
  obtain ⟨done, sentAny, hdone, hwent⟩ := retransmitSplitStreamPacket_rule hrule s
    (fun _ h => absurd h List.not_mem_nil)
  obtain ⟨fm, hfm, hstream, hlower, hupper, hdecode⟩ := hframe
  have hat := hlaid.streams fm hfm hstream
  obtain ⟨whole, hdecode', hall⟩ := (hwent hok).2 fm hfm hstream (hat.skipsFrame hstream)
  cases hdecode.symm.trans hdecode'
  have hgenuine := (hlaid.genuine ⟨fm, hfm, hstream, hlower, hupper, hdecode⟩).1
  have hbudget : 0 < (s.splitEnv env).streamChunkBudget :=
    Nat.lt_of_lt_of_le Nat.zero_lt_one (Nat.le_max_right _ _)
  obtain ⟨chunk, hchunk, hhas⟩ := FrameStream.covers_chunks hbudget hgenuine hpart
  obtain ⟨p, hp, hframe⟩ := hdone chunk (hall chunk hchunk)
  exact ⟨p, hp, chunk.onWire, hframe, FrameStream.has_onWire.mpr hhas⟩

end SendControl

-- ==== moves

namespace Queues

variable {s : Queues} {part : StreamPart}

/-- Every packet is laid out as it says, and nothing is scheduled. -/
structure AllLaid (content : UInt32 → Nat → UInt8) (s : Queues) : Prop where
  distinct : s.Distinct
  scheduled : s.scheduledPackets = []
  unacked : ∀ q ∈ s.unackedPackets, q.Laid content
  lost : ∀ q ∈ s.lostPackets, q.Laid content
  acked : ∀ q ∈ s.acked, q.Laid content

theorem AllLaid.not_scheduled (h : s.AllLaid content) (q : QueuedPacket) :
    q ∉ s.scheduledPackets := by
  rw [h.scheduled]
  exact List.not_mem_nil

theorem AllLaid.move {gcm : Gcm} {m : QueueMove} (h : s.AllLaid content)
    (hm : s.Allowed gcm (carryRules content) m) : (s.move m).AllLaid content := by
  have hdistinct := distinct_move h.distinct hm
  cases m with
  | takeNumber => exact ⟨hdistinct, h.scheduled, h.unacked, h.lost, h.acked⟩
  | note call => exact ⟨hdistinct, h.scheduled, h.unacked, h.lost, h.acked⟩
  | schedule q => exact hm.2.elim
  | flush nowUs q => exact absurd hm (h.not_scheduled q)
  | drop q => exact absurd hm (h.not_scheduled q)
  | keep q =>
    refine ⟨hdistinct, h.scheduled, ?_, h.lost, h.acked⟩
    exact List.forall_mem_append.mpr ⟨h.unacked, List.forall_mem_singleton.mpr (hm.2.2 h.lost)⟩
  | ack q =>
    refine ⟨hdistinct, h.scheduled, fun a ha => h.unacked a (mem_of_mem_removeKey ha), h.lost, ?_⟩
    exact List.forall_mem_append.mpr ⟨h.acked, List.forall_mem_singleton.mpr (h.unacked q hm)⟩
  | loseProbe q =>
    exact ⟨hdistinct, h.scheduled, fun a ha => h.unacked a (mem_of_mem_removeKey ha), h.lost,
      h.acked⟩
  | lose q =>
    refine ⟨hdistinct, h.scheduled, fun a ha => h.unacked a (mem_of_mem_removeKey ha), ?_, h.acked⟩
    exact List.forall_mem_append.mpr
      ⟨h.lost, List.forall_mem_singleton.mpr (h.unacked q hm.1).lost⟩
  | edit q packet =>
    refine ⟨hdistinct, h.scheduled, h.unacked, ?_, h.acked⟩
    intro a ha
    rcases mem_of_mem_replaceKey ha with rfl | ha
    · exact (PacketOut.Laid.edit (h.lost q hm.1) hm.2).1
    · exact h.lost a ha
  | resend nowUs q =>
    refine ⟨hdistinct, h.scheduled, ?_, fun a ha => h.lost a (mem_of_mem_removeKey ha), h.acked⟩
    exact List.forall_mem_append.mpr
      ⟨h.unacked, List.forall_mem_singleton.mpr (h.lost q hm).resent⟩
  | retire q =>
    exact ⟨hdistinct, h.scheduled, h.unacked, fun a ha => h.lost a (mem_of_mem_removeKey ha),
      h.acked⟩

theorem carry_of_unacked {q : QueuedPacket}
    (hq : q ∈ s.unackedPackets) (h : q.Carries part) : s.Carry part :=
  .inr ⟨q, List.mem_append_left _ hq, h⟩

theorem carry_of_lost {q : QueuedPacket}
    (hq : q ∈ s.lostPackets) (h : q.Carries part) : s.Carry part :=
  .inr ⟨q, List.mem_append_right _ hq, h⟩

theorem mem_removeKey_or {l : List QueuedPacket} {a q : QueuedPacket}
    (hn : (l.map QueuedPacket.ptr).Nodup) (ha : a ∈ l) (hq : q ∈ l) :
    a = q ∨ a ∈ removeKey QueuedPacket.ptr q.ptr l := by
  by_cases hptr : a.ptr = q.ptr
  · exact .inl (List.inj_on_of_nodup_map hn ha hq hptr)
  · exact .inr (mem_removeKey_of_ne ha hptr)

theorem Carry.move {gcm : Gcm} {m : QueueMove}
    (hlaid : s.AllLaid content) (hm : s.Allowed gcm (carryRules content) m) (h : s.Carry part) :
    (s.move m).Carry part := by
  have hun := hlaid.distinct.unacked
  have hln := hlaid.distinct.lost
  rcases h with ⟨a, ha, hcarries⟩ | ⟨a, ha, hcarries⟩
  · left
    cases m with
    | ack q => exact ⟨a, List.mem_append_left _ ha, hcarries⟩
    | _ => exact ⟨a, ha, hcarries⟩
  rcases List.mem_append.mp ha with ha | ha
  · cases m with
    | takeNumber => exact carry_of_unacked (s := s.takeNumber) ha hcarries
    | note call => exact carry_of_unacked (s := s.note call) ha hcarries
    | edit q packet => exact carry_of_unacked (s := s.edit q packet) ha hcarries
    | retire q => exact carry_of_unacked (s := s.retire q) ha hcarries
    | schedule q => exact hm.2.elim
    | flush nowUs q => exact absurd hm (hlaid.not_scheduled q)
    | drop q => exact absurd hm (hlaid.not_scheduled q)
    | keep q =>
      exact carry_of_unacked (s := s.takeNumber.keep q) (List.mem_append_left _ ha) hcarries
    | resend nowUs q =>
      exact carry_of_unacked (s := s.resend nowUs q) (List.mem_append_left _ ha) hcarries
    | ack q =>
      rcases mem_removeKey_or hun ha hm with rfl | hstay
      · exact .inl ⟨a, List.mem_append_right _ List.mem_cons_self, hcarries⟩
      · exact carry_of_unacked (s := s.ack q) hstay hcarries
    | loseProbe q =>
      rcases mem_removeKey_or hun ha hm.1 with rfl | hstay
      · -- a probe has no STREAM frame
        obtain ⟨frame, ⟨fm, hfm, hstream, -⟩, -⟩ := hcarries
        have hprobe := ((hlaid.unacked a ha).streams fm hfm hstream).noProbe
        exact absurd (hm.2.symm.trans hprobe) (by decide)
      · exact carry_of_unacked (s := s.loseProbe q) hstay hcarries
    | lose q =>
      rcases mem_removeKey_or hun ha hm.1 with rfl | hstay
      · exact carry_of_lost (s := s.lose a) (q := lostPacket a)
          (List.mem_append_right _ List.mem_cons_self) hcarries
      · exact carry_of_unacked (s := s.lose q) hstay hcarries
  · cases m with
    | takeNumber => exact carry_of_lost (s := s.takeNumber) ha hcarries
    | note call => exact carry_of_lost (s := s.note call) ha hcarries
    | keep q => exact carry_of_lost (s := s.takeNumber.keep q) ha hcarries
    | ack q => exact carry_of_lost (s := s.ack q) ha hcarries
    | loseProbe q => exact carry_of_lost (s := s.loseProbe q) ha hcarries
    | schedule q => exact hm.2.elim
    | flush nowUs q => exact absurd hm (hlaid.not_scheduled q)
    | drop q => exact absurd hm (hlaid.not_scheduled q)
    | lose q => exact carry_of_lost (s := s.lose q) (List.mem_append_left _ ha) hcarries
    | edit q packet =>
      by_cases hptr : a.ptr = q.ptr
      · cases List.inj_on_of_nodup_map hln ha hm.1 hptr
        obtain ⟨frame, hframe, hpart⟩ := hcarries
        have hkept := (PacketOut.Laid.edit (hlaid.lost a ha) hm.2).2 frame hframe
        exact carry_of_lost (s := s.edit a packet) (q := { a with packet })
          (mem_replaceKey_self ha rfl) ⟨frame, hkept, hpart⟩
      · exact carry_of_lost (s := s.edit q packet) (mem_replaceKey_of_ne ha hptr) hcarries
    | resend nowUs q =>
      rcases mem_removeKey_or hln ha hm with rfl | hstay
      · exact carry_of_unacked (s := s.resend nowUs a) (q := resentPacket nowUs a)
          (List.mem_append_right _ List.mem_cons_self) hcarries
      · exact carry_of_lost (s := s.resend nowUs q) hstay hcarries
    | retire q =>
      rcases mem_removeKey_or hln ha hm.1 with rfl | hstay
      · obtain ⟨p, hp, hpart⟩ := hm.2 (hlaid.lost a ha) part hcarries
        exact carry_of_unacked (s := s.retire a) hp hpart
      · exact carry_of_lost (s := s.retire q) hstay hcarries

theorem AllLaid.reaches {gcm : Gcm} {s t : Queues} (h : s.AllLaid content)
    (hreach : Reaches Queues.move (Queues.Allowed gcm (carryRules content)) s t) :
    t.AllLaid content ∧ ∀ part, s.Carry part → t.Carry part := by
  refine hreach.inv (P := fun u => u.AllLaid content ∧ ∀ part, s.Carry part → u.Carry part) ?_
    ⟨h, fun _ hpart => hpart⟩
  intro u m hu hm
  exact ⟨hu.1.move hm, fun part hpart => (hu.2 part hpart).move hu.1 hm⟩

end Queues

-- ==== streams

/-- The packet has the byte, as the application wrote it. -/
def QueuedPacket.CarriesByte (content : UInt32 → Nat → UInt8) (q : QueuedPacket) (id : UInt32)
    (offset : Nat) : Prop :=
  ∃ frame, q.packet.HasFrame frame ∧ frame.streamId = id.toNat ∧ frame.streamOffset ≤ offset
    ∧ frame.streamData[offset - frame.streamOffset]? = some (content id offset)

theorem QueuedPacket.Laid.carriesByte {q : QueuedPacket} (h : q.Laid content) {id : UInt32}
    {offset : Nat} (hcarries : q.Carries (.byte id offset)) : q.CarriesByte content id offset := by
  obtain ⟨frame, hframe, hid, hfrom, hto⟩ := hcarries
  refine ⟨frame, hframe, hid, hfrom, ?_⟩
  rw [(h.genuine hframe).1.data _ (by omega), hid, Nat.add_sub_cancel' hfrom]
  congr 2
  exact UInt32.ofNat_toNat

namespace SendSide

variable {gcm : Gcm} {env : SendCtlEnv}
variable {s : SendSide}

/-- The stream was told that the byte is acknowledged (`onPacketAcked`). -/
def Reported (s : SendSide) (id : UInt32) (offset : Nat) : Prop :=
  ∃ q ∈ s.acked, q.streamId = id.toNat ∧ q.streamOffset ≤ offset
    ∧ offset < q.streamOffset + q.packet.streamDataSize

/-- What was sent and is not acknowledged is in a packet. -/
structure Remembers (content : UInt32 → Nat → UInt8) (s : SendSide) : Prop where
  bytes : ∀ id offset, offset < (s.streams id).nextSendOffset → ¬ s.Reported id offset →
    ∃ q ∈ s.toQueues.packets, q.CarriesByte content id offset
  fins : ∀ id offset, (s.streams id).localFinSent = some offset →
    (∀ q ∈ s.acked, ¬ q.Carries (.fin id offset)) →
    ∃ q ∈ s.toQueues.packets, q.Carries (.fin id offset)

/-- What the packets have, acknowledged ones included. -/
structure Carrying (content : UInt32 → Nat → UInt8) (s : SendSide) : Prop where
  laid : s.toQueues.AllLaid content
  bytes : ∀ id offset, offset < (s.streams id).nextSendOffset → s.toQueues.Carry (.byte id offset)
  fins : ∀ id offset, (s.streams id).localFinSent = some offset → s.toQueues.Carry (.fin id offset)

theorem Carrying.remembers (h : s.Carrying content) : s.Remembers content := by
  have hmem : ∀ q ∈ s.unackedPackets ++ s.lostPackets, q ∈ s.toQueues.packets ∧ q.Laid content := by
    intro q hq
    rcases List.mem_append.mp hq with hq | hq
    · exact ⟨List.mem_append_left _ (List.mem_append_left _ hq), h.laid.unacked q hq⟩
    · exact ⟨List.mem_append_right _ hq, h.laid.lost q hq⟩
  constructor
  · intro id offset hsent hunreported
    rcases h.bytes id offset hsent with ⟨q, hq, hcarries⟩ | ⟨q, hq, hcarries⟩
    · obtain ⟨frame, hframe, hid, hfrom, hto⟩ := hcarries
      obtain ⟨-, hid', hoffset, hlen⟩ := (h.laid.acked q hq).genuine hframe
      refine absurd ⟨q, hq, hid'.symm.trans hid, ?_, ?_⟩ hunreported
      · rw [← hoffset]
        exact hfrom
      · rw [← hoffset, ← hlen]
        exact hto
    · exact ⟨q, (hmem q hq).1, (hmem q hq).2.carriesByte hcarries⟩
  · intro id offset hsent hunacked
    rcases h.fins id offset hsent with ⟨q, hq, hcarries⟩ | ⟨q, hq, hcarries⟩
    · exact absurd hcarries (hunacked q hq)
    · exact ⟨q, (hmem q hq).1, hcarries⟩

theorem Carrying.reaches (h : s.Carrying content) {t : SendControl}
    (hreach : Reaches Queues.move (Queues.Allowed gcm (carryRules content)) s.toQueues t.toQueues) :
    ({ s with toSendControl := t } : SendSide).Carrying content := by
  obtain ⟨hlaid, hcarry⟩ := h.laid.reaches hreach
  exact ⟨hlaid, fun id offset hsent => hcarry _ (h.bytes id offset hsent),
    fun id offset hsent => hcarry _ (h.fins id offset hsent)⟩

theorem nextFrame_genuine (s : SendSide) (id : UInt32) {len : Nat} (fin : Bool)
    (hfits : (s.streams id).nextSendOffset + len < 2 ^ 64) :
    (s.nextFrame content id len fin).Genuine content := by
  have hlen : (s.nextFrame content id len fin).streamData.length = len := by
    simp [nextFrame]
  refine ⟨id.toNat_lt, ?_, ?_⟩
  · rw [hlen]
    exact hfits
  · intro i hi
    rw [hlen] at hi
    have hid : UInt32.ofNat (s.nextFrame content id len fin).streamId = id := UInt32.ofNat_toNat
    rw [hid]
    simp [nextFrame, hi]

theorem nextFrame_isFin (s : SendSide) (id : UInt32) (len : Nat) (fin : Bool) :
    (s.nextFrame content id len fin).isFin = fin := by
  show Nat.testBit (if fin then 1 else 0) 0 = fin
  cases fin
  · rfl
  · decide

theorem carrying_sendStream (hearly : env.early = false) (h : s.Carrying content)
    (id : UInt32) (len : Nat) (fin : Bool) :
    (s.sendStream gcm content env id len fin).Carrying content := by
  unfold sendStream
  split
  · exact h
  · next hgo =>
      simp only [Bool.or_eq_true, decide_eq_true_eq, not_or, Nat.not_le] at hgo
      have hgenuine := @nextFrame_genuine content s id _ fin hgo.2
      have hreach : Reaches Queues.move (Queues.Allowed gcm (carryRules content)) s.toQueues
          (s.toSendControl.sendStreamFrame gcm env (s.nextFrame content id len fin)).2.toQueues :=
        (s.toSendControl.sendStreamFrame_reaches (carryRules_keeps gcm env) (.inl hgenuine)).imp
          fun _ _ hm => (Queues.Sending.settles gcm hm).1
      have hold := h.reaches hreach
      simp only
      split
      · next hok =>
          obtain ⟨q, hq, hframe⟩ := SendControl.sendStreamFrame_carried hearly hgenuine hok
          have hhas : ∀ part, (s.nextFrame content id len fin).Has part → q.Carries part :=
            fun part hpart => ⟨_, hframe, FrameStream.has_onWire.mpr hpart⟩
          have hlen : (s.nextFrame content id len fin).streamData.length = len := by
            simp [nextFrame]
          refine ⟨hold.laid, ?_, ?_⟩
          · intro id' offset hsent
            by_cases hid : id' = id
            · subst hid
              simp only [sentFrame, Function.update_self] at hsent
              by_cases hbefore : offset < (s.streams id').nextSendOffset
              · exact hold.bytes id' offset hbefore
              · refine Queues.carry_of_unacked hq (hhas _ ⟨rfl, Nat.not_lt.mp hbefore, ?_⟩)
                rw [hlen]
                exact hsent
            · simp only [sentFrame, Function.update_of_ne hid] at hsent
              exact hold.bytes id' offset hsent
          · intro id' offset hsent
            by_cases hid : id' = id
            · subst hid
              simp only [sentFrame, Function.update_self] at hsent
              cases fin with
              | false => exact absurd hsent (by simp)
              | true =>
                refine Queues.carry_of_unacked hq (hhas _ ⟨rfl, nextFrame_isFin s id' len true, ?_⟩)
                rw [hlen]
                exact Option.some.inj hsent
            · simp only [sentFrame, Function.update_of_ne hid] at hsent
              exact hold.fins id' offset hsent
      · split
        · exact ⟨hold.laid, hold.bytes, hold.fins⟩
        · exact hold

theorem carrying_control (h : s.Carrying content) (req : ControlRequest) :
    (s.sendOut gcm content env (.control req)).Carrying content :=
  h.reaches ((s.sendPacket_reaches (carryRules_keeps gcm env) (.control req)).imp
    fun _ _ hm => (Queues.Sending.settles gcm hm).1)

/-- Stream data may go out in the event. -/
def MaySendStream (s : SendSide) : SendSideOp → Prop
  | .send (.stream _ _ _) => True
  | .write outs => s.lostPackets ≠ [] ∨ ∃ id len fin, Outgoing.stream id len fin ∈ outs
  | _ => False

/-- The event sends no stream data as early data. -/
def Tracks (s : SendSide) (op : SendCtlEnv × SendSideOp) : Prop :=
  op.1.early = true → ¬ s.MaySendStream op.2

theorem lostPackets_sendOut (s : SendSide) (out : Outgoing) :
    (s.sendOut gcm content env out).lostPackets = s.lostPackets :=
  SendControl.lostPackets_of_sending (s.sendOut_advances gcm content env out).1

theorem carrying_sendOuts (outs : List Outgoing) :
    ∀ {s : SendSide}, s.Carrying content →
      (env.early = true → ∀ id len fin, Outgoing.stream id len fin ∉ outs) →
      (outs.foldl (sendOut gcm content env) s).Carrying content
        ∧ (outs.foldl (sendOut gcm content env) s).lostPackets = s.lostPackets := by
  induction outs with
  | nil => exact fun h _ => ⟨h, rfl⟩
  | cons out outs ih =>
    intro s h htracks
    have hout : (s.sendOut gcm content env out).Carrying content := by
      cases out with
      | control req => exact carrying_control h req
      | stream id len fin =>
        refine carrying_sendStream ?_ h id len fin
        by_contra hearly
        exact htracks (Bool.not_eq_false _ ▸ hearly) id len fin List.mem_cons_self
    obtain ⟨hrest, hlost⟩ := ih hout
      fun hearly id len fin hmem => htracks hearly id len fin (List.mem_cons_of_mem out hmem)
    exact ⟨hrest, hlost.trans (s.lostPackets_sendOut out)⟩

theorem resendLost_of_lost_nil {s : SendControl} (hlost : s.lostPackets = []) (sentAny : Bool) :
    (s.resendLost gcm env sentAny).toQueues = s.toQueues := by
  have hrounds : s.resendRounds gcm env sentAny = { state := s, sent := 0, sentAny } := by
    unfold SendControl.resendRounds SendControl.resendLoop
    rw [hlost]
    rfl
  unfold SendControl.resendLost
  rw [hrounds]
  simp only [hlost, List.isEmpty_nil, Bool.not_true, Bool.false_and, Bool.false_eq_true, if_false]

theorem onCanWrite_reaches_of_lost_nil {s : SendControl} (hlaid : s.toQueues.AllLaid content)
    (hlost : s.lostPackets = []) :
    Reaches Queues.move (Queues.Allowed gcm (carryRules content)) s.toQueues
      (s.onCanWrite gcm env).toQueues := by
  unfold SendControl.onCanWrite
  split
  · exact .refl _
  · have hflush := @SendControl.flushScheduledPackets_nil env _ hlaid.scheduled
      (env.nowUs 0) kSendBatchCap
    simp only
    rw [hflush]
    have hsame := @resendLost_of_lost_nil gcm env _ hlost false
    have hprobe := (SendControl.maybeSendMtuProbe_reaches (@carryRules_keeps content
      gcm env) (s.resendLost gcm env false) (env.nowUs (s.lostPackets.length + 1))
      (s.lostPackets.length + 1)).imp fun _ _ hm => hm.1
    rw [hsame] at hprobe
    exact hprobe

theorem carrying_step (h : s.Carrying content) (op : SendCtlEnv × SendSideOp)
    (htracks : s.Tracks op) : (s.step gcm content op).Carrying content := by
  obtain ⟨env, op⟩ := op
  cases op with
  | send out =>
    cases out with
    | control req => exact carrying_control h req
    | stream id len fin =>
      refine carrying_sendStream ?_ h id len fin
      by_contra hearly
      exact htracks (Bool.not_eq_false _ ▸ hearly) trivial
  | ack ackInfo =>
    exact h.reaches ((SendControl.onAckReceived_reaches (carryRules_keeps gcm env)
      h.laid.distinct ackInfo fun _ _ _ => trivial).imp fun _ _ hm => hm.1)
  | retransTimer =>
    show (if s.retransTimer then _ else s : SendSide).Carrying content
    split
    · exact @Carrying.reaches _ gcm _ h _ ((SendControl.onRetransTimer_reaches h.laid.distinct
        fun _ _ => trivial).imp fun _ _ hm => hm.1)
    · exact h
  | scheduleTimer =>
    show (if s.scheduleTimer then _ else s : SendSide).Carrying content
    split
    · exact ⟨h.laid, h.bytes, h.fins⟩
    · exact h
  | write outs =>
    show (if s.wantWrite then _ else s : SendSide).Carrying content
    split
    · obtain ⟨hsent, hlost⟩ := @carrying_sendOuts _ gcm env outs
        { s with toSendControl := { s.toSendControl with wantWrite := false } }
        ⟨h.laid, h.bytes, h.fins⟩
        (fun hearly id len fin hmem => htracks hearly (.inr ⟨id, len, fin, hmem⟩))
      by_cases hearly : env.early = true
      · have hnone : s.lostPackets = [] := by
          by_contra hsome
          exact htracks hearly (.inl hsome)
        exact hsent.reaches (onCanWrite_reaches_of_lost_nil hsent.laid (hlost.trans hnone))
      · exact hsent.reaches (SendControl.onCanWrite_reaches (carryRules_keeps gcm env)
          (SendControl.carryRules_retires gcm (Bool.not_eq_true _ ▸ hearly)) hsent.laid.distinct)
    · exact h

theorem carrying_init (packetNumber : UInt64) (mtu : MtuDiscovery) (bytesOut : Nat) :
    (init packetNumber mtu bytesOut).Carrying content := by
  have hnone : ∀ q ∈ ([] : List QueuedPacket), q.Laid content :=
    fun _ h => absurd h List.not_mem_nil
  refine ⟨⟨⟨List.nodup_nil, fun _ h => absurd h List.not_mem_nil⟩, rfl, hnone, hnone, hnone⟩, ?_,
    ?_⟩
  · exact fun _ offset h => absurd h (Nat.not_lt_zero offset)
  · exact fun _ _ h => absurd h (Option.some_ne_none _).symm

/-- As long as no stream data goes out as early data, nothing a stream sent is
forgotten. -/
theorem remembers_run {gcm : Gcm} {content : UInt32 → Nat → UInt8} {packetNumber : UInt64}
    {mtu : MtuDiscovery} {bytesOut : Nat} {ops : List (SendCtlEnv × SendSideOp)}
    (hops : Meets (step gcm content) Tracks (init packetNumber mtu bytesOut) ops) :
    (run (step gcm content) (init packetNumber mtu bytesOut) ops).Remembers content := by
  have hcarrying := run_inv (P := fun s : SendSide => s.Carrying content)
    (fun _ op h htracks => carrying_step h op htracks) (carrying_init packetNumber mtu bytesOut)
      hops
  exact hcarrying.remembers

/-- Three bytes and a FIN are lost, and are sent again. -/
theorem remembers_refusedRetry :
    ((run (step unusedGcm fun _ _ => 0) (init 1 {} 0) refusedRetry).streams 0).nextSendOffset = 3
      ∧ (run (step unusedGcm fun _ _ => 0) (init 1 {} 0) refusedRetry).Remembers fun _ _ => 0 := by
  refine ⟨by decide +kernel, remembers_run ?_⟩
  exact ⟨fun h => absurd h (by decide), fun h => absurd h (by decide),
    fun h => absurd h (by decide), trivial⟩

/-- Three bytes go out with the first flight of a handshake that resumes a
session. -/
def earlySend : SendCtlEnv × SendSideOp :=
  ({ state := .initialSent, zeroRtt := some [12, 0, 0, 0] }, .send (.stream 0 3 false))

/-- They are in no packet, and were not acknowledged. -/
theorem not_remembers_earlySend :
    ¬ (run (step unusedGcm fun _ _ => 0) (init 1 {} 0) [earlySend]).Remembers fun _ _ => 0 := by
  intro h
  have hacked : (run (step unusedGcm fun _ _ => 0) (init 1 {} 0) [earlySend]).acked.length = 0 := by
    decide +kernel
  have hpackets : (run (step unusedGcm fun _ _ => 0) (init 1 {} 0)
      [earlySend]).toQueues.packets.length = 0 := by
    decide +kernel
  have hunreported : ¬ (run (step unusedGcm fun _ _ => 0) (init 1 {} 0)
      [earlySend]).Reported 0 0 := by
    rintro ⟨q, hq, -⟩
    rw [List.length_eq_zero_iff.mp hacked] at hq
    exact absurd hq List.not_mem_nil
  obtain ⟨q, hq, -⟩ := h.bytes 0 0 (by decide +kernel) hunreported
  rw [List.length_eq_zero_iff.mp hpackets] at hq
  exact absurd hq List.not_mem_nil

end SendSide

end Eular.Utp
