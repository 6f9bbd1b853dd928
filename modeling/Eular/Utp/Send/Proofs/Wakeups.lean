/-
Nothing stalls: while packets wait to be acknowledged or sent again, a
timer runs or the connection has asked to write.

Two things are tracked along a run. `Framed` is about what the packets
hold: every frame in the table of a kept packet is either left out of a
split or worth sending again, so that a split that sends anything sends
something that starts the timer. `Armed` is about the timer itself. Sends
keep both; acknowledgements and the timers set the alarm last, which
establishes `Armed` whatever went before; and `onCanWrite` leaves lost
packets behind only with the alarm set or the schedule timer running.
-/
import Eular.Utp.Send.SendSide
import Eular.Utp.Send.Proofs.Accounting

namespace Eular.Utp

open Lib

variable {req : SendRequest}

-- ==== property

def SendControl.Wakes (s : SendControl) : Prop :=
  s.retransTimer = true ∨ s.scheduleTimer = true ∨ s.wantWrite = true

/-- Packets that wait for something have an event to wait for. -/
structure SendControl.NoStall (s : SendControl) : Prop where
  unacked : ∀ q ∈ s.unackedPackets, q.retx = true → s.retransTimer = true
  waiting : s.lostPackets ≠ [] ∨ s.scheduledPackets ≠ [] → s.Wakes

-- ==== frames

/-- The frame is left out when its packet is split, or is of a type that is
sent again. -/
def FrameMetaInfo.WorthSending (fm : FrameMetaInfo) : Prop :=
  fm.length = 0 ∨ fm.frameFlags.transientOnRetrans = true
    ∨ UTP_FRAME_RETX_MASK.testBit fm.frameType.value = true

/-- Every frame in the packet's table is such. -/
def PacketOut.FramesWorth (packet : PacketOut) : Prop :=
  ∀ fm ∈ packet.frameMeta, fm.WorthSending

theorem PacketOut.FramesWorth.testBit {packet : PacketOut} (h : packet.FramesWorth)
    {fm : FrameMetaInfo} (hfm : fm ∈ packet.frameMeta) (hskip : packet.skipsFrame fm = false) :
    UTP_FRAME_RETX_MASK.testBit fm.frameType.value = true := by
  unfold PacketOut.skipsFrame at hskip
  simp only [Bool.or_eq_false_iff, decide_eq_false_iff_not] at hskip
  rcases h fm hfm with hlen | htransient | hbit
  · exact absurd hlen hskip.1.1
  · exact absurd (htransient.symm.trans hskip.1.2) (by decide)
  · exact hbit

theorem mem_buildFrameMeta {transientAckBytes : Nat} {metas : List (FrameType × Nat)} :
    ∀ {offset : Nat} {fm : FrameMetaInfo}, fm ∈ buildFrameMeta transientAckBytes offset metas →
      ∃ g ∈ metas, fm.frameType = g.1 ∧ fm.length = g.2
        ∧ fm.frameFlags = defaultFlags g.1 transientAckBytes := by
  induction metas with
  | nil => exact fun h => absurd h List.not_mem_nil
  | cons g metas ih =>
    intro offset fm hfm
    rcases List.mem_cons.mp hfm with rfl | hfm
    · exact ⟨g, List.mem_cons_self, rfl, rfl, rfl⟩
    · obtain ⟨g', hg', hrest⟩ := ih hfm
      exact ⟨g', List.mem_cons_of_mem g hg', hrest⟩

theorem testBit_retxMask {frameType : FrameType}
    (h : frameType = .stream ∨ frameType = .handshakeDone ∨ frameType = .sessionToken) :
    UTP_FRAME_RETX_MASK.testBit frameType.value = true := by
  rcases h with rfl | rfl | rfl
  · decide
  · decide
  · decide

theorem framesWorth_of_types {env : SendEnv} {packet : PacketOut}
    (hkept : KeptOf env req packet)
    (h : ∀ g ∈ req.frameMetas, UTP_FRAME_RETX_MASK.testBit g.1.value = true
      ∨ g = (.ack, req.transientAckBytes)) : packet.FramesWorth := by
  intro fm hfm
  rw [hkept.frameMeta] at hfm
  obtain ⟨g, hg, htype, hlen, hflags⟩ := mem_buildFrameMeta hfm
  rcases h g hg with hbit | rfl
  · refine .inr (.inr ?_)
    rw [htype]
    exact hbit
  · by_cases hzero : req.transientAckBytes = 0
    · left
      rw [hlen]
      exact hzero
    · refine .inr (.inl ?_)
      rw [hflags]
      unfold defaultFlags
      rw [if_pos ⟨rfl, Nat.pos_of_ne_zero hzero⟩]

theorem stripTransientAckPayload_frameMeta {packet packet' : PacketOut}
    (h : stripTransientAckPayload packet = some packet') :
    packet'.frameMeta = packet.frameMeta
      ∨ ∃ offset len, packet'.frameMeta = shiftFrameMeta offset len packet.frameMeta := by
  unfold stripTransientAckPayload rewritePayloadLength at h
  simp only at h
  split_ifs at h
  · cases h
    exact .inl rfl
  · cases h
    exact .inl rfl
  all_goals simp only [Option.some.injEq] at h
  all_goals
    subst h
    exact .inr ⟨_, _, rfl⟩

theorem PacketOut.FramesWorth.edit {gcm : Gcm} {packet packet' : PacketOut}
    (h : packet.FramesWorth) (hedit : EditOf gcm packet packet') : packet'.FramesWorth := by
  obtain ⟨renv, aesCtx, rfl⟩ := hedit
  obtain ⟨base, hbase, hresealed⟩ := prepareLostPacket_resealed gcm renv aesCtx packet
  have hbase' : base.FramesWorth := by
    rcases hbase with rfl | hstrip
    · exact h
    · rcases stripTransientAckPayload_frameMeta hstrip with hsame | ⟨offset, len, hshift⟩
      · intro fm hfm
        rw [hsame] at hfm
        exact h fm hfm
      · intro fm hfm
        rw [hshift] at hfm
        obtain ⟨g, hg, rfl⟩ := List.mem_map.mp hfm
        have hworth := h g (List.mem_filter.mp hg).1
        split
        · exact hworth
        · exact hworth
  intro fm hfm
  rw [hresealed.frameMeta] at hfm
  exact hbase' fm hfm

-- ==== framed

/-- Nothing is scheduled, and what is made from packets whose frames are worth
sending is such a packet. -/
def retxRules : Rules where
  mayKeep s q := (∀ p ∈ s.lostPackets, p.packet.FramesWorth) → q.packet.FramesWorth
  maySchedule _ := False

theorem retxRules_keeps (gcm : Gcm) (env : SendCtlEnv) : retxRules.Keeps gcm env := by
  intro s req streamId streamOffset ptr wire packet hissued hsent hlost
  have hkept := (keptOf_sent hsent).1
  show packet.FramesWorth
  refine framesWorth_of_types hkept ?_
  cases hissued with
  | control req => exact fun g hg => absurd hg List.not_mem_nil
  | stream frame trailer _ _ =>
    intro g hg
    left
    rcases List.mem_cons.mp hg with rfl | hg
    · exact testBit_retxMask (.inl rfl)
    · split at hg
      · exact absurd hg List.not_mem_nil
      · rw [List.mem_singleton.mp hg]
        exact testBit_retxMask (.inr (.inl rfl))
  | ackStream frame ack trailer _ _ =>
    intro g hg
    rcases List.mem_append.mp hg with hg | hg
    · rcases List.mem_cons.mp hg with rfl | hg
      · exact .inr rfl
      · rw [List.mem_singleton.mp hg]
        exact .inl (testBit_retxMask (.inl rfl))
    · left
      split at hg
      · exact absurd hg List.not_mem_nil
      · rw [List.mem_singleton.mp hg]
        exact testBit_retxMask (.inr (.inl rfl))
  | early frame token _ _ =>
    intro g hg
    left
    rcases List.mem_cons.mp hg with rfl | hg
    · exact testBit_retxMask (.inr (.inr rfl))
    · rw [List.mem_singleton.mp hg]
      exact testBit_retxMask (.inl rfl)
  | ack ack => exact fun g hg => absurd hg List.not_mem_nil
  | flush q st hq hbatch _ =>
    intro g hg
    obtain ⟨fm, hfm, hskip, htype, -⟩ := hbatch.frames g hg
    left
    rw [← htype]
    exact (hlost q hq).testBit hfm hskip
  | probe packetSize => exact fun g hg => absurd hg List.not_mem_nil

theorem retxRules_retires (gcm : Gcm) (env : SendCtlEnv) : retxRules.Retires gcm env :=
  fun _ _ _ _ => trivial

/-- What is known of the packets. -/
structure Queues.Framed (s : Queues) : Prop where
  distinct : s.Distinct
  scheduled : s.scheduledPackets = []
  unacked : ∀ q ∈ s.unackedPackets, q.packet.FramesWorth
  lost : ∀ q ∈ s.lostPackets, q.packet.FramesWorth

theorem Queues.framed_move {gcm : Gcm} {s : Queues} {m : QueueMove} (h : s.Framed)
    (hm : s.Allowed gcm retxRules m) : (s.move m).Framed := by
  have hdistinct := distinct_move h.distinct hm
  have hnone : ∀ q, q ∉ s.scheduledPackets := by
    intro q hq
    rw [h.scheduled] at hq
    exact absurd hq List.not_mem_nil
  refine ⟨hdistinct, ?_, ?_, ?_⟩
  · cases m with
    | schedule q => exact hm.2.elim
    | flush nowUs q => exact absurd hm (hnone q)
    | drop q => exact absurd hm (hnone q)
    | _ => exact h.scheduled
  · cases m with
    | keep q => exact List.forall_mem_append.mpr ⟨h.unacked,
      List.forall_mem_singleton.mpr (hm.2.2 h.lost)⟩
    | flush nowUs q => exact absurd hm (hnone q)
    | resend nowUs q =>
      exact List.forall_mem_append.mpr ⟨h.unacked, List.forall_mem_singleton.mpr (h.lost q hm)⟩
    | ack q => exact fun a ha => h.unacked a (mem_of_mem_removeKey ha)
    | loseProbe q => exact fun a ha => h.unacked a (mem_of_mem_removeKey ha)
    | lose q => exact fun a ha => h.unacked a (mem_of_mem_removeKey ha)
    | _ => exact h.unacked
  · cases m with
    | lose q =>
      exact List.forall_mem_append.mpr
        ⟨h.lost, List.forall_mem_singleton.mpr (h.unacked q hm.1)⟩
    | edit q packet =>
      intro a ha
      rcases mem_of_mem_replaceKey ha with rfl | ha
      · exact (h.lost q hm.1).edit hm.2
      · exact h.lost a ha
    | resend nowUs q => exact fun a ha => h.lost a (mem_of_mem_removeKey ha)
    | retire q => exact fun a ha => h.lost a (mem_of_mem_removeKey ha)
    | _ => exact h.lost

theorem Queues.Framed.reaches {gcm : Gcm} {s t : Queues} (h : s.Framed)
    (hreach : Reaches Queues.move (Queues.Allowed gcm retxRules) s t) : t.Framed :=
  hreach.inv (fun _ _ hf hm => Queues.framed_move hf hm) h

-- ==== armed

namespace SendControl

variable {gcm : Gcm} {env : SendCtlEnv}

/-- The retransmission timer runs when it has to, and not for nothing. -/
structure Armed (s : SendControl) : Prop where
  runs : ∀ q ∈ s.unackedPackets, q.retx = true → s.retransTimer = true
  needed : s.retransTimer = true → s.unackedPackets ≠ []

theorem retransAlarm_retransTimer (s : SendControl) (now : Nat) :
    (s.retransAlarm now).retransTimer = !s.unackedPackets.isEmpty := by
  unfold retransAlarm
  split
  · next hempty => rw [hempty]; rfl
  · next hempty => rw [Bool.not_eq_true _ |>.mp hempty]; rfl

@[simp] theorem retransAlarm_scheduleTimer (s : SendControl) (now : Nat) :
    (s.retransAlarm now).scheduleTimer = s.scheduleTimer := by
  unfold retransAlarm
  split
  · rfl
  · rfl

@[simp] theorem retransAlarm_wantWrite (s : SendControl) (now : Nat) :
    (s.retransAlarm now).wantWrite = s.wantWrite := by
  unfold retransAlarm
  split
  · rfl
  · rfl

theorem retransAlarm_of_mem {s : SendControl} {q : QueuedPacket} (hq : q ∈ s.unackedPackets)
    (now : Nat) : (s.retransAlarm now).retransTimer = true := by
  rw [retransAlarm_retransTimer, List.isEmpty_eq_false_iff_exists_mem.mpr ⟨q, hq⟩]
  rfl

theorem armed_retransAlarm (s : SendControl) (now : Nat) : (s.retransAlarm now).Armed := by
  constructor
  · intro q hq _
    rw [retransAlarm_toQueues] at hq
    exact retransAlarm_of_mem hq now
  · intro htimer
    rw [retransAlarm_retransTimer] at htimer
    rw [retransAlarm_toQueues]
    simpa using htimer

/-- A send, or a packet that goes out again: no event is taken back. -/
structure Advances (s t : SendControl) : Prop where
  timer : s.retransTimer = true → t.retransTimer = true
  scheduleTimer : s.scheduleTimer = true → t.scheduleTimer = true
  wantWrite : s.wantWrite = true → t.wantWrite = true
  armed : s.Armed → t.Armed

theorem Advances.refl (s : SendControl) : Advances s s := ⟨id, id, id, id⟩

theorem Advances.trans {s t u : SendControl} (h : Advances s t) (h' : Advances t u) :
    Advances s u :=
  ⟨fun ht => h'.timer (h.timer ht), fun ht => h'.scheduleTimer (h.scheduleTimer ht),
    fun ht => h'.wantWrite (h.wantWrite ht), fun ha => h'.armed (h.armed ha)⟩

theorem Advances.wakes {s t : SendControl} (h : Advances s t) (hs : s.Wakes) : t.Wakes := by
  rcases hs with hs | hs | hs
  · exact .inl (h.timer hs)
  · exact .inr (.inl (h.scheduleTimer hs))
  · exact .inr (.inr (h.wantWrite hs))

theorem Advances.of_eq {s t : SendControl} (hunacked : t.unackedPackets = s.unackedPackets)
    (htimer : t.retransTimer = s.retransTimer) (hschedule : t.scheduleTimer = s.scheduleTimer)
    (hwrite : t.wantWrite = s.wantWrite) : Advances s t := by
  refine ⟨fun h => htimer.trans h, fun h => hschedule.trans h, fun h => hwrite.trans h, ?_⟩
  intro h
  constructor
  · rw [hunacked, htimer]
    exact h.runs
  · rw [hunacked, htimer]
    exact h.needed

theorem takeNumber_advances (s : SendControl) (packetNumber : UInt64) :
    Advances s (s.takeNumber packetNumber) := by
  unfold takeNumber
  split
  · exact .refl s
  · exact .of_eq rfl rfl rfl rfl

theorem packetSent_unackedPackets (s : SendControl) (q : QueuedPacket) :
    (s.packetSent q).unackedPackets = s.unackedPackets ++ [q] := by
  rw [packetSent_toQueues]
  rfl

theorem packetSent_retransTimer (s : SendControl) {q : QueuedPacket} (hretx : q.retx = true) :
    (s.packetSent q).retransTimer = true := by
  unfold packetSent
  simp only [hretx, if_true]
  exact retransAlarm_of_mem (s := { s with toQueues := s.toQueues.keep q })
    (List.mem_append_right _ List.mem_cons_self) _

theorem packetSent_advances (s : SendControl) (q : QueuedPacket) :
    Advances s (s.packetSent q) := by
  by_cases hretx : q.retx = true
  · have htimer := s.packetSent_retransTimer hretx
    refine ⟨fun _ => htimer, ?_, ?_, ?_⟩
    · unfold packetSent
      simp only [hretx, if_true, retransAlarm_scheduleTimer]
      exact id
    · unfold packetSent
      simp only [hretx, if_true, retransAlarm_wantWrite]
      exact id
    · intro _
      refine ⟨fun _ _ _ => htimer, fun _ => ?_⟩
      rw [packetSent_unackedPackets]
      exact List.append_ne_nil_of_right_ne_nil _ (List.cons_ne_nil _ _)
  · have hsame : s.packetSent q = { s with toQueues := s.toQueues.keep q } := by
      unfold packetSent
      simp only [hretx, Bool.false_eq_true, if_false]
    rw [hsame]
    refine ⟨id, id, id, ?_⟩
    intro h
    constructor
    · intro a ha haretx
      rcases List.mem_append.mp ha with ha | ha
      · exact h.runs a ha haretx
      · rw [List.mem_singleton.mp ha] at haretx
        exact absurd haretx hretx
    · intro _
      exact List.append_ne_nil_of_right_ne_nil _ (List.cons_ne_nil _ _)

variable (gcm env) in
theorem sendPacket_advances (s : SendControl) (req : SendRequest) (streamId streamOffset : Nat) :
    Advances s (s.sendPacket gcm env req streamId streamOffset).2 := by
  have htaken := s.takeNumber_advances (numberAfterSend (s.sendEnv env) req)
  unfold sendPacket
  simp only
  split
  · exact htaken
  · next sent _ =>
      have hout : Advances s { s.takeNumber (numberAfterSend (s.sendEnv env) req) with
          bytesOut := (s.takeNumber (numberAfterSend (s.sendEnv env) req)).bytesOut
            + sent.wire.length } :=
        htaken.trans (.of_eq rfl rfl rfl rfl)
      split
      · exact hout
      · exact hout.trans (packetSent_advances _ _)

theorem sendPacket_retransTimer {s : SendControl} {req : SendRequest}
    {streamId streamOffset : Nat} (htrack : req.shouldTrackPacket (s.sendEnv env) = true)
    (hretx : (req.frameTypeBits &&& UTP_FRAME_RETX_MASK) ≠ 0)
    (hok : (s.sendPacket gcm env req streamId streamOffset).1.ok = true) :
    (s.sendPacket gcm env req streamId streamOffset).2.retransTimer = true := by
  unfold sendPacket at hok ⊢
  cases hsend : Utp.sendPacket gcm (s.sendEnv env) req with
  | error st =>
    simp only [hsend] at hok
    exact absurd hok (by rw [sendPacket_error hsend]; exact Bool.false_ne_true)
  | ok sent =>
    obtain ⟨built, hby⟩ := sendPacket_ok hsend
    have hkept := hby.kept
    rw [htrack] at hkept
    obtain ⟨wire, kept⟩ := sent
    cases hkept
    have htypes := (keptOf_sent hsend).1.frameTypes
    simp only
    apply packetSent_retransTimer
    show decide (_ &&& UTP_FRAME_RETX_MASK ≠ 0) = true
    apply decide_eq_true
    show (releaseSealedCopy built).frameTypes &&& UTP_FRAME_RETX_MASK ≠ 0
    rw [htypes]
    exact hretx

variable (gcm env) in
theorem sendControls_advances (s : SendControl) (reqs : List ControlRequest) :
    Advances s (s.sendControls gcm env reqs) := by
  unfold sendControls
  induction reqs generalizing s with
  | nil => exact .refl s
  | cons req reqs ih => exact (s.sendPacket_advances gcm env req.toRequest 0 0).trans (ih _)

variable (gcm env) in
theorem sendStreamPacket_advances (s : SendControl) (frame : FrameStream) :
    Advances s (s.sendStreamPacket gcm env frame).2 := by
  unfold sendStreamPacket
  simp only
  split
  · exact s.sendPacket_advances gcm env ..
  · split
    · exact s.sendPacket_advances gcm env ..
    · split
      · exact s.sendPacket_advances gcm env ..
      · exact (s.sendPacket_advances gcm env _ _ _).trans (sendPacket_advances gcm env ..)

variable (gcm env) in
theorem sendStreamFrame_advances (s : SendControl) (frame : FrameStream) :
    Advances s (s.sendStreamFrame gcm env frame).2 := by
  unfold sendStreamFrame
  split
  · exact .refl s
  · split
    · exact .refl s
    · split
      · exact .refl s
      · have hbefore : Advances s (s.sendControls gcm env (env.streamAnswer frame).before) :=
          s.sendControls_advances gcm env _
        simp only
        split
        · exact hbefore
        · split
          · exact hbefore.trans (sendPacket_advances gcm env ..)
          · exact hbefore.trans (sendStreamPacket_advances gcm env ..)

end SendControl

-- ==== stream packets

theorem and_ne_zero_of_testBit {a b i : Nat} (ha : a.testBit i = true) (hb : b.testBit i = true) :
    a &&& b ≠ 0 := by
  intro hzero
  have hbit : (a &&& b).testBit i = true := by rw [Nat.testBit_and, ha, hb]; rfl
  rw [hzero, Nat.zero_testBit] at hbit
  cases hbit

/-- The requests that carry a STREAM frame in a connection. -/
def StreamRequest (frame : FrameStream) (req : SendRequest) : Prop :=
  ∃ trailer, req = streamFrameRequest frame trailer
    ∨ ∃ ack, req = ackStreamFrameRequest frame ack trailer

theorem StreamRequest.testBit {frame : FrameStream}
    (h : StreamRequest frame req) :
    req.frameTypeBits.testBit FrameType.stream.value = true := by
  obtain ⟨trailer, rfl | ⟨ack, rfl⟩⟩ := h
  · cases trailer with
    | nil =>
      have hbits : (streamFrameRequest frame []).frameTypeBits = FrameType.stream.bit := rfl
      rw [hbits]
      decide
    | cons b trailer =>
      have hbits : (streamFrameRequest frame (b :: trailer)).frameTypeBits
          = FrameType.stream.bit ||| FrameType.handshakeDone.bit ||| FrameType.handshakeDelay.bit :=
        rfl
      rw [hbits]
      decide
  · cases trailer with
    | nil =>
      have hbits : (ackStreamFrameRequest frame ack []).frameTypeBits
          = FrameType.ack.bit ||| FrameType.stream.bit := rfl
      rw [hbits]
      decide
    | cons b trailer =>
      have hbits : (ackStreamFrameRequest frame ack (b :: trailer)).frameTypeBits
          = FrameType.ack.bit ||| FrameType.stream.bit
            ||| (FrameType.handshakeDone.bit ||| FrameType.handshakeDelay.bit) := by
        apply if_pos
        show FrameType.ack.bit ||| FrameType.stream.bit
          ||| (FrameType.handshakeDone.bit ||| FrameType.handshakeDelay.bit) ≠ 0
        decide
      rw [hbits]
      decide

theorem StreamRequest.isAckOnlyPacket {frame : FrameStream}
    (h : StreamRequest frame req) : req.isAckOnlyPacket = false := by
  unfold SendRequest.isAckOnlyPacket
  apply decide_eq_false
  intro hack
  have hbit := h.testBit
  rw [hack] at hbit
  exact absurd hbit (by decide)

namespace SendControl

variable {gcm : Gcm} {env : SendCtlEnv}
variable {s : SendControl} {frame : FrameStream}

/-- What a send of a STREAM frame leaves behind. -/
structure StreamSent (env : SendCtlEnv) (frame : FrameStream) (t : SendControl) : Prop where
  kept : ∃ (s : SendControl) (req : SendRequest) (packet : PacketOut), StreamRequest frame req
    ∧ KeptOf (s.sendEnv env) req packet
    ∧ t.unackedPackets = s.unackedPackets
        ++ [queuedPacket env s.nextPtr packet frame.streamId frame.streamOffset]
  timer : t.retransTimer = true

theorem streamSent_of_request {req : SendRequest}
    (hreq : StreamRequest frame req) (hstate : env.state = .connected)
    (hok : (s.sendPacket gcm env req frame.streamId frame.streamOffset).1.ok = true) :
    StreamSent env frame (s.sendPacket gcm env req frame.streamId frame.streamOffset).2 := by
  have htrack := s.shouldTrackPacket_connected hstate hreq.isAckOnlyPacket
  obtain ⟨packet, hkept, hqueues⟩ := sendPacket_tracked htrack hok
  refine ⟨⟨s, req, packet, hreq, hkept, ?_⟩, ?_⟩
  · rw [hqueues]
    rfl
  · exact sendPacket_retransTimer htrack
      (and_ne_zero_of_testBit hreq.testBit (testBit_retxMask (.inl rfl))) hok

/-- `sendStreamFrame` in a connection. -/
theorem sendStreamFrame_connected (s : SendControl) (frame : FrameStream)
    (hstate : env.state = .connected) :
    s.sendStreamFrame gcm env frame
      = if 65535 < frame.streamData.length then
          (.error .overflow "stream data exceeds UINT16_MAX", s)
        else
          match (env.streamAnswer frame).refused with
          | some st => (st.val, s.sendControls gcm env (env.streamAnswer frame).before)
          | none => (s.sendControls gcm env (env.streamAnswer frame).before).sendStreamPacket gcm
              env frame := by
  unfold sendStreamFrame
  rw [if_neg (by simp [hstate]), if_neg (by simp [hstate])]
  cases (env.streamAnswer frame).refused with
  | some st => rfl
  | none => simp only [hstate]

theorem sendStreamPacket_sent
    (hstate : env.state = .connected)
    (hok : (s.sendStreamPacket gcm env frame).1.ok = true) :
    StreamSent env frame (s.sendStreamPacket gcm env frame).2 := by
  unfold sendStreamPacket at hok ⊢
  simp only at hok ⊢
  split at hok
  · exact streamSent_of_request ⟨_, .inl rfl⟩ hstate hok
  · next ack _ =>
      split at hok
      · next hfits =>
          rw [if_pos hfits]
          exact streamSent_of_request ⟨_, .inr ⟨ack, rfl⟩⟩ hstate hok
      · next hfits =>
          rw [if_neg hfits]
          split at hok
          · next hack =>
              rw [Bool.and_eq_true, hok] at hack
              exact absurd hack.1 (by decide)
          · next hack =>
              rw [if_neg hack]
              exact streamSent_of_request ⟨_, .inl rfl⟩ hstate hok

/-- In a connection a STREAM frame that is sent is kept, and the timer
runs. -/
theorem sendStreamFrame_sent
    (hstate : env.state = .connected)
    (hok : (s.sendStreamFrame gcm env frame).1.ok = true) :
    StreamSent env frame (s.sendStreamFrame gcm env frame).2 := by
  rw [sendStreamFrame_connected s frame hstate] at hok ⊢
  split at hok
  · exact absurd hok (by simp [Status.ok, Status.error])
  · next hlen =>
      rw [if_neg hlen]
      split at hok
      · next st _ => exact absurd hok (by rw [st.property]; decide)
      · exact sendStreamPacket_sent hstate hok

-- ==== split

/-- What `flushFramePacket` sends is worth sending again. -/
theorem flushRequest_retx {packet : PacketOut} {st : SplitState SendControl}
    (hworth : packet.FramesWorth) (hbatch : st.BatchOf packet) (hpayload : st.framePayload ≠ []) :
    (flushRequest packet st).frameTypeBits &&& UTP_FRAME_RETX_MASK ≠ 0 := by
  obtain ⟨g, hg⟩ := List.exists_mem_of_ne_nil _ (hbatch.nonempty hpayload)
  obtain ⟨fm, hfm, hskip, htype, -⟩ := hbatch.frames g hg
  have hbit := hbatch.bits g hg
  have hmask : UTP_FRAME_RETX_MASK.testBit g.1.value = true := by
    rw [← htype]
    exact hworth.testBit hfm hskip
  have hbits : (flushRequest packet st).frameTypeBits = st.frameTypeBits := by
    apply if_pos
    intro hzero
    have hzero' : st.frameTypeBits = 0 := hzero
    rw [hzero', Nat.zero_testBit] at hbit
    cases hbit
  rw [hbits]
  exact and_ne_zero_of_testBit hbit hmask

theorem not_isAckOnlyPacket_of_retx {req : SendRequest}
    (h : req.frameTypeBits &&& UTP_FRAME_RETX_MASK ≠ 0) : req.isAckOnlyPacket = false := by
  unfold SendRequest.isAckOnlyPacket
  apply decide_eq_false
  intro hack
  rw [hack] at h
  exact h (by decide)

variable (gcm) in
theorem splitWalk_advances (hstate : env.state = .connected) (s : SendControl) (senv : SplitEnv)
    {packet : PacketOut} (hworth : packet.FramesWorth) :
    Advances s (Utp.retransmitSplitStreamPacket (splitCalls gcm env) senv packet s).2
      ∧ ((Utp.retransmitSplitStreamPacket (splitCalls gcm env) senv packet s).1.ok = true →
          (Utp.retransmitSplitStreamPacket (splitCalls gcm env) senv packet s).2.retransTimer
            = true) := by
  have hrule : SplitRule (splitCalls gcm env) senv packet fun _ sentAny t =>
      Advances s t ∧ (sentAny = true → t.retransTimer = true) := by
    constructor
    · intro done sentAny t frame ht _
      have hsent := t.sendStreamFrame_advances gcm env frame
      split
      · next hok =>
          exact ⟨ht.1.trans hsent, fun _ => (sendStreamFrame_sent hstate hok).timer⟩
      · exact ⟨ht.1.trans hsent, fun hany => hsent.timer (ht.2 hany)⟩
    · intro done st ht hbatch hpayload
      have hsent := st.conn.sendPacket_advances gcm env (flushRequest packet st) 0 0
      have hretx := flushRequest_retx hworth hbatch hpayload
      split
      · next hok =>
          refine ⟨ht.1.trans hsent, fun _ => ?_⟩
          exact sendPacket_retransTimer
            (shouldTrackPacket_connected st.conn hstate (not_isAckOnlyPacket_of_retx hretx))
            hretx hok
      · exact ⟨ht.1.trans hsent, fun hany => hsent.timer (ht.2 hany)⟩
  obtain ⟨done, sentAny, hholds, hdone⟩ := retransmitSplitStreamPacket_rule hrule s
    ⟨.refl s, fun h => absurd h Bool.false_ne_true⟩
  exact ⟨hholds.1, fun hok => hholds.2 (hdone hok).1⟩

variable (gcm) in
theorem retransmitSplitStreamPacket_advances (hstate : env.state = .connected)
    (s : SendControl) {q : QueuedPacket} (hworth : q.packet.FramesWorth) :
    Advances s (s.retransmitSplitStreamPacket gcm env q).2
      ∧ ((s.retransmitSplitStreamPacket gcm env q).1.ok = true →
          (s.retransmitSplitStreamPacket gcm env q).2.retransTimer = true) := by
  have hwalk := s.splitWalk_advances gcm hstate (s.splitEnv env) hworth
  unfold retransmitSplitStreamPacket
  simp only
  split
  · next hok => exact ⟨hwalk.1.trans (.of_eq rfl rfl rfl rfl), fun _ => hwalk.2 hok⟩
  · next hok => exact ⟨hwalk.1, fun h => absurd h hok⟩

-- ==== batch

variable (gcm env) in
theorem prepareLost_advances (s : SendControl) (q : QueuedPacket) :
    Advances s (s.prepareLost gcm env q).1 := by
  have hedit : Advances s { s with
      toQueues := s.toQueues.edit q (s.prepareLost gcm env q).2.1.packet } :=
    .of_eq rfl rfl rfl rfl
  exact hedit.trans (takeNumber_advances _ _)

variable (gcm env) in
theorem prepareLost_framesWorth {q : QueuedPacket}
    (h : q.packet.FramesWorth) : (s.prepareLost gcm env q).2.1.packet.FramesWorth :=
  h.edit ⟨_, _, rfl⟩

variable (gcm) in
theorem prepareBatch_advances (hstate : env.state = .connected) (batchCap : Nat) :
    ∀ (queue : List QueuedPacket) (s : SendControl), (∀ q ∈ queue, q.packet.FramesWorth) →
      Advances s (s.prepareBatch gcm env batchCap queue).state
        ∧ ((s.prepareBatch gcm env batchCap queue).splitSent = true →
            (s.prepareBatch gcm env batchCap queue).state.retransTimer = true) := by
  induction batchCap with
  | zero => exact fun queue s _ => ⟨.refl s, fun h => absurd h Bool.false_ne_true⟩
  | succ batchCap ih =>
    intro queue s hworth
    cases queue with
    | nil => exact ⟨.refl s, fun h => absurd h Bool.false_ne_true⟩
    | cons q rest =>
      have hprep := s.prepareLost_advances gcm env q
      have hq := prepareLost_framesWorth gcm env (s := s)
        (hworth q List.mem_cons_self)
      unfold prepareBatch
      generalize s.prepareLost gcm env q = p at hprep hq ⊢
      obtain ⟨s₁, q', attempt⟩ := p
      simp only at hprep hq
      cases attempt with
      | blocked st => exact ⟨hprep, fun h => absurd h Bool.false_ne_true⟩
      | split =>
        have hsplit := s₁.retransmitSplitStreamPacket_advances gcm hstate hq
        exact ⟨hprep.trans hsplit.1, hsplit.2⟩
      | ready wire =>
        have hrest := ih rest s₁ fun a ha => hworth a (List.mem_cons_of_mem q ha)
        exact ⟨hprep.trans hrest.1, hrest.2⟩

theorem foldl_resend_timers (nowUs : Nat) (l : List QueuedPacket) (s : SendControl) :
    (l.foldl (resendPacket nowUs) s).scheduleTimer = s.scheduleTimer
      ∧ (l.foldl (resendPacket nowUs) s).wantWrite = s.wantWrite := by
  induction l generalizing s with
  | nil => exact ⟨rfl, rfl⟩
  | cons q l ih => exact ih (s.resendPacket nowUs q)

variable (env) in
theorem sendBatch_advances (nowUs : Nat) (b : Batch) :
    Advances b.state (sendBatch env nowUs b)
      ∧ (taken env b.ready ≠ [] → (sendBatch env nowUs b).retransTimer = true) := by
  unfold sendBatch
  simp only
  split
  · next hempty => exact ⟨.refl _, fun h => absurd (List.isEmpty_iff.mp hempty) h⟩
  · next hsent =>
      obtain ⟨q, hq⟩ := List.isEmpty_eq_false_iff_exists_mem.mp (Bool.not_eq_true _ |>.mp hsent)
      have htimer : (((taken env b.ready).foldl (resendPacket nowUs) b.state).retransAlarm
          nowUs).retransTimer = true := by
        refine retransAlarm_of_mem (q := Queues.resentPacket nowUs q) ?_ nowUs
        rw [(foldl_resend nowUs _ b.state).1]
        exact List.mem_append_right _ (List.mem_map_of_mem hq)
      have hrest := foldl_resend_timers nowUs (taken env b.ready) b.state
      refine ⟨⟨fun _ => htimer, ?_, ?_, fun _ => armed_retransAlarm _ _⟩, fun _ => htimer⟩
      · rw [retransAlarm_scheduleTimer, hrest.1]
        exact id
      · rw [retransAlarm_wantWrite, hrest.2]
        exact id

variable (gcm) in
theorem retransmitLostBatch_advances (hstate : env.state = .connected)
    (hworth : ∀ q ∈ s.lostPackets, q.packet.FramesWorth) (nowUs maxPackets : Nat) :
    Advances s (s.retransmitLostBatch gcm env nowUs maxPackets).state
      ∧ ((s.retransmitLostBatch gcm env nowUs maxPackets).sentAny = true →
          (s.retransmitLostBatch gcm env nowUs maxPackets).state.retransTimer = true) := by
  unfold retransmitLostBatch
  split
  · exact ⟨.refl s, fun h => absurd h Bool.false_ne_true⟩
  · have hprep := prepareBatch_advances gcm hstate (min maxPackets kSendBatchCap)
      s.lostPackets s hworth
    have hsend := sendBatch_advances env nowUs
      (s.prepareBatch gcm env (min maxPackets kSendBatchCap) s.lostPackets)
    refine ⟨hprep.1.trans hsend.1, ?_⟩
    intro hany
    rcases Bool.or_eq_true_iff.mp hany with hsplit | hsent
    · exact hsend.1.timer (hprep.2 hsplit)
    · refine hsend.2 ?_
      intro hnil
      rw [hnil] at hsent
      exact absurd hsent (by decide)

-- ==== onCanWrite

variable (gcm) in
/-- The rounds of `onCanWrite`: once something went out, the timer runs. -/
theorem resendLoop_advances (hstate : env.state = .connected) (fuel : Nat) :
    ∀ (i : Nat) (r : BatchResult) (budget : Nat), r.state.toQueues.Framed →
      (r.sentAny = true → r.state.retransTimer = true) →
      (resendLoop gcm env fuel i r budget).state.toQueues.Framed
        ∧ Advances r.state (resendLoop gcm env fuel i r budget).state
        ∧ ((resendLoop gcm env fuel i r budget).sentAny = true →
            (resendLoop gcm env fuel i r budget).state.retransTimer = true) := by
  induction fuel with
  | zero => exact fun i r budget hframed hany => ⟨hframed, .refl _, hany⟩
  | succ fuel ih =>
    intro i r budget hframed hany
    have hbatch := retransmitLostBatch_advances gcm hstate hframed.lost (env.nowUs i)
      (budget - r.sent)
    have hframed' := hframed.reaches (retransmitLostBatch_reaches (retxRules_keeps gcm env)
      (retxRules_retires gcm env) hframed.distinct (env.nowUs i) (budget - r.sent))
    have hany' : (r.sentAny || (r.state.retransmitLostBatch gcm env (env.nowUs i)
        (budget - r.sent)).sentAny) = true →
        (r.state.retransmitLostBatch gcm env (env.nowUs i)
          (budget - r.sent)).state.retransTimer = true := by
      intro h
      rcases Bool.or_eq_true_iff.mp h with h | h
      · exact hbatch.1.timer (hany h)
      · exact hbatch.2 h
    unfold resendLoop
    split
    · simp only
      split
      · exact ⟨hframed', hbatch.1, hany'⟩
      · obtain ⟨hf, hadv, hsent⟩ := ih (i + 1)
          { state := (r.state.retransmitLostBatch gcm env (env.nowUs i) (budget - r.sent)).state
            sent := r.sent
              + (r.state.retransmitLostBatch gcm env (env.nowUs i) (budget - r.sent)).sent
            sentAny := r.sentAny
              || (r.state.retransmitLostBatch gcm env (env.nowUs i) (budget - r.sent)).sentAny }
          budget hframed' hany'
        exact ⟨hf, hbatch.1.trans hadv, hsent⟩
    · exact ⟨hframed, .refl _, hany⟩

theorem lostPackets_sendPacket (s : SendControl) (req : SendRequest)
    (streamId streamOffset : Nat) :
    (s.sendPacket gcm env req streamId streamOffset).2.lostPackets = s.lostPackets := by
  rcases s.sendPacket_cases req streamId streamOffset with h | h | ⟨_, _, -, h⟩
  · rw [h]
  · rw [h]
    rfl
  · rw [h]
    rfl

variable (gcm env) in
theorem maybeSendMtuProbe_advances (s : SendControl) (nowUs i : Nat) :
    Advances s (s.maybeSendMtuProbe gcm env nowUs i)
      ∧ (s.maybeSendMtuProbe gcm env nowUs i).lostPackets = s.lostPackets := by
  have hprobe : ∀ (t : SendControl) (nowMs : Nat),
      Advances t (t.sendMtuProbe gcm env nowMs)
        ∧ (t.sendMtuProbe gcm env nowMs).lostPackets = t.lostPackets := by
    intro t nowMs
    unfold sendMtuProbe
    simp only
    split
    · exact ⟨.refl t, rfl⟩
    · have hsent := t.sendPacket_advances gcm env (probeRequest
        (MtuDiscovery.packetSizeFromMtu t.mtu.nextProbeMtu env.peerIpv6)) 0 0
      split
      · exact ⟨hsent.trans (.of_eq rfl rfl rfl rfl), lostPackets_sendPacket _ _ _ _⟩
      · exact ⟨hsent, lostPackets_sendPacket _ _ _ _⟩
  unfold maybeSendMtuProbe
  split
  · exact ⟨.refl s, rfl⟩
  · have htimeout : Advances s { s with mtu := s.mtu.onProbeTimeout (nowUs / 1000) } :=
      .of_eq rfl rfl rfl rfl
    simp only
    split
    · exact ⟨htimeout.trans (hprobe _ _).1, (hprobe _ _).2⟩
    · exact ⟨htimeout, rfl⟩

theorem flushScheduledPackets_nil (h : s.scheduledPackets = [])
    (nowUs maxPackets : Nat) : s.flushScheduledPackets env nowUs maxPackets = (s, false) := by
  have hnone : s.flushable env maxPackets = [] := by
    unfold flushable
    rw [h, List.take_nil]
    exact List.take_nil
  unfold flushScheduledPackets
  split
  · rfl
  · rw [hnone]
    rfl

variable (gcm) in
/-- The middle of `onCanWrite` leaves no lost packet behind without an
event. -/
theorem resendLost_wakes (hstate : env.state = .connected)
    (hframed : s.toQueues.Framed) :
    Advances s (s.resendLost gcm env false)
      ∧ ((s.resendLost gcm env false).lostPackets ≠ [] →
          (s.resendLost gcm env false).Wakes) := by
  obtain ⟨-, hadv, hany⟩ := resendLoop_advances gcm hstate (s.lostPackets.length + 1) 0
    { state := s, sent := 0, sentAny := false } s.sentBudget hframed
    fun h => absurd h Bool.false_ne_true
  have hlimit : Advances s { (s.resendRounds gcm env false).state with
      nextLimit := (s.resendRounds gcm env false).state.nextLimit
        - (s.resendRounds gcm env false).sent } :=
    hadv.trans (.of_eq rfl rfl rfl rfl)
  unfold resendLost
  simp only
  split
  · exact ⟨hlimit.trans ⟨id, fun _ => rfl, id, fun h => ⟨h.runs, h.needed⟩⟩,
      fun _ => .inr (.inl rfl)⟩
  · next hgo =>
      refine ⟨hlimit, fun hne => .inl (hany ?_)⟩
      simp only [Bool.and_eq_true, Bool.not_eq_true', not_and, Bool.not_eq_false] at hgo
      exact hgo (List.isEmpty_eq_false_iff.mpr hne)

variable (gcm) in
/-- `onCanWrite` leaves no lost packet behind without an event. -/
theorem onCanWrite_wakes (hstate : env.state = .connected) (hsocket : env.hasSocket = true)
    (hframed : s.toQueues.Framed) :
    Advances s (s.onCanWrite gcm env)
      ∧ ((s.onCanWrite gcm env).lostPackets ≠ [] → (s.onCanWrite gcm env).Wakes) := by
  obtain ⟨hadv, hwakes⟩ := resendLost_wakes gcm hstate hframed
  unfold onCanWrite
  rw [if_neg (by simp [hsocket])]
  simp only [flushScheduledPackets_nil hframed.scheduled]
  obtain ⟨hprobe, hsame⟩ := maybeSendMtuProbe_advances gcm env (s.resendLost gcm env false)
    (env.nowUs (s.lostPackets.length + 1)) (s.lostPackets.length + 1)
  refine ⟨hadv.trans hprobe, ?_⟩
  rw [hsame]
  exact fun hne => hprobe.wakes (hwakes hne)

-- ==== acks and timers

theorem armed_of_unacked_nil (hunacked : s.unackedPackets = [])
    (htimer : s.retransTimer = false) : s.Armed := by
  constructor
  · intro q hq
    rw [hunacked] at hq
    exact absurd hq List.not_mem_nil
  · intro h
    rw [htimer] at h
    exact absurd h Bool.false_ne_true

theorem detectAfterAck_armed (s : SendControl) (nowUs ackedPackets : Nat) :
    (s.detectAfterAck env nowUs ackedPackets).Armed := by
  unfold detectAfterAck
  generalize s.detectLosses env nowUs = r
  simp only
  split
  · have halarm := armed_retransAlarm r.1 nowUs
    exact ⟨halarm.runs, halarm.needed⟩
  · exact armed_retransAlarm _ _

theorem onAcked_nil (s : SendControl) (nowUs : Nat) : s.onAcked gcm env nowUs [] = s := rfl

theorem onAckReceived_armed (h : s.Armed) (ackInfo : AckInfo) :
    (s.onAckReceived gcm env ackInfo).Armed := by
  unfold onAckReceived
  simp only
  split
  · next hempty => exact armed_of_unacked_nil (List.isEmpty_iff.mp hempty) rfl
  · split
    · exact detectAfterAck_armed _ _ _
    · next hquiet =>
        simp only [Bool.or_eq_true, Bool.not_eq_true', not_or, Bool.not_eq_false,
          List.isEmpty_iff] at hquiet
        rw [hquiet.1, onAcked_nil]
        exact ⟨h.runs, h.needed⟩

/-- A walk of `detectLosses` that finds nothing leaves everything. -/
theorem foldl_onVerdict_kept (now : Nat) (largestRetxPackNo : UInt64) (l : List QueuedPacket)
    (h : ∀ q ∈ l, s.lossVerdict env largestRetxPackNo q = .kept) :
    l.foldl (fun acc q => acc.onVerdict env now q (acc.lossVerdict env largestRetxPackNo q)) s
      = s := by
  induction l with
  | nil => rfl
  | cons q l ih =>
    rw [List.foldl_cons, h q List.mem_cons_self]
    exact ih fun a ha => h a (List.mem_cons_of_mem q ha)

/-- Without a loss nothing leaves `m_unackedPackets`. -/
theorem detectLosses_unacked {now : Nat}
    (h : (s.detectLosses env now).2 = false) :
    (s.detectLosses env now).1.unackedPackets = s.unackedPackets := by
  have hkept : ∀ q ∈ s.inspected,
      lossVerdict env { s with lossTo := 0 } s.largestRetxPacketNo q = .kept := by
    intro q hq
    have hany : s.lossVerdict env s.largestRetxPacketNo q = .kept := by
      simpa using List.any_eq_false.mp h q hq
    exact hany
  have hloss : s.inspected.any (fun q =>
      decide (s.lossVerdict env s.largestRetxPacketNo q ≠ .kept)) = false := h
  unfold detectLosses
  simp only [hloss, Bool.false_eq_true, if_false]
  rw [foldl_onVerdict_kept now _ _ hkept]

theorem expireUnacked_unacked {filter : ExpireFilter}
    (h : (s.expireUnacked env filter).2 = false) :
    (s.expireUnacked env filter).1.unackedPackets = s.unackedPackets := by
  unfold expireUnacked at h ⊢
  split
  · next hlast =>
      rw [if_pos hlast] at h
      split
      · next q hq =>
          rw [hq] at h
          exact absurd h (by simp)
      · rfl
  · next hlast =>
      rw [if_neg hlast] at h
      have hnone : s.unackedPackets.filter (expires filter) = [] := by simpa using h
      simp only [hnone, List.foldl_nil]

theorem expireByMode_unacked {now : Nat} {mode : RetransmissionMode}
    (h : (s.expireByMode env now mode).2 = false) :
    (s.expireByMode env now mode).1.unackedPackets = s.unackedPackets := by
  cases mode with
  | handshake => exact expireUnacked_unacked h
  | loss => exact detectLosses_unacked h
  | tlp => exact expireUnacked_unacked h
  | rto =>
    have hq : (s.onRto env now).toQueues = s.toQueues := onRto_toQueues s now
    have hsame : (s.onRto env now).unackedPackets = s.unackedPackets := by rw [hq]
    exact (expireUnacked_unacked h).trans hsame

theorem onRetransTimer_wakes (hfired : s.retransTimer = true)
    (harmed : s.Armed) : (s.onRetransTimer env).Armed ∧ (s.onRetransTimer env).Wakes := by
  have hne := harmed.needed hfired
  unfold onRetransTimer
  simp only
  rw [if_neg (by simpa using hne)]
  refine ⟨armed_retransAlarm _ _, ?_⟩
  generalize hr : ({ s with retransTimer := false } : SendControl).expireByMode env (env.nowUs 0)
    (({ s with retransTimer := false } : SendControl).getRetransmissionMode env) = r
  split
  · right
    left
    rw [retransAlarm_scheduleTimer]
    rfl
  · next hloss =>
      left
      have hkept : r.1.unackedPackets = s.unackedPackets := by
        rw [← hr]
        apply expireByMode_unacked (s := { s with retransTimer := false })
        rw [hr]
        simpa using hloss
      rw [retransAlarm_retransTimer, hkept]
      simpa using hne

end SendControl

-- ==== runs

structure SendControl.Awake (s : SendControl) : Prop where
  framed : s.toQueues.Framed
  armed : s.Armed
  driven : s.lostPackets ≠ [] → s.Wakes

theorem SendControl.Awake.noStall {s : SendControl} (h : s.Awake) : s.NoStall := by
  refine ⟨h.armed.runs, ?_⟩
  rintro (hlost | hscheduled)
  · exact h.driven hlost
  · exact absurd h.framed.scheduled hscheduled

namespace SendSide

variable {gcm : Gcm} {content : UInt32 → Nat → UInt8} {env : SendCtlEnv}
variable {s : SendSide}

theorem awake_of_sending {s t : SendControl} (h : s.Awake)
    (hreach : Reaches Queues.move (Queues.Sending retxRules) s.toQueues t.toQueues)
    (hadv : s.Advances t) : t.Awake := by
  refine ⟨h.framed.reaches (hreach.imp fun _ _ hm => (Queues.Sending.settles unusedGcm hm).1),
    hadv.armed h.armed, ?_⟩
  rw [SendControl.lostPackets_of_sending hreach]
  exact fun hne => hadv.wakes (h.driven hne)

variable (gcm content env) in
theorem sendOut_advances (s : SendSide) (out : Outgoing) :
    Reaches Queues.move (Queues.Sending retxRules) s.toQueues
        (s.sendOut gcm content env out).toQueues
      ∧ s.Advances (s.sendOut gcm content env out).toSendControl := by
  have hrules := retxRules_keeps gcm env
  cases out with
  | control req =>
    exact ⟨s.sendPacket_reaches hrules (.control req), s.sendPacket_advances gcm env ..⟩
  | stream id len fin =>
    show Reaches _ _ _ (s.sendStream gcm content env id len fin).toQueues
      ∧ s.Advances (s.sendStream gcm content env id len fin).toSendControl
    unfold sendStream
    split
    · exact ⟨.refl _, .refl _⟩
    · have hreach : Reaches Queues.move (Queues.Sending retxRules) s.toQueues
          (s.toSendControl.sendStreamFrame gcm env (s.nextFrame content id len fin)).2.toQueues :=
        s.toSendControl.sendStreamFrame_reaches hrules (.inl trivial)
      have hadv := s.toSendControl.sendStreamFrame_advances gcm env
        (s.nextFrame content id len fin)
      simp only
      split
      · exact ⟨hreach, hadv⟩
      · split
        · exact ⟨hreach, hadv.trans ⟨fun h => h, fun h => h, fun _ => rfl,
          fun h => ⟨h.runs, h.needed⟩⟩⟩
        · exact ⟨hreach, hadv⟩

variable (gcm content env) in
theorem sendOuts_advances (outs : List Outgoing) (s : SendSide) :
    Reaches Queues.move (Queues.Sending retxRules) s.toQueues
        (outs.foldl (sendOut gcm content env) s).toQueues
      ∧ s.Advances (outs.foldl (sendOut gcm content env) s).toSendControl := by
  induction outs generalizing s with
  | nil => exact ⟨.refl _, .refl _⟩
  | cons out outs ih =>
    have hout := s.sendOut_advances gcm content env out
    have hrest := ih (s.sendOut gcm content env out)
    exact ⟨hout.1.trans hrest.1, hout.2.trans hrest.2⟩

theorem awake_ack (h : s.Awake) (ackInfo : AckInfo) :
    (s.onAckReceived gcm env ackInfo).scheduleWrite.Awake := by
  have hreach : Reaches Queues.move (Queues.Allowed gcm retxRules) s.toQueues
      (s.onAckReceived gcm env ackInfo).toQueues :=
    (SendControl.onAckReceived_reaches (retxRules_keeps gcm env) h.framed.distinct ackInfo
      fun _ _ _ => trivial).imp fun _ _ hm => hm.1
  have harmed : (s.onAckReceived gcm env ackInfo).Armed :=
    SendControl.onAckReceived_armed h.armed ackInfo
  exact ⟨h.framed.reaches hreach, ⟨harmed.runs, harmed.needed⟩, fun _ => .inr (.inr rfl)⟩

theorem awake_retransTimer (h : s.Awake) (hfired : s.retransTimer = true) :
    (s.onRetransTimer env).Awake := by
  have hreach : Reaches Queues.move (Queues.Allowed unusedGcm retxRules) s.toQueues
      (s.onRetransTimer env).toQueues :=
    (SendControl.onRetransTimer_reaches h.framed.distinct fun _ _ => trivial).imp
      fun _ _ hm => hm.1
  have hwakes : (s.onRetransTimer env).Armed ∧ (s.onRetransTimer env).Wakes :=
    SendControl.onRetransTimer_wakes hfired h.armed
  exact ⟨h.framed.reaches hreach, hwakes.1, fun _ => hwakes.2⟩

theorem awake_onWrite (hstate : env.state = .connected) (hsocket : env.hasSocket = true)
    (hframed : s.toQueues.Framed) (harmed : s.Armed) (outs : List Outgoing) :
    (s.onWrite gcm content env outs).Awake := by
  obtain ⟨hreach, hadv⟩ := sendOuts_advances gcm content env outs s
  have hframed' := hframed.reaches (hreach.imp fun _ _ hm => (Queues.Sending.settles gcm hm).1)
  have hwrite := SendControl.onCanWrite_reaches (retxRules_keeps gcm env)
    (retxRules_retires gcm env) hframed'.distinct
  obtain ⟨hadv', hwakes⟩ := SendControl.onCanWrite_wakes gcm hstate hsocket hframed'
  exact ⟨hframed'.reaches hwrite, hadv'.armed (hadv.armed harmed), hwakes⟩

/-- The connection is established, and has its socket. -/
def Connected (_ : SendSide) (op : SendCtlEnv × SendSideOp) : Prop :=
  op.1.state = .connected ∧ op.1.hasSocket = true

theorem awake_step (h : s.Awake) (op : SendCtlEnv × SendSideOp)
    (hconn : s.Connected op) : (s.step gcm content op).Awake := by
  obtain ⟨env, op⟩ := op
  cases op with
  | send out =>
    have hout := s.sendOut_advances gcm content env out
    exact awake_of_sending h hout.1 hout.2
  | ack ackInfo => exact awake_ack h ackInfo
  | retransTimer =>
    show (if s.retransTimer then _ else s : SendSide).Awake
    split
    · next hfired => exact awake_retransTimer h hfired
    · exact h
  | scheduleTimer =>
    show (if s.scheduleTimer then _ else s : SendSide).Awake
    split
    · exact ⟨h.framed, ⟨h.armed.runs, h.armed.needed⟩, fun _ => .inr (.inr rfl)⟩
    · exact h
  | write outs =>
    show (if s.wantWrite then _ else s : SendSide).Awake
    split
    · exact awake_onWrite
        (s := { s with toSendControl := { s.toSendControl with wantWrite := false } })
        hconn.1 hconn.2 h.framed ⟨h.armed.runs, h.armed.needed⟩ outs
    · exact h

/-- Nothing is kept yet. So it is when a connection is established, whatever
it sent before (`SendRequest.shouldTrackPacket`). -/
structure Unsent (s : SendSide) : Prop where
  unacked : s.unackedPackets = []
  scheduled : s.scheduledPackets = []
  lost : s.lostPackets = []
  retransTimer : s.retransTimer = false

theorem Unsent.awake (h : s.Unsent) : s.Awake := by
  have hptrs : s.toQueues.ptrs = [] := by
    rw [Queues.ptrs_eq, h.unacked, h.scheduled, h.lost]
    rfl
  refine ⟨⟨⟨?_, ?_⟩, h.scheduled, ?_, ?_⟩,
    SendControl.armed_of_unacked_nil h.unacked h.retransTimer, ?_⟩
  · rw [hptrs]
    exact List.nodup_nil
  · rw [hptrs]
    exact fun _ hptr => absurd hptr List.not_mem_nil
  · rw [h.unacked]
    exact fun _ hq => absurd hq List.not_mem_nil
  · rw [h.lost]
    exact fun _ hq => absurd hq List.not_mem_nil
  · exact fun hlost => absurd h.lost hlost

/-- In an established connection nothing stalls, whatever is sent, refused by
the socket, acknowledged or lost. -/
theorem noStall_run {gcm : Gcm} {content : UInt32 → Nat → UInt8} {s : SendSide}
    {ops : List (SendCtlEnv × SendSideOp)} (hstart : s.Unsent)
    (hops : Meets (step gcm content) Connected s ops) :
    (run (step gcm content) s ops).NoStall := by
  have hawake := run_inv (P := fun s : SendSide => s.Awake)
    (fun _ op h hok => awake_step h op hok) hstart.awake hops
  exact hawake.noStall

/-- Three bytes and a FIN are sent and time out, and then the socket takes
nothing. -/
def refusedRetry : List (SendCtlEnv × SendSideOp) :=
  [({}, .send (.stream 0 3 true)), ({}, .retransTimer),
    ({ udpSendBatch := fun _ => 0 }, .write [])]

/-- The packet is lost, and there is an event that will try again. -/
theorem noStall_refusedRetry :
    (run (step unusedGcm fun _ _ => 0) (init 1 {} 0) refusedRetry).lostPackets.length = 1
      ∧ (run (step unusedGcm fun _ _ => 0) (init 1 {} 0) refusedRetry).NoStall := by
  refine ⟨by decide +kernel, noStall_run ⟨rfl, rfl, rfl, rfl⟩ ?_⟩
  exact ⟨⟨rfl, rfl⟩, ⟨rfl, rfl⟩, ⟨rfl, rfl⟩, trivial⟩

end SendSide

end Eular.Utp
