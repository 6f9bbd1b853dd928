/-
Every event of the send control is a run of allowed moves.

For each operation one theorem says so: the queues after it are reached
from the queues before it (`Reaches`). Operations that only send reach
by `Sending` moves, those that only take packets out of the way of
others by `Settles` moves; what puts an old packet at the end of
`m_unackedPackets` needs the full set.
-/
import Eular.Utp.Send.Proofs.Moves

namespace Eular.Utp

open Lib

variable {packet : PacketOut} {req : SendRequest} {env : SendEnv}

-- ==== requests

/-- Where a STREAM frame that is sent comes from: the event itself, or a lost
packet that is split. -/
def Rules.Source (rules : Rules) (s : Queues) (frame : FrameStream) : Prop :=
  rules.mayStream frame
    ∨ ∃ q ∈ s.lostPackets, ∃ budget, 0 < budget ∧ q.packet.StreamChunk budget frame

/-- The requests the connection and the send control make, with the stream
and the offset they give. -/
inductive Issued (rules : Rules) (s : Queues) : SendRequest → Nat → Nat → Prop where
  | control (req : ControlRequest) : Issued rules s req.toRequest 0 0
  | stream (frame : FrameStream) (trailer : List UInt8) : frame.streamData.length ≤ 65535 →
      rules.Source s frame →
      Issued rules s (streamFrameRequest frame trailer) frame.streamId frame.streamOffset
  | ackStream (frame : FrameStream) (ack trailer : List UInt8) :
      frame.streamData.length ≤ 65535 → rules.Source s frame →
      Issued rules s (ackStreamFrameRequest frame ack trailer) frame.streamId frame.streamOffset
  | early (frame : FrameStream) (token : List UInt8) : frame.streamData.length ≤ 65535 →
      rules.Source s frame →
      Issued rules s (earlyRequest frame token) frame.streamId frame.streamOffset
  | ack (ack : List UInt8) : Issued rules s (ackPacketRequest ack) 0 0
  | flush (q : QueuedPacket) (st : SplitState SendControl) : q ∈ s.lostPackets →
      st.BatchOf q.packet → st.framePayload ≠ [] → Issued rules s (flushRequest q.packet st) 0 0
  | probe (packetSize : Nat) : Issued rules s (SendControl.probeRequest packetSize) 0 0

/-- Whatever a request makes the send control keep, the rules allow. -/
def Rules.Keeps (rules : Rules) (gcm : Gcm) (env : SendCtlEnv) : Prop :=
  ∀ (s : SendControl) (req : SendRequest) (streamId streamOffset ptr : Nat) (wire : List UInt8)
    (packet : PacketOut), Issued rules s.toQueues req streamId streamOffset →
    sendPacket gcm (s.sendEnv env) req = .ok { wire, kept := some packet } →
    rules.mayKeep s.toQueues (SendControl.queuedPacket env ptr packet streamId streamOffset)

/-- What a kept packet has from the request that made it. -/
structure KeptOf (env : SendEnv) (req : SendRequest) (packet : PacketOut) : Prop where
  packno : packet.packno = env.packetNumber
  frameTypes : packet.frameTypes = req.frameTypeBits
  streamDataSize : packet.streamDataSize = min req.streamDataBytes (2 ^ 32 - 1)
  transientAckSize : packet.transientAckSize = req.transientAckBytes
  frameMeta : packet.frameMeta
    = buildFrameMeta req.transientAckBytes UTP_HEADER_SIZE req.frameMetas
  body : packet.body = writeMem env.rawMemory 0 req.payload
  dataSize : UTP_HEADER_SIZE + req.payload.length ≤ packet.dataSize
  flags : packet.poFlags.mtuProbe = req.packetFlags.mtuProbe
    ∧ packet.poFlags.lossRecorded = req.packetFlags.lossRecorded
  keepPlaintext : req.packetFlags.encrypted = false → packet.poFlags.encrypted = true →
    packet.poFlags.keepPlaintext = true
  fits : UTP_HEADER_SIZE + req.payload.length ≤ 65535

theorem keptOf_packedPacket (env : SendEnv) (req : SendRequest)
    (hfits : UTP_HEADER_SIZE + req.payload.length ≤ 65535)
    (h : ((req.encryptWith env).isSome && req.shouldTrackPacket env) = false) :
    KeptOf env req (packedPacket env req) := by
  have hflags : (packedPacket env req).poFlags = req.packetFlags := by
    show (if _ then _ else _) = _
    rw [h]
    rfl
  refine ⟨rfl, rfl, rfl, rfl, rfl, rfl, le_refl _, ?_, ?_, hfits⟩
  · rw [hflags]
    exact ⟨rfl, rfl⟩
  · intro hclear henc
    rw [hflags, hclear] at henc
    cases henc

theorem KeptOf.release
    (h : KeptOf env req packet) : KeptOf env req (releaseSealedCopy packet) := by
  unfold releaseSealedCopy
  split
  · split
    · exact ⟨h.packno, h.frameTypes, h.streamDataSize, h.transientAckSize, h.frameMeta, h.body,
        h.dataSize, h.flags, h.keepPlaintext, h.fits⟩
    · exact h
  · exact h
  · exact h

/-- A tracked packet is sealed into a copy: its own buffer keeps the
plaintext. -/
theorem keptOf_encrypt {gcm : Gcm} {ctx : AesGcmContext}
    (hfits : UTP_HEADER_SIZE + req.payload.length ≤ 65535)
    (hctx : ((req.encryptWith env).isSome && req.shouldTrackPacket env) = true)
    (h : ctx.encrypt gcm (packedPacket env req) = .ok packet) :
    KeptOf env req { packet with dataSize := packet.encryptDataSize } := by
  have hflags : (packedPacket env req).poFlags
      = { req.packetFlags with keepPlaintext := true } := by
    show (if _ then _ else _) = _
    rw [hctx]
    rfl
  have hkeep : (packedPacket env req).poFlags.keepPlaintext = true := by rw [hflags]
  have hsize : (packedPacket env req).dataSize = UTP_HEADER_SIZE + req.payload.length := rfl
  unfold AesGcmContext.encrypt at h
  simp only [hkeep, Bool.not_true, Bool.false_and, Bool.false_eq_true, if_false] at h
  split_ifs at h
  cases h
  refine ⟨rfl, rfl, rfl, rfl, rfl, rfl, ?_, ?_, ?_, hfits⟩
  · simp only [AesGcmContext.length_sealBytes, length_readMem, hsize]
    omega
  · simp only [hflags, and_self]
  · intro _ _
    rfl

theorem keptOf_sent {gcm : Gcm} {wire : List UInt8}
    (h : sendPacket gcm env req = .ok { wire, kept := some packet }) :
    KeptOf env req packet ∧ req.shouldTrackPacket env = true := by
  obtain ⟨built, hby⟩ := sendPacket_ok h
  have hkept := hby.kept
  split at hkept
  · next htrack =>
      have htrack' : req.shouldTrackPacket env = true := (Bool.and_eq_true_iff.mp htrack).1
      cases hkept
      have hfits : UTP_HEADER_SIZE + req.payload.length ≤ 65535 :=
        Nat.le_trans (Nat.le_add_right _ _) hby.wirePacketLen
      refine ⟨KeptOf.release ?_, htrack'⟩
      have hbuilt := hby.built
      unfold buildPacket at hbuilt
      split at hbuilt
      · cases hbuilt
      · split at hbuilt
        · next hnone =>
            cases hbuilt
            exact keptOf_packedPacket env req hfits (by rw [hnone]; rfl)
        · next ctx hsome =>
            split at hbuilt
            · cases hbuilt
            · next henc =>
                cases hbuilt
                exact keptOf_encrypt hfits (by rw [hsome, htrack']; rfl) henc
  · cases hkept

namespace SendControl

variable {gcm : Gcm} {env : SendCtlEnv} {rules : Rules}
variable {frame : FrameStream} {q : QueuedPacket} {s : SendControl}

-- ==== sends

@[simp] theorem retransAlarm_toQueues (s : SendControl) (now : Nat) :
    (s.retransAlarm now).toQueues = s.toQueues := by
  unfold retransAlarm
  split
  · rfl
  · rfl

theorem packetSent_toQueues (s : SendControl) (q : QueuedPacket) :
    (s.packetSent q).toQueues = s.toQueues.keep q := by
  unfold packetSent
  simp only
  split
  · rw [retransAlarm_toQueues]
  · rfl

theorem takeNumber_self (s : SendControl) : s.takeNumber s.packetNumber = s := if_pos rfl

theorem takeNumber_succ (s : SendControl) :
    s.takeNumber (s.packetNumber + 1) = { s with toQueues := s.toQueues.takeNumber } := by
  apply if_neg
  intro h
  have hone : (1 : UInt64) = 0 := by
    have h' : s.packetNumber + 1 = s.packetNumber + 0 := by rw [h, UInt64.add_zero]
    exact UInt64.add_right_inj _ |>.mp h'
  exact absurd hone (by decide)

/-- Everything `sendPacket` can do to the queues. -/
theorem sendPacket_cases (s : SendControl) (req : SendRequest) (streamId streamOffset : Nat) :
    (s.sendPacket gcm env req streamId streamOffset).2.toQueues = s.toQueues
      ∨ (s.sendPacket gcm env req streamId streamOffset).2.toQueues = s.toQueues.takeNumber
      ∨ ∃ wire packet,
          Utp.sendPacket gcm (s.sendEnv env) req = .ok { wire, kept := some packet }
            ∧ (s.sendPacket gcm env req streamId streamOffset).2.toQueues
              = s.toQueues.takeNumber.keep
                  (queuedPacket env s.nextPtr packet streamId streamOffset) := by
  have hnumber : numberAfterSend (s.sendEnv env) req = s.packetNumber
      ∧ (∃ st, Utp.sendPacket gcm (s.sendEnv env) req = .error st)
      ∨ numberAfterSend (s.sendEnv env) req = s.packetNumber + 1 := by
    unfold numberAfterSend
    split
    · next st hcheck =>
        left
        refine ⟨rfl, st, ?_⟩
        unfold Utp.sendPacket
        rw [hcheck]
    · exact .inr rfl
  unfold sendPacket
  rcases hnumber with ⟨hsame, st, herr⟩ | hnext
  · left
    simp only [hsame, takeNumber_self, herr]
  · right
    simp only [hnext, takeNumber_succ]
    cases hsend : Utp.sendPacket gcm (s.sendEnv env) req with
    | error st => exact .inl rfl
    | ok sent =>
      obtain ⟨wire, kept⟩ := sent
      cases kept with
      | none => exact .inl rfl
      | some packet =>
        right
        refine ⟨wire, packet, rfl, ?_⟩
        simp only [packetSent_toQueues]

theorem sendPacket_reaches (hrules : rules.Keeps gcm env) (s : SendControl) {req : SendRequest}
    {streamId streamOffset : Nat} (hreq : Issued rules s.toQueues req streamId streamOffset) :
    Reaches Queues.move (Queues.Sending rules) s.toQueues
      (s.sendPacket gcm env req streamId streamOffset).2.toQueues := by
  rcases s.sendPacket_cases req streamId streamOffset with hsame | htaken |
    ⟨wire, packet, hok, hkept⟩
  · rw [hsame]
    exact .refl _
  · rw [htaken]
    exact .single QueueMove.takeNumber trivial
  · rw [hkept]
    refine .single (QueueMove.keep _) ⟨rfl, ?_, ?_⟩
    · exact (keptOf_sent hok).1.packno
    · exact hrules s req streamId streamOffset s.nextPtr wire packet hreq hok

theorem sendControls_reaches (hrules : rules.Keeps gcm env) (s : SendControl)
    (reqs : List ControlRequest) :
    Reaches Queues.move (Queues.Sending rules) s.toQueues
      (s.sendControls gcm env reqs).toQueues := by
  unfold sendControls
  induction reqs generalizing s with
  | nil => exact .refl _
  | cons req reqs ih => exact (s.sendPacket_reaches hrules (.control req)).trans (ih _)

theorem lostPackets_of_sending {s t : Queues}
    (h : Reaches Queues.move (Queues.Sending rules) s t) : t.lostPackets = s.lostPackets := by
  refine h.inv (P := fun u => u.lostPackets = s.lostPackets) ?_ rfl
  intro u m hu hm
  cases m with
  | takeNumber => exact hu
  | keep q => exact hu
  | _ => exact hm.elim

theorem Source.of_sending {s t : Queues} (h : rules.Source s frame)
    (hreach : Reaches Queues.move (Queues.Sending rules) s t) : rules.Source t frame := by
  unfold Rules.Source at h ⊢
  rw [lostPackets_of_sending hreach]
  exact h

theorem sendStreamPacket_reaches (hrules : rules.Keeps gcm env) (s : SendControl)
    (hlen : frame.streamData.length ≤ 65535)
    (hsource : rules.Source s.toQueues frame) :
    Reaches Queues.move (Queues.Sending rules) s.toQueues
      (s.sendStreamPacket gcm env frame).2.toQueues := by
  unfold sendStreamPacket
  simp only
  split
  · exact s.sendPacket_reaches hrules (.stream frame _ hlen hsource)
  · next ack _ =>
    split
    · exact s.sendPacket_reaches hrules (.ackStream frame _ _ hlen hsource)
    · have hack := s.sendPacket_reaches hrules (.ack ack)
      split
      · exact hack
      · exact hack.trans (sendPacket_reaches hrules _
          (.stream frame _ hlen (Source.of_sending hsource hack)))

theorem sendStreamFrame_reaches (hrules : rules.Keeps gcm env) (s : SendControl)
    (hsource : rules.Source s.toQueues frame) :
    Reaches Queues.move (Queues.Sending rules) s.toQueues
      (s.sendStreamFrame gcm env frame).2.toQueues := by
  unfold sendStreamFrame
  split
  · exact .refl _
  · split
    · exact .refl _
    · split
      · exact .refl _
      · next hlen =>
          have hbefore := s.sendControls_reaches hrules (env.streamAnswer frame).before
          have hlen' := Nat.not_lt.mp hlen
          have hsource' := Source.of_sending hsource hbefore
          simp only
          split
          · exact hbefore
          · split
            · exact hbefore.trans (sendPacket_reaches hrules _ (.early frame _ hlen' hsource'))
            · exact hbefore.trans (sendStreamPacket_reaches hrules _ hlen' hsource')

-- ==== losses

/-- A step of a walk over `m_unackedPackets`: it reaches, and leaves every
other packet where it is. -/
def WalkStep (gcm : Gcm) (rules : Rules) (s : SendControl) (q : QueuedPacket)
    (t : SendControl) : Prop :=
  Reaches Queues.move (Queues.Settles gcm rules) s.toQueues t.toQueues
    ∧ ∀ b ∈ s.unackedPackets, b.ptr ≠ q.ptr → b ∈ t.unackedPackets

theorem WalkStep.refl (s : SendControl) (q : QueuedPacket) : WalkStep gcm rules s q s :=
  ⟨.refl _, fun _ hb _ => hb⟩

theorem WalkStep.trans {s t u : SendControl} (h : WalkStep gcm rules s q t)
    (h' : WalkStep gcm rules t q u) : WalkStep gcm rules s q u :=
  ⟨h.1.trans h'.1, fun b hb hne => h'.2 b (h.2 b hb hne) hne⟩

theorem distinct_of_reaches {s t : Queues}
    (h : Reaches Queues.move (Queues.Settles gcm rules) s t) (hs : s.Distinct) : t.Distinct :=
  h.inv (fun _ _ hd hm => Queues.distinct_move hd hm.1) hs

variable (gcm rules) in
theorem foldl_walk {f : SendControl → QueuedPacket → SendControl} {Q : SendControl → Prop}
    {l : List QueuedPacket}
    (hstep : ∀ s, ∀ q ∈ l, Q s → s.toQueues.Distinct → q ∈ s.unackedPackets →
      Q (f s q) ∧ WalkStep gcm rules s q (f s q))
    (hs : Q s) (hd : s.toQueues.Distinct)
    (hl : l.Sublist s.unackedPackets) :
    Q (l.foldl f s)
      ∧ Reaches Queues.move (Queues.Settles gcm rules) s.toQueues (l.foldl f s).toQueues := by
  have hwalk := foldl_queue QueuedPacket.ptr (fun t : SendControl => t.unackedPackets)
    (fun t => (Q t ∧ Reaches Queues.move (Queues.Settles gcm rules) s.toQueues t.toQueues)
      ∧ t.toQueues.Distinct)
    (fun t q hq ht hmem => by
      obtain ⟨hQ, hreach, hkeep⟩ := hstep t q hq ht.1.1 ht.2 hmem
      exact ⟨⟨⟨hQ, ht.1.2.trans hreach⟩, distinct_of_reaches hreach ht.2⟩, hkeep⟩)
    ⟨⟨hs, .refl _⟩, hd⟩ ((hl.map QueuedPacket.ptr).nodup hd.unacked) fun q hq => hl.subset hq
  exact hwalk.1

theorem handleRegularLostPacket_walk
    (hq : q ∈ s.unackedPackets) (hlose : rules.mayLose q) :
    WalkStep gcm rules s q (s.handleRegularLostPacket q) :=
  ⟨.single (QueueMove.lose q) ⟨⟨hq, hlose⟩, rfl⟩, fun _ hb hne => mem_removeKey_of_ne hb hne⟩

theorem handleLostMtuProbe_walk
    (hq : q ∈ s.unackedPackets) (hprobe : q.isMtuProbe = true) :
    WalkStep gcm rules s q (s.handleLostMtuProbe env q) :=
  ⟨.single (QueueMove.loseProbe q) ⟨⟨hq, hprobe⟩, rfl⟩,
    fun _ hb hne => mem_removeKey_of_ne hb hne⟩

theorem onDataPacketLoss_walk (now : Nat)
    (hq : q ∈ s.unackedPackets) : WalkStep gcm rules s q (s.onDataPacketLoss now q) := by
  unfold onDataPacketLoss
  split
  · next hdata =>
      have hprobe : q.isMtuProbe = false := by
        unfold QueuedPacket.isMtuRelevantDataPacket at hdata
        simp only [Bool.and_eq_true, Bool.not_eq_true'] at hdata
        exact hdata.1
      exact ⟨.single (QueueMove.note (.dataLoss q.ptr)) ⟨⟨q, hq, rfl, hprobe⟩, rfl⟩,
        fun _ hb _ => hb⟩
  · exact .refl s q

@[simp] theorem onDataPacketLoss_unacked (s : SendControl) (now : Nat) (q : QueuedPacket) :
    (s.onDataPacketLoss now q).unackedPackets = s.unackedPackets := by
  unfold onDataPacketLoss
  split
  · rfl
  · rfl

theorem loseData_walk (now lossTo : Nat)
    (hq : q ∈ s.unackedPackets) (hlose : rules.mayLose q) :
    WalkStep gcm rules s q
      ({ s.onDataPacketLoss now q with lossTo }.handleRegularLostPacket q) := by
  refine (onDataPacketLoss_walk now hq).trans ?_
  have hq' : q ∈ (s.onDataPacketLoss now q).unackedPackets := by
    rw [onDataPacketLoss_unacked]
    exact hq
  exact ⟨.single (QueueMove.lose q) ⟨⟨hq', hlose⟩, rfl⟩,
    fun _ hb hne => mem_removeKey_of_ne hb hne⟩

/-- What `detectLosses` does about one packet. -/
theorem onVerdict_walk {now : Nat}
    {verdict : LossVerdict} (hq : q ∈ s.unackedPackets)
    (hlose : verdict ≠ .kept → ¬ (verdict = .fack ∧ q.isMtuProbe = true) → rules.mayLose q) :
    WalkStep gcm rules s q (s.onVerdict env now q verdict) := by
  cases verdict with
  | kept => exact .refl s q
  | fack =>
    show WalkStep gcm rules s q (if q.isMtuProbe then _ else _)
    split
    · next hprobe => exact handleLostMtuProbe_walk hq hprobe
    · next hprobe =>
        exact loseData_walk now _ hq (hlose (by simp) fun h => hprobe h.2)
  | earlyRetransmit => exact loseData_walk now _ hq (hlose (by simp) (by simp))
  | sentTime =>
    have hlose' := hlose (by simp) (by simp)
    show WalkStep gcm rules s q
      ((if q.retx && !q.isMtuProbe then _ else _ : SendControl).handleRegularLostPacket q)
    split
    · exact loseData_walk now _ hq hlose'
    · exact handleRegularLostPacket_walk hq hlose'

/-- What the tests of `detectLosses` read does not change while it walks. -/
def SameThresholds (s t : SendControl) : Prop :=
  t.reorderThresh = s.reorderThresh ∧ t.largestAckedPackNo = s.largestAckedPackNo
    ∧ t.largestAckedSentTime = s.largestAckedSentTime

theorem SameThresholds.lossVerdict {s t : SendControl} (h : SameThresholds s t)
    (largestRetxPackNo : UInt64) (q : QueuedPacket) :
    t.lossVerdict env largestRetxPackNo q = s.lossVerdict env largestRetxPackNo q := by
  unfold SendControl.lossVerdict
  rw [h.1, h.2.1, h.2.2]

theorem SameThresholds.onVerdict {s t : SendControl} (h : SameThresholds s t) (now : Nat)
    (q : QueuedPacket) (verdict : LossVerdict) :
    SameThresholds s (t.onVerdict env now q verdict) := by
  have hnote : SameThresholds s (t.onDataPacketLoss now q) := by
    unfold onDataPacketLoss
    split
    · exact h
    · exact h
  cases verdict with
  | kept => exact h
  | fack =>
    show SameThresholds s (if q.isMtuProbe then _ else _)
    split
    · exact h
    · exact hnote
  | earlyRetransmit => exact hnote
  | sentTime =>
    show SameThresholds s ((if _ then _ else _ : SendControl).handleRegularLostPacket q)
    split
    · exact hnote
    · exact h

/-- The packets a call of `detectLosses` gives up as regular ones. -/
def GivesUp (env : SendCtlEnv) (s : SendControl) (q : QueuedPacket) : Prop :=
  q ∈ s.inspected ∧ s.lossVerdict env s.largestRetxPacketNo q ≠ .kept
    ∧ ¬ (s.lossVerdict env s.largestRetxPacketNo q = .fack ∧ q.isMtuProbe = true)

@[simp] theorem updateReorderThresholdOnLoss_toQueues (s : SendControl) (now : Nat) :
    (s.updateReorderThresholdOnLoss env now).toQueues = s.toQueues := by
  unfold updateReorderThresholdOnLoss
  simp only
  split
  · rfl
  · split
    · rfl
    · rfl

theorem detectLosses_reaches (hd : s.toQueues.Distinct) (now : Nat)
    (hlose : ∀ q, s.GivesUp env q → rules.mayLose q) :
    Reaches Queues.move (Queues.Settles gcm rules) s.toQueues
      (s.detectLosses env now).1.toQueues := by
  have hwalk := foldl_walk gcm rules (l := s.inspected)
    (f := fun acc q =>
      acc.onVerdict env now q (acc.lossVerdict env s.largestRetxPacketNo q))
    (Q := SameThresholds s)
    (fun t q hq hsame _ hmem => by
      refine ⟨hsame.onVerdict now q _, onVerdict_walk hmem ?_⟩
      rw [hsame.lossVerdict]
      intro hkept hfack
      exact hlose q ⟨hq, hkept, hfack⟩)
    (s := { s with lossTo := 0 }) ⟨rfl, rfl, rfl⟩ hd (List.takeWhile_sublist _)
  unfold detectLosses
  simp only
  split
  · rw [updateReorderThresholdOnLoss_toQueues]
    exact hwalk.2
  · exact hwalk.2

/-- The packets a call of `expireUnacked` gives up as regular ones. -/
def Expires (s : SendControl) (filter : ExpireFilter) (q : QueuedPacket) : Prop :=
  q ∈ s.unackedPackets
    ∧ if filter = .lastOnly then q.retx = true else expires filter q = true ∧ q.isMtuProbe = false

theorem expireUnacked_reaches (hd : s.toQueues.Distinct)
    (filter : ExpireFilter) (hlose : ∀ q, s.Expires filter q → rules.mayLose q) :
    Reaches Queues.move (Queues.Settles gcm rules) s.toQueues
      (s.expireUnacked env filter).1.toQueues := by
  unfold expireUnacked
  split
  · next hlast =>
      split
      · next q hfind =>
          have hq : q ∈ s.unackedPackets := List.mem_reverse.mp (List.mem_of_find?_eq_some hfind)
          refine (handleRegularLostPacket_walk hq (hlose q ⟨hq, ?_⟩)).1
          rw [if_pos hlast]
          exact List.find?_some hfind
      · exact .refl _
  · next hlast =>
      refine (foldl_walk gcm rules (Q := fun _ => True) ?_ trivial hd List.filter_sublist).2
      intro t q hq _ _ hmem
      refine ⟨trivial, ?_⟩
      unfold expirePacket
      split
      · next hprobe => exact handleLostMtuProbe_walk hmem hprobe
      · next hprobe =>
          have hfilter := List.mem_filter.mp hq
          refine handleRegularLostPacket_walk hmem (hlose q ⟨hfilter.1, ?_⟩)
          rw [if_neg hlast]
          exact ⟨hfilter.2, Bool.not_eq_true _ ▸ hprobe⟩

/-- The packets the retransmission timer gives up as regular ones. -/
def TimerGivesUp (env : SendCtlEnv) (s : SendControl) (q : QueuedPacket) : Prop :=
  match s.getRetransmissionMode env with
  | .handshake => s.Expires .handshakeOnly q
  | .loss => s.GivesUp env q
  | .tlp => s.Expires .lastOnly q
  | .rto => s.Expires .all q

@[simp] theorem onRto_toQueues (s : SendControl) (now : Nat) :
    (s.onRto env now).toQueues = s.toQueues := by
  unfold onRto
  split
  · rfl
  · rfl

theorem onRetransTimer_reaches (hd : s.toQueues.Distinct)
    (hlose : ∀ q, s.TimerGivesUp env q → rules.mayLose q) :
    Reaches Queues.move (Queues.Settles gcm rules) s.toQueues (s.onRetransTimer env).toQueues := by
  have hmode : ∀ mode, s.getRetransmissionMode env = mode →
      Reaches Queues.move (Queues.Settles gcm rules) s.toQueues
        (({ s with retransTimer := false }).expireByMode env (env.nowUs 0) mode).1.toQueues := by
    intro mode hmode
    unfold TimerGivesUp at hlose
    rw [hmode] at hlose
    cases mode with
    | handshake => exact expireUnacked_reaches (s := { s with retransTimer := false }) hd _ hlose
    | loss => exact detectLosses_reaches (s := { s with retransTimer := false }) hd _ hlose
    | tlp =>
      exact expireUnacked_reaches
        (s := { s with
          retransTimer := false, lastRtoTime := env.nowUs 0, nTlp := s.nTlp + 1 }) hd _ hlose
    | rto =>
      have hq : (({ s with retransTimer := false }).onRto env (env.nowUs 0)).toQueues
          = s.toQueues := onRto_toQueues _ _
      have hexpire : Reaches Queues.move (Queues.Settles gcm rules)
          (({ s with retransTimer := false }).onRto env (env.nowUs 0)).toQueues
          (expireUnacked env (({ s with retransTimer := false }).onRto env (env.nowUs 0))
            .all).1.toQueues := by
        apply expireUnacked_reaches
        · rw [hq]
          exact hd
        · intro q hexp
          apply hlose q
          unfold Expires at hexp ⊢
          rw [hq] at hexp
          exact hexp
      rw [hq] at hexpire
      exact hexpire
  unfold onRetransTimer
  simp only
  split
  · exact .refl _
  · rw [retransAlarm_toQueues]
    split
    · exact hmode _ rfl
    · exact hmode _ rfl

-- ==== acks

theorem mem_unacked_of_sending {s t : Queues}
    (h : Reaches Queues.move (Queues.Sending rules) s t) (hq : q ∈ s.unackedPackets) :
    q ∈ t.unackedPackets := by
  refine h.inv (P := fun u => q ∈ u.unackedPackets) ?_ hq
  intro u m hu hm
  cases m with
  | takeNumber => exact hu
  | keep q' => exact List.mem_append_left _ hu
  | _ => exact hm.elim

theorem ackPacket_walk (hrules : rules.Keeps gcm env)
    (nowUs : Nat) (hq : q ∈ s.unackedPackets) :
    WalkStep gcm rules s q (ackPacket gcm env nowUs s q) := by
  have hsend : Reaches Queues.move (Queues.Sending rules) s.toQueues
      ({ s with mtu := s.mtuAfterAck nowUs q }.onStreamPacketAcked gcm env q).toQueues := by
    unfold onStreamPacketAcked
    split
    · exact sendControls_reaches hrules { s with mtu := s.mtuAfterAck nowUs q } _
    · exact .refl _
  refine ⟨(hsend.imp fun _ _ => Queues.Sending.settles gcm).trans ?_, ?_⟩
  · exact .single (QueueMove.ack q) ⟨mem_unacked_of_sending hsend hq, rfl⟩
  · intro b hb hne
    exact mem_removeKey_of_ne (mem_unacked_of_sending hsend hb) hne

theorem onAcked_reaches (hrules : rules.Keeps gcm env)
    (hd : s.toQueues.Distinct) (nowUs : Nat) {acked : List QueuedPacket}
    (hacked : acked.Sublist s.unackedPackets) :
    Reaches Queues.move (Queues.Settles gcm rules) s.toQueues
      (s.onAcked gcm env nowUs acked).toQueues := by
  have hwalk := foldl_walk gcm rules (Q := fun _ => True)
    (fun t q _ _ _ hmem => ⟨trivial, ackPacket_walk hrules nowUs hmem⟩) trivial hd hacked
  have hqueues : (s.onAcked gcm env nowUs acked).toQueues
      = (acked.foldl (ackPacket gcm env nowUs) s).toQueues := by
    unfold onAcked
    simp only
    split
    · split
      · split
        · rfl
        · rfl
      · rfl
    · split
      · split
        · rfl
        · rfl
      · rfl
  rw [hqueues]
  exact hwalk.2

/-- The acknowledgement makes the send control look for losses. -/
def AckDetects (s : SendControl) (ackInfo : AckInfo) : Prop :=
  (∃ q ∈ s.unackedPackets, isPackNoAcked ackInfo q.packno = true)
    ∨ s.largestAckedPackNo < ackInfo.largestAckPackno

def ackedState (gcm : Gcm) (env : SendCtlEnv) (s : SendControl) (ackInfo : AckInfo) :
    SendControl :=
  { s with
    largestAckedPackNo := max s.largestAckedPackNo ackInfo.largestAckPackno }.onAcked gcm env
    (env.nowUs 0) (s.unackedPackets.filter fun q => isPackNoAcked ackInfo q.packno)

@[simp] theorem updateReorderThresholdOnAck_toQueues (s : SendControl) (ackedPackets : Nat) :
    (s.updateReorderThresholdOnAck env ackedPackets).toQueues = s.toQueues := by
  unfold updateReorderThresholdOnAck
  simp only
  split
  · rfl
  · split
    · rfl
    · split
      · rfl
      · rfl

theorem detectAfterAck_toQueues (s : SendControl) (nowUs ackedPackets : Nat) :
    (s.detectAfterAck env nowUs ackedPackets).toQueues
      = (s.detectLosses env nowUs).1.toQueues := by
  unfold detectAfterAck
  generalize s.detectLosses env nowUs = r
  simp only
  split
  · exact retransAlarm_toQueues _ _
  · rw [retransAlarm_toQueues, updateReorderThresholdOnAck_toQueues]

theorem onAckReceived_reaches (hrules : rules.Keeps gcm env)
    (hd : s.toQueues.Distinct) (ackInfo : AckInfo)
    (hlose : ∀ q, s.AckDetects ackInfo → (s.ackedState gcm env ackInfo).GivesUp env q →
      rules.mayLose q) :
    Reaches Queues.move (Queues.Settles gcm rules) s.toQueues
      (s.onAckReceived gcm env ackInfo).toQueues := by
  have hacked : Reaches Queues.move (Queues.Settles gcm rules) s.toQueues
      (s.ackedState gcm env ackInfo).toQueues :=
    onAcked_reaches hrules
      (s := { s with
        largestAckedPackNo := max s.largestAckedPackNo ackInfo.largestAckPackno })
      hd _ List.filter_sublist
  unfold onAckReceived
  simp only
  split
  · exact hacked
  · split
    · next hdetects =>
        have hdetects' : s.AckDetects ackInfo := by
          simp only [Bool.or_eq_true, Bool.not_eq_true', List.isEmpty_eq_false_iff_exists_mem,
            List.mem_filter, decide_eq_true_eq] at hdetects
          exact hdetects
        rw [detectAfterAck_toQueues]
        exact hacked.trans (detectLosses_reaches (distinct_of_reaches hacked hd) _
          fun q => hlose q hdetects')
    · exact hacked

end SendControl

end Eular.Utp
