/-
What goes out again, as runs of allowed moves: the scheduled packets, the
batches and the split, `onCanWrite`, and with them every event of the
send control (`step_reaches`).

A batch edits lost packets where they stand, so a packet that is ready is
in `m_lostPackets` in its edited form; `ReadyBatch` is what holds of the
packets the preparing loop hands to the socket.
-/
import Eular.Utp.Send.Proofs.NonceUnique
import Eular.Utp.Send.Proofs.Simulation

namespace Eular.Utp

open Lib

variable {gcm : Gcm} {st : Status} {req : SendRequest} {env : SendEnv}

-- ==== preparing

theorem resealPacket_packetNumber (aesCtx : Option AesGcmContext)
    (packetNumber : UInt64) (needResetPackNo : Bool) (packet : PacketOut) :
    (resealPacket gcm aesCtx packetNumber needResetPackNo packet).packetNumber
      = packetNumber := by
  unfold resealPacket
  split
  · rfl
  · split
    · split
      · rfl
      · rfl
    · rfl

/-- The packet is the same but for its number and its sealed form. A packet
that keeps its plaintext keeps its bytes. -/
structure Resealed (packet packet' : PacketOut) : Prop where
  poFlags : packet'.poFlags = packet.poFlags
  frameTypes : packet'.frameTypes = packet.frameTypes
  frameMeta : packet'.frameMeta = packet.frameMeta
  streamDataSize : packet'.streamDataSize = packet.streamDataSize
  transientAckSize : packet'.transientAckSize = packet.transientAckSize
  dataSize : packet.dataSize ≤ packet'.dataSize
  body : (packet.poFlags.encrypted = true → packet.poFlags.keepPlaintext = true) →
    packet'.body = packet.body

theorem Resealed.refl (packet : PacketOut) : Resealed packet packet :=
  ⟨rfl, rfl, rfl, rfl, rfl, le_refl _, fun _ => rfl⟩

theorem resealed_encrypt {ctx : AesGcmContext} {packet packet' : PacketOut}
    (hflag : packet.poFlags.encrypted = true) (h : ctx.encrypt gcm packet = .ok packet') :
    Resealed packet { packet' with dataSize := packet'.encryptDataSize } := by
  unfold AesGcmContext.encrypt at h
  simp only at h
  split_ifs at h with hsmall hlarge hplace
  · cases h
    refine ⟨by simp only [← hflag], rfl, rfl, rfl, rfl, ?_, ?_⟩
    · simp only [AesGcmContext.length_sealBytes, length_readMem]
      omega
    · intro hkeep
      rw [hkeep hflag] at hplace
      exact absurd hplace (by simp)
  · cases h
    refine ⟨by simp only [← hflag], rfl, rfl, rfl, rfl, ?_, fun _ => rfl⟩
    simp only [AesGcmContext.length_sealBytes, length_readMem]
    omega

theorem resealPacket_resealed (gcm : Gcm) (aesCtx : Option AesGcmContext) (packetNumber : UInt64)
    (needResetPackNo : Bool) (packet : PacketOut) :
    Resealed packet (resealPacket gcm aesCtx packetNumber needResetPackNo packet).packet := by
  unfold resealPacket
  split
  · exact .refl packet
  · split
    · next henc =>
        split
        · exact .refl packet
        · next hsealed => exact resealed_encrypt (Bool.and_eq_true_iff.mp henc).1 hsealed
    · exact .refl packet

theorem renewPacket_resealed (aesCtx : Option AesGcmContext) (packetNumber : UInt64)
    (packet : PacketOut) :
    Resealed packet (renewPacket gcm aesCtx packetNumber packet).packet := by
  unfold renewPacket
  split
  · split
    · exact .refl packet
    · next renumbered hrewrite =>
        have h := resealPacket_resealed gcm aesCtx (packetNumber + 1) true renumbered
        unfold rewritePacketNumber at hrewrite
        split_ifs at hrewrite
        cases hrewrite
        exact ⟨h.poFlags, h.frameTypes, h.frameMeta, h.streamDataSize, h.transientAckSize,
          h.dataSize, h.body⟩
  · exact resealPacket_resealed ..

/-- A lost packet that is prepared differs in its number and its seal. -/
theorem prepareLostPacket_resealed (gcm : Gcm) (renv : RetransmitEnv)
    (aesCtx : Option AesGcmContext) (packet : PacketOut) :
    ∃ base, (base = packet ∨ stripTransientAckPayload packet = some base)
      ∧ Resealed base (prepareLostPacket gcm renv aesCtx packet).packet := by
  unfold prepareLostPacket
  simp only
  split
  · exact ⟨packet, .inl rfl, .refl packet⟩
  · split
    · exact ⟨packet, .inl rfl, .refl packet⟩
    · next stripped hstripped =>
        have hbase : stripped = packet ∨ stripTransientAckPayload packet = some stripped := by
          split at hstripped
          · exact .inr hstripped
          · cases hstripped
            exact .inl rfl
        refine ⟨stripped, hbase, ?_⟩
        split
        · split
          · exact .refl stripped
          · exact .refl stripped
        · exact renewPacket_resealed ..

theorem prepareLostPacket_poFlags (renv : RetransmitEnv)
    (aesCtx : Option AesGcmContext) (packet : PacketOut) :
    (prepareLostPacket gcm renv aesCtx packet).packet.poFlags = packet.poFlags := by
  obtain ⟨base, hbase, hresealed⟩ := prepareLostPacket_resealed gcm renv aesCtx packet
  rw [hresealed.poFlags]
  rcases hbase with rfl | hstrip
  · rfl
  · exact stripTransientAckPayload_flags hstrip

theorem prepareLostPacket_packetNumber (gcm : Gcm) (renv : RetransmitEnv)
    (aesCtx : Option AesGcmContext) (packet : PacketOut) :
    (prepareLostPacket gcm renv aesCtx packet).packetNumber = renv.packetNumber
      ∨ (prepareLostPacket gcm renv aesCtx packet).packetNumber = renv.packetNumber + 1 := by
  unfold prepareLostPacket
  simp only
  split
  · exact .inl rfl
  · split
    · exact .inl rfl
    · split
      · split
        · exact .inl rfl
        · exact .inl rfl
      · unfold renewPacket
        split
        · split
          · exact .inl rfl
          · right
            exact resealPacket_packetNumber ..
        · left
          exact resealPacket_packetNumber ..

theorem checkSend_error
    (h : checkSend env req = .error st) : st.ok = false := by
  unfold checkSend at h
  simp only at h
  split_ifs at h <;> cases h <;> rfl

theorem buildPacket_error
    (h : buildPacket gcm env req = .error st) : st.ok = false := by
  unfold buildPacket at h
  split at h
  · cases h
    rfl
  · split at h
    · cases h
    · split at h
      · split at h
        · next henc =>
            cases h
            unfold AesGcmContext.encrypt at henc
            simp only at henc
            split_ifs at henc <;> cases henc <;> rfl
        · cases h
      · unfold scatterEncryptOnly AesGcmContext.encryptScatter at h
        split at h
        · next hscatter =>
            cases h
            simp only at hscatter
            split_ifs at hscatter
            cases hscatter
            rfl
        · cases h

theorem sendPacket_error
    (h : sendPacket gcm env req = .error st) : st.ok = false := by
  unfold sendPacket at h
  split at h
  · next hcheck =>
      cases h
      exact checkSend_error hcheck
  · split at h
    · next hbuild =>
        cases h
        exact buildPacket_error hbuild
    · split at h
      · cases h
        rfl
      · split at h
        · split at h
          · cases h
            rfl
          · next hblock =>
              cases h
              simp only [Bool.or_eq_true, not_or, Bool.not_eq_true] at hblock
              exact hblock.1
        · cases h

namespace SendControl

variable {gcm : Gcm} {env : SendCtlEnv} {rules : Rules}

/-- A packet keeps its number, or takes the next one. -/
theorem takeNumber_cases {s : SendControl} {packetNumber : UInt64}
    (h : packetNumber = s.packetNumber ∨ packetNumber = s.packetNumber + 1) :
    (s.takeNumber packetNumber).toQueues = s.toQueues
      ∨ (s.takeNumber packetNumber).toQueues = s.toQueues.takeNumber := by
  rcases h with rfl | rfl
  · left
    rw [takeNumber_self]
  · right
    rw [takeNumber_succ]

theorem takeNumber_lostPackets (s : SendControl) (packetNumber : UInt64) :
    (s.takeNumber packetNumber).lostPackets = s.lostPackets := by
  unfold takeNumber
  split
  · rfl
  · rfl

variable (gcm env rules) in
theorem prepareLost_spec {s : SendControl} {q : QueuedPacket} (hq : q ∈ s.lostPackets) :
    Reaches Queues.move (Queues.Settles gcm rules) s.toQueues (s.prepareLost gcm env q).1.toQueues
      ∧ (s.prepareLost gcm env q).2.1 ∈ (s.prepareLost gcm env q).1.lostPackets
      ∧ (s.prepareLost gcm env q).2.1.ptr = q.ptr
      ∧ ∀ b ∈ s.lostPackets, b.ptr ≠ q.ptr → b ∈ (s.prepareLost gcm env q).1.lostPackets := by
  have hlost : (s.prepareLost gcm env q).1.lostPackets
      = (s.toQueues.edit q (s.prepareLost gcm env q).2.1.packet).lostPackets := by
    exact takeNumber_lostPackets _ _
  refine ⟨?_, ?_, rfl, ?_⟩
  · have hedit : Reaches Queues.move (Queues.Settles gcm rules) s.toQueues
        (s.toQueues.edit q (s.prepareLost gcm env q).2.1.packet) :=
      .single (QueueMove.edit q _) ⟨⟨hq, _, _, rfl⟩, rfl⟩
    refine hedit.trans ?_
    have hnumber := prepareLostPacket_packetNumber gcm (s.retransmitEnv env) env.aesCtx
      q.packet
    rcases takeNumber_cases (s := { s with
      toQueues := s.toQueues.edit q (s.prepareLost gcm env q).2.1.packet }) hnumber with h | h
    · exact h ▸ .refl _
    · exact h ▸ .single QueueMove.takeNumber ⟨trivial, rfl⟩
  · rw [hlost]
    exact mem_replaceKey_self hq rfl
  · intro b hb hne
    rw [hlost]
    exact mem_replaceKey_of_ne hb hne

-- ==== split

/-- A split moves only what its sends append. -/
theorem splitWalk_reaches (hrules : rules.Keeps gcm env) (s : SendControl) (senv : SplitEnv)
    {q : QueuedPacket} (hq : q ∈ s.lostPackets) :
    Reaches Queues.move (Queues.Sending rules) s.toQueues
      (Utp.retransmitSplitStreamPacket (splitCalls gcm env) senv q.packet s).2.toQueues := by
  have hrule : SplitRule (splitCalls gcm env) senv q.packet fun _ _ t =>
      Reaches Queues.move (Queues.Sending rules) s.toQueues t.toQueues := by
    constructor
    · intro done sentAny t frame ht hchunk
      have hsource : rules.Source t.toQueues frame := by
        refine .inr ⟨q, ?_, senv.streamChunkBudget, ?_, hchunk⟩
        · rw [lostPackets_of_sending ht]
          exact hq
        · exact Nat.lt_of_lt_of_le Nat.zero_lt_one (Nat.le_max_right _ _)
      rw [ite_self]
      exact ht.trans (t.sendStreamFrame_reaches hrules hsource)
    · intro done st ht hbatch hpayload
      rw [ite_self]
      refine ht.trans (st.conn.sendPacket_reaches hrules (.flush q st ?_ hbatch hpayload))
      rw [lostPackets_of_sending ht]
      exact hq
  obtain ⟨done, sentAny, hreach, -⟩ := retransmitSplitStreamPacket_rule hrule s (.refl _)
  exact hreach

end SendControl

/-- A split that says it is done is allowed to retire the packet. -/
def Rules.Retires (rules : Rules) (gcm : Gcm) (env : SendCtlEnv) : Prop :=
  ∀ (s : SendControl), ∀ q ∈ s.lostPackets,
    (retransmitSplitStreamPacket (SendControl.splitCalls gcm env) (s.splitEnv env) q.packet s).1.ok
      = true →
    rules.mayRetire
      (retransmitSplitStreamPacket (SendControl.splitCalls gcm env) (s.splitEnv env) q.packet
        s).2.toQueues q

namespace SendControl

variable {gcm : Gcm} {env : SendCtlEnv} {rules : Rules}
variable {s : SendControl} {q : QueuedPacket}

/-- And what it retires it may retire. -/
theorem retransmitSplitStreamPacket_spec (hrules : rules.Keeps gcm env)
    (hretire : rules.Retires gcm env)
    (hq : q ∈ s.lostPackets) :
    Reaches Queues.move (Queues.Settles gcm rules) s.toQueues
        (s.retransmitSplitStreamPacket gcm env q).2.toQueues
      ∧ ∀ b ∈ s.lostPackets, b.ptr ≠ q.ptr →
          b ∈ (s.retransmitSplitStreamPacket gcm env q).2.lostPackets := by
  have hwalk := s.splitWalk_reaches hrules (s.splitEnv env) hq
  have hlost := lostPackets_of_sending hwalk
  have hwalk' := hwalk.imp fun _ _ => Queues.Sending.settles gcm
  unfold retransmitSplitStreamPacket
  simp only
  split
  · next hok =>
      refine ⟨hwalk'.trans (.single (QueueMove.retire q) ⟨⟨?_, hretire s q hq hok⟩, rfl⟩), ?_⟩
      · rw [hlost]
        exact hq
      · intro b hb hne
        apply mem_removeKey_of_ne _ hne
        rw [hlost]
        exact hb
  · refine ⟨hwalk', ?_⟩
    intro b hb _
    rw [hlost]
    exact hb

-- ==== batch

/-- What holds when the preparing loop is done: the packets that are ready
are lost ones, each once, and packets it did not come to stay. -/
structure ReadyBatch (gcm : Gcm) (rules : Rules) (s : SendControl) (queue : List QueuedPacket)
    (b : Batch) : Prop where
  reaches : Reaches Queues.move (Queues.Settles gcm rules) s.toQueues b.state.toQueues
  ready : ∀ r ∈ b.ready, r.1 ∈ b.state.lostPackets
  sublist : (b.ready.map fun r => r.1.ptr).Sublist (queue.map QueuedPacket.ptr)
  stays : ∀ x ∈ s.lostPackets, x.ptr ∉ queue.map QueuedPacket.ptr → x ∈ b.state.lostPackets

/-- By induction on what the batch still takes. -/
theorem prepareBatch_spec (hrules : rules.Keeps gcm env) (hretire : rules.Retires gcm env)
    (batchCap : Nat) :
    ∀ (queue : List QueuedPacket) (s : SendControl), (queue.map QueuedPacket.ptr).Nodup →
      (∀ q ∈ queue, q ∈ s.lostPackets) →
      ReadyBatch gcm rules s queue (s.prepareBatch gcm env batchCap queue) := by
  have hstop : ∀ (queue : List QueuedPacket) (s : SendControl),
      ReadyBatch gcm rules s queue { state := s } := by
    intro queue s
    exact ⟨.refl _, fun _ h => absurd h List.not_mem_nil, List.nil_sublist _, fun _ h _ => h⟩
  induction batchCap with
  | zero =>
    intro queue s _ _
    exact hstop queue s
  | succ batchCap ih =>
    intro queue s hn hmem
    cases queue with
    | nil => exact hstop [] s
    | cons q rest =>
      rw [List.map_cons, List.nodup_cons] at hn
      have hspec := prepareLost_spec gcm env rules (hmem q List.mem_cons_self)
      unfold prepareBatch
      generalize s.prepareLost gcm env q = p at hspec ⊢
      obtain ⟨s₁, q', attempt⟩ := p
      obtain ⟨hreach, hq', hptr, hstay⟩ := hspec
      simp only at hreach hq' hptr hstay
      have hstay' : ∀ x ∈ s.lostPackets, x.ptr ∉ (q :: rest).map QueuedPacket.ptr →
          x ∈ s₁.lostPackets := by
        intro x hx hne
        rw [List.map_cons, List.mem_cons, not_or] at hne
        exact hstay x hx hne.1
      cases attempt with
      | blocked st =>
        exact ⟨hreach, fun _ h => absurd h List.not_mem_nil, List.nil_sublist _, hstay'⟩
      | split =>
        have hsplit := retransmitSplitStreamPacket_spec hrules hretire hq'
        refine ⟨hreach.trans hsplit.1, fun _ h => absurd h List.not_mem_nil,
          List.nil_sublist _, ?_⟩
        intro x hx hne
        have hne' : x.ptr ≠ q.ptr := by
          rw [List.map_cons, List.mem_cons, not_or] at hne
          exact hne.1
        exact hsplit.2 x (hstay x hx hne') (by rw [hptr]; exact hne')
      | ready wire =>
        have hrest : ∀ x ∈ rest, x ∈ s₁.lostPackets := by
          intro x hx
          apply hstay x (hmem x (List.mem_cons_of_mem q hx))
          intro heq
          exact hn.1 (List.mem_map.mpr ⟨x, hx, heq⟩)
        have hb := ih rest s₁ hn.2 hrest
        refine ⟨hreach.trans hb.reaches, ?_, ?_, ?_⟩
        · intro r hr
          rcases List.mem_cons.mp hr with rfl | hr
          · exact hb.stays q' hq' (by rw [hptr]; exact hn.1)
          · exact hb.ready r hr
        · rw [List.map_cons, List.map_cons]
          show (q'.ptr :: _).Sublist _
          rw [hptr]
          exact hb.sublist.cons_cons q.ptr
        · intro x hx hne
          apply hb.stays x (hstay' x hx hne)
          rw [List.map_cons, List.mem_cons, not_or] at hne
          exact hne.2

theorem distinct_of_allowed {s t : Queues}
    (h : Reaches Queues.move (Queues.Allowed gcm rules) s t) (hs : s.Distinct) : t.Distinct :=
  h.inv (fun _ _ hd hm => Queues.distinct_move hd hm) hs

theorem foldl_leave (queue : SendControl → List QueuedPacket)
    {f : SendControl → QueuedPacket → SendControl} {l : List QueuedPacket}
    (hstep : ∀ s, ∀ q ∈ l, q ∈ queue s →
      Reaches Queues.move (Queues.Allowed gcm rules) s.toQueues (f s q).toQueues
        ∧ queue (f s q) = removeKey QueuedPacket.ptr q.ptr (queue s))
    (hn : (l.map QueuedPacket.ptr).Nodup) (hl : ∀ q ∈ l, q ∈ queue s) :
    Reaches Queues.move (Queues.Allowed gcm rules) s.toQueues (l.foldl f s).toQueues := by
  refine foldl_queue QueuedPacket.ptr queue
    (fun t => Reaches Queues.move (Queues.Allowed gcm rules) s.toQueues t.toQueues)
    ?_ (.refl _) hn hl
  intro t q hq ht hmem
  obtain ⟨hreach, hleave⟩ := hstep t q hq hmem
  refine ⟨ht.trans hreach, ?_⟩
  intro b hb hne
  rw [hleave]
  exact mem_removeKey_of_ne hb hne

theorem foldl_resend (nowUs : Nat) (l : List QueuedPacket) (s : SendControl) :
    (l.foldl (resendPacket nowUs) s).unackedPackets
        = s.unackedPackets ++ l.map (Queues.resentPacket nowUs)
      ∧ (l.foldl (resendPacket nowUs) s).scheduledPackets = s.scheduledPackets
      ∧ (l.foldl (resendPacket nowUs) s).lostPackets.Sublist s.lostPackets
      ∧ (l.foldl (resendPacket nowUs) s).packetNumber = s.packetNumber
      ∧ (l.foldl (resendPacket nowUs) s).numbersTaken = s.numbersTaken := by
  induction l generalizing s with
  | nil => exact ⟨(List.append_nil _).symm, rfl, .refl _, rfl, rfl⟩
  | cons q l ih =>
    obtain ⟨hu, hs, hl, hpn, hn⟩ := ih (s.resendPacket nowUs q)
    refine ⟨?_, hs, hl.trans (removeKey_sublist _ _ _), hpn, hn⟩
    rw [List.foldl_cons, hu, List.map_cons, List.append_cons]
    rfl

/-- What the socket has taken of a batch goes from lost to unacknowledged. -/
theorem sendBatch_reaches {queue : List QueuedPacket} {b : Batch}
    (hb : ReadyBatch gcm rules s queue b) (hn : (queue.map QueuedPacket.ptr).Nodup)
    (nowUs : Nat) :
    Reaches Queues.move (Queues.Allowed gcm rules) s.toQueues
      (sendBatch env nowUs b).toQueues := by
  have hprep := hb.reaches.imp fun _ _ h => h.1
  have hsub : (taken env b.ready).Sublist (b.ready.map Prod.fst) :=
    (List.take_sublist _ _).map Prod.fst
  have hptrs : (b.ready.map Prod.fst).map QueuedPacket.ptr
      = b.ready.map fun r => r.1.ptr := by
    rw [List.map_map]
    rfl
  have hresend : Reaches Queues.move (Queues.Allowed gcm rules) b.state.toQueues
      ((taken env b.ready).foldl (resendPacket nowUs) b.state).toQueues := by
    refine foldl_leave (fun t => t.lostPackets) ?_ ?_ ?_
    · intro t q _ hmem
      exact ⟨.single (QueueMove.resend nowUs q) hmem, rfl⟩
    · apply (hsub.map QueuedPacket.ptr).nodup
      rw [hptrs]
      exact hb.sublist.nodup hn
    · intro q hq
      obtain ⟨r, hr, rfl⟩ := List.mem_map.mp (hsub.subset hq)
      exact hb.ready r hr
  unfold sendBatch
  simp only
  split
  · exact hprep
  · rw [retransAlarm_toQueues]
    exact hprep.trans hresend

/-- One batch, as a path of guarded moves. -/
theorem retransmitLostBatch_reaches (hrules : rules.Keeps gcm env)
    (hretire : rules.Retires gcm env) (hd : s.toQueues.Distinct)
    (nowUs maxPackets : Nat) :
    Reaches Queues.move (Queues.Allowed gcm rules) s.toQueues
      (s.retransmitLostBatch gcm env nowUs maxPackets).state.toQueues := by
  unfold retransmitLostBatch
  split
  · exact .refl _
  · exact sendBatch_reaches
      (prepareBatch_spec hrules hretire _ _ s hd.lost fun _ h => h) hd.lost nowUs

theorem retransmitLostPacket_reaches (hrules : rules.Keeps gcm env)
    (hretire : rules.Retires gcm env)
    (hq : q ∈ s.lostPackets) (nowUs : Nat) :
    Reaches Queues.move (Queues.Allowed gcm rules) s.toQueues
      (s.retransmitLostPacket gcm env q nowUs).2.toQueues := by
  have hspec := prepareLost_spec gcm env rules hq
  unfold retransmitLostPacket
  split
  · exact .refl _
  · generalize s.prepareLost gcm env q = p at hspec ⊢
    obtain ⟨s₁, q', attempt⟩ := p
    obtain ⟨hreach, hq', -, -⟩ := hspec
    have hreach' : Reaches Queues.move (Queues.Allowed gcm rules) s.toQueues s₁.toQueues :=
      hreach.imp fun _ _ h => h.1
    cases attempt with
    | blocked st => exact hreach'
    | split =>
      have hsplit := (retransmitSplitStreamPacket_spec hrules hretire hq').1.imp
        fun _ _ h => h.1
      simp only
      split
      · exact hreach'.trans hsplit
      · exact hreach'.trans hsplit
    | ready wire =>
      have hresend : Reaches Queues.move (Queues.Allowed gcm rules) s₁.toQueues
          (s₁.resendPacket nowUs q').toQueues := .single (QueueMove.resend nowUs q') hq'
      simp only
      split
      · exact hreach'
      · simp only
        split
        · rw [retransAlarm_toQueues]
          exact hreach'.trans hresend
        · exact hreach'.trans hresend

-- ==== scheduled

theorem schedulePacket_reaches (s : SendControl) {packet : PacketOut} (trackOnSend : Bool)
    (hsched : ∀ q : QueuedPacket,
      q.packet = { packet with poFlags := { packet.poFlags with sched := true } } →
        rules.maySchedule q) :
    Reaches Queues.move (Queues.Allowed gcm rules) s.toQueues
      (s.schedulePacket env packet trackOnSend).2.toQueues := by
  unfold schedulePacket
  split
  · exact .refl _
  · split
    · exact .refl _
    · exact .single (QueueMove.schedule _) ⟨rfl, hsched _ rfl⟩

theorem flushPacket_reaches (nowUs : Nat)
    (hq : q ∈ s.scheduledPackets) :
    Reaches Queues.move (Queues.Allowed gcm rules) s.toQueues (flushPacket nowUs s q).toQueues
      ∧ (flushPacket nowUs s q).scheduledPackets
        = removeKey QueuedPacket.ptr q.ptr s.scheduledPackets := by
  unfold flushPacket
  simp only
  split
  · split
    · rw [retransAlarm_toQueues]
      exact ⟨.single (QueueMove.flush nowUs q) hq, rfl⟩
    · exact ⟨.single (QueueMove.flush nowUs q) hq, rfl⟩
  · exact ⟨.single (QueueMove.drop q) hq, rfl⟩

variable (env) in
theorem flushable_sublist (s : SendControl) (maxPackets : Nat) :
    (s.flushable env maxPackets).Sublist s.scheduledPackets :=
  (List.take_sublist _ _).trans (List.take_sublist _ _)

/-- What a flush sends leaves the scheduled queue from its front. -/
theorem flushScheduledPackets_reaches (hd : s.toQueues.Distinct)
    (nowUs maxPackets : Nat) :
    Reaches Queues.move (Queues.Allowed gcm rules) s.toQueues
      (s.flushScheduledPackets env nowUs maxPackets).1.toQueues := by
  have hsub := s.flushable_sublist env maxPackets
  unfold flushScheduledPackets
  split
  · exact .refl _
  · refine foldl_leave (fun t => t.scheduledPackets) ?_
      ((hsub.map QueuedPacket.ptr).nodup hd.scheduled) fun q hq => hsub.subset hq
    intro t q _ hmem
    exact flushPacket_reaches nowUs hmem

-- ==== onCanWrite

theorem resendLoop_reaches (hrules : rules.Keeps gcm env) (hretire : rules.Retires gcm env)
    (hd : s.toQueues.Distinct) (fuel : Nat) :
    ∀ (i : Nat) (r : BatchResult) (budget : Nat),
      Reaches Queues.move (Queues.Allowed gcm rules) s.toQueues r.state.toQueues →
      Reaches Queues.move (Queues.Allowed gcm rules) s.toQueues
        (resendLoop gcm env fuel i r budget).state.toQueues := by
  induction fuel with
  | zero =>
    intro i r budget hr
    exact hr
  | succ fuel ih =>
    intro i r budget hr
    have hbatch := hr.trans (retransmitLostBatch_reaches hrules hretire
      (distinct_of_allowed hr hd) (env.nowUs i) (budget - r.sent))
    unfold resendLoop
    split
    · simp only
      split
      · exact hbatch
      · exact ih _ _ _ hbatch
    · exact hr

theorem resendLost_reaches (hrules : rules.Keeps gcm env) (hretire : rules.Retires gcm env)
    (hd : s.toQueues.Distinct) (sentAny : Bool) :
    Reaches Queues.move (Queues.Allowed gcm rules) s.toQueues
      (s.resendLost gcm env sentAny).toQueues := by
  have hloop : Reaches Queues.move (Queues.Allowed gcm rules) s.toQueues
      (s.resendRounds gcm env sentAny).state.toQueues :=
    resendLoop_reaches hrules hretire hd _ _ _ _ (.refl _)
  unfold resendLost
  simp only
  split
  · exact hloop
  · exact hloop

theorem shouldTrackPacket_connected {req : SendRequest} (s : SendControl)
    (hstate : env.state = .connected) (hack : req.isAckOnlyPacket = false) :
    req.shouldTrackPacket (s.sendEnv env) = true := by
  unfold SendRequest.shouldTrackPacket
  have hstate' : (s.sendEnv env).state = .connected := hstate
  simp [hack, hstate']

theorem sendPacket_tracked {req : SendRequest} {streamId streamOffset : Nat}
    (htrack : req.shouldTrackPacket (s.sendEnv env) = true)
    (hok : (s.sendPacket gcm env req streamId streamOffset).1.ok = true) :
    ∃ packet, KeptOf (s.sendEnv env) req packet
      ∧ (s.sendPacket gcm env req streamId streamOffset).2.toQueues
        = s.toQueues.takeNumber.keep
            (queuedPacket env s.nextPtr packet streamId streamOffset) := by
  unfold sendPacket at hok ⊢
  cases hsend : Utp.sendPacket gcm (s.sendEnv env) req with
  | error st =>
    simp only [hsend] at hok
    exact absurd hok (by rw [sendPacket_error hsend]; exact Bool.false_ne_true)
  | ok sent =>
    obtain ⟨built, hby⟩ := sendPacket_ok hsend
    have hkept := hby.kept
    rw [htrack] at hkept
    obtain ⟨wire, kept⟩ := sent
    cases hkept
    refine ⟨_, (keptOf_sent hsend).1, ?_⟩
    have hnumber : numberAfterSend (s.sendEnv env) req = s.packetNumber + 1 := by
      unfold numberAfterSend
      split
      · next hcheck =>
          unfold Utp.sendPacket at hsend
          rw [hcheck] at hsend
          cases hsend
      · rfl
    simp only [hnumber, takeNumber_succ, packetSent_toQueues]

theorem probeRequest_isAckOnlyPacket (packetSize : Nat) :
    (probeRequest packetSize).isAckOnlyPacket = false := rfl

theorem sendMtuProbe_reaches (hrules : rules.Keeps gcm env) (s : SendControl) (nowMs : Nat)
    (hstate : env.state = .connected) :
    Reaches Queues.move (Queues.Settles gcm rules) s.toQueues
      (s.sendMtuProbe gcm env nowMs).toQueues := by
  unfold sendMtuProbe
  simp only
  generalize MtuDiscovery.packetSizeFromMtu s.mtu.nextProbeMtu env.peerIpv6 = packetSize
  split
  · exact .refl _
  · have hsend := (s.sendPacket_reaches hrules (.probe packetSize)).imp
      fun _ _ => Queues.Sending.settles gcm
    split
    · next hok =>
        have htrack := s.shouldTrackPacket_connected hstate
          (probeRequest_isAckOnlyPacket packetSize)
        obtain ⟨packet, hkept, hqueues⟩ := sendPacket_tracked htrack hok
        refine hsend.trans (.single (QueueMove.note (.probeSent s.nextPtr))
          ⟨⟨queuedPacket env s.nextPtr packet 0 0, ?_, rfl, ?_⟩, rfl⟩)
        · rw [hqueues]
          exact List.mem_append_right _ List.mem_cons_self
        · exact hkept.flags.1
    · exact hsend

theorem maybeSendMtuProbe_reaches (hrules : rules.Keeps gcm env) (s : SendControl)
    (nowUs i : Nat) :
    Reaches Queues.move (Queues.Settles gcm rules) s.toQueues
      (s.maybeSendMtuProbe gcm env nowUs i).toQueues := by
  unfold maybeSendMtuProbe
  split
  · exact .refl _
  · next hcan =>
      have hstate : env.state = .connected := by
        simp only [Bool.or_eq_true, decide_eq_true_eq, not_or, not_not] at hcan
        exact hcan.2
      simp only
      split
      · exact sendMtuProbe_reaches hrules { s with mtu := s.mtu.onProbeTimeout (nowUs / 1000) } _
          hstate
      · exact .refl _

/-- The flush, the batches and the probe in a row. -/
theorem onCanWrite_reaches (hrules : rules.Keeps gcm env) (hretire : rules.Retires gcm env)
    (hd : s.toQueues.Distinct) :
    Reaches Queues.move (Queues.Allowed gcm rules) s.toQueues (s.onCanWrite gcm env).toQueues := by
  have hflush : Reaches Queues.move (Queues.Allowed gcm rules) s.toQueues
      (s.flushScheduledPackets env (env.nowUs 0) kSendBatchCap).1.toQueues :=
    flushScheduledPackets_reaches hd _ _
  have hlost := resendLost_reaches hrules hretire (distinct_of_allowed hflush hd)
    (s.flushScheduledPackets env (env.nowUs 0) kSendBatchCap).2
  have hprobe := (maybeSendMtuProbe_reaches hrules (resendLost gcm env
    (s.flushScheduledPackets env (env.nowUs 0) kSendBatchCap).1
    (s.flushScheduledPackets env (env.nowUs 0) kSendBatchCap).2)
    (env.nowUs (s.lostPackets.length + 1)) (s.lostPackets.length + 1)).imp fun _ _ h => h.1
  unfold onCanWrite
  split
  · exact .refl _
  · exact hflush.trans (hlost.trans hprobe)

-- ==== events

/-- The packets an event gives up as regular ones. -/
def Loses (gcm : Gcm) (s : SendControl) (q : QueuedPacket) : SendCtlEnv × SendCtlOp → Prop
  | (env, .ack ackInfo) =>
    s.AckDetects ackInfo ∧ (s.ackedState gcm env ackInfo).GivesUp env q
  | (env, .detectLosses) => s.GivesUp env q
  | (_, .expireUnacked filter) => s.Expires filter q
  | (env, .retransTimer) => s.TimerGivesUp env q
  | _ => False

/-- The packets an event schedules. -/
def Schedules (q : QueuedPacket) : SendCtlEnv × SendCtlOp → Prop
  | (_, .schedulePacket packet _) =>
    q.packet = { packet with poFlags := { packet.poFlags with sched := true } }
  | _ => False

/-- What the rules leave open holds of an event. -/
structure Fits (gcm : Gcm) (rules : Rules) (s : SendControl) (op : SendCtlEnv × SendCtlOp) :
    Prop where
  keeps : rules.Keeps gcm op.1
  retires : rules.Retires gcm op.1
  streams : ∀ frame, op.2 = .send (.streamFrame frame) → rules.mayStream frame
  schedules : ∀ q, Schedules q op → rules.maySchedule q
  loses : ∀ q, s.Loses gcm q op → rules.mayLose q

/-- Every event of the send control is a path of guarded moves. -/
theorem step_reaches (hd : s.toQueues.Distinct) (op : SendCtlEnv × SendCtlOp)
    (hfits : s.Fits gcm rules op) :
    Reaches Queues.move (Queues.Allowed gcm rules) s.toQueues (s.step gcm op).toQueues := by
  obtain ⟨env, op⟩ := op
  obtain ⟨hrules, hretire, hstream, hsched, hlose⟩ := hfits
  simp only at hrules hretire hstream
  cases op with
  | send c =>
    cases c with
    | packet req =>
      exact (s.sendPacket_reaches hrules (.control req)).imp
        fun _ _ h => (Queues.Sending.settles gcm h).1
    | streamFrame frame =>
      exact (s.sendStreamFrame_reaches hrules (.inl (hstream frame rfl))).imp
        fun _ _ h => (Queues.Sending.settles gcm h).1
  | schedulePacket packet trackOnSend =>
    exact s.schedulePacket_reaches trackOnSend hsched
  | flushScheduledPackets n => exact flushScheduledPackets_reaches hd _ n
  | ack ackInfo =>
    exact (onAckReceived_reaches hrules hd ackInfo fun q hdetects hgives =>
      hlose q ⟨hdetects, hgives⟩).imp fun _ _ h => h.1
  | detectLosses => exact (detectLosses_reaches hd _ hlose).imp fun _ _ h => h.1
  | expireUnacked filter => exact (expireUnacked_reaches hd filter hlose).imp fun _ _ h => h.1
  | retransTimer => exact (onRetransTimer_reaches hd hlose).imp fun _ _ h => h.1
  | retransmitLostBatch n => exact retransmitLostBatch_reaches hrules hretire hd _ n
  | retransmitLostPacket ptr =>
    unfold step
    dsimp only
    split
    · next q hq =>
        exact retransmitLostPacket_reaches hrules hretire (List.mem_of_find?_eq_some hq) _
    · exact .refl _
  | retransmitSplitStreamPacket ptr =>
    unfold step
    dsimp only
    split
    · next q hq =>
        exact (retransmitSplitStreamPacket_spec hrules hretire
          (List.mem_of_find?_eq_some hq)).1.imp fun _ _ h => h.1
    · exact .refl _
  | canWrite => exact onCanWrite_reaches hrules hretire hd

end SendControl

end Eular.Utp
