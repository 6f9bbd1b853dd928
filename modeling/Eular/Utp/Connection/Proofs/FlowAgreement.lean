/-
What flow control promises and what it keeps.

The server of a connection never learns the connection window of its
client: `initPassive` takes over the parameters and leaves
`m_peerMaxData` at 0, which stands for no limit. So the two sides
disagree from the first moment of every run.

The server advertises 16 MiB for a stream and 64 MiB for the connection
whatever its `Config`, and buffers 2 MiB. So a client that keeps to all
the limits it was given is refused: `filled_rounds` sends one byte at a
time to a server whose application does not read, and the byte after the
first 2 MiB finds the buffer full.
-/
import Eular.Utp.Connection.Proofs.FlowLimits
import Eular.Utp.Connection.Proofs.LateFrame

namespace Eular.Utp

open Lib

variable {t : Streams} {n : Nat}

-- ==== one by one

/-- The stream holds its first `n` bytes, each in a fragment of its own, and
none was read. -/
structure InOrder (n : Nat) (s : StreamImpl) : Prop where
  streamId : s.streamId = 0
  recvOffset : s.recvOffset = 0
  resetByPeer : s.resetByPeer = false
  localFinQueued : s.localFinQueued = false
  buffered : s.recvBufferedBytes = n
  fragments : ∀ f ∈ s.recvFragmentsTree, f.offset < n ∧ f.len = 1 ∧ f.consumed = 0

/-- The byte at `n`. -/
def byteFrame (n : Nat) : FrameStream :=
  { streamFlag := 0, streamId := 0, streamOffset := n, streamData := [0] }

theorem inOrder_init : InOrder 0 { streamId := 0 } :=
  ⟨rfl, rfl, rfl, rfl, rfl, fun _ h => (by cases h)⟩

theorem maybeAdvancePeerFin_eq_self {s : StreamImpl}
    (h : ∀ f ∈ s.recvFragmentsTree, f.remaining ≠ 0) : s.maybeAdvancePeerFin = s := by
  unfold StreamImpl.maybeAdvancePeerFin
  cases htree : s.recvFragmentsTree with
  | nil =>
    unfold StreamImpl.advancePeerFin
    rw [← htree]
  | cons f rest =>
    unfold StreamImpl.advancePeerFin
    rw [if_neg, ← htree]
    intro hdone
    exact h f (htree ▸ List.mem_cons_self ..) hdone.2

namespace InOrder

variable {n : Nat} {s : StreamImpl}

theorem findLowerBound_eq_nil (h : InOrder n s) : s.findLowerBound n = [] := by
  unfold StreamImpl.findLowerBound lowerBound
  rw [List.dropWhile_eq_nil_iff]
  intro f hf
  exact decide_eq_true (h.fragments f hf).1

theorem lookup_eq_none (h : InOrder n s) :
    lookup RecvFragment.offset n s.recvFragmentsTree = none := by
  unfold lookup
  rw [List.find?_eq_none]
  intro f hf
  have hlt := (h.fragments f hf).1
  simp only [decide_eq_true_eq]
  omega

/-- The loop of `onFrame` has one thing to do: insert the byte. -/
theorem startFill_eq (h : InOrder n s) (hn : n ≤ 2 ^ 21) :
    s.startFill false n [0] = s.insertPiece n [0] false none := by
  have hfill : StreamImpl.fillGaps false (add64 n 1) (s.findLowerBound n) n [0] s none
      = s.insertPiece n [0] false none := by
    rw [h.findLowerBound_eq_nil]
    rfl
  unfold StreamImpl.startFill
  cases hprev : s.findPrev n with
  | none => exact hfill
  | some p =>
    have hmem : p ∈ s.recvFragmentsTree :=
      (List.takeWhile_sublist _).subset (List.mem_of_getLast? hprev)
    obtain ⟨hlt, hlen, -⟩ := h.fragments p hmem
    have hend : add64 p.offset p.len ≤ n := by
      rw [add64, hlen, Nat.mod_eq_of_lt (by omega)]
      omega
    have htrim : StreamImpl.trimBy p n [0] = (n, [0]) := by
      simp only [StreamImpl.trimBy]
      rw [if_pos hend]
    simp only [htrim]
    exact hfill

theorem onFrame_eq (h : InOrder n s) : s.onFrame (byteFrame n) = s.storeFrame false n [0] := by
  unfold StreamImpl.onFrame
  rw [if_neg (by rw [h.resetByPeer]; decide), if_neg (by rw [h.streamId]; simp [byteFrame])]
  have hfin : (byteFrame n).isFin = false := by simp [byteFrame, FrameStream.isFin]
  simp only [hfin]
  rw [if_neg (by rw [h.recvOffset]; exact Nat.not_lt_zero _)]
  rfl

theorem onFrame_success (h : InOrder n s) (hn : n < 2 ^ 21) :
    (s.onFrame (byteFrame n)).1 = .success ∧ InOrder (n + 1) (s.onFrame (byteFrame n)).2 := by
  have hinsert : s.insertRecvFragment { data := [0], offset := n, fin := false }
      = ⟨.success, true, { s with
          recvBufferedBytes := n + 1
          recvFragmentsTree := put RecvFragment.offset { data := [0], offset := n, fin := false }
            s.recvFragmentsTree }⟩ := by
    unfold StreamImpl.insertRecvFragment
    rw [if_neg (by
      rw [h.buffered]
      simp only [RecvFragment.len, StreamImpl.kMaxRecvFragmentBytes, List.length_singleton]
      omega)]
    simp only [h.lookup_eq_none, h.buffered]
    rfl
  have hfill := h.startFill_eq (Nat.le_of_lt hn)
  rw [StreamImpl.insertPiece, hinsert] at hfill
  have hstored : ∀ f ∈ put RecvFragment.offset { data := [0], offset := n, fin := false }
      s.recvFragmentsTree, f.offset < n + 1 ∧ f.len = 1 ∧ f.consumed = 0 := by
    intro f hf
    cases mem_of_mem_put hf with
    | inl hnew =>
      subst hnew
      exact ⟨Nat.lt_succ_self n, rfl, rfl⟩
    | inr hold =>
      obtain ⟨hlt, hrest⟩ := h.fragments f hold
      exact ⟨Nat.lt_succ_of_lt hlt, hrest⟩
  rw [h.onFrame_eq]
  unfold StreamImpl.storeFrame
  simp only [hfill, Status.ok_success, if_true, Bool.false_eq_true, if_false]
  rw [maybeAdvancePeerFin_eq_self]
  · refine ⟨trivial, ?_⟩
    rw [maybeNotifyClosed_eq]
    exact ⟨h.streamId, h.recvOffset, h.resetByPeer, h.localFinQueued, rfl, hstored⟩
  · intro f hf
    obtain ⟨-, hlen, hconsumed⟩ := hstored f hf
    rw [RecvFragment.remaining, hlen, hconsumed]
    decide

theorem onFrame_wouldBlock (h : InOrder n s) (hn : n = 2 ^ 21) :
    (s.onFrame (byteFrame n)).1 = .error .wouldBlock "recv buffer full" := by
  have hinsert : s.insertRecvFragment { data := [0], offset := n, fin := false }
      = ⟨.error .wouldBlock "recv buffer full", false, s⟩ := by
    unfold StreamImpl.insertRecvFragment
    rw [if_pos]
    rw [h.buffered, hn]
    decide
  have hfill := h.startFill_eq (Nat.le_of_eq hn)
  rw [StreamImpl.insertPiece, hinsert] at hfill
  rw [h.onFrame_eq]
  unfold StreamImpl.storeFrame
  simp only [hfill]
  rfl

end InOrder

-- ==== the receiver

/-- A frame for stream 0 finds the stream with its first `n` bytes. -/
def Buffers (n : Nat) (t : Streams) : Prop :=
  ∃ s t', t.findOrOpen 0 = .ok (s, t') ∧ InOrder n s

theorem ingestStreamFrame_status {t t' : Streams} {s : StreamImpl}
    (hopen : t.findOrOpen 0 = .ok (s, t')) :
    t.ingestStreamFrame (byteFrame n)
      = ((s.onFrame (byteFrame n)).1,
          (t'.store (s.onFrame (byteFrame n)).2).collectClosedStreams) := by
  unfold Streams.ingestStreamFrame
  rw [show (byteFrame n).streamId = 0 from rfl, hopen]

theorem Buffers.ingest (h : Buffers n t) (hn : n < 2 ^ 21) :
    (t.ingestStreamFrame (byteFrame n)).1 = .success
      ∧ Buffers (n + 1) (t.ingestStreamFrame (byteFrame n)).2 := by
  obtain ⟨s, t', hopen, hs⟩ := h
  obtain ⟨hok, hnext⟩ := hs.onFrame_success hn
  rw [ingestStreamFrame_status hopen]
  refine ⟨hok, (s.onFrame (byteFrame n)).2,
    (t'.store (s.onFrame (byteFrame n)).2).collectClosedStreams, ?_, hnext⟩
  have hkeep : (!Streams.collectable (s.onFrame (byteFrame n)).2) = true := by
    have hstate : (s.onFrame (byteFrame n)).2.state ≠ .closed := by
      unfold StreamImpl.state
      rw [hnext.localFinQueued]
      cases (s.onFrame (byteFrame n)).2.peerFin <;> simp
    unfold Streams.collectable
    simp [hstate]
  have hfind : (t'.store (s.onFrame (byteFrame n)).2).collectClosedStreams.find 0
      = some (s.onFrame (byteFrame n)).2 := by
    refine lookup_filter ?_ hkeep
    have hput : lookup StreamImpl.streamId _
        (put StreamImpl.streamId (s.onFrame (byteFrame n)).2 t'.streams) = some _ :=
      lookup_put_self _ _
    rw [hnext.streamId] at hput
    exact hput
  unfold Streams.findOrOpen
  rw [hfind]

theorem Buffers.refuse (h : Buffers n t) (hn : n = 2 ^ 21) :
    (t.ingestStreamFrame (byteFrame n)).1 = .error .wouldBlock "recv buffer full" := by
  obtain ⟨s, t', hopen, hs⟩ := h
  rw [ingestStreamFrame_status hopen]
  exact hs.onFrame_wouldBlock hn

-- ==== the sender

/-- A clock that stands still, and a network that takes every packet. -/
def idleFlowEnv : FlowEnv where
  nowUs := 1
  sendPacket _ := .success

/-- The side has sent the first `n` bytes of stream 0, under the limits of
the default transport parameters. -/
structure Sends (n : Nat) (c : FlowConn) : Prop where
  connected : c.connected = true
  stream : ∃ s, c.table.find 0 = some s
  nextSendOffset : c.nextSendOffset 0 = n
  streamDataSentTotal : c.streamDataSentTotal = n
  streamMaxSentOffset : c.streamMaxSentOffset 0 = n
  peerMaxData : c.peerMaxData = 64 * 1024 * 1024
  peerMaxStreamData : c.peerMaxStreamData 0 = none
  streamWindow : c.table.peerTP.initialMaxStreamDataBidiLocal = 16 * 1024 * 1024

/-- `ensureFlowControlAdvertised` writes one field. -/
theorem ensureFlowControlAdvertised_eq (c : FlowConn) (id : Nat) :
    ∃ advertised, c.ensureFlowControlAdvertised id
      = { c with localMaxStreamDataAdvertised := advertised } := by
  unfold FlowConn.ensureFlowControlAdvertised
  split
  · exact ⟨_, rfl⟩
  · cases c.localMaxStreamDataAdvertised id with
    | some _ => exact ⟨_, rfl⟩
    | none => exact ⟨_, rfl⟩

namespace Sends

variable {n : Nat} {c : FlowConn}

theorem ensure (h : Sends n c) (id : Nat) : Sends n (c.ensureFlowControlAdvertised id) := by
  obtain ⟨advertised, hadv⟩ := ensureFlowControlAdvertised_eq c id
  rw [hadv]
  exact ⟨h.connected, h.stream, h.nextSendOffset, h.streamDataSentTotal, h.streamMaxSentOffset,
    h.peerMaxData, h.peerMaxStreamData, h.streamWindow⟩

theorem peerStreamDataLimit_eq (h : Sends n c) :
    c.peerStreamDataLimit 0 = 16 * 1024 * 1024 := by
  unfold FlowConn.peerStreamDataLimit
  rw [h.peerMaxStreamData, h.streamWindow]
  rfl

theorem sendStreamFrame_eq (h : Sends n c) (hn : n ≤ 2 ^ 21) :
    c.sendStreamFrame idleFlowEnv (byteFrame n)
      = (.success, (c.ensureFlowControlAdvertised 0).onStreamDataSent 0 n 1,
          [.stream (byteFrame n)]) := by
  have hc := h.ensure 0
  unfold FlowConn.sendStreamFrame
  simp only [show (byteFrame n).streamData.length = 1 from rfl,
    show (byteFrame n).streamId = 0 from rfl, show (byteFrame n).streamOffset = n from rfl,
    Nat.zero_lt_one, if_true, true_and]
  rw [if_neg (by rw [h.connected]; decide), if_neg (by decide),
    if_neg (by rw [hc.streamDataSentTotal]; omega),
    if_neg (by rw [hc.streamDataSentTotal, hc.peerMaxData]; omega),
    if_neg (by rw [hc.peerStreamDataLimit_eq]; omega)]
  rfl

theorem flush (h : Sends n c) (hn : n ≤ 2 ^ 21) :
    (c.flush idleFlowEnv 0 [0] false).2 = [.stream (byteFrame n)]
      ∧ Sends (n + 1) (c.flush idleFlowEnv 0 [0] false).1 := by
  obtain ⟨s, hs⟩ := h.stream
  have hframe : (⟨0, 0, c.nextSendOffset 0, [0]⟩ : FrameStream) = byteFrame n := by
    rw [h.nextSendOffset]
    rfl
  have hc := h.ensure 0
  unfold FlowConn.flush
  simp only [hs, Bool.false_and, Bool.false_eq_true, if_false, List.isEmpty_cons, hframe,
    h.sendStreamFrame_eq hn, Status.ok_success, if_true, List.length_singleton]
  refine ⟨trivial, ?_⟩
  have hsum : add64 n 1 = n + 1 := Nat.mod_eq_of_lt (by omega)
  unfold FlowConn.onStreamDataSent
  simp only [hc.streamMaxSentOffset, hc.streamDataSentTotal, hsum]
  rw [if_pos (Nat.lt_succ_self n)]
  refine ⟨hc.connected, hc.stream, ?_, ?_, ?_, hc.peerMaxData, hc.peerMaxStreamData,
    hc.streamWindow⟩
  · simp only [Function.update_self, hc.nextSendOffset, hsum]
  · show add64 n (n + 1 - n) = n + 1
    rw [Nat.add_sub_cancel_left, hsum]
  · simp only [Function.update_self]

end Sends

-- ==== the run

/-- The client has sent `n` bytes and the server holds them. -/
structure FilledLink (n : Nat) (l : Link) : Prop where
  client : Sends n l.client
  connected : l.server.connected = true
  server : Buffers n l.server.table
  toServer : l.toServer.length = n

/-- The client sends its byte `n`, and the server gets it. -/
def byteRound (n : Nat) : List (Side × LinkOp) :=
  [(.client, .flush idleFlowEnv 0 [0] false), (.server, .deliver idleFlowEnv n)]

/-- A stream, and `n` bytes on it. -/
def byteRounds : Nat → List (Side × LinkOp)
  | 0 => [(.client, .createStream .bidirectional)]
  | n + 1 => byteRounds n ++ byteRound n

/-- A STREAM frame leaves everything of the receiver but its streams and
what it notes as advertised. -/
theorem onStreamFrame_snd (c : FlowConn) (n : Nat) :
    (c.onStreamFrame (byteFrame n)).1 = (c.table.ingestStreamFrame (byteFrame n)).1
      ∧ (c.onStreamFrame (byteFrame n)).2.table = (c.table.ingestStreamFrame (byteFrame n)).2
      ∧ (c.onStreamFrame (byteFrame n)).2.connected
          = ((c.table.ingestStreamFrame (byteFrame n)).1.ok
            || (c.table.ingestStreamFrame (byteFrame n)).1.code = .wouldBlock) :=
  ⟨rfl, rfl, rfl⟩

theorem FilledLink.byteRound_eq {l : Link} (h : FilledLink n l) (hn : n ≤ 2 ^ 21) :
    run Link.step l (byteRound n)
      = { l with
          client := (l.client.flush idleFlowEnv 0 [0] false).1
          server := (l.server.onStreamFrame (byteFrame n)).2
          toServer := l.toServer ++ [.stream (byteFrame n)]
          toClient := l.toClient
          refused := l.refused || l.server.refuses (.stream (byteFrame n)) } := by
  have hout := (h.client.flush hn).1
  have hget : (l.toServer ++ [FlowFrame.stream (byteFrame n)])[n]?
      = some (.stream (byteFrame n)) := by
    rw [← h.toServer, List.getElem?_concat_length]
  simp only [byteRound, run_cons, run_nil, Link.step, FlowConn.event, hout, Bool.or_false, hget,
    h.connected, Bool.not_true, Bool.false_eq_true, if_false, FlowConn.onFrame, List.append_nil]

theorem FilledLink.next {l : Link} (h : FilledLink n l) (hn : n < 2 ^ 21) :
    FilledLink (n + 1) (run Link.step l (byteRound n)) := by
  obtain ⟨hok, hnext⟩ := h.server.ingest hn
  obtain ⟨-, htable, hconn⟩ := onStreamFrame_snd l.server n
  rw [h.byteRound_eq (Nat.le_of_lt hn)]
  refine ⟨(h.client.flush (Nat.le_of_lt hn)).2, ?_, ?_, ?_⟩
  · show (l.server.onStreamFrame (byteFrame n)).2.connected = true
    rw [hconn, hok]
    rfl
  · show Buffers (n + 1) (l.server.onStreamFrame (byteFrame n)).2.table
    rw [htable]
    exact hnext
  · show (l.toServer ++ [_]).length = n + 1
    rw [List.length_append, List.length_singleton, h.toServer]

theorem openLocal_first (hnew : t.New) (hclient : t.isClientInitiator = true)
    (limitReached exhausted : Status) :
    (∃ s, (t.openLocal .bidirectional limitReached exhausted).2.find 0 = some s)
      ∧ (t.openLocal .bidirectional limitReached exhausted).2.peerTP = t.peerTP := by
  have hid : t.nextStreamId .bidirectional = 0 := by
    unfold Streams.nextStreamId
    simp only [hnew.slots, hclient, if_true]
  have hempty : t.collectClosedStreams.streams = [] := by
    simp only [Streams.collectClosedStreams, hnew.streams, List.filter_nil]
  have hroom : t.HasRoom .bidirectional := by
    unfold Streams.HasRoom Streams.activeLocalStreamCount
    rw [hempty, List.countP_nil]
    exact lt_of_lt_of_le Nat.one_pos (le_max_left _ _)
  obtain ⟨hno, -⟩ | ⟨-, ⟨s, hs⟩, -⟩ | ⟨-, -, hopen⟩ :=
    t.openLocal_cases .bidirectional limitReached exhausted
  · exact absurd hroom hno
  · rw [Streams.find, hempty] at hs
    cases hs
  · rw [hopen, hid]
    have hput : ∀ s : StreamImpl, lookup StreamImpl.streamId s.streamId
        (put StreamImpl.streamId s (t.bumped .bidirectional).streams) = some s :=
      fun s => lookup_put_self s _
    exact ⟨⟨_, hput { streamId := 0 }⟩, rfl⟩

theorem filled_created (client server : Config) :
    FilledLink 0 (run Link.step (Link.handshake client server) (byteRounds 0)) := by
  have hnew : (Link.handshake client server).client.table.New := ⟨rfl, fun _ => rfl, rfl⟩
  obtain ⟨hstream, hpeer⟩ := openLocal_first hnew rfl
    (.error .streamLimitError "stream limit reached")
    (.error .streamIdExhausted "stream id exhausted")
  refine ⟨⟨rfl, hstream, rfl, rfl, rfl, rfl, rfl, ?_⟩, rfl, ?_, rfl⟩
  · exact congrArg TransportParams.initialMaxStreamDataBidiLocal hpeer
  · refine ⟨_, _, findOrOpen_peer ?_ rfl, inOrder_init⟩
    have hlocal : isLocalInitiatedStream 0 (!(run Link.step (Link.handshake client server)
        (byteRounds 0)).server.table.isClientInitiator) = true := rfl
    unfold Streams.validateIncomingStreamId
    rw [hlocal, if_neg (by decide), if_neg]
    · rfl
    · exact Nat.not_lt.mpr (le_max_left _ _)

theorem filled_rounds (client server : Config) (n : Nat) (hn : n ≤ 2 ^ 21) :
    FilledLink n (run Link.step (Link.handshake client server) (byteRounds n)) := by
  induction n with
  | zero => exact filled_created client server
  | succ n ih =>
    rw [byteRounds, run_append]
    exact (ih (by omega)).next hn

theorem refused_rounds (client server : Config) :
    (run Link.step (Link.handshake client server) (byteRounds (2 ^ 21 + 1))).refused = true := by
  have hfull := filled_rounds client server (2 ^ 21) le_rfl
  rw [byteRounds, run_append, hfull.byteRound_eq le_rfl]
  have hblock := hfull.server.refuse rfl
  generalize run Link.step (Link.handshake client server) (byteRounds (2 ^ 21)) = l at *
  have hrefuses : l.server.refuses (.stream (byteFrame (2 ^ 21))) = true := by
    show decide ((l.server.onStreamFrame (byteFrame (2 ^ 21))).1.code = .wouldBlock) = true
    rw [(onStreamFrame_snd l.server (2 ^ 21)).1, hblock]
    rfl
  simp only [hrefuses, Bool.or_true]

-- ==== the agreement

/-- The sides agree at every moment of the run. -/
def AlwaysAgreed (client server : Config) (ops : List (Side × LinkOp)) : Prop :=
  ∀ pre post, ops = pre ++ post →
    FlowAgreed client server (run Link.step (Link.handshake client server) pre)

theorem not_connectionLimitsKept_handshake (client server : Config) :
    ¬ ConnectionLimitsKept client server (Link.handshake client server) := by
  intro h
  exact (connectionLimitsKept_iff client server []).mp h rfl

/-- Whatever the two are configured to: in no run do they agree throughout,
and in some run a sender that keeps to its limits is refused. -/
theorem flow_never_agreed (client server : Config) :
    (∀ ops, ¬ AlwaysAgreed client server ops)
      ∧ ∃ ops, (run Link.step (Link.handshake client server) ops).refused = true := by
  refine ⟨?_, byteRounds (2 ^ 21 + 1), refused_rounds client server⟩
  intro ops h
  exact not_connectionLimitsKept_handshake client server (h [] ops rfl).connection

/-- With the default configuration on both sides. -/
theorem not_flow_agreed_default :
    ¬ AlwaysAgreed {} {} []
      ∧ ¬ (run Link.step (Link.handshake {} {}) (byteRounds (2 ^ 21 + 1))).refused = false := by
  refine ⟨?_, ?_⟩
  · intro h
    exact not_connectionLimitsKept_handshake {} {} (h [] [] rfl).connection
  · rw [refused_rounds]
    decide

end Eular.Utp
