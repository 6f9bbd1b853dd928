/-
Nonces are not reused as long as the sides' numbers stay apart.

The nonce is the shared prefix and the packet number, so two packets
sealed under one key have the same nonce exactly when they have the same
number. One side never seals two packets under one number: it takes a new
number for each send and each retransmission. Nothing keeps the sides
apart, though: both count from 1, with the same key and the same prefix.

`nonceUnique_of_run` is the run theorem, under the condition that no side
seals under a number the other has sealed under. Three PING packets are
enough to break it: both sides seal packet 2.
-/
import Eular.Lib.Run
import Eular.Utp.Send.Peers
import Eular.Utp.Send.Proofs.TwoPaths

namespace Eular.Utp

open Lib

variable {gcm : Gcm}
variable {t : Tracked} {ep : Endpoint} {ctx : AesGcmContext}

/-- No two different packets are sealed under one key and one nonce. -/
def NonceUnique (log : List Sealed) : Prop :=
  log.Pairwise fun a b =>
    a.call.key = b.call.key → a.call.nonce = b.call.nonce → a.call = b.call

/-- The condition on a step: a side that seals does so under a number the
other side has not sealed under, and its counter does not wrap. -/
def NumbersApart (gcm : Gcm) (s : Peers) (op : Side × EndpointOp) : Prop :=
  (s.endpoint op.1).packetNumber.toNat + 1 < 2 ^ 64
    ∧ (((s.endpoint op.1).apply gcm op.2).2.isSome →
        ∀ e ∈ s.log, e.side ≠ op.1 → e.packno ≠ (s.endpoint op.1).packetNumber)

instance (s : Peers) (op : Side × EndpointOp) : Decidable (NumbersApart gcm s op) :=
  inferInstanceAs (Decidable (_ ∧ (_ → ∀ e ∈ s.log, _)))

-- ==== one call, one number

/-- What an action does to its endpoint's numbers: the context stays, a
number may be taken, and a packet is sealed under the number taken. -/
structure Numbered (ep : Endpoint) (res : Endpoint × Option SealCall) : Prop where
  aesCtx : res.1.aesCtx = ep.aesCtx
  packetNumber : res.1.packetNumber = ep.packetNumber
    ∨ res.1.packetNumber = ep.packetNumber + 1
  sealCall : ∀ call, res.2 = some call →
    call.key = ep.aesCtx.key ∧ call.nonce = ep.aesCtx.buildNonce ep.packetNumber
      ∧ res.1.packetNumber = ep.packetNumber + 1

/-- Every lost packet waits for a new number. -/
def LostRenewed (ep : Endpoint) : Prop :=
  ∀ t ∈ ep.tracked, t.queue = .lost → t.packet.poFlags.resetPackNo = true

theorem encryptWith_sendEnv {env : SendEnv} {req : SendRequest}
    (h : req.encryptWith (ep.sendEnv env) = some ctx) :
    ctx = ep.aesCtx := by
  unfold SendRequest.encryptWith at h
  split at h
  · exact (Option.some.inj h).symm
  · cases h

theorem send_numbered (ep : Endpoint) (env : SendEnv) (req : SendRequest) :
    Numbered ep (ep.send gcm env req) := by
  refine ⟨rfl, ?_, ?_⟩
  · show numberAfterSend (ep.sendEnv env) req = _ ∨ numberAfterSend (ep.sendEnv env) req = _
    unfold numberAfterSend
    split
    · exact .inl rfl
    · exact .inr rfl
  · intro call hcall
    change sendSealCall (ep.sendEnv env) req = some call at hcall
    show _ ∧ _ ∧ numberAfterSend (ep.sendEnv env) req = _
    unfold sendSealCall at hcall
    unfold numberAfterSend
    split at hcall
    · cases hcall
    · rename_i hcheck
      split at hcall
      · cases hcall
      · obtain ⟨ctx, hctx, rfl⟩ := Option.map_eq_some_iff.mp hcall
        cases encryptWith_sendEnv hctx
        split
        · exact ⟨rfl, rfl, rfl⟩
        · exact ⟨rfl, rfl, rfl⟩

theorem stripTransientAckPayload_flags {packet packet' : PacketOut}
    (h : stripTransientAckPayload packet = some packet') : packet'.poFlags = packet.poFlags := by
  unfold stripTransientAckPayload rewritePayloadLength at h
  simp only at h
  split_ifs at h <;> cases h <;> rfl

/-- What an attempt takes from the connection, for a packet that waits for
a new number. -/
structure Renumbered (ctx : AesGcmContext) (number : UInt64) (res : Prepared) : Prop where
  resetPackNo : res.packet.poFlags.resetPackNo = true
  packetNumber : res.packetNumber = number ∨ res.packetNumber = number + 1
  sealCall : ∀ call, res.sealCall = some call →
    call.key = ctx.key ∧ call.nonce = ctx.buildNonce number ∧ res.packetNumber = number + 1

theorem encrypt_resetPackNo {packet packet' : PacketOut}
    (h : ctx.encrypt gcm packet = .ok packet') :
    packet'.poFlags.resetPackNo = packet.poFlags.resetPackNo := by
  unfold AesGcmContext.encrypt at h
  simp only at h
  split_ifs at h <;> cases h <;> rfl

theorem renewPacket_renumbered {packet : PacketOut}
    (packetNumber : UInt64) (hreset : packet.poFlags.resetPackNo = true) :
    Renumbered ctx packetNumber (renewPacket gcm (some ctx) packetNumber packet) := by
  unfold renewPacket
  rw [if_pos hreset]
  cases hrewrite : rewritePacketNumber packet packetNumber with
  | none => exact ⟨hreset, .inl rfl, fun _ h => (by cases h)⟩
  | some renumbered =>
    have hpackno : renumbered.packno = packetNumber
        ∧ renumbered.poFlags = packet.poFlags := by
      unfold rewritePacketNumber at hrewrite
      split_ifs at hrewrite
      cases hrewrite
      exact ⟨rfl, rfl⟩
    have hreset' : renumbered.poFlags.resetPackNo = true := by rw [hpackno.2, hreset]
    unfold resealPacket
    simp only
    split
    · split
      · exact ⟨hreset', .inr rfl, fun _ h => (by cases h)⟩
      · rename_i encrypted henc
        refine ⟨(encrypt_resetPackNo henc).trans hreset', .inr rfl, ?_⟩
        intro call hcall
        cases hcall
        exact ⟨rfl, by rw [← hpackno.1]; rfl, rfl⟩
    · exact ⟨hreset', .inr rfl, fun _ h => (by cases h)⟩

theorem prepareLostPacket_renumbered {packet : PacketOut}
    (renv : RetransmitEnv) (hreset : packet.poFlags.resetPackNo = true) :
    Renumbered ctx renv.packetNumber (prepareLostPacket gcm renv (some ctx) packet) := by
  unfold prepareLostPacket
  simp only
  split
  · exact ⟨hreset, .inl rfl, fun _ h => (by cases h)⟩
  · split
    · exact ⟨hreset, .inl rfl, fun _ h => (by cases h)⟩
    · rename_i stripped hstripped
      have hreset' : stripped.poFlags.resetPackNo = true := by
        split at hstripped
        · rw [stripTransientAckPayload_flags hstripped, hreset]
        · cases hstripped
          exact hreset
      split
      · split
        · exact ⟨hreset', .inl rfl, fun _ h => (by cases h)⟩
        · exact ⟨hreset', .inl rfl, fun _ h => (by cases h)⟩
      · exact renewPacket_renumbered _ hreset'

theorem retransmit_renewed (renv : RetransmitEnv)
    (hreset : t.packet.poFlags.resetPackNo = true)
    (hlost : (retransmitLostPacket gcm renv (some ctx) t).queue = .lost) :
    (retransmitLostPacket gcm renv (some ctx) t).packet.poFlags.resetPackNo = true := by
  have hprepared : Renumbered ctx renv.packetNumber
      (prepareLostPacket gcm renv (some ctx) t.packet) := prepareLostPacket_renumbered renv hreset
  revert hlost
  unfold retransmitLostPacket
  simp only
  split
  · exact fun _ => hprepared.resetPackNo
  · intro h
    cases h
  · split
    · intro h
      cases h
    · exact fun _ => hprepared.resetPackNo

theorem Tracked.step_renewed (op : TrackedOp)
    (ht : t.queue = .lost → t.packet.poFlags.resetPackNo = true)
    (hlost : (t.step gcm (some ctx) op).queue = .lost) :
    (t.step gcm (some ctx) op).packet.poFlags.resetPackNo = true := by
  cases op with
  | lose =>
    simp only [Tracked.step] at hlost ⊢
    split at hlost
    · rename_i hqueue
      rw [if_pos hqueue]
      rfl
    · rename_i hqueue
      rw [if_neg hqueue]
      exact ht hlost
  | ack => cases hlost
  | retransmit renv =>
    simp only [Tracked.step] at hlost ⊢
    split at hlost
    · rename_i hqueue
      rw [if_pos hqueue]
      exact retransmit_renewed renv (ht hqueue) hlost
    · rename_i hqueue
      rw [if_neg hqueue]
      exact ht hlost

theorem LostRenewed.set {i : Nat} (h : LostRenewed ep)
    (ht : t.queue = .lost → t.packet.poFlags.resetPackNo = true) :
    ∀ t' ∈ ep.tracked.set i t, t'.queue = .lost → t'.packet.poFlags.resetPackNo = true := by
  intro t' hmem
  cases List.mem_or_eq_of_mem_set hmem with
  | inl hold => exact h t' hold
  | inr hnew => exact hnew ▸ ht

/-- Whatever a side does, it seals at most one packet, under its own next
number. -/
theorem apply_numbered (h : LostRenewed ep) (op : EndpointOp) :
    Numbered ep (ep.apply gcm op) ∧ LostRenewed (ep.apply gcm op).1 := by
  cases op with
  | send env req =>
    refine ⟨send_numbered ep env req, ?_⟩
    intro t hmem hlost
    simp only [Endpoint.apply, Endpoint.send] at hmem
    split at hmem
    · cases List.mem_append.mp hmem with
      | inl hold => exact h t hold hlost
      | inr hnew =>
        rw [List.mem_singleton.mp hnew] at hlost
        cases hlost
    · exact h t hmem hlost
  | event i op =>
    simp only [Endpoint.apply, Endpoint.event]
    cases hget : ep.tracked[i]? with
    | none => exact ⟨⟨rfl, .inl rfl, fun _ h => (by cases h)⟩, h⟩
    | some t =>
      have ht := h t (List.mem_of_getElem? hget)
      cases op with
      | lose =>
        exact ⟨⟨rfl, .inl rfl, fun _ h => (by cases h)⟩, h.set (Tracked.step_renewed _ ht)⟩
      | ack =>
        exact ⟨⟨rfl, .inl rfl, fun _ h => (by cases h)⟩, h.set (Tracked.step_renewed _ ht)⟩
      | retransmit renv =>
        simp only
        split
        · rename_i hlost
          have hprepared : Renumbered ep.aesCtx ep.packetNumber
              (prepareLostPacket gcm { renv with packetNumber := ep.packetNumber }
                (some ep.aesCtx) t.packet) :=
            prepareLostPacket_renumbered { renv with packetNumber := ep.packetNumber }
              (ht hlost)
          exact ⟨⟨rfl, hprepared.packetNumber, hprepared.sealCall⟩,
            h.set (Tracked.step_renewed _ ht)⟩
        · exact ⟨⟨rfl, .inl rfl, fun _ h => (by cases h)⟩, h⟩

-- ==== both sides

theorem buildNonce_injective {ctx ctx' : AesGcmContext} {a b : UInt64}
    (h : ctx.buildNonce a = ctx'.buildNonce b) : a = b := by
  have htail := congrArg (fun bs => ofBigEndian (bs.drop 4)) h
  simp only [AesGcmContext.buildNonce, List.drop_left' (length_bigEndian 4 _),
    ofBigEndian_bigEndian] at htail
  rw [show (256 : Nat) ^ 8 = 2 ^ 64 by norm_num, Nat.mod_eq_of_lt a.toNat_lt,
    Nat.mod_eq_of_lt b.toNat_lt] at htail
  exact UInt64.toNat_inj.mp htail

/-- What the peers keep: each side's sealed packets are numbered below
its counter, and no number was sealed under twice. -/
structure PeersNumbered (s : Peers) : Prop where
  renewed : ∀ side, LostRenewed (s.endpoint side)
  nonce : ∀ e ∈ s.log, e.call.nonce = (s.endpoint e.side).aesCtx.buildNonce e.packno
  below : ∀ e ∈ s.log, e.packno.toNat < (s.endpoint e.side).packetNumber.toNat
  apart : s.log.Pairwise fun a b => a.packno ≠ b.packno

theorem PeersNumbered.nonceUnique {s : Peers} (h : PeersNumbered s) :
    NonceUnique s.log := by
  refine h.apart.imp_of_mem ?_
  intro a b ha hb hne _ hnonce
  rw [h.nonce a ha, h.nonce b hb] at hnonce
  exact absurd (buildNonce_injective hnonce) hne

theorem endpoint_setEndpoint (s : Peers) (side side' : Side) (ep : Endpoint) :
    (s.setEndpoint side ep).endpoint side' = if side' = side then ep else s.endpoint side' := by
  cases side <;> cases side' <;> rfl

theorem log_setEndpoint (s : Peers) (side : Side) (ep : Endpoint) :
    (s.setEndpoint side ep).log = s.log := by
  cases side <;> rfl

theorem endpoint_withLog (s : Peers) (log : List Sealed) (side : Side) :
    ({ s with log } : Peers).endpoint side = s.endpoint side := by
  cases side <;> rfl

theorem toNat_add_one {n : UInt64} (h : n.toNat + 1 < 2 ^ 64) : (n + 1).toNat = n.toNat + 1 := by
  rw [UInt64.toNat_add]
  exact Nat.mod_eq_of_lt h

/-- The endpoints after a step keep what `PeersNumbered` says of the log
before it. -/
theorem PeersNumbered.setEndpoint {s : Peers} {side : Side}
    {res : Endpoint × Option SealCall} (h : PeersNumbered s)
    (hnum : Numbered (s.endpoint side) res) (hrenewed : LostRenewed res.1)
    (hwrap : (s.endpoint side).packetNumber.toNat + 1 < 2 ^ 64) :
    PeersNumbered (s.setEndpoint side res.1) := by
  refine ⟨?_, ?_, ?_, ?_⟩
  · intro side'
    rw [endpoint_setEndpoint]
    split
    · exact hrenewed
    · exact h.renewed side'
  · intro e he
    rw [log_setEndpoint] at he
    rw [endpoint_setEndpoint, h.nonce e he]
    split
    · rename_i hside
      rw [hside, hnum.aesCtx]
    · rfl
  · intro e he
    rw [log_setEndpoint] at he
    have hbelow := h.below e he
    rw [endpoint_setEndpoint]
    split
    · rename_i hside
      rw [hside] at hbelow
      cases hnum.packetNumber with
      | inl hsame => rw [hsame]; exact hbelow
      | inr hnext =>
        rw [hnext, toNat_add_one hwrap]
        omega
    · exact hbelow
  · rw [log_setEndpoint]
    exact h.apart

theorem peersNumbered_step (s : Peers) (op : Side × EndpointOp) (h : PeersNumbered s)
    (hok : NumbersApart gcm s op) : PeersNumbered (s.step gcm op) := by
  obtain ⟨side, op⟩ := op
  obtain ⟨hwrap, hfresh⟩ := hok
  have happlied : Numbered (s.endpoint side) ((s.endpoint side).apply gcm op)
      ∧ LostRenewed ((s.endpoint side).apply gcm op).1 := apply_numbered (h.renewed side) op
  obtain ⟨hnum, hrenewed⟩ := happlied
  have hset := h.setEndpoint hnum hrenewed hwrap
  unfold Peers.step
  simp only
  cases hcall : ((s.endpoint side).apply gcm op).2 with
  | none => exact hset
  | some call =>
    obtain ⟨-, hnonce, hnext⟩ := hnum.sealCall call hcall
    have hnew : ∀ e ∈ s.log, e.packno ≠ (s.endpoint side).packetNumber := by
      intro e he heq
      by_cases hside : e.side = side
      · have hbelow := h.below e he
        rw [hside, heq] at hbelow
        omega
      · exact hfresh (by rw [hcall]; rfl) e he hside heq
    have hlog := log_setEndpoint s side ((s.endpoint side).apply gcm op).1
    refine ⟨?_, ?_, ?_, ?_⟩
    · intro side'
      rw [endpoint_withLog]
      exact hset.renewed side'
    · intro e he
      rw [endpoint_withLog]
      cases List.mem_append.mp he with
      | inl hold => exact hset.nonce e (hlog ▸ hold)
      | inr hlast =>
        rw [List.mem_singleton.mp hlast, endpoint_setEndpoint, if_pos rfl, hnum.aesCtx]
        exact hnonce
    · intro e he
      rw [endpoint_withLog]
      cases List.mem_append.mp he with
      | inl hold => exact hset.below e (hlog ▸ hold)
      | inr hlast =>
        rw [List.mem_singleton.mp hlast, endpoint_setEndpoint, if_pos rfl, hnext,
          toNat_add_one hwrap]
        exact Nat.lt_succ_self _
    · refine List.pairwise_append.mpr ⟨h.apart, List.pairwise_singleton _ _, ?_⟩
      intro a ha b hb
      rw [List.mem_singleton.mp hb]
      exact hnew a ha

theorem peersNumbered_handshake (x25519 : X25519) (cryptoType : FrameCryptoType)
    (clientKey serverKey : List UInt8) (clientCid serverCid : UInt32) (clientNumber : UInt64) :
    PeersNumbered (.handshake x25519 cryptoType clientKey serverKey clientCid serverCid
      clientNumber) := by
  refine ⟨?_, fun e he => (by cases he), fun e he => (by cases he), List.Pairwise.nil⟩
  intro side t ht
  cases side <;> cases ht

/-- In every run whose steps all keep the numbers apart, no nonce is used
for two packets. -/
theorem nonceUnique_of_run {x25519 : X25519} {cryptoType : FrameCryptoType}
    {clientKey serverKey : List UInt8} {clientCid serverCid : UInt32} {clientNumber : UInt64}
    {ops : List (Side × EndpointOp)}
    (hok : Meets (Peers.step gcm) (NumbersApart gcm)
      (.handshake x25519 cryptoType clientKey serverKey clientCid serverCid clientNumber) ops) :
    NonceUnique (run (Peers.step gcm)
      (.handshake x25519 cryptoType clientKey serverKey clientCid serverCid clientNumber)
      ops).log :=
  (run_inv peersNumbered_step (peersNumbered_handshake ..) hok).nonceUnique

-- ==== instances

/-- A key exchange in which every key is its own public key. -/
def xorExchange : X25519 where
  publicKey := id
  deriveSharedSecret a b := List.zipWith (· ^^^ ·) a b
  deriveSharedSecret_comm _ _ := List.zipWith_comm_of_comm UInt8.xor_comm

/-- The peers right after their handshake: the client sent one INITIAL
packet. -/
def freshPeers : Peers :=
  .handshake xorExchange .aesGcm256 (List.replicate 32 3) (List.replicate 32 5) 0x1001 0x2002 2

/-- One PING from each side: the client's is packet 2, the server's packet
1. -/
theorem nonceUnique_two_pings :
    NonceUnique (run (Peers.step (oneTimeGcm pingRequest)) freshPeers
      [(.client, .send connectedEnv pingRequest), (.server, .send connectedEnv pingRequest)]).log :=
  nonceUnique_of_run (by decide)

/-- The server's second packet and the client's second packet share their
nonce. -/
theorem not_nonceUnique_three_pings :
    ¬ NonceUnique (run (Peers.step (oneTimeGcm pingRequest)) freshPeers
      [(.client, .send connectedEnv pingRequest), (.server, .send connectedEnv pingRequest),
        (.server, .send connectedEnv pingRequest)]).log := by
  unfold NonceUnique
  decide

end Eular.Utp
