/-
A 0-RTT datagram and its copies.

The replay cache keeps two admissions of one datagram a replay window
apart (`Lib.ReplayCache`), and no further: the window is a setting of
its own, and a ticket that outlives it lets a copy in again.
-/
import Eular.Lib.Run
import Eular.Utp.Context.ZeroRtt

namespace Eular.Utp

open Lib

variable {tokens : List UInt8 → Option TokenMeta} {cfg : ZeroRttLimits}

theorem validateZeroRttTicket_some {keyKnown : Bool} {nowMs : Nat} {peerAddress : PeerAddress}
    {token : FrameSessionToken} {cid : Nat}
    (hvalid : validateZeroRttTicket tokens cfg keyKnown nowMs peerAddress token = some cid) :
    ∃ tokenMeta, tokens token.token = some tokenMeta ∧ tokenMeta.cid = cid
      ∧ tokenMeta.timestamp ≤ nowMs / 1000 := by
  unfold validateZeroRttTicket at hvalid
  split at hvalid
  · cases hvalid
  · cases keyKnown with
    | false => cases hvalid
    | true =>
      cases hmeta : tokens token.token with
      | none => simp [hmeta] at hvalid
      | some tokenMeta =>
        simp only [hmeta, if_true] at hvalid
        repeat' split at hvalid
        case isFalse.isFalse.isFalse.isFalse.isFalse.isFalse hdate _ _ _ =>
          exact ⟨tokenMeta, rfl, Option.some.inj hvalid, Nat.not_lt.mp hdate⟩
        all_goals cases hvalid

theorem validateZeroRttTicket_expired {nowMs : Nat} {token : FrameSessionToken}
    {tokenMeta : TokenMeta} (hmeta : tokens token.token = some tokenMeta)
    (hold : cfg.lifetime token.tokenValidityPeriod < nowMs / 1000 - tokenMeta.timestamp)
    (keyKnown : Bool) (peerAddress : PeerAddress) :
    validateZeroRttTicket tokens cfg keyKnown nowMs peerAddress token = none := by
  unfold validateZeroRttTicket
  cases keyKnown with
  | false => simp
  | true =>
    simp only [hmeta, if_true]
    repeat' split
    all_goals rfl

namespace ZeroRttServer

/-- The copy came a replay window later, and if that is longer than the
ticket's lifetime, the ticket is not accepted any more. -/
def Apart (tokens : List UInt8 → Option TokenMeta) (cfg : ZeroRttLimits) (a b : Admission) :
    Prop :=
  a.datagram = b.datagram →
    a.atMs + cfg.windowMs ≤ b.atMs
      ∧ ∀ pn token, a.datagram.parse = some (pn, token) →
          cfg.lifetime token.tokenValidityPeriod < max cfg.zeroRttReplayWindow 1 →
          ∀ keyKnown, validateZeroRttTicket tokens cfg keyKnown b.atMs a.datagram.peerAddress
            token = none

/-- An admission's key and time are those of its datagram's ticket. -/
def Genuine (tokens : List UInt8 → Option TokenMeta) (a : Admission) : Prop :=
  ∃ pn token tokenMeta, a.datagram.parse = some (pn, token)
    ∧ tokens token.token = some tokenMeta ∧ a.key = ⟨tokenMeta.cid, pn⟩
    ∧ tokenMeta.timestamp * 1000 ≤ a.atMs

/-- The invariant of a server that has let datagrams in. -/
structure Guarded (tokens : List UInt8 → Option TokenMeta) (cfg : ZeroRttLimits)
    (s : ZeroRttServer) : Prop where
  cache : s.cache.Guards cfg.windowMs (s.admitted.map fun a => (a.key, a.atMs)) s.nowMs
  genuine : ∀ a ∈ s.admitted, Genuine tokens a
  apart : s.admitted.Pairwise (Apart tokens cfg)

variable {s : ZeroRttServer} {a : ZeroRttArrival}

theorem Genuine.key_eq {x y : Admission} (hx : Genuine tokens x) (hy : Genuine tokens y)
    (hsame : x.datagram = y.datagram) : x.key = y.key := by
  obtain ⟨pn, token, tokenMeta, hparse, hmeta, hkey, -⟩ := hx
  obtain ⟨pn', token', tokenMeta', hparse', hmeta', hkey', -⟩ := hy
  rw [hsame, hparse'] at hparse
  obtain ⟨rfl, rfl⟩ := Prod.mk.inj (Option.some.inj hparse)
  rw [hmeta'] at hmeta
  obtain rfl := Option.some.inj hmeta
  rw [hkey, hkey']

/-- A ticket that was there `window` seconds ago is that old. -/
theorem older_of_window {since window before now : Nat} (hsince : since * 1000 ≤ before)
    (hlater : before + window * 1000 ≤ now) : window ≤ now / 1000 - since := by
  omega

theorem Genuine.apart {x y : Admission} (hx : Genuine tokens x)
    (hwindow : x.datagram = y.datagram → x.atMs + cfg.windowMs ≤ y.atMs) :
    Apart tokens cfg x y := by
  intro hsame
  refine ⟨hwindow hsame, fun pn token hparse hlong keyKnown => ?_⟩
  obtain ⟨pn', token', tokenMeta, hparse', hmeta, -, hsince⟩ := hx
  rw [hparse] at hparse'
  obtain ⟨rfl, rfl⟩ := Prod.mk.inj (Option.some.inj hparse')
  have hage := older_of_window hsince (hwindow hsame)
  exact validateZeroRttTicket_expired hmeta (hlong.trans_le hage) keyKnown _

theorem step_cases (tokens : List UInt8 → Option TokenMeta) (cfg : ZeroRttLimits)
    (s : ZeroRttServer) (a : ZeroRttArrival) :
    (s.step tokens cfg a = { s with nowMs := a.rememberMs })
      ∨ ∃ pn token cid, a.datagram.parse = some (pn, token)
          ∧ validateZeroRttTicket tokens cfg a.keyKnown a.validateMs a.datagram.peerAddress token
            = some cid
          ∧ s.step tokens cfg a = { s with
              nowMs := a.rememberMs
              cache := (s.cache.remember cfg.windowMs ⟨cid, pn⟩ a.rememberMs).2
              admitted :=
                if (s.cache.remember cfg.windowMs ⟨cid, pn⟩ a.rememberMs).1 then
                  s.admitted ++ [⟨a.datagram, ⟨cid, pn⟩, a.rememberMs⟩]
                else s.admitted } := by
  unfold step onZeroRtt
  dsimp only
  split
  · exact .inl rfl
  · split
    · exact .inl rfl
    next pn token hparse =>
      split
      · exact .inl rfl
      next cid hvalid =>
        by_cases hzero : cid = 0
        · simp only [rememberZeroRttNonce, if_pos hzero]
          exact .inl rfl
        · refine .inr ⟨pn, token, cid, hparse, hvalid, ?_⟩
          simp only [rememberZeroRttNonce, if_neg hzero]
          cases (s.cache.remember cfg.windowMs ⟨cid, pn⟩ a.rememberMs).1 <;> rfl

theorem guarded_empty : Guarded tokens cfg {} where
  cache := ReplayCache.guards_nil _ _ _
  genuine := fun _ ha => absurd ha List.not_mem_nil
  apart := .nil

theorem Guarded.step (hg : Guarded tokens cfg s) (hclock : Clock s a) :
    Guarded tokens cfg (s.step tokens cfg a) := by
  have hnow : s.nowMs ≤ a.rememberMs := hclock.1.trans hclock.2
  rcases step_cases tokens cfg s a with hsame | ⟨pn, token, cid, hparse, hvalid, hstep⟩
  · rw [hsame]
    exact ⟨hg.cache.later hnow, hg.genuine, hg.apart⟩
  obtain ⟨tokenMeta, hmeta, hcid, hsince⟩ := validateZeroRttTicket_some hvalid
  have hcache := hg.cache.remember hnow (⟨cid, pn⟩ : ZeroRttReplayKey)
  rw [hstep]
  by_cases hnew : (s.cache.remember cfg.windowMs ⟨cid, pn⟩ a.rememberMs).1 = true
  case neg =>
    simp only [hnew] at hcache ⊢
    exact ⟨hcache, hg.genuine, hg.apart⟩
  case pos =>
    -- the ticket's date is before the first of the two readings
    have hgenuine : Genuine tokens ⟨a.datagram, ⟨cid, pn⟩, a.rememberMs⟩ :=
      ⟨pn, token, tokenMeta, hparse, hmeta, by rw [hcid],
        ((Nat.le_div_iff_mul_le (by decide)).mp hsince).trans hclock.2⟩
    have hlast := hg.cache.accepted hnow hnew
    simp only [hnew, if_true] at hcache ⊢
    refine ⟨by simpa using hcache, fun x hx => ?_, ?_⟩
    · rcases List.mem_append.mp hx with hold | hlast
      · exact hg.genuine x hold
      · rw [List.mem_singleton.mp hlast]
        exact hgenuine
    · refine List.pairwise_append.mpr ⟨hg.apart, List.pairwise_singleton _ _, ?_⟩
      intro x hx y hy
      rw [List.mem_singleton.mp hy]
      have hxg := hg.genuine x hx
      refine hxg.apart fun hsame => ?_
      exact hlast (x.key, x.atMs) (List.mem_map_of_mem hx) (hxg.key_eq hgenuine hsame)

-- ==== the run

/-- Admissions of copies, however the datagrams come. -/
theorem replay_run (tokens : List UInt8 → Option TokenMeta) (cfg : ZeroRttLimits)
    (as : List ZeroRttArrival) (hclock : Meets (step tokens cfg) Clock {} as) :
    (run (step tokens cfg) {} as).admitted.Pairwise (Apart tokens cfg) :=
  (run_inv (fun _ _ hg hok => hg.step hok) guarded_empty hclock).apart

/-- A ticket of host 9's, valid from second 1000, that every token opens to. -/
def hostTicket : List UInt8 → Option TokenMeta := fun _ =>
  some
    { tokenType := kZeroRttResumption, timestamp := 1000, cid := 5, encryptionMode := 0
      host := 9 }

/-- Host 9's first packet, with the ticket. -/
def firstPacket : ZeroRttDatagram where
  peerAddress := ⟨.ip 9 4433, by decide⟩
  bytes :=
    UTPHeaderProto.serialize
      { scid := 7, dcid := 0, pn := 1, payloadLength := 68, types := ConnectionImpl.UTP_TYPE_0RTT,
        reserve := 0 }
    ++ [12, 64, 0, 0] ++ List.replicate 64 0

/-- The packet in second 1000, and a copy of it 5 and 20 seconds later. -/
def copies : List ZeroRttArrival :=
  [1000000, 1005000, 1020000].map fun now =>
    { datagram := firstPacket, validateMs := now, rememberMs := now }

theorem replay_copies :
    (run (step hostTicket {}) {} copies).admitted.Pairwise (Apart hostTicket {}) :=
  replay_run hostTicket {} copies (by decide +kernel)

/-- The copy 20 seconds later is let in, though the ticket is still good. -/
theorem not_replay_never :
    ¬ ∀ (tokens : List UInt8 → Option TokenMeta) (cfg : ZeroRttLimits)
        (as : List ZeroRttArrival), Meets (step tokens cfg) Clock {} as →
        (run (step tokens cfg) {} as).admitted.Pairwise fun a b =>
          a.datagram = b.datagram → ∀ pn token, a.datagram.parse = some (pn, token) →
            validateZeroRttTicket tokens cfg true b.atMs b.datagram.peerAddress token = none := by
  intro h
  have hpair := h hostTicket {} copies (by decide +kernel)
  have hadmitted : (run (step hostTicket {}) {} copies).admitted
      = [⟨firstPacket, ⟨5, 1⟩, 1000000⟩, ⟨firstPacket, ⟨5, 1⟩, 1020000⟩] := by decide +kernel
  rw [hadmitted, List.pairwise_pair] at hpair
  have hrefused := hpair rfl 1 ⟨0, List.replicate 64 0⟩ (by decide +kernel)
  revert hrefused
  decide +kernel

end ZeroRttServer

end Eular.Utp
