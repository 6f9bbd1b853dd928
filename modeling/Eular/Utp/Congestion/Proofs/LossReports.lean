/-
What becomes of the losses reported to BBR (C++ `BbrV1::onLost`,
`SendControl::onAckReceived`).

`onLost` enters a loss in the record of the acknowledgement, and
`onEndAck` reads the record. The send control calls `onLost` from
`detectLosses`, from `expireUnacked` and from the timer, and never between
`onBeginAck` and `onEndAck`; and `onBeginAck` clears the record. So no
`onEndAck` ever sees a loss, and what is reported holds only as long as no
ACK frame follows a loss.

# The proof

`account` is what the calls of a round leave alone or open with. `Relates`
says of two sides of the controller that whatever the second one holds was
made from what the first one held. Inside a round every call keeps the
account, behind it the calls keep it or add a loss, and both are inductions
on the calls.
-/
import Eular.Utp.Congestion.Proofs.BbrSafety
import Eular.Utp.Congestion.Proofs.CubicReduction

namespace Eular.Utp

open Lib

-- ==== accounts

namespace BbrV1

variable {R : Type} {reals : BbrReals R} {cenv : CongestionEnv} {s t u : BbrV1 R}

/-- What is read of a controller here: whether a round is open, the bytes
seen and reported, and the losses of the record. -/
def account (s : BbrV1 R) :=
  (s.flags.inAck, s.bytesSeen, s.bytesReported, s.ackState.hasLosses, s.ackState.lostBytes)

/-- A loss is never taken back outside a round; without one the account
is as it was. -/
structure Outside (s t : BbrV1 R) : Prop where
  inAck : t.flags.inAck = s.flags.inAck
  seen : t.bytesSeen = s.bytesSeen
  kept : t.ackState.hasLosses = false → t.account = s.account

theorem Outside.of_account (h : t.account = s.account) : Outside s t := by
  have hparts := h
  simp only [account, Prod.mk.injEq] at hparts
  exact ⟨hparts.1, hparts.2.1, fun _ => h⟩

theorem Outside.refl (s : BbrV1 R) : Outside s s := .of_account rfl

theorem Outside.trans (h : Outside s t) (h' : Outside t u) : Outside s u where
  inAck := h'.inAck.trans h.inAck
  seen := h'.seen.trans h.seen
  kept := by
    intro hnone
    have hlast := h'.kept hnone
    have hparts := hlast
    simp only [account, Prod.mk.injEq] at hparts
    exact hlast.trans (h.kept (hparts.2.2.2.1.symm.trans hnone))

theorem Outside.hasLosses (h : Outside s t) (hlost : s.ackState.hasLosses = true) :
    t.ackState.hasLosses = true := by
  by_contra hnone
  rw [Bool.not_eq_true] at hnone
  have hparts := h.kept hnone
  simp only [account, Prod.mk.injEq] at hparts
  rw [hparts.2.2.2.1, hlost] at hnone
  cases hnone

theorem outside_onLost (s : BbrV1 R) (info : SampledPacket) (packetState : Option BWPacketState) :
    Outside s (s.onLost info packetState) :=
  ⟨rfl, rfl, fun hnone => Bool.noConfusion hnone⟩

theorem account_onPacketSent (s : BbrV1 R) (info : SampledPacket)
    (packetState : Option BWPacketState) (inFlight : UInt64) (isAppLimited : Bool) :
    (s.onPacketSent reals cenv info packetState inFlight isAppLimited).1.account
      = s.account := by
  unfold onPacketSent becomeAppLimited
  simp only
  split
  · split
    · rfl
    · split
      · rfl
      · rfl
  · rfl

theorem account_onAck {info : SampledPacket} {packetState : Option BWPacketState}
    {nowUs : UInt64} (h : s.onAck info packetState nowUs = .ok t) : t.account = s.account := by
  unfold onAck at h
  by_cases hopen : s.flags.inAck = true
  · rw [if_neg (by simp [hopen])] at h
    cases hacked : s.bwSampler.onPacketAcked info packetState nowUs with
    | error fault => rw [hacked] at h; cases h
    | ok r => rw [hacked] at h; cases h; rfl
  · rw [if_pos (by simp [hopen])] at h
    cases h

theorem account_onBeginAck {ackTimeUs inFlight : UInt64}
    (h : s.onBeginAck ackTimeUs inFlight = .ok t) :
    t.account = (true, s.bytesSeen, s.bytesReported, false, 0) := by
  unfold onBeginAck at h
  split at h
  · cases h
  · cases h; rfl

/-- `onEndAck` closes the round and takes the lost bytes of the record into
account. -/
theorem account_onEndAck {inFlight : UInt64} (h : s.onEndAck reals cenv inFlight = .ok t) :
    t.account = (false, s.bytesSeen + s.ackState.lostBytes, s.bytesReported,
      s.ackState.hasLosses, s.ackState.lostBytes) := by
  have hreturns : Returns True (s.onEndAck reals cenv inFlight) (Ended s) :=
    returns_onEndAck (.inl trivial) (.inl trivial) inFlight
  obtain ⟨t', hok, hended⟩ | ⟨-, fault, herror⟩ := hreturns
  · rw [hok] at h
    cases h
    simp only [account, Prod.mk.injEq]
    exact ⟨hended.closed, hended.seen, hended.reported, by rw [hended.record],
      by rw [hended.record]⟩
  · rw [herror] at h
    cases h

end BbrV1

-- ==== calls

namespace CongestionCall

/-- A call that has nothing to do with losses or rounds. -/
def Silent : CongestionCall → Prop
  | .packetSent _ _ | .wasQuiet _ _ | .ack _ _ | .detected _ | .timeout => True
  | _ => False

/-- A call that neither opens nor closes a round. -/
def Between : CongestionCall → Prop
  | .beginAck _ _ | .endAck _ => False
  | _ => True

theorem Silent.between {c : CongestionCall} (h : c.Silent) : c.Between := by
  cases c with
  | beginAck => exact h
  | endAck => exact h
  | _ => trivial

end CongestionCall

namespace CongestionSide

variable {R : Type} {reals : BbrReals R} {cenv : CongestionEnv}
variable {c c' c'' : CongestionSide (Except BbrFault (BbrV1 R)) BWPacketState}
variable {l : List CongestionCall}

/-- Whatever `c'` holds was made from what `c` held. -/
def Relates (P : BbrV1 R → BbrV1 R → Prop)
    (c c' : CongestionSide (Except BbrFault (BbrV1 R)) BWPacketState) : Prop :=
  ∀ t, c'.congestion = .ok t → ∃ s, c.congestion = .ok s ∧ P s t

theorem Relates.refl {P : BbrV1 R → BbrV1 R → Prop} (hrefl : ∀ s, P s s) : Relates P c c :=
  fun t ht => ⟨t, ht, hrefl t⟩

theorem Relates.trans {P Q S : BbrV1 R → BbrV1 R → Prop} (h : Relates P c c')
    (h' : Relates Q c' c'') (hcomp : ∀ s t u, P s t → Q t u → S s u) : Relates S c c'' := by
  intro u hu
  obtain ⟨t, ht, htu⟩ := h' u hu
  obtain ⟨s, hs, hst⟩ := h t ht
  exact ⟨s, hs, hcomp s t u hst htu⟩

theorem Relates.imp {P Q : BbrV1 R → BbrV1 R → Prop} (h : Relates P c c')
    (himp : ∀ s t, P s t → Q s t) : Relates Q c c' := by
  intro t ht
  obtain ⟨s, hs, hst⟩ := h t ht
  exact ⟨s, hs, himp s t hst⟩

theorem relates_bind {P : BbrV1 R → BbrV1 R → Prop} {f : BbrV1 R → Except BbrFault (BbrV1 R)}
    (hcongestion : c'.congestion = c.congestion.bind f)
    (hf : ∀ s t, f s = .ok t → P s t) : Relates P c c' := by
  intro t ht
  cases hc : c.congestion with
  | error fault => rw [hcongestion, hc] at ht; cases ht
  | ok s =>
    rw [hcongestion, hc] at ht
    exact ⟨s, rfl, hf s t ht⟩

theorem relates_silent {call : CongestionCall} (h : call.Silent) :
    Relates (fun s t => t.account = s.account) c (c.call (BbrV1.controller reals) cenv call) := by
  cases call with
  | packetSent q inFlight =>
    cases hc : c.congestion with
    | error fault =>
      intro t ht
      simp [CongestionSide.call, BbrV1.controller, hc] at ht
    | ok s =>
      intro t ht
      refine ⟨s, hc, ?_⟩
      have hsent : (BbrV1.onPacketSent reals cenv s (BbrV1.sampled q.info) (c.bwState q.ptr)
          (.ofNat inFlight) false).1 = t := by
        simpa [CongestionSide.call, BbrV1.controller, hc] using ht
      rw [← hsent]
      exact BbrV1.account_onPacketSent s _ _ _ _
  | wasQuiet nowUs inFlight => exact Relates.refl fun s => rfl
  | ack q nowUs => exact relates_bind rfl fun s t hok => BbrV1.account_onAck hok
  | detected n =>
    show Relates _ c (if _ then _ else _)
    split
    · exact Relates.refl fun s => rfl
    · exact Relates.refl fun s => rfl
  | timeout => exact Relates.refl fun s => rfl
  | _ => exact h.elim

theorem relates_onLost (q : QueuedPacket) :
    Relates (fun s t => BbrV1.Outside s t ∧ t.ackState.hasLosses = true) c
      (c.onLost (BbrV1.controller reals) q) := by
  intro t ht
  cases hc : c.congestion with
  | error fault => simp [CongestionSide.onLost, BbrV1.controller, hc, Except.map] at ht
  | ok s =>
    refine ⟨s, rfl, ?_⟩
    have hlost : s.onLost (BbrV1.sampled q.info) (c.bwState q.ptr) = t := by
      simpa [CongestionSide.onLost, BbrV1.controller, hc, Except.map] using ht
    rw [← hlost]
    exact ⟨BbrV1.outside_onLost s _ _, rfl⟩

theorem relates_between {call : CongestionCall} (h : call.Between) :
    Relates BbrV1.Outside c (c.call (BbrV1.controller reals) cenv call) := by
  have hsilent : call.Silent → Relates BbrV1.Outside c
      (c.call (BbrV1.controller reals) cenv call) := fun hs =>
    (relates_silent hs).imp fun s t => BbrV1.Outside.of_account
  cases call with
  | lost q => exact (relates_onLost q).imp fun s t hst => hst.1
  | destroy q =>
    show Relates _ c (if _ then _ else _)
    split
    · exact (relates_onLost q).imp fun s t hst => hst.1
    · exact Relates.refl BbrV1.Outside.refl
  | beginAck nowUs inFlight => exact h.elim
  | endAck inFlight => exact h.elim
  | _ => exact hsilent trivial

theorem relates_calls_between (hl : ∀ d ∈ l, d.Between) :
    ∀ {c : CongestionSide (Except BbrFault (BbrV1 R)) BWPacketState},
      Relates BbrV1.Outside c (c.calls (BbrV1.controller reals) cenv l) := by
  induction l with
  | nil => intro c; exact Relates.refl BbrV1.Outside.refl
  | cons d l ih =>
    intro c
    have hlater : ∀ e ∈ l, e.Between := fun e he => hl e (List.mem_cons_of_mem d he)
    exact (relates_between (hl d List.mem_cons_self)).trans (ih hlater) fun s t u => .trans

theorem relates_calls_silent (hl : ∀ d ∈ l, d.Silent) :
    ∀ {c : CongestionSide (Except BbrFault (BbrV1 R)) BWPacketState},
      Relates (fun s t => t.account = s.account) c
        (c.calls (BbrV1.controller reals) cenv l) := by
  induction l with
  | nil => intro c; exact Relates.refl fun s => rfl
  | cons d l ih =>
    intro c
    have hlater : ∀ e ∈ l, e.Silent := fun e he => hl e (List.mem_cons_of_mem d he)
    exact (relates_silent (hl d List.mem_cons_self)).trans (ih hlater)
      fun s t u hst htu => htu.trans hst

theorem relates_calls_lost (hl : ∀ d ∈ l, d.Between) {q : QueuedPacket}
    (hq : .lost q ∈ l) :
    ∀ {c : CongestionSide (Except BbrFault (BbrV1 R)) BWPacketState},
      Relates (fun _ t => t.ackState.hasLosses = true) c
        (c.calls (BbrV1.controller reals) cenv l) := by
  induction l with
  | nil => exact absurd hq List.not_mem_nil
  | cons d l ih =>
    intro c
    have hlater : ∀ e ∈ l, e.Between := fun e he => hl e (List.mem_cons_of_mem d he)
    obtain rfl | hq := List.mem_cons.mp hq
    · exact (relates_onLost q).trans (relates_calls_between hlater)
        fun s t u hst htu => htu.hasLosses hst.2
    · exact (relates_between (hl d List.mem_cons_self)).trans (ih hlater hq)
        fun s t u _ hu => hu

end CongestionSide

-- ==== events

namespace SendControl

variable (gcm : Gcm) (env : SendCtlEnv)

theorem silent_sentCalls (s s' : SendControl) : ∀ c ∈ sentCalls s s', c.Silent := by
  unfold sentCalls
  generalize s.bytesUnackedAll = inFlight
  induction s'.unackedPackets.drop s.unackedPackets.length generalizing inFlight with
  | nil => exact fun c hc => absurd hc List.not_mem_nil
  | cons q l ih =>
    intro c hc
    obtain rfl | hc := List.mem_cons.mp hc
    · trivial
    · exact ih _ c hc

theorem silent_walkCalls (nowUs : Nat) (l : List QueuedPacket) (s : SendControl) :
    ∀ c ∈ walkCalls gcm env nowUs s l, c.Silent := by
  induction l generalizing s with
  | nil => exact fun c hc => absurd hc List.not_mem_nil
  | cons q l ih =>
    intro c hc
    obtain rfl | hc := List.mem_cons.mp hc
    · trivial
    · exact (List.mem_append.mp hc).elim (silent_sentCalls _ _ c) (ih _ c)

theorem between_expireCalls (s : SendControl) (filter : ExpireFilter) :
    ∀ c ∈ s.expireCalls filter, c.Between := by
  unfold expireCalls
  intro c hc
  split at hc
  · split at hc
    · obtain rfl := List.mem_singleton.mp hc
      trivial
    · exact absurd hc List.not_mem_nil
  · obtain ⟨q, -, rfl⟩ := List.mem_map.mp hc
    split
    · trivial
    · trivial

theorem between_detectCalls (s : SendControl) : ∀ c ∈ s.detectCalls env, c.Between := by
  unfold detectCalls
  intro c hc
  obtain hc | hc := List.mem_append.mp hc
  · obtain ⟨q, -, hq⟩ := List.mem_flatMap.mp hc
    have hreports := reports_verdictCalls q _ c hq
    cases c with
    | lost q => trivial
    | destroy q => trivial
    | _ => exact hreports.elim
  · obtain rfl := List.mem_singleton.mp hc
    trivial

theorem between_ackDetectCalls (s : SendControl) (ackInfo : AckInfo) :
    ∀ c ∈ s.ackDetectCalls gcm env ackInfo, c.Between := by
  obtain hnil | hdetect := ackDetectCalls_cases gcm env s ackInfo
  · rw [hnil]
    exact fun c hc => absurd hc List.not_mem_nil
  · rw [hdetect]
    exact between_detectCalls env _

theorem between_retransTimerCalls (s : SendControl) :
    ∀ c ∈ s.retransTimerCalls env, c.Between := by
  unfold retransTimerCalls
  split
  · exact fun c hc => absurd hc List.not_mem_nil
  · split
    · exact between_expireCalls _ _
    · exact between_detectCalls env _
    · exact between_expireCalls _ _
    · intro c hc
      obtain hc | hc := List.mem_append.mp hc
      · split at hc
        · obtain rfl := List.mem_singleton.mp hc
          trivial
        · exact absurd hc List.not_mem_nil
      · exact between_expireCalls _ _ c hc

theorem between_congestionCalls (s : SendControl) (wasQuiet : Bool)
    {event : SendCtlEnv × SendCtlOp} (hnoAck : ∀ ackInfo, event.2 ≠ .ack ackInfo) :
    ∀ c ∈ s.congestionCalls gcm wasQuiet event, c.Between := by
  obtain ⟨env, op⟩ := event
  have hsent : ∀ c ∈ sentCalls s (s.step gcm (env, op)), c.Between := fun c hc =>
    (silent_sentCalls _ _ c hc).between
  cases op with
  | ack ackInfo => exact absurd rfl (hnoAck ackInfo)
  | detectLosses => exact between_detectCalls env s
  | expireUnacked filter => exact between_expireCalls s filter
  | retransTimer => exact between_retransTimerCalls env s
  | _ => exact hsent

end SendControl

namespace CongestionSide

variable {R : Type} {reals : BbrReals R} {cenv : CongestionEnv} {gcm : Gcm} {env : SendCtlEnv}
variable {c : CongestionSide (Except BbrFault (BbrV1 R)) BWPacketState}

theorem calls_append (l l' : List CongestionCall) :
    c.calls (BbrV1.controller reals) cenv (l ++ l')
      = (c.calls (BbrV1.controller reals) cenv l).calls (BbrV1.controller reals) cenv l' :=
  List.foldl_append

/-- A round sees no loss: it opens with an empty record, and nothing is
reported before it closes. -/
theorem relates_round (s : SendControl) (wasQuiet : Bool) (ackInfo : AckInfo) :
    Relates (fun b t => t.account = (false, b.bytesSeen, b.bytesReported, false, 0)) c
      (c.calls (BbrV1.controller reals) cenv (s.ackRoundCalls gcm env wasQuiet ackInfo)) := by
  unfold SendControl.ackRoundCalls
  set quiet : List CongestionCall :=
    if wasQuiet then [.wasQuiet (env.nowUs 0) s.bytesUnackedAll] else [] with hquietDef
  set walk := SendControl.walkCalls gcm env (env.nowUs 0) (s.ackStart ackInfo)
    (s.ackedPackets ackInfo)
  rw [calls_append, calls_append]
  have hquiet : ∀ d ∈ quiet, d.Silent := by
    intro d hd
    rw [hquietDef] at hd
    split at hd
    · obtain rfl := List.mem_singleton.mp hd
      trivial
    · exact absurd hd List.not_mem_nil
  have hwalk : ∀ d ∈ walk, d.Silent := SendControl.silent_walkCalls gcm env _ _ _
  have hbegin : ∀ {c : CongestionSide (Except BbrFault (BbrV1 R)) BWPacketState},
      Relates (fun b t => t.account = (true, b.bytesSeen, b.bytesReported, false, 0)) c
        (c.call (BbrV1.controller reals) cenv (.beginAck (env.nowUs 0) s.bytesUnackedAll)) :=
    relates_bind rfl fun b t hok => BbrV1.account_onBeginAck hok
  have hopen : Relates (fun b t => t.account = (true, b.bytesSeen, b.bytesReported, false, 0)) c
      ((c.calls (BbrV1.controller reals) cenv quiet).calls (BbrV1.controller reals) cenv
        (.beginAck (env.nowUs 0) s.bytesUnackedAll :: walk)) := by
    apply (relates_calls_silent hquiet).trans
      (hbegin.trans (relates_calls_silent hwalk) fun b t u hbt htu => htu.trans hbt)
    intro b t u hbt htu
    simp only [BbrV1.account, Prod.mk.injEq] at hbt htu ⊢
    obtain ⟨-, hseen, hreported, -⟩ := hbt
    obtain ⟨hinAck, hseen', hreported', hlosses⟩ := htu
    exact ⟨hinAck, hseen'.trans hseen, hreported'.trans hreported, hlosses⟩
  have hend : ∀ {c : CongestionSide (Except BbrFault (BbrV1 R)) BWPacketState} {inFlight : Nat},
      Relates (fun b t => t.account = (false, b.bytesSeen + b.ackState.lostBytes,
        b.bytesReported, b.ackState.hasLosses, b.ackState.lostBytes)) c
        (c.calls (BbrV1.controller reals) cenv [.endAck inFlight]) :=
    relates_bind rfl fun b t hok => BbrV1.account_onEndAck hok
  apply hopen.trans hend
  intro b t u hbt htu
  simp only [BbrV1.account, Prod.mk.injEq] at hbt htu ⊢
  obtain ⟨-, hseen, hreported, hlosses, hbytes⟩ := hbt
  obtain ⟨hinAck, hseen', hreported', hlosses', hbytes'⟩ := htu
  refine ⟨hinAck, ?_, hreported'.trans hreported, hlosses'.trans hlosses, hbytes'.trans hbytes⟩
  rw [hseen', hseen, hbytes, UInt64.add_zero]

end CongestionSide

-- ==== runs

abbrev BbrSend (R : Type) := CongestedSend (Except BbrFault (BbrV1 R)) BWPacketState

namespace BbrSend

open BbrV1 (controller Outside)

variable {R : Type} (gcm : Gcm) (reals : BbrReals R)
variable {op : CongestionEnv × SendCtlEnv × SendCtlOp}

/-- The controller at the end of a round, before `detectLosses`. -/
def roundEnd (s : BbrSend R) (op : CongestionEnv × SendCtlEnv × SendCtlOp) (ackInfo : AckInfo) :
    CongestionSide (Except BbrFault (BbrV1 R)) BWPacketState :=
  s.toCongestionSide.calls (controller reals) op.1
    (s.toSendControl.ackRoundCalls gcm (s.event (controller reals) op).1 op.1.wasQuiet ackInfo)

/-- The bytes reported up to an ACK frame have been seen once its `onEndAck`
returns. -/
def LossesCounted (s : BbrSend R) (op : CongestionEnv × SendCtlEnv × SendCtlOp) : Prop :=
  ∀ ackInfo, op.2.2 = .ack ackInfo → ∀ b t, s.congestion = .ok b →
    (roundEnd gcm reals s op ackInfo).congestion = .ok t → t.bytesSeen = b.bytesReported

/-- Behind this round `detectLosses` gives up a packet that is no probe. -/
def declares (s : BbrSend R) (op : CongestionEnv × SendCtlEnv × SendCtlOp) : Bool :=
  match op.2.2 with
  | .ack ackInfo =>
    (s.toSendControl.ackDetectCalls gcm (s.event (controller reals) op).1 ackInfo).any fun c =>
      c.lostPacket?.any fun q => !q.isMtuProbe
  | _ => false

/-- The round acknowledges bytes. -/
def acknowledges (s : BbrSend R) (op : CongestionEnv × SendCtlEnv × SendCtlOp) : Bool :=
  match op.2.2 with
  | .ack ackInfo =>
    match (roundEnd gcm reals s op ackInfo).congestion with
    | .ok t => t.ackState.ackedBytes ≠ 0
    | .error _ => false
  | _ => false

/-- The round acknowledges a packet above `m_endRecoveryAt`, and no loss was
reported since the last one. -/
def exits (s : BbrSend R) (op : CongestionEnv × SendCtlEnv × SendCtlOp) : Bool :=
  match op.2.2 with
  | .ack ackInfo =>
    match s.congestion, (roundEnd gcm reals s op ackInfo).congestion with
    | .ok b, .ok t =>
      t.ackState.ackedBytes ≠ 0 && b.endRecoveryAt < t.ackState.maxPackNo
        && !b.ackState.hasLosses
    | _, _ => false
  | _ => false

/-- What the recovery owes: nothing, to begin with the next bytes that are
acknowledged, or to limit the window. -/
inductive RecoveryPhase where
  | unasked
  | due
  | limited
deriving DecidableEq, Repr

def RecoveryPhase.next (s : BbrSend R) (op : CongestionEnv × SendCtlEnv × SendCtlOp) :
    RecoveryPhase → RecoveryPhase
  | .unasked => if declares gcm reals s op then .due else .unasked
  | .due => if acknowledges gcm reals s op then .limited else .due
  | .limited =>
    if exits gcm reals s op then (if declares gcm reals s op then .due else .unasked)
    else .limited

/-- BBR is in recovery, and the recovery window limits the window in use. -/
def Limited (s : BbrSend R) : Prop :=
  ∀ b, s.congestion = .ok b →
    b.inRecovery = true ∧ ∀ cenv, b.getCwnd reals cenv ≤ b.recoveryWindow

/-- The recovery pays what it owes in every state of the run. -/
def RecoveryKept : RecoveryPhase → BbrSend R → List (CongestionEnv × SendCtlEnv × SendCtlOp) →
    Prop
  | phase, s, [] => phase = .limited → Limited reals s
  | phase, s, op :: ops => (phase = .limited → Limited reals s)
      ∧ RecoveryKept (phase.next gcm reals s op) (s.step gcm (controller reals) op) ops

/-- An ACK frame finds no loss in the record. -/
def NothingLost (s : BbrSend R) (op : CongestionEnv × SendCtlEnv × SendCtlOp) : Prop :=
  ∀ ackInfo, op.2.2 = .ack ackInfo → ∀ b, s.congestion = .ok b → b.ackState.hasLosses = false

/-- An ACK frame finds that no byte was ever reported. -/
def NoBytesLost (s : BbrSend R) (op : CongestionEnv × SendCtlEnv × SendCtlOp) : Prop :=
  ∀ ackInfo, op.2.2 = .ack ackInfo → ∀ b t, s.congestion = .ok b →
    (roundEnd gcm reals s op ackInfo).congestion = .ok t → b.bytesReported = 0

-- ==== invariants

/-- An event is a round with loss detection behind it, or calls between two
rounds. -/
theorem step_cases (s : BbrSend R) (op : CongestionEnv × SendCtlEnv × SendCtlOp) :
    (∃ ackInfo, op.2.2 = .ack ackInfo
      ∧ (s.step gcm (controller reals) op).toCongestionSide
        = (roundEnd gcm reals s op ackInfo).calls (controller reals) op.1
          (s.toSendControl.ackDetectCalls gcm (s.event (controller reals) op).1 ackInfo))
    ∨ (∀ ackInfo, op.2.2 ≠ .ack ackInfo)
      ∧ CongestionSide.Relates Outside s.toCongestionSide
        (s.step gcm (controller reals) op).toCongestionSide := by
  obtain ⟨cenv, env, o⟩ := op
  by_cases hack : ∃ ackInfo, o = .ack ackInfo
  · obtain ⟨ackInfo, rfl⟩ := hack
    exact .inl ⟨ackInfo, rfl, CongestionSide.calls_append _ _⟩
  · have hnoAck : ∀ ackInfo, o ≠ .ack ackInfo := fun ackInfo heq => hack ⟨ackInfo, heq⟩
    exact .inr ⟨hnoAck, CongestionSide.relates_calls_between
      (SendControl.between_congestionCalls gcm _ _ hnoAck)⟩

/-- What an event does to BBR: it sees no byte, and unless a loss is in the
record afterwards, nothing was reported. -/
theorem relates_step (s : BbrSend R) (op : CongestionEnv × SendCtlEnv × SendCtlOp) :
    CongestionSide.Relates
      (fun b t => t.bytesSeen = b.bytesSeen ∧ (t.ackState.hasLosses = false →
        t.bytesReported = b.bytesReported
          ∧ (b.ackState.hasLosses = false ∨ ∃ ackInfo, op.2.2 = .ack ackInfo)))
      s.toCongestionSide (s.step gcm (controller reals) op).toCongestionSide := by
  obtain ⟨ackInfo, hack, hstep⟩ | ⟨-, hbetween⟩ := step_cases gcm reals s op
  · rw [hstep]
    apply (CongestionSide.relates_round _ _ _).trans
      (CongestionSide.relates_calls_between (SendControl.between_ackDetectCalls gcm _ _ _))
    intro b t u hround hdetect
    simp only [BbrV1.account, Prod.mk.injEq] at hround
    refine ⟨hdetect.seen.trans hround.2.1, fun hnone => ⟨?_, .inr ⟨ackInfo, hack⟩⟩⟩
    have hkept := hdetect.kept hnone
    simp only [BbrV1.account, Prod.mk.injEq] at hkept
    exact hkept.2.2.1.trans hround.2.2.1
  · apply hbetween.imp
    intro b t hbt
    refine ⟨hbt.seen, fun hnone => ?_⟩
    have hkept := hbt.kept hnone
    simp only [BbrV1.account, Prod.mk.injEq] at hkept
    exact ⟨hkept.2.2.1, .inl (hkept.2.2.2.1.symm.trans hnone)⟩

def Unseen (s : BbrSend R) : Prop := ∀ b, s.congestion = .ok b → b.bytesSeen = 0

variable {s : BbrSend R}

theorem Unseen.step (h : Unseen s)
    (op : CongestionEnv × SendCtlEnv × SendCtlOp) :
    Unseen (s.step gcm (controller reals) op) := by
  intro t ht
  obtain ⟨b, hb, hseen, -⟩ := relates_step gcm reals s op t ht
  rw [hseen]
  exact h b hb

/-- A record without losses is the only one there has been. -/
def Unreported (s : BbrSend R) : Prop :=
  ∀ b, s.congestion = .ok b → b.ackState.hasLosses = false → b.bytesReported = 0

theorem Unreported.step (h : Unreported s)
    (hnothing : NothingLost s op) :
    Unreported (s.step gcm (controller reals) op) := by
  intro t ht hnone
  obtain ⟨b, hb, -, hreported⟩ := relates_step gcm reals s op t ht
  obtain ⟨hsame, hbefore⟩ := hreported hnone
  rw [hsame]
  apply h b hb
  obtain hbefore | ⟨ackInfo, hack⟩ := hbefore
  · exact hbefore
  · exact hnothing ackInfo hack b hb

theorem roundEnd_bytesSeen (s : BbrSend R) (op : CongestionEnv × SendCtlEnv × SendCtlOp)
    (ackInfo : AckInfo) (h : Unseen s) {t : BbrV1 R}
    (ht : (roundEnd gcm reals s op ackInfo).congestion = .ok t) : t.bytesSeen = 0 := by
  obtain ⟨b, hb, haccount⟩ := CongestionSide.relates_round _ _ _ t ht
  simp only [BbrV1.account, Prod.mk.injEq] at haccount
  rw [haccount.2.1]
  exact h b hb

/-- The recovery owes nothing yet; or it does, and the loss is in the
record. -/
def Owed (phase : RecoveryPhase) (s : BbrSend R) : Prop :=
  phase = .unasked ∨ phase = .due ∧ ∀ b, s.congestion = .ok b → b.ackState.hasLosses = true

theorem hasLosses_of_declares
    (h : declares gcm reals s op = true) :
    ∀ t, (s.step gcm (controller reals) op).congestion = .ok t → t.ackState.hasLosses = true := by
  obtain ⟨ackInfo, hack, hstep⟩ | ⟨hnoAck, -⟩ := step_cases gcm reals s op
  · intro t ht
    simp only [declares, hack, List.any_eq_true] at h
    obtain ⟨c, hc, hlost⟩ := h
    cases c with
    | lost q =>
      rw [hstep] at ht
      have hlosses := CongestionSide.relates_calls_lost
        (SendControl.between_ackDetectCalls gcm _ _ _) hc t ht
      exact hlosses.elim fun b hb => hb.2
    | _ => cases hlost
  · unfold declares at h
    split at h
    · exact absurd ‹_› (hnoAck _)
    · cases h

theorem Owed.step {phase : RecoveryPhase} (h : Owed phase s)
    (hnothing : NothingLost s op) :
    Owed (phase.next gcm reals s op) (s.step gcm (controller reals) op) := by
  obtain rfl | ⟨rfl, hlosses⟩ := h
  · unfold RecoveryPhase.next
    by_cases hdeclares : declares gcm reals s op = true
    · rw [if_pos hdeclares]
      exact .inr ⟨rfl, hasLosses_of_declares gcm reals hdeclares⟩
    · rw [if_neg hdeclares]
      exact .inl rfl
  · -- a loss in the record keeps ACK frames out, unless BBR has failed
    have hidle : acknowledges gcm reals s op = false
        ∧ ∀ t, (s.step gcm (controller reals) op).congestion = .ok t →
          t.ackState.hasLosses = true := by
      obtain ⟨ackInfo, hack, hstep⟩ | ⟨hnoAck, hbetween⟩ := step_cases gcm reals s op
      · have hfailed : ∀ b, s.congestion ≠ .ok b := by
          intro b hb
          have hnone := hnothing ackInfo hack b hb
          rw [hlosses b hb] at hnone
          cases hnone
        constructor
        · simp only [acknowledges, hack]
          split
          · rename_i t ht
            obtain ⟨b, hb, -⟩ := CongestionSide.relates_round _ _ _ t ht
            exact absurd hb (hfailed b)
          · rfl
        · intro t ht
          obtain ⟨b, hb, -⟩ := relates_step gcm reals s op t ht
          exact absurd hb (hfailed b)
      · constructor
        · unfold acknowledges
          split
          · exact absurd ‹_› (hnoAck _)
          · rfl
        · intro t ht
          obtain ⟨b, hb, houtside⟩ := hbetween t ht
          exact houtside.hasLosses (hlosses b hb)
    obtain ⟨hnot, hkept⟩ := hidle
    refine .inr ⟨?_, hkept⟩
    simp [RecoveryPhase.next, hnot]

theorem recoveryKept_of_nothingLost
    (ops : List (CongestionEnv × SendCtlEnv × SendCtlOp)) :
    ∀ {phase : RecoveryPhase} {s : BbrSend R}, Owed phase s →
      Meets (CongestedSend.step gcm (controller reals)) NothingLost s ops →
      RecoveryKept gcm reals phase s ops := by
  have hnot : ∀ {phase : RecoveryPhase} {s : BbrSend R}, Owed phase s → phase ≠ .limited := by
    rintro phase s (rfl | ⟨rfl, -⟩)
    · exact fun h => RecoveryPhase.noConfusion h
    · exact fun h => RecoveryPhase.noConfusion h
  induction ops with
  | nil => exact fun howed _ hlimited => absurd hlimited (hnot howed)
  | cons op ops ih =>
    intro phase s howed hmeets
    exact ⟨fun hlimited => absurd hlimited (hnot howed),
      ih (howed.step gcm reals hmeets.1) hmeets.2⟩

-- ==== results

/-- The constructor of `SendControl` with BBR on a piece of storage. -/
def initBbr (mem : BbrV1 R) (cfg : BbrConfig R) (packetNumber : UInt64) (mtu : MtuDiscovery)
    (bytesOut : Nat) : BbrSend R where
  toSendControl := SendControl.init packetNumber mtu bytesOut
  congestion := .ok (BbrV1.new reals mem cfg)

theorem unseen_init (mem : BbrV1 R) (cfg : BbrConfig R) (packetNumber : UInt64)
    (mtu : MtuDiscovery) (bytesOut : Nat) :
    Unseen (initBbr reals mem cfg packetNumber mtu bytesOut) := by
  intro b hb
  cases hb
  rfl

theorem unreported_init (mem : BbrV1 R) (cfg : BbrConfig R) (packetNumber : UInt64)
    (mtu : MtuDiscovery) (bytesOut : Nat) :
    Unreported (initBbr reals mem cfg packetNumber mtu bytesOut) := by
  intro b hb _
  cases hb
  rfl

/-- What is reported lost is seen, and recovery begins in time and limits the
window, in the runs that take no ACK frame once something was lost; and a
run that takes one once bytes were reported leaves them unseen. -/
theorem losses_reach_recovery (mem : BbrV1 R) (cfg : BbrConfig R) (packetNumber : UInt64)
    (mtu : MtuDiscovery) (bytesOut : Nat)
    (ops : List (CongestionEnv × SendCtlEnv × SendCtlOp)) :
    let step := CongestedSend.step gcm (controller reals)
    let start := initBbr reals mem cfg packetNumber mtu bytesOut
    (Meets step NothingLost start ops →
        Meets step (LossesCounted gcm reals) start ops
          ∧ RecoveryKept gcm reals .unasked start ops)
      ∧ (Meets step (LossesCounted gcm reals) start ops →
        Meets step (NoBytesLost gcm reals) start ops)
      ∧ Unseen (run step start ops) := by
  intro step start
  have hunseen : Unseen start := unseen_init reals mem cfg packetNumber mtu bytesOut
  have hunreported : Unreported start := unreported_init reals mem cfg packetNumber mtu bytesOut
  refine ⟨fun hnothing => ⟨?_, ?_⟩, fun hcounted => ?_, ?_⟩
  · clear_value start
    induction ops generalizing start with
    | nil => trivial
    | cons op ops ih =>
      refine ⟨fun ackInfo hack b t hb ht => ?_,
        ih _ (hunseen.step gcm reals op) (hunreported.step gcm reals hnothing.1) hnothing.2⟩
      rw [roundEnd_bytesSeen gcm reals start op ackInfo hunseen ht]
      exact (hunreported b hb (hnothing.1 ackInfo hack b hb)).symm
  · exact recoveryKept_of_nothingLost gcm reals ops (.inl rfl) hnothing
  · clear hunreported
    clear_value start
    induction ops generalizing start with
    | nil => trivial
    | cons op ops ih =>
      refine ⟨fun ackInfo hack b t hb ht => ?_,
        ih _ (hunseen.step gcm reals op) hcounted.2⟩
      rw [← hcounted.1 ackInfo hack b t hb ht]
      exact roundEnd_bytesSeen gcm reals start op ackInfo hunseen ht
  · exact run_inv_of_step (fun s op h => h.step gcm reals op) ops hunseen

/-- The loss behind the first ACK frame: up to there no frame found one. -/
theorem losses_reach_recovery_twoLost :
    let start := initBbr BbrV1.thousandths BbrV1.zeroed (BbrV1.oneRound []) 1 {} 130
    Meets (CongestedSend.step unusedGcm (controller BbrV1.thousandths))
        (LossesCounted unusedGcm BbrV1.thousandths) start CongestedSend.twoLost
      ∧ RecoveryKept unusedGcm BbrV1.thousandths .unasked start CongestedSend.twoLost := by
  have hsend (s : BbrSend Nat) (env : CongestionEnv) (env' : SendCtlEnv) (action) :
      NothingLost s (env, env', .send action) := by
    intro ackInfo hack
    cases hack
  refine (losses_reach_recovery _ _ _ _ _ _ _ _).1
    ⟨hsend _ _ _ _, hsend _ _ _ _, hsend _ _ _ _, fun _ _ b hb => ?_, trivial⟩
  have hread : (run (CongestedSend.step unusedGcm (controller BbrV1.thousandths))
      (initBbr BbrV1.thousandths BbrV1.zeroed (BbrV1.oneRound []) 1 {} 130)
      (CongestedSend.twoLost.take 3)).congestion.toOption.map (fun b => b.ackState.hasLosses)
        = some false := by
    decide +kernel
  have hb' : (run (CongestedSend.step unusedGcm (controller BbrV1.thousandths))
      (initBbr BbrV1.thousandths BbrV1.zeroed (BbrV1.oneRound []) 1 {} 130)
      (CongestedSend.twoLost.take 3)).congestion = .ok b := hb
  rw [hb'] at hread
  exact Option.some_inj.mp hread

-- ==== the first ACK

/-- What the recovery owes at the end of a run. -/
def phaseAfter : RecoveryPhase → BbrSend R → List (CongestionEnv × SendCtlEnv × SendCtlOp) →
    RecoveryPhase
  | phase, _, [] => phase
  | phase, s, op :: ops =>
    phaseAfter (phase.next gcm reals s op) (s.step gcm (controller reals) op) ops

theorem RecoveryKept.last (ops : List (CongestionEnv × SendCtlEnv × SendCtlOp)) :
    ∀ {phase : RecoveryPhase} {s : BbrSend R}, RecoveryKept gcm reals phase s ops →
      phaseAfter gcm reals phase s ops = .limited →
      Limited reals (run (CongestedSend.step gcm (controller reals)) s ops) := by
  induction ops with
  | nil => exact fun h hphase => h hphase
  | cons op ops ih => exact fun h hphase => ih h.2 hphase

/-- One more frame goes out, and the peer acknowledges it. -/
def nextAcked : List (CongestionEnv × SendCtlEnv × SendCtlOp) :=
  let op : SendCtlOp :=
    .send (.packet { packetType := UTP_TYPE_CTRL, payload := [18, 0, 0, 0, 0, 0, 1, 0, 0] })
  [({}, {}, op), ({}, {}, .ack { largestAckPackno := 4, ackRanges := [(4, 4)] })]

/-- The run on the default configuration. -/
def lostThenAcked : BbrSend Nat :=
  run (CongestedSend.step unusedGcm (controller BbrV1.thousandths))
    (initBbr BbrV1.thousandths BbrV1.zeroed (BbrV1.oneRound []) 1 {} 130)
    (CongestedSend.twoLost ++ nextAcked)

/-- Two packets of 29 bytes are given up behind the ACK frame for the third.
The next ACK frame acknowledges bytes, and BBR is not in recovery; and
whatever the run does from there on, no `onEndAck` ever sees the 58 bytes. -/
theorem not_lossesCounted_twoLost :
    ¬ RecoveryKept unusedGcm BbrV1.thousandths .unasked
        (initBbr BbrV1.thousandths BbrV1.zeroed (BbrV1.oneRound []) 1 {} 130)
        (CongestedSend.twoLost ++ nextAcked)
      ∧ (∃ b, lostThenAcked.congestion = .ok b ∧ b.bytesReported = 58)
      ∧ ∀ more, Unseen
        (run (CongestedSend.step unusedGcm (controller BbrV1.thousandths)) lostThenAcked more) := by
  have hread : lostThenAcked.congestion.toOption.map (fun b => (b.inRecovery, b.bytesReported))
      = some (false, 58) := by
    decide +kernel
  have hphase : phaseAfter unusedGcm BbrV1.thousandths .unasked
      (initBbr BbrV1.thousandths BbrV1.zeroed (BbrV1.oneRound []) 1 {} 130)
      (CongestedSend.twoLost ++ nextAcked) = .limited := by
    decide +kernel
  cases hlast : lostThenAcked.congestion with
  | error fault => rw [hlast] at hread; cases hread
  | ok b =>
    rw [hlast] at hread
    simp only [Except.toOption, Option.map_some, Option.some.injEq, Prod.mk.injEq] at hread
    refine ⟨fun hkept => ?_, ⟨b, rfl, hread.2⟩, fun more => ?_⟩
    · obtain ⟨hin, -⟩ := RecoveryKept.last _ _ _ hkept hphase b hlast
      rw [hread.1] at hin
      cases hin
    · have hlost : Unseen lostThenAcked :=
        run_inv_of_step (P := Unseen) (fun s op h => h.step _ _ op) _
          (unseen_init _ _ _ _ _ _)
      exact run_inv_of_step (P := Unseen) (fun s op h => h.step _ _ op) more hlost

end BbrSend

end Eular.Utp
