/-
How a close ends.

`FinMove` says once what a step can do to the fields a close is about:
send the FIN, answer it, send it again, end the connection. Everything
said of a run follows from it by cases. What does not go on is a closing
side whose timer runs out with no retries left (`kcp_close_timeout` does
nothing then) or whose FIN the socket refuses, and a side whose FIN
crosses the peer's: that FIN has number zero in the place where an answer
carries the number of ours.
-/
import Eular.Kcp.Proofs.Connecting

namespace Eular.Kcp

namespace KcpControl

variable {c : KcpControl}

-- ==== what a close is about

/-- The codes `on_closed` was given. -/
def closes (c : KcpControl) : List Int :=
  c.callbacks.filterMap fun
    | .closed code => some code
    | _ => none

/-- The fields a close is about. -/
structure FinPart where
  onClosed : Bool
  state : KcpConnectionState
  finTimer : KcpTimer
  finCallback : FinCallback
  finRetries : Nat
  destroyed : Nat
  closes : List Int
deriving DecidableEq, Repr

def finPart (c : KcpControl) : FinPart where
  onClosed := c.onClosed
  state := c.state
  finTimer := c.finTimer
  finCallback := c.finCallback
  finRetries := c.finRetries
  destroyed := c.destroyed
  closes := c.closes

namespace FinPart

/-- A FIN is out, and the timer with it. -/
def armed (f : FinPart) (state : KcpConnectionState) (callback : FinCallback) : FinPart :=
  { f with
    state
    finTimer := .pending
    finCallback := if f.finTimer = .null then callback else f.finCallback }

/-- The connection is over, and the application has been told `codes`. -/
def ended (f : FinPart) (finRetries : Nat) (codes : List Int) : FinPart :=
  { f with
    state := .DISCONNECTED
    finTimer := .null
    finRetries
    destroyed := f.destroyed + 1
    closes := f.closes ++ codes }

end FinPart

/-- The operation may do nothing here. -/
def FinPart.Idle (f : FinPart) : ControlOp → Prop
  | .finTimeout _ _ => f.finTimer ≠ .pending
  | .close _ _ => f.state ≠ .CONNECTED
  | _ => True

/-- The operation may end the connection here, with a call of `on_closed`. -/
def FinPart.Final (f : FinPart) : ControlOp → Prop
  | .finTimeout _ _ => False
  | .close _ _ => f.state = .DISCONNECTED
  | _ => True

/-- What a step of a connection that is there does to the close. -/
inductive FinMove (f : FinPart) : ControlOp → FinPart → Prop where
  | stay {op} (h : f.Idle op) : FinMove f op f
  | setRetries (value : Nat) : FinMove f (.finRetries value) { f with finRetries := u32 value }
  | giveUp {code} (hstate : f.state = .CONNECTED) :
      FinMove f (.giveUp code) { f with state := .DISCONNECTED }
  /-- `kcp_close` sends the FIN -/
  | sendFin {now} {answer : SendAnswer} (hstate : f.state = .CONNECTED)
      (hanswer : 0 < answer.status ∨ answer.again = true) :
      FinMove f (.close now answer) (f.armed .FIN_SENT .closeTimeout)
  /-- the socket refuses it -/
  | refused {now} {answer : SendAnswer} (hstate : f.state = .CONNECTED)
      (hanswer : ¬ (0 < answer.status ∨ answer.again = true)) :
      FinMove f (.close now answer) { f with state := .FIN_SENT }
  /-- the peer's FIN is answered -/
  | answerFin {packet host now answer} (hstate : f.state = .CONNECTED) :
      FinMove f (.packet packet host now answer) (f.armed .FIN_RECEIVED .finPacketTimeout)
  /-- the timer runs out, and the FIN is sent again -/
  | again {now} {answer : SendAnswer} (hfires : f.finTimer = .pending) (hretries : f.finRetries ≠ 0)
      (hanswer : f.finCallback = .finPacketTimeout ∨ answer.status = 1 ∨ answer.again = true) :
      FinMove f (.finTimeout now answer)
        { f with finTimer := .pending, finRetries := dec32 f.finRetries }
  /-- it runs out and is not set again -/
  | unarmed {now} {answer : SendAnswer} (hfires : f.finTimer = .pending)
      (hcallback : f.finCallback = .closeTimeout)
      (h : f.finRetries = 0 ∨ ¬ (answer.status = 1 ∨ answer.again = true)) :
      FinMove f (.finTimeout now answer)
        { f with finTimer := .idle, finRetries := dec32 f.finRetries }
  /-- it runs out for the last time -/
  | timedOut {now} {answer : SendAnswer} (hfires : f.finTimer = .pending)
      (hcallback : f.finCallback = .finPacketTimeout) (hretries : f.finRetries = 0) :
      FinMove f (.finTimeout now answer) (f.ended (dec32 f.finRetries) [TIMED_OUT])
  /-- a packet of the peer, or a call of `kcp_close`, ends the connection -/
  | ends {op} (code : Int) (h : f.Final op) : FinMove f op (f.ended f.finRetries [code])
  /-- a connection given up before is cleared away -/
  | cleared {packet host now answer} (hstate : f.state = .DISCONNECTED) :
      FinMove f (.packet packet host now answer) (f.ended f.finRetries [])

/-- The operations of a pair, on a side that is connected or past it. -/
def ClosingOp : ControlOp → Prop
  | .packet packet _ _ _ => ∀ packetSn randSn, packet.body ≠ .syn packetSn randSn
  | .synTimeout _ _ _ | .shutdown _ | .synRetries _ => False
  | _ => True

/-- The connection is there, connected or past it, and its closing is
listened to. -/
structure Established (c : KcpControl) : Prop where
  there : c.destroyed = 0
  listens : c.onClosed = true
  sent : c.state ≠ .SYN_SENT
  received : c.state ≠ .SYN_RECEIVED

theorem emit_eq (c : KcpControl) (body : ControlBody) (taken : Bool) :
    c.emit body taken = { c with
      outbox :=
        if taken then c.outbox ++ [ControlPacket.mk c.scid c.dcid body] else c.outbox } := by
  cases taken <;> rfl

theorem callClosed_eq (h : c.onClosed = true) (code : Int) :
    c.callClosed code = c.call (.closed code) := by
  rw [callClosed, if_pos h]

theorem finPart_error (c : KcpControl) (code : Int) :
    (c.call (.error code)).finPart = c.finPart := by
  simp [finPart, closes, call]

theorem finPart_closed_destroy (c : KcpControl) (code : Int) (hstate : c.state = .DISCONNECTED) :
    (c.call (.closed code)).destroy.finPart = c.finPart.ended c.finRetries [code] := by
  simp [finPart, FinPart.ended, closes, call, destroy, hstate]

theorem finMove_close (xxh32 : Nat → Nat) (hc : Established c) (now : Nat)
    (answer : SendAnswer) :
    FinMove c.finPart (.close now answer) (c.close xxh32 now answer).finPart := by
  unfold close
  split
  · rename_i hstate
    rw [callClosed_eq hc.listens, finPart_closed_destroy c NO_ERROR hstate]
    exact .ends NO_ERROR hstate
  · exact absurd ‹_› hc.sent
  · exact absurd ‹_› hc.received
  · rename_i hstate
    simp only [emit_eq]
    split
    · rename_i hstatus
      split
      · rename_i hagain
        exact .sendFin hstate (.inr hagain)
      · rename_i hagain
        rw [finPart_error]
        exact .refused hstate (not_or.mpr ⟨by omega, hagain⟩)
    · rename_i hstatus
      exact .sendFin hstate (.inl (by omega))
  · rename_i hstate
    exact .stay (show c.state ≠ .CONNECTED by simp [hstate])
  · rename_i hstate
    exact .stay (show c.state ≠ .CONNECTED by simp [hstate])

theorem finMove_finTimeout (xxh32 : Nat → Nat) (hc : Established c) (now : Nat)
    (answer : SendAnswer) (hfires : c.finTimer = .pending) :
    FinMove c.finPart (.finTimeout now answer) (c.finTimeout xxh32 now answer).finPart := by
  unfold finTimeout
  split
  · rename_i hcallback
    unfold closeTimeout
    simp only [emit_eq]
    split
    · rename_i hretries
      split
      · rename_i hstatus
        split
        · rename_i hagain
          exact .again (f := c.finPart) hfires hretries (.inr (.inr hagain))
        · rename_i hagain
          rw [finPart_error]
          exact .unarmed hfires hcallback (.inr (not_or.mpr ⟨hstatus, hagain⟩))
      · rename_i hstatus
        exact .again (f := c.finPart) hfires hretries (.inr (.inl (by simpa using hstatus)))
    · rename_i hretries
      exact .unarmed (f := c.finPart) hfires hcallback (.inl (not_not.mp hretries))
  · rename_i hcallback
    unfold finPacketTimeout
    simp only [emit_eq]
    split
    · rename_i hretries
      exact .again (f := c.finPart) hfires hretries (.inl hcallback)
    · rename_i hretries
      rw [if_pos hc.listens, finPart_closed_destroy _ _ rfl]
      exact .timedOut (f := c.finPart) hfires hcallback (not_not.mp hretries)

theorem finMove_writable (c : KcpControl) (now : Nat) (answers : Nat → Int × Int)
    (answer : SendAnswer) (hc : Established c) :
    FinMove c.finPart (.writable now answers answer) (c.writeEvent now answers answer).finPart := by
  have hstay : FinMove c.finPart (.writable now answers answer) c.finPart := .stay trivial
  have hresend : ∀ taken, (c.resend taken).finPart = c.finPart := by
    intro taken
    unfold resend
    split
    · rfl
    · split <;> rw [emit_eq] <;> rfl
  have hfailed : ∀ d : KcpControl, d.finPart = c.finPart →
      (d.writeFailed answer).finPart = c.finPart := by
    intro d hd
    unfold writeFailed
    split
    · exact hd
    · rw [finPart_error, hd]
  unfold writeEvent
  split
  · rw [finPart_error]
    exact hstay
  · exact absurd ‹_› hc.sent
  · exact absurd ‹_› hc.received
  · exact hstay
  all_goals
    dsimp only
    split
    · rw [hfailed _ (hresend _)]
      exact hstay
    · show FinMove c.finPart _ (c.resend _).finPart
      rw [hresend]
      exact hstay

theorem finMove_giveUp (code : Int) (hstate : c.state = .CONNECTED) :
    FinMove c.finPart (.giveUp code)
      ({ c with state := .DISCONNECTED }.call (.error code)).finPart := by
  rw [finPart_error]
  exact .giveUp hstate

section Packet

variable {c d : KcpControl} {packet : ControlPacket} {host now : Nat} {answer : SendAnswer}

/-- What `kcp_parse_packet` does last. -/
theorem finMove_cleared (hd : d.finPart = c.finPart) :
    FinMove c.finPart (.packet packet host now answer)
      (if d.state = .DISCONNECTED then d.destroy else d).finPart := by
  split
  · rename_i hstate
    have hended : d.destroy.finPart = c.finPart.ended c.finPart.finRetries [] := by
      rw [← hd]
      simp [FinPart.ended, finPart, destroy, closes, hstate]
    rw [hended]
    exact .cleared (by rw [← hd]; exact hstate)
  · rw [hd]
    exact .stay trivial

theorem finMove_ends (hd : d.finPart = { c.finPart with state := .DISCONNECTED })
    (hlistens : d.onClosed = true) (code : Int) :
    FinMove c.finPart (.packet packet host now answer)
      (if (d.callClosed code).state = .DISCONNECTED then (d.callClosed code).destroy
        else d.callClosed code).finPart := by
  have hstate : d.state = .DISCONNECTED := congrArg FinPart.state hd
  rw [callClosed_eq hlistens, if_pos (show (d.call _).state = _ from hstate),
    finPart_closed_destroy d code hstate, hd,
    show d.finRetries = c.finPart.finRetries from congrArg FinPart.finRetries hd]
  exact .ends code trivial

theorem finMove_onPacket (xxh32 : Nat → Nat) (hc : Established c) (body : ControlBody) :
    FinMove c.finPart (.packet packet host now answer)
      (if (c.onPacket xxh32 body now answer).state = .DISCONNECTED then
        (c.onPacket xxh32 body now answer).destroy
      else c.onPacket xxh32 body now answer).finPart := by
  unfold onPacket
  split
  · exact absurd ‹_› hc.received
  · exact absurd ‹_› hc.received
  · exact absurd ‹c.state = .SYN_RECEIVED› hc.received
  · rename_i hstate
    unfold onFin
    simp only [emit_eq]
    rw [if_neg (by simp [armFin])]
    exact .answerFin hstate
  · split
    · rw [emit_eq]
      refine finMove_ends ?_ ?_ NO_ERROR
      · rfl
      · exact hc.listens
    · exact finMove_cleared rfl
  · rw [emit_eq]
    exact finMove_cleared rfl
  · split
    · refine finMove_ends ?_ ?_ NO_ERROR
      · rfl
      · exact hc.listens
    · exact finMove_cleared rfl
  · exact finMove_cleared rfl

theorem finMove_onRst (hc : Established c) :
    FinMove c.finPart (.packet packet host now answer)
      (if c.onRst.state = .DISCONNECTED then c.onRst.destroy else c.onRst).finPart := by
  unfold onRst
  split
  · exact absurd ‹_› hc.sent
  · exact absurd ‹_› hc.received
  · exact finMove_cleared rfl
  · refine finMove_ends ?_ ?_ CONNECTION_RESET
    · rfl
    · exact hc.listens

theorem finMove_parsePacket (xxh32 : Nat → Nat) (hc : Established c)
    (hsyn : ∀ packetSn randSn, packet.body ≠ .syn packetSn randSn) :
    FinMove c.finPart (.packet packet host now answer)
      (c.parsePacket xxh32 packet host now answer).finPart := by
  have hfrom : c.fromCandidate host = c := by
    unfold fromCandidate
    exact if_neg fun h => hc.sent h.1
  unfold parsePacket
  split
  · exact .stay trivial
  · split
    · exact absurd ‹_› (hsyn _ _)
    · dsimp only
      unfold readEvent
      dsimp only
      rw [hfrom]
      split
      · exact finMove_cleared rfl
      · split
        · exact finMove_onRst hc
        · exact finMove_onPacket xxh32 hc _

end Packet

theorem finMove_step (xxh32 : Nat → Nat) (hc : Established c) {op : ControlOp}
    (hop : ClosingOp op) : FinMove c.finPart op (c.step xxh32 op).finPart := by
  rw [step, if_pos hc.there]
  cases op with
  | packet packet host now answer => exact finMove_parsePacket xxh32 hc hop
  | finTimeout now answer =>
    rw [stepAlive]
    by_cases hfires : c.finTimer = .pending
    · rw [if_pos hfires]
      exact finMove_finTimeout xxh32 hc now answer hfires
    · rw [if_neg hfires]
      exact .stay hfires
  | writable now answers answer =>
    rw [stepAlive]
    split
    · exact finMove_writable c now answers answer hc
    · exact .stay trivial
  | close now answer => exact finMove_close xxh32 hc now answer
  | giveUp code =>
    rw [stepAlive]
    split
    · exact finMove_giveUp code ‹_›
    · exact .stay trivial
  | finRetries value => exact .setRetries value
  | synTimeout now answers answer => exact hop.elim
  | shutdown answer => exact hop.elim
  | synRetries value => exact hop.elim

-- ==== one side

namespace FinPart

/-- The connection is in `FIN_SENT` or `FIN_RECEIVED`. -/
def Closing (f : FinPart) : Prop :=
  f.destroyed = 0 ∧ (f.state = .FIN_SENT ∨ f.state = .FIN_RECEIVED)

/-- The close is over: `on_closed` was called once, the connection destroyed
once. -/
def Closed (f : FinPart) : Prop :=
  f.state = .DISCONNECTED ∧ f.closes.length = 1 ∧ f.destroyed = 1

instance (f : FinPart) : Decidable f.Closing := inferInstanceAs (Decidable (_ ∧ (_ ∨ _)))

instance (f : FinPart) : Decidable f.Closed := inferInstanceAs (Decidable (_ ∧ _ ∧ _))

/-- What holds of a side from the moment it is connected. -/
structure Inv (f : FinPart) : Prop where
  listens : f.onClosed = true
  notSent : f.state ≠ .SYN_SENT
  notReceived : f.state ≠ .SYN_RECEIVED
  silent : f.destroyed = 0 → f.closes = []
  once : f.closes.length ≤ 1
  gone : f.destroyed ≤ 1
  ended : f.destroyed ≠ 0 → f.state = .DISCONNECTED
  unset : f.destroyed = 0 → f.state = .CONNECTED → f.finTimer = .null
  sent : f.state = .FIN_SENT → f.finTimer ≠ .null → f.finCallback = .closeTimeout
  received : f.state = .FIN_RECEIVED → f.finCallback = .finPacketTimeout

theorem Inv.atEnd {f : FinPart} (hf : Inv f) (hthere : f.destroyed = 0) (finRetries : Nat)
    {codes : List Int} (hcodes : codes.length ≤ 1) : Inv (f.ended finRetries codes) where
  listens := hf.listens
  notSent := by simp [FinPart.ended]
  notReceived := by simp [FinPart.ended]
  silent := by simp [FinPart.ended]
  once := by simpa [FinPart.ended, hf.silent hthere] using hcodes
  gone := by simp [FinPart.ended, hthere]
  ended := fun _ => rfl
  unset := by simp [FinPart.ended]
  sent := by simp [FinPart.ended]
  received := by simp [FinPart.ended]

theorem Inv.move {f g : FinPart} {op : ControlOp} (hf : Inv f) (hthere : f.destroyed = 0)
    (h : FinMove f op g) : Inv g := by
  cases h with
  | stay _ => exact hf
  | setRetries value => exact { hf with }
  | giveUp hstate =>
    exact { hf with
      notSent := by simp
      notReceived := by simp
      ended := fun _ => rfl
      unset := by simp
      sent := by simp
      received := by simp }
  | sendFin hstate hanswer =>
    exact { hf with
      notSent := by simp [armed]
      notReceived := by simp [armed]
      ended := fun h => absurd hthere h
      unset := by simp [armed]
      sent := fun _ _ => if_pos (hf.unset hthere hstate)
      received := by simp [armed] }
  | refused hstate hanswer =>
    exact { hf with
      notSent := by simp
      notReceived := by simp
      ended := fun h => absurd hthere h
      unset := by simp
      sent := fun _ h => absurd (hf.unset hthere hstate) h
      received := by simp }
  | answerFin hstate =>
    exact { hf with
      notSent := by simp [armed]
      notReceived := by simp [armed]
      ended := fun h => absurd hthere h
      unset := by simp [armed]
      sent := by simp [armed]
      received := fun _ => if_pos (hf.unset hthere hstate) }
  | again hfires hretries hanswer =>
    exact { hf with
      unset := fun h0 hstate => absurd (hfires.symm.trans (hf.unset h0 hstate)) (by simp)
      sent := fun hstate _ => hf.sent hstate (by rw [hfires]; simp) }
  | unarmed hfires hcallback h =>
    exact { hf with
      unset := fun h0 hstate => absurd (hfires.symm.trans (hf.unset h0 hstate)) (by simp)
      sent := fun _ _ => hcallback }
  | timedOut _ _ _ => exact hf.atEnd hthere _ (by simp)
  | ends code _ => exact hf.atEnd hthere _ (by simp)
  | cleared _ => exact hf.atEnd hthere _ (by simp)

section Moves

variable {f g : FinPart} {op : ControlOp}

theorem closing_move (hf : Inv f) (hclosing : Closing f) (h : FinMove f op g) :
    Closing g ∨ Closed g := by
  obtain ⟨hthere, hstate⟩ := hclosing
  have hdone : ∀ n code, Closed (f.ended n [code]) := fun n code =>
    ⟨rfl, by simp [FinPart.ended, hf.silent hthere], by simp [FinPart.ended, hthere]⟩
  cases h with
  | stay _ => exact .inl ⟨hthere, hstate⟩
  | setRetries value => exact .inl ⟨hthere, hstate⟩
  | giveUp h => exact absurd h (by rcases hstate with h | h <;> simp [h])
  | sendFin h _ => exact absurd h (by rcases hstate with h | h <;> simp [h])
  | refused h _ => exact absurd h (by rcases hstate with h | h <;> simp [h])
  | answerFin h => exact absurd h (by rcases hstate with h | h <;> simp [h])
  | again _ _ _ => exact .inl ⟨hthere, hstate⟩
  | unarmed _ _ _ => exact .inl ⟨hthere, hstate⟩
  | timedOut _ _ _ => exact .inr (hdone _ _)
  | ends code _ => exact .inr (hdone _ _)
  | cleared h => exact absurd h (by rcases hstate with h | h <;> simp [h])

/-- The FIN goes out or will be tried again, and the timer of a side that has
sent one runs out only with retries left. -/
def Attended (f : FinPart) : ControlOp → Prop
  | .close _ answer =>
    f.destroyed = 0 → f.state = .CONNECTED → 0 < answer.status ∨ answer.again = true
  | .finTimeout _ answer =>
    f.destroyed = 0 → f.state = .FIN_SENT → f.finTimer = .pending →
      f.finRetries ≠ 0 ∧ (answer.status = 1 ∨ answer.again = true)
  | _ => True

instance (f : FinPart) : ∀ op, Decidable (Attended f op)
  | .close _ _ => inferInstanceAs (Decidable (_ → _ → _ ∨ _))
  | .finTimeout _ _ => inferInstanceAs (Decidable (_ → _ → _ → _ ∧ (_ ∨ _)))
  | .packet .. | .synTimeout .. | .writable .. | .shutdown _ | .giveUp _ | .synRetries _
  | .finRetries _ => isTrue trivial

theorem armed_move (hf : Inv f) (hthere : f.destroyed = 0) (h : FinMove f op g)
    (hok : Attended f op) (harmed : Closing f → f.finTimer = .pending) :
    Closing g → g.finTimer = .pending := by
  intro hg
  cases h with
  | stay _ => exact harmed hg
  | setRetries value => exact harmed hg
  | giveUp _ => exact absurd hg.2 (by simp)
  | sendFin _ _ => rfl
  | refused hstate hanswer => exact absurd (hok hthere hstate) hanswer
  | answerFin _ => rfl
  | again _ _ _ => rfl
  | unarmed hfires hcallback hexp =>
    have hstate : f.state = .FIN_SENT := by
      refine hg.2.elim id fun h => ?_
      rw [hf.received h] at hcallback
      exact absurd hcallback (by simp)
    obtain ⟨hretries, hanswer⟩ := hok hthere hstate hfires
    exact hexp.elim (absurd · hretries) (absurd hanswer ·)
  | timedOut _ _ _ => exact absurd hg.2 (by simp [FinPart.ended])
  | ends code _ => exact absurd hg.2 (by simp [FinPart.ended])
  | cleared _ => exact absurd hg.2 (by simp [FinPart.ended])

theorem unarmed_move (hf : Inv f) (h : FinMove f op g) (hok : ¬ Attended f op) :
    Closing g ∧ g.finTimer ≠ .pending := by
  cases op with
  | close now answer =>
    simp only [Attended, not_forall] at hok
    obtain ⟨hthere, hstate, hanswer⟩ := hok
    cases h with
    | stay h => exact absurd hstate h
    | sendFin _ h => exact absurd h hanswer
    | refused _ _ =>
      refine ⟨⟨hthere, .inl rfl⟩, ?_⟩
      show f.finTimer ≠ .pending
      rw [hf.unset hthere hstate]
      simp
    | ends code h => exact absurd (hstate.symm.trans h) (by simp)
  | finTimeout now answer =>
    simp only [Attended, not_forall, not_and_or] at hok
    obtain ⟨hthere, hstate, hfires, hexp⟩ := hok
    have hcallback : f.finCallback = .closeTimeout := hf.sent hstate (by rw [hfires]; simp)
    cases h with
    | stay h => exact absurd hfires h
    | again _ hretries hanswer =>
      refine absurd hexp (not_or.mpr ⟨not_not.mpr hretries, not_not.mpr ?_⟩)
      exact hanswer.elim (fun h => absurd (hcallback.symm.trans h) (by simp)) id
    | unarmed _ _ _ => exact ⟨⟨hthere, .inl hstate⟩, by simp⟩
    | timedOut _ h _ => exact absurd (hcallback.symm.trans h) (by simp)
    | ends code h => exact h.elim
  | _ => exact absurd trivial hok

/-- The timer of a closing side runs out at most as often as there are
retries. -/
theorem retries_fires {now : Nat} {answer : SendAnswer} (hf : Inv f) (hclosing : Closing f)
    (hfires : f.finTimer = .pending) (hok : Attended f (.finTimeout now answer))
    (h : FinMove f (.finTimeout now answer) g) : Closed g ∨ g.finRetries < f.finRetries := by
  obtain ⟨hthere, hstate⟩ := hclosing
  cases h with
  | stay h => exact absurd hfires h
  | again _ hretries _ => exact .inr (dec32_lt hretries)
  | unarmed _ hcallback _ =>
    refine .inr (dec32_lt (hok hthere ?_ hfires).1)
    refine hstate.elim id fun h => ?_
    rw [hf.received h] at hcallback
    exact absurd hcallback (by simp)
  | timedOut _ _ _ =>
    left
    exact ⟨rfl, by simp [FinPart.ended, hf.silent hthere], by simp [FinPart.ended, hthere]⟩
  | ends code h => exact h.elim

/-- `kcp_ioctl` counts the retries anew. -/
def ResetsFin : ControlOp → Prop
  | .finRetries _ => True
  | _ => False

theorem retries_other (h : FinMove f op g)
    (hfires : ∀ now answer, op = .finTimeout now answer → f.finTimer ≠ .pending)
    (hresets : ¬ ResetsFin op) : g.finRetries = f.finRetries := by
  cases h with
  | setRetries value => exact absurd trivial hresets
  | again h _ _ => exact absurd h (hfires _ _ rfl)
  | unarmed h _ _ => exact absurd h (hfires _ _ rfl)
  | timedOut h _ _ => exact absurd h (hfires _ _ rfl)
  | _ => rfl

end Moves

end FinPart

-- ==== what is sent

def NotSyn (p : ControlPacket) : Prop := ∀ packetSn randSn, p.body ≠ .syn packetSn randSn

/-- What the side has sent is no SYN, and what it would send once more, when
it closes, is a FIN. -/
structure Polite (c : KcpControl) : Prop where
  sends : ∀ p ∈ c.outbox, NotSyn p
  last : c.finPart.Closing → ∃ pos, c.headers.getLast? = some pos ∧ pos.cmd = KCP_CMD_FIN

section Polite

variable {c d : KcpControl} {body : ControlBody} {taken : Bool}

theorem notSyn_emit (hc : ∀ p ∈ c.outbox, NotSyn p)
    (hbody : ∀ packetSn randSn, body ≠ .syn packetSn randSn) :
    ∀ p ∈ (c.emit body taken).outbox, NotSyn p := by
  cases taken with
  | false => exact hc
  | true =>
    intro p hp
    rcases List.mem_append.mp hp with hp | hp
    · exact hc p hp
    · rw [List.mem_singleton.mp hp]
      exact hbody

theorem Polite.sent (hp : Polite c) {pos : KcpSynFin} (hpos : pos.cmd = KCP_CMD_FIN)
    (hbody : ∀ packetSn randSn, body ≠ .syn packetSn randSn)
    (houtbox : d.outbox = ((c.keep pos).emit body taken).outbox)
    (hheaders : d.headers = c.headers ++ [pos]) : Polite d where
  sends := by
    rw [houtbox]
    exact notSyn_emit (c := c.keep pos) hp.sends hbody
  last := fun _ => ⟨pos, by rw [hheaders, List.getLast?_concat], hpos⟩

theorem Polite.unsent (hp : Polite c) (houtbox : d.outbox = c.outbox)
    (hheaders : d.headers = c.headers) (hclosing : d.finPart.Closing → c.finPart.Closing) :
    Polite d where
  sends := houtbox ▸ hp.sends
  last := fun h => hheaders ▸ hp.last (hclosing h)

theorem Polite.of_not_closing (hsends : ∀ p ∈ d.outbox, NotSyn p) (h : ¬ d.finPart.Closing) :
    Polite d := ⟨hsends, fun hclosing => absurd hclosing h⟩

variable (xxh32 : Nat → Nat)

theorem polite_close (hc : Established c) (hp : Polite c) (now : Nat)
    (answer : SendAnswer) : Polite (c.close xxh32 now answer) := by
  unfold close
  split
  · exact .of_not_closing (by simpa [destroy] using hp.sends) fun h =>
      absurd h.1 (by simp [finPart, destroy])
  · exact absurd ‹_› hc.sent
  · exact absurd ‹_› hc.received
  · dsimp only
    split
    · split
      · exact hp.sent rfl (by simp) rfl (by simp [armFin, addWriteEvent, keep])
      · exact hp.sent rfl (by simp) rfl (by simp [call, keep])
    · exact hp.sent rfl (by simp) rfl (by simp [armFin, keep])
  · exact hp
  · exact hp

theorem polite_finTimeout (hp : Polite c) (now : Nat) (answer : SendAnswer) :
    Polite (c.finTimeout xxh32 now answer) := by
  have hidle : ∀ n, Polite { c with finTimer := .idle, finRetries := n } := fun n =>
    hp.unsent rfl rfl id
  unfold finTimeout
  split
  · unfold closeTimeout
    dsimp only
    split
    · split
      · split
        · exact (hidle _).sent rfl (by simp) rfl (by simp [addWriteEvent, keep])
        · exact (hidle _).sent rfl (by simp) rfl (by simp [call, keep])
      · exact (hidle _).sent rfl (by simp) rfl (by simp [keep])
    · exact hidle _
  · unfold finPacketTimeout
    dsimp only
    split
    · exact (hidle _).sent rfl (by simp) rfl (by simp [keep])
    · split
      · exact .of_not_closing (by simpa [destroy, call] using hp.sends) fun h =>
          absurd h.1 (by simp [finPart, destroy])
      · exact .of_not_closing (by simpa [destroy] using hp.sends) fun h =>
          absurd h.1 (by simp [finPart, destroy])

theorem polite_writeEvent (hc : Established c) (hp : Polite c) (now : Nat)
    (answers : Nat → Int × Int) (answer : SendAnswer) :
    Polite (c.writeEvent now answers answer) := by
  have hresend : c.finPart.Closing → ∀ taken, Polite (c.resend taken) := by
    intro hclosing taken
    obtain ⟨pos, hlast, hpos⟩ := hp.last hclosing
    refine ⟨?_, fun _ => ⟨pos, ?_, hpos⟩⟩
    · simp only [resend, hlast, hpos, show ¬ KCP_CMD_FIN = KCP_CMD_SYN by decide, if_false]
      exact notSyn_emit hp.sends (by simp)
    · simp only [resend, hlast, hpos, show ¬ KCP_CMD_FIN = KCP_CMD_SYN by decide, if_false,
        emit_fields]
  have hrest : c.finPart.Closing → Polite
      (if answer.status ≠ 1 then (c.resend (0 < answer.status)).writeFailed answer
        else { c.resend (0 < answer.status) with queued := false }) := by
    intro hclosing
    have h := hresend hclosing (0 < answer.status)
    split
    · unfold writeFailed
      split
      · exact h
      · exact h.unsent rfl rfl id
    · exact h.unsent rfl rfl id
  unfold writeEvent
  split
  · exact hp.unsent rfl rfl id
  · exact absurd ‹_› hc.sent
  · exact absurd ‹_› hc.received
  · exact hp.unsent rfl rfl id
  · exact hrest ⟨hc.there, .inl ‹_›⟩
  · exact hrest ⟨hc.there, .inr ‹_›⟩

theorem polite_onPacket (hc : Established c) (hp : Polite c)
    (body : ControlBody) (now : Nat) (answer : SendAnswer) :
    Polite (c.onPacket xxh32 body now answer) := by
  unfold onPacket
  split
  · exact absurd ‹_› hc.received
  · exact absurd ‹_› hc.received
  · exact absurd ‹c.state = .SYN_RECEIVED› hc.received
  · unfold onFin
    dsimp only
    exact hp.sent rfl (by simp) rfl (by simp [armFin, keep])
  · split
    · refine .of_not_closing ?_ fun h => absurd h.2 (by simp [finPart])
      simp only [callClosed_fields]
      exact notSyn_emit hp.sends (by simp)
    · exact hp
  · exact hp.sent rfl (by simp) rfl (by simp [keep])
  · split
    · exact .of_not_closing (by simpa using hp.sends) fun h => absurd h.2 (by simp [finPart])
    · exact hp
  · exact hp

theorem polite_onRst (hc : Established c) (hp : Polite c) : Polite c.onRst := by
  unfold onRst
  split
  · exact absurd ‹_› hc.sent
  · exact absurd ‹_› hc.received
  · exact hp
  · exact .of_not_closing (by simpa using hp.sends) fun h => absurd h.2 (by simp [finPart])

theorem polite_parsePacket (hc : Established c) (hp : Polite c)
    {packet : ControlPacket} (hsyn : NotSyn packet) (host now : Nat) (answer : SendAnswer) :
    Polite (c.parsePacket xxh32 packet host now answer) := by
  have hcleared : ∀ d : KcpControl, Polite d →
      Polite (if d.state = .DISCONNECTED then d.destroy else d) := by
    intro d hd
    split
    · exact .of_not_closing hd.sends fun h => absurd h.1 (by simp [finPart, destroy])
    · exact hd
  have hfrom : c.fromCandidate host = c := by
    unfold fromCandidate
    exact if_neg fun h => hc.sent h.1
  unfold parsePacket
  split
  · exact hp
  · split
    · exact absurd ‹_› (hsyn _ _)
    · dsimp only
      unfold readEvent
      dsimp only
      rw [hfrom]
      split
      · exact hcleared c hp
      · split
        · exact hcleared _ (polite_onRst hc hp)
        · exact hcleared _ (polite_onPacket xxh32 hc hp _ now answer)

theorem polite_step (hc : Established c) (hp : Polite c) {op : ControlOp}
    (hop : ClosingOp op) : Polite (c.step xxh32 op) := by
  rw [step, if_pos hc.there]
  cases op with
  | packet packet host now answer => exact polite_parsePacket xxh32 hc hp hop host now answer
  | finTimeout now answer =>
    rw [stepAlive]
    split
    · exact polite_finTimeout xxh32 hp now answer
    · exact hp
  | writable now answers answer =>
    rw [stepAlive]
    split
    · exact polite_writeEvent hc hp now answers answer
    · exact hp
  | close now answer => exact polite_close xxh32 hc hp now answer
  | giveUp code =>
    rw [stepAlive]
    split
    · exact hp.unsent rfl rfl fun h => absurd h.2 (by simp [finPart, call])
    · exact hp
  | finRetries value => exact hp.unsent rfl rfl id
  | synTimeout now answers answer => exact hop.elim
  | shutdown answer => exact hop.elim
  | synRetries value => exact hop.elim

end Polite

/-- What holds of one side of a pair. -/
structure SideInv (c : KcpControl) : Prop where
  fin : c.finPart.Inv
  polite : Polite c

theorem SideInv.established (hc : SideInv c) (h0 : c.destroyed = 0) :
    Established c where
  there := h0
  listens := hc.fin.listens
  sent := hc.fin.notSent
  received := hc.fin.notReceived

theorem step_gone (xxh32 : Nat → Nat) (h : c.destroyed ≠ 0) (op : ControlOp) :
    c.step xxh32 op = c := by
  rw [step, if_neg h]

theorem SideInv.step (hc : SideInv c) (xxh32 : Nat → Nat) {op : ControlOp}
    (hop : ClosingOp op) : SideInv (c.step xxh32 op) := by
  by_cases h0 : c.destroyed = 0
  · have hest := hc.established h0
    exact ⟨hc.fin.move h0 (finMove_step xxh32 hest hop), polite_step xxh32 hest hc.polite hop⟩
  · rw [step_gone xxh32 h0]
    exact hc

end KcpControl

end Eular.Kcp
