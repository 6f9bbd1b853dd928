/-
What a client can wait for while it connects.

Three facts carry it. `kcp_send_syn_to_candidates` answers `NO_ERROR`, a
zero, when somebody took the SYN and never anything above, while
`kcp_connect_timeout` takes for a success what is above zero: a SYN sent
again is told as a write error, and the timer stays off. A client in
`SYN_SENT` is not in the write queue. And `on_connected` is called by the
timer or by the SYN that ends it, so once at most.
-/
import Eular.Kcp.Control

namespace Eular.Kcp

namespace KcpControl

variable {c : KcpControl} {xxh32 : Nat → Nat} {op : ControlOp}

/-- The codes `on_connected` was given. -/
def connects (c : KcpControl) : List Int :=
  c.callbacks.filterMap fun
    | .connected code => some code
    | _ => none

/-- The codes `on_error` was given. -/
def errors (c : KcpControl) : List Int :=
  c.callbacks.filterMap fun
    | .error code => some code
    | _ => none

/-- The connection is there and its SYN is out. -/
def Connecting (c : KcpControl) : Prop := c.destroyed = 0 ∧ c.state = .SYN_SENT

instance (c : KcpControl) : Decidable c.Connecting := inferInstanceAs (Decidable (_ ∧ _))

/-- The step is the SYN timer running out. -/
def SynFires (c : KcpControl) : ControlOp → Prop
  | .synTimeout _ _ _ => c.destroyed = 0 ∧ c.synTimer = .pending
  | _ => False

instance (c : KcpControl) : ∀ op, Decidable (c.SynFires op)
  | .synTimeout _ _ _ => inferInstanceAs (Decidable (_ ∧ _))
  | .packet .. | .finTimeout .. | .writable .. | .close .. | .shutdown _ | .giveUp _
  | .synRetries _ | .finRetries _ => isFalse id

-- ==== the candidates

theorem trySyns_nonpos (candidates : List Nat) (answers : Nat → Int × Int) :
    (trySyns candidates answers).2 ≤ 0 := by
  unfold trySyns
  have h : ∀ (l : List Nat) (r : Bool × Int), r.2 ≤ 0 →
      (l.foldl (trySyn answers) r).2 ≤ 0 := by
    intro l
    induction l with
    | nil => intro r hr; exact hr
    | cons i l ih =>
      intro r hr
      apply ih
      unfold trySyn
      split
      · exact hr
      · split
        · show (answers i).1 ≤ 0
          omega
        · show (answers i).2 ≤ 0
          omega
  exact h _ _ (by decide)

theorem sendSynToCandidates_nonpos (candidates : List Nat) (answers : Nat → Int × Int) :
    sendSynToCandidates candidates answers ≤ 0 := by
  unfold sendSynToCandidates
  dsimp only
  split
  · decide
  · exact trySyns_nonpos candidates answers

-- ==== callbacks

@[simp] theorem connects_call (c : KcpControl) (callback : KcpCallback) :
    (c.call callback).connects = c.connects ++ [callback].filterMap fun
      | .connected code => some code
      | _ => none := by
  simp [connects, call]

@[simp] theorem connects_callClosed (c : KcpControl) (code : Int) :
    (c.callClosed code).connects = c.connects := by
  unfold callClosed
  split
  · simp
  · rfl

theorem connects_congr {c d : KcpControl} (h : d.callbacks = c.callbacks) :
    d.connects = c.connects := by
  unfold connects
  rw [h]

-- ==== invariant

/-- Nothing but the SYN timer is set up for the connection. -/
def Quiet (c : KcpControl) : Prop := c.queued = false ∧ c.finTimer = .null

/-- What holds of a client from the moment `kcp_connect` returns. -/
structure ClientInv (c : KcpControl) : Prop where
  client : c.client = true
  accepts : c.state ≠ .SYN_RECEIVED
  candidates : c.candidates ≠ []
  quiet : c.state = .SYN_SENT → c.Quiet
  timed : c.Connecting → c.synTimer ≠ .null
  waits : c.synTimer ≠ .null → c.connects = []
  once : c.connects.length ≤ 1
  range : c.synRetries = i32 c.synRetries

/-- A step that does not concern the handshake: the SYN timer is left alone
or freed, `on_connected` is not called. -/
structure Aside (c d : KcpControl) : Prop where
  client : d.client = c.client
  candidates : d.candidates = c.candidates
  retries : d.synRetries = c.synRetries
  connects : d.connects = c.connects
  timer : d.synTimer = c.synTimer ∨ d.synTimer = .null
  sent : d.state = .SYN_SENT →
    c.state = .SYN_SENT ∧ (c.Quiet → d.Quiet) ∧
      (d.destroyed = 0 → c.destroyed = 0 ∧ d.synTimer = c.synTimer)
  received : d.state = .SYN_RECEIVED → c.state = .SYN_RECEIVED

theorem Aside.refl (c : KcpControl) : Aside c c where
  client := rfl
  candidates := rfl
  retries := rfl
  connects := rfl
  timer := .inl rfl
  sent := fun h => ⟨h, id, fun h => ⟨h, rfl⟩⟩
  received := id

theorem Aside.trans {c d e : KcpControl} (h : Aside c d) (h' : Aside d e) : Aside c e where
  client := h'.client.trans h.client
  candidates := h'.candidates.trans h.candidates
  retries := h'.retries.trans h.retries
  connects := h'.connects.trans h.connects
  timer := h'.timer.elim (fun heq => h.timer.imp heq.trans heq.trans) .inr
  sent := by
    intro he
    obtain ⟨hd, hquiet', hthere'⟩ := h'.sent he
    obtain ⟨hc, hquiet, hthere⟩ := h.sent hd
    refine ⟨hc, fun hq => hquiet' (hquiet hq), fun h0 => ?_⟩
    obtain ⟨hd0, htimer'⟩ := hthere' h0
    exact ⟨(hthere hd0).1, htimer'.trans (hthere hd0).2⟩
  received := fun he => h.received (h'.received he)

theorem Aside.of_left {c d : KcpControl} (hsent : d.state ≠ .SYN_SENT)
    (hreceived : d.state ≠ .SYN_RECEIVED) (hclient : d.client = c.client)
    (hcandidates : d.candidates = c.candidates) (hretries : d.synRetries = c.synRetries)
    (hconnects : d.connects = c.connects)
    (htimer : d.synTimer = c.synTimer ∨ d.synTimer = .null) : Aside c d where
  client := hclient
  candidates := hcandidates
  retries := hretries
  connects := hconnects
  timer := htimer
  sent := fun h => absurd h hsent
  received := fun h => absurd h hreceived

theorem aside_destroy (c : KcpControl) : Aside c c.destroy where
  client := rfl
  candidates := rfl
  retries := rfl
  connects := rfl
  timer := .inr rfl
  sent := by
    intro h
    exact ⟨h, fun _ => ⟨rfl, rfl⟩, fun h0 => absurd h0 (by simp [destroy])⟩
  received := id

theorem aside_callClosed (c : KcpControl) (code : Int) : Aside c (c.callClosed code) where
  client := by simp
  candidates := by simp
  retries := by simp
  connects := connects_callClosed c code
  timer := by simp
  sent := by
    intro h
    exact ⟨by simpa using h, by simp [Quiet], by simp⟩
  received := by simp

theorem ClientInv.aside {c d : KcpControl} (hc : ClientInv c) (h : Aside c d) : ClientInv d where
  client := h.client.trans hc.client
  accepts := fun hd => hc.accepts (h.received hd)
  candidates := h.candidates ▸ hc.candidates
  quiet := fun hd => (h.sent hd).2.1 (hc.quiet (h.sent hd).1)
  timed := by
    intro hd
    obtain ⟨hstate, -, hthere⟩ := h.sent hd.2
    obtain ⟨hthere, htimer⟩ := hthere hd.1
    rw [htimer]
    exact hc.timed ⟨hthere, hstate⟩
  waits := by
    intro hd
    rw [h.connects]
    apply hc.waits
    intro hnull
    exact h.timer.elim (fun heq => hd (heq.trans hnull)) hd
  once := h.connects ▸ hc.once
  range := h.retries ▸ hc.range

-- ==== the other steps

theorem aside_shutdown (c : KcpControl) (answer : SendAnswer) : Aside c (c.shutdown answer) := by
  unfold shutdown
  dsimp only
  refine Aside.trans ?_ ((aside_callClosed _ _).trans (aside_destroy _))
  split
  · exact Aside.refl c
  · apply Aside.of_left <;> simp [connects]

theorem aside_close (xxh32 : Nat → Nat) (c : KcpControl) (now : Nat) (answer : SendAnswer) :
    Aside c (c.close xxh32 now answer) := by
  unfold close
  split
  · exact (aside_callClosed _ _).trans (aside_destroy _)
  · exact aside_shutdown c answer
  · exact aside_shutdown c answer
  · dsimp only
    split
    · split
      · apply Aside.of_left <;> simp [armFin, addWriteEvent, keep, connects]
      · apply Aside.of_left <;> simp [keep, call, connects]
    · apply Aside.of_left <;> simp [armFin, keep, connects]
  · exact Aside.refl c
  · exact Aside.refl c

theorem aside_giveUp (c : KcpControl) (code : Int) :
    Aside c ({ c with state := .DISCONNECTED }.call (.error code)) := by
  apply Aside.of_left <;> simp [call, connects]

theorem aside_finTimeout (xxh32 : Nat → Nat) (c : KcpControl) (now : Nat) (answer : SendAnswer)
    (hsent : c.state ≠ .SYN_SENT) (hreceived : c.state ≠ .SYN_RECEIVED) :
    Aside c (c.finTimeout xxh32 now answer) := by
  unfold finTimeout
  split
  · unfold closeTimeout
    dsimp only
    split
    · split
      · split
        · apply Aside.of_left <;> simp [addWriteEvent, keep, connects, hsent, hreceived]
        · apply Aside.of_left <;> simp [call, keep, connects, hsent, hreceived]
      · apply Aside.of_left <;> simp [keep, connects, hsent, hreceived]
    · apply Aside.of_left <;> simp [connects, hsent, hreceived]
  · unfold finPacketTimeout
    dsimp only
    split
    · apply Aside.of_left <;> simp [keep, connects, hsent, hreceived]
    · split
      · refine Aside.trans ?_ (aside_destroy _)
        apply Aside.of_left <;> simp [call, connects]
      · refine Aside.trans ?_ (aside_destroy _)
        apply Aside.of_left <;> simp [connects, hsent, hreceived]

theorem aside_writeFailed (c : KcpControl) (answer : SendAnswer) :
    Aside c (c.writeFailed answer) := by
  unfold writeFailed
  split
  · exact Aside.refl c
  · exact {
      client := rfl
      candidates := rfl
      retries := rfl
      connects := by simp
      timer := .inl rfl
      sent := fun h => ⟨h, id, fun h0 => ⟨h0, rfl⟩⟩
      received := id }

theorem aside_writeEvent (c : KcpControl) (now : Nat) (answers : Nat → Int × Int)
    (answer : SendAnswer) (hsent : c.state ≠ .SYN_SENT) (hreceived : c.state ≠ .SYN_RECEIVED) :
    Aside c (c.writeEvent now answers answer) := by
  have hresend : ∀ taken, Aside c (c.resend taken) := by
    intro taken
    unfold resend
    split
    · exact Aside.refl c
    · split
      · apply Aside.of_left <;> simp [connects, hsent, hreceived]
      · apply Aside.of_left <;> simp [connects, hsent, hreceived]
  have hfailed : Aside c ((c.resend (0 < answer.status)).writeFailed answer) :=
    (hresend (0 < answer.status)).trans (aside_writeFailed _ _)
  have htaken : Aside c { c.resend (0 < answer.status) with queued := false } := by
    refine (hresend (0 < answer.status)).trans ?_
    exact {
      client := rfl
      candidates := rfl
      retries := rfl
      connects := rfl
      timer := .inl rfl
      sent := fun h => ⟨h, fun hq => ⟨rfl, hq.2⟩, fun h0 => ⟨h0, rfl⟩⟩
      received := id }
  unfold writeEvent
  split
  · apply Aside.of_left <;> simp [call, connects, hsent, hreceived]
  · exact absurd ‹c.state = .SYN_SENT› hsent
  · exact absurd ‹c.state = .SYN_RECEIVED› hreceived
  · apply Aside.of_left <;> simp [connects, hsent, hreceived]
  · dsimp only
    split
    · exact hfailed
    · exact htaken
  · dsimp only
    split
    · exact hfailed
    · exact htaken

theorem aside_onPacket (xxh32 : Nat → Nat) (c : KcpControl) (body : ControlBody) (now : Nat)
    (answer : SendAnswer) (hreceived : c.state ≠ .SYN_RECEIVED) :
    Aside c (c.onPacket xxh32 body now answer) := by
  unfold onPacket
  split
  · exact absurd ‹c.state = .SYN_RECEIVED› hreceived
  · exact absurd ‹c.state = .SYN_RECEIVED› hreceived
  · exact absurd ‹c.state = .SYN_RECEIVED› hreceived
  · unfold onFin armFin
    apply Aside.of_left <;> simp [keep, connects]
  · split
    · refine Aside.trans ?_ (aside_callClosed _ _)
      apply Aside.of_left <;> simp [connects]
    · exact Aside.refl c
  · rename_i hstate
    apply Aside.of_left <;> simp [keep, connects, hstate]
  · split
    · refine Aside.trans ?_ (aside_callClosed _ _)
      apply Aside.of_left <;> simp [connects]
    · exact Aside.refl c
  · exact Aside.refl c

-- ==== the SYN timer

theorem connectTimeout_spent (xxh32 : Nat → Nat) (now : Nat)
    (answers : Nat → Int × Int) (answer : SendAnswer) (h : c.synRetries = 0) :
    c.connectTimeout xxh32 now answers answer =
      ({ c with synRetries := i32 (-1) }.call (.connected TIMED_OUT)).destroy := by
  unfold connectTimeout
  simp [h]

theorem rearmSyn_fields (c : KcpControl) (status : Int) :
    (c.rearmSyn status).client = c.client ∧ (c.rearmSyn status).candidates = c.candidates ∧
    (c.rearmSyn status).state = c.state ∧ (c.rearmSyn status).destroyed = c.destroyed ∧
    (c.rearmSyn status).connects = c.connects ∧ (c.rearmSyn status).queued = c.queued ∧
    (c.rearmSyn status).finTimer = c.finTimer ∧ (c.rearmSyn status).synRetries = c.synRetries ∧
    ((c.rearmSyn status).synTimer = .pending ∨ (c.rearmSyn status).synTimer = c.synTimer) := by
  unfold rearmSyn
  split
  · simp [call, connects]
  · simp [connects]

/-- It runs out with retries left: a SYN is sent, and then the timer is on
again or a write error is told. -/
theorem connectTimeout_left (xxh32 : Nat → Nat) (now : Nat)
    (answers : Nat → Int × Int) (answer : SendAnswer) (h : c.synRetries ≠ 0) :
    let d := c.connectTimeout xxh32 now answers answer
    d.client = c.client ∧ d.candidates = c.candidates ∧ d.state = c.state ∧
    d.destroyed = c.destroyed ∧ d.connects = c.connects ∧ d.queued = c.queued ∧
    d.finTimer = c.finTimer ∧ d.synRetries = i32 (c.synRetries - 1) ∧
    (d.synTimer = .pending ∨ d.synTimer = c.synTimer) := by
  intro d
  simp only [d, connectTimeout, if_pos h]
  obtain ⟨hclient, hcandidates, hstate, hdestroyed, hconnects, hqueued, hfin, hretries, harmed⟩ :=
    rearmSyn_fields ((KcpControl.keep { c with synRetries := i32 (c.synRetries - 1) } _).emit _ _) _
  refine ⟨hclient.trans ?_, hcandidates.trans ?_, hstate.trans ?_, hdestroyed.trans ?_,
    hconnects.trans ?_, hqueued.trans ?_, hfin.trans ?_, hretries.trans ?_,
    harmed.imp id fun h => h.trans ?_⟩ <;> simp [keep, connects]

/-- In `SYN_SENT` it is the write error, whatever became of the SYN. -/
theorem synTimer_connectTimeout (xxh32 : Nat → Nat) (now : Nat)
    (answers : Nat → Int × Int) (answer : SendAnswer) (h : c.synRetries ≠ 0)
    (hcandidates : c.candidates ≠ []) (hstate : c.state = .SYN_SENT) :
    (c.connectTimeout xxh32 now answers answer).synTimer = c.synTimer := by
  have hlen : 0 < c.candidates.length := List.length_pos_iff.mpr hcandidates
  unfold connectTimeout rearmSyn
  simp [h, keep, hstate, hlen, sendSynToCandidates_nonpos, call]

theorem ClientInv.connectTimeout (hc : ClientInv c) (xxh32 : Nat → Nat)
    (now : Nat) (answers : Nat → Int × Int) (answer : SendAnswer) (htimer : c.synTimer ≠ .null) :
    ClientInv (c.connectTimeout xxh32 now answers answer) := by
  by_cases h : c.synRetries = 0
  · rw [connectTimeout_spent xxh32 now answers answer h]
    exact {
      client := hc.client
      accepts := hc.accepts
      candidates := hc.candidates
      quiet := fun _ => ⟨rfl, rfl⟩
      timed := fun hd => absurd hd.1 (by simp [destroy, call])
      waits := fun hd => absurd rfl hd
      once := by
        show ((KcpControl.call _ _).connects).length ≤ 1
        rw [connects_call]
        show (c.connects ++ _).length ≤ 1
        rw [hc.waits htimer]
        decide
      range := by
        show i32 (-1) = i32 (i32 (-1))
        rw [i32_i32] }
  · obtain ⟨hclient, hcandidates, hstate, -, hconnects, hqueued, hfin, hretries, harmed⟩ :=
      connectTimeout_left xxh32 now answers answer h
    have hwaits : c.connects = [] := hc.waits htimer
    exact {
      client := hclient.trans hc.client
      accepts := hstate ▸ hc.accepts
      candidates := hcandidates ▸ hc.candidates
      quiet := by
        intro hd
        obtain ⟨hq, hf⟩ := hc.quiet (hstate ▸ hd)
        exact ⟨hqueued.trans hq, hfin.trans hf⟩
      timed := fun _ => harmed.elim (fun h => by rw [h]; decide) fun h => by rw [h]; exact htimer
      waits := fun _ => hconnects.trans hwaits
      once := by rw [hconnects, hwaits]; decide
      range := by rw [hretries, i32_i32] }

-- ==== packets coming

theorem ClientInv.onSynReceived (hc : ClientInv c) (h0 : c.destroyed = 0)
    (host scid packetSn randSn : Nat) (answer : SendAnswer) :
    ClientInv (c.onSynReceived host scid packetSn randSn answer) := by
  unfold KcpControl.onSynReceived
  dsimp only
  split
  · split
    · split
      · exact hc.aside {
          client := rfl
          candidates := rfl
          retries := rfl
          connects := rfl
          timer := .inl rfl
          sent := fun h => ⟨h, id, fun h0 => ⟨h0, rfl⟩⟩
          received := id }
      · apply hc.aside
        apply Aside.of_left <;> simp [call, connects]
    · split
      · rename_i hstate
        have hsent : c.state = .SYN_SENT := by simpa using hstate
        have hwaits : c.connects = [] := hc.waits (hc.timed ⟨h0, hsent⟩)
        exact {
          client := by simpa [call] using hc.client
          accepts := by simp [call]
          candidates := by simpa [call] using hc.candidates
          quiet := by simp [call]
          timed := by simp [Connecting, call]
          waits := by simp [call]
          once := by
            rw [connects_call, connects_congr (c := c) (by simp), hwaits]
            decide
          range := by simpa [call] using hc.range }
      · rename_i hstate
        have hsent : c.state ≠ .SYN_SENT := by simpa using hstate
        apply hc.aside
        apply Aside.of_left <;> simp [connects, hsent, hc.accepts]
  · exact hc

theorem ClientInv.onRst (hc : ClientInv c) (h0 : c.destroyed = 0) :
    ClientInv c.onRst.destroy := by
  unfold KcpControl.onRst
  split
  · rename_i hstate
    have hwaits : c.connects = [] := hc.waits (hc.timed ⟨h0, hstate⟩)
    exact {
      client := hc.client
      accepts := by simp [call, destroy]
      candidates := hc.candidates
      quiet := fun _ => ⟨rfl, rfl⟩
      timed := fun hd => absurd hd.1 (by simp [destroy, call])
      waits := fun hd => absurd rfl hd
      once := by
        show (KcpControl.call _ _).connects.length ≤ 1
        rw [connects_call]
        show (c.connects ++ _).length ≤ 1
        rw [hwaits]
        decide
      range := hc.range }
  · rename_i hstate
    exact absurd hstate hc.accepts
  · exact hc.aside (aside_destroy c)
  · refine hc.aside (Aside.trans ?_ ((aside_callClosed _ _).trans (aside_destroy _)))
    apply Aside.of_left <;> simp [connects]

theorem onRst_state (c : KcpControl) : c.onRst.state = .DISCONNECTED := by
  unfold onRst
  split
  · rfl
  · simp
  · rename_i hstate
    exact hstate
  · simp

theorem ClientInv.fromCandidate (hc : ClientInv c) (h0 : c.destroyed = 0)
    (host : Nat) :
    ClientInv (c.fromCandidate host) ∧ (c.fromCandidate host).destroyed = 0 := by
  unfold KcpControl.fromCandidate
  split
  · exact ⟨{ hc with }, h0⟩
  · exact ⟨hc, h0⟩

theorem ClientInv.parsePacket (hc : ClientInv c) (h0 : c.destroyed = 0)
    (xxh32 : Nat → Nat) (packet : ControlPacket) (host now : Nat) (answer : SendAnswer) :
    ClientInv (c.parsePacket xxh32 packet host now answer) := by
  have hdrop : ∀ d : KcpControl, ClientInv d →
      ClientInv (if d.state = .DISCONNECTED then d.destroy else d) := by
    intro d hd
    split
    · exact hd.aside (aside_destroy d)
    · exact hd
  unfold KcpControl.parsePacket
  split
  · exact hc
  · split
    · split
      · exact hc.onSynReceived h0 _ _ _ _ _
      · exact hc
    · dsimp only
      unfold readEvent
      dsimp only
      obtain ⟨hd, hd0⟩ := hc.fromCandidate h0 host
      split
      · exact hdrop _ hd
      · split
        · rw [if_pos (onRst_state _)]
          exact hd.onRst hd0
        · exact hdrop _ (hd.aside (aside_onPacket xxh32 _ _ now answer hd.accepts))

theorem ClientInv.setSynRetries (hc : ClientInv c) (n : Int) :
    ClientInv { c with synRetries := i32 n } :=
  { hc with range := by simp }

theorem ClientInv.step (hc : ClientInv c) (xxh32 : Nat → Nat) (op : ControlOp) :
    ClientInv (c.step xxh32 op) := by
  unfold KcpControl.step
  split
  · rename_i h0
    cases op with
    | packet packet host now answer => exact hc.parsePacket h0 xxh32 packet host now answer
    | synTimeout now answers answer =>
      show ClientInv (if _ then _ else _)
      split
      · rename_i htimer
        have hidle : ClientInv { c with synTimer := .idle } :=
          { hc with
            timed := fun _ => by simp
            waits := fun _ => hc.waits (by rw [htimer]; decide) }
        exact hidle.connectTimeout xxh32 now answers answer (by simp)
      · exact hc
    | finTimeout now answer =>
      show ClientInv (if _ then _ else _)
      split
      · rename_i htimer
        have hsent : c.state ≠ .SYN_SENT := by
          intro hstate
          rw [(hc.quiet hstate).2] at htimer
          exact absurd htimer (by decide)
        exact hc.aside (aside_finTimeout xxh32 c now answer hsent hc.accepts)
      · exact hc
    | writable now answers answer =>
      show ClientInv (if _ then _ else _)
      split
      · rename_i hqueued
        have hsent : c.state ≠ .SYN_SENT := by
          intro hstate
          rw [(hc.quiet hstate).1] at hqueued
          exact absurd hqueued (by decide)
        exact hc.aside (aside_writeEvent c now answers answer hsent hc.accepts)
      · exact hc
    | close now answer => exact hc.aside (aside_close xxh32 c now answer)
    | shutdown answer => exact hc.aside (aside_shutdown c answer)
    | giveUp code =>
      show ClientInv (if _ then _ else _)
      split
      · exact hc.aside (aside_giveUp c code)
      · exact hc
    | synRetries value =>
      exact hc.setSynRetries (u32 value)
    | finRetries value => exact { hc with }
  · exact hc

-- ==== what is pending

/-- A step that is not the SYN timer's: the retries stay, and a SYN that is
still out has its timer as it was. -/
structure Follows (c d : KcpControl) : Prop where
  retries : d.synRetries = c.synRetries
  kept : d.Connecting → c.Connecting ∧ d.synTimer = c.synTimer

theorem Aside.follows {c d : KcpControl} (h : Aside c d) : Follows c d where
  retries := h.retries
  kept := by
    intro hd
    obtain ⟨hstate, -, hthere⟩ := h.sent hd.2
    obtain ⟨hthere, htimer⟩ := hthere hd.1
    exact ⟨⟨hthere, hstate⟩, htimer⟩

theorem follows_onSynReceived (c : KcpControl) (host scid packetSn randSn : Nat)
    (answer : SendAnswer) : Follows c (c.onSynReceived host scid packetSn randSn answer) := by
  unfold onSynReceived
  dsimp only
  split
  · split
    · split
      · exact ⟨rfl, fun h => ⟨h, rfl⟩⟩
      · exact ⟨rfl, fun h => absurd h.2 (by simp [call])⟩
    · split
      · exact ⟨by simp [call], fun h => absurd h.2 (by simp [call])⟩
      · rename_i hstate
        exact ⟨by simp, fun h => absurd h.2 (by simpa using hstate)⟩
  · exact (Aside.refl c).follows

theorem synRetries_onRst (c : KcpControl) : c.onRst.synRetries = c.synRetries := by
  unfold onRst
  split <;> simp [call]

theorem follows_parsePacket (xxh32 : Nat → Nat) (hc : ClientInv c)
    (packet : ControlPacket) (host now : Nat) (answer : SendAnswer) :
    Follows c (c.parsePacket xxh32 packet host now answer) := by
  have hdrop : ∀ d : KcpControl, Aside d (if d.state = .DISCONNECTED then d.destroy else d) := by
    intro d
    split
    · exact aside_destroy d
    · exact Aside.refl d
  have hhost : Aside c (c.fromCandidate host) := by
    unfold fromCandidate
    split
    · exact {
        client := rfl
        candidates := rfl
        retries := rfl
        connects := rfl
        timer := .inl rfl
        sent := fun h => ⟨h, id, fun h0 => ⟨h0, rfl⟩⟩
        received := id }
    · exact Aside.refl c
  unfold parsePacket
  split
  · exact (Aside.refl c).follows
  · split
    · split
      · exact follows_onSynReceived c _ _ _ _ _
      · exact (Aside.refl c).follows
    · dsimp only
      unfold readEvent
      dsimp only
      split
      · exact (hhost.trans (hdrop _)).follows
      · split
        · rw [if_pos (onRst_state _)]
          exact {
            retries := (synRetries_onRst _).trans hhost.retries
            kept := fun h => absurd h.1 (by simp [destroy]) }
        · have hpacket := aside_onPacket xxh32 (c.fromCandidate host) packet.body now answer
            (hc.aside hhost).accepts
          exact (hhost.trans (hpacket.trans (hdrop _))).follows

/-- `kcp_ioctl` counts the retries anew. -/
def ResetsSyn : ControlOp → Prop
  | .synRetries _ => True
  | _ => False

theorem follows_step (xxh32 : Nat → Nat) (hc : ClientInv c)
    (hfires : ¬ c.SynFires op) (hresets : ¬ ResetsSyn op) : Follows c (c.step xxh32 op) := by
  unfold step
  split
  · rename_i h0
    cases op with
    | packet packet host now answer => exact follows_parsePacket xxh32 hc packet host now answer
    | synTimeout now answers answer =>
      rw [stepAlive, if_neg fun htimer => hfires ⟨h0, htimer⟩]
      exact (Aside.refl c).follows
    | finTimeout now answer =>
      show Follows c (if _ then _ else _)
      split
      · rename_i htimer
        have hsent : c.state ≠ .SYN_SENT := by
          intro hstate
          rw [(hc.quiet hstate).2] at htimer
          exact absurd htimer (by decide)
        exact (aside_finTimeout xxh32 c now answer hsent hc.accepts).follows
      · exact (Aside.refl c).follows
    | writable now answers answer =>
      show Follows c (if _ then _ else _)
      split
      · rename_i hqueued
        have hsent : c.state ≠ .SYN_SENT := by
          intro hstate
          rw [(hc.quiet hstate).1] at hqueued
          exact absurd hqueued (by decide)
        exact (aside_writeEvent c now answers answer hsent hc.accepts).follows
      · exact (Aside.refl c).follows
    | close now answer => exact (aside_close xxh32 c now answer).follows
    | shutdown answer => exact (aside_shutdown c answer).follows
    | giveUp code =>
      show Follows c (if _ then _ else _)
      split
      · exact (aside_giveUp c code).follows
      · exact (Aside.refl c).follows
    | synRetries value => exact absurd trivial hresets
    | finRetries value => exact ⟨rfl, fun h => ⟨h, rfl⟩⟩
  · exact (Aside.refl c).follows

-- ==== the SYN timer fires

theorem step_fires (xxh32 : Nat → Nat) {now : Nat} {answers : Nat → Int × Int}
    {answer : SendAnswer} (h : c.SynFires (.synTimeout now answers answer)) :
    c.step xxh32 (.synTimeout now answers answer) =
      { c with synTimer := .idle }.connectTimeout xxh32 now answers answer := by
  rw [step, if_pos h.1, stepAlive, if_pos h.2]

/-- How often the timer can run out before the retries are spent. -/
def synTries (c : KcpControl) : Nat := (c.synRetries % 2 ^ 32).toNat

theorem synTries_pred {n : Int} (hrange : n = i32 n) (h : n ≠ 0) :
    (i32 (n - 1) % 2 ^ 32).toNat < (n % 2 ^ 32).toNat := by
  have hn : n % 2 ^ 32 ≠ 0 := by
    intro h0
    apply h
    rw [hrange, i32, Int.bmod_def]
    omega
  have hmod : i32 (n - 1) % 2 ^ 32 = (n - 1) % 2 ^ 32 := Int.bmod_emod
  rw [hmod]
  omega

/-- `on_connected(TIMED_OUT)` has been called, and it was the only call. -/
def TimedOut (c : KcpControl) : Prop := c.destroyed ≠ 0 ∧ c.connects = [TIMED_OUT]

theorem synTries_fires (xxh32 : Nat → Nat) (hc : ClientInv c)
    (hfires : c.SynFires op) :
    TimedOut (c.step xxh32 op) ∨ (c.step xxh32 op).synTries < c.synTries := by
  cases op with
  | synTimeout now answers answer =>
    rw [step_fires xxh32 hfires]
    by_cases h : c.synRetries = 0
    · left
      rw [connectTimeout_spent xxh32 (c := { c with synTimer := .idle }) now answers answer h]
      refine ⟨by simp [destroy], ?_⟩
      show (KcpControl.call _ _).connects = _
      rw [connects_call]
      show c.connects ++ _ = _
      rw [hc.waits (by rw [hfires.2]; decide)]
      rfl
    · right
      have hleft := connectTimeout_left xxh32 (c := { c with synTimer := .idle }) now answers
        answer h
      obtain ⟨-, -, -, -, -, -, -, hretries, -⟩ := hleft
      unfold synTries
      rw [hretries]
      exact synTries_pred hc.range h
  | _ => exact absurd hfires id

-- ==== results

/-- An outcome is pending, as long as the SYN is out. -/
def Pending (c : KcpControl) : Prop :=
  c.Connecting → c.synTimer = .pending ∨ c.queued = true

instance (c : KcpControl) : Decidable c.Pending := inferInstanceAs (Decidable (_ → _ ∨ _))

/-- What `kcp_connect` promises of a run. -/
structure OutcomePending (xxh32 : Nat → Nat) (c : KcpControl) (ops : List ControlOp) : Prop where
  /-- in every state the SYN timer is armed, or the connection is in the write queue -/
  pending : ∀ xs ys, ops = xs ++ ys → Pending (Lib.run (step xxh32) c xs)
  /-- a SYN sent again is no error, and the timer is on afterwards -/
  resent : ∀ xs ys now answers answer, ops = xs ++ .synTimeout now answers answer :: ys →
    let d := Lib.run (step xxh32) c xs
    let e := d.step xxh32 (.synTimeout now answers answer)
    d.Connecting → d.synTimer = .pending → d.synRetries ≠ 0 →
      (trySyns d.candidates answers).1 = true → e.errors = d.errors ∧ e.synTimer = .pending
  /-- when the timer has run out often enough, `on_connected` has been called
  exactly once -/
  settled : ∀ xs ys, ops = xs ++ ys → (Lib.run (step xxh32) c xs).Connecting →
    (∀ op ∈ ys, ¬ ResetsSyn op) →
    let d := Lib.run (step xxh32) c xs
    d.synTries < Lib.countSteps (step xxh32) SynFires d ys →
      (Lib.run (step xxh32) c ops).connects = [NO_ERROR] ∨
        (Lib.run (step xxh32) c ops).connects = [TIMED_OUT]
  /-- it is never called twice -/
  once : (Lib.run (step xxh32) c ops).connects.length ≤ 1

/-- While the SYN is out its timer runs out only with the retries spent. -/
def RetriesSpent (c : KcpControl) (op : ControlOp) : Prop :=
  c.Connecting → c.SynFires op → c.synRetries = 0

instance (c : KcpControl) (op : ControlOp) : Decidable (c.RetriesSpent op) :=
  inferInstanceAs (Decidable (_ → _ → _))

/-- A step that leaves the SYN out leaves its timer armed, if the retries are
spent whenever it runs out. -/
theorem armed_step (xxh32 : Nat → Nat) (hc : ClientInv c)
    (hspent : RetriesSpent c op) (harmed : c.Connecting → c.synTimer = .pending) :
    (c.step xxh32 op).Connecting → (c.step xxh32 op).synTimer = .pending := by
  intro hd
  by_cases hfires : c.SynFires op
  · exfalso
    cases op with
    | synTimeout now answers answer =>
      rw [step_fires xxh32 hfires] at hd
      by_cases h : c.synRetries = 0
      · rw [connectTimeout_spent xxh32 (c := { c with synTimer := .idle }) now answers answer h]
          at hd
        exact absurd hd.1 (by simp [destroy])
      · have hleft := connectTimeout_left xxh32 (c := { c with synTimer := .idle }) now answers
          answer h
        obtain ⟨-, -, hstate, -⟩ := hleft
        exact h (hspent ⟨hfires.1, hstate.symm.trans hd.2⟩ hfires)
    | _ => exact hfires
  · by_cases hresets : ResetsSyn op
    · cases op with
      | synRetries value =>
        have hset : ∀ n : Int, ({ c with synRetries := n } : KcpControl).Connecting →
            ({ c with synRetries := n } : KcpControl).synTimer = .pending := fun _ h => harmed h
        unfold step at hd ⊢
        split at hd
        · rename_i h0
          rw [if_pos h0]
          exact hset _ hd
        · rename_i h0
          rw [if_neg h0]
          exact harmed hd
      | _ => exact hresets.elim
    · obtain ⟨hconn, htimer⟩ := (follows_step xxh32 hc hfires hresets).kept hd
      exact htimer.trans (harmed hconn)

theorem armed_run {ops : List ControlOp} (hc : ClientInv c)
    (harmed : c.Connecting → c.synTimer = .pending)
    (hok : Lib.Meets (step xxh32) RetriesSpent c ops) :
    (Lib.run (step xxh32) c ops).Connecting →
      (Lib.run (step xxh32) c ops).synTimer = .pending := by
  have h : ClientInv (Lib.run (step xxh32) c ops) ∧ ((Lib.run (step xxh32) c ops).Connecting →
      (Lib.run (step xxh32) c ops).synTimer = .pending) :=
    Lib.run_inv (P := fun c => ClientInv c ∧ (c.Connecting → c.synTimer = .pending))
      (fun c op h hspent => ⟨h.1.step xxh32 op, armed_step xxh32 h.1 hspent h.2⟩) ⟨hc, harmed⟩ hok
  exact h.2

theorem clientInv_run (hc : ClientInv c)
    (ops : List ControlOp) : ClientInv (Lib.run (step xxh32) c ops) :=
  Lib.run_inv_of_step (fun _ op h => h.step xxh32 op) ops hc

/-- The timer runs out at most as often as there are tries, or the attempt has
timed out. -/
theorem timedOut_or_countSteps_le (hc : ClientInv c)
    {ops : List ControlOp} (hops : ∀ op ∈ ops, ¬ ResetsSyn op) :
    TimedOut (Lib.run (step xxh32) c ops) ∨
      Lib.countSteps (step xxh32) SynFires c ops ≤ c.synTries := by
  have hresets : Lib.Meets (step xxh32) (fun _ op => ¬ ResetsSyn op) c ops :=
    Lib.meets_of_forall (fun op h _ => hops op h) c
  have hmeets := hresets.and_inv (P := ClientInv) (fun _ op h _ => h.step xxh32 op) hc
  refine Lib.countSteps_le_rank synTries ?_ ?_ ?_ hmeets
  · intro c op hok hfires
    exact synTries_fires xxh32 hok.1 hfires
  · intro c op hok hfires
    right
    unfold synTries
    rw [(follows_step xxh32 hok.1 hfires hok.2).retries]
  · intro c op hdone _
    rw [step, if_neg hdone.1]
    exact hdone

-- ==== kcp_connect

theorem clientInv_connectCandidates {onClosed : Bool} {candidates : List Nat}
    {timeoutMs now : Nat} {scid : Except Int Nat} {answers : Nat → Int × Int}
    (h : connectCandidates xxh32 onClosed candidates timeoutMs scid now answers = .ok c) :
    ClientInv c ∧ c.synTimer = .pending := by
  unfold connectCandidates at h
  split at h
  · cases h
  · split at h
    · cases h
    · split at h
      · cases h
      · dsimp only at h
        split at h
        · cases h
        · cases h
          exact ⟨{
            client := rfl
            accepts := by simp
            candidates := by simp
            quiet := fun _ => ⟨rfl, rfl⟩
            timed := fun _ => by simp
            waits := fun _ => rfl
            once := by simp [connects]
            range := rfl }, rfl⟩

/-- `kcp_connect` keeps an outcome pending exactly in the runs where the SYN
timer never runs out with retries left: a SYN it sends again is told as a
write error, and the timer stays off. -/
theorem outcomePending_iff {xxh32 : Nat → Nat} {onClosed : Bool} {candidates : List Nat}
    {timeoutMs now : Nat} {scid : Except Int Nat} {answers : Nat → Int × Int} {c : KcpControl}
    (h : connectCandidates xxh32 onClosed candidates timeoutMs scid now answers = .ok c)
    (ops : List ControlOp) :
    Lib.Meets (step xxh32) RetriesSpent c ops ↔ OutcomePending xxh32 c ops := by
  obtain ⟨hc, htimer⟩ := clientInv_connectCandidates h
  constructor
  · intro hok
    exact {
      pending := by
        intro xs ys heq hconn
        subst heq
        exact .inl (armed_run hc (fun _ => htimer) ((Lib.meets_append c xs ys).mp hok).1 hconn)
      resent := by
        intro xs ys now answers answer heq d e hconn hfires hretries _
        subst heq
        have hspent := ((Lib.meets_append c xs _).mp hok).2.1
        exact absurd (hspent hconn ⟨hconn.1, hfires⟩) hretries
      settled := by
        intro xs ys heq _ hresets d hlt
        subst heq
        have hrun : TimedOut (Lib.run (step xxh32) d ys) ∨
            Lib.countSteps (step xxh32) SynFires d ys ≤ d.synTries :=
          timedOut_or_countSteps_le (clientInv_run hc xs) hresets
        refine hrun.elim (fun hdone => .inr ?_) fun hle => absurd hlt (Nat.not_lt.mpr hle)
        rw [Lib.run_append]
        exact hdone.2
      once := (clientInv_run hc ops).once }
  · intro hpending
    refine Lib.meets_of_prefix fun xs op ys heq hconn hfires => ?_
    by_contra hretries
    cases op with
    | synTimeout now answers answer =>
      -- the state after the step has its SYN out and its timer off
      have hinv : ClientInv (Lib.run (step xxh32) c xs) := clientInv_run hc xs
      have hafter := hpending.pending (xs ++ [.synTimeout now answers answer]) ys
        (by rw [heq, List.append_assoc]; rfl)
      rw [Lib.run_append] at hafter
      simp only [Lib.run_cons, Lib.run_nil] at hafter
      rw [step_fires xxh32 hfires] at hafter
      generalize hd : ({ Lib.run (step xxh32) c xs with synTimer := .idle } : KcpControl) = d
        at hafter
      have hleft := connectTimeout_left xxh32 (c := d) now answers answer
        (by rw [← hd]; exact hretries)
      obtain ⟨-, -, hstate, hdestroyed, -, hqueued, -⟩ := hleft
      have hidle := synTimer_connectTimeout xxh32 (c := d) now answers answer
        (by rw [← hd]; exact hretries) (by rw [← hd]; exact hinv.candidates)
        (by rw [← hd]; exact hconn.2)
      have hsent : (connectTimeout xxh32 d now answers answer).Connecting :=
        ⟨hdestroyed.trans (by rw [← hd]; exact hconn.1),
          hstate.trans (by rw [← hd]; exact hconn.2)⟩
      rcases hafter hsent with hpend | hq
      · rw [hidle, ← hd] at hpend
        exact absurd hpend (by simp)
      · rw [hqueued, ← hd] at hq
        exact absurd hq (by simp [(hinv.quiet hconn.2).1])
    | _ => exact hfires

/-- The server's SYN comes before the first timeout. -/
theorem outcomePending_iff_replied :
    ∃ c, connectCandidates id true [7, 8] 1000 (.ok 3) 40 (fun _ => (1, 1)) = .ok c ∧
      OutcomePending id c
        [.packet (ControlPacket.mk 5 3 (.syn 40 60)) 7 50 (SendAnswer.mk 1 false)] := by
  have h : connectCandidates id true [7, 8] 1000 (.ok 3) 40 (fun _ => (1, 1)) = .ok _ := rfl
  exact ⟨_, h, (outcomePending_iff h _).mp (by decide)⟩

/-- The SYN is lost, the timer runs out once, and the SYN sent then is taken
by the socket: nothing is pending any more. -/
theorem not_outcomePending_retransmitted :
    ∃ c, connectCandidates id true [7] 1000 (.ok 3) 40 (fun _ => (1, 1)) = .ok c ∧
      ¬ OutcomePending id c [.synTimeout 1040 (fun _ => (1, 1)) (SendAnswer.mk 1 false)] :=
  ⟨_, rfl, fun h => absurd (h.pending [.synTimeout 1040 (fun _ => (1, 1)) (SendAnswer.mk 1 false)]
    [] rfl) (by decide)⟩

end KcpControl

end Eular.Kcp
