/-
The probes of a closed window.

The wait between two probes is to grow by half each time. It starts at 1,
and half of 1 is nothing: it stays at 1 as long as the window is closed
(`probeWait_le_one`), so from the second on every flush sends a probe. The
assignment that was to start the wait at `KCP_PROBE_INIT` sets the deadline
instead, and is overwritten.
-/
import Eular.Kcp.Endpoint

namespace Eular.Kcp

open Lib

namespace KcpConnection

-- ==== the probe's part

/-- What the probe's timer works on. -/
def probing (c : KcpConnection) : Nat × Nat × Int := (c.winTsProbe, c.probeWait, c.snd.rmtWnd)

/-- A flush at `now` takes place. -/
def Due (c : KcpConnection) (now : Nat) : Prop := c.state = .CONNECTED ∧ c.tsFlush ≤ now / 1000

variable {c : KcpConnection} {now : Nat} {malloc : Malloc} {xxh64 : Nat → Nat}

theorem probing_fillWindow (queue : List KcpSegment) :
    (fillWindow now c queue).probing = c.probing := by
  induction queue generalizing c with
  | nil => rfl
  | cons segment rest ih =>
    rw [fillWindow]
    split
    · rw [ih]
      rfl
    · rfl

theorem probing_flushPings {h : HeaderBuffer} :
    (flushPings xxh64 c now h).1.probing = c.probing := by
  unfold flushPings
  dsimp only
  split
  · split <;> rfl
  · split <;> rfl

theorem probing_flushHeaders (wire : Wire) :
    (flushHeaders xxh64 c now wire).2.1.probing = (c.windowProbe now).probing := by
  unfold flushHeaders
  dsimp only
  split
  · rfl
  · show (flushPings xxh64 _ now _).1.probing = _
    rw [probing_flushPings]
    rfl

theorem probing_flushSegments (wire : Wire) :
    (c.flushSegments now wire).conn.probing = c.probing := by
  unfold flushSegments
  dsimp only
  split
  · exact probing_fillWindow _
  · exact probing_fillWindow _
  · exact probing_fillWindow _

theorem probing_flush (hdue : c.Due now) (outcomes : List SendOutcome) :
    (c.flush xxh64 now outcomes).conn.probing = (c.windowProbe now).probing := by
  rw [flush, if_neg (by simpa [Due] using hdue)]
  dsimp only
  split
  · exact probing_flushHeaders _
  · rw [probing_flushSegments]
    exact probing_flushHeaders _

theorem flush_of_not_due (hdue : ¬ c.Due now) (outcomes : List SendOutcome) :
    (c.flush xxh64 now outcomes).conn = c := by
  rw [flush, if_pos (by simpa [Due, or_iff_not_imp_left] using hdue)]

theorem rmtWnd_flush (outcomes : List SendOutcome) :
    (c.flush xxh64 now outcomes).conn.snd.rmtWnd = c.snd.rmtWnd := by
  by_cases hdue : c.Due now
  · refine (congrArg (fun q => q.2.2) (probing_flush hdue outcomes)).trans ?_
    show (c.windowProbe now).snd.rmtWnd = c.snd.rmtWnd
    unfold windowProbe
    split
    · split
      · rfl
      · split <;> rfl
    · rfl
  · rw [flush_of_not_due hdue]

theorem input_timer (packet : KcpPacket) :
    (c.input packet now malloc).1.winTsProbe = c.winTsProbe
      ∧ (c.input packet now malloc).1.probeWait = c.probeWait := by
  cases packet with
  | ack header =>
    show ((c.setRmtWnd header.wnd).onAck header now).winTsProbe = _
      ∧ ((c.setRmtWnd header.wnd).onAck header now).probeWait = _
    unfold onAck
    split <;> exact ⟨rfl, rfl⟩
  | push p =>
    show ((if 0 < p.frg then c.setRmtWnd p.wnd else c).onPush p now malloc).1.winTsProbe = _
      ∧ ((if 0 < p.frg then c.setRmtWnd p.wnd else c).onPush p now malloc).1.probeWait = _
    unfold onPush
    dsimp only
    split <;> split <;> exact ⟨rfl, rfl⟩
  | control cmd wnd packetTs ts sn =>
    unfold input
    dsimp only
    split
    · exact ⟨rfl, rfl⟩
    split
    · exact ⟨rfl, rfl⟩
    split
    · exact ⟨rfl, rfl⟩
    split <;> exact ⟨rfl, rfl⟩

variable (c xxh64) in
theorem step_timer (op : EndpointOp) :
    ((c.step xxh64 op).winTsProbe = c.winTsProbe ∧ (c.step xxh64 op).probeWait = c.probeWait)
      ∨ ∃ now outcomes, op = .flush now outcomes ∧ c.Due now
        ∧ (c.step xxh64 op).probing = (c.windowProbe now).probing := by
  cases op with
  | send data malloc =>
    left
    unfold step send
    dsimp only
    split
    case h_1 hsend =>
      split at hsend <;> cases hsend
      exact ⟨rfl, rfl⟩
    case h_2 hsend =>
      split at hsend <;> cases hsend
      exact ⟨rfl, rfl⟩
  | recv size =>
    left
    unfold step
    dsimp only
    split
    case h_1 q hrecv =>
      unfold recv at hrecv
      split at hrecv
      · cases hrecv
        exact ⟨rfl, rfl⟩
      · cases hrecv
    case h_2 => exact ⟨rfl, rfl⟩
  | packet packet now malloc =>
    left
    unfold step
    dsimp only
    split
    · exact input_timer packet
    · exact ⟨rfl, rfl⟩
  | flush now outcomes =>
    by_cases hdue : c.Due now
    · exact .inr ⟨now, outcomes, rfl, hdue, probing_flush hdue outcomes⟩
    · left
      show (c.flush xxh64 now outcomes).conn.winTsProbe = _
        ∧ (c.flush xxh64 now outcomes).conn.probeWait = _
      rw [flush_of_not_due hdue]
      exact ⟨rfl, rfl⟩
  | windowSize value => exact .inl ⟨rfl, rfl⟩

-- ==== the wait

theorem windowProbe_wait (hwait : c.probeWait ≤ 1) : (c.windowProbe now).probeWait ≤ 1 := by
  unfold windowProbe
  split
  · split
    · exact le_rfl
    split
    · have hhalf : u32 (c.probeWait + c.probeWait / 2) ≤ 1 := by
        unfold u32
        omega
      exact (Nat.min_le_left _ _).trans hhalf
    · exact hwait
  · exact Nat.zero_le 1

theorem step_wait (op : EndpointOp) (hwait : c.probeWait ≤ 1) :
    (c.step xxh64 op).probeWait ≤ 1 := by
  obtain ⟨-, hsame⟩ | ⟨now, outcomes, -, -, hflush⟩ := step_timer c xxh64 op
  · rwa [hsame]
  · have hprobe : (c.step xxh64 op).probeWait = (c.windowProbe now).probeWait :=
      congrArg (fun q => q.2.1) hflush
    rw [hprobe]
    exact windowProbe_wait hwait

theorem probeWait_le_one (xxh64 : Nat → Nat) (mtu : Nat) (fastlimit : Int) (start : Nat)
    (ops : Nat → EndpointOp) (n : Nat) :
    (after (step xxh64) (connected mtu fastlimit start) ops n).probeWait ≤ 1 := by
  induction n with
  | zero => exact Nat.zero_le 1
  | succ n ih => exact step_wait (ops n) ih

theorem flush_open (hdue : c.Due now) (hopen : c.snd.rmtWnd ≠ 0) (outcomes : List SendOutcome) :
    (c.flush xxh64 now outcomes).conn.winTsProbe = 0
      ∧ (c.flush xxh64 now outcomes).conn.probeWait = 0 := by
  have hprobe : c.windowProbe now = { c with winTsProbe := 0, probeWait := 0 } := if_neg hopen
  have hflush : (c.flush xxh64 now outcomes).conn.probing = (c.windowProbe now).probing :=
    probing_flush hdue outcomes
  rw [hprobe] at hflush
  exact ⟨congrArg (fun q => q.1) hflush, congrArg (fun q => q.2.1) hflush⟩

-- ==== backing off

/-- A flush offers the socket a WASK. -/
def Asks (xxh64 : Nat → Nat) (c : KcpConnection) (op : EndpointOp) (now : Nat) : Prop :=
  ∃ outcomes, op = .flush now outcomes
    ∧ ∃ d ∈ (c.flush xxh64 now outcomes).wire.offered, ∃ wnd packetTs ts sn,
      KcpPacket.control KCP_CMD_WASK wnd packetTs ts sn ∈ d

/-- What probing is to be from the step `from_` on: it goes on, its probes are apart, and the
wait between them grows up to its limit. -/
structure BacksOff (xxh64 : Nat → Nat) (c : KcpConnection) (ops : Nat → EndpointOp)
    (from_ : Nat) : Prop where
  keeps : ∀ n ≥ from_, ∃ m ≥ n, ∃ now, Asks xxh64 (after (step xxh64) c ops m) (ops m) now
  apart : ∀ i j now now', from_ ≤ i → i < j → Asks xxh64 (after (step xxh64) c ops i) (ops i) now →
    Asks xxh64 (after (step xxh64) c ops j) (ops j) now' → now + KCP_PROBE_INIT ≤ now'
  grows : ∀ i j, from_ ≤ i → i ≤ j →
    (after (step xxh64) c ops i).probeWait ≤ (after (step xxh64) c ops j).probeWait
  limit : ∃ n ≥ from_, (after (step xxh64) c ops n).probeWait = KCP_PROBE_LIMIT

theorem not_backsOff {ops : Nat → EndpointOp} (from_ : Nat)
    (hwait : ∀ n, (after (step xxh64) c ops n).probeWait ≤ 1) : ¬ BacksOff xxh64 c ops from_ := by
  intro hback
  obtain ⟨n, -, hlimit⟩ := hback.limit
  have hle := hwait n
  rw [hlimit] at hle
  exact absurd hle (by decide)

/-- No run of a connection, from no step on, backs off; an open window does end the probing,
at the next flush. -/
theorem window_probe (xxh64 : Nat → Nat) (mtu : Nat) (fastlimit : Int) (start : Nat)
    (ops : Nat → EndpointOp) (from_ : Nat) :
    ¬ BacksOff xxh64 (connected mtu fastlimit start) ops from_
      ∧ ∀ n now outcomes, ops n = .flush now outcomes →
        (after (step xxh64) (connected mtu fastlimit start) ops n).Due now →
        (after (step xxh64) (connected mtu fastlimit start) ops n).snd.rmtWnd ≠ 0 →
        (after (step xxh64) (connected mtu fastlimit start) ops (n + 1)).winTsProbe = 0
          ∧ (after (step xxh64) (connected mtu fastlimit start) ops (n + 1)).probeWait = 0 := by
  refine ⟨not_backsOff from_ (probeWait_le_one xxh64 mtu fastlimit start ops), ?_⟩
  intro n now outcomes hop hdue hopen
  rw [after_succ, hop]
  exact flush_open hdue hopen outcomes

/-- The peer closes its window and leaves it closed; a flush every 100 ms. -/
def closedWindow : Nat → EndpointOp
  | 0 => .packet (.control KCP_CMD_WINS 0 0 0 0) 0
  | n + 1 => .flush (100000 * (n + 1)) []

theorem rmtWnd_closedWindow (n : Nat) :
    (after (step id) (connected 1400 0 0) closedWindow (n + 1)).snd.rmtWnd = 0 := by
  induction n with
  | zero => rfl
  | succ n ih => exact (rmtWnd_flush _).trans ih

/-- With the window closed for good the wait is never the longest one. -/
theorem closedWindow_not_backsOff :
    (∀ n ≥ 1, (after (step id) (connected 1400 0 0) closedWindow n).snd.rmtWnd = 0)
      ∧ ¬ BacksOff id (connected 1400 0 0) closedWindow 1 := by
  refine ⟨fun n hn => ?_, not_backsOff 1 (probeWait_le_one id 1400 0 0 closedWindow)⟩
  obtain ⟨n, rfl⟩ := Nat.exists_eq_add_one_of_ne_zero (Nat.ne_of_gt hn)
  exact rmtWnd_closedWindow n

end KcpConnection

end Eular.Kcp
