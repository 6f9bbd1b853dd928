/-
What a flush and an ACK do to the sending half.

A flush numbers the first `moved` segments of `snd_queue` and puts them
behind `snd_buf`; what it sends after that changes the clocks of a segment
and not what it carries (`core`). An ACK takes the segment it names and
those below its `una` out of `snd_buf`.
-/
import Eular.Kcp.Endpoint

namespace Eular.Kcp

namespace KcpSegment

/-- What a segment carries, and not when it is sent. -/
def core (s : KcpSegment) := (s.frg, s.wnd, s.sn, s.psn, s.data)

theorem map_sn_of_core {l l' : List KcpSegment} (h : l.map core = l'.map core) :
    l.map (·.sn) = l'.map (·.sn) := by
  have hsn : (fun s : KcpSegment => s.sn) = (fun q => q.2.2.1) ∘ core := rfl
  rw [hsn, ← List.map_map, ← List.map_map, h]

end KcpSegment

namespace KcpConnection

variable {c : KcpConnection} {now : Nat}

-- ==== the segments sent

theorem core_choose (credit : Nat) (pos : KcpSegment) :
    (c.choose now credit pos).pos.core = pos.core := by
  unfold choose
  dsimp only
  split
  · split <;> rfl
  · split
    · rfl
    · generalize (if 0 < c.fastresend then u32OfInt c.fastresend else 2 ^ 32 - 1) = resent
      split <;> rfl

theorem core_transmit (segments : List KcpSegment) (p : Packing) :
    (c.transmit now p segments).2.map KcpSegment.core = segments.map KcpSegment.core := by
  induction segments generalizing p with
  | nil => rfl
  | cons pos rest ih =>
    rw [transmit]
    dsimp only
    split
    · rw [List.map_cons, core_choose, List.map_cons]
    · split
      · split
        · rw [List.map_cons, core_choose, List.map_cons]
        · rw [List.map_cons, core_choose, ih, List.map_cons]
      · rw [List.map_cons, core_choose, ih, List.map_cons]

-- ==== window

/-- How many of the segments that wait the window has room for. -/
def moved (c : KcpConnection) (queue : List KcpSegment) : Nat :=
  min queue.length (c.snd.sndUna + c.sendWindow - c.snd.sndNxt : Int).toNat

/-- The segments as they enter `snd_buf`, numbered from `nxt` on. -/
def numberFrom (now : Nat) (c : KcpConnection) : Nat → List KcpSegment → List KcpSegment
  | _, [] => []
  | nxt, segment :: rest =>
    { c.numberSegment now segment with sn := nxt } :: numberFrom now c (nxt + 1) rest

@[simp] theorem length_numberFrom (nxt : Nat) (segments : List KcpSegment) :
    (numberFrom now c nxt segments).length = segments.length := by
  induction segments generalizing nxt with
  | nil => rfl
  | cons segment rest ih => rw [numberFrom, List.length_cons, ih, List.length_cons]

theorem map_sn_numberFrom (nxt : Nat) (segments : List KcpSegment) :
    (numberFrom now c nxt segments).map (·.sn) = List.range' nxt segments.length := by
  induction segments generalizing nxt with
  | nil => rfl
  | cons segment rest ih => rw [numberFrom, List.map_cons, ih, List.length_cons, List.range'_succ]

/-- The numbering looks at what a flush does not change while it fills the
window. -/
theorem numberFrom_congr (c c' : KcpConnection) (hrcv : c'.rcv.wndUnused = c.rcv.wndUnused)
    (hnxt : c'.rcv.rcvNxt = c.rcv.rcvNxt) (hrto : c'.snd.rxRto = c.snd.rxRto)
    (hbbr : c'.bbr = c.bbr) (nxt : Nat) (segments : List KcpSegment) :
    numberFrom now c' nxt segments = numberFrom now c nxt segments := by
  induction segments generalizing nxt with
  | nil => rfl
  | cons segment rest ih =>
    rw [numberFrom, numberFrom, ih]
    simp only [numberSegment, hrcv, hnxt, hrto, hbbr]

@[simp] theorem moved_nil : c.moved [] = 0 := by
  unfold moved
  rw [List.length_nil, Nat.zero_min]

theorem moved_le (queue : List KcpSegment) : c.moved queue ≤ queue.length := Nat.min_le_left _ _

/-- The connection once the first of the waiting segments is numbered. -/
def numberOne (c : KcpConnection) (now : Nat) (segment : KcpSegment) : KcpConnection :=
  { c with snd := { c.snd with
      sndBuf := c.snd.sndBuf ++ [c.numberSegment now segment]
      sndNxt := u32 (c.snd.sndNxt + 1)
      nsndQue := i32 (c.snd.nsndQue - 1)
      nsndBuf := i32 (c.snd.nsndBuf + 1) } }

theorem fillWindow_cons (segment : KcpSegment) (rest : List KcpSegment) :
    fillWindow now c (segment :: rest)
      = if (c.snd.sndNxt : Int) - (c.snd.sndUna + c.sendWindow) < 0 then
          fillWindow now (c.numberOne now segment) rest
        else { c with snd := { c.snd with sndQueue := segment :: rest } } := rfl

/-- As long as the window has room and the numbers last, one goes after the
other. -/
theorem moved_cons (now : Nat) (segment : KcpSegment) (rest : List KcpSegment)
    (hroom : (c.snd.sndNxt : Int) - (c.snd.sndUna + c.sendWindow) < 0)
    (hlast : c.snd.sndNxt + 1 < 2 ^ 32) :
    c.moved (segment :: rest) = (c.numberOne now segment).moved rest + 1 := by
  have hnxt : u32 (c.snd.sndNxt + 1) = c.snd.sndNxt + 1 := u32_of_lt hlast
  have hwindow : (c.numberOne now segment).sendWindow = c.sendWindow := rfl
  unfold moved
  rw [hwindow]
  show _ = min rest.length
    (c.snd.sndUna + c.sendWindow - (u32 (c.snd.sndNxt + 1) : Nat) : Int).toNat + 1
  rw [hnxt, List.length_cons]
  omega

theorem moved_cons_full (segment : KcpSegment) (rest : List KcpSegment)
    (hfull : ¬ (c.snd.sndNxt : Int) - (c.snd.sndUna + c.sendWindow) < 0) :
    c.moved (segment :: rest) = 0 := by
  unfold moved
  omega

theorem fillWindow_eq (queue : List KcpSegment) (c : KcpConnection)
    (hfits : c.snd.sndNxt + c.moved queue < 2 ^ 32)
    (hque : i32 c.snd.nsndQue = c.snd.nsndQue) (hbuf : i32 c.snd.nsndBuf = c.snd.nsndBuf) :
    fillWindow now c queue = { c with snd := { c.snd with
      sndQueue := queue.drop (c.moved queue)
      sndBuf := c.snd.sndBuf ++ numberFrom now c c.snd.sndNxt (queue.take (c.moved queue))
      sndNxt := c.snd.sndNxt + c.moved queue
      nsndQue := i32 (c.snd.nsndQue - c.moved queue)
      nsndBuf := i32 (c.snd.nsndBuf + c.moved queue) } } := by
  induction queue generalizing c with
  | nil =>
    rw [fillWindow, moved_nil]
    simp [hque, hbuf, numberFrom]
  | cons segment rest ih =>
    rw [fillWindow_cons]
    by_cases hroom : (c.snd.sndNxt : Int) - (c.snd.sndUna + c.sendWindow) < 0
    · have hone : 1 ≤ c.moved (segment :: rest) := by
        unfold moved
        rw [List.length_cons]
        omega
      have hmoved := moved_cons now segment rest hroom (by omega)
      have hnxt : (c.numberOne now segment).snd.sndNxt = c.snd.sndNxt + 1 := u32_of_lt (by omega)
      rw [if_pos hroom, ih (c.numberOne now segment) (by omega) (i32_i32 _) (i32_i32 _)]
      rw [hnxt, hmoved, List.take_succ_cons, List.drop_succ_cons, numberFrom]
      generalize (c.numberOne now segment).moved rest = n
      have hsame : numberFrom now (c.numberOne now segment) (c.snd.sndNxt + 1) (rest.take n)
          = numberFrom now c (c.snd.sndNxt + 1) (rest.take n) :=
        numberFrom_congr c (c.numberOne now segment) rfl rfl rfl rfl _ _
      have hlast : c.snd.sndNxt + 1 + n = c.snd.sndNxt + (n + 1) := by omega
      have hleave : i32 (i32 (c.snd.nsndQue - 1) - n) = i32 (c.snd.nsndQue - (n + 1 : Nat)) := by
        rw [i32_sub_i32]
        exact congrArg i32 (by omega)
      have henter : i32 (i32 (c.snd.nsndBuf + 1) + n) = i32 (c.snd.nsndBuf + (n + 1 : Nat)) := by
        rw [i32_add_i32]
        exact congrArg i32 (by omega)
      rw [hsame, hlast]
      show { c with snd := { c.snd with
        sndQueue := _
        sndBuf := c.snd.sndBuf ++ [c.numberSegment now segment] ++ _
        sndNxt := _
        nsndQue := i32 (i32 (c.snd.nsndQue - 1) - n)
        nsndBuf := i32 (i32 (c.snd.nsndBuf + 1) + n) } } = _
      rw [hleave, henter, List.append_assoc]
      rfl
    · rw [if_neg hroom, moved_cons_full segment rest hroom]
      simp [hque, hbuf, numberFrom]

-- ==== flush

/-- What decides how far the window goes. -/
def sending (c : KcpConnection) := (c.snd, c.bbr, c.nocwnd)

@[simp] theorem sending_windowProbe : (c.windowProbe now).sending = c.sending := by
  unfold windowProbe sending
  split
  · split
    · rfl
    · split <;> rfl
  · rfl

theorem sending_flushPings {xxh64 : Nat → Nat} {h : HeaderBuffer} :
    (flushPings xxh64 c now h).1.sending = c.sending := by
  unfold flushPings
  dsimp only
  split
  · split <;> rfl
  · split <;> rfl

theorem sending_flushHeaders (xxh64 : Nat → Nat) (c : KcpConnection) (now : Nat) (wire : Wire) :
    (flushHeaders xxh64 c now wire).2.1.sending = c.sending := by
  unfold flushHeaders
  dsimp only
  split
  · exact sending_windowProbe
  · show (flushPings xxh64 _ now _).1.sending = _
    rw [sending_flushPings]
    exact sending_windowProbe

/-- The segments numbered go behind the others, and all of `snd_buf` is
walked. -/
theorem snd_flushSegments (c : KcpConnection) (now : Nat) (wire : Wire) :
    ∃ buf, buf.map KcpSegment.core
      = (fillWindow now c c.snd.sndQueue).snd.sndBuf.map KcpSegment.core
      ∧ (c.flushSegments now wire).conn.snd
          = { (fillWindow now c c.snd.sndQueue).snd with sndBuf := buf } := by
  unfold flushSegments
  dsimp only
  generalize fillWindow now c c.snd.sndQueue = c
  split
  · exact ⟨_, core_transmit _ _, rfl⟩
  · exact ⟨_, core_transmit _ _, rfl⟩
  · exact ⟨_, core_transmit _ _, rfl⟩

theorem ping_windowProbe : (c.windowProbe now).ping = c.ping := by
  unfold windowProbe
  split
  · split
    · rfl
    · split <;> rfl
  · rfl

theorem ranOut_flushHeaders (xxh64 : Nat → Nat) (c : KcpConnection) (now : Nat) (wire : Wire) :
    (flushHeaders xxh64 c now wire).2.2 = (c.ping.onPingTimeout now).2 := by
  unfold flushHeaders
  dsimp only
  rw [ping_windowProbe]
  split
  case isTrue hout => exact hout.symm
  case isFalse halive => exact (Bool.eq_false_iff.mpr halive).symm

/-- What a flush does to the sending half: nothing, or it fills the window
and walks `snd_buf`. -/
theorem snd_flush (xxh64 : Nat → Nat) (c : KcpConnection) (now : Nat)
    (outcomes : List SendOutcome) :
    (c.flush xxh64 now outcomes).conn.snd = c.snd
      ∨ (c.Flushes now ∧ ∃ (c' : KcpConnection) (buf : List KcpSegment), c'.sending = c.sending
          ∧ buf.map KcpSegment.core
              = (fillWindow now c' c'.snd.sndQueue).snd.sndBuf.map KcpSegment.core
          ∧ (c.flush xxh64 now outcomes).conn.snd
              = { (fillWindow now c' c'.snd.sndQueue).snd with sndBuf := buf }) := by
  have hsending := sending_flushHeaders xxh64 c now { outcomes }
  have hranOut := ranOut_flushHeaders xxh64 c now { outcomes }
  by_cases hdue : (c.state ≠ .CONNECTED || decide (now / 1000 < c.tsFlush)) = true
  · refine .inl ?_
    rw [flush, if_pos hdue]
  · rw [flush, if_neg hdue]
    dsimp only
    by_cases hout : (flushHeaders xxh64 c now { outcomes }).2.2 = true
    · refine .inl ?_
      rw [if_pos hout]
      exact congrArg (·.1) hsending
    · rw [if_neg hout]
      simp only [ne_eq, Bool.or_eq_true, decide_eq_true_eq, not_or, not_not, not_lt] at hdue
      obtain ⟨buf, hbuf, hsnd⟩ := snd_flushSegments
        (flushHeaders xxh64 c now { outcomes }).2.1 now
          (flushHeaders xxh64 c now { outcomes }).1.wire
      refine .inr ⟨⟨hdue.1, hdue.2, ?_⟩, _, buf, hsending, hbuf, hsnd⟩
      rw [← hranOut]
      exact Bool.eq_false_iff.mpr hout

end KcpConnection

-- ==== messages

/-- The sender with another free list. -/
def KcpSender.stocked (s : KcpSender) (unused : Nat) (counter : Int) : KcpSender :=
  { s with sndBufUnused := unused, nsndBufUnused := counter }

theorem stocked_iterate {f : KcpSender → KcpSender}
    (hf : ∀ s, ∃ unused counter, f s = s.stocked unused counter) (n : Nat) (s : KcpSender) :
    ∃ unused counter, f^[n] s = s.stocked unused counter := by
  induction n generalizing s with
  | zero => exact ⟨s.sndBufUnused, s.nsndBufUnused, rfl⟩
  | succ n ih =>
    obtain ⟨unused, counter, hnext⟩ := ih (f s)
    obtain ⟨_, _, hfirst⟩ := hf s
    exact ⟨unused, counter, hnext.trans (hfirst ▸ rfl)⟩

theorem stocked_segmentSendGet (s : KcpSender) :
    ∃ unused counter, s.segmentSendGet = s.stocked unused counter := by
  unfold KcpSender.segmentSendGet
  split
  · exact ⟨_, _, rfl⟩
  · exact ⟨s.sndBufUnused, s.nsndBufUnused, rfl⟩

theorem stocked_segmentSendPut (s : KcpSender) :
    ∃ unused counter, s.segmentSendPut = s.stocked unused counter := by
  unfold KcpSender.segmentSendPut
  split
  · exact ⟨_, _, rfl⟩
  · exact ⟨s.sndBufUnused, s.nsndBufUnused, rfl⟩

/-- `kcp_send` queues the whole message, or changes the free list at most. -/
theorem send_cases (c : KcpConnection) (data : List UInt8) (malloc : Malloc) :
    (c.state = .CONNECTED ∧ data ≠ [] ∧ fragmentation c.mss data.length ≤ KCP_PACKET_SIZE
      ∧ ∃ unused counter que, c.send data malloc = .ok { c with
          snd := { c.snd.stocked unused counter with
            sndQueue := c.snd.sndQueue ++ fragments c.mss c.snd.psnNxt
              (fragmentation c.mss data.length) (fragmentation c.mss data.length) 0 data
            nsndQue := que
            psnNxt := u32 (c.snd.psnNxt + 1) } })
      ∨ ∃ code unused counter,
          c.send data malloc = .error (code, { c with snd := c.snd.stocked unused counter }) := by
  unfold KcpConnection.send KcpSender.send
  by_cases hempty : data.isEmpty = true
  · rw [if_pos hempty]
    exact .inr ⟨_, c.snd.sndBufUnused, c.snd.nsndBufUnused, rfl⟩
  rw [if_neg hempty]
  by_cases hlarge : KCP_MAX_PACKET_SIZE < data.length
  · rw [if_pos hlarge]
    exact .inr ⟨_, c.snd.sndBufUnused, c.snd.nsndBufUnused, rfl⟩
  rw [if_neg hlarge]
  by_cases hstate : c.state ≠ .CONNECTED
  · rw [if_pos hstate]
    exact .inr ⟨_, c.snd.sndBufUnused, c.snd.nsndBufUnused, rfl⟩
  rw [if_neg hstate]
  dsimp only
  by_cases hmany : KCP_PACKET_SIZE < fragmentation c.mss data.length
  · rw [if_pos hmany]
    exact .inr ⟨_, c.snd.sndBufUnused, c.snd.nsndBufUnused, rfl⟩
  rw [if_neg hmany]
  generalize malloc.elim _ _ = got
  obtain ⟨unused, counter, hgot⟩ := stocked_iterate stocked_segmentSendGet got c.snd
  by_cases hshort : got < fragmentation c.mss data.length
  · obtain ⟨unused', counter', hput⟩ :=
      stocked_iterate stocked_segmentSendPut got (c.snd.stocked unused counter)
    rw [if_pos hshort, hgot, hput]
    exact .inr ⟨_, unused', counter', rfl⟩
  · rw [if_neg hshort, hgot]
    exact .inl ⟨not_not.mp hstate, by simpa using hempty, not_lt.mp hmany, unused, counter, _, rfl⟩

end Eular.Kcp
