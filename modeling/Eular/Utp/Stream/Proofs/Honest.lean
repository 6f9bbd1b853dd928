/-
A stream whose peer sends one byte sequence.

An honest sender has one sequence `S` in mind: each STREAM frame carries
the bytes of `S` at its offset, however it was cut and however often it
is sent again, and the FIN flag is set only on frames that end where `S`
ends. Such frames never wrap and never hide a predecessor, so the
receive half's invariant holds throughout, and every fragment holds
bytes of `S` in their place.
-/
import Eular.Utp.Stream.Proofs.Invariant

namespace Eular.Utp

open Lib StreamImpl

variable {S : List UInt8} {s : StreamImpl} {frame : FrameStream}

-- ==== honest frames

/-- The frame carries the bytes of `S` at its offset, and a FIN only at
the end of `S`. -/
structure HonestFrame (S : List UInt8) (frame : FrameStream) : Prop where
  le : frame.streamOffset + frame.streamData.length ≤ S.length
  bytes : frame.streamData = (S.drop frame.streamOffset).take frame.streamData.length
  fin : frame.isFin = true → frame.streamOffset + frame.streamData.length = S.length

instance (S : List UInt8) (frame : FrameStream) : Decidable (HonestFrame S frame) :=
  decidable_of_iff
    (frame.streamOffset + frame.streamData.length ≤ S.length
      ∧ frame.streamData = (S.drop frame.streamOffset).take frame.streamData.length
      ∧ (frame.isFin = true →
          frame.streamOffset + frame.streamData.length = S.length))
    ⟨fun h => ⟨h.1, h.2.1, h.2.2⟩, fun h => ⟨h.le, h.bytes, h.fin⟩⟩

/-- The fragment holds bytes of `S` in their place; an empty one is a FIN
marker at the end of `S`. -/
structure HonestFragment (S : List UInt8) (f : RecvFragment) : Prop where
  le : f.endOffset ≤ S.length
  bytes : ∀ i, i < f.len → f.data[i]? = S[f.offset + i]?
  marker : f.len = 0 → f.fin = true ∧ f.offset = S.length

/-- The invariant of a stream that has seen honest frames only. -/
structure HonestInv (S : List UInt8) (s : StreamImpl) : Prop where
  recv : RecvInv s
  open_ : s.resetByPeer = false
  fragment : ∀ f ∈ s.recvFragmentsTree, HonestFragment S f
  le : s.recvOffset ≤ S.length

theorem honestInv_init (S : List UInt8) (streamId : Nat) : HonestInv S { streamId } :=
  ⟨recvInv_init streamId, rfl, by simp, Nat.zero_le _⟩

/-- Two frames that agree where they are: a piece of an honest frame
holds bytes of `S` in their place. -/
theorem HonestFrame.piece {lo : Nat} {D : List UInt8} {g : RecvFragment}
    (h : HonestFrame S frame) (hlo : lo = max frame.streamOffset s.recvOffset)
    (hD : D = frame.streamData.drop (s.recvOffset - frame.streamOffset))
    (hsum : lo + D.length = frame.streamOffset + frame.streamData.length)
    (hg : Piece lo D frame.isFin g) : HonestFragment S g := by
  have hle := h.le
  have hge := hg.ge
  have hend := hg.le
  have hdef : g.endOffset = g.offset + g.len := rfl
  refine ⟨by omega, ?_, ?_⟩
  · intro i hi
    rw [hg.bytes i hi, hD, List.getElem?_drop, h.bytes,
      List.getElem?_take_of_lt (by omega), List.getElem?_drop]
    congr 1
    omega
  · intro hlen
    have := hg.pos
    omega

theorem HonestFragment.finAt {f : RecvFragment} (h : HonestFragment S f) (o : Nat) :
    HonestFragment S (finAt o f) where
  le := by simpa using h.le
  bytes := by simpa using h.bytes
  marker := by
    intro hlen
    obtain ⟨hfin, hoff⟩ := h.marker (by simpa using hlen)
    refine ⟨?_, by simpa using hoff⟩
    unfold Utp.finAt
    split
    · rfl
    · exact hfin

/-- An honest FIN never hides a predecessor: nothing buffered reaches past
the end of `S`. -/
theorem HonestInv.tolerable (h : HonestInv S s) (hS : S.length < 2 ^ 64)
    (hf : HonestFrame S frame) : Tolerable s (.frame frame) := by
  refine Or.inr (Or.inr ⟨lt_of_le_of_lt hf.le hS, ?_⟩)
  rintro ⟨hfin, -, -, f, hmem, -, hcross⟩
  have h1 := hf.fin hfin
  have h2 := (h.fragment f hmem).le
  omega

theorem HonestInv.arrived (h : HonestInv S s) (hS : S.length < 2 ^ 64)
    (hid : frame.streamId = s.streamId) (hf : HonestFrame S frame) :
    (frame.streamOffset < s.recvOffset
      ∧ frame.streamOffset + frame.streamData.length ≤ s.recvOffset
      ∧ s.onFrame frame = (.success,
        if frame.isFin = true ∧ frame.streamOffset + frame.streamData.length = s.recvOffset
        then { s with peerFin := true }.maybeNotifyClosed else s))
    ∨ (∃ lo D, lo = max frame.streamOffset s.recvOffset
      ∧ D = frame.streamData.drop (s.recvOffset - frame.streamOffset)
      ∧ lo + D.length = frame.streamOffset + frame.streamData.length
      ∧ Arrived s frame.isFin lo D (s.onFrame frame)) :=
  onFrame_arrived h.recv.tree h.open_ hid (lt_of_le_of_lt hf.le hS)

theorem HonestInv.onFrame (h : HonestInv S s) (hS : S.length < 2 ^ 64)
    (hid : frame.streamId = s.streamId) (hf : HonestFrame S frame) :
    HonestInv S (s.onFrame frame).2 := by
  have hrecv := h.recv.onFrame (h.tolerable hS hf)
  rcases h.arrived hS hid hf with ⟨-, -, heq⟩ | ⟨lo, D, hlo, hD, hsum, harr⟩
  · rw [heq] at hrecv ⊢
    refine ⟨hrecv, ?_, ?_, ?_⟩
    · split
      · rw [maybeNotifyClosed_resetByPeer]
        exact h.open_
      · exact h.open_
    · split
      · rw [maybeNotifyClosed_tree]
        exact h.fragment
      · exact h.fragment
    · split
      · rw [maybeNotifyClosed_recvOffset]
        exact h.le
      · exact h.le
  · obtain ⟨hr, hreset, -⟩ := harr.flags
    refine ⟨hrecv, hreset.trans h.open_, ?_, hr.trans_le h.le⟩
    refine harr.forall_mem h.fragment (fun g => hf.piece hlo hD hsum)
      (fun o f hf => hf.finAt o) ?_
    intro hfin
    have hend := hf.fin hfin
    exact ⟨by simpa [RecvFragment.endOffset, RecvFragment.len] using (by omega),
      by simp [RecvFragment.len], fun _ => ⟨rfl, by simpa using (by omega)⟩⟩

-- ==== taking bytes off

theorem HonestInv.maybeNotifyClosed (h : HonestInv S s) : HonestInv S s.maybeNotifyClosed :=
  ⟨h.recv.maybeNotifyClosed, by simpa using h.open_, by simpa using h.fragment,
    by simpa using h.le⟩

theorem HonestInv.maybeAdvancePeerFin (h : HonestInv S s) :
    HonestInv S s.maybeAdvancePeerFin := by
  refine ⟨h.recv.maybeAdvancePeerFin, ?_, ?_, ?_⟩
  · rw [(maybeAdvancePeerFin_flags s).1]
    exact h.open_
  · intro f hf
    obtain ⟨dropped, htree, -, -⟩ := advancePeerFin_spec s.recvFragmentsTree s
    refine h.fragment f ?_
    rw [htree]
    exact List.mem_append_right _ hf
  · rw [maybeAdvancePeerFin_recvOffset]
    exact h.le

/-- The bytes taken off the tree are the next bytes of `S`. -/
theorem HonestInv.consume (h : HonestInv S s) (want : Nat) :
    HonestInv S (consume s.recvFragmentsTree want s).2
    ∧ (consume s.recvFragmentsTree want s).1
      = (S.drop s.recvOffset).take (consume s.recvFragmentsTree want s).1.length := by
  have hc := consume_consumed s.recvFragmentsTree want s h.recv.tree
  have hinv := h.recv.consume want
  generalize StreamImpl.consume s.recvFragmentsTree want s = q at hc hinv ⊢
  -- byte by byte, through the fragment it came from
  have hbyte : ∀ i, i < q.1.length →
      q.1[i]? = S[s.recvOffset + i]? ∧ s.recvOffset + i < S.length := by
    intro i hi
    obtain ⟨f, hf, h1, h2, h3⟩ := hc.bytes i hi
    have hfrag := h.fragment f hf
    have hle := hfrag.le
    have hdef : f.endOffset = f.offset + f.len := rfl
    refine ⟨?_, by omega⟩
    rw [h3, hfrag.bytes _ (by omega)]
    congr 1
    omega
  refine ⟨⟨hinv, ?_, ?_, ?_⟩, ?_⟩
  · rw [hc.same]
    exact h.open_
  · intro f' hf'
    obtain ⟨f, hf, hoff, hdata, hfin⟩ := hc.origin f' hf'
    have hfrag := h.fragment f hf
    refine ⟨?_, ?_, ?_⟩
    · have := hfrag.le
      unfold RecvFragment.endOffset RecvFragment.len at this ⊢
      rwa [hoff, hdata]
    · intro i hi
      rw [RecvFragment.len, hdata] at hi
      rw [hdata, hoff]
      exact hfrag.bytes i hi
    · intro hlen
      rw [RecvFragment.len, hdata] at hlen
      rw [hfin, hoff]
      exact hfrag.marker hlen
  · rw [hc.recvOffset]
    rcases Nat.eq_zero_or_pos q.1.length with hzero | hpos
    · rw [hzero]
      exact h.le
    · have := (hbyte (q.1.length - 1) (by omega)).2
      omega
  · refine List.ext_getElem? ?_
    intro i
    by_cases hi : i < q.1.length
    · rw [List.getElem?_take_of_lt hi, List.getElem?_drop]
      exact (hbyte i hi).1
    · rw [List.getElem?_eq_none (by omega),
        List.getElem?_eq_none (by rw [List.length_take]; omega)]

end Eular.Utp
