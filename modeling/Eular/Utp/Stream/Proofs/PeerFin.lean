/-
When the peer counts as finished.

`peerFin` is derived from FIN marks on fragments: using up a marked
fragment sets it. With an honest sender it should therefore be set only
once everything was consumed, and with it what hangs on it: the states
`halfClosedRemote` and `closed`, and the `onClosed` callback.

The FIN branch of `onFrame` marks the fragment it inserted last. That is
the fragment with the last byte of `S` unless that byte was buffered
already and the frame filled a hole further ahead (`MarksEarly`): then
the mark lands on a fragment in the middle of `S`. Outside that case the
mark is always at the end (`finAtEnd_of_run`); at the bottom of the file
the smallest stream that takes the early mark.
-/
import Eular.Utp.Stream.Proofs.Honest

namespace Eular.Utp

open Lib StreamImpl

variable {S : List UInt8} {s : StreamImpl} {frame : FrameStream}

-- ==== the statement

/-- The frame's FIN lands on a fragment that does not hold its last byte:
that byte is buffered, and some other byte of the frame is missing. -/
def MarksEarly (s : StreamImpl) (frame : FrameStream) : Prop :=
  frame.isFin = true
  ∧ Held s.recvFragmentsTree (frame.streamOffset + frame.streamData.length - 1)
  ∧ ∃ x < frame.streamOffset + frame.streamData.length,
      max frame.streamOffset s.recvOffset ≤ x ∧ ¬ Held s.recvFragmentsTree x

instance (s : StreamImpl) (frame : FrameStream) : Decidable (MarksEarly s frame) :=
  inferInstanceAs (Decidable (_ ∧ _ ∧ _))

/-- The operations of a stream with an honest peer and no reset, none of
whose frames marks early. -/
def Orderly (S : List UInt8) (s : StreamImpl) : Op → Prop
  | .frame frame =>
    frame.streamId = s.streamId ∧ HonestFrame S frame ∧ ¬ MarksEarly s frame
  | .reset _ | .onReset _ _ => False
  | _ => True

instance Orderly.decidable (S : List UInt8) (s : StreamImpl) :
    ∀ op, Decidable (Orderly S s op)
  | .frame _ => inferInstanceAs (Decidable (_ ∧ _ ∧ _))
  | .reset _ | .onReset _ _ => isFalse id
  | .read _ | .acquireReadViews _ | .commitReadViews _ | .commitWrite _ | .flushFin =>
    isTrue trivial

/-- Every report that the peer is finished is true. -/
def FinishedRight (S : List UInt8) (s : StreamImpl) : Prop :=
  (s.peerFin = true → s.recvOffset = S.length)
  ∧ (s.state = .halfClosedRemote ∨ s.state = .closed → s.recvOffset = S.length)
  ∧ (s.closedNotified = true → s.recvOffset = S.length)

-- ==== the invariant

/-- Every FIN mark is at the end of `S`, and what hangs on a used-up mark
was reported there. -/
structure FinAtEnd (S : List UInt8) (s : StreamImpl) : Prop where
  tree : TreeOk s.recvOffset s.recvFragmentsTree
  mark : ∀ f ∈ s.recvFragmentsTree, f.fin = true → f.endOffset = S.length
  peer : s.peerFin = true → s.recvOffset = S.length
  closed : s.closedNotified = true → s.recvOffset = S.length

theorem finAtEnd_init (S : List UInt8) (streamId : Nat) : FinAtEnd S { streamId } :=
  ⟨treeOk_nil _, by simp, by simp, by simp⟩

theorem FinAtEnd.finishedRight (h : FinAtEnd S s) : FinishedRight S s := by
  refine ⟨h.peer, ?_, h.closed⟩
  intro hstate
  refine h.peer ?_
  unfold state at hstate
  split at hstate
  case isTrue hc =>
    simp only [Bool.and_eq_true] at hc
    exact hc.2
  case isFalse =>
    split at hstate
    · simp at hstate
    split at hstate
    case isTrue hp => exact hp
    case isFalse => simp at hstate

theorem FinAtEnd.maybeNotifyClosed (h : FinAtEnd S s) : FinAtEnd S s.maybeNotifyClosed where
  tree := by simpa using h.tree
  mark := by simpa using h.mark
  peer := by simpa using h.peer
  closed := by
    intro hc
    rw [maybeNotifyClosed_recvOffset]
    rcases maybeNotifyClosed_closed hc with hc | hp
    · exact h.closed hc
    · exact h.peer hp

theorem FinAtEnd.maybeAdvancePeerFin (h : FinAtEnd S s) :
    FinAtEnd S s.maybeAdvancePeerFin := by
  obtain ⟨dropped, htree, hdropped, heq⟩ := advancePeerFin_spec s.recvFragmentsTree s
  refine ⟨?_, ?_, ?_, ?_⟩
  · rw [maybeAdvancePeerFin_recvOffset]
    exact treeOk_maybeAdvancePeerFin h.tree
  · intro f hf
    refine h.mark f ?_
    rw [htree]
    exact List.mem_append_right _ hf
  · intro hp
    rw [maybeAdvancePeerFin_recvOffset]
    rw [StreamImpl.maybeAdvancePeerFin, heq] at hp
    rcases Bool.or_eq_true_iff.mp hp with hp | hany
    · exact h.peer hp
    · obtain ⟨f, hf, hfin⟩ := List.any_eq_true.mp hany
      have hmem : f ∈ s.recvFragmentsTree := by
        rw [htree]
        exact List.mem_append_left _ hf
      have hok := h.tree.fragment f hmem
      obtain ⟨hlen, hle⟩ := hok.len_eq_zero (hdropped f hf).2
      have hlog := hok.logicalOffset
      rw [(hdropped f hf).1] at hlog
      have hend := h.mark f hmem hfin
      unfold RecvFragment.endOffset at hend
      omega
  · rw [(maybeAdvancePeerFin_flags s).2.2, maybeAdvancePeerFin_recvOffset]
    exact h.closed

/-- Bytes are consumed; what was at the end of `S` stays there. -/
theorem FinAtEnd.consume (h : FinAtEnd S s) (hinv : HonestInv S s) (want : Nat) :
    FinAtEnd S (consume s.recvFragmentsTree want s).2 := by
  have hc := consume_consumed s.recvFragmentsTree want s h.tree
  have hle := (hinv.consume want).1.le
  generalize StreamImpl.consume s.recvFragmentsTree want s = q at hc hle ⊢
  have hrecv := hc.recvOffset
  refine ⟨hc.tree, ?_, ?_, ?_⟩
  · intro f' hf' hfin'
    obtain ⟨f, hf, hoff, hdata, hfin⟩ := hc.origin f' hf'
    rw [RecvFragment.endOffset, RecvFragment.len, hoff, hdata]
    exact h.mark f hf (hfin ▸ hfin')
  · intro hp
    rcases hc.peerFin hp with hp | ⟨f, hf, hfin, hend⟩
    · have := h.peer hp
      omega
    · have := h.mark f hf hfin
      omega
  · intro hclosed
    rw [hc.same] at hclosed
    have := h.closed hclosed
    omega

-- ==== an arrival

section Arrival

variable {lo c : Nat} {D : List UInt8} {s₁ s₂ : StreamImpl} {last : Option Nat}

/-- Storing the bytes of an honest frame: a piece that carries the FIN
ends where `S` ends. -/
theorem FinAtEnd.filling (h : FinAtEnd S s)
    (hend : frame.isFin = true → lo + D.length = S.length)
    (hfill : Filling s lo D frame.isFin c s₁ last) : FinAtEnd S s₁ := by
  have hrecv := hfill.same.recvOffset
  refine ⟨?_, ?_, ?_, ?_⟩
  · rw [hrecv]
    exact hfill.tree
  · intro f hf hff
    rcases hfill.origin f hf with hf | hpiece
    · exact h.mark f hf hff
    · rw [(hpiece.fin hff).2, hend (hpiece.fin hff).1]
  · rw [hfill.same.peerFin, hrecv]
    exact h.peer
  · rw [hfill.same]
    exact h.closed

/-- With the last byte missing, or nothing missing, the FIN of an honest
frame is marked at the end of `S`. -/
theorem FinAtEnd.finMarked (h : FinAtEnd S s₁)
    (hlo : lo = max frame.streamOffset s.recvOffset)
    (hsum : lo + D.length = frame.streamOffset + frame.streamData.length)
    (hearly : ¬ MarksEarly s frame) (hfin : frame.isFin = true)
    (hend : lo + D.length = S.length) (hS : S.length < 2 ^ 64)
    (hfill : Filling s lo D frame.isFin (lo + D.length) s₁ last)
    (hinside : ∀ f ∈ s₁.recvFragmentsTree, f.endOffset ≤ S.length)
    (hmark : FinMarked s₁ (lo + D.length) last s₂) : FinAtEnd S s₂ := by
  have hge : s₁.recvOffset ≤ lo + D.length := by
    rw [hfill.same.recvOffset]
    omega
  obtain ⟨hr₂, htree₂⟩ := treeOk_finMarked h.tree hge (by omega)
    (fun _ _ f hf _ => (hinside f hf).trans (by omega)) hmark
  rw [← hr₂] at htree₂
  have hclosed : s₂.closedNotified = true → s₂.recvOffset = S.length := by
    rw [hr₂, hmark.flags.2.2.2]
    exact h.closed
  -- setting the mark on a fragment that ends where `S` ends
  have hset : ∀ o, (∀ f ∈ s₁.recvFragmentsTree, f.offset = o → f.endOffset = S.length) →
      ∀ f ∈ s₁.recvFragmentsTree.map (finAt o), f.fin = true → f.endOffset = S.length := by
    intro o ho f hf hff
    obtain ⟨g, hg, rfl⟩ := List.mem_map.mp hf
    rw [finAt_endOffset]
    by_cases hgo : g.offset = o
    · exact ho g hg hgo
    · rw [finAt, if_neg hgo] at hff
      exact h.mark g hg hff
  cases hmark with
  | inserted o =>
    refine ⟨htree₂, hset o ?_, h.peer, hclosed⟩
    intro f hf hfo
    obtain ⟨g, hg, hgo, hpiece, hnew, hpast⟩ := hfill.last_some o rfl
    obtain rfl : f = g := hfill.tree.sorted.eq_of_key hf hg (hfo.trans hgo.symm)
    have hpge := hpiece.ge
    have hpos := hpiece.pos
    have hple := hpiece.le
    have hdef : f.endOffset = f.offset + f.len := rfl
    -- its first byte was missing, so the last byte was missing too
    have hlast : ¬ Held s.recvFragmentsTree (lo + D.length - 1) := by
      intro hheld
      refine hearly ⟨hfin, ?_, o, by omega, by omega, hnew⟩
      rwa [hsum] at hheld
    have := hpast (lo + D.length - 1) (by omega) (by omega) hlast
    omega
  | @tail g hg hgend =>
    refine ⟨htree₂, hset _ ?_, h.peer, hclosed⟩
    intro f hf hfo
    rw [hfill.tree.sorted.eq_of_key hf hg hfo]
    omega
  | consumed heq =>
    refine ⟨htree₂, h.mark, fun _ => ?_, hclosed⟩
    rw [hr₂]
    omega
  | refused hne hf hoff => exact h
  | marker hne hsame _ htree =>
    refine ⟨htree₂, ?_, ?_, hclosed⟩
    · intro f hf hff
      rw [htree] at hf
      rcases (mem_put hfill.tree.sorted).mp hf with rfl | ⟨hf, -⟩
      · exact hend
      · exact h.mark f hf hff
    · rw [hsame.peerFin, hsame.recvOffset]
      exact h.peer

end Arrival

theorem FinAtEnd.onFrame (h : FinAtEnd S s) (hinv : HonestInv S s) (hS : S.length < 2 ^ 64)
    (hok : Orderly S s (.frame frame)) : FinAtEnd S (s.onFrame frame).2 := by
  obtain ⟨hid, hhonest, hearly⟩ := hok
  rcases hinv.arrived hS hid hhonest with ⟨-, -, heq⟩ | ⟨lo, D, hlo, hD, hsum, harr⟩
  · rw [heq]
    simp only
    split
    case isTrue hc =>
      refine FinAtEnd.maybeNotifyClosed ⟨h.tree, h.mark, fun _ => ?_, h.closed⟩
      have := hhonest.fin hc.1
      simp only
      omega
    case isFalse => exact h
  have hend : frame.isFin = true → lo + D.length = S.length := by
    intro hfin
    rw [hsum]
    exact hhonest.fin hfin
  generalize s.onFrame frame = q at harr
  cases harr with
  | full hfill _ => exact h.filling hend hfill
  | plain _ hfill => exact (h.filling hend hfill).maybeAdvancePeerFin.maybeNotifyClosed
  | @fin s₁ s₂ _ hfin hfill hmark =>
    have hinside : ∀ f ∈ s₁.recvFragmentsTree, f.endOffset ≤ S.length := by
      intro f hf
      rcases hfill.origin f hf with hf | hpiece
      · exact (hinv.fragment f hf).le
      · exact (hhonest.piece hlo hD hsum hpiece).le
    have hmarked := (h.filling hend hfill).finMarked hlo hsum hearly hfin (hend hfin)
      hS hfill hinside hmark
    exact hmarked.maybeAdvancePeerFin.maybeNotifyClosed

-- ==== one step

theorem finAtEnd_step (hS : S.length < 2 ^ 64) (s : StreamImpl) (op : Op)
    (h : HonestInv S s ∧ FinAtEnd S s) (hok : Orderly S s op) :
    HonestInv S (s.step op) ∧ FinAtEnd S (s.step op) := by
  obtain ⟨hinv, hfin⟩ := h
  have hkeep : ∀ s' : StreamImpl, s'.recvFragmentsTree = s.recvFragmentsTree →
      s'.recvOffset = s.recvOffset → s'.recvBufferedBytes = s.recvBufferedBytes →
      s'.resetByPeer = s.resetByPeer → s'.peerFin = s.peerFin →
      s'.closedNotified = s.closedNotified → HonestInv S s' ∧ FinAtEnd S s' := by
    intro s' h1 h2 h3 h4 h5 h6
    refine ⟨⟨hinv.recv.congr h1 h2 h3, h4.trans hinv.open_, ?_, ?_⟩, ?_, ?_, ?_, ?_⟩
    · rw [h1]
      exact hinv.fragment
    · rw [h2]
      exact hinv.le
    · rw [h1, h2]
      exact hfin.tree
    · rw [h1]
      exact hfin.mark
    · rw [h5, h2]
      exact hfin.peer
    · rw [h6, h2]
      exact hfin.closed
  cases op with
  | frame frame => exact ⟨hinv.onFrame hS hok.1 hok.2.1, hfin.onFrame hinv hS hok⟩
  | read capacity =>
    simp only [step, StreamImpl.read]
    split
    · exact ⟨hinv, hfin⟩
    split
    · exact ⟨hinv.maybeAdvancePeerFin, hfin.maybeAdvancePeerFin⟩
    · exact ⟨(hinv.consume _).1.maybeAdvancePeerFin.maybeNotifyClosed,
        (hfin.consume hinv _).maybeAdvancePeerFin.maybeNotifyClosed⟩
  | acquireReadViews maxBytes => exact ⟨hinv, hfin⟩
  | commitReadViews bytes =>
    simp only [step, commitReadViews]
    split
    · exact ⟨hinv.maybeAdvancePeerFin.maybeNotifyClosed,
        hfin.maybeAdvancePeerFin.maybeNotifyClosed⟩
    split
    · exact ⟨hinv, hfin⟩
    split
    · exact ⟨(hinv.consume _).1, hfin.consume hinv _⟩
    · exact ⟨(hinv.consume _).1.maybeAdvancePeerFin.maybeNotifyClosed,
        (hfin.consume hinv _).maybeAdvancePeerFin.maybeNotifyClosed⟩
  | commitWrite fin =>
    simp only [step, commitWrite]
    split
    · exact ⟨hinv, hfin⟩
    · obtain ⟨h1, h2⟩ := hkeep { s with localFinQueued := fin } rfl rfl rfl rfl rfl rfl
      exact ⟨h1.maybeNotifyClosed, h2.maybeNotifyClosed⟩
  | flushFin =>
    simp only [step, flushFin]
    split
    · exact hkeep _ rfl rfl rfl rfl rfl rfl
    · exact ⟨hinv, hfin⟩
  | reset sent => exact hok.elim
  | onReset errorCode fromPeer => exact hok.elim

-- ==== every run

/-- For an honest sender of `S`, in any order, overlap, duplication and
re-segmentation of its frames and any interleaving with reads and local
closing: as long as no frame marks early, the peer counts as finished
only when every byte of `S` was consumed. -/
theorem finishedRight_of_run (S : List UInt8) (hS : S.length < 2 ^ 64) (streamId : Nat)
    (ops : List Op) (hok : Meets step (Orderly S) { streamId } ops) :
    FinishedRight S (run step { streamId } ops) :=
  (run_inv (finAtEnd_step hS) ⟨honestInv_init S streamId, finAtEnd_init S streamId⟩
    hok).2.finishedRight

/-- Four bytes out of order and in overlapping pieces, consumed and then
closed on both sides. -/
theorem finishedRight_reordered :
    FinishedRight [1, 2, 3, 4] (run step { streamId := 4 }
      [.frame ⟨0, 4, 1, [2, 3]⟩, .frame ⟨1, 4, 2, [3, 4]⟩, .frame ⟨0, 4, 0, [1, 2]⟩,
       .read 3, .commitWrite true, .flushFin, .commitReadViews 1,
       .frame ⟨1, 4, 2, [3, 4]⟩]) :=
  finishedRight_of_run [1, 2, 3, 4] (by decide) 4 _ (by decide)

/-- The last of two bytes arrives first; the whole of the stream, sent
again as one frame, fills the hole and marks it. Reading one byte then
finishes the peer, with a byte to go. -/
theorem not_finishedRight_resegmented :
    ¬ FinishedRight [1, 2] (run step { streamId := 4 }
      [.frame ⟨1, 4, 1, [2]⟩, .frame ⟨1, 4, 0, [1, 2]⟩, .read 1]) := by
  intro h
  have hrecv := h.1 (by decide)
  exact absurd hrecv (by decide)

end Eular.Utp
