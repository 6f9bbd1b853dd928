/-
One arrival, end to end: the predecessor test, the insertion loop, the
FIN branch and the closing bookkeeping of `onFrame`.

`storeFrame_cases` is the inversion the three properties of the receive
half share: an arrival either stops at a full buffer with part of the
frame stored, or stores all of it, marks its FIN and drops used-up
markers. `markFin_cases` lists what marking the FIN can do.
-/
import Eular.Utp.Stream.Proofs.Fill
import Eular.Utp.Stream.Proofs.Consume

namespace Eular.Utp

open Lib StreamImpl

variable {s : StreamImpl} {lo hi : Nat} {D : List UInt8} {frameFin : Bool}

-- ==== storing bytes

private theorem ahead_init (h : TreeOk s.recvOffset s.recvFragmentsTree)
    (hnone : s.findPrev lo = none) : Ahead s s (s.findLowerBound lo) lo where
  mem₀ _ hg := ((mem_lowerBound h.sorted).mp hg).1
  mem _ hg := ((mem_lowerBound h.sorted).mp hg).1
  sorted := List.Pairwise.sublist (lowerBound_sublist _ _) h.sorted
  ge _ hg := ((mem_lowerBound h.sorted).mp hg).2
  behind _ hg hlt := absurd hlt (not_lt.mpr (prev_eq_none h.sorted hnone hg))
  all _ hg hle := Or.inl ((mem_lowerBound h.sorted).mpr ⟨hg, hle⟩)

/-- Past its nearest predecessor the frame starts at the lower bound: no
other fragment below it can reach that far. -/
private theorem ahead_prev (h : TreeOk s.recvOffset s.recvFragmentsTree)
    {p : RecvFragment} (hp : s.findPrev lo = some p) :
    Ahead s s (s.findLowerBound (max lo p.endOffset)) (max lo p.endOffset) := by
  obtain ⟨hmem, hlt, hmax⟩ := prev_eq_some h.sorted hp
  have hlb : ∀ g, g ∈ s.findLowerBound (max lo p.endOffset) ↔
      g ∈ s.recvFragmentsTree ∧ max lo p.endOffset ≤ g.offset :=
    fun g => mem_lowerBound h.sorted
  refine Ahead.past h hmem hlt.le ?_ ?_ ?_ ?_ ?_ ?_
  · intro g hg
    exact ((hlb g).mp hg).1
  · intro g hg
    exact ((hlb g).mp hg).1
  · exact List.Pairwise.sublist (lowerBound_sublist _ _) h.sorted
  · intro g hg
    have := ((hlb g).mp hg).2
    exact ⟨by omega, by omega⟩
  · intro g hg hglt
    rcases hmax g hg hglt with rfl | hbefore
    · exact Or.inr rfl
    · have := h.apart g hg p hmem hbefore
      exact Or.inl (by omega)
  · intro g hg hge
    have := h.apart p hmem g hg (by omega)
    exact Or.inl ((hlb g).mpr ⟨hg, by omega⟩)

theorem startFill_filled (frameFin : Bool) (h : TreeOk s.recvOffset s.recvFragmentsTree)
    (hrecv : s.recvOffset ≤ lo) (hend : lo + D.length < 2 ^ 64) :
    Filled s lo D frameFin (s.startFill frameFin lo D) := by
  unfold startFill
  rw [add64_eq hend]
  cases hp : s.findPrev lo with
  | none =>
    have hloop := fillGaps_filled (D := D) frameFin hrecv hend
      (s.findLowerBound lo) lo s none (filling_init h) (fun _ => ahead_init h hp)
    rwa [Nat.sub_self, List.drop_zero] at hloop
  | some p =>
    obtain ⟨hmem, hlt, -⟩ := prev_eq_some h.sorted hp
    simp only
    rw [trimBy_eq (h.fragment p hmem).end_lt hend]
    generalize hk : min (p.endOffset - lo) D.length = k
    have hskip : Filling s lo D frameFin (lo + k) s none := by
      refine (filling_init h).skip hmem hmem (by omega) ?_
      intro x h1 h2
      omega
    have hloop := fillGaps_filled (D := D) frameFin hrecv hend
      (s.findLowerBound (lo + k)) (lo + k) s none hskip ?_
    · rwa [Nat.add_sub_cancel_left] at hloop
    · intro hbytes
      have hcursor : lo + k = max lo p.endOffset := by omega
      rw [hcursor]
      exact ahead_prev h hp

-- ==== marking a FIN

/-- What marking the FIN of a frame that ends at `hi` can do. `last` is
the fragment the loop inserted last. -/
inductive FinMarked (s : StreamImpl) (hi : Nat) : Option Nat → StreamImpl → Prop
  /-- The fragment inserted last gets the mark. -/
  | inserted (o : Nat) : FinMarked s hi (some o) (s.setFin o)
  /-- A fragment that ends where the frame ends gets the mark. -/
  | tail {f : RecvFragment} (hf : f ∈ s.recvFragmentsTree) (hend : f.endOffset = hi) :
      FinMarked s hi none (s.setFin f.offset)
  /-- The frame ends at what was consumed. -/
  | consumed (h : hi = s.recvOffset) : FinMarked s hi none { s with peerFin := true }
  /-- A fragment starts where the frame ends: the mark is lost. -/
  | refused (hne : hi ≠ s.recvOffset) {f : RecvFragment}
      (hf : f ∈ s.recvFragmentsTree) (hoff : f.offset = hi) : FinMarked s hi none s
  /-- A zero-length fragment is stored. -/
  | marker (hne : hi ≠ s.recvOffset) {s' : StreamImpl} (hsame : SameButTree s s')
      (hfresh : ∀ g ∈ s.recvFragmentsTree, g.offset ≠ hi)
      (htree : s'.recvFragmentsTree
        = put RecvFragment.offset { data := [], offset := hi, fin := true }
            s.recvFragmentsTree) : FinMarked s hi none s'

/-- Placing a FIN never fails: a zero-length fragment is not refused for
space. -/
private theorem placeFin_marked (h : Sorted RecvFragment.offset s.recvFragmentsTree) :
    (s.placeFin hi).1 = .success ∧ FinMarked s hi none (s.placeFin hi).2 := by
  unfold placeFin
  by_cases hrecv : hi = s.recvOffset
  · rw [if_pos hrecv]
    exact ⟨rfl, .consumed hrecv⟩
  · rw [if_neg hrecv]
    rcases insertRecvFragment_cases s { data := [], offset := hi, fin := true } h with
      ⟨-, hlen, -⟩ | ⟨heq, g, hg, hoff, -⟩ | ⟨hst, -, hsame, hput, hshort, -⟩
    · exact absurd hlen (lt_irrefl 0)
    · rw [heq]
      exact ⟨rfl, .refused hrecv hg hoff⟩
    · refine ⟨hst, .marker hrecv hsame ?_ hput⟩
      intro g hg hoff
      exact absurd (hshort g hg hoff) (Nat.not_lt_zero _)

theorem markFin_marked (h : TreeOk s.recvOffset s.recvFragmentsTree) (hi : Nat)
    (last : Option Nat) :
    (s.markFin hi last).1 = .success ∧ FinMarked s hi last (s.markFin hi last).2 := by
  cases last with
  | some o => exact ⟨rfl, .inserted o⟩
  | none =>
    unfold markFin
    simp only
    cases hp : s.findPrev (add64 hi 1) with
    | none => exact placeFin_marked h.sorted
    | some tail =>
      have hmem := (prev_eq_some h.sorted hp).1
      simp only [(h.fragment tail hmem).endOffset_eq]
      by_cases htail : tail.endOffset = hi
      · rw [if_pos htail]
        exact ⟨rfl, .tail hmem htail⟩
      · rw [if_neg htail]
        exact placeFin_marked h.sorted

-- ==== one arrival

/-- The two answers of `storeFrame`. `r` is what the loop left. -/
inductive Arrived (s : StreamImpl) (frameFin : Bool) (lo : Nat) (D : List UInt8) :
    Status × StreamImpl → Prop
  /-- The buffer was full, for what was missing of the frame; part of it is stored. -/
  | full {c : Nat} {s₁ : StreamImpl} {last : Option Nat}
      (hfill : Filling s lo D frameFin c s₁ last)
      (hover : kMaxRecvFragmentBytes
        < s.recvBufferedBytes + missing s.recvFragmentsTree lo D.length) :
      Arrived s frameFin lo D (.error .wouldBlock "recv buffer full", s₁)
  /-- The whole frame is stored and carries no FIN. -/
  | plain {s₁ : StreamImpl} {last : Option Nat} (hfin : frameFin = false)
      (hfill : Filling s lo D frameFin (lo + D.length) s₁ last) :
      Arrived s frameFin lo D (.success, s₁.maybeAdvancePeerFin.maybeNotifyClosed)
  /-- The whole frame is stored and its FIN marked. -/
  | fin {s₁ s₂ : StreamImpl} {last : Option Nat} (hfin : frameFin = true)
      (hfill : Filling s lo D frameFin (lo + D.length) s₁ last)
      (hmark : FinMarked s₁ (lo + D.length) last s₂) :
      Arrived s frameFin lo D (.success, s₂.maybeAdvancePeerFin.maybeNotifyClosed)

theorem storeFrame_arrived (h : TreeOk s.recvOffset s.recvFragmentsTree)
    (hrecv : s.recvOffset ≤ lo) (hend : lo + D.length < 2 ^ 64) :
    Arrived s frameFin lo D (s.storeFrame frameFin lo D) := by
  obtain ⟨c, hfill, hst⟩ := startFill_filled frameFin h hrecv hend
  unfold storeFrame
  generalize s.startFill frameFin lo D = r at hfill hst ⊢
  simp only [add64_eq hend]
  rcases hst with ⟨hok, rfl⟩ | ⟨hfull, hover⟩
  · rw [hok, if_pos Status.ok_success]
    cases hfin : frameFin with
    | false => exact .plain rfl (by rwa [hfin] at hfill)
    | true =>
      have htree : TreeOk r.stream.recvOffset r.stream.recvFragmentsTree := by
        rw [hfill.same.recvOffset]
        exact hfill.tree
      obtain ⟨hm, hmark⟩ := markFin_marked htree (lo + D.length) r.insertedLast
      simp only [if_true, hm, Status.ok_success]
      exact .fin rfl (by rwa [hfin] at hfill) hmark
  · rw [hfull]
    exact .full hfill hover

/-- Marking a FIN leaves everything but the tree, its counter and
`peerFin` alone. -/
theorem FinMarked.flags {last : Option Nat} {s' : StreamImpl} (h : FinMarked s hi last s') :
    s'.recvOffset = s.recvOffset ∧ s'.resetByPeer = s.resetByPeer
    ∧ s'.streamId = s.streamId ∧ s'.closedNotified = s.closedNotified := by
  cases h with
  | inserted o => exact ⟨rfl, rfl, rfl, rfl⟩
  | tail hf hend => exact ⟨rfl, rfl, rfl, rfl⟩
  | consumed hrecv => exact ⟨rfl, rfl, rfl, rfl⟩
  | refused hne hf hoff => exact ⟨rfl, rfl, rfl, rfl⟩
  | marker hne hsame _ htree =>
    rw [hsame]
    exact ⟨rfl, rfl, rfl, rfl⟩

/-- `onFrame` on a frame it does not refuse: either all of it was consumed
before, or what lies above `recvOffset` is stored. -/
theorem onFrame_arrived {frame : FrameStream} (h : TreeOk s.recvOffset s.recvFragmentsTree)
    (hreset : s.resetByPeer = false) (hid : frame.streamId = s.streamId)
    (hend : frame.streamOffset + frame.streamData.length < 2 ^ 64) :
    (frame.streamOffset < s.recvOffset
      ∧ frame.streamOffset + frame.streamData.length ≤ s.recvOffset
      ∧ s.onFrame frame = (.success,
        if frame.isFin = true ∧ frame.streamOffset + frame.streamData.length = s.recvOffset
        then { s with peerFin := true }.maybeNotifyClosed else s))
    ∨ (∃ lo D, lo = max frame.streamOffset s.recvOffset
      ∧ D = frame.streamData.drop (s.recvOffset - frame.streamOffset)
      ∧ lo + D.length = frame.streamOffset + frame.streamData.length
      ∧ Arrived s frame.isFin lo D (s.onFrame frame)) := by
  unfold onFrame
  rw [if_neg (by simp [hreset]), if_neg (not_not.mpr hid)]
  simp only [add64_eq hend]
  by_cases hbelow : frame.streamOffset < s.recvOffset
  · rw [if_pos hbelow]
    by_cases hold : frame.streamData.length ≤ s.recvOffset - frame.streamOffset
    · rw [if_pos hold]
      refine Or.inl ⟨hbelow, by omega, ?_⟩
      split <;> rfl
    · rw [if_neg hold, add64_eq (by omega)]
      have hlo : frame.streamOffset + (s.recvOffset - frame.streamOffset) = s.recvOffset := by
        omega
      have hlen : s.recvOffset
          + (frame.streamData.drop (s.recvOffset - frame.streamOffset)).length
          = frame.streamOffset + frame.streamData.length := by
        rw [List.length_drop]
        omega
      rw [hlo]
      refine Or.inr ⟨s.recvOffset, _, by omega, rfl, hlen, ?_⟩
      exact storeFrame_arrived h (le_refl _) (by omega)
  · rw [if_neg hbelow]
    have hdrop : frame.streamData.drop (s.recvOffset - frame.streamOffset)
        = frame.streamData := by
      rw [Nat.sub_eq_zero_of_le (not_lt.mp hbelow), List.drop_zero]
    refine Or.inr ⟨frame.streamOffset, _, by omega, rfl, ?_, ?_⟩
    · rw [hdrop]
    · rw [hdrop]
      exact storeFrame_arrived h (not_lt.mp hbelow) hend

-- ==== the closing bookkeeping

theorem treeOk_maybeAdvancePeerFin (h : TreeOk s.recvOffset s.recvFragmentsTree) :
    TreeOk s.recvOffset s.maybeAdvancePeerFin.recvFragmentsTree := by
  obtain ⟨dropped, htree, -, -⟩ := advancePeerFin_spec s.recvFragmentsTree s
  refine h.sublist ?_
  rw [htree]
  exact List.sublist_append_right _ _

theorem maybeAdvancePeerFin_recvOffset (s : StreamImpl) :
    s.maybeAdvancePeerFin.recvOffset = s.recvOffset := by
  obtain ⟨dropped, -, -, heq⟩ := advancePeerFin_spec s.recvFragmentsTree s
  rw [maybeAdvancePeerFin, heq]

theorem maybeAdvancePeerFin_flags (s : StreamImpl) :
    s.maybeAdvancePeerFin.resetByPeer = s.resetByPeer
    ∧ s.maybeAdvancePeerFin.streamId = s.streamId
    ∧ s.maybeAdvancePeerFin.closedNotified = s.closedNotified := by
  obtain ⟨dropped, -, -, heq⟩ := advancePeerFin_spec s.recvFragmentsTree s
  rw [maybeAdvancePeerFin, heq]
  exact ⟨rfl, rfl, rfl⟩

theorem Arrived.flags {q : Status × StreamImpl} (h : Arrived s frameFin lo D q) :
    q.2.recvOffset = s.recvOffset ∧ q.2.resetByPeer = s.resetByPeer
    ∧ q.2.streamId = s.streamId := by
  cases h with
  | full hfill _ =>
    rw [hfill.same]
    exact ⟨rfl, rfl, rfl⟩
  | @plain s₁ _ _ hfill =>
    obtain ⟨h1, h2, -⟩ := maybeAdvancePeerFin_flags s₁
    simp only [maybeNotifyClosed_recvOffset, maybeNotifyClosed_resetByPeer,
      maybeNotifyClosed_streamId, maybeAdvancePeerFin_recvOffset, h1, h2]
    rw [hfill.same]
    exact ⟨rfl, rfl, rfl⟩
  | @fin s₁ s₂ _ _ hfill hmark =>
    obtain ⟨h1, h2, -⟩ := maybeAdvancePeerFin_flags s₂
    obtain ⟨h3, h4, h5, -⟩ := hmark.flags
    simp only [maybeNotifyClosed_recvOffset, maybeNotifyClosed_resetByPeer,
      maybeNotifyClosed_streamId, maybeAdvancePeerFin_recvOffset, h1, h2, h3, h4, h5]
    rw [hfill.same]
    exact ⟨rfl, rfl, rfl⟩

/-- A property of single fragments that pieces and markers have and FIN
marks keep survives an arrival. -/
theorem Arrived.forall_mem {P : RecvFragment → Prop} {q : Status × StreamImpl}
    (h : Arrived s frameFin lo D q) (hold : ∀ f ∈ s.recvFragmentsTree, P f)
    (hpiece : ∀ g, Piece lo D frameFin g → P g)
    (hfinAt : ∀ o f, P f → P (finAt o f))
    (hmarker : frameFin = true → P { data := [], offset := lo + D.length, fin := true }) :
    ∀ f ∈ q.2.recvFragmentsTree, P f := by
  have hfilled : ∀ {c s₁ last}, Filling s lo D frameFin c s₁ last →
      ∀ f ∈ s₁.recvFragmentsTree, P f := by
    intro c s₁ last hfill f hf
    rcases hfill.origin f hf with hf | hf
    · exact hold f hf
    · exact hpiece f hf
  have hdropped : ∀ s₁ : StreamImpl, (∀ f ∈ s₁.recvFragmentsTree, P f) →
      ∀ f ∈ s₁.maybeAdvancePeerFin.maybeNotifyClosed.recvFragmentsTree, P f := by
    intro s₁ h₁ f hf
    rw [maybeNotifyClosed_tree] at hf
    obtain ⟨dropped, htree, -, -⟩ := advancePeerFin_spec s₁.recvFragmentsTree s₁
    refine h₁ f ?_
    rw [htree]
    exact List.mem_append_right _ hf
  cases h with
  | full hfill _ => exact hfilled hfill
  | plain _ hfill => exact hdropped _ (hfilled hfill)
  | @fin s₁ s₂ last hfin hfill hmark =>
    refine hdropped _ ?_
    have h₁ := hfilled hfill
    have hset : ∀ o, ∀ f ∈ (s₁.setFin o).recvFragmentsTree, P f := by
      intro o f hf
      obtain ⟨g, hg, rfl⟩ := List.mem_map.mp hf
      exact hfinAt o g (h₁ g hg)
    cases hmark with
    | inserted o => exact hset o
    | tail hf hend => exact hset _
    | consumed hrecv => exact h₁
    | refused hne hf hoff => exact h₁
    | marker hne hsame _ htree =>
      intro f hf
      rw [htree] at hf
      rcases (mem_put hfill.tree.sorted).mp hf with rfl | ⟨hf, -⟩
      · exact hmarker hfin
      · exact h₁ f hf

-- ==== the byte counter

theorem Counted.insertPiece (h : Counted s) (cursor : Nat) (data : List UInt8)
    (fin : Bool) (last : Option Nat) : Counted (s.insertPiece cursor data fin last).stream :=
  h.insertRecvFragment _

theorem Counted.fillGaps (rest : List RecvFragment) :
    ∀ (cursor : Nat) (data : List UInt8) (s : StreamImpl) (last : Option Nat),
      Counted s → Counted (fillGaps frameFin hi rest cursor data s last).stream := by
  induction rest with
  | nil =>
    intro cursor data s last h
    unfold StreamImpl.fillGaps
    split
    · exact h
    · exact h.insertPiece _ _ _ _
  | cons iter rest ih =>
    intro cursor data s last h
    unfold StreamImpl.fillGaps
    split
    · exact h
    split
    · exact h.insertPiece _ _ _ _
    split
    · simp only
      split
      · exact ih _ _ _ _ (h.insertPiece _ _ _ _)
      · exact h.insertPiece _ _ _ _
    · exact ih _ _ _ _ h

theorem Counted.markFin (h : Counted s) (last : Option Nat) :
    Counted (s.markFin hi last).2 := by
  have hplace : Counted (s.placeFin hi).2 := by
    unfold placeFin
    split
    · exact ⟨h.sorted, h.sum_eq, h.le_cap⟩
    · exact h.insertRecvFragment _
  unfold StreamImpl.markFin
  split
  · exact h.setFin _
  split
  · split
    · exact h.setFin _
    · exact hplace
  · exact hplace

theorem Counted.onFrame (h : Counted s) (frame : FrameStream) :
    Counted (s.onFrame frame).2 := by
  have hstore : ∀ fin lo D, Counted (s.storeFrame fin lo D).2 := by
    intro fin lo D
    have hfill : Counted (s.startFill fin lo D).stream := h.fillGaps _ _ _ _ _
    unfold storeFrame
    generalize s.startFill fin lo D = r at hfill ⊢
    have hm : Counted (if fin then r.stream.markFin (add64 lo D.length) r.insertedLast
        else (Status.success, r.stream)).2 := by
      split
      · exact hfill.markFin _
      · exact hfill
    simp only
    generalize (if fin then r.stream.markFin (add64 lo D.length) r.insertedLast
      else (Status.success, r.stream)) = m at hm ⊢
    split
    · split
      · exact hm.maybeAdvancePeerFin.maybeNotifyClosed
      · exact hm
    · exact hfill
  unfold StreamImpl.onFrame
  split
  · exact h
  split
  · exact h
  simp only
  split
  · split
    · split
      · exact Counted.maybeNotifyClosed ⟨h.sorted, h.sum_eq, h.le_cap⟩
      · exact h
    · exact hstore _ _ _
  · exact hstore _ _ _

end Eular.Utp
