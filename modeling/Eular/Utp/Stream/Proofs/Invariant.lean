/-
The receive half against an arbitrary peer.

`FragmentsOk` is what the fragment tree should satisfy whatever arrives:
sorted, no byte held twice, nothing behind `recvOffset`, the counter
right and within the cap, and a front the application can read. The code
keeps it as long as no arrival does one of two things:

- wraps: its last byte lies at or beyond `2^64`, where `offset + len`
  folds over;
- hides a predecessor (`HidesPredecessor`): a FIN whose frame brings no
  new byte and ends strictly inside a buffered fragment. The FIN is then
  stored as a zero-length fragment inside that one, and from there on the
  overlap test, which looks at the nearest predecessor only, sees the
  marker in place of the fragment around it.

`fragmentsOk_of_run` is the positive half, over every run; at the end
the three frames that break the tree.
-/
import Eular.Lib.Run
import Eular.Utp.Stream.Proofs.Arrival

namespace Eular.Utp

open Lib StreamImpl

variable {s : StreamImpl}
variable {s' : StreamImpl}

-- ==== the statement

/-- What the receive half should keep against any peer. -/
structure FragmentsOk (s : StreamImpl) : Prop where
  /-- strictly sorted by offset -/
  sorted : s.recvFragmentsTree.Pairwise fun f g => f.offset < g.offset
  /-- no unread byte is held twice -/
  disjoint : s.recvFragmentsTree.Pairwise fun f g => ∀ x,
    f.offset + f.consumed ≤ x → x < f.offset + f.len →
    g.offset + g.consumed ≤ x → ¬ x < g.offset + g.len
  /-- nothing ends behind what was consumed -/
  ahead : ∀ f ∈ s.recvFragmentsTree, s.recvOffset ≤ f.offset + f.len
  /-- the counter is the number of unread bytes -/
  buffered : s.recvBufferedBytes = (s.recvFragmentsTree.map RecvFragment.remaining).sum
  capped : s.recvBufferedBytes ≤ kMaxRecvFragmentBytes
  /-- the first fragment that has been reached starts where reading goes on -/
  front : ∀ f, s.recvFragmentsTree.find? (fun f => f.offset + f.consumed ≤ s.recvOffset)
    = some f → f.offset + f.consumed = s.recvOffset

/-- The FIN of `frame` would be stored inside a buffered fragment: every
byte it still brings is buffered, and its end is inside a fragment. -/
def HidesPredecessor (s : StreamImpl) (frame : FrameStream) : Prop :=
  frame.isFin = true
  ∧ s.recvOffset < frame.streamOffset + frame.streamData.length
  ∧ (∀ x < frame.streamOffset + frame.streamData.length,
      max frame.streamOffset s.recvOffset ≤ x → Held s.recvFragmentsTree x)
  ∧ ∃ f ∈ s.recvFragmentsTree,
      f.offset < frame.streamOffset + frame.streamData.length
      ∧ frame.streamOffset + frame.streamData.length < f.endOffset

instance (s : StreamImpl) (frame : FrameStream) : Decidable (HidesPredecessor s frame) :=
  inferInstanceAs (Decidable (_ ∧ _ ∧ _ ∧ _))

/-- The arrivals the receive half can cope with: those it refuses
outright, and those that neither wrap nor hide a predecessor. Every
other operation is fine. -/
def Tolerable (s : StreamImpl) : Op → Prop
  | .frame frame =>
    s.resetByPeer = true ∨ frame.streamId ≠ s.streamId
    ∨ (frame.streamOffset + frame.streamData.length < 2 ^ 64
      ∧ ¬ HidesPredecessor s frame)
  | _ => True

instance Tolerable.decidable (s : StreamImpl) : ∀ op, Decidable (Tolerable s op)
  | .frame _ => inferInstanceAs (Decidable (_ ∨ _ ∨ _))
  | .read _ | .acquireReadViews _ | .commitReadViews _ | .commitWrite _ | .flushFin
  | .reset _ | .onReset _ _ => isTrue trivial

-- ==== the invariant

/-- The inductive invariant behind `FragmentsOk`. -/
structure RecvInv (s : StreamImpl) : Prop where
  tree : TreeOk s.recvOffset s.recvFragmentsTree
  counted : Counted s

theorem RecvInv.fragmentsOk (h : RecvInv s) : FragmentsOk s where
  sorted := h.tree.sorted
  disjoint := by
    refine List.Pairwise.imp_of_mem ?_ h.tree.sorted
    intro f g hf hg hlt x _ h2 h3 _
    have hapart := h.tree.apart f hf g hg hlt
    unfold RecvFragment.endOffset at hapart
    omega
  ahead := by
    intro f hf
    have hahead := (h.tree.fragment f hf).ahead
    unfold RecvFragment.endOffset at hahead
    omega
  buffered := h.counted.sum_eq
  capped := h.counted.le_cap
  front := by
    intro f hf
    have hmem := List.mem_of_find?_eq_some hf
    have hle : f.offset + f.consumed ≤ s.recvOffset := by
      simpa using List.find?_some hf
    have hcons := (h.tree.fragment f hmem).consumed_eq
    omega

theorem recvInv_init (streamId : Nat) : RecvInv { streamId } :=
  ⟨treeOk_nil 0, ⟨List.Pairwise.nil, rfl, Nat.zero_le _⟩⟩

/-- Marking a FIN keeps the tree well formed, unless it would put a
marker inside a fragment. -/
theorem treeOk_finMarked {hi : Nat} {last : Option Nat}
    (h : TreeOk s.recvOffset s.recvFragmentsTree) (hge : s.recvOffset ≤ hi)
    (hlt : hi < 2 ^ 64)
    (hout : last = none → hi ≠ s.recvOffset →
      ∀ g ∈ s.recvFragmentsTree, g.offset < hi → g.endOffset ≤ hi)
    (hm : FinMarked s hi last s') :
    s'.recvOffset = s.recvOffset ∧ TreeOk s.recvOffset s'.recvFragmentsTree := by
  cases hm with
  | inserted o => exact ⟨rfl, h.map_finAt o⟩
  | tail hf hend => exact ⟨rfl, h.map_finAt _⟩
  | consumed hrecv => exact ⟨rfl, h⟩
  | refused hne hf hoff => exact ⟨rfl, h⟩
  | marker hne hsame _ htree =>
    refine ⟨hsame.recvOffset, ?_⟩
    rw [htree]
    refine h.put ⟨?_, hlt, Or.inr ⟨rfl, hge⟩⟩ (hout rfl hne) ?_
    · exact (Nat.sub_eq_zero_of_le hge).symm
    · intro g _ hlt'
      exact hlt'.le

theorem treeOk_onFrame {frame : FrameStream} (h : TreeOk s.recvOffset s.recvFragmentsTree)
    (hok : Tolerable s (.frame frame)) :
    TreeOk (s.onFrame frame).2.recvOffset (s.onFrame frame).2.recvFragmentsTree := by
  by_cases hreset : s.resetByPeer = true
  · rw [onFrame, if_pos hreset]
    exact h
  by_cases hid : frame.streamId = s.streamId
  case neg =>
    rw [onFrame, if_neg hreset, if_pos hid]
    exact h
  obtain ⟨hend, hhide⟩ : frame.streamOffset + frame.streamData.length < 2 ^ 64
      ∧ ¬ HidesPredecessor s frame := by
    rcases hok with h1 | h1 | h1
    · exact absurd h1 hreset
    · exact absurd hid h1
    · exact h1
  rcases onFrame_arrived h (by simpa using hreset) hid hend with
    ⟨-, -, heq⟩ | ⟨lo, D, hlo, hD, hsum, harr⟩
  · rw [heq]
    simp only
    split
    · simpa using h
    · exact h
  have hge : s.recvOffset ≤ lo + D.length := by omega
  generalize s.onFrame frame = q at harr
  cases harr with
  | full hfill _ =>
    rw [hfill.same.recvOffset]
    exact hfill.tree
  | @plain s₁ _ _ hfill =>
    have htree : TreeOk s₁.recvOffset s₁.recvFragmentsTree := by
      rw [hfill.same.recvOffset]
      exact hfill.tree
    simp only [maybeNotifyClosed_recvOffset, maybeNotifyClosed_tree,
      maybeAdvancePeerFin_recvOffset]
    exact treeOk_maybeAdvancePeerFin htree
  | @fin s₁ s₂ last hfin hfill hmark =>
    have hrecv := hfill.same.recvOffset
    have htree : TreeOk s₁.recvOffset s₁.recvFragmentsTree := by
      rw [hrecv]
      exact hfill.tree
    -- with no piece inserted the frame brought nothing new, so a marker
    -- inside a fragment is exactly what the condition excludes
    have hout : last = none → lo + D.length ≠ s₁.recvOffset →
        ∀ g ∈ s₁.recvFragmentsTree, g.offset < lo + D.length →
        g.endOffset ≤ lo + D.length := by
      intro hnone hne g hg hlt
      have hsame := hfill.last_none hnone
      by_contra hcross
      refine hhide ⟨hfin, by omega, ?_, g, ?_, by omega, by omega⟩
      · intro x hx hx'
        rw [← hsame]
        exact hfill.filled x (by omega) (by omega)
      · rw [← hsame]
        exact hg
    obtain ⟨hr₂, htree₂⟩ :=
      treeOk_finMarked htree (by omega) (by omega) hout hmark
    simp only [maybeNotifyClosed_recvOffset, maybeNotifyClosed_tree,
      maybeAdvancePeerFin_recvOffset]
    refine treeOk_maybeAdvancePeerFin ?_
    rw [hr₂]
    exact htree₂

-- ==== one step

theorem RecvInv.congr (h : RecvInv s)
    (htree : s'.recvFragmentsTree = s.recvFragmentsTree)
    (hrecv : s'.recvOffset = s.recvOffset)
    (hbuf : s'.recvBufferedBytes = s.recvBufferedBytes) : RecvInv s' := by
  refine ⟨?_, ?_, ?_, ?_⟩
  · rw [htree, hrecv]
    exact h.tree
  · rw [htree]
    exact h.counted.sorted
  · rw [htree, hbuf]
    exact h.counted.sum_eq
  · rw [hbuf]
    exact h.counted.le_cap

theorem RecvInv.maybeNotifyClosed (h : RecvInv s) : RecvInv s.maybeNotifyClosed :=
  h.congr (by simp) (by simp) (by simp)

theorem RecvInv.maybeAdvancePeerFin (h : RecvInv s) : RecvInv s.maybeAdvancePeerFin := by
  refine ⟨?_, h.counted.maybeAdvancePeerFin⟩
  rw [maybeAdvancePeerFin_recvOffset]
  exact treeOk_maybeAdvancePeerFin h.tree

theorem RecvInv.consume (h : RecvInv s) (want : Nat) :
    RecvInv (consume s.recvFragmentsTree want s).2 :=
  ⟨(consume_consumed _ want s h.tree).tree,
    consume_counted _ want s h.counted.sorted h.counted.sum_eq h.counted.le_cap⟩

theorem RecvInv.onFrame {frame : FrameStream} (h : RecvInv s)
    (hok : Tolerable s (.frame frame)) : RecvInv (s.onFrame frame).2 :=
  ⟨treeOk_onFrame h.tree hok, h.counted.onFrame frame⟩

theorem RecvInv.read (h : RecvInv s) (capacity : Nat) : RecvInv (s.read capacity).2 := by
  unfold StreamImpl.read
  split
  · exact h
  simp only
  split
  · exact h.maybeAdvancePeerFin
  · exact (h.consume _).maybeAdvancePeerFin.maybeNotifyClosed

theorem RecvInv.commitReadViews (h : RecvInv s) (bytes : Nat) :
    RecvInv (s.commitReadViews bytes).2 := by
  unfold StreamImpl.commitReadViews
  split
  · exact h.maybeAdvancePeerFin.maybeNotifyClosed
  split
  · exact h
  simp only
  split
  · exact h.consume _
  · exact (h.consume _).maybeAdvancePeerFin.maybeNotifyClosed

theorem recvInv_of_cleared (htree : s'.recvFragmentsTree = [])
    (hbuf : s'.recvBufferedBytes = 0) : RecvInv s' := by
  refine ⟨?_, ?_, ?_, ?_⟩
  · rw [htree]
    exact treeOk_nil _
  · rw [htree]
    exact List.Pairwise.nil
  · rw [htree, hbuf]
    rfl
  · rw [hbuf]
    exact Nat.zero_le _

theorem recvInv_step (s : StreamImpl) (op : Op) (h : RecvInv s) (hok : Tolerable s op) :
    RecvInv (s.step op) := by
  cases op with
  | frame frame => exact h.onFrame hok
  | read capacity => exact h.read capacity
  | acquireReadViews maxBytes => exact h
  | commitReadViews bytes => exact h.commitReadViews bytes
  | commitWrite fin =>
    simp only [step, commitWrite]
    split
    · exact h
    · exact RecvInv.maybeNotifyClosed (h.congr rfl rfl rfl)
  | flushFin =>
    simp only [step, flushFin]
    split
    · exact h.congr rfl rfl rfl
    · exact h
  | reset sent =>
    simp only [step, reset]
    split
    · exact h
    split
    · exact h
    · exact RecvInv.maybeNotifyClosed (recvInv_of_cleared rfl rfl)
  | onReset errorCode fromPeer =>
    exact RecvInv.maybeNotifyClosed (recvInv_of_cleared rfl rfl)

-- ==== every run

/-- Whatever the peer sends and the application does: as long as no frame
wraps or hides a predecessor, the fragment tree is in order in every
state the stream reaches. -/
theorem fragmentsOk_of_run (streamId : Nat) (ops : List Op)
    (hok : Meets step Tolerable { streamId } ops) :
    FragmentsOk (run step { streamId } ops) :=
  (run_inv recvInv_step (recvInv_init streamId) hok).fragmentsOk

/-- Overlapping, reordered and contradictory frames, a marker beyond the
buffered bytes, and reads in between. -/
theorem fragmentsOk_contradictory_fins :
    FragmentsOk (run step { streamId := 4 }
      [.frame ⟨1, 4, 6, [6, 7]⟩, .frame ⟨0, 4, 2, [2, 3, 4, 5, 6]⟩,
       .frame ⟨1, 4, 9, []⟩, .frame ⟨0, 4, 0, [0, 1, 2]⟩, .read 3,
       .frame ⟨1, 4, 0, [0, 1, 2, 3, 4, 5, 6, 7]⟩, .commitReadViews 4]) :=
  fragmentsOk_of_run 4 _ (by decide)

/-- The bytes `[5, 15)`, a bare FIN at 10, and the bytes `[12, 20)`: the
marker at 10 is taken for the predecessor of the third frame, and bytes
12 to 14 are buffered twice. -/
def hiddenPredecessor : List Op :=
  [.frame ⟨0, 4, 5, List.replicate 10 0⟩, .frame ⟨1, 4, 10, []⟩,
   .frame ⟨0, 4, 12, List.replicate 8 0⟩]

theorem hiddenPredecessor_tree :
    (run step { streamId := 4 } hiddenPredecessor).recvFragmentsTree =
      [{ data := List.replicate 10 0, offset := 5 },
       { data := [], offset := 10, fin := true },
       { data := List.replicate 8 0, offset := 12 }] := by
  decide

theorem not_fragmentsOk_hiddenPredecessor :
    ¬ FragmentsOk (run step { streamId := 4 } hiddenPredecessor) := by
  intro h
  have hdis := h.disjoint
  rw [hiddenPredecessor_tree] at hdis
  have hpair := (List.pairwise_cons.mp hdis).1
    { data := List.replicate 8 0, offset := 12 } (by simp)
  exact hpair 12 (by decide) (by decide) (by decide) (by decide)

end Eular.Utp
