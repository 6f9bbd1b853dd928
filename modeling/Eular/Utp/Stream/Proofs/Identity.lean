/-
A stream keeps its id.

Nothing that happens to a `StreamImpl` writes `m_streamId`. The table of
a connection is keyed by it, so this is what makes storing a stream after
a call the same as changing it in place.
-/
import Eular.Utp.Stream.Proofs.Consume

namespace Eular.Utp.StreamImpl

open Lib

variable {s : StreamImpl}

-- ==== arrival

theorem insertRecvFragment_streamId (s : StreamImpl) (fragment : RecvFragment) :
    (s.insertRecvFragment fragment).stream.streamId = s.streamId := by
  unfold insertRecvFragment
  split
  · rfl
  · simp only
    split
    · split <;> rfl
    · rfl

theorem fillGaps_streamId {frameFin : Bool} {originalEnd : Nat} {tree : List RecvFragment} :
    ∀ {cursor : Nat} {data : List UInt8} {s : StreamImpl} {insertedLast : Option Nat},
      (fillGaps frameFin originalEnd tree cursor data s insertedLast).stream.streamId
        = s.streamId := by
  induction tree with
  | nil =>
    intro cursor data s insertedLast
    unfold fillGaps
    split
    · rfl
    · exact insertRecvFragment_streamId ..
  | cons iter rest ih =>
    intro cursor data s insertedLast
    unfold fillGaps
    split
    · rfl
    · split
      · exact insertRecvFragment_streamId ..
      · split
        · simp only
          split
          · rw [ih]
            exact insertRecvFragment_streamId ..
          · exact insertRecvFragment_streamId ..
        · rw [ih]

theorem placeFin_streamId (s : StreamImpl) (originalEnd : Nat) :
    (s.placeFin originalEnd).2.streamId = s.streamId := by
  unfold placeFin
  split
  · rfl
  · exact insertRecvFragment_streamId ..

theorem markFin_streamId (s : StreamImpl) (originalEnd : Nat) (insertedLast : Option Nat) :
    (s.markFin originalEnd insertedLast).2.streamId = s.streamId := by
  unfold markFin
  split
  · rfl
  · split
    · split
      · rfl
      · exact placeFin_streamId ..
    · exact placeFin_streamId ..

theorem advancePeerFin_streamId (tree : List RecvFragment) :
    ∀ s : StreamImpl, (advancePeerFin tree s).streamId = s.streamId := by
  induction tree with
  | nil =>
    intro s
    rfl
  | cons f rest ih =>
    intro s
    unfold advancePeerFin
    split
    · rw [ih]
    · rfl

theorem storeFrame_streamId (s : StreamImpl) (frameFin : Bool) (frameOffset : Nat)
    (data : List UInt8) :
    (s.storeFrame frameFin frameOffset data).2.streamId = s.streamId := by
  have hfill : (s.startFill frameFin frameOffset data).stream.streamId = s.streamId :=
    fillGaps_streamId
  unfold storeFrame
  simp only
  generalize s.startFill frameFin frameOffset data = r at hfill ⊢
  have hmark : (if frameFin then
      r.stream.markFin (add64 frameOffset data.length) r.insertedLast
      else (.success, r.stream)).2.streamId = s.streamId := by
    split
    · rw [markFin_streamId, hfill]
    · exact hfill
  generalize (if frameFin then
      r.stream.markFin (add64 frameOffset data.length) r.insertedLast
      else (.success, r.stream)) = m at hmark ⊢
  split
  · split
    · rw [maybeNotifyClosed_streamId, maybeAdvancePeerFin, advancePeerFin_streamId, hmark]
    · exact hmark
  · exact hfill

theorem onFrame_streamId (s : StreamImpl) (frame : FrameStream) :
    (s.onFrame frame).2.streamId = s.streamId := by
  unfold onFrame
  split
  · rfl
  · split
    · rfl
    · simp only
      split
      · split
        · split
          · rw [maybeNotifyClosed_streamId]
          · rfl
        · exact storeFrame_streamId ..
      · exact storeFrame_streamId ..

-- ==== consumption

theorem consume_streamId (tree : List RecvFragment) :
    ∀ (want : Nat) (s : StreamImpl), (consume tree want s).2.streamId = s.streamId := by
  induction tree with
  | nil =>
    intro want s
    rfl
  | cons f rest ih =>
    intro want s
    unfold consume
    split
    · rfl
    · simp only
      split
      · exact ih _ _
      · rfl

theorem settled_streamId (s : StreamImpl) :
    s.maybeAdvancePeerFin.maybeNotifyClosed.streamId = s.streamId := by
  rw [maybeNotifyClosed_streamId, maybeAdvancePeerFin, advancePeerFin_streamId]

theorem read_streamId (s : StreamImpl) (capacity : Nat) :
    (s.read capacity).2.streamId = s.streamId := by
  unfold read
  split
  · rfl
  · simp only
    split
    · exact advancePeerFin_streamId ..
    · rw [settled_streamId, consume_streamId]

theorem commitReadViews_streamId (s : StreamImpl) (bytes : Nat) :
    (s.commitReadViews bytes).2.streamId = s.streamId := by
  unfold commitReadViews
  split
  · exact settled_streamId s
  · split
    · rfl
    · simp only
      split
      · exact consume_streamId ..
      · rw [settled_streamId, consume_streamId]

-- ==== steps

theorem onReset_streamId (s : StreamImpl) (errorCode : Nat) (fromPeer : Bool) :
    (s.onReset errorCode fromPeer).streamId = s.streamId := by
  unfold onReset
  rw [maybeNotifyClosed_streamId]
  rfl

theorem step_streamId (s : StreamImpl) (op : Op) : (s.step op).streamId = s.streamId := by
  cases op with
  | frame frame => exact onFrame_streamId s frame
  | read capacity => exact read_streamId s capacity
  | acquireReadViews maxBytes => rfl
  | commitReadViews bytes => exact commitReadViews_streamId s bytes
  | commitWrite fin =>
    unfold step commitWrite
    simp only
    split
    · rfl
    · rw [maybeNotifyClosed_streamId]
  | flushFin =>
    unfold step flushFin
    simp only
    split <;> rfl
  | reset sent =>
    unfold step reset
    simp only
    split
    · rfl
    · split
      · rfl
      · rw [maybeNotifyClosed_streamId]
        rfl
  | onReset errorCode fromPeer => exact onReset_streamId s errorCode fromPeer

end Eular.Utp.StreamImpl
