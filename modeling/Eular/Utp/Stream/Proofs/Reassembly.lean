/-
Reassembly is exact.

A `Session` is a stream together with what its application has seen of
it: the bytes `read` copied out and `commitReadViews` released, and the
part of the last `acquireReadViews` that is still ahead. For an honest
sender of `S` (Honest.lean) the bytes returned are always a prefix of
`S`, `read` answers `0` only at the end, and once frames that cover `S`
have been accepted, reading returns the rest of it and then `0`.

# Why an early FIN mark does no harm here

The FIN branch of `onFrame` may mark a fragment in the middle of `S`
(PeerFin.lean). `read` nevertheless does not end early, because a mark
is only placed after the whole frame was stored: behind a marked
fragment every byte up to the end of `S` is buffered (`FinInv.mark`), so
whenever a byte is still to come there are contiguous bytes to return,
and `read` looks at these before it looks at `peerFin`.

# What the buffer cap is needed for

A frame that meets a full buffer is stored in part and answered
`WOULD_BLOCK`. The prefix property and the end of the stream are not
affected; only the last part, that everything that arrived will be
returned, asks that every frame fits the cap: the bytes that are buffered
when it arrives, and those of its bytes that are neither consumed nor
buffered yet. `onFrame_reassembly` shows that such a frame is taken.
-/
import Eular.Utp.Stream.Proofs.Honest

namespace Eular.Utp

open Lib StreamImpl

variable {capacity : Nat}

-- ==== the cap

/-- The bytes of a frame that are neither consumed nor buffered. -/
def newBytes (s : StreamImpl) (frame : FrameStream) : Nat :=
  missing s.recvFragmentsTree (max frame.streamOffset s.recvOffset)
    (frame.streamData.length - (s.recvOffset - frame.streamOffset))

/-- With the frame, no more than 2 MiB are buffered. -/
def WithinCap (s : StreamImpl) (frame : FrameStream) : Prop :=
  s.recvBufferedBytes + newBytes s frame ≤ kMaxRecvFragmentBytes

instance (s : StreamImpl) (frame : FrameStream) : Decidable (WithinCap s frame) :=
  Nat.decLe _ _

-- ==== sessions

/-- A stream and what its application has seen of it. -/
structure Session where
  stream : StreamImpl
  /-- the bytes `read` and `commitReadViews` handed over, in order -/
  returned : List UInt8 := []
  /-- the bytes of the last views that were not consumed since -/
  views : List UInt8 := []
  /-- the STREAM frames that arrived -/
  frames : List FrameStream := []
  /-- some frame met a buffer it exceeded the cap of -/
  exceeded : Bool := false

/-- What can happen in a session. -/
inductive SessionOp where
  | frame (frame : FrameStream)
  | read (capacity : Nat)
  | acquireReadViews (maxBytes : Nat)
  | commitReadViews (bytes : Nat)
deriving DecidableEq, Repr

/-- The bytes a `read` returned. -/
def bytesRead : Except Status (List UInt8) → List UInt8
  | .ok bytes => bytes
  | .error _ => []

def Session.step (σ : Session) : SessionOp → Session
  | .frame frame =>
    let q := σ.stream.onFrame frame
    { σ with
      stream := q.2
      frames := σ.frames ++ [frame]
      exceeded := σ.exceeded || !decide (WithinCap σ.stream frame) }
  | .read capacity =>
    let q := σ.stream.read capacity
    { σ with
      stream := q.2
      returned := σ.returned ++ bytesRead q.1
      views := σ.views.drop (bytesRead q.1).length }
  | .acquireReadViews maxBytes =>
    { σ with views := (σ.stream.acquireReadViews maxBytes).flatten }
  | .commitReadViews bytes =>
    let q := σ.stream.commitReadViews bytes
    match q.1 with
    | .ok n =>
      { σ with
        stream := q.2
        returned := σ.returned ++ σ.views.take n
        views := σ.views.drop n }
    | .error _ => { σ with stream := q.2 }

/-- Honest frames, and an application that commits at most what it was
shown. -/
def Session.Fair (S : List UInt8) (σ : Session) : SessionOp → Prop
  | .frame frame => frame.streamId = σ.stream.streamId ∧ HonestFrame S frame
  | .commitReadViews bytes => bytes ≤ σ.views.length
  | _ => True

instance Session.Fair.decidable (S : List UInt8) (σ : Session) :
    ∀ op, Decidable (σ.Fair S op)
  | .frame _ => inferInstanceAs (Decidable (_ ∧ _))
  | .commitReadViews _ => inferInstanceAs (Decidable (_ ≤ _))
  | .read _ | .acquireReadViews _ => isTrue trivial

/-- Read with one capacity after the other. -/
def readAll (s : StreamImpl) : List Nat → List UInt8 × StreamImpl
  | [] => ([], s)
  | capacity :: rest =>
    let q := s.read capacity
    let r := readAll q.2 rest
    (bytesRead q.1 ++ r.1, r.2)

/-- Every byte of `S` is in some frame. -/
def Covers (S : List UInt8) (frames : List FrameStream) : Prop :=
  ∀ x < S.length, ∃ f ∈ frames,
    f.streamOffset ≤ x ∧ x < f.streamOffset + f.streamData.length

variable {S : List UInt8} {s : StreamImpl} {frame : FrameStream}

-- ==== FIN and coverage

/-- What FIN marks promise, `seen` being that a FIN frame arrived: behind
a mark nothing is missing. -/
structure FinInv (S : List UInt8) (seen : Prop) (s : StreamImpl) : Prop where
  mark : ∀ f ∈ s.recvFragmentsTree, f.fin = true →
    seen ∧ ∀ x, f.endOffset ≤ x → x < S.length → Held s.recvFragmentsTree x
  peer : s.peerFin = true →
    seen ∧ ∀ x, s.recvOffset ≤ x → x < S.length → Held s.recvFragmentsTree x

/-- A FIN was recorded and is not lost. -/
def FinKept (s : StreamImpl) : Prop :=
  s.peerFin = true ∨ ∃ f ∈ s.recvFragmentsTree, f.fin = true

/-- Byte `x` was consumed or is buffered. -/
def Covered (s : StreamImpl) (x : Nat) : Prop :=
  x < s.recvOffset ∨ Held s.recvFragmentsTree x

/-- `s'` still has what `s` had. -/
structure Keeps (s s' : StreamImpl) : Prop where
  covered : ∀ x, Covered s x → Covered s' x
  finKept : FinKept s → FinKept s'

variable {seen seen' : Prop} {s' : StreamImpl}

theorem Keeps.refl (s : StreamImpl) : Keeps s s := ⟨fun _ h => h, fun h => h⟩

theorem Keeps.trans {s₁ s₂ s₃ : StreamImpl} (h : Keeps s₁ s₂) (h' : Keeps s₂ s₃) :
    Keeps s₁ s₃ :=
  ⟨fun x hx => h'.covered x (h.covered x hx), fun hf => h'.finKept (h.finKept hf)⟩

theorem FinInv.mono (h : FinInv S seen s) (himp : seen → seen') : FinInv S seen' s where
  mark f hf hfin := ⟨himp (h.mark f hf hfin).1, (h.mark f hf hfin).2⟩
  peer hp := ⟨himp (h.peer hp).1, (h.peer hp).2⟩

-- -------------------------------------------------- the closing bookkeeping

theorem FinInv.maybeNotifyClosed (h : FinInv S seen s) :
    FinInv S seen s.maybeNotifyClosed where
  mark := by simpa using h.mark
  peer := by simpa using h.peer

theorem keeps_maybeNotifyClosed (s : StreamImpl) : Keeps s s.maybeNotifyClosed := by
  refine ⟨fun x hx => ?_, fun hf => ?_⟩
  · simpa [Covered] using hx
  · simpa [FinKept] using hf

theorem held_maybeAdvancePeerFin (h : TreeOk s.recvOffset s.recvFragmentsTree) {x : Nat}
    (hx : Held s.recvFragmentsTree x) : Held s.maybeAdvancePeerFin.recvFragmentsTree x := by
  obtain ⟨dropped, htree, hdropped, -⟩ := advancePeerFin_spec s.recvFragmentsTree s
  obtain ⟨f, hf, hfx⟩ := hx
  have hf' := hf
  rw [htree] at hf'
  rcases List.mem_append.mp hf' with hd | ht
  · have hlen := ((h.fragment f hf).len_eq_zero (hdropped f hd).2).1
    unfold RecvFragment.endOffset at hfx
    omega
  · exact ⟨f, ht, hfx⟩

theorem keeps_maybeAdvancePeerFin (h : TreeOk s.recvOffset s.recvFragmentsTree) :
    Keeps s s.maybeAdvancePeerFin := by
  refine ⟨?_, ?_⟩
  · intro x hx
    unfold Covered at hx ⊢
    rw [maybeAdvancePeerFin_recvOffset]
    exact hx.imp id (held_maybeAdvancePeerFin h)
  · obtain ⟨dropped, htree, -, heq⟩ := advancePeerFin_spec s.recvFragmentsTree s
    rintro (hp | ⟨f, hf, hfin⟩)
    · refine Or.inl ?_
      rw [StreamImpl.maybeAdvancePeerFin, heq]
      simp only [hp, Bool.true_or]
    · rw [htree] at hf
      rcases List.mem_append.mp hf with hd | ht
      · refine Or.inl ?_
        have hany : dropped.any RecvFragment.fin = true := List.any_eq_true.mpr ⟨f, hd, hfin⟩
        rw [StreamImpl.maybeAdvancePeerFin, heq]
        simp only [hany, Bool.or_true]
      · exact Or.inr ⟨f, ht, hfin⟩

theorem FinInv.maybeAdvancePeerFin (h : FinInv S seen s)
    (htreeOk : TreeOk s.recvOffset s.recvFragmentsTree) :
    FinInv S seen s.maybeAdvancePeerFin := by
  obtain ⟨dropped, htree, hdropped, heq⟩ := advancePeerFin_spec s.recvFragmentsTree s
  refine ⟨?_, ?_⟩
  · intro f hf hfin
    have hmem : f ∈ s.recvFragmentsTree := by
      rw [htree]
      exact List.mem_append_right _ hf
    obtain ⟨hseen, hbehind⟩ := h.mark f hmem hfin
    exact ⟨hseen, fun x h1 h2 => held_maybeAdvancePeerFin htreeOk (hbehind x h1 h2)⟩
  · intro hp
    rw [maybeAdvancePeerFin_recvOffset]
    rw [StreamImpl.maybeAdvancePeerFin, heq] at hp
    rcases Bool.or_eq_true_iff.mp hp with hp | hany
    · obtain ⟨hseen, hbehind⟩ := h.peer hp
      exact ⟨hseen, fun x h1 h2 => held_maybeAdvancePeerFin htreeOk (hbehind x h1 h2)⟩
    · -- a dropped FIN marker ends at `recvOffset`
      obtain ⟨f, hf, hfin⟩ := List.any_eq_true.mp hany
      have hmem : f ∈ s.recvFragmentsTree := by
        rw [htree]
        exact List.mem_append_left _ hf
      have hok := htreeOk.fragment f hmem
      have hlen := hok.len_eq_zero (hdropped f hf).2
      have hlog := hok.logicalOffset
      rw [(hdropped f hf).1] at hlog
      obtain ⟨hseen, hbehind⟩ := h.mark f hmem hfin
      refine ⟨hseen, fun x h1 h2 => held_maybeAdvancePeerFin htreeOk (hbehind x ?_ h2)⟩
      unfold RecvFragment.endOffset
      omega

-- -------------------------------------------------------------- consumption

theorem FinInv.consume (h : FinInv S seen s)
    (htree : TreeOk s.recvOffset s.recvFragmentsTree) (want : Nat) :
    FinInv S seen (consume s.recvFragmentsTree want s).2 := by
  have hc := consume_consumed s.recvFragmentsTree want s htree
  generalize StreamImpl.consume s.recvFragmentsTree want s = q at hc ⊢
  have hrecv := hc.recvOffset
  refine ⟨?_, ?_⟩
  · intro f' hf' hfin'
    obtain ⟨f, hf, hoff, hdata, hfin⟩ := hc.origin f' hf'
    have hend : f'.endOffset = f.endOffset := by
      rw [RecvFragment.endOffset, RecvFragment.len, hoff, hdata]
      rfl
    obtain ⟨hseen, hbehind⟩ := h.mark f hf (hfin ▸ hfin')
    refine ⟨hseen, fun x h1 h2 => hc.held x ?_ (hbehind x (hend ▸ h1) h2)⟩
    have hahead := (hc.tree.fragment f' hf').ahead
    have hdef : f'.endOffset = f'.offset + f'.len := rfl
    omega
  · intro hp
    rcases hc.peerFin hp with hp | ⟨f, hf, hfin, hend⟩
    · obtain ⟨hseen, hbehind⟩ := h.peer hp
      exact ⟨hseen, fun x h1 h2 => hc.held x h1 (hbehind x (by omega) h2)⟩
    · obtain ⟨hseen, hbehind⟩ := h.mark f hf hfin
      exact ⟨hseen, fun x h1 h2 => hc.held x h1 (hbehind x (by omega) h2)⟩

theorem keeps_consume (htree : TreeOk s.recvOffset s.recvFragmentsTree) (want : Nat) :
    Keeps s (consume s.recvFragmentsTree want s).2 := by
  have hc := consume_consumed s.recvFragmentsTree want s htree
  generalize StreamImpl.consume s.recvFragmentsTree want s = q at hc ⊢
  have hrecv := hc.recvOffset
  refine ⟨?_, ?_⟩
  · intro x hx
    rcases Nat.lt_or_ge x q.2.recvOffset with hlt | hge
    · exact Or.inl hlt
    · rcases hx with hx | hx
      · exact Or.inl (by omega)
      · exact Or.inr (hc.held x hge hx)
  · rintro (hp | ⟨f, hf, hfin⟩)
    · exact Or.inl (hc.peerFin_mono hp)
    · exact hc.fin f hf hfin

-- ---------------------------------------------------------------- arrival

section Arrival

variable {lo c : Nat} {D : List UInt8} {s₁ s₂ : StreamImpl} {last : Option Nat}

theorem FinInv.filling (h : FinInv S seen s) (hseen : frame.isFin = true → seen)
    (hend : frame.isFin = true → lo + D.length = S.length)
    (hfill : Filling s lo D frame.isFin c s₁ last) : FinInv S seen s₁ := by
  refine ⟨?_, ?_⟩
  · intro f hf hfin
    rcases hfill.origin f hf with hf | hpiece
    · obtain ⟨hs, hbehind⟩ := h.mark f hf hfin
      exact ⟨hs, fun x h1 h2 => hfill.held (hbehind x h1 h2)⟩
    · obtain ⟨hff, hlast⟩ := hpiece.fin hfin
      refine ⟨hseen hff, fun x h1 h2 => ?_⟩
      have := hend hff
      omega
  · intro hp
    rw [hfill.same.peerFin] at hp
    rw [hfill.same.recvOffset]
    obtain ⟨hs, hbehind⟩ := h.peer hp
    exact ⟨hs, fun x h1 h2 => hfill.held (hbehind x h1 h2)⟩

/-- A FIN marker of an honest sender lies at the end of `S`, where no
piece of a frame can replace it. -/
theorem keeps_filling (hfrag : ∀ f ∈ s.recvFragmentsTree, HonestFragment S f)
    (hle : lo + D.length ≤ S.length)
    (hfill : Filling s lo D frame.isFin c s₁ last) : Keeps s s₁ := by
  refine ⟨?_, ?_⟩
  · intro x hx
    unfold Covered at hx ⊢
    rw [hfill.same.recvOffset]
    exact hx.imp id hfill.held
  · rintro (hp | ⟨f, hf, hfin⟩)
    · refine Or.inl ?_
      rw [hfill.same.peerFin]
      exact hp
    · refine Or.inr ⟨f, hfill.kept f hf ?_, hfin⟩
      by_cases hlen : f.len = 0
      · refine Or.inr ?_
        rw [((hfrag f hf).marker hlen).2]
        exact hle
      · exact Or.inl hlen

/-- After `setFin` the fragment at `o` carries the mark, and the others
are as before. -/
theorem finInv_setFin (h : FinInv S seen s₁) (hs : seen) {o : Nat}
    (hbehind : ∀ f ∈ s₁.recvFragmentsTree, f.offset = o →
      ∀ x, f.endOffset ≤ x → x < S.length → Held s₁.recvFragmentsTree x) :
    FinInv S seen (s₁.setFin o) := by
  refine ⟨?_, ?_⟩
  · intro f hf hfin
    rw [setFin_tree] at hf ⊢
    obtain ⟨g, hg, rfl⟩ := List.mem_map.mp hf
    refine ⟨hs, fun x h1 h2 => (held_map_finAt o x).mpr ?_⟩
    rw [finAt_endOffset] at h1
    by_cases hgo : g.offset = o
    · exact hbehind g hg hgo x h1 h2
    · rw [finAt, if_neg hgo] at hfin
      exact (h.mark g hg hfin).2 x h1 h2
  · intro hp
    obtain ⟨hs', hall⟩ := h.peer hp
    exact ⟨hs', fun x h1 h2 => (held_map_finAt o x).mpr (hall x h1 h2)⟩

theorem keeps_setFin (s₁ : StreamImpl) (o : Nat) : Keeps s₁ (s₁.setFin o) := by
  refine ⟨?_, ?_⟩
  · rintro x (hx | hx)
    · exact Or.inl hx
    · exact Or.inr ((held_map_finAt o x).mpr hx)
  · rintro (hp | ⟨f, hf, hfin⟩)
    · exact Or.inl hp
    · refine Or.inr ⟨finAt o f, List.mem_map_of_mem hf, ?_⟩
      unfold finAt
      split
      · rfl
      · exact hfin

theorem finKept_setFin {f : RecvFragment} (hf : f ∈ s₁.recvFragmentsTree) :
    FinKept (s₁.setFin f.offset) := by
  refine Or.inr ⟨finAt f.offset f, List.mem_map_of_mem hf, ?_⟩
  rw [finAt, if_pos rfl]

theorem finInv_finMarked (h : FinInv S seen s₁) (hs : seen)
    (hfrag : ∀ f ∈ s₁.recvFragmentsTree, HonestFragment S f)
    (hend : lo + D.length = S.length)
    (hfill : Filling s lo D frame.isFin (lo + D.length) s₁ last)
    (hmark : FinMarked s₁ (lo + D.length) last s₂) :
    FinInv S seen s₂ ∧ Keeps s₁ s₂ ∧ FinKept s₂ := by
  cases hmark with
  | inserted o =>
    obtain ⟨g, hg, rfl, hpiece, -, -⟩ := hfill.last_some o rfl
    refine ⟨finInv_setFin h hs ?_, keeps_setFin s₁ _, finKept_setFin hg⟩
    -- the whole frame is stored, so what follows the piece is there
    intro f hf hfo x h1 h2
    rw [hfill.tree.sorted.eq_of_key hf hg hfo] at h1
    have hge := hpiece.ge
    have hdef : g.endOffset = g.offset + g.len := rfl
    exact hfill.filled x (by omega) (by omega)
  | @tail g hg hgend =>
    refine ⟨finInv_setFin h hs ?_, keeps_setFin s₁ _, finKept_setFin hg⟩
    intro f hf hfo x h1 h2
    rw [hfill.tree.sorted.eq_of_key hf hg hfo] at h1
    omega
  | consumed heq =>
    refine ⟨⟨h.mark, fun _ => ⟨hs, fun x h1 h2 => ?_⟩⟩, ⟨fun _ hx => hx, fun _ => Or.inl rfl⟩,
      Or.inl rfl⟩
    simp only at h1
    omega
  | @refused _ g hg hgoff =>
    refine ⟨h, Keeps.refl _, Or.inr ⟨g, hg, ((hfrag g hg).marker ?_).1⟩⟩
    have hle := (hfrag g hg).le
    unfold RecvFragment.endOffset at hle
    omega
  | marker hne hsame hfresh htree =>
    have hmem : ∀ f, f ∈ s₂.recvFragmentsTree ↔
        f = { data := [], offset := lo + D.length, fin := true }
          ∨ f ∈ s₁.recvFragmentsTree ∧ f.offset ≠ lo + D.length := by
      intro f
      rw [htree]
      exact mem_put hfill.tree.sorted
    have hstay : ∀ f ∈ s₁.recvFragmentsTree, f ∈ s₂.recvFragmentsTree :=
      fun f hf => (hmem f).mpr (Or.inr ⟨hf, hfresh f hf⟩)
    refine ⟨⟨?_, ?_⟩, ⟨?_, ?_⟩, ?_⟩
    · intro f hf hfin
      rcases (hmem f).mp hf with rfl | ⟨hf, -⟩
      · refine ⟨hs, fun x h1 h2 => ?_⟩
        unfold RecvFragment.endOffset RecvFragment.len at h1
        simp only [List.length_nil] at h1
        omega
      · obtain ⟨hs', hbehind⟩ := h.mark f hf hfin
        exact ⟨hs', fun x h1 h2 => (hbehind x h1 h2).mono hstay⟩
    · rw [hsame.peerFin, hsame.recvOffset]
      intro hp
      obtain ⟨hs', hall⟩ := h.peer hp
      exact ⟨hs', fun x h1 h2 => (hall x h1 h2).mono hstay⟩
    · intro x hx
      unfold Covered at hx ⊢
      rw [hsame.recvOffset]
      exact hx.imp id (Held.mono hstay)
    · rintro (hp | ⟨f, hf, hfin⟩)
      · refine Or.inl ?_
        rw [hsame.peerFin]
        exact hp
      · exact Or.inr ⟨f, hstay f hf, hfin⟩
    · exact Or.inr ⟨_, (hmem _).mpr (Or.inl rfl), rfl⟩

end Arrival

/-- An honest frame: what was there is kept, and a frame within the cap is
taken, and is there. -/
theorem onFrame_reassembly (hinv : HonestInv S s) (h : FinInv S seen s)
    (hS : S.length < 2 ^ 64) (hid : frame.streamId = s.streamId)
    (hf : HonestFrame S frame) (hseen : frame.isFin = true → seen) :
    FinInv S seen (s.onFrame frame).2 ∧ Keeps s (s.onFrame frame).2
    ∧ (WithinCap s frame → (s.onFrame frame).1.ok = true
      ∧ (∀ x, frame.streamOffset ≤ x → x < frame.streamOffset + frame.streamData.length →
        Covered (s.onFrame frame).2 x)
      ∧ (frame.isFin = true → FinKept (s.onFrame frame).2)) := by
  rcases hinv.arrived hS hid hf with ⟨hbelow, hle, heq⟩ | ⟨lo, D, hlo, hD, hsum, harr⟩
  · rw [heq]
    by_cases hc : frame.isFin = true ∧
        frame.streamOffset + frame.streamData.length = s.recvOffset
    · simp only [if_pos hc]
      have hend := hf.fin hc.1
      have hset : FinInv S seen { s with peerFin := true } := by
        refine ⟨h.mark, fun _ => ⟨hseen hc.1, fun x h1 h2 => ?_⟩⟩
        simp only at h1
        omega
      have hk : Keeps s { s with peerFin := true } := ⟨fun _ hx => hx, fun _ => Or.inl rfl⟩
      refine ⟨hset.maybeNotifyClosed, hk.trans (keeps_maybeNotifyClosed _),
        fun _ => ⟨rfl, ?_, ?_⟩⟩
      · intro x _ h2
        refine Or.inl ?_
        rw [maybeNotifyClosed_recvOffset]
        simp only
        omega
      · intro _
        refine Or.inl ?_
        rw [maybeNotifyClosed_peerFin]
    · simp only [if_neg hc]
      refine ⟨h, Keeps.refl s, fun _ => ⟨rfl, fun x _ h2 => Or.inl (by omega), ?_⟩⟩
      intro hfin
      -- a FIN below `recvOffset` would lie beyond the end of `S`
      have h1 := hf.fin hfin
      have h2 := hinv.le
      exact absurd ⟨hfin, by omega⟩ hc
  have hend : frame.isFin = true → lo + D.length = S.length := by
    intro hfin
    rw [hsum]
    exact hf.fin hfin
  have hleS : lo + D.length ≤ S.length := by
    rw [hsum]
    exact hf.le
  have hbytes : ∀ {s₁ s₂ : StreamImpl} {last},
      Filling s lo D frame.isFin (lo + D.length) s₁ last → Keeps s₁ s₂ →
      s₂.recvOffset = s.recvOffset →
      ∀ x, frame.streamOffset ≤ x → x < frame.streamOffset + frame.streamData.length →
        Covered s₂ x := by
    intro s₁ s₂ last hfill hk hr x h1 h2
    by_cases hx : x < s.recvOffset
    · exact Or.inl (by omega)
    · exact hk.covered x (Or.inr (hfill.filled x (by omega) (by omega)))
  have hrecv := harr.flags.1
  generalize s.onFrame frame = q at harr hrecv
  cases harr with
  | full hfill hover =>
    refine ⟨h.filling hseen hend hfill, keeps_filling hinv.fragment hleS hfill, ?_⟩
    intro hcap
    unfold WithinCap newBytes at hcap
    rw [← hlo, ← List.length_drop, ← hD] at hcap
    exact absurd hcap (Nat.not_le.mpr hover)
  | @plain s₁ _ hfin hfill =>
    have hinv₁ : TreeOk s₁.recvOffset s₁.recvFragmentsTree := by
      rw [hfill.same.recvOffset]
      exact hfill.tree
    have hk := (keeps_maybeAdvancePeerFin hinv₁).trans (keeps_maybeNotifyClosed _)
    refine ⟨((h.filling hseen hend hfill).maybeAdvancePeerFin hinv₁).maybeNotifyClosed,
      (keeps_filling hinv.fragment hleS hfill).trans hk,
      fun _ => ⟨rfl, hbytes hfill hk hrecv, ?_⟩⟩
    intro hfin'
    rw [hfin] at hfin'
    simp at hfin'
  | @fin s₁ s₂ last hfin hfill hmark =>
    have hfrag : ∀ f ∈ s₁.recvFragmentsTree, HonestFragment S f := by
      intro f hf'
      rcases hfill.origin f hf' with hold | hpiece
      · exact hinv.fragment f hold
      · exact hf.piece hlo hD hsum hpiece
    have htree₁ : TreeOk s₁.recvOffset s₁.recvFragmentsTree := by
      rw [hfill.same.recvOffset]
      exact hfill.tree
    have htree₂ : TreeOk s₂.recvOffset s₂.recvFragmentsTree := by
      have hge : s₁.recvOffset ≤ lo + D.length := by
        rw [hfill.same.recvOffset]
        omega
      obtain ⟨hr₂, ht₂⟩ := treeOk_finMarked htree₁ hge (by omega)
        (fun _ _ f hf' _ => (hfrag f hf').le.trans (hend hfin).ge) hmark
      rw [hr₂]
      exact ht₂
    obtain ⟨hfin₂, hkeeps₂, hkept⟩ := finInv_finMarked
      (h.filling hseen hend hfill) (hseen hfin) hfrag (hend hfin) hfill hmark
    have hk := (keeps_maybeAdvancePeerFin htree₂).trans (keeps_maybeNotifyClosed _)
    refine ⟨(hfin₂.maybeAdvancePeerFin htree₂).maybeNotifyClosed,
      (keeps_filling hinv.fragment hleS hfill).trans (hkeeps₂.trans hk),
      fun _ => ⟨rfl, hbytes hfill (hkeeps₂.trans hk) hrecv, fun _ => hk.finKept hkept⟩⟩

-- ==== reading

/-- `read` hands over the next bytes of `S`. -/
theorem read_reassembly (hinv : HonestInv S s) (h : FinInv S seen s) (capacity : Nat) :
    HonestInv S (s.read capacity).2 ∧ FinInv S seen (s.read capacity).2
    ∧ Keeps s (s.read capacity).2
    ∧ bytesRead (s.read capacity).1
      = (S.drop s.recvOffset).take (bytesRead (s.read capacity).1).length
    ∧ (s.read capacity).2.recvOffset
      = s.recvOffset + (bytesRead (s.read capacity).1).length := by
  unfold StreamImpl.read
  split
  · exact ⟨hinv, h, Keeps.refl s, rfl, rfl⟩
  simp only
  split
  · have hnone : bytesRead (if s.maybeAdvancePeerFin.peerFin = true then Except.ok []
        else Except.error (streamErr .wouldBlock)) = [] := by
      split <;> rfl
    rw [hnone]
    exact ⟨hinv.maybeAdvancePeerFin, h.maybeAdvancePeerFin hinv.recv.tree,
      keeps_maybeAdvancePeerFin hinv.recv.tree, rfl, maybeAdvancePeerFin_recvOffset s⟩
  · obtain ⟨hinv', hbytes⟩ := hinv.consume (s.contiguousReadableBytes capacity)
    have hc := consume_consumed s.recvFragmentsTree (s.contiguousReadableBytes capacity) s
      hinv.recv.tree
    have hk := (keeps_consume hinv.recv.tree (s.contiguousReadableBytes capacity)).trans
      ((keeps_maybeAdvancePeerFin hinv'.recv.tree).trans (keeps_maybeNotifyClosed _))
    refine ⟨hinv'.maybeAdvancePeerFin.maybeNotifyClosed,
      ((h.consume hinv.recv.tree _).maybeAdvancePeerFin hinv'.recv.tree).maybeNotifyClosed,
      hk, hbytes, ?_⟩
    rw [maybeNotifyClosed_recvOffset, maybeAdvancePeerFin_recvOffset]
    exact hc.recvOffset

/-- Bytes that are there are counted: no marker of an honest sender is in
their way. -/
theorem HonestInv.le_contiguous (hinv : HonestInv S s) {capacity m : Nat}
    (hcap : m ≤ capacity) (hle : s.recvOffset + m ≤ S.length)
    (hheld : ∀ x, s.recvOffset ≤ x → x < s.recvOffset + m → Held s.recvFragmentsTree x) :
    m ≤ s.contiguousReadableBytes capacity := by
  have hcount := le_contiguousFrom capacity s.recvFragmentsTree 0 s.recvOffset m
    hinv.recv.tree (by omega) hheld ?_
  · rwa [Nat.zero_add] at hcount
  · intro f hf hlen
    rw [((hinv.fragment f hf).marker hlen).2]
    exact hle

/-- `read` answers `0` only at the end of `S`, and after a FIN. -/
theorem read_zero (hinv : HonestInv S s) (h : FinInv S seen s)
    (hzero : (s.read capacity).1 = .ok []) : s.recvOffset = S.length ∧ seen := by
  unfold StreamImpl.read at hzero
  split at hzero
  · simp at hzero
  case isFalse hcap =>
    simp only at hzero
    split at hzero
    case isTrue hcont =>
      simp only at hzero
      split at hzero
      case isFalse => simp at hzero
      case isTrue hp =>
        obtain ⟨hseen, hheld⟩ := (h.maybeAdvancePeerFin hinv.recv.tree).peer hp
        refine ⟨?_, hseen⟩
        -- were a byte to come it would be buffered, and counted
        by_contra hne
        have hlt : s.recvOffset < S.length := lt_of_le_of_ne hinv.le hne
        have hone := hinv.le_contiguous (show 1 ≤ capacity by omega) (by omega) ?_
        · omega
        · intro x h1 h2
          rw [maybeAdvancePeerFin_recvOffset] at hheld
          obtain ⟨dropped, htree, -, -⟩ := advancePeerFin_spec s.recvFragmentsTree s
          refine (hheld x h1 (by omega)).mono ?_
          intro f hf
          rw [htree]
          exact List.mem_append_right _ hf
    case isFalse hcont =>
      simp only [Except.ok.injEq] at hzero
      have hlen := consume_length capacity s.recvFragmentsTree 0
        (s.contiguousReadableBytes capacity) s (Nat.zero_le _)
        (by rw [Nat.zero_add]; exact le_refl _)
      rw [hzero, List.length_nil] at hlen
      omega

-- ==== views

/-- The next bytes of a fragment are bytes of `S`. -/
theorem HonestFragment.slice {f : RecvFragment} (hf : HonestFragment S f) {r n : Nat}
    (hlog : f.offset + f.consumed = r) (hn : f.consumed + n ≤ f.len) :
    (f.data.drop f.consumed).take n = (S.drop r).take n := by
  refine List.ext_getElem? ?_
  intro i
  by_cases hi : i < n
  · rw [List.getElem?_take_of_lt hi, List.getElem?_take_of_lt hi, List.getElem?_drop,
      List.getElem?_drop, hf.bytes _ (by omega)]
    congr 1
    omega
  · rw [List.getElem?_eq_none (by rw [List.length_take]; omega),
      List.getElem?_eq_none (by rw [List.length_take]; omega)]

private theorem viewsFrom_full (maxBytes : Nat) (t : List RecvFragment) {idx total r : Nat}
    (h : maxBytes ≤ total) : viewsFrom maxBytes t idx total r = [] := by
  cases t with
  | nil => rfl
  | cons f rest => rw [viewsFrom, if_pos (Or.inr h)]

/-- The views show the next bytes of `S`. -/
theorem viewsFrom_prefix (maxBytes : Nat) (t : List RecvFragment) :
    ∀ (idx total r : Nat), TreeOk r t → (∀ f ∈ t, HonestFragment S f) →
      (viewsFrom maxBytes t idx total r).flatten <+: S.drop r := by
  induction t with
  | nil =>
    intro idx total r _ _
    exact List.nil_prefix
  | cons f rest ih =>
    intro idx total r htree hfrag
    have hf := hfrag f List.mem_cons_self
    rw [viewsFrom]
    split
    · exact List.nil_prefix
    split
    · exact List.nil_prefix
    case isFalse hlog =>
      split
      case isTrue hrem =>
        -- an empty fragment is a FIN marker, and ends the views
        rw [if_pos (hf.marker (htree.head.len_eq_zero hrem).1).1]
        exact List.nil_prefix
      case isFalse hrem =>
        have hok := htree.head
        have hlogical := hok.logicalOffset
        have hcons := hok.consumed_eq
        have hend := hok.end_lt
        have hdef : f.endOffset = f.offset + f.len := rfl
        have hremdef : f.remaining = f.len - f.consumed := rfl
        have hlog' : f.offset + f.consumed = r := by
          have := not_not.mp hlog
          omega
        generalize hn : min f.remaining (maxBytes - total) = n
        have hslice := hf.slice hlog' (show f.consumed + n ≤ f.len by omega)
        have hsplit : (S.drop r).take n ++ S.drop (r + n) = S.drop r := by
          rw [← List.drop_drop, List.take_append_drop]
        rw [List.flatten_cons, hslice, ← hsplit, List.take_left' (by
          rw [List.length_take, List.length_drop]
          have := hf.le
          omega)]
        refine (List.prefix_append_right_inj _).mpr ?_
        rw [add64_eq (by omega)]
        rcases Nat.lt_or_ge n f.remaining with hlt | hge
        · rw [viewsFrom_full maxBytes rest (by omega)]
          exact List.nil_prefix
        · refine ih _ _ _ (treeOk_advance htree (by omega) (by omega)) ?_
          intro g hg
          exact hfrag g (List.mem_cons_of_mem _ hg)

/-- What a successful `commitReadViews` releases, and a failed one leaves. -/
theorem commitReadViews_reassembly (hinv : HonestInv S s) (h : FinInv S seen s)
    (bytes : Nat) :
    HonestInv S (s.commitReadViews bytes).2 ∧ FinInv S seen (s.commitReadViews bytes).2
    ∧ Keeps s (s.commitReadViews bytes).2
    ∧ ((s.commitReadViews bytes).1 = .ok bytes
        ∧ (s.commitReadViews bytes).2.recvOffset = s.recvOffset + bytes
      ∨ (∃ e, (s.commitReadViews bytes).1 = .error e)
        ∧ (s.commitReadViews bytes).2.recvOffset = s.recvOffset) := by
  unfold StreamImpl.commitReadViews
  split
  case isTrue hzero =>
    refine ⟨hinv.maybeAdvancePeerFin.maybeNotifyClosed,
      (h.maybeAdvancePeerFin hinv.recv.tree).maybeNotifyClosed,
      (keeps_maybeAdvancePeerFin hinv.recv.tree).trans (keeps_maybeNotifyClosed _),
      Or.inl ⟨by rw [hzero], ?_⟩⟩
    rw [maybeNotifyClosed_recvOffset, maybeAdvancePeerFin_recvOffset, hzero, Nat.add_zero]
  case isFalse hpos =>
    split
    case isTrue hover => exact ⟨hinv, h, Keeps.refl s, Or.inr ⟨⟨_, rfl⟩, rfl⟩⟩
    case isFalse hgranted =>
      have hlen := consume_length bytes s.recvFragmentsTree 0 bytes s (Nat.zero_le _)
        (by rw [Nat.zero_add]; exact not_lt.mp hgranted)
      have hinv' := (hinv.consume bytes).1
      have hc := consume_consumed s.recvFragmentsTree bytes s hinv.recv.tree
      have hk := (keeps_consume hinv.recv.tree bytes).trans
        ((keeps_maybeAdvancePeerFin hinv'.recv.tree).trans (keeps_maybeNotifyClosed _))
      simp only
      rw [if_neg (by omega)]
      refine ⟨hinv'.maybeAdvancePeerFin.maybeNotifyClosed,
        ((h.consume hinv.recv.tree bytes).maybeAdvancePeerFin
          hinv'.recv.tree).maybeNotifyClosed, hk, Or.inl ⟨rfl, ?_⟩⟩
      rw [maybeNotifyClosed_recvOffset, maybeAdvancePeerFin_recvOffset, hc.recvOffset, hlen]

-- ==== reading to the end

/-- Everything has arrived, and so has the FIN. -/
structure Complete (S : List UInt8) (s : StreamImpl) : Prop where
  honest : HonestInv S s
  fin : FinInv S True s
  covered : ∀ x < S.length, Covered s x
  kept : FinKept s

/-- `read` returns what was counted as contiguous. -/
theorem length_bytesRead (s : StreamImpl) (hcap : 0 < capacity) :
    (bytesRead (s.read capacity).1).length = s.contiguousReadableBytes capacity := by
  unfold StreamImpl.read
  rw [if_neg (by omega)]
  simp only
  split
  case isTrue hzero =>
    rw [hzero]
    split <;> rfl
  case isFalse =>
    exact consume_length capacity s.recvFragmentsTree 0 _ s (Nat.zero_le _)
      (by rw [Nat.zero_add]; exact le_refl _)

/-- With everything there, `read` fills its buffer up to the end of `S`. -/
theorem Complete.read (h : Complete S s) (hcap : 0 < capacity) :
    Complete S (s.read capacity).2
    ∧ (s.read capacity).2.recvOffset = s.recvOffset + min capacity (S.length - s.recvOffset)
    ∧ bytesRead (s.read capacity).1
      = (S.drop s.recvOffset).take (min capacity (S.length - s.recvOffset)) := by
  obtain ⟨hinv, hfin, hkeeps, hbytes, hrecv⟩ := read_reassembly h.honest h.fin capacity
  have hlen := length_bytesRead s hcap
  have hle := h.honest.le
  have hupper : s.contiguousReadableBytes capacity ≤ capacity :=
    (contiguousFrom_le capacity _ 0 _ (Nat.zero_le _)).2
  have hlower := h.honest.le_contiguous (m := min capacity (S.length - s.recvOffset))
    (Nat.min_le_left _ _) (by omega) (by
      intro x h1 h2
      rcases h.covered x (by omega) with hx | hx
      · omega
      · exact hx)
  have hS : (bytesRead (s.read capacity).1).length ≤ S.length - s.recvOffset := by
    rw [hbytes, List.length_take, List.length_drop]
    exact Nat.min_le_right _ _
  have hexact : (bytesRead (s.read capacity).1).length
      = min capacity (S.length - s.recvOffset) := by
    omega
  rw [hexact] at hbytes hrecv
  exact ⟨⟨hinv, hfin, fun x hx => hkeeps.covered x (h.covered x hx), hkeeps.finKept h.kept⟩,
    hrecv, hbytes⟩

/-- At the end of `S` every fragment is a marker that `read` drops. -/
theorem Complete.read_end (h : Complete S s) (hend : s.recvOffset = S.length)
    (hcap : 0 < capacity) : (s.read capacity).1 = .ok [] := by
  have hzero : s.contiguousReadableBytes capacity = 0 := by
    rw [← length_bytesRead s hcap, (h.read hcap).2.2, List.length_take, hend]
    omega
  have hpeer : s.maybeAdvancePeerFin.peerFin = true := by
    rcases (keeps_maybeAdvancePeerFin h.honest.recv.tree).finKept h.kept with hp | ⟨f, hf, -⟩
    · exact hp
    · -- nothing can be left at the front
      have hinv := h.honest.maybeAdvancePeerFin
      cases htree : s.maybeAdvancePeerFin.recvFragmentsTree with
      | nil =>
        rw [htree] at hf
        simp at hf
      | cons g rest =>
        have hg : g ∈ s.maybeAdvancePeerFin.recvFragmentsTree := by
          rw [htree]
          exact List.mem_cons_self
        have hok := hinv.recv.tree.fragment g hg
        rw [maybeAdvancePeerFin_recvOffset] at hok
        have hle := (hinv.fragment g hg).le
        have hahead := hok.ahead
        have hlog := hok.logicalOffset
        have hdef : g.endOffset = g.offset + g.len := rfl
        refine absurd ⟨?_, ?_⟩ (advancePeerFin_head htree)
        · omega
        · unfold RecvFragment.remaining
          omega
  unfold StreamImpl.read
  rw [if_neg (by omega)]
  simp only [hzero, if_true, hpeer]

/-- Repeated reads return the rest of `S`. -/
theorem Complete.readAll (caps : List Nat) :
    ∀ {s : StreamImpl}, Complete S s → (∀ c ∈ caps, 0 < c) →
      S.length - s.recvOffset ≤ caps.sum →
      Complete S (readAll s caps).2 ∧ (readAll s caps).2.recvOffset = S.length
      ∧ (readAll s caps).1 = S.drop s.recvOffset := by
  induction caps with
  | nil =>
    intro s h _ hsum
    have hle := h.honest.le
    rw [List.sum_nil] at hsum
    refine ⟨h, ?_, ?_⟩
    · show s.recvOffset = S.length
      omega
    · rw [List.drop_eq_nil_of_le (by omega)]
      rfl
  | cons c caps ih =>
    intro s h hpos hsum
    obtain ⟨hc, hrecv, hbytes⟩ := h.read (hpos c List.mem_cons_self)
    rw [List.sum_cons] at hsum
    obtain ⟨hall, hrecv', hrest⟩ :=
      ih hc (fun c hc => hpos c (List.mem_cons_of_mem _ hc)) (by omega)
    refine ⟨hall, hrecv', ?_⟩
    show bytesRead (s.read c).1 ++ (Utp.readAll (s.read c).2 caps).1 = S.drop s.recvOffset
    rw [hrest, hbytes, hrecv, ← List.drop_drop, List.take_append_drop]

-- ==== sessions

/-- The invariant of a fair session. -/
structure SessionInv (S : List UInt8) (σ : Session) : Prop where
  honest : HonestInv S σ.stream
  fin : FinInv S (∃ f ∈ σ.frames, f.isFin = true) σ.stream
  returned : σ.returned = S.take σ.stream.recvOffset
  views : σ.views <+: S.drop σ.stream.recvOffset
  covered : σ.exceeded = false → ∀ f ∈ σ.frames, ∀ x, f.streamOffset ≤ x →
    x < f.streamOffset + f.streamData.length → Covered σ.stream x
  kept : σ.exceeded = false → ∀ f ∈ σ.frames, f.isFin = true → FinKept σ.stream

theorem sessionInv_init (S : List UInt8) (streamId : Nat) :
    SessionInv S { stream := { streamId } } where
  honest := honestInv_init S streamId
  fin := ⟨by simp, by simp⟩
  returned := rfl
  views := List.nil_prefix
  covered := by simp
  kept := by simp

private theorem drop_prefix_drop {v : List UInt8} {r n : Nat} (h : v <+: S.drop r) :
    v.drop n <+: S.drop (r + n) := by
  obtain ⟨rest, hrest⟩ := h
  rw [← List.drop_drop, ← hrest, List.drop_append]
  exact List.prefix_append _ _

private theorem take_append_take (S : List UInt8) (r n : Nat) :
    S.take r ++ (S.drop r).take n = S.take (r + n) := by
  rw [List.take_add]

theorem sessionInv_step (hS : S.length < 2 ^ 64) (σ : Session) (op : SessionOp)
    (h : SessionInv S σ) (hok : σ.Fair S op) : SessionInv S (σ.step op) := by
  cases op with
  | frame frame =>
    obtain ⟨hid, hf⟩ := hok
    have hseen : FinInv S (∃ f ∈ σ.frames ++ [frame], f.isFin = true) σ.stream := by
      refine h.fin.mono ?_
      rintro ⟨f, hmem, hfin⟩
      exact ⟨f, List.mem_append_left _ hmem, hfin⟩
    have hinv' := h.honest.onFrame hS hid hf
    have hrecv : (σ.stream.onFrame frame).2.recvOffset = σ.stream.recvOffset := by
      rcases h.honest.arrived hS hid hf with ⟨-, -, heq⟩ | ⟨lo, D, -, -, -, harr⟩
      · rw [heq]
        simp only
        split <;> simp
      · exact harr.flags.1
    obtain ⟨hfin', hkeeps, hstored⟩ := onFrame_reassembly h.honest hseen hS hid hf
      (fun hfin => ⟨frame, by simp, hfin⟩)
    refine ⟨hinv', hfin', ?_, ?_, ?_, ?_⟩
    · show σ.returned = S.take (σ.stream.onFrame frame).2.recvOffset
      rw [hrecv]
      exact h.returned
    · show σ.views <+: S.drop (σ.stream.onFrame frame).2.recvOffset
      rw [hrecv]
      exact h.views
    · intro hwithin f hmem x h1 h2
      obtain ⟨hr, hst⟩ := Bool.or_eq_false_iff.mp hwithin
      rcases List.mem_append.mp hmem with hmem | hmem
      · exact hkeeps.covered x (h.covered hr f hmem x h1 h2)
      · obtain rfl := List.mem_singleton.mp hmem
        exact (hstored (by simpa using hst)).2.1 x h1 h2
    · intro hwithin f hmem hfin
      obtain ⟨hr, hst⟩ := Bool.or_eq_false_iff.mp hwithin
      rcases List.mem_append.mp hmem with hmem | hmem
      · exact hkeeps.finKept (h.kept hr f hmem hfin)
      · obtain rfl := List.mem_singleton.mp hmem
        exact (hstored (by simpa using hst)).2.2 hfin
  | read capacity =>
    obtain ⟨hinv', hfin', hkeeps, hbytes, hrecv⟩ :=
      read_reassembly h.honest h.fin capacity
    refine ⟨hinv', hfin', ?_, ?_, ?_, ?_⟩
    · show σ.returned ++ bytesRead (σ.stream.read capacity).1 = _
      rw [h.returned, hbytes, take_append_take, ← hrecv]
      rfl
    · show σ.views.drop _ <+: S.drop (σ.stream.read capacity).2.recvOffset
      rw [hrecv]
      exact drop_prefix_drop h.views
    · exact fun hr f hmem x h1 h2 => hkeeps.covered x (h.covered hr f hmem x h1 h2)
    · exact fun hr f hmem hf => hkeeps.finKept (h.kept hr f hmem hf)
  | acquireReadViews maxBytes =>
    refine ⟨h.honest, h.fin, h.returned, ?_, h.covered, h.kept⟩
    exact viewsFrom_prefix maxBytes _ 0 0 _ h.honest.recv.tree h.honest.fragment
  | commitReadViews bytes =>
    obtain ⟨hinv', hfin', hkeeps, hresult⟩ :=
      commitReadViews_reassembly h.honest h.fin bytes
    have hcov : σ.exceeded = false → ∀ f ∈ σ.frames, ∀ x, f.streamOffset ≤ x →
        x < f.streamOffset + f.streamData.length →
        Covered (σ.stream.commitReadViews bytes).2 x :=
      fun hr f hmem x h1 h2 => hkeeps.covered x (h.covered hr f hmem x h1 h2)
    have hkept : σ.exceeded = false → ∀ f ∈ σ.frames, f.isFin = true →
        FinKept (σ.stream.commitReadViews bytes).2 :=
      fun hr f hmem hf => hkeeps.finKept (h.kept hr f hmem hf)
    rcases hresult with ⟨hst, hrecv⟩ | ⟨⟨e, hst⟩, hrecv⟩
    · have hstep : σ.step (.commitReadViews bytes) = { σ with
          stream := (σ.stream.commitReadViews bytes).2
          returned := σ.returned ++ σ.views.take bytes
          views := σ.views.drop bytes } := by
        simp only [Session.step, hst]
      rw [hstep]
      -- the committed views are the next bytes of `S`
      have hviews : σ.views.take bytes = (S.drop σ.stream.recvOffset).take bytes := by
        obtain ⟨rest, hrest⟩ := h.views
        rw [← hrest, List.take_append_of_le_length hok]
      refine ⟨hinv', hfin', ?_, ?_, hcov, hkept⟩
      · simp only
        rw [h.returned, hviews, take_append_take, ← hrecv]
      · simp only
        rw [hrecv]
        exact drop_prefix_drop h.views
    · have hstep : σ.step (.commitReadViews bytes)
          = { σ with stream := (σ.stream.commitReadViews bytes).2 } := by
        simp only [Session.step, hst]
      rw [hstep]
      refine ⟨hinv', hfin', ?_, ?_, hcov, hkept⟩
      · simp only
        rw [hrecv]
        exact h.returned
      · simp only
        rw [hrecv]
        exact h.views

/-- What exact reassembly means for a session with an honest sender of
`S`. -/
structure Reassembles (S : List UInt8) (σ : Session) : Prop where
  /-- the bytes returned are a prefix of `S`, and `recvOffset` counts them -/
  is_start : σ.returned <+: S
  counted : σ.stream.recvOffset = σ.returned.length
  /-- `read` answers `0` only when all of `S` was returned and a FIN came -/
  zero : ∀ capacity, (σ.stream.read capacity).1 = .ok [] →
    σ.returned = S ∧ ∃ f ∈ σ.frames, f.isFin = true
  /-- once all of `S` arrived within the cap, reads return it, then `0` -/
  complete : σ.exceeded = false → Covers S σ.frames → (∃ f ∈ σ.frames, f.isFin = true) →
    ∀ caps : List Nat, (∀ c ∈ caps, 0 < c) → S.length - σ.stream.recvOffset ≤ caps.sum →
      σ.returned ++ (readAll σ.stream caps).1 = S
      ∧ ∀ capacity, 0 < capacity → ((readAll σ.stream caps).2.read capacity).1 = .ok []

theorem SessionInv.reassembles {σ : Session} (h : SessionInv S σ) : Reassembles S σ where
  is_start := by
    rw [h.returned]
    exact List.take_prefix _ _
  counted := by
    rw [h.returned, List.length_take]
    have := h.honest.le
    omega
  zero := by
    intro capacity hzero
    obtain ⟨hend, hseen⟩ := read_zero h.honest h.fin hzero
    refine ⟨?_, hseen⟩
    rw [h.returned, hend, List.take_length]
  complete := by
    intro hwithin hcovers hfin caps hpos hsum
    have hcomplete : Complete S σ.stream := by
      refine ⟨h.honest, h.fin.mono fun _ => trivial, ?_, ?_⟩
      · intro x hx
        obtain ⟨f, hmem, h1, h2⟩ := hcovers x hx
        exact h.covered hwithin f hmem x h1 h2
      · obtain ⟨f, hmem, hf⟩ := hfin
        exact h.kept hwithin f hmem hf
    obtain ⟨hall, hend, hbytes⟩ := Complete.readAll caps hcomplete hpos hsum
    refine ⟨?_, fun capacity hcap => hall.read_end hend hcap⟩
    rw [hbytes, h.returned, List.take_append_drop]

/-- Reassembly is exact: whatever the order, duplication, overlap and
segmentation of an honest sender's frames, and however the application
reads in between. -/
theorem reassembles_of_run (S : List UInt8) (hS : S.length < 2 ^ 64) (streamId : Nat)
    (ops : List SessionOp)
    (hok : Meets Session.step (Session.Fair S) { stream := { streamId } } ops) :
    Reassembles S (run Session.step { stream := { streamId } } ops) :=
  (run_inv (sessionInv_step hS) (sessionInv_init S streamId) hok).reassembles

/-- Five bytes in overlapping frames, with the FIN first, read in part
and committed in part in between. All arrived within the cap, so a last
read returns what is left of them. -/
theorem reassembles_reordered :
    let σ := run Session.step { stream := { streamId := 4 } }
      [.frame ⟨1, 4, 3, [4, 5]⟩, .frame ⟨0, 4, 0, [1, 2]⟩, .acquireReadViews 8,
       .commitReadViews 1, .frame ⟨1, 4, 0, [1, 2, 3, 4, 5]⟩, .read 2,
       .frame ⟨0, 4, 1, [2, 3, 4]⟩]
    Reassembles [1, 2, 3, 4, 5] σ
      ∧ σ.returned ++ (readAll σ.stream [8]).1 = [1, 2, 3, 4, 5] := by
  intro σ
  have hall : Reassembles [1, 2, 3, 4, 5] σ :=
    reassembles_of_run [1, 2, 3, 4, 5] (by decide) 4 _ (by decide)
  have hcovers : Covers [1, 2, 3, 4, 5] σ.frames := by
    unfold Covers
    decide
  exact ⟨hall, (hall.complete (by decide) hcovers (by decide) [8] (by decide) (by decide)).1⟩

end Eular.Utp
