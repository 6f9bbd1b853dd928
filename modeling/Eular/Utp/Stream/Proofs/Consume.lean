/-
Taking bytes off the front of the fragment tree.

Three loops walk the tree from its first fragment: `advancePeerFin`
drops used-up markers, `contiguousFrom` counts what can be read without
a hole, and `consume` takes bytes. Each gets one lemma that says all it
does; the callers (`read`, `commitReadViews`, `onFrame`) never unfold
them.
-/
import Eular.Utp.Stream.Proofs.Tree

namespace Eular.Utp

open Lib StreamImpl

variable {r : Nat} {t : List RecvFragment} {s : StreamImpl}

-- ==== notification

/-- `maybeNotifyClosed` touches one flag. -/
theorem maybeNotifyClosed_eq (s : StreamImpl) :
    s.maybeNotifyClosed = { s with closedNotified := s.maybeNotifyClosed.closedNotified } := by
  unfold maybeNotifyClosed
  split
  · rfl
  · split <;> rfl

@[simp] theorem maybeNotifyClosed_tree (s : StreamImpl) :
    s.maybeNotifyClosed.recvFragmentsTree = s.recvFragmentsTree := by
  rw [maybeNotifyClosed_eq]

@[simp] theorem maybeNotifyClosed_recvOffset (s : StreamImpl) :
    s.maybeNotifyClosed.recvOffset = s.recvOffset := by
  rw [maybeNotifyClosed_eq]

@[simp] theorem maybeNotifyClosed_buffered (s : StreamImpl) :
    s.maybeNotifyClosed.recvBufferedBytes = s.recvBufferedBytes := by
  rw [maybeNotifyClosed_eq]

@[simp] theorem maybeNotifyClosed_peerFin (s : StreamImpl) :
    s.maybeNotifyClosed.peerFin = s.peerFin := by
  rw [maybeNotifyClosed_eq]

@[simp] theorem maybeNotifyClosed_streamId (s : StreamImpl) :
    s.maybeNotifyClosed.streamId = s.streamId := by
  rw [maybeNotifyClosed_eq]

@[simp] theorem maybeNotifyClosed_resetByPeer (s : StreamImpl) :
    s.maybeNotifyClosed.resetByPeer = s.resetByPeer := by
  rw [maybeNotifyClosed_eq]

/-- `onClosed` fires only with the peer finished and nothing buffered. -/
theorem maybeNotifyClosed_closed (h : s.maybeNotifyClosed.closedNotified = true) :
    s.closedNotified = true ∨ s.peerFin = true := by
  unfold maybeNotifyClosed at h
  split at h
  case isTrue hc => exact Or.inl hc
  case isFalse =>
    split at h
    case isTrue hc =>
      simp only [Bool.and_eq_true] at hc
      exact Or.inr hc.1.2
    case isFalse hc => exact Or.inl h

theorem Counted.maybeNotifyClosed (h : Counted s) : Counted s.maybeNotifyClosed where
  sorted := by simpa using h.sorted
  sum_eq := by simpa using h.sum_eq
  le_cap := by simpa using h.le_cap

-- ==== dropped markers

/-- `advancePeerFin` drops a run of used-up fragments at the front, and
records a FIN among them. -/
theorem advancePeerFin_spec (t : List RecvFragment) (s : StreamImpl) :
    ∃ dropped,
      t = dropped ++ (advancePeerFin t s).recvFragmentsTree
      ∧ (∀ f ∈ dropped, add64 f.offset f.consumed = s.recvOffset ∧ f.remaining = 0)
      ∧ advancePeerFin t s = { s with
          recvFragmentsTree := (advancePeerFin t s).recvFragmentsTree
          peerFin := s.peerFin || dropped.any RecvFragment.fin } := by
  induction t generalizing s with
  | nil =>
    refine ⟨[], rfl, by simp, ?_⟩
    simp [advancePeerFin]
  | cons f rest ih =>
    by_cases hc : add64 f.offset f.consumed = s.recvOffset ∧ f.remaining = 0
    · have hunfold : advancePeerFin (f :: rest) s
          = advancePeerFin rest { s with peerFin := s.peerFin || f.fin } := by
        rw [advancePeerFin, if_pos hc, hc.2, Nat.sub_zero]
      obtain ⟨dropped, htree, hdropped, heq⟩ :=
        ih { s with peerFin := s.peerFin || f.fin }
      refine ⟨f :: dropped, ?_, ?_, ?_⟩
      · rw [hunfold, List.cons_append, ← htree]
      · intro g hg
        rcases List.mem_cons.mp hg with rfl | hg
        · exact hc
        · exact hdropped g hg
      · rw [hunfold]
        rw [heq, List.any_cons, Bool.or_assoc]
    · refine ⟨[], ?_, by simp, ?_⟩
      · rw [advancePeerFin, if_neg hc]
        rfl
      · rw [advancePeerFin, if_neg hc]
        simp

/-- The front of the tree after `advancePeerFin` is not used up. -/
theorem advancePeerFin_head {f : RecvFragment} {rest : List RecvFragment}
    (h : (advancePeerFin t s).recvFragmentsTree = f :: rest) :
    ¬ (add64 f.offset f.consumed = s.recvOffset ∧ f.remaining = 0) := by
  induction t generalizing s with
  | nil => simp [advancePeerFin] at h
  | cons g t ih =>
    unfold advancePeerFin at h
    split at h
    case isTrue =>
      have hrest := ih h
      exact hrest
    case isFalse hc =>
      obtain ⟨rfl, -⟩ : g = f ∧ t = rest := by simpa using h
      exact hc

theorem Counted.maybeAdvancePeerFin (h : Counted s) : Counted s.maybeAdvancePeerFin := by
  obtain ⟨dropped, htree, hdropped, heq⟩ := advancePeerFin_spec s.recvFragmentsTree s
  have hsum : (dropped.map RecvFragment.remaining).sum = 0 := by
    refine List.sum_eq_zero ?_
    intro n hn
    obtain ⟨f, hf, rfl⟩ := List.mem_map.mp hn
    exact (hdropped f hf).2
  have hb : (advancePeerFin s.recvFragmentsTree s).recvBufferedBytes
      = s.recvBufferedBytes := by
    rw [heq]
  refine ⟨?_, ?_, ?_⟩
  · have hs := h.sorted
    rw [htree] at hs
    exact List.Pairwise.sublist (List.sublist_append_right _ _) hs
  · rw [StreamImpl.maybeAdvancePeerFin, hb, h.sum_eq]
    nth_rewrite 1 [htree]
    rw [List.map_append, List.sum_append, hsum, Nat.zero_add]
  · rw [StreamImpl.maybeAdvancePeerFin, hb]
    exact h.le_cap

-- ==== consumption

/-- What taking `bytes` off the tree `t` of `s` did; `s'` is what is left. -/
structure Consumed (t : List RecvFragment) (s : StreamImpl) (bytes : List UInt8)
    (s' : StreamImpl) : Prop where
  same : s' = { s with
    recvOffset := s'.recvOffset
    peerFin := s'.peerFin
    recvBufferedBytes := s'.recvBufferedBytes
    recvFragmentsTree := s'.recvFragmentsTree }
  recvOffset : s'.recvOffset = s.recvOffset + bytes.length
  tree : TreeOk s'.recvOffset s'.recvFragmentsTree
  origin : ∀ f' ∈ s'.recvFragmentsTree,
    ∃ f ∈ t, f'.offset = f.offset ∧ f'.data = f.data ∧ f'.fin = f.fin
  held : ∀ x, s'.recvOffset ≤ x → Held t x → Held s'.recvFragmentsTree x
  bytes : ∀ i, i < bytes.length → ∃ f ∈ t,
    f.offset ≤ s.recvOffset + i ∧ s.recvOffset + i < f.endOffset
    ∧ bytes[i]? = f.data[s.recvOffset + i - f.offset]?
  peerFin : s'.peerFin = true →
    s.peerFin = true ∨ ∃ f ∈ t, f.fin = true ∧ f.endOffset ≤ s'.recvOffset
  peerFin_mono : s.peerFin = true → s'.peerFin = true
  fin : ∀ f ∈ t, f.fin = true →
    s'.peerFin = true ∨ ∃ f' ∈ s'.recvFragmentsTree, f'.fin = true

private theorem consumed_stop (h : TreeOk s.recvOffset t) :
    Consumed t s [] { s with recvFragmentsTree := t } where
  same := rfl
  recvOffset := rfl
  tree := h
  origin f' hf' := ⟨f', hf', rfl, rfl, rfl⟩
  held _ _ hx := hx
  bytes i hi := by simp at hi
  peerFin := Or.inl
  peerFin_mono hp := hp
  fin f hf hfin := Or.inr ⟨f, hf, hfin⟩

section Front

variable {f : RecvFragment} {n : Nat}

/-- Once the front fragment is consumed up to `r'` the rest of the tree
is well formed there. -/
theorem treeOk_advance (h : TreeOk r (f :: t)) {r' : Nat} (hr : r ≤ r')
    (hr' : r' ≤ f.endOffset) : TreeOk r' t where
  sorted := h.tail.sorted
  apart := h.tail.apart
  fragment := by
    intro g hg
    have hge := h.head_end_le hg
    have hok := h.tail.fragment g hg
    have hcons := hok.consumed_eq
    refine ⟨by omega, hok.end_lt, ?_⟩
    unfold RecvFragment.endOffset
    omega

/-- The next `n` bytes of the front fragment are the stream's. -/
private theorem front_bytes (hlog : f.offset + f.consumed = r)
    (hn : f.consumed + n ≤ f.len) :
    ((f.data.drop f.consumed).take n).length = n
    ∧ ∀ i, i < n → f.offset ≤ r + i ∧ r + i < f.endOffset
      ∧ ((f.data.drop f.consumed).take n)[i]? = f.data[r + i - f.offset]? := by
  refine ⟨?_, ?_⟩
  · unfold RecvFragment.len at hn
    rw [List.length_take, List.length_drop]
    omega
  · intro i hi
    unfold RecvFragment.endOffset
    refine ⟨by omega, by omega, ?_⟩
    rw [List.getElem?_take_of_lt hi, List.getElem?_drop]
    congr 1
    omega

/-- The front fragment gives its next `n` bytes and keeps some. -/
private theorem consumed_part (h : TreeOk s.recvOffset (f :: t))
    (hlog : f.offset + f.consumed = s.recvOffset) (hn : f.consumed + n < f.len)
    (b : Nat) :
    Consumed (f :: t) s ((f.data.drop f.consumed).take n)
      { s with
        recvBufferedBytes := b
        recvOffset := s.recvOffset + n
        recvFragmentsTree := { f with consumed := f.consumed + n } :: t } := by
  obtain ⟨hlen, hbytes⟩ := front_bytes hlog hn.le
  have hend : s.recvOffset + n < f.endOffset := by
    unfold RecvFragment.endOffset
    omega
  have hrest := treeOk_advance h (Nat.le_add_right s.recvOffset n) hend.le
  refine ⟨rfl, by rw [hlen], ⟨?_, ?_, ?_⟩, ?_, ?_, ?_, Or.inl, fun hp => hp, ?_⟩
  · refine List.pairwise_cons.mpr ⟨?_, hrest.sorted⟩
    intro g hg
    exact h.sorted.head_lt hg
  · intro a ha b hb hab
    rcases List.mem_cons.mp ha with rfl | ha <;>
      rcases List.mem_cons.mp hb with rfl | hb
    · exact absurd hab (lt_irrefl _)
    · exact h.head_end_le hb
    · have := h.sorted.head_lt ha
      exact absurd hab (not_lt.mpr this.le)
    · exact hrest.apart a ha b hb hab
  · intro g hg
    rcases List.mem_cons.mp hg with rfl | hg
    · refine ⟨?_, h.head.end_lt, Or.inl hend⟩
      simp only
      omega
    · exact hrest.fragment g hg
  · intro f' hf'
    rcases List.mem_cons.mp hf' with rfl | hf'
    · exact ⟨f, List.mem_cons_self, rfl, rfl, rfl⟩
    · exact ⟨f', List.mem_cons_of_mem _ hf', rfl, rfl, rfl⟩
  · intro x _ hheld
    obtain ⟨g, hg, hgx⟩ := hheld
    rcases List.mem_cons.mp hg with rfl | hg
    · exact ⟨_, List.mem_cons_self, hgx⟩
    · exact ⟨g, List.mem_cons_of_mem _ hg, hgx⟩
  · intro i hi
    rw [hlen] at hi
    exact ⟨f, List.mem_cons_self, hbytes i hi⟩
  · intro g hg hfin
    rcases List.mem_cons.mp hg with rfl | hg
    · exact Or.inr ⟨_, List.mem_cons_self, hfin⟩
    · exact Or.inr ⟨g, List.mem_cons_of_mem _ hg, hfin⟩

private theorem Consumed.cons {bytes : List UInt8} {s' : StreamImpl} {b : Nat}
    (hlog : f.offset + f.consumed = s.recvOffset) (hn : f.consumed + n = f.len)
    (h : Consumed t
      { s with
        recvBufferedBytes := b
        recvOffset := s.recvOffset + n
        peerFin := s.peerFin || f.fin } bytes s') :
    Consumed (f :: t) s ((f.data.drop f.consumed).take n ++ bytes) s' := by
  obtain ⟨hlen, hbytes⟩ := front_bytes hlog hn.le
  have hend : s.recvOffset + n = f.endOffset := by
    unfold RecvFragment.endOffset
    omega
  have hr : s'.recvOffset = s.recvOffset + n + bytes.length := h.recvOffset
  refine ⟨h.same, ?_, h.tree, ?_, ?_, ?_, ?_, ?_, ?_⟩
  · rw [List.length_append, hlen]
    omega
  · intro f' hf'
    obtain ⟨g, hg, hsame⟩ := h.origin f' hf'
    exact ⟨g, List.mem_cons_of_mem _ hg, hsame⟩
  · intro x hx hheld
    obtain ⟨g, hg, hgx⟩ := hheld
    rcases List.mem_cons.mp hg with rfl | hg
    · omega
    · exact h.held x hx ⟨g, hg, hgx⟩
  · intro i hi
    rw [List.length_append, hlen] at hi
    by_cases hin : i < n
    · refine ⟨f, List.mem_cons_self, ?_⟩
      rw [List.getElem?_append_left (by omega)]
      exact hbytes i hin
    · obtain ⟨g, hg, hg1, hg2, hg3⟩ := h.bytes (i - n) (by omega)
      have hidx : s.recvOffset + n + (i - n) = s.recvOffset + i := by omega
      simp only [hidx] at hg1 hg2 hg3
      refine ⟨g, List.mem_cons_of_mem _ hg, hg1, hg2, ?_⟩
      rw [List.getElem?_append_right (by omega), hlen]
      exact hg3
  · intro hp
    rcases h.peerFin hp with hsf | ⟨g, hg, hfin, hle⟩
    · rcases Bool.or_eq_true_iff.mp hsf with hs | hf
      · exact Or.inl hs
      · exact Or.inr ⟨f, List.mem_cons_self, hf, by omega⟩
    · exact Or.inr ⟨g, List.mem_cons_of_mem _ hg, hfin, hle⟩
  · intro hp
    refine h.peerFin_mono ?_
    simp only [hp, Bool.true_or]
  · intro g hg hfin
    rcases List.mem_cons.mp hg with rfl | hg
    · refine Or.inl (h.peerFin_mono ?_)
      simp only [hfin, Bool.or_true]
    · exact h.fin g hg hfin

end Front

/-- `consume` takes the stream's next bytes and leaves a well-formed
tree. -/
theorem consume_consumed (t : List RecvFragment) :
    ∀ (want : Nat) (s : StreamImpl), TreeOk s.recvOffset t →
      Consumed t s (consume t want s).1 (consume t want s).2 := by
  -- along the tree, one fragment used up after the other
  induction t with
  | nil =>
    intro want s h
    exact consumed_stop h
  | cons f rest ih =>
    intro want s h
    by_cases hstop : want = 0 ∨ add64 f.offset f.consumed ≠ s.recvOffset
    · rw [consume, if_pos hstop]
      exact consumed_stop h
    have hlog : f.offset + f.consumed = s.recvOffset := by
      have h1 := h.head.logicalOffset
      have h2 := h.head.consumed_eq
      omega
    have hle := h.head.consumed_le
    have hend := h.head.end_lt
    have hdef : f.endOffset = f.offset + f.len := rfl
    generalize hn : min f.remaining want = n
    have hnle : f.consumed + n ≤ f.len := by
      unfold RecvFragment.remaining at hn
      omega
    rw [consume, if_neg hstop]
    simp only [hn, add64_eq (show s.recvOffset + n < 2 ^ 64 by omega)]
    by_cases hrem : RecvFragment.remaining { f with consumed := f.consumed + n } = 0
    · rw [if_pos hrem]
      have hused : f.consumed + n = f.len :=
        le_antisymm hnle (Nat.sub_eq_zero_iff_le.mp hrem)
      have hnext : s.recvOffset + n ≤ f.endOffset := by omega
      refine Consumed.cons hlog hused (ih (want - n) _ ?_)
      exact treeOk_advance h (Nat.le_add_right _ _) hnext
    · rw [if_neg hrem]
      have hleft : f.consumed + n < f.len :=
        lt_of_not_ge fun hge => hrem (Nat.sub_eq_zero_iff_le.mpr hge)
      exact consumed_part h hlog hleft _

/-- Consuming `n` bytes more. -/
private theorem remaining_consume (f : RecvFragment) (n : Nat) :
    RecvFragment.remaining { f with consumed := f.consumed + n } = f.remaining - n :=
  (Nat.sub_sub _ _ _).symm

/-- The counter follows what `consume` takes. -/
theorem consume_counted (t : List RecvFragment) :
    ∀ (want : Nat) (s : StreamImpl), Sorted RecvFragment.offset t →
      s.recvBufferedBytes = (t.map RecvFragment.remaining).sum →
      s.recvBufferedBytes ≤ kMaxRecvFragmentBytes →
      Counted (consume t want s).2 := by
  induction t with
  | nil =>
    intro want s hs hsum hcap
    exact ⟨hs, hsum, hcap⟩
  | cons f rest ih =>
    intro want s hs hsum hcap
    by_cases hstop : want = 0 ∨ add64 f.offset f.consumed ≠ s.recvOffset
    · rw [consume, if_pos hstop]
      exact ⟨hs, hsum, hcap⟩
    rw [List.map_cons, List.sum_cons] at hsum
    generalize hn : min f.remaining want = n
    rw [consume, if_neg hstop]
    simp only [hn, remaining_consume]
    by_cases hrem : f.remaining - n = 0
    · rw [if_pos hrem]
      refine ih (want - n) _ hs.tail ?_ ?_
      · simp only
        omega
      · simp only
        omega
    · rw [if_neg hrem]
      refine ⟨?_, ?_, ?_⟩
      · refine List.pairwise_cons.mpr ⟨?_, hs.tail⟩
        intro g hg
        exact hs.head_lt hg
      · simp only [List.map_cons, List.sum_cons, remaining_consume]
        omega
      · simp only
        omega

-- ==== contiguous bytes

/-- Asked for nothing, `consume` takes nothing. -/
theorem consume_zero (t : List RecvFragment) (s : StreamImpl) :
    consume t 0 s = ([], { s with recvFragmentsTree := t }) := by
  cases t with
  | nil => rfl
  | cons f rest => rw [consume, if_pos (Or.inl rfl)]

theorem contiguousFrom_cons (maxBytes : Nat) (f : RecvFragment)
    (rest : List RecvFragment) (total expected : Nat) :
    contiguousFrom maxBytes (f :: rest) total expected =
      if maxBytes ≤ total then total
      else if add64 f.offset f.consumed ≠ expected then total
      else if f.remaining = 0 then
        if f.fin then total else contiguousFrom maxBytes rest total expected
      else contiguousFrom maxBytes rest (total + min f.remaining (maxBytes - total))
        (add64 expected (min f.remaining (maxBytes - total))) := rfl

theorem contiguousFrom_le (maxBytes : Nat) (t : List RecvFragment) :
    ∀ (total r : Nat), total ≤ maxBytes →
      total ≤ contiguousFrom maxBytes t total r
      ∧ contiguousFrom maxBytes t total r ≤ maxBytes := by
  induction t with
  | nil =>
    intro total r h
    exact ⟨le_refl _, h⟩
  | cons f rest ih =>
    intro total r h
    rw [contiguousFrom_cons]
    split
    · exact ⟨le_refl _, h⟩
    split
    · exact ⟨le_refl _, h⟩
    split
    · split
      · exact ⟨le_refl _, h⟩
      · exact ih total r h
    · have hle : total + min f.remaining (maxBytes - total) ≤ maxBytes := by omega
      have := ih _ (add64 r (min f.remaining (maxBytes - total))) hle
      omega

theorem consume_length (maxBytes : Nat) (t : List RecvFragment) :
    ∀ (total want : Nat) (s : StreamImpl), total ≤ maxBytes →
      total + want ≤ contiguousFrom maxBytes t total s.recvOffset →
      (consume t want s).1.length = want := by
  induction t with
  | nil =>
    intro total want s hmax h
    rw [contiguousFrom] at h
    rw [consume, List.length_nil]
    omega
  | cons f rest ih =>
    intro total want s hmax h
    by_cases hzero : want = 0
    · rw [hzero, consume_zero, List.length_nil]
    have hbound := (contiguousFrom_le maxBytes (f :: rest) total s.recvOffset hmax).2
    rw [contiguousFrom_cons] at h hbound
    by_cases hfull : maxBytes ≤ total
    · rw [if_pos hfull] at h
      omega
    rw [if_neg hfull] at h hbound
    by_cases hlog : add64 f.offset f.consumed = s.recvOffset
    case neg =>
      rw [if_pos hlog] at h
      omega
    rw [if_neg (not_not.mpr hlog)] at h hbound
    have htaken : ((f.data.drop f.consumed).take (min f.remaining want)).length
        = min f.remaining want := by
      rw [List.length_take, List.length_drop]
      exact Nat.min_eq_left (Nat.min_le_left _ _)
    rw [consume, if_neg (by simp [hzero, hlog])]
    simp only [remaining_consume]
    by_cases hused : f.remaining - min f.remaining want = 0
    case neg =>
      rw [if_neg hused, htaken]
      omega
    -- the front fragment is used up: what is left was counted behind it
    rw [if_pos hused, List.length_append, htaken]
    by_cases hrem : f.remaining = 0
    · rw [if_pos hrem] at h
      by_cases hfin : f.fin
      · rw [if_pos hfin] at h
        omega
      · rw [if_neg hfin] at h
        rw [hrem, Nat.zero_min, Nat.zero_add, Nat.sub_zero]
        refine ih total want _ hmax ?_
        rw [← hlog] at h ⊢
        simpa only [add64, Nat.add_zero, Nat.mod_mod] using h
    · rw [if_neg hrem] at h hbound
      have hmin : min f.remaining want = f.remaining := by omega
      have hmin' : min f.remaining (maxBytes - total) = f.remaining := by omega
      rw [hmin'] at h hbound
      have hrest : total + f.remaining + (want - f.remaining)
          ≤ contiguousFrom maxBytes rest (total + f.remaining)
            (add64 s.recvOffset f.remaining) := by
        omega
      rw [hmin, ih (total + f.remaining) (want - f.remaining) _ (by omega) hrest]
      omega

/-- Up to the first missing byte everything is counted: if the tree holds
`[r, r + m)` and no marker sits inside it, a count of up to `m` bytes is
granted. -/
theorem le_contiguousFrom (maxBytes : Nat) (t : List RecvFragment) :
    ∀ (total r m : Nat), TreeOk r t → total + m ≤ maxBytes →
      (∀ x, r ≤ x → x < r + m → Held t x) →
      (∀ f ∈ t, f.len = 0 → r + m ≤ f.offset) →
      total + m ≤ contiguousFrom maxBytes t total r := by
  induction t with
  | nil =>
    intro total r m _ _ hheld _
    rcases Nat.eq_zero_or_pos m with rfl | hpos
    · exact le_refl _
    · obtain ⟨f, hf, -⟩ := hheld r (le_refl _) (by omega)
      simp at hf
  | cons f rest ih =>
    intro total r m h hmax hheld hmark
    rcases Nat.eq_zero_or_pos m with rfl | hpos
    · exact (contiguousFrom_le maxBytes (f :: rest) total r (by omega)).1
    have hok := h.head
    have hcons := hok.consumed_eq
    have hend := hok.end_lt
    have hdef : f.endOffset = f.offset + f.len := rfl
    have hremdef : f.remaining = f.len - f.consumed := rfl
    -- the first byte is in the front fragment: the others start behind it
    have hfront : f.offset ≤ r ∧ r < f.endOffset := by
      obtain ⟨g, hg, hgr⟩ := hheld r (le_refl _) (by omega)
      rcases List.mem_cons.mp hg with rfl | hg
      · exact hgr
      · have hle := h.head_end_le hg
        have hahead := hok.ahead
        have hm := hmark f List.mem_cons_self
        omega
    have hlog : add64 f.offset f.consumed = r := by
      rw [hok.logicalOffset]
      omega
    rw [contiguousFrom_cons, if_neg (by omega), if_neg (not_not.mpr hlog),
      if_neg (by omega)]
    generalize hn : min f.remaining (maxBytes - total) = n
    rw [add64_eq (by omega)]
    rcases Nat.lt_or_ge n m with hnm | hmn
    · have hnext : r + n = f.endOffset := by omega
      have hrec := ih (total + n) (r + n) (m - n)
        (treeOk_advance h (by omega) (by omega)) (by omega) ?_ ?_
      · omega
      · intro x h1 h2
        obtain ⟨g, hg, hgx⟩ := hheld x (by omega) (by omega)
        rcases List.mem_cons.mp hg with rfl | hg
        · omega
        · exact ⟨g, hg, hgx⟩
      · intro g hg hlen
        have := hmark g (List.mem_cons_of_mem _ hg) hlen
        omega
    · have := (contiguousFrom_le maxBytes rest (total + n) (r + n) (by omega)).1
      omega

end Eular.Utp
