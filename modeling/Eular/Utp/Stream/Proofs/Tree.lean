/-
The fragment tree: what a well-formed one is, and what one insertion,
one FIN mark and one dropped marker do to it.

`TreeOk r t` is the shape every proof about the receive half works with,
for a tree `t` of a stream that has consumed the bytes below `r`: sorted,
no fragment reaching into the next one, every fragment still ahead of
`r` and consumed exactly up to it. It is stronger than what a reader of
the stream observes (it also keeps zero-length FIN markers out of other
fragments), and that strength is what makes it inductive: the overlap
test of `onFrame` looks at one predecessor only, which suffices exactly
when nothing else can reach across it.

`Counted` is the byte counter's half. It needs none of the above and
survives every operation whatever the peer sends.
-/
import Eular.Utp.Stream.Recv

namespace Eular.Utp

open Lib

variable {f : RecvFragment}

theorem add64_eq {a b : Nat} (h : a + b < 2 ^ 64) : add64 a b = a + b :=
  Nat.mod_eq_of_lt h

-- ==== fragments

namespace RecvFragment

/-- One past the last byte of the fragment. -/
def endOffset (f : RecvFragment) : Nat := f.offset + f.len

/-- The fragment is where a stream that consumed the bytes below `r`
should have it. -/
structure Ok (r : Nat) (f : RecvFragment) : Prop where
  consumed_eq : f.consumed = r - f.offset
  end_lt : f.endOffset < 2 ^ 64
  ahead : r < f.endOffset ∨ f.len = 0 ∧ r ≤ f.offset

variable {r : Nat} {f : RecvFragment}

theorem Ok.consumed_le (h : Ok r f) : f.consumed ≤ f.len := by
  have h1 := h.consumed_eq
  have h2 := h.ahead
  unfold endOffset at h2
  omega

/-- The offset the source calls `logicalOffset`. -/
theorem Ok.logicalOffset (h : Ok r f) :
    add64 f.offset f.consumed = max f.offset r := by
  have h1 := h.consumed_eq
  have h2 := h.end_lt
  have h3 := h.consumed_le
  unfold endOffset at h2
  rw [add64_eq (by omega)]
  omega

/-- Nothing is left to read of a well-placed fragment only when it is a
marker. -/
theorem Ok.len_eq_zero (h : Ok r f) (hrem : f.remaining = 0) :
    f.len = 0 ∧ r ≤ f.offset := by
  have h1 := h.consumed_eq
  have h2 := h.ahead
  unfold remaining at hrem
  unfold endOffset at h2
  omega

/-- `end` as the source computes it. -/
theorem Ok.endOffset_eq (h : Ok r f) : add64 f.offset f.len = f.endOffset :=
  add64_eq h.end_lt

end RecvFragment

-- ==== trees

/-- Byte `x` of the stream is buffered. -/
def Held (t : List RecvFragment) (x : Nat) : Prop :=
  ∃ f ∈ t, f.offset ≤ x ∧ x < f.endOffset

instance (t : List RecvFragment) (x : Nat) : Decidable (Held t x) :=
  inferInstanceAs (Decidable (∃ f ∈ t, f.offset ≤ x ∧ x < f.endOffset))

/-- How many of the `n` bytes from `lo` on are not buffered. -/
def missing (t : List RecvFragment) (lo n : Nat) : Nat :=
  (List.range' lo n).countP fun x => ¬ Held t x

theorem missing_add (t : List RecvFragment) (lo m n : Nat) :
    missing t lo (m + n) = missing t lo m + missing t (lo + m) n := by
  unfold missing
  rw [← List.countP_append, List.range'_append_1]

theorem missing_eq {t : List RecvFragment} {lo n : Nat}
    (h : ∀ x, lo ≤ x → x < lo + n → ¬ Held t x) : missing t lo n = n := by
  have hall : (List.range' lo n).countP (fun x => ¬ Held t x) = (List.range' lo n).length :=
    List.countP_eq_length.mpr fun x hx => by
      obtain ⟨h1, h2⟩ := List.mem_range'_1.mp hx
      exact decide_eq_true (h x h1 h2)
  exact hall.trans List.length_range'

/-- A well-formed fragment tree of a stream that consumed the bytes below
`r`. -/
structure TreeOk (r : Nat) (t : List RecvFragment) : Prop where
  sorted : Sorted RecvFragment.offset t
  apart : ∀ f ∈ t, ∀ g ∈ t, f.offset < g.offset → f.endOffset ≤ g.offset
  fragment : ∀ f ∈ t, f.Ok r

variable {r : Nat} {t t' : List RecvFragment}

theorem Held.mono (h : ∀ f ∈ t, f ∈ t') {x : Nat} (hx : Held t x) : Held t' x := by
  obtain ⟨f, hf, hx⟩ := hx
  exact ⟨f, h f hf, hx⟩

theorem treeOk_nil (r : Nat) : TreeOk r [] :=
  ⟨List.Pairwise.nil, by simp, by simp⟩

theorem TreeOk.sublist (h : TreeOk r t) (hs : t'.Sublist t) : TreeOk r t' where
  sorted := List.Pairwise.sublist hs h.sorted
  apart f hf g hg := h.apart f (hs.subset hf) g (hs.subset hg)
  fragment f hf := h.fragment f (hs.subset hf)

theorem TreeOk.tail (h : TreeOk r (f :: t)) : TreeOk r t :=
  h.sublist (List.sublist_cons_self f t)

theorem TreeOk.head (h : TreeOk r (f :: t)) : f.Ok r :=
  h.fragment f List.mem_cons_self

theorem TreeOk.head_end_le {f g : RecvFragment} (h : TreeOk r (f :: t))
    (hg : g ∈ t) : f.endOffset ≤ g.offset :=
  h.apart f List.mem_cons_self g (List.mem_cons_of_mem _ hg) (h.sorted.head_lt hg)

-- ==== marking a FIN

/-- The per-fragment effect of `setFin`. -/
def finAt (offset : Nat) (g : RecvFragment) : RecvFragment :=
  if g.offset = offset then { g with fin := true } else g

variable (o : Nat) (g : RecvFragment)

@[simp] theorem finAt_offset : (finAt o g).offset = g.offset := by
  unfold finAt; split <;> rfl

@[simp] theorem finAt_data : (finAt o g).data = g.data := by
  unfold finAt; split <;> rfl

@[simp] theorem finAt_consumed :
    (finAt o g).consumed = g.consumed := by
  unfold finAt; split <;> rfl

@[simp] theorem finAt_len : (finAt o g).len = g.len := by
  simp [RecvFragment.len]

@[simp] theorem finAt_endOffset :
    (finAt o g).endOffset = g.endOffset := by
  simp [RecvFragment.endOffset]

@[simp] theorem finAt_remaining :
    (finAt o g).remaining = g.remaining := by
  simp [RecvFragment.remaining]

theorem setFin_tree (s : StreamImpl) (o : Nat) :
    (s.setFin o).recvFragmentsTree = s.recvFragmentsTree.map (finAt o) := rfl

theorem held_map_finAt (o x : Nat) : Held (t.map (finAt o)) x ↔ Held t x := by
  simp [Held]

theorem RecvFragment.Ok.finAt (h : f.Ok r) (o : Nat) :
    (finAt o f).Ok r where
  consumed_eq := by simpa using h.consumed_eq
  end_lt := by simpa using h.end_lt
  ahead := by simpa using h.ahead

theorem TreeOk.map_finAt (h : TreeOk r t) (o : Nat) : TreeOk r (t.map (finAt o)) where
  sorted := h.sorted.map (finAt_offset o)
  apart := by
    intro f hf g hg hlt
    obtain ⟨f, hf', rfl⟩ := List.mem_map.mp hf
    obtain ⟨g, hg', rfl⟩ := List.mem_map.mp hg
    simp only [finAt_offset, finAt_endOffset] at hlt ⊢
    exact h.apart f hf' g hg' hlt
  fragment := by
    intro f hf
    obtain ⟨f, hf', rfl⟩ := List.mem_map.mp hf
    exact (h.fragment f hf').finAt o

-- ==== insertion

/-- `s'` is `s` with another tree and counter. -/
def SameButTree (s s' : StreamImpl) : Prop :=
  s' = { s with
    recvFragmentsTree := s'.recvFragmentsTree
    recvBufferedBytes := s'.recvBufferedBytes }

theorem SameButTree.refl (s : StreamImpl) : SameButTree s s := rfl

theorem SameButTree.trans {s₁ s₂ s₃ : StreamImpl} (h : SameButTree s₁ s₂)
    (h' : SameButTree s₂ s₃) : SameButTree s₁ s₃ := by
  unfold SameButTree at h h' ⊢
  rw [h', h]

theorem SameButTree.recvOffset {s s' : StreamImpl} (h : SameButTree s s') :
    s'.recvOffset = s.recvOffset := by
  rw [h]

theorem SameButTree.peerFin {s s' : StreamImpl} (h : SameButTree s s') :
    s'.peerFin = s.peerFin := by
  rw [h]

/-- The three answers of `insertRecvFragment`: buffer full, a fragment at
least as long already there, stored. -/
theorem insertRecvFragment_cases (s : StreamImpl) (p : RecvFragment)
    (hs : Sorted RecvFragment.offset s.recvFragmentsTree) :
    (s.insertRecvFragment p = ⟨.error .wouldBlock "recv buffer full", false, s⟩
      ∧ 0 < p.len ∧ StreamImpl.kMaxRecvFragmentBytes < s.recvBufferedBytes + p.len)
    ∨ (s.insertRecvFragment p = ⟨.success, false, s⟩
      ∧ ∃ g ∈ s.recvFragmentsTree, g.offset = p.offset ∧ p.len ≤ g.len)
    ∨ ((s.insertRecvFragment p).status = .success
      ∧ (s.insertRecvFragment p).inserted = true
      ∧ SameButTree s (s.insertRecvFragment p).stream
      ∧ (s.insertRecvFragment p).stream.recvFragmentsTree
          = put RecvFragment.offset p s.recvFragmentsTree
      ∧ (∀ g ∈ s.recvFragmentsTree, g.offset = p.offset → g.len < p.len)
      ∧ (s.insertRecvFragment p).stream.recvBufferedBytes
          ≤ s.recvBufferedBytes + p.remaining) := by
  unfold StreamImpl.insertRecvFragment
  split
  case isTrue hfull => exact Or.inl ⟨rfl, hfull⟩
  cases hfind : lookup RecvFragment.offset p.offset s.recvFragmentsTree with
  | none =>
    refine Or.inr (Or.inr ⟨rfl, rfl, rfl, rfl, ?_, Nat.le_refl _⟩)
    intro g hg hoff
    exact absurd hoff (lookup_eq_none hfind hg)
  | some c =>
    obtain ⟨hc, hoff⟩ := lookup_eq_some hfind
    by_cases hlen : p.len ≤ c.len
    · refine Or.inr (Or.inl ⟨?_, c, hc, hoff, hlen⟩)
      exact if_pos hlen
    · simp only
      rw [if_neg hlen]
      refine Or.inr (Or.inr ⟨rfl, rfl, rfl, rfl, ?_,
        Nat.add_le_add_right (Nat.sub_le _ _) _⟩)
      intro g hg hgoff
      rw [hs.eq_of_key hg hc (hgoff.trans hoff.symm)]
      omega

theorem TreeOk.put {p : RecvFragment} (h : TreeOk r t) (hp : p.Ok r)
    (hbelow : ∀ g ∈ t, g.offset < p.offset → g.endOffset ≤ p.offset)
    (habove : ∀ g ∈ t, p.offset < g.offset → p.endOffset ≤ g.offset) :
    TreeOk r (put RecvFragment.offset p t) where
  sorted := sorted_put h.sorted
  apart := by
    intro f hf g hg hlt
    rcases (mem_put h.sorted).mp hf with rfl | ⟨hf', -⟩ <;>
      rcases (mem_put h.sorted).mp hg with rfl | ⟨hg', -⟩
    · omega
    · exact habove g hg' hlt
    · exact hbelow f hf' hlt
    · exact h.apart f hf' g hg' hlt
  fragment := by
    intro f hf
    rcases (mem_put h.sorted).mp hf with rfl | ⟨hf', -⟩
    · exact hp
    · exact h.fragment f hf'

-- ==== the byte counter

/-- The counter is the number of unread bytes, and within the cap. -/
structure Counted (s : StreamImpl) : Prop where
  sorted : Sorted RecvFragment.offset s.recvFragmentsTree
  sum_eq : s.recvBufferedBytes = (s.recvFragmentsTree.map RecvFragment.remaining).sum
  le_cap : s.recvBufferedBytes ≤ StreamImpl.kMaxRecvFragmentBytes

/-- The counter survives an insertion: only bytes that fit are added, and
a replaced fragment's bytes are taken off. -/
theorem Counted.insertRecvFragment {s : StreamImpl} (h : Counted s)
    (p : RecvFragment) : Counted (s.insertRecvFragment p).stream := by
  have hrem : p.remaining ≤ p.len := Nat.sub_le _ _
  unfold StreamImpl.insertRecvFragment
  split
  case isTrue hfull => exact h
  case isFalse hfits =>
    have hcap := h.le_cap
    cases hfind : lookup RecvFragment.offset p.offset s.recvFragmentsTree with
    | none =>
      have hperm := (put_perm_of_lookup_none hfind).map RecvFragment.remaining
      refine ⟨sorted_put h.sorted, ?_, ?_⟩
      · simp only
        rw [hperm.sum_eq, List.map_cons, List.sum_cons, h.sum_eq]
        omega
      · simp only
        omega
    | some c =>
      have hperm :=
        ((put_perm_of_lookup_some h.sorted hfind).map RecvFragment.remaining).sum_eq
      simp only [List.map_cons, List.sum_cons] at hperm
      have hle : c.remaining ≤ (s.recvFragmentsTree.map RecvFragment.remaining).sum :=
        List.le_sum_of_mem (List.mem_map_of_mem (lookup_eq_some hfind).1)
      have hsum := h.sum_eq
      by_cases hlen : p.len ≤ c.len
      · simp only [hlen, if_true]
        exact h
      · simp only [hlen, if_false]
        refine ⟨sorted_put h.sorted, ?_, ?_⟩
        · simp only
          omega
        · simp only
          omega

theorem Counted.setFin {s : StreamImpl} (h : Counted s) (o : Nat) :
    Counted (s.setFin o) where
  sorted := h.sorted.map (finAt_offset o)
  sum_eq := by
    rw [setFin_tree, List.map_map]
    have hg : RecvFragment.remaining ∘ finAt o = RecvFragment.remaining := by
      funext g
      simp
    rw [hg]
    exact h.sum_eq
  le_cap := h.le_cap

end Eular.Utp
