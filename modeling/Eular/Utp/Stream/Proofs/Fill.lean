/-
The insertion loop of `onFrame`: storing a frame in the gaps between the
fragments already buffered.

`Filling` is the loop invariant. For a frame that carries the bytes `D`
from offset `lo` on, at cursor `c`: every byte in `[lo, c)` is buffered,
whatever was buffered before still is, whatever is new is a piece of the
frame, and the fragment inserted last (if any) starts at a byte that was
missing and reaches past every byte the frame contributed. The counter grows
by no more than the bytes of `[lo, c)` that were missing, so a piece is
refused only where all the missing bytes together are more than the cap
(`Filled`). `Ahead` is the half that speaks of the fragments the loop has
yet to meet. The loop itself is one structural induction
(`fillGaps_filling`) on these fragments, with two moves: a piece is
inserted (`Filling.insertPiece`), or the part a fragment already holds
is skipped (`Filling.trimBy`).

Everything the three properties of the receive half need about an
arrival is read off the invariant at the loop's end.
-/
import Eular.Utp.Stream.Proofs.Tree

namespace Eular.Utp

open Lib

variable {s₀ s : StreamImpl} {lo cursor : Nat} {D : List UInt8} {frameFin : Bool}
  {last : Option Nat} {rest : List RecvFragment}

variable {iter : RecvFragment} {k : Nat}

-- ==== the invariant

/-- `g` is a piece of the frame that carries `D` at `lo`. -/
structure Piece (lo : Nat) (D : List UInt8) (frameFin : Bool) (g : RecvFragment) :
    Prop where
  ge : lo ≤ g.offset
  pos : 0 < g.len
  le : g.endOffset ≤ lo + D.length
  bytes : ∀ i, i < g.len → g.data[i]? = D[g.offset - lo + i]?
  fin : g.fin = true → frameFin = true ∧ g.endOffset = lo + D.length

/-- The loop has stored the frame up to `cursor`. -/
structure Filling (s₀ : StreamImpl) (lo : Nat) (D : List UInt8) (frameFin : Bool)
    (cursor : Nat) (s : StreamImpl) (last : Option Nat) : Prop where
  same : SameButTree s₀ s
  tree : TreeOk s₀.recvOffset s.recvFragmentsTree
  cursor_ge : lo ≤ cursor
  cursor_le : cursor ≤ lo + D.length
  kept : ∀ g ∈ s₀.recvFragmentsTree, g.len ≠ 0 ∨ lo + D.length ≤ g.offset →
    g ∈ s.recvFragmentsTree
  origin : ∀ g ∈ s.recvFragmentsTree,
    g ∈ s₀.recvFragmentsTree ∨ Piece lo D frameFin g
  filled : ∀ x, lo ≤ x → x < cursor → Held s.recvFragmentsTree x
  last_none : last = none → s.recvFragmentsTree = s₀.recvFragmentsTree
  last_some : ∀ o, last = some o → ∃ g ∈ s.recvFragmentsTree,
    g.offset = o ∧ Piece lo D frameFin g ∧ ¬ Held s₀.recvFragmentsTree o ∧
    ∀ x, lo ≤ x → x < cursor → ¬ Held s₀.recvFragmentsTree x → x < g.endOffset
  counter : s.recvBufferedBytes
    ≤ s₀.recvBufferedBytes + missing s₀.recvFragmentsTree lo (cursor - lo)

/-- `rest` is the part of the tree at or above `cursor`, up to a marker
on the cursor itself; nothing below the cursor reaches across it. -/
structure Ahead (s₀ s : StreamImpl) (rest : List RecvFragment) (cursor : Nat) :
    Prop where
  mem₀ : ∀ g ∈ rest, g ∈ s₀.recvFragmentsTree
  mem : ∀ g ∈ rest, g ∈ s.recvFragmentsTree
  sorted : Sorted RecvFragment.offset rest
  ge : ∀ g ∈ rest, cursor ≤ g.offset
  behind : ∀ g ∈ s.recvFragmentsTree, g.offset < cursor → g.endOffset ≤ cursor
  all : ∀ g ∈ s.recvFragmentsTree, cursor ≤ g.offset →
    g ∈ rest ∨ g.offset = cursor ∧ g.len = 0

theorem filling_init (h : TreeOk s₀.recvOffset s₀.recvFragmentsTree) :
    Filling s₀ lo D frameFin lo s₀ none where
  same := SameButTree.refl s₀
  tree := h
  cursor_ge := le_refl _
  cursor_le := Nat.le_add_right _ _
  kept _ hg _ := hg
  origin _ hg := Or.inl hg
  filled x h1 h2 := by omega
  last_none _ := rfl
  last_some o ho := by simp at ho
  counter := Nat.le_add_right _ _

theorem Filling.held (h : Filling s₀ lo D frameFin cursor s last) {x : Nat}
    (hx : Held s₀.recvFragmentsTree x) : Held s.recvFragmentsTree x := by
  obtain ⟨f, hf, hfx⟩ := hx
  refine ⟨f, h.kept f hf (Or.inl ?_), hfx⟩
  have := hfx.2
  unfold RecvFragment.endOffset at this
  omega

-- ==== the two moves

/-- The fragment the loop makes for `k` bytes at the cursor holds `k`
bytes. -/
theorem piece_len (fin : Bool) (hlo : lo ≤ cursor)
    (hle : cursor + k ≤ lo + D.length) :
    RecvFragment.len { data := (D.drop (cursor - lo)).take k, offset := cursor, fin }
      = k := by
  show ((D.drop (cursor - lo)).take k).length = k
  rw [List.length_take, List.length_drop]
  omega

theorem piece_mk {fin : Bool} (hk : 0 < k) (hlo : lo ≤ cursor)
    (hle : cursor + k ≤ lo + D.length)
    (hfin : fin = true → frameFin = true ∧ cursor + k = lo + D.length) :
    Piece lo D frameFin
      { data := (D.drop (cursor - lo)).take k, offset := cursor, fin } := by
  have hlen := piece_len fin hlo hle
  refine ⟨hlo, ?_, ?_, ?_, ?_⟩
  · rw [hlen]
    exact hk
  · rw [RecvFragment.endOffset, hlen]
    exact hle
  · intro i hi
    rw [hlen] at hi
    rw [List.getElem?_take_of_lt hi, List.getElem?_drop]
  · intro h
    rw [RecvFragment.endOffset, hlen]
    exact hfin h

/-- The first move: `k` bytes of the frame go into a gap at the cursor.
Either the buffer is full and nothing changes, or the piece is stored
and the invariant holds `k` bytes further on. It is full only where the
bytes that were missing so far are too many. -/
theorem Filling.insertPiece (h : Filling s₀ lo D frameFin cursor s last)
    (hrecv : s₀.recvOffset ≤ lo) (hend : lo + D.length < 2 ^ 64)
    (fin : Bool) (hk : 0 < k) (hle : cursor + k ≤ lo + D.length)
    (hfin : fin = true → frameFin = true ∧ cursor + k = lo + D.length)
    (hbehind : ∀ g ∈ s.recvFragmentsTree, g.offset < cursor → g.endOffset ≤ cursor)
    (hgap : ∀ g ∈ s.recvFragmentsTree, cursor ≤ g.offset →
      cursor + k ≤ g.offset ∨ g.offset = cursor ∧ g.len = 0) :
    let r := s.insertPiece cursor ((D.drop (cursor - lo)).take k) fin last
    (r = ⟨.error .wouldBlock "recv buffer full", s, last⟩
      ∧ StreamImpl.kMaxRecvFragmentBytes < s₀.recvBufferedBytes
        + missing s₀.recvFragmentsTree lo (cursor + k - lo))
    ∨ (r.status = .success ∧ r.insertedLast = some cursor
      ∧ r.stream.recvFragmentsTree = put RecvFragment.offset
          { data := (D.drop (cursor - lo)).take k, offset := cursor, fin }
          s.recvFragmentsTree
      ∧ Filling s₀ lo D frameFin (cursor + k) r.stream r.insertedLast) := by
  have hlen := piece_len fin h.cursor_ge hle
  have hpiece := piece_mk hk h.cursor_ge hle hfin
  generalize hp : ({ data := (D.drop (cursor - lo)).take k, offset := cursor, fin } :
    RecvFragment) = p at hpiece hlen
  have hoff : p.offset = cursor := by rw [← hp]
  have hcons : p.consumed = 0 := by rw [← hp]
  have hpend : p.endOffset = cursor + k := by rw [RecvFragment.endOffset, hoff, hlen]
  -- what is stored was missing before
  have hnew : ∀ x, cursor ≤ x → x < cursor + k → ¬ Held s₀.recvFragmentsTree x := by
    rintro x hx1 hx2 ⟨f, hf, hf1, hf2⟩
    have hne : f.len ≠ 0 := by
      unfold RecvFragment.endOffset at hf2
      omega
    have hfs := h.kept f hf (Or.inl hne)
    rcases Nat.lt_or_ge f.offset cursor with hlt | hge
    · have := hbehind f hfs hlt
      omega
    · have := hgap f hfs hge
      omega
  have hmissing : missing s₀.recvFragmentsTree lo (cursor + k - lo)
      = missing s₀.recvFragmentsTree lo (cursor - lo) + k := by
    have hge := h.cursor_ge
    have hsplit : cursor + k - lo = cursor - lo + k := by omega
    have hcursor : lo + (cursor - lo) = cursor := by omega
    rw [hsplit, missing_add, hcursor, missing_eq hnew]
  have hcounter := h.counter
  intro r
  have hr : r = ⟨(s.insertRecvFragment p).status, (s.insertRecvFragment p).stream,
      if (s.insertRecvFragment p).inserted then some cursor else last⟩ := by
    rw [← hp]
    rfl
  rcases insertRecvFragment_cases s p h.tree.sorted with
    ⟨hfull, -, hover⟩ | ⟨-, g, hg, hgoff, hglen⟩ | ⟨hst, hins, hsame, htree, hshort, hgrown⟩
  · refine Or.inl ⟨?_, by omega⟩
    rw [hr, hfull]
    rfl
  · -- a fragment on the cursor that is as long as the piece is no marker
    have hgl := hgap g hg (by omega)
    omega
  · refine Or.inr ?_
    rw [hr, hst, hins, htree]
    refine ⟨rfl, rfl, rfl, ?_⟩
    have hok : p.Ok s₀.recvOffset := by
      have hge := h.cursor_ge
      refine ⟨by omega, by omega, ?_⟩
      omega
    have hmem : ∀ g, g ∈ (s.insertRecvFragment p).stream.recvFragmentsTree ↔
        g = p ∨ g ∈ s.recvFragmentsTree ∧ g.offset ≠ p.offset := by
      intro g
      rw [htree]
      exact mem_put h.tree.sorted
    have hself : p ∈ (s.insertRecvFragment p).stream.recvFragmentsTree :=
      (hmem p).mpr (Or.inl rfl)
    -- only a marker can have been replaced
    have hstay : ∀ g ∈ s.recvFragmentsTree, g.len ≠ 0 ∨ lo + D.length ≤ g.offset →
        g ∈ (s.insertRecvFragment p).stream.recvFragmentsTree := by
      intro g hg hne
      refine (hmem g).mpr (Or.inr ⟨hg, ?_⟩)
      intro hgoff
      have := hgap g hg (by omega)
      omega
    have hheld : ∀ x, Held s.recvFragmentsTree x →
        Held (s.insertRecvFragment p).stream.recvFragmentsTree x := by
      rintro x ⟨g, hg, hx⟩
      have hne : g.len ≠ 0 := by
        have := hx.2
        unfold RecvFragment.endOffset at this
        omega
      exact ⟨g, hstay g hg (Or.inl hne), hx⟩
    refine ⟨h.same.trans hsame, ?_, ?_, hle, ?_, ?_, ?_, ?_, ?_, ?_⟩
    · rw [htree]
      refine h.tree.put hok ?_ ?_
      · rw [hoff]
        exact hbehind
      · intro g hg hlt
        have := hgap g hg (by omega)
        omega
    · have := h.cursor_ge
      omega
    · intro g hg hne
      exact hstay g (h.kept g hg hne) hne
    · intro g hg
      rcases (hmem g).mp hg with rfl | ⟨hg, -⟩
      · exact Or.inr hpiece
      · exact h.origin g hg
    · intro x hlo hx
      by_cases hxc : x < cursor
      · exact hheld x (h.filled x hlo hxc)
      · exact ⟨p, hself, by omega, by omega⟩
    · intro hnone
      simp at hnone
    · intro o ho
      obtain rfl : cursor = o := by simpa using ho
      refine ⟨p, hself, hoff, hpiece, hnew cursor le_rfl (by omega), ?_⟩
      intro x _ hx _
      omega
    · have hremaining : p.remaining = k := by rw [RecvFragment.remaining, hcons, hlen, Nat.sub_zero]
      dsimp only
      omega

/-- The second move: bytes that `iter` already holds are skipped. -/
theorem Filling.skip (h : Filling s₀ lo D frameFin cursor s last)
    (hmem₀ : iter ∈ s₀.recvFragmentsTree)
    (hmem : iter ∈ s.recvFragmentsTree)
    (hle : cursor + k ≤ lo + D.length)
    (hheld : ∀ x, cursor ≤ x → x < cursor + k → iter.offset ≤ x ∧ x < iter.endOffset) :
    Filling s₀ lo D frameFin (cursor + k) s last where
  same := h.same
  tree := h.tree
  cursor_ge := by
    have := h.cursor_ge
    omega
  cursor_le := hle
  kept := h.kept
  origin := h.origin
  filled := by
    intro x hlo hx
    by_cases hxc : x < cursor
    · exact h.filled x hlo hxc
    · exact ⟨iter, hmem, hheld x (by omega) hx⟩
  last_none := h.last_none
  last_some := by
    intro o ho
    obtain ⟨g, hg, hoff, hpiece, hnew, hpast⟩ := h.last_some o ho
    refine ⟨g, hg, hoff, hpiece, hnew, ?_⟩
    intro x hlo hx hnot
    by_cases hxc : x < cursor
    · exact hpast x hlo hxc hnot
    · exact absurd ⟨iter, hmem₀, hheld x (by omega) hx⟩ hnot
  counter := by
    have hge := h.cursor_ge
    have hsplit : cursor + k - lo = cursor - lo + k := by omega
    rw [hsplit, missing_add]
    exact h.counter.trans (by omega)

/-- What `trimBy` computes when nothing wraps: it skips the overlap. -/
theorem trimBy_eq {data : List UInt8}
    (hiter : iter.endOffset < 2 ^ 64) (hdata : cursor + data.length < 2 ^ 64) :
    StreamImpl.trimBy iter cursor data
      = (cursor + min (iter.endOffset - cursor) data.length,
         data.drop (min (iter.endOffset - cursor) data.length)) := by
  have hend : add64 iter.offset iter.len = iter.endOffset := add64_eq hiter
  unfold StreamImpl.trimBy
  simp only [hend]
  split
  case isTrue hle =>
    have hzero : iter.endOffset - cursor = 0 := by omega
    rw [hzero, Nat.zero_min, List.drop_zero, Nat.add_zero]
  case isFalse hgt =>
    rw [add64_eq (by omega)]

/-- Past a fragment that starts at or below the cursor, what is still
ahead is what was ahead after it. -/
theorem Ahead.past (htree : TreeOk s₀.recvOffset s.recvFragmentsTree)
    (hiter : iter ∈ s.recvFragmentsTree) (hle : iter.offset ≤ cursor)
    (hmem₀ : ∀ g ∈ rest, g ∈ s₀.recvFragmentsTree)
    (hmem : ∀ g ∈ rest, g ∈ s.recvFragmentsTree)
    (hsorted : Sorted RecvFragment.offset rest)
    (hge : ∀ g ∈ rest, cursor ≤ g.offset ∧ iter.offset < g.offset)
    (hbehind : ∀ g ∈ s.recvFragmentsTree, g.offset < cursor →
      g.endOffset ≤ cursor ∨ g = iter)
    (hall : ∀ g ∈ s.recvFragmentsTree, cursor ≤ g.offset →
      g ∈ rest ∨ g = iter ∨ g.offset = cursor ∧ g.len = 0) :
    Ahead s₀ s rest (max cursor iter.endOffset) where
  mem₀ := hmem₀
  mem := hmem
  sorted := hsorted
  ge := by
    intro g hg
    have h1 := hge g hg
    have h2 := htree.apart iter hiter g (hmem g hg) h1.2
    omega
  behind := by
    intro g hg hlt
    by_cases hgc : g.offset < cursor
    · rcases hbehind g hg hgc with hend | rfl
      · omega
      · omega
    · -- between the cursor and the end of `iter` only `iter` can start
      rcases Nat.lt_or_ge iter.offset g.offset with hlt' | hge'
      · have := htree.apart iter hiter g hg hlt'
        omega
      · have heq : g.offset = iter.offset := by omega
        rw [htree.sorted.eq_of_key hg hiter heq]
        omega
  all := by
    intro g hg hle'
    rcases hall g hg (by omega) with hmem' | rfl | ⟨hoff, hlen⟩
    · exact Or.inl hmem'
    · refine Or.inr ?_
      unfold RecvFragment.endOffset at hle' ⊢
      omega
    · refine Or.inr ⟨?_, hlen⟩
      omega

-- ==== the loop

/-- What the loop answers: either the whole frame is stored, or the
buffer was full at some cursor and the frame is stored up to there; the
bytes of the frame that were missing are then more than the cap allows. -/
def Filled (s₀ : StreamImpl) (lo : Nat) (D : List UInt8) (frameFin : Bool)
    (r : StreamImpl.Fill) : Prop :=
  ∃ c, Filling s₀ lo D frameFin c r.stream r.insertedLast ∧
    (r.status = .success ∧ c = lo + D.length
      ∨ r.status = .error .wouldBlock "recv buffer full"
        ∧ StreamImpl.kMaxRecvFragmentBytes < s₀.recvBufferedBytes
          + missing s₀.recvFragmentsTree lo D.length)

/-- What is too much for a part of the frame is too much for all of it. -/
private theorem over_of_part {c : Nat} (hlo : lo ≤ c) (hle : c ≤ lo + D.length)
    (h : StreamImpl.kMaxRecvFragmentBytes < s₀.recvBufferedBytes
      + missing s₀.recvFragmentsTree lo (c - lo)) :
    StreamImpl.kMaxRecvFragmentBytes < s₀.recvBufferedBytes
      + missing s₀.recvFragmentsTree lo D.length := by
  have hsplit : D.length = c - lo + (lo + D.length - c) := by omega
  rw [hsplit, missing_add]
  omega

private theorem insertPiece_filled (h : Filling s₀ lo D frameFin cursor s last)
    (hrecv : s₀.recvOffset ≤ lo) (hend : lo + D.length < 2 ^ 64)
    (hlt : cursor < lo + D.length)
    (hbehind : ∀ g ∈ s.recvFragmentsTree, g.offset < cursor → g.endOffset ≤ cursor)
    (hgap : ∀ g ∈ s.recvFragmentsTree, cursor ≤ g.offset →
      lo + D.length ≤ g.offset ∨ g.offset = cursor ∧ g.len = 0) :
    Filled s₀ lo D frameFin
      (s.insertPiece cursor (D.drop (cursor - lo))
        (frameFin && add64 cursor (D.drop (cursor - lo)).length == lo + D.length)
        last) := by
  have hge := h.cursor_ge
  have hlen : (D.drop (cursor - lo)).length = lo + D.length - cursor := by
    rw [List.length_drop]
    omega
  have htake : D.drop (cursor - lo)
      = (D.drop (cursor - lo)).take (lo + D.length - cursor) := by
    rw [List.take_of_length_le (le_of_eq hlen)]
  have hadd : add64 cursor (D.drop (cursor - lo)).length = lo + D.length := by
    rw [hlen, add64_eq (by omega)]
    omega
  have hsum : cursor + (lo + D.length - cursor) = lo + D.length := by omega
  rw [hadd, htake]
  rcases h.insertPiece hrecv hend (frameFin && lo + D.length == lo + D.length)
      (show 0 < lo + D.length - cursor by omega) (by omega)
      (by intro hf; exact ⟨by simpa using hf, hsum⟩) hbehind (by rwa [hsum]) with
    ⟨hfull, hover⟩ | ⟨hst, -, -, hfilling⟩
  · rw [hfull]
    exact ⟨cursor, h, Or.inr ⟨rfl, over_of_part (by omega) (by omega) hover⟩⟩
  · rw [hsum] at hfilling
    exact ⟨_, hfilling, Or.inl ⟨hst, rfl⟩⟩

/-- After the gap before `iter` is stored, the cursor is on `iter`. -/
private theorem Ahead.insert {s' : StreamImpl} {p : RecvFragment}
    (h : Ahead s₀ s (iter :: rest) cursor)
    (htree : TreeOk s₀.recvOffset s.recvFragmentsTree) (hlt : cursor < iter.offset)
    (hput : s'.recvFragmentsTree = put RecvFragment.offset p s.recvFragmentsTree)
    (hoff : p.offset = cursor) (hpend : p.endOffset = iter.offset) :
    Ahead s₀ s' (iter :: rest) iter.offset := by
  have hiter : ∀ g ∈ iter :: rest, iter.offset ≤ g.offset := by
    intro g hg
    rcases List.mem_cons.mp hg with rfl | hg
    · exact le_refl _
    · exact (h.sorted.head_lt hg).le
  have hmem : ∀ g, g ∈ s'.recvFragmentsTree ↔
      g = p ∨ g ∈ s.recvFragmentsTree ∧ g.offset ≠ p.offset := by
    intro g
    rw [hput]
    exact mem_put htree.sorted
  refine ⟨h.mem₀, ?_, h.sorted, hiter, ?_, ?_⟩
  · intro g hg
    have := hiter g hg
    exact (hmem g).mpr (Or.inr ⟨h.mem g hg, by omega⟩)
  · intro g hg hlt'
    rcases (hmem g).mp hg with rfl | ⟨hg', -⟩
    · exact le_of_eq hpend
    · rcases Nat.lt_or_ge g.offset cursor with hc | hc
      · have := h.behind g hg' hc
        omega
      · rcases h.all g hg' hc with hr | ⟨hgoff, hlen⟩
        · have := hiter g hr
          omega
        · unfold RecvFragment.endOffset
          omega
  · intro g hg hle
    rcases (hmem g).mp hg with rfl | ⟨hg', -⟩
    · omega
    · rcases h.all g hg' (by omega) with hr | ⟨hgoff, hlen⟩
      · exact Or.inl hr
      · omega

/-- With the cursor on `iter`: skip what it holds, then the rest of the
loop. -/
private theorem fillGaps_past
    (ih : ∀ (cursor : Nat) (s : StreamImpl) (last : Option Nat),
      Filling s₀ lo D frameFin cursor s last →
      (cursor < lo + D.length → Ahead s₀ s rest cursor) →
      Filled s₀ lo D frameFin
        (StreamImpl.fillGaps frameFin (lo + D.length) rest cursor
          (D.drop (cursor - lo)) s last))
    (hend : lo + D.length < 2 ^ 64)
    (h : Filling s₀ lo D frameFin iter.offset s last)
    (hahead : Ahead s₀ s (iter :: rest) iter.offset) :
    Filled s₀ lo D frameFin
      (StreamImpl.fillGaps frameFin (lo + D.length) rest
        (StreamImpl.trimBy iter iter.offset (D.drop (iter.offset - lo))).1
        (StreamImpl.trimBy iter iter.offset (D.drop (iter.offset - lo))).2 s last) := by
  have hge := h.cursor_ge
  have hle := h.cursor_le
  have hmem := hahead.mem iter List.mem_cons_self
  have hlen : (D.drop (iter.offset - lo)).length = lo + D.length - iter.offset := by
    rw [List.length_drop]
    omega
  rw [trimBy_eq (h.tree.fragment iter hmem).end_lt (by omega), hlen]
  generalize hk : min (iter.endOffset - iter.offset) (lo + D.length - iter.offset) = k
  have hdrop : (D.drop (iter.offset - lo)).drop k = D.drop (iter.offset + k - lo) := by
    rw [List.drop_drop]
    congr 1
    omega
  simp only [hdrop]
  refine ih _ _ _ (h.skip (hahead.mem₀ iter List.mem_cons_self) hmem (by omega) ?_) ?_
  · intro x h1 h2
    omega
  · intro hlt
    have hcursor : iter.offset + k = max iter.offset iter.endOffset := by
      unfold RecvFragment.endOffset at hk ⊢
      omega
    rw [hcursor]
    refine Ahead.past h.tree hmem (le_refl _) ?_ ?_ hahead.sorted.tail ?_ ?_ ?_
    · intro g hg
      exact hahead.mem₀ g (List.mem_cons_of_mem _ hg)
    · intro g hg
      exact hahead.mem g (List.mem_cons_of_mem _ hg)
    · intro g hg
      have := hahead.sorted.head_lt hg
      exact ⟨this.le, this⟩
    · intro g hg hlt'
      exact Or.inl (hahead.behind g hg hlt')
    · intro g hg hle'
      rcases hahead.all g hg hle' with hr | hmark
      · rcases List.mem_cons.mp hr with rfl | hr
        · exact Or.inr (Or.inl rfl)
        · exact Or.inl hr
      · exact Or.inr (Or.inr hmark)

theorem fillGaps_filled (frameFin : Bool) (hrecv : s₀.recvOffset ≤ lo)
    (hend : lo + D.length < 2 ^ 64)
    (rest : List RecvFragment) :
    ∀ (cursor : Nat) (s : StreamImpl) (last : Option Nat),
      Filling s₀ lo D frameFin cursor s last →
      (cursor < lo + D.length → Ahead s₀ s rest cursor) →
      Filled s₀ lo D frameFin
        (StreamImpl.fillGaps frameFin (lo + D.length) rest cursor
          (D.drop (cursor - lo)) s last) := by
  -- along the fragments the loop has yet to meet
  induction rest with
  | nil =>
    intro cursor s last h hahead
    have hge := h.cursor_ge
    have hle := h.cursor_le
    unfold StreamImpl.fillGaps
    by_cases hlt : cursor < lo + D.length
    · rw [if_neg (by rw [List.isEmpty_iff, List.drop_eq_nil_iff]; omega)]
      refine insertPiece_filled h hrecv hend hlt (hahead hlt).behind ?_
      intro g hg hc
      rcases (hahead hlt).all g hg hc with hr | hmark
      · simp at hr
      · exact Or.inr hmark
    · rw [if_pos (by rw [List.isEmpty_iff, List.drop_eq_nil_iff]; omega)]
      exact ⟨cursor, h, Or.inl ⟨rfl, by omega⟩⟩
  | cons iter rest ih =>
    intro cursor s last h hahead
    have hge := h.cursor_ge
    have hle := h.cursor_le
    have hlen : (D.drop (cursor - lo)).length = lo + D.length - cursor := by
      rw [List.length_drop]
      omega
    have hadd : add64 cursor (D.drop (cursor - lo)).length = lo + D.length := by
      rw [hlen, add64_eq (by omega)]
      omega
    unfold StreamImpl.fillGaps
    by_cases hlt : cursor < lo + D.length
    case neg =>
      rw [if_pos (by rw [List.isEmpty_iff, List.drop_eq_nil_iff]; omega)]
      exact ⟨cursor, h, Or.inl ⟨rfl, by omega⟩⟩
    have ha := hahead hlt
    have hiter : ∀ g ∈ s.recvFragmentsTree, cursor ≤ g.offset →
        iter.offset ≤ g.offset ∨ g.offset = cursor ∧ g.len = 0 := by
      intro g hg hc
      rcases ha.all g hg hc with hr | hmark
      · rcases List.mem_cons.mp hr with rfl | hr
        · exact Or.inl (le_refl _)
        · exact Or.inl (ha.sorted.head_lt hr).le
      · exact Or.inr hmark
    rw [if_neg (by rw [List.isEmpty_iff, List.drop_eq_nil_iff]; omega)]
    by_cases hbeyond : lo + D.length ≤ iter.offset
    · rw [if_pos (by rw [hadd]; exact hbeyond)]
      refine insertPiece_filled h hrecv hend hlt ha.behind ?_
      intro g hg hc
      have := hiter g hg hc
      omega
    rw [if_neg (by rw [hadd]; exact hbeyond)]
    by_cases hgap : cursor < iter.offset
    · -- the gap before `iter` is stored first
      rw [if_pos hgap]
      have hchunk : min (iter.offset - cursor) (D.drop (cursor - lo)).length
          = iter.offset - cursor := by
        omega
      have hsum : cursor + (iter.offset - cursor) = iter.offset := by omega
      simp only [hchunk]
      rcases h.insertPiece hrecv hend false (show 0 < iter.offset - cursor by omega)
          (by omega) (by simp) ha.behind (by rwa [hsum]) with
        ⟨hfull, hover⟩ | ⟨hst, hlast, hput, hfilling⟩
      · rw [hfull]
        exact ⟨cursor, h, Or.inr ⟨rfl, over_of_part (by omega) (by omega) hover⟩⟩
      · rw [hst, if_pos Status.ok_success]
        rw [hsum] at hfilling
        have hdrop : (D.drop (cursor - lo)).drop (iter.offset - cursor)
            = D.drop (iter.offset - lo) := by
          rw [List.drop_drop]
          congr 1
          omega
        rw [add64_eq (by omega), hsum, hdrop]
        have hplen := piece_len (D := D) (k := iter.offset - cursor) false hge (by omega)
        refine fillGaps_past ih hend hfilling (ha.insert h.tree hgap hput rfl ?_)
        rw [RecvFragment.endOffset, hplen]
        exact hsum
    · rw [if_neg hgap]
      have heq : cursor = iter.offset :=
        le_antisymm (ha.ge iter List.mem_cons_self) (not_lt.mp hgap)
      subst heq
      exact fillGaps_past ih hend h ha

end Eular.Utp
