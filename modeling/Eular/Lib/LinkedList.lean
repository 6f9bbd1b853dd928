/-
Linked lists, by their segments.

Of doubly linked lists on a heap of nodes `Seg h p cells n` says that the
cells follow one another on the heap, the first pointing back to `p` and the
last on to `n`; a segment between two null pointers is a whole list. What it
says about a node is all the node holds, so a write elsewhere leaves it alone
(`Seg.frame`), and the writes that link and unlink a node are told by the two
at the ends of a segment (`Seg.setChild`, `Seg.setParent`).

Of singly linked chains `next` says what follows a cell, and
`Chain.Seg next p cells q` that from `p` on the cells follow one another, and
`q` after the last of them. To change `next` of the last cell moves its end
(`Chain.Seg.relink`).
-/
import Mathlib

namespace Eular.Lib

/-- A node that carries `data` between its two neighbours. -/
structure Node (α : Type*) where
  data : α
  parent : Option Nat := none
  child : Option Nat := none
deriving DecidableEq, Repr

/-- What lies at an address, if anything does. -/
abbrev NodeHeap (α : Type*) := Nat → Option (Node α)

variable {α : Type*}

/-- The node at `a` is changed. -/
def NodeHeap.modify (h : NodeHeap α) (a : Nat) (f : Node α → Node α) : NodeHeap α :=
  Function.update h a ((h a).map f)

@[simp] theorem NodeHeap.modify_self (h : NodeHeap α) (a : Nat) (f : Node α → Node α) :
    h.modify a f a = (h a).map f :=
  Function.update_self ..

@[simp] theorem NodeHeap.modify_of_ne (h : NodeHeap α) {a b : Nat} (hne : b ≠ a)
    (f : Node α → Node α) : h.modify a f b = h b :=
  Function.update_of_ne hne ..

-- ==== segments

/-- Where the cells begin, and what comes after them if there are none. -/
def firstOf (n : Option Nat) : List (Nat × α) → Option Nat
  | [] => n
  | cell :: _ => some cell.1

/-- Where they end, and what comes before them if there are none. -/
def lastOf (p : Option Nat) : List (Nat × α) → Option Nat
  | [] => p
  | cell :: rest => lastOf (some cell.1) rest

/-- The cells, one linked to the next, between `p` and `n`. -/
def Seg (h : NodeHeap α) : Option Nat → List (Nat × α) → Option Nat → Prop
  | _, [], _ => True
  | p, cell :: rest, n =>
    h cell.1 = some ⟨cell.2, p, firstOf n rest⟩ ∧ Seg h (some cell.1) rest n

variable {h h' : NodeHeap α} {p n : Option Nat} {cells xs ys : List (Nat × α)} {cell : Nat × α}

@[simp] theorem seg_nil : Seg h p [] n := trivial

@[simp] theorem seg_cons :
    Seg h p (cell :: xs) n ↔ h cell.1 = some ⟨cell.2, p, firstOf n xs⟩ ∧ Seg h (some cell.1) xs n :=
  Iff.rfl

theorem firstOf_append : firstOf n (xs ++ ys) = firstOf (firstOf n ys) xs := by
  cases xs <;> rfl

theorem lastOf_append : lastOf p (xs ++ ys) = lastOf (lastOf p xs) ys := by
  induction xs generalizing p with
  | nil => rfl
  | cons x xs ih => exact ih

theorem seg_append :
    Seg h p (xs ++ ys) n ↔ Seg h p xs (firstOf n ys) ∧ Seg h (lastOf p xs) ys n := by
  induction xs generalizing p with
  | nil => simp [lastOf]
  | cons x xs ih =>
    rw [List.cons_append, seg_cons, seg_cons, ih, firstOf_append, and_assoc]
    rfl

namespace Seg

theorem get (hs : Seg h p cells n) (cell : Nat × α) (hmem : cell ∈ cells) :
    ∃ parent child, h cell.1 = some ⟨cell.2, parent, child⟩ := by
  induction cells generalizing p with
  | nil => cases hmem
  | cons c rest ih =>
    rcases List.mem_cons.mp hmem with rfl | hrest
    · exact ⟨_, _, hs.1⟩
    · exact ih hs.2 hrest

theorem frame (hs : Seg h p cells n) (hsame : ∀ a ∈ cells.map Prod.fst, h' a = h a) :
    Seg h' p cells n := by
  induction cells generalizing p with
  | nil => trivial
  | cons c rest ih =>
    obtain ⟨hthis, hrest⟩ := List.forall_mem_cons.mp hsame
    exact ⟨hthis.trans hs.1, ih hs.2 hrest⟩

theorem setParent (hs : Seg h p (cell :: xs) n) (hnot : cell.1 ∉ xs.map Prod.fst)
    (p' : Option Nat) :
    Seg (h.modify cell.1 fun e => { e with parent := p' }) p' (cell :: xs) n := by
  refine ⟨?_, hs.2.frame fun a ha => NodeHeap.modify_of_ne _ (ne_of_mem_of_not_mem ha hnot) _⟩
  rw [NodeHeap.modify_self, hs.1]
  rfl

theorem setChild (hs : Seg h p (xs ++ [cell]) n) (hnot : cell.1 ∉ xs.map Prod.fst)
    (n' : Option Nat) :
    Seg (h.modify cell.1 fun e => { e with child := n' }) p (xs ++ [cell]) n' := by
  obtain ⟨hxs, hlast, -⟩ := seg_append.mp hs
  refine seg_append.mpr ⟨hxs.frame fun a ha => ?_, ?_, trivial⟩
  · exact NodeHeap.modify_of_ne _ (ne_of_mem_of_not_mem ha hnot) _
  · rw [NodeHeap.modify_self, hlast]
    rfl

end Seg

-- ==== singly linked chains

namespace Chain

variable {κ : Type*}

def Seg (next : κ → κ) : κ → List κ → κ → Prop
  | p, [], q => p = q
  | p, c :: cells, q => p = c ∧ Seg next (next c) cells q

variable {next next' : κ → κ} {p q r c : κ} {xs ys : List κ}

theorem seg_append : Seg next p (xs ++ ys) r ↔ ∃ q, Seg next p xs q ∧ Seg next q ys r := by
  induction xs generalizing p with
  | nil => simp [Seg]
  | cons c xs ih =>
    rw [List.cons_append, Seg, ih]
    constructor
    · rintro ⟨hp, q, hxs, hys⟩
      exact ⟨q, ⟨hp, hxs⟩, hys⟩
    · rintro ⟨q, ⟨hp, hxs⟩, hys⟩
      exact ⟨hp, q, hxs, hys⟩

theorem Seg.frame (h : Seg next p xs q) (hsame : ∀ c ∈ xs, next' c = next c) :
    Seg next' p xs q := by
  induction xs generalizing p with
  | nil => exact h
  | cons c xs ih =>
    obtain ⟨hp, hrest⟩ := h
    refine ⟨hp, ?_⟩
    rw [hsame c List.mem_cons_self]
    exact ih hrest fun c hc => hsame c (List.mem_cons_of_mem _ hc)

theorem Seg.relink (h : Seg next p (xs ++ [c]) q) (hnot : c ∉ xs)
    (hsame : ∀ x, x ≠ c → next' x = next x) : Seg next' p (xs ++ [c]) (next' c) := by
  obtain ⟨mid, hxs, hmid, -⟩ := seg_append.mp h
  refine seg_append.mpr ⟨mid, hxs.frame fun x hx => hsame x (ne_of_mem_of_not_mem hx hnot), ?_⟩
  exact ⟨hmid, rfl⟩

end Chain

end Eular.Lib
