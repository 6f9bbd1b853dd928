/-
A worklist: what is taken from it, and in which order.

`visit` takes the first item of a list, puts what follows from it in front
of the rest, and goes on. Where what follows from an item is smaller than
the item, all told, it ends (`Fits`), and then it has taken exactly the
items that can be reached from those it started with (`mem_visit_iff`),
each behind one that it follows from (`parent_of_visit`). The order is told
only by `visit` itself, so two worklists that differ in the order of what
follows take the same items.
-/
import Mathlib

namespace Eular.Lib

variable {α : Type*} {next next' : α → List α}

/-- The items taken, for at most `fuel` of them. -/
def visit (next : α → List α) : Nat → List α → List α
  | 0, _ => []
  | _ + 1, [] => []
  | fuel + 1, a :: stack => a :: visit next fuel (next a ++ stack)

def Leads (next : α → List α) : α → α → Prop :=
  Relation.ReflTransGen fun a b => b ∈ next a

/-- The size of a list of items. -/
def total (size : α → Nat) (l : List α) : Nat := (l.map size).sum

@[simp] theorem total_nil (size : α → Nat) : total size [] = 0 := rfl

@[simp] theorem total_cons (size : α → Nat) (a : α) (l : List α) :
    total size (a :: l) = size a + total size l := by
  simp [total]

@[simp] theorem total_append (size : α → Nat) (l l' : List α) :
    total size (l ++ l') = total size l + total size l' := by
  simp [total]

/-- What follows from an item is smaller than it, all told. -/
def Shrinks (size : α → Nat) (next : α → List α) : Prop :=
  ∀ a, total size (next a) < size a

section Fits

variable {size : α → Nat}
variable {fuel : Nat} {stack : List α}

theorem mem_visit_of_mem (h : Shrinks size next)
    (hfuel : total size stack ≤ fuel) {a : α}
    (ha : a ∈ stack) : a ∈ visit next fuel stack := by
  induction fuel generalizing stack with
  | zero =>
    cases stack with
    | nil => cases ha
    | cons b stack =>
      have hb := h b
      rw [total_cons] at hfuel
      omega
  | succ fuel ih =>
    cases stack with
    | nil => cases ha
    | cons b stack =>
      have hb := h b
      rw [total_cons] at hfuel
      rcases List.mem_cons.1 ha with rfl | hrest
      · exact List.mem_cons_self
      · refine List.mem_cons_of_mem _ (ih ?_ (List.mem_append_right _ hrest))
        rw [total_append]
        omega

theorem mem_visit_of_next (h : Shrinks size next)
    (hfuel : total size stack ≤ fuel) {a b : α}
    (ha : a ∈ visit next fuel stack) (hb : b ∈ next a) : b ∈ visit next fuel stack := by
  induction fuel generalizing stack with
  | zero => cases ha
  | succ fuel ih =>
    cases stack with
    | nil => cases ha
    | cons c stack =>
      have hc := h c
      rw [total_cons] at hfuel
      have hrest : total size (next c ++ stack) ≤ fuel := by
        rw [total_append]
        omega
      rcases List.mem_cons.1 ha with rfl | hlater
      · exact List.mem_cons_of_mem _
          (mem_visit_of_mem h hrest (List.mem_append_left _ hb))
      · exact List.mem_cons_of_mem _ (ih hrest hlater)

theorem mem_visit_iff (h : Shrinks size next)
    (hfuel : total size stack ≤ fuel) {b : α} :
    b ∈ visit next fuel stack ↔ ∃ a ∈ stack, Leads next a b := by
  constructor
  · intro hb
    clear hfuel
    induction fuel generalizing stack with
    | zero => cases hb
    | succ fuel ih =>
      cases stack with
      | nil => cases hb
      | cons c stack =>
        rcases List.mem_cons.1 hb with rfl | hlater
        · exact ⟨b, List.mem_cons_self, .refl⟩
        · obtain ⟨a, ha, hlead⟩ := ih hlater
          rcases List.mem_append.1 ha with hnext | hrest
          · exact ⟨c, List.mem_cons_self, hlead.head hnext⟩
          · exact ⟨a, List.mem_cons_of_mem _ hrest, hlead⟩
  · rintro ⟨a, ha, hlead⟩
    induction hlead with
    | refl => exact mem_visit_of_mem h hfuel ha
    | tail _ hstep ih => exact mem_visit_of_next h hfuel ih hstep

end Fits

theorem parent_of_visit {fuel : Nat} {stack : List α} {b : α} (hb : b ∈ visit next fuel stack) :
    b ∈ stack ∨ ∃ a ∈ visit next fuel stack, b ∈ next a := by
  induction fuel generalizing stack with
  | zero => cases hb
  | succ fuel ih =>
    cases stack with
    | nil => cases hb
    | cons c stack =>
      rcases List.mem_cons.1 hb with rfl | hlater
      · exact Or.inl List.mem_cons_self
      · rcases ih hlater with hstack | ⟨a, ha, hnext⟩
        · rcases List.mem_append.1 hstack with hnext | hrest
          · exact Or.inr ⟨c, List.mem_cons_self, hnext⟩
          · exact Or.inl (List.mem_cons_of_mem _ hrest)
        · exact Or.inr ⟨a, List.mem_cons_of_mem _ ha, hnext⟩

end Eular.Lib
