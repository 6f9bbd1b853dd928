/-
Queues whose entries are told apart by a key.

An intrusive queue holds pointers: an entry is taken out, or changed
where it stands, by naming it. Here the name is a key, and the keys of a
queue are distinct. `removeKey` and `replaceKey` are the two operations;
up to order, a queue is the entry named and the rest, which is what sums
over a queue need (`perm_removeKey`, `perm_replaceKey`).

`foldl_queue` is the rule for a walk that takes entries out as it goes:
what is still ahead of the walk is still in the queue.
-/
import Mathlib

namespace Eular.Lib

variable {α κ σ : Type*} [DecidableEq κ] {key : α → κ} {a b : α} {l : List α}

/-- The queue without the entry under `k`. -/
def removeKey (key : α → κ) (k : κ) (l : List α) : List α := l.eraseP fun a => key a = k

/-- The queue with `a` in the place of the entry of its key. -/
def replaceKey (key : α → κ) (a : α) (l : List α) : List α :=
  l.map fun b => if key b = key a then a else b

-- ==== removal

theorem removeKey_sublist (key : α → κ) (k : κ) (l : List α) : (removeKey key k l).Sublist l :=
  List.eraseP_sublist

theorem perm_removeKey (hn : (l.map key).Nodup) (ha : a ∈ l) :
    l.Perm (a :: removeKey key (key a) l) := by
  obtain ⟨b, l₁, l₂, -, hb, hl, herase⟩ :=
    List.exists_of_eraseP (p := fun c => decide (key c = key a)) ha (decide_eq_true rfl)
  have hab : b = a := by
    apply List.inj_on_of_nodup_map hn _ ha (of_decide_eq_true hb)
    rw [hl]
    exact List.mem_append_right l₁ List.mem_cons_self
  unfold removeKey
  rw [herase]
  conv_lhs => rw [hl, hab]
  exact List.perm_middle

theorem mem_of_mem_removeKey {k : κ} (h : b ∈ removeKey key k l) : b ∈ l :=
  (removeKey_sublist key k l).subset h

theorem mem_removeKey_of_ne {k : κ} (hb : b ∈ l) (hne : key b ≠ k) : b ∈ removeKey key k l :=
  (List.mem_eraseP_of_neg (by simpa using hne)).mpr hb

theorem key_ne_of_mem_removeKey (hn : (l.map key).Nodup) (ha : a ∈ l)
    (hb : b ∈ removeKey key (key a) l) : key b ≠ key a := by
  have hcons := ((perm_removeKey hn ha).map key).nodup hn
  rw [List.map_cons, List.nodup_cons] at hcons
  intro heq
  exact hcons.1 (List.mem_map.mpr ⟨b, hb, heq⟩)

theorem sum_map_removeKey (hn : (l.map key).Nodup) (ha : a ∈ l) (f : α → Nat) :
    ((removeKey key (key a) l).map f).sum + f a = (l.map f).sum := by
  rw [((perm_removeKey hn ha).map f).sum_eq, List.map_cons, List.sum_cons, Nat.add_comm]

-- ==== replacement

theorem mem_replaceKey_self (hb : b ∈ l) (hkey : key b = key a) : a ∈ replaceKey key a l :=
  List.mem_map.mpr ⟨b, hb, if_pos hkey⟩

theorem mem_replaceKey_of_ne (hb : b ∈ l) (hne : key b ≠ key a) : b ∈ replaceKey key a l :=
  List.mem_map.mpr ⟨b, hb, if_neg hne⟩

theorem mem_of_mem_replaceKey (h : b ∈ replaceKey key a l) : b = a ∨ b ∈ l := by
  obtain ⟨c, hc, heq⟩ := List.mem_map.mp h
  split at heq
  · exact .inl heq.symm
  · exact .inr (heq ▸ hc)

theorem perm_replaceKey (hn : (l.map key).Nodup) (hb : b ∈ l) (hkey : key b = key a) :
    (replaceKey key a l).Perm (a :: removeKey key (key a) l) := by
  have hperm := (perm_removeKey hn hb).map fun c => if key c = key a then a else c
  rw [List.map_cons, if_pos hkey, hkey] at hperm
  have hrest : (removeKey key (key a) l).map (fun c => if key c = key a then a else c)
      = removeKey key (key a) l := by
    conv_rhs => rw [← List.map_id (removeKey key (key a) l)]
    apply List.map_congr_left
    intro c hc
    rw [← hkey] at hc
    have hne := key_ne_of_mem_removeKey hn hb hc
    rw [hkey] at hne
    exact if_neg hne
  rw [hrest] at hperm
  exact hperm

-- ==== walks

omit [DecidableEq κ] in
/-- A walk over entries of a queue, each step of which may take out the entry
it is at: a property that holds of every state keeps holding. -/
theorem foldl_queue (key : α → κ) (queue : σ → List α) (P : σ → Prop) {f : σ → α → σ}
    {l : List α}
    (hstep : ∀ s, ∀ a ∈ l, P s → a ∈ queue s →
      P (f s a) ∧ ∀ b ∈ queue s, key b ≠ key a → b ∈ queue (f s a))
    {s : σ} (hs : P s) (hn : (l.map key).Nodup) (hmem : ∀ a ∈ l, a ∈ queue s) :
    P (l.foldl f s) := by
  induction l generalizing s with
  | nil => exact hs
  | cons a l ih =>
    rw [List.map_cons, List.nodup_cons] at hn
    obtain ⟨hP, hkeep⟩ := hstep s a List.mem_cons_self hs (hmem a List.mem_cons_self)
    apply ih _ hP hn.2
    · intro b hb
      apply hkeep b (hmem b (List.mem_cons_of_mem a hb))
      intro heq
      exact hn.1 (List.mem_map.mpr ⟨b, hb, heq⟩)
    · intro t b hb
      exact hstep t b (List.mem_cons_of_mem a hb)

end Eular.Lib
