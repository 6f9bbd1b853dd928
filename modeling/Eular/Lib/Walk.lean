/-
A worklist over a graph: it may fail, and it may never end.

`walk` takes the first item of a list, puts what follows from it in front of
the rest, and goes on; where nothing is said to follow (`none`) it fails. No
item is marked, so what it goes through is the graph unfolded to a tree. It
gets through a list when all of it `Ends`, and fails when something in front
of which all ends `Breaks` (`walk_eq_ok_iff`, `walk_eq_error_iff`). `Ends` is
about the graph: nothing that can be reached fails, and nothing is below
itself (`ends_iff`).

`Walked` is the list of the items it takes, in order.
-/
import Mathlib

namespace Eular.Lib

variable {α β σ : Type*} {next : α → Option (List α)}

-- ==== loop

/-- The loop, for at most `fuel` rounds. -/
def walk (next : α → Option (List α)) (take : σ → α → σ) :
    Nat → List α → σ → Option (Except (α × σ) σ)
  | _, [], s => some (.ok s)
  | 0, _ :: _, _ => none
  | fuel + 1, a :: stack, s =>
    match next a with
    | none => some (.error (a, take s a))
    | some l => walk next take fuel (l ++ stack) (take s a)

/-- The items taken, where the loop gets through. -/
inductive Walked (next : α → Option (List α)) : List α → List α → Prop where
  | nil : Walked next [] []
  | cons {a : α} {l stack taken : List α} : next a = some l → Walked next (l ++ stack) taken →
      Walked next (a :: stack) (a :: taken)

/-- The walk from an item gets through. -/
inductive Ends (next : α → Option (List α)) : α → Prop where
  | intro {a : α} {l : List α} : next a = some l → (∀ b ∈ l, Ends next b) → Ends next a

/-- The walk from an item comes to one where it fails, and gets through what is in front. -/
inductive Breaks (next : α → Option (List α)) : α → Prop where
  | here {a : α} : next a = none → Breaks next a
  | within {a b : α} {before after : List α} : next a = some (before ++ b :: after) →
      (∀ c ∈ before, Ends next c) → Breaks next b → Breaks next a

variable {a : α}

theorem Ends.next_eq {l : List α} (h : Ends next a) (hl : next a = some l) :
    ∀ b ∈ l, Ends next b := by
  obtain ⟨hl', hall⟩ := h
  rw [hl] at hl'
  cases hl'
  exact hall

-- ==== getting through

theorem Walked.unique {stack taken taken' : List α} (h : Walked next stack taken)
    (h' : Walked next stack taken') : taken = taken' := by
  induction h generalizing taken' with
  | nil =>
    cases h'
    rfl
  | cons hl _ ih =>
    cases h' with
    | cons hl' hrest =>
      rw [hl] at hl'
      cases hl'
      rw [ih hrest]

variable {stack : List α}

theorem walk_eq_ok_iff_walked {take : σ → α → σ} {s s' : σ} :
    (∃ fuel, walk next take fuel stack s = some (.ok s'))
      ↔ ∃ taken, Walked next stack taken ∧ s' = taken.foldl take s := by
  constructor
  · rintro ⟨fuel, h⟩
    induction fuel generalizing stack s with
    | zero =>
      cases stack with
      | nil =>
        cases h
        exact ⟨[], .nil, rfl⟩
      | cons a stack => cases h
    | succ fuel ih =>
      cases stack with
      | nil =>
        cases h
        exact ⟨[], .nil, rfl⟩
      | cons a stack =>
        rw [walk] at h
        cases hl : next a with
        | none =>
          rw [hl] at h
          cases h
        | some l =>
          rw [hl] at h
          obtain ⟨taken, htaken, rfl⟩ := ih h
          exact ⟨a :: taken, .cons hl htaken, rfl⟩
  · rintro ⟨taken, h, rfl⟩
    induction h generalizing s with
    | nil => exact ⟨0, rfl⟩
    | @cons a l stack taken hl _ ih =>
      obtain ⟨fuel, hfuel⟩ := ih (s := take s a)
      refine ⟨fuel + 1, ?_⟩
      rw [walk, hl]
      exact hfuel

theorem ends_of_walked {stack taken : List α} (h : Walked next stack taken) :
    ∀ a ∈ stack, Ends next a := by
  induction h with
  | nil =>
    intro a ha
    cases ha
  | cons hl _ ih =>
    intro a ha
    rcases List.mem_cons.mp ha with rfl | ha
    · exact .intro hl fun b hb => ih b (List.mem_append_left _ hb)
    · exact ih a (List.mem_append_right _ ha)

theorem Ends.walked_cons (h : Ends next a) {stack taken : List α}
    (hstack : Walked next stack taken) : ∃ taken', Walked next (a :: stack) taken' := by
  induction h generalizing stack taken with
  | @intro a l hl _ ih =>
    suffices hall : ∀ l' : List α, (∀ b ∈ l', b ∈ l) →
        ∃ taken', Walked next (l' ++ stack) taken' by
      obtain ⟨taken', htaken⟩ := hall l fun b hb => hb
      exact ⟨a :: taken', .cons hl htaken⟩
    intro l' hsub
    induction l' with
    | nil => exact ⟨taken, hstack⟩
    | cons b l' ihl =>
      obtain ⟨taken', htaken⟩ := ihl fun c hc => hsub c (List.mem_cons_of_mem _ hc)
      exact ih b (hsub b List.mem_cons_self) htaken

theorem walked_iff_ends :
    (∃ taken, Walked next stack taken) ↔ ∀ a ∈ stack, Ends next a := by
  constructor
  · rintro ⟨taken, h⟩
    exact ends_of_walked h
  · intro h
    induction stack with
    | nil => exact ⟨[], .nil⟩
    | cons a stack ih =>
      obtain ⟨taken, htaken⟩ := ih fun b hb => h b (List.mem_cons_of_mem _ hb)
      exact (h a List.mem_cons_self).walked_cons htaken

-- ==== failing

def Fails (next : α → Option (List α)) (stack : List α) : Prop :=
  ∃ before b after, stack = before ++ b :: after ∧ (∀ c ∈ before, Ends next c) ∧ Breaks next b

theorem Fails.cons (ha : Ends next a) (h : Fails next stack) :
    Fails next (a :: stack) := by
  obtain ⟨before, b, after, rfl, hbefore, hb⟩ := h
  exact ⟨a :: before, b, after, rfl, List.forall_mem_cons.mpr ⟨ha, hbefore⟩, hb⟩

theorem Fails.of_next {l stack : List α} (hl : next a = some l)
    (h : Fails next (l ++ stack)) : Fails next (a :: stack) := by
  obtain ⟨before, b, after, hsplit, hbefore, hb⟩ := h
  rcases List.append_eq_append_iff.mp hsplit with ⟨rest, rfl, hstack⟩ | ⟨rest, rfl, hrest⟩
  · have ha : Ends next a := .intro hl fun c hc => hbefore c (List.mem_append_left _ hc)
    exact Fails.cons ha ⟨rest, b, after, hstack,
      fun c hc => hbefore c (List.mem_append_right _ hc), hb⟩
  · cases rest with
    | nil =>
      have ha : Ends next a := .intro hl fun c hc => by
        rw [List.append_nil] at hc
        exact hbefore c hc
      exact Fails.cons ha ⟨[], b, after, hrest.symm, fun c hc => absurd hc List.not_mem_nil, hb⟩
    | cons b' rest =>
      obtain ⟨rfl, rfl⟩ := List.cons.inj hrest
      exact ⟨[], a, stack, rfl, fun c hc => absurd hc List.not_mem_nil, .within hl hbefore hb⟩

section Errs

variable {take : σ → α → σ}

/-- The loop fails, whatever was taken before. -/
def Errs (next : α → Option (List α)) (take : σ → α → σ) (stack : List α) : Prop :=
  ∀ s, ∃ fuel e, walk next take fuel stack s = some (.error e)

theorem Errs.of_next {a : α} {l stack : List α} (hl : next a = some l)
    (h : Errs next take (l ++ stack)) : Errs next take (a :: stack) := by
  intro s
  obtain ⟨fuel, e, hfuel⟩ := h (take s a)
  refine ⟨fuel + 1, e, ?_⟩
  rw [walk, hl]
  exact hfuel

theorem Errs.append {before stack : List α}
    (hbefore : ∀ a ∈ before, ∀ stack, Errs next take stack → Errs next take (a :: stack))
    (h : Errs next take stack) : Errs next take (before ++ stack) := by
  induction before with
  | nil => exact h
  | cons a before ih =>
    exact hbefore a List.mem_cons_self _ (ih fun b hb => hbefore b (List.mem_cons_of_mem _ hb))

theorem Ends.errs {a : α} (ha : Ends next a) {stack : List α} (h : Errs next take stack) :
    Errs next take (a :: stack) := by
  induction ha generalizing stack with
  | intro hl _ ih => exact Errs.of_next hl (Errs.append (fun b hb _ => ih b hb) h)

theorem Breaks.errs {b : α} (h : Breaks next b) (stack : List α) :
    Errs next take (b :: stack) := by
  induction h generalizing stack with
  | @here a hnone =>
    intro s
    refine ⟨1, (a, take s a), ?_⟩
    rw [walk, hnone]
  | @within a b before after hl hbefore _ ih =>
    refine Errs.of_next hl ?_
    rw [List.append_assoc]
    exact Errs.append (fun c hc _ => (hbefore c hc).errs) (ih _)

end Errs

/-- The loop fails where what it comes to fails before it comes to what never ends. -/
theorem walk_eq_error_iff {take : σ → α → σ} {s : σ} :
    (∃ fuel e, walk next take fuel stack s = some (.error e)) ↔ Fails next stack := by
  constructor
  · rintro ⟨fuel, e, h⟩
    induction fuel generalizing stack s with
    | zero =>
      cases stack with
      | nil => cases h
      | cons a stack => cases h
    | succ fuel ih =>
      cases stack with
      | nil => cases h
      | cons a stack =>
        rw [walk] at h
        cases hl : next a with
        | none =>
          exact ⟨[], a, stack, rfl, fun c hc => absurd hc List.not_mem_nil, .here hl⟩
        | some l =>
          rw [hl] at h
          exact Fails.of_next hl (ih h)
  · rintro ⟨before, b, after, rfl, hbefore, hb⟩
    exact Errs.append (fun c hc _ => (hbefore c hc).errs) (hb.errs after) s

-- ==== graph

/-- One item follows from another. -/
def Follows (next : α → Option (List α)) (a b : α) : Prop := ∃ l, next a = some l ∧ b ∈ l

/-- An item that can be reached. -/
abbrev ComesTo (next : α → Option (List α)) : α → α → Prop := Relation.ReflTransGen (Follows next)

/-- Nothing that can be reached is below itself. -/
def Acyclic (next : α → Option (List α)) (a : α) : Prop :=
  ∀ b, ComesTo next a b → ¬ Relation.TransGen (Follows next) b b

theorem mem_of_walked {stack taken : List α} (h : Walked next stack taken) {b : α} :
    b ∈ taken ↔ ∃ a ∈ stack, ComesTo next a b := by
  induction h with
  | nil => simp
  | @cons a l stack taken hl _ ih =>
    rw [List.mem_cons, ih]
    constructor
    · rintro (rfl | ⟨c, hc, hreach⟩)
      · exact ⟨b, List.mem_cons_self, .refl⟩
      · rcases List.mem_append.mp hc with hc | hc
        · exact ⟨a, List.mem_cons_self, .head ⟨l, hl, hc⟩ hreach⟩
        · exact ⟨c, List.mem_cons_of_mem _ hc, hreach⟩
    · rintro ⟨c, hc, hreach⟩
      rcases List.mem_cons.mp hc with rfl | hc
      · rcases hreach.cases_head with rfl | ⟨d, ⟨l', hl', hd⟩, hreach⟩
        · exact .inl rfl
        · rw [hl] at hl'
          cases hl'
          exact .inr ⟨d, List.mem_append_left _ hd, hreach⟩
      · exact .inr ⟨c, List.mem_append_right _ hc, hreach⟩

theorem Ends.of_follows {a b : α} (h : Ends next a) (hb : Follows next a b) : Ends next b := by
  obtain ⟨l, hl, hmem⟩ := hb
  exact h.next_eq hl b hmem

theorem Ends.of_comesTo {a b : α} (h : Ends next a) (hb : ComesTo next a b) : Ends next b := by
  induction hb with
  | refl => exact h
  | tail _ hstep ih => exact ih.of_follows hstep

theorem Ends.next_ne_none (h : Ends next a) : next a ≠ none := by
  obtain ⟨hl, -⟩ := h
  rw [hl]
  exact Option.some_ne_none _

theorem Ends.acyclic (h : Ends next a) : Acyclic next a := by
  suffices hself : ∀ b, Ends next b → ¬ Relation.TransGen (Follows next) b b from
    fun b hb => hself b (h.of_comesTo hb)
  intro b hb
  induction hb with
  | @intro b l hl _ ih =>
    intro hcycle
    obtain ⟨c, hfirst, hback⟩ := Relation.TransGen.head'_iff.mp hcycle
    obtain ⟨l', hl', hc⟩ := hfirst
    rw [hl] at hl'
    cases hl'
    exact ih c hc (Relation.TransGen.tail' hback ⟨l, hl, hc⟩)

/-- Where only finitely many items have something below them, nothing goes on for ever but
round a cycle. -/
theorem acc_of_acyclic (hfinite : {a | ∃ b, Follows next a b}.Finite)
    (h : Acyclic next a) : Acc (fun b a => Follows next a b) a := by
  let Inner := {b // ComesTo next a b ∧ ∃ c, Follows next b c}
  have hinner : Finite Inner := (hfinite.subset fun b hb => hb.2).to_subtype
  let below : Inner → Inner → Prop := fun c b => Relation.TransGen (Follows next) b.1 c.1
  have htrans : IsTrans Inner below := ⟨fun x y z hxy hyz => hyz.trans hxy⟩
  have hirrefl : Std.Irrefl below := ⟨fun x hx => h x.1 x.2.1 hx⟩
  have hwf : WellFounded below := Finite.wellFounded_of_trans_of_irrefl below
  have hall : ∀ b : Inner, Acc (fun b a => Follows next a b) b.1 := by
    intro b
    induction b using hwf.induction with
    | _ b ih =>
      refine ⟨_, fun c hc => ?_⟩
      by_cases hmore : ∃ d, Follows next c d
      · exact ih ⟨c, b.2.1.tail hc, hmore⟩ (.single hc)
      · exact ⟨_, fun d hd => absurd ⟨d, hd⟩ hmore⟩
  by_cases hmore : ∃ b, Follows next a b
  · exact hall ⟨a, .refl, hmore⟩
  · exact ⟨_, fun b hb => absurd ⟨b, hb⟩ hmore⟩

/-- The walk gets through where nothing that can be reached fails or is below itself. -/
theorem ends_iff (hfinite : {a | ∃ b, Follows next a b}.Finite) :
    Ends next a ↔ Acyclic next a ∧ ∀ b, ComesTo next a b → next b ≠ none := by
  constructor
  · exact fun h => ⟨h.acyclic, fun b hb => (h.of_comesTo hb).next_ne_none⟩
  · rintro ⟨hacyclic, hsome⟩
    induction acc_of_acyclic hfinite hacyclic with
    | intro a _ ih =>
      obtain ⟨l, hl⟩ := Option.ne_none_iff_exists'.mp (hsome a .refl)
      refine .intro hl fun b hb => ?_
      have hstep : Follows next a b := ⟨l, hl, hb⟩
      exact ih b hstep (fun c hc => hacyclic c (.head hstep hc))
        fun c hc => hsome c (.head hstep hc)

-- ==== projections

section Projection

variable {next' : β → Option (List β)} {f : α → β}

theorem ends_map (hmap : ∀ a, (next a).map (List.map f) = next' (f a)) {a : α} :
    Ends next a ↔ Ends next' (f a) := by
  constructor
  · intro h
    induction h with
    | @intro a l hl _ ih =>
      refine .intro (l := l.map f) (by rw [← hmap, hl]; rfl) fun b hb => ?_
      obtain ⟨c, hc, rfl⟩ := List.mem_map.mp hb
      exact ih c hc
  · intro h
    generalize hb : f a = b at h
    induction h generalizing a with
    | @intro b l hl _ ih =>
      subst hb
      rw [← hmap] at hl
      obtain ⟨l', hl', rfl⟩ := Option.map_eq_some_iff.mp hl
      exact .intro hl' fun c hc => ih (f c) (List.mem_map_of_mem hc) rfl

theorem breaks_map (hmap : ∀ a, (next a).map (List.map f) = next' (f a)) {a : α} :
    Breaks next a ↔ Breaks next' (f a) := by
  constructor
  · intro h
    induction h with
    | here hnone => exact .here (by rw [← hmap, hnone]; rfl)
    | @within a b before after hl hbefore _ ih =>
      refine @Breaks.within _ _ _ _ (before.map f) (after.map f)
        (by rw [← hmap, hl]; simp) (fun c hc => ?_) ih
      obtain ⟨d, hd, rfl⟩ := List.mem_map.mp hc
      exact (ends_map hmap).mp (hbefore d hd)
  · intro h
    generalize hb : f a = b at h
    induction h generalizing a with
    | here hnone =>
      subst hb
      rw [← hmap, Option.map_eq_none_iff] at hnone
      exact .here hnone
    | @within b c before after hl hbefore _ ih =>
      subst hb
      rw [← hmap] at hl
      obtain ⟨l, hl', hsplit⟩ := Option.map_eq_some_iff.mp hl
      obtain ⟨before', rest, rfl, hbefore', hrest⟩ := List.map_eq_append_iff.mp hsplit
      obtain ⟨c', after', rfl, rfl, -⟩ := List.map_eq_cons_iff.mp hrest
      refine .within hl' (fun d hd => (ends_map hmap).mpr (hbefore (f d) ?_)) (ih rfl)
      rw [← hbefore']
      exact List.mem_map_of_mem hd

end Projection

end Eular.Lib
