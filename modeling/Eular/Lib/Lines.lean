/-
Lines that are read through a buffer.

A text is read line by line, a line with the separator at its end, but never
more than `cap` elements at once (`lines`). A line that fits is read as it is
(`lines_line`). Lines of which some lost their separator run into each other;
then there are fewer lines than there were written
(`length_lines_lt_of_open`), as long as two of them fit the buffer.
-/
import Mathlib

namespace Eular.Lib

variable {α : Type*} [DecidableEq α] {sep : α} {cap : Nat}
variable {room : Nat}

-- ==== lines

/-- The lines of a text where there is room for `room` elements more in the first of them. -/
def linesFrom (sep : α) (cap : Nat) : Nat → List α → List (List α)
  | _, [] => []
  | room, c :: s =>
    if c = sep ∨ room ≤ 1 then [c] :: linesFrom sep cap cap s
    else
      match linesFrom sep cap (room - 1) s with
      | [] => [[c]]
      | l :: ls => (c :: l) :: ls

def lines (sep : α) (cap : Nat) (s : List α) : List (List α) := linesFrom sep cap cap s

@[simp] theorem linesFrom_nil (room : Nat) : linesFrom sep cap room [] = [] := rfl

@[simp] theorem lines_nil : lines sep cap [] = [] := rfl

variable {t : List α}

theorem linesFrom_line (h : sep ∉ t) (hroom : t.length < room)
    (s : List α) : linesFrom sep cap room (t ++ sep :: s) = (t ++ [sep]) :: lines sep cap s := by
  induction t generalizing room with
  | nil => exact if_pos (.inl rfl)
  | cons c t ih =>
    obtain ⟨hne, hrest⟩ := List.ne_and_not_mem_of_not_mem_cons h
    rw [List.length_cons] at hroom
    have hmore : ¬ (c = sep ∨ room ≤ 1) := fun hend => hend.elim (hne ·.symm) (by omega)
    rw [List.cons_append, linesFrom, if_neg hmore, ih hrest (by omega)]
    rfl

theorem linesFrom_open (h : sep ∉ t) (hroom : t.length < room)
    (s : List α) :
    linesFrom sep cap room (t ++ s)
      = match linesFrom sep cap (room - t.length) s with
        | [] => if t = [] then [] else [t]
        | l :: ls => (t ++ l) :: ls := by
  induction t generalizing room with
  | nil =>
    rw [List.nil_append, List.length_nil, Nat.sub_zero]
    cases linesFrom sep cap room s with
    | nil => rfl
    | cons l ls => rfl
  | cons c t ih =>
    obtain ⟨hne, hrest⟩ := List.ne_and_not_mem_of_not_mem_cons h
    rw [List.length_cons] at hroom
    have hmore : ¬ (c = sep ∨ room ≤ 1) := fun hend => hend.elim (hne ·.symm) (by omega)
    rw [List.cons_append, linesFrom, if_neg hmore, ih hrest (by omega), List.length_cons,
      Nat.sub_sub, Nat.add_comm 1 t.length]
    cases linesFrom sep cap (room - (t.length + 1)) s with
    | nil =>
      cases t with
      | nil => rfl
      | cons d t => rfl
    | cons l ls => rfl

theorem linesFrom_full (h : sep ∉ t) (hpos : 0 < room)
    (hroom : room ≤ t.length) (s : List α) :
    linesFrom sep cap room (t ++ s) = t.take room :: lines sep cap (t.drop room ++ s) := by
  induction t generalizing room with
  | nil =>
    rw [List.length_nil] at hroom
    omega
  | cons c t ih =>
    obtain ⟨hne, hrest⟩ := List.ne_and_not_mem_of_not_mem_cons h
    rw [List.length_cons] at hroom
    by_cases hone : room ≤ 1
    · obtain rfl : room = 1 := by omega
      exact if_pos (.inr (Nat.le_refl 1))
    · obtain ⟨left, rfl⟩ : ∃ left, room = left + 1 := ⟨room - 1, by omega⟩
      have hmore : ¬ (c = sep ∨ left + 1 ≤ 1) := fun hend => hend.elim (hne ·.symm) hone
      rw [List.cons_append, linesFrom, if_neg hmore, Nat.add_sub_cancel,
        ih hrest (by omega) (by omega)]
      rfl

theorem linesFrom_append (s t : List α) :
    linesFrom sep cap room (s ++ sep :: t)
      = linesFrom sep cap room (s ++ [sep]) ++ lines sep cap t := by
  induction s generalizing room with
  | nil =>
    rw [List.nil_append, List.nil_append, linesFrom, if_pos (.inl rfl), linesFrom,
      if_pos (.inl rfl)]
    rfl
  | cons c s ih =>
    rw [List.cons_append, List.cons_append, linesFrom, linesFrom]
    by_cases hend : c = sep ∨ room ≤ 1
    · rw [if_pos hend, if_pos hend, ih]
      rfl
    · rw [if_neg hend, if_neg hend, ih]
      cases hlines : linesFrom sep cap (room - 1) (s ++ [sep]) with
      | nil =>
        cases s with
        | nil => exact absurd hlines (by rw [List.nil_append, linesFrom]; split <;> simp)
        | cons d s =>
          rw [List.cons_append, linesFrom] at hlines
          split at hlines
          · cases hlines
          · split at hlines <;> cases hlines
      | cons l ls => rfl

theorem mem_linesFrom {s l : List α} (h : l ∈ linesFrom sep cap room s) :
    ∃ t, sep ∉ t ∧ (l = t ∨ l = t ++ [sep]) := by
  induction s generalizing room l with
  | nil => cases h
  | cons c s ih =>
    rw [linesFrom] at h
    by_cases hend : c = sep ∨ room ≤ 1
    · rw [if_pos hend] at h
      rcases List.mem_cons.1 h with rfl | h
      · by_cases hc : c = sep
        · exact ⟨[], List.not_mem_nil, .inr (by rw [hc, List.nil_append])⟩
        · exact ⟨[c], fun hmem => hc (List.mem_singleton.1 hmem).symm, .inl rfl⟩
      · exact ih h
    · rw [if_neg hend] at h
      have hc : c ≠ sep := fun heq => hend (.inl heq)
      cases hlines : linesFrom sep cap (room - 1) s with
      | nil =>
        rw [hlines] at h
        rw [List.mem_singleton.1 h]
        exact ⟨[c], fun hmem => hc (List.mem_singleton.1 hmem).symm, .inl rfl⟩
      | cons m ls =>
        rw [hlines] at h
        rcases List.mem_cons.1 h with rfl | h
        · obtain ⟨t, ht, hm⟩ := @ih (room - 1) m (by rw [hlines]; exact List.mem_cons_self)
          refine ⟨c :: t, fun hmem => ?_, ?_⟩
          · exact (List.mem_cons.1 hmem).elim (fun heq => hc heq.symm) ht
          · exact hm.imp (fun heq => by rw [heq]) fun heq => by rw [heq, List.cons_append]
        · exact ih (by rw [hlines]; exact List.mem_cons_of_mem _ h)

theorem linesFrom_concat (room : Nat) (s : List α) :
    linesFrom sep cap room (s ++ [sep]) = linesFrom sep cap room s ++ [[sep]]
      ∨ ∃ ls l, linesFrom sep cap room s = ls ++ [l]
        ∧ linesFrom sep cap room (s ++ [sep]) = ls ++ [l ++ [sep]] := by
  induction s generalizing room with
  | nil => exact .inl (if_pos (.inl rfl))
  | cons c s ih =>
    rw [List.cons_append, linesFrom, linesFrom]
    by_cases hend : c = sep ∨ room ≤ 1
    · rw [if_pos hend, if_pos hend]
      rcases ih cap with hmore | ⟨ls, l, hs, hlast⟩
      · exact .inl (congrArg ([c] :: ·) hmore)
      · exact .inr ⟨[c] :: ls, l, congrArg ([c] :: ·) hs, congrArg ([c] :: ·) hlast⟩
    · rw [if_neg hend, if_neg hend]
      rcases ih (room - 1) with hmore | ⟨ls, l, hs, hlast⟩
      · rw [hmore]
        cases linesFrom sep cap (room - 1) s with
        | nil => exact .inr ⟨[], [c], rfl, rfl⟩
        | cons l ls => exact .inl rfl
      · rw [hs, hlast]
        cases ls with
        | nil => exact .inr ⟨[], c :: l, rfl, rfl⟩
        | cons m ls => exact .inr ⟨(c :: m) :: ls, l, rfl, rfl⟩

/-- To a reader of lines that does not look at the separator it makes no difference. -/
theorem filterMap_lines_concat {β : Type*} {f : List α → Option β} (hnone : f [sep] = none)
    (hf : ∀ l, f (l ++ [sep]) = f l) (s : List α) :
    (lines sep cap (s ++ [sep])).filterMap f = (lines sep cap s).filterMap f := by
  rcases @linesFrom_concat α _ sep cap cap s with hmore | ⟨ls, l, hs, hlast⟩
  · unfold lines
    rw [hmore, List.filterMap_append, List.filterMap_cons_none hnone]
    exact List.append_nil _
  · unfold lines
    rw [hs, hlast, List.filterMap_append, List.filterMap_append, List.filterMap_cons,
      List.filterMap_cons, hf]

-- ==== open lines

section Open

omit [DecidableEq α]

/-- Pieces of a text, some of which have a separator behind them. -/
def joined (sep : α) (pieces : List (List α × Bool)) : List α :=
  pieces.flatMap fun p => if p.2 then p.1 ++ [sep] else p.1

/-- Two pieces, and a separator, fit the buffer. -/
def FitsBuffer (sep : α) (cap : Nat) (p : List α × Bool) : Prop := sep ∉ p.1 ∧ 2 * p.1.length < cap

theorem joined_cons_true (t : List α) (ps : List (List α × Bool)) :
    joined sep ((t, true) :: ps) = t ++ sep :: joined sep ps := by
  show (t ++ [sep]) ++ joined sep ps = _
  rw [List.append_assoc]
  rfl

theorem joined_cons_false (t : List α) (ps : List (List α × Bool)) :
    joined sep ((t, false) :: ps) = t ++ joined sep ps := rfl

theorem joined_append (ps qs : List (List α × Bool)) :
    joined sep (ps ++ qs) = joined sep ps ++ joined sep qs := List.flatMap_append

/-- The pieces with a separator behind the last. -/
def closed : List (List α × Bool) → List (List α × Bool)
  | [] => []
  | [p] => [(p.1, true)]
  | p :: q :: ps => p :: closed (q :: ps)

theorem closed_concat (ps : List (List α × Bool)) (p : List α × Bool) :
    closed (ps ++ [p]) = ps ++ [(p.1, true)] := by
  induction ps with
  | nil => rfl
  | cons q ps ih =>
    cases ps with
    | nil => rfl
    | cons r ps =>
      show q :: closed (r :: ps ++ [p]) = _
      rw [ih]
      rfl

theorem closed_all_iff {ps : List (List α × Bool)} :
    (∀ p ∈ closed ps, p.2 = true) ↔ ∀ p ∈ ps.dropLast, p.2 = true := by
  induction ps using List.reverseRecOn with
  | nil => exact Iff.rfl
  | append_singleton ps p ih =>
    rw [closed_concat, List.dropLast_concat]
    constructor
    · exact fun h q hq => h q (List.mem_append_left _ hq)
    · intro h q hq
      rcases List.mem_append.1 hq with hq | hq
      · exact h q hq
      · rw [List.mem_singleton.1 hq]

theorem map_fst_closed (ps : List (List α × Bool)) :
    (closed ps).map Prod.fst = ps.map Prod.fst := by
  induction ps using List.reverseRecOn with
  | nil => rfl
  | append_singleton ps p ih =>
    rw [closed_concat, List.map_append, List.map_append]
    rfl

end Open

theorem exists_linesFrom_cons (room : Nat) (c : α) (s : List α) :
    ∃ l ls, linesFrom sep cap room (c :: s) = (c :: l) :: ls := by
  rw [linesFrom]
  split
  · exact ⟨[], _, rfl⟩
  · cases linesFrom sep cap (room - 1) s with
    | nil => exact ⟨[], [], rfl⟩
    | cons l ls => exact ⟨l, ls, rfl⟩

variable {ps : List (List α × Bool)}

theorem lines_joined (h : ∀ p ∈ ps, FitsBuffer sep cap p)
    (hall : ∀ p ∈ ps, p.2 = true) : lines sep cap (joined sep ps) = ps.map (·.1 ++ [sep]) := by
  induction ps with
  | nil => rfl
  | cons p ps ih =>
    obtain ⟨⟨hsep, hlen⟩, hps⟩ := List.forall_mem_cons.1 h
    obtain ⟨hp, hrest⟩ := List.forall_mem_cons.1 hall
    obtain ⟨t, flag⟩ := p
    obtain rfl : flag = true := hp
    rw [joined_cons_true, lines, linesFrom_line hsep (by omega), ih hps hrest]
    rfl

theorem length_linesFrom_open (h : sep ∉ t) (hroom : t.length < room)
    (s : List α) :
    (linesFrom sep cap room (t ++ s)).length
      ≤ max 1 (linesFrom sep cap (room - t.length) s).length := by
  rw [linesFrom_open h hroom]
  cases linesFrom sep cap (room - t.length) s with
  | nil =>
    dsimp only
    split
    · exact Nat.zero_le _
    · exact Nat.le_refl 1
  | cons l ls => exact le_max_right _ _

/-- There are no more lines than pieces; with a beginning of the first there is one more. -/
theorem length_lines_joined (h : ∀ p ∈ ps, FitsBuffer sep cap p) :
    (lines sep cap (joined sep ps)).length ≤ ps.length
      ∧ ∀ room, 0 < room → (linesFrom sep cap room (joined sep ps)).length ≤ ps.length + 1 := by
  induction ps with
  | nil => exact ⟨Nat.le_refl 0, fun room _ => Nat.zero_le _⟩
  | cons p ps ih =>
    obtain ⟨hp, hps⟩ := List.forall_mem_cons.1 h
    obtain ⟨hle, hroom⟩ := ih hps
    have hfirst (room : Nat) (q : List α × Bool) (hsep : sep ∉ q.1) (hlt : q.1.length < room) :
        (linesFrom sep cap room (joined sep (q :: ps))).length ≤ ps.length + 1 := by
      obtain ⟨t, flag⟩ := q
      cases flag with
      | true =>
        rw [joined_cons_true, linesFrom_line hsep hlt, List.length_cons]
        exact Nat.succ_le_succ hle
      | false =>
        rw [joined_cons_false]
        exact (length_linesFrom_open hsep hlt _).trans
          (max_le (by omega) (hroom _ (Nat.sub_pos_of_lt hlt)))
    have hcap : p.1.length < cap := by
      have hlen := hp.2
      omega
    refine ⟨hfirst cap p hp.1 hcap, fun room hpos => ?_⟩
    rw [List.length_cons]
    by_cases hlt : p.1.length < room
    · exact (hfirst room p hp.1 hlt).trans (Nat.le_succ _)
    · -- the first line is full before the piece ends, and what is left of it is a piece
      obtain ⟨t, flag⟩ := p
      have hcut := hfirst cap (t.drop room, flag) (fun hmem => hp.1 (List.mem_of_mem_drop hmem))
        (by rw [List.length_drop]; dsimp only at hcap; omega)
      have hsplit : joined sep ((t, flag) :: ps)
            = t ++ (if flag then [sep] else []) ++ joined sep ps
          ∧ joined sep ((t.drop room, flag) :: ps)
            = t.drop room ++ (if flag then [sep] else []) ++ joined sep ps := by
        cases flag with
        | true => exact ⟨rfl, rfl⟩
        | false => exact ⟨by rw [joined_cons_false]; simp, by rw [joined_cons_false]; simp⟩
      rw [hsplit.1, List.append_assoc, linesFrom_full hp.1 hpos (not_lt.1 hlt), List.length_cons,
        ← List.append_assoc, ← hsplit.2]
      exact Nat.succ_le_succ hcut

theorem length_lines_lt_of_open {before : List (List α × Bool)} {q : List α × Bool}
    {after : List (List α × Bool)}
    (h : ∀ p ∈ before ++ (t, false) :: q :: after, FitsBuffer sep cap p) :
    (lines sep cap (joined sep (before ++ (t, false) :: q :: after))).length
      < (before ++ (t, false) :: q :: after).length := by
  have hopen {t : List α} {q : List α × Bool} {after : List (List α × Bool)}
      (h : ∀ p ∈ (t, false) :: q :: after, FitsBuffer sep cap p) :
      (lines sep cap (joined sep ((t, false) :: q :: after))).length
        < ((t, false) :: q :: after).length := by
    obtain ⟨ht, hrest⟩ := List.forall_mem_cons.1 h
    obtain ⟨hq, hafter⟩ := List.forall_mem_cons.1 hrest
    obtain ⟨hle, hroom⟩ := length_lines_joined hafter
    obtain ⟨u, flag⟩ := q
    obtain ⟨htsep, htlen⟩ : sep ∉ t ∧ 2 * t.length < cap := ht
    obtain ⟨husep, hulen⟩ : sep ∉ u ∧ 2 * u.length < cap := hq
    rw [joined_cons_false, List.length_cons, List.length_cons]
    refine Nat.lt_succ_of_le ((length_linesFrom_open htsep (by omega) _).trans ?_)
    refine max_le (by omega) ?_
    cases flag with
    | true =>
      rw [joined_cons_true, linesFrom_line husep (by omega), List.length_cons]
      exact Nat.succ_le_succ hle
    | false =>
      rw [joined_cons_false]
      exact (length_linesFrom_open husep (by omega) _).trans
        (max_le (by omega) (hroom _ (by omega)))
  induction before with
  | nil => exact hopen h
  | cons p before ih =>
    obtain ⟨hp, hrest⟩ := List.forall_mem_cons.1 h
    obtain ⟨u, flag⟩ := p
    have hulen : 2 * u.length < cap := hp.2
    cases flag with
    | true =>
      rw [List.cons_append, joined_cons_true, lines, linesFrom_line hp.1 (by dsimp only; omega)]
      exact Nat.succ_lt_succ (ih hrest)
    | false =>
      cases before with
      | nil => exact hopen h
      | cons r before => exact hopen h

theorem filterMap_lines_closed {β : Type*} {f : List α → Option β} (hnone : f [sep] = none)
    (hf : ∀ l, f (l ++ [sep]) = f l) (hne : ps ≠ []) :
    (lines sep cap (joined sep ps ++ [sep])).filterMap f
      = (lines sep cap (joined sep (closed ps))).filterMap f := by
  obtain ⟨qs, ⟨t, flag⟩, rfl⟩ := (List.eq_nil_or_concat' ps).resolve_left hne
  rw [closed_concat, joined_append, joined_append]
  cases flag with
  | true => exact filterMap_lines_concat hnone hf _
  | false =>
    rw [List.append_assoc]
    show (lines sep cap (joined sep qs ++ ((t ++ []) ++ [sep]))).filterMap f
      = (lines sep cap (joined sep qs ++ ((t ++ [sep]) ++ []))).filterMap f
    rw [List.append_nil, List.append_nil]

omit [DecidableEq α] in
theorem fitsBuffer_closed (h : ∀ p ∈ ps, FitsBuffer sep cap p) :
    ∀ p ∈ closed ps, FitsBuffer sep cap p := by
  intro p hp
  have hmem : p.1 ∈ ps.map Prod.fst := by
    rw [← map_fst_closed]
    exact List.mem_map_of_mem hp
  obtain ⟨q, hq, heq⟩ := List.mem_map.1 hmem
  have hfits := h q hq
  unfold FitsBuffer at hfits ⊢
  rwa [heq] at hfits

/-- If there are as many lines as pieces, every piece but the last has its separator. -/
theorem closed_of_length (h : ∀ p ∈ ps, FitsBuffer sep cap p)
    (hlen : ps.length ≤ (lines sep cap (joined sep (closed ps))).length) :
    ∀ p ∈ closed ps, p.2 = true := by
  rcases List.eq_nil_or_concat' ps with rfl | ⟨qs, ⟨t, flag⟩, rfl⟩
  · exact fun p hp => nomatch hp
  have hfits := fitsBuffer_closed h
  by_contra hopen
  push Not at hopen
  obtain ⟨p, hp, hflag⟩ := hopen
  have hp' : p ∈ qs := by
    rw [closed_concat] at hp
    rcases List.mem_append.1 hp with hp | hp
    · exact hp
    · rw [List.mem_singleton.1 hp] at hflag
      exact absurd rfl hflag
  obtain ⟨before, after, rfl⟩ := List.append_of_mem hp'
  obtain ⟨u, flag'⟩ := p
  obtain rfl : flag' = false := Bool.eq_false_iff.2 hflag
  have hsplit : closed (before ++ (u, false) :: after ++ [(t, flag)])
      = before ++ (u, false) :: (after ++ [(t, true)]) := by
    rw [closed_concat, List.append_assoc]
    rfl
  rw [hsplit] at hlen hfits
  obtain ⟨q, rest, hq⟩ : ∃ q rest, after ++ [(t, true)] = q :: rest :=
    List.exists_cons_of_ne_nil (by simp)
  rw [hq] at hlen hfits
  have hlt := length_lines_lt_of_open hfits
  have hlength := congrArg List.length hq
  simp only [List.length_append, List.length_cons, List.length_nil] at hlen hlt hlength
  omega

end Eular.Lib
