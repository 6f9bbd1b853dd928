/-
The receive history records what was inserted, and nothing else.

Ranges are counted in 32 bits. A range that grows past that many numbers
has its count cut off and forgets numbers, which is harmless. One case is
not: a range that starts at 0 and counts 2 ^ 32 numbers has count 0, and
its upper end, computed as `0 + 0 - 1`, is the largest number of all. A
history that has not seen every number below 2 ^ 32 does not get there
(`Recorded.insert`).
-/
import Eular.Utp.Connection.HistorySlots

namespace Eular.Utp

variable {h : ReceiveHistory} {e : Element} {S : Nat → Prop}

-- ==== 64-bit arithmetic

theorem cast_add64 (a b : Nat) : ((add64 a b : Nat) : ZMod (2 ^ 64)) = a + b := by
  rw [add64, ZMod.natCast_mod, Nat.cast_add]

theorem cast_sub64 (a : Nat) {b : Nat} (h : b ≤ 2 ^ 64) :
    ((sub64 a b : Nat) : ZMod (2 ^ 64)) = a - b := by
  rw [sub64, ZMod.natCast_mod, Nat.cast_sub (h.trans (Nat.le_add_left _ _)), Nat.cast_add,
    ZMod.natCast_self, add_zero]

theorem cast_high (e : Element) : (e.high : ZMod (2 ^ 64)) = e.low + e.count - 1 := by
  rw [Element.high, cast_sub64 _ (by norm_num), cast_add64, Nat.cast_one]

theorem add64_lt (a b : Nat) : add64 a b < 2 ^ 64 := Nat.mod_lt _ (by norm_num)

theorem sub64_lt (a b : Nat) : sub64 a b < 2 ^ 64 := Nat.mod_lt _ (by norm_num)

theorem eq_of_cast {a b : Nat} (ha : a < 2 ^ 64) (hb : b < 2 ^ 64)
    (h : (a : ZMod (2 ^ 64)) = b) : a = b := by
  rw [ZMod.natCast_eq_natCast_iff', Nat.mod_eq_of_lt ha, Nat.mod_eq_of_lt hb] at h
  exact h

/-- `ne` ends right below `pn`. -/
theorem cast_of_below {ne : Element} {pn : Nat} (h : add64 ne.high 1 = pn) :
    (pn : ZMod (2 ^ 64)) = ne.low + ne.count := by
  rw [← h, cast_add64, cast_high]
  push_cast
  ring

/-- `e` starts right above `pn`. -/
theorem cast_of_above {pn : Nat} (h : add64 pn 1 = e.low) :
    (e.low : ZMod (2 ^ 64)) = pn + 1 := by
  rw [← h, cast_add64, Nat.cast_one]

-- ==== ranges

/-- The number is one of the `count` from `low` on, around the end of the
64-bit range if need be. -/
def Element.Covers (e : Element) (x : Nat) : Prop := ∃ i < e.count, x = add64 e.low i

/-- Both fields fit their types, and a range from 0 on is not empty. -/
structure Element.Fits (e : Element) : Prop where
  low : e.low < 2 ^ 64
  count : e.count < 2 ^ 32
  nonempty : e.low = 0 → e.count ≠ 0

theorem Element.Fits.covers (h : e.Fits) {x : Nat} (hlow : e.low ≤ x)
    (hhigh : x ≤ e.high) : e.Covers x := by
  have hl := h.low
  have hc := h.count
  have hne := h.nonempty
  unfold Element.high sub64 add64 at hhigh
  refine ⟨x - e.low, ?_, ?_⟩
  · by_cases hzero : e.low = 0
    · have := hne hzero
      omega
    · omega
  · unfold add64
    omega

/-- A range of `total` numbers from `low` on, each of them `pn` or covered
before, with its count cut to 32 bits. -/
structure Grown (pn : Nat) (old : List Element) (e : Element) : Prop where
  low : e.low < 2 ^ 64
  total : ∃ total, (e.low = 0 → 0 < total) ∧ total < 2 ^ 33 ∧ e.count = total % 2 ^ 32
    ∧ ∀ i < total, add64 e.low i = pn ∨ ∃ o ∈ old, o.Covers (add64 e.low i)

/-- A number `i` places above `low` is covered by a range that begins `a`
places above it. -/
theorem Element.covers_shift {o : Element} {low a i : Nat}
    (hlow : (o.low : ZMod (2 ^ 64)) = low + a) (ha : a ≤ i) (hi : i < a + o.count) :
    o.Covers (add64 low i) := by
  refine ⟨i - a, by omega, ?_⟩
  apply eq_of_cast (add64_lt _ _) (add64_lt _ _)
  rw [cast_add64, cast_add64, hlow, Nat.cast_sub ha]
  ring

/-- `pn` is the number `a` places above `low`. -/
theorem add64_eq_of_cast {low a pn : Nat} (hpn : pn < 2 ^ 64)
    (h : (pn : ZMod (2 ^ 64)) = low + a) : add64 low a = pn := by
  apply eq_of_cast (add64_lt _ _) hpn
  rw [cast_add64, h]

section

variable {pn : Nat} {e ne : Element} {old : List Element}

theorem grown_single (hpn : pn < 2 ^ 64) : Grown pn old { low := pn, count := 1 } := by
  refine ⟨hpn, 1, fun _ => by omega, by omega, rfl, ?_⟩
  intro i hi
  left
  apply add64_eq_of_cast hpn
  rw [show i = 0 by omega, Nat.cast_zero, add_zero]

/-- `pn` and the range above it. -/
theorem grown_down (hpn : pn < 2 ^ 64) (hfit : e.Fits) (hmem : e ∈ old)
    (htouch : add64 pn 1 = e.low) :
    Grown pn old { low := pn, count := toU32 (add64 (sub64 e.high pn) 1) } := by
  have hcount := hfit.count
  have habove := cast_of_above htouch
  refine ⟨hpn, e.count + 1, fun _ => by omega, by omega, ?_, ?_⟩
  · have hsum : add64 (sub64 e.high pn) 1 = e.count + 1 := by
      apply eq_of_cast (add64_lt _ _) (by omega)
      rw [cast_add64, cast_sub64 _ hpn.le, cast_high, habove]
      push_cast
      ring
    rw [hsum]
    rfl
  · intro i hi
    cases i with
    | zero =>
      left
      exact add64_eq_of_cast hpn (by simp)
    | succ i =>
      exact .inr ⟨e, hmem, Element.covers_shift (a := 1) (by rw [habove, Nat.cast_one])
        (by omega) (by omega)⟩

/-- The range below, `pn`, and the range above. -/
theorem grown_bridge (hpn : pn < 2 ^ 64) (hfit : e.Fits) (hmem : e ∈ old)
    (htouch : add64 pn 1 = e.low) (hfit' : ne.Fits) (hmem' : ne ∈ old)
    (htouch' : add64 ne.high 1 = pn) :
    Grown pn old { low := ne.low, count := toU32 (add64 (sub64 e.high ne.low) 1) } := by
  have hcount := hfit.count
  have hcount' := hfit'.count
  have habove := cast_of_above htouch
  have hbelow := cast_of_below htouch'
  refine ⟨hfit'.low, ne.count + 1 + e.count, fun _ => by omega, by omega, ?_, ?_⟩
  · have hsum : add64 (sub64 e.high ne.low) 1 = ne.count + 1 + e.count := by
      apply eq_of_cast (add64_lt _ _) (by omega)
      rw [cast_add64, cast_sub64 _ hfit'.low.le, cast_high, habove, hbelow]
      push_cast
      ring
    rw [hsum]
    rfl
  · intro i hi
    by_cases hin : i < ne.count
    · exact .inr ⟨ne, hmem', i, hin, rfl⟩
    · by_cases hat : i = ne.count
      · left
        exact add64_eq_of_cast hpn (by rw [hat, hbelow])
      · refine .inr ⟨e, hmem, Element.covers_shift (a := ne.count + 1) ?_ (by omega) (by omega)⟩
        rw [habove, hbelow]
        push_cast
        ring

/-- The range below `pn`, and `pn`. -/
theorem grown_up (hpn : pn < 2 ^ 64) (hfit : e.Fits) (hmem : e ∈ old)
    (htouch : pn = add64 e.high 1) :
    Grown pn old { e with count := toU32 (add64 (sub64 pn e.low) 1) } := by
  have hcount := hfit.count
  have hbelow := cast_of_below htouch.symm
  refine ⟨hfit.low, e.count + 1, fun _ => by omega, by omega, ?_, ?_⟩
  · have hsum : add64 (sub64 pn e.low) 1 = e.count + 1 := by
      apply eq_of_cast (add64_lt _ _) (by omega)
      rw [cast_add64, cast_sub64 _ hfit.low.le, hbelow]
      push_cast
      ring
    rw [hsum]
    rfl
  · intro i hi
    by_cases hin : i < e.count
    · exact .inr ⟨e, hmem, i, hin, rfl⟩
    · left
      exact add64_eq_of_cast hpn (by rw [show i = e.count by omega, hbelow])

/-- A range, `pn` above it, and the range listed after it above that. -/
theorem grown_up_bridge (hpn : pn < 2 ^ 64) (hfit : e.Fits) (hmem : e ∈ old)
    (htouch : pn = add64 e.high 1) (hfit' : ne.Fits) (hmem' : ne ∈ old)
    (htouch' : add64 pn 1 = ne.low) :
    Grown pn old { e with count := toU32 (add64 (sub64 ne.high e.low) 1) } := by
  have hgrown := grown_bridge hpn hfit' hmem' htouch' hfit hmem htouch.symm
  exact ⟨hgrown.low, hgrown.total⟩

/-- A range listed before, `pn`, and the range `pn` extends. -/
theorem grown_prev {pe : Element} (hpn : pn < 2 ^ 64) (hfit : e.Fits) (hmem : e ∈ old)
    (htouch : add64 pn 1 = e.low) (hfit' : pe.Fits) (hmem' : pe ∈ old)
    (htouch' : add64 pe.high 1 = pn) :
    Grown pn old { pe with
      count := toU32 (sub64 (add64 pn (toU32 (add64 (sub64 e.high pn) 1))) pe.low) } := by
  have hcount' := hfit'.count
  have habove := cast_of_above htouch
  have hbelow := cast_of_below htouch'
  obtain ⟨-, total, htotal, hlt, hcut, hcovered⟩ := grown_down hpn hfit hmem htouch
  simp only at hcut hcovered
  rw [hcut]
  have hle : total % 2 ^ 32 ≤ total := Nat.mod_le _ _
  have hlt' : total % 2 ^ 32 < 2 ^ 32 := Nat.mod_lt _ (by norm_num)
  refine ⟨hfit'.low, pe.count + total % 2 ^ 32, ?_, by omega, ?_, ?_⟩
  · intro hzero
    have := hfit'.nonempty hzero
    omega
  · have hsum : sub64 (add64 pn (total % 2 ^ 32)) pe.low = pe.count + total % 2 ^ 32 := by
      apply eq_of_cast (sub64_lt _ _) (by omega)
      rw [cast_sub64 _ hfit'.low.le, cast_add64, hbelow]
      push_cast
      ring
    rw [hsum]
    rfl
  · intro i hi
    by_cases hin : i < pe.count
    · exact .inr ⟨pe, hmem', i, hin, rfl⟩
    · have hshift : add64 pe.low i = add64 pn (i - pe.count) := by
        apply eq_of_cast (add64_lt _ _) (add64_lt _ _)
        rw [cast_add64, cast_add64, hbelow, Nat.cast_sub (by omega)]
        ring
      simp only [hshift]
      exact hcovered _ (by omega)

end

-- ==== the insertion

variable {pn : Nat} {old : List Element}

theorem mem_extendDown {rest : List Element} (hpn : pn < 2 ^ 64)
    (hfits : ∀ o ∈ old, o.Fits) (hmem : e ∈ old) (hrest : ∀ o ∈ rest, o ∈ old)
    (htouch : add64 pn 1 = e.low) :
    ∀ o ∈ ReceiveHistory.extendDown pn e rest, o ∈ old ∨ Grown pn old o := by
  intro o ho
  have hdown := grown_down hpn (hfits e hmem) hmem htouch
  cases rest with
  | nil => exact .inr (List.mem_singleton.mp ho ▸ hdown)
  | cons ne rest =>
    have hne := hrest ne (List.mem_cons_self ..)
    simp only [ReceiveHistory.extendDown] at ho
    split at ho
    · rename_i hbelow
      cases List.mem_cons.mp ho with
      | inl hnew =>
        rw [hnew]
        exact .inr (grown_bridge hpn (hfits e hmem) hmem htouch (hfits ne hne) hne hbelow)
      | inr htail => exact .inl (hrest o (List.mem_cons_of_mem _ htail))
    · cases List.mem_cons.mp ho with
      | inl hnew => exact .inr (hnew ▸ hdown)
      | inr htail => exact .inl (hrest o htail)

theorem mem_extendUp {rest : List Element} (hpn : pn < 2 ^ 64)
    (hfits : ∀ o ∈ old, o.Fits) (hmem : e ∈ old) (hrest : ∀ o ∈ rest, o ∈ old)
    (htouch : pn = add64 e.high 1) :
    ∀ o ∈ ReceiveHistory.extendUp pn e rest, o ∈ old ∨ Grown pn old o := by
  intro o ho
  have hup := grown_up hpn (hfits e hmem) hmem htouch
  cases rest with
  | nil => exact .inr (List.mem_singleton.mp ho ▸ hup)
  | cons ne rest =>
    have hne := hrest ne (List.mem_cons_self ..)
    simp only [ReceiveHistory.extendUp] at ho
    split at ho
    · rename_i habove
      cases List.mem_cons.mp ho with
      | inl hnew =>
        rw [hnew]
        exact .inr (grown_up_bridge hpn (hfits e hmem) hmem htouch (hfits ne hne) hne habove)
      | inr htail => exact .inl (hrest o (List.mem_cons_of_mem _ htail))
    · cases List.mem_cons.mp ho with
      | inl hnew => exact .inr (hnew ▸ hup)
      | inr htail => exact .inl (hrest o htail)

/-- Every range after an insertion was there before, or is `pn` and ranges
that touch it. -/
theorem mem_insertFrom (hpn : pn < 2 ^ 64) (hfits : ∀ o ∈ old, o.Fits) :
    ∀ {rest passed : List Element}, (∀ o ∈ passed, o ∈ old) → (∀ o ∈ rest, o ∈ old) →
      ∀ o ∈ ReceiveHistory.insertFrom pn passed rest, o ∈ old ∨ Grown pn old o := by
  intro rest
  induction rest with
  | nil =>
    intro passed hpassed _ o ho
    cases List.mem_append.mp ho with
    | inl hkept => exact .inl (hpassed o (List.mem_reverse.mp hkept))
    | inr hnew => exact .inr (List.mem_singleton.mp hnew ▸ grown_single hpn)
  | cons e rest ih =>
    intro passed hpassed hrest o ho
    have hmem := hrest e (List.mem_cons_self ..)
    have htail : ∀ o ∈ rest, o ∈ old := fun o h => hrest o (List.mem_cons_of_mem _ h)
    -- what an extension leaves is behind the ranges already passed
    have hbehind : ∀ {tail : List Element}, (∀ o ∈ tail, o ∈ old ∨ Grown pn old o) →
        o ∈ passed.reverse ++ tail → o ∈ old ∨ Grown pn old o := by
      intro tail hspec hin
      cases List.mem_append.mp hin with
      | inl hkept => exact .inl (hpassed o (List.mem_reverse.mp hkept))
      | inr h => exact hspec o h
    unfold ReceiveHistory.insertFrom at ho
    split at ho
    · exact hbehind (fun o h => .inl (hrest o h)) ho
    · split at ho
      · rename_i htouch
        have hdown := mem_extendDown hpn hfits hmem htail htouch
        simp only at ho
        split at ho
        · rename_i pe passed'
          have hpe := hpassed pe (List.mem_cons_self ..)
          split at ho
          · rename_i hbelow
            cases List.mem_append.mp ho with
            | inl hkept =>
              exact .inl (hpassed o (List.mem_cons_of_mem _ (List.mem_reverse.mp hkept)))
            | inr h =>
              cases List.mem_cons.mp h with
              | inl hnew =>
                rw [hnew]
                exact .inr (grown_prev hpn (hfits e hmem) hmem htouch (hfits pe hpe) hpe
                  hbelow)
              | inr hold => exact .inl (htail o hold)
          · exact hbehind hdown ho
        · exact hdown o ho
      · split at ho
        · rename_i htouch
          exact hbehind (mem_extendUp hpn hfits hmem htail htouch) ho
        · split at ho
          · refine hbehind ?_ ho
            intro o h
            cases List.mem_cons.mp h with
            | inl hnew => exact .inr (hnew ▸ grown_single hpn)
            | inr hold => exact .inl (hrest o hold)
          · refine ih ?_ htail o ho
            intro o h
            cases List.mem_cons.mp h with
            | inl hnew => exact hnew ▸ hmem
            | inr hold => exact hpassed o hold

-- ==== the history

/-- Every number the history reports is in `S`. -/
structure Recorded (h : ReceiveHistory) (S : Nat → Prop) : Prop where
  fits : ∀ e ∈ h.elements, e.Fits
  covers : ∀ e ∈ h.elements, ∀ x, e.Covers x → S x

theorem recorded_empty (S : Nat → Prop) : Recorded {} S :=
  ⟨fun _ h => (by cases h), fun _ h => (by cases h)⟩

theorem Recorded.mono {S T : Nat → Prop} (hr : Recorded h S)
    (hST : ∀ x, S x → T x) : Recorded h T :=
  ⟨hr.fits, fun e he x hx => hST x (hr.covers e he x hx)⟩

theorem Recorded.contains (hr : Recorded h S)
    (hpn : h.contains pn = true) : S pn := by
  unfold ReceiveHistory.contains at hpn
  obtain ⟨e, he, hin⟩ := List.any_eq_true.mp hpn
  simp only [Bool.and_eq_true, decide_eq_true_eq] at hin
  exact hr.covers e he pn ((hr.fits e he).covers hin.1 hin.2)

theorem Grown.fits (hg : Grown pn old e)
    (hcovers : ∀ o ∈ old, ∀ x, o.Covers x → S x) (hgap : ∃ k < 2 ^ 32, k ≠ pn ∧ ¬ S k) :
    e.Fits := by
  obtain ⟨hlow, total, hpos, hlt, hcut, hall⟩ := hg
  refine ⟨hlow, by rw [hcut]; exact Nat.mod_lt _ (by norm_num), ?_⟩
  intro hzero hcount
  have htotal : total = 2 ^ 32 := by
    have := hpos hzero
    rw [hcut] at hcount
    omega
  obtain ⟨k, hk, hne, hmiss⟩ := hgap
  have hself : add64 e.low k = k := by
    rw [hzero, add64, Nat.zero_add]
    exact Nat.mod_eq_of_lt (hk.trans (by norm_num))
  have hreceived := hall k (htotal ▸ hk)
  rw [hself] at hreceived
  cases hreceived with
  | inl h => exact hne h
  | inr h =>
    obtain ⟨o, ho, hcov⟩ := h
    exact hmiss (hcovers o ho k hcov)

theorem Recorded.insertIntoList (hr : Recorded h S)
    (hpn : pn < 2 ^ 64) (hgap : ∃ k < 2 ^ 32, k ≠ pn ∧ ¬ S k) :
    Recorded (h.insertIntoList pn) (fun x => x = pn ∨ S x) := by
  have hmem : ∀ e ∈ (h.insertIntoList pn).elements, e ∈ h.elements ∨ Grown pn h.elements e :=
    mem_insertFrom hpn hr.fits (fun _ h => (by cases h)) (fun _ h => h)
  refine ⟨?_, ?_⟩
  · intro e he
    cases hmem e he with
    | inl hold => exact hr.fits e hold
    | inr hnew => exact hnew.fits hr.covers hgap
  · intro e he x hx
    cases hmem e he with
    | inl hold => exact .inr (hr.covers e hold x hx)
    | inr hnew =>
      obtain ⟨i, hi, rfl⟩ := hx
      obtain ⟨-, total, -, -, hcut, hall⟩ := hnew
      have hle : total % 2 ^ 32 ≤ total := Nat.mod_le _ _
      cases hall i (by omega) with
      | inl heq => exact .inl heq
      | inr h =>
        obtain ⟨o, ho, hcov⟩ := h
        exact .inr (hr.covers o ho _ hcov)

theorem Recorded.dropOldestRange (hr : Recorded h S) :
    Recorded h.dropOldestRange S := by
  unfold ReceiveHistory.dropOldestRange
  split
  · exact hr
  · exact ⟨fun e he => hr.fits e (List.mem_of_mem_dropLast he),
      fun e he => hr.covers e (List.mem_of_mem_dropLast he)⟩

theorem Recorded.insert (hr : Recorded h S)
    (hpn : pn < 2 ^ 64) (hgap : ∃ k < 2 ^ 32, k ≠ pn ∧ ¬ S k) :
    Recorded (h.insert pn) (fun x => x = pn ∨ S x) := by
  unfold ReceiveHistory.insert
  split
  · exact hr.mono fun _ hx => .inr hx
  · have hlargest : Recorded (if h.largest < pn then { h with largest := pn } else h) S := by
      split
      · exact ⟨hr.fits, hr.covers⟩
      · exact hr
    generalize (if h.largest < pn then { h with largest := pn } else h) = h' at hlargest ⊢
    have hlist := hlargest.insertIntoList hpn hgap
    simp only
    split
    · exact hlist.dropOldestRange
    · exact hlist

end Eular.Utp
