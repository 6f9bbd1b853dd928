/-
When the UTF-8 detection is exact.

A string is cut into units by the first byte of each (`units`): the scanner
makes the same cut, stops at a unit that begins with `0x00`, `0xc0`, `0xe0`
or `0xf0` (`Stops`), and else does no more than remember whether a unit was
good (`Raises`): `scan_unit` is one unit, `scan_written` all of them. The
patterns are the units whose other bytes are `10xxxxxx`, and there is one way
only to cut a string (`concat_iff`). `detectsExactly_iff` compares the two.
-/
import Mathlib
import Eular.Utils.CodeConvert

namespace Eular.Utils

open Lib

namespace CodeConvert

-- ==== the bytes

theorem shiftRight_eq_iff (c v : UInt8) {k : UInt8} (hk : k.toNat < 8) :
    c >>> k = v ↔ c.toNat / 2 ^ k.toNat = v.toNat := by
  rw [← UInt8.toNat_inj, UInt8.toNat_shiftRight, Nat.shiftRight_eq_div_pow, Nat.mod_eq_of_lt hk]

theorem one_iff (c : UInt8) : c >>> 7 = 0b0 ↔ c.toNat < 0x80 := by
  rw [shiftRight_eq_iff c _ (by decide)]
  show c.toNat / 128 = 0 ↔ _
  omega

theorem two_iff (c : UInt8) : c >>> 5 = 0b110 ↔ 0xc0 ≤ c.toNat ∧ c.toNat < 0xe0 := by
  rw [shiftRight_eq_iff c _ (by decide)]
  show c.toNat / 32 = 6 ↔ _
  omega

theorem three_iff (c : UInt8) : c >>> 4 = 0b1110 ↔ 0xe0 ≤ c.toNat ∧ c.toNat < 0xf0 := by
  rw [shiftRight_eq_iff c _ (by decide)]
  show c.toNat / 16 = 14 ↔ _
  omega

theorem four_iff (c : UInt8) : c >>> 3 = 0b11110 ↔ 0xf0 ≤ c.toNat ∧ c.toNat < 0xf8 := by
  rw [shiftRight_eq_iff c _ (by decide)]
  show c.toNat / 8 = 30 ↔ _
  omega

/-- What a byte that is stopped at leaves of its range, and what the scanner makes of the rest. -/
theorem excludedLead_iff (c : UInt8) :
    excludedLead c = true ↔ c.toNat = 0 ∨ c.toNat = 0xc0 ∨ c.toNat = 0xe0 ∨ c.toNat = 0xf0 := by
  simp [excludedLead, ← UInt8.toNat_inj, or_assoc]

theorem IS_UTF8_ANSII_iff (c : UInt8) :
    IS_UTF8_ANSII c = true ↔ 0 < c.toNat ∧ c.toNat < 0x80 := by
  simp [IS_UTF8_ANSII, UInt8.lt_iff_toNat_lt]

theorem IS_UTF8_2BYTE_iff (c : UInt8) :
    IS_UTF8_2BYTE c = true ↔ 0xc0 < c.toNat ∧ c.toNat < 0xe0 := by
  simp [IS_UTF8_2BYTE, UInt8.lt_iff_toNat_lt]

theorem IS_UTF8_3BYTE_iff (c : UInt8) :
    IS_UTF8_3BYTE c = true ↔ 0xe0 < c.toNat ∧ c.toNat < 0xf0 := by
  simp [IS_UTF8_3BYTE, UInt8.lt_iff_toNat_lt]

theorem IS_UTF8_4BYTE_iff (c : UInt8) :
    IS_UTF8_4BYTE c = true ↔ 0xf0 < c.toNat ∧ c.toNat < 0xf8 := by
  simp [IS_UTF8_4BYTE, UInt8.lt_iff_toNat_lt]

-- ==== the units

theorem unit_cases {u : List UInt8} (hu : IsUnit u) :
    (∃ c, u = [c] ∧ c.toNat < 0x80)
      ∨ (∃ c a, u = [c, a] ∧ 0xc0 ≤ c.toNat ∧ c.toNat < 0xe0)
      ∨ (∃ c a b, u = [c, a, b] ∧ 0xe0 ≤ c.toNat ∧ c.toNat < 0xf0)
      ∨ ∃ c a b d, u = [c, a, b, d] ∧ 0xf0 ≤ c.toNat ∧ c.toNat < 0xf8 := by
  cases u with
  | nil => cases hu
  | cons c tail =>
    have hsize : patternSize c = some (tail.length + 1) := hu
    unfold patternSize at hsize
    simp only [one_iff, two_iff, three_iff, four_iff] at hsize
    match tail, hsize with
    | [], hsize => exact .inl ⟨c, rfl, by split_ifs at hsize <;> simp_all⟩
    | [a], hsize => exact .inr (.inl ⟨c, a, rfl, by split_ifs at hsize <;> simp_all⟩)
    | [a, b], hsize => exact .inr (.inr (.inl ⟨c, a, b, rfl, by split_ifs at hsize <;> simp_all⟩))
    | [a, b, d], hsize =>
      exact .inr (.inr (.inr ⟨c, a, b, d, rfl, by split_ifs at hsize <;> simp_all⟩))
    | _ :: _ :: _ :: _ :: _, hsize => split_ifs at hsize <;> simp_all

/-- A pattern is a unit whose other bytes are `10xxxxxx`. -/
theorem pattern_iff (u : List UInt8) : Pattern u ↔ IsUnit u ∧ Continued u := by
  constructor
  · intro h
    cases h with
    | one hc => exact ⟨by simp [IsUnit, patternSize, hc], by simp [Continued]⟩
    | two hc ha =>
      have hrange := (two_iff _).mp hc
      refine ⟨?_, by simpa [Continued] using ha⟩
      simp only [IsUnit, List.head?_cons, Option.bind_some, patternSize, one_iff, hc, if_true]
      rw [if_neg (by omega)]
      rfl
    | three hc ha hb =>
      have hrange := (three_iff _).mp hc
      refine ⟨?_, by simpa [Continued] using ⟨ha, hb⟩⟩
      simp only [IsUnit, List.head?_cons, Option.bind_some, patternSize, one_iff, two_iff, hc,
        if_true]
      rw [if_neg (by omega), if_neg (by omega)]
      rfl
    | four hc ha hb hd =>
      have hrange := (four_iff _).mp hc
      refine ⟨?_, by simpa [Continued] using ⟨ha, hb, hd⟩⟩
      simp only [IsUnit, List.head?_cons, Option.bind_some, patternSize, one_iff, two_iff,
        three_iff, hc, if_true]
      rw [if_neg (by omega), if_neg (by omega), if_neg (by omega)]
      rfl
  · rintro ⟨hu, hcontinued⟩
    obtain ⟨c, rfl, hc⟩ | ⟨c, a, rfl, hc⟩ | ⟨c, a, b, rfl, hc⟩ | ⟨c, a, b, d, rfl, hc⟩ :=
      unit_cases hu
    · exact .one ((one_iff c).mpr hc)
    · exact .two ((two_iff c).mpr hc) (hcontinued a (by simp))
    · exact .three ((three_iff c).mpr hc) (hcontinued a (by simp)) (hcontinued b (by simp))
    · exact .four ((four_iff c).mpr hc) (hcontinued a (by simp)) (hcontinued b (by simp))
        (hcontinued d (by simp))

-- ==== the scanner

theorem stops_iff (c : UInt8) (tail : List UInt8) :
    Stops (c :: tail) ↔ c.toNat = 0 ∨ c.toNat = 0xc0 ∨ c.toNat = 0xe0 ∨ c.toNat = 0xf0 := by
  simp [Stops, excludedLead_iff]

theorem scan_unit {u : List UInt8} (hu : IsUnit u) (t : List UInt8) (n : UInt32) (b : Bool) :
    scan (u ++ t) n b
      = if Stops u then some (n, false) else scan t (n + 1) (b || decide (Raises u)) := by
  obtain ⟨c, rfl, hc⟩ | ⟨c, x, rfl, hc⟩ | ⟨c, x, y, rfl, hc⟩ | ⟨c, x, y, z, rfl, hc⟩ :=
    unit_cases hu
  all_goals
    simp only [List.cons_append, List.nil_append]
    rw [scan.eq_def]
    simp only [stops_iff, IS_UTF8_ANSII_iff, IS_UTF8_2BYTE_iff, IS_UTF8_3BYTE_iff,
      IS_UTF8_4BYTE_iff]
  · by_cases hstops : c.toNat = 0
    · rw [if_neg (by omega), if_neg (by omega), if_neg (by omega), if_neg (by omega),
        if_pos (by omega)]
    · rw [if_pos (by omega), if_neg (by omega)]
      simp [Raises]
  · by_cases hstops : c.toNat = 0xc0
    · rw [if_neg (by omega), if_neg (by omega), if_neg (by omega), if_neg (by omega),
        if_pos (by omega)]
    · rw [if_neg (by omega), if_pos (by omega), if_neg (by omega)]
      simp [Raises]
  · by_cases hstops : c.toNat = 0xe0
    · rw [if_neg (by omega), if_neg (by omega), if_neg (by omega), if_neg (by omega),
        if_pos (by omega)]
    · rw [if_neg (by omega), if_neg (by omega), if_pos (by omega), if_neg (by omega)]
      simp [Raises]
  · by_cases hstops : c.toNat = 0xf0
    · rw [if_neg (by omega), if_neg (by omega), if_neg (by omega), if_neg (by omega),
        if_pos (by omega)]
    · rw [if_neg (by omega), if_neg (by omega), if_neg (by omega), if_pos (by omega),
        if_neg (by omega)]
      simp [Raises, Bool.and_assoc]

/-- No unit begins where the first byte begins no pattern or announces more bytes than there
are. -/
theorem size_of_nextUnit_none {c : UInt8} {tail : List UInt8} (h : nextUnit (c :: tail) = none)
    {k : Nat} (hk : patternSize c = some k) : tail.length + 1 < k := by
  unfold nextUnit at h
  simp only [List.head?_cons, Option.bind_some, hk] at h
  by_contra hge
  have hpos : k ≠ 0 := by
    rintro rfl
    unfold patternSize at hk
    split_ifs at hk <;> cases hk
  have hunit : IsUnit ((c :: tail).take k) := by
    obtain ⟨m, rfl⟩ := Nat.exists_eq_succ_of_ne_zero hpos
    simp only [List.take_succ_cons, IsUnit, List.head?_cons, Option.bind_some, hk,
      List.length_cons, List.length_take]
    congr 1
    omega
  rw [dif_pos hunit] at h
  cases h

theorem scan_rest {t : List UInt8} (ht : t ≠ []) (hnext : nextUnit t = none) (n : UInt32)
    (b : Bool) : scan t n b = none ∨ scan t n b = some (n, false) := by
  cases t with
  | nil => exact absurd rfl ht
  | cons c tail =>
    have hsize {k : Nat} : patternSize c = some k → tail.length + 1 < k :=
      size_of_nextUnit_none hnext
    unfold patternSize at hsize
    simp only [one_iff, two_iff, three_iff, four_iff] at hsize
    rw [scan.eq_def]
    simp only [IS_UTF8_ANSII_iff, IS_UTF8_2BYTE_iff, IS_UTF8_3BYTE_iff, IS_UTF8_4BYTE_iff]
    split
    case isTrue hc =>
      have hlen := hsize (if_pos (by omega))
      omega
    split
    case isTrue hc =>
      have hlen := @hsize 2 (by rw [if_neg (by omega), if_pos (by omega)])
      match tail, hlen with
      | [], _ => exact .inl rfl
      | _ :: _, hlen => exact absurd hlen (by simp only [List.length_cons]; omega)
    split
    case isTrue hc =>
      have hlen := @hsize 3
        (by rw [if_neg (by omega), if_neg (by omega), if_pos (by omega)])
      match tail, hlen with
      | [], _ => exact .inl rfl
      | [_], _ => exact .inl rfl
      | _ :: _ :: _, hlen => exact absurd hlen (by simp only [List.length_cons]; omega)
    split
    case isTrue hc =>
      have hlen := @hsize 4
        (by rw [if_neg (by omega), if_neg (by omega), if_neg (by omega), if_pos (by omega)])
      match tail, hlen with
      | [], _ => exact .inl rfl
      | [_], _ => exact .inl rfl
      | [_, _], _ => exact .inl rfl
      | _ :: _ :: _ :: _, hlen => exact absurd hlen (by simp only [List.length_cons]; omega)
    exact .inr rfl

/-- The scanner on units: where it is stopped at none of them, there are as many characters more,
and the verdict is good if one of them raises it. -/
theorem scan_written (us : List {u : List UInt8 // IsUnit u}) (t : List UInt8) (n : UInt32)
    (b : Bool) :
    (∀ u ∈ us, ¬ Stops u.1) ∧ scan (units.written us ++ t) n b
        = scan t (n + UInt32.ofNat us.length) (b || us.any fun u => decide (Raises u.1))
      ∨ (∃ u ∈ us, Stops u.1) ∧ ∃ m, scan (units.written us ++ t) n b = some (m, false) := by
  induction us generalizing n b with
  | nil => exact .inl ⟨nofun, by simp⟩
  | cons u us ih =>
    have hfirst : units.written (u :: us) ++ t = u.1 ++ (units.written us ++ t) :=
      List.append_assoc _ _ _
    rw [hfirst, scan_unit u.2]
    by_cases hstops : Stops u.1
    · exact .inr ⟨⟨u, List.mem_cons_self, hstops⟩, n, if_pos hstops⟩
    · rw [if_neg hstops]
      obtain ⟨hnone, hrest⟩ | ⟨⟨v, hv, hvstops⟩, hrest⟩ :=
        ih (n + 1) (b || decide (Raises u.1))
      · refine .inl ⟨List.forall_mem_cons.mpr ⟨hstops, hnone⟩, hrest.trans ?_⟩
        have hcount : n + 1 + UInt32.ofNat us.length = n + UInt32.ofNat (us.length + 1) := by
          rw [UInt32.ofNat_add, UInt32.add_assoc, UInt32.add_comm 1]
          rfl
        rw [hcount, List.any_cons, Bool.or_assoc, List.length_cons]
      · exact .inr ⟨⟨v, List.mem_cons_of_mem u hv, hvstops⟩, hrest⟩

-- ==== the verdict

variable (s : List UInt8)

/-- What the scanner accepts: a string that is units to its end, with none it stops at and one
that raises the verdict. -/
def Accepted : Prop :=
  (units.readAll s).2 = [] ∧ (∀ u ∈ (units.readAll s).1, ¬ Stops u.1)
    ∧ ∃ u ∈ (units.readAll s).1, Raises u.1

/-- A string that the comment's patterns make up. -/
def Concatenation : Prop :=
  ∃ patterns : List (List UInt8), (∀ p ∈ patterns, Pattern p) ∧ patterns.flatten = s

theorem scan_eq :
    (Accepted s → scan s 0 false = some (UInt32.ofNat (units.readAll s).1.length, true))
      ∧ (¬ Accepted s → ∀ r, scan s 0 false = some r → r.2 = false) := by
  obtain ⟨hs, hend⟩ := units.written_readAll s
  unfold Accepted
  generalize (units.readAll s).1 = us, (units.readAll s).2 = t at hs hend ⊢
  subst hs
  have hverdict := scan_written us t 0 false
  constructor
  · rintro ⟨rfl, hnone, hraises⟩
    obtain ⟨-, hscan⟩ | ⟨⟨u, hu, hstops⟩, -⟩ := hverdict
    · rw [hscan]
      simpa [scan] using hraises
    · exact absurd hstops (hnone u hu)
  · intro hnot r hr
    obtain ⟨hnone, hscan⟩ | ⟨-, m, hscan⟩ := hverdict
    · by_cases ht : t = []
      · subst ht
        have hraises : us.any (fun u => decide (Raises u.1)) = false := by
          by_contra hany
          exact hnot ⟨rfl, hnone, by simpa using hany⟩
        rw [hscan, hraises] at hr
        cases hr
        rfl
      · rw [hscan] at hr
        obtain hrest | hrest := scan_rest ht hend (0 + UInt32.ofNat us.length)
          (false || us.any fun u => decide (Raises u.1))
        · rw [hrest] at hr
          cases hr
        · rw [hrest] at hr
          cases hr
          rfl
    · rw [hscan] at hr
      cases hr
      rfl

/-- When `IsUTF8Encode` returns true, and what it writes then. -/
theorem IsUTF8Encode_eq (characterSize : Option UInt32) :
    ((IsUTF8Encode s characterSize).1 = true ↔ s = [] ∨ Accepted s)
      ∧ ((IsUTF8Encode s characterSize).1 = true → (IsUTF8Encode s characterSize).2
        = characterSize.map fun _ => UInt32.ofNat (units.readAll s).1.length) := by
  obtain ⟨haccepted, hrefused⟩ := scan_eq s
  cases s with
  | nil => exact ⟨by simp [IsUTF8Encode], fun _ => rfl⟩
  | cons c s =>
    unfold IsUTF8Encode
    rw [if_neg (by simp)]
    by_cases h : Accepted (c :: s)
    · rw [haccepted h]
      exact ⟨by simp [h], fun _ => rfl⟩
    · cases hscan : scan (c :: s) 0 false with
      | none => simp [h]
      | some r =>
        have hfalse := hrefused h r hscan
        simp [h, hfalse]

-- ==== the patterns

theorem patterns_eq {patterns : List (List UInt8)} (h : ∀ p ∈ patterns, Pattern p) :
    (units.readAll patterns.flatten).1.map (·.1) = patterns
      ∧ (units.readAll patterns.flatten).2 = [] := by
  have hunits : ∀ p ∈ patterns, IsUnit p := fun p hp => ((pattern_iff p).mp (h p hp)).1
  lift patterns to List {u : List UInt8 // IsUnit u} using hunits
  have hwritten : (patterns.map (·.1)).flatten = units.written patterns := rfl
  rw [hwritten, units.readAll_written_nil]
  exact ⟨rfl, rfl⟩

theorem concatenation_iff :
    Concatenation s
      ↔ (units.readAll s).2 = [] ∧ ∀ u ∈ (units.readAll s).1, Continued u.1 := by
  constructor
  · rintro ⟨patterns, hpatterns, rfl⟩
    obtain ⟨hmap, hrest⟩ := patterns_eq hpatterns
    refine ⟨hrest, fun u hu => ?_⟩
    have hmem : u.1 ∈ patterns := hmap ▸ List.mem_map_of_mem hu
    exact ((pattern_iff u.1).mp (hpatterns u.1 hmem)).2
  · rintro ⟨hrest, hcontinued⟩
    obtain ⟨hs, -⟩ := units.written_readAll s
    refine ⟨(units.readAll s).1.map (·.1), ?_, ?_⟩
    · intro p hp
      obtain ⟨u, hu, rfl⟩ := List.mem_map.mp hp
      exact (pattern_iff u.1).mpr ⟨u.2, hcontinued u hu⟩
    · rw [hrest, List.append_nil] at hs
      exact hs

instance (s : List UInt8) : Decidable (Concatenation s) :=
  decidable_of_iff _ (concatenation_iff s).symm

-- ==== exactness

/-- The detection is exact on a string: true for what the patterns make up and for nothing else,
and then with their number. -/
def DetectsExactly : Prop :=
  ∀ characterSize : Option UInt32,
    ((IsUTF8Encode s characterSize).1 = true ↔ Concatenation s)
      ∧ ((IsUTF8Encode s characterSize).1 = true →
        ∀ patterns : List (List UInt8), (∀ p ∈ patterns, Pattern p) → patterns.flatten = s →
          (IsUTF8Encode s characterSize).2.map UInt32.toNat
            = characterSize.map fun _ => patterns.length)

/-- The four kinds of strings on which it is. -/
inductive Decided (s : List UInt8) : Prop
  /-- there is nothing to scan -/
  | empty : s = [] → Decided s
  /-- a byte that begins no pattern, or too few bytes behind one that does -/
  | uncut : (units.readAll s).2 ≠ [] → Decided s
  /-- patterns none of which the scanner stops at, one without a `0x80` behind its first byte -/
  | good : (units.readAll s).2 = [] → (∀ u ∈ (units.readAll s).1, Continued u.1 ∧ ¬ Stops u.1) →
      (∃ u ∈ (units.readAll s).1, Raises u.1) → (units.readAll s).1.length < 2 ^ 32 → Decided s
  /-- an ill-formed unit, and one the scanner stops at or none that would raise the verdict -/
  | bad : (∃ u ∈ (units.readAll s).1, ¬ Continued u.1) →
      ((∃ u ∈ (units.readAll s).1, Stops u.1) ∨ ∀ u ∈ (units.readAll s).1, ¬ Raises u.1) →
      Decided s

theorem length_patterns {s : List UInt8} {patterns : List (List UInt8)}
    (h : ∀ p ∈ patterns, Pattern p) (hflatten : patterns.flatten = s) :
    patterns.length = (units.readAll s).1.length := by
  have hmap := (patterns_eq h).1
  rw [hflatten] at hmap
  rw [← hmap, List.length_map]

/-- The detection is exact on these strings and on no others. -/
theorem detectsExactly_iff : DetectsExactly s ↔ Decided s := by
  constructor
  · intro h
    obtain ⟨hverdict, hsize⟩ := h (some 0)
    obtain ⟨haccepts, hwrites⟩ := IsUTF8Encode_eq s (some 0)
    have hiff := haccepts.symm.trans (hverdict.trans (concatenation_iff s))
    by_cases hrest : (units.readAll s).2 = []
    · by_cases hcontinued : ∀ u ∈ (units.readAll s).1, Continued u.1
      · obtain hnil | ⟨-, hnone, hraises⟩ := hiff.mpr ⟨hrest, hcontinued⟩
        · exact .empty hnil
        · refine .good hrest (fun u hu => ⟨hcontinued u hu, hnone u hu⟩) hraises ?_
          have hconcatenation := (concatenation_iff s).mpr ⟨hrest, hcontinued⟩
          have htrue := hverdict.mpr hconcatenation
          obtain ⟨patterns, hpatterns, hflatten⟩ := hconcatenation
          have hcount := hsize htrue patterns hpatterns hflatten
          rw [hwrites htrue, length_patterns hpatterns hflatten] at hcount
          have hword := UInt32.toNat_lt (UInt32.ofNat (units.readAll s).1.length)
          rwa [Option.some.inj hcount] at hword
      · refine .bad (by push Not at hcontinued; exact hcontinued) ?_
        by_contra hboth
        push Not at hboth
        obtain ⟨hnone, hraises⟩ := hboth
        exact hcontinued (hiff.mp (.inr ⟨hrest, hnone, hraises⟩)).2
    · exact .uncut hrest
  · intro h characterSize
    obtain ⟨haccepts, hwrites⟩ := IsUTF8Encode_eq s characterSize
    have hcount : Concatenation s → (units.readAll s).1.length < 2 ^ 32 := by
      rw [concatenation_iff]
      rintro ⟨hrest, hcontinued⟩
      cases h with
      | empty hnil =>
        rw [hnil, units.readAll_of_none units.next_nil]
        exact Nat.two_pow_pos 32
      | uncut huncut => exact absurd hrest huncut
      | good _ _ _ hlen => exact hlen
      | bad hbad =>
        obtain ⟨u, hu, hnot⟩ := hbad
        exact absurd (hcontinued u hu) hnot
    constructor
    · rw [haccepts, concatenation_iff]
      cases h with
      | empty hnil =>
        rw [hnil, units.readAll_of_none units.next_nil]
        simp
      | uncut huncut =>
        refine iff_of_false ?_ (fun hboth => huncut hboth.1)
        rintro (rfl | haccepted)
        · exact huncut (by rw [units.readAll_of_none units.next_nil])
        · exact huncut haccepted.1
      | good hrest hgood hraises _ =>
        exact iff_of_true (.inr ⟨hrest, fun u hu => (hgood u hu).2, hraises⟩)
          ⟨hrest, fun u hu => (hgood u hu).1⟩
      | bad hbad hrefused =>
        obtain ⟨u, hu, hnot⟩ := hbad
        refine iff_of_false ?_ (fun hboth => hnot (hboth.2 u hu))
        rintro (rfl | ⟨-, hnone, v, hv, hraises⟩)
        · rw [units.readAll_of_none units.next_nil] at hu
          cases hu
        · obtain ⟨w, hw, hstops⟩ | hnever := hrefused
          · exact hnone w hw hstops
          · exact hnever v hv hraises
    · intro htrue patterns hpatterns hflatten
      have hlen := hcount ⟨patterns, hpatterns, hflatten⟩
      rw [hwrites htrue, length_patterns hpatterns hflatten, Option.map_map]
      congr 1
      funext _
      exact UInt32.toNat_ofNat_of_lt' hlen

/-- A first byte without its second is accepted in front of a good pair, and ASCII is not. -/
theorem not_detectsExactly :
    ¬ DetectsExactly [0xc3, 0x28, 0xc3, 0xa9] ∧ ¬ DetectsExactly [0x61] := by
  constructor
  · intro h
    exact absurd ((h none).1.mp (by decide +kernel)) (by decide +kernel)
  · intro h
    exact absurd ((h none).1.mpr (by decide +kernel)) (by decide +kernel)

end CodeConvert

end Eular.Utils
