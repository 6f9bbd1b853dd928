/-
The receive history is exact.

As long as no 2 ^ 32 consecutive numbers have been received, the 32 bits of a
count are enough and the list is what it is meant to be: ranges from the
highest down with a gap between any two (`Descending`). An insertion then adds
its number (`insertFrom_eq`, `added_spec`), a cutoff takes away what is below
it (`stopWait_spec`), and so does the drop of the lowest range, which moves
the cutoff past it. `Exact` is what is left of the numbers inserted, along
any run.
-/
import Eular.Lib.Run
import Eular.Utp.Connection.Proofs.HistorySlots

namespace Eular.Utp

open Eular.Lib

-- ==== ranges

/-- A range of at least one number, none of which is the last of 64 bits. -/
structure Element.Sound (e : Element) : Prop where
  pos : 0 < e.count
  lt : e.low + e.count < 2 ^ 64

/-- One of the ranges holds `x`. -/
def InRanges (l : List Element) (x : Nat) : Prop := ∃ e ∈ l, e.low ≤ x ∧ x ≤ e.high

/-- The ranges from the highest down, with a number between any two that neither holds. -/
structure Descending (l : List Element) : Prop where
  sound : ∀ e ∈ l, e.Sound
  apart : l.Pairwise fun a b => b.high + 1 < a.low

variable {l rest passed : List Element} {e ne : Element} {pn x : Nat}

theorem Element.Sound.high_eq (h : e.Sound) : e.high + 1 = e.low + e.count := by
  have hpos := h.pos
  have hlt := h.lt
  unfold Element.high sub64 add64
  omega

@[simp] theorem not_inRanges_nil : ¬ InRanges [] x := fun ⟨_, h, _⟩ => absurd h (by simp)

theorem inRanges_cons : InRanges (e :: l) x ↔ (e.low ≤ x ∧ x ≤ e.high) ∨ InRanges l x := by
  simp [InRanges]

theorem inRanges_append : InRanges (l ++ rest) x ↔ InRanges l x ∨ InRanges rest x := by
  simp only [InRanges, List.mem_append]
  constructor
  · rintro ⟨e, he | he, hx⟩
    · exact .inl ⟨e, he, hx⟩
    · exact .inr ⟨e, he, hx⟩
  · rintro (⟨e, he, hx⟩ | ⟨e, he, hx⟩)
    · exact ⟨e, .inl he, hx⟩
    · exact ⟨e, .inr he, hx⟩

theorem descending_nil : Descending [] := ⟨by simp, List.Pairwise.nil⟩

theorem descending_cons : Descending (e :: l) ↔
    e.Sound ∧ (∀ x, InRanges l x → x + 1 < e.low) ∧ Descending l := by
  constructor
  · intro h
    obtain ⟨hfirst, hrest⟩ := List.pairwise_cons.mp h.apart
    refine ⟨h.sound e List.mem_cons_self, ?_,
      fun s hs => h.sound s (List.mem_cons_of_mem _ hs), hrest⟩
    rintro x ⟨s, hs, -, hx⟩
    have hgap := hfirst s hs
    omega
  · rintro ⟨he, hfirst, hrest⟩
    refine ⟨?_, List.pairwise_cons.mpr ⟨?_, hrest.apart⟩⟩
    · intro s hs
      rcases List.mem_cons.mp hs with rfl | hs
      · exact he
      · exact hrest.sound s hs
    · intro s hs
      have hhigh := (hrest.sound s hs).high_eq
      have hpos := (hrest.sound s hs).pos
      exact hfirst s.high ⟨s, hs, by omega, le_rfl⟩

theorem Descending.sublist (h : Descending l) (hsub : rest.Sublist l) : Descending rest :=
  ⟨fun e he => h.sound e (hsub.subset he), h.apart.sublist hsub⟩

-- ==== insertion

/-- `pn` and the range `e` above it, and the next range if it ends there. -/
def joinBelow (pn : Nat) (e : Element) : List Element → List Element
  | [] => [⟨pn, e.count + 1⟩]
  | ne :: rest =>
    if ne.high + 1 = pn then ⟨ne.low, ne.count + 1 + e.count⟩ :: rest
    else ⟨pn, e.count + 1⟩ :: ne :: rest

/-- The ranges with one more number, in unbounded arithmetic. -/
def added (pn : Nat) : List Element → List Element
  | [] => [⟨pn, 1⟩]
  | e :: rest =>
    if e.low ≤ pn ∧ pn ≤ e.high then e :: rest
    else if pn + 1 = e.low then joinBelow pn e rest
    else if pn = e.high + 1 then ⟨e.low, e.count + 1⟩ :: rest
    else if e.high < pn then ⟨pn, 1⟩ :: e :: rest
    else e :: added pn rest

theorem sound_mk (low count : Nat) (hpos : 0 < count) (hlt : low + count < 2 ^ 64) :
    (⟨low, count⟩ : Element).Sound ∧ (⟨low, count⟩ : Element).high + 1 = low + count :=
  ⟨⟨hpos, hlt⟩, Element.Sound.high_eq ⟨hpos, hlt⟩⟩

theorem joinBelow_spec (h : Descending (e :: rest)) (htouch : pn + 1 = e.low) :
    Descending (joinBelow pn e rest)
      ∧ ∀ x, InRanges (joinBelow pn e rest) x ↔ x = pn ∨ InRanges (e :: rest) x := by
  obtain ⟨he, hbelow, hrest⟩ := descending_cons.mp h
  have hhigh := he.high_eq
  have hlt := he.lt
  obtain ⟨hnew, hnew_high⟩ := sound_mk pn (e.count + 1) (by omega) (by omega)
  cases rest with
  | nil =>
    refine ⟨descending_cons.mpr ⟨hnew, by simp, descending_nil⟩, fun x => ?_⟩
    rw [joinBelow, inRanges_cons, inRanges_cons]
    simp only [not_inRanges_nil, or_false]
    omega
  | cons ne rest =>
    obtain ⟨hne, hbelow', hrest'⟩ := descending_cons.mp hrest
    have hhigh' := hne.high_eq
    have hpos' := hne.pos
    have hgap : ne.high + 1 < e.low := hbelow ne.high (inRanges_cons.mpr (.inl (by omega)))
    rw [joinBelow]
    by_cases hends : ne.high + 1 = pn
    · rw [if_pos hends]
      obtain ⟨hjoin, hjoin_high⟩ := sound_mk ne.low (ne.count + 1 + e.count)
        (by omega) (by omega)
      refine ⟨descending_cons.mpr ⟨hjoin, hbelow', hrest'⟩, fun x => ?_⟩
      rw [inRanges_cons, inRanges_cons, inRanges_cons, ← or_assoc, ← or_assoc]
      exact or_congr_left (by dsimp only; omega)
    · rw [if_neg hends]
      refine ⟨descending_cons.mpr ⟨hnew, ?_, hrest⟩, fun x => ?_⟩
      · intro x hx
        have hlow := hbelow x hx
        rcases inRanges_cons.mp hx with hin | hin
        · dsimp only
          omega
        · have hlow' := hbelow' x hin
          dsimp only
          omega
      · rw [inRanges_cons, inRanges_cons (e := e), ← or_assoc]
        exact or_congr_left (by dsimp only; omega)

theorem added_spec (h : Descending l) (hpn : pn + 1 < 2 ^ 64) :
    Descending (added pn l) ∧ ∀ x, InRanges (added pn l) x ↔ x = pn ∨ InRanges l x := by
  obtain ⟨hone, hone_high⟩ := sound_mk pn 1 (by omega) hpn
  induction l with
  | nil =>
    refine ⟨descending_cons.mpr ⟨hone, by simp, descending_nil⟩, fun x => ?_⟩
    rw [added, inRanges_cons]
    simp only [not_inRanges_nil, or_false]
    omega
  | cons e rest ih =>
    obtain ⟨he, hbelow, hrest⟩ := descending_cons.mp h
    have hhigh := he.high_eq
    have hpos := he.pos
    rw [added]
    by_cases hin : e.low ≤ pn ∧ pn ≤ e.high
    · rw [if_pos hin]
      refine ⟨h, fun x => (or_iff_right_of_imp ?_).symm⟩
      rintro rfl
      exact inRanges_cons.mpr (.inl hin)
    rw [if_neg hin]
    by_cases htouch : pn + 1 = e.low
    · rw [if_pos htouch]
      exact joinBelow_spec h htouch
    rw [if_neg htouch]
    by_cases habove : pn = e.high + 1
    · rw [if_pos habove]
      obtain ⟨hup, hup_high⟩ := sound_mk e.low (e.count + 1) (by omega) (by omega)
      refine ⟨descending_cons.mpr ⟨hup, hbelow, hrest⟩, fun x => ?_⟩
      rw [inRanges_cons, inRanges_cons, ← or_assoc]
      exact or_congr_left (by dsimp only; omega)
    rw [if_neg habove]
    by_cases hover : e.high < pn
    · rw [if_pos hover]
      refine ⟨descending_cons.mpr ⟨hone, ?_, h⟩, fun x => ?_⟩
      · intro x hx
        rcases inRanges_cons.mp hx with hx | hx
        · dsimp only
          omega
        · have hlow := hbelow x hx
          dsimp only
          omega
      · rw [inRanges_cons]
        exact or_congr_left (by dsimp only; omega)
    · rw [if_neg hover]
      obtain ⟨hdesc, hcovers⟩ := ih hrest
      refine ⟨descending_cons.mpr ⟨he, ?_, hdesc⟩, fun x => ?_⟩
      · intro x hx
        rcases (hcovers x).mp hx with rfl | hx
        · omega
        · exact hbelow x hx
      · rw [inRanges_cons, inRanges_cons, hcovers]
        exact or_left_comm

theorem joinBelow_length_le : (joinBelow pn e rest).length ≤ rest.length + 2 := by
  cases rest with
  | nil => simp [joinBelow]
  | cons ne rest =>
    rw [joinBelow]
    split
    · simp
    · simp

theorem added_length_le : (added pn l).length ≤ l.length + 1 := by
  induction l with
  | nil => simp [added]
  | cons e rest ih =>
    rw [added]
    split
    · simp
    split
    · exact joinBelow_length_le
    split
    · simp
    split
    · simp
    · simpa using ih

theorem add64_one {a : Nat} (h : a + 1 < 2 ^ 64) : add64 a 1 = a + 1 := Nat.mod_eq_of_lt h

theorem span64 {a b : Nat} (hle : b ≤ a) (hlt : a + 1 < 2 ^ 64) :
    add64 (sub64 a b) 1 = a + 1 - b := by
  unfold add64 sub64
  omega

theorem toU32_eq {a : Nat} (h : a < 2 ^ 32) : toU32 a = a := Nat.mod_eq_of_lt h

theorem Element.Sound.add64_high (h : e.Sound) : add64 e.high 1 = e.high + 1 := by
  apply add64_one
  rw [h.high_eq]
  exact h.lt

theorem extendDown_eq (h : Descending (e :: rest)) (htouch : pn + 1 = e.low)
    (hcount : ∀ s ∈ joinBelow pn e rest, s.count < 2 ^ 32) :
    ReceiveHistory.extendDown pn e rest = joinBelow pn e rest := by
  obtain ⟨he, hbelow, hrest⟩ := descending_cons.mp h
  have hhigh := he.high_eq
  have hpos := he.pos
  have hlt := he.lt
  have hspan : add64 (sub64 e.high pn) 1 = e.count + 1 := by
    rw [span64 (by omega) (by omega)]
    omega
  cases rest with
  | nil =>
    have hle : e.count + 1 < 2 ^ 32 := hcount _ List.mem_cons_self
    rw [ReceiveHistory.extendDown, joinBelow, hspan, toU32_eq hle]
  | cons ne rest =>
    obtain ⟨hne, -⟩ := descending_cons.mp hrest
    have hhigh' := hne.high_eq
    have hpos' := hne.pos
    rw [joinBelow] at hcount ⊢
    rw [ReceiveHistory.extendDown, hne.add64_high]
    by_cases hends : ne.high + 1 = pn
    · rw [if_pos hends] at hcount ⊢
      have hle : ne.count + 1 + e.count < 2 ^ 32 := hcount _ List.mem_cons_self
      have hspan' : add64 (sub64 e.high ne.low) 1 = ne.count + 1 + e.count := by
        rw [span64 (by omega) (by omega)]
        omega
      rw [if_pos hends, hspan', toU32_eq hle]
    · rw [if_neg hends] at hcount ⊢
      have hle : e.count + 1 < 2 ^ 32 := hcount _ List.mem_cons_self
      rw [if_neg hends, hspan, toU32_eq hle]

/-- The range above takes one more number; the next range, lower, cannot follow it. -/
theorem extendUp_eq (h : Descending (e :: rest)) (htouch : pn = e.high + 1)
    (hpn : pn + 1 < 2 ^ 64) (hcount : e.count + 1 < 2 ^ 32) :
    ReceiveHistory.extendUp pn e rest = ⟨e.low, e.count + 1⟩ :: rest := by
  obtain ⟨he, hbelow, hrest⟩ := descending_cons.mp h
  have hhigh := he.high_eq
  have hspan : add64 (sub64 pn e.low) 1 = e.count + 1 := by
    rw [span64 (by omega) hpn]
    omega
  cases rest with
  | nil => rw [ReceiveHistory.extendUp, hspan, toU32_eq hcount]
  | cons ne rest =>
    have hpos := he.pos
    have hne := (descending_cons.mp hrest).1
    have hhigh' := hne.high_eq
    have hpos' := hne.pos
    have hlow := hbelow ne.low (inRanges_cons.mpr (.inl ⟨le_rfl, by omega⟩))
    rw [ReceiveHistory.extendUp, add64_one hpn, if_neg (by omega), hspan, toU32_eq hcount]

theorem insertFrom_eq (h : Descending rest) (hpn : pn + 1 < 2 ^ 64)
    (hpassed : ∀ s ∈ passed, s.Sound ∧ pn + 1 < s.low)
    (hcount : ∀ s ∈ added pn rest, s.count < 2 ^ 32) :
    ReceiveHistory.insertFrom pn passed rest = passed.reverse ++ added pn rest := by
  induction rest generalizing passed with
  | nil => rfl
  | cons e rest ih =>
    obtain ⟨he, hbelow, hrest⟩ := descending_cons.mp h
    have hhigh := he.high_eq
    rw [added] at hcount ⊢
    rw [ReceiveHistory.insertFrom, add64_one hpn, he.add64_high]
    by_cases hin : e.low ≤ pn ∧ pn ≤ e.high
    · rw [if_pos hin, if_pos hin]
    rw [if_neg hin] at hcount
    rw [if_neg hin, if_neg hin]
    by_cases htouch : pn + 1 = e.low
    · rw [if_pos htouch] at hcount
      rw [if_pos htouch, if_pos htouch, ← extendDown_eq h htouch hcount]
      cases passed with
      | nil => rfl
      | cons pe passed =>
        obtain ⟨hpe, hfar⟩ := hpassed pe List.mem_cons_self
        have hpe_high := hpe.high_eq
        exact if_neg (by rw [hpe.add64_high]; omega)
    rw [if_neg htouch] at hcount
    rw [if_neg htouch, if_neg htouch]
    by_cases habove : pn = e.high + 1
    · rw [if_pos habove] at hcount
      rw [if_pos habove, if_pos habove,
        extendUp_eq h habove hpn (hcount _ List.mem_cons_self)]
    rw [if_neg habove] at hcount
    rw [if_neg habove, if_neg habove]
    by_cases hover : e.high < pn
    · rw [if_pos hover, if_pos hover]
    · rw [if_neg hover] at hcount
      rw [if_neg hover, if_neg hover, ih hrest _ fun s hs =>
        hcount s (List.mem_cons_of_mem _ hs), List.reverse_cons, List.append_assoc]
      · rfl
      · intro s hs
        rcases List.mem_cons.mp hs with rfl | hs
        · exact ⟨he, by omega⟩
        · exact hpassed s hs

/-- A range of numbers that are all in `S` is shorter than any run that is not. -/
theorem count_lt {S : Nat → Prop} (hgap : ∀ a, ∃ i < 2 ^ 32, ¬ S (a + i)) (he : e.Sound)
    (hall : ∀ x, e.low ≤ x → x ≤ e.high → S x) : e.count < 2 ^ 32 := by
  by_contra hlong
  obtain ⟨i, hi, hmiss⟩ := hgap e.low
  have hhigh := he.high_eq
  exact hmiss (hall (e.low + i) (by omega) (by omega))

/-- An insertion into the list adds the number, unless 2 ^ 32 in a row have come. -/
theorem insertList_spec (h : Descending l) (hpn : pn + 1 < 2 ^ 64)
    (hgap : ∀ a, ∃ i < 2 ^ 32, ¬ (a + i = pn ∨ InRanges l (a + i))) :
    Descending (ReceiveHistory.insertFrom pn [] l)
      ∧ (∀ x, InRanges (ReceiveHistory.insertFrom pn [] l) x ↔ x = pn ∨ InRanges l x)
      ∧ (ReceiveHistory.insertFrom pn [] l).length ≤ l.length + 1 := by
  obtain ⟨hdesc, hcovers⟩ := added_spec h hpn
  rw [insertFrom_eq h hpn (by simp), List.reverse_nil, List.nil_append]
  · exact ⟨hdesc, hcovers, added_length_le⟩
  · intro s hs
    exact count_lt hgap (hdesc.sound s hs) fun x hlow hhigh => (hcovers x).mp ⟨s, hs, hlow, hhigh⟩

-- ==== cutoff

theorem trim_spec (cutoff : Nat) (he : e.Sound) (hcount : e.count < 2 ^ 32) :
    match ReceiveHistory.trim cutoff e with
    | none => e.high < cutoff
    | some s => s.Sound ∧ s.low = max e.low cutoff ∧ s.high = e.high := by
  have hhigh := he.high_eq
  have hpos := he.pos
  have hlt := he.lt
  by_cases hbelow : e.high < cutoff
  · rw [HistorySlots.trim_below hbelow]
    exact hbelow
  by_cases hcut : e.low < cutoff
  · have hdelta : toU32 (sub64 cutoff e.low) = cutoff - e.low := by
      unfold toU32 sub64
      omega
    have hlow : add64 e.low (cutoff - e.low) = cutoff := by
      unfold add64
      omega
    have hleft : toU32 (e.count + 2 ^ 32 - (cutoff - e.low)) = e.high + 1 - cutoff := by
      unfold toU32
      omega
    rw [HistorySlots.trim_across hbelow hcut, hdelta, hlow, hleft]
    obtain ⟨hsound, hend⟩ := sound_mk cutoff (e.high + 1 - cutoff) (by omega)
      (by omega)
    exact ⟨hsound, (Nat.max_eq_right hcut.le).symm, by omega⟩
  · rw [HistorySlots.trim_above hbelow hcut]
    exact ⟨he, (Nat.max_eq_left (Nat.not_lt.mp hcut)).symm, rfl⟩

theorem trim_list (cutoff : Nat) (h : Descending l) (hcount : ∀ e ∈ l, e.count < 2 ^ 32) :
    Descending (l.filterMap (ReceiveHistory.trim cutoff))
      ∧ ∀ x, InRanges (l.filterMap (ReceiveHistory.trim cutoff)) x ↔ InRanges l x ∧ cutoff ≤ x := by
  induction l with
  | nil => exact ⟨h, fun x => by simp⟩
  | cons e rest ih =>
    obtain ⟨he, hbelow, hrest⟩ := descending_cons.mp h
    obtain ⟨hdesc, hcovers⟩ := ih hrest fun s hs => hcount s (List.mem_cons_of_mem _ hs)
    have hspec := trim_spec cutoff he (hcount e List.mem_cons_self)
    cases htrim : ReceiveHistory.trim cutoff e with
    | none =>
      rw [htrim] at hspec
      rw [List.filterMap_cons_none htrim]
      refine ⟨hdesc, fun x => ?_⟩
      rw [hcovers, inRanges_cons]
      constructor
      · exact fun hx => ⟨.inr hx.1, hx.2⟩
      · rintro ⟨hx | hx, hle⟩
        · exact absurd hle (by dsimp only at hspec; omega)
        · exact ⟨hx, hle⟩
    | some s =>
      rw [htrim] at hspec
      obtain ⟨hs, hlow, hhigh⟩ := hspec
      rw [List.filterMap_cons_some htrim]
      refine ⟨descending_cons.mpr ⟨hs, fun x hx => ?_, hdesc⟩, fun x => ?_⟩
      · have hfar := hbelow x ((hcovers x).mp hx).1
        omega
      · rw [inRanges_cons, inRanges_cons, hcovers, hlow, hhigh, max_le_iff, and_right_comm,
          or_and_right]

-- ==== eviction

theorem Descending.concat (h : Descending (l ++ [e])) :
    Descending l ∧ e.Sound ∧ (∀ x, InRanges l x → e.high + 1 < x)
      ∧ ∀ x, InRanges (l ++ [e]) x ↔ InRanges l x ∨ e.low ≤ x ∧ x ≤ e.high := by
  refine ⟨h.sublist (List.sublist_append_left _ _), h.sound e (by simp), ?_, fun x => ?_⟩
  · rintro x ⟨s, hs, hx, -⟩
    have hgap := (List.pairwise_append.mp h.apart).2.2 s hs e (by simp)
    omega
  · rw [inRanges_append, inRanges_cons]
    simp

-- ==== the history

/-- What is known of a history with these numbers received and kept. -/
structure ReceiveHistory.Kept (h : ReceiveHistory) (S : Nat → Prop) : Prop where
  descending : Descending h.elements
  covers : ∀ x, InRanges h.elements x ↔ S x ∧ h.cutoff ≤ x
  length_le : h.elements.length ≤ h.maxRanges

/-- An insertion that drops a range has listed one range too many, drops the lowest, and
moves the cutoff past it. -/
def Evicts (h h' : ReceiveHistory) (pn : Nat) : Prop :=
  h'.elements.length = h'.maxRanges ∧ ∃ e : Element, h'.cutoff = e.high + 1
    ∧ (∀ x, InRanges h'.elements x → h'.cutoff < x)
    ∧ ∀ x, (InRanges h'.elements x ∨ e.low ≤ x ∧ x ≤ e.high) ↔ x = pn ∨ InRanges h.elements x

variable {h : ReceiveHistory} {S : Nat → Prop}

theorem insert_eq (hpn : ¬ pn < h.cutoff) (h' : ReceiveHistory)
    (hlisted : h' = ⟨ReceiveHistory.insertFrom pn [] h.elements, h.cutoff, max h.largest pn,
      h.maxRanges⟩) :
    h.insert pn = if h'.maxRanges < h'.elements.length then h'.dropOldestRange else h' := by
  have hnoted :
      (if h.largest < pn then { h with largest := pn } else h).insertIntoList pn = h' := by
    rw [hlisted, ReceiveHistory.insertIntoList]
    split
    case isTrue hlt => rw [Nat.max_eq_right hlt.le]
    case isFalse hge => rw [Nat.max_eq_left (Nat.not_lt.mp hge)]
  rw [ReceiveHistory.insert, if_neg fun hand => hpn hand.2]
  dsimp only
  rw [hnoted]

theorem drop_eq (hlast : h.elements = l ++ [e]) :
    h.dropOldestRange = { h with elements := l, cutoff := add64 e.high 1 } := by
  rw [ReceiveHistory.dropOldestRange, hlast, List.getLast?_concat, List.dropLast_concat]

theorem ReceiveHistory.Kept.insert (hk : ReceiveHistory.Kept h S) (hpn : pn + 1 < 2 ^ 64)
    (hgap : ∀ a, ∃ i < 2 ^ 32, ¬ (a + i = pn ∨ S (a + i))) :
    ReceiveHistory.Kept (h.insert pn) (fun x => x = pn ∨ S x)
      ∧ ((h.insert pn).cutoff = h.cutoff ∨ Evicts h (h.insert pn) pn)
      ∧ h.cutoff ≤ (h.insert pn).cutoff ∧ (h.insert pn).maxRanges = h.maxRanges
      ∧ (h.insert pn).largest = if pn < h.cutoff then h.largest else max h.largest pn := by
  by_cases hold : pn < h.cutoff
  · have hsame : h.insert pn = h := if_pos ⟨Nat.ne_of_gt (Nat.zero_lt_of_lt hold), hold⟩
    rw [hsame, if_pos hold]
    refine ⟨⟨hk.descending, fun x => ?_, hk.length_le⟩, .inl rfl, le_rfl, rfl, rfl⟩
    rw [hk.covers]
    constructor
    · exact fun hx => ⟨.inr hx.1, hx.2⟩
    · rintro ⟨rfl | hx, hle⟩
      · exact absurd hold hle.not_gt
      · exact ⟨hx, hle⟩
  obtain ⟨hdesc, hcovers, hlength⟩ := insertList_spec hk.descending hpn fun a => by
    obtain ⟨i, hi, hmiss⟩ := hgap a
    exact ⟨i, hi, fun hin => hmiss (hin.imp_right fun hcov => ((hk.covers _).mp hcov).1)⟩
  rw [if_neg hold]
  have hinsert := insert_eq hold _ rfl
  generalize ReceiveHistory.insertFrom pn [] h.elements = elements at hdesc hcovers hlength hinsert
  have hkept (x : Nat) : InRanges elements x ↔ (x = pn ∨ S x) ∧ h.cutoff ≤ x := by
    rw [hcovers, hk.covers, or_and_right]
    refine or_congr_left ⟨?_, And.left⟩
    rintro rfl
    exact ⟨rfl, Nat.not_lt.mp hold⟩
  dsimp only at hinsert
  by_cases hfull : h.maxRanges < elements.length
  · rw [if_pos hfull] at hinsert
    have hle := hk.length_le
    obtain ⟨init, e, rfl⟩ : ∃ init e, elements = init ++ [e] :=
      ⟨_, _, (List.dropLast_append_getLast (List.ne_nil_of_length_pos (by omega))).symm⟩
    obtain ⟨hinit, he, hbeyond, hsplit⟩ := hdesc.concat
    rw [drop_eq rfl, he.add64_high] at hinsert
    rw [hinsert]
    have hhigh := he.high_eq
    have hpos := he.pos
    have hin : h.cutoff ≤ e.high := ((hkept e.high).mp ((hsplit _).mpr (.inr (by omega)))).2
    rw [List.length_append, List.length_singleton] at hlength hfull
    have hlen : init.length = h.maxRanges := by omega
    refine ⟨⟨hinit, fun x => ?_, hlen.le⟩, .inr ⟨hlen, e, rfl, hbeyond, fun x => ?_⟩,
      Nat.le_succ_of_le hin, rfl, rfl⟩
    · constructor
      · exact fun hx => ⟨((hkept x).mp ((hsplit x).mpr (.inl hx))).1, (hbeyond x hx).le⟩
      · rintro ⟨hx, hle⟩
        have hpast : e.high < x := hle
        have hcovered := (hkept x).mpr ⟨hx, hin.trans hpast.le⟩
        exact ((hsplit x).mp hcovered).resolve_right fun hlast => hlast.2.not_gt hpast
    · rw [← hsplit, hcovers]
  · rw [if_neg hfull] at hinsert
    rw [hinsert]
    exact ⟨⟨hdesc, hkept, Nat.not_lt.mp hfull⟩, .inl rfl, le_rfl, rfl, rfl⟩

theorem ReceiveHistory.Kept.stopWait (hk : ReceiveHistory.Kept h S) (cutoff : Nat)
    (hgap : ∀ a, ∃ i < 2 ^ 32, ¬ S (a + i)) :
    ReceiveHistory.Kept (h.stopWait cutoff) S ∧ h.cutoff ≤ (h.stopWait cutoff).cutoff
      ∧ (h.stopWait cutoff).maxRanges = h.maxRanges
      ∧ (h.stopWait cutoff).largest = h.largest := by
  rw [ReceiveHistory.stopWait]
  by_cases hold : cutoff ≤ h.cutoff
  · rw [if_pos hold]
    exact ⟨hk, le_rfl, rfl, rfl⟩
  · rw [if_neg hold]
    have hcount (s : Element) (hs : s ∈ h.elements) : s.count < 2 ^ 32 :=
      count_lt hgap (hk.descending.sound s hs) fun x hlow hhigh =>
        ((hk.covers x).mp ⟨s, hs, hlow, hhigh⟩).1
    obtain ⟨hdesc, hcovers⟩ := trim_list cutoff hk.descending hcount
    refine ⟨⟨hdesc, fun x => ?_, (List.length_filterMap_le _ _).trans hk.length_le⟩,
      (Nat.not_le.mp hold).le, rfl, rfl⟩
    rw [hcovers, hk.covers, and_assoc]
    exact and_congr_right fun _ => ⟨And.right, fun hle => ⟨(Nat.not_le.mp hold).le.trans hle, hle⟩⟩

-- ==== runs

namespace HistorySlots

/-- The number an operation inserts, if it is not below the cutoff. -/
def accepts (h : HistorySlots) : Op → List Nat
  | .insert pn _ => if pn < h.cutoff then [] else [pn]
  | .stopWait _ => []

/-- The numbers inserted that were not below the cutoff. -/
def accepted : HistorySlots → List Op → List Nat
  | _, [] => []
  | h, op :: ops => accepts h op ++ accepted (step h op) ops

/-- The number is inserted by one of these. -/
def Inserted (ops : List Op) (x : Nat) : Prop := ∃ now, .insert x now ∈ ops

/-- What a history holds after these operations on an empty one. -/
structure Exact (ops : List Op) (h : HistorySlots) : Prop where
  covers : ∀ x, InRanges h.ranges x ↔ Inserted ops x ∧ h.cutoff ≤ x
  descending : Descending h.ranges
  count : h.usedCount = h.ranges.length
  count_le : h.usedCount ≤ h.maxRanges
  slots : (h.used ++ h.free).Perm (List.range h.size)

/-- What a history has become by one operation. -/
structure Stepped (h : HistorySlots) (op : Op) : Prop where
  cutoff_le : h.cutoff ≤ (step h op).cutoff
  evicts : ∀ pn now, op = .insert pn now → (step h op).cutoff ≠ h.cutoff →
    Evicts h.toHistory (step h op).toHistory pn

theorem Linked.exact {ops : List Op} {h : HistorySlots} (hl : h.Linked)
    (hk : ReceiveHistory.Kept h.toHistory (Inserted ops)) : Exact ops h where
  covers := hk.covers
  descending := hk.descending
  count := hl.usedCount_eq
  count_le := hl.usedCount_eq.le.trans hk.length_le
  slots := by
    obtain ⟨idx, hh⟩ := hl
    rw [hh.used_eq]
    exact hh.slots

variable {h : HistorySlots} {op : Op} {ops done next : List Op} {maxRanges : Nat}

theorem inserted_append : Inserted (done ++ ops) x ↔ Inserted done x ∨ Inserted ops x := by
  simp only [Inserted, List.mem_append, exists_or]

theorem inserted_insert {pn now : Nat} : Inserted [.insert pn now] x ↔ x = pn := by
  simp [Inserted, eq_comm]

theorem not_inserted_stopWait {cutoff : Nat} : ¬ Inserted [.stopWait cutoff] x := by
  simp [Inserted]

/-- What one operation may be, and what has come with it. -/
structure Fits (done : List Op) (op : Op) : Prop where
  lt : ∀ pn now, op = .insert pn now → pn + 1 < 2 ^ 64
  gap : ∀ a, ∃ i < 2 ^ 32, ¬ Inserted (done ++ [op]) (a + i)

theorem step_kept (hl : h.Linked) (hk : ReceiveHistory.Kept h.toHistory (Inserted done))
    (hmax : h.maxRanges < npos) (hfits : Fits done op) :
    (step h op).Linked ∧ ReceiveHistory.Kept (step h op).toHistory (Inserted (done ++ [op]))
      ∧ (step h op).maxRanges = h.maxRanges
      ∧ (step h op).largest = (accepts h op).foldl max h.largest ∧ Stepped h op := by
  have hgap := hfits.gap
  cases op with
  | insert pn now =>
    have hroom : h.usedCount < npos := (hl.usedCount_eq.le.trans hk.length_le).trans_lt hmax
    obtain ⟨hlinked, hlist⟩ := hl.insert pn now hroom
    have hset : Inserted (done ++ [.insert pn now]) = fun x => x = pn ∨ Inserted done x := by
      funext x
      rw [inserted_append, inserted_insert, or_comm]
    rw [hset] at hgap ⊢
    obtain ⟨hkept, hevicts, hle, hsame, hlargest⟩ := hk.insert (hfits.lt pn now rfl) hgap
    rw [← hlist] at hkept hevicts hle hsame hlargest
    refine ⟨hlinked, hkept, hsame, hlargest.trans ?_, hle, ?_⟩
    · rw [accepts, apply_ite (List.foldl max h.largest)]
      rfl
    · intro pn' now' heq hne
      obtain ⟨rfl, rfl⟩ := Op.insert.inj heq
      exact hevicts.resolve_left hne
  | stopWait cutoff =>
    obtain ⟨hlinked, hlist⟩ := hl.stopWait cutoff
    have hset : Inserted (done ++ [.stopWait cutoff]) = Inserted done := by
      funext x
      rw [inserted_append, eq_iff_iff, or_iff_left not_inserted_stopWait]
    rw [hset] at hgap ⊢
    obtain ⟨hkept, hle, hsame, hlargest⟩ := hk.stopWait cutoff hgap
    rw [← hlist] at hkept hle hsame hlargest
    exact ⟨hlinked, hkept, hsame, hlargest, hle, fun _ _ heq => nomatch heq⟩

variable (ops done) in
theorem run_kept (hl : h.Linked) (hk : ReceiveHistory.Kept h.toHistory (Inserted done))
    (hmax : h.maxRanges < npos) (hpn : ∀ pn now, .insert pn now ∈ ops → pn + 1 < 2 ^ 64)
    (hgap : ∀ a, ∃ i < 2 ^ 32, ¬ Inserted (done ++ ops) (a + i)) :
    (run step h ops).Linked
      ∧ ReceiveHistory.Kept (run step h ops).toHistory (Inserted (done ++ ops))
      ∧ (run step h ops).maxRanges = h.maxRanges
      ∧ (run step h ops).largest = (accepted h ops).foldl max h.largest := by
  induction ops generalizing h done with
  | nil =>
    rw [List.append_nil]
    exact ⟨hl, hk, rfl, rfl⟩
  | cons op ops ih =>
    have hcells : done ++ op :: ops = (done ++ [op]) ++ ops := by simp
    rw [hcells] at hgap ⊢
    have hfits : Fits done op := by
      refine ⟨fun pn now heq => hpn pn now (heq ▸ List.mem_cons_self), fun a => ?_⟩
      obtain ⟨i, hi, hmiss⟩ := hgap a
      exact ⟨i, hi, fun hin => hmiss (inserted_append.mpr (.inl hin))⟩
    obtain ⟨hl', hk', hsame, hlargest, -⟩ := step_kept hl hk hmax hfits
    obtain ⟨hl'', hk'', hsame', hlargest'⟩ := ih (done ++ [op]) hl' hk' (hsame.symm ▸ hmax)
      (fun pn now hin => hpn pn now (List.mem_cons_of_mem _ hin)) hgap
    refine ⟨hl'', hk'', hsame'.trans hsame, hlargest'.trans ?_⟩
    rw [hlargest, accepted, List.foldl_append]

theorem kept_new (maxRanges : Nat) : ReceiveHistory.Kept (new maxRanges).toHistory (Inserted []) :=
  ⟨descending_nil, fun x => by simp [toHistory, ranges, used, new, slotsFrom, Inserted],
    Nat.zero_le _⟩

/-- A receive history holds exactly what was inserted and is not below its cutoff, as long as
2 ^ 32 consecutive numbers have not all been: no range then has more numbers than its count can
tell. Numbers that were dropped since still count among them, which is more than is needed. -/
theorem history_exact (hmax : maxRanges < npos)
    (hpn : ∀ pn now, .insert pn now ∈ ops → pn + 1 < 2 ^ 64)
    (hgap : ∀ a, ∃ i < 2 ^ 32, ¬ Inserted ops (a + i)) :
    Exact ops (run step (new maxRanges) ops)
      ∧ (run step (new maxRanges) ops).maxRanges = maxRanges
      ∧ (run step (new maxRanges) ops).largest = (accepted (new maxRanges) ops).foldl max 0
      ∧ ∀ done op next, ops = done ++ op :: next → Stepped (run step (new maxRanges) done) op := by
  obtain ⟨hlinked, hkept, hsame, hlargest⟩ := run_kept ops [] (linked_new maxRanges)
    (kept_new maxRanges) hmax hpn hgap
  refine ⟨hlinked.exact hkept, hsame, hlargest, ?_⟩
  rintro done op next rfl
  have hgap' (a : Nat) : ∃ i < 2 ^ 32, ¬ Inserted (done ++ [op]) (a + i) := by
    obtain ⟨i, hi, hmiss⟩ := hgap a
    refine ⟨i, hi, fun hin => hmiss ?_⟩
    rw [List.append_cons, inserted_append]
    exact .inl hin
  obtain ⟨hl, hk, hsame', -⟩ := run_kept done [] (linked_new maxRanges)
    (kept_new maxRanges) hmax (fun pn now hin => hpn pn now (by simp [hin]))
    fun a => by
      obtain ⟨i, hi, hmiss⟩ := hgap' a
      exact ⟨i, hi, fun hin => hmiss (inserted_append.mpr (.inl hin))⟩
  exact (step_kept hl hk (hsame'.symm ▸ hmax)
    ⟨fun pn now heq => hpn pn now (by simp [heq]), hgap'⟩).2.2.2.2

/-- Four numbers into two ranges, the lowest of which goes, and a cutoff inside another. -/
def someOps : List Op := [.insert 5 0, .insert 9 1, .insert 8 2, .insert 12 3, .stopWait 9]

theorem inserted_someOps (hx : Inserted someOps x) : x ≤ 12 := by
  obtain ⟨now, hin⟩ := hx
  simp only [someOps, List.mem_cons, Op.insert.injEq, reduceCtorEq, List.not_mem_nil,
    or_false] at hin
  omega

theorem history_exact_someOps : Exact someOps (run step (new 2) someOps)
    ∧ (run step (new 2) someOps).largest = 12
    ∧ (run step (new 2) someOps).ranges = [⟨12, 1⟩, ⟨9, 1⟩] := by
  have hmax : 2 < npos := by decide
  have hpn (pn now : Nat) (hin : .insert pn now ∈ someOps) : pn + 1 < 2 ^ 64 := by
    have hle := inserted_someOps ⟨now, hin⟩
    omega
  have hgap (a : Nat) : ∃ i < 2 ^ 32, ¬ Inserted someOps (a + i) := by
    refine ⟨13, by norm_num, fun hin => ?_⟩
    have hle := inserted_someOps hin
    omega
  obtain ⟨hexact, -, hlargest, -⟩ := history_exact hmax hpn hgap
  exact ⟨hexact, hlargest.trans (by decide +kernel), by decide +kernel⟩

/-- What is below the cutoff when it comes is passed over, and is not the largest. -/
theorem largest_passed : Inserted [.stopWait 100, .insert 50 0] 50
    ∧ (run step (new 256) [.stopWait 100, .insert 50 0]).largest = 0 :=
  ⟨⟨0, by simp⟩, by decide⟩

end HistorySlots

end Eular.Utp
