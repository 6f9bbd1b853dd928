/-
What a line that `keep` has written is read as.

A line is known by what stands in front of its first equal sign, between its
first brackets and in front of its first semicolon. The line of a node is read
as that node (`readLine_node`); that of a key is read as the key and its value
if it went through the buffer whole and the value has no bracket pair, no
semicolon and no NUL (`readLine_fits`), and with that value only then
(`fits_of_readLine`).
-/
import Eular.Config.Proofs.Ini

namespace Eular.Config.Ini

open Lib

variable {c : UInt8} {s : List UInt8}

-- ==== lines

theorem takeWhile_of_not_mem (h : c ∉ s) (t : List UInt8) :
    (s ++ c :: t).takeWhile (· ≠ c) = s := by
  rw [List.takeWhile_append_of_pos fun d hd => decide_eq_true (ne_of_mem_of_not_mem hd h),
    List.takeWhile_cons_of_neg (by simp), List.append_nil]

theorem trim_append (s : List UInt8) {b : List UInt8} (hb : ∀ c ∈ b, isBlank c = true) :
    ((trim (s ++ b)).1 = false ∧ (trim s).1 = false) ∨ trim (s ++ b) = trim s := by
  rcases trim_cases s with ⟨hall, htrim⟩ | ⟨a, core, b', rfl, ha, hb', hcore, hne, htrim⟩
  · left
    have hboth : (s ++ b).all isBlank = true := by
      rw [List.all_append, hall, List.all_eq_true.2 hb, Bool.and_true]
    rw [htrim, trim, hboth, if_pos rfl]
    exact ⟨rfl, rfl⟩
  · right
    rw [htrim, List.append_assoc]
    exact trim_eq ha (fun c hc => (List.mem_append.1 hc).elim (hb' c) (hb c)) hcore hne

theorem takeWhile_concat (s : List UInt8) (p : UInt8 → Bool) :
    ∃ b, (b = [] ∨ b = [0x0a]) ∧ (s ++ [0x0a]).takeWhile p = s.takeWhile p ++ b := by
  rw [List.takeWhile_append]
  split
  · rename_i hall
    have hself : s.takeWhile p = s := (List.takeWhile_prefix p).eq_of_length hall
    rw [hself]
    cases hp : p 0x0a with
    | true => exact ⟨[0x0a], .inr rfl, by rw [List.takeWhile_cons, if_pos hp]; rfl⟩
    | false => exact ⟨[], .inl rfl, by rw [List.takeWhile_cons, hp]; rfl⟩
  · exact ⟨[], .inl rfl, (List.append_nil _).symm⟩

theorem readLine_concat (buf : List UInt8) : readLine (buf ++ [0x0a]) = readLine buf := by
  have hcut : ∃ b, (∀ c ∈ b, isBlank c = true)
      ∧ (cString (buf ++ [0x0a])).takeWhile (· ≠ 0x3b)
        = (cString buf).takeWhile (· ≠ 0x3b) ++ b := by
    obtain ⟨b, hb, hcString⟩ := takeWhile_concat buf fun c => decide (c ≠ 0)
    rcases hb with rfl | rfl
    · refine ⟨[], fun _ h => (nomatch h), ?_⟩
      rw [cString, hcString, List.append_nil, List.append_nil]
      rfl
    · obtain ⟨b, hb, hcomment⟩ := takeWhile_concat (cString buf) fun c => decide (c ≠ 0x3b)
      refine ⟨b, ?_, by rw [cString, hcString]; exact hcomment⟩
      rcases hb with rfl | rfl
      · exact fun _ h => nomatch h
      · exact fun c hc => by rw [List.mem_singleton.1 hc]; rfl
  have hhead : (buf ++ [0x0a]).head? = some 0x3b ↔ buf.head? = some 0x3b := by
    cases buf with
    | nil => exact iff_of_false (by decide) (by decide)
    | cons c buf => exact Iff.rfl
  obtain ⟨b, hb, hline⟩ := hcut
  unfold readLine
  rw [hline]
  by_cases hcomment : buf.head? = some 0x3b
  · rw [if_pos hcomment, if_pos (hhead.2 hcomment)]
  · rw [if_neg hcomment, if_neg fun h => hcomment (hhead.1 h)]
    rcases trim_append ((cString buf).takeWhile (· ≠ 0x3b)) hb with ⟨hmore, hless⟩ | hsame
    · generalize trim ((cString buf).takeWhile (· ≠ 0x3b) ++ b) = more at hmore
      generalize trim ((cString buf).takeWhile (· ≠ 0x3b)) = less at hless
      obtain ⟨_, _⟩ := more
      obtain ⟨_, _⟩ := less
      cases hmore
      cases hless
      rfl
    · rw [hsame]

-- ==== headers

theorem isBlank_of_allowed (h : c ∈ escapeString) : isBlank c = false := by
  have hall : ∀ c ∈ escapeString, isBlank c = false := by decide +kernel
  exact hall c h

theorem Allowed.trimmed (h : Allowed s) : Trimmed s :=
  ⟨fun c hc => isBlank_of_allowed (h c (List.mem_of_mem_head? hc)),
    fun c hc => isBlank_of_allowed (h c (List.mem_of_mem_getLast? hc))⟩

theorem idxOf?_append_of_not_mem (h : c ∉ s) (t : List UInt8) :
    (s ++ t).idxOf? c = (t.idxOf? c).map (s.length + ·) := by
  induction s with
  | nil =>
    cases ht : t.idxOf? c with
    | none => exact ht
    | some i => simpa using ht
  | cons d s ih =>
    obtain ⟨hne, hrest⟩ := List.ne_and_not_mem_of_not_mem_cons h
    rw [List.cons_append, List.idxOf?_cons, if_neg (by simpa using hne.symm), ih hrest]
    cases t.idxOf? c with
    | none => rfl
    | some i => simp only [Option.map_some, List.length_cons]; congr 1; omega

theorem bracketed_append (hleft : 0x5b ∉ s) (hright : 0x5d ∉ s) (t : List UInt8) :
    bracketed (s ++ t) = bracketed t := by
  unfold bracketed
  rw [idxOf?_append_of_not_mem hleft, idxOf?_append_of_not_mem hright]
  cases t.idxOf? 0x5b with
  | none => rfl
  | some left =>
    cases t.idxOf? 0x5d with
    | none => rfl
    | some right =>
      simp only [Option.map_some]
      by_cases hlt : left < right
      · rw [if_pos hlt, if_pos (by omega), List.take_append, List.take_of_length_le (by omega),
          Nat.add_sub_cancel_left, Nat.add_assoc, List.drop_append]
        simp
      · rw [if_neg hlt, if_neg (by omega)]

theorem trim_cons (hc : isBlank c = false) (t : List UInt8) :
    ∃ u, trim (c :: t) = (true, c :: u) := by
  rcases trim_cases (c :: t) with ⟨hall, -⟩ | ⟨a, core, b, hsplit, ha, -, -, hcore, heq⟩
  · rw [List.all_cons, hc, Bool.false_and] at hall
    cases hall
  · cases a with
    | nil =>
      obtain ⟨d, u, rfl⟩ := List.exists_cons_of_ne_nil hcore
      exact ⟨u, by rw [heq, (List.cons.inj hsplit).1]⟩
    | cons d a =>
      have hd := ha d List.mem_cons_self
      rw [← (List.cons.inj hsplit).1, hc] at hd
      cases hd

theorem not_entry_of_bracket (t key val : List UInt8) : readLine (0x5b :: t) ≠ .entry key val := by
  intro h
  obtain ⟨line, htrim, -, -, hkey, -, -, hallowed, -⟩ := of_entry h
  have hrest : (cString (0x5b :: t)).takeWhile (· ≠ 0x3b)
      = 0x5b :: (t.takeWhile (· ≠ 0)).takeWhile (· ≠ 0x3b) := by
    rw [cString, List.takeWhile_cons, if_pos (by decide), List.takeWhile_cons, if_pos (by decide)]
  obtain ⟨u, hu⟩ := trim_cons (c := 0x5b) (by decide) ((t.takeWhile (· ≠ 0)).takeWhile (· ≠ 0x3b))
  rw [hrest, hu] at htrim
  cases htrim
  obtain ⟨w, hw⟩ := trim_cons (c := 0x5b) (by decide) (u.takeWhile (· ≠ 0x3d))
  rw [List.takeWhile_cons, if_pos (by decide), hw] at hkey
  rw [hkey] at hallowed
  exact absurd (hallowed 0x5b List.mem_cons_self) (by decide)

theorem readLine_node {nodeName : List UInt8} (h : Allowed nodeName) :
    readLine (0x5b :: nodeName ++ [0x5d]) = .node nodeName := by
  have hnot {c : UInt8} (hc : c ∉ escapeString) (hleft : c ≠ 0x5b) (hright : c ≠ 0x5d) :
      c ∉ 0x5b :: nodeName ++ [0x5d] := by
    intro hmem
    rcases List.mem_append.1 hmem with hmem | hmem
    · exact (List.mem_cons.1 hmem).elim hleft (h.not_mem hc)
    · exact hright (List.mem_singleton.1 hmem)
  have hline : (cString (0x5b :: nodeName ++ [0x5d])).takeWhile (· ≠ 0x3b)
      = 0x5b :: nodeName ++ [0x5d] := by
    rw [cString_of_not_mem (hnot (by decide) (by decide) (by decide)), List.takeWhile_eq_self_iff]
    exact fun c hc => decide_eq_true
      (ne_of_mem_of_not_mem hc (hnot (by decide) (by decide) (by decide)))
  have htrimmed : Trimmed (0x5b :: nodeName ++ [0x5d]) := by
    refine ⟨fun c hc => ?_, fun c hc => ?_⟩
    · cases hc
      rfl
    · rw [List.getLast?_concat] at hc
      cases hc
      rfl
  have htrim := trim_eq (a := []) (b := []) (fun _ h => nomatch h) (fun _ h => nomatch h) htrimmed
    (List.cons_ne_nil _ _)
  rw [List.nil_append, List.append_nil] at htrim
  have hbracketed : bracketed (0x5b :: nodeName ++ [0x5d]) = some nodeName := by
    have hleft : (0x5b :: nodeName ++ [0x5d]).idxOf? 0x5b = some 0 := by
      rw [List.cons_append, List.idxOf?_cons]
      rfl
    have hright : (0x5b :: nodeName ++ [0x5d]).idxOf? 0x5d = some (nodeName.length + 1) := by
      have hno : (0x5d : UInt8) ∉ 0x5b :: nodeName := fun hmem =>
        (List.mem_cons.1 hmem).elim (by decide) (h.not_mem (by decide))
      rw [idxOf?_append_of_not_mem hno]
      rfl
    unfold bracketed
    rw [hleft, hright]
    dsimp only
    rw [if_pos (Nat.succ_pos _), List.take_left' (by rfl)]
    rfl
  unfold readLine
  rw [hline, htrim, if_neg (by rw [List.cons_append, List.head?_cons]; decide)]
  dsimp only
  rw [hbracketed]
  dsimp only
  rw [trim_of_trimmed h.trimmed, if_neg fun hno => hno.2 h]

-- ==== entries

/-- What is read of a value: up to a semicolon, without blanks at the end. -/
def valueText (u : List UInt8) : List UInt8 := (u.takeWhile (· ≠ 0x3b)).rdropWhile isBlank

theorem not_mem_keyed {k : List UInt8} (hk : Allowed k) {c : UInt8} (hc : c ∉ escapeString)
    (hblank : c ≠ 0x20) (hequal : c ≠ 0x3d) : c ∉ k ++ [0x20, 0x3d] := by
  intro hmem
  rcases List.mem_append.1 hmem with hmem | hmem
  · exact hk.not_mem hc hmem
  · simp only [List.mem_cons, List.not_mem_nil, or_false] at hmem
    exact hmem.elim hblank hequal

theorem keyed_append (k t : List UInt8) : k ++ 0x20 :: 0x3d :: t = (k ++ [0x20, 0x3d]) ++ t := by
  rw [List.append_assoc]
  rfl

/-- A key has no comment in it. -/
theorem uncommented_keyed {k u : List UInt8} (hk : Allowed k) (hu : 0 ∉ u) :
    (cString (k ++ 0x20 :: 0x3d :: u)).takeWhile (· ≠ 0x3b)
      = k ++ 0x20 :: 0x3d :: u.takeWhile (· ≠ 0x3b) := by
  have hno : 0 ∉ k ++ 0x20 :: 0x3d :: u := by
    rw [keyed_append]
    exact fun hmem => (List.mem_append.1 hmem).elim
      (not_mem_keyed hk (by decide) (by decide) (by decide)) hu
  rw [cString_of_not_mem hno, keyed_append k u, keyed_append k (u.takeWhile (· ≠ 0x3b))]
  exact List.takeWhile_append_of_pos fun c hc => decide_eq_true
    (ne_of_mem_of_not_mem hc (not_mem_keyed hk (by decide) (by decide) (by decide)))

/-- Of such a line only the end can be blank. -/
theorem trim_keyed {k : List UInt8} (hk : Allowed k) (hne : k ≠ []) (u : List UInt8) :
    trim (k ++ 0x20 :: 0x3d :: u.takeWhile (· ≠ 0x3b))
      = (true, k ++ 0x20 :: 0x3d :: valueText u) := by
  have hback : valueText u ++ (u.takeWhile (· ≠ 0x3b)).rtakeWhile isBlank
      = u.takeWhile (· ≠ 0x3b) := List.rdropWhile_append_rtakeWhile
  have htrimmed : Trimmed (k ++ 0x20 :: 0x3d :: valueText u) := by
    refine ⟨fun c hc => ?_, fun c hc => ?_⟩
    · obtain ⟨d, t, rfl⟩ := List.exists_cons_of_ne_nil hne
      obtain rfl : d = c := Option.some_inj.1 hc
      exact isBlank_of_allowed (hk d List.mem_cons_self)
    · rw [keyed_append] at hc
      by_cases hnil : valueText u = []
      · rw [hnil, List.append_nil, List.getLast?_append_of_ne_nil _ (List.cons_ne_nil _ _)] at hc
        cases hc
        rfl
      · rw [List.getLast?_append_of_ne_nil _ hnil, List.getLast?_eq_some_getLast hnil] at hc
        cases hc
        exact Bool.eq_false_iff.2 (List.rdropWhile_last_not isBlank _ hnil)
  have heq := trim_eq (a := []) (b := (u.takeWhile (· ≠ 0x3b)).rtakeWhile isBlank)
    (fun _ h => by cases h) (fun c hc => List.mem_rtakeWhile_imp hc) htrimmed (by simp)
  rw [List.nil_append, List.append_assoc, List.cons_append, List.cons_append, hback] at heq
  exact heq

theorem readLine_keyed_eq {k u : List UInt8} (hk : Allowed k) (hne : k ≠ []) (hu : 0 ∉ u) :
    readLine (k ++ 0x20 :: 0x3d :: u)
      = (bracketed (valueText u)).elim (.entry k (trim (valueText u)).2) fun inner =>
          if (trim inner).2 ≠ [] ∧ ¬ Allowed (trim inner).2 then .reject
          else .node (trim inner).2 := by
  have hbracketed : bracketed (k ++ 0x20 :: 0x3d :: valueText u) = bracketed (valueText u) := by
    rw [keyed_append]
    exact bracketed_append (not_mem_keyed hk (by decide) (by decide) (by decide))
      (not_mem_keyed hk (by decide) (by decide) (by decide)) _
  have hcomment : (k ++ 0x20 :: 0x3d :: u).head? ≠ some 0x3b := by
    obtain ⟨d, t, rfl⟩ := List.exists_cons_of_ne_nil hne
    intro heq
    have hd : d = 0x3b := Option.some_inj.1 heq
    exact absurd (hk d List.mem_cons_self) (by rw [hd]; decide)
  have hno : (0x3d : UInt8) ∉ k ++ [0x20] := fun hmem =>
    (List.mem_append.1 hmem).elim (hk.not_mem (by decide)) fun hmem =>
      absurd (List.mem_singleton.1 hmem) (by decide)
  have hequal : k ++ 0x20 :: 0x3d :: valueText u = (k ++ [0x20]) ++ 0x3d :: valueText u := by
    rw [List.append_assoc]
    rfl
  have hkey : (trim (k ++ [0x20])).2 = k := by
    have heq := trim_eq (a := []) (b := [0x20]) (fun _ h => by cases h)
      (fun c hc => by rw [List.mem_singleton.1 hc]; rfl) hk.trimmed hne
    rw [List.nil_append] at heq
    rw [heq]
  have htake := takeWhile_of_not_mem hno (valueText u)
  have hdrop : ((k ++ [0x20]) ++ 0x3d :: valueText u).dropWhile (· ≠ 0x3d)
      = 0x3d :: valueText u := by
    rw [List.dropWhile_append_of_pos fun d hd => decide_eq_true (ne_of_mem_of_not_mem hd hno)]
    rfl
  unfold readLine
  rw [if_neg hcomment, uncommented_keyed hk hu, trim_keyed hk hne]
  dsimp only
  rw [hbracketed]
  cases bracketed (valueText u) with
  | some inner => rfl
  | none =>
    dsimp only
    rw [if_neg
        (not_not.2 (List.mem_append_right _ (List.mem_cons_of_mem _ List.mem_cons_self))),
      hequal, htake, hdrop, List.tail_cons, hkey, Option.elim_none, if_neg]
    rintro (hnil | hbad)
    · exact hne hnil
    · exact hbad hk

theorem readLine_keyed {k u : List UInt8} (hk : Allowed k) (hne : k ≠ []) (hu : 0 ∉ u) :
    (bracketed (valueText u) = none →
        readLine (k ++ 0x20 :: 0x3d :: u) = .entry k (trim (valueText u)).2)
      ∧ ∀ key val, readLine (k ++ 0x20 :: 0x3d :: u) = .entry key val →
        bracketed (valueText u) = none := by
  have hread := readLine_keyed_eq hk hne hu
  constructor
  · intro hnone
    rw [hread, hnone, Option.elim_none]
  · intro key val hentry
    rw [hread] at hentry
    cases hinner : bracketed (valueText u) with
    | none => rfl
    | some inner =>
      rw [hinner, Option.elim_some] at hentry
      split at hentry <;> cases hentry

/-- A key and its value, as they are written before they are cut. -/
def writtenText (key val : List UInt8) : List UInt8 := key ++ 0x20 :: 0x3d :: 0x20 :: cString val

/-- Of `n` bytes a key and its value can be read again. -/
structure EntryFits (n : Nat) (key val : List UInt8) : Prop where
  keyed : key ≠ []
  noNul : 0 ∉ val
  noComment : 0x3b ∉ val
  noNode : bracketed val = none
  fits : key.length + 3 + val.length ≤ n ∨ val = [] ∧ key.length + 2 ≤ n

theorem equal_mem_of_entry {buf key val : List UInt8} (h : readLine buf = .entry key val) :
    0x3d ∈ buf := by
  obtain ⟨line, htrim, -, hequal, -⟩ := of_entry h
  have hmem : 0x3d ∈ (cString buf).takeWhile (· ≠ 0x3b) := mem_trim (by rw [htrim]; exact hequal)
  exact (List.takeWhile_prefix _).subset ((List.takeWhile_prefix _).subset hmem)

/-- What is read of a line that begins with a blank and an equal sign is no entry. -/
theorem not_entry_of_no_key (u key val : List UInt8) :
    readLine (0x20 :: 0x3d :: u) ≠ .entry key val := by
  intro h
  obtain ⟨line, htrim, -, -, hkey, -, hne, -⟩ := of_entry h
  have hrest : (cString (0x20 :: 0x3d :: u)).takeWhile (· ≠ 0x3b)
      = 0x20 :: 0x3d :: (cString u).takeWhile (· ≠ 0x3b) := rfl
  rw [hrest] at htrim
  rcases trim_cases (0x20 :: 0x3d :: (cString u).takeWhile (· ≠ 0x3b)) with
    ⟨-, heq⟩ | ⟨a, core, b, hsplit, ha, -, hcore, hnil, heq⟩
  · rw [htrim] at heq
    cases heq
  · rw [htrim] at heq
    cases heq
    obtain ⟨c, t, rfl⟩ := List.exists_cons_of_ne_nil hnil
    have hc := hcore.head c rfl
    have hfirst : c = 0x3d := by
      cases a with
      | nil =>
        rw [← (List.cons.inj hsplit).1] at hc
        cases hc
      | cons d a =>
        cases a with
        | nil => exact (List.cons.inj (List.cons.inj hsplit).2).1.symm
        | cons e a =>
          have he := ha e (List.mem_cons_of_mem _ List.mem_cons_self)
          rw [← (List.cons.inj (List.cons.inj hsplit).2).1] at he
          cases he
    rw [hfirst] at hkey
    exact hne hkey

theorem Plain.valueText {val : List UInt8} (h : Plain val) (hno : 0x3b ∉ val) :
    valueText (0x20 :: val) = if val = [] then [] else 0x20 :: val := by
  have hself : (0x20 :: val).takeWhile (· ≠ 0x3b) = 0x20 :: val :=
    List.takeWhile_eq_self_iff.2 fun c hc => decide_eq_true fun heq =>
      (List.mem_cons.1 hc).elim (fun hc => by rw [hc] at heq; cases heq) fun hc => hno (heq ▸ hc)
  unfold Ini.valueText
  rw [hself]
  split
  · rename_i hnil
    rw [hnil]
    rfl
  · rename_i hne
    rw [List.rdropWhile_eq_self_iff]
    intro hcons hblank
    rw [List.getLast_cons hne, h.last _ (List.getLast?_eq_some_getLast hne)] at hblank
    cases hblank

theorem prefix_of_trim {val y : List UInt8} (h : Plain val) (hne : val ≠ [])
    (heq : (trim (valueText (0x20 :: y))).2 = val) :
    val.length ≤ (y.takeWhile (· ≠ 0x3b)).length := by
  have hprefix : valueText (0x20 :: y) <+: 0x20 :: y.takeWhile (· ≠ 0x3b) := by
    unfold valueText
    rw [List.takeWhile_cons, if_pos (by decide)]
    exact List.rdropWhile_prefix _ _
  obtain ⟨rest, hrest⟩ := hprefix
  rcases trim_cases (valueText (0x20 :: y)) with
    ⟨hall, htrim⟩ | ⟨a, core, b, hsplit, -, -, -, -, htrim⟩
  · rw [htrim] at heq
    have heq : valueText (0x20 :: y) = val := heq
    rw [heq, h.not_all hne] at hall
    cases hall
  · rw [htrim] at heq
    obtain rfl : core = val := heq
    rw [hsplit] at hrest
    cases a with
    | nil =>
      obtain ⟨c, t, rfl⟩ := List.exists_cons_of_ne_nil hne
      have hc := h.head c rfl
      rw [(List.cons.inj hrest).1] at hc
      cases hc
    | cons c a =>
      have hlen := congrArg List.length hrest
      simp only [List.cons_append, List.length_cons, List.length_append] at hlen
      omega

variable {k v : List UInt8} {n : Nat}

theorem take_writtenText (h : k.length + 2 ≤ n) :
    (writtenText k v).take n
      = k ++ 0x20 :: 0x3d :: (0x20 :: cString v).take (n - k.length - 2) := by
  obtain ⟨m, rfl⟩ : ∃ m, n = k.length + (m + 2) := ⟨n - k.length - 2, by omega⟩
  unfold writtenText
  rw [List.take_length_add_append, Nat.add_sub_cancel_left, Nat.add_sub_cancel]
  rfl

theorem not_mem_cString (v : List UInt8) : 0 ∉ cString v := fun h =>
  absurd (List.mem_takeWhile_imp h) (by decide)

theorem readLine_fits (hk : Allowed k) (hv : Plain v) (h : EntryFits n k v) :
    readLine ((writtenText k v).take n) = .entry k v := by
  have hself := cString_of_not_mem h.noNul
  have hn : k.length + 2 ≤ n := by
    rcases h.fits with hfits | ⟨-, hfits⟩
    · omega
    · exact hfits
  rw [take_writtenText hn, hself]
  have hzero : (0 : UInt8) ∉ (0x20 :: v).take (n - k.length - 2) := fun hmem =>
    (List.mem_cons.1 (List.mem_of_mem_take hmem)).elim (by decide) h.noNul
  obtain ⟨hread, -⟩ := readLine_keyed hk h.keyed hzero
  have hvalue : valueText ((0x20 :: v).take (n - k.length - 2))
      = if v = [] then [] else 0x20 :: v := by
    rcases h.fits with hfits | ⟨rfl, hfits⟩
    · rw [List.take_of_length_le (by rw [List.length_cons]; omega), hv.valueText h.noComment]
    · cases n - k.length - 2 with
      | zero => rfl
      | succ m =>
        rw [List.take_of_length_le (by simp)]
        rfl
  rw [hvalue] at hread
  by_cases hnil : v = []
  · rw [if_pos hnil] at hread
    rw [hread rfl, hnil]
    rfl
  · rw [if_neg hnil] at hread
    have hbracketed : bracketed (0x20 :: v) = bracketed v :=
      bracketed_append (s := [0x20]) (by decide) (by decide) v
    have htrim := trim_eq (a := [0x20]) (b := []) (fun c hc => by rw [List.mem_singleton.1 hc]; rfl)
      (fun _ h => by cases h) hv.toTrimmed hnil
    rw [List.append_nil] at htrim
    rw [hread (hbracketed.trans h.noNode)]
    exact congrArg (Line.entry k) (congrArg Prod.snd htrim)

/-- A line that is read as an entry has its key; that it has its value too says that it fits. -/
theorem fits_of_readLine (hk : Allowed k) (hv : Plain v) {key val : List UInt8}
    (h : readLine ((writtenText k v).take n) = .entry key val) :
    key = k ∧ (val = v → EntryFits n k v) := by
  have hn : k.length + 2 ≤ n := by
    by_contra hshort
    have hmem := equal_mem_of_entry h
    have hcut : (writtenText k v).take n = (k ++ [0x20]).take n := by
      unfold writtenText
      rw [List.take_append, List.take_append]
      congr 1
      have hone : n - k.length ≤ 1 := by omega
      interval_cases n - k.length
      · rfl
      · rfl
    rw [hcut] at hmem
    exact (List.mem_append.1 (List.mem_of_mem_take hmem)).elim (hk.not_mem (by decide))
      fun hmem => absurd (List.mem_singleton.1 hmem) (by decide)
  rw [take_writtenText hn] at h
  have hne : k ≠ [] := by
    rintro rfl
    exact not_entry_of_no_key _ _ _ h
  have hzero : (0 : UInt8) ∉ (0x20 :: cString v).take (n - k.length - 2) := fun hmem =>
    (List.mem_cons.1 (List.mem_of_mem_take hmem)).elim (by decide) (not_mem_cString v)
  obtain ⟨hread, hbracketed⟩ := readLine_keyed hk hne hzero
  have hnone := hbracketed _ _ h
  rw [hread hnone] at h
  cases h
  refine ⟨rfl, fun hval => ?_⟩
  by_cases hnil : v = []
  · rw [hnil]
    exact ⟨hne, List.not_mem_nil, List.not_mem_nil, rfl, .inr ⟨rfl, hn⟩⟩
  · cases hm : n - k.length - 2 with
    | zero =>
      rw [hm] at hval
      exact absurd hval.symm hnil
    | succ m =>
      rw [hm, List.take_succ_cons] at hval hnone
      have hlen := prefix_of_trim hv hnil hval
      have hcomment := List.takeWhile_prefix (l := (cString v).take m) fun c => decide (c ≠ 0x3b)
      have htake := List.take_prefix m (cString v)
      have hcString := List.takeWhile_prefix (l := v) fun c => decide (c ≠ 0)
      have hwhole : cString v = v := hcString.eq_of_length_le
        (hlen.trans (hcomment.trans htake).length_le)
      rw [hwhole] at hcomment htake hlen hnone
      have htaken : v.take m = v := htake.eq_of_length_le (hlen.trans hcomment.length_le)
      rw [htaken] at hcomment hlen hnone
      have hclean := hcomment.eq_of_length_le hlen
      have hno : 0x3b ∉ v := fun hmem => by
        rw [← hclean] at hmem
        exact absurd (List.mem_takeWhile_imp hmem) (by decide)
      rw [hv.valueText hno, if_neg hnil] at hnone
      have hbracketed : bracketed (0x20 :: v) = bracketed v :=
        bracketed_append (s := [0x20]) (by decide) (by decide) v
      have hroom := congrArg List.length htaken
      rw [List.length_take] at hroom
      exact ⟨hne, hwhole ▸ not_mem_cString v, hno, hbracketed.symm.trans hnone, .inl (by omega)⟩

end Eular.Config.Ini
