/-
When a configuration that was kept is parsed again as it was.

Every node of the file is the lines of its keys behind that of its name, and
ends in an empty line, so the nodes are read one by one (`results_sections`).
A line that does not fit the buffer of `keep` has lost its line break and runs
into the next, and a line that is no entry is lost: the file then has fewer
entries than there are keys (`countP_sections`). If none is lost they are read
in order, each with the value of its line alone (`restored_iff`).
-/
import Eular.Config.Proofs.IniLines

namespace Eular.Config.Ini

open Lib

variable {source : SortedMap (List UInt8) Node}

-- ==== files

/-- What a line is, unless it is skipped. -/
def lineOf (buf : List UInt8) : Option Line :=
  match readLine buf with
  | .skip => none
  | l => some l

/-- The lines of a file that are not skipped. -/
def results (text : List UInt8) : List Line := (lines 0x0a 1023 text).filterMap lineOf

theorem lineOf_concat (buf : List UInt8) : lineOf (buf ++ [0x0a]) = lineOf buf := by
  unfold lineOf
  rw [readLine_concat]

theorem lineOf_break : lineOf [0x0a] = none := rfl

theorem rowsOf_filterMap (nodeName : List UInt8) (bufs : List (List UInt8)) :
    rowsOf nodeName (bufs.map readLine) = rowsOf nodeName (bufs.filterMap lineOf) := by
  induction bufs generalizing nodeName with
  | nil => rfl
  | cons buf bufs ih =>
    rw [List.map_cons, List.filterMap_cons]
    unfold lineOf
    cases hline : readLine buf with
    | skip => exact ih nodeName
    | node nodeName => exact ih nodeName
    | reject => rfl
    | entry key val =>
      dsimp only
      rw [rowsOf, rowsOf, ih]
      rfl

theorem fileRows_eq (text : List UInt8) : fileRows text = rowsOf [] (results text) :=
  rowsOf_filterMap [] _

theorem results_concat (text : List UInt8) : results (text ++ [0x0a]) = results text :=
  filterMap_lines_concat lineOf_break lineOf_concat text

theorem results_append (s t : List UInt8) :
    results (s ++ [0x0a] ++ t) = results (s ++ [0x0a]) ++ results t := by
  unfold results lines
  rw [List.append_assoc, List.singleton_append, linesFrom_append, List.filterMap_append]
  rfl

def sectionText (e : List UInt8 × Node) : List UInt8 :=
  (if e.1 = [] then [] else formatNode e.1) ++ formatKeys e.2

/-- The file with the last line break. -/
def fileText (source : SortedMap (List UInt8) Node) : List UInt8 :=
  source.entries.flatMap sectionText

theorem streams_eq (source : SortedMap (List UInt8) Node) :
    globalStream source ++ nodeStream source = fileText source := by
  have hnode {l : List (List UInt8 × Node)} (h : ∀ e ∈ l, e.1 ≠ []) :
      (l.filter fun e => e.1 = []) = [] ∧ (l.filter fun e => e.1 ≠ []) = l
        ∧ (l.flatMap fun e => formatNode e.1 ++ formatKeys e.2) = l.flatMap sectionText := by
    refine ⟨List.filter_eq_nil_iff.2 fun e he => by simpa using h e he,
      List.filter_eq_self.2 fun e he => by simpa using h e he, ?_⟩
    refine List.flatMap_congr fun e he => ?_
    rw [sectionText, if_neg (h e he)]
  unfold globalStream nodeStream fileText
  have hsorted := source.sorted
  generalize source.entries = l at hsorted
  cases l with
  | nil => rfl
  | cons e l =>
    have hrest : ∀ e' ∈ l, e'.1 ≠ [] := by
      intro e' he' hnil
      have hlt := hsorted.head_lt he'
      rw [hnil] at hlt
      exact absurd hlt (List.not_lt_nil _)
    obtain ⟨hno, hall, heq⟩ := hnode hrest
    by_cases hglobal : e.1 = []
    · rw [List.filter_cons_of_pos (by simpa using hglobal), hno,
        List.filter_cons_of_neg (by simpa using hglobal), hall, heq, List.flatMap_cons,
        List.flatMap_cons, sectionText, if_pos hglobal]
      simp
    · obtain ⟨hno', hall', heq'⟩ := hnode (l := e :: l) (List.forall_mem_cons.2 ⟨hglobal, hrest⟩)
      rw [hno', hall', heq']
      rfl

theorem nodeStream_break (source : SortedMap (List UInt8) Node) :
    nodeStream source = [] ∨ ∃ t, nodeStream source = t ++ [0x0a] := by
  unfold nodeStream
  rcases List.eq_nil_or_concat' (source.entries.filter fun e => e.1 ≠ []) with
    hnil | ⟨front, e, hfront⟩
  · left
    rw [hnil]
    rfl
  · right
    rw [hfront, List.flatMap_append]
    refine ⟨front.flatMap (fun e => formatNode e.1 ++ formatKeys e.2)
      ++ (formatNode e.1 ++ e.2.entries.flatMap fun kv => formatEntry kv.1 kv.2), ?_⟩
    rw [List.append_assoc, List.append_assoc, List.flatMap_cons, List.flatMap_nil, List.append_nil]
    rfl

/-- What `keep` hands to `fwrite`, without the last line break. -/
def keepText (s : IniConfig) : List UInt8 :=
  globalStream (regroup s.mConfigMap)
    ++ (nodeStream (regroup s.mConfigMap)).take ((nodeStream (regroup s.mConfigMap)).length - 1)

/-- The close of the file that `keep` opens loses nothing. -/
def ClosesWhole (s : IniConfig) (file : List UInt8) (fopen : List UInt8 → Option Sink) : Prop :=
  ∀ fp, fopen (s.keepPath file) = some fp → (keepText s).length ≤ fp.close

theorem results_keep {s s' : IniConfig} {file text : List UInt8} {fopen : List UInt8 → Option Sink}
    (h : s.keep file fopen = (true, s', text)) (hclose : ClosesWhole s file fopen) :
    results text = results (fileText (regroup s.mConfigMap)) := by
  unfold IniConfig.keep at h
  split at h
  · cases h
  · rename_i fp hfp
    have hwhole := hclose fp hfp
    simp only [Prod.mk.injEq, Bool.and_eq_true, decide_eq_true_eq] at h
    obtain ⟨⟨⟨hglobal, hnode⟩, -⟩, -, rfl⟩ := h
    rw [if_pos hglobal, List.take_of_length_le hglobal, List.take_of_length_le hnode,
      List.take_of_length_le (by exact hwhole), ← streams_eq]
    rcases nodeStream_break (regroup s.mConfigMap) with hnil | ⟨t, ht⟩
    · rw [hnil]
      rfl
    · rw [ht, List.length_append, List.length_singleton, Nat.add_sub_cancel, List.take_left,
        ← List.append_assoc, results_concat]

theorem results_sections (l : List (List UInt8 × Node)) :
    results (l.flatMap sectionText) = l.flatMap fun e => results (sectionText e) := by
  induction l with
  | nil => rfl
  | cons e l ih =>
    have hbreak : sectionText e = ((if e.1 = [] then [] else formatNode e.1)
        ++ e.2.entries.flatMap fun kv => formatEntry kv.1 kv.2) ++ [0x0a] := by
      rw [List.append_assoc]
      rfl
    rw [List.flatMap_cons, List.flatMap_cons, ← ih, hbreak, results_append]

-- ==== pieces

/-- A line as it is after it went through the buffer, and whether it has its line break. -/
def cutLine (line : List UInt8) : List UInt8 × Bool := (line.take 511, decide (line.length < 511))

theorem take_line (line : List UInt8) :
    (line ++ [0x0a]).take 511
      = if (cutLine line).2 then (cutLine line).1 ++ [0x0a] else (cutLine line).1 := by
  unfold cutLine
  by_cases hlt : line.length < 511
  · rw [decide_eq_true hlt, if_pos rfl, List.take_of_length_le (by simpa using hlt),
      List.take_of_length_le hlt.le]
  · rw [decide_eq_false hlt, if_neg Bool.false_ne_true,
      List.take_append_of_le_length (not_lt.1 hlt)]

theorem fits_cutLine {line : List UInt8} (h : 0x0a ∉ line) :
    FitsBuffer 0x0a 1023 (cutLine line) := by
  refine ⟨fun hmem => h (List.mem_of_mem_take hmem), ?_⟩
  have hle : (line.take 511).length ≤ 511 := List.length_take_le _ _
  show 2 * (line.take 511).length < 1023
  omega

/-- The line of a node's name; the global one has none. -/
def namePieces (nodeName : List UInt8) : List (List UInt8 × Bool) :=
  if nodeName = [] then [] else [cutLine (0x5b :: nodeName ++ [0x5d])]

def piecesOf (e : List UInt8 × Node) : List (List UInt8 × Bool) :=
  namePieces e.1 ++ e.2.entries.map fun kv => cutLine (writtenText kv.1 kv.2)

/-- A node as it is in a configuration: with allowed letters, plain values, and not empty. -/
structure SectionOk (e : List UInt8 × Node) : Prop where
  name : Allowed e.1
  keys : ∀ kv ∈ e.2.entries, Allowed kv.1 ∧ Plain kv.2
  nonempty : e.2.entries ≠ []

variable {e : List UInt8 × Node}

theorem formatEntry_eq {key : List UInt8} (hk : Allowed key) (val : List UInt8) :
    formatEntry key val
      = if (cutLine (writtenText key val)).2 then (cutLine (writtenText key val)).1 ++ [0x0a]
        else (cutLine (writtenText key val)).1 := by
  have hblank : ascii " = " = [0x20, 0x3d, 0x20] := by decide
  unfold formatEntry
  rw [cString_of_not_mem (hk.not_mem (by decide)), hblank, ← take_line]
  unfold writtenText
  rw [List.append_assoc, List.append_assoc, List.append_assoc]
  rfl

theorem sectionText_eq (h : SectionOk e) :
    sectionText e = joined 0x0a (piecesOf e) ++ [0x0a] := by
  have hname : (if e.1 = [] then [] else formatNode e.1) = joined 0x0a (namePieces e.1) := by
    unfold namePieces
    split
    · rfl
    · show _ = (if _ then _ else _) ++ []
      rw [List.append_nil, ← take_line, formatNode, cString_of_not_mem (h.name.not_mem (by decide)),
        List.append_assoc]
      rfl
  have hkeys : (e.2.entries.flatMap fun kv => formatEntry kv.1 kv.2)
      = joined 0x0a (e.2.entries.map fun kv => cutLine (writtenText kv.1 kv.2)) := by
    unfold joined
    rw [List.flatMap_map]
    exact List.flatMap_congr fun kv hkv => formatEntry_eq (h.keys kv hkv).1 kv.2
  unfold sectionText formatKeys piecesOf
  rw [hname, hkeys, joined_append, List.append_assoc]

theorem fits_pieces (h : SectionOk e) : ∀ p ∈ piecesOf e, FitsBuffer 0x0a 1023 p := by
  intro p hp
  rcases List.mem_append.1 hp with hp | hp
  · unfold namePieces at hp
    split at hp
    · cases hp
    · rw [List.mem_singleton.1 hp]
      refine fits_cutLine fun hmem => ?_
      rcases List.mem_append.1 hmem with hmem | hmem
      · exact (List.mem_cons.1 hmem).elim (by decide) (h.name.not_mem (by decide))
      · exact absurd (List.mem_singleton.1 hmem) (by decide)
  · obtain ⟨kv, hkv, rfl⟩ := List.mem_map.1 hp
    obtain ⟨hkey, hval⟩ := h.keys kv hkv
    refine fits_cutLine fun hmem => ?_
    rcases List.mem_append.1 hmem with hmem | hmem
    · exact hkey.not_mem (by decide) hmem
    · simp only [List.mem_cons] at hmem
      rcases hmem with hmem | hmem | hmem | hmem
      · exact absurd hmem (by decide)
      · exact absurd hmem (by decide)
      · exact absurd hmem (by decide)
      · exact hval.noBreak ((List.takeWhile_prefix _).subset hmem)

theorem piecesOf_ne_nil (h : SectionOk e) : piecesOf e ≠ [] := by
  unfold piecesOf
  simp [h.nonempty]

theorem results_section (h : SectionOk e) :
    results (sectionText e)
      = (lines 0x0a 1023 (joined 0x0a (closed (piecesOf e)))).filterMap lineOf := by
  rw [sectionText_eq h]
  exact filterMap_lines_closed lineOf_break lineOf_concat (piecesOf_ne_nil h)

-- ==== counting

def isEntry : Line → Bool
  | .entry _ _ => true
  | _ => false

theorem countP_filterMap_lineOf (bufs : List (List UInt8)) :
    (bufs.filterMap lineOf).countP isEntry = bufs.countP fun buf => isEntry (readLine buf) := by
  induction bufs with
  | nil => rfl
  | cons buf bufs ih =>
    rw [List.filterMap_cons, List.countP_cons, ← ih]
    unfold lineOf
    cases readLine buf with
    | skip => rfl
    | node nodeName => rfl
    | entry key val => exact List.countP_cons
    | reject => rfl

theorem isEntry_bracket (t : List UInt8) : isEntry (readLine (0x5b :: t)) = false := by
  cases hline : readLine (0x5b :: t) with
  | entry key val => exact absurd hline (not_entry_of_bracket t key val)
  | _ => rfl

/-- Every line of a node but the last has its line break, and all its keys are read as entries. -/
structure Tight (e : List UInt8 × Node) : Prop where
  breaks : ∀ p ∈ (piecesOf e).dropLast, p.2 = true
  entries : ∀ kv ∈ e.2.entries, ∃ key val,
    readLine ((writtenText kv.1 kv.2).take 511) = .entry key val

theorem texts_pieces (e : List UInt8 × Node) :
    (closed (piecesOf e)).map Prod.fst
      = (namePieces e.1).map Prod.fst
        ++ e.2.entries.map fun kv => (writtenText kv.1 kv.2).take 511 := by
  rw [map_fst_closed, piecesOf, List.map_append, List.map_map]
  rfl

theorem length_pieces (e : List UInt8 × Node) :
    (closed (piecesOf e)).length = (namePieces e.1).length + e.2.entries.length := by
  have hlen := congrArg List.length (texts_pieces e)
  simpa using hlen

theorem length_name_le (e : List UInt8 × Node) :
    ((lines 0x0a 1023 (joined 0x0a (closed (piecesOf e)))).filterMap lineOf).countP isEntry
        + (namePieces e.1).length
      ≤ (lines 0x0a 1023 (joined 0x0a (closed (piecesOf e)))).length := by
  rw [countP_filterMap_lineOf]
  by_cases hname : e.1 = []
  · rw [namePieces, if_pos hname, List.length_nil, Nat.add_zero]
    exact List.countP_le_length
  · have hfirst : ∃ t, joined 0x0a (closed (piecesOf e)) = 0x5b :: t := by
      have htexts := texts_pieces e
      rw [namePieces, if_neg hname] at htexts
      cases hclosed : closed (piecesOf e) with
      | nil =>
        rw [hclosed] at htexts
        cases htexts
      | cons p ps =>
        rw [hclosed] at htexts
        obtain ⟨u, flag⟩ := p
        have hu : u = (0x5b :: e.1 ++ [0x5d]).take 511 := (List.cons.inj htexts).1
        rw [hu]
        cases flag with
        | true => exact ⟨_, rfl⟩
        | false => exact ⟨_, rfl⟩
    obtain ⟨t, ht⟩ := hfirst
    obtain ⟨l, ls, hls⟩ := @exists_linesFrom_cons UInt8 _ 0x0a 1023 1023 0x5b t
    have hls : lines 0x0a 1023 (0x5b :: t) = (0x5b :: l) :: ls := hls
    rw [ht, hls, namePieces, if_neg hname, List.countP_cons_of_neg (by rw [isEntry_bracket]; simp)]
    exact Nat.succ_le_succ List.countP_le_length

theorem lines_section {e : List UInt8 × Node} (h : SectionOk e)
    (hbreaks : ∀ p ∈ (piecesOf e).dropLast, p.2 = true) :
    (lines 0x0a 1023 (joined 0x0a (closed (piecesOf e)))).filterMap lineOf
      = ((namePieces e.1).map Prod.fst
        ++ e.2.entries.map fun kv => (writtenText kv.1 kv.2).take 511).filterMap lineOf := by
  rw [lines_joined (fitsBuffer_closed (fits_pieces h)) (closed_all_iff.2 hbreaks), ← texts_pieces,
    List.filterMap_map, List.filterMap_map]
  exact List.filterMap_congr fun p _ => lineOf_concat p.1

/-- A node is not read as more entries than it has keys, and as fewer if a line is lost. -/
theorem section_count {e : List UInt8 × Node} (h : SectionOk e) :
    (results (sectionText e)).countP isEntry ≤ e.2.entries.length
      ∧ (e.2.entries.length ≤ (results (sectionText e)).countP isEntry → Tight e) := by
  rw [results_section h]
  have hname := length_name_le e
  have hpieces := length_pieces e
  have hlines := (length_lines_joined (fitsBuffer_closed (fits_pieces h))).1
  refine ⟨by omega, fun hcount => ?_⟩
  have hlength : (piecesOf e).length = (closed (piecesOf e)).length := by
    have hsame := congrArg List.length (map_fst_closed (piecesOf e))
    rw [List.length_map, List.length_map] at hsame
    exact hsame.symm
  have hbreaks := closed_all_iff.1 (closed_of_length (fits_pieces h) (by omega))
  refine ⟨hbreaks, fun kv hkv => ?_⟩
  rw [lines_section h hbreaks, countP_filterMap_lineOf, List.countP_append] at hcount
  have hno : ((namePieces e.1).map Prod.fst).countP (fun buf => isEntry (readLine buf)) = 0 := by
    unfold namePieces
    split
    · rfl
    · show List.countP _ [(0x5b :: (e.1 ++ [0x5d]).take 510)] = 0
      rw [List.countP_singleton, isEntry_bracket]
      rfl
  have hall : (e.2.entries.map fun kv => (writtenText kv.1 kv.2).take 511).countP
      (fun buf => isEntry (readLine buf))
      = (e.2.entries.map fun kv => (writtenText kv.1 kv.2).take 511).length := by
    refine Nat.le_antisymm List.countP_le_length ?_
    rw [List.length_map]
    omega
  have hentry := List.countP_eq_length.1 hall _ (List.mem_map_of_mem hkv)
  cases hline : readLine ((writtenText kv.1 kv.2).take 511) with
  | entry key val => exact ⟨key, val, rfl⟩
  | _ =>
    rw [hline] at hentry
    cases hentry

def readVal (key val : List UInt8) : List UInt8 :=
  match readLine ((writtenText key val).take 511) with
  | .entry _ val => val
  | _ => []

def nameLines (nodeName : List UInt8) : List Line :=
  if nodeName = [] then [] else [.node nodeName]

theorem results_tight {e : List UInt8 × Node} (h : SectionOk e) (ht : Tight e) :
    results (sectionText e)
      = nameLines e.1 ++ e.2.entries.map fun kv => .entry kv.1 (readVal kv.1 kv.2) := by
  rw [results_section h, lines_section h ht.breaks, List.filterMap_append]
  congr 1
  · unfold namePieces nameLines
    by_cases hname : e.1 = []
    · rw [if_pos hname, if_pos hname]
      rfl
    · have hbreak := ht.breaks
      rw [piecesOf, namePieces, if_neg hname, List.dropLast_append_of_ne_nil (by simp [h.nonempty])]
        at hbreak
      have hshort := of_decide_eq_true (hbreak _ (List.mem_append_left _ List.mem_cons_self))
      rw [if_neg hname, if_neg hname]
      show (List.filterMap lineOf [(0x5b :: e.1 ++ [0x5d]).take 511]) = _
      rw [List.take_of_length_le hshort.le]
      unfold lineOf
      rw [List.filterMap_cons, readLine_node h.name]
      rfl
  · rw [List.filterMap_map]
    refine (List.filterMap_congr fun kv hkv => ?_).trans (congrFun (List.filterMap_eq_map
      (f := fun kv : List UInt8 × List UInt8 => Line.entry kv.1 (readVal kv.1 kv.2))) _)
    obtain ⟨key, val, hline⟩ := ht.entries kv hkv
    obtain ⟨hkey, hval⟩ := h.keys kv hkv
    obtain ⟨rfl, -⟩ := fits_of_readLine hkey hval hline
    have hread : readVal kv.1 kv.2 = val := by
      unfold readVal
      rw [hline]
    show lineOf ((writtenText kv.1 kv.2).take 511) = some (.entry kv.1 (readVal kv.1 kv.2))
    unfold lineOf
    rw [hread, hline]

-- ==== rows

variable (vals : List UInt8 → List UInt8 → List UInt8)

/-- The rows of some nodes, with what is read of their values. -/
def sectionRows (l : List (List UInt8 × Node)) :
    List Row :=
  l.flatMap fun e => e.2.entries.map fun kv => ⟨e.1, kv.1, vals kv.1 kv.2⟩

theorem rowsOf_entries (nodeName : List UInt8) (vals : List UInt8 → List UInt8 → List UInt8)
    (kvs : List (List UInt8 × List UInt8)) (ls : List Line) :
    rowsOf nodeName ((kvs.map fun kv => Line.entry kv.1 (vals kv.1 kv.2)) ++ ls)
      = ((rowsOf nodeName ls).1,
        (kvs.map fun kv => ⟨nodeName, kv.1, vals kv.1 kv.2⟩) ++ (rowsOf nodeName ls).2) := by
  induction kvs with
  | nil => rfl
  | cons kv kvs ih =>
    rw [List.map_cons, List.cons_append, rowsOf, ih]
    rfl

theorem rowsOf_sections
    {l : List (List UInt8 × Node)} (hl : Sorted Prod.fst l) {nodeName : List UInt8}
    (hname : nodeName = [] ∨ ∀ e ∈ l, e.1 ≠ []) :
    rowsOf nodeName (l.flatMap fun e =>
        nameLines e.1 ++ e.2.entries.map fun kv => .entry kv.1 (vals kv.1 kv.2))
      = (true, sectionRows vals l) := by
  induction l generalizing nodeName with
  | nil => rfl
  | cons e l ih =>
    have hrest : ∀ e' ∈ l, e'.1 ≠ [] := by
      intro e' he' hnil
      have hlt := hl.head_lt he'
      rw [hnil] at hlt
      exact absurd hlt (List.not_lt_nil _)
    rw [List.flatMap_cons, List.append_assoc]
    by_cases hglobal : e.1 = []
    · have hnil : nodeName = [] := hname.resolve_right fun h => h e List.mem_cons_self hglobal
      rw [nameLines, if_pos hglobal, List.nil_append, rowsOf_entries, ih hl.tail (.inl hnil),
        hnil, ← hglobal]
      rfl
    · rw [nameLines, if_neg hglobal, List.singleton_append, rowsOf, rowsOf_entries,
        ih hl.tail (.inr hrest)]
      rfl

theorem length_rowsOf_le (nodeName : List UInt8) (ls : List Line) :
    (rowsOf nodeName ls).2.length ≤ ls.countP isEntry := by
  induction ls generalizing nodeName with
  | nil => exact Nat.le_refl 0
  | cons l ls ih =>
    rw [List.countP_cons]
    cases l with
    | skip => exact ih nodeName
    | node nodeName => exact ih nodeName
    | reject => exact Nat.zero_le _
    | entry key val => exact Nat.succ_le_succ (ih nodeName)

theorem length_foldl_put_le (s : IniConfig) (rows : List Row) :
    (rows.foldl IniConfig.put s).mConfigMap.entries.length
      ≤ s.mConfigMap.entries.length + rows.length := by
  induction rows generalizing s with
  | nil => exact Nat.le_refl _
  | cons r rows ih =>
    have hput : (s.put r).mConfigMap.entries.length ≤ s.mConfigMap.entries.length + 1 :=
      SortedMap.length_insert_le
    refine (ih (s.put r)).trans ?_
    rw [List.length_cons]
    omega

theorem mem_sectionRows {vals : List UInt8 → List UInt8 → List UInt8}
    {r : Row} :
    r ∈ sectionRows vals source.entries
      ↔ ∃ val, sourceFind source r.nodeName r.key = some val ∧ vals r.key val = r.val := by
  unfold sectionRows sourceFind
  rw [List.mem_flatMap]
  constructor
  · rintro ⟨e, he, hr⟩
    obtain ⟨kv, hkv, rfl⟩ := List.mem_map.1 hr
    refine ⟨kv.2, ?_, rfl⟩
    rw [SortedMap.find_eq_some_iff.2 he]
    exact SortedMap.find_eq_some_iff.2 hkv
  · rintro ⟨val, hfind, hval⟩
    obtain ⟨node, hnode, hkey⟩ := Option.bind_eq_some_iff.1 hfind
    refine ⟨(r.nodeName, node), SortedMap.find_eq_some_iff.1 hnode, List.mem_map.2
      ⟨(r.key, val), SortedMap.find_eq_some_iff.1 hkey, ?_⟩⟩
    rw [hval]

theorem nodup_fullKeys (h : ∀ e ∈ source.entries, SectionOk e) :
    ((sectionRows vals source.entries).map Row.fullKey).Nodup := by
  have hmap : (sectionRows vals source.entries).map Row.fullKey
      = source.entries.flatMap fun e => e.2.entries.map fun kv => fullKeyOf e.1 kv.1 := by
    unfold sectionRows
    rw [List.map_flatMap]
    refine List.flatMap_congr fun e _ => ?_
    rw [List.map_map]
    rfl
  rw [hmap, List.nodup_flatMap]
  constructor
  · intro e he
    have hok := h e he
    refine List.pairwise_map.2 (e.2.sorted.imp_of_mem fun {kv kv'} hkv hkv' hlt heq => ?_)
    obtain ⟨-, hkey⟩ :=
      fullKeyOf_inj hok.name (hok.keys kv hkv).1 hok.name (hok.keys kv' hkv').1 heq
    exact absurd hkey (ne_of_lt hlt)
  · refine source.sorted.imp_of_mem fun {e e'} he he' hlt => ?_
    intro fullKey hmem hmem'
    obtain ⟨kv, hkv, hkey⟩ := List.mem_map.1 hmem
    obtain ⟨kv', hkv', hkey'⟩ := List.mem_map.1 hmem'
    obtain ⟨hname, -⟩ := fullKeyOf_inj (h e he).name ((h e he).keys kv hkv).1 (h e' he').name
      ((h e' he').keys kv' hkv').1 (hkey.trans hkey'.symm)
    exact absurd hname (ne_of_lt hlt)

-- ==== sections

theorem nonempty_regroup (configMap : SortedMap (List UInt8) (List UInt8)) :
    ∀ nodeName node, (regroup configMap).find nodeName = some node → node.entries ≠ [] := by
  unfold regroup
  suffices hall : ∀ (l : List (List UInt8 × List UInt8)) (source : SortedMap (List UInt8) Node),
      (∀ nodeName node, source.find nodeName = some node → node.entries ≠ []) →
      ∀ nodeName node, (l.foldl (fun source e =>
        putSource source (splitKey e.1).1 (splitKey e.1).2 e.2) source).find nodeName = some node →
        node.entries ≠ [] from hall _ _ fun _ _ hnone => nomatch hnone
  intro l
  induction l with
  | nil => exact fun _ hsource => hsource
  | cons e l ih =>
    intro source hsource
    refine ih _ fun nodeName node hfind => ?_
    unfold putSource at hfind
    rw [SortedMap.find_insert] at hfind
    split at hfind
    · cases hfind
      exact List.ne_nil_of_mem (SortedMap.find_eq_some_iff.1 SortedMap.find_insert_self)
    · exact hsource nodeName node hfind

variable {s : IniConfig}

theorem Clean.sectionOk (h : Clean s) : ∀ e ∈ (regroup s.mConfigMap).entries, SectionOk e := by
  intro e he
  have hnode : (regroup s.mConfigMap).find e.1 = some e.2 := SortedMap.find_eq_some_iff.2 he
  have hentry : ∀ kv ∈ e.2.entries, ∃ c ∈ s.mConfigMap.entries, splitKey c.1 = (e.1, kv.1)
      ∧ c.2 = kv.2 := by
    intro kv hkv
    refine (sourceFind_regroup h.canonical).1 ?_
    unfold sourceFind
    rw [hnode]
    exact SortedMap.find_eq_some_iff.2 hkv
  have hplain (c : List UInt8 × List UInt8) (hc : c ∈ s.mConfigMap.entries) :=
    h c.1 c.2 (SortedMap.find_eq_some_iff.2 hc)
  have hnonempty := nonempty_regroup s.mConfigMap e.1 e.2 hnode
  refine ⟨?_, fun kv hkv => ?_, hnonempty⟩
  · obtain ⟨kv, hkv⟩ := List.exists_mem_of_ne_nil _ hnonempty
    obtain ⟨c, hc, hsplit, -⟩ := hentry kv hkv
    have hname := (hplain c hc).1.allowed.1
    rwa [hsplit] at hname
  · obtain ⟨c, hc, hsplit, hval⟩ := hentry kv hkv
    obtain ⟨hcanonical, hval'⟩ := hplain c hc
    have hkey := hcanonical.allowed.2
    rw [hsplit] at hkey
    exact ⟨hkey, hval ▸ hval'⟩

theorem row_iff (h : Clean s) {nodeName key val : List UInt8} (hname : Allowed nodeName)
    (hkey : Allowed key) :
    sourceFind (regroup s.mConfigMap) nodeName key = some val
      ↔ s.mConfigMap.find (fullKeyOf nodeName key) = some val := by
  rw [sourceFind_regroup h.canonical]
  constructor
  · rintro ⟨e, he, hsplit, rfl⟩
    have hfull := (h.canonical e he).fullKeyOf_splitKey
    rw [hsplit] at hfull
    exact SortedMap.find_eq_some_iff.2 (by rw [hfull]; exact he)
  · intro hfind
    exact ⟨_, SortedMap.find_eq_some_iff.1 hfind, splitKey_fullKeyOf hname hkey, rfl⟩

-- ==== round trip

theorem length_rows (h : Clean s) (vals : List UInt8 → List UInt8 → List UInt8) :
    (sectionRows vals (regroup s.mConfigMap).entries).length = s.mConfigMap.entries.length := by
  have hperm : ((sectionRows vals (regroup s.mConfigMap).entries).map Row.fullKey).Perm
      (s.mConfigMap.entries.map Prod.fst) := by
    refine (List.perm_ext_iff_of_nodup (nodup_fullKeys vals h.sectionOk) (nodup_keys _)).2
      fun fullKey => ?_
    rw [List.mem_map, List.mem_map]
    constructor
    · rintro ⟨r, hr, rfl⟩
      obtain ⟨val, hfind, -⟩ := mem_sectionRows.1 hr
      obtain ⟨c, hc, hsplit, -⟩ := (sourceFind_regroup h.canonical).1 hfind
      have hfull := (h.canonical c hc).fullKeyOf_splitKey
      rw [hsplit] at hfull
      exact ⟨c, hc, hfull.symm⟩
    · rintro ⟨c, hc, rfl⟩
      refine ⟨⟨(splitKey c.1).1, (splitKey c.1).2, vals (splitKey c.1).2 c.2⟩,
        mem_sectionRows.2 ⟨c.2, (sourceFind_regroup h.canonical).2 ⟨c, hc, rfl, rfl⟩, rfl⟩, ?_⟩
      exact (h.canonical c hc).fullKeyOf_splitKey
  have hlen := hperm.length_eq
  rwa [List.length_map, List.length_map] at hlen

theorem length_sectionRows (l : List (List UInt8 × Node)) :
    (sectionRows vals l).length = (l.flatMap fun e => e.2.entries).length := by
  induction l with
  | nil => rfl
  | cons e l ih =>
    have hcons : sectionRows vals (e :: l)
        = (e.2.entries.map fun kv => ⟨e.1, kv.1, vals kv.1 kv.2⟩) ++ sectionRows vals l := rfl
    rw [hcons, List.length_append, ih, List.length_map, List.flatMap_cons, List.length_append]

/-- A file is not read as more entries than there are keys, and as fewer if a line is lost. -/
theorem countP_sections {l : List (List UInt8 × Node)} (h : ∀ e ∈ l, SectionOk e) :
    (l.flatMap fun e => results (sectionText e)).countP isEntry
        ≤ (l.flatMap fun e => e.2.entries).length
      ∧ ((l.flatMap fun e => e.2.entries).length
          ≤ (l.flatMap fun e => results (sectionText e)).countP isEntry → ∀ e ∈ l, Tight e) := by
  induction l with
  | nil => exact ⟨Nat.le_refl 0, fun _ _ he => nomatch he⟩
  | cons e l ih =>
    obtain ⟨he, hl⟩ := List.forall_mem_cons.1 h
    obtain ⟨hle, htight⟩ := section_count he
    obtain ⟨hle', htight'⟩ := ih hl
    rw [List.flatMap_cons, List.flatMap_cons, List.countP_append, List.length_append]
    refine ⟨Nat.add_le_add hle hle', fun hcount => List.forall_mem_cons.2 ⟨?_, ?_⟩⟩
    · exact htight (by omega)
    · exact htight' (by omega)

theorem rows_tight
    (h : ∀ e ∈ source.entries, SectionOk e) (ht : ∀ e ∈ source.entries, Tight e) :
    rowsOf [] (results (fileText source)) = (true, sectionRows readVal source.entries) := by
  unfold fileText
  rw [results_sections, List.flatMap_congr fun e he => results_tight (h e he) (ht e he)]
  exact rowsOf_sections readVal source.sorted (.inl rfl)

theorem find_rows (h : Clean s) (path fullKey v : List UInt8) :
    ((sectionRows readVal (regroup s.mConfigMap).entries).foldl IniConfig.put
        ⟨path, .empty, .empty⟩).mConfigMap.find fullKey = some v
      ↔ ∃ val, s.mConfigMap.find fullKey = some val ∧ readVal (splitKey fullKey).2 val = v := by
  refine (get_foldl_eq_some (g := fun (s : IniConfig) fullKey => s.mConfigMap.find fullKey)
    find_put (nodup_fullKeys readVal h.sectionOk) rfl).trans ?_
  constructor
  · rintro ⟨r, hr, rfl, rfl⟩
    obtain ⟨val, hfind, hval⟩ := mem_sectionRows.1 hr
    obtain ⟨c, hc, hsplit, rfl⟩ := (sourceFind_regroup h.canonical).1 hfind
    have hfull := (h.canonical c hc).fullKeyOf_splitKey
    rw [hsplit] at hfull
    refine ⟨c.2, ?_, ?_⟩
    · show s.mConfigMap.find (fullKeyOf r.nodeName r.key) = some c.2
      rw [hfull]
      exact SortedMap.find_eq_some_iff.2 hc
    · show readVal (splitKey (fullKeyOf r.nodeName r.key)).2 c.2 = r.val
      rw [hfull, hsplit]
      exact hval
  · rintro ⟨val, hfind, rfl⟩
    have hc := SortedMap.find_eq_some_iff.1 hfind
    refine ⟨⟨(splitKey fullKey).1, (splitKey fullKey).2, readVal (splitKey fullKey).2 val⟩,
      mem_sectionRows.2 ⟨val, (sourceFind_regroup h.canonical).2 ⟨_, hc, rfl, rfl⟩, rfl⟩, ?_, rfl⟩
    exact (h.canonical _ hc).fullKeyOf_splitKey

/-- Every line of the node but the last has its line break, and every entry its line. -/
structure Written (e : List UInt8 × Node) : Prop where
  breaks : ∀ p ∈ (piecesOf e).dropLast, p.2 = true
  entries : ∀ kv ∈ e.2.entries, EntryFits 511 kv.1 kv.2

theorem Written.readVal_eq {e : List UInt8 × Node} (h : Written e) (hok : SectionOk e)
    {kv : List UInt8 × List UInt8} (hkv : kv ∈ e.2.entries) : readVal kv.1 kv.2 = kv.2 := by
  unfold readVal
  rw [readLine_fits (hok.keys kv hkv).1 (hok.keys kv hkv).2 (h.entries kv hkv)]

theorem Written.tight {e : List UInt8 × Node} (h : Written e) (hok : SectionOk e) : Tight e :=
  ⟨h.breaks, fun kv hkv =>
    ⟨_, _, readLine_fits (hok.keys kv hkv).1 (hok.keys kv hkv).2 (h.entries kv hkv)⟩⟩

/-- The file of a configuration gives it back exactly if every node is written. Where it does, as
many entries are read as there are pairs, so no line is lost, and so every value fits its line. -/
theorem restored_iff (h : Clean s) (path : List UInt8) :
    ((rowsOf [] (results (fileText (regroup s.mConfigMap)))).1 = true
        ∧ ((rowsOf [] (results (fileText (regroup s.mConfigMap)))).2.foldl IniConfig.put
            ⟨path, .empty, .empty⟩).mConfigMap = s.mConfigMap)
      ↔ ∀ e ∈ (regroup s.mConfigMap).entries, Written e := by
  have hok := h.sectionOk
  have hentry {e : List UInt8 × Node} (he : e ∈ (regroup s.mConfigMap).entries)
      {kv : List UInt8 × List UInt8} (hkv : kv ∈ e.2.entries) :
      s.mConfigMap.find (fullKeyOf e.1 kv.1) = some kv.2 := by
    refine (row_iff h (hok e he).name ((hok e he).keys kv hkv).1).1 ?_
    unfold sourceFind
    rw [SortedMap.find_eq_some_iff.2 he]
    exact SortedMap.find_eq_some_iff.2 hkv
  constructor
  · rintro ⟨-, hmap⟩
    obtain ⟨hle, htight⟩ := countP_sections hok
    have hrows := length_rowsOf_le [] (results (fileText (regroup s.mConfigMap)))
    have hput := length_foldl_put_le ⟨path, .empty, .empty⟩
      (rowsOf [] (results (fileText (regroup s.mConfigMap)))).2
    have hempty : (SortedMap.empty : SortedMap (List UInt8) (List UInt8)).entries.length = 0 := rfl
    rw [hmap, hempty, Nat.zero_add, ← length_rows h readVal, length_sectionRows] at hput
    unfold fileText at hrows hput
    rw [results_sections] at hrows hput
    have htight := htight (hput.trans hrows)
    rw [rows_tight hok htight] at hmap
    intro e he
    refine ⟨(htight e he).breaks, fun kv hkv => ?_⟩
    obtain ⟨hkey, hval⟩ := (hok e he).keys kv hkv
    obtain ⟨key, val, hline⟩ := (htight e he).entries kv hkv
    refine (fits_of_readLine hkey hval hline).2 ?_
    have hfind := hentry he hkv
    have hback := hfind
    rw [← hmap] at hback
    obtain ⟨val', hfind', hread⟩ := (find_rows h path _ _).1 hback
    rw [hfind] at hfind'
    rw [splitKey_fullKeyOf (hok e he).name hkey, ← Option.some_inj.1 hfind', readVal,
      hline] at hread
    exact hread
  · intro hwritten
    rw [rows_tight hok fun e he => (hwritten e he).tight (hok e he)]
    refine ⟨rfl, SortedMap.ext_find fun fullKey => Option.ext fun v => ?_⟩
    have hsame {val : List UInt8} (hfind : s.mConfigMap.find fullKey = some val) :
        readVal (splitKey fullKey).2 val = val := by
      have hc := SortedMap.find_eq_some_iff.1 hfind
      have hsource : sourceFind (regroup s.mConfigMap) (splitKey fullKey).1 (splitKey fullKey).2
          = some val := (sourceFind_regroup h.canonical).2 ⟨_, hc, rfl, rfl⟩
      obtain ⟨node, hnode, hkey⟩ := Option.bind_eq_some_iff.1 hsource
      have he := SortedMap.find_eq_some_iff.1 hnode
      exact (hwritten _ he).readVal_eq (hok _ he) (SortedMap.find_eq_some_iff.1 hkey)
    refine (find_rows h path fullKey v).trans ?_
    constructor
    · rintro ⟨val, hfind, rfl⟩
      rw [hsame hfind]
      exact hfind
    · exact fun hfind => ⟨v, hfind, hsame hfind⟩

-- ==== writable

/-- A node whose lines all fit the buffer of `keep`, with their line breaks up to the last, and
whose values do not look like syntax. -/
structure Writable (e : List UInt8 × Node) : Prop where
  name : e.1 = [] ∨ e.1.length + 2 < 511
  lines : ∀ kv ∈ e.2.entries.dropLast, kv.1.length + 3 + kv.2.length < 511
  entries : ∀ kv ∈ e.2.entries, EntryFits 511 kv.1 kv.2

theorem length_writtenText {key val : List UInt8} (h : 0 ∉ val) :
    (writtenText key val).length = key.length + 3 + val.length := by
  unfold writtenText
  rw [cString_of_not_mem h]
  simp only [List.length_append, List.length_cons]
  omega

theorem written_iff {e : List UInt8 × Node} (hok : SectionOk e) : Written e ↔ Writable e := by
  have hpieces : (piecesOf e).dropLast
      = namePieces e.1 ++ e.2.entries.dropLast.map fun kv => cutLine (writtenText kv.1 kv.2) := by
    rw [piecesOf, List.dropLast_append_of_ne_nil (by simp [hok.nonempty]), List.map_dropLast]
  have hname : (∀ p ∈ namePieces e.1, p.2 = true) ↔ (e.1 = [] ∨ e.1.length + 2 < 511) := by
    unfold namePieces
    by_cases hnil : e.1 = []
    · rw [if_pos hnil]
      exact ⟨fun _ => .inl hnil, fun _ _ hp => nomatch hp⟩
    · rw [if_neg hnil]
      have hlen : (0x5b :: e.1 ++ [0x5d]).length = e.1.length + 2 := by simp
      constructor
      · intro h
        have hshort := of_decide_eq_true (h _ (List.mem_singleton.2 rfl))
        exact .inr (hlen ▸ hshort)
      · intro h p hp
        rw [List.mem_singleton.1 hp]
        exact decide_eq_true (hlen ▸ h.resolve_left hnil)
  constructor
  · rintro ⟨hbreaks, hentries⟩
    rw [hpieces] at hbreaks
    refine ⟨hname.1 fun p hp => hbreaks p (List.mem_append_left _ hp), fun kv hkv => ?_, hentries⟩
    have hshort := of_decide_eq_true (hbreaks _ (List.mem_append_right _ (List.mem_map_of_mem hkv)))
    rwa [length_writtenText (hentries kv (List.mem_of_mem_dropLast hkv)).noNul] at hshort
  · rintro ⟨hnode, hlines, hentries⟩
    refine ⟨fun p hp => ?_, hentries⟩
    rw [hpieces] at hp
    rcases List.mem_append.1 hp with hp | hp
    · exact hname.2 hnode p hp
    · obtain ⟨kv, hkv, rfl⟩ := List.mem_map.1 hp
      refine decide_eq_true ?_
      rw [length_writtenText (hentries kv (List.mem_of_mem_dropLast hkv)).noNul]
      exact hlines kv hkv

/-- A successful keep whose close loses nothing gives the configuration back exactly if every
node can be written. -/
theorem parser_keep_iff (h : Clean s) {file text : List UInt8} {fopen : List UInt8 → Option Sink}
    {s' : IniConfig} (hkeep : s.keep file fopen = (true, s', text))
    (hclose : ClosesWhole s file fopen) (u : IniConfig) {path : List UInt8}
    {fopen' : List UInt8 → Option (List UInt8)} (hopen : fopen' path = some text) :
    ((u.parser path fopen').1 = true ∧ (u.parser path fopen').2.mConfigMap = s.mConfigMap)
      ↔ ∀ e ∈ (regroup s.mConfigMap).entries, Writable e := by
  rw [parser_eq, hopen]
  dsimp only
  rw [fileRows_eq, results_keep hkeep hclose, restored_iff h path]
  exact forall₂_congr fun e he => written_iff (h.sectionOk e he)

/-- The entries that a file has in front of the first line that is rejected. -/
def entriesOf (fopen : List UInt8 → Option (List UInt8)) (path : List UInt8) : List Row :=
  (fopen path).elim [] fun text => (fileRows text).2

theorem value_parser_iff (s : IniConfig) (path : List UInt8)
    (fopen : List UInt8 → Option (List UInt8)) :
    (∀ key, (s.parser path fopen).2.value key = []) ↔ LeavesNothing (entriesOf fopen path) := by
  rw [parser_eq]
  unfold entriesOf
  cases fopen path with
  | none => exact unreadable_iff path []
  | some text => exact unreadable_iff path (fileRows text).2

/-- In every run with keys of the letters the parser allows and values of one line without blanks
at their ends: a configuration that was kept, and of whose file the close lost nothing, is parsed
again as it was exactly if every node can be written; after every parser and successful keep the
maps describe the same pairs; and a file that is rejected leaves nothing exactly if it has no
values in front of the line that is rejected. -/
theorem ini_round_trip_iff {ops : List IniOp} (hops : ∀ op ∈ ops, op.Ok) :
    (∀ file fopen s' text, (run IniConfig.step .init ops).keep file fopen = (true, s', text) →
        ClosesWhole (run IniConfig.step .init ops) file fopen →
        ∀ (u : IniConfig) (path : List UInt8) (fopen' : List UInt8 → Option (List UInt8)),
          fopen' path = some text →
          (((u.parser path fopen').1 = true
              ∧ (u.parser path fopen').2.mConfigMap = (run IniConfig.step .init ops).mConfigMap)
            ↔ ∀ e ∈ (regroup (run IniConfig.step .init ops).mConfigMap).entries, Writable e))
      ∧ (∀ path fopen, Same ((run IniConfig.step .init ops).parser path fopen).2)
      ∧ (∀ file fopen, ((run IniConfig.step .init ops).keep file fopen).1 = true →
          Same ((run IniConfig.step .init ops).keep file fopen).2.1)
      ∧ ∀ path fopen, ((run IniConfig.step .init ops).parser path fopen).1 = false →
          ((∀ key, ((run IniConfig.step .init ops).parser path fopen).2.value key = [])
            ↔ LeavesNothing (entriesOf fopen path)) := by
  have hclean := clean_run hops
  refine ⟨fun file fopen s' text hkeep hclose u path fopen' hopen => ?_, fun path fopen => ?_,
    fun file fopen hkeep => ?_, fun path fopen _ => ?_⟩
  · exact parser_keep_iff hclean hkeep hclose u hopen
  · exact same_parsed _ path fopen
  · exact same_keep hclean hkeep
  · exact value_parser_iff _ path fopen

/-- The keys `a` and `n.b`, kept and parsed again. -/
theorem ini_kept_again :
    let s := run IniConfig.step .init
      [.subscript (ascii "a"), .write (ascii "a") (ascii "1 = #2"), .subscript (ascii "n.b")]
    (s.keep (ascii "f") fun _ => some ⟨1000, 1000, false, 1000⟩).2.2
      = ascii "a = 1 = #2\n\n[n]\nb = \n"
      ∧ (s.parser (ascii "f") fun _ => some (ascii "a = 1 = #2\n\n[n]\nb = \n")).1 = true
      ∧ (s.parser (ascii "f") fun _ => some (ascii "a = 1 = #2\n\n[n]\nb = \n")).2.mConfigMap
        = s.mConfigMap := by
  intro s
  have hops : ∀ op ∈ ([.subscript (ascii "a"), .write (ascii "a") (ascii "1 = #2"),
      .subscript (ascii "n.b")] : List IniOp), op.Ok := by
    have hplain : Plain (ascii "1 = #2") :=
      ⟨⟨by decide +kernel, by decide +kernel⟩, by decide +kernel⟩
    have ha : KeyOk (ascii "a") := by unfold KeyOk; decide
    have hb : KeyOk (ascii "n.b") := by unfold KeyOk; decide
    simpa [IniOp.Ok] using ⟨ha, ⟨ha, hplain⟩, hb⟩
  have hkeep : s.keep (ascii "f") (fun _ => some ⟨1000, 1000, false, 1000⟩)
      = (true, (s.keep (ascii "f") fun _ => some ⟨1000, 1000, false, 1000⟩).2.1,
        ascii "a = 1 = #2\n\n[n]\nb = \n") := by
    decide +kernel
  have hentries : (regroup s.mConfigMap).entries.map (fun e => (e.1, e.2.entries))
      = [([], [(ascii "a", ascii "1 = #2")]), (ascii "n", [(ascii "b", [])])] := by
    decide +kernel
  have hclose : ClosesWhole s (ascii "f") fun _ => some ⟨1000, 1000, false, 1000⟩ := by
    intro fp hfp
    cases hfp
    show (keepText s).length ≤ 1000
    decide +kernel
  refine ⟨congrArg (fun r => r.2.2) hkeep,
    ((ini_round_trip_iff hops).1 _ _ _ _ hkeep hclose s _ _ rfl).2 fun e he => ?_⟩
  have hmem := List.mem_map_of_mem (f := fun e : List UInt8 × Node => (e.1, e.2.entries)) he
  rw [hentries] at hmem
  rcases List.mem_cons.1 hmem with heq | hmem
  · obtain ⟨hname, hnode⟩ := Prod.mk.inj heq
    refine ⟨.inl hname, ?_, ?_⟩
    · rw [hnode]
      exact fun kv hkv => nomatch hkv
    · rw [hnode]
      intro kv hkv
      rw [List.mem_singleton.1 hkv]
      exact ⟨by decide, by decide, by decide, by decide, by decide⟩
  · obtain ⟨hname, hnode⟩ := Prod.mk.inj (List.mem_singleton.1 hmem)
    refine ⟨.inr (by rw [hname]; decide), ?_, ?_⟩
    · rw [hnode]
      exact fun kv hkv => nomatch hkv
    · rw [hnode]
      intro kv hkv
      rw [List.mem_singleton.1 hkv]
      exact ⟨by decide, by decide, by decide, by decide, by decide⟩

/-- A value in brackets is kept and parsed as the name of a node, so its key is gone; where the
close finds no room, a keep that said yes leaves an empty file; and of a file whose second line is
rejected the first stays readable. -/
theorem ini_bracket_lost :
    let s := run IniConfig.step .init [.subscript (ascii "a"), .write (ascii "a") (ascii "[b]")]
    ((s.keep (ascii "f") fun _ => some ⟨1000, 1000, false, 1000⟩).1 = true
      ∧ (s.keep (ascii "f") fun _ => some ⟨1000, 1000, false, 1000⟩).2.2 = ascii "a = [b]\n\n"
      ∧ (s.parser (ascii "f") fun _ => some (ascii "a = [b]\n\n")).1 = true
      ∧ (s.parser (ascii "f") fun _ => some (ascii "a = [b]\n\n")).2.mConfigMap ≠ s.mConfigMap)
    ∧ ((s.keep (ascii "f") fun _ => some ⟨1000, 1000, false, 0⟩).1 = true
      ∧ (s.keep (ascii "f") fun _ => some ⟨1000, 1000, false, 0⟩).2.2 = []
      ∧ (s.parser (ascii "f") fun _ => some []).2.mConfigMap ≠ s.mConfigMap)
    ∧ (s.parser (ascii "f") fun _ => some (ascii "a = 1\nb\n")).1 = false
    ∧ (s.parser (ascii "f") fun _ => some (ascii "a = 1\nb\n")).2.value (ascii "a")
      = ascii "1" := by
  decide +kernel

end Eular.Config.Ini
