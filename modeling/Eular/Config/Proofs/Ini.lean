/-
What an INI configuration keeps in its two maps.

The keys that the parser takes, and those it could, are `Canonical`: a node and
a key of the letters it allows, so that the full key tells both
(`splitKey_fullKeyOf`). A run keeps every key canonical and every value
without a line break and without blanks at its ends (`clean_run`), and so the
maps describe the same pairs after a parser and after a keep (`same_parsed`,
`same_keep`). What the parser does is what its lines are, one after another
(`parser_eq`).
-/
import Eular.Config.Ini
import Eular.Lib.Run

namespace Eular.Config.Ini

open Lib

variable {s : IniConfig}

-- ==== keys

theorem Allowed.not_mem {s : List UInt8} (h : Allowed s) {c : UInt8} (hc : c ∉ escapeString) :
    c ∉ s := fun hmem => hc (h c hmem)

theorem allowed_nil : Allowed [] := fun _ h => nomatch h

def Canonical (fullKey : List UInt8) : Prop :=
  ∃ nodeName key, Allowed nodeName ∧ Allowed key ∧ fullKeyOf nodeName key = fullKey

theorem splitKey_fullKeyOf {nodeName key : List UInt8} (hnode : Allowed nodeName)
    (hkey : Allowed key) : splitKey (fullKeyOf nodeName key) = (nodeName, key) := by
  have hdot : (0x2e : UInt8) ∉ escapeString := by decide
  unfold splitKey fullKeyOf
  by_cases hnil : nodeName = []
  · have hall : key.dropWhile (fun c => decide (c ≠ 0x2e)) = [] :=
      List.dropWhile_eq_nil_iff.2 fun c hc =>
        decide_eq_true (ne_of_mem_of_not_mem hc (hkey.not_mem hdot))
    rw [if_pos hnil, hall, hnil]
  · have hall : ∀ c ∈ nodeName, decide (c ≠ 0x2e) = true := fun c hc =>
      decide_eq_true (ne_of_mem_of_not_mem hc (hnode.not_mem hdot))
    have hdrop : (nodeName ++ 0x2e :: key).dropWhile (fun c => decide (c ≠ 0x2e))
        = 0x2e :: key := by
      rw [List.dropWhile_append_of_pos hall]
      rfl
    have htake : (nodeName ++ 0x2e :: key).takeWhile (fun c => decide (c ≠ 0x2e)) = nodeName := by
      rw [List.takeWhile_append_of_pos hall]
      exact List.append_nil _
    rw [if_neg hnil, hdrop, htake]

theorem Canonical.fullKeyOf_splitKey {fullKey : List UInt8} (h : Canonical fullKey) :
    fullKeyOf (splitKey fullKey).1 (splitKey fullKey).2 = fullKey := by
  obtain ⟨nodeName, key, hnode, hkey, rfl⟩ := h
  rw [splitKey_fullKeyOf hnode hkey]

theorem Canonical.allowed {fullKey : List UInt8} (h : Canonical fullKey) :
    Allowed (splitKey fullKey).1 ∧ Allowed (splitKey fullKey).2 := by
  obtain ⟨nodeName, key, hnode, hkey, rfl⟩ := h
  rw [splitKey_fullKeyOf hnode hkey]
  exact ⟨hnode, hkey⟩

theorem fullKeyOf_inj {nodeName key nodeName' key' : List UInt8} (hnode : Allowed nodeName)
    (hkey : Allowed key) (hnode' : Allowed nodeName') (hkey' : Allowed key')
    (h : fullKeyOf nodeName key = fullKeyOf nodeName' key') :
    nodeName = nodeName' ∧ key = key' := by
  have hsplit := splitKey_fullKeyOf hnode hkey
  rw [h, splitKey_fullKeyOf hnode' hkey'] at hsplit
  cases hsplit
  exact ⟨rfl, rfl⟩

-- ==== maps

/-- What `mSourceMap` has of a node's key. -/
def sourceFind (source : SortedMap (List UInt8) Node) (nodeName key : List UInt8) :
    Option (List UInt8) :=
  (source.find nodeName).bind fun node => node.find key

theorem sourceFind_putSource (source : SortedMap (List UInt8) Node)
    (nodeName key val nodeName' key' : List UInt8) :
    sourceFind (putSource source nodeName key val) nodeName' key'
      = if nodeName' = nodeName ∧ key' = key then some val
        else sourceFind source nodeName' key' := by
  unfold sourceFind putSource
  rw [SortedMap.find_insert]
  by_cases hnode : nodeName' = nodeName
  · rw [if_pos hnode, Option.bind_some, SortedMap.find_insert, hnode]
    by_cases hkey : key' = key
    · rw [if_pos hkey, if_pos ⟨rfl, hkey⟩]
    · rw [if_neg hkey, if_neg fun hboth => hkey hboth.2]
      cases source.find nodeName with
      | none => rfl
      | some node => rfl
  · rw [if_neg hnode, if_neg fun hboth => hnode hboth.1]

/-- The maps describe the same pairs. -/
def Same (s : IniConfig) : Prop :=
  (∀ nodeName key val, sourceFind s.mSourceMap nodeName key = some val →
      s.mConfigMap.find (fullKeyOf nodeName key) = some val)
    ∧ ∀ fullKey val, s.mConfigMap.find fullKey = some val →
      ∃ nodeName key, fullKeyOf nodeName key = fullKey
        ∧ sourceFind s.mSourceMap nodeName key = some val

-- ==== parser

structure Row where
  nodeName : List UInt8
  key : List UInt8
  val : List UInt8

def Row.fullKey (r : Row) : List UInt8 := fullKeyOf r.nodeName r.key

/-- An entry of the file is put into both maps. -/
def IniConfig.put (s : IniConfig) (r : Row) : IniConfig :=
  { s with
    mConfigMap := s.mConfigMap.insert r.fullKey r.val
    mSourceMap := putSource s.mSourceMap r.nodeName r.key r.val }

/-- The entries up to the first line that is rejected, and whether there is none. -/
def rowsOf (nodeName : List UInt8) : List Line → Bool × List Row
  | [] => (true, [])
  | .skip :: ls => rowsOf nodeName ls
  | .node nodeName :: ls => rowsOf nodeName ls
  | .reject :: _ => (false, [])
  | .entry key val :: ls => ((rowsOf nodeName ls).1, ⟨nodeName, key, val⟩ :: (rowsOf nodeName ls).2)

theorem parserLoop_eq (nodeName : List UInt8) (s : IniConfig) (bufs : List (List UInt8)) :
    s.parserLoop nodeName bufs
      = ((rowsOf nodeName (bufs.map readLine)).1,
        (rowsOf nodeName (bufs.map readLine)).2.foldl IniConfig.put s) := by
  induction bufs generalizing nodeName s with
  | nil => rfl
  | cons buf bufs ih =>
    rw [IniConfig.parserLoop, List.map_cons]
    cases readLine buf with
    | skip => exact ih nodeName s
    | node nodeName => exact ih nodeName s
    | reject => rfl
    | entry key val => exact ih nodeName (s.put ⟨nodeName, key, val⟩)

def fileRows (text : List UInt8) : Bool × List Row :=
  rowsOf [] ((lines 0x0a 1023 text).map readLine)

theorem parser_eq (s : IniConfig) (configPath : List UInt8)
    (fopen : List UInt8 → Option (List UInt8)) :
    s.parser configPath fopen
      = match fopen configPath with
        | none => (false, ⟨configPath, .empty, .empty⟩)
        | some text =>
          ((fileRows text).1,
            (fileRows text).2.foldl IniConfig.put ⟨configPath, .empty, .empty⟩) := by
  unfold IniConfig.parser
  cases fopen configPath with
  | none => rfl
  | some text => exact parserLoop_eq [] _ _

theorem find_put (s : IniConfig) (r : Row) (fullKey : List UInt8) :
    (s.put r).mConfigMap.find fullKey
      = if fullKey = r.fullKey then some r.val else s.mConfigMap.find fullKey := by
  show (s.mConfigMap.insert r.fullKey r.val).find fullKey = _
  rw [SortedMap.find_insert]
  by_cases h : fullKey = r.fullKey
  · rw [if_pos h, if_pos h]
  · rw [if_neg h, if_neg h]

-- ==== same

/-- The maps describe the same pairs, and nodes and keys are of the letters that are allowed. -/
structure Consistent (s : IniConfig) : Prop where
  same : Same s
  allowed : ∀ nodeName key val, sourceFind s.mSourceMap nodeName key = some val →
    Allowed nodeName ∧ Allowed key

theorem consistent_empty (path : List UInt8) : Consistent ⟨path, .empty, .empty⟩ :=
  ⟨⟨fun _ _ _ h => (nomatch h), fun _ _ h => (nomatch h)⟩, fun _ _ _ h => (nomatch h)⟩

theorem Consistent.put (h : Consistent s) {r : Row} (hnode : Allowed r.nodeName)
    (hkey : Allowed r.key) : Consistent (s.put r) := by
  have hfind (nodeName key : List UInt8) : sourceFind (s.put r).mSourceMap nodeName key
      = if nodeName = r.nodeName ∧ key = r.key then some r.val
        else sourceFind s.mSourceMap nodeName key := sourceFind_putSource _ _ _ _ _ _
  refine ⟨⟨fun nodeName key val hval => ?_, fun fullKey val hval => ?_⟩,
    fun nodeName key val hval => ?_⟩
  · rw [hfind] at hval
    rw [find_put]
    by_cases hsame : nodeName = r.nodeName ∧ key = r.key
    · obtain ⟨rfl, rfl⟩ := hsame
      rw [if_pos ⟨rfl, rfl⟩] at hval
      exact (if_pos rfl).trans hval
    · rw [if_neg hsame] at hval
      obtain ⟨hnode', hkey'⟩ := h.allowed _ _ _ hval
      have hother : fullKeyOf nodeName key ≠ r.fullKey := fun heq =>
        hsame (fullKeyOf_inj hnode' hkey' hnode hkey heq)
      rw [if_neg hother]
      exact h.same.1 _ _ _ hval
  · rw [find_put] at hval
    by_cases hsame : fullKey = r.fullKey
    · rw [if_pos hsame] at hval
      refine ⟨r.nodeName, r.key, hsame.symm, ?_⟩
      rw [hfind, if_pos ⟨rfl, rfl⟩]
      exact hval
    · rw [if_neg hsame] at hval
      obtain ⟨nodeName, key, rfl, hold⟩ := h.same.2 _ _ hval
      refine ⟨nodeName, key, rfl, ?_⟩
      rw [hfind, if_neg]
      · exact hold
      · rintro ⟨rfl, rfl⟩
        exact hsame rfl
  · rw [hfind] at hval
    by_cases hsame : nodeName = r.nodeName ∧ key = r.key
    · obtain ⟨rfl, rfl⟩ := hsame
      exact ⟨hnode, hkey⟩
    · rw [if_neg hsame] at hval
      exact h.allowed _ _ _ hval

-- ==== lines

theorem allowed_of_node {buf nodeName : List UInt8} (h : readLine buf = .node nodeName) :
    Allowed nodeName := by
  unfold readLine at h
  split at h
  · cases h
  · split at h
    · cases h
    · split at h
      · dsimp only at h
        split at h
        · cases h
        · rename_i hok
          cases h
          intro c hc
          by_contra hno
          exact hok ⟨List.ne_nil_of_mem hc, fun hall => hno (hall c hc)⟩
      · dsimp only at h
        split at h
        · cases h
        · split at h <;> cases h

theorem of_entry {buf key val : List UInt8} (h : readLine buf = .entry key val) :
    ∃ line, trim ((cString buf).takeWhile (· ≠ 0x3b)) = (true, line) ∧ bracketed line = none
      ∧ 0x3d ∈ line ∧ key = (trim (line.takeWhile (· ≠ 0x3d))).2
      ∧ val = (trim (line.dropWhile (· ≠ 0x3d)).tail).2 ∧ key ≠ [] ∧ Allowed key
      ∧ buf.head? ≠ some 0x3b := by
  unfold readLine at h
  split at h
  · cases h
  · rename_i hcomment
    split at h
    · cases h
    · rename_i line hline
      split at h
      · dsimp only at h
        split at h <;> cases h
      · rename_i hbracket
        split at h
        · cases h
        · rename_i hequal
          dsimp only at h
          split at h
          · cases h
          · rename_i hkey
            cases h
            rw [not_or, not_not] at hkey
            exact ⟨line, hline, hbracket, not_not.1 hequal, rfl, rfl, hkey.1, hkey.2, hcomment⟩

-- ==== blanks

structure Trimmed (s : List UInt8) : Prop where
  head : ∀ c ∈ s.head?, isBlank c = false
  last : ∀ c ∈ s.getLast?, isBlank c = false

theorem trimmed_nil : Trimmed [] := ⟨fun _ h => (nomatch h), fun _ h => (nomatch h)⟩

theorem Trimmed.not_all {s : List UInt8} (h : Trimmed s) (hne : s ≠ []) :
    s.all isBlank = false := by
  obtain ⟨c, t, rfl⟩ := List.exists_cons_of_ne_nil hne
  rw [List.all_cons, h.head c rfl, Bool.false_and]

theorem trim_eq {a core b : List UInt8} (ha : ∀ c ∈ a, isBlank c = true)
    (hb : ∀ c ∈ b, isBlank c = true) (h : Trimmed core) (hne : core ≠ []) :
    trim (a ++ core ++ b) = (true, core) := by
  have hcore := h.not_all hne
  have hall : (a ++ core ++ b).all isBlank = false := by
    rw [List.all_append, List.all_append, hcore, Bool.and_false, Bool.false_and]
  have hdrop : (a ++ core ++ b).dropWhile isBlank = core ++ b := by
    rw [List.append_assoc, List.dropWhile_append_of_pos ha]
    obtain ⟨c, t, rfl⟩ := List.exists_cons_of_ne_nil hne
    exact List.dropWhile_cons_of_neg (by rw [h.head c rfl]; exact Bool.false_ne_true)
  have hrdrop : (core ++ b).rdropWhile isBlank = core := by
    have hlast : core.reverse.dropWhile isBlank = core.reverse := by
      cases hrev : core.reverse with
      | nil => rfl
      | cons c t =>
        have hmem : c ∈ core.getLast? := by
          rw [← List.head?_reverse, hrev]
          rfl
        exact List.dropWhile_cons_of_neg (by rw [h.last c hmem]; exact Bool.false_ne_true)
    rw [List.rdropWhile, List.reverse_append,
      List.dropWhile_append_of_pos fun c hc => hb c (List.mem_reverse.1 hc), hlast,
      List.reverse_reverse]
  unfold trim
  rw [hall, if_neg Bool.false_ne_true, hdrop, hrdrop]

theorem trim_of_trimmed {s : List UInt8} (h : Trimmed s) : (trim s).2 = s := by
  by_cases hne : s = []
  · rw [hne]
    rfl
  · have heq := trim_eq (a := []) (b := []) (fun _ h => nomatch h) (fun _ h => nomatch h) h hne
    rw [List.nil_append, List.append_nil] at heq
    rw [heq]

theorem trim_cases (s : List UInt8) :
    (s.all isBlank = true ∧ trim s = (false, s))
      ∨ ∃ a core b, s = a ++ core ++ b ∧ (∀ c ∈ a, isBlank c = true) ∧ (∀ c ∈ b, isBlank c = true)
        ∧ Trimmed core ∧ core ≠ [] ∧ trim s = (true, core) := by
  cases hall : s.all isBlank with
  | true => exact .inl ⟨rfl, by rw [trim, hall, if_pos rfl]⟩
  | false =>
    right
    have hsplit : s.takeWhile isBlank ++ s.dropWhile isBlank = s :=
      List.takeWhile_append_dropWhile
    have hback : (s.dropWhile isBlank).rdropWhile isBlank
        ++ (s.dropWhile isBlank).rtakeWhile isBlank = s.dropWhile isBlank :=
      List.rdropWhile_append_rtakeWhile
    have hne : (s.dropWhile isBlank).rdropWhile isBlank ≠ [] := by
      intro hnil
      rw [List.rdropWhile_eq_nil_iff] at hnil
      have hblank : s.all isBlank = true := by
        rw [← hsplit, List.all_append, Bool.and_eq_true, List.all_eq_true, List.all_eq_true]
        exact ⟨fun c hc => List.mem_takeWhile_imp hc, hnil⟩
      rw [hall] at hblank
      cases hblank
    refine ⟨s.takeWhile isBlank, _, (s.dropWhile isBlank).rtakeWhile isBlank, ?_,
      fun c hc => List.mem_takeWhile_imp hc, fun c hc => List.mem_rtakeWhile_imp hc, ⟨?_, ?_⟩,
      hne, by rw [trim, hall, if_neg Bool.false_ne_true]⟩
    · rw [List.append_assoc, hback, hsplit]
    · intro c hc
      have hhead := List.head?_dropWhile_not isBlank s
      obtain ⟨t, ht⟩ := List.head?_eq_some_iff.1 hc
      rw [← hback, ht, List.cons_append, List.head?_cons] at hhead
      exact hhead
    · intro c hc
      have hlast := List.rdropWhile_last_not isBlank (s.dropWhile isBlank) hne
      rw [List.getLast?_eq_some_getLast hne] at hc
      cases hc
      exact Bool.eq_false_iff.2 hlast

/-- A value without a line break and without blanks at its ends. -/
structure Plain (val : List UInt8) : Prop extends Trimmed val where
  noBreak : 0x0a ∉ val

theorem plain_nil : Plain [] := ⟨trimmed_nil, List.not_mem_nil⟩

theorem Trimmed.tail_of {s before : List UInt8} (h : Trimmed (before ++ s)) :
    (trim s).2 = [] ∨ Trimmed (trim s).2 := by
  rcases trim_cases s with ⟨hall, htrim⟩ | ⟨a, core, b, -, -, -, hcore, -, htrim⟩
  · left
    rw [htrim]
    by_contra hne
    have hlast := h.last (s.getLast hne) (by
      rw [List.getLast?_append_of_ne_nil _ hne]
      exact List.getLast?_eq_some_getLast hne)
    rw [List.all_eq_true] at hall
    rw [hall _ (List.getLast_mem hne)] at hlast
    cases hlast
  · right
    rw [htrim]
    exact hcore

theorem mem_trim {s : List UInt8} {c : UInt8} (h : c ∈ (trim s).2) : c ∈ s := by
  rcases trim_cases s with ⟨-, htrim⟩ | ⟨a, core, b, rfl, -, -, -, -, htrim⟩
  · rw [htrim] at h
    exact h
  · rw [htrim] at h
    exact List.mem_append_left _ (List.mem_append_right _ h)

/-- A line of the file has its line break, if any, at its end, and it is trimmed off. -/
theorem not_mem_break {buf line : List UInt8} {t : List UInt8} (ht : 0x0a ∉ t)
    (hbuf : buf = t ∨ buf = t ++ [0x0a])
    (htrim : trim ((cString buf).takeWhile (· ≠ 0x3b)) = (true, line)) : 0x0a ∉ line := by
  intro hmem
  rcases trim_cases ((cString buf).takeWhile (· ≠ 0x3b)) with
    ⟨-, heq⟩ | ⟨a, core, b, hsplit, -, -, hcore, hne, heq⟩
  · rw [htrim] at heq
    cases heq
  · rw [htrim] at heq
    cases heq
    obtain ⟨rest, hrest⟩ : ∃ rest, buf = a ++ line ++ b ++ rest := by
      have hprefix := (List.takeWhile_prefix (l := cString buf) fun c => decide (c ≠ 0x3b)).trans
        (List.takeWhile_prefix (l := buf) fun c => decide (c ≠ 0))
      obtain ⟨rest, hrest⟩ := hprefix
      exact ⟨rest, by rw [← hrest, hsplit]⟩
    -- the line break is not the last of the line, so that it is before the end of what was read
    obtain ⟨p, q, rfl⟩ := List.append_of_mem hmem
    have hq : q ≠ [] := by
      rintro rfl
      exact absurd (hcore.last 0x0a (by simp)) (by decide)
    have hbefore : 0x0a ∈ buf.dropLast := by
      have hall : buf = (a ++ p) ++ 0x0a :: (q ++ b ++ rest) := by
        rw [hrest]
        simp
      rw [hall, List.dropLast_append_of_ne_nil (List.cons_ne_nil _ _),
        List.dropLast_cons_of_ne_nil (by simp [hq])]
      exact List.mem_append_right _ List.mem_cons_self
    rcases hbuf with rfl | rfl
    · exact ht (List.mem_of_mem_dropLast hbefore)
    · rw [List.dropLast_concat] at hbefore
      exact ht hbefore

theorem plain_of_entry {buf t key val : List UInt8} (ht : 0x0a ∉ t)
    (hbuf : buf = t ∨ buf = t ++ [0x0a]) (h : readLine buf = .entry key val) :
    Allowed key ∧ Plain val := by
  obtain ⟨line, htrim, -, hequal, -, rfl, -, hkey, -⟩ := of_entry h
  have hbreak := not_mem_break ht hbuf htrim
  have hline : Trimmed line := by
    rcases trim_cases ((cString buf).takeWhile (· ≠ 0x3b)) with
      ⟨-, heq⟩ | ⟨a, core, b, -, -, -, hcore, -, heq⟩
    · rw [htrim] at heq
      cases heq
    · rw [htrim] at heq
      cases heq
      exact hcore
  obtain ⟨p, q, rfl⟩ := List.append_of_mem hequal
  have hsub : ∀ c ∈ ((p ++ 0x3d :: q).dropWhile (· ≠ 0x3d)).tail, c ∈ p ++ 0x3d :: q :=
    fun c hc => (List.dropWhile_sublist _).subset (List.mem_of_mem_tail hc)
  have hval : (trim ((p ++ 0x3d :: q).dropWhile (· ≠ 0x3d)).tail).2 = []
      ∨ Trimmed (trim ((p ++ 0x3d :: q).dropWhile (· ≠ 0x3d)).tail).2 := by
    obtain ⟨front, hfront⟩ := (List.tail_suffix _).trans
      (List.dropWhile_suffix (l := p ++ 0x3d :: q) fun c => decide (c ≠ 0x3d))
    rw [← hfront] at hline
    exact hline.tail_of
  refine ⟨hkey, ?_, fun hmem => hbreak (hsub _ (mem_trim hmem))⟩
  rcases hval with hnil | htrimmed
  · rw [hnil]
    exact trimmed_nil
  · exact htrimmed

-- ==== rows

/-- A row that the parser can read. -/
structure Row.Readable (r : Row) : Prop where
  nodeName : Allowed r.nodeName
  key : Allowed r.key
  val : Plain r.val

theorem readable_rowsOf {nodeName : List UInt8} (h : Allowed nodeName) {bufs : List (List UInt8)}
    (hbufs : ∀ buf ∈ bufs, ∃ t, 0x0a ∉ t ∧ (buf = t ∨ buf = t ++ [0x0a])) :
    ∀ r ∈ (rowsOf nodeName (bufs.map readLine)).2, r.Readable := by
  induction bufs generalizing nodeName with
  | nil => exact fun r hr => nomatch hr
  | cons buf bufs ih =>
    obtain ⟨⟨t, ht, hbuf⟩, hrest⟩ := List.forall_mem_cons.1 hbufs
    rw [List.map_cons]
    cases hline : readLine buf with
    | skip => exact ih h hrest
    | node nodeName => exact ih (allowed_of_node hline) hrest
    | reject => exact fun r hr => nomatch hr
    | entry key val =>
      obtain ⟨hkey, hval⟩ := plain_of_entry ht hbuf hline
      exact List.forall_mem_cons.2 ⟨⟨h, hkey, hval⟩, ih h hrest⟩

theorem readable_fileRows (text : List UInt8) : ∀ r ∈ (fileRows text).2, r.Readable :=
  readable_rowsOf allowed_nil fun _ hbuf => mem_linesFrom hbuf

theorem Consistent.foldl_put (h : Consistent s) {rows : List Row}
    (hrows : ∀ r ∈ rows, r.Readable) : Consistent (rows.foldl IniConfig.put s) := by
  induction rows generalizing s with
  | nil => exact h
  | cons r rows ih =>
    obtain ⟨hr, hrest⟩ := List.forall_mem_cons.1 hrows
    exact ih (h.put hr.nodeName hr.key) hrest

theorem same_parsed (s : IniConfig) (configPath : List UInt8)
    (fopen : List UInt8 → Option (List UInt8)) : Same (s.parser configPath fopen).2 := by
  rw [parser_eq]
  cases fopen configPath with
  | none => exact (consistent_empty configPath).same
  | some text => exact ((consistent_empty configPath).foldl_put (readable_fileRows text)).same

-- ==== runs

/-- Every key is canonical and every value plain. -/
def Clean (s : IniConfig) : Prop :=
  ∀ fullKey val, s.mConfigMap.find fullKey = some val → Canonical fullKey ∧ Plain val

theorem clean_empty (path : List UInt8) : Clean ⟨path, .empty, .empty⟩ := fun _ _ h => nomatch h

/-- A node and a key of allowed letters, as `operator[]` splits them. -/
def KeyOk (key : List UInt8) : Prop := Allowed (splitKey key).1 ∧ Allowed (splitKey key).2

/-- Keys have allowed letters, and values no line break and no blanks at their ends. -/
def IniOp.Ok : IniOp → Prop
  | .subscript key => KeyOk key
  | .write key val => KeyOk key ∧ Plain val
  | _ => True

theorem KeyOk.canonical {key : List UInt8} (h : KeyOk key) :
    Canonical (fullKeyOf (splitKey key).1 (splitKey key).2) := ⟨_, _, h.1, h.2, rfl⟩

theorem clean_foldl_put (h : Clean s) {rows : List Row}
    (hrows : ∀ r ∈ rows, r.Readable) : Clean (rows.foldl IniConfig.put s) := by
  induction rows generalizing s with
  | nil => exact h
  | cons r rows ih =>
    obtain ⟨hr, hrest⟩ := List.forall_mem_cons.1 hrows
    refine ih (fun fullKey val hval => ?_) hrest
    rw [find_put] at hval
    by_cases hsame : fullKey = r.fullKey
    · rw [if_pos hsame] at hval
      rw [hsame, ← Option.some_inj.1 hval]
      exact ⟨⟨_, _, hr.nodeName, hr.key, rfl⟩, hr.val⟩
    · rw [if_neg hsame] at hval
      exact h fullKey val hval

theorem clean_step (s : IniConfig) (op : IniOp) (h : Clean s) (hop : op.Ok) :
    Clean (s.step op) := by
  cases op with
  | parser configPath fopen =>
    show Clean (s.parser configPath fopen).2
    rw [parser_eq]
    cases fopen configPath with
    | none => exact clean_empty configPath
    | some text => exact clean_foldl_put (clean_empty configPath) (readable_fileRows text)
  | subscript key =>
    intro fullKey val hval
    have hval : (s.mConfigMap.emplace (fullKeyOf (splitKey key).1 (splitKey key).2) []).find
        fullKey = some val := hval
    rw [SortedMap.find_emplace, Option.or_eq_some_iff] at hval
    rcases hval with hold | ⟨-, hnew⟩
    · exact h fullKey val hold
    · split at hnew
      · rename_i heq
        cases hnew
        rw [heq]
        exact ⟨KeyOk.canonical hop, plain_nil⟩
      · cases hnew
  | write key val =>
    show Clean (s.write key val)
    unfold IniConfig.write
    dsimp only
    split
    · intro fullKey val' hval
      rw [SortedMap.find_insert] at hval
      split at hval
      · rename_i heq
        cases hval
        rw [heq]
        exact ⟨hop.1.canonical, hop.2⟩
      · exact h fullKey val' hval
    · exact h
  | del key =>
    intro fullKey val hval
    have hval : (s.mConfigMap.erase (fullKeyOf (splitKey key).1 (splitKey key).2)).find fullKey
        = some val := hval
    rw [SortedMap.find_erase] at hval
    split at hval
    · cases hval
    · exact h fullKey val hval
  | keep file fopen =>
    show Clean (s.keep file fopen).2.1
    unfold IniConfig.keep
    split
    · exact h
    · exact h

theorem clean_run {ops : List IniOp} (h : ∀ op ∈ ops, op.Ok) :
    Clean (run IniConfig.step .init ops) :=
  run_inv (P := Clean) clean_step (clean_empty [])
    (meets_of_forall (fun op hop _ => h op hop) _)

-- ==== keep

theorem nodup_keys {κ β : Type*} [LinearOrder κ] (m : SortedMap κ β) :
    (m.entries.map Prod.fst).Nodup :=
  List.pairwise_map.2 (m.sorted.imp fun hlt => ne_of_lt hlt)

theorem sourceFind_regroup {configMap : SortedMap (List UInt8) (List UInt8)}
    (h : ∀ e ∈ configMap.entries, Canonical e.1) {nodeName key val : List UInt8} :
    sourceFind (regroup configMap) nodeName key = some val
      ↔ ∃ e ∈ configMap.entries, splitKey e.1 = (nodeName, key) ∧ e.2 = val := by
  have hput (source : SortedMap (List UInt8) Node) (e : List UInt8 × List UInt8)
      (k : List UInt8 × List UInt8) :
      sourceFind (putSource source (splitKey e.1).1 (splitKey e.1).2 e.2) k.1 k.2
        = if k = splitKey e.1 then some e.2 else sourceFind source k.1 k.2 := by
    rw [sourceFind_putSource]
    by_cases hsame : k = splitKey e.1
    · rw [if_pos hsame, if_pos ⟨congrArg Prod.fst hsame, congrArg Prod.snd hsame⟩]
    · rw [if_neg hsame, if_neg fun hboth => hsame (Prod.ext hboth.1 hboth.2)]
  have hnodup : (configMap.entries.map fun e => splitKey e.1).Nodup := by
    have hkeys := nodup_keys configMap
    rw [List.nodup_map_iff_inj_on hkeys.of_map] at hkeys
    rw [List.nodup_map_iff_inj_on (nodup_keys configMap).of_map]
    intro a ha b hb heq
    refine hkeys a ha b hb ?_
    rw [← (h a ha).fullKeyOf_splitKey, heq, (h b hb).fullKeyOf_splitKey]
  exact get_foldl_eq_some (g := fun source (k : List UInt8 × List UInt8) =>
    sourceFind source k.1 k.2) (k := (nodeName, key)) hput hnodup rfl

theorem Clean.canonical (h : Clean s) : ∀ e ∈ s.mConfigMap.entries, Canonical e.1 :=
  fun e he => (h e.1 e.2 (SortedMap.find_eq_some_iff.2 he)).1

/-- After a keep that opened its file, successful or not, the maps describe the same pairs. -/
theorem same_keep (h : Clean s) {file : List UInt8}
    {fopen : List UInt8 → Option Sink} (hopen : (s.keep file fopen).1 = true) :
    Same (s.keep file fopen).2.1 := by
  have hkeep : (s.keep file fopen).2.1 = { s with mSourceMap := regroup s.mConfigMap } := by
    unfold IniConfig.keep at hopen ⊢
    split
    · rename_i hnone
      rw [hnone] at hopen
      cases hopen
    · rfl
  rw [hkeep]
  constructor
  · intro nodeName key val hval
    obtain ⟨e, he, hsplit, rfl⟩ := (sourceFind_regroup h.canonical).1 hval
    have hkey := (h.canonical e he).fullKeyOf_splitKey
    rw [hsplit] at hkey
    exact SortedMap.find_eq_some_iff.2 (by rw [hkey]; exact he)
  · intro fullKey val hval
    have he := SortedMap.find_eq_some_iff.1 hval
    exact ⟨_, _, (h.canonical _ he).fullKeyOf_splitKey,
      (sourceFind_regroup h.canonical).2 ⟨_, he, rfl, rfl⟩⟩

-- ==== rejected

theorem find_foldl_put (s : IniConfig) (rows : List Row) (fullKey : List UInt8) :
    (rows.foldl IniConfig.put s).mConfigMap.find fullKey
      = ((rows.reverse.find? fun r => r.fullKey = fullKey).map Row.val).or
        (s.mConfigMap.find fullKey) :=
  get_foldl (g := fun (s : IniConfig) fullKey => s.mConfigMap.find fullKey) find_put rows s
    fullKey

/-- Of every key the last row has no value. -/
def LeavesNothing (rows : List Row) : Prop :=
  ∀ before r after, rows = before ++ r :: after → (∀ r' ∈ after, r'.fullKey ≠ r.fullKey) →
    r.val = []

/-- None of the entries of a file can be read exactly if the last of every key is empty. -/
theorem unreadable_iff (path : List UInt8) (rows : List Row) :
    (∀ fullKey, (rows.foldl IniConfig.put ⟨path, .empty, .empty⟩).value fullKey = [])
      ↔ LeavesNothing rows := by
  have hvalue (fullKey : List UInt8) :
      (rows.foldl IniConfig.put ⟨path, .empty, .empty⟩).value fullKey
        = ((rows.reverse.find? fun r => r.fullKey = fullKey).map Row.val).getD [] := by
    unfold IniConfig.value
    rw [find_foldl_put]
    show (Option.or _ none).getD [] = _
    rw [Option.or_none]
  constructor
  · intro h before r after hrows hlast
    have hnone : after.reverse.find? (fun r' => decide (r'.fullKey = r.fullKey)) = none := by
      rw [List.find?_eq_none]
      intro r' hr' heq
      exact hlast r' (List.mem_reverse.1 hr') (of_decide_eq_true heq)
    have hfound := h r.fullKey
    rw [hvalue, hrows, List.reverse_append, List.reverse_cons, List.append_assoc,
      List.find?_append, hnone, Option.none_or, List.singleton_append, List.find?_cons,
      decide_eq_true (Eq.refl r.fullKey)] at hfound
    exact hfound
  · intro h fullKey
    rw [hvalue]
    cases hfound : rows.reverse.find? fun r => decide (r.fullKey = fullKey) with
    | none => rfl
    | some r =>
      obtain ⟨hkey, as, bs, hsplit, hbefore⟩ := List.find?_eq_some_iff_append.1 hfound
      refine h bs.reverse r as.reverse ?_ fun r' hr' heq => ?_
      · rw [← List.reverse_reverse rows, hsplit]
        simp
      · have hno := hbefore r' (List.mem_reverse.1 hr')
        rw [heq, of_decide_eq_true hkey] at hno
        simp at hno

end Eular.Config.Ini
