/-
What the path maps say of a document.

A path is the root's, extended by one label after another (`extend`), a key
or an index. For labels that are plain, a path says how it was extended
(`extend_inj`), so a document whose keys are plain and are distinct among
siblings has every node under a path of its own, and the map is the
document (`Tidy`). For any document the map holds for a path the first
frame of the walk that has it (`find_buildMap`), and what may go wrong is
which one that is.

# Order

The walk is the loop's, without its maps: `Lib.visit` over the frames the
loader pushes. Both loaders reach the same frames of a tidy document, in
orders that differ, and it is there that paths are told apart; `Undisturbed`
is about the order.
-/
import Eular.Config.Document
import Eular.Config.Proofs.Observer
import Eular.Lib.Worklist

namespace Eular.Config

open Lib

variable {pairs : List (Option (List UInt8) × Doc)}

-- ==== labels

inductive Label where
  | key (text : List UInt8)
  | index (idx : Nat)

/-- '['. -/
def opening : UInt8 := 0x5b

def closing : UInt8 := 0x5d

/-- A key that is not empty and free of path syntax, or an index. -/
def Label.Plain : Label → Prop
  | .key text => text ≠ [] ∧ dot ∉ text ∧ opening ∉ text ∧ closing ∉ text
  | .index _ => True

def extend (path : Path) : Label → Path
  | .key text => joinKey path text
  | .index idx => joinIndex path idx

/-- A path that starts as all do. -/
def Rooted (path : Path) : Prop := ∃ body, path = dollar :: body

theorem rooted_rootPath : Rooted rootPath := ⟨[], rfl⟩

variable {p q : Path} {a b : Label}

theorem joinKey_cons (body key : List UInt8) :
    joinKey (dollar :: body) key = dollar :: if body = [] then key else body ++ dot :: key := by
  cases body with
  | nil => simp [joinKey]
  | cons c body => simp [joinKey]

theorem joinIndex_cons (body : List UInt8) (idx : Nat) :
    joinIndex (dollar :: body) idx = dollar :: (body ++ opening :: (decimal idx ++ [closing])) := by
  have hopening : ascii "[" = [opening] := by decide
  have hclosing : ascii "]" = [closing] := by decide
  simp [joinIndex, hopening, hclosing]

theorem Rooted.extend (h : Rooted p) (a : Label) : Rooted (extend p a) := by
  obtain ⟨body, rfl⟩ := h
  cases a with
  | key text => exact ⟨_, joinKey_cons body text⟩
  | index idx => exact ⟨_, joinIndex_cons body idx⟩

theorem extend_ne_root (h : Rooted p) (ha : a.Plain) : extend p a ≠ rootPath := by
  obtain ⟨body, rfl⟩ := h
  intro heq
  cases a with
  | key text =>
    rw [Config.extend, joinKey_cons] at heq
    have hnil := (List.cons.inj heq).2
    split at hnil
    · exact ha.1 hnil
    · simp at hnil
  | index idx =>
    rw [Config.extend, joinIndex_cons] at heq
    have hnil := (List.cons.inj heq).2
    simp at hnil

theorem not_mem_decimal {idx : Nat} {c : UInt8} (hc : c.toNat < 48 ∨ 57 < c.toNat) :
    c ∉ decimal idx := by
  intro hmem
  have hdigit := mem_decimal hmem
  omega

theorem opening_not_mem_index (idx : Nat) : opening ∉ decimal idx ++ [closing] := by
  intro hmem
  rcases List.mem_append.1 hmem with hdigit | hlast
  · exact not_mem_decimal (Or.inr (by decide)) hdigit
  · exact absurd (List.mem_singleton.1 hlast) (by decide)

theorem getLast?_joinIndex (body : List UInt8) (idx : Nat) :
    (joinIndex (dollar :: body) idx).getLast? = some closing := by
  have hsplit : joinIndex (dollar :: body) idx =
      (dollar :: body ++ opening :: decimal idx) ++ [closing] := by
    rw [joinIndex_cons]
    simp
  rw [hsplit]
  exact List.getLast?_concat

theorem getLast?_joinKey {body text : List UInt8} (ha : (Label.key text).Plain) :
    (joinKey (dollar :: body) text).getLast? ≠ some closing := by
  have hlast : text.getLast? ≠ some closing := fun heq => ha.2.2.2 (List.mem_of_getLast? heq)
  obtain ⟨front, hsplit⟩ : ∃ front, joinKey (dollar :: body) text = front ++ text := by
    rw [joinKey_cons]
    split
    · exact ⟨[dollar], rfl⟩
    · exact ⟨dollar :: body ++ [dot], by simp⟩
  rw [hsplit, List.getLast?_append_of_ne_nil _ ha.1]
  exact hlast

/-- A path that is extended by a plain label says by which, and what was
extended. -/
theorem extend_inj (hp : Rooted p) (hq : Rooted q) (ha : a.Plain) (hb : b.Plain)
    (heq : extend p a = extend q b) : p = q ∧ a = b := by
  obtain ⟨body, rfl⟩ := hp
  obtain ⟨other, rfl⟩ := hq
  cases a with
  | key text =>
    cases b with
    | key text' =>
      rw [extend, extend, joinKey_cons, joinKey_cons] at heq
      have hbody := (List.cons.inj heq).2
      by_cases hnil : body = []
      · by_cases hnil' : other = []
        · rw [if_pos hnil, if_pos hnil'] at hbody
          exact ⟨by rw [hnil, hnil'], by rw [hbody]⟩
        · rw [if_pos hnil, if_neg hnil'] at hbody
          exact absurd (hbody ▸ (by simp : dot ∈ other ++ dot :: text')) ha.2.1
      · by_cases hnil' : other = []
        · rw [if_neg hnil, if_pos hnil'] at hbody
          exact absurd (hbody ▸ (by simp : dot ∈ body ++ dot :: text)) hb.2.1
        · rw [if_neg hnil, if_neg hnil'] at hbody
          obtain ⟨rfl, rfl⟩ := cut_last ha.2.1 hb.2.1 hbody
          exact ⟨rfl, rfl⟩
    | index idx =>
      have hlast := (congrArg List.getLast? heq).trans (getLast?_joinIndex other idx)
      exact absurd hlast (getLast?_joinKey ha)
  | index idx =>
    cases b with
    | key text =>
      have hlast := (congrArg List.getLast? heq).symm.trans (getLast?_joinIndex body idx)
      exact absurd hlast (getLast?_joinKey hb)
    | index idx' =>
      rw [extend, extend, joinIndex_cons, joinIndex_cons] at heq
      obtain ⟨rfl, hlast⟩ := cut_last (opening_not_mem_index idx) (opening_not_mem_index idx')
        (List.cons.inj heq).2
      have hidx := decimal_inj.1 (List.append_cancel_right hlast)
      exact ⟨rfl, by rw [hidx]⟩

-- ==== edges

/-- The labels of the children; none for a key that is no text. -/
def Doc.edges : Doc → List (Option Label × Doc)
  | .scalar _ => []
  | .sequence _ items => items.zipIdx.map fun item => (some (.index item.2), item.1)
  | .mapping _ pairs => pairs.map fun pair => (pair.1.map .key, pair.2)

theorem Doc.edges_snd (u : Doc) : u.edges.map Prod.snd = u.children := by
  cases u with
  | scalar id => rfl
  | sequence id items =>
    show (items.zipIdx.map _).map Prod.snd = items
    rw [List.map_map]
    exact List.zipIdx_map_fst 0 items
  | mapping id pairs =>
    show (pairs.map _).map Prod.snd = pairs.map Prod.snd
    rw [List.map_map]
    rfl

theorem mapM_eq_some {α β : Type*} {f : α → Option β} {l : List α} {l' : List β} :
    l.mapM f = some l' ↔ (∀ a ∈ l, f a ≠ none) ∧ l' = l.filterMap f := by
  induction l generalizing l' with
  | nil => simp [eq_comm]
  | cons a l ih =>
    rw [List.mapM_cons]
    cases hfa : f a with
    | none => simp [hfa]
    | some b =>
      cases hrest : l.mapM f with
      | none =>
        have hnot : ¬∀ a ∈ l, f a ≠ none := fun hall => by
          have hsome := ih.2 ⟨hall, rfl⟩
          rw [hrest] at hsome
          cases hsome
        constructor
        · intro h
          simp at h
        · rintro ⟨hall, -⟩
          exact absurd (fun x hx => hall x (List.mem_cons_of_mem _ hx)) hnot
      | some r =>
        obtain ⟨hall, hr⟩ := ih.1 hrest
        rw [List.filterMap_cons_some hfa, ← hr]
        constructor
        · intro h
          cases h
          refine ⟨List.forall_mem_cons.2 ⟨?_, hall⟩, rfl⟩
          rw [hfa]
          exact Option.some_ne_none b
        · rintro ⟨-, rfl⟩
          rfl

/-- The frames a loader goes on with: none after an error. -/
def Loader.frames (loader : Loader) (f : Frame) : List Frame := (loader.next f).getD []

theorem mem_itemFrames {path : Path} {items : List Doc} {g : Frame} :
    g ∈ itemFrames path items ↔
      ∃ idx, (g.node, idx) ∈ items.zipIdx ∧ g.path = joinIndex path idx := by
  constructor
  · intro h
    obtain ⟨⟨node, idx⟩, hmem, rfl⟩ := List.mem_map.1 h
    exact ⟨idx, hmem, rfl⟩
  · rintro ⟨idx, hmem, hpath⟩
    refine List.mem_map.2 ⟨(g.node, idx), hmem, ?_⟩
    rw [← hpath]

/-- The frames pushed for the pairs of a mapping. -/
def pairFrames (path : Path) (pairs : List (Option (List UInt8) × Doc)) : List Frame :=
  pairs.filterMap fun pair => pair.1.map fun key => ⟨pair.2, joinKey path key⟩

theorem mem_pairFrames {path : Path} {g : Frame} :
    g ∈ pairFrames path pairs ↔
      ∃ key, (some key, g.node) ∈ pairs ∧ g.path = joinKey path key := by
  constructor
  · intro h
    obtain ⟨⟨key, node⟩, hmem, hsome⟩ := List.mem_filterMap.1 h
    obtain ⟨text, rfl, rfl⟩ := Option.map_eq_some_iff.1 hsome
    exact ⟨text, hmem, rfl⟩
  · rintro ⟨key, hmem, hpath⟩
    refine List.mem_filterMap.2 ⟨(some key, g.node), hmem, ?_⟩
    show some (Frame.mk g.node (joinKey path key)) = some g
    rw [← hpath]

theorem jsonPushes_mapping {f : Frame} {id : Nat}
    (hnode : f.node = .mapping id pairs) :
    jsonPushes f = pairFrames f.path (pairs.filter fun pair => pair.1 ≠ some []) := by
  unfold jsonPushes pairFrames
  rw [hnode, List.filterMap_filter]
  dsimp only
  congr 1
  funext pair
  obtain ⟨key, node⟩ := pair
  cases key with
  | none => simp
  | some text =>
    by_cases htext : text = []
    · simp [htext]
    · simp [htext]

theorem yamlPushes_mapping {f : Frame} {id : Nat}
    (hnode : f.node = .mapping id pairs) {l : List Frame} :
    yamlPushes f = some l ↔ (∀ pair ∈ pairs, pair.1 ≠ none) ∧ l = pairFrames f.path pairs := by
  unfold yamlPushes pairFrames
  rw [hnode]
  dsimp only
  rw [mapM_eq_some]
  simp

theorem edge_of_mem_frames {loader : Loader} {f g : Frame} (h : g ∈ loader.frames f) :
    ∃ a, (some a, g.node) ∈ f.node.edges ∧ g.path = extend f.path a := by
  have hitems : ∀ {id items}, f.node = .sequence id items → g ∈ itemFrames f.path items →
      ∃ a, (some a, g.node) ∈ f.node.edges ∧ g.path = extend f.path a := by
    intro id items hnode hmem
    obtain ⟨idx, hidx, hpath⟩ := mem_itemFrames.1 hmem
    exact ⟨.index idx, by rw [hnode]; exact List.mem_map.2 ⟨_, hidx, rfl⟩, hpath⟩
  have hpairs : ∀ {id pairs part}, f.node = .mapping id pairs → part ⊆ pairs →
      g ∈ pairFrames f.path part →
        ∃ a, (some a, g.node) ∈ f.node.edges ∧ g.path = extend f.path a := by
    intro id pairs part hnode hsub hmem
    obtain ⟨key, hkey, hpath⟩ := mem_pairFrames.1 hmem
    exact ⟨.key key, by rw [hnode]; exact List.mem_map.2 ⟨_, hsub hkey, rfl⟩, hpath⟩
  cases loader with
  | json =>
    have hpush : g ∈ jsonPushes f := List.mem_reverse.1 h
    cases hnode : f.node with
    | scalar id =>
      unfold jsonPushes at hpush
      rw [hnode] at hpush
      cases hpush
    | sequence id items =>
      rw [← hnode]
      refine hitems hnode ?_
      unfold jsonPushes at hpush
      rwa [hnode] at hpush
    | mapping id pairs =>
      rw [← hnode]
      rw [jsonPushes_mapping hnode] at hpush
      exact hpairs hnode (List.filter_sublist.subset) hpush
  | yaml =>
    have hpush : g ∈ (yamlPushes f).getD [] := h
    cases hnode : f.node with
    | scalar id =>
      unfold yamlPushes at hpush
      rw [hnode] at hpush
      cases hpush
    | sequence id items =>
      rw [← hnode]
      refine hitems hnode ?_
      unfold yamlPushes at hpush
      rwa [hnode] at hpush
    | mapping id pairs =>
      rw [← hnode]
      cases hl : yamlPushes f with
      | none =>
        rw [hl] at hpush
        cases hpush
      | some l =>
        rw [hl] at hpush
        rw [((yamlPushes_mapping hnode).1 hl).2] at hpush
        exact hpairs hnode (fun _ hmem => hmem) hpush

-- ==== walk

theorem countItems_eq (items : List Doc) : countItems items = (items.map Doc.count).sum := by
  induction items with
  | nil => rfl
  | cons item items ih => simp [countItems, ih]

theorem countPairs_eq (pairs : List (Option (List UInt8) × Doc)) :
    countPairs pairs = (pairs.map fun pair => pair.2.count).sum := by
  induction pairs with
  | nil => rfl
  | cons pair pairs ih =>
    obtain ⟨key, node⟩ := pair
    simp [countPairs, countPair, ih]

theorem total_itemFrames (path : Path) (items : List Doc) :
    total (fun f => f.node.count) (itemFrames path items) = countItems items := by
  unfold total itemFrames
  rw [countItems_eq, List.map_map]
  show (items.zipIdx.map (Doc.count ∘ Prod.fst)).sum = _
  rw [← List.map_map, List.zipIdx_map_fst]

theorem total_pairFrames (path : Path) (pairs : List (Option (List UInt8) × Doc)) :
    total (fun f => f.node.count) (pairFrames path pairs) ≤ countPairs pairs := by
  induction pairs with
  | nil => exact le_rfl
  | cons pair pairs ih =>
    obtain ⟨key, node⟩ := pair
    unfold pairFrames at ih ⊢
    simp only [countPairs, countPair]
    cases key with
    | none => exact ih.trans (Nat.le_add_left _ _)
    | some text =>
      show total _ (_ :: _) ≤ _
      rw [total_cons]
      exact Nat.add_le_add_left ih _

theorem countPairs_filter_le (keep : Option (List UInt8) × Doc → Bool)
    (pairs : List (Option (List UInt8) × Doc)) :
    countPairs (pairs.filter keep) ≤ countPairs pairs := by
  rw [countPairs_eq, countPairs_eq]
  exact (List.filter_sublist.map _).sum_le_sum (fun _ _ => Nat.zero_le _)

theorem shrinks_frames (loader : Loader) :
    Shrinks (fun f => f.node.count) loader.frames := by
  intro f
  cases loader with
  | json =>
    show total _ (jsonPushes f).reverse < f.node.count
    have hreverse : total (fun f => f.node.count) (jsonPushes f).reverse
        = total (fun f => f.node.count) (jsonPushes f) := by
      unfold total
      rw [List.map_reverse, List.sum_reverse]
    rw [hreverse]
    cases hnode : f.node with
    | scalar id =>
      unfold jsonPushes
      rw [hnode]
      exact Nat.one_pos
    | sequence id items =>
      unfold jsonPushes
      rw [hnode]
      dsimp only
      rw [total_itemFrames]
      exact Nat.lt_succ_self _
    | mapping id pairs =>
      rw [jsonPushes_mapping hnode]
      exact Nat.lt_succ_of_le ((total_pairFrames _ _).trans (countPairs_filter_le _ pairs))
  | yaml =>
    show total _ ((yamlPushes f).getD []) < f.node.count
    cases hnode : f.node with
    | scalar id =>
      unfold yamlPushes
      rw [hnode]
      exact Nat.one_pos
    | sequence id items =>
      unfold yamlPushes
      rw [hnode]
      show total _ (itemFrames f.path items) < _
      rw [total_itemFrames]
      exact Nat.lt_succ_self _
    | mapping id pairs =>
      cases hl : yamlPushes f with
      | none => exact Nat.succ_pos _
      | some l =>
        show total _ l < _
        rw [((yamlPushes_mapping hnode).1 hl).2]
        exact Nat.lt_succ_of_le (total_pairFrames _ _)

/-- The frame the loop starts with. -/
def rootFrame (doc : Doc) : Frame := ⟨doc, rootPath⟩

namespace Loader

/-- The frames the loop takes, in order. -/
def walk (loader : Loader) (doc : Doc) : List Frame :=
  visit loader.frames doc.count [rootFrame doc]

variable {loader : Loader} {doc : Doc} {f g : Frame}

theorem mem_walk_iff : g ∈ loader.walk doc ↔ Leads loader.frames (rootFrame doc) g := by
  have hfuel : total (fun f => f.node.count) [rootFrame doc] ≤ doc.count := by
    rw [total_cons, total_nil]
    exact le_rfl
  refine (mem_visit_iff (shrinks_frames loader) hfuel).trans ?_
  simp

theorem walk_inv {P : Frame → Prop} (hroot : P (rootFrame doc))
    (hstep : ∀ f ∈ loader.walk doc, P f → ∀ g ∈ loader.frames f, P g) :
    ∀ g ∈ loader.walk doc, P g := by
  intro g hg
  have hlead := mem_walk_iff.1 hg
  clear hg
  induction hlead with
  | refl => exact hroot
  | tail hprev hnext ih => exact hstep _ (mem_walk_iff.2 hprev) ih _ hnext

theorem rooted_of_walk (hg : g ∈ loader.walk doc) : Rooted g.path := by
  refine walk_inv (P := fun f => Rooted f.path) rooted_rootPath (fun f _ hf g hg => ?_) g hg
  obtain ⟨a, -, hpath⟩ := edge_of_mem_frames hg
  rw [hpath]
  exact hf.extend a

theorem root_mem_walk : rootFrame doc ∈ loader.walk doc := mem_walk_iff.2 .refl

theorem mem_walk_of_frames (hf : f ∈ loader.walk doc) (hg : g ∈ loader.frames f) :
    g ∈ loader.walk doc :=
  mem_walk_iff.2 ((mem_walk_iff.1 hf).tail hg)

theorem eq_root_or_parent (hg : g ∈ loader.walk doc) :
    g = rootFrame doc ∨ ∃ f ∈ loader.walk doc, g ∈ loader.frames f :=
  (parent_of_visit hg).imp_left List.mem_singleton.1

/-- The loop fails at a frame it cannot go on from, and else leaves what the
frames leave one after another. -/
theorem buildLoop_eq_some {fuel : Nat} {stack : List Frame} {m m' : PathMap}
    (hfuel : total (fun f => f.node.count) stack ≤ fuel) :
    buildLoop loader.next fuel stack m = some m' ↔
      (∀ f ∈ visit loader.frames fuel stack, loader.next f ≠ none) ∧
        m' = (visit loader.frames fuel stack).foldl PathMap.emplace m := by
  induction fuel generalizing stack m with
  | zero =>
    cases stack with
    | nil => simp [buildLoop, visit, eq_comm]
    | cons f stack =>
      have hpos : total (fun f => f.node.count) (loader.frames f) < f.node.count :=
        shrinks_frames loader f
      rw [total_cons] at hfuel
      omega
  | succ fuel ih =>
    cases stack with
    | nil => simp [buildLoop, visit, eq_comm]
    | cons f stack =>
      have hless : total (fun f => f.node.count) (loader.frames f) < f.node.count :=
        shrinks_frames loader f
      rw [total_cons] at hfuel
      have hrest : total (fun f => f.node.count) (loader.frames f ++ stack) ≤ fuel := by
        rw [total_append]
        omega
      cases hnext : loader.next f with
      | none =>
        have hloop : buildLoop loader.next (fuel + 1) (f :: stack) m = none := by
          simp [buildLoop, hnext]
        rw [hloop]
        refine iff_of_false (fun h => nomatch h) fun h => ?_
        exact h.1 f List.mem_cons_self hnext
      | some frames =>
        have hframes : loader.frames f = frames := by
          rw [Loader.frames, hnext]
          rfl
        have hloop : buildLoop loader.next (fuel + 1) (f :: stack) m =
            buildLoop loader.next fuel (loader.frames f ++ stack) (m.emplace f) := by
          rw [hframes]
          simp [buildLoop, hnext]
        rw [hloop, ih hrest, visit, List.foldl_cons, List.forall_mem_cons, and_assoc]
        have hsome : loader.next f ≠ none := by
          rw [hnext]
          exact Option.some_ne_none _
        exact (and_iff_right hsome).symm

theorem buildMap_eq_some {m : PathMap} :
    loader.buildMap doc = some m ↔ (∀ f ∈ loader.walk doc, loader.next f ≠ none) ∧
      m = (loader.walk doc).foldl PathMap.emplace {} :=
  buildLoop_eq_some (by rw [total_cons, total_nil]; exact le_rfl)

theorem foldl_emplace {l : List Frame} (hl : ∀ f ∈ l, f.path ≠ []) (m : PathMap) :
    l.foldl PathMap.emplace m =
      { pathNodeMap := l.foldl (fun m f => m.emplace f.path f.node) m.pathNodeMap
        pathTokensMap :=
          l.foldl (fun m f => m.emplace f.path (tokenizePath f.path)) m.pathTokensMap } := by
  induction l generalizing m with
  | nil => rfl
  | cons f l ih =>
    have hf : m.emplace f =
        { pathNodeMap := m.pathNodeMap.emplace f.path f.node
          pathTokensMap := m.pathTokensMap.emplace f.path (tokenizePath f.path) } := by
      rw [PathMap.emplace, if_neg (hl f List.mem_cons_self)]
    rw [List.foldl_cons, ih fun g hg => hl g (List.mem_cons_of_mem _ hg), hf]
    rfl

/-- The first frame of the walk that has a path. -/
def holder (loader : Loader) (doc : Doc) (path : Path) : Option Frame :=
  (loader.walk doc).find? fun f => f.path = path

theorem holder_eq_some (h : loader.holder doc p = some f) : f ∈ loader.walk doc ∧ f.path = p :=
  ⟨List.mem_of_find?_eq_some h, by simpa using List.find?_some h⟩

theorem exists_holder (h : f ∈ loader.walk doc) : ∃ g, loader.holder doc f.path = some g := by
  cases hfind : loader.holder doc f.path with
  | none =>
    have hnone := List.find?_eq_none.1 hfind f h
    simp at hnone
  | some g => exact ⟨g, rfl⟩

theorem find_buildMap {m : PathMap} (h : loader.buildMap doc = some m) (path : Path) :
    m.pathNodeMap.find path = (loader.holder doc path).map Frame.node ∧
      m.pathTokensMap.find path = (loader.holder doc path).map fun f => tokenizePath f.path := by
  obtain ⟨-, rfl⟩ := buildMap_eq_some.1 h
  have hpaths : ∀ f ∈ loader.walk doc, f.path ≠ [] := by
    intro f hf hnil
    obtain ⟨body, hbody⟩ := rooted_of_walk hf
    rw [hbody] at hnil
    cases hnil
  rw [foldl_emplace hpaths]
  constructor
  · refine (SortedMap.find_foldl_emplace Frame.path Frame.node _).trans ?_
    rw [SortedMap.find_empty, Option.none_or]
    unfold holder
    congr!
  · refine (SortedMap.find_foldl_emplace Frame.path (fun f => tokenizePath f.path) _).trans ?_
    rw [SortedMap.find_empty, Option.none_or]
    unfold holder
    congr!

end Loader

-- ==== coherence

/-- Whenever a path and the path extended by a key or an index are in the
map, the node of the second is a child of the node of the first. -/
def PathMap.Coherent (m : PathMap) : Prop :=
  ∀ p a u v, Label.Plain a → m.getNode p = some u → m.getNode (extend p a) = some v →
    v ∈ u.children

def Doc.Sub (doc : Doc) : Doc → Prop := Leads Doc.children doc

/-- A document without aliases: every node is in one place. -/
structure Doc.Tree (doc : Doc) : Prop where
  parent : ∀ u u' v, doc.Sub u → doc.Sub u' → v ∈ u.children → v ∈ u'.children → u = u'
  once : ∀ u, doc.Sub u → u.children.Nodup

/-- A child that is the first to get its path is one that its own parent,
the first to get the parent's path, was extended to; and no other key makes
a path that continues a path of the walk. -/
def Loader.Undisturbed (loader : Loader) (doc : Doc) : Prop :=
  ∀ f ∈ loader.walk doc, ∀ g ∈ loader.frames f, loader.holder doc g.path = some g →
    ((∃ a, Label.Plain a ∧ g.path = extend f.path a) → loader.holder doc f.path = some f) ∧
      ((∀ a, Label.Plain a → g.path ≠ extend f.path a) →
        ∀ p a, Label.Plain a → g.path = extend p a → ∀ h ∈ loader.walk doc, h.path ≠ p)

namespace Loader

variable {loader : Loader} {doc : Doc} {f g : Frame} {m : PathMap}

theorem child_of_mem_frames (h : g ∈ loader.frames f) : g.node ∈ f.node.children := by
  obtain ⟨a, hedge, -⟩ := edge_of_mem_frames h
  rw [← Doc.edges_snd]
  exact List.mem_map_of_mem hedge

theorem Undisturbed.coherent (h : loader.Undisturbed doc) (hm : loader.buildMap doc = some m) :
    m.Coherent := by
  intro p a u v ha hu hv
  unfold PathMap.getNode at hu hv
  rw [(find_buildMap hm _).1] at hu hv
  obtain ⟨f, hf, rfl⟩ := Option.map_eq_some_iff.1 hu
  obtain ⟨g, hg, rfl⟩ := Option.map_eq_some_iff.1 hv
  obtain ⟨hfw, rfl⟩ := holder_eq_some hf
  obtain ⟨hgw, hpath⟩ := holder_eq_some hg
  have hrooted := rooted_of_walk hfw
  rcases eq_root_or_parent hgw with rfl | ⟨f', hf'w, hnext⟩
  · exact absurd hpath.symm (extend_ne_root hrooted ha)
  · obtain ⟨hplain, hother⟩ := h f' hf'w g hnext (by rw [hpath]; exact hg)
    by_cases hex : ∃ b, Label.Plain b ∧ g.path = extend f'.path b
    · obtain ⟨b, hb, heq⟩ := hex
      have hsame := (extend_inj hrooted (rooted_of_walk hf'w) ha hb (hpath.symm.trans heq)).1
      have hholds := hplain ⟨b, hb, heq⟩
      rw [← hsame, hf] at hholds
      obtain rfl : f = f' := Option.some_inj.1 hholds
      exact child_of_mem_frames hnext
    · have hno : ∀ b, Label.Plain b → g.path ≠ extend f'.path b :=
        fun b hb heq => hex ⟨b, hb, heq⟩
      exact absurd rfl (hother hno f.path a ha hpath f hfw)

theorem sub_of_walk (h : f ∈ loader.walk doc) : doc.Sub f.node := by
  refine walk_inv (P := fun f => doc.Sub f.node) .refl (fun f _ hf g hg => ?_) f h
  exact hf.tail (child_of_mem_frames hg)

theorem count_lt_of_child {u v : Doc} (h : v ∈ u.children) : v.count < u.count := by
  have hmem : ∀ {l : List Doc}, v ∈ l → v.count ≤ (l.map Doc.count).sum :=
    fun hv => List.le_sum_of_mem (List.mem_map_of_mem hv)
  cases u with
  | scalar id => cases h
  | sequence id items =>
    rw [Doc.count, countItems_eq]
    exact Nat.lt_succ_of_le (hmem h)
  | mapping id pairs =>
    have hle := hmem h
    rw [Doc.children, List.map_map] at hle
    rw [Doc.count, countPairs_eq]
    exact Nat.lt_succ_of_le hle

theorem count_le_of_sub {u : Doc} (h : doc.Sub u) : u.count ≤ doc.count := by
  induction h with
  | refl => exact le_rfl
  | tail _ hchild ih => exact (count_lt_of_child hchild).le.trans ih

theorem root_not_child (hf : f ∈ loader.walk doc) : doc ∉ f.node.children := by
  intro hchild
  have hlt := count_lt_of_child hchild
  have hle := count_le_of_sub (sub_of_walk hf)
  omega

theorem frame_ext (hnode : f.node = g.node) (hpath : f.path = g.path) : f = g := by
  cases f
  cases g
  simp_all

theorem eq_of_node (ht : doc.Tree) (hf : f ∈ loader.walk doc) (hg : g ∈ loader.walk doc)
    (heq : f.node = g.node) : f = g := by
  have hlead := mem_walk_iff.1 hf
  clear hf
  induction hlead generalizing g with
  | refl =>
    rcases eq_root_or_parent hg with rfl | ⟨g', hg', hnext⟩
    · rfl
    · have hchild := child_of_mem_frames hnext
      rw [← heq] at hchild
      exact absurd hchild (root_not_child hg')
  | @tail f' f hprev hnext ih =>
    have hf' := mem_walk_iff.2 hprev
    have hnext' : f ∈ loader.frames f' := hnext
    rcases eq_root_or_parent hg with rfl | ⟨g', hg', hnextg⟩
    · have hchild := child_of_mem_frames hnext'
      rw [heq] at hchild
      exact absurd hchild (root_not_child hf')
    · have hchildg := child_of_mem_frames hnextg
      rw [← heq] at hchildg
      have hparent := ht.parent _ _ _ (sub_of_walk hf') (sub_of_walk hg')
        (child_of_mem_frames hnext') hchildg
      obtain rfl := ih hg' hparent
      obtain ⟨a, ha, hpath⟩ := edge_of_mem_frames hnext'
      obtain ⟨b, hb, hpathg⟩ := edge_of_mem_frames hnextg
      have honce := ht.once _ (sub_of_walk hf')
      rw [← Doc.edges_snd] at honce
      have hedge := List.inj_on_of_nodup_map honce ha hb heq
      have hab : a = b := Option.some_inj.1 (congrArg Prod.fst hedge)
      exact frame_ext heq (by rw [hpath, hpathg, hab])

theorem undisturbed_of_coherent (ht : doc.Tree) (hm : loader.buildMap doc = some m)
    (h : m.Coherent) : loader.Undisturbed doc := by
  intro f hf g hnext hholder
  have hget : ∀ {q : Path} {k : Frame}, loader.holder doc q = some k →
      m.getNode q = some k.node := by
    intro q k hk
    unfold PathMap.getNode
    rw [(find_buildMap hm q).1, hk]
    rfl
  -- the node of a path that is extended to the child's is the parent
  have hparent : ∀ k ∈ loader.walk doc, ∀ a, Label.Plain a → g.path = extend k.path a →
      loader.holder doc k.path = some f := by
    intro k hk a ha hpath
    obtain ⟨k', hk'⟩ := exists_holder hk
    have hchild := h k.path a k'.node g.node ha (hget hk') (by rw [← hpath]; exact hget hholder)
    have hk'w := (holder_eq_some hk').1
    have hnode := ht.parent _ _ _ (sub_of_walk hk'w) (sub_of_walk hf) hchild
      (child_of_mem_frames hnext)
    rw [hk', eq_of_node ht hk'w hf hnode]
  refine ⟨fun ⟨a, ha, hpath⟩ => hparent f hf a ha hpath, fun hno p a ha hpath k hk hkp => ?_⟩
  subst hkp
  have hsame := (holder_eq_some (hparent k hk a ha hpath)).2
  exact hno a ha (by rw [hsame]; exact hpath)

end Loader

end Eular.Config
