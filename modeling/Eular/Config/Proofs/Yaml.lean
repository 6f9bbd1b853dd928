/-
Which YAML documents load.

The loop of `buildMap` is the walk of `Lib.Walk` over frames (`buildMapLoop_eq`),
and whether that gets through or fails is a matter of the nodes alone
(`frames_id`). So it ends exactly where no node is below itself, or a key
that is no scalar comes first (`Breaks`). Of a path the map has the first
place in the unfolded document; a node is found if it has a place that is
the first with its path (`OwnPlace`).
-/
import Eular.Config.Yaml
import Eular.Config.Proofs.Document
import Eular.Lib.Walk

namespace Eular.Config.Yaml

open Lib

-- ==== graph

namespace Document

variable {document : Document}

/-- The values and items of a node. -/
def children (document : Document) (id : Nat) : List Nat :=
  match document.getNode id with
  | some (.sequence items) => items
  | some (.mapping pairs) => pairs.map Prod.snd
  | _ => []

/-- The values and items, unless a key is no scalar. -/
def next (document : Document) (id : Nat) : Option (List Nat) :=
  match document.getNode id with
  | some (.mapping pairs) =>
    pairs.mapM fun pair => (document.keyText pair.1).map fun _ => pair.2
  | _ => some (document.children id)

theorem mapM_map_eq_some {α β γ : Type*} {f : α → Option β} {g : α → γ} {l : List α} {l' : List γ}
    (h : l.mapM (fun a => (f a).map fun _ => g a) = some l') : l' = l.map g := by
  obtain ⟨hsome, rfl⟩ := mapM_eq_some.mp h
  rw [← List.filterMap_eq_map]
  refine List.filterMap_congr fun a ha => ?_
  obtain ⟨b, hb⟩ := Option.ne_none_iff_exists'.mp (hsome a ha)
  obtain ⟨c, hc, -⟩ := Option.map_eq_some_iff.mp hb
  rw [hc]
  rfl

theorem next_eq_some {id : Nat} {l : List Nat} (h : document.next id = some l) :
    l = document.children id := by
  unfold next at h
  unfold children
  cases hnode : document.getNode id with
  | none =>
    rw [hnode] at h
    unfold children at h
    rw [hnode] at h
    exact (Option.some_inj.mp h).symm
  | some node =>
    rw [hnode] at h
    cases node with
    | scalar value =>
      unfold children at h
      rw [hnode] at h
      exact (Option.some_inj.mp h).symm
    | sequence items =>
      unfold children at h
      rw [hnode] at h
      exact (Option.some_inj.mp h).symm
    | mapping pairs => exact mapM_map_eq_some h

/-- A node of the document that is below another. -/
def Below (document : Document) : Nat → Nat → Prop :=
  Relation.ReflTransGen fun a b => b ∈ document.children a

theorem finite_follows : {a | ∃ b, Follows document.next a b}.Finite := by
  refine (Set.finite_le_nat document.nodes.length).subset ?_
  rintro a ⟨b, l, hl, hb⟩
  rw [next_eq_some hl] at hb
  by_contra hlarge
  have hlarge : document.nodes.length < a := by simpa using hlarge
  have hnone : document.getNode a = none := by
    unfold getNode
    rw [if_neg (by omega)]
    exact List.getElem?_eq_none (by omega)
  unfold children at hb
  rw [hnone] at hb
  cases hb

theorem below_of_comesTo {a b : Nat} (h : ComesTo document.next a b) : document.Below a b := by
  induction h with
  | refl => exact .refl
  | tail _ hstep ih =>
    obtain ⟨l, hl, hmem⟩ := hstep
    rw [next_eq_some hl] at hmem
    exact ih.tail hmem

theorem comesTo_of_below {a b : Nat} (h : Ends document.next a) (hbelow : document.Below a b) :
    ComesTo document.next a b := by
  induction hbelow with
  | refl => exact .refl
  | tail _ hstep ih =>
    obtain ⟨l, hl⟩ := Option.ne_none_iff_exists'.mp (h.of_comesTo ih).next_ne_none
    exact ih.tail ⟨l, hl, by rw [next_eq_some hl]; exact hstep⟩

end Document

-- ==== loop

namespace YamlParserPrivate

variable {document : Document}
variable {places : List Frame}

def frames (document : Document) (current : Frame) : Option (List Frame) :=
  match document.getNode current.id with
  | none => some []
  | some currentNode => pushes document current currentNode

/-- What a frame does to the maps. -/
def take (snapshot : YamlParserPrivate) (current : Frame) : YamlParserPrivate :=
  if (snapshot.document.getNode current.id).isSome then snapshot.emplace current else snapshot

theorem document_emplace (snapshot : YamlParserPrivate) (current : Frame) :
    (snapshot.emplace current).document = snapshot.document := by
  unfold emplace
  split
  · rfl
  · rfl

theorem frames_id (current : Frame) :
    (frames document current).map (List.map Frame.id) = document.next current.id := by
  unfold frames Document.next Document.children
  cases document.getNode current.id with
  | none => rfl
  | some node =>
    cases node with
    | scalar value => rfl
    | sequence items =>
      show some ((items.zipIdx.map _).map Frame.id) = some items
      rw [List.map_map]
      exact congrArg some (List.zipIdx_map_fst 0 items)
    | mapping pairs =>
      dsimp only [pushes]
      induction pairs with
      | nil => rfl
      | cons pair pairs ih =>
        rw [List.mapM_cons, List.mapM_cons, ← ih]
        cases document.keyText pair.1 with
        | none => rfl
        | some key =>
          cases pairs.mapM fun pair => (document.keyText pair.1).map fun key =>
            (⟨pair.2, joinKey current.path key⟩ : Frame) with
          | none => rfl
          | some rest => rfl

theorem buildMapLoop_eq (fuel : Nat) (stack : List Frame) (snapshot : YamlParserPrivate)
    (hdocument : snapshot.document = document) :
    (buildMapLoop fuel stack snapshot).map Prod.fst
        = (walk (frames document) take fuel stack snapshot).map
          (fun | .ok _ => {} | .error (current, _) => complexKey current.path)
      ∧ ∀ s, walk (frames document) take fuel stack snapshot = some (.ok s) →
        buildMapLoop fuel stack snapshot = some ({}, s) := by
  induction fuel generalizing stack snapshot with
  | zero =>
    cases stack with
    | nil => exact ⟨rfl, fun s hs => by cases hs; rfl⟩
    | cons current stack => exact ⟨rfl, fun s hs => by cases hs⟩
  | succ fuel ih =>
    cases stack with
    | nil => exact ⟨rfl, fun s hs => by cases hs; rfl⟩
    | cons current stack =>
      rw [buildMapLoop, walk, frames, take, hdocument]
      cases document.getNode current.id with
      | none => exact ih stack snapshot hdocument
      | some node =>
        cases hpushes : pushes document current node with
        | none =>
          simp only [hpushes]
          exact ⟨rfl, fun s hs => by cases hs⟩
        | some pushed =>
          simp only [hpushes]
          exact ih _ _ ((document_emplace snapshot current).trans hdocument)

-- ==== maps

theorem rooted_frames {current g : Frame} {l : List Frame} (h : frames document current = some l)
    (hg : g ∈ l) (hrooted : Rooted current.path) : Rooted g.path := by
  unfold frames at h
  cases hnode : document.getNode current.id with
  | none =>
    rw [hnode] at h
    cases h
    cases hg
  | some node =>
    rw [hnode] at h
    cases node with
    | scalar value =>
      cases h
      cases hg
    | sequence items =>
      cases h
      obtain ⟨item, -, rfl⟩ := List.mem_map.mp hg
      exact hrooted.extend (.index item.2)
    | mapping pairs =>
      obtain ⟨-, rfl⟩ := mapM_eq_some.mp h
      obtain ⟨pair, -, hpair⟩ := List.mem_filterMap.mp hg
      obtain ⟨key, -, rfl⟩ := Option.map_eq_some_iff.mp hpair
      exact hrooted.extend (.key key)

/-- The places of the document in order: the nodes of the tree it unfolds to, with their paths. -/
abbrev Places (document : Document) : List Frame → Prop :=
  Walked (frames document) [⟨1, rootPath⟩]

theorem rooted_places (h : Places document places) {f : Frame}
    (hf : f ∈ places) : Rooted f.path := by
  obtain ⟨root, hroot, hreach⟩ := (mem_of_walked h).mp hf
  rw [List.mem_singleton.mp hroot] at hreach
  clear hf
  induction hreach with
  | refl => exact rooted_rootPath
  | tail _ hstep ih =>
    obtain ⟨l, hl, hmem⟩ := hstep
    exact rooted_frames hl hmem ih

theorem path_ne_nil (h : Places document places) {f : Frame}
    (hf : f ∈ places) : f.path ≠ [] := by
  intro hnil
  obtain ⟨body, hbody⟩ := rooted_places h hf
  rw [hbody] at hnil
  cases hnil

theorem foldl_take (hpaths : ∀ f ∈ places, f.path ≠ [])
    (snapshot : YamlParserPrivate) :
    (places.foldl take snapshot).document = snapshot.document
      ∧ (places.foldl take snapshot).pathIdMap
        = (places.filter fun f => (snapshot.document.getNode f.id).isSome).foldl
          (fun m f => m.emplace f.path f.id) snapshot.pathIdMap := by
  induction places generalizing snapshot with
  | nil => exact ⟨rfl, rfl⟩
  | cons f places ih =>
    have hrest := ih fun g hg => hpaths g (List.mem_cons_of_mem _ hg)
    by_cases hthere : (snapshot.document.getNode f.id).isSome
    · have htake : snapshot.take f = snapshot.emplace f := if_pos hthere
      obtain ⟨hdocument, hmap⟩ := hrest (snapshot.emplace f)
      rw [document_emplace] at hdocument hmap
      rw [List.foldl_cons, htake, List.filter_cons, if_pos hthere, List.foldl_cons]
      refine ⟨hdocument, hmap.trans ?_⟩
      unfold emplace
      rw [if_neg (hpaths f List.mem_cons_self)]
    · have htake : snapshot.take f = snapshot := if_neg hthere
      rw [List.foldl_cons, htake, List.filter_cons, if_neg hthere]
      exact hrest snapshot

/-- The node has a place of which no place in front has the path. -/
def OwnPlace (document : Document) (places : List Frame) (id : Nat) : Prop :=
  ∃ before f after, places = before ++ f :: after ∧ f.id = id
    ∧ ∀ g ∈ before, (document.getNode g.id).isSome → g.path ≠ f.path

theorem exists_path_iff (h : Places document places) {id : Nat}
    (hthere : (document.getNode id).isSome) :
    (∃ path, (places.foldl take { document }).pathIdMap.find path = some id)
      ↔ OwnPlace document places id := by
  have hpaths : ∀ f ∈ places, f.path ≠ [] := fun f hf => path_ne_nil h hf
  have hfind (path : Path) : (places.foldl take { document }).pathIdMap.find path
      = (places.find? fun f => (document.getNode f.id).isSome && decide (f.path = path)).map
        Frame.id := by
    rw [(foldl_take hpaths _).2]
    refine (SortedMap.find_foldl_emplace Frame.path Frame.id _).trans ?_
    rw [SortedMap.find_empty, Option.none_or, List.find?_filter]
    congr!
    simp
  constructor
  · rintro ⟨path, hpath⟩
    rw [hfind] at hpath
    obtain ⟨f, hf, hid⟩ := Option.map_eq_some_iff.mp hpath
    obtain ⟨hkeep, before, after, hplaces, hbefore⟩ := List.find?_eq_some_iff_append.mp hf
    have hfpath : f.path = path := of_decide_eq_true (Bool.and_eq_true _ _ ▸ hkeep).2
    refine ⟨before, f, after, hplaces, hid, fun g hg hgthere hsame => ?_⟩
    have hnot := hbefore g hg
    rw [hgthere, hsame, hfpath] at hnot
    simp at hnot
  · rintro ⟨before, f, after, hplaces, rfl, hbefore⟩
    refine ⟨f.path, ?_⟩
    rw [hfind, Option.map_eq_some_iff]
    refine ⟨f, List.find?_eq_some_iff_append.mpr ⟨?_, before, after, hplaces, fun g hg => ?_⟩, rfl⟩
    · rw [hthere]
      simp
    · cases hgthere : (document.getNode g.id).isSome with
      | false => rfl
      | true =>
        have hne := hbefore g hg hgthere
        simpa using hne

-- ==== ending

theorem buildMap_eq_loop (hroot : document.rootId = some 1) (fuel : Nat) :
    buildMap fuel { document } = buildMapLoop fuel [⟨1, rootPath⟩] { document } := by
  unfold buildMap
  rw [hroot]

/-- `buildMap` gets through, and what it has then. -/
theorem buildMap_ok_iff {s : YamlParserPrivate} (hroot : document.rootId = some 1) :
    (∃ fuel result, buildMap fuel { document } = some (result, s) ∧ result.code = .ok)
      ↔ ∃ places, Places document places ∧ s = places.foldl take { document } := by
  rw [← walk_eq_ok_iff_walked]
  refine exists_congr fun fuel => ?_
  rw [buildMap_eq_loop hroot]
  obtain ⟨hresult, hok⟩ := buildMapLoop_eq fuel [⟨1, rootPath⟩]
    ({ document } : YamlParserPrivate) rfl
  constructor
  · rintro ⟨result, h, hcode⟩
    rw [h] at hresult
    cases hwalk : walk (frames document) take fuel [⟨1, rootPath⟩] { document } with
    | none =>
      rw [hwalk] at hresult
      cases hresult
    | some outcome =>
      cases outcome with
      | error e =>
        rw [hwalk] at hresult
        have hcomplex : result = complexKey e.1.path := Option.some_inj.mp hresult
        rw [hcomplex] at hcode
        cases hcode
      | ok s' =>
        have hsame := (hok s' hwalk).symm.trans h
        cases hsame
        rfl
  · exact fun h => ⟨_, hok s h, rfl⟩

theorem buildMap_fails_iff (hroot : document.rootId = some 1) :
    (∃ fuel result s, buildMap fuel { document } = some (result, s) ∧ result.code ≠ .ok)
      ↔ Breaks document.next 1 := by
  have hfails : Fails (frames document) [⟨1, rootPath⟩] ↔ Breaks document.next 1 := by
    refine Iff.trans ?_ (breaks_map (a := (⟨1, rootPath⟩ : Frame)) frames_id)
    constructor
    · rintro ⟨before, b, after, hsplit, -, hb⟩
      cases before with
      | nil =>
        cases hsplit
        exact hb
      | cons c before =>
        have hlength := congrArg List.length hsplit
        simp at hlength
    · exact fun hb => ⟨[], _, [], rfl, (fun c hc => nomatch hc), hb⟩
  have herror : (∃ fuel e, walk (frames document) take fuel [⟨1, rootPath⟩] { document }
      = some (.error e)) ↔ Fails (frames document) [⟨1, rootPath⟩] := walk_eq_error_iff
  rw [← hfails, ← herror]
  refine exists_congr fun fuel => ?_
  rw [buildMap_eq_loop hroot]
  obtain ⟨hresult, hok⟩ := buildMapLoop_eq fuel [⟨1, rootPath⟩]
    ({ document } : YamlParserPrivate) rfl
  cases hwalk : walk (frames document) take fuel [⟨1, rootPath⟩] { document } with
  | none =>
    rw [hwalk, Option.map_none, Option.map_eq_none_iff] at hresult
    rw [hresult]
    simp
  | some outcome =>
    cases outcome with
    | ok s =>
      rw [hok s hwalk]
      refine iff_of_false ?_ ?_
      · rintro ⟨result, s', heq, hcode⟩
        cases heq
        exact hcode rfl
      · rintro ⟨e, he⟩
        cases he
    | error e =>
      rw [hwalk] at hresult
      obtain ⟨⟨result, s⟩, hloop, hfirst⟩ := Option.map_eq_some_iff.mp hresult
      refine iff_of_true ⟨result, s, hloop, ?_⟩ ⟨e, rfl⟩
      have hcomplex : result = complexKey e.1.path := hfirst
      rw [hcomplex]
      exact ConfigCode.noConfusion

end YamlParserPrivate

-- ==== loading

section Loading

variable {document : Document} {libyaml : Libyaml} {parser : YamlParser}
  {yamlContent : Option (List UInt8)} {size : UInt32}

/-- The walk comes to a key that is no scalar before it comes to a node that is below itself; or it
comes to neither, and what is below the root has a place of its own. -/
def Loadable (document : Document) : Prop :=
  document.nodes = [] ∨ Breaks document.next 1
    ∨ (Acyclic document.next 1 ∧ (∀ id, document.Below 1 id → document.next id ≠ none)
      ∧ ∀ places, YamlParserPrivate.Places document places → ∀ id, document.Below 1 id →
        (document.getNode id).isSome → YamlParserPrivate.OwnPlace document places id)

/-- The document that libyaml makes, if it is called and makes one. -/
def composed (libyaml : Libyaml) (yamlContent : Option (List UInt8)) (size : UInt32) :
    Option Document :=
  match yamlContent with
  | none => none
  | some yamlContent =>
    if size = 0 ∨ libyaml.allocate.isSome ∨ libyaml.initialized = false then none
    else
      let size := YamlParser.contentSize yamlContent size
      (libyaml.load (yamlContent.take size.toNat)).toOption

open YamlParserPrivate in
theorem loadFromStringInternal_eq (fuel : Nat) :
    (∀ document, composed libyaml yamlContent size = some document →
      parser.loadFromStringInternal libyaml fuel yamlContent size
        = (buildMap fuel { document }).map fun built =>
          if built.1.code ≠ .ok then (built.1, parser)
          else (built.1, ⟨some { built.2 with initialized := true }⟩))
    ∧ (composed libyaml yamlContent size = none → ∃ result, result.code ≠ .ok
      ∧ parser.loadFromStringInternal libyaml fuel yamlContent size = some (result, parser)) := by
  unfold composed YamlParser.loadFromStringInternal
  cases yamlContent with
  | none => exact ⟨(fun _ h => nomatch h), fun _ => ⟨_, ConfigCode.noConfusion, rfl⟩⟩
  | some yamlContent =>
    dsimp only
    by_cases hsize : size = 0
    · rw [if_pos (.inl hsize), if_pos hsize]
      exact ⟨(fun _ h => nomatch h), fun _ => ⟨_, ConfigCode.noConfusion, rfl⟩⟩
    rw [if_neg hsize]
    cases hallocate : libyaml.allocate with
    | some what =>
      rw [if_pos (.inr (.inl rfl))]
      exact ⟨(fun _ h => nomatch h), fun _ => ⟨_, ConfigCode.noConfusion, rfl⟩⟩
    | none =>
      cases hinitialized : libyaml.initialized with
      | false =>
        rw [if_pos (.inr (.inr rfl)), if_pos rfl]
        exact ⟨(fun _ h => nomatch h), fun _ => ⟨_, ConfigCode.noConfusion, rfl⟩⟩
      | true =>
        rw [if_neg (by simp [hsize])]
        cases libyaml.load
            (yamlContent.take (YamlParser.contentSize yamlContent size).toNat) with
        | error problem =>
          exact ⟨(fun _ h => nomatch h), fun _ => ⟨_, ConfigCode.noConfusion, rfl⟩⟩
        | ok document =>
          refine ⟨fun made hmade => ?_, fun h => nomatch h⟩
          cases hmade
          dsimp only
          rw [if_neg (by simp)]
          cases buildMap fuel { document } with
          | none => rfl
          | some built =>
            dsimp only [Option.map_some]
            split
            · rfl
            · rfl

theorem getNode_installed {snapshot : YamlParserPrivate} (h : snapshot.document = document)
    (key : Path) (id : Nat) :
    (⟨some { snapshot with initialized := true }⟩ : YamlParser).getNode key = some (document, id)
      ↔ snapshot.pathIdMap.find key = some id ∧ (document.getNode id).isSome := by
  subst h
  unfold YamlParser.getNode
  dsimp only
  rw [if_neg Bool.noConfusion]
  cases snapshot.pathIdMap.find key with
  | none => simp
  | some found =>
    dsimp only
    by_cases hthere : (snapshot.document.getNode found).isSome
    · rw [if_pos hthere]
      constructor
      · intro h
        cases h
        exact ⟨rfl, hthere⟩
      · rintro ⟨h, -⟩
        cases h
        rfl
    · rw [if_neg hthere]
      refine iff_of_false (fun h => nomatch h) ?_
      rintro ⟨h, hsome⟩
      cases h
      exact hthere hsome

open YamlParserPrivate in
theorem found_iff {places : List Frame} {s : YamlParserPrivate} (h : Places document places)
    (hs : s = places.foldl take { document }) :
    (∀ id, document.Below 1 id → (document.getNode id).isSome →
        ∃ key, (⟨some { s with initialized := true }⟩ : YamlParser).getNode key
          = some (document, id))
      ↔ ∀ id, document.Below 1 id → (document.getNode id).isSome →
        OwnPlace document places id := by
  have hpaths : ∀ f ∈ places, f.path ≠ [] := fun f hf => path_ne_nil h hf
  have hdocument : s.document = document := by
    rw [hs]
    exact (foldl_take hpaths _).1
  refine forall_congr' fun id => imp_congr_right fun _ => imp_congr_right fun hthere => ?_
  rw [← exists_path_iff h hthere, ← hs]
  refine exists_congr fun key => ?_
  exact (getNode_installed hdocument key id).trans (and_iff_left hthere)

open YamlParserPrivate in
theorem ends_root (hacyclic : Acyclic document.next 1)
    (hsome : ∀ id, document.Below 1 id → document.next id ≠ none) :
    ∃ places, Places document places := by
  refine walked_iff_ends.mpr fun a ha => ?_
  rw [List.mem_singleton.mp ha]
  refine (ends_map frames_id).mpr ((ends_iff Document.finite_follows).mpr ⟨hacyclic, ?_⟩)
  exact fun b hb => hsome b (Document.below_of_comesTo hb)

open YamlParserPrivate in
theorem acyclic_of_places {places : List Frame} (h : Places document places) :
    Acyclic document.next 1 ∧ ∀ id, document.Below 1 id → document.next id ≠ none := by
  have hframe := ends_of_walked h ⟨1, rootPath⟩ List.mem_cons_self
  have hends : Ends document.next 1 := (ends_map frames_id).mp hframe
  refine ⟨hends.acyclic, fun id hid => ?_⟩
  exact (hends.of_comesTo (Document.comesTo_of_below hends hid)).next_ne_none

open YamlParserPrivate in
/-- Loading ends, and fails leaving what was loaded before or finds every node that is below the
root, exactly where the document, if there is one, is loadable. -/
theorem load_iff (parser : YamlParser) (libyaml : Libyaml) (yamlContent : Option (List UInt8))
    (size : UInt32) :
    (∃ fuel result parser',
        parser.loadFromStringInternal libyaml fuel yamlContent size = some (result, parser')
        ∧ ((result.code ≠ .ok ∧ ∀ key, parser'.getNode key = parser.getNode key)
          ∨ (result.code = .ok ∧ ∃ document, composed libyaml yamlContent size = some document
            ∧ ∀ rootId id, document.rootId = some rootId → document.Below rootId id →
              (document.getNode id).isSome → ∃ key, parser'.getNode key = some (document, id))))
      ↔ ∀ document, composed libyaml yamlContent size = some document → Loadable document := by
  cases hcomposed : composed libyaml yamlContent size with
  | none =>
    refine iff_of_true ?_ (fun _ h => nomatch h)
    obtain ⟨result, hcode, hload⟩ := (loadFromStringInternal_eq 0).2 hcomposed
    exact ⟨0, result, parser, hload, .inl ⟨hcode, fun _ => rfl⟩⟩
  | some document =>
    have hload (fuel : Nat) : parser.loadFromStringInternal libyaml fuel yamlContent size = _ :=
      (loadFromStringInternal_eq fuel).1 document hcomposed
    have hsingle : (∀ made, some document = some made → Loadable made) ↔ Loadable document :=
      ⟨fun h => h document rfl, fun h made hmade => Option.some_inj.mp hmade ▸ h⟩
    rw [hsingle]
    by_cases hnodes : document.nodes = []
    · have hroot : document.rootId = none := if_pos hnodes
      have hbuild : buildMap 0 { document } = some ({}, { document }) := by
        unfold buildMap
        rw [hroot]
      refine iff_of_true ⟨0, {}, ⟨some { document, initialized := true }⟩, ?_,
        .inr ⟨rfl, document, rfl, fun rootId id hid => ?_⟩⟩ (.inl hnodes)
      · rw [hload, hbuild]
        rfl
      · rw [hroot] at hid
        cases hid
    have hroot : document.rootId = some 1 := if_neg hnodes
    constructor
    · rintro ⟨fuel, result, parser', hloaded, houtcome⟩
      rw [hload] at hloaded
      obtain ⟨⟨built, s⟩, hbuild, hinstall⟩ := Option.map_eq_some_iff.mp hloaded
      by_cases hcode : built.code = .ok
      · rw [if_neg (not_not.mpr hcode)] at hinstall
        cases hinstall
        obtain ⟨places, hplaces, hs⟩ := (buildMap_ok_iff hroot).mp ⟨fuel, built, hbuild, hcode⟩
        obtain ⟨hacyclic, hsome⟩ := acyclic_of_places hplaces
        rcases houtcome with ⟨hfail, -⟩ | ⟨-, made, hmade, hfound⟩
        · exact absurd hcode hfail
        · cases hmade
          refine .inr (.inr ⟨hacyclic, hsome, fun places' hplaces' => ?_⟩)
          rw [← hplaces.unique hplaces']
          exact (found_iff hplaces hs).mp fun id => hfound 1 id hroot
      · exact .inr (.inl ((buildMap_fails_iff hroot).mp ⟨fuel, built, s, hbuild, hcode⟩))
    · rintro (hempty | hbreaks | ⟨hacyclic, hsome, hown⟩)
      · exact absurd hempty hnodes
      · obtain ⟨fuel, result, s, hbuild, hcode⟩ := (buildMap_fails_iff hroot).mpr hbreaks
        refine ⟨fuel, result, parser, ?_, .inl ⟨hcode, fun _ => rfl⟩⟩
        rw [hload, hbuild, Option.map_some, if_pos hcode]
      · obtain ⟨places, hplaces⟩ := ends_root hacyclic hsome
        obtain ⟨fuel, result, hbuild, hcode⟩ := (buildMap_ok_iff hroot).mpr ⟨places, hplaces, rfl⟩
        refine ⟨fuel, result, ⟨some { places.foldl take { document } with initialized := true }⟩,
          ?_, .inr ⟨hcode, document, rfl, fun rootId id hid => ?_⟩⟩
        · rw [hload, hbuild, Option.map_some, if_neg (not_not.mpr hcode)]
        · rw [hroot] at hid
          cases hid
          exact (found_iff hplaces rfl).mpr (hown places hplaces) id

end Loading

-- ==== a cycle

/-- `&a [*a]`. -/
def selfContained : Document := ⟨[.sequence [1]]⟩

theorem buildMapLoop_selfContained (fuel : Nat) (path : Path) (snapshot : YamlParserPrivate)
    (h : snapshot.document = selfContained) :
    YamlParserPrivate.buildMapLoop fuel [⟨1, path⟩] snapshot = none := by
  induction fuel generalizing path snapshot with
  | zero => rfl
  | succ fuel ih =>
    rw [YamlParserPrivate.buildMapLoop, h]
    exact ih _ _ ((YamlParserPrivate.document_emplace _ _).trans h)

/-- Loading a sequence that holds itself never ends. -/
theorem not_loaded_selfContained :
    ¬ ∃ fuel loaded, YamlParser.loadFromStringInternal {}
      ⟨none, true, fun _ => .ok selfContained⟩ fuel (some (ascii "&a [*a]")) 7 = some loaded := by
  rintro ⟨fuel, loaded, hloaded⟩
  have hbuild : YamlParserPrivate.buildMap fuel { document := selfContained } = none :=
    buildMapLoop_selfContained fuel rootPath _ rfl
  unfold YamlParser.loadFromStringInternal at hloaded
  dsimp only at hloaded
  rw [hbuild] at hloaded
  cases hloaded

end Eular.Config.Yaml
