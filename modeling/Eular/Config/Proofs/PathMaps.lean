/-
Tidy documents, where a map is the document.

`At` is what a path map is for: the node a path leads to, label by label. In
a tidy document, whose keys are plain and distinct among siblings, a path
leads to one node, both loaders reach every node, and their maps are `At`.
The tokens of such a path are what lies between its dots, for the loaders'
tokenizer and for the observer's (`dotted`).
-/
import Eular.Config.Proofs.Document

namespace Eular.Config

open Lib

variable {ts : List Token}

-- ==== tokens

/-- Tokens with dots between them. -/
def dotted : List Token → List UInt8
  | [] => []
  | [t] => t
  | t :: u :: rest => t ++ dot :: dotted (u :: rest)

/-- A token as a path has it: not empty, and without a dot. -/
def Whole (t : Token) : Prop := t ≠ [] ∧ dot ∉ t

theorem dotted_concat (hne : ts ≠ []) (t : Token) :
    dotted (ts ++ [t]) = dotted ts ++ dot :: t := by
  induction ts with
  | nil => exact absurd rfl hne
  | cons u rest ih =>
    cases rest with
    | nil => rfl
    | cons v rest =>
      have htail := ih (List.cons_ne_nil v rest)
      rw [List.cons_append] at htail ⊢
      rw [List.cons_append, dotted, dotted, htail]
      simp

theorem dotted_concat_append (ts : List Token) (t s : Token) :
    dotted (ts ++ [t ++ s]) = dotted (ts ++ [t]) ++ s := by
  by_cases hne : ts = []
  · subst hne
    rfl
  · rw [dotted_concat hne, dotted_concat hne]
    simp

theorem parseBody_token {t : Token} (ht : dot ∉ t) (acc rest : List UInt8) :
    parseBody acc (t ++ dot :: rest) =
      if acc ++ t = [] then none else (parseBody [] rest).map ((acc ++ t) :: ·) := by
  induction t generalizing acc with
  | nil => simp [parseBody]
  | cons c t ih =>
    have hc : c ≠ dot := fun heq => ht (heq ▸ List.mem_cons_self)
    rw [List.cons_append, parseBody, if_neg hc, ih (fun hmem => ht (List.mem_cons_of_mem _ hmem))]
    simp

theorem parseBody_last {t : Token} (ht : dot ∉ t) (acc : List UInt8) :
    parseBody acc t = if acc ++ t = [] then some [] else some [acc ++ t] := by
  induction t generalizing acc with
  | nil => simp [parseBody]
  | cons c t ih =>
    have hc : c ≠ dot := fun heq => ht (heq ▸ List.mem_cons_self)
    rw [parseBody, if_neg hc, ih (fun hmem => ht (List.mem_cons_of_mem _ hmem))]
    simp

theorem parseBody_dotted (h : ∀ t ∈ ts, Whole t) :
    parseBody [] (dotted ts) = some ts := by
  induction ts with
  | nil => rfl
  | cons t rest ih =>
    obtain ⟨⟨hne, hdot⟩, hrest⟩ := List.forall_mem_cons.1 h
    cases rest with
    | nil =>
      rw [dotted, parseBody_last hdot, List.nil_append, if_neg hne]
    | cons u rest =>
      rw [dotted, parseBody_token hdot, List.nil_append, if_neg hne, ih hrest]
      rfl

theorem takeWhile_token {t : Token} (ht : dot ∉ t) (rest : List UInt8) :
    (t ++ dot :: rest).takeWhile (· ≠ dot) = t ∧ t.takeWhile (· ≠ dot) = t := by
  have hall : ∀ c ∈ t, decide (c ≠ dot) = true := fun c hc =>
    decide_eq_true fun heq => ht (heq ▸ hc)
  constructor
  · rw [List.takeWhile_append_of_pos hall]
    simp
  · exact List.takeWhile_eq_self_iff.2 hall

theorem tokenizeLoop_dotted (h : ∀ t ∈ ts, Whole t) {fuel : Nat}
    (hfuel : (dotted ts).length ≤ fuel) : tokenizeLoop fuel (dotted ts) = ts := by
  induction ts generalizing fuel with
  | nil => cases fuel <;> rfl
  | cons t rest ih =>
    obtain ⟨⟨hne, hdot⟩, hrest⟩ := List.forall_mem_cons.1 h
    have hpos := List.length_pos_iff.2 hne
    cases rest with
    | nil =>
      rw [dotted] at hfuel ⊢
      obtain ⟨fuel, rfl⟩ : ∃ k, fuel = k + 1 := ⟨fuel - 1, by omega⟩
      have hend : tokenizeLoop fuel [] = [] := by cases fuel <;> rfl
      rw [tokenizeLoop, if_neg hne]
      dsimp only
      rw [(takeWhile_token hdot []).2, if_neg hne, List.drop_eq_nil_of_le (Nat.le_succ _), hend]
    | cons u rest =>
      rw [dotted] at hfuel ⊢
      rw [List.length_append, List.length_cons] at hfuel
      obtain ⟨fuel, rfl⟩ : ∃ k, fuel = k + 1 := ⟨fuel - 1, by omega⟩
      have hsome : t ++ dot :: dotted (u :: rest) ≠ [] := by simp
      have hbehind : (t ++ dot :: dotted (u :: rest)).drop (t.length + 1) = dotted (u :: rest) := by
        rw [List.drop_append]
        simp
      rw [tokenizeLoop, if_neg hsome]
      dsimp only
      rw [(takeWhile_token hdot _).1, if_neg hne, hbehind, ih hrest (by omega)]

theorem ends_dotted (h : ∀ t ∈ ts, Whole t) :
    (dotted ts).head? ≠ some dot ∧ (dotted ts).getLast? ≠ some dot := by
  constructor
  · cases ts with
    | nil => exact nofun
    | cons t rest =>
      obtain ⟨hne, hdot⟩ := h t List.mem_cons_self
      obtain ⟨c, t, rfl⟩ := List.exists_cons_of_ne_nil hne
      have hc : c ≠ dot := fun heq => hdot (heq ▸ List.mem_cons_self)
      cases rest with
      | nil => simpa [dotted] using hc
      | cons u rest => simpa [dotted] using hc
  · induction ts using List.reverseRecOn with
    | nil => exact nofun
    | append_singleton ts t _ =>
      obtain ⟨hne, hdot⟩ := h t (by simp)
      have hlast : t.getLast? ≠ some dot := fun heq => hdot (List.mem_of_getLast? heq)
      by_cases hts : ts = []
      · subst hts
        exact hlast
      · rw [dotted_concat hts, List.append_cons, List.getLast?_append_of_ne_nil _ hne]
        exact hlast

theorem tokens_dotted (h : ∀ t ∈ ts, Whole t) :
    parsePath (dollar :: dotted ts) = some ts ∧ tokenizePath (dollar :: dotted ts) = ts := by
  obtain ⟨hhead, hlast⟩ := ends_dotted h
  constructor
  · unfold parsePath
    dsimp only
    rw [if_neg (not_not.2 rfl)]
    by_cases hnil : dotted ts = []
    · rw [if_pos hnil]
      have hparse := parseBody_dotted h
      rw [hnil] at hparse
      exact hparse
    · rw [if_neg hnil, if_neg (not_or.2 ⟨hhead, hlast⟩)]
      exact parseBody_dotted h
  · unfold tokenizePath
    by_cases hnil : dotted ts = []
    · have hts : tokenizeLoop 0 (dotted ts) = ts :=
        tokenizeLoop_dotted h (by rw [hnil]; exact le_rfl)
      rw [if_pos (Or.inr (by rw [hnil]; rfl)), ← hts]
      rfl
    · have hlen := List.length_pos_iff.2 hnil
      have hlong : ¬((dollar :: dotted ts).head? ≠ some dollar
          ∨ (dollar :: dotted ts).length = 1) := by
        simp [hnil]
      rw [if_neg hlong]
      exact tokenizeLoop_dotted h (Nat.le_succ _)

theorem extend_dotted (h : ∀ t ∈ ts, Whole t) {a : Label} (ha : a.Plain) :
    ∃ us, (∀ t ∈ us, Whole t) ∧ extend (dollar :: dotted ts) a = dollar :: dotted us := by
  cases a with
  | key text =>
    refine ⟨ts ++ [text], ?_, ?_⟩
    · intro t ht
      rcases List.mem_append.1 ht with hold | hnew
      · exact h t hold
      · rw [List.mem_singleton.1 hnew]
        exact ⟨ha.1, ha.2.1⟩
    · rw [extend, joinKey_cons]
      by_cases hts : ts = []
      · subst hts
        rfl
      · obtain ⟨t, rest, rfl⟩ := List.exists_cons_of_ne_nil hts
        have hsome : dotted (t :: rest) ≠ [] := by
          have hne := (h t List.mem_cons_self).1
          cases rest with
          | nil => exact hne
          | cons u rest => simp [dotted]
        rw [if_neg hsome, dotted_concat hts]
  | index idx =>
    have hdot : dot ∉ opening :: (decimal idx ++ [closing]) := by
      intro hmem
      rcases List.mem_cons.1 hmem with heq | hmem
      · exact absurd heq (by decide)
      · rcases List.mem_append.1 hmem with hdigit | hlast
        · exact not_mem_decimal (Or.inl (by decide)) hdigit
        · exact absurd (List.mem_singleton.1 hlast) (by decide)
    rw [extend, joinIndex_cons]
    induction ts using List.reverseRecOn with
    | nil =>
      refine ⟨[opening :: (decimal idx ++ [closing])], ?_, rfl⟩
      intro t ht
      rw [List.mem_singleton.1 ht]
      exact ⟨List.cons_ne_nil _ _, hdot⟩
    | append_singleton ts t _ =>
      refine ⟨ts ++ [t ++ opening :: (decimal idx ++ [closing])], ?_, ?_⟩
      · intro u hu
        rcases List.mem_append.1 hu with hold | hnew
        · exact h u (List.mem_append_left _ hold)
        · obtain ⟨hne, htdot⟩ := h t (by simp)
          rw [List.mem_singleton.1 hnew]
          refine ⟨by simp, fun hmem => ?_⟩
          exact (List.mem_append.1 hmem).elim htdot hdot
      · rw [dotted_concat_append]

-- ==== tidy

/-- What a path leads to, label by label. -/
inductive Doc.At (doc : Doc) : Path → Doc → Prop
  | root : doc.At rootPath doc
  | child {path : Path} {u v : Doc} {a : Label} : doc.At path u → (some a, v) ∈ u.edges →
      doc.At (extend path a) v

/-- Every key is a text, not empty and free of path syntax, and siblings
have distinct keys. -/
structure Doc.Tidy (doc : Doc) : Prop where
  plain : ∀ id pairs, doc.Sub (.mapping id pairs) → ∀ pair ∈ pairs,
    ∃ key, pair.1 = some key ∧ (Label.key key).Plain
  distinct : ∀ id pairs, doc.Sub (.mapping id pairs) → (pairs.map Prod.fst).Nodup

variable {doc : Doc} {loader : Loader} {f g : Frame}

namespace Doc.Tidy

variable {u : Doc} {path : Path}

theorem edge_plain (h : doc.Tidy) (hu : doc.Sub u) {e : Option Label × Doc}
    (he : e ∈ u.edges) : ∃ a, e.1 = some a ∧ a.Plain := by
  cases u with
  | scalar id => cases he
  | sequence id items =>
    obtain ⟨item, -, rfl⟩ := List.mem_map.1 he
    exact ⟨.index item.2, rfl, trivial⟩
  | mapping id pairs =>
    obtain ⟨pair, hpair, rfl⟩ := List.mem_map.1 he
    obtain ⟨key, hkey, hplain⟩ := h.plain id pairs hu pair hpair
    exact ⟨.key key, by rw [hkey]; rfl, hplain⟩

theorem edge_nodup (h : doc.Tidy) (hu : doc.Sub u) : (u.edges.map Prod.fst).Nodup := by
  cases u with
  | scalar id => exact List.nodup_nil
  | sequence id items =>
    have hindices : (Doc.sequence id items).edges.map Prod.fst =
        (items.zipIdx.map Prod.snd).map fun idx => some (Label.index idx) := by
      rw [Doc.edges, List.map_map, List.map_map]
      rfl
    rw [hindices]
    refine List.Nodup.map (fun i j hij => Label.index.inj (Option.some_inj.1 hij)) ?_
    rw [List.zipIdx_map_snd]
    exact List.nodup_range'
  | mapping id pairs =>
    have hkeys : (Doc.mapping id pairs).edges.map Prod.fst =
        (pairs.map Prod.fst).map fun key => key.map Label.key := by
      rw [Doc.edges, List.map_map, List.map_map]
      rfl
    rw [hkeys]
    exact (h.distinct id pairs hu).map (Option.map_injective fun _ _ hij => Label.key.inj hij)

theorem frames_iff (h : doc.Tidy) (hf : doc.Sub f.node) :
    loader.next f ≠ none ∧ (g ∈ loader.frames f ↔
      ∃ a, (some a, g.node) ∈ f.node.edges ∧ g.path = extend f.path a) := by
  cases hnode : f.node with
  | scalar id =>
    cases loader with
    | json => exact ⟨Option.some_ne_none _, by
        simp [Loader.frames, Loader.next, jsonNext, jsonPushes, hnode, Doc.edges]⟩
    | yaml =>
      have hpush : yamlPushes f = some [] := by
        unfold yamlPushes
        rw [hnode]
      exact ⟨by simp [Loader.next, yamlNext, hpush], by
        simp [Loader.frames, Loader.next, yamlNext, hpush, Doc.edges]⟩
  | sequence id items =>
    have hitems : g ∈ itemFrames f.path items ↔
        ∃ a, (some a, g.node) ∈ (Doc.sequence id items).edges ∧ g.path = extend f.path a := by
      rw [mem_itemFrames]
      constructor
      · rintro ⟨idx, hmem, hpath⟩
        exact ⟨.index idx, List.mem_map.2 ⟨_, hmem, rfl⟩, hpath⟩
      · rintro ⟨a, hmem, hpath⟩
        obtain ⟨⟨node, idx⟩, hidx, heq⟩ := List.mem_map.1 hmem
        obtain ⟨hlabel, rfl⟩ := Prod.mk.inj heq
        obtain rfl := Option.some_inj.1 hlabel
        exact ⟨idx, hidx, hpath⟩
    cases loader with
    | json =>
      refine ⟨Option.some_ne_none _, ?_⟩
      show g ∈ (jsonPushes f).reverse ↔ _
      rw [List.mem_reverse, ← hitems]
      unfold jsonPushes
      rw [hnode]
    | yaml =>
      have hpush : yamlPushes f = some (itemFrames f.path items) := by
        unfold yamlPushes
        rw [hnode]
      refine ⟨by simp [Loader.next, yamlNext, hpush], ?_⟩
      show g ∈ (yamlPushes f).getD [] ↔ _
      rw [hpush, ← hitems]
      rfl
  | mapping id pairs =>
    rw [hnode] at hf
    have hkeys := h.plain id pairs hf
    have hpairs : g ∈ pairFrames f.path pairs ↔
        ∃ a, (some a, g.node) ∈ (Doc.mapping id pairs).edges ∧ g.path = extend f.path a := by
      rw [mem_pairFrames]
      constructor
      · rintro ⟨key, hmem, hpath⟩
        exact ⟨.key key, List.mem_map.2 ⟨_, hmem, rfl⟩, hpath⟩
      · rintro ⟨a, hmem, hpath⟩
        obtain ⟨⟨key, node⟩, hpair, heq⟩ := List.mem_map.1 hmem
        obtain ⟨hkey, rfl⟩ := Prod.mk.inj heq
        obtain ⟨text, rfl, rfl⟩ := Option.map_eq_some_iff.1 hkey
        exact ⟨text, hpair, hpath⟩
    cases loader with
    | json =>
      refine ⟨Option.some_ne_none _, ?_⟩
      show g ∈ (jsonPushes f).reverse ↔ _
      have hall : pairs.filter (fun pair => pair.1 ≠ some []) = pairs := by
        refine List.filter_eq_self.2 fun pair hpair => decide_eq_true fun hnil => ?_
        obtain ⟨key, hkey, hplain⟩ := hkeys pair hpair
        rw [hkey] at hnil
        exact hplain.1 (Option.some_inj.1 hnil)
      rw [List.mem_reverse, jsonPushes_mapping hnode, hall]
      exact hpairs
    | yaml =>
      have hpush : yamlPushes f = some (pairFrames f.path pairs) := by
        refine (yamlPushes_mapping hnode).2 ⟨fun pair hpair hnone => ?_, rfl⟩
        obtain ⟨key, hkey, -⟩ := hkeys pair hpair
        rw [hkey] at hnone
        cases hnone
      refine ⟨by simp [Loader.next, yamlNext, hpush], ?_⟩
      show g ∈ (yamlPushes f).getD [] ↔ _
      rw [hpush]
      exact hpairs

theorem mem_walk_iff (h : doc.Tidy) : g ∈ loader.walk doc ↔ doc.At g.path g.node := by
  constructor
  · intro hg
    refine Loader.walk_inv (P := fun g => doc.At g.path g.node) .root (fun f _ hf g hg => ?_) g hg
    obtain ⟨a, hedge, hpath⟩ := edge_of_mem_frames hg
    rw [hpath]
    exact hf.child hedge
  · intro hat
    have hframe : ∀ {path u}, doc.At path u → (⟨u, path⟩ : Frame) ∈ loader.walk doc := by
      intro path u hat
      induction hat with
      | root => exact Loader.root_mem_walk
      | @child path u v a _ hedge ih =>
        refine Loader.mem_walk_of_frames ih ?_
        exact (h.frames_iff (Loader.sub_of_walk ih)).2.2 ⟨a, hedge, rfl⟩
    exact hframe hat

theorem at_sub (hat : doc.At path u) : doc.Sub u := by
  induction hat with
  | root => exact .refl
  | @child path u v a _ hedge ih =>
    refine ih.tail ?_
    rw [← Doc.edges_snd]
    exact List.mem_map_of_mem hedge

theorem at_rooted (hat : doc.At path u) : Rooted path := by
  induction hat with
  | root => exact rooted_rootPath
  | child _ _ ih => exact ih.extend _

theorem at_unique (h : doc.Tidy) {u v : Doc} (hu : doc.At path u)
    (hv : doc.At path v) : u = v := by
  induction hu generalizing v with
  | root =>
    generalize hpath : rootPath = path at hv
    cases hv with
    | root => rfl
    | child hat hedge =>
      obtain ⟨a, heq, hplain⟩ := h.edge_plain (at_sub hat) hedge
      obtain rfl := Option.some_inj.1 heq
      exact absurd hpath.symm (extend_ne_root (at_rooted hat) hplain)
  | @child path u u' a hat hedge ih =>
    obtain ⟨b, heq, hplain⟩ := h.edge_plain (at_sub hat) hedge
    obtain rfl := Option.some_inj.1 heq
    generalize hpath : extend path a = path' at hv
    cases hv with
    | root => exact absurd hpath (extend_ne_root (at_rooted hat) hplain)
    | @child path₂ w _ b hat₂ hedge₂ =>
      obtain ⟨c, heq₂, hplain₂⟩ := h.edge_plain (at_sub hat₂) hedge₂
      obtain rfl := Option.some_inj.1 heq₂
      obtain ⟨rfl, rfl⟩ := extend_inj (at_rooted hat) (at_rooted hat₂) hplain hplain₂ hpath
      obtain rfl := ih hat₂
      have hedges := List.inj_on_of_nodup_map (h.edge_nodup (at_sub hat)) hedge hedge₂ rfl
      exact congrArg Prod.snd hedges

theorem at_dotted (h : doc.Tidy) (hat : doc.At path u) :
    ∃ ts, (∀ t ∈ ts, Whole t) ∧ path = dollar :: dotted ts := by
  induction hat with
  | root => exact ⟨[], nofun, rfl⟩
  | @child path u v a hat hedge ih =>
    obtain ⟨ts, hts, rfl⟩ := ih
    obtain ⟨b, heq, hplain⟩ := h.edge_plain (at_sub hat) hedge
    obtain rfl := Option.some_inj.1 heq
    exact extend_dotted hts hplain

end Doc.Tidy

-- ==== maps

theorem tokens_buildMap {m : PathMap} (hm : loader.buildMap doc = some m) (path : Path) :
    m.pathTokensMap.find path = (m.getNode path).map fun _ => tokenizePath path := by
  unfold PathMap.getNode
  rw [(Loader.find_buildMap hm path).1, (Loader.find_buildMap hm path).2]
  cases hholder : loader.holder doc path with
  | none => rfl
  | some f =>
    obtain ⟨-, rfl⟩ := Loader.holder_eq_some hholder
    rfl

theorem Doc.Tidy.getNode_iff (h : doc.Tidy) {m : PathMap} (hm : loader.buildMap doc = some m)
    (path : Path) (u : Doc) : m.getNode path = some u ↔ doc.At path u := by
  unfold PathMap.getNode
  rw [(Loader.find_buildMap hm path).1]
  constructor
  · intro hfind
    obtain ⟨f, hholder, rfl⟩ := Option.map_eq_some_iff.1 hfind
    obtain ⟨hf, rfl⟩ := Loader.holder_eq_some hholder
    exact h.mem_walk_iff.1 hf
  · intro hat
    have hframe : (⟨u, path⟩ : Frame) ∈ loader.walk doc := h.mem_walk_iff.2 hat
    obtain ⟨k, hk⟩ := Loader.exists_holder hframe
    obtain ⟨hkw, hkp⟩ := Loader.holder_eq_some hk
    have hkat := h.mem_walk_iff.1 hkw
    rw [hkp] at hkat
    rw [hk, ← h.at_unique hkat hat]
    rfl

theorem Doc.Tidy.exists_buildMap (h : doc.Tidy) (loader : Loader) :
    ∃ m, loader.buildMap doc = some m :=
  ⟨_, Loader.buildMap_eq_some.2
    ⟨fun f hf => (h.frames_iff (g := f) (Loader.sub_of_walk hf)).1, rfl⟩⟩

theorem eq_of_getNode {l l' : Loader} {m m' : PathMap} (hm : l.buildMap doc = some m)
    (hm' : l'.buildMap doc = some m') (h : ∀ path, m.getNode path = m'.getNode path) : m = m' := by
  have hnodes : m.pathNodeMap = m'.pathNodeMap := SortedMap.ext_find h
  have htokens : m.pathTokensMap = m'.pathTokensMap := SortedMap.ext_find fun path => by
    rw [tokens_buildMap hm, tokens_buildMap hm', h]
  cases m
  cases m'
  simp_all

theorem Doc.Tidy.exists_at (h : doc.Tidy) {u : Doc} (hu : doc.Sub u) : ∃ path, doc.At path u := by
  induction hu with
  | refl => exact ⟨rootPath, .root⟩
  | @tail u v hprev hchild ih =>
    obtain ⟨path, hat⟩ := ih
    have hmem : v ∈ u.edges.map Prod.snd := by
      rw [Doc.edges_snd]
      exact hchild
    obtain ⟨e, he, rfl⟩ := List.mem_map.1 hmem
    obtain ⟨a, ha, -⟩ := h.edge_plain hprev he
    exact ⟨extend path a, hat.child (by rw [← ha]; exact he)⟩

theorem notify_prepared {C : Type} (s : ConfigObserver C) (valid : Option Doc → Bool)
    (getNode : Path → Option Doc) {path : Path} {tokens : List Token}
    (hparse : parsePath path = some tokens) :
    s.notifyPreparedNode valid path tokens (getNode path) = s.notify getNode valid path := by
  unfold ConfigObserver.notifyPreparedNode ConfigObserver.notify
  rw [hparse]
  dsimp only
  unfold ConfigObserver.notifyLinear ConfigObserver.notifyTrie
  rw [ConfigObserver.callsAt_eq, ConfigObserver.callsAt_eq]
  by_cases hvalid : valid (getNode path) = true
  · simp only [hvalid, Bool.not_true, Bool.false_eq_true, if_false, if_true]
    rfl
  · simp [hvalid]

/-- Of a tidy document both loaders make the map that its paths are, every
node under a path of its own, with the tokens the observer parses, so that
a notification of all is one for each path. And a map that either makes, of
whatever document, is coherent where the document is undisturbed; of a
document without aliases only there. -/
theorem path_maps (doc : Doc) :
    (doc.Tidy → ∃ m, Loader.json.buildMap doc = some m ∧ Loader.yaml.buildMap doc = some m ∧
      (∀ path u, m.getNode path = some u ↔ doc.At path u) ∧
      (∀ u, doc.Sub u → ∃ path, m.getNode path = some u) ∧
      (∀ path u, m.getNode path = some u → ∃ tokens,
        parsePath path = some tokens ∧ (path, tokens, some u) ∈ m.foreachNode) ∧
      ∀ (C : Type) (s : ConfigObserver C) (valid : Option Doc → Bool),
        s.notifyAll valid m.foreachNode =
          m.foreachNode.flatMap fun n => s.notify m.getNode valid n.1) ∧
    ∀ (loader : Loader) (m : PathMap), loader.buildMap doc = some m →
      (loader.Undisturbed doc → m.Coherent) ∧
        (doc.Tree → m.Coherent → loader.Undisturbed doc) := by
  refine ⟨fun h => ?_, fun loader m hm =>
    ⟨fun hund => hund.coherent hm, fun ht hco => Loader.undisturbed_of_coherent ht hm hco⟩⟩
  obtain ⟨m, hm⟩ := h.exists_buildMap .json
  obtain ⟨m', hm'⟩ := h.exists_buildMap .yaml
  have hget := h.getNode_iff hm
  have hsame : m' = m := eq_of_getNode hm' hm fun path => Option.ext fun u =>
    (h.getNode_iff hm' path u).trans (hget path u).symm
  have htokens : ∀ path u, m.getNode path = some u →
      parsePath path = some (tokenizePath path) ∧
        m.pathTokensMap.find path = some (tokenizePath path) := by
    intro path u hu
    obtain ⟨ts, hts, hpath⟩ := h.at_dotted ((hget path u).1 hu)
    refine ⟨?_, by rw [tokens_buildMap hm, hu]; rfl⟩
    rw [hpath, (tokens_dotted hts).1, (tokens_dotted hts).2]
  refine ⟨m, hm, by rw [hm', hsame], hget, fun u hu => ?_, fun path u hu => ?_, fun C s valid => ?_⟩
  · obtain ⟨path, hat⟩ := h.exists_at hu
    exact ⟨path, (hget path u).2 hat⟩
  · refine ⟨tokenizePath path, (htokens path u hu).1, List.mem_filterMap.2 ⟨(path, u), ?_, ?_⟩⟩
    · exact SortedMap.find_eq_some_iff.1 hu
    · rw [(htokens path u hu).2]
      rfl
  · refine List.flatMap_congr fun n hn => ?_
    obtain ⟨⟨path, u⟩, hentry, hsome⟩ := List.mem_filterMap.1 hn
    obtain ⟨tokens, hfind, rfl⟩ := Option.map_eq_some_iff.1 hsome
    have hu : m.getNode path = some u := SortedMap.find_eq_some_iff.2 hentry
    obtain ⟨hparse, hfound⟩ := htokens path u hu
    obtain rfl : tokenizePath path = tokens := Option.some_inj.1 (hfound.symm.trans hfind)
    rw [← notify_prepared s valid m.getNode hparse, hu]

/-- `{"a": {"x": 1}, "b": 2}`. -/
def nested : Doc :=
  .mapping 0 [(some (ascii "a"), .mapping 1 [(some (ascii "x"), .scalar 2)]),
    (some (ascii "b"), .scalar 3)]

theorem sub_nested {u : Doc} (h : nested.Sub u) :
    u = nested ∨ u = .mapping 1 [(some (ascii "x"), .scalar 2)] ∨ u = .scalar 2
      ∨ u = .scalar 3 := by
  induction h with
  | refl => exact .inl rfl
  | tail _ hchild ih =>
    obtain rfl | rfl | rfl | rfl := ih
    · obtain rfl | rfl := List.mem_pair.mp hchild
      · exact .inr (.inl rfl)
      · exact .inr (.inr (.inr rfl))
    · obtain rfl := List.mem_singleton.mp hchild
      exact .inr (.inr (.inl rfl))
    · cases hchild
    · cases hchild

theorem tidy_nested : nested.Tidy where
  plain id pairs h pair hpair := by
    obtain h | h | h | h := sub_nested h
    · cases h
      obtain rfl | rfl := List.mem_pair.mp hpair
      · exact ⟨_, rfl, by unfold Label.Plain; decide⟩
      · exact ⟨_, rfl, by unfold Label.Plain; decide⟩
    · cases h
      obtain rfl := List.mem_singleton.mp hpair
      exact ⟨_, rfl, by unfold Label.Plain; decide⟩
    · cases h
    · cases h
  distinct id pairs h := by
    obtain h | h | h | h := sub_nested h
    · cases h
      decide
    · cases h
      decide
    · cases h
    · cases h

/-- Both loaders have its four nodes. -/
theorem path_maps_nested :
    ∃ m, Loader.json.buildMap nested = some m ∧ Loader.yaml.buildMap nested = some m
      ∧ ∀ u, nested.Sub u → ∃ path, m.getNode path = some u := by
  obtain ⟨m, hjson, hyaml, -, hall, -⟩ := (path_maps nested).1 tidy_nested
  exact ⟨m, hjson, hyaml, hall⟩

/-- `{"a": {"x": 1}, "a": {"y": 2}}`: JSON keeps the second object under
"$a", and the first one's member under "$a.x". -/
theorem not_coherent_duplicateKey :
    ∃ m, Loader.json.buildMap (.mapping 0
        [(some (ascii "a"), .mapping 1 [(some (ascii "x"), .scalar 2)]),
          (some (ascii "a"), .mapping 3 [(some (ascii "y"), .scalar 4)])]) = some m ∧
      ¬m.Coherent := by
  refine ⟨_, rfl, fun h => ?_⟩
  have hchild := h (ascii "$a") (.key (ascii "x")) (.mapping 3 [(some (ascii "y"), .scalar 4)])
    (.scalar 2) ⟨by decide, by decide, by decide, by decide⟩ rfl rfl
  rcases List.mem_singleton.1 hchild

end Eular.Config
