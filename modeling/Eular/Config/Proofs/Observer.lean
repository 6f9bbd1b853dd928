/-
The trie path of the observer is its linear path.

`Matches` says what a pattern stands for, `Subscribed` what an observer is
for: the list of the live subscriptions. The invariant is `Coherent`: every
id is in the trie at the place of its pattern (`mem_match_insert`: one
insertion adds one id to the answers its pattern is for), and the index
leads from the active ids to their places in the list.

# Order

The trie gives the ids of one path in no particular order and, as each is
at one place, once. Sorted they are in the order of the list, because the
counter only grows (`ids_eq`).
-/
import Eular.Config.Observer

namespace Eular.Config

open Lib

-- ==== matching

/-- The paths a pattern stands for. -/
inductive Matches : List Token → List Token → Prop
  | nil : Matches [] []
  | hash (path : List Token) : Matches [hash] path
  | plus (t : Token) {pattern path : List Token} : Matches pattern path →
      Matches (plus :: pattern) (t :: path)
  | token {t : Token} {pattern path : List Token} : t ≠ Config.hash → Matches pattern path →
      Matches (t :: pattern) (t :: path)

theorem plus_ne_hash : plus ≠ hash := by decide

theorem matchTokens_iff {pattern path : List Token} :
    matchTokens pattern path = true ↔ Matches pattern path := by
  constructor
  · intro h
    induction pattern generalizing path with
    | nil =>
      rw [matchTokens, List.isEmpty_iff] at h
      rw [h]
      exact .nil
    | cons p pattern ih =>
      unfold matchTokens at h
      by_cases hp : p = hash
      · rw [if_pos hp, List.isEmpty_iff] at h
        rw [hp, h]
        exact .hash path
      · rw [if_neg hp] at h
        cases path with
        | nil => cases h
        | cons t path =>
          dsimp only at h
          split at h
          · cases h
          · rename_i hfits
            by_cases hplus : p = plus
            · rw [hplus]
              exact .plus t (ih h)
            · have hpt : p = t := by tauto
              rw [← hpt]
              exact .token hp (ih h)
  · intro h
    induction h with
    | nil => rfl
    | hash path => simp [matchTokens]
    | plus t _ ih => simp [matchTokens, plus_ne_hash, ih]
    | token ht _ ih => simp [matchTokens, ht, ih]

-- ==== trie

variable {id x : Nat} {path : List Token} {node : TrieNode}

/-- The answers below a child that may not be there. -/
def matchBelow (path : List Token) : Option TrieNode → List Nat
  | some child => matchSubscriptions path child
  | none => []

theorem matchSubscriptions_cons (t : Token) (path : List Token) (node : TrieNode) :
    matchSubscriptions (t :: path) node =
      node.hashSubscriptions ++ matchBelow path (node.findChild t)
        ++ matchBelow path node.plus := by
  rw [matchSubscriptions]
  cases node.findChild t <;> cases node.plus <;> rfl

theorem matchSubscriptions_empty (path : List Token) : matchSubscriptions path .empty = [] := by
  cases path <;> rfl

theorem matchBelow_getD (path : List Token) (child : Option TrieNode) :
    matchSubscriptions path (child.getD .empty) = matchBelow path child := by
  cases child with
  | none => exact matchSubscriptions_empty path
  | some child => rfl

theorem find_changeChild (token t : Token) (f : TrieNode → TrieNode)
    (l : List (Token × TrieNode)) :
    ((changeChild token f l).find? fun c => c.1 = t).map Prod.snd =
      if t = token then some (f (((l.find? fun c => c.1 = token).map Prod.snd).getD .empty))
      else (l.find? fun c => c.1 = t).map Prod.snd := by
  induction l with
  | nil => by_cases ht : t = token <;> simp [changeChild, ht, Ne.symm]
  | cons c l ih =>
    unfold changeChild
    by_cases hc : c.1 = token
    · by_cases ht : t = token
      · simp [hc, ht]
      · simp [hc, ht, Ne.symm ht]
    · by_cases hct : c.1 = t
      · have ht : ¬ t = token := fun h => hc (hct.trans h)
        simp [hct, ht]
      · simp only [hc, if_false, List.find?_cons, hct, decide_false]
        exact ih

/-- An insertion adds its id to the answers for the paths of its pattern,
and to no others. -/
theorem mem_match_insert {tokens : List Token} (h : hashOnlyLast tokens = true) :
    x ∈ matchSubscriptions path (insertSubscription id tokens node) ↔
      x ∈ matchSubscriptions path node ∨ x = id ∧ matchTokens tokens path = true := by
  induction tokens generalizing node path with
  | nil =>
    obtain ⟨children, plusNode, exact, hashes⟩ := node
    cases path with
    | nil =>
      simp only [insertSubscription, matchSubscriptions, TrieNode.hashSubscriptions,
        TrieNode.exactSubscriptions, matchTokens, List.isEmpty_nil, List.mem_append,
        List.mem_singleton]
      tauto
    | cons t path => simp [insertSubscription, matchSubscriptions_cons, TrieNode.hashSubscriptions,
        TrieNode.findChild, TrieNode.children, TrieNode.plus, matchTokens]
  | cons token tokens ih =>
    obtain ⟨children, plusNode, exact, hashes⟩ := node
    unfold hashOnlyLast at h
    unfold insertSubscription matchTokens
    by_cases hhash : token = hash
    · -- the rest of the pattern is empty: every path that gets here is meant
      rw [if_pos hhash] at h ⊢
      simp only [if_pos hhash, h]
      cases path with
      | nil =>
        simp only [matchSubscriptions, TrieNode.hashSubscriptions, TrieNode.exactSubscriptions,
          List.mem_append, List.mem_singleton]
        tauto
      | cons t path =>
        simp only [matchSubscriptions_cons, TrieNode.hashSubscriptions, TrieNode.findChild,
          TrieNode.children, TrieNode.plus, List.mem_append, List.mem_singleton]
        tauto
    · rw [if_neg hhash] at h ⊢
      simp only [if_neg hhash]
      by_cases hplus : token = plus
      · simp only [if_pos hplus]
        cases path with
        | nil => simp [matchSubscriptions, TrieNode.hashSubscriptions, TrieNode.exactSubscriptions]
        | cons t path =>
          have hbelow : x ∈ matchSubscriptions path
              (insertSubscription id tokens (plusNode.getD .empty)) ↔ _ := ih h
          rw [matchBelow_getD] at hbelow
          simp only [matchSubscriptions_cons, TrieNode.hashSubscriptions, TrieNode.findChild,
            TrieNode.children, TrieNode.plus, List.mem_append, matchBelow, hplus, ne_eq,
            not_true_eq_false, false_and, if_false, hbelow]
          tauto
      · simp only [if_neg hplus]
        cases path with
        | nil => simp [matchSubscriptions, TrieNode.hashSubscriptions, TrieNode.exactSubscriptions]
        | cons t path =>
          simp only [matchSubscriptions_cons, TrieNode.hashSubscriptions, TrieNode.findChild,
            TrieNode.children, TrieNode.plus, List.mem_append, find_changeChild]
          by_cases ht : t = token
          · have hbelow : x ∈ matchSubscriptions path (insertSubscription id tokens
                (((children.find? fun c => c.1 = token).map Prod.snd).getD .empty)) ↔ _ := ih h
            rw [matchBelow_getD] at hbelow
            simp only [ht, if_true, matchBelow, hbelow, ne_eq, not_true_eq_false, and_false,
              if_false]
            tauto
          · simp [ht, hplus, Ne.symm ht]

-- ==== sorting

/-- `std::unique` of a sorted list: the same ids, each once. -/
theorem unique_sorted {l : List Nat} (h : l.Pairwise (· ≤ ·)) :
    (unique l).Pairwise (· < ·) ∧ ∀ a, a ∈ unique l ↔ a ∈ l := by
  induction l using unique.induct with
  | case1 a rest ih =>
    obtain ⟨hlt, hmem⟩ := ih h.tail
    rw [unique, if_pos rfl]
    refine ⟨hlt, fun b => ?_⟩
    rw [hmem]
    simp
  | case2 a b rest hab ih =>
    obtain ⟨hlt, hmem⟩ := ih h.tail
    rw [unique, if_neg hab]
    refine ⟨List.pairwise_cons.2 ⟨fun c hc => ?_, hlt⟩, fun c => ?_⟩
    · have hle : a ≤ b := List.rel_of_pairwise_cons h List.mem_cons_self
      rcases List.mem_cons.1 ((hmem c).1 hc) with rfl | hrest
      · omega
      · have hbc := List.rel_of_pairwise_cons h.tail hrest
        omega
    · rw [List.mem_cons, hmem]
      exact List.mem_cons.symm
  | case3 l hshort =>
    rcases l with _ | ⟨a, _ | ⟨b, rest⟩⟩
    · simp [unique]
    · simp [unique]
    · exact absurd rfl (hshort a b rest)

-- ==== invariant

namespace ConfigObserver

variable {C N : Type} {s : ConfigObserver C}

/-- Deactivation of one subscription. -/
def deactivate (id : Nat) (y : Subscription C) : Subscription C :=
  if y.id = id then { y with active := false } else y

/-- What the parts of an observer say of each other. -/
structure Coherent (s : ConfigObserver C) : Prop where
  ids : s.subscriptions.Pairwise fun x y => x.id < y.id
  pos : ∀ x ∈ s.subscriptions, 0 < x.id
  fresh : ∀ x ∈ s.subscriptions, x.id < s.nextId
  next : 0 < s.nextId
  index : ∀ id i, s.subscriptionIndex.find id = some i ↔
    ∃ x, s.subscriptions[i]? = some x ∧ x.id = id ∧ x.active = true
  tokens : ∀ x ∈ s.subscriptions, hashOnlyLast x.tokens = true
  trie : ∀ path id, id ∈ matchSubscriptions path s.root ↔
    ∃ x ∈ s.subscriptions, x.id = id ∧ matchTokens x.tokens path = true
  count : s.activeCount = (s.subscriptions.filter Subscription.active).length

theorem Coherent.eq_of_id (h : s.Coherent) {x y : Subscription C} (hx : x ∈ s.subscriptions)
    (hy : y ∈ s.subscriptions) (heq : x.id = y.id) : x = y := by
  have hids : Sorted Subscription.id s.subscriptions := h.ids
  exact hids.eq_of_key hx hy heq

theorem coherent_new : ({} : ConfigObserver C).Coherent where
  ids := List.Pairwise.nil
  pos := by simp
  fresh := by simp
  next := Nat.one_pos
  index := by simp
  tokens := by simp
  trie := fun path id => by
    show id ∈ matchSubscriptions path .empty ↔ _
    simp [matchSubscriptions_empty]
  count := rfl

theorem parsePattern_eq_some {pattern : List UInt8} {tokens : List Token}
    (h : parsePattern pattern = some tokens) : hashOnlyLast tokens = true := by
  unfold parsePattern at h
  split at h
  · cases h
  · split at h
    · rename_i hhash
      cases h
      exact hhash
    · cases h

/-- A subscription that is taken, put in place. -/
def added (s : ConfigObserver C) (x : Subscription C) : ConfigObserver C where
  subscriptions := s.subscriptions ++ [x]
  subscriptionIndex := s.subscriptionIndex.insert x.id s.subscriptions.length
  root := insertSubscription x.id x.tokens s.root
  activeCount := s.activeCount + 1
  nextId := x.id + 1

theorem coherent_added (h : s.Coherent) {x : Subscription C} (hid : x.id = s.nextId)
    (hactive : x.active = true) (htokens : hashOnlyLast x.tokens = true) :
    (s.added x).Coherent where
  ids := by
    refine List.pairwise_append.2 ⟨h.ids, List.pairwise_singleton _ _, fun y hy z hz => ?_⟩
    rw [List.mem_singleton.1 hz, hid]
    exact h.fresh y hy
  pos := fun y hy => by
    rcases List.mem_append.1 hy with hold | hnew
    · exact h.pos y hold
    · rw [List.mem_singleton.1 hnew, hid]
      exact h.next
  fresh := fun y hy => by
    show y.id < x.id + 1
    rcases List.mem_append.1 hy with hold | hnew
    · have hlt := h.fresh y hold
      omega
    · rw [List.mem_singleton.1 hnew]
      omega
  next := Nat.succ_pos _
  index := fun id i => by
    show (s.subscriptionIndex.insert x.id s.subscriptions.length).find id = some i ↔
      ∃ y, (s.subscriptions ++ [x])[i]? = some y ∧ _
    rw [SortedMap.find_insert]
    by_cases hx : id = x.id
    · -- the place behind the list, and no other subscription has the id
      rw [if_pos hx]
      constructor
      · rintro hi
        cases hi
        exact ⟨x, by simp, hx.symm, hactive⟩
      · rintro ⟨y, hy, hyid, -⟩
        by_cases hi : i < s.subscriptions.length
        · rw [List.getElem?_append_left hi] at hy
          have hlt := h.fresh y (List.mem_of_getElem? hy)
          omega
        · obtain ⟨hlen, -⟩ := List.getElem?_eq_some_iff.1 hy
          rw [List.length_append, List.length_singleton] at hlen
          congr 1
          omega
    · rw [if_neg hx, h.index]
      constructor
      · rintro ⟨y, hy, hrest⟩
        obtain ⟨hi, -⟩ := List.getElem?_eq_some_iff.1 hy
        exact ⟨y, by rw [List.getElem?_append_left hi]; exact hy, hrest⟩
      · rintro ⟨y, hy, hyid, hyact⟩
        by_cases hi : i < s.subscriptions.length
        · rw [List.getElem?_append_left hi] at hy
          exact ⟨y, hy, hyid, hyact⟩
        · rw [List.getElem?_append_right (by omega)] at hy
          have hmem := List.mem_singleton.1 (List.mem_of_getElem? hy)
          rw [hmem] at hyid
          exact absurd hyid.symm hx
  tokens := fun y hy => by
    rcases List.mem_append.1 hy with hold | hnew
    · exact h.tokens y hold
    · rw [List.mem_singleton.1 hnew]
      exact htokens
  trie := fun path id => by
    show id ∈ matchSubscriptions path (insertSubscription x.id x.tokens s.root) ↔
      ∃ y ∈ s.subscriptions ++ [x], _
    rw [mem_match_insert htokens, h.trie]
    constructor
    · rintro (⟨y, hy, hrest⟩ | ⟨rfl, hmatch⟩)
      · exact ⟨y, List.mem_append_left _ hy, hrest⟩
      · exact ⟨x, List.mem_append_right _ (List.mem_singleton.2 rfl), rfl, hmatch⟩
    · rintro ⟨y, hy, hyid, hmatch⟩
      rcases List.mem_append.1 hy with hold | hnew
      · exact Or.inl ⟨y, hold, hyid, hmatch⟩
      · rw [List.mem_singleton.1 hnew] at hyid hmatch
        exact Or.inr ⟨hyid.symm, hmatch⟩
  count := by
    show s.activeCount + 1 = ((s.subscriptions ++ [x]).filter Subscription.active).length
    rw [List.filter_append, List.length_append, h.count]
    simp [hactive]

@[simp] theorem deactivate_id (id : Nat) (y : Subscription C) : (deactivate id y).id = y.id := by
  unfold deactivate
  split <;> rfl

@[simp] theorem deactivate_tokens (id : Nat) (y : Subscription C) :
    (deactivate id y).tokens = y.tokens := by
  unfold deactivate
  split <;> rfl

theorem deactivate_active (id : Nat) (y : Subscription C) :
    (deactivate id y).active = (y.active && y.id ≠ id) := by
  unfold deactivate
  split <;> simp_all

theorem Coherent.modify_eq_map (h : s.Coherent) {i : Nat} {x : Subscription C}
    (hx : s.subscriptions[i]? = some x) :
    (s.subscriptions.modify i fun x => { x with active := false })
      = s.subscriptions.map (deactivate x.id) := by
  apply List.ext_getElem?
  intro j
  rw [List.getElem?_modify, List.getElem?_map]
  by_cases hij : i = j
  · rw [← hij, hx]
    simp [deactivate]
  · simp only [if_neg hij]
    cases hy : s.subscriptions[j]? with
    | none => rfl
    | some y =>
      have hne : y.id ≠ x.id := by
        intro heq
        have hxy := h.eq_of_id (List.mem_of_getElem? hy) (List.mem_of_getElem? hx) heq
        subst hxy
        obtain ⟨hi, hxi⟩ := List.getElem?_eq_some_iff.1 hx
        obtain ⟨hj, hxj⟩ := List.getElem?_eq_some_iff.1 hy
        rcases Nat.lt_or_gt_of_ne hij with hlt | hgt
        · have hord := List.pairwise_iff_getElem.1 h.ids i j hi hj hlt
          rw [hxi, hxj] at hord
          omega
        · have hord := List.pairwise_iff_getElem.1 h.ids j i hj hi hgt
          rw [hxi, hxj] at hord
          omega
      simp [deactivate, hne]

theorem filter_deactivate (id : Nat) (l : List (Subscription C)) :
    (l.map (deactivate id)).filter Subscription.active
      = (l.filter Subscription.active).filter fun y => y.id ≠ id := by
  induction l with
  | nil => rfl
  | cons y l ih =>
    by_cases hid : y.id = id
    · have hoff : (deactivate id y).active = false := by simp [deactivate_active, hid]
      rw [List.map_cons, List.filter_cons_of_neg (by simp [hoff]), ih]
      by_cases hact : y.active = true
      · simp [hact, hid]
      · simp [hact]
    · have hsame : deactivate id y = y := if_neg hid
      rw [List.map_cons, hsame]
      by_cases hact : y.active = true
      · simp [hact, hid, ih]
      · simp [hact, ih]

theorem length_filter_id {l : List (Subscription C)} (h : l.Pairwise fun x y => x.id < y.id)
    {x : Subscription C} (hx : x ∈ l) :
    (l.filter fun y => y.id ≠ x.id).length + 1 = l.length := by
  induction l with
  | nil => cases hx
  | cons y l ih =>
    have hrest := List.pairwise_cons.1 h
    rcases List.mem_cons.1 hx with rfl | hmem
    · have hall : (l.filter fun y => y.id ≠ x.id) = l := by
        refine List.filter_eq_self.2 fun z hz => ?_
        have hlt := hrest.1 z hz
        simp
        omega
      rw [List.filter_cons_of_neg (by simp), hall, List.length_cons]
    · have hlt := hrest.1 x hmem
      rw [List.filter_cons_of_pos (by simp; omega), List.length_cons, List.length_cons,
        ih hrest.2 hmem]

/-- A subscription taken out of the index. -/
def removed (s : ConfigObserver C) (id : Nat) : ConfigObserver C :=
  { s with
    subscriptions := s.subscriptions.map (deactivate id)
    subscriptionIndex := s.subscriptionIndex.erase id
    activeCount := s.activeCount - 1 }

theorem coherent_removed (h : s.Coherent) {x : Subscription C} (hx : x ∈ s.subscriptions)
    (hactive : x.active = true) : (s.removed x.id).Coherent where
  ids := by
    refine List.pairwise_map.2 (h.ids.imp fun hlt => ?_)
    rw [deactivate_id, deactivate_id]
    exact hlt
  pos := fun y hy => by
    obtain ⟨z, hz, rfl⟩ := List.mem_map.1 hy
    rw [deactivate_id]
    exact h.pos z hz
  fresh := fun y hy => by
    obtain ⟨z, hz, rfl⟩ := List.mem_map.1 hy
    rw [deactivate_id]
    exact h.fresh z hz
  next := h.next
  index := fun id i => by
    show (s.subscriptionIndex.erase x.id).find id = some i ↔
      ∃ y, (s.subscriptions.map (deactivate x.id))[i]? = some y ∧ _
    rw [SortedMap.find_erase, List.getElem?_map]
    by_cases hid : id = x.id
    · rw [if_pos hid]
      refine ⟨fun hnone => (by cases hnone), ?_⟩
      rintro ⟨y, hy, hyid, hyact⟩
      obtain ⟨z, -, rfl⟩ := Option.map_eq_some_iff.1 hy
      rw [deactivate_id] at hyid
      rw [deactivate_active] at hyact
      simp [hyid, hid] at hyact
    · rw [if_neg hid, h.index]
      constructor
      · rintro ⟨y, hy, hyid, hyact⟩
        refine ⟨deactivate x.id y, by rw [hy]; rfl, by rw [deactivate_id]; exact hyid, ?_⟩
        rw [deactivate_active]
        simp [hyact, hyid, hid]
      · rintro ⟨y, hy, hyid, hyact⟩
        obtain ⟨z, hz, rfl⟩ := Option.map_eq_some_iff.1 hy
        rw [deactivate_id] at hyid
        rw [deactivate_active, Bool.and_eq_true] at hyact
        exact ⟨z, hz, hyid, hyact.1⟩
  tokens := fun y hy => by
    obtain ⟨z, hz, rfl⟩ := List.mem_map.1 hy
    rw [deactivate_tokens]
    exact h.tokens z hz
  trie := fun path id => by
    -- the id stays in the trie, and the subscription in the list
    show id ∈ matchSubscriptions path s.root ↔ ∃ y ∈ s.subscriptions.map (deactivate x.id), _
    rw [h.trie]
    constructor
    · rintro ⟨y, hy, hyid, hmatch⟩
      exact ⟨deactivate x.id y, List.mem_map_of_mem hy, by rw [deactivate_id]; exact hyid,
        by rw [deactivate_tokens]; exact hmatch⟩
    · rintro ⟨y, hy, hyid, hmatch⟩
      obtain ⟨z, hz, rfl⟩ := List.mem_map.1 hy
      rw [deactivate_id] at hyid
      rw [deactivate_tokens] at hmatch
      exact ⟨z, hz, hyid, hmatch⟩
  count := by
    show s.activeCount - 1
        = ((s.subscriptions.map (deactivate x.id)).filter Subscription.active).length
    have hmem : x ∈ s.subscriptions.filter Subscription.active :=
      List.mem_filter.2 ⟨hx, hactive⟩
    have hlen := length_filter_id (h.ids.filter _) hmem
    rw [filter_deactivate, h.count]
    omega

/-- `unsubscribe` removes the subscription of an active id, and does
nothing for any other. -/
theorem unsubscribe_cases (h : s.Coherent) (id : Nat) :
    ((s.unsubscribe id).1 = s ∧ ∀ x ∈ s.subscriptions, x.active = true → x.id ≠ id) ∨
      ∃ x ∈ s.subscriptions, x.active = true ∧ x.id = id ∧ (s.unsubscribe id).1 = s.removed id := by
  unfold unsubscribe
  by_cases hzero : id = 0
  · left
    rw [if_pos hzero]
    refine ⟨rfl, fun x hx _ heq => ?_⟩
    have hpos := h.pos x hx
    omega
  · rw [if_neg hzero]
    cases hfind : s.subscriptionIndex.find id with
    | none =>
      left
      refine ⟨rfl, fun x hx hact heq => ?_⟩
      obtain ⟨i, hi⟩ := List.getElem?_of_mem hx
      have hsome := (h.index id i).2 ⟨x, hi, heq, hact⟩
      rw [hfind] at hsome
      cases hsome
    | some i =>
      right
      obtain ⟨x, hx, rfl, hact⟩ := (h.index id i).1 hfind
      refine ⟨x, List.mem_of_getElem? hx, hact, rfl, ?_⟩
      have hcount : (if 0 < s.activeCount then s.activeCount - 1 else s.activeCount)
          = s.activeCount - 1 := by
        split <;> omega
      simp only [h.modify_eq_map hx, hcount]
      rfl

theorem coherent_step (h : s.Coherent) (op : ObserverOp C) : (s.step op).Coherent := by
  cases op with
  | subscribe pattern callback =>
    cases callback with
    | none => exact h
    | some callback =>
      simp only [step, subscribe]
      cases hparse : parsePattern pattern with
      | none => exact h
      | some tokens =>
        exact coherent_added h (x := ⟨s.nextId, pattern, tokens, callback, true⟩) rfl rfl
          (parsePattern_eq_some hparse)
  | unsubscribe id =>
    rcases unsubscribe_cases h id with ⟨hsame, -⟩ | ⟨x, hx, hact, rfl, hrem⟩
    · simp only [step, hsame]
      exact h
    · simp only [step, hrem]
      exact coherent_removed h hx hact
  | clear =>
    exact { coherent_new (C := C) with
      next := h.next
      fresh := fun x hx => absurd hx List.not_mem_nil }

-- ==== trie and list

/-- The sorted answers of the trie are the ids of the matching
subscriptions, in the order of the list. -/
theorem ids_eq (h : s.Coherent) (path : List Token) :
    unique ((matchSubscriptions path s.root).mergeSort (· ≤ ·))
      = (s.subscriptions.filter fun x => matchTokens x.tokens path).map Subscription.id := by
  have hsorted : ((matchSubscriptions path s.root).mergeSort (· ≤ ·)).Pairwise (· ≤ ·) := by
    have hpairs : ((matchSubscriptions path s.root).mergeSort (· ≤ ·)).Pairwise
        fun a b => decide (a ≤ b) = true :=
      List.pairwise_mergeSort (fun a b c hab hbc => by simp at *; omega)
        (fun a b => by simp; omega) _
    exact hpairs.imp fun hle => of_decide_eq_true hle
  obtain ⟨hstrict, hmem⟩ := unique_sorted hsorted
  have hunique : Sorted id (unique ((matchSubscriptions path s.root).mergeSort (· ≤ ·))) := hstrict
  have hids : Sorted id ((s.subscriptions.filter fun x => matchTokens x.tokens path).map
      Subscription.id) := List.pairwise_map.2 (h.ids.filter _)
  refine hunique.eq_of_mem_iff hids fun id => ?_
  rw [hmem, (List.mergeSort_perm _ _).mem_iff, h.trie]
  simp only [List.mem_map, List.mem_filter]
  constructor
  · rintro ⟨x, hx, hid, hmatch⟩
    exact ⟨x, ⟨hx, hmatch⟩, hid⟩
  · rintro ⟨x, ⟨hx, hmatch⟩, hid⟩
    exact ⟨x, hx, hid, hmatch⟩

/-- An id of the list leads back to its subscription while that is
active. -/
theorem find_id (h : s.Coherent) {x : Subscription C} (hx : x ∈ s.subscriptions) :
    ((s.subscriptionIndex.find x.id).bind fun i => s.subscriptions[i]?.filter fun x => x.active)
      = if x.active then some x else none := by
  cases hfind : s.subscriptionIndex.find x.id with
  | none =>
    have hoff : x.active ≠ true := by
      intro hact
      obtain ⟨i, hi⟩ := List.getElem?_of_mem hx
      have hsome := (h.index x.id i).2 ⟨x, hi, rfl, hact⟩
      rw [hfind] at hsome
      cases hsome
    simp [hoff]
  | some i =>
    obtain ⟨y, hy, hyid, hact⟩ := (h.index x.id i).1 hfind
    have hxy := h.eq_of_id (List.mem_of_getElem? hy) hx hyid
    subst hxy
    simp [hy, hact]

theorem trieMatches_eq (h : s.Coherent) (path : List Token) :
    s.trieMatches path = s.linearMatches path := by
  unfold trieMatches linearMatches
  dsimp only
  rw [ids_eq h, List.filterMap_map]
  have hfind : ∀ l : List (Subscription C), (∀ x ∈ l, x ∈ s.subscriptions) →
      l.filterMap ((fun id => (s.subscriptionIndex.find id).bind fun i =>
        s.subscriptions[i]?.filter fun x => x.active) ∘ Subscription.id)
        = l.filter Subscription.active := by
    intro l hl
    induction l with
    | nil => rfl
    | cons x l ih =>
      have hx := find_id h (hl x List.mem_cons_self)
      have hrest := ih fun y hy => hl y (List.mem_cons_of_mem _ hy)
      by_cases hact : x.active = true
      · rw [if_pos hact] at hx
        rw [List.filterMap_cons_some (by exact hx), hrest, List.filter_cons_of_pos hact]
      · rw [if_neg hact] at hx
        rw [List.filterMap_cons_none (by exact hx), hrest, List.filter_cons_of_neg hact]
  rw [hfind _ fun x hx => (List.mem_filter.1 hx).1, List.filter_filter]

-- ==== what it is for

structure Subscriber (C : Type) where
  id : Nat
  tokens : List Token
  callback : C

/-- What an observer is for: the live subscriptions, in the order they were
made. -/
structure Subscribed (C : Type) where
  live : List (Subscriber C) := []
  made : Nat := 0

/-- Subscriptions are numbered from 1. -/
def Subscribed.step (a : Subscribed C) : ObserverOp C → Subscribed C
  | .subscribe pattern callback =>
    match callback, parsePattern pattern with
    | some callback, some tokens =>
      { live := a.live ++ [⟨a.made + 1, tokens, callback⟩], made := a.made + 1 }
    | _, _ => a
  | .unsubscribe id => { a with live := a.live.filter fun x => x.id ≠ id }
  | .clear => { a with live := [] }

open Classical in
/-- The calls for one path: the live subscriptions whose pattern matches,
in order. -/
noncomputable def Subscribed.calls (a : Subscribed C) (path : List UInt8) (pathTokens : List Token)
    (node : N) : List (Call C N) :=
  (a.live.filter fun x => decide (Matches x.tokens pathTokens)).map fun x =>
    ⟨x.callback, path, node⟩

/-- A subscription, as its subscriber knows it. -/
def Subscription.subscriber (x : Subscription C) : Subscriber C := ⟨x.id, x.tokens, x.callback⟩

/-- The observer holds the live subscriptions. -/
structure Holds (s : ConfigObserver C) (a : Subscribed C) : Prop where
  coherent : s.Coherent
  live : a.live = (s.subscriptions.filter Subscription.active).map Subscription.subscriber
  made : s.nextId = a.made + 1

theorem holds_step {a : Subscribed C} (h : s.Holds a) (op : ObserverOp C) :
    (s.step op).Holds (a.step op) := by
  refine ⟨coherent_step h.coherent op, ?_, ?_⟩
  · cases op with
    | subscribe pattern callback =>
      cases callback with
      | none => exact h.live
      | some callback =>
        simp only [step, subscribe, Subscribed.step]
        cases hparse : parsePattern pattern with
        | none => exact h.live
        | some tokens =>
          simp [h.live, Subscription.subscriber, h.made]
    | unsubscribe id =>
      simp only [step, Subscribed.step]
      rcases unsubscribe_cases h.coherent id with ⟨hsame, hnone⟩ | ⟨x, hx, hact, rfl, hrem⟩
      · rw [hsame, h.live]
        refine List.filter_eq_self.2 fun y hy => ?_
        obtain ⟨z, hz, rfl⟩ := List.mem_map.1 hy
        obtain ⟨hzs, hzact⟩ := List.mem_filter.1 hz
        exact decide_eq_true (hnone z hzs hzact)
      · rw [hrem, h.live]
        show _ = ((s.subscriptions.map (deactivate x.id)).filter Subscription.active).map _
        rw [filter_deactivate, List.filter_map]
        rfl
    | clear => rfl
  · cases op with
    | subscribe pattern callback =>
      cases callback with
      | none => exact h.made
      | some callback =>
        simp only [step, subscribe, Subscribed.step]
        cases hparse : parsePattern pattern with
        | none => exact h.made
        | some tokens => simp [h.made]
    | unsubscribe id =>
      simp only [step, Subscribed.step]
      rcases unsubscribe_cases h.coherent id with ⟨hsame, -⟩ | ⟨x, -, -, -, hrem⟩
      · rw [hsame]
        exact h.made
      · rw [hrem]
        exact h.made
    | clear => exact h.made

theorem holds_run (ops : List (ObserverOp C)) :
    (run step {} ops).Holds (run Subscribed.step {} ops) := by
  have hrun : ∀ {s : ConfigObserver C} {a : Subscribed C}, s.Holds a →
      (run step s ops).Holds (run Subscribed.step a ops) := by
    induction ops with
    | nil => exact fun h => h
    | cons op ops ih => exact fun h => ih (holds_step h op)
  exact hrun ⟨coherent_new, rfl, rfl⟩

theorem Holds.linear {a : Subscribed C} (h : s.Holds a) (path : List UInt8)
    (pathTokens : List Token) (node : N) :
    s.notifyPreparedNodeLinear path pathTokens node = a.calls path pathTokens node := by
  unfold notifyPreparedNodeLinear linearMatches Subscribed.calls
  rw [h.live, List.filter_map, List.map_map, List.filter_filter]
  congr 1
  apply List.filter_congr
  intro x _
  by_cases hmatch : Matches x.tokens pathTokens
  · simp [Subscription.subscriber, hmatch, matchTokens_iff.2 hmatch]
  · have hno : matchTokens x.tokens pathTokens = false := by
      simpa using mt matchTokens_iff.1 hmatch
    simp [Subscription.subscriber, hmatch, hno]

theorem callsAt_eq (getNode : List UInt8 → N) (valid : N → Bool) (path : List UInt8)
    (l : List (Subscription C)) :
    callsAt getNode valid path l =
      if valid (getNode path) then l.map fun x => ⟨x.callback, path, getNode path⟩ else [] := by
  cases l with
  | nil => simp [callsAt]
  | cons x l => by_cases hvalid : valid (getNode path) = true <;> simp [callsAt, hvalid]

/-- After any calls of `subscribe`, `unsubscribe` and `clear`, the trie path
and the linear path of a notification make the same calls: those of the
live subscriptions whose pattern matches, once each and in the order of
subscription. The count that chooses between them is the number of live
subscriptions, and the choice makes no difference. -/
theorem notify_eq (ops : List (ObserverOp C)) (getNode : List UInt8 → N) (valid : N → Bool)
    (path : List UInt8) (pathTokens : List Token) (node : N) :
    let s := run step {} ops
    let a : Subscribed C := run Subscribed.step {} ops
    s.activeCount = a.live.length ∧
      s.notifyPreparedNodeLinear path pathTokens node = a.calls path pathTokens node ∧
      s.notifyPreparedNodeTrie path pathTokens node = a.calls path pathTokens node ∧
      s.notifyPreparedNode valid path pathTokens node =
        (if valid node then a.calls path pathTokens node else []) ∧
      s.notifyLinear getNode valid path pathTokens =
        (if valid (getNode path) then a.calls path pathTokens (getNode path) else []) ∧
      s.notifyTrie getNode valid path pathTokens =
        (if valid (getNode path) then a.calls path pathTokens (getNode path) else []) ∧
      s.notify getNode valid path =
        (match parsePath path with
          | none => []
          | some tokens =>
            if valid (getNode path) then a.calls path tokens (getNode path) else []) := by
  intro s a
  have h : s.Holds a := holds_run ops
  have htrie : ∀ tokens, s.trieMatches tokens = s.linearMatches tokens := trieMatches_eq h.coherent
  have hprepared : ∀ tokens (n : N), s.notifyPreparedNodeTrie path tokens n
      = a.calls path tokens n := by
    intro tokens n
    rw [notifyPreparedNodeTrie, htrie]
    exact h.linear path tokens n
  have hlinear : ∀ tokens, s.notifyLinear getNode valid path tokens =
      if valid (getNode path) then a.calls path tokens (getNode path) else [] := by
    intro tokens
    rw [notifyLinear, callsAt_eq, ← h.linear path tokens (getNode path)]
    rfl
  have hdescend : ∀ tokens, s.notifyTrie getNode valid path tokens =
      if valid (getNode path) then a.calls path tokens (getNode path) else [] := by
    intro tokens
    rw [notifyTrie, htrie]
    exact hlinear tokens
  refine ⟨?_, h.linear path pathTokens node, hprepared pathTokens node, ?_, hlinear pathTokens,
    hdescend pathTokens, ?_⟩
  · rw [h.coherent.count, h.live, List.length_map]
  · unfold notifyPreparedNode
    rw [h.linear, hprepared]
    by_cases hvalid : valid node = true <;> simp [hvalid]
  · unfold notify
    cases parsePath path with
    | none => rfl
    | some tokens => simp only [hlinear, hdescend, ite_self]

end ConfigObserver

end Eular.Config
