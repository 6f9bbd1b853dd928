/-
A network address translator: what it keeps, and what it lets in.

Behind a translator stands one endpoint. For what it sends, the translator
opens mappings, each with a public port of its own; which remotes share a
mapping is its mapping rule, from which remotes something may come in through
a mapping is its filtering rule. Both are one of three (`Rule`), told here by
when two remotes count as alike. Mappings do not expire and the public
address does not change: the port a remote sees is the same for good
(`portOf_outbound`), and two remotes see the same one if and only if the
mapping rule holds them alike (`Table.Sound.portOf_eq_iff`).

Addresses and ports are of any type with equality.
-/
import Mathlib.Data.List.Perm.Subperm
import Mathlib.Data.List.Nodup

namespace Eular.Lib

variable {α π : Type*}

structure Endpoint (α π : Type*) where
  ip : α
  port : π
deriving DecidableEq, Repr

/-- What a translator looks at in a remote. -/
inductive Rule where
  | endpointIndependent
  | addressDependent
  | addressAndPortDependent
deriving DecidableEq, Repr

namespace Rule

/-- The rule makes no difference between the remotes. -/
def Alike (rule : Rule) (a b : Endpoint α π) : Prop :=
  match rule with
  | .endpointIndependent => True
  | .addressDependent => a.ip = b.ip
  | .addressAndPortDependent => a = b

instance [DecidableEq α] [DecidableEq π] (rule : Rule) (a b : Endpoint α π) :
    Decidable (rule.Alike a b) := by
  cases rule <;> unfold Alike <;> infer_instance

variable {rule : Rule} {a b c : Endpoint α π}

theorem Alike.refl (rule : Rule) (a : Endpoint α π) : rule.Alike a a := by
  cases rule <;> simp [Alike]

theorem Alike.symm (h : rule.Alike a b) : rule.Alike b a := by
  cases rule with
  | endpointIndependent => trivial
  | addressDependent => exact Eq.symm h
  | addressAndPortDependent => exact Eq.symm h

theorem Alike.trans (h : rule.Alike a b) (h' : rule.Alike b c) : rule.Alike a c := by
  cases rule with
  | endpointIndependent => trivial
  | addressDependent => exact Eq.trans h h'
  | addressAndPortDependent => exact Eq.trans h h'

/-- Remotes of different addresses are alike to the rule that looks at
neither. -/
theorem alike_iff_of_ip_ne (h : a.ip ≠ b.ip) :
    rule.Alike a b ↔ rule = .endpointIndependent := by
  cases rule with
  | endpointIndependent => simp [Alike]
  | addressDependent => simpa [Alike] using h
  | addressAndPortDependent =>
    have hne : a ≠ b := fun hab => h (congrArg Endpoint.ip hab)
    simpa [Alike] using hne

theorem alike_iff_of_port_ne (hip : a.ip = b.ip) (h : a.port ≠ b.port) :
    rule.Alike a b ↔ rule ≠ .addressAndPortDependent := by
  cases rule with
  | endpointIndependent => simp [Alike]
  | addressDependent => simpa [Alike] using hip
  | addressAndPortDependent =>
    have hne : a ≠ b := fun hab => h (congrArg Endpoint.port hab)
    simpa [Alike] using hne

end Rule

/-- A mapping: the remote it was opened for, its public port, and the
remotes something has been sent to through it. -/
structure Mapping (α π : Type*) where
  remote : Endpoint α π
  port : π
  contacted : List (Endpoint α π)
deriving DecidableEq, Repr

/-- A translator: its rules, its public address, and how it picks the port
of a new mapping, which is one not in use as long as there are fewer than
`capacity` mappings. -/
structure Translator (α π : Type*) where
  mapping : Rule
  filtering : Rule
  publicIp : α
  allocate : List π → π
  capacity : Nat
  fresh : ∀ used : List π, used.length < capacity → allocate used ∉ used

/-- The mappings a translator has opened. -/
abbrev Table (α π : Type*) := List (Mapping α π)

/-- The remotes something has been sent to through any mapping. -/
def Table.remotes (table : Table α π) : List (Endpoint α π) :=
  table.flatMap Mapping.contacted

/-- Something has been sent to `remote` through the mapping of this port. -/
def Table.Contacted (table : Table α π) (port : π) (remote : Endpoint α π) : Prop :=
  ∃ m ∈ table, m.port = port ∧ remote ∈ m.contacted

variable [DecidableEq α] [DecidableEq π]

namespace Translator

variable (nat : Translator α π)
variable {m : Mapping α π}

/-- The mapping what is sent to `remote` goes through. -/
def find (table : Table α π) (remote : Endpoint α π) : Option (Mapping α π) :=
  table.find? fun m => nat.mapping.Alike m.remote remote

/-- The public port `remote` sees. -/
def portOf (table : Table α π) (remote : Endpoint α π) : Option π :=
  (nat.find table remote).map Mapping.port

/-- The remote is written down with the mapping. -/
def contact (port : π) (remote : Endpoint α π) (m : Mapping α π) : Mapping α π :=
  if m.port = port then { m with contacted := remote :: m.contacted } else m

/-- Something leaves for `remote`: through which port, and what the
translator remembers of it. -/
def outbound (table : Table α π) (remote : Endpoint α π) : Table α π × π :=
  match nat.find table remote with
  | some m => (table.map (contact m.port remote), m.port)
  | none =>
    let port := nat.allocate (table.map Mapping.port)
    (table ++ [⟨remote, port, [remote]⟩], port)

/-- What comes from `source` to the public port gets in. -/
def Admits (table : Table α π) (port : π) (source : Endpoint α π) : Prop :=
  ∃ m ∈ table, m.port = port ∧ ∃ c ∈ m.contacted, nat.filtering.Alike c source

instance (table : Table α π) (port : π) (source : Endpoint α π) :
    Decidable (nat.Admits table port source) := by
  unfold Admits
  infer_instance

-- ==== what a packet leaves

variable {nat : Translator α π} {table : Table α π} {remote x y : Endpoint α π} {p q : π}

omit [DecidableEq α] in
@[simp] theorem contact_remote (m : Mapping α π) : (contact p remote m).remote = m.remote := by
  unfold contact
  split <;> rfl

omit [DecidableEq α] in
@[simp] theorem contact_port (m : Mapping α π) : (contact p remote m).port = m.port := by
  unfold contact
  split <;> rfl

omit [DecidableEq α] in
theorem mem_contact (m : Mapping α π) :
    x ∈ (contact p remote m).contacted ↔ x ∈ m.contacted ∨ m.port = p ∧ x = remote := by
  unfold contact
  split
  case isTrue h => simp [h, or_comm]
  case isFalse h => simp [h]

theorem find_some (h : nat.find table x = some m) :
    m ∈ table ∧ nat.mapping.Alike m.remote x :=
  ⟨List.mem_of_find?_eq_some h, by simpa using List.find?_some h⟩

theorem not_alike_of_find_none (h : nat.find table x = none) (hm : m ∈ table) :
    ¬ nat.mapping.Alike m.remote x := by
  have hnone := List.find?_eq_none.mp h m hm
  simpa using hnone

theorem find_congr (h : nat.mapping.Alike x y) : nat.find table x = nat.find table y := by
  have hsame : (fun m : Mapping α π => decide (nat.mapping.Alike m.remote x)) =
      fun m => decide (nat.mapping.Alike m.remote y) := by
    funext m
    exact decide_eq_decide.mpr ⟨fun hx => hx.trans h, fun hy => hy.trans h.symm⟩
  unfold find
  rw [hsame]

theorem find_contacted (port : π) :
    nat.find (table.map (contact port remote)) x =
      (nat.find table x).map (contact port remote) := by
  unfold find
  rw [List.find?_map]
  congr 2
  funext m
  simp

theorem portOf_outbound_self :
    nat.portOf (nat.outbound table remote).1 remote = some (nat.outbound table remote).2 := by
  unfold outbound portOf
  split
  case h_1 m hm =>
    simp [find_contacted, hm]
  case h_2 hnone =>
    have happ : nat.find (table ++ [⟨remote, nat.allocate (table.map Mapping.port), [remote]⟩])
        remote = some ⟨remote, nat.allocate (table.map Mapping.port), [remote]⟩ := by
      unfold find at hnone ⊢
      rw [List.find?_append, hnone]
      simp [Rule.Alike.refl]
    simp [happ]

theorem portOf_outbound (h : nat.portOf table x = some p) :
    nat.portOf (nat.outbound table remote).1 x = some p := by
  unfold portOf at h ⊢
  obtain ⟨m, hm, rfl⟩ := Option.map_eq_some_iff.mp h
  unfold outbound
  split
  case h_1 => simp [find_contacted, hm]
  case h_2 =>
    have happ : nat.find (table ++ [⟨remote, nat.allocate (table.map Mapping.port), [remote]⟩])
        x = some m := by
      unfold find at hm ⊢
      rw [List.find?_append, hm]
      rfl
    simp [happ]

theorem contacted_outbound :
    Table.Contacted (nat.outbound table remote).1 (nat.outbound table remote).2 remote := by
  unfold outbound Table.Contacted
  split
  case h_1 m hm =>
    refine ⟨contact m.port remote m, List.mem_map_of_mem (find_some hm).1, contact_port m, ?_⟩
    exact (mem_contact m).mpr (.inr ⟨rfl, rfl⟩)
  case h_2 => exact ⟨_, List.mem_append_right _ List.mem_cons_self, rfl, List.mem_cons_self⟩

theorem contacted_mono (h : Table.Contacted table p x) :
    Table.Contacted (nat.outbound table remote).1 p x := by
  obtain ⟨m, hm, hp, hx⟩ := h
  unfold outbound
  split
  case h_1 found _ =>
    refine ⟨contact found.port remote m, List.mem_map_of_mem hm, ?_, ?_⟩
    · rw [contact_port, hp]
    · exact (mem_contact m).mpr (.inl hx)
  case h_2 => exact ⟨m, List.mem_append_left _ hm, hp, hx⟩

theorem mem_remotes_outbound :
    x ∈ Table.remotes (nat.outbound table remote).1 ↔ x ∈ table.remotes ∨ x = remote := by
  unfold outbound Table.remotes
  split
  case h_1 found hfound =>
    simp only [List.flatMap_map, List.mem_flatMap, mem_contact]
    constructor
    · rintro ⟨m, hm, hx | ⟨-, hx⟩⟩
      · exact .inl ⟨m, hm, hx⟩
      · exact .inr hx
    · rintro (⟨m, hm, hx⟩ | hx)
      · exact ⟨m, hm, .inl hx⟩
      · exact ⟨found, (find_some hfound).1, .inr ⟨rfl, hx⟩⟩
  case h_2 => simp

theorem port_mem_outbound (h : m ∈ (nat.outbound table remote).1) :
    (∃ n ∈ table, n.port = m.port) ∨ ∃ used, m.port = nat.allocate used := by
  unfold outbound at h
  split at h
  case h_1 =>
    obtain ⟨n, hn, rfl⟩ := List.mem_map.mp h
    exact .inl ⟨n, hn, (contact_port n).symm⟩
  case h_2 =>
    rcases List.mem_append.mp h with h | h
    · exact .inl ⟨m, h, rfl⟩
    · rw [List.mem_singleton.mp h]
      exact .inr ⟨_, rfl⟩

theorem mem_of_portOf (h : nat.portOf table x = some p) : ∃ m ∈ table, m.port = p := by
  unfold portOf at h
  obtain ⟨m, hm, rfl⟩ := Option.map_eq_some_iff.mp h
  exact ⟨m, (find_some hm).1, rfl⟩

-- ==== what gets in

omit [DecidableEq α] [DecidableEq π] in
theorem Admits.alike (h : nat.Admits table p x) :
    ∃ c ∈ table.remotes, nat.filtering.Alike c x := by
  obtain ⟨m, hm, -, c, hc, halike⟩ := h
  exact ⟨c, List.mem_flatMap.mpr ⟨m, hm, hc⟩, halike⟩

omit [DecidableEq α] [DecidableEq π] in
theorem admits_of_alike (h : Table.Contacted table p x) (halike : nat.filtering.Alike x y) :
    nat.Admits table p y := by
  obtain ⟨m, hm, hp, hx⟩ := h
  exact ⟨m, hm, hp, x, hx, halike⟩

-- ==== sound mappings

/-- No two mappings share a port or a remote, and each remembers the remote
it was opened for. -/
structure Sound (table : Table α π) : Prop where
  apart : (table.map Mapping.port).Nodup
  distinct : (table.map Mapping.remote).Nodup
  recorded : ∀ m ∈ table, m.remote ∈ m.contacted

omit [DecidableEq α] [DecidableEq π] in
theorem sound_nil : Sound ([] : Table α π) :=
  ⟨List.nodup_nil, List.nodup_nil, nofun⟩

/-- Two remotes see the same port just when the mapping rule makes no
difference between them. -/
theorem Sound.portOf_eq_iff (h : Sound table) (hx : nat.portOf table x = some p)
    (hy : nat.portOf table y = some q) : p = q ↔ nat.mapping.Alike x y := by
  unfold portOf at hx hy
  obtain ⟨m, hm, rfl⟩ := Option.map_eq_some_iff.mp hx
  obtain ⟨n, hn, rfl⟩ := Option.map_eq_some_iff.mp hy
  constructor
  · intro hport
    have hmn : m = n := List.inj_on_of_nodup_map h.apart (find_some hm).1 (find_some hn).1 hport
    subst hmn
    exact (find_some hm).2.symm.trans (find_some hn).2
  · intro halike
    rw [find_congr halike, hn] at hm
    rw [Option.some.inj hm]

theorem Sound.outbound (h : Sound table) {few : List (Endpoint α π)}
    (hfew : ∀ c ∈ table.remotes, c ∈ few) (hremote : remote ∈ few)
    (hroom : few.length ≤ nat.capacity) : Sound (nat.outbound table remote).1 := by
  unfold Translator.outbound
  split
  case h_1 found _ =>
    refine ⟨?_, ?_, ?_⟩
    · simpa [Function.comp_def] using h.apart
    · simpa [Function.comp_def] using h.distinct
    · intro m hm
      obtain ⟨n, hn, rfl⟩ := List.mem_map.mp hm
      rw [contact_remote]
      exact (mem_contact n).mpr (.inl (h.recorded n hn))
  case h_2 hnone =>
    have hnew : remote ∉ table.map Mapping.remote := by
      intro hmem
      obtain ⟨m, hm, rfl⟩ := List.mem_map.mp hmem
      exact not_alike_of_find_none hnone hm (Rule.Alike.refl _ _)
    have hsub : remote :: table.map Mapping.remote ⊆ few := by
      intro c hc
      rcases List.mem_cons.mp hc with rfl | hc
      · exact hremote
      · obtain ⟨m, hm, rfl⟩ := List.mem_map.mp hc
        exact hfew _ (List.mem_flatMap.mpr ⟨m, hm, h.recorded m hm⟩)
    have hlen := (List.Nodup.subperm (h.distinct.cons hnew) hsub).length_le
    have hunused : nat.allocate (table.map Mapping.port) ∉ table.map Mapping.port := by
      apply nat.fresh
      simp only [List.length_cons, List.length_map] at hlen ⊢
      omega
    refine ⟨?_, ?_, ?_⟩
    · rw [List.map_append, List.map_singleton]
      exact h.apart.append (List.nodup_singleton _) (by simpa using hunused)
    · rw [List.map_append, List.map_singleton]
      exact h.distinct.append (List.nodup_singleton _) (by simpa using hnew)
    · intro m hm
      rcases List.mem_append.mp hm with hm | hm
      · exact h.recorded m hm
      · rw [List.mem_singleton.mp hm]
        exact List.mem_cons_self

end Translator

end Eular.Lib
