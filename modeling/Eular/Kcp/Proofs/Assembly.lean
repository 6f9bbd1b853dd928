/-
The assemblies and the tree of the receiver agree, whatever the PUSHes say
(`on_kcp_push_pcaket`).

Every segment that is stored goes into the tree and into one assembly, and
a hand-over takes all the fragments of an assembly out of both. So the
numbers in the tree are those of the fragments, and no two assemblies bear
one `psn`. The fields of a PUSH do not matter for this.
-/
import Eular.Kcp.Proofs.Receiving

namespace Eular.Kcp

open Lib

-- ==== one assembly among many

/-- The segment enters the assembly it belongs to. -/
def KcpPacketAssembly.take (packet : KcpPacketAssembly) (segment : KcpSegment) :
    KcpPacketAssembly :=
  if segment.frg = 0 then (packet.setHead segment).addFragment segment
  else packet.addFragment segment

variable {segment : KcpSegment} {packets : List KcpPacketAssembly} {packet : KcpPacketAssembly}

@[simp] theorem KcpPacketAssembly.take_psn : (packet.take segment).psn = packet.psn := by
  unfold take
  split <;> rfl

@[simp] theorem KcpPacketAssembly.take_fragments :
    (packet.take segment).fragments
      = packet.fragments.orderedInsert (fun a b => a.frg < b.frg) segment := by
  unfold take
  split <;> rfl

theorem mem_psn_findOrCreate : segment.psn ∈ (findOrCreate segment packets).map (·.psn) := by
  unfold findOrCreate
  split
  case isTrue hany =>
    obtain ⟨packet, hmem, hpsn⟩ := List.any_eq_true.mp hany
    exact List.mem_map.mpr ⟨packet, hmem, by simpa using hpsn⟩
  case isFalse =>
    refine List.mem_map.mpr
      ⟨{ psn := segment.psn, startSn := u32 (segment.sn + 2 ^ 32 - segment.frg) }, ?_, rfl⟩
    exact (List.perm_orderedInsert _ _ _).mem_iff.mpr List.mem_cons_self

theorem findOrCreate_perm (segment : KcpSegment) (packets : List KcpPacketAssembly) :
    findOrCreate segment packets = packets ∨ (segment.psn ∉ packets.map (·.psn)
      ∧ (findOrCreate segment packets).Perm
          ({ psn := segment.psn, startSn := u32 (segment.sn + 2 ^ 32 - segment.frg) }
            :: packets)) := by
  unfold findOrCreate
  split
  case isTrue => exact .inl rfl
  case isFalse hnone =>
    refine .inr ⟨fun hmem => hnone ?_, List.perm_orderedInsert _ _ _⟩
    obtain ⟨packet, hmem, hpsn⟩ := List.mem_map.mp hmem
    exact List.any_eq_true.mpr ⟨packet, hmem, by simpa using hpsn⟩

/-- Where `psn` names one assembly, the others do not bear it. -/
theorem exists_split (hnodup : (packets.map (·.psn)).Nodup) {psn : Nat}
    (hmem : psn ∈ packets.map (·.psn)) :
    ∃ before packet after, packets = before ++ packet :: after ∧ packet.psn = psn
      ∧ (∀ q ∈ before, q.psn ≠ psn) ∧ ∀ q ∈ after, q.psn ≠ psn := by
  obtain ⟨packet, hpacket, hpsn⟩ := List.mem_map.mp hmem
  obtain ⟨before, after, rfl⟩ := List.append_of_mem hpacket
  rw [List.map_append, List.map_cons] at hnodup
  obtain ⟨-, hafter, hdisjoint⟩ := List.nodup_append.mp hnodup
  obtain ⟨hnot, -⟩ := List.nodup_cons.mp hafter
  refine ⟨before, packet, after, rfl, hpsn, fun q hq heq => ?_, fun q hq heq => ?_⟩
  · exact hdisjoint _ (List.mem_map_of_mem hq) _ List.mem_cons_self (heq.trans hpsn.symm)
  · exact hnot (List.mem_map.mpr ⟨q, hq, heq.trans hpsn.symm⟩)

theorem storeFragment_split {before after : List KcpPacketAssembly}
    (hpsn : packet.psn = segment.psn) (hbefore : ∀ q ∈ before, q.psn ≠ segment.psn)
    (hafter : ∀ q ∈ after, q.psn ≠ segment.psn) :
    storeFragment segment (before ++ packet :: after)
      = if segment.frg = 0 then orderInsert (packet.take segment) (before ++ after)
        else before ++ packet.take segment :: after := by
  have hnot : ∀ q ∈ before, ¬ (q.psn == segment.psn) = true := fun q hq => by
    simpa using hbefore q hq
  unfold storeFragment
  by_cases hfrg : segment.frg = 0
  · have hfind : (before ++ packet :: after).find? (·.psn == segment.psn) = some packet := by
      rw [List.find?_append, List.find?_eq_none.mpr hnot, Option.none_or]
      exact List.find?_cons_of_pos (by simpa using hpsn)
    have herase : (before ++ packet :: after).eraseP (·.psn == segment.psn) = before ++ after := by
      rw [List.eraseP_append_right _ hnot]
      rw [List.eraseP_cons_of_pos (by simpa using hpsn)]
    rw [if_pos hfrg, if_pos hfrg, hfind, herase]
    simp only [KcpPacketAssembly.take, if_pos hfrg]
  · rw [if_neg hfrg, if_neg hfrg, List.map_append, List.map_cons]
    have hsame : ∀ l : List KcpPacketAssembly, (∀ q ∈ l, q.psn ≠ segment.psn) →
        l.map (fun packet =>
          if packet.psn == segment.psn then packet.addFragment segment else packet) = l := by
      intro l hl
      refine (List.map_congr_left fun q hq => ?_).trans (List.map_id l)
      simp [hl q hq]
    rw [hsame before hbefore, hsame after hafter]
    simp [KcpPacketAssembly.take, hfrg, hpsn]

theorem storeFragment_perm {before after : List KcpPacketAssembly}
    (hpsn : packet.psn = segment.psn) (hbefore : ∀ q ∈ before, q.psn ≠ segment.psn)
    (hafter : ∀ q ∈ after, q.psn ≠ segment.psn) :
    (storeFragment segment (before ++ packet :: after)).Perm
      (packet.take segment :: (before ++ after)) := by
  rw [storeFragment_split hpsn hbefore hafter]
  split
  · exact List.perm_orderedInsert _ _ _
  · exact List.perm_middle

-- ==== agreement

/-- The numbers of the fragments the assemblies hold. -/
def fragmentSns (packets : List KcpPacketAssembly) : List Nat :=
  packets.flatMap fun packet => packet.fragments.map (·.sn)

theorem fragmentSns_perm {packets packets' : List KcpPacketAssembly} (h : packets.Perm packets') :
    (fragmentSns packets).Perm (fragmentSns packets') :=
  h.flatMap_right _

theorem fragmentSns_take (others : List KcpPacketAssembly) :
    (fragmentSns (packet.take segment :: others)).Perm
      (segment.sn :: fragmentSns (packet :: others)) := by
  unfold fragmentSns
  rw [List.flatMap_cons, List.flatMap_cons, ← List.cons_append]
  refine List.Perm.append_right _ ?_
  rw [KcpPacketAssembly.take_fragments, ← List.map_cons (f := fun s : KcpSegment => s.sn)]
  exact (List.perm_orderedInsert _ _ _).map _

/-- The tree and the assemblies hold the same segments, and a `psn` names
one assembly. -/
structure Held (r : KcpReceiver) : Prop where
  psn : (r.rcvPacketList.map (·.psn)).Nodup
  tree : r.rcvBuf.Perm (fragmentSns r.rcvPacketList)
  nodup : r.rcvBuf.Nodup

namespace Held

variable {r : KcpReceiver}

theorem of_unread {r' : KcpReceiver} (h : Held r) (heq : r'.unread = r.unread) : Held r' := by
  simp only [KcpReceiver.unread, Prod.mk.injEq] at heq
  obtain ⟨-, -, -, hbuf, hlist, -⟩ := heq
  exact ⟨by rw [hlist]; exact h.psn, by rw [hbuf, hlist]; exact h.tree, by rw [hbuf]; exact h.nodup⟩

theorem findOrCreate (h : Held r) (segment : KcpSegment) :
    ((findOrCreate segment r.rcvPacketList).map (·.psn)).Nodup
      ∧ r.rcvBuf.Perm (fragmentSns (Kcp.findOrCreate segment r.rcvPacketList)) := by
  obtain hsame | ⟨hnew, hperm⟩ := findOrCreate_perm segment r.rcvPacketList
  · rw [hsame]
    exact ⟨h.psn, h.tree⟩
  · refine ⟨(hperm.map _).nodup_iff.mpr (List.nodup_cons.mpr ⟨hnew, h.psn⟩), ?_⟩
    exact h.tree.trans (fragmentSns_perm hperm).symm

theorem store (h : Held r) {segment : KcpSegment} (hnew : segment.sn ∉ r.rcvBuf) :
    Held (r.store segment) := by
  obtain ⟨hpsns, htree⟩ := h.findOrCreate segment
  obtain ⟨before, packet, after, hsplit, hpsn, hbefore, hafter⟩ :=
    exists_split hpsns mem_psn_findOrCreate
  have hperm := storeFragment_perm hpsn hbefore hafter
  rw [← hsplit] at hperm
  have hmiddle : (Kcp.findOrCreate segment r.rcvPacketList).Perm (packet :: (before ++ after)) := by
    rw [hsplit]
    exact List.perm_middle
  constructor
  · show ((storeFragment segment (Kcp.findOrCreate segment r.rcvPacketList)).map (·.psn)).Nodup
    rw [(hperm.map _).nodup_iff, List.map_cons, KcpPacketAssembly.take_psn, ← List.map_cons]
    exact (hmiddle.map _).nodup_iff.mp hpsns
  · show (segment.sn :: r.rcvBuf).Perm (fragmentSns (storeFragment segment _))
    have hbuf : (segment.sn :: r.rcvBuf).Perm
        (segment.sn :: fragmentSns (packet :: (before ++ after))) :=
      (htree.trans (fragmentSns_perm hmiddle)).cons _
    exact hbuf.trans ((fragmentSns_take _).symm.trans (fragmentSns_perm hperm).symm)
  · exact List.nodup_cons.mpr ⟨hnew, h.nodup⟩

end Held

-- ==== hand-over

namespace KcpReceiver

variable {r : KcpReceiver}

theorem foldl_moveFragment_perm {fragments : List KcpSegment} {rest : List Nat} :
    ∀ {r : KcpReceiver}, r.rcvBuf.Perm (fragments.map (·.sn) ++ rest) →
      (fragments.foldl moveFragment r).rcvBuf.Perm rest := by
  induction fragments with
  | nil => exact fun h => h
  | cons pos fs ih =>
    intro r h
    refine ih (r := moveFragment r pos) ?_
    have herase := h.erase pos.sn
    rwa [List.map_cons, List.cons_append, List.erase_cons_head] at herase

theorem handOver_cases (r : KcpReceiver) :
    (r.headReady = false ∧ r.handOver = (r, .nothing))
      ∨ ∃ packet rest, r.rcvPacketList = packet :: rest ∧ r.headReady = true
          ∧ packet.isComplete = true ∧ packet.endSn ≤ r.rcvNxt
          ∧ r.handOver = ({ packet.fragments.foldl moveFragment r with rcvPacketList := rest },
              .read packet.totalSize) := by
  unfold headReady handOver
  cases r.rcvPacketList with
  | nil => exact .inl ⟨rfl, rfl⟩
  | cons packet rest =>
    dsimp only
    by_cases hready : (packet.isComplete && decide (packet.endSn ≤ r.rcvNxt)) = true
    · rw [if_pos hready]
      have hparts := hready
      rw [Bool.and_eq_true, decide_eq_true_eq] at hparts
      exact .inr ⟨packet, rest, rfl, hready, hparts.1, hparts.2, rfl⟩
    · rw [if_neg hready]
      exact .inl ⟨Bool.eq_false_iff.mpr hready, rfl⟩

theorem Held.handOver (h : Held r) : Held r.handOver.1 := by
  obtain ⟨-, hsame⟩ | ⟨packet, rest, hlist, -, -, -, hmoved⟩ := handOver_cases r
  · rw [hsame]
    exact h
  · have htree : r.rcvBuf.Perm (packet.fragments.map (·.sn) ++ fragmentSns rest) := by
      have htree := h.tree
      rwa [hlist, fragmentSns, List.flatMap_cons] at htree
    have hrest := foldl_moveFragment_perm htree
    have hpsn := h.psn
    rw [hlist, List.map_cons] at hpsn
    rw [hmoved]
    refine ⟨hpsn.of_cons, hrest, hrest.nodup_iff.mpr ?_⟩
    exact (List.nodup_append.mp (htree.nodup_iff.mp h.nodup)).2.1

theorem Held.accept (h : Held r) {p : KcpPush} (now : Nat) (hnew : p.sn ∉ r.rcvBuf) :
    Held (r.accept p now) := by
  have hget := unread_segmentRecvGet r
  simp only [unread, Prod.mk.injEq] at hget
  obtain ⟨-, -, -, hbuf, hlist, -⟩ := hget
  refine Held.store (r := { r.segmentRecvGet with ackItem := _ }) ⟨?_, ?_, ?_⟩ ?_
  · show (r.segmentRecvGet.rcvPacketList.map (·.psn)).Nodup
    rw [hlist]
    exact h.psn
  · show r.segmentRecvGet.rcvBuf.Perm (fragmentSns r.segmentRecvGet.rcvPacketList)
    rw [hbuf, hlist]
    exact h.tree
  · show r.segmentRecvGet.rcvBuf.Nodup
    rw [hbuf]
    exact h.nodup
  · show p.sn ∉ r.segmentRecvGet.rcvBuf
    rw [hbuf]
    exact hnew

theorem Held.onPush (h : Held r) (p : KcpPush) (now : Nat) (malloc : Malloc) :
    Held (r.onPush p now malloc).1 := by
  obtain ⟨-, hpush⟩ | ⟨-, -, hpush⟩ | ⟨-, -, -, hpush⟩ | ⟨-, -, hnew, hpush⟩ :=
    onPush_cases r p now malloc
  · rw [hpush]
    exact h
  · rw [hpush]
    exact h
  · rw [hpush]
    exact h.of_unread ((unread_segmentRecvPut _).trans (unread_segmentRecvGet r))
  · rw [hpush]
    exact Held.handOver (Held.accept h now hnew)

end KcpReceiver

end Eular.Kcp
