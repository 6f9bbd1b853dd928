/-
The receiver hands the messages over in order and whole, whatever order
their fragments come in, and however often.

`ms` is what the peer cuts its messages into, and a fragment's `sn` is its
place in `ms.flatten`. An assembly holds fragments of one message, each
once (`Gathers`), and every number below `rcv_nxt` that was not handed over
is in the tree (`Collects`). So the assembly at the head of the list, once
it is complete and ends below `rcv_nxt`, is the next message: a later one
would be listed behind the first fragment of that.
-/
import Eular.Lib.Fragments
import Eular.Kcp.Proofs.Assembly

namespace Eular.Kcp

open Lib

variable {ms : List (List KcpSegment)} {m : List KcpSegment} {s : KcpSegment} {k : Nat}
  {packet : KcpPacketAssembly} {packets : List KcpPacketAssembly}

-- ==== a fragment

/-- The messages can be counted by the fields that count them. -/
structure Countable (ms : List (List KcpSegment)) : Prop where
  ne : ∀ m ∈ ms, m ≠ []
  short : ∀ m ∈ ms, m.length < 2 ^ 16
  last : ms.flatten.length < 2 ^ 32

/-- The segment is the fragment `frg` of the message `psn`. -/
def Belongs (ms : List (List KcpSegment)) (s : KcpSegment) : Prop :=
  ∃ m, ms[s.psn]? = some m ∧ m[s.frg]?.map (·.data) = some s.data
    ∧ s.sn = startOf ms s.psn + s.frg ∧ (s.frg = 0 → u16 s.wnd = m.length)

theorem Belongs.frg_lt (h : Belongs ms s) (hm : ms[s.psn]? = some m) : s.frg < m.length := by
  obtain ⟨m', hm', hdata, -⟩ := h
  cases hm.symm.trans hm'
  obtain ⟨a, ha, -⟩ := Option.map_eq_some_iff.mp hdata
  exact (List.getElem?_eq_some_iff.mp ha).1

theorem Belongs.sn_lt (h : Belongs ms s) : s.sn < ms.flatten.length := by
  obtain ⟨m, hm, -, hsn, -⟩ := id h
  have hle := startOf_add_le_length hm
  have hlt := h.frg_lt hm
  omega

-- ==== an assembly

/-- The assembly holds fragments of the message `m`, each once. -/
structure Gathers (ms : List (List KcpSegment)) (packet : KcpPacketAssembly)
    (m : List KcpSegment) : Prop where
  message : ms[packet.psn]? = some m
  start : packet.startSn = startOf ms packet.psn
  sorted : packet.fragments.Pairwise fun a b => a.frg < b.frg
  belongs : ∀ s ∈ packet.fragments, Belongs ms s ∧ s.psn = packet.psn
  received : packet.receivedFrags = packet.fragments.length
  head : packet.hasHead = true → packet.expectedFrags = m.length

theorem sublist_frgs {fs : List KcpSegment} {psn : Nat} (hm : ms[psn]? = some m)
    (hsorted : fs.Pairwise fun a b => a.frg < b.frg)
    (hall : ∀ s ∈ fs, Belongs ms s ∧ s.psn = psn) :
    (fs.map (·.frg)).Sublist (List.range m.length) := by
  refine sublist_range (List.pairwise_map.mpr hsorted) fun i hi => ?_
  obtain ⟨s, hs, rfl⟩ := List.mem_map.mp hi
  obtain ⟨hbelongs, rfl⟩ := hall s hs
  exact hbelongs.frg_lt hm

theorem Gathers.data (h : Gathers ms packet m) (hlen : packet.fragments.length = m.length) :
    packet.fragments.map (·.data) = m.map (·.data) := by
  have hfrgs : packet.fragments.map (·.frg) = List.range m.length :=
    (sublist_frgs h.message h.sorted h.belongs).eq_of_length (by simpa using hlen)
  refine List.ext_getElem (by simpa using hlen) fun i hi hi' => ?_
  rw [List.length_map] at hi hi'
  obtain ⟨⟨m', hm', hdata, -⟩, hpsn⟩ := h.belongs _ (List.getElem_mem hi)
  have hfrg : packet.fragments[i].frg = i := by
    simpa [hi, hi'] using congrArg (fun l => l[i]?) hfrgs
  rw [hpsn, h.message] at hm'
  cases hm'
  rw [hfrg, List.getElem?_eq_getElem hi'] at hdata
  simpa using hdata.symm

theorem Gathers.start_ne (hms : Countable ms) (h : Gathers ms packet m)
    {q : KcpPacketAssembly} {m' : List KcpSegment} (h' : Gathers ms q m')
    (hne : q.psn ≠ packet.psn) : q.startSn ≠ packet.startSn := by
  rw [h.start, h'.start]
  exact fun heq => hne (startOf_add_inj (i := 0) h'.message
    (List.length_pos_of_ne_nil (hms.ne _ (List.mem_of_getElem? h'.message))) h.message
    (List.length_pos_of_ne_nil (hms.ne _ (List.mem_of_getElem? h.message))) heq)

theorem Gathers.take (hms : Countable ms) (h : Gathers ms packet m) (hs : Belongs ms s)
    (hpsn : s.psn = packet.psn) (hnew : ∀ f ∈ packet.fragments, f.sn ≠ s.sn) :
    Gathers ms (packet.take s) m ∧ (packet.take s).startSn = packet.startSn := by
  obtain ⟨m', hm', -, hsn, hwnd⟩ := id hs
  rw [hpsn, h.message] at hm'
  cases hm'
  have hsorted : (packet.take s).fragments.Pairwise fun a b => a.frg < b.frg := by
    rw [KcpPacketAssembly.take_fragments]
    refine pairwise_orderedInsert h.sorted fun f hf heq => hnew f hf ?_
    obtain ⟨⟨-, -, -, hsn', -⟩, hpsn'⟩ := h.belongs f hf
    rw [hsn, hsn', hpsn, hpsn', heq]
  have hall : ∀ f ∈ (packet.take s).fragments, Belongs ms f ∧ f.psn = packet.psn := by
    intro f hf
    rw [KcpPacketAssembly.take_fragments, List.mem_orderedInsert] at hf
    obtain rfl | hf := hf
    · exact ⟨hs, hpsn⟩
    · exact h.belongs f hf
  have hlen := (sublist_frgs h.message hsorted hall).length_le
  have hshort := hms.short m (List.mem_of_getElem? h.message)
  rw [List.length_map, List.length_range] at hlen
  have hstart : (packet.take s).startSn = packet.startSn := by
    unfold KcpPacketAssembly.take
    split
    · show s.sn = _
      rw [hsn, h.start, hpsn]
      omega
    · rfl
  refine ⟨⟨by simpa using h.message, by rw [hstart, h.start]; simp, hsorted, by simpa using hall,
    ?_, ?_⟩, hstart⟩
  · have hcount : (packet.take s).receivedFrags = u16 (packet.receivedFrags + 1) := by
      unfold KcpPacketAssembly.take
      split <;> rfl
    rw [KcpPacketAssembly.take_fragments, List.orderedInsert_length] at hlen ⊢
    rw [hcount, h.received, u16_of_lt (by omega)]
  · unfold KcpPacketAssembly.take
    split
    case isTrue hzero => exact fun _ => hwnd hzero
    case isFalse => exact h.head

-- ==== the list

/-- The assemblies, in the order of their messages, from the message `k` on. -/
structure Listed (ms : List (List KcpSegment)) (k : Nat) (packets : List KcpPacketAssembly) :
    Prop where
  gathers : ∀ packet ∈ packets, k ≤ packet.psn ∧ ∃ m, Gathers ms packet m
  sorted : packets.Pairwise fun p q => p.startSn < q.startSn

theorem Listed.insert (hms : Countable ms) (h : Listed ms k packets) (hk : k ≤ packet.psn)
    (hpacket : Gathers ms packet m) (hne : ∀ q ∈ packets, q.psn ≠ packet.psn) :
    Listed ms k (orderInsert packet packets) := by
  refine ⟨fun q hq => ?_, pairwise_orderedInsert h.sorted fun q hq => ?_⟩
  · obtain rfl | hq := (List.mem_orderedInsert _).mp hq
    · exact ⟨hk, m, hpacket⟩
    · exact h.gathers q hq
  · obtain ⟨-, m', hm'⟩ := h.gathers q hq
    exact hpacket.start_ne hms hm' (hne q hq)

theorem Listed.findOrCreate (hms : Countable ms) (h : Listed ms k packets) (hs : Belongs ms s)
    (hk : k ≤ s.psn) : Listed ms k (findOrCreate s packets) := by
  unfold Kcp.findOrCreate
  split
  case isTrue => exact h
  case isFalse hnone =>
    obtain ⟨m, hm, -, hsn, -⟩ := id hs
    have hlt := hs.sn_lt.trans hms.last
    refine h.insert hms hk (m := m) ⟨hm, ?_, List.Pairwise.nil, fun f hf => ?_, rfl, ?_⟩ ?_
    · show u32 (s.sn + 2 ^ 32 - s.frg) = startOf ms s.psn
      rw [show s.sn + 2 ^ 32 - s.frg = startOf ms s.psn + 2 ^ 32 by omega, u32,
        Nat.add_mod_right, Nat.mod_eq_of_lt (by omega)]
    · cases hf
    · exact fun hhead => Bool.noConfusion hhead
    · exact fun q hq heq => hnone (List.any_eq_true.mpr ⟨q, hq, by simpa using heq⟩)

theorem Listed.store (hms : Countable ms) (h : Listed ms k packets)
    (hnodup : (packets.map (·.psn)).Nodup) (hmem : s.psn ∈ packets.map (·.psn))
    (hs : Belongs ms s) (hnew : ∀ q ∈ packets, ∀ f ∈ q.fragments, f.sn ≠ s.sn) :
    Listed ms k (storeFragment s packets) := by
  obtain ⟨before, packet, after, rfl, hpsn, hbefore, hafter⟩ := exists_split hnodup hmem
  have hin : packet ∈ before ++ packet :: after := by simp
  obtain ⟨hk, m, hpacket⟩ := h.gathers packet hin
  obtain ⟨htake, hstart⟩ := hpacket.take hms hs hpsn.symm (hnew packet hin)
  have hothers : ∀ q ∈ before ++ after, q ∈ before ++ packet :: after := by
    intro q hq
    simp only [List.mem_append, List.mem_cons] at hq ⊢
    tauto
  rw [storeFragment_split hpsn hbefore hafter]
  split
  · have hrest : Listed ms k (before ++ after) :=
      ⟨fun q hq => h.gathers q (hothers q hq), h.sorted.sublist (by simp)⟩
    refine hrest.insert hms (by simpa using hk) htake fun q hq => ?_
    rw [KcpPacketAssembly.take_psn, hpsn]
    exact (List.mem_append.mp hq).elim (hbefore q) (hafter q)
  · refine ⟨fun q hq => ?_, ?_⟩
    · obtain hq | rfl | hq := by simpa using hq
      · exact h.gathers q (hothers q (List.mem_append_left _ hq))
      · exact ⟨by simpa using hk, m, htake⟩
      · exact h.gathers q (hothers q (List.mem_append_right _ hq))
    · have hkeys := List.pairwise_map.mpr h.sorted
      refine List.pairwise_map.mp ?_
      simpa [hstart] using hkeys

-- ==== the receiver

/-- The messages before `k` are handed over, and what lies below `rcv_nxt`
of the others is in the tree. -/
structure Collects (ms : List (List KcpSegment)) (k : Nat) (r : KcpReceiver) : Prop where
  held : Held r
  listed : Listed ms k r.rcvPacketList
  le : startOf ms k ≤ r.rcvNxt
  stored : ∀ n, startOf ms k ≤ n → n < r.rcvNxt → n ∈ r.rcvBuf

namespace Collects

variable {r r' : KcpReceiver}

theorem congr (h : Collects ms k r) (hnxt : r'.rcvNxt = r.rcvNxt) (hbuf : r'.rcvBuf = r.rcvBuf)
    (hlist : r'.rcvPacketList = r.rcvPacketList) : Collects ms k r' := by
  obtain ⟨⟨hpsn, htree, hnodup⟩, hlisted, hle, hstored⟩ := h
  rw [← hlist] at hpsn hlisted htree
  rw [← hbuf] at htree hnodup hstored
  rw [← hnxt] at hle hstored
  exact ⟨⟨hpsn, htree, hnodup⟩, hlisted, hle, hstored⟩

theorem mem_rcvBuf (h : Held r) {n : Nat} :
    n ∈ r.rcvBuf ↔ ∃ packet ∈ r.rcvPacketList, ∃ s ∈ packet.fragments, s.sn = n := by
  rw [h.tree.mem_iff]
  simp [fragmentSns]

theorem store (hms : Countable ms) (h : Collects ms k r) (hs : Belongs ms s)
    (hnew : s.sn ∉ r.rcvBuf) (hnxt : r.rcvNxt ≤ s.sn) : Collects ms k (r.store s) := by
  obtain ⟨m, hm, -, hsn, -⟩ := id hs
  have hk : k ≤ s.psn := by
    by_contra hlt
    have hle := startOf_add_le (Nat.lt_of_not_le hlt) hm
    have hfrg := hs.frg_lt hm
    have hk := h.le
    omega
  have hlisted := h.listed.findOrCreate hms hs hk
  obtain ⟨hpsns, htree⟩ := h.held.findOrCreate s
  have hfits : ∀ n ∈ s.sn :: r.rcvBuf, n + 1 < 2 ^ 32 := by
    have hlast := hms.last
    refine List.forall_mem_cons.mpr ⟨by have := hs.sn_lt; omega, fun n hn => ?_⟩
    obtain ⟨q, hq, f, hf, rfl⟩ := (mem_rcvBuf h.held).mp hn
    obtain ⟨-, m, hgathers⟩ := h.listed.gathers q hq
    have hlt := (hgathers.belongs f hf).1.sn_lt
    omega
  have hnext : r.rcvNxt ≤ (r.store s).rcvNxt
      ∧ ∀ n, r.rcvNxt ≤ n → n < (r.store s).rcvNxt → n ∈ s.sn :: r.rcvBuf := by
    unfold KcpReceiver.store
    dsimp only
    split
    case isTrue heq =>
      have hone := hfits s.sn List.mem_cons_self
      rw [u32_of_lt (by omega)]
      obtain ⟨hle, hall⟩ := KcpReceiver.advance_spec hfits (s.sn :: r.rcvBuf).length (r.rcvNxt + 1)
      refine ⟨by omega, fun n hn hlt => ?_⟩
      obtain rfl | hlater := Nat.eq_or_lt_of_le hn
      · exact heq ▸ List.mem_cons_self
      · exact hall n hlater hlt
    case isFalse => exact ⟨le_refl _, fun n hn hlt => absurd hlt (Nat.not_lt_of_le hn)⟩
  refine ⟨h.held.store hnew, ?_, h.le.trans hnext.1, fun n hn hlt => ?_⟩
  · refine hlisted.store hms hpsns mem_psn_findOrCreate hs fun q hq f hf heq => hnew ?_
    refine htree.mem_iff.mpr (List.mem_flatMap.mpr ⟨q, hq, ?_⟩)
    exact List.mem_map.mpr ⟨f, hf, heq⟩
  · obtain hold | hlater := Nat.lt_or_ge n r.rcvNxt
    · exact List.mem_cons_of_mem _ (h.stored n hn hold)
    · exact hnext.2 n hlater hlt

theorem rcvQueue_foldl_moveFragment (fs : List KcpSegment) (r : KcpReceiver) :
    (fs.foldl KcpReceiver.moveFragment r).rcvQueue = r.rcvQueue ++ fs := by
  induction fs generalizing r with
  | nil => simp
  | cons pos rest ih =>
    rw [List.foldl_cons, ih]
    simp [KcpReceiver.moveFragment]

/-- A hand-over gives the message `k`, or nothing. -/
theorem handOver (hms : Countable ms) (h : Collects ms k r) :
    r.handOver.1 = r ∨ Collects ms (k + 1) r.handOver.1 ∧ ∃ m, ms[k]? = some m
      ∧ r.handOver.1.rcvQueue.map (·.data) = r.rcvQueue.map (·.data) ++ m.map (·.data) := by
  obtain ⟨-, hsame⟩ | ⟨packet, rest, hlist, -, hcomplete, hend, hmoved⟩ :=
    KcpReceiver.handOver_cases r
  · exact .inl (by rw [hsame])
  obtain ⟨hlisted, hsorted⟩ := h.listed
  rw [hlist] at hlisted hsorted
  obtain ⟨⟨hk, m, hpacket⟩, hrest⟩ := List.forall_mem_cons.mp hlisted
  obtain ⟨hbefore, hsorted⟩ := List.pairwise_cons.mp hsorted
  simp only [KcpPacketAssembly.isComplete, Bool.and_eq_true, beq_iff_eq, bne_iff_ne] at hcomplete
  obtain ⟨⟨⟨hhead, -⟩, hcount⟩, -⟩ := hcomplete
  have hlen : packet.fragments.length = m.length := by
    rw [← hpacket.received, ← hcount, hpacket.head hhead]
  have hends : startOf ms packet.psn + m.length ≤ r.rcvNxt := by
    have hle := startOf_add_le_length hpacket.message
    have hlast := hms.last
    rwa [KcpPacketAssembly.endSn, hpacket.start, hpacket.head hhead, u32_of_lt (by omega)] at hend
  have hpos : 0 < m.length :=
    List.length_pos_of_ne_nil (hms.ne m (List.mem_of_getElem? hpacket.message))
  -- the first fragment of a message before this one would be listed before it
  have hpsn : packet.psn = k := by
    by_contra hne
    have hklt : k < ms.length :=
      (Nat.lt_of_le_of_ne hk (Ne.symm hne)).trans (List.getElem?_eq_some_iff.mp hpacket.message).1
    have hget : ms[k]? = some ms[k] := List.getElem?_eq_getElem hklt
    have hfirst := startOf_add_le (Nat.lt_of_le_of_ne hk (Ne.symm hne)) hget
    have hkpos := List.length_pos_of_ne_nil (hms.ne _ (List.getElem_mem hklt))
    obtain ⟨q, hq, f, hf, hsn⟩ :=
      (mem_rcvBuf h.held).mp (h.stored (startOf ms k) (le_refl _) (by omega))
    obtain ⟨-, m', hgathers⟩ := h.listed.gathers q hq
    obtain ⟨hbelongs, hfq⟩ := hgathers.belongs f hf
    obtain ⟨m'', hm'', -, hfsn, -⟩ := id hbelongs
    have hqk : f.psn = k := startOf_add_inj hm'' (hbelongs.frg_lt hm'') hget hkpos
      (hfsn.symm.trans hsn)
    rw [hlist] at hq
    obtain rfl | hq := List.mem_cons.mp hq
    · exact hne (hfq.symm.trans hqk)
    · have hlt := hbefore q hq
      rw [hpacket.start, hgathers.start, ← hfq, hqk] at hlt
      omega
  subst hpsn
  refine .inr ⟨?_, m, hpacket.message, ?_⟩
  · have hheld := KcpReceiver.Held.handOver h.held
    have hnxt : r.handOver.1.rcvNxt = r.rcvNxt := congrArg (·.1) (KcpReceiver.window_handOver r)
    have hlist' : r.handOver.1.rcvPacketList = rest := by rw [hmoved]
    have hstart := startOf_succ hpacket.message
    refine ⟨hheld, ⟨fun q hq => ?_, hlist' ▸ hsorted⟩, by rw [hnxt]; omega, fun n hn hlt => ?_⟩
    · rw [hlist'] at hq
      obtain ⟨hle, hgathers⟩ := hrest q hq
      have hne : q.psn ≠ packet.psn := by
        have hpsns := h.held.psn
        rw [hlist, List.map_cons] at hpsns
        exact fun heq => (List.nodup_cons.mp hpsns).1 (heq ▸ List.mem_map_of_mem hq)
      exact ⟨by omega, hgathers⟩
    · rw [hnxt] at hlt
      obtain ⟨q, hq, f, hf, hsn⟩ := (mem_rcvBuf h.held).mp (h.stored n (by omega) hlt)
      rw [hlist] at hq
      obtain rfl | hq := List.mem_cons.mp hq
      · obtain ⟨hbelongs, hfq⟩ := hpacket.belongs f hf
        obtain ⟨-, -, -, hfsn, -⟩ := id hbelongs
        have hlt := hbelongs.frg_lt (hfq ▸ hpacket.message)
        rw [hfq] at hfsn
        omega
      · exact (mem_rcvBuf hheld).mpr ⟨q, hlist' ▸ hq, f, hf, hsn⟩
  · rw [hmoved]
    show ((packet.fragments.foldl KcpReceiver.moveFragment r).rcvQueue).map (·.data) = _
    rw [rcvQueue_foldl_moveFragment, List.map_append, hpacket.data hlen]

end Collects

/-- The bytes of a message. -/
def payload (m : List KcpSegment) : List UInt8 := (m.map (·.data)).flatten

/-- The first messages are read, and the next ones wait in `rcv_queue`. -/
def Delivers (ms : List (List KcpSegment)) (r : KcpReceiver) (read : List UInt8) : Prop :=
  ∃ j k, j ≤ k ∧ k ≤ ms.length ∧ Collects ms k r ∧ read = ((ms.map payload).take j).flatten
    ∧ payload r.rcvQueue = (((ms.map payload).take k).drop j).flatten

namespace Delivers

variable {r r' : KcpReceiver} {read : List UInt8}

theorem congr (h : Delivers ms r read) (hqueue : r'.rcvQueue = r.rcvQueue)
    (hnxt : r'.rcvNxt = r.rcvNxt) (hbuf : r'.rcvBuf = r.rcvBuf)
    (hlist : r'.rcvPacketList = r.rcvPacketList) : Delivers ms r' read := by
  obtain ⟨j, k, hjk, hk, hcollects, hread, hwaits⟩ := h
  exact ⟨j, k, hjk, hk, hcollects.congr hnxt hbuf hlist, hread, by rw [hqueue, hwaits]⟩

theorem handOver (hms : Countable ms) (h : Delivers ms r read) :
    Delivers ms r.handOver.1 read := by
  obtain ⟨j, k, hjk, hk, hcollects, hread, hwaits⟩ := h
  obtain hsame | ⟨hnext, m, hm, hqueue⟩ := hcollects.handOver hms
  · rw [hsame]
    exact ⟨j, k, hjk, hk, hcollects, hread, hwaits⟩
  · have hlt := (List.getElem?_eq_some_iff.mp hm).1
    refine ⟨j, k + 1, by omega, hlt, hnext, hread, ?_⟩
    have htake : (ms.map payload).take (k + 1) = (ms.map payload).take k ++ [payload m] := by
      rw [List.take_add_one, List.getElem?_map, hm, Option.map_some, Option.toList_some]
    rw [htake, List.drop_append_of_le_length (by simp; omega), List.flatten_append, ← hwaits,
      payload, hqueue, List.flatten_append, payload, payload, List.flatten_singleton]

theorem onPush (hms : Countable ms) (h : Delivers ms r read) {p : KcpPush}
    (hp : Belongs ms (KcpReceiver.segmentOf p)) (now : Nat) (malloc : Malloc) :
    Delivers ms (r.onPush p now malloc).1 read := by
  have hget : Delivers ms r.segmentRecvGet read := by
    unfold KcpReceiver.segmentRecvGet
    split
    · exact h.congr rfl rfl rfl rfl
    · exact h
  obtain ⟨-, hpush⟩ | ⟨-, -, hpush⟩ | ⟨-, -, -, hpush⟩ | ⟨-, hnxt, hnew, hpush⟩ :=
    KcpReceiver.onPush_cases r p now malloc
  · rw [hpush]
    exact h
  · rw [hpush]
    exact h
  · rw [hpush]
    unfold KcpReceiver.segmentRecvPut
    split
    · exact hget.congr rfl rfl rfl rfl
    · exact hget
  · rw [hpush]
    have hsame := KcpReceiver.unread_segmentRecvGet r
    simp only [KcpReceiver.unread, Prod.mk.injEq] at hsame
    obtain ⟨hnxt', -, -, hbuf', -⟩ := hsame
    obtain ⟨j, k, hjk, hk, hcollects, hread, hwaits⟩ := hget
    refine handOver hms ⟨j, k, hjk, hk, ?_, hread, hwaits⟩
    have hitem : Collects ms k
        { r.segmentRecvGet with ackItem := r.ackItem ++ [KcpAck.mk p.sn p.psn now] } :=
      hcollects.congr rfl rfl rfl
    refine hitem.store hms hp ?_ ?_
    · show p.sn ∉ r.segmentRecvGet.rcvBuf
      rwa [hbuf']
    · show r.segmentRecvGet.rcvNxt ≤ p.sn
      rwa [hnxt']

theorem foldl_takeSegment (l : List KcpSegment) (q : KcpReceiver × KcpReceiver.Read) :
    (l.foldl KcpReceiver.takeSegment q).1.rcvQueue = q.1.rcvQueue
      ∧ (l.foldl KcpReceiver.takeSegment q).2.copied = q.2.copied ++ payload l := by
  induction l generalizing q with
  | nil => exact ⟨rfl, (List.append_nil _).symm⟩
  | cons pos rest ih =>
    obtain ⟨hqueue, hcopied⟩ := ih (KcpReceiver.takeSegment q pos)
    refine ⟨?_, ?_⟩
    · rw [List.foldl_cons, hqueue]
      unfold KcpReceiver.takeSegment KcpReceiver.segmentRecvPut
      dsimp only
      split <;> rfl
    · rw [List.foldl_cons, hcopied]
      simp [KcpReceiver.takeSegment, payload]

/-- `kcp_recv` copies all that waits. -/
theorem recv (h : Delivers ms r read) {state : KcpConnectionState} {size : Nat}
    {copied : KcpReceiver.Read} {tell : Bool} (hrecv : r.recv state size = .ok (r', copied, tell)) :
    Delivers ms r' (read ++ copied.copied) := by
  have hsame := KcpReceiver.unread_recv hrecv
  simp only [KcpReceiver.unread, Prod.mk.injEq] at hsame
  obtain ⟨hnxt, -, -, hbuf, hlist, -⟩ := hsame
  obtain ⟨j, k, hjk, hk, hcollects, hread, hwaits⟩ := h
  unfold KcpReceiver.recv at hrecv
  split at hrecv
  · cases hrecv
  split at hrecv
  · cases hrecv
  split at hrecv
  · cases hrecv
  split at hrecv
  · cases hrecv
  cases hrecv
  obtain ⟨hqueue, hcopied⟩ := foldl_takeSegment r.rcvQueue ({ r with rcvQueue := [] }, ⟨[], 0⟩)
  refine ⟨k, k, le_refl _, hk, hcollects.congr hnxt hbuf hlist, ?_, ?_⟩
  · rw [hcopied, hread, List.nil_append, hwaits, ← List.flatten_append]
    conv_rhs => rw [← List.take_append_drop j ((ms.map payload).take k), List.take_take,
      min_eq_left hjk]
  · rw [hqueue, List.drop_eq_nil_of_le (by simp)]
    rfl

end Delivers

end Eular.Kcp
