/-
Which candidate hole punching selects.

The request that waits is decided by the first datagram that `decides`
something: one from the address of a candidate, or a request from nobody's
address that has the port of a local candidate. `result_ioCb` is one callback,
`result_run` a run of them; `decides_sound` says what such a datagram is, and
`decides_from` that a frame from a candidate decides for it. The synchronous
function takes the candidate it is at (`tryCandidates_sound`).
-/
import Eular.Ntrs.Punch

namespace Eular.Ntrs.Punch

open Lib Binary

-- ==== addresses

theorem sameEndpoint_iff (lhs rhs : Sockaddr) :
    sockaddrSameEndpoint lhs rhs = true
      ↔ lhs.family = rhs.family ∧ ∃ p, sockaddrEndpoint lhs = some p
        ∧ sockaddrEndpoint rhs = some p := by
  unfold sockaddrSameEndpoint
  by_cases hfamily : lhs.family = rhs.family
  · rw [if_neg (not_not.mpr hfamily)]
    cases sockaddrEndpoint lhs with
    | none => simp
    | some l =>
      cases sockaddrEndpoint rhs with
      | none => simp
      | some r => simp [hfamily, eq_comm]
  · rw [if_pos hfamily]
    simp [hfamily]

theorem sameEndpoint_of_both {src a b : Sockaddr} (ha : sockaddrSameEndpoint src a = true)
    (hb : sockaddrSameEndpoint src b = true) : sockaddrSameEndpoint a b = true := by
  obtain ⟨hfamily, p, hsrc, hp⟩ := (sameEndpoint_iff _ _).mp ha
  obtain ⟨hfamily', q, hsrc', hq⟩ := (sameEndpoint_iff _ _).mp hb
  rw [hsrc] at hsrc'
  cases hsrc'
  exact (sameEndpoint_iff _ _).mpr ⟨hfamily.symm.trans hfamily', p, hp, hq⟩

variable {inet_pton : String → Option (Family × String)}

/-- A datagram whose source is the address of a candidate. -/
def IsFrom (inet_pton : String → Option (Family × String)) (d : Datagram) (c : Candidate) : Prop :=
  ∃ addr, candidateToSockaddr inet_pton c = some addr ∧ sockaddrSameEndpoint d.src addr = true

/-- A request from nobody's address, with the port of a local candidate. -/
def LocalRequest (inet_pton : String → Option (Family × String)) (candidates : List Candidate)
    (d : Datagram) (c : Candidate) : Prop :=
  (∀ c' ∈ candidates, ¬ IsFrom inet_pton d c')
    ∧ (∃ out, parsePunchFrame (d.payload.take 512) = some out
      ∧ out.frame_type = NTRS_BINARY_FRAME_PUNCH_REQ)
    ∧ c.type.1 = hostLocal ∧ c.port = srcPort d.src

theorem frame_type_of_parse {payload : List UInt8} {out : PunchFrameMeta}
    (h : parsePunchFrame payload = some out) :
    out.frame_type = NTRS_BINARY_FRAME_PUNCH_REQ
      ∨ out.frame_type = NTRS_BINARY_FRAME_PUNCH_ACK := by
  unfold parsePunchFrame at h
  split at h
  · cases h
  · split at h
    · cases h
    · split at h
      · cases h
      · split at h
        · cases h
        · split at h
          case isTrue htype =>
            cases h
            exact htype
          · cases h

-- ==== callbacks

namespace PunchRequest

/-- The candidate that a datagram decides for. -/
def decides (entries : List (Candidate × Sockaddr)) (d : Datagram) : Option Candidate :=
  (fromCandidate d (parsePunchFrame (d.payload.take 512)) entries).or
    (fromHostLocal d (parsePunchFrame (d.payload.take 512)) entries)

/-- The datagrams that a callback takes off the socket. -/
def arrived : List Received → List Datagram
  | [] => []
  | .interrupted :: rest => arrived rest
  | .wouldBlock :: _ => []
  | .failed :: _ => []
  | .datagram d :: rest => if d.payload.isEmpty then [] else d :: arrived rest

theorem fromCandidate_eq (d : Datagram) (entries : List (Candidate × Sockaddr)) :
    fromCandidate d (parsePunchFrame (d.payload.take 512)) entries
      = if (parsePunchFrame (d.payload.take 512)).isSome then
          (entries.find? fun entry => sockaddrSameEndpoint d.src entry.2).map Prod.fst
        else none := by
  cases hparse : parsePunchFrame (d.payload.take 512) with
  | none =>
    induction entries with
    | nil => rfl
    | cons entry entries ih =>
      rw [fromCandidate]
      split
      · exact ih
      · exact ih
  | some out =>
    have htype := frame_type_of_parse hparse
    induction entries with
    | nil => rfl
    | cons entry entries ih =>
      rw [fromCandidate]
      rw [Option.isSome_some, if_pos rfl] at ih ⊢
      by_cases hsame : sockaddrSameEndpoint d.src entry.2 = true
      · rw [if_pos hsame, List.find?_cons_of_pos (by simpa using hsame)]
        split
        · rfl
        case isFalse hreq =>
          rw [if_neg (not_not.mpr (htype.resolve_left hreq))]
          rfl
      · rw [if_neg hsame, List.find?_cons_of_neg (by simpa using hsame)]
        exact ih

variable (r : PunchRequest)

theorem sent_sendAck (d : Datagram) (parsed : Option PunchFrameMeta)
    (now : UInt64) : ∃ sent, r.sendAck d parsed now = { r with sent } := by
  unfold sendAck send
  split
  · exact ⟨_, rfl⟩
  · split
    · split
      · exact ⟨_, rfl⟩
      · exact ⟨_, rfl⟩
    · exact ⟨_, rfl⟩

theorem result_ioCb (now : UInt64) (received : List Received) :
    (r.ioCb now received).punch_candidates = r.punch_candidates
      ∧ (r.ioCb now received).result
        = match (arrived received).findSome? (decides r.punch_candidates) with
          | some c => some (some c)
          | none => r.result := by
  induction received with
  | nil => exact ⟨rfl, rfl⟩
  | cons answer received ih =>
    cases answer with
    | interrupted => exact ih
    | wouldBlock => exact ⟨rfl, rfl⟩
    | failed => exact ⟨rfl, rfl⟩
    | datagram d =>
      rw [ioCb, arrived]
      by_cases hempty : d.payload.isEmpty = true
      · rw [if_pos hempty, if_pos hempty]
        exact ⟨rfl, rfl⟩
      · rw [if_neg hempty, if_neg hempty, List.findSome?_cons]
        obtain ⟨sent, hsent⟩ := r.sent_sendAck d (parsePunchFrame (d.payload.take 512)) now
        unfold decides
        dsimp only
        cases fromCandidate d (parsePunchFrame (d.payload.take 512)) r.punch_candidates with
        | some c =>
          rw [hsent]
          exact ⟨rfl, rfl⟩
        | none =>
          rw [Option.none_or]
          cases fromHostLocal d (parsePunchFrame (d.payload.take 512)) r.punch_candidates with
          | some c =>
            rw [hsent]
            exact ⟨rfl, rfl⟩
          | none => exact ih

-- ==== runs

/-- What sending does not touch. -/
def decided : List (Candidate × Sockaddr) × Option (Option Candidate) :=
  (r.punch_candidates, r.result)

theorem decided_send (addr : Sockaddr) (payload : Option (List UInt8)) :
    (r.send addr payload).decided = r.decided := by
  unfold send
  split
  · rfl
  · rfl

theorem decided_sendRound (now : UInt64) :
    (r.sendRound now).decided = r.decided := by
  unfold sendRound
  generalize hbuild : (fun c : Candidate =>
    buildPunchFrame r.request_id c.type (UInt32.ofNat (r.punch_round + 1)) now) = build
  suffices hall : ∀ (entries : List (Candidate × Sockaddr)) (s : PunchRequest),
      (entries.foldl (fun s entry => s.send entry.2 (build entry.1)) s).decided = s.decided by
    rw [← hbuild] at hall
    exact hall r.punch_candidates r
  intro entries
  induction entries with
  | nil => exact fun s => rfl
  | cons entry entries ih => exact fun s => (ih _).trans (decided_send s entry.2 (build entry.1))

theorem candidates_step (op : PunchOp) :
    (r.step op).punch_candidates = r.punch_candidates := by
  unfold step
  split
  · rfl
  · cases op with
    | io read received now =>
      dsimp only
      split
      · exact (result_ioCb r now received).1
      · rfl
    | timeout now =>
      unfold timeoutCb
      dsimp only
      split
      · rfl
      · exact congrArg Prod.fst
          (decided_sendRound { r with punch_round := r.punch_round + 1 } now)

theorem result_step (op : PunchOp) (hwaits : r.result = none) {c : Candidate}
    (hdone : (r.step op).result = some (some c)) :
    ∃ received now, op = .io true received now
      ∧ (arrived received).findSome? (decides r.punch_candidates) = some c := by
  unfold step at hdone
  rw [if_neg (by rw [hwaits]; exact Bool.false_ne_true)] at hdone
  cases op with
  | io read received now =>
    cases read with
    | false =>
      have hsame : r.result = some (some c) := hdone
      rw [hwaits] at hsame
      cases hsame
    | true =>
      have hresult := (result_ioCb r now received).2
      refine ⟨received, now, rfl, ?_⟩
      have hdone : (r.ioCb now received).result = some (some c) := hdone
      rw [hresult] at hdone
      cases hfirst : (arrived received).findSome? (decides r.punch_candidates) with
      | none =>
        rw [hfirst, hwaits] at hdone
        cases hdone
      | some c' =>
        rw [hfirst] at hdone
        cases hdone
        rfl
  | timeout now =>
    have hdone : (r.timeoutCb now).result = some (some c) := hdone
    unfold timeoutCb at hdone
    dsimp only at hdone
    split at hdone
    · cases hdone
    · have hsame := congrArg Prod.snd
        (decided_sendRound { r with punch_round := r.punch_round + 1 } now)
      have hnone : r.result = some (some c) := hsame.symm.trans hdone
      rw [hwaits] at hnone
      cases hnone

def datagrams (ops : List PunchOp) : List Datagram :=
  ops.flatMap fun
    | .io true received _ => arrived received
    | _ => []

theorem result_run (hwaits : r.result = none) {ops : List PunchOp}
    {c : Candidate} (hdone : (run step r ops).result = some (some c)) :
    ∃ d ∈ datagrams ops, decides r.punch_candidates d = some c := by
  induction ops generalizing r with
  | nil =>
    have hsame : r.result = some (some c) := hdone
    rw [hwaits] at hsame
    cases hsame
  | cons op ops ih =>
    by_cases hstill : (r.step op).result = none
    · obtain ⟨d, hd, hdecides⟩ := ih (r.step op) hstill hdone
      rw [candidates_step] at hdecides
      exact ⟨d, List.mem_append_right _ hd, hdecides⟩
    · have hfinished (l : List PunchOp) : run step (r.step op) l = r.step op := by
        induction l with
        | nil => rfl
        | cons next l ihl =>
          have hsame : (r.step op).step next = r.step op :=
            if_pos (Option.isSome_iff_ne_none.mpr hstill)
          rw [run_cons, hsame, ihl]
      rw [run_cons, hfinished] at hdone
      obtain ⟨received, now, rfl, hfirst⟩ := result_step r op hwaits hdone
      obtain ⟨d, hd, hdecides⟩ := List.exists_of_findSome?_eq_some hfirst
      exact ⟨d, List.mem_append_left _ hd, hdecides⟩

-- ==== the datagram

variable {candidates : List Candidate} {c : Candidate} {d : Datagram}

/-- The candidates that have an address. -/
def entriesOf (inet_pton : String → Option (Family × String)) (candidates : List Candidate) :
    List (Candidate × Sockaddr) :=
  candidates.filterMap fun c => (candidateToSockaddr inet_pton c).map fun addr => (c, addr)

theorem mem_entriesOf {addr : Sockaddr} :
    (c, addr) ∈ entriesOf inet_pton candidates
      ↔ c ∈ candidates ∧ candidateToSockaddr inet_pton c = some addr := by
  unfold entriesOf
  rw [List.mem_filterMap]
  constructor
  · rintro ⟨c', hc', hentry⟩
    obtain ⟨addr', haddr, hpair⟩ := Option.map_eq_some_iff.mp hentry
    cases hpair
    exact ⟨hc', haddr⟩
  · rintro ⟨hc, haddr⟩
    exact ⟨c, hc, by rw [haddr]; rfl⟩

theorem addresses_entriesOf : (entriesOf inet_pton candidates).map Prod.snd
    = candidates.filterMap (candidateToSockaddr inet_pton) := by
  unfold entriesOf
  rw [List.map_filterMap]
  refine List.filterMap_congr fun c _ => ?_
  rw [Option.map_map]
  exact congrFun Option.map_id _

theorem decides_sound (h : decides (entriesOf inet_pton candidates) d = some c) :
    c ∈ candidates ∧ (parsePunchFrame (d.payload.take 512)).isSome
      ∧ (IsFrom inet_pton d c ∨ LocalRequest inet_pton candidates d c) := by
  unfold decides at h
  rw [fromCandidate_eq] at h
  cases hparse : parsePunchFrame (d.payload.take 512) with
  | none =>
    rw [hparse] at h
    cases h
  | some out =>
    rw [hparse, Option.isSome_some, if_pos rfl] at h
    cases hfirst : (entriesOf inet_pton candidates).find?
        (fun entry => sockaddrSameEndpoint d.src entry.2) with
    | some entry =>
      rw [hfirst] at h
      cases h
      have hmem := mem_entriesOf.mp (List.mem_of_find?_eq_some hfirst)
      have hsame := List.find?_some hfirst
      exact ⟨hmem.1, rfl, .inl ⟨entry.2, hmem.2, hsame⟩⟩
    | none =>
      rw [hfirst, Option.map_none, Option.none_or, fromHostLocal] at h
      split at h
      case isFalse => cases h
      case isTrue hreq =>
        obtain ⟨entry, hfound, rfl⟩ := Option.map_eq_some_iff.mp h
        have hmem := mem_entriesOf.mp (List.mem_of_find?_eq_some hfound)
        have hlocal := List.find?_some hfound
        have hlocal := of_decide_eq_true hlocal
        refine ⟨hmem.1, rfl, .inr ⟨?_, ⟨out, hparse, hreq⟩, hlocal⟩⟩
        rintro c' hc' ⟨addr, haddr, hsame⟩
        have hnot := List.find?_eq_none.mp hfirst (c', addr) (mem_entriesOf.mpr ⟨hc', haddr⟩)
        exact hnot hsame

theorem decides_from (hparse : (parsePunchFrame (d.payload.take 512)).isSome)
    (hfrom : IsFrom inet_pton d c) (hc : c ∈ candidates)
    (hdistinct : (entriesOf inet_pton candidates).Pairwise fun a b =>
      sockaddrSameEndpoint a.2 b.2 = false) :
    decides (entriesOf inet_pton candidates) d = some c := by
  obtain ⟨addr, haddr, hsame⟩ := hfrom
  have hmem : (c, addr) ∈ entriesOf inet_pton candidates := mem_entriesOf.mpr ⟨hc, haddr⟩
  unfold decides
  rw [fromCandidate_eq, if_pos hparse]
  obtain ⟨before, after, hentries, hbefore⟩ :
      ∃ before after, entriesOf inet_pton candidates = before ++ (c, addr) :: after
        ∧ ∀ entry ∈ before, sockaddrSameEndpoint d.src entry.2 = false := by
    obtain ⟨before, after, hentries⟩ := List.append_of_mem hmem
    refine ⟨before, after, hentries, fun entry hentry => ?_⟩
    rw [hentries, List.pairwise_append] at hdistinct
    have hapart := hdistinct.2.2 entry hentry (c, addr) List.mem_cons_self
    by_contra hboth
    rw [Bool.not_eq_false] at hboth
    rw [sameEndpoint_of_both hboth hsame] at hapart
    cases hapart
  have hfirst : (entriesOf inet_pton candidates).find?
      (fun entry => sockaddrSameEndpoint d.src entry.2) = some (c, addr) := by
    rw [hentries, List.find?_append, List.find?_cons_of_pos (a := (c, addr)) hsame]
    have hnone : before.find? (fun entry => sockaddrSameEndpoint d.src entry.2) = none := by
      rw [List.find?_eq_none]
      intro entry hentry
      rw [hbefore entry hentry]
      exact Bool.false_ne_true
    rw [hnone]
    rfl
  rw [hfirst]
  rfl

/-- A frame from the address of the candidate, or a local request for it. -/
def Decisive (inet_pton : String → Option (Family × String)) (candidates : List Candidate)
    (d : Datagram) (c : Candidate) : Prop :=
  (parsePunchFrame (d.payload.take 512)).isSome
    ∧ (IsFrom inet_pton d c ∨ LocalRequest inet_pton candidates d c)

theorem findSome?_decides (before : List Datagram)
    (hbefore : ∀ d ∈ before, ∀ c ∈ candidates, ¬ Decisive inet_pton candidates d c) :
    before.findSome? (decides (entriesOf inet_pton candidates)) = none := by
  rw [List.findSome?_eq_none_iff]
  intro d hd
  cases hdecides : decides (entriesOf inet_pton candidates) d with
  | none => rfl
  | some c =>
    obtain ⟨hc, hparse, hwhich⟩ := decides_sound hdecides
    exact absurd ⟨hparse, hwhich⟩ (hbefore d hd c hc)

theorem submit_spec {request_id : UInt64} {send_rounds : Int} {now : UInt64} {r : PunchRequest}
    (h : submit inet_pton request_id candidates send_rounds now = some r) :
    r.punch_candidates = entriesOf inet_pton candidates ∧ r.result = none := by
  unfold submit at h
  dsimp only at h
  split at h
  · cases h
  · cases h
    have hsame := decided_sendRound
      { request_id, punch_candidates := entriesOf inet_pton candidates,
        punch_max_rounds := roundsOf send_rounds } now
    exact ⟨congrArg Prod.fst hsame, congrArg Prod.snd hsame⟩

theorem candidates_run (ops : List PunchOp) :
    (run step r ops).punch_candidates = r.punch_candidates := by
  induction ops generalizing r with
  | nil => rfl
  | cons op ops ih => exact (ih (r.step op)).trans (candidates_step r op)

theorem result_io (hwaits : r.result = none) (received : List Received)
    (now : UInt64) :
    (r.step (.io true received now)).result
      = ((arrived received).findSome? (decides r.punch_candidates)).map some := by
  have hstep : r.step (.io true received now) = r.ioCb now received := by
    unfold step
    rw [if_neg (by rw [hwaits]; exact Bool.false_ne_true)]
    rfl
  rw [hstep, (result_ioCb r now received).2, hwaits]
  cases (arrived received).findSome? (decides r.punch_candidates) with
  | none => rfl
  | some c => rfl

end PunchRequest

-- ==== synchronous

def Heard (answer : Option Datagram) : Prop :=
  ∃ d, answer = some d ∧ (parsePunchFrame (d.payload.take 511)).isSome

section Synchronous

variable {candidates : List Candidate} {c : Candidate}

theorem tryRounds_heard {received : Nat → Option Datagram} {round : Nat}
    (h : Heard (received round)) (left : Nat) : tryRounds c received round (left + 1) = some c := by
  obtain ⟨d, hd, hparse⟩ := h
  obtain ⟨out, hout⟩ := Option.isSome_iff_exists.mp hparse
  rw [tryRounds, hd]
  dsimp only
  rw [hout]
  dsimp only
  have htype := frame_type_of_parse hout
  rw [if_neg (by tauto)]

theorem tryRounds_silent {received : Nat → Option Datagram} {round : Nat}
    (h : ¬ Heard (received round)) (left : Nat) :
    tryRounds c received round (left + 1) = tryRounds c received (round + 1) left := by
  rw [tryRounds]
  cases hd : received round with
  | none => rfl
  | some d =>
    dsimp only
    cases hparse : parsePunchFrame (d.payload.take 511) with
    | none => rfl
    | some out => exact absurd ⟨d, hd, by rw [hparse]; rfl⟩ h

theorem tryRounds_eq (received : Nat → Option Datagram) (round left : Nat) :
    (tryRounds c received round left = some c
        ∧ ∃ k, round ≤ k ∧ k < round + left ∧ Heard (received k))
      ∨ (tryRounds c received round left = none
        ∧ ∀ k, round ≤ k → k < round + left → ¬ Heard (received k)) := by
  induction left generalizing round with
  | zero => exact .inr ⟨rfl, fun k hk hlt => by omega⟩
  | succ left ih =>
    by_cases h : Heard (received round)
    · exact .inl ⟨tryRounds_heard h left, round, le_refl _, by omega, h⟩
    · rw [tryRounds_silent h]
      rcases ih (round + 1) with ⟨hsome, k, hk, hlt, hheard⟩ | ⟨hnone, hsilent⟩
      · exact .inl ⟨hsome, k, by omega, by omega, hheard⟩
      · refine .inr ⟨hnone, fun k hk hlt => ?_⟩
        rcases hk.eq_or_lt with rfl | hk
        · exact h
        · exact hsilent k hk (by omega)

theorem tryCandidates_sound {received : Nat → Nat → Option Datagram} {rounds i : Nat}
    (h : tryCandidates inet_pton received rounds i candidates = some c) :
    ∃ j, candidates[j]? = some c ∧ ∃ k, k < rounds ∧ Heard (received (i + j) k) := by
  induction candidates generalizing i with
  | nil => cases h
  | cons head candidates ih =>
    have hlater (h : tryCandidates inet_pton received rounds (i + 1) candidates = some c) :
        ∃ j, (head :: candidates)[j]? = some c
          ∧ ∃ k, k < rounds ∧ Heard (received (i + j) k) := by
      obtain ⟨j, hj, k, hk, hheard⟩ := ih h
      exact ⟨j + 1, hj, k, hk, by rwa [← Nat.add_assoc, Nat.add_right_comm]⟩
    rw [tryCandidates] at h
    cases haddr : candidateToSockaddr inet_pton head with
    | none =>
      rw [haddr] at h
      exact hlater h
    | some addr =>
      rw [haddr] at h
      dsimp only at h
      rcases tryRounds_eq (c := head) (received i) 0 rounds with
        ⟨hsome, k, -, hk, hheard⟩ | ⟨hnone, -⟩
      · rw [hsome] at h
        cases h
        exact ⟨0, rfl, k, by omega, hheard⟩
      · rw [hnone] at h
        exact hlater h

theorem tryCandidates_first {received : Nat → Nat → Option Datagram} {rounds i j k : Nat}
    (hc : candidates[j]? = some c) (haddr : (candidateToSockaddr inet_pton c).isSome)
    (hk : k < rounds) (hheard : Heard (received (i + j) k))
    (hfirst : ∀ j' < j, ∀ k' < rounds, ¬ Heard (received (i + j') k')) :
    tryCandidates inet_pton received rounds i candidates = some c := by
  induction candidates generalizing i j with
  | nil => cases hc
  | cons head candidates ih =>
    rw [tryCandidates]
    cases j with
    | zero =>
      cases hc
      obtain ⟨addr, haddr⟩ := Option.isSome_iff_exists.mp haddr
      rw [haddr]
      dsimp only
      rcases tryRounds_eq (c := c) (received i) 0 rounds with ⟨hsome, -⟩ | ⟨-, hsilent⟩
      · rw [hsome]
      · exact absurd hheard (hsilent k (Nat.zero_le _) (by omega))
    | succ j =>
      have hlater : tryCandidates inet_pton received rounds (i + 1) candidates = some c := by
        refine ih hc (by rwa [Nat.add_right_comm]) fun j' hj' => ?_
        have hlate := hfirst (j' + 1) (by omega)
        rwa [← Nat.add_assoc, Nat.add_right_comm] at hlate
      cases candidateToSockaddr inet_pton head with
      | none => exact hlater
      | some addr =>
        dsimp only
        rcases tryRounds_eq (c := head) (received i) 0 rounds with
          ⟨-, k', -, hk', hearly⟩ | ⟨hnone, -⟩
        · exact absurd hearly (hfirst 0 (by omega) k' (by omega))
        · rw [hnone]
          exact hlater

end Synchronous

-- ==== selection

open PunchRequest in
/-- What hole punching selects. Of the request that waits: success is for a candidate that a
decisive datagram is for, nothing else ends it successfully, and the first decisive one does, for
the candidate it is from. Of the synchronous function: success takes a frame in a round of the
candidate, and the first frame, if it is from the candidate whose round it is, is enough. -/
theorem punch_selects (inet_pton : String → Option (Family × String)) (candidates : List Candidate)
    (send_rounds : Int) :
    (∀ request_id now r, submit inet_pton request_id candidates send_rounds now = some r →
      ∀ ops,
        (∀ c, (run step r ops).result = some (some c) →
          c ∈ candidates ∧ ∃ d ∈ datagrams ops, Decisive inet_pton candidates d c)
        ∧ ((run step r ops).result = none → ∀ received now,
          ((∀ d ∈ arrived received, ∀ c ∈ candidates, ¬ Decisive inet_pton candidates d c) →
            ((run step r ops).step (.io true received now)).result = none)
          ∧ ∀ before d after c, arrived received = before ++ d :: after →
            (candidates.filterMap (candidateToSockaddr inet_pton)).Pairwise
              (fun a b => sockaddrSameEndpoint a b = false) →
            (∀ e ∈ before, ∀ c' ∈ candidates, ¬ Decisive inet_pton candidates e c') →
            c ∈ candidates → (parsePunchFrame (d.payload.take 512)).isSome →
            IsFrom inet_pton d c →
            ((run step r ops).step (.io true received now)).result = some (some c)))
    ∧ ∀ received : Nat → Nat → Option Datagram,
      (∀ c, tryUdpHolePunch inet_pton candidates send_rounds received = some c →
        ∃ i, candidates[i]? = some c ∧ ∃ k < roundsOf send_rounds, Heard (received i k))
      ∧ ∀ i k c d, candidates[i]? = some c → k < roundsOf send_rounds → received i k = some d →
        (parsePunchFrame (d.payload.take 511)).isSome → IsFrom inet_pton d c →
        (∀ i' < i, ∀ k' < roundsOf send_rounds, ¬ Heard (received i' k')) →
        tryUdpHolePunch inet_pton candidates send_rounds received = some c := by
  refine ⟨fun request_id now r hsubmit ops => ?_, fun received => ⟨?_, ?_⟩⟩
  · obtain ⟨hentries, hnone⟩ := submit_spec hsubmit
    refine ⟨fun c hdone => ?_, fun hwaits received now => ⟨fun hnobody => ?_, ?_⟩⟩
    · obtain ⟨d, hd, hdecides⟩ := result_run r hnone hdone
      rw [hentries] at hdecides
      obtain ⟨hc, hdecisive⟩ := decides_sound hdecides
      exact ⟨hc, d, hd, hdecisive⟩
    · rw [result_io _ hwaits, candidates_run, hentries, findSome?_decides _ hnobody]
      rfl
    · intro before d after c harrived hdistinct hbefore hc hparse hfrom
      have hpairwise : (entriesOf inet_pton candidates).Pairwise
          fun a b => sockaddrSameEndpoint a.2 b.2 = false := by
        rw [← addresses_entriesOf, List.pairwise_map] at hdistinct
        exact hdistinct
      rw [result_io _ hwaits, candidates_run, hentries, harrived, List.findSome?_append,
        findSome?_decides _ hbefore, Option.none_or, List.findSome?_cons,
        decides_from hparse hfrom hc hpairwise]
      rfl
  · intro c hselected
    obtain ⟨i, hi, k, hk, hheard⟩ := tryCandidates_sound hselected
    exact ⟨i, hi, k, hk, by rwa [Nat.zero_add] at hheard⟩
  · intro i k c d hc hk hd hparse hfrom hfirst
    obtain ⟨addr, haddr, -⟩ := hfrom
    refine tryCandidates_first hc (by rw [haddr]; rfl) hk
      (by rw [Nat.zero_add]; exact ⟨d, hd, hparse⟩) fun i' hi' => ?_
    rw [Nat.zero_add]
    exact hfirst i' hi'

-- ==== example

section

/-- An address for every text, as it is written. -/
def everyText : String → Option (Family × String) := fun ip => some (.inet, ip)

def near : Candidate := ⟨"192.168.0.2", 5000, ⟨hostLocal, by decide⟩⟩

theorem nil_fits : ([] : List UInt8).length < NTRS_MAX_TEXT_LEN := by decide

def far : Candidate := ⟨"203.0.113.7", 6000, ⟨[], nil_fits⟩⟩

def punchRequest : List UInt8 := (buildPunchFrame 1 ⟨[], nil_fits⟩ 1 0).getD []

def fromFar : Datagram := ⟨⟨.inet, some "203.0.113.7", 6000⟩, punchRequest⟩

def fromStranger : Datagram := ⟨⟨.inet, some "198.51.100.9", 5000⟩, punchRequest⟩

open PunchRequest in
theorem punch_selects_far :
    (∀ r, submit everyText 1 [near, far] 2 0 = some r →
        (r.step (.io true [.datagram fromFar] 0)).result = some (some far))
      ∧ tryUdpHolePunch everyText [near, far] 2
        (fun i _ => if i = 1 then some fromFar else none) = some far := by
  refine ⟨fun r hr => ?_, ?_⟩
  · have hwaits : (run step r []).result = none := (submit_spec hr).2
    refine (((punch_selects everyText [near, far] 2).1 1 0 r hr []).2 hwaits _ 0).2 [] fromFar []
      far rfl (by decide +kernel) ?_ (by decide) (by decide +kernel) ?_
    · intro e he
      cases he
    · exact ⟨_, rfl, by decide⟩
  · refine ((punch_selects everyText [near, far] 2).2 _).2 1 0 far fromFar rfl (by decide) rfl
      (by decide +kernel) ⟨_, rfl, by decide⟩ fun i hi k hk => ?_
    rintro ⟨d, hd, -⟩
    rw [if_neg (by omega)] at hd
    cases hd

open PunchRequest in
/-- The one datagram there is comes from no candidate. -/
theorem punch_selects_stranger :
    ((submit everyText 1 [near, far] 2 0).map fun r =>
        (run step r [.io true [.datagram fromStranger] 0]).result) = some (some (some near))
      ∧ tryUdpHolePunch everyText [near, far] 2 (fun _ _ => some fromStranger) = some near
      ∧ ∀ c ∈ [near, far], ¬ IsFrom everyText fromStranger c := by
  refine ⟨by decide +kernel, by decide +kernel, fun c hc => ?_⟩
  rintro ⟨addr, haddr, hsame⟩
  rw [List.mem_cons, List.mem_singleton] at hc
  rcases hc with rfl | rfl
  · cases haddr
    exact absurd hsame (by decide)
  · cases haddr
    exact absurd hsame (by decide)

end

end Eular.Ntrs.Punch
