/-
What the search for the path MTU gets right, and what it does not.

`kcp_mtu_probe` starts every probe from `mtu_current`, which
`mtu_probe_update` has set to the middle of the bounds. After an answer that
is right: the probe that came through was larger. After a timeout it is not,
and the lower bound goes up to a size nobody has answered. What is left are
the searches where only the last probe fails (`Answered`), the bounds being
close enough for the search to end. In them the bounds stay in order and the
lower one is known to pass (`Inv`), and the search ends, since every answer
raises the lower bound (`attempts_le`).
-/
import Eular.Lib.Run
import Eular.Kcp.MtuProbe

namespace Eular.Kcp

open Lib

namespace KcpMtuProbeCtx

variable {d : KcpMtuProbeCtx} {answers : List ProbeAnswer} {retry : Nat}

/-- `EMSGSIZE` comes while the bounds are apart. -/
def Room : List ProbeAnswer → Nat → Nat → Prop
  | .emsgsize :: answers, lbound, ubound =>
    lbound + 2 ≤ ubound ∧ Room answers lbound ((lbound + ubound) / 2 - 1)
  | _, _, _ => True

/-- An event of a search on a path that lets `pathMtu` bytes through: what is answered has
come through. -/
def Possible (pathMtu : Nat) (c : KcpMtuProbeCtx) : MtuProbeOp → Prop
  | .timeout _ => c.timer = true
  | .answered _ => ∃ size, c.probed = some size ∧ size ≤ pathMtu
  | .icmp _ _ => True

/-- A probe is given up only where that ends the search. -/
def Answered (c : KcpMtuProbeCtx) : MtuProbeOp → Prop
  | .timeout _ => c.mtuLbound < c.mtuUbound ∧ c.mtuUbound ≤ c.mtuLbound + 17
  | .answered answers => c.mtuLbound + 17 < c.mtuUbound →
      Room answers ((c.mtuLbound + 1 + c.mtuUbound) / 2) ETHERNET_MTU
  | .icmp nextHopMtu _ =>
    if 576 ≤ nextHopMtu ∧ nextHopMtu < 0x2000 then
      c.mtuLbound ≤ nextHopMtu ∧ min nextHopMtu c.mtuUbound ≤ c.mtuLbound + 16
    else (c.mtuLbound + c.mtuUbound) / 2 ≤ c.mtuLbound + 16

/-- The calls of `kcp_send_packet` so far, and those the lower bound leaves room for. -/
def potential (c : KcpMtuProbeCtx) : Nat :=
  c.attempts + ETHERNET_MTU * (ETHERNET_MTU - c.mtuLbound)

structure Inv (pathMtu : Nat) (c : KcpMtuProbeCtx) : Prop where
  current_eq : c.mtuCurrent = c.mtuLbound
  le_ubound : c.mtuLbound ≤ c.mtuUbound
  ubound_le : c.mtuUbound ≤ ETHERNET_MTU
  le_known : c.mtuLbound ≤ c.known
  known_le : c.known ≤ pathMtu
  probed : ∀ size, c.probed = some size → c.mtuLbound < c.mtuUbound →
    size = (c.mtuLbound + c.mtuUbound) / 2 + KCP_HEADER_SIZE
  completed : ∀ mtu ∈ c.completed, mtu ≤ pathMtu
  searching : c.timer = true ∨ c.completed ≠ []
  asserted : c.asserted = true

variable {c : KcpMtuProbeCtx} {pathMtu : Nat}

theorem middle_eq (hle : c.mtuLbound ≤ c.mtuUbound) (hub : c.mtuUbound ≤ ETHERNET_MTU) :
    c.middle = (c.mtuLbound + c.mtuUbound) / 2 := by
  unfold middle u32
  unfold ETHERNET_MTU at hub
  omega

/-- What sending a probe does: the upper bound comes down to what the socket takes. -/
structure Sent (c c' : KcpMtuProbeCtx) : Prop where
  current_eq : c'.mtuCurrent = c.mtuCurrent
  lbound_eq : c'.mtuLbound = c.mtuLbound
  known_eq : c'.known = c.known
  completed_eq : c'.completed = c.completed
  asserted_eq : c'.asserted = c.asserted
  le_ubound : c.mtuLbound ≤ c'.mtuUbound
  ubound_le : c'.mtuUbound ≤ c.mtuUbound
  probed : ∀ size, c'.probed = some size →
    size = (c.mtuLbound + c'.mtuUbound) / 2 + KCP_HEADER_SIZE
  attempts_le : c'.attempts ≤ c.attempts + 1 + (c.mtuUbound - c'.mtuUbound)

theorem sent_spec (hle : c.mtuLbound ≤ c.mtuUbound) (hub : c.mtuUbound ≤ ETHERNET_MTU) :
    Sent c c.sent := by
  refine ⟨rfl, rfl, rfl, rfl, rfl, hle, le_rfl, ?_, Nat.le_add_right _ _⟩
  intro size hsize
  show size = (c.mtuLbound + c.mtuUbound) / 2 + KCP_HEADER_SIZE
  rw [← middle_eq hle hub]
  rw [sent] at hsize
  dsimp only at hsize
  split at hsize
  · cases hsize
  · exact (Option.some.inj hsize).symm

theorem refused_ubound (hle : c.mtuLbound + 2 ≤ c.mtuUbound) (hub : c.mtuUbound ≤ ETHERNET_MTU) :
    c.refused.mtuUbound = (c.mtuLbound + c.mtuUbound) / 2 - 1 := by
  rw [refused]
  dsimp only
  rw [middle_eq (by omega) hub, sub32_of_le (by omega)]

theorem Sent.of_refused {d c' : KcpMtuProbeCtx} {ubound : Nat} (hsent : Sent d c')
    (hcurrent : d.mtuCurrent = c.mtuCurrent) (hlbound : d.mtuLbound = c.mtuLbound)
    (hknown : d.known = c.known) (hcompleted : d.completed = c.completed)
    (hasserted : d.asserted = c.asserted) (hattempts : d.attempts = c.attempts + 1)
    (hubound : d.mtuUbound = ubound) (hlt : ubound < c.mtuUbound) : Sent c c' where
  current_eq := hsent.current_eq.trans hcurrent
  lbound_eq := hsent.lbound_eq.trans hlbound
  known_eq := hsent.known_eq.trans hknown
  completed_eq := hsent.completed_eq.trans hcompleted
  asserted_eq := hsent.asserted_eq.trans hasserted
  le_ubound := hlbound ▸ hsent.le_ubound
  ubound_le := by
    have hle := hsent.ubound_le
    omega
  probed := hlbound ▸ hsent.probed
  attempts_le := by
    have hle := hsent.ubound_le
    have hsends := hsent.attempts_le
    omega

theorem sendMtuProbePacket_spec (hle : c.mtuLbound ≤ c.mtuUbound)
    (hub : c.mtuUbound ≤ ETHERNET_MTU) (hroom : Room answers c.mtuLbound c.mtuUbound) :
    Sent c (sendMtuProbePacket answers c) := by
  induction answers generalizing c with
  | nil =>
    rw [sendMtuProbePacket]
    exact sent_spec hle hub
  | cons answer answers ih =>
    cases answer with
    | sent =>
      rw [sendMtuProbePacket]
      exact sent_spec hle hub
    | error =>
      rw [sendMtuProbePacket]
      exact ⟨rfl, rfl, rfl, rfl, rfl, hle, le_rfl, fun _ h => (nomatch h), Nat.le_add_right _ _⟩
    | emsgsize =>
      rw [Room] at hroom
      rw [sendMtuProbePacket]
      have hlower := refused_ubound hroom.1 hub
      have hlbound : c.refused.mtuLbound = c.mtuLbound := by rw [refused]
      have hnext : Sent c.refused (sendMtuProbePacket answers c.refused) := by
        apply ih
        · rw [hlower, hlbound]
          omega
        · rw [hlower]
          omega
        · rw [hlower, hlbound]
          exact hroom.2
      exact hnext.of_refused (by rw [refused]) hlbound (by rw [refused]) (by rw [refused])
        (by rw [refused]) (by rw [refused]) hlower (by omega)

-- ==== updates

theorem mtuProbeUpdate_of_le (answers : List ProbeAnswer) (hle : c.mtuLbound ≤ c.mtuUbound)
    (hclose : c.mtuUbound ≤ c.mtuLbound + 16) :
    c.mtuProbeUpdate answers =
      { c with
        asserted := c.asserted && decide (c.mtuLbound ≤ c.mtuUbound)
        mtuCurrent := c.mtuLbound
        mtuUbound := c.mtuLbound
        timer := false
        completed := c.completed ++ [c.mtuLbound] } := by
  have hsub : sub32 c.mtuUbound c.mtuLbound ≤ 16 := by
    rw [sub32_of_le hle]
    omega
  rw [mtuProbeUpdate]
  exact if_pos hsub

theorem mtuProbeUpdate_of_gt (answers : List ProbeAnswer)
    (hfar : c.mtuLbound + 16 < c.mtuUbound) :
    c.mtuProbeUpdate answers =
      { c with
        asserted := c.asserted && decide (c.mtuLbound ≤ c.mtuUbound)
        mtuCurrent := c.middle }.mtuProbe c.retries answers := by
  have hsub : ¬ sub32 c.mtuUbound c.mtuLbound ≤ 16 := by
    rw [sub32_of_le (by omega)]
    omega
  rw [mtuProbeUpdate]
  exact if_neg hsub

theorem inv_finished
    (hle : d.mtuLbound ≤ d.mtuUbound) (hclose : d.mtuUbound ≤ d.mtuLbound + 16)
    (hub : d.mtuLbound ≤ ETHERNET_MTU) (hlower : d.mtuLbound ≤ d.known)
    (hknown : d.known ≤ pathMtu) (hcompleted : ∀ mtu ∈ d.completed, mtu ≤ pathMtu)
    (hasserted : d.asserted = true) : Inv pathMtu (d.mtuProbeUpdate answers) := by
  rw [mtuProbeUpdate_of_le answers hle hclose]
  refine ⟨rfl, le_rfl, hub, hlower, hknown, fun _ _ h => absurd h (lt_irrefl _), ?_, .inr ?_, ?_⟩
  · intro mtu hmtu
    obtain hmem | hmem := List.mem_append.mp hmtu
    · exact hcompleted mtu hmem
    · rw [List.mem_singleton.mp hmem]
      exact hlower.trans hknown
  · exact List.append_ne_nil_of_right_ne_nil _ (List.cons_ne_nil _ _)
  · show (d.asserted && decide (d.mtuLbound ≤ d.mtuUbound)) = true
    rw [hasserted, decide_eq_true hle, Bool.and_self]

/-- The bounds a search starts from. -/
def restarted (c : KcpMtuProbeCtx) (retry : Nat) : KcpMtuProbeCtx :=
  { c with mtuLbound := c.mtuCurrent, mtuUbound := ETHERNET_MTU, retries := retry }

theorem mtuProbe_spec (retry : Nat)
    (hub : d.mtuCurrent ≤ ETHERNET_MTU) (hroom : Room answers d.mtuCurrent ETHERNET_MTU) :
    Sent (d.restarted retry) (d.mtuProbe retry answers) := by
  have hsent : Sent (d.restarted retry) (sendMtuProbePacket answers (d.restarted retry)) :=
    sendMtuProbePacket_spec hub le_rfl hroom
  exact ⟨hsent.current_eq, hsent.lbound_eq, hsent.known_eq, hsent.completed_eq, hsent.asserted_eq,
    hsent.le_ubound, hsent.ubound_le, hsent.probed, hsent.attempts_le⟩

theorem lbound_mtuProbe (retry : Nat)
    (hub : d.mtuCurrent ≤ ETHERNET_MTU) (hroom : Room answers d.mtuCurrent ETHERNET_MTU) :
    (d.mtuProbe retry answers).mtuLbound = d.mtuCurrent := (mtuProbe_spec retry hub hroom).lbound_eq

theorem inv_probe
    (hub : d.mtuCurrent ≤ ETHERNET_MTU) (hlower : d.mtuCurrent ≤ d.known)
    (hknown : d.known ≤ pathMtu) (hcompleted : ∀ mtu ∈ d.completed, mtu ≤ pathMtu)
    (hasserted : d.asserted = true) (hroom : Room answers d.mtuCurrent ETHERNET_MTU) :
    Inv pathMtu (d.mtuProbe retry answers) := by
  have hsent := mtuProbe_spec retry hub hroom
  have hlbound := lbound_mtuProbe retry hub hroom
  have hknows : (d.mtuProbe retry answers).known = d.known := hsent.known_eq
  have hcompletes : (d.mtuProbe retry answers).completed = d.completed := hsent.completed_eq
  refine ⟨hsent.current_eq.trans hlbound.symm, ?_, hsent.ubound_le, ?_, ?_, ?_, ?_, .inl ?_,
    hsent.asserted_eq.trans hasserted⟩
  · rw [hlbound]
    exact hsent.le_ubound
  · rw [hlbound, hknows]
    exact hlower
  · rw [hknows]
    exact hknown
  · intro size hsize _
    rw [hlbound]
    exact hsent.probed size hsize
  · rw [hcompletes]
    exact hcompleted
  · rw [mtuProbe]

/-- What that search sends at once is less than what raising the lower bound takes away. -/
theorem potential_probe
    (hpos : 0 < d.mtuCurrent) (hub : d.mtuCurrent ≤ ETHERNET_MTU)
    (hroom : Room answers d.mtuCurrent ETHERNET_MTU) :
    (d.mtuProbe retry answers).potential
      ≤ d.attempts + ETHERNET_MTU * (ETHERNET_MTU + 1 - d.mtuCurrent) := by
  have hsent := mtuProbe_spec retry hub hroom
  have hlbound := lbound_mtuProbe retry hub hroom
  have hattempts : (d.mtuProbe retry answers).attempts
      ≤ d.attempts + 1 + (ETHERNET_MTU - (d.mtuProbe retry answers).mtuUbound) := hsent.attempts_le
  have hubound : d.mtuCurrent ≤ (d.mtuProbe retry answers).mtuUbound := hsent.le_ubound
  rw [potential, hlbound]
  unfold ETHERNET_MTU at *
  omega

-- ==== steps

/-- What a step does that keeps the promises: the search goes on from a higher bound, or it has
ended. -/
structure Kept (pathMtu : Nat) (c c' : KcpMtuProbeCtx) : Prop where
  inv : Inv pathMtu c'
  lbound_le : c.mtuLbound ≤ c'.mtuLbound
  potential_le : c'.potential ≤ c.potential
  progress : c'.completed ≠ [] ∨ c.mtuLbound < c'.mtuLbound ∧ c'.completed = c.completed

theorem kept_finished (hinv : Inv pathMtu c)
    (hle : d.mtuLbound ≤ d.mtuUbound) (hclose : d.mtuUbound ≤ d.mtuLbound + 16)
    (hlower : c.mtuLbound ≤ d.mtuLbound) (hub : d.mtuLbound ≤ ETHERNET_MTU)
    (hle_known : d.mtuLbound ≤ d.known) (hknown : d.known ≤ pathMtu)
    (hcompleted : d.completed = c.completed) (hasserted : d.asserted = c.asserted)
    (hattempts : d.attempts = c.attempts) : Kept pathMtu c (d.mtuProbeUpdate answers) := by
  refine ⟨inv_finished hle hclose hub hle_known hknown (hcompleted ▸ hinv.completed)
    (hasserted.trans hinv.asserted), ?_, ?_, .inl ?_⟩
  · rw [mtuProbeUpdate_of_le answers hle hclose]
    exact hlower
  · rw [mtuProbeUpdate_of_le answers hle hclose, potential, potential]
    dsimp only
    rw [hattempts]
    unfold ETHERNET_MTU
    omega
  · rw [mtuProbeUpdate_of_le answers hle hclose]
    exact List.append_ne_nil_of_right_ne_nil _ (List.cons_ne_nil _ _)

theorem kept_timeout (hinv : Inv pathMtu c)
    (hanswered : c.Answered (.timeout answers)) : Kept pathMtu c (c.mtuProbeTimeout answers) := by
  obtain ⟨hlt, hclose⟩ := hanswered
  have hsub : sub32 c.mtuUbound 1 = c.mtuUbound - 1 := sub32_of_le (by omega)
  rw [mtuProbeTimeout, hsub]
  apply kept_finished hinv
  · exact Nat.le_sub_one_of_lt hlt
  · exact Nat.sub_le_of_le_add hclose
  · exact le_rfl
  · exact hinv.le_ubound.trans hinv.ubound_le
  · exact hinv.le_known
  · exact hinv.known_le
  · rfl
  · rfl
  · rfl

theorem kept_icmp {nextHopMtu : Nat} (hinv : Inv pathMtu c)
    (hanswered : c.Answered (.icmp nextHopMtu answers)) :
    Kept pathMtu c (c.processIcmpFragmentation nextHopMtu answers) := by
  have hle := hinv.le_ubound
  have hub := hinv.le_ubound.trans hinv.ubound_le
  rw [Answered] at hanswered
  rw [processIcmpFragmentation]
  split at hanswered
  case isTrue hvalid =>
    rw [if_pos hvalid]
    have hlower : c.mtuLbound ≤ min nextHopMtu c.mtuUbound := le_min hanswered.1 hle
    have hkept : Kept pathMtu c
        ({ c with mtuUbound := min nextHopMtu c.mtuUbound }.mtuProbeUpdate answers) :=
      kept_finished hinv hlower hanswered.2 le_rfl hub hinv.le_known hinv.known_le rfl rfl rfl
    have hbounds : ({ c with mtuUbound := min nextHopMtu c.mtuUbound }.mtuProbeUpdate
        answers).mtuUbound = ({ c with mtuUbound := min nextHopMtu c.mtuUbound }.mtuProbeUpdate
        answers).mtuLbound := by
      rw [mtuProbeUpdate_of_le answers hlower hanswered.2]
    exact ⟨⟨hbounds, hkept.inv.le_ubound, hkept.inv.ubound_le, hkept.inv.le_known,
      hkept.inv.known_le, hkept.inv.probed, hkept.inv.completed, hkept.inv.searching,
      hkept.inv.asserted⟩, hkept.lbound_le, hkept.potential_le, hkept.progress⟩
  case isFalse hvalid =>
    rw [if_neg hvalid, middle_eq hle hinv.ubound_le]
    have hlower : c.mtuLbound ≤ (c.mtuLbound + c.mtuUbound) / 2 := by omega
    exact kept_finished hinv hlower hanswered le_rfl hub hinv.le_known hinv.known_le rfl rfl rfl

/-- The bounds have met: `on_probe_completed` is called once more. -/
theorem kept_met (hinv : Inv pathMtu c) (hknown : max c.known (c.probed.getD 0) ≤ pathMtu) :
    Kept pathMtu c
      { c with
        known := max c.known (c.probed.getD 0)
        completed := c.completed ++ [c.mtuCurrent] } := by
  have hnonempty : c.completed ++ [c.mtuCurrent] ≠ [] :=
    List.append_ne_nil_of_right_ne_nil _ (List.cons_ne_nil _ _)
  refine ⟨⟨hinv.current_eq, hinv.le_ubound, hinv.ubound_le, ?_, hknown, hinv.probed, ?_,
    .inr hnonempty, hinv.asserted⟩, le_rfl, le_rfl, .inl hnonempty⟩
  · exact hinv.le_known.trans (le_max_left _ _)
  · intro mtu hmtu
    obtain hmem | hmem := List.mem_append.mp hmtu
    · exact hinv.completed mtu hmem
    · rw [List.mem_singleton.mp hmem, hinv.current_eq]
      exact hinv.le_known.trans hinv.known_le

theorem kept_raised {size : Nat} (hinv : Inv pathMtu c)
    (hprobed : c.probed = some size) (hsize : size ≤ pathMtu) (hlt : c.mtuLbound < c.mtuUbound)
    (hanswered : c.Answered (.answered answers)) :
    Kept pathMtu c
      ({ c with known := max c.known size, mtuLbound := c.mtuLbound + 1 }.mtuProbeUpdate
        answers) := by
  have hsize_eq := hinv.probed size hprobed hlt
  have hub := hinv.ubound_le
  have hknown : max c.known size ≤ pathMtu := max_le hinv.known_le hsize
  have hmiddle_le : (c.mtuLbound + 1 + c.mtuUbound) / 2 ≤ size := by
    rw [hsize_eq]
    have hpos : 1 ≤ KCP_HEADER_SIZE := by decide
    omega
  rcases Nat.lt_or_ge (c.mtuLbound + 17) c.mtuUbound with hfar | hclose
  · have hmiddle :
        { c with known := max c.known size, mtuLbound := c.mtuLbound + 1 : KcpMtuProbeCtx }.middle
          = (c.mtuLbound + 1 + c.mtuUbound) / 2 := middle_eq hlt hub
    rw [mtuProbeUpdate_of_gt answers (by dsimp only; omega), hmiddle]
    have hroom := hanswered hfar
    have hmiddle_ub : (c.mtuLbound + 1 + c.mtuUbound) / 2 ≤ ETHERNET_MTU := by omega
    have hmiddle_pos : c.mtuLbound < (c.mtuLbound + 1 + c.mtuUbound) / 2 := by omega
    refine ⟨inv_probe hmiddle_ub (hmiddle_le.trans (le_max_right _ _)) hknown hinv.completed ?_
      hroom, ?_, ?_, .inr ?_⟩
    · show (c.asserted && decide (c.mtuLbound + 1 ≤ c.mtuUbound)) = true
      rw [hinv.asserted, Bool.true_and]
      exact decide_eq_true hlt
    · rw [lbound_mtuProbe _ hmiddle_ub hroom]
      exact hmiddle_pos.le
    · refine (potential_probe (by dsimp only; omega) hmiddle_ub hroom).trans ?_
      rw [potential]
      exact Nat.add_le_add_left (Nat.mul_le_mul_left _ (by dsimp only; omega)) _
    · rw [lbound_mtuProbe _ hmiddle_ub hroom]
      exact ⟨hmiddle_pos, (mtuProbe_spec _ hmiddle_ub hroom).completed_eq⟩
  · apply kept_finished hinv
    · exact hlt
    · dsimp only
      omega
    · exact Nat.le_succ _
    · dsimp only
      omega
    · dsimp only
      omega
    · exact hknown
    · rfl
    · rfl
    · rfl

theorem kept_ack (hinv : Inv pathMtu c)
    (hpossible : c.Possible pathMtu (.answered answers))
    (hanswered : c.Answered (.answered answers)) : Kept pathMtu c (c.mtuAckReceived answers) := by
  obtain ⟨size, hprobed, hsize⟩ := hpossible
  have hgot : c.probed.getD 0 = size := by
    rw [hprobed]
    rfl
  rw [mtuAckReceived]
  dsimp only
  by_cases hmet : c.mtuUbound ≤ c.mtuLbound
  · rw [if_pos hmet]
    exact kept_met hinv (by rw [hgot]; exact max_le hinv.known_le hsize)
  · have hlt : c.mtuLbound < c.mtuUbound := Nat.lt_of_not_le hmet
    have hnext : u32 (c.mtuCurrent + 1) = c.mtuLbound + 1 := by
      have hub := hinv.ubound_le
      rw [hinv.current_eq]
      unfold ETHERNET_MTU at hub
      exact Nat.mod_eq_of_lt (by omega)
    rw [if_neg hmet, hnext, hgot]
    exact kept_raised hinv hprobed hsize hlt hanswered

theorem kept_step {op : MtuProbeOp} (hinv : Inv pathMtu c) (hpossible : c.Possible pathMtu op)
    (hanswered : c.Answered op) : Kept pathMtu c (c.step op) := by
  cases op with
  | timeout answers => exact kept_timeout hinv hanswered
  | answered answers => exact kept_ack hinv hpossible hanswered
  | icmp nextHopMtu answers => exact kept_icmp hinv hanswered

-- ==== runs

theorem inv_start {ipv6 : Bool} (retry : Nat)
    (hmin : minMtu ipv6 ≤ pathMtu) (hroom : Room answers (minMtu ipv6) ETHERNET_MTU) :
    Inv pathMtu (start ipv6 retry answers) := by
  have hle : minMtu ipv6 ≤ ETHERNET_MTU := by cases ipv6 <;> decide
  exact inv_probe hle le_rfl hmin (fun _ h => absurd h List.not_mem_nil) rfl hroom

theorem potential_start_le {ipv6 : Bool}
    (hroom : Room answers (minMtu ipv6) ETHERNET_MTU) :
    (start ipv6 retry answers).potential ≤ ETHERNET_MTU * ETHERNET_MTU := by
  have hpos : 0 < minMtu ipv6 := by cases ipv6 <;> decide
  have hle : minMtu ipv6 ≤ ETHERNET_MTU := by cases ipv6 <;> decide
  refine (potential_probe hpos hle hroom).trans ?_
  show 0 + _ ≤ _
  rw [Nat.zero_add]
  exact Nat.mul_le_mul_left _ (by show ETHERNET_MTU + 1 - minMtu ipv6 ≤ _; omega)

/-- What the search promises of a state it is in, the path letting `pathMtu` bytes through. -/
structure Sound (pathMtu : Nat) (c : KcpMtuProbeCtx) : Prop where
  le_ubound : c.mtuLbound ≤ c.mtuUbound
  asserted : c.asserted = true
  le_known : c.mtuLbound ≤ c.known
  completed : ∀ mtu ∈ c.completed, mtu ≤ pathMtu
  searching : c.timer = true ∨ c.completed ≠ []

theorem Inv.sound (hinv : Inv pathMtu c) : Sound pathMtu c :=
  ⟨hinv.le_ubound, hinv.asserted, hinv.le_known, hinv.completed, hinv.searching⟩

/-- The steps of a search on the path whose probes are given up only to end it. -/
def Admitted (pathMtu : Nat) (c : KcpMtuProbeCtx) (op : MtuProbeOp) : Prop :=
  c.Possible pathMtu op ∧ c.Answered op

theorem inv_run {ops : List MtuProbeOp} (hinv : Inv pathMtu c)
    (hok : Meets step (Admitted pathMtu) c ops) :
    Inv pathMtu (run step c ops) ∧ (run step c ops).potential ≤ c.potential :=
  run_inv (P := fun d => Inv pathMtu d ∧ d.potential ≤ c.potential)
    (fun _ _ hd hop =>
      have hkept := kept_step hd.1 hop.1 hop.2
      ⟨hkept.inv, hkept.potential_le.trans hd.2⟩)
    ⟨hinv, le_rfl⟩ hok

theorem completed_run {ops : List MtuProbeOp} (hinv : Inv pathMtu c)
    (hok : Meets step (Admitted pathMtu) c ops) (hlen : ETHERNET_MTU < ops.length) :
    (run step c ops).completed ≠ [] := by
  have hkeep : ∀ d op, Inv pathMtu d → Admitted pathMtu d op → Inv pathMtu (d.step op) :=
    fun d op hd hop => (kept_step hd hop.1 hop.2).inv
  have hall := Meets.and_inv hkeep hinv hok
  apply settles_of_rank (Q := fun d => d.completed ≠ []) (fun d => ETHERNET_MTU - d.mtuLbound)
    ?_ ?_ hall
  · omega
  · intro d op hd
    have hkept := kept_step hd.1 hd.2.1 hd.2.2
    have hle := hkept.inv.le_ubound.trans hkept.inv.ubound_le
    refine hkept.progress.imp_right fun hraised => ?_
    have hlt := hraised.1
    omega
  · intro d op hne hd
    obtain hdone | hraised := (kept_step hd.1 hd.2.1 hd.2.2).progress
    · exact hdone
    · rw [hraised.2]
      exact hne

/-- In a run where every probe given up ends the search, its bounds are in order, what is below
them is known to pass, and it ends, within as many steps as there are sizes, with an MTU that the
path lets through. -/
theorem mtuProbe_sound (ipv6 : Bool) (retry : Nat) (answers : List ProbeAnswer) (pathMtu : Nat)
    (ops : List MtuProbeOp) (hmin : minMtu ipv6 ≤ pathMtu)
    (hroom : Room answers (minMtu ipv6) ETHERNET_MTU)
    (hok : Meets step (Admitted pathMtu) (start ipv6 retry answers) ops) :
    Sound pathMtu (run step (start ipv6 retry answers) ops)
      ∧ (run step (start ipv6 retry answers) ops).attempts ≤ ETHERNET_MTU * ETHERNET_MTU
      ∧ (ETHERNET_MTU < ops.length →
          (run step (start ipv6 retry answers) ops).completed ≠ []) := by
  have hinv := inv_start retry hmin hroom
  obtain ⟨hend, hpotential⟩ := inv_run hinv hok
  refine ⟨hend.sound, ?_, completed_run hinv hok⟩
  calc (run step (start ipv6 retry answers) ops).attempts
      ≤ (run step (start ipv6 retry answers) ops).potential := Nat.le_add_right _ _
    _ ≤ (start ipv6 retry answers).potential := hpotential
    _ ≤ ETHERNET_MTU * ETHERNET_MTU := potential_start_le hroom

/-- Four answers and a message from a router, on a path that lets 1500 bytes through. -/
theorem mtuProbe_sound_1500 :
    Sound 1500 (run step (start false 3 [])
        [.answered [], .answered [], .answered [], .answered [], .icmp 1450 []])
      ∧ (run step (start false 3 [])
        [.answered [], .answered [], .answered [], .answered [], .icmp 1450 []]).attempts
          ≤ ETHERNET_MTU * ETHERNET_MTU
      ∧ (ETHERNET_MTU < 5 → (run step (start false 3 [])
        [.answered [], .answered [], .answered [], .answered [], .icmp 1450 []]).completed ≠ []) :=
  mtuProbe_sound false 3 [] 1500 _ (by decide) trivial
    ⟨⟨⟨1070, rfl, by decide⟩, fun _ => trivial⟩, ⟨⟨1301, rfl, by decide⟩, fun _ => trivial⟩,
      ⟨⟨1416, rfl, by decide⟩, fun _ => trivial⟩, ⟨⟨1474, rfl, by decide⟩, fun _ => trivial⟩,
      ⟨trivial, by unfold Answered; decide⟩, trivial⟩

/-- On a path that lets 1000 bytes through no probe of an IPv4 search is answered. Its timeouts
raise the lower bound all the same, at once above what is known to pass and in the end to an MTU
that does not. -/
theorem timeouts_not_sound :
    Meets step (fun c op => c.Possible 1000 op ∧ ∀ size ∈ c.probed, 1000 < size)
        (start false 3 []) (List.replicate 7 (.timeout []))
      ∧ (run step (start false 3 []) [.timeout []]).known
          < (run step (start false 3 []) [.timeout []]).mtuLbound
      ∧ (run step (start false 3 []) (List.replicate 7 (.timeout []))).completed = [1484]
      ∧ ¬ Sound 1000 (run step (start false 3 []) (List.replicate 7 (.timeout []))) := by
  refine ⟨⟨⟨rfl, by decide⟩, ⟨rfl, by decide⟩, ⟨rfl, by decide⟩, ⟨rfl, by decide⟩, ⟨rfl, by decide⟩,
    ⟨rfl, by decide⟩, ⟨rfl, by decide⟩, trivial⟩, by decide, by decide, fun hsound => ?_⟩
  exact absurd (hsound.completed 1484 (by decide)) (by decide)

end KcpMtuProbeCtx

end Eular.Kcp
