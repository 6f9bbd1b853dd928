/-
The class a NAT detection reports, over every run of the packets
(`nat_classified`).

A detection under way is `Live`: the invariants hold, the timer is armed, and
if nothing was lost a packet of the phase is still under way or the phase has
found out what there is to find out. Whatever a callback does then is a send
in the same phase (`send`), the step into the next one (`advance`), or the
verdict; the network's own moves leave it live (`live_of_net`). That it does
not go on for ever is a matter of attempts (`rank`).
-/
import Eular.Ntrs.Proofs.NatInvariant

namespace Eular.Ntrs

open Lib

variable {scene : NatScene} {requestId : UInt64} {lossless lossless' : Prop} {world : NatWorld}
  {request : NatRequest} {sendto : Sendto}

namespace NatScene

variable {net : List Packet}

structure Live (scene : NatScene) (requestId : UInt64) (lossless : Prop) (world : NatWorld) :
    Prop where
  told : scene.Told requestId lossless world.table world.passages world.request
  wired : scene.Wired requestId (world.request.natPhase = .probe2) world.table world.net
    world.passages
  token : world.request.probeToken = tokenFor requestId world.request.natPhase
  armed : world.request.timerArmed = true
  unseen : world.request.natPhase.isFilter = true →
    ¬ world.request.SeenIn world.request.natPhase
  evidence : lossless → (∃ p ∈ world.net, p.phase = world.request.natPhase.toBinary) ∨
    (world.request.SeenIn world.request.natPhase ↔ scene.Lets world.request.natPhase)

/-- A detection that has delivered its result. -/
def Done (scene : NatScene) (lossless : Prop) (world : NatWorld) : Prop :=
  world.request.timerArmed = false ∧ ∃ result : AsyncResult,
    world.request.delivered = some result ∧
      scene.Reported lossless world.passages result.natInfo.natClass

def Inv (scene : NatScene) (requestId : UInt64) (lossless : Prop) (world : NatWorld) : Prop :=
  scene.Live requestId lossless world ∨ scene.Done lossless world

-- ==== callbacks

theorem send (world : NatWorld)
    (ht : scene.Told requestId lossless world.table world.passages request)
    (hw : scene.Wired requestId (request.natPhase = .probe2) world.table world.net world.passages)
    (hunseen : request.natPhase.isFilter = true → ¬ request.SeenIn request.natPhase)
    (hsent : lossless → sendto = .sent) (message : String) :
    scene.Inv requestId lossless (scene.emit world (NatRequest.orFinish
      (request.sendAsyncProbeRequest scene.socket.toUdpSocket sendto) message)) := by
  have hcases := NatRequest.send_cases request scene.socket.toUdpSocket sendto message
  dsimp only at hcases
  generalize NatRequest.orFinish
    (request.sendAsyncProbeRequest scene.socket.toUdpSocket sendto) message = sending at hcases ⊢
  rcases hcases with ⟨hfailed, hnone, harmed, result, hresult, hclass⟩ | ⟨hresent, hpacket⟩
  · refine .inr ?_
    unfold emit
    rw [hnone]
    refine ⟨harmed, result, hresult, reported_of_openness_zero (by rw [hclass]; rfl) fun hl => ?_⟩
    have := hsent hl
    rw [hfailed] at this
    cases this
  · refine .inl ?_
    have ht' := ht.resent hresent
    obtain ⟨endpoint, -, hrequest⟩ := hresent
    have hphase : sending.request.natPhase = request.natPhase := by rw [hrequest]
    have hseen : sending.request.SeenIn request.natPhase ↔ request.SeenIn request.natPhase := by
      rw [hrequest]
      cases request.natPhase <;> exact Iff.rfl
    have htoken : sending.request.probeToken = tokenFor requestId request.natPhase := by
      rw [hrequest]
      exact ht.fits.token
    have harmed : sending.request.timerArmed = true := by rw [hrequest]
    rcases hpacket with ⟨hretriable, hnone⟩ | hpacket
    · unfold emit
      rw [hnone]
      refine ⟨ht', ?_, ?_, harmed, ?_, fun hl => ?_⟩
      · rw [hphase]
        exact hw
      · rw [hphase]
        exact htoken
      · rw [hphase, hseen]
        exact hunseen
      · have := hsent hl
        rw [hretriable] at this
        cases this
    · unfold emit
      rw [hpacket, ht.fits.addrs, ht.fits.index]
      refine ⟨ht'.outbound _, ?_, ?_, harmed, ?_, fun _ => .inl ?_⟩
      · dsimp only
        rw [hphase]
        apply hw.emit
        · exact id
        · rfl
        · exact ht.fits.token
      · rw [hphase]
        exact htoken
      · dsimp only
        rw [hphase, hseen]
        exact hunseen
      · refine ⟨_, List.mem_append_right _ List.mem_cons_self, ?_⟩
        rw [hphase]
        rfl

theorem advance (world : NatWorld)
    (ht : scene.Told requestId lossless world.table world.passages request)
    (hw : scene.Wired requestId (request.natPhase = .probe2) world.table world.net world.passages)
    (hsettled : lossless → (request.SeenIn request.natPhase ↔ scene.Lets request.natPhase))
    (hsent : lossless → sendto = .sent) (message : String) :
    scene.Inv requestId lossless (scene.emit world (NatRequest.orFinish
      (request.advanceAsyncNatPhase scene.socket.toUdpSocket sendto) message)) := by
  have hunseen : ∀ q : AsyncNatPhase, q.order = request.natPhase.order + 1 →
      ¬ request.SeenIn q := by
    intro q hq hseen
    have hle := ht.order q hseen
    omega
  cases hphase : request.natPhase with
  | probe1 =>
    let entered := request.enterFilter .filterChangePort kStunChangePort
    have hfits : NatRequest.Fits scene.servers requestId { entered with
        natSample := { entered.natSample with filterProbeExecuted := true } } :=
      ⟨ht.fits.id, ht.fits.addrs, ht.fits.both, ht.fits.filter, rfl, rfl, ht.fits.undelivered⟩
    have hnext := ht.enter hsettled hfits (by rw [hphase]; rfl) rfl rfl rfl
    have hsend : request.advanceAsyncNatPhase scene.socket.toUdpSocket sendto =
        NatRequest.sendAsyncProbeRequest { entered with
          natSample := { entered.natSample with filterProbeExecuted := true } }
          scene.socket.toUdpSocket sendto := by
      simp [NatRequest.advanceAsyncNatPhase, hphase, ht.fits.both, ht.fits.filter, entered]
    rw [hsend]
    refine send world hnext (hw.weaken fun hp => ?_) (fun _ => ?_) hsent message
    · rw [hphase] at hp
      cases hp
    · exact hunseen .filterChangePort (by rw [hphase]; rfl)
  | filterChangePort =>
    have hfits : NatRequest.Fits scene.servers requestId
        (request.enterFilter .filterChangeIp kStunChangeIp) :=
      ⟨ht.fits.id, ht.fits.addrs, ht.fits.both, ht.fits.filter, rfl, rfl, ht.fits.undelivered⟩
    have hsample := ht.executed (by rw [hphase]; decide)
    have hnext := ht.enter hsettled hfits (by rw [hphase]; rfl) rfl rfl
      (by simp [NatRequest.enterFilter, ← hsample])
    have hsend : request.advanceAsyncNatPhase scene.socket.toUdpSocket sendto =
        (request.enterFilter .filterChangeIp kStunChangeIp).sendAsyncProbeRequest
          scene.socket.toUdpSocket sendto := by
      simp [NatRequest.advanceAsyncNatPhase, hphase]
    rw [hsend]
    refine send world hnext (hw.weaken fun hp => ?_) (fun _ => ?_) hsent message
    · rw [hphase] at hp
      cases hp
    · exact hunseen .filterChangeIp (by rw [hphase]; rfl)
  | filterChangeIp =>
    have hfits : NatRequest.Fits scene.servers requestId
        (request.enterProbe2 request.probePhaseMaxAttempts) :=
      ⟨ht.fits.id, ht.fits.addrs, ht.fits.both, ht.fits.filter, rfl, rfl, ht.fits.undelivered⟩
    have hsample := ht.executed (by rw [hphase]; decide)
    have hnext := ht.enter hsettled hfits (by rw [hphase]; rfl) rfl rfl
      (by simp [NatRequest.enterProbe2, ← hsample])
    have hsend : request.advanceAsyncNatPhase scene.socket.toUdpSocket sendto =
        (request.enterProbe2 request.probePhaseMaxAttempts).sendAsyncProbeRequest
          scene.socket.toUdpSocket sendto := by
      simp [NatRequest.advanceAsyncNatPhase, hphase, ht.fits.both]
    rw [hsend]
    refine send world hnext (hw.weaken fun hp => ?_) (fun hfilter => ?_) hsent message
    · rw [hphase] at hp
      cases hp
    · cases hfilter
  | probe2 =>
    have hfinish : request.advanceAsyncNatPhase scene.socket.toUdpSocket sendto =
        ⟨true, request.finishAsyncNatDetection, none⟩ := by
      simp [NatRequest.advanceAsyncNatPhase, hphase]
    obtain ⟨result, hresult, hreported⟩ := ht.finish hw hphase fun hl => by
      have hlast := hsettled hl
      rw [hphase] at hlast
      exact hlast.mpr (lets_probe rfl)
    rw [hfinish]
    exact .inr ⟨rfl, result, hresult, hreported⟩

theorem timeout (h : scene.Live requestId lossless world)
    (hmore : lossless' → lossless ∧ world.Lossless (.timeout sendto)) :
    scene.Inv requestId lossless' (scene.emit world
      (world.request.asyncNatTimeoutCb scene.socket.toUdpSocket sendto)) := by
  have ht := (h.told.tick false (world.request.probeAttempts + 1)).later (fun _ h => h)
    fun hl => (hmore hl).1
  have hseen : ∀ q, NatRequest.SeenIn { world.request with
      timerArmed := false, probeAttempts := world.request.probeAttempts + 1 } q ↔
      world.request.SeenIn q := fun q => by cases q <;> exact Iff.rfl
  have hsent : lossless' → sendto = .sent := fun hl => (hmore hl).2.1
  unfold NatRequest.asyncNatTimeoutCb
  dsimp only
  split
  case isTrue =>
    refine send world ht h.wired (fun hfilter => ?_) hsent _
    rw [hseen]
    exact h.unseen hfilter
  case isFalse hspent =>
    refine advance world ht h.wired (fun hl => ?_) hsent _
    rw [hseen]
    -- what gives a phase up without loss finds no packet of it
    refine (h.evidence (hmore hl).1).resolve_left ?_
    rintro ⟨p, hp, hphase⟩
    exact ((hmore hl).2.2.resolve_left hspent) p hp hphase

theorem seenIn_recordMapping (h : request.Fits scene.servers requestId)
    (hprobe : request.natPhase.isFilter = false) (mapped : Address) :
    (request.recordMapping mapped).SeenIn request.natPhase := by
  unfold NatRequest.recordMapping
  rw [h.index]
  cases hphase : request.natPhase with
  | probe1 => simp [NatRequest.SeenIn, AsyncNatPhase.index]
  | probe2 => simp [NatRequest.SeenIn, AsyncNatPhase.index]
  | filterChangePort => rw [hphase] at hprobe; cases hprobe
  | filterChangeIp => rw [hphase] at hprobe; cases hprobe

theorem takeMapping (world : NatWorld)
    (ht : scene.Told requestId lossless world.table world.passages request)
    (hw : scene.Wired requestId (request.natPhase = .probe2) world.table world.net world.passages)
    (hprobe : request.natPhase.isFilter = false) {mapped : Address}
    (hseen : scene.SeenAs world.table (NatRequest.serverOf scene.servers request.natPhase) mapped)
    (hsent : lossless → sendto = .sent) :
    scene.Inv requestId lossless (scene.emit world
      (request.takeMapping mapped scene.socket.toUdpSocket sendto)) := by
  have hcounted := ht.record hprobe hseen
  unfold NatRequest.takeMapping
  dsimp only
  split
  case isTrue =>
    have hagain := hcounted.tick request.timerArmed (request.probeAttempts + 1)
    refine send world hagain hw (fun hfilter => ?_) hsent _
    exact absurd (hfilter.symm.trans hprobe) nofun
  case isFalse =>
    refine advance world hcounted hw (fun _ => ?_) hsent _
    exact iff_of_true (seenIn_recordMapping ht.fits hprobe mapped) (lets_probe hprobe)

theorem take (h : scene.Live requestId lossless world) {net' : List Packet}
    (hsub : net' ⊆ world.net) {source mapped : Address}
    (hin : ∃ frame, Packet.datagram source frame ∈ world.net)
    (hsource : source = scene.originOf world.request.natPhase)
    (hseen : scene.SeenAs world.table
      (NatRequest.serverOf scene.servers world.request.natPhase) mapped)
    (origin other : Option Address) (hmore : lossless' → lossless ∧ sendto = .sent) :
    scene.Inv requestId lossless' (scene.emit { world with net := net' }
      (world.request.takeResponse ⟨mapped, origin, other⟩ scene.socket.toUdpSocket sendto)) := by
  obtain ⟨frame, hin⟩ := hin
  have ht := h.told.later (fun _ hx => hx) fun hl => (hmore hl).1
  have hw := h.wired.sub hsub
  have hsent : lossless' → sendto = .sent := fun hl => (hmore hl).2
  have hletIn : world.request.natPhase.isFilter = true →
      scene.LetIn world.passages (scene.originOf world.request.natPhase) := by
    intro hfilter
    rw [← hsource]
    refine h.wired.letIn (fun hlate => ?_) source frame hin
    rw [hlate] at hfilter
    cases hfilter
  have hlets : world.request.natPhase.isFilter = true → scene.Lets world.request.natPhase :=
    fun hfilter => lets_of_letIn h.wired hfilter (hletIn hfilter)
  have hticked := ht.tick false world.request.probeAttempts
  unfold NatRequest.takeResponse
  dsimp only
  split
  case h_1 hphase =>
    have hfilter : world.request.natPhase.isFilter = true := by rw [hphase]; rfl
    have hnoted := ht.note (hletIn hfilter) true world.request.natSample.filterDiffIpRx
      (fun _ => .inr hphase) .inl fun q hq => by
        rw [hphase] at hq
        cases q <;> first | exact Iff.rfl | exact absurd hq (by decide)
    refine advance { world with net := net' } hnoted hw (fun _ => ?_) hsent _
    refine iff_of_true ?_ (hlets hfilter)
    dsimp only
    rw [hphase]
    rfl
  case h_2 hphase =>
    have hfilter : world.request.natPhase.isFilter = true := by rw [hphase]; rfl
    have hnoted := ht.note (hletIn hfilter) world.request.natSample.filterSameIpDiffPortRx true
      .inl (fun _ => .inr hphase) fun q hq => by
        rw [hphase] at hq
        cases q <;> first | exact Iff.rfl | exact absurd hq (by decide)
    refine advance { world with net := net' } hnoted hw (fun _ => ?_) hsent _
    refine iff_of_true ?_ (hlets hfilter)
    dsimp only
    rw [hphase]
    rfl
  case h_3 hphase =>
    exact takeMapping { world with net := net' } hticked hw (by rw [hphase]; rfl) hseen hsent
  case h_4 hphase =>
    exact takeMapping { world with net := net' } hticked hw (by rw [hphase]; rfl) hseen hsent

-- ==== the network

/-- The network moves: a packet of the phase stays under way, or the filter
lets none in. -/
theorem Live.of_net (h : scene.Live requestId lossless world) {net' : List Packet}
    {passages' : List Passage} (hsub : world.passages ⊆ passages')
    (hw : scene.Wired requestId (world.request.natPhase = .probe2) world.table net' passages')
    (hmore : lossless' → lossless ∧
      ∀ p ∈ world.net, p.phase = world.request.natPhase.toBinary →
        (∃ p' ∈ net', p'.phase = world.request.natPhase.toBinary) ∨
          ¬ scene.Lets world.request.natPhase) :
    scene.Live requestId lossless' { world with net := net', passages := passages' } where
  told := h.told.later hsub fun hl => (hmore hl).1
  wired := hw
  token := h.token
  armed := h.armed
  unseen := h.unseen
  evidence := fun hl => by
    obtain ⟨hlossless, hkeep⟩ := hmore hl
    rcases h.evidence hlossless with ⟨p, hp, hphase⟩ | hsettled
    · refine (hkeep p hp hphase).imp_right fun hout => iff_of_false (h.unseen ?_) hout
      exact Bool.of_not_eq_false fun hnot => hout (lets_probe hnot)
    · exact .inr hsettled

theorem mem_eraseIdx_of_ne {p q : Packet} {i : Nat} (hp : p ∈ net)
    (hi : net[i]? = some q) (hne : p ≠ q) : p ∈ net.eraseIdx i := by
  obtain ⟨j, hj⟩ := List.getElem?_of_mem hp
  refine List.mem_eraseIdx_iff_getElem?.mpr ⟨j, fun hji => hne ?_, hj⟩
  rw [hji, hi] at hj
  exact (Option.some.inj hj).symm

theorem mem_set_of_ne {p q r : Packet} {i : Nat} (hp : p ∈ net)
    (hi : net[i]? = some q) (hne : p ≠ q) : p ∈ net.set i r := by
  obtain ⟨j, hj⟩ := List.getElem?_of_mem hp
  refine List.mem_of_getElem? (i := j) ?_
  rw [List.getElem?_set_ne fun hij => ?_]
  · exact hj
  · rw [← hij, hi] at hj
    exact hne (Option.some.inj hj).symm

theorem mem_set_self_of {q r : Packet} {i : Nat} (hi : net[i]? = some q) :
    r ∈ net.set i r := by
  obtain ⟨hlt, -⟩ := List.getElem?_eq_some_iff.mp hi
  exact List.mem_set hlt r

theorem Live.hop (h : scene.Live requestId lossless world) (i : Nat) :
    scene.Live requestId lossless (scene.hop world i) := by
  have hw := h.wired.hop i
  unfold NatScene.hop at hw ⊢
  split
  case h_1 source server frame hi =>
    rw [hi] at hw
    refine h.of_net (fun _ hx => hx) hw fun hl => ⟨hl, fun p hp hphase => .inl ?_⟩
    by_cases hsame : p = .request source server frame
    · subst hsame
      exact ⟨_, mem_set_self_of hi, hphase⟩
    · exact ⟨p, mem_set_of_ne hp hi hsame, hphase⟩
  case h_2 source target frame hi =>
    rw [hi] at hw
    dsimp only at hw
    split
    case isTrue hin =>
      rw [if_pos hin] at hw
      refine h.of_net (List.subset_cons_self _ _) hw fun hl => ⟨hl, fun p hp hphase => .inl ?_⟩
      by_cases hsame : p = .answer source target frame
      · subst hsame
        exact ⟨_, mem_set_self_of hi, hphase⟩
      · exact ⟨p, mem_set_of_ne hp hi hsame, hphase⟩
    case isFalse hout =>
      rw [if_neg hout] at hw
      refine h.of_net (fun _ hx => hx) hw fun hl => ⟨hl, fun p hp hphase => ?_⟩
      by_cases hsame : p = .answer source target frame
      · subst hsame
        obtain ⟨phase, hpart⟩ := h.wired.genuine _ hp
        have hcur : phase = world.request.natPhase :=
          AsyncNatPhase.toBinary_inj (hpart.phase_eq.symm.trans hphase)
        subst hcur
        exact .inr (not_lets_of_not_admits hpart hout)
      · exact .inl ⟨p, mem_eraseIdx_of_ne hp hi hsame, hphase⟩
  case h_3 => exact h

theorem Live.read (h : scene.Live requestId lossless world) (i : Nat)
    (hmore : lossless' → lossless ∧ sendto = .sent) :
    scene.Inv requestId lossless' (scene.read world i sendto) := by
  unfold NatScene.read
  split
  case h_1 source frame hi =>
    have hmem := List.mem_of_getElem? hi
    obtain ⟨phase, hpart⟩ := h.wired.genuine _ hmem
    have hfrom := hpart.phase_eq
    obtain ⟨hsource, mapped, frameType, hseen, rfl⟩ := hpart
    have hport : mapped.port ≠ 0 := by
      obtain ⟨port, rfl, hport, -⟩ := hseen
      obtain ⟨m, hm, rfl⟩ := Translator.mem_of_portOf hport
      exact h.wired.ports m hm
    have haccepts := NatRequest.accepts_answer h.told.fits h.token hport phase frameType
    rw [NatRequest.asyncNatIoCb, hsource, originOf, haccepts]
    by_cases hphase : phase = world.request.natPhase
    · rw [if_pos hphase]
      subst hphase
      exact take h (List.eraseIdx_subset) ⟨_, hmem⟩ hsource hseen _ _ hmore
    · rw [if_neg hphase]
      refine .inl (h.of_net (fun _ hx => hx) (h.wired.sub List.eraseIdx_subset) fun hl =>
        ⟨(hmore hl).1, fun p hp hcur => .inl ⟨p, mem_eraseIdx_of_ne hp hi ?_, hcur⟩⟩)
      rintro rfl
      exact hphase (AsyncNatPhase.toBinary_inj (hfrom.symm.trans hcur))
  case h_2 => exact .inl (h.of_net (fun _ hx => hx) h.wired fun hl =>
    ⟨(hmore hl).1, fun p hp hphase => .inl ⟨p, hp, hphase⟩⟩)

-- ==== runs

theorem Done.later (h : scene.Done lossless world) {world' : NatWorld}
    (hrequest : world'.request = world.request) (hsub : world.passages ⊆ world'.passages)
    (himp : lossless' → lossless) : scene.Done lossless' world' := by
  obtain ⟨harmed, result, hresult, hreported⟩ := h
  unfold Done
  rw [hrequest]
  exact ⟨harmed, result, hresult, hreported.later hsub himp⟩

theorem hop_request (world : NatWorld) (i : Nat) :
    (scene.hop world i).request = world.request ∧
      world.passages ⊆ (scene.hop world i).passages := by
  unfold NatScene.hop
  split
  case h_1 => exact ⟨rfl, fun _ hx => hx⟩
  case h_2 =>
    split
    · exact ⟨rfl, List.subset_cons_self _ _⟩
    · exact ⟨rfl, fun _ hx => hx⟩
  case h_3 => exact ⟨rfl, fun _ hx => hx⟩

theorem inv_step (h : scene.Inv requestId lossless world) (event : NatEvent) :
    scene.Inv requestId (lossless ∧ world.Lossless event) (scene.step world event) := by
  rcases h with h | h
  · cases event with
    | timeout sendto =>
      rw [step, if_pos h.armed]
      exact timeout h id
    | read i sendto =>
      rw [step, if_pos (by rw [h.told.fits.undelivered]; rfl)]
      exact h.read i id
    | hop i =>
      refine .inl ?_
      have hhop := h.hop i
      exact ⟨hhop.told.later (fun _ hx => hx) And.left, hhop.wired, hhop.token, hhop.armed,
        hhop.unseen, fun hl => hhop.evidence hl.1⟩
    | lose i =>
      exact .inl (h.of_net (fun _ hx => hx) (h.wired.sub List.eraseIdx_subset) fun hl =>
        hl.2.elim)
    | copy i =>
      refine .inl (h.of_net (fun _ hx => hx) (h.wired.sub fun p hp => ?_) fun hl =>
        ⟨hl.1, fun p hp hphase => .inl ⟨p, List.mem_append_left _ hp, hphase⟩⟩)
      rcases List.mem_append.mp hp with hp | hp
      · exact hp
      · exact List.mem_of_getElem? (Option.mem_toList.mp hp)
  · refine .inr ?_
    cases event with
    | timeout sendto =>
      rw [step, if_neg (by rw [h.1]; nofun)]
      exact h.later rfl (fun _ hx => hx) And.left
    | read i sendto =>
      obtain ⟨result, hresult, -⟩ := h.2
      rw [step, if_neg (by rw [hresult]; nofun)]
      exact h.later rfl (fun _ hx => hx) And.left
    | hop i => exact h.later (hop_request world i).1 (hop_request world i).2 And.left
    | lose i => exact h.later rfl (fun _ hx => hx) And.left
    | copy i => exact h.later rfl (fun _ hx => hx) And.left

theorem inv_run (events : List NatEvent) : ∀ {world : NatWorld} {lossless : Prop},
    scene.Inv requestId lossless world →
      scene.Inv requestId (lossless ∧ Meets scene.step NatWorld.Lossless world events)
        (run scene.step world events) := by
  induction events with
  | nil =>
    intro world lossless h
    have hsame : (lossless ∧ Meets scene.step NatWorld.Lossless world []) = lossless := by simp
    rw [hsame]
    exact h
  | cons event events ih =>
    intro world lossless h
    have hsame : (lossless ∧ Meets scene.step NatWorld.Lossless world (event :: events)) =
        ((lossless ∧ world.Lossless event) ∧
          Meets scene.step NatWorld.Lossless (scene.step world event) events) := by
      rw [meets_cons, and_assoc]
    rw [hsame, run_cons]
    exact ih (inv_step h event)

theorem hidden_any : isPublicIpv4 .any = false ∧ isIpv6Text .any = false := by decide

theorem inv_start (scene : NatScene) (requestId : UInt64) (options : DetectNatOptions)
    (hfilter : options.enableFilterProbe = true) (first : Sendto) :
    scene.Inv requestId (first = .sent) (scene.start requestId options first) := by
  have hname : isPublicIpv4 ((sockaddrEndpoint scene.socket.name).getD ⟨.any, 0⟩).ip = false ∧
      isIpv6Text ((sockaddrEndpoint scene.socket.name).getD ⟨.any, 0⟩).ip = false := by
    unfold sockaddrEndpoint
    split
    · rcases scene.socket.name_private with hany | hprivate
      · rw [Option.getD_some, hany]
        exact hidden_any
      · exact hprivate.hidden
    · exact hidden_any
  refine send _ ?_ (Wired.init _) (fun hnot => ?_) id _
  · refine ⟨⟨rfl, rfl, rfl, hfilter, rfl, rfl, rfl⟩, ⟨hname, rfl, rfl, rfl, rfl, rfl, rfl⟩,
      fun i => .inl ⟨rfl, rfl⟩, fun hne => absurd rfl hne, ?_, ?_, ?_⟩
    · intro q hq
      cases q <;> cases hq
    · intro q _ hq
      cases q <;> cases hq
    · intro _ q hq
      exact absurd hq (Nat.not_lt_zero _)
  · cases hnot

end NatScene

-- ==== progress

namespace NatScene

theorem emit_request (world : NatWorld) (sending : Sending) :
    (scene.emit world sending).request = sending.request := by
  unfold emit
  split <;> rfl

theorem delivered_or_fires_le (requestId : UInt64) (options : DetectNatOptions)
    (hfilter : options.enableFilterProbe = true) (first : Sendto) (events : List NatEvent) :
    (run scene.step (scene.start requestId options first) events).request.delivered.isSome ∨
      countSteps scene.step NatWorld.Fires (scene.start requestId options first) events ≤
        (scene.start requestId options first).request.rank := by
  have hinv : Meets scene.step (fun world _ => scene.Inv requestId False world)
      (scene.start requestId options first) events := by
    refine meets_of_prefix fun xs _ _ _ => ?_
    have hrun := inv_run xs (inv_start scene requestId options hfilter first)
    rcases hrun with hlive | hdone
    · exact .inl ⟨hlive.told.later (fun _ hx => hx) False.elim, hlive.wired, hlive.token,
        hlive.armed, hlive.unseen, False.elim⟩
    · exact .inr (hdone.later rfl (fun _ hx => hx) False.elim)
  refine countSteps_le_rank (P := NatWorld.Fires)
    (Q := fun world : NatWorld => world.request.delivered.isSome)
    (fun world : NatWorld => world.request.rank) ?_ ?_ ?_ hinv
  · intro world event h hfires
    cases event with
    | timeout sendto =>
      have harmed : world.request.timerArmed = true := hfires
      rw [step, if_pos harmed, emit_request]
      rcases h with h | h
      · exact (NatRequest.leaves_timeout h.told.fits.undelivered _ sendto).imp_right And.right
      · exact absurd (harmed.symm.trans h.1) nofun
    | read => exact hfires.elim
    | hop => exact hfires.elim
    | lose => exact hfires.elim
    | copy => exact hfires.elim
  · intro world event h hmiss
    cases event with
    | timeout sendto =>
      have hidle : world.request.timerArmed ≠ true := hmiss
      rw [step, if_neg hidle]
      exact .inr (le_refl _)
    | read i sendto =>
      rcases h with h | h
      · rw [step, if_pos (by rw [h.told.fits.undelivered]; rfl), NatScene.read]
        split
        · rw [emit_request]
          exact (NatRequest.leaves_asyncNatIoCb h.told.fits.undelivered h.armed _ _ _
            sendto).imp_right fun hleft => Nat.lt_succ_iff.mp hleft.2
        · exact .inr (le_refl _)
      · obtain ⟨-, result, hresult, -⟩ := h
        rw [step, if_neg (by rw [hresult]; nofun)]
        exact .inr (le_refl _)
    | hop i =>
      rw [step, (hop_request world i).1]
      exact .inr (le_refl _)
    | lose => exact .inr (le_refl _)
    | copy => exact .inr (le_refl _)
  · intro world event hdone h
    rcases h with h | h
    · rw [h.told.fits.undelivered] at hdone
      cases hdone
    · obtain ⟨harmed, result, hresult, -⟩ := h
      cases event with
      | timeout =>
        rw [step, if_neg (by rw [harmed]; nofun)]
        exact hdone
      | read =>
        rw [step, if_neg (by rw [hresult]; nofun)]
        exact hdone
      | hop i =>
        rw [step, (hop_request world i).1]
        exact hdone
      | lose => exact hdone
      | copy => exact hdone

theorem rank_start (requestId : UInt64) (options : DetectNatOptions) (first : Sendto) :
    (scene.start requestId options first).request.rank =
      3 * (submitAsyncNatRequest requestId options true
        scene.servers.addrs).probePhaseMaxAttempts.toNat + 7 := by
  rw [start, emit_request]
  refine (NatRequest.rank_send _ _ _ _).trans ?_
  simp only [NatRequest.rank, NatRequest.initAsyncNatSample, submitAsyncNatRequest]
  omega

end NatScene

-- ==== the verdict

/-- In whatever order the packets come, however often, late or not at all, the
class that is reported is no more open than the translator's, and the open
ones are reported only where the filter let such an answer in while nothing
had been sent but to the primary server. If nothing is lost it is the
translator's class. The detection comes to an end: as long as it has not, the
timer is armed, and it has not fired more often than there are attempts. -/
theorem nat_classified (scene : NatScene) (requestId : UInt64) (options : DetectNatOptions)
    (hfilter : options.enableFilterProbe = true) (first : Sendto) (events : List NatEvent) :
    let start := scene.start requestId options first
    let world := run scene.step start events
    (∀ result, world.request.delivered = some result →
      result.natInfo.natClass.openness ≤ scene.gateway.natClass.openness ∧
      (result.natInfo.natClass = .fullCone →
        scene.LetIn world.passages scene.servers.alternate ∧
          scene.LetIn world.passages scene.servers.secondary) ∧
      (result.natInfo.natClass = .ipRestricted →
        scene.LetIn world.passages scene.servers.alternate)) ∧
    (first = .sent → Meets scene.step NatWorld.Lossless start events →
      ∀ result, world.request.delivered = some result →
        result.natInfo.natClass = scene.gateway.natClass) ∧
    (world.request.delivered.isSome ∨ world.request.timerArmed = true ∧
      countSteps scene.step NatWorld.Fires start events ≤
        3 * (submitAsyncNatRequest requestId options true
          scene.servers.addrs).probePhaseMaxAttempts.toNat + 7) := by
  intro start world
  have hstart : scene.Inv requestId (first = .sent) start :=
    NatScene.inv_start scene requestId options hfilter first
  have hrun := NatScene.inv_run events hstart
  have hreported : ∀ result, world.request.delivered = some result →
      scene.Reported (first = .sent ∧ Meets scene.step NatWorld.Lossless start events)
        world.passages result.natInfo.natClass := by
    intro result hresult
    rcases hrun with hlive | ⟨-, result', hresult', hreported⟩
    · exact absurd (hlive.told.fits.undelivered.symm.trans hresult) nofun
    · rw [Option.some.inj (hresult.symm.trans hresult')]
      exact hreported
  refine ⟨fun result hresult => ?_, fun hsent hmeets result hresult => ?_, ?_⟩
  · have hr := hreported result hresult
    exact ⟨hr.openness, hr.fullCone, hr.ipRestricted⟩
  · exact (hreported result hresult).exact ⟨hsent, hmeets⟩
  · by_cases hdone : world.request.delivered.isSome
    · exact .inl hdone
    · refine .inr ⟨?_, ?_⟩
      · rcases hrun with hlive | ⟨-, result, hresult, -⟩
        · exact hlive.armed
        · exact absurd (Option.isSome_of_eq_some hresult) hdone
      · have hfires := (NatScene.delivered_or_fires_le requestId options hfilter first
          events).resolve_left hdone
        exact hfires.trans_eq (NatScene.rank_start requestId options first)

-- ==== a lossless run

/-- A full-cone translator with ports to spare for two mappings. -/
def coneGateway : NatGateway where
  mapping := .endpointIndependent
  filtering := .endpointIndependent
  publicIp := .v4 0xCB007101
  allocate := fun used => if 40000 ∈ used then 40001 else 40000
  capacity := 2
  fresh := by
    intro used hlen
    match used, hlen with
    | [], _ => simp
    | [port], _ =>
      by_cases hport : port = 40000
      · simp [hport]
      · have hnot : (40000 : UInt16) ∉ [port] := by simpa using fun h => hport h.symm
        simp [hnot]
  publicIp_v4 := rfl
  port_ne := by
    intro used
    split <;> decide
  room := le_refl 2

def coneServers : ProbeServers where
  primary := ⟨.v4 0xC6336401, 3478⟩
  secondary := ⟨.v4 0xC6336402, 3478⟩
  altPort := 3479
  otherAddr := fun _ => none
  ip_ne := by decide
  alt_ne := by decide
  primary_port := by decide
  secondary_port := by decide
  altPort_ne := by decide
  otherAddr_changePort := nofun

/-- A socket bound to a port alone. -/
def coneSocket : PrivateSocket where
  name := ⟨.any, 5000⟩
  route := fun _ => some ⟨.v4 0xC0A80102, 5000⟩
  portBound := true
  port_kept := .inl rfl
  name_private := .inl rfl
  route_private := by
    intro remote endpoint h
    cases h
    exact .inr (.inr (by decide))

def coneScene : NatScene := ⟨coneGateway, coneServers, coneSocket⟩

/-- Every packet is answered before the next one is sent. -/
def coneRun : List NatEvent :=
  (List.replicate 8 [NatEvent.hop 0, .hop 0, .read 0 .sent]).flatten

theorem nat_classified_fullCone :
    (run coneScene.step (coneScene.start 7 {} .sent) coneRun).request.delivered.map
      (fun result => result.natInfo.natClass) = some .fullCone := by
  have hdone : (run coneScene.step (coneScene.start 7 {} .sent) coneRun).request.delivered.isSome =
      true := by decide +kernel
  have hlossless : Meets coneScene.step NatWorld.Lossless (coneScene.start 7 {} .sent) coneRun := by
    decide +kernel
  obtain ⟨result, hresult⟩ := Option.isSome_iff_exists.mp hdone
  have hclass := (nat_classified coneScene 7 {} rfl .sent coneRun).2.1 rfl hlossless result hresult
  rw [hresult]
  exact congrArg some hclass

end Eular.Ntrs
