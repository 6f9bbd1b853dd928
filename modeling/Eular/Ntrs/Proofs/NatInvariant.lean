/-
The invariants of a NAT detection.

Two of them carry the class it reports. `Wired` is of the network: every
packet is part of an exchange of some phase, and as long as nothing has gone
to the secondary server (every phase before `PROBE2`) what is let in was let
in by the filter alone. `Told` is of the request: what it holds of each probe
is what the translator did. Where nothing has been lost, `Told` also says that
the phases gone by found out all there was to find out; that is one and the
same induction, with the losslessness so far as a parameter.
-/
import Eular.Ntrs.Proofs.NatProbe

namespace Eular.Ntrs

open Lib

variable {scene : NatScene} {requestId : UInt64} {table : Table Ip UInt16}
  {net : List Packet} {passages : List Passage} {request : NatRequest} {late lossless : Prop}

/-- The request has an answer of the phase. -/
def NatRequest.SeenIn (request : NatRequest) : AsyncNatPhase → Prop
  | .probe1 => 0 < request.probeSuccessCount 0
  | .probe2 => 0 < request.probeSuccessCount 1
  | .filterChangePort => request.natSample.filterSameIpDiffPortRx = true
  | .filterChangeIp => request.natSample.filterDiffIpRx = true

namespace NatScene

variable {phase : AsyncNatPhase}

-- ==== the network

/-- The remote sees the client at `mapped`, and has been written to. -/
def SeenAs (scene : NatScene) (table : Table Ip UInt16) (remote mapped : Address) : Prop :=
  ∃ port, mapped = ⟨scene.gateway.publicIp, port⟩ ∧
    scene.gateway.portOf table remote = some port ∧ table.Contacted port remote

/-- Where an answer of the phase comes from. -/
def originOf (scene : NatScene) (phase : AsyncNatPhase) : Address :=
  scene.servers.origin (NatRequest.serverOf scene.servers phase) phase.toBinary

/-- The packet is part of an exchange of the phase. -/
def PartOf (scene : NatScene) (requestId : UInt64) (table : Table Ip UInt16)
    (phase : AsyncNatPhase) : Packet → Prop
  | .request source server frame =>
    scene.SeenAs table server source ∧ server = NatRequest.serverOf scene.servers phase ∧
      frame.phase = phase.toBinary ∧ frame.token = tokenFor requestId phase
  | .answer source target frame =>
    scene.SeenAs table (NatRequest.serverOf scene.servers phase) target ∧
      source = scene.originOf phase ∧
      ∃ frameType, frame = NatRequest.answerOf scene.servers requestId phase target frameType
  | .datagram source frame =>
    source = scene.originOf phase ∧ ∃ target frameType,
      scene.SeenAs table (NatRequest.serverOf scene.servers phase) target ∧
        frame = NatRequest.answerOf scene.servers requestId phase target frameType

/-- The network as exchanges leave it. `late` says that the secondary server
may have been written to. -/
structure Wired (scene : NatScene) (requestId : UInt64) (late : Prop) (table : Table Ip UInt16)
    (net : List Packet) (passages : List Passage) : Prop where
  genuine : ∀ p ∈ net, ∃ phase, scene.PartOf requestId table phase p
  sound : Translator.Sound table
  ports : ∀ m ∈ table, m.port ≠ 0
  remotes : ∀ c ∈ table.remotes, c = scene.servers.primary ∨ late ∧ c = scene.servers.secondary
  letIn : ¬ late → ∀ source frame, Packet.datagram source frame ∈ net →
    scene.LetIn passages source
  admitted : ∀ passage ∈ passages, ∃ c ∈ passage.remotes,
    scene.gateway.filtering.Alike c passage.source

theorem PartOf.phase_eq {p : Packet}
    (h : scene.PartOf requestId table phase p) : p.phase = phase.toBinary := by
  cases p with
  | request => exact h.2.2.1
  | answer =>
    obtain ⟨-, -, frameType, rfl⟩ := h
    rfl
  | datagram =>
    obtain ⟨-, target, frameType, -, rfl⟩ := h
    rfl

theorem SeenAs.outbound {remote mapped : Address} (h : scene.SeenAs table remote mapped)
    (server : Address) :
    scene.SeenAs (scene.gateway.outbound table server).1 remote mapped := by
  obtain ⟨port, rfl, hport, hcontacted⟩ := h
  exact ⟨port, rfl, Translator.portOf_outbound hport, Translator.contacted_mono hcontacted⟩

theorem seenAs_outbound_self (server : Address) :
    scene.SeenAs (scene.gateway.outbound table server).1 server
      ⟨scene.gateway.publicIp, (scene.gateway.outbound table server).2⟩ :=
  ⟨_, rfl, Translator.portOf_outbound_self, Translator.contacted_outbound⟩

theorem PartOf.outbound {p : Packet}
    (h : scene.PartOf requestId table phase p) (server : Address) :
    scene.PartOf requestId (scene.gateway.outbound table server).1 phase p := by
  cases p with
  | request => exact ⟨h.1.outbound server, h.2⟩
  | answer => exact ⟨h.1.outbound server, h.2⟩
  | datagram =>
    obtain ⟨hsource, target, frameType, hseen, hframe⟩ := h
    exact ⟨hsource, target, frameType, hseen.outbound server, hframe⟩

theorem LetIn.mono {source : Address} {passages' : List Passage}
    (h : scene.LetIn passages source) (hsub : passages ⊆ passages') :
    scene.LetIn passages' source := by
  obtain ⟨passage, hmem, h⟩ := h
  exact ⟨passage, hsub hmem, h⟩

namespace Wired

theorem init (late : Prop) : Wired scene requestId late [] [] [] where
  genuine := fun _ h => absurd h List.not_mem_nil
  sound := Translator.sound_nil
  ports := fun _ h => absurd h List.not_mem_nil
  remotes := fun _ h => absurd h List.not_mem_nil
  letIn := fun _ _ _ h => absurd h List.not_mem_nil
  admitted := fun _ h => absurd h List.not_mem_nil

theorem weaken (h : Wired scene requestId late table net passages) {late' : Prop}
    (himp : late → late') : Wired scene requestId late' table net passages where
  genuine := h.genuine
  sound := h.sound
  ports := h.ports
  remotes := fun c hc => (h.remotes c hc).imp_right fun hlate => ⟨himp hlate.1, hlate.2⟩
  letIn := fun hnot => h.letIn fun hl => hnot (himp hl)
  admitted := h.admitted

theorem sub (h : Wired scene requestId late table net passages) {net' : List Packet}
    (hsub : net' ⊆ net) : Wired scene requestId late table net' passages where
  genuine := fun p hp => h.genuine p (hsub hp)
  sound := h.sound
  ports := h.ports
  remotes := h.remotes
  letIn := fun hnot source frame hmem => h.letIn hnot source frame (hsub hmem)
  admitted := h.admitted

theorem emit (h : Wired scene requestId late table net passages) {phase : AsyncNatPhase}
    (hlate : phase = .probe2 → late) {frame : ProbeRequest}
    (hphase : frame.phase = phase.toBinary) (htoken : frame.token = tokenFor requestId phase) :
    let server := NatRequest.serverOf scene.servers phase
    let left := scene.gateway.outbound table server
    Wired scene requestId late left.1
      (net ++ [.request ⟨scene.gateway.publicIp, left.2⟩ server frame]) passages := by
  intro server left
  have hserver : server = scene.servers.primary ∨ late ∧ server = scene.servers.secondary := by
    cases phase with
    | probe2 => exact .inr ⟨hlate rfl, rfl⟩
    | probe1 => exact .inl rfl
    | filterChangePort => exact .inl rfl
    | filterChangeIp => exact .inl rfl
  refine ⟨?_, ?_, ?_, ?_, ?_, h.admitted⟩
  · intro p hp
    rcases List.mem_append.mp hp with hp | hp
    · obtain ⟨q, hq⟩ := h.genuine p hp
      exact ⟨q, hq.outbound server⟩
    · rw [List.mem_singleton.mp hp]
      exact ⟨phase, seenAs_outbound_self server, rfl, hphase, htoken⟩
  · have htwo : ∀ c, c = scene.servers.primary ∨ late ∧ c = scene.servers.secondary →
        c ∈ [scene.servers.primary, scene.servers.secondary] := by
      rintro c (rfl | ⟨-, rfl⟩) <;> simp
    exact h.sound.outbound (fun c hc => htwo c (h.remotes c hc)) (htwo _ hserver)
      scene.gateway.room
  · intro m hm
    rcases Translator.port_mem_outbound hm with ⟨n, hn, heq⟩ | ⟨used, heq⟩
    · rw [← heq]
      exact h.ports n hn
    · rw [heq]
      exact scene.gateway.port_ne used
  · intro c hc
    rcases Translator.mem_remotes_outbound.mp hc with hc | rfl
    · exact h.remotes c hc
    · exact hserver
  · intro hnot source frame hmem
    rcases List.mem_append.mp hmem with hmem | hmem
    · exact h.letIn hnot source frame hmem
    · cases List.mem_singleton.mp hmem

theorem hop {world : NatWorld} (h : Wired scene requestId late world.table world.net world.passages)
    (i : Nat) :
    Wired scene requestId late (scene.hop world i).table (scene.hop world i).net
      (scene.hop world i).passages := by
  unfold NatScene.hop
  split
  case h_1 source server frame hi =>
    obtain ⟨phase, hseen, hserver, hphase, htoken⟩ := h.genuine _ (List.mem_of_getElem? hi)
    refine ⟨?_, h.sound, h.ports, h.remotes, ?_, h.admitted⟩
    · intro p hp
      rcases List.mem_or_eq_of_mem_set hp with hp | rfl
      · exact h.genuine p hp
      · subst hserver
        refine ⟨phase, hseen, ?_, frame.frameType, ?_⟩
        · rw [hphase]
          rfl
        · simp only [ProbeServers.answer, NatRequest.answerOf, hphase, htoken]
    · intro hnot source frame hmem
      rcases List.mem_or_eq_of_mem_set hmem with hmem | heq
      · exact h.letIn hnot source frame hmem
      · cases heq
  case h_2 source target frame hi =>
    obtain ⟨phase, hseen, hsource, frameType, hframe⟩ := h.genuine _ (List.mem_of_getElem? hi)
    split
    case isTrue hin =>
      have hgrown : ∀ x, scene.LetIn world.passages x →
          scene.LetIn (⟨source, world.table.remotes⟩ :: world.passages) x :=
        fun x hx => hx.mono (List.subset_cons_self _ _)
      refine ⟨?_, h.sound, h.ports, h.remotes, ?_, ?_⟩
      · intro p hp
        rcases List.mem_or_eq_of_mem_set hp with hp | rfl
        · exact h.genuine p hp
        · exact ⟨phase, hsource, target, frameType, hseen, hframe⟩
      · intro hnot source' frame' hmem
        rcases List.mem_or_eq_of_mem_set hmem with hmem | heq
        · exact hgrown _ (h.letIn hnot source' frame' hmem)
        · obtain ⟨rfl, rfl⟩ := Packet.datagram.inj heq
          refine ⟨_, List.mem_cons_self, rfl, fun remote hremote => ?_⟩
          exact (h.remotes remote hremote).resolve_right fun hlate => hnot hlate.1
      · intro passage hmem
        rcases List.mem_cons.mp hmem with rfl | hmem
        · exact hin.2.alike
        · exact h.admitted passage hmem
    case isFalse => exact h.sub (List.eraseIdx_subset)
  case h_3 => exact h

end Wired

-- ==== what the filter lets

/-- The filter lets an answer of the phase in, by what the phase itself has
written to. -/
def Lets (scene : NatScene) (phase : AsyncNatPhase) : Prop :=
  scene.gateway.filtering.Alike (NatRequest.serverOf scene.servers phase) (scene.originOf phase)

theorem lets_probe (h : phase.isFilter = false) : scene.Lets phase := by
  cases phase with
  | probe1 => exact Rule.Alike.refl _ _
  | probe2 => exact Rule.Alike.refl _ _
  | filterChangePort => cases h
  | filterChangeIp => cases h

theorem lets_changePort :
    scene.Lets .filterChangePort ↔ scene.gateway.filtering ≠ .addressAndPortDependent :=
  Rule.alike_iff_of_port_ne rfl scene.servers.alt_ne.symm

theorem lets_changeIp :
    scene.Lets .filterChangeIp ↔ scene.gateway.filtering = .endpointIndependent :=
  Rule.alike_iff_of_ip_ne scene.servers.ip_ne

/-- What is let in before the secondary server was written to is what the
filter lets. -/
theorem lets_of_letIn (h : Wired scene requestId late table net passages)
    (hphase : phase.isFilter = true) (hin : scene.LetIn passages (scene.originOf phase)) :
    scene.Lets phase := by
  obtain ⟨passage, hmem, hsource, hremotes⟩ := hin
  obtain ⟨c, hc, halike⟩ := h.admitted passage hmem
  have hserver : NatRequest.serverOf scene.servers phase = c := by
    rw [hremotes c hc]
    cases phase <;> first | rfl | cases hphase
  rw [Lets, hserver, ← hsource]
  exact halike

theorem not_lets_of_not_admits {source target : Address}
    {frame : ProbeFrame} (h : scene.PartOf requestId table phase (.answer source target frame))
    (hout : ¬ (target.ip = scene.gateway.publicIp ∧
      scene.gateway.Admits table target.port source)) : ¬ scene.Lets phase := by
  intro hlets
  obtain ⟨⟨port, rfl, -, hcontacted⟩, rfl, -⟩ := h
  exact hout ⟨rfl, Translator.admits_of_alike hcontacted hlets⟩

-- ==== the request

/-- The request as the phases so far leave it. What it has seen, the
translator did; and if nothing was lost, it has seen what there was to see in
every phase before its own. -/
structure Told (scene : NatScene) (requestId : UInt64) (lossless : Prop) (table : Table Ip UInt16)
    (passages : List Passage) (request : NatRequest) : Prop where
  fits : request.Fits scene.servers requestId
  unjudged : request.Unjudged
  measured : ∀ i, request.Unmapped i ∨
    ∃ mapped, scene.SeenAs table (scene.servers.addrs i) mapped ∧ request.Mapped i mapped
  executed : request.natPhase ≠ .probe1 → request.natSample.filterProbeExecuted = true
  order : ∀ q, request.SeenIn q → q.order ≤ request.natPhase.order
  letIn : ∀ q : AsyncNatPhase, q.isFilter = true → request.SeenIn q →
    scene.LetIn passages (scene.originOf q)
  past : lossless → ∀ q : AsyncNatPhase, q.order < request.natPhase.order →
    (request.SeenIn q ↔ scene.Lets q)

/-- What may be reported: a class no more open than the translator's, with
the evidence for the open ones, and its class if nothing was lost. -/
structure Reported (scene : NatScene) (lossless : Prop) (passages : List Passage)
    (natClass : NatClass) : Prop where
  openness : natClass.openness ≤ scene.gateway.natClass.openness
  fullCone : natClass = .fullCone → scene.LetIn passages scene.servers.alternate ∧
    scene.LetIn passages scene.servers.secondary
  ipRestricted : natClass = .ipRestricted → scene.LetIn passages scene.servers.alternate
  exact : lossless → natClass = scene.gateway.natClass

theorem natClass_eq (gateway : NatGateway) :
    gateway.natClass = classFound (decide (gateway.mapping = .endpointIndependent))
      (decide (gateway.filtering ≠ .addressAndPortDependent))
      (decide (gateway.filtering = .endpointIndependent)) := by
  unfold NatGateway.natClass
  cases gateway.mapping <;> cases gateway.filtering <;> rfl

/-- Filter probes that show less than they could make the class no more
open. -/
theorem openness_classFound {gateway : NatGateway} {same portRx ipRx : Bool}
    (hsame : same = true → gateway.mapping = .endpointIndependent)
    (hport : portRx = true → gateway.filtering ≠ .addressAndPortDependent)
    (hip : ipRx = true → gateway.filtering = .endpointIndependent) :
    (classFound same portRx ipRx).openness ≤ gateway.natClass.openness := by
  rw [natClass_eq]
  cases same with
  | false => exact Nat.zero_le _
  | true =>
    rw [hsame rfl]
    cases ipRx with
    | true =>
      rw [hip rfl]
      cases portRx <;> decide
    | false =>
      cases portRx with
      | true => cases hf : gateway.filtering <;> first | decide | exact absurd hf (hport rfl)
      | false => cases gateway.filtering <;> decide

theorem reported_of_openness_zero {natClass : NatClass} (h : natClass.openness = 0)
    (hexact : ¬ lossless) : Reported scene lossless passages natClass where
  openness := by rw [h]; exact Nat.zero_le _
  fullCone := by rintro rfl; cases h
  ipRestricted := by rintro rfl; cases h
  exact := fun hl => absurd hl hexact

theorem Reported.later {natClass : NatClass} (h : Reported scene lossless passages natClass)
    {lossless' : Prop} {passages' : List Passage} (hsub : passages ⊆ passages')
    (himp : lossless' → lossless) : Reported scene lossless' passages' natClass where
  openness := h.openness
  fullCone := fun heq => ⟨(h.fullCone heq).1.mono hsub, (h.fullCone heq).2.mono hsub⟩
  ipRestricted := fun heq => (h.ipRestricted heq).mono hsub
  exact := fun hl => h.exact (himp hl)

/-- A detection that ends after `PROBE2` reports what may be reported. -/
theorem Told.finish (h : Told scene requestId lossless table passages request)
    (hw : Wired scene requestId late table net passages) (hphase : request.natPhase = .probe2)
    (hlast : lossless → request.SeenIn .probe2) :
    ∃ result : AsyncResult, request.finishAsyncNatDetection.delivered = some result ∧
      Reported scene lossless passages result.natInfo.natClass := by
  obtain ⟨result, hresult, hclass⟩ := NatRequest.delivered_finish request
  refine ⟨result, hresult, ?_⟩
  have hprobed : lossless → request.SeenIn .probe1 := fun hl =>
    (h.past hl .probe1 (by rw [hphase]; decide)).mpr (lets_probe rfl)
  rcases h.measured 0 with h0 | ⟨a, hseen0, h0⟩
  · rw [NatRequest.natClass_blocked h.unjudged h0] at hclass
    refine reported_of_openness_zero (by rw [hclass]; rfl) fun hl => ?_
    exact absurd h0.1 (Nat.pos_iff_ne_zero.mp (hprobed hl))
  rcases h.measured 1 with h1 | ⟨b, hseen1, h1⟩
  · rw [NatRequest.natClass_unprobed h.unjudged h0 h1] at hclass
    refine reported_of_openness_zero (by rw [hclass]; rfl) fun hl => ?_
    exact absurd h1.1 (Nat.pos_iff_ne_zero.mp (hlast hl))
  obtain ⟨p, rfl, hport0, -⟩ := hseen0
  obtain ⟨q, rfl, hport1, -⟩ := hseen1
  have hexec := h.executed (by rw [hphase]; nofun)
  rw [NatRequest.natClass_found h.unjudged h0 h1 rfl h.fits.both hexec] at hclass
  have hsame : decide ((⟨scene.gateway.publicIp, p⟩ : Address) = ⟨scene.gateway.publicIp, q⟩) =
      decide (scene.gateway.mapping = .endpointIndependent) := by
    have hports : p = q ↔ scene.gateway.mapping.Alike scene.servers.primary
        scene.servers.secondary := hw.sound.portOf_eq_iff hport0 hport1
    rw [decide_eq_decide, Endpoint.mk.injEq, ← Rule.alike_iff_of_ip_ne scene.servers.ip_ne,
      ← hports]
    exact and_iff_right rfl
  have hport : request.natSample.filterSameIpDiffPortRx = true →
      scene.LetIn passages scene.servers.alternate := h.letIn .filterChangePort rfl
  have hip : request.natSample.filterDiffIpRx = true →
      scene.LetIn passages scene.servers.secondary := h.letIn .filterChangeIp rfl
  have hportLets := fun hrx => lets_changePort.mp (lets_of_letIn hw rfl (hport hrx))
  have hipLets := fun hrx => lets_changeIp.mp (lets_of_letIn hw rfl (hip hrx))
  rw [hclass, hsame]
  refine ⟨openness_classFound (fun hs => of_decide_eq_true hs) hportLets hipLets, ?_, ?_, ?_⟩
  · intro heq
    cases hrx : request.natSample.filterSameIpDiffPortRx <;>
      cases hrx' : request.natSample.filterDiffIpRx <;> rw [hrx, hrx'] at heq
    case true.true => exact ⟨hport hrx, hip hrx'⟩
    all_goals revert heq; cases decide (scene.gateway.mapping = .endpointIndependent) <;> nofun
  · intro heq
    cases hrx : request.natSample.filterSameIpDiffPortRx with
    | true => exact hport hrx
    | false =>
      rw [hrx] at heq
      revert heq
      cases decide (scene.gateway.mapping = .endpointIndependent) <;>
        cases request.natSample.filterDiffIpRx <;> nofun
  · intro hl
    have hportIff := h.past hl .filterChangePort (by rw [hphase]; decide)
    have hipIff := h.past hl .filterChangeIp (by rw [hphase]; decide)
    have hportEq : request.natSample.filterSameIpDiffPortRx =
        decide (scene.gateway.filtering ≠ .addressAndPortDependent) := by
      rw [Bool.eq_iff_iff, decide_eq_true_iff, ← lets_changePort]
      exact hportIff
    have hipEq : request.natSample.filterDiffIpRx =
        decide (scene.gateway.filtering = .endpointIndependent) := by
      rw [Bool.eq_iff_iff, decide_eq_true_iff, ← lets_changeIp]
      exact hipIff
    rw [natClass_eq, hportEq, hipEq]

-- ==== moves of the request

namespace Told

theorem later (h : Told scene requestId lossless table passages request) {lossless' : Prop}
    {passages' : List Passage} (hsub : passages ⊆ passages') (himp : lossless' → lossless) :
    Told scene requestId lossless' table passages' request :=
  ⟨h.fits, h.unjudged, h.measured, h.executed, h.order,
    fun q hq hseen => (h.letIn q hq hseen).mono hsub, fun hl => h.past (himp hl)⟩

theorem outbound (h : Told scene requestId lossless table passages request) (server : Address) :
    Told scene requestId lossless (scene.gateway.outbound table server).1 passages request where
  fits := h.fits
  unjudged := h.unjudged
  measured := fun i => (h.measured i).imp_right fun hm => by
    obtain ⟨mapped, hseen, hmapped⟩ := hm
    exact ⟨mapped, hseen.outbound server, hmapped⟩
  executed := h.executed
  order := h.order
  letIn := h.letIn
  past := h.past

theorem tick (h : Told scene requestId lossless table passages request) (armed : Bool)
    (attempts : Int) :
    Told scene requestId lossless table passages
      { request with timerArmed := armed, probeAttempts := attempts } where
  fits := ⟨h.fits.id, h.fits.addrs, h.fits.both, h.fits.filter, h.fits.index, h.fits.change,
    h.fits.undelivered⟩
  unjudged := ⟨h.unjudged.hidden, h.unjudged.probe1Ok, h.unjudged.probe2Ok, h.unjudged.srflx,
    h.unjudged.srflx2, h.unjudged.distinct1, h.unjudged.distinct2⟩
  measured := h.measured
  executed := h.executed
  order := fun q hq => h.order q (by cases q <;> exact hq)
  letIn := fun q hfilter hq => h.letIn q hfilter (by cases q <;> exact hq)
  past := fun hl q hq => by
    rw [← h.past hl q hq]
    cases q <;> exact Iff.rfl

theorem resent (h : Told scene requestId lossless table passages request) {request' : NatRequest}
    (hsent : NatRequest.Resent scene.socket.toUdpSocket request request') :
    Told scene requestId lossless table passages request' := by
  obtain ⟨endpoint, hendpoint, rfl⟩ := hsent
  have hhidden : isPublicIpv4 endpoint.ip = false ∧ isIpv6Text endpoint.ip = false := by
    rcases hendpoint with rfl | ⟨remote, hroute⟩
    · exact h.unjudged.hidden
    · exact (scene.socket.route_private remote endpoint hroute).hidden
  refine ⟨⟨h.fits.id, h.fits.addrs, h.fits.both, h.fits.filter, h.fits.index, h.fits.change,
      h.fits.undelivered⟩, ⟨hhidden, h.unjudged.probe1Ok, h.unjudged.probe2Ok, h.unjudged.srflx,
      h.unjudged.srflx2, h.unjudged.distinct1, h.unjudged.distinct2⟩, h.measured, h.executed,
    fun q hq => h.order q (by cases q <;> exact hq),
    fun q hfilter hq => h.letIn q hfilter (by cases q <;> exact hq), fun hl q hq => ?_⟩
  rw [← h.past hl q hq]
  cases q <;> exact Iff.rfl

theorem enter (h : Told scene requestId lossless table passages request)
    (hsettled : lossless → (request.SeenIn request.natPhase ↔ scene.Lets request.natPhase))
    {request' : NatRequest} (hfits : request'.Fits scene.servers requestId)
    (hphase : request'.natPhase.order = request.natPhase.order + 1)
    (hcount : request'.probeSuccessCount = request.probeSuccessCount)
    (hmappings : request'.probeMappings = request.probeMappings)
    (hsample : request'.natSample = { request.natSample with filterProbeExecuted := true }) :
    Told scene requestId lossless table passages request' := by
  have hseen : ∀ q, request'.SeenIn q ↔ request.SeenIn q := by
    intro q
    cases q <;> simp only [NatRequest.SeenIn, hcount, hsample]
  refine ⟨hfits, ?_, ?_, ?_, ?_, ?_, ?_⟩
  · constructor <;> rw [hsample]
    · exact h.unjudged.hidden
    · exact h.unjudged.probe1Ok
    · exact h.unjudged.probe2Ok
    · exact h.unjudged.srflx
    · exact h.unjudged.srflx2
    · exact h.unjudged.distinct1
    · exact h.unjudged.distinct2
  · intro i
    simp only [NatRequest.Unmapped, NatRequest.Mapped, hcount, hmappings, hsample]
    exact h.measured i
  · intro _
    rw [hsample]
  · intro q hq
    have hle := h.order q ((hseen q).mp hq)
    omega
  · exact fun q hfilter hq => h.letIn q hfilter ((hseen q).mp hq)
  · intro hl q hq
    rw [hseen q]
    rcases Nat.lt_succ_iff_lt_or_eq.mp (hphase ▸ hq) with hlt | heq
    · exact h.past hl q hlt
    · have hsame : q = request.natPhase := by
        revert heq
        cases q <;> cases request.natPhase <;> simp [AsyncNatPhase.order]
      rw [hsame]
      exact hsettled hl

theorem note (h : Told scene requestId lossless table passages request)
    (hin : scene.LetIn passages (scene.originOf request.natPhase)) (portRx ipRx : Bool)
    (hport : portRx = true →
      request.natSample.filterSameIpDiffPortRx = true ∨ request.natPhase = .filterChangePort)
    (hip : ipRx = true →
      request.natSample.filterDiffIpRx = true ∨ request.natPhase = .filterChangeIp)
    (hpast : ∀ q : AsyncNatPhase, q.order < request.natPhase.order →
      (request.SeenIn q ↔ NatRequest.SeenIn { request with natSample := { request.natSample with
        filterProbeExecuted := true, filterSameIpDiffPortRx := portRx
        filterDiffIpRx := ipRx } } q)) :
    Told scene requestId lossless table passages
      { request with
        timerArmed := false
        natSample := { request.natSample with
          filterProbeExecuted := true, filterSameIpDiffPortRx := portRx
          filterDiffIpRx := ipRx } } := by
  refine ⟨⟨h.fits.id, h.fits.addrs, h.fits.both, h.fits.filter, h.fits.index, h.fits.change,
      h.fits.undelivered⟩, ⟨h.unjudged.hidden, h.unjudged.probe1Ok, h.unjudged.probe2Ok,
      h.unjudged.srflx, h.unjudged.srflx2, h.unjudged.distinct1, h.unjudged.distinct2⟩,
    h.measured, fun _ => rfl, ?_, ?_, ?_⟩
  · intro q hq
    cases q with
    | probe1 => exact h.order .probe1 hq
    | probe2 => exact h.order .probe2 hq
    | filterChangePort =>
      rcases hport hq with hold | hnow
      · exact h.order .filterChangePort hold
      · exact (congrArg AsyncNatPhase.order hnow).ge
    | filterChangeIp =>
      rcases hip hq with hold | hnow
      · exact h.order .filterChangeIp hold
      · exact (congrArg AsyncNatPhase.order hnow).ge
  · intro q hfilter hq
    cases q with
    | probe1 => cases hfilter
    | probe2 => cases hfilter
    | filterChangePort =>
      rcases hport hq with hold | hnow
      · exact h.letIn .filterChangePort rfl hold
      · exact hnow ▸ hin
    | filterChangeIp =>
      rcases hip hq with hold | hnow
      · exact h.letIn .filterChangeIp rfl hold
      · exact hnow ▸ hin
  · intro hl q hq
    rw [← h.past hl q hq, hpast q hq]
    cases q <;> exact Iff.rfl

theorem record (h : Told scene requestId lossless table passages request)
    (hprobe : request.natPhase.isFilter = false) {mapped : Address}
    (hseen : scene.SeenAs table (NatRequest.serverOf scene.servers request.natPhase) mapped) :
    Told scene requestId lossless table passages (request.recordMapping mapped) := by
  have hv4 : isIpv6Text mapped.ip = false := by
    obtain ⟨port, rfl, -⟩ := hseen
    have hpublic := scene.gateway.publicIp_v4
    cases hip : scene.gateway.publicIp with
    | v4 => rfl
    | v6 => rw [hip] at hpublic; cases hpublic
  have hother : ∀ q : AsyncNatPhase, q ≠ request.natPhase →
      ((request.recordMapping mapped).SeenIn q ↔ request.SeenIn q) := by
    intro q hq
    unfold NatRequest.recordMapping
    rw [h.fits.index]
    cases hphase : request.natPhase <;> rw [hphase] at hprobe hq <;> cases hprobe
    all_goals
      cases q <;> first | exact absurd rfl hq | simp [NatRequest.SeenIn, AsyncNatPhase.index]
  refine ⟨⟨h.fits.id, h.fits.addrs, h.fits.both, h.fits.filter, h.fits.index, h.fits.change,
      h.fits.undelivered⟩, ?_, ?_, ?_, ?_, ?_, ?_⟩
  · unfold NatRequest.recordMapping
    constructor <;> dsimp only <;> split
    all_goals first
      | exact h.unjudged.hidden | exact h.unjudged.probe1Ok | exact h.unjudged.probe2Ok
      | exact hv4 | exact h.unjudged.srflx | exact h.unjudged.srflx2
      | exact h.unjudged.distinct1 | exact h.unjudged.distinct2
  · intro i
    by_cases hi : i = request.probeIndex
    · refine .inr ⟨mapped, ?_, ?_, ?_, ?_⟩
      · rw [hi, h.fits.index]
        exact hseen
      · rw [hi]
        simp [NatRequest.recordMapping]
      · rw [hi]
        simp only [NatRequest.recordMapping, Function.update_self]
        rcases h.measured request.probeIndex with hnone | ⟨mapped', hseen', hmapped⟩
        · rw [hnone.2]
          rfl
        · obtain ⟨port, rfl, hport, -⟩ := hseen
          obtain ⟨port', rfl, hport', -⟩ := hseen'
          rw [h.fits.index] at hport'
          have heq : port = port' := Option.some.inj (hport.symm.trans hport')
          rw [hmapped.2.1, heq]
          exact List.insert_of_mem (List.mem_singleton.mpr rfl)
      · rw [hi]
        simp only [NatRequest.recordMapping]
        split <;> rfl
    · have hsrflx : (if i = 0 then (request.recordMapping mapped).natSample.srflx
          else (request.recordMapping mapped).natSample.srflx2) =
          if i = 0 then request.natSample.srflx else request.natSample.srflx2 := by
        unfold NatRequest.recordMapping
        dsimp only
        split <;> split <;> first | rfl | skip
        · rename_i h0 h1
          exact absurd (h0.trans h1.symm) hi
        · rename_i h0 h1
          have hsame : i = request.probeIndex := by omega
          exact absurd hsame hi
      have hsame : (request.recordMapping mapped).probeSuccessCount i =
            request.probeSuccessCount i ∧
          (request.recordMapping mapped).probeMappings i = request.probeMappings i := by
        simp [NatRequest.recordMapping, Function.update_of_ne hi]
      simp only [NatRequest.Unmapped, NatRequest.Mapped, hsame.1, hsame.2, hsrflx]
      exact h.measured i
  · intro hne
    unfold NatRequest.recordMapping
    dsimp only
    split <;> exact h.executed hne
  · intro q hq
    by_cases hsame : q = request.natPhase
    · rw [hsame]
      exact le_refl _
    · exact h.order q ((hother q hsame).mp hq)
  · intro q hfilter hq
    have hne : q ≠ request.natPhase := by
      rintro rfl
      rw [hprobe] at hfilter
      cases hfilter
    exact h.letIn q hfilter ((hother q hne).mp hq)
  · intro hl q hq
    have hne : q ≠ request.natPhase := by
      rintro rfl
      exact lt_irrefl _ hq
    rw [hother q hne]
    exact h.past hl q hq

end Told

end NatScene

end Eular.Ntrs
