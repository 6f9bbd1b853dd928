/-
How far the parser of a datagram reads.

`kcp_parse_packet` compares the datagram with the size of a header once,
before its loop; `kcp_proto_parse` reads the next 32 bytes wherever it is
called, and takes the length of what is left down by 32 without a look at
it. It reads the four bytes of an MTU too, whatever length the option
declares. So the reads stay inside the datagram exactly where its headers
and options are all long enough (`HeadersFit`, `OptionsFit`), which these
two say of the bytes alone. A header that is refused, or one that ends the
loop, may be followed by anything.
-/
import Eular.Kcp.Header

namespace Eular.Kcp

open Lib

variable {m : Nat → UInt8}

-- ==== the options

/-- From `offset` on the options are long enough for what is read of them. -/
inductive OptionsFit (m : Nat → UInt8) (last : Nat) : Nat → Prop
  | done {offset : Nat} : last ≤ offset → OptionsFit m last offset
  | refused {offset : Nat} : offset < last →
      (last < offset + 2 ∨ last < offset + 2 + (m (offset + 1)).toNat
        ∨ m offset ≠ KCP_OPTION_TAG_MTU) → OptionsFit m last offset
  | next {offset : Nat} : offset + 2 + (m (offset + 1)).toNat ≤ last →
      m offset = KCP_OPTION_TAG_MTU → 4 ≤ (m (offset + 1)).toNat →
      OptionsFit m last (offset + 2 + (m (offset + 1)).toNat) → OptionsFit m last offset

theorem optionsFit_iff {last offset : Nat} (hend : offset + 2 + (m (offset + 1)).toNat ≤ last)
    (htag : m offset = KCP_OPTION_TAG_MTU) :
    OptionsFit m last offset ↔ 4 ≤ (m (offset + 1)).toNat
      ∧ OptionsFit m last (offset + 2 + (m (offset + 1)).toNat) := by
  constructor
  · intro hfit
    cases hfit with
    | done hdone => exact absurd hdone (by omega)
    | refused hlt hrefused =>
      obtain hshort | hlong | hunknown := hrefused
      · exact absurd hshort (by omega)
      · exact absurd hlong (by omega)
      · exact absurd htag hunknown
    | next _ _ hcovers hrest => exact ⟨hcovers, hrest⟩
  · rintro ⟨hcovers, hrest⟩
    exact .next hend htag hcovers hrest

/-- The loop over the options ends at the end of the datagram, and reads inside it what the
options cover exactly where they fit. -/
theorem parseOptions_spec {last : Nat} : ∀ {rounds offset : Nat}, offset ≤ last →
    last ≤ offset + rounds →
    ((parseOptions m last rounds offset).reach ≤ last
        ∧ (parseOptions m last rounds offset).uncovered = false ↔ OptionsFit m last offset)
      ∧ ∀ options offset', (parseOptions m last rounds offset).options = some (options, offset') →
          offset' = last := by
  intro rounds
  induction rounds with
  | zero =>
    intro offset hle hrounds
    have hdone : last ≤ offset := hrounds
    rw [parseOptions_done m hdone]
    refine ⟨iff_of_true ⟨Nat.zero_le _, rfl⟩ (.done hdone), ?_⟩
    rintro options offset' heq
    cases heq
    omega
  | succ rounds ih =>
    intro offset hle hrounds
    by_cases hdone : last ≤ offset
    · rw [parseOptions_done m hdone]
      refine ⟨iff_of_true ⟨Nat.zero_le _, rfl⟩ (.done hdone), ?_⟩
      rintro options offset' heq
      cases heq
      omega
    have hlt : offset < last := Nat.lt_of_not_le hdone
    rw [parseOptions, if_neg hdone]
    by_cases hshort : last - offset < 2
    · rw [if_pos hshort]
      exact ⟨iff_of_true ⟨Nat.zero_le _, rfl⟩ (.refused hlt (.inl (by omega))),
        fun _ _ heq => by cases heq⟩
    rw [if_neg hshort]
    by_cases hlong : last - (offset + 2) < (m (offset + 1)).toNat
    · rw [if_pos hlong]
      exact ⟨iff_of_true ⟨by dsimp only; omega, rfl⟩
        (.refused hlt (.inr (.inl (by omega)))), fun _ _ heq => by cases heq⟩
    rw [if_neg hlong]
    by_cases htag : m offset = KCP_OPTION_TAG_MTU
    · rw [if_pos htag]
      have hend : offset + 2 + (m (offset + 1)).toNat ≤ last := by omega
      obtain ⟨hiff, hcursor⟩ := ih hend (by omega)
      refine ⟨?_, ?_⟩
      · rw [optionsFit_iff hend htag, ← hiff, max_le_iff, Bool.or_eq_false_iff,
          decide_eq_false_iff_not, Nat.not_lt]
        constructor
        · rintro ⟨⟨-, hreach⟩, hcovers, hcovered⟩
          exact ⟨hcovers, hreach, hcovered⟩
        · rintro ⟨hcovers, hreach, hcovered⟩
          exact ⟨⟨by omega, hreach⟩, hcovers, hcovered⟩
      · intro options offset' heq
        obtain ⟨pair, hpair, heq⟩ := Option.map_eq_some_iff.mp heq
        have hsnd : pair.2 = offset' := congrArg Prod.snd heq
        rw [← hsnd]
        exact hcursor pair.1 pair.2 hpair
    · rw [if_neg htag]
      exact ⟨iff_of_true ⟨by dsimp only; omega, rfl⟩ (.refused hlt (.inr (.inr htag))),
        fun _ _ heq => by cases heq⟩

-- ==== a header

/-- Where the data of the header at `offset` is said to end. -/
def headerEnd (m : Nat → UInt8) (offset : Nat) : Nat :=
  offset + KCP_HEADER_SIZE + (parseHeader m offset).body.data.length

/-- The header announces options. -/
def hasOptions (m : Nat → UInt8) (offset : Nat) : Prop :=
  (parseHeader m offset).opt.val &&& KCP_CMD_OPT ≠ 0

variable {offset bufferSize : Nat}

theorem le_reach_protoParse (m : Nat → UInt8) (offset dataSize : Nat) :
    offset + KCP_HEADER_SIZE ≤ (protoParse m offset dataSize).reach := by
  rw [protoParse]
  dsimp only
  split
  · exact le_rfl
  split
  · exact le_max_left _ _
  · exact le_rfl

theorem protoParse_overlong (hroom : offset + KCP_HEADER_SIZE ≤ bufferSize)
    (hlong : bufferSize < headerEnd m offset) :
    protoParse m offset (bufferSize - offset) = ⟨none, offset + KCP_HEADER_SIZE, false⟩ := by
  have hrefused : payloadRoom (bufferSize - offset) < (parseHeader m offset).body.data.length := by
    rw [headerEnd] at hlong
    rw [payloadRoom, if_pos (by omega)]
    omega
  rw [protoParse]
  exact if_pos hrefused

theorem protoParse_plain (hend : headerEnd m offset ≤ bufferSize) (hplain : ¬ hasOptions m offset) :
    protoParse m offset (bufferSize - offset)
      = ⟨some (parseHeader m offset, headerEnd m offset), offset + KCP_HEADER_SIZE, false⟩ := by
  have hfits : ¬ payloadRoom (bufferSize - offset)
      < (parseHeader m offset).body.data.length := by
    rw [headerEnd] at hend
    rw [payloadRoom, if_pos (by omega)]
    omega
  rw [protoParse]
  dsimp only
  rw [if_neg hfits]
  exact if_neg hplain

theorem protoParse_options (hend : headerEnd m offset ≤ bufferSize)
    (hoptions : hasOptions m offset) :
    ((protoParse m offset (bufferSize - offset)).reach ≤ bufferSize
        ∧ (protoParse m offset (bufferSize - offset)).uncovered = false
          ↔ OptionsFit m bufferSize (headerEnd m offset))
      ∧ ∀ header offset', (protoParse m offset (bufferSize - offset)).result
          = some (header, offset') →
            header.body = (parseHeader m offset).body ∧ offset' = bufferSize := by
  have hend' := hend
  rw [headerEnd] at hend'
  have hfits : ¬ payloadRoom (bufferSize - offset)
      < (parseHeader m offset).body.data.length := by
    rw [payloadRoom, if_pos (by omega)]
    omega
  have hlast : offset + (bufferSize - offset) = bufferSize := by omega
  obtain ⟨hiff, hcursor⟩ :=
    @parseOptions_spec m bufferSize (bufferSize - offset) (headerEnd m offset) hend
      (by rw [headerEnd]; omega)
  rw [hasOptions] at hoptions
  rw [protoParse]
  dsimp only
  rw [if_neg hfits, if_pos hoptions, hlast]
  dsimp only
  rw [← headerEnd]
  refine ⟨?_, ?_⟩
  · rw [← hiff, max_le_iff, and_assoc]
    exact and_iff_right (by omega)
  · intro header offset' heq
    obtain ⟨pair, hpair, heq⟩ := Option.map_eq_some_iff.mp heq
    have hfst : ({ parseHeader m offset with options := pair.1 } : KcpProtoHeader) = header :=
      congrArg Prod.fst heq
    have hsnd : pair.2 = offset' := congrArg Prod.snd heq
    rw [← hsnd, ← hfst]
    exact ⟨rfl, hcursor pair.1 pair.2 hpair⟩

-- ==== the loop

section Loop

variable {σ : Type} (handle : σ → KcpProtoHeader → σ × Bool)
variable {header : KcpProtoHeader} {parsed : Parsed} {offset' : Nat}

/-- From `offset` on the headers are long enough for what is read of them, up to the first that
ends the loop. -/
inductive HeadersFit (m : Nat → UInt8) (bufferSize : Nat) : σ → Nat → Prop
  | overlong {s : σ} {offset : Nat} : offset + KCP_HEADER_SIZE ≤ bufferSize →
      bufferSize < headerEnd m offset → HeadersFit m bufferSize s offset
  | options {s : σ} {offset : Nat} : headerEnd m offset ≤ bufferSize → hasOptions m offset →
      OptionsFit m bufferSize (headerEnd m offset) → HeadersFit m bufferSize s offset
  | last {s : σ} {offset : Nat} : headerEnd m offset ≤ bufferSize → ¬ hasOptions m offset →
      (handle s (parseHeader m offset)).2 = false ∨ headerEnd m offset = bufferSize →
      HeadersFit m bufferSize s offset
  | next {s : σ} {offset : Nat} : headerEnd m offset < bufferSize → ¬ hasOptions m offset →
      (handle s (parseHeader m offset)).2 = true →
      HeadersFit m bufferSize (handle s (parseHeader m offset)).1 (headerEnd m offset) →
      HeadersFit m bufferSize s offset

variable {handle}

variable {s : σ}

theorem HeadersFit.room (hfit : HeadersFit handle m bufferSize s offset) :
    offset + KCP_HEADER_SIZE ≤ bufferSize := by
  have hle : offset + KCP_HEADER_SIZE ≤ headerEnd m offset := Nat.le_add_right _ _
  cases hfit with
  | overlong hroom _ => exact hroom
  | options hend _ _ => exact hle.trans hend
  | last hend _ _ => exact hle.trans hend
  | next hend _ _ _ => exact hle.trans hend.le

theorem headersFit_options_iff (hend : headerEnd m offset ≤ bufferSize)
    (hoptions : hasOptions m offset) :
    HeadersFit handle m bufferSize s offset ↔ OptionsFit m bufferSize (headerEnd m offset) := by
  refine ⟨fun hfit => ?_, .options hend hoptions⟩
  cases hfit with
  | overlong _ hlong => exact absurd hend (Nat.not_le_of_lt hlong)
  | options _ _ hfit => exact hfit
  | last _ hplain _ => exact absurd hoptions hplain
  | next _ hplain _ _ => exact absurd hoptions hplain

theorem headersFit_plain_iff (hend : headerEnd m offset ≤ bufferSize)
    (hplain : ¬ hasOptions m offset) :
    HeadersFit handle m bufferSize s offset ↔
      ((handle s (parseHeader m offset)).2 = true ∧ headerEnd m offset < bufferSize →
        HeadersFit handle m bufferSize (handle s (parseHeader m offset)).1
          (headerEnd m offset)) := by
  constructor
  · rintro hfit ⟨hgoes, hlt⟩
    cases hfit with
    | overlong _ hlong => exact absurd hend (Nat.not_le_of_lt hlong)
    | options _ hoptions _ => exact absurd hoptions hplain
    | last _ _ hends =>
      obtain hstops | hends := hends
      · exact absurd hgoes (by rw [hstops]; exact Bool.false_ne_true)
      · exact absurd hends hlt.ne
    | next _ _ _ hfit => exact hfit
  · intro hnext
    by_cases hmore : (handle s (parseHeader m offset)).2 = true ∧ headerEnd m offset < bufferSize
    · exact .next hmore.2 hplain hmore.1 (hnext hmore)
    · refine .last hend hplain ?_
      by_cases hgoes : (handle s (parseHeader m offset)).2 = true
      · exact .inr (Nat.le_antisymm hend (Nat.le_of_not_lt fun hlt => hmore ⟨hgoes, hlt⟩))
      · exact .inl (Bool.eq_false_iff.mpr hgoes)

/-- What is promised of a datagram of `bufferSize` bytes. -/
structure Scan.Inside (scan : Scan σ) (bufferSize : Nat) : Prop where
  reads : scan.reach ≤ bufferSize
  cursor : scan.offset ≤ bufferSize
  payloads : ∀ p ∈ scan.accepted, p.1 + KCP_HEADER_SIZE + p.2.body.data.length ≤ bufferSize
  covered : scan.uncovered = false
  finished : scan.finished = true

variable {scan : Scan σ}

theorem parseLoop_refused
    (hparsed : protoParse m scan.offset (bufferSize - scan.offset) = parsed)
    (hresult : parsed.result = none) (rounds : Nat) :
    parseLoop handle m bufferSize (rounds + 1) scan
      = { scan.read parsed with finished := true } := by
  rw [parseLoop, hparsed]
  dsimp only
  rw [hresult]

theorem parseLoop_accepted
    (hparsed : protoParse m scan.offset (bufferSize - scan.offset) = parsed)
    (hresult : parsed.result = some (header, offset')) (rounds : Nat) :
    parseLoop handle m bufferSize (rounds + 1) scan =
      if (handle scan.state header).2 = true ∧ offset' < bufferSize then
        parseLoop handle m bufferSize rounds
          ((scan.read parsed).accept header offset' (handle scan.state header).1)
      else
        { (scan.read parsed).accept header offset' (handle scan.state header).1 with
          finished := true } := by
  rw [parseLoop, hparsed]
  dsimp only
  rw [hresult]

/-- What a scan is to be before a header is parsed. -/
structure Scan.Sound (scan : Scan σ) (bufferSize : Nat) : Prop where
  reads : scan.reach ≤ bufferSize
  payloads : ∀ p ∈ scan.accepted, p.1 + KCP_HEADER_SIZE + p.2.body.data.length ≤ bufferSize
  covered : scan.uncovered = false

theorem Scan.Sound.finish (hsound : scan.Sound bufferSize)
    (hcursor : scan.offset ≤ bufferSize) :
    ({ scan with finished := true } : Scan σ).Inside bufferSize :=
  ⟨hsound.reads, hcursor, hsound.payloads, hsound.covered, rfl⟩

theorem Scan.Sound.read (hsound : scan.Sound bufferSize)
    (hreach : parsed.reach ≤ bufferSize) (hcovered : parsed.uncovered = false) :
    (scan.read parsed).Sound bufferSize :=
  ⟨max_le hsound.reads hreach, hsound.payloads,
    Bool.or_eq_false_iff.mpr ⟨hsound.covered, hcovered⟩⟩

theorem Scan.Sound.accept
    (hsound : scan.Sound bufferSize)
    (hend : scan.offset + KCP_HEADER_SIZE + header.body.data.length ≤ bufferSize) :
    (scan.accept header offset' s).Sound bufferSize := by
  refine ⟨hsound.reads, ?_, hsound.covered⟩
  intro p hp
  obtain hmem | hmem := List.mem_append.mp hp
  · exact hsound.payloads p hmem
  · rw [List.mem_singleton.mp hmem]
    exact hend

/-- A call that reads outside the datagram, or more than an option covers, ends the loop with
that on record. -/
theorem not_inside_of_read
    (hparsed : protoParse m scan.offset (bufferSize - scan.offset) = parsed)
    (hbad : ¬ (parsed.reach ≤ bufferSize ∧ parsed.uncovered = false))
    (hlast : ∀ header offset', parsed.result = some (header, offset') → bufferSize ≤ offset')
    (rounds : Nat) : ¬ (parseLoop handle m bufferSize (rounds + 1) scan).Inside bufferSize := by
  cases hresult : parsed.result with
  | none =>
    rw [parseLoop_refused hparsed hresult]
    intro hinside
    exact hbad ⟨(le_max_right _ _).trans hinside.reads,
      (Bool.or_eq_false_iff.mp hinside.covered).2⟩
  | some pair =>
    rw [parseLoop_accepted hparsed hresult,
      if_neg fun h => absurd h.2 (Nat.not_lt_of_le (hlast pair.1 pair.2 hresult))]
    intro hinside
    exact hbad ⟨(le_max_right _ _).trans hinside.reads,
      (Bool.or_eq_false_iff.mp hinside.covered).2⟩

theorem le_of_short (hoffset : offset ≤ bufferSize) (hshort : bufferSize < offset + KCP_HEADER_SIZE)
    (hresult : (protoParse m offset (bufferSize - offset)).result = some (header, offset')) :
    bufferSize ≤ offset' := by
  have hpast : bufferSize ≤ headerEnd m offset := by
    rw [headerEnd]
    omega
  rw [protoParse] at hresult
  dsimp only at hresult
  split at hresult
  · cases hresult
  split at hresult
  · rw [← headerEnd, parseOptions_done m (by omega)] at hresult
    have hend : headerEnd m offset = offset' := congrArg Prod.snd (Option.some.inj hresult)
    rwa [← hend]
  · have hend : headerEnd m offset = offset' := congrArg Prod.snd (Option.some.inj hresult)
    rwa [← hend]

/-- The loop, one header at a time: what is left of the datagram is one header shorter. -/
theorem parseLoop_inside {rounds : Nat} : ∀ {scan : Scan σ}, scan.Sound bufferSize →
    scan.offset < bufferSize → bufferSize ≤ scan.offset + rounds →
    ((parseLoop handle m bufferSize rounds scan).Inside bufferSize
      ↔ HeadersFit handle m bufferSize scan.state scan.offset) := by
  induction rounds with
  | zero => intro scan _ hlt hrounds; omega
  | succ rounds ih =>
    intro scan hsound hlt hrounds
    rcases Nat.lt_or_ge bufferSize (scan.offset + KCP_HEADER_SIZE) with hshort | hroom
    · have hreach := le_reach_protoParse m scan.offset (bufferSize - scan.offset)
      refine iff_of_false ?_ fun hfit => absurd hfit.room (Nat.not_le_of_lt hshort)
      exact not_inside_of_read rfl (fun h => absurd h.1 (by omega))
        (fun _ _ hresult => le_of_short hlt.le hshort hresult) rounds
    rcases Nat.lt_or_ge bufferSize (headerEnd m scan.offset) with hlong | hend
    · rw [parseLoop_refused (protoParse_overlong hroom hlong) rfl]
      exact iff_of_true ((hsound.read hroom rfl).finish hlt.le) (.overlong hroom hlong)
    by_cases hoptions : hasOptions m scan.offset
    · rw [headersFit_options_iff hend hoptions]
      obtain ⟨hiff, haccepted⟩ := protoParse_options hend hoptions
      by_cases hfit : OptionsFit m bufferSize (headerEnd m scan.offset)
      · have hread := hsound.read (hiff.mpr hfit).1 (hiff.mpr hfit).2
        refine iff_of_true ?_ hfit
        cases hresult : (protoParse m scan.offset (bufferSize - scan.offset)).result with
        | none =>
          rw [parseLoop_refused rfl hresult]
          exact hread.finish hlt.le
        | some pair =>
          obtain ⟨hbody, hcursor⟩ := haccepted pair.1 pair.2 hresult
          rw [parseLoop_accepted rfl hresult, if_neg fun h => absurd h.2 hcursor.not_lt]
          exact (hread.accept (by rw [hbody]; exact hend)).finish hcursor.le
      · exact iff_of_false (not_inside_of_read rfl (fun h => hfit (hiff.mp h))
          (fun header offset' hresult => (haccepted header offset' hresult).2.ge) rounds) hfit
    · have hparsed := protoParse_plain hend hoptions
      have hread : (scan.read ⟨some (parseHeader m scan.offset, headerEnd m scan.offset),
          scan.offset + KCP_HEADER_SIZE, false⟩).Sound bufferSize := hsound.read hroom rfl
      rw [headersFit_plain_iff hend hoptions, parseLoop_accepted hparsed rfl]
      split
      case isTrue hmore =>
        have hlonger : scan.offset + KCP_HEADER_SIZE ≤ headerEnd m scan.offset :=
          Nat.le_add_right _ _
        refine Iff.trans (ih ?_ ?_ ?_) ⟨fun hfit _ => hfit, fun hnext => hnext hmore⟩
        · exact hread.accept hend
        · exact hmore.2
        · show bufferSize ≤ headerEnd m scan.offset + rounds
          have hpos : 0 < KCP_HEADER_SIZE := by decide
          omega
      case isFalse hmore =>
        exact iff_of_true ((hread.accept hend).finish hend) fun h => absurd h hmore

/-- A datagram is parsed inside its bounds exactly where it is one of the texts, shorter than a
header, or made of headers and options that are long enough. -/
theorem parse_inside (handle : σ → KcpProtoHeader → σ × Bool) (m : Nat → UInt8)
    (bufferSize : Nat) (s : σ) :
    (parsePacket handle m bufferSize s).Inside bufferSize ↔
      (isTextProbePacket (readMem m 0 bufferSize) = true ∨ bufferSize < KCP_HEADER_SIZE)
        ∨ HeadersFit handle m bufferSize s 0 := by
  rw [parsePacket]
  by_cases hskip : isTextProbePacket (readMem m 0 bufferSize) = true ∨ bufferSize < KCP_HEADER_SIZE
  · rw [if_pos hskip]
    refine iff_of_true ⟨Nat.zero_le _, Nat.zero_le _, ?_, rfl, rfl⟩ (.inl hskip)
    exact fun p hp => absurd hp List.not_mem_nil
  · rw [if_neg hskip, or_iff_right hskip]
    have hsound : ({ state := s, offset := 0 } : Scan σ).Sound bufferSize :=
      ⟨Nat.zero_le _, fun p hp => absurd hp List.not_mem_nil, rfl⟩
    have hlong := Nat.le_of_not_lt fun h => hskip (.inr h)
    have hpos : 0 < KCP_HEADER_SIZE := by decide
    exact parseLoop_inside hsound (hpos.trans_le hlong) (Nat.le_add_left _ _)

end Loop

/-- One header, and one byte of the next: all 32 of it are read. And an option that says it is
empty: four bytes are read all the same. -/
theorem parse_past_end :
    (parsePacket (fun s _ => (s, true)) (fun _ => 0) 33 ()).reach = 64
      ∧ ¬ (parsePacket (fun s _ => (s, true)) (fun _ => 0) 33 ()).Inside 33
      ∧ (parsePacket (fun s _ => (s, true))
        (fun a => if a = 4 then 0x11 else if a = 32 then 1 else 0)
          34 ()).reach = 38 := by
  refine ⟨by decide +kernel, fun hinside => ?_, by decide +kernel⟩
  exact absurd hinside.reads (by decide +kernel)

end Eular.Kcp
