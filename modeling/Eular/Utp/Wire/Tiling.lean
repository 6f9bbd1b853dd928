/-
What `PacketIn::decode` accepts: a header, and the payload it announces,
which is frames one behind another, each as long as `frameLength` says.
Nothing else is accepted, nothing of it is read twice or skipped, and a
packet has one reading.

Everything rests on `frameLength_append`: what follows a frame does not
matter to its length.
-/
import Eular.Utp.Wire.PacketIn

namespace Eular.Utp

open Lib

variable {f p rest : List UInt8} {t : FrameType} {n : Nat}

-- ==== one frame

theorem readBE16_append {k : Nat} (h : k + 2 ≤ f.length) :
    readBE16 (f ++ rest) k = readBE16 f k := by
  unfold readBE16
  rw [List.drop_append_of_le_length (by omega), List.take_append_of_le_length (by simp; omega)]

theorem getD_append {k : Nat} (h : k < f.length) : (f ++ rest).getD k 0 = f.getD k 0 :=
  List.getD_append _ _ _ _ h

theorem sizedFrame_append {hdrSize body body' : Nat} {short : String}
    (hbody : hdrSize ≤ f.length → body' = body) :
    sizedFrame (f ++ rest).length hdrSize body' short = .ok f.length
      ↔ sizedFrame f.length hdrSize body short = .ok f.length := by
  unfold sizedFrame
  rw [List.length_append]
  by_cases hshort : f.length < hdrSize
  · rw [if_pos hshort]
    split
    · simp
    · simp only [Except.ok.injEq, reduceCtorEq, iff_false]
      omega
  · rw [if_neg hshort, if_neg (by omega), hbody (by omega)]

theorem frameSize_append (t : FrameType) :
    frameSize (f ++ rest) t = .ok f.length ↔ frameSize f t = .ok f.length := by
  cases t with
  | padding => exact sizedFrame_append fun h => readBE16_append h
  | connectionClose => exact sizedFrame_append fun h => readBE16_append h
  | stream => exact sizedFrame_append fun h => readBE16_append (by omega)
  | sessionToken => exact sizedFrame_append fun h => by rw [getD_append (by omega)]
  | ack => exact sizedFrame_append fun h => by rw [getD_append (by omega)]
  | _ => exact Iff.rfl

theorem frameLength_eq_ok {b : UInt8} : frameLength (b :: p) = .ok (t, n) ↔
    FrameType.ofValue b.toNat = some t ∧ frameSize (b :: p) t = .ok n ∧ n ≤ (b :: p).length := by
  constructor
  · intro h
    unfold frameLength at h
    dsimp only at h
    split at h
    · cases h
    case h_2 htype =>
    split at h
    · cases h
    case h_2 hsize =>
    split at h
    · cases h
    case isFalse hfits =>
    cases h
    exact ⟨htype, hsize, Nat.le_of_not_lt hfits⟩
  · rintro ⟨htype, hsize, hle⟩
    unfold frameLength
    simp only [htype, hsize]
    rw [if_neg (Nat.not_lt_of_le hle)]

theorem frameLength_append (hf : f ≠ []) :
    frameLength (f ++ rest) = .ok (t, f.length) ↔ frameLength f = .ok (t, f.length) := by
  obtain ⟨b, p, rfl⟩ := List.exists_cons_of_ne_nil hf
  have hsize : frameSize (b :: p ++ rest) t = .ok (b :: p).length ↔ _ := frameSize_append t
  rw [List.cons_append] at hsize ⊢
  rw [frameLength_eq_ok, frameLength_eq_ok, hsize]
  simp only [List.length_cons, List.length_append, le_refl, and_true]
  exact and_congr_right fun _ => and_iff_left (by omega)

theorem frameSize_pos (h : frameSize p t = .ok n) : 0 < n := by
  unfold frameSize sizedFrame at h
  repeat' split at h
  all_goals cases h <;> omega

-- ==== the payload

/-- Each of these is a frame by itself. -/
def AreFrames (fs : List (FrameType × List UInt8)) : Prop :=
  ∀ f ∈ fs, frameLength f.2 = .ok (f.1, f.2.length)

theorem splitFrames_nil {fuel : Nat} {fs : List (FrameType × List UInt8)} :
    splitFrames fuel [] = some fs ↔ [] = (fs.map Prod.snd).flatten ∧ AreFrames fs := by
  rw [splitFrames, Option.some.injEq]
  constructor
  · rintro rfl
    exact ⟨rfl, fun _ h => nomatch h⟩
  · rintro ⟨hnil, hfs⟩
    cases fs with
    | nil => rfl
    | cons f fs =>
      have hf := hfs f List.mem_cons_self
      rw [(List.append_eq_nil_iff.mp hnil.symm).1] at hf
      cases hf

theorem splitFrames_eq_some {fuel : Nat} {payload : List UInt8}
    {fs : List (FrameType × List UInt8)} (hfuel : payload.length ≤ fuel) :
    splitFrames fuel payload = some fs ↔ payload = (fs.map Prod.snd).flatten ∧ AreFrames fs := by
  induction fuel generalizing payload fs with
  | zero =>
    obtain rfl := List.length_eq_zero_iff.mp (Nat.le_zero.mp hfuel)
    exact splitFrames_nil
  | succ fuel ih =>
  cases payload with
  | nil => exact splitFrames_nil
  | cons b p =>
  constructor
  · intro h
    rw [splitFrames] at h
    split at h
    · cases h
    case h_2 t n hlen =>
    split at h
    · cases h
    case h_2 fs hrest =>
    cases h
    obtain ⟨-, hsize, hle⟩ := frameLength_eq_ok.mp hlen
    have hpos := frameSize_pos hsize
    have htake : ((b :: p).take n).length = n := List.length_take_of_le hle
    have hshort : ((b :: p).drop n).length ≤ fuel := by
      rw [List.length_drop]
      omega
    obtain ⟨hdrop, hfs⟩ := (ih hshort).mp hrest
    refine ⟨?_, List.forall_mem_cons.mpr ⟨?_, hfs⟩⟩
    · rw [List.map_cons, List.flatten_cons, ← hdrop, List.take_append_drop]
    · have hne : (b :: p).take n ≠ [] := List.ne_nil_of_length_pos (htake.symm ▸ hpos)
      refine (frameLength_append hne).mp (?_ : frameLength (_ ++ (b :: p).drop n) = _)
      rw [List.take_append_drop, htake, hlen]
  · rintro ⟨hp, hfs⟩
    cases fs with
    | nil => cases hp
    | cons f fs =>
      obtain ⟨hf, hfs⟩ := List.forall_mem_cons.mp hfs
      rw [List.map_cons, List.flatten_cons] at hp
      have hne : f.2 ≠ [] := fun hnil => by rw [hnil] at hf; cases hf
      have hpos := List.length_pos_of_ne_nil hne
      have hlen : frameLength (f.2 ++ (fs.map Prod.snd).flatten) = .ok (f.1, f.2.length) :=
        (frameLength_append hne).mpr hf
      have hrest : splitFrames fuel (fs.map Prod.snd).flatten = some fs := by
        refine (ih ?_).mpr ⟨rfl, hfs⟩
        rw [hp, List.length_append] at hfuel
        omega
      rw [splitFrames, hp, hlen]
      dsimp only
      rw [List.drop_left, hrest, List.take_left]

-- ==== the packet

theorem bigEndian_field {bs : List UInt8} {offset w : Nat} (h : offset + w ≤ bs.length) :
    bigEndian w (field bs offset w) = (bs.drop offset).take w := by
  have hlen : ((bs.drop offset).take w).length = w := by simp; omega
  have hback := bigEndian_ofBigEndian ((bs.drop offset).take w)
  rwa [hlen] at hback

theorem field_lt (bs : List UInt8) (offset w : Nat) : field bs offset w < 256 ^ w :=
  (ofBigEndian_lt _).trans_le (Nat.pow_le_pow_right (by decide) (List.length_take_le _ _))

theorem exists_serialize {bs : List UInt8} (h : bs.length = UTP_HEADER_SIZE) :
    ∃ header : UTPHeaderProto, header.serialize = bs := by
  have hw : ∀ {offset w : Nat}, offset + w ≤ 20 →
      bigEndian w (field bs offset w) = (bs.drop offset).take w :=
    fun hle => bigEndian_field (hle.trans h.ge)
  refine ⟨⟨.ofNat (field bs 0 4), .ofNat (field bs 4 4), .ofNat (field bs 8 8),
    .ofNat (field bs 16 2), .ofNat (field bs 18 1), .ofNat (field bs 19 1)⟩, ?_⟩
  unfold UTPHeaderProto.serialize
  dsimp only
  rw [UInt32.toNat_ofNat_of_lt' (field_lt bs 0 4), UInt32.toNat_ofNat_of_lt' (field_lt bs 4 4),
    UInt64.toNat_ofNat_of_lt' (field_lt bs 8 8), UInt16.toNat_ofNat_of_lt' (field_lt bs 16 2),
    UInt8.toNat_ofNat_of_lt' (field_lt bs 18 1), UInt8.toNat_ofNat_of_lt' (field_lt bs 19 1),
    hw (by decide), hw (by decide), hw (by decide), hw (by decide), hw (by decide),
    hw (by decide), List.drop_zero, ← List.take_add, ← List.take_add, ← List.take_add,
    ← List.take_add, ← List.take_add]
  exact List.take_of_length_le h.le

/-- A datagram is accepted exactly when it is a header, the frames of the payload the header
announces, one behind another, and whatever follows: then these are what is read. -/
theorem PacketIn.decode_eq_some_iff (data : List UInt8) (p : PacketIn) :
    PacketIn.decode data = some p ↔ ∃ tail, data = p.header.serialize ++ p.payload ++ tail
      ∧ p.payload.length = p.header.payloadLength.toNat
      ∧ p.payload = (p.frames.map Prod.snd).flatten ∧ AreFrames p.frames := by
  have hframes : ∀ {payload fs}, Utp.frames payload = some fs ↔
      payload = (fs.map Prod.snd).flatten ∧ AreFrames fs := splitFrames_eq_some (le_refl _)
  constructor
  · intro h
    have hlong : UTP_HEADER_SIZE ≤ data.length := by
      by_contra hshort
      unfold PacketIn.decode parseHeader at h
      rw [if_pos (Nat.lt_of_not_le hshort)] at h
      cases h
    obtain ⟨header, hheader⟩ := exists_serialize (List.length_take_of_le hlong)
    obtain ⟨rest, rfl⟩ : ∃ rest, data = header.serialize ++ rest :=
      ⟨data.drop UTP_HEADER_SIZE, by rw [hheader, List.take_append_drop]⟩
    unfold PacketIn.decode at h
    rw [parseHeader_serialize] at h
    split at h
    · cases h
    case h_2 heq =>
    split at heq
    · cases heq
    case isFalse hfits =>
    cases heq
    dsimp only at h
    split at h
    · cases h
    case h_2 fs hfs =>
    cases h
    obtain ⟨hpayload, hall⟩ := hframes.mp hfs
    exact ⟨rest.drop header.payloadLength.toNat, by simp, by simp; omega, hpayload, hall⟩
  · rintro ⟨tail, rfl, hlen, hpayload, hall⟩
    unfold PacketIn.decode
    rw [List.append_assoc, parseHeader_serialize, if_neg (by simp; omega)]
    dsimp only
    rw [← hlen, List.take_left, hframes.mpr ⟨hpayload, hall⟩]

end Eular.Utp
