/-
The ids of a context's connections are distinct as long as the bitmap has a
bit for each.

It has none for the last number `kcp_random(1, KCP_BITMAP_SIZE)` can give:
that one reads as free for ever, and is not marked when it is handed out.
Apart from it the bits are the live ids (`Inv`), and all that is claimed of
them follows. `kcp_alloc_local_scid` never reports `NO_MORE_CONV`: what it
compares with the size of the bitmap leaves out the last bits, so that a full
bitmap is reported as a conflict.
-/
import Eular.Kcp.ConnectionIds

namespace Eular.Kcp

open Lib

namespace IdContext

variable {c : IdContext}
variable {scid : Nat} {values : List Nat}

/-- No draw is the number the bitmap has no bit for, unless the context has taken it itself. -/
def InRange (c : IdContext) : IdOp → Prop
  | .accept _ value₀ value₁ value₂ _ | .connect _ _ value₀ value₁ value₂ _ =>
    c.connectionId = KCP_BITMAP_SIZE
      ∨ ∀ value ∈ [value₀, value₁, value₂], kcpRandom 1 KCP_BITMAP_SIZE value ≠ KCP_BITMAP_SIZE
  | .destroy _ => True

structure Inv (c : IdContext) : Prop where
  size_eq : c.convBitmap.size = KCP_BITMAP_SIZE
  nodup : c.live.Nodup
  bits : ∀ i, c.convBitmap.get i = true ↔ i ∈ c.live
  ne_zero : 0 ∉ c.live
  ne_connectionId : c.connectionId ∉ c.live

-- ==== allocation

variable (value : Nat)

theorem kcpRandom_bounds :
    1 ≤ kcpRandom 1 KCP_BITMAP_SIZE value
      ∧ kcpRandom 1 KCP_BITMAP_SIZE value ≤ KCP_BITMAP_SIZE := by
  have hrandom : kcpRandom 1 KCP_BITMAP_SIZE value = 1 + value % 65535 := rfl
  have hlt := Nat.mod_lt value (show 65535 > 0 by decide)
  have hsize : KCP_BITMAP_SIZE = 65535 := rfl
  omega

theorem u16_kcpRandom :
    u16 (kcpRandom 1 KCP_BITMAP_SIZE value) = kcpRandom 1 KCP_BITMAP_SIZE value :=
  u16_of_lt (Nat.lt_of_le_of_lt (kcpRandom_bounds value).2 (by decide))

theorem allocLocalScid_eq (hsize : c.convBitmap.size = KCP_BITMAP_SIZE) (values : List Nat) :
    c.allocLocalScid values = c.drawScid values := by
  have hcount := c.convBitmap.count_le
  rw [hsize] at hcount
  have hbytes : 8 * (KCP_BITMAP_SIZE / BITS_PEER_BYTE) = 65528 := by decide
  rw [allocLocalScid, if_neg]
  rw [hsize]
  have hlast : KCP_BITMAP_SIZE = 65535 := rfl
  omega

theorem of_drawScid (hdrawn : c.drawScid values = .ok scid) :
    (∃ value ∈ values, kcpRandom 1 KCP_BITMAP_SIZE value = scid) ∧ scid ≠ c.connectionId
      ∧ c.convBitmap.get scid = false := by
  induction values with
  | nil => cases hdrawn
  | cons value values ih =>
    rw [drawScid, u16_kcpRandom] at hdrawn
    split at hdrawn
    · obtain ⟨⟨v, hv, heq⟩, hrest⟩ := ih hdrawn
      exact ⟨⟨v, List.mem_cons_of_mem _ hv, heq⟩, hrest⟩
    split at hdrawn
    · obtain ⟨⟨v, hv, heq⟩, hrest⟩ := ih hdrawn
      exact ⟨⟨v, List.mem_cons_of_mem _ hv, heq⟩, hrest⟩
    · rename_i hne hfree
      rw [← ScidResult.ok.inj hdrawn]
      exact ⟨⟨value, List.mem_cons_self, rfl⟩, hne, Bool.eq_false_iff.mpr hfree⟩

-- ==== steps

theorem release_zero (c : IdContext) : c.release 0 = c := if_neg fun h => h.1 rfl

theorem lt_of_get {b : Bitmap} {i : Nat} (hget : b.get i = true) : i < b.size := by
  rw [Bitmap.get] at hget
  split at hget
  · cases hget
  · rename_i hlt
    exact Nat.lt_of_not_le hlt

theorem get_release (c : IdContext) (hscid : scid ≠ 0) (i : Nat) :
    (c.release scid).convBitmap.get i = if i = scid then false else c.convBitmap.get i := by
  rw [release]
  by_cases hget : c.convBitmap.get scid = true
  · rw [if_pos ⟨hscid, hget⟩]
    show (c.convBitmap.set scid false).get i = _
    have hboth : (i = scid ∧ scid < c.convBitmap.size) ↔ i = scid := and_iff_left (lt_of_get hget)
    rw [Bitmap.get_set]
    simp only [hboth]
  · rw [if_neg fun h => hget h.2]
    split
    · rename_i heq
      rw [heq]
      exact Bool.eq_false_iff.mpr hget
    · rfl

@[simp] theorem live_release (c : IdContext) (scid : Nat) : (c.release scid).live = c.live := by
  rw [release]
  split <;> rfl

@[simp] theorem connectionId_release (c : IdContext) (scid : Nat) :
    (c.release scid).connectionId = c.connectionId := by
  rw [release]
  split <;> rfl

@[simp] theorem size_release (c : IdContext) (scid : Nat) :
    (c.release scid).convBitmap.size = c.convBitmap.size := by
  rw [release]
  split
  · exact Bitmap.size_set _ _ _
  · rfl

theorem Inv.mark (hinv : Inv c) (hlt : scid < KCP_BITMAP_SIZE) (hzero : scid ≠ 0)
    (hne : scid ≠ c.connectionId) (hfree : scid ∉ c.live) :
    Inv { c with convBitmap := c.convBitmap.set scid true, live := c.live ++ [scid] }
      ∧ Inv ({ c with convBitmap := c.convBitmap.set scid true }.release scid) := by
  have hget (i : Nat) : (c.convBitmap.set scid true).get i
      = if i = scid then true else c.convBitmap.get i := by
    have hboth : (i = scid ∧ scid < c.convBitmap.size) ↔ i = scid :=
      and_iff_left (hinv.size_eq ▸ hlt)
    rw [Bitmap.get_set]
    simp only [hboth]
  refine ⟨⟨?_, ?_, ?_, ?_, ?_⟩, ⟨?_, ?_, ?_, ?_, ?_⟩⟩
  · exact (Bitmap.size_set _ _ _).trans hinv.size_eq
  · exact hinv.nodup.append (List.nodup_singleton scid)
      (List.disjoint_singleton.mpr hfree)
  · intro i
    show (c.convBitmap.set scid true).get i = true ↔ i ∈ c.live ++ [scid]
    rw [hget, List.mem_append, List.mem_singleton, ← hinv.bits]
    split
    · rename_i heq
      exact iff_of_true rfl (.inr heq)
    · rename_i hother
      exact (or_iff_left hother).symm
  · intro hmem
    obtain hmem | hmem := List.mem_append.mp hmem
    · exact hinv.ne_zero hmem
    · exact hzero (List.mem_singleton.mp hmem).symm
  · intro hmem
    obtain hmem | hmem := List.mem_append.mp hmem
    · exact hinv.ne_connectionId hmem
    · exact hne (List.mem_singleton.mp hmem).symm
  · rw [size_release]
    exact (Bitmap.size_set _ _ _).trans hinv.size_eq
  · rw [live_release]
    exact hinv.nodup
  · intro i
    rw [get_release _ hzero, live_release]
    show (if i = scid then false else (c.convBitmap.set scid true).get i) = true ↔ i ∈ c.live
    rw [hget]
    split
    · rename_i heq
      exact iff_of_false Bool.false_ne_true (heq ▸ hfree)
    · exact hinv.bits i
  · rw [live_release]
    exact hinv.ne_zero
  · rw [live_release, connectionId_release]
    exact hinv.ne_connectionId

theorem inv_establish (hinv : Inv c) {inserted completed : Bool}
    (hrange : c.connectionId = KCP_BITMAP_SIZE
      ∨ ∀ value ∈ values, kcpRandom 1 KCP_BITMAP_SIZE value ≠ KCP_BITMAP_SIZE) :
    Inv (c.establish inserted values completed) := by
  rw [establish]
  split
  · rw [allocLocalScid_eq hinv.size_eq]
    split
    · rename_i scid hdrawn
      obtain ⟨⟨value, hvalue, heq⟩, hne, hfree⟩ := of_drawScid hdrawn
      obtain ⟨hpos, hle⟩ := kcpRandom_bounds value
      rw [heq] at hpos hle
      have hlast : scid ≠ KCP_BITMAP_SIZE := by
        rintro rfl
        obtain htaken | hnone := hrange
        · exact hne htaken.symm
        · exact hnone value hvalue heq
      have hnot : scid ∉ c.live := by
        rw [← hinv.bits, hfree]
        exact Bool.false_ne_true
      obtain ⟨hlive, hreleased⟩ :=
        hinv.mark (Nat.lt_of_le_of_ne hle hlast) (Nat.ne_of_gt hpos) hne hnot
      dsimp only
      split
      · exact hlive
      · exact hreleased
    · rw [release_zero]
      exact hinv
  · rw [release_zero]
    exact hinv

theorem inv_destroy (hinv : Inv c) (i : Nat) : Inv (c.destroy i) := by
  rw [destroy]
  split
  · exact hinv
  · rename_i scid hget
    have hmem : scid ∈ c.live := List.mem_of_getElem? hget
    have hzero : scid ≠ 0 := fun h => hinv.ne_zero (h ▸ hmem)
    have hlive (j : Nat) : j ∈ c.live.eraseIdx i ↔ j ≠ scid ∧ j ∈ c.live := by
      obtain ⟨hi, heq⟩ := List.getElem?_eq_some_iff.mp hget
      rw [← hinv.nodup.erase_getElem i hi, heq, hinv.nodup.mem_erase_iff]
    refine ⟨?_, ?_, ?_, ?_, ?_⟩
    · rw [size_release]
      exact hinv.size_eq
    · rw [live_release]
      exact hinv.nodup.sublist (List.eraseIdx_sublist _ _)
    · intro j
      rw [get_release _ hzero, live_release]
      show (if j = scid then false else c.convBitmap.get j) = true ↔ j ∈ c.live.eraseIdx i
      rw [hlive]
      split
      · rename_i heq
        exact iff_of_false Bool.false_ne_true fun h => h.1 heq
      · rename_i hne
        exact (hinv.bits j).trans (and_iff_right hne).symm
    · rw [live_release]
      exact fun h => hinv.ne_zero ((hlive 0).mp h).2
    · rw [live_release, connectionId_release]
      exact fun h => hinv.ne_connectionId ((hlive _).mp h).2

theorem inv_step (hinv : Inv c) {op : IdOp} (hrange : c.InRange op) : Inv (c.step op) := by
  cases op with
  | accept inserted value₀ value₁ value₂ completed => exact inv_establish hinv hrange
  | connect first inserted value₀ value₁ value₂ completed =>
    rw [step, connect]
    split
    · exact inv_establish hinv hrange
    · exact hinv
  | destroy i => exact inv_destroy hinv i

-- ==== runs

/-- What is promised of the ids. -/
structure IdsUnique (c : IdContext) : Prop where
  distinct : c.live.Nodup
  ne_zero : 0 ∉ c.live
  ne_connectionId : c.connectionId ∉ c.live
  bits : ∀ i, c.convBitmap.get i = true ↔ i ∈ c.live
  again : ∀ i scid, c.live[i]? = some scid → ∀ value values,
    kcpRandom 1 KCP_BITMAP_SIZE value = scid →
      (c.destroy i).allocLocalScid (value :: values) = .ok scid
  exhausted : ∀ values, c.allocLocalScid values = .NO_MORE_CONV →
    ∀ scid, 1 ≤ scid → scid ≤ KCP_BITMAP_SIZE → scid = c.connectionId ∨ scid ∈ c.live

theorem drawScid_ne (values : List Nat) : c.drawScid values ≠ .NO_MORE_CONV := by
  induction values with
  | nil => exact nofun
  | cons value values ih =>
    rw [drawScid]
    split
    · exact ih
    split
    · exact ih
    · exact nofun

theorem Inv.idsUnique (hinv : Inv c) : IdsUnique c := by
  refine ⟨hinv.nodup, hinv.ne_zero, hinv.ne_connectionId, hinv.bits, ?_, ?_⟩
  · intro i scid hget value values hvalue
    have hmem : scid ∈ c.live := List.mem_of_getElem? hget
    have hzero : scid ≠ 0 := fun h => hinv.ne_zero (h ▸ hmem)
    have hid : scid ≠ (c.destroy i).connectionId := by
      rw [destroy, hget]
      dsimp only
      rw [connectionId_release]
      exact fun h => hinv.ne_connectionId (h ▸ hmem)
    have hfree : ¬ (c.destroy i).convBitmap.get scid = true := by
      rw [destroy, hget]
      dsimp only
      rw [get_release _ hzero, if_pos rfl]
      exact Bool.false_ne_true
    rw [allocLocalScid_eq (inv_destroy hinv i).size_eq, drawScid, u16_kcpRandom, hvalue,
      if_neg hid, if_neg hfree]
  · intro values hnone
    rw [allocLocalScid_eq hinv.size_eq] at hnone
    exact absurd hnone (drawScid_ne values)

theorem inv_start : Inv (start value) := by
  refine ⟨rfl, List.nodup_nil, fun i => ?_, List.not_mem_nil, List.not_mem_nil⟩
  refine iff_of_false ?_ List.not_mem_nil
  rw [Bitmap.get]
  split
  · exact Bool.false_ne_true
  · show ¬ ((0 : UInt8) &&& bitMask i != 0) = true
    rw [UInt8.zero_and]
    decide

/-- In a run that never draws the number without a bit the ids are as they are to be. -/
theorem connection_ids (ops : List IdOp)
    (hrange : Meets step InRange (start value) ops) :
    IdsUnique (run step (start value) ops) := by
  have hinv : Inv (run step (start value) ops) :=
    run_inv (P := Inv) (fun _ _ hinv hop => inv_step hinv hop) (inv_start value) hrange
  exact hinv.idsUnique

/-- Two connections, of which the second is destroyed. -/
theorem connection_ids_three :
    IdsUnique (run step (start 9) [.accept true 4 4 4 true, .accept true 4 6 6 true, .destroy 0]) :=
  connection_ids 9 _ ⟨.inr (by decide), .inr (by decide), trivial, trivial⟩

theorem establish_drawn
    (hsize : c.convBitmap.size = KCP_BITMAP_SIZE) (hdrawn : c.drawScid values = .ok scid) :
    c.establish true values true
      = { c with convBitmap := c.convBitmap.set scid true, live := c.live ++ [scid] } := by
  rw [establish, if_pos rfl, allocLocalScid_eq hsize, hdrawn]
  rfl

/-- Two connections that both draw the last id. -/
theorem lastId_twice :
    (run step (start 0) [.accept true 65534 0 0 true, .accept true 65534 0 0 true]).live
        = [65535, 65535]
      ∧ ¬ IdsUnique
        (run step (start 0) [.accept true 65534 0 0 true, .accept true 65534 0 0 true]) := by
  have hlive : (run step (start 0)
      [.accept true 65534 0 0 true, .accept true 65534 0 0 true]).live = [65535, 65535] := by
    have hfirst : (start 0).drawScid [65534, 0, 0] = .ok 65535 := by decide +kernel
    have hstate := establish_drawn rfl hfirst
    have hsize : ((start 0).establish true [65534, 0, 0] true).convBitmap.size
        = KCP_BITMAP_SIZE := by
      rw [hstate]
      exact Bitmap.size_set _ _ _
    have hsecond : ((start 0).establish true [65534, 0, 0] true).drawScid [65534, 0, 0]
        = .ok 65535 := by
      rw [hstate]
      decide +kernel
    rw [run_cons, run_cons, run_nil, step, step, accept, accept, establish_drawn hsize hsecond,
      hstate]
    rfl
  refine ⟨hlive, fun hunique => ?_⟩
  have hnodup := hunique.distinct
  rw [hlive] at hnodup
  exact absurd hnodup (by decide)

end IdContext

end Eular.Kcp
