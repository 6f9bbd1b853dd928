/-
What a PUSH does to the receiving half (`on_kcp_push_pcaket`).

`onPush_cases` says once what can become of a PUSH: it lies beyond the
window, it was delivered before, the tree holds it, there is no memory for
it, or it is stored and the message at the head of the list may be handed
over. `advance` is where
`rcv_nxt` goes when a hole closes: past every number the tree holds in one
piece, and not further.
-/
import Eular.Kcp.Endpoint

namespace Eular.Kcp

namespace KcpReceiver

variable {r : KcpReceiver}

-- ==== what becomes of it

/-- The receiver that stores a new segment: its ACK item waits. -/
def accept (r : KcpReceiver) (p : KcpPush) (now : Nat) : KcpReceiver :=
  { r.segmentRecvGet with ackItem := r.ackItem ++ [KcpAck.mk p.sn p.psn now] }.store (segmentOf p)

theorem unread_segmentRecvGet (r : KcpReceiver) : r.segmentRecvGet.unread = r.unread := by
  unfold segmentRecvGet
  split <;> rfl

/-- Without memory a PUSH is passed over, as one is that is known. -/
theorem onPush_cases (r : KcpReceiver) (p : KcpPush) (now : Nat) (malloc : Malloc) :
    (r.windowEnd ≤ p.sn ∧ r.onPush p now malloc = (r, .tell))
      ∨ (p.sn < r.windowEnd ∧ (malloc = none → p.sn < r.rcvNxt)
          ∧ r.onPush p now malloc = (r, .nothing))
      ∨ (p.sn < r.windowEnd ∧ r.rcvNxt ≤ p.sn ∧ (malloc = none → p.sn ∈ r.rcvBuf)
          ∧ r.onPush p now malloc = (r.segmentRecvGet.segmentRecvPut, .nothing))
      ∨ (p.sn < r.windowEnd ∧ r.rcvNxt ≤ p.sn ∧ p.sn ∉ r.rcvBuf
          ∧ r.onPush p now malloc = (r.accept p now).handOver) := by
  have hget := unread_segmentRecvGet r
  simp only [unread, Prod.mk.injEq] at hget
  obtain ⟨-, -, -, hbuf, -, hack⟩ := hget
  have hgranted : ∀ requests, malloc.refuses requests = true → malloc ≠ none := by
    rintro requests h rfl
    cases h
  unfold onPush
  dsimp only
  by_cases hbeyond : r.windowEnd ≤ p.sn
  · exact .inl ⟨hbeyond, if_pos hbeyond⟩
  rw [if_neg hbeyond]
  refine .inr ?_
  by_cases hold : p.sn < r.rcvNxt
  · exact .inl ⟨by omega, fun _ => hold, if_pos hold⟩
  rw [if_neg hold]
  by_cases hfirst : malloc.refuses r.requests = true
  · exact .inl ⟨by omega, fun hnone => absurd hnone (hgranted _ hfirst), if_pos hfirst⟩
  rw [if_neg hfirst, hbuf, hack]
  by_cases hdup : p.sn ∈ r.rcvBuf
  · exact .inr (.inl ⟨by omega, by omega, fun _ => hdup, if_pos hdup⟩)
  rw [if_neg hdup]
  split
  case isTrue hnoAssembly =>
    rw [Bool.and_eq_true] at hnoAssembly
    exact .inr (.inl ⟨by omega, by omega,
      fun hnone => absurd hnone (hgranted _ hnoAssembly.2), rfl⟩)
  case isFalse =>
    refine .inr (.inr ⟨by omega, by omega, hdup, ?_⟩)
    rw [accept, ← hbuf]

-- ==== hand-over

/-- What a hand-over leaves alone. -/
def window (r : KcpReceiver) := (r.rcvNxt, r.rcvWnd, r.ackItem)

theorem window_foldl_moveFragment (fragments : List KcpSegment) (r : KcpReceiver) :
    (fragments.foldl moveFragment r).window = r.window := by
  induction fragments generalizing r with
  | nil => rfl
  | cons pos rest ih => rw [List.foldl_cons, ih]; rfl

theorem window_handOver (r : KcpReceiver) : r.handOver.1.window = r.window := by
  unfold handOver
  split
  · rfl
  · split
    · exact window_foldl_moveFragment _ r
    · rfl

theorem mem_rcvBuf_foldl_moveFragment {fragments : List KcpSegment} {n : Nat} :
    ∀ {r : KcpReceiver}, n ∈ (fragments.foldl moveFragment r).rcvBuf → n ∈ r.rcvBuf := by
  induction fragments with
  | nil => exact fun h => h
  | cons pos rest ih => exact fun h => List.mem_of_mem_erase (ih h)

theorem mem_rcvBuf_handOver {n : Nat} (h : n ∈ r.handOver.1.rcvBuf) : n ∈ r.rcvBuf := by
  unfold handOver at h
  split at h
  · exact h
  · split at h
    · exact mem_rcvBuf_foldl_moveFragment h
    · exact h

-- ==== advance

variable {rcvBuf : List Nat} {fuel nxt : Nat}

/-- `rcv_nxt` does not go back, and steps over numbers of the tree only. -/
theorem advance_spec (hfits : ∀ n ∈ rcvBuf, n + 1 < 2 ^ 32) (fuel nxt : Nat) :
    nxt ≤ advance rcvBuf fuel nxt
      ∧ ∀ n, nxt ≤ n → n < advance rcvBuf fuel nxt → n ∈ rcvBuf := by
  induction fuel generalizing nxt with
  | zero => exact ⟨le_refl _, fun n hle hlt => absurd hle (Nat.not_le_of_lt hlt)⟩
  | succ fuel ih =>
    rw [advance]
    by_cases hmem : nxt ∈ rcvBuf
    · rw [if_pos hmem, u32_of_lt (hfits nxt hmem)]
      obtain ⟨hle, hall⟩ := ih (nxt + 1)
      refine ⟨by omega, fun n hn hlt => ?_⟩
      by_cases heq : n = nxt
      · exact heq ▸ hmem
      · exact hall n (by omega) hlt
    · rw [if_neg hmem]
      exact ⟨le_refl _, fun n hle hlt => absurd hle (Nat.not_le_of_lt hlt)⟩

theorem advance_lt (hfits : ∀ n ∈ rcvBuf, n + 1 < 2 ^ 32) (hnxt : nxt < 2 ^ 32) :
    advance rcvBuf fuel nxt < 2 ^ 32 := by
  induction fuel generalizing nxt with
  | zero => exact hnxt
  | succ fuel ih =>
    rw [advance]
    split
    case isTrue hmem => exact ih (by rw [u32_of_lt (hfits nxt hmem)]; exact hfits nxt hmem)
    case isFalse => exact hnxt

-- ==== fit

/-- The numbers are those of a 32-bit field, and none in the tree is the
last of them. -/
structure Fits (r : KcpReceiver) : Prop where
  nxt : r.rcvNxt < 2 ^ 32
  buf : ∀ n ∈ r.rcvBuf, n + 1 < 2 ^ 32

theorem windowEnd_lt (r : KcpReceiver) : r.windowEnd < 2 ^ 32 := by
  unfold windowEnd u32OfInt
  omega

theorem Fits.store (h : r.Fits) {segment : KcpSegment} (hsn : segment.sn + 1 < 2 ^ 32) :
    (r.store segment).Fits ∧ r.rcvNxt ≤ (r.store segment).rcvNxt := by
  have hbuf : ∀ n ∈ segment.sn :: r.rcvBuf, n + 1 < 2 ^ 32 :=
    List.forall_mem_cons.mpr ⟨hsn, h.buf⟩
  unfold KcpReceiver.store
  dsimp only
  split
  case isTrue heq =>
    have hnext : u32 (r.rcvNxt + 1) = r.rcvNxt + 1 := u32_of_lt (by omega)
    refine ⟨⟨advance_lt hbuf (by rw [hnext]; omega), hbuf⟩, ?_⟩
    have hle := (advance_spec hbuf (segment.sn :: r.rcvBuf).length (u32 (r.rcvNxt + 1))).1
    show r.rcvNxt ≤ advance _ _ _
    omega
  case isFalse => exact ⟨⟨h.nxt, hbuf⟩, le_refl _⟩

theorem Fits.handOver (h : r.Fits) : r.handOver.1.Fits := by
  have hwindow := window_handOver r
  simp only [window, Prod.mk.injEq] at hwindow
  exact ⟨by rw [hwindow.1]; exact h.nxt, fun n hn => h.buf n (mem_rcvBuf_handOver hn)⟩

theorem Fits.of_unread {r' : KcpReceiver} (h : r.Fits) (heq : r'.unread = r.unread) : r'.Fits := by
  simp only [unread, Prod.mk.injEq] at heq
  obtain ⟨hnxt, -, -, hbuf, -, -⟩ := heq
  exact ⟨by rw [hnxt]; exact h.nxt, by rw [hbuf]; exact h.buf⟩

theorem accept_spec (h : r.Fits) {p : KcpPush} (now : Nat) (hwindow : p.sn < r.windowEnd) :
    (r.accept p now).Fits ∧ r.rcvNxt ≤ (r.accept p now).rcvNxt
      ∧ (r.accept p now).ackItem = r.ackItem ++ [⟨p.sn, p.psn, now⟩] := by
  have hget := unread_segmentRecvGet r
  simp only [unread, Prod.mk.injEq] at hget
  have hlt := windowEnd_lt r
  have hfits : Fits { r.segmentRecvGet with ackItem := r.ackItem ++ [KcpAck.mk p.sn p.psn now] } :=
    ⟨by rw [hget.1]; exact h.nxt, fun n hn => h.buf n (hget.2.2.2.1 ▸ hn)⟩
  obtain ⟨hstored, hle⟩ := hfits.store (show (segmentOf p).sn + 1 < 2 ^ 32 by
    show p.sn + 1 < 2 ^ 32
    omega)
  refine ⟨hstored, ?_, rfl⟩
  calc r.rcvNxt = r.segmentRecvGet.rcvNxt := hget.1.symm
    _ ≤ (r.accept p now).rcvNxt := hle

end KcpReceiver

end Eular.Kcp
