/-
Tokens come through, as long as none is cut off.

`Framed` is the invariant: the bytes between the two ends are the tokens
sent and not yet decoded, and behind them the part of one token that a call
of `notify` in progress has written. A call that fails in the middle of its
token, or writes between the parts of another's, breaks it, and from there
on every token is read out of place. `Clean` is the condition that no step
does so, and that no generation is given out that a token under way
carries.
-/
import Eular.Libevent.Async

namespace Eular.Libevent

open Lib

-- ==== tokens

theorem u32Of_u32Bytes (n : UInt32) : u32Of (u32Bytes n) = n := by
  apply UInt32.toNat_inj.1
  have hn := n.toNat_lt
  simp only [u32Of, u32Bytes, List.foldr_cons, List.foldr_nil, UInt32.toNat_ofNat',
    UInt32.toNat_toUInt8, UInt32.toNat_shiftRight, Nat.shiftRight_eq_div_pow]
  simp
  omega

/-- Tokens as frames of a stream. -/
def tokenCodec : Codec AsyncToken UInt8 where
  width := tokenSize
  encode := tokenBytes
  decode := tokenOf
  width_pos := by decide
  length_encode _ := rfl
  decode_encode token := by
    show AsyncToken.mk (u32Of (u32Bytes token.id)) (u32Of (u32Bytes token.generation)) = token
    rw [u32Of_u32Bytes, u32Of_u32Bytes]

theorem popTokens_eq (buffer : List UInt8) {fuel offset : Nat}
    (h : buffer.length ≤ offset + fuel) :
    (popTokens buffer fuel offset).1 = tokenCodec.frames (buffer.drop offset) ∧
      buffer.drop (popTokens buffer fuel offset).2 = tokenCodec.leftover (buffer.drop offset) := by
  induction fuel generalizing offset with
  | zero =>
    have hshort : (buffer.drop offset).length < tokenCodec.width := by
      rw [List.length_drop]
      show _ < 8
      omega
    exact ⟨(tokenCodec.frames_short hshort).symm, (tokenCodec.leftover_short hshort).symm⟩
  | succ fuel ih =>
    by_cases hend : buffer.length < offset + tokenSize
    · have hshort : (buffer.drop offset).length < tokenCodec.width := by
        rw [List.length_drop]
        show _ < 8
        unfold tokenSize at hend
        omega
      simp only [popTokens, popOneAsyncToken, if_pos hend]
      exact ⟨(tokenCodec.frames_short hshort).symm, (tokenCodec.leftover_short hshort).symm⟩
    · have hlong : tokenCodec.width ≤ (buffer.drop offset).length := by
        rw [List.length_drop]
        show 8 ≤ _
        unfold tokenSize at hend
        omega
      have hfuel : buffer.length ≤ offset + tokenSize + fuel := by
        unfold tokenSize
        omega
      have hnext := ih hfuel
      simp only [popTokens, popOneAsyncToken, if_neg hend]
      rw [tokenCodec.frames_long hlong, tokenCodec.leftover_long hlong, List.drop_drop]
      exact ⟨congrArg _ hnext.1, hnext.2⟩

-- ==== condition

namespace EventAsync

variable {C T : Type}
variable {call : NotifyCall}

/-- The tokens between the two ends: what would be popped of all the bytes
there. -/
def underWay (s : EventAsync C T) : List AsyncToken :=
  let bytes := s.recvBuffer ++ s.socket
  (popTokens bytes bytes.length 0).1

/-- The call has nothing of its token sent. -/
def NotifyCall.Whole (call : NotifyCall) : Prop :=
  call.left = tokenBytes call.token

/-- A call of `notify` does not fail in the middle of its token and writes
nothing while another is in the middle of its own; a strict registration
gets no generation that a token under way has with its id. -/
def Clean (s : EventAsync C T) : AsyncOp C T → Prop
  | .send t 0 => ∀ call, s.calls t = some call → NotifyCall.Whole call
  | .send t (_ + 1) =>
    s.calls t ≠ none → ∀ u, u ≠ t → ∀ call, s.calls u = some call → NotifyCall.Whole call
  | .addAsync id (some _) .strictIsolation =>
    s.asyncSnapshot id = none → ⟨id, s.nextGeneration⟩ ∉ s.underWay
  | _ => True

/-- What is behind the last whole token is what one call has sent of its
own, and every other call has sent nothing. -/
def Midway (calls : T → Option NotifyCall) (part : List UInt8) : Prop :=
  (part = [] ∧ ∀ t call, calls t = some call → NotifyCall.Whole call) ∨
    ∃ t call, calls t = some call ∧ tokenBytes call.token = part ++ call.left ∧
      part ≠ [] ∧ call.left ≠ [] ∧
      ∀ u, u ≠ t → ∀ other, calls u = some other → NotifyCall.Whole other

variable {calls : T → Option NotifyCall} {part : List UInt8}

theorem Midway.short (h : Midway calls part) : part.length < tokenCodec.width := by
  rcases h with ⟨rfl, -⟩ | ⟨t, call, -, hbytes, -, hleft, -⟩
  · exact tokenCodec.width_pos
  · have hlen := congrArg List.length hbytes
    have hpos := List.length_pos_iff.2 hleft
    rw [List.length_append, show (tokenBytes call.token).length = tokenCodec.width from rfl] at hlen
    omega

variable {t : T}

theorem Midway.begin [DecidableEq T] (h : Midway calls part)
    (hidle : calls t = none) (token : AsyncToken) :
    Midway (Function.update calls t (some ⟨token, tokenBytes token⟩)) part := by
  have hwhole : ∀ {u call}, Function.update calls t (some ⟨token, tokenBytes token⟩) u = some call →
      (calls u = some call → NotifyCall.Whole call) → NotifyCall.Whole call := by
    intro u call hcall hold
    by_cases hu : u = t
    · subst hu
      rw [Function.update_self] at hcall
      cases hcall
      rfl
    · rw [Function.update_of_ne hu] at hcall
      exact hold hcall
  rcases h with ⟨hpart, hall⟩ | ⟨v, call, hcall, hbytes, hpart, hleft, hothers⟩
  · exact Or.inl ⟨hpart, fun u call hcall => hwhole hcall (hall u call)⟩
  · have hv : v ≠ t := fun heq => by
      rw [heq, hidle] at hcall
      cases hcall
    refine Or.inr ⟨v, call, ?_, hbytes, hpart, hleft, fun u hu other hother =>
      hwhole hother (hothers u hu other)⟩
    rw [Function.update_of_ne hv]
    exact hcall

theorem NotifyCall.Whole.part_nil (h : NotifyCall.Whole call)
    (hbytes : tokenBytes call.token = part ++ call.left) : part = [] := by
  rw [h] at hbytes
  exact List.self_eq_append_left.1 hbytes

theorem Midway.current (h : Midway calls part)
    (hcall : calls t = some call)
    (hothers : ∀ u, u ≠ t → ∀ call, calls u = some call → NotifyCall.Whole call) :
    tokenBytes call.token = part ++ call.left ∧ call.left ≠ [] := by
  rcases h with ⟨rfl, hall⟩ | ⟨v, other, hother, hbytes, hpart, hleft, -⟩
  · have hwhole : call.left = tokenBytes call.token := hall t call hcall
    rw [hwhole]
    exact ⟨rfl, fun hnil => nomatch hnil⟩
  · by_cases hv : v = t
    · subst hv
      obtain rfl : other = call := Option.some_inj.1 (hother.symm.trans hcall)
      exact ⟨hbytes, hleft⟩
    · exact absurd ((hothers v hv other hother).part_nil hbytes) hpart

theorem Midway.fail [DecidableEq T] (h : Midway calls part)
    (hwhole : ∀ call, calls t = some call → NotifyCall.Whole call) :
    Midway (Function.update calls t none) part := by
  have hkept : ∀ {u call}, Function.update calls t none u = some call → calls u = some call := by
    intro u call hcall
    by_cases hu : u = t
    · subst hu
      rw [Function.update_self] at hcall
      cases hcall
    · rwa [Function.update_of_ne hu] at hcall
  rcases h with ⟨hpart, hall⟩ | ⟨v, call, hcall, hbytes, hpart, hleft, hothers⟩
  · exact Or.inl ⟨hpart, fun u call hcall => hall u call (hkept hcall)⟩
  · have hv : v ≠ t := fun heq => by
      subst heq
      exact hpart ((hwhole call hcall).part_nil hbytes)
    refine Or.inr ⟨v, call, ?_, hbytes, hpart, hleft, fun u hu other hother =>
      hothers u hu other (hkept hother)⟩
    rw [Function.update_of_ne hv]
    exact hcall

theorem midway_complete [DecidableEq T]
    (hothers : ∀ u, u ≠ t → ∀ call, calls u = some call → NotifyCall.Whole call) :
    Midway (Function.update calls t none) [] := by
  refine Or.inl ⟨rfl, fun u other hother => ?_⟩
  by_cases hu : u = t
  · subst hu
    rw [Function.update_self] at hother
    cases hother
  · rw [Function.update_of_ne hu] at hother
    exact hothers u hu other hother

theorem midway_progress [DecidableEq T] {n : Nat}
    (hbytes : tokenBytes call.token = part ++ call.left) (hleft : call.left ≠ [])
    (hmore : call.left.drop (n + 1) ≠ [])
    (hothers : ∀ u, u ≠ t → ∀ call, calls u = some call → NotifyCall.Whole call) :
    Midway (Function.update calls t (some { call with left := call.left.drop (n + 1) }))
      (part ++ call.left.take (n + 1)) := by
  refine Or.inr ⟨t, { call with left := call.left.drop (n + 1) }, Function.update_self .., ?_, ?_,
    hmore, ?_⟩
  · show tokenBytes call.token = _ ++ _
    rw [List.append_assoc, List.take_append_drop]
    exact hbytes
  · simp [hleft]
  · intro u hu other hother
    rw [Function.update_of_ne hu] at hother
    exact hothers u hu other hother

end EventAsync

-- ==== invariant

namespace Watched

open EventAsync

variable {C T : Type} {w : Watched C T}

/-- A registration that is strict answers no token that was sent before it
and is still to be decoded. -/
def Isolated (w : Watched C T) : Prop :=
  ∀ id slot, w.async.asyncSnapshot id = some slot → slot.mode = .strictIsolation →
    w.since id ≤ w.sent.length ∧
      ∀ k, w.decoded.length ≤ k → k < w.since id → w.sent[k]? ≠ some ⟨id, slot.generation⟩

/-- The tokens `queued` are under way, and `part` of one more. -/
structure Framed (w : Watched C T) (queued : List AsyncToken) (part : List UInt8) : Prop where
  stream : w.async.recvBuffer ++ w.async.socket = tokenCodec.encoded queued ++ part
  midway : Midway w.async.calls part
  sent : w.sent = w.decoded ++ queued
  isolated : w.Isolated
  runs : ∀ r ∈ w.runs, r.mode = .strictIsolation → r.since ≤ r.index

theorem Framed.underWay {queued : List AsyncToken} {part : List UInt8} (h : w.Framed queued part) :
    w.async.underWay = queued := by
  have hpop := (popTokens_eq (w.async.recvBuffer ++ w.async.socket) (Nat.le_add_left _ 0)).1
  unfold EventAsync.underWay
  rw [hpop, List.drop_zero, h.stream]
  exact tokenCodec.frames_encoded queued h.midway.short

theorem framed_new : ({} : Watched C T).Framed [] [] where
  stream := rfl
  midway := Or.inl ⟨rfl, fun _ _ h => nomatch h⟩
  sent := rfl
  isolated _ _ h := nomatch h
  runs _ h := nomatch h

-- ==== steps

theorem Isolated.append (h : w.Isolated) {async : EventAsync C T}
    (hmap : async.asyncSnapshot = w.async.asyncSnapshot) (token : AsyncToken) :
    ({ w with async := async, sent := w.sent ++ [token] } : Watched C T).Isolated := by
  intro id slot hslot hmode
  rw [hmap] at hslot
  obtain ⟨hsince, hfree⟩ := h id slot hslot hmode
  refine ⟨?_, fun k hk hlt => ?_⟩
  · rw [List.length_append]
    exact Nat.le_add_right_of_le hsince
  · have hk' : k < w.sent.length := Nat.lt_of_lt_of_le hlt hsince
    rw [List.getElem?_append_left hk']
    exact hfree k hk hlt

theorem mem_runsFor {index : Nat} {tokens : List AsyncToken} {r : CallbackRun C}
    (h : r ∈ w.runsFor index tokens) :
    ∃ k token slot, tokens[k]? = some token ∧ slotFor w.async.asyncSnapshot token = some slot ∧
      r = ⟨slot.cb, token.id, index + k, slot.mode, w.since token.id⟩ := by
  induction tokens generalizing index with
  | nil => exact nomatch h
  | cons token tokens ih =>
    have hlater : r ∈ w.runsFor (index + 1) tokens →
        ∃ k other slot, (token :: tokens)[k]? = some other ∧
          slotFor w.async.asyncSnapshot other = some slot ∧
          r = ⟨slot.cb, other.id, index + k, slot.mode, w.since other.id⟩ := by
      intro hr
      obtain ⟨k, other, slot, hat, hslot, rfl⟩ := ih hr
      exact ⟨k + 1, other, slot, by simpa using hat, hslot, by rw [Nat.add_right_comm]; rfl⟩
    cases hslot : slotFor w.async.asyncSnapshot token with
    | none =>
      simp only [runsFor, hslot] at h
      exact hlater h
    | some slot =>
      simp only [runsFor, hslot] at h
      rcases List.mem_cons.1 h with rfl | hr
      · exact ⟨0, token, slot, rfl, hslot, rfl⟩
      · exact hlater hr

theorem slotFor_eq_some {snapshot : AsyncMap C} {token : AsyncToken} {slot : AsyncSlot C}
    (h : slotFor snapshot token = some slot) :
    snapshot token.id = some slot ∧
      (slot.mode = .strictIsolation → token = ⟨token.id, slot.generation⟩) := by
  unfold slotFor at h
  cases hid : snapshot token.id with
  | none =>
    rw [hid] at h
    cases h
  | some found =>
    rw [hid] at h
    by_cases hother : found.mode = .strictIsolation ∧ found.generation ≠ token.generation
    · simp [hother] at h
    · simp only [hother, if_false, Option.some.injEq] at h
      subst h
      refine ⟨rfl, fun hmode => ?_⟩
      have hsame : found.generation = token.generation := by
        by_contra hne
        exact hother ⟨hmode, hne⟩
      rw [hsame]

variable [DecidableEq T] {queued : List AsyncToken} {part : List UInt8}

theorem Framed.addAsync (h : w.Framed queued part) {id : AsyncId} {cb : Option C}
    {mode : AsyncMode} (hclean : w.async.Clean (.addAsync id cb mode)) :
    (w.step (.addAsync id cb mode)).Framed queued part := by
  cases cb with
  | none => exact h
  | some cb =>
    cases hold : w.async.asyncSnapshot id with
    | some slot =>
      simp only [step, EventAsync.addAsync, hold]
      exact h
    | none =>
      simp only [step, EventAsync.addAsync, hold]
      refine ⟨h.stream, h.midway, h.sent, ?_, h.runs⟩
      intro i slot hslot hmode
      by_cases hi : i = id
      · subst hi
        simp only [Option.isSome_none, Bool.false_eq_true, if_false, if_true,
          Function.update_self, Option.some.injEq] at hslot ⊢
        subst hslot
        obtain rfl : mode = .strictIsolation := hmode
        have hfresh := hclean hold
        rw [h.underWay] at hfresh
        refine ⟨le_rfl, fun k hk _ hat => hfresh ?_⟩
        rw [h.sent, List.getElem?_append_right hk] at hat
        exact List.mem_of_getElem? hat
      · simp only [Option.isSome_none, Bool.false_eq_true, if_false, if_true,
          Function.update_of_ne hi] at hslot ⊢
        exact h.isolated i slot hslot hmode

theorem Framed.delAsync (h : w.Framed queued part) (id : AsyncId) :
    (w.step (.delAsync id)).Framed queued part := by
  refine ⟨h.stream, h.midway, h.sent, ?_, h.runs⟩
  intro i slot hslot hmode
  by_cases hi : i = id
  · subst hi
    simp [step, EventAsync.delAsync] at hslot
  · simp only [step, EventAsync.delAsync, Function.update_of_ne hi] at hslot
    exact h.isolated i slot hslot hmode

theorem Framed.notify (h : w.Framed queued part) (t : T) (id : AsyncId) :
    (w.step (.notify t id)).Framed queued part := by
  cases hcall : w.async.calls t with
  | some call =>
    simp only [step, EventAsync.beginNotify, hcall]
    exact h
  | none =>
    simp only [step, EventAsync.beginNotify, hcall]
    exact ⟨h.stream, h.midway.begin hcall _, h.sent, h.isolated, h.runs⟩

theorem Framed.failed (h : w.Framed queued part) {t : T}
    (hclean : w.async.Clean (.send t 0 : AsyncOp C T)) :
    (w.step (.send t 0)).Framed queued part := by
  cases hcall : w.async.calls t with
  | none =>
    simp only [step, EventAsync.send, hcall]
    exact h
  | some call =>
    simp only [step, EventAsync.send, hcall, if_true]
    exact ⟨h.stream, h.midway.fail hclean, h.sent, h.isolated, h.runs⟩

theorem Framed.sends (h : w.Framed queued part) {t : T} {n : Nat}
    (hclean : w.async.Clean (.send t (n + 1) : AsyncOp C T)) :
    ∃ queued part, (w.step (.send t (n + 1))).Framed queued part := by
  cases hcall : w.async.calls t with
  | none =>
    simp only [step, EventAsync.send, hcall]
    exact ⟨queued, part, h⟩
  | some call =>
    have hothers := hclean (by rw [hcall]; exact Option.some_ne_none _)
    obtain ⟨hbytes, hleft⟩ := h.midway.current hcall hothers
    by_cases hdone : call.left.drop (n + 1) = []
    · -- the last bytes of the token
      have hall : call.left.take (n + 1) = call.left := by
        have hsplit := List.take_append_drop (n + 1) call.left
        rwa [hdone, List.append_nil] at hsplit
      simp only [step, EventAsync.send, hcall, Nat.succ_ne_zero, if_false, hdone, if_true]
      refine ⟨queued ++ [call.token], [], ?_, ?_, ?_, ?_, h.runs⟩
      · show _ ++ (_ ++ _) = _
        rw [hall, ← List.append_assoc, h.stream, List.append_assoc, ← hbytes]
        simp [Codec.encoded, tokenCodec]
      · exact midway_complete hothers
      · show w.sent ++ _ = _
        rw [h.sent, List.append_assoc]
      · exact h.isolated.append rfl _
    · simp only [step, EventAsync.send, hcall, Nat.succ_ne_zero, if_false, hdone]
      refine ⟨queued, part ++ call.left.take (n + 1), ?_, ?_, h.sent, h.isolated, h.runs⟩
      · show _ ++ (_ ++ _) = _
        rw [← List.append_assoc, h.stream, List.append_assoc]
      · exact midway_progress hbytes hleft hdone hothers

theorem Framed.recv (h : w.Framed queued part) (n : Nat) :
    (w.step (.recv n)).Framed queued part := by
  refine ⟨?_, h.midway, h.sent, h.isolated, h.runs⟩
  show (_ ++ _) ++ w.async.socket.drop (min n 1024) = _
  rw [List.append_assoc, List.take_append_drop]
  exact h.stream

theorem Framed.dispatch (h : w.Framed queued part) :
    ∃ queued part, (w.step .dispatch).Framed queued part := by
  obtain ⟨htokens, hrest⟩ := popTokens_eq w.async.recvBuffer (Nat.le_add_left _ 0)
  rw [List.drop_zero] at htokens hrest
  obtain ⟨k, hk, hframes, hleft⟩ := tokenCodec.frames_prefix queued h.midway.short h.stream
  have hsent : w.sent = (w.decoded ++ queued.take k) ++ queued.drop k := by
    rw [List.append_assoc, List.take_append_drop]
    exact h.sent
  simp only [step, EventAsync.dispatch, htokens, hframes]
  refine ⟨queued.drop k, part, ?_, h.midway, hsent, ?_, ?_⟩
  · show w.async.recvBuffer.drop _ ++ _ = _
    rw [hrest]
    exact hleft
  · intro id slot hslot hmode
    obtain ⟨hsince, hfree⟩ := h.isolated id slot hslot hmode
    refine ⟨hsince, fun j hj hlt => hfree j ?_ hlt⟩
    rw [List.length_append] at hj
    omega
  · intro r hr hmode
    rcases List.mem_append.1 hr with hold | hnew
    · exact h.runs r hold hmode
    · obtain ⟨j, token, slot, hat, hslot, rfl⟩ := mem_runsFor hnew
      obtain ⟨hid, hgen⟩ := slotFor_eq_some hslot
      by_contra hlate
      have hsent : w.sent[w.decoded.length + j]? = some token := by
        rw [h.sent, List.getElem?_append_right (by omega), Nat.add_sub_cancel_left]
        rw [List.getElem?_take] at hat
        by_cases hj : j < k
        · rwa [if_pos hj] at hat
        · rw [if_neg hj] at hat
          cases hat
      rw [hgen hmode] at hsent
      exact (h.isolated token.id slot hid hmode).2 _ (Nat.le_add_right _ _)
        (Nat.lt_of_not_le hlate) hsent

theorem framed_step (h : w.Framed queued part) (op : AsyncOp C T) (hclean : w.async.Clean op) :
    ∃ queued part, (w.step op).Framed queued part := by
  cases op with
  | addAsync id cb mode => exact ⟨queued, part, h.addAsync hclean⟩
  | delAsync id => exact ⟨queued, part, h.delAsync id⟩
  | notify t id => exact ⟨queued, part, h.notify t id⟩
  | send t n =>
    cases n with
    | zero => exact ⟨queued, part, h.failed hclean⟩
    | succ n => exact h.sends hclean
  | recv n => exact ⟨queued, part, h.recv n⟩
  | dispatch => exact h.dispatch

theorem framed_run {ops : List (AsyncOp C T)}
    (hclean : Meets step (fun (w : Watched C T) op => w.async.Clean op) {} ops) :
    ∃ queued part, (run step {} ops : Watched C T).Framed queued part := by
  have hinv : ∀ (w : Watched C T) op, (∃ queued part, w.Framed queued part) →
      w.async.Clean op → ∃ queued part, (w.step op).Framed queued part := by
    rintro w op ⟨queued, part, h⟩ hop
    exact framed_step h op hop
  exact run_inv hinv ⟨[], [], framed_new⟩ hclean

structure Delivers (w : Watched C T) : Prop where
  /-- The tokens decoded, and those that will be of the bytes under way,
  are those sent, each once and in order. -/
  inOrder : w.sent = w.decoded ++ w.async.underWay
  /-- Beside them there is under way what a call in progress has sent, and
  nothing of a call that has failed. -/
  noStray : ∃ part, w.async.recvBuffer ++ w.async.socket =
      w.async.underWay.flatMap tokenBytes ++ part ∧
    (part = [] ∨ ∃ t call, w.async.calls t = some call ∧ tokenBytes call.token = part ++ call.left)
  /-- Once all bytes are received, every token sent is decoded. -/
  received : w.async.socket = [] → (w.step .dispatch).decoded = w.sent
  /-- A strict registration is run for no call that completed before it. -/
  isolated : ∀ r ∈ w.runs, r.mode = .strictIsolation → r.since ≤ r.index

/-- In a run of clean steps, whatever the order, tokens are delivered. -/
theorem notifications_delivered {ops : List (AsyncOp C T)}
    (hclean : Meets step (fun (w : Watched C T) op => w.async.Clean op) {} ops) :
    (run step {} ops : Watched C T).Delivers := by
  obtain ⟨queued, part, h⟩ := framed_run hclean
  have hway := h.underWay
  refine ⟨?_, ⟨part, ?_, ?_⟩, fun hempty => ?_, h.runs⟩
  · rw [hway]
    exact h.sent
  · rw [hway]
    exact h.stream
  · rcases h.midway with ⟨hpart, -⟩ | ⟨t, call, hcall, hbytes, -⟩
    · exact Or.inl hpart
    · exact Or.inr ⟨t, call, hcall, hbytes⟩
  · rw [h.sent, ← hway]
    unfold underWay
    rw [hempty, List.append_nil]
    rfl

/-- A token sent in two parts. -/
theorem notifications_delivered_inTwoParts :
    (run step {} [.addAsync 1 (some ()) .strictIsolation, .notify () 1, .send () 3, .send () 5,
      .recv 1024, .dispatch] : Watched Unit Unit).Delivers :=
  notifications_delivered ⟨fun _ => by decide, trivial,
    fun _ u hu => absurd (Subsingleton.elim u ()) hu,
    fun _ u hu => absurd (Subsingleton.elim u ()) hu, trivial, trivial, trivial⟩

/-- A call that fails after three bytes of its token: the next token, sent
whole, is read three bytes out of place. -/
theorem not_delivered_cutOff :
    ¬(run step {} [.notify () 1, .send () 3, .send () 0, .notify () 2, .send () 8, .recv 1024,
      .dispatch] : Watched Unit Unit).Delivers := by
  intro h
  have hsent := h.inOrder
  revert hsent
  decide +kernel

end Watched

end Eular.Libevent
