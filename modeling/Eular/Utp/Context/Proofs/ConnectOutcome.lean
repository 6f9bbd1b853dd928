/-
What the application is told of its connections.

A call of `connect` has one pending entry, handed on from retry to retry,
until the entry goes with the call's outcome: there is one outcome at
most, in every run (`Tidy`). A connection without an entry should be one
that was told of as connected; the branch of `handleConnectionState` for
a connection that closes during its last attempt's handshake leaves one
that was not, and when that connection ends the application is told that
it was closed. `Established` holds where the branch is not taken.
-/
import Eular.Utp.Context.Connect
import Eular.Utp.Lifecycle.Proofs.PathRuns

namespace Eular.Utp.ConnectContext

open Lib

variable {σ ε : Type} {s s' : ConnectContext σ} {env : StartEnv σ} {m : ManagedConnection σ}
  {attempt : PendingConnectAttempt} {id : Nat} {d : Delivery}

-- ==== one outcome

/-- How many outcomes of a call were delivered. -/
def outcomes (s : ConnectContext σ) (call : Nat) : Nat :=
  s.delivered.countP fun d => d.settles call

/-- Every call has a pending entry or an outcome, and not two of either. -/
structure Tidy (s : ConnectContext σ) : Prop where
  fresh : ∀ m ∈ s.connections, m.id < s.nextId
  pending : ∀ id a, s.pending id = some a →
    id < s.nextId ∧ a.call < s.nextCall ∧ s.outcomes a.call = 0
  oneEach : ∀ id id' a a', s.pending id = some a → s.pending id' = some a' →
    a.call = a'.call → id = id'
  settled : ∀ call, s.outcomes call ≤ 1
  unused : ∀ call, s.nextCall ≤ call → s.outcomes call = 0

theorem tidy_empty : Tidy ({} : ConnectContext σ) where
  fresh := fun _ hm => absurd hm List.not_mem_nil
  pending := fun _ _ ha => by cases ha
  oneEach := fun _ _ _ _ ha => by cases ha
  settled := fun _ => Nat.zero_le _
  unused := fun _ _ => rfl

@[simp] theorem outcomes_deliver (s : ConnectContext σ) (d : Delivery) (call : Nat) :
    (s.deliver d).outcomes call = s.outcomes call + if d.settles call then 1 else 0 := by
  simp [outcomes, deliver, List.countP_append, List.countP_singleton]

theorem pending_of_erasePending {id' : Nat} {a' : PendingConnectAttempt}
    (ha' : (s.erasePending id).pending id' = some a') : id' ≠ id ∧ s.pending id' = some a' := by
  by_cases hid : id' = id
  · simp [erasePending, hid] at ha'
  · exact ⟨hid, by simpa only [erasePending, Function.update_of_ne hid] using ha'⟩

theorem Tidy.deliver (hs : Tidy s) (hd : ∀ call, d.settles call = false) : Tidy (s.deliver d) where
  fresh := hs.fresh
  pending := fun id a ha => by
    obtain ⟨hid, hcall, hopen⟩ := hs.pending id a ha
    exact ⟨hid, hcall, by rw [outcomes_deliver, hopen, hd]; rfl⟩
  oneEach := hs.oneEach
  settled := fun call => by
    rw [outcomes_deliver, hd]
    exact hs.settled call
  unused := fun call hcall => by
    rw [outcomes_deliver, hd, hs.unused call hcall]
    rfl

theorem Tidy.settle (hs : Tidy s) (ha : s.pending id = some attempt)
    (hd : ∀ call, d.settles call = decide (attempt.call = call)) :
    Tidy ((s.erasePending id).deliver d) := by
  obtain ⟨-, hcall, hopen⟩ := hs.pending id attempt ha
  have hkept : ∀ id' a', (s.erasePending id).pending id' = some a' →
      s.pending id' = some a' ∧ a'.call ≠ attempt.call := by
    intro id' a' ha'
    obtain ⟨hid, hold⟩ := pending_of_erasePending ha'
    exact ⟨hold, fun hsame => hid (hs.oneEach id' id a' attempt hold ha hsame)⟩
  refine ⟨hs.fresh, fun id' a' ha' => ?_, fun id₁ id₂ a₁ a₂ h₁ h₂ => ?_, fun call => ?_,
    fun call hlate => ?_⟩
  · obtain ⟨hold, hne⟩ := hkept id' a' ha'
    obtain ⟨hid, hlt, hzero⟩ := hs.pending id' a' hold
    refine ⟨hid, hlt, ?_⟩
    rw [outcomes_deliver, hd, if_neg (by simpa using hne.symm)]
    exact hzero
  · exact hs.oneEach id₁ id₂ a₁ a₂ (hkept _ _ h₁).1 (hkept _ _ h₂).1
  · rw [outcomes_deliver, hd]
    by_cases hcall : attempt.call = call
    · subst hcall
      rw [if_pos (by simp), show (s.erasePending id).outcomes attempt.call = 0 from hopen]
    · rw [if_neg (by simpa using hcall)]
      exact hs.settled call
  · have hlate : s.nextCall ≤ call := hlate
    rw [outcomes_deliver, hd, if_neg (by simp; omega)]
    exact hs.unused call hlate

theorem Tidy.erasePending (hs : Tidy s) (id : Nat) : Tidy (s.erasePending id) where
  fresh := hs.fresh
  pending := fun id' a' ha' => hs.pending id' a' (pending_of_erasePending ha').2
  oneEach := fun id₁ id₂ a₁ a₂ h₁ h₂ =>
    hs.oneEach id₁ id₂ a₁ a₂ (pending_of_erasePending h₁).2 (pending_of_erasePending h₂).2
  settled := hs.settled
  unused := hs.unused

theorem Tidy.eraseConnection (hs : Tidy s) (id : Nat) : Tidy (s.eraseConnection id) :=
  ⟨fun m hm => hs.fresh m (List.mem_of_mem_filter hm), hs.pending, hs.oneEach, hs.settled,
    hs.unused⟩

theorem Tidy.insert (hs : Tidy s) (info : ConnectInfo) (conn : Lifecycle σ) :
    Tidy (s.insert info conn) where
  fresh := fun m hm => by
    rcases List.mem_append.mp hm with hm | hm
    · exact (hs.fresh m hm).trans (Nat.lt_succ_self _)
    · rw [List.mem_singleton.mp hm]
      exact Nat.lt_succ_self _
  pending := fun id a ha => by
    obtain ⟨hid, hrest⟩ := hs.pending id a ha
    exact ⟨hid.trans (Nat.lt_succ_self _), hrest⟩
  oneEach := hs.oneEach
  settled := hs.settled
  unused := hs.unused

theorem startPendingConnectAttempt_cases (s : ConnectContext σ) (env : StartEnv σ)
    (attempt : PendingConnectAttempt) :
    s.startPendingConnectAttempt env attempt = (false, s)
      ∨ ∃ conn, s.startPendingConnectAttempt env attempt
          = (true, { s.insert attempt.connectInfo conn with
              pending := Function.update s.pending s.nextId (some attempt) }) := by
  unfold startPendingConnectAttempt
  split
  · exact .inl rfl
  · split
    · exact .inr ⟨_, rfl⟩
    · exact .inl rfl

/-- A call that is not settled, nor pending elsewhere, is pending in a new
connection. -/
theorem Tidy.start {conn : Lifecycle σ} {n : Nat} (hs : Tidy s) (hnext : s.nextCall ≤ n)
    (hcall : attempt.call < n) (hopen : s.outcomes attempt.call = 0)
    (hfree : ∀ id a, s.pending id = some a → a.call ≠ attempt.call) :
    Tidy { s.insert attempt.connectInfo conn with
      pending := Function.update s.pending s.nextId (some attempt)
      nextCall := n } := by
  have hcases : ∀ id a, Function.update s.pending s.nextId (some attempt) id = some a →
      id = s.nextId ∧ a = attempt ∨ id ≠ s.nextId ∧ s.pending id = some a := by
    intro id a ha
    by_cases hid : id = s.nextId
    · subst hid
      rw [Function.update_self] at ha
      exact .inl ⟨rfl, (Option.some.inj ha).symm⟩
    · rw [Function.update_of_ne hid] at ha
      exact .inr ⟨hid, ha⟩
  refine ⟨(hs.insert attempt.connectInfo conn).fresh, fun id a ha => ?_,
    fun id₁ id₂ a₁ a₂ h₁ h₂ hsame => ?_, hs.settled, fun call hlate => ?_⟩
  · rcases hcases id a ha with ⟨rfl, rfl⟩ | ⟨-, hold⟩
    · exact ⟨Nat.lt_succ_self _, hcall, hopen⟩
    · obtain ⟨hid, hlt, hzero⟩ := hs.pending id a hold
      exact ⟨hid.trans (Nat.lt_succ_self _), hlt.trans_le hnext, hzero⟩
  · rcases hcases id₁ a₁ h₁ with ⟨rfl, rfl⟩ | ⟨-, hold₁⟩
    · rcases hcases id₂ a₂ h₂ with ⟨rfl, rfl⟩ | ⟨-, hold₂⟩
      · rfl
      · exact absurd hsame.symm (hfree id₂ a₂ hold₂)
    · rcases hcases id₂ a₂ h₂ with ⟨rfl, rfl⟩ | ⟨-, hold₂⟩
      · exact absurd hsame (hfree id₁ a₁ hold₁)
      · exact hs.oneEach id₁ id₂ a₁ a₂ hold₁ hold₂ hsame
  · exact hs.unused call (hnext.trans hlate)

-- ==== each event

theorem Tidy.connectInternal (hs : Tidy s) (socketValid : Bool) (info : ConnectInfo)
    (hasZeroRtt : Bool) : Tidy (s.connectInternal env socketValid info hasZeroRtt) := by
  unfold ConnectContext.connectInternal
  split
  · exact hs
  · split
    · exact hs
    · rcases startPendingConnectAttempt_cases s env
        ⟨info, hasZeroRtt, info.retries.toNat, s.nextCall⟩ with heq | ⟨conn, heq⟩
      · rw [heq]
        exact hs
      · rw [heq]
        exact @Tidy.start _ _ ⟨info, hasZeroRtt, info.retries.toNat, s.nextCall⟩ _ _ hs
          (Nat.le_succ _) (Nat.lt_succ_self _) (hs.unused _ le_rfl)
          fun id a ha => (hs.pending id a ha).2.1.ne

theorem Tidy.onDisconnected (hs : Tidy s) (m : ManagedConnection σ) :
    Tidy (s.onDisconnected env m) := by
  unfold ConnectContext.onDisconnected
  cases ha : s.pending m.id with
  | none => exact (hs.deliver fun _ => rfl).eraseConnection m.id
  | some attempt =>
    obtain ⟨hid, hcall, hopen⟩ := hs.pending m.id attempt ha
    -- the failure of the call, with its entry and its connection gone
    have hfailed : ∀ code reason, Tidy (((s.erasePending m.id).eraseConnection m.id).deliver
        (.connectError attempt.call code reason)) := fun code reason =>
      (hs.settle (d := .connectError attempt.call code reason) ha
        fun _ => rfl).eraseConnection m.id
    dsimp only
    split
    · rcases startPendingConnectAttempt_cases ((s.erasePending m.id).eraseConnection m.id) env
        { attempt with retriesRemaining := attempt.retriesRemaining - 1 } with
          heq | ⟨conn, heq⟩
      · rw [heq]
        exact hfailed _ _
      · rw [heq]
        refine @Tidy.start _ _ { attempt with retriesRemaining := attempt.retriesRemaining - 1 } _ _
          ((hs.erasePending m.id).eraseConnection m.id) le_rfl hcall hopen ?_
        intro id' a' ha' hsame
        obtain ⟨hid', hold⟩ := @pending_of_erasePending _ _ m.id _ _ ha'
        exact hid' (hs.oneEach id' m.id a' attempt hold ha hsame)
    · exact hfailed _ _

theorem Tidy.handleConnectionState (hs : Tidy s) (id : Nat) :
    Tidy (s.handleConnectionState env id) := by
  unfold ConnectContext.handleConnectionState
  cases hfind : s.find id with
  | none => exact hs
  | some m =>
    have hclosing : Tidy (s.onClosingState m) := by
      unfold onClosingState
      cases ha : s.pending m.id with
      | none => exact hs
      | some attempt =>
        dsimp only
        split
        · exact hs
        · exact hs.settle ha fun _ => rfl
    have hconnected : Tidy (s.onConnectedState m) := by
      unfold onConnectedState
      cases ha : s.pending m.id with
      | none => exact hs
      | some attempt => exact hs.settle ha fun _ => rfl
    cases hstate : m.conn.state
    case connected => simpa only [hstate] using hconnected
    case disconnected => simpa only [hstate] using hs.onDisconnected m
    all_goals first
      | simpa only [hstate] using hclosing
      | simpa only [hstate] using hs

variable (h : Handlers σ ε)

theorem Tidy.advance (hs : Tidy s) (id : Nat) (op : LifeOp ε) : Tidy (s.advance h id op) := by
  refine ⟨fun m hm => ?_, hs.pending, hs.oneEach, hs.settled, hs.unused⟩
  obtain ⟨m', hm', rfl⟩ := List.mem_map.mp hm
  split
  · exact hs.fresh m' hm'
  · exact hs.fresh m' hm'

theorem Tidy.step (hs : Tidy s) (op : ConnectOp σ ε) : Tidy (s.step h op) := by
  cases op with
  | connect env socketValid info hasZeroRtt => exact hs.connectInternal socketValid info hasZeroRtt
  | passive env info peer packets => exact (hs.insert _ _).deliver fun _ => rfl
  | conn id op env =>
    unfold ConnectContext.step
    dsimp only
    split
    · exact (hs.advance h id op).handleConnectionState id
    · exact hs.advance h id op

-- ==== closed, if connected

/-- The application was told of the connection as connected. -/
def ToldConnected (s : ConnectContext σ) (id : Nat) : Prop :=
  ∃ call, Delivery.connected id call ∈ s.delivered

/-- Connections that are not pending were told of, and only these are told
of as closed. -/
structure Established (s : ConnectContext σ) : Prop where
  known : ∀ m ∈ s.connections, s.pending m.id = none → s.ToldConnected m.id
  closed : ∀ id, Delivery.connectionClosed id ∈ s.delivered → s.ToldConnected id

/-- The connection closes in the last try of a pending attempt. -/
def ClosesPending (s : ConnectContext σ) (id : Nat) : Prop :=
  ∃ m attempt, s.find id = some m ∧ s.pending m.id = some attempt
    ∧ attempt.retriesRemaining = 0 ∧ m.conn.isClosingOrLater = true ∧ m.conn.state ≠ .disconnected

/-- The context does not look at a connection that closes in the last try
of a pending attempt. -/
def Spared (s : ConnectContext σ) : ConnectOp σ ε → Prop
  | .conn id op _ => s.looksAfter id op = true → ¬ (s.advance h id op).ClosesPending id
  | _ => True

theorem ToldConnected.deliver (hs : s.ToldConnected id) (d : Delivery) :
    (s.deliver d).ToldConnected id :=
  hs.imp fun _ hcall => List.mem_append_left _ hcall

theorem Established.deliver (hs : Established s) (hd : ∀ id, d ≠ .connectionClosed id) :
    Established (s.deliver d) where
  known := fun m hm hp => (hs.known m hm hp).deliver d
  closed := fun id hid => by
    rcases List.mem_append.mp hid with hid | hid
    · exact (hs.closed id hid).deliver d
    · exact absurd (List.mem_singleton.mp hid).symm (hd id)

theorem Established.erasePending (hs : Established s)
    (hid : ∀ m ∈ s.connections, m.id = id → s.ToldConnected id) :
    Established (s.erasePending id) where
  known := fun m hm hp => by
    by_cases hsame : m.id = id
    · have htold := hid m hm hsame
      rwa [← hsame] at htold
    · refine hs.known m hm ?_
      simpa only [ConnectContext.erasePending, Function.update_of_ne hsame] using hp
  closed := hs.closed

theorem Established.eraseConnection (hs : Established s) (id : Nat) :
    Established (s.eraseConnection id) where
  known := fun m hm hp => hs.known m (List.mem_of_mem_filter hm) hp
  closed := hs.closed

theorem find_some (hfind : s.find id = some m) : m ∈ s.connections ∧ m.id = id :=
  ⟨List.mem_of_find?_eq_some hfind, by simpa using List.find?_some hfind⟩

theorem Established.start {conn : Lifecycle σ} {n : Nat} (hs : Established s) (ht : Tidy s) :
    Established { s.insert attempt.connectInfo conn with
      pending := Function.update s.pending s.nextId (some attempt)
      nextCall := n } where
  known := fun m hm hp => by
    rcases List.mem_append.mp hm with hm | hm
    · refine hs.known m hm ?_
      simpa only [Function.update_of_ne (ht.fresh m hm).ne] using hp
    · rw [List.mem_singleton.mp hm] at hp
      simp at hp
  closed := hs.closed

theorem Established.connectInternal (hs : Established s) (ht : Tidy s) (socketValid : Bool)
    (info : ConnectInfo) (hasZeroRtt : Bool) :
    Established (s.connectInternal env socketValid info hasZeroRtt) := by
  unfold ConnectContext.connectInternal
  split
  · exact hs
  · split
    · exact hs
    · rcases startPendingConnectAttempt_cases s env
        ⟨info, hasZeroRtt, info.retries.toNat, s.nextCall⟩ with heq | ⟨conn, heq⟩
      · rw [heq]
        exact hs
      · rw [heq]
        exact @Established.start _ _ ⟨info, hasZeroRtt, info.retries.toNat, s.nextCall⟩ _ _ hs ht

theorem Established.onDisconnected (hs : Established s) (ht : Tidy s) (hm : m ∈ s.connections) :
    Established (s.onDisconnected env m) := by
  unfold ConnectContext.onDisconnected
  cases ha : s.pending m.id with
  | none =>
    -- the end of a connection that was told of
    refine Established.eraseConnection (s := s.deliver (.connectionClosed m.id))
      ⟨fun x hx hp => (hs.known x hx hp).deliver _, fun id hid => ?_⟩ m.id
    rcases List.mem_append.mp hid with hid | hid
    · exact (hs.closed id hid).deliver _
    · obtain rfl : id = m.id := by simpa using hid
      exact (hs.known m hm ha).deliver _
  | some attempt =>
    have hgone : Established ((s.erasePending m.id).eraseConnection m.id) := by
      refine (hs.eraseConnection m.id).erasePending (s := s.eraseConnection m.id)
        fun x hx hsame => absurd hsame ?_
      simpa using (List.mem_filter.mp hx).2
    have htidy := (ht.erasePending m.id).eraseConnection m.id
    dsimp only
    split
    · rcases startPendingConnectAttempt_cases ((s.erasePending m.id).eraseConnection m.id) env
        { attempt with retriesRemaining := attempt.retriesRemaining - 1 } with
          heq | ⟨conn, heq⟩
      · rw [heq]
        exact hgone.deliver fun _ hd => by cases hd
      · rw [heq]
        exact @Established.start _ _ { attempt with
          retriesRemaining := attempt.retriesRemaining - 1 } _ _ hgone htidy
    · exact hgone.deliver fun _ hd => by cases hd

theorem Established.handleConnectionState (hs : Established s) (ht : Tidy s)
    (hspared : ¬ s.ClosesPending id) : Established (s.handleConnectionState env id) := by
  unfold ConnectContext.handleConnectionState
  cases hfind : s.find id with
  | none => exact hs
  | some m =>
    obtain ⟨hm, rfl⟩ := find_some hfind
    have hclosing : m.conn.isClosingOrLater = true → m.conn.state ≠ .disconnected →
        Established (s.onClosingState m) := by
      intro hclosing hopen
      unfold onClosingState
      cases ha : s.pending m.id with
      | none => exact hs
      | some attempt =>
        dsimp only
        rw [if_pos]
        · exact hs
        · by_contra hlast
          exact hspared ⟨m, attempt, hfind, ha, by omega, hclosing, hopen⟩
    have hconnected : Established (s.onConnectedState m) := by
      unfold onConnectedState
      cases ha : s.pending m.id with
      | none => exact hs
      | some attempt =>
        have htold : (s.deliver (.connected m.id (some attempt.call))).ToldConnected m.id :=
          ⟨some attempt.call, List.mem_append_right _ (List.mem_singleton_self _)⟩
        exact (hs.deliver (d := .connected m.id (some attempt.call))
          fun _ hd => by cases hd).erasePending fun _ _ _ => htold
    cases hstate : m.conn.state
    case connected => simpa only [hstate] using hconnected
    case disconnected => simpa only [hstate] using hs.onDisconnected ht hm
    all_goals first
      | simpa only [hstate] using hs
      | simpa only [hstate] using
          hclosing (by simp [Lifecycle.isClosingOrLater, hstate]) (by simp [hstate])

theorem Established.advance (hs : Established s) (id : Nat) (op : LifeOp ε) :
    Established (s.advance h id op) where
  known := fun m hm hp => by
    obtain ⟨m', hm', rfl⟩ := List.mem_map.mp hm
    by_cases hid : m'.id = id
    · rw [if_pos hid] at hp ⊢
      exact hs.known m' hm' hp
    · rw [if_neg hid] at hp ⊢
      exact hs.known m' hm' hp
  closed := hs.closed

theorem Established.step {op : ConnectOp σ ε} (hs : Established s) (ht : Tidy s)
    (hspared : s.Spared h op) : Established (s.step h op) := by
  cases op with
  | connect env socketValid info hasZeroRtt =>
    exact hs.connectInternal ht socketValid info hasZeroRtt
  | passive env info peer packets =>
    have htold : ∀ conn, ((s.insert info conn).deliver
        (.connected s.nextId none)).ToldConnected s.nextId := fun conn =>
      ⟨none, List.mem_append_right _ (List.mem_singleton_self _)⟩
    refine ⟨fun m hm hp => ?_, fun id hid => ?_⟩
    · rcases List.mem_append.mp hm with hm | hm
      · exact (hs.known m hm hp).deliver _
      · rw [List.mem_singleton.mp hm]
        exact htold _
    · rcases List.mem_append.mp hid with hid | hid
      · exact (hs.closed id hid).deliver _
      · simp at hid
  | conn id op env =>
    unfold ConnectContext.step
    dsimp only
    split
    next hlooks =>
      exact (hs.advance h id op).handleConnectionState (ht.advance h id op) (hspared hlooks)
    · exact hs.advance h id op

-- ==== results

/-- Outcomes of `connect`, in every run: one for a call, at most; and where
no connection closes in the last try of a pending attempt, only what was
told of as connected is told of as closed. -/
theorem connect_outcome (h : Handlers σ ε) (ops : List (ConnectOp σ ε)) :
    (∀ call, (run (step h) {} ops).outcomes call ≤ 1)
      ∧ (Meets (step h) (Spared h) {} ops → ∀ id,
          Delivery.connectionClosed id ∈ (run (step h) {} ops).delivered →
            (run (step h) {} ops).ToldConnected id) := by
  refine ⟨(run_inv_of_step (fun s op hs => hs.step h op) ops tidy_empty).settled, fun hspared => ?_⟩
  refine (run_inv (P := fun s : ConnectContext σ => Tidy s ∧ Established s)
    (fun s op hs hop => ⟨hs.1.step h op, hs.2.step h hs.1 hop⟩)
    ⟨tidy_empty, fun _ hm => absurd hm List.not_mem_nil, fun _ hid => ?_⟩ hspared).2.closed
  exact absurd hid List.not_mem_nil

theorem serverAddress_valid : (Address.ip 9 1).isValid = true := rfl

/-- A client's call, its INITIAL, what the server answers, and the end. -/
def answeredConnect (replies : List (UInt8 × List UInt8)) : List (ConnectOp Unit Nat) :=
  let env : LifeEnv Nat := { nowMs := 0, challenge := [], rest := 0 }
  let answer := fun reply : UInt8 × List UInt8 =>
    let header : UTPHeaderProto :=
      { scid := 7, dcid := 8, pn := 1, payloadLength := .ofNat reply.2.length, types := reply.1
        reserve := 0 }
    ConnectOp.conn 0 (.datagram env ⟨.ip 9 1, serverAddress_valid⟩ (header.serialize ++ reply.2))
      { rest := () }
  [.connect { rest := () } true { peer := .ip 9 1 } false, .conn 0 (.write env) { rest := () }]
    ++ replies.map answer
    ++ [.conn 0 (.write env) { rest := () }, .conn 0 (.closeDrainTimeout env) { rest := () },
      .conn 0 (.write env) { rest := () }]

instance (s : ConnectContext σ) (id : Nat) : Decidable (s.ClosesPending id) :=
  match hfind : s.find id with
  | none => isFalse fun ⟨m, _, hm, _⟩ => by rw [hfind] at hm; cases hm
  | some m =>
    match ha : s.pending m.id with
    | none => isFalse fun ⟨m', _, hm, ha', _⟩ => by
        rw [hfind] at hm
        obtain rfl := Option.some.inj hm
        rw [ha] at ha'
        cases ha'
    | some attempt =>
      decidable_of_iff (attempt.retriesRemaining = 0 ∧ m.conn.isClosingOrLater = true
          ∧ m.conn.state ≠ .disconnected)
        ⟨fun hc => ⟨m, attempt, hfind, ha, hc⟩, fun ⟨m', attempt', hm, ha', hc⟩ => by
          rw [hfind] at hm
          obtain rfl := Option.some.inj hm
          rw [ha] at ha'
          obtain rfl := Option.some.inj ha'
          exact hc⟩

instance (s : ConnectContext σ) (op : ConnectOp σ ε) : Decidable (s.Spared h op) :=
  match op with
  | .conn id op _ =>
    inferInstanceAs (Decidable (s.looksAfter id op = true → ¬ (s.advance h id op).ClosesPending id))
  | .connect .. => isTrue trivial
  | .passive .. => isTrue trivial

/-- The server shakes hands, and closes later. -/
theorem connect_outcome_closed :
    (run (step Lifecycle.plainHandlers) {} (answeredConnect
      [(UTP_TYPE_HANDSHAKE, [5]), (UTP_TYPE_CONNECTION_CLOSE, [4, 0, 3, 0, 0])])).ToldConnected 0 :=
  (connect_outcome Lifecycle.plainHandlers (answeredConnect
    [(UTP_TYPE_HANDSHAKE, [5]), (UTP_TYPE_CONNECTION_CLOSE, [4, 0, 3, 0, 0])])).2
    (by decide +kernel) 0 (by decide +kernel)

/-- The server answers with a CONNECTION_CLOSE: the call has failed, and
when the connection ends it is told of as closed, though it never was
told of as connected. -/
theorem not_connect_outcome :
    ¬ ∀ (h : Handlers Unit Nat) (ops : List (ConnectOp Unit Nat)) (id : Nat),
        Delivery.connectionClosed id ∈ (run (step h) {} ops).delivered →
          (run (step h) {} ops).ToldConnected id := by
  intro hall
  have hdelivered : (run (step Lifecycle.plainHandlers) {}
      (answeredConnect [(UTP_TYPE_CONNECTION_CLOSE, [4, 0, 3, 0, 0])])).delivered
        = [.connectError 0 3 "peer closed connection", .connectionClosed 0] := by decide +kernel
  obtain ⟨call, hcall⟩ := hall Lifecycle.plainHandlers
    (answeredConnect [(UTP_TYPE_CONNECTION_CLOSE, [4, 0, 3, 0, 0])]) 0 (by rw [hdelivered]; decide)
  rw [hdelivered] at hcall
  simp at hcall

end Eular.Utp.ConnectContext
