/-
  DoubleTurnouts.Network.EventLoopThreadPool

  `network::EventLoopThreadPool`: the I/O loops of a server.  `getNextLoop`
  deals them out in turn, `getLoopForHash` by a hash, and a pool without
  threads answers with the base loop.

  The assertions and the indexing of `loops_` can fail; a started pool is
  shown never to.  What it deals out is what the loops of a server's
  connections are, whatever else happens to the server, so that at any time
  two pool loops have been given the same number of connections, up to one.
-/
import Mathlib.Data.Int.CardIntervalMod
import Mathlib.Tactic
import DoubleTurnouts.Lib.Run
import DoubleTurnouts.Network.TcpServer

namespace DoubleTurnouts

/-- Why a call on the pool fails: the assertions on `started_`, or an index outside `loops_`. -/
inductive PoolFault
  | notStarted
  | startedTwice
  | outOfRange
  deriving DecidableEq, Repr

structure EventLoopThreadPool (ι : Type) where
  baseLoop_ : ι
  started_ : Bool
  numThreads_ : Int
  next_ : Nat
  loops_ : List ι

variable {ι : Type}

namespace EventLoopThreadPool

/-- The constructor. -/
def new (baseLoop : ι) : EventLoopThreadPool ι where
  baseLoop_ := baseLoop
  started_ := false
  numThreads_ := 0
  next_ := 0
  loops_ := []

def setThreadNum (p : EventLoopThreadPool ι) (numThreads : Int) : EventLoopThreadPool ι :=
  { p with numThreads_ := numThreads }

/-- `start(cb)`, where `startLoop i` is the loop of the `i`th thread.  Beside the pool: the loops
    `cb` was called for, by a thread before its `startLoop` returns or by `start` itself. -/
def start (p : EventLoopThreadPool ι) (startLoop : Nat → ι) :
    Except PoolFault (EventLoopThreadPool ι × List ι) :=
  if p.started_ then .error .startedTwice
  else
    let loops := (List.range p.numThreads_.toNat).map startLoop
    let initialised := if p.numThreads_ = 0 then [p.baseLoop_] else loops
    .ok ({ p with started_ := true, loops_ := p.loops_ ++ loops }, initialised)

/-- `loops_[i]`. -/
def loopAt (p : EventLoopThreadPool ι) (i : Nat) : Except PoolFault ι :=
  match p.loops_[i]? with
  | none => .error .outOfRange
  | some loop => .ok loop

def getNextLoop (p : EventLoopThreadPool ι) : Except PoolFault (ι × EventLoopThreadPool ι) :=
  if !p.started_ then .error .notStarted
  else if p.loops_.isEmpty then .ok (p.baseLoop_, p)
  else do
    let loop ← p.loopAt p.next_
    let next_ := p.next_ + 1
    return (loop, { p with next_ := if p.loops_.length ≤ next_ then 0 else next_ })

def getLoopForHash (p : EventLoopThreadPool ι) (hashCode : Nat) : Except PoolFault ι :=
  if p.loops_.isEmpty then .ok p.baseLoop_ else p.loopAt (hashCode % p.loops_.length)

def getAllLoops (p : EventLoopThreadPool ι) : Except PoolFault (List ι) :=
  if !p.started_ then .error .notStarted
  else if p.loops_.isEmpty then .ok [p.baseLoop_]
  else .ok p.loops_

/-- The loops that `n` calls of `getNextLoop` give, one after the other. -/
def getNextLoops (p : EventLoopThreadPool ι) :
    Nat → Except PoolFault (List ι × EventLoopThreadPool ι)
  | 0 => .ok ([], p)
  | n + 1 => do
      let (loop, p) ← p.getNextLoop
      let (loops, p) ← p.getNextLoops n
      return (loop :: loops, p)

/-! ## What a started pool deals out -/

/-- The pool has been started, and `m` loops have been dealt out. -/
structure Dealt (p : EventLoopThreadPool ι) (m : Nat) : Prop where
  started : p.started_ = true
  next : p.loops_ ≠ [] → p.next_ = m % p.loops_.length

/-- The loop whose turn it is after `m` deals, the base loop for a pool without threads. -/
def turn (p : EventLoopThreadPool ι) (m : Nat) : ι :=
  p.loops_.getD (m % p.loops_.length) p.baseLoop_

theorem loopAt_mod (p : EventLoopThreadPool ι) (hloops : p.loops_ ≠ []) (m : Nat) :
    p.loopAt (m % p.loops_.length) = .ok (p.turn m) := by
  have hlt : m % p.loops_.length < p.loops_.length :=
    Nat.mod_lt m (List.length_pos_of_ne_nil hloops)
  simp [loopAt, turn, hlt]

/-- A hash picks the loop that this many deals would have come to, started or not. -/
theorem getLoopForHash_eq (p : EventLoopThreadPool ι) (hashCode : Nat) :
    p.getLoopForHash hashCode = .ok (p.turn hashCode) := by
  by_cases hloops : p.loops_ = []
  · simp [getLoopForHash, hloops, turn]
  · simp [getLoopForHash, hloops, loopAt_mod p hloops]

/-- `++next_` with its reset counts modulo the number of loops. -/
theorem next_mod (m : Nat) {n : Nat} (hn : 0 < n) :
    (if n ≤ m % n + 1 then 0 else m % n + 1) = (m + 1) % n := by
  have hlt : m % n < n := Nat.mod_lt m hn
  have hsucc : (m + 1) % n = (m % n + 1) % n := (Nat.mod_add_mod m n 1).symm
  rw [hsucc]
  split
  · rw [show m % n + 1 = n by omega, Nat.mod_self]
  · exact (Nat.mod_eq_of_lt (by omega)).symm

/-- A deal does not fail, gives the loop whose turn it is and changes nothing but the turn. -/
theorem Dealt.getNextLoop {p : EventLoopThreadPool ι} {m : Nat} (h : p.Dealt m) :
    ∃ p', p.getNextLoop = .ok (p.turn m, p') ∧ p'.Dealt (m + 1) ∧ p'.turn = p.turn := by
  by_cases hloops : p.loops_ = []
  · refine ⟨p, ?_, ⟨h.started, fun hne => absurd hloops hne⟩, rfl⟩
    simp [EventLoopThreadPool.getNextLoop, h.started, hloops, turn]
  · have hpos : 0 < p.loops_.length := List.length_pos_of_ne_nil hloops
    let next_ := p.next_ + 1
    refine ⟨{ p with next_ := if p.loops_.length ≤ next_ then 0 else next_ }, ?_,
      ⟨h.started, fun _ => ?_⟩, rfl⟩
    · rw [EventLoopThreadPool.getNextLoop, h.next hloops, loopAt_mod p hloops]
      simp [h.started, hloops, next_, h.next hloops, pure, Except.pure, bind, Except.bind]
    · show (if p.loops_.length ≤ p.next_ + 1 then 0 else p.next_ + 1) = _
      rw [h.next hloops]
      exact next_mod m hpos

/-- Any number of deals: the loops in turn. -/
theorem Dealt.getNextLoops {p : EventLoopThreadPool ι} {m : Nat} (h : p.Dealt m) (n : Nat) :
    ∃ p', p.getNextLoops n = .ok ((List.range n).map fun i => p.turn (m + i), p') ∧
      p'.Dealt (m + n) ∧ p'.turn = p.turn := by
  induction n generalizing p m with
  | zero => exact ⟨p, rfl, h, rfl⟩
  | succ n ih =>
      obtain ⟨p₁, hdeal, hdealt, hturn⟩ := h.getNextLoop
      obtain ⟨p₂, hrest, hend, hturn'⟩ := ih hdealt
      refine ⟨p₂, ?_, ?_, hturn'.trans hturn⟩
      · simp only [EventLoopThreadPool.getNextLoops, hdeal, hrest, bind, Except.bind, pure,
          Except.pure, List.range_succ_eq_map, List.map_cons, List.map_map, hturn]
        simp [Function.comp_def, Nat.add_comm, Nat.add_left_comm]
      · rwa [show m + (n + 1) = m + 1 + n by omega]

/-- `start` on a new pool makes one that has dealt out nothing. -/
theorem start_new (baseLoop : ι) (numThreads : Nat) (startLoop : Nat → ι) :
    ∃ p initialised, ((new baseLoop).setThreadNum numThreads).start startLoop =
        .ok (p, initialised) ∧ p.Dealt 0 ∧ p.baseLoop_ = baseLoop ∧
      p.loops_ = (List.range numThreads).map startLoop ∧ p.getAllLoops = .ok initialised := by
  refine ⟨_, _, rfl, ⟨rfl, fun _ => ?_⟩, rfl, ?_, ?_⟩
  · exact (Nat.zero_mod _).symm
  · simp [new, setThreadNum]
  · rcases Nat.eq_zero_or_pos numThreads with rfl | hpos
    · simp [getAllLoops, new, setThreadNum]
    · have hne : numThreads ≠ 0 := by omega
      simp [getAllLoops, new, setThreadNum, hne]

/-- Whose turn it may be is among all loops. -/
theorem turn_mem (p : EventLoopThreadPool ι) {loops : List ι} (h : p.getAllLoops = .ok loops)
    (m : Nat) : p.turn m ∈ loops := by
  unfold getAllLoops at h
  split at h
  · cases h
  · by_cases hloops : p.loops_ = []
    · simp only [hloops, List.isEmpty_nil, if_true, Except.ok.injEq] at h
      simp [turn, hloops, ← h]
    · have hlt : m % p.loops_.length < p.loops_.length :=
        Nat.mod_lt m (List.length_pos_of_ne_nil hloops)
      simp only [List.isEmpty_iff, hloops, if_false, Except.ok.injEq] at h
      simp [turn, hlt, ← h]

end EventLoopThreadPool

/-! ## The connections of a server -/

namespace TcpServer

variable {κ : Type}

/-- What deals out loops, and where the connections are. -/
def placement (s : TcpServer κ) : Nat × Nat × List Nat :=
  (s.loops_, s.next_, s.conns.map TcpConn.loop_)

@[simp] theorem placement_check (s : TcpServer κ) (a : ConnAssert) (p : Prop) [Decidable p] :
    (s.check a p).placement = s.placement := by
  unfold check
  split <;> rfl

theorem placement_modifyConn (s : TcpServer κ) (c : Nat) (f : TcpConn κ → TcpConn κ)
    (hf : ∀ k, (f k).loop_ = k.loop_) : (s.modifyConn c f).placement = s.placement := by
  have hloops : (s.conns.modify c f).map TcpConn.loop_ = s.conns.map TcpConn.loop_ := by
    apply List.ext_getElem?
    intro c'
    rw [List.getElem?_map, List.getElem?_map, List.getElem?_modify]
    cases s.conns[c']? with
    | none => rfl
    | some k =>
        by_cases hc : c = c'
        · simp [hc, hf]
        · simp [hc]
  show (s.loops_, s.next_, (s.conns.modify c f).map TcpConn.loop_) = s.placement
  rw [hloops]
  rfl

@[simp] theorem placement_queueInLoop (s : TcpServer κ) (loop c : Nat) (f : ConnFunctor) :
    (s.queueInLoop loop c f).placement = s.placement := rfl

theorem placement_setChannel (s : TcpServer κ) (loop fd : Nat) (channel : Option Nat) :
    (s.setChannel loop fd channel).placement = s.placement := rfl

@[simp] theorem placement_updateChannel (s : TcpServer κ) (c : Nat) :
    (s.updateChannel c).placement = s.placement := by
  unfold updateChannel
  split
  · rfl
  · split
    · rw [placement_modifyConn _ c TcpConn.epollAdd fun _ => rfl, placement_setChannel,
        placement_check]
    · rw [placement_modifyConn _ c TcpConn.epollAdd fun _ => rfl, placement_check]
    · rw [placement_modifyConn _ c TcpConn.epollMod fun _ => rfl, placement_check]

@[simp] theorem placement_remove (s : TcpServer κ) (c : Nat) :
    (s.remove c).placement = s.placement := by
  unfold remove
  split
  · rfl
  · dsimp only
    rw [placement_modifyConn _ c TcpConn.epollRemoved fun _ => rfl, placement_setChannel,
      placement_check, placement_check]

@[simp] theorem placement_onSendSide (s : TcpServer κ) (c : Nat) (f : SendSide → SendSide) :
    (s.onSendSide c f).placement = s.placement := by
  unfold onSendSide
  split
  · rfl
  · dsimp only
    split <;> split <;> simp [placement_modifyConn]

@[simp] theorem placement_call (caller : Option Nat) (s : TcpServer κ) (x : Nat × ConnCall) :
    (s.call caller x).placement = s.placement := by
  obtain ⟨c, call⟩ := x
  cases call with
  | send message r =>
      show (s.send caller c message r).placement = _
      unfold send
      split
      · rfl
      · split
        · split <;> simp [sendInLoop]
        · rfl
  | shutdown =>
      show (s.shutdown caller c).placement = _
      unfold shutdown
      split
      · rfl
      · dsimp only
        split
        · split <;> simp [shutdownInLoop, placement_modifyConn, TcpConn.setState]
        · rfl
  | forceClose =>
      show (s.forceClose c).placement = _
      unfold forceClose
      split
      · rfl
      · dsimp only
        split <;> simp [placement_modifyConn, TcpConn.setState]

@[simp] theorem placement_calls (caller : Option Nat) (script : List (Nat × ConnCall))
    (s : TcpServer κ) : (script.foldl (call caller) s).placement = s.placement := by
  induction script generalizing s with
  | nil => rfl
  | cons x script ih => rw [List.foldl_cons, ih, placement_call]

@[simp] theorem placement_connectionCallback (s : TcpServer κ) (c : Nat)
    (script : List (Nat × ConnCall)) :
    (s.connectionCallback c script).placement = s.placement := by
  unfold connectionCallback
  split
  · rfl
  · simp [placement_modifyConn, TcpConn.ran]

@[simp] theorem placement_connectEstablished (s : TcpServer κ) (c : Nat)
    (script : List (Nat × ConnCall)) :
    (s.connectEstablished c script).placement = s.placement := by
  unfold connectEstablished
  split
  · rfl
  · simp [placement_modifyConn, TcpConn.ran, TcpConn.setState, TcpConn.enableReading]

@[simp] theorem placement_removeConnectionInLoop (s : TcpServer κ) (c : Nat) :
    (s.removeConnectionInLoop c).placement = s.placement := by
  unfold removeConnectionInLoop
  split
  · rfl
  · exact placement_check s _ _

@[simp] theorem placement_handleClose (s : TcpServer κ) (c : Nat)
    (script : List (Nat × ConnCall)) : (s.handleClose c script).placement = s.placement := by
  unfold handleClose
  split
  · rfl
  · unfold removeConnection
    dsimp only
    split
    · simp [placement_modifyConn, TcpConn.ran, TcpConn.setState, TcpConn.disableAll]
    · split <;> simp [placement_modifyConn, TcpConn.ran, TcpConn.setState, TcpConn.disableAll]

@[simp] theorem placement_forceCloseInLoop (s : TcpServer κ) (c : Nat)
    (script : List (Nat × ConnCall)) :
    (s.forceCloseInLoop c script).placement = s.placement := by
  unfold forceCloseInLoop
  split
  · rfl
  · split <;> simp

@[simp] theorem placement_connectDestroyed (s : TcpServer κ) (c : Nat)
    (script : List (Nat × ConnCall)) :
    (s.connectDestroyed c script).placement = s.placement := by
  unfold connectDestroyed
  split
  · rfl
  · dsimp only
    split <;>
      simp [placement_modifyConn, TcpConn.ran, TcpConn.setState, TcpConn.disableAll]

@[simp] theorem placement_handleRead (s : TcpServer κ) (c : Nat) (n : ReadResult)
    (script : List (Nat × ConnCall)) : (s.handleRead c n script).placement = s.placement := by
  unfold handleRead
  split
  · rfl
  · split
    · split <;> simp [placement_modifyConn]
    · rfl

@[simp] theorem placement_handleEvent (s : TcpServer κ) (c : Nat) (revents_ : Revents)
    (n : ReadResult) (r : WriteResult) (script : List (Nat × ConnCall)) :
    (s.handleEvent c revents_ n r script).placement = s.placement := by
  unfold handleEvent
  dsimp only
  split <;> split <;> split <;> simp [handleWrite]

@[simp] theorem placement_destruct (s : TcpServer κ) (c : Nat) :
    (s.destruct c).placement = s.placement := by
  unfold destruct
  split
  · rfl
  · simp [placement_modifyConn]

@[simp] theorem placement_runFunctor (s : TcpServer κ) (c : Nat) (r : WriteResult)
    (script : List (Nat × ConnCall)) (f : ConnFunctor) :
    (s.runFunctor c r script f).placement = s.placement := by
  cases f with
  | writeComplete =>
      simp only [runFunctor]
      split <;> simp
  | _ => simp [runFunctor, sendInLoop, shutdownInLoop]

/-- The connections a server has taken live in the loops its pool has dealt out. -/
structure Follows (s : TcpServer κ) (p : EventLoopThreadPool Nat) : Prop where
  loops : p.loops_ = (List.range s.loops_).map (· + 1)
  base : p.baseLoop_ = 0
  next : s.loops_ ≠ 0 → s.next_ = s.conns.length % s.loops_
  conns : s.conns.map TcpConn.loop_ = (List.range s.conns.length).map p.turn

theorem Follows.turn {s : TcpServer κ} {p : EventLoopThreadPool Nat} (h : s.Follows p) (m : Nat) :
    p.turn m = if s.loops_ = 0 then 0 else m % s.loops_ + 1 := by
  have hlen : p.loops_.length = s.loops_ := by simp [h.loops]
  rw [EventLoopThreadPool.turn, hlen, h.base, h.loops]
  split
  · rename_i hzero
    simp [hzero]
  · have hlt : m % s.loops_ < s.loops_ := Nat.mod_lt m (by omega)
    simp [hlt]

/-- What the pool deals out next is what the server's `getNextLoop` gives. -/
theorem Follows.getNextLoop {s : TcpServer κ} {p : EventLoopThreadPool Nat} (h : s.Follows p) :
    s.getNextLoop.1 = p.turn s.conns.length ∧ s.getNextLoop.2.loops_ = s.loops_ ∧
      s.getNextLoop.2.conns = s.conns ∧
      (s.loops_ ≠ 0 → s.getNextLoop.2.next_ = (s.conns.length + 1) % s.loops_) := by
  rw [h.turn]
  unfold TcpServer.getNextLoop
  split
  · rename_i hzero
    exact ⟨rfl, rfl, rfl, fun hne => absurd hzero hne⟩
  · rename_i hne
    refine ⟨congrArg (· + 1) (h.next hne), rfl, rfl, fun _ => ?_⟩
    show (if s.loops_ ≤ s.next_ + 1 then 0 else s.next_ + 1) = _
    rw [h.next hne]
    exact EventLoopThreadPool.next_mod _ (by omega)

/-- What follows the pool with the same placement follows it too. -/
theorem Follows.of_placement {s s' : TcpServer κ} {p : EventLoopThreadPool Nat} (h : s.Follows p)
    (hs' : s'.placement = s.placement) : s'.Follows p := by
  obtain ⟨hloops, hnext, hconns⟩ : s'.loops_ = s.loops_ ∧ s'.next_ = s.next_ ∧
      s'.conns.map TcpConn.loop_ = s.conns.map TcpConn.loop_ := by
    simpa [placement] using hs'
  have hlen : s'.conns.length = s.conns.length := by
    simpa using congrArg List.length hconns
  exact ⟨by rw [hloops, h.loops], h.base, by rw [hloops, hnext, hlen]; exact h.next,
    by rw [hconns, hlen]; exact h.conns⟩

/-- A server that has taken one connection more, into the loop that `getNextLoop` gave. -/
theorem Follows.added {s s' : TcpServer κ} {p : EventLoopThreadPool Nat} (h : s.Follows p)
    (hloops : s'.loops_ = s.getNextLoop.2.loops_) (hnext : s'.next_ = s.getNextLoop.2.next_)
    (hconns : s'.conns.map TcpConn.loop_ =
      s.getNextLoop.2.conns.map TcpConn.loop_ ++ [s.getNextLoop.1]) : s'.Follows p := by
  obtain ⟨hturn, hloops', hconns', hnext'⟩ := h.getNextLoop
  rw [hconns', hturn] at hconns
  have hlen : s'.conns.length = s.conns.length + 1 := by
    simpa using congrArg List.length hconns
  have hsame : s'.loops_ = s.loops_ := hloops.trans hloops'
  refine ⟨by rw [h.loops, hsame], h.base, fun hne => ?_, ?_⟩
  · rw [hsame] at hne ⊢
    rw [hnext, hlen]
    exact hnext' hne
  · rw [hconns, hlen, h.conns, List.range_succ, List.map_append]
    rfl

theorem Follows.newConnection {s : TcpServer κ} {p : EventLoopThreadPool Nat} (h : s.Follows p)
    (sockfd : Nat) (script : List (Nat × ConnCall)) :
    (s.newConnection sockfd script).Follows p := by
  unfold TcpServer.newConnection
  dsimp only
  split
  · apply Follows.of_placement _ (placement_connectEstablished _ _ _)
    exact h.added rfl rfl (by simp [newConn])
  · apply Follows.of_placement _ (placement_queueInLoop _ _ _ _)
    exact h.added rfl rfl (by simp [newConn])

theorem Follows.step {s : TcpServer κ} {p : EventLoopThreadPool Nat} (h : s.Follows p)
    (e : ServerEvent) : (s.step e).Follows p := by
  cases e with
  | accept sockfd script => exact h.newConnection sockfd script
  | poll loop ready => exact h.of_placement rfl
  | handleEvent loop n r script =>
      simp only [TcpServer.step]
      split
      · exact h
      · exact h.of_placement (placement_handleEvent _ _ _ _ _ _)
  | run i r script =>
      simp only [TcpServer.step]
      split
      · exact h
      · exact h.of_placement (placement_runFunctor _ _ _ _ _)
  | call caller x => exact h.of_placement (placement_call caller s x)
  | destruct c => exact h.of_placement (placement_destruct s c)

/-- Of `m` deals over `n` loops, each loop has had its share, rounded down or up. -/
theorem Follows.count {s : TcpServer κ} {p : EventLoopThreadPool Nat} (h : s.Follows p) {i : Nat}
    (hi : i < s.loops_) :
    (s.conns.map TcpConn.loop_).count (i + 1) = s.conns.length / s.loops_ +
      if i < s.conns.length % s.loops_ then 1 else 0 := by
  have hpos : 0 < s.loops_ := by omega
  have hturn : ∀ m, ((List.range m).map p.turn).count (i + 1) =
      m.count (· ≡ i [MOD s.loops_]) := by
    intro m
    induction m with
    | zero => rfl
    | succ m ih =>
        rw [List.range_succ, List.map_append, List.count_append, ih, Nat.count_succ,
          List.map_singleton, List.count_singleton, h.turn]
        simp [Nat.ModEq, Nat.mod_eq_of_lt hi, hpos.ne']
  rw [h.conns, hturn, Nat.count_modEq_card _ hpos, Nat.mod_eq_of_lt hi]

theorem Follows.exec {s : TcpServer κ} {p : EventLoopThreadPool Nat} (h : s.Follows p)
    (es : List ServerEvent) : (Run.exec TcpServer.step s es).Follows p :=
  Run.exec_of_forall (I := fun s : TcpServer κ => s.Follows p) (fun _ e h => h.step e) h es

/-- The size of the pool is never changed. -/
theorem Follows.loops_eq {s s' : TcpServer κ} {p : EventLoopThreadPool Nat} (h : s.Follows p)
    (h' : s'.Follows p) : s'.loops_ = s.loops_ := by
  simpa using congrArg List.length (h'.loops.symm.trans h.loops)

/-- Any run of a server with `n` threads: its connections are in the loops that `getNextLoop` of a
    pool of that size gives, call by call, without an assertion failing; no connection is in the
    base loop unless the pool is empty, and of the pool's loops none has had two connections more
    than another. -/
theorem connections_follow_pool (name_ : Bytes) (listenAddr : InetAddress) (loops_ : Nat)
    (connectionCallback_ : Nat → Bool → Option κ → Option κ)
    (messageCallback_ : Nat → Option κ → Option κ) (writeCompleteCallback_ : Bool)
    (es : List ServerEvent) :
    let s := Run.exec step (new name_ listenAddr loops_ connectionCallback_ messageCallback_
      writeCompleteCallback_) es
    let where_ := s.conns.map TcpConn.loop_
    (∃ p initialised p', ((EventLoopThreadPool.new 0).setThreadNum loops_).start (· + 1) =
        .ok (p, initialised) ∧ p.getNextLoops s.conns.length = .ok (where_, p') ∧
        p.getAllLoops = .ok initialised ∧ ∀ loop ∈ where_, loop ∈ initialised) ∧
      ∀ i j, i < loops_ → j < loops_ → where_.count (i + 1) ≤ where_.count (j + 1) + 1 := by
  intro s where_
  obtain ⟨p, initialised, hstart, hdealt, hbase, hloops, hall⟩ :=
    EventLoopThreadPool.start_new 0 loops_ (· + 1)
  have hnew : (new name_ listenAddr loops_ connectionCallback_ messageCallback_
      writeCompleteCallback_).Follows p := ⟨hloops, hbase, fun _ => (Nat.zero_mod _).symm, rfl⟩
  have hs : s.Follows p := hnew.exec es
  have hsize : s.loops_ = loops_ := hnew.loops_eq hs
  constructor
  · obtain ⟨p', hdeals, -, -⟩ := hdealt.getNextLoops s.conns.length
    refine ⟨p, initialised, p', hstart, ?_, hall, fun loop hloop => ?_⟩
    · rw [hdeals, show where_ = _ from hs.conns]
      simp
    · rw [show where_ = _ from hs.conns] at hloop
      obtain ⟨m, -, rfl⟩ := List.mem_map.mp hloop
      exact p.turn_mem hall m
  · intro i j hi hj
    rw [show where_.count _ = _ from hs.count (hsize ▸ hi),
      show where_.count _ = _ from hs.count (hsize ▸ hj)]
    split <;> split <;> omega

end TcpServer
end DoubleTurnouts
