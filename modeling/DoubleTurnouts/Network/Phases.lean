/-
  DoubleTurnouts.Network.Phases

  The life of a connection is a walk through `Phase`: what `state_` may be,
  which callbacks have been run, whether the poller and the server's map know
  the connection and which functor is on its way for it are all decided by
  the phase.  The invariant `Inv` gives every connection its phase.

  Public calls leave every phase as it is (`Inv.call`); an event moves one
  connection on.  A handler runs user code in the middle, so some phases are
  only seen inside an event: `Phase.settled` are those between two events.
-/
import Mathlib.Tactic
import DoubleTurnouts.Lib.Run
import DoubleTurnouts.Network.TcpServer

namespace DoubleTurnouts

open Decimal

/-- The stations of a connection, each with the functor it waits for, if any. -/
inductive Phase
  | connecting
  | starting
  | established
  | closing
  | closed
  | removing
  | destroying
  | finishing
  | destroyed
  deriving DecidableEq, Repr

namespace Phase

/-- Phases a connection is in between two events. -/
def settled : Phase → Bool
  | .starting | .closing | .closed | .finishing => false
  | _ => true

def Accepts : Phase → StateE → Prop
  | .connecting, state | .starting, state => state = .kConnecting
  | .established, state => state = .kConnected ∨ state = .kDisconnecting
  | _, state => state = .kDisconnected

def callbacks : Phase → List Callback
  | .connecting | .starting => []
  | .established => [.connectEstablished, .connection true]
  | .closing => [.connectEstablished, .connection true, .connection false]
  | .closed | .removing | .destroying | .finishing =>
      [.connectEstablished, .connection true, .connection false, .close]
  | .destroyed =>
      [.connectEstablished, .connection true, .connection false, .close, .connectDestroyed]

def index : Phase → PollIndex
  | .connecting | .starting | .destroyed => .kNew
  | .established => .kAdded
  | _ => .kDeleted

/-- The poller of the I/O loop has the channel in its map. -/
def registered : Phase → Bool
  | .connecting | .starting | .destroyed => false
  | _ => true

/-- The server has the connection in `connections_`. -/
def mapped : Phase → Bool
  | .destroying | .finishing | .destroyed => false
  | _ => true

/-- How many functors of each kind are on their way. -/
def owes : Phase → ConnFunctor → Nat
  | .connecting, .connectEstablished => 1
  | .removing, .removeConnectionInLoop => 1
  | .destroying, .connectDestroyed => 1
  | _, _ => 0

end Phase

/-- The functors that move a connection to its next phase. -/
def ConnFunctor.framing : ConnFunctor → Bool
  | .connectEstablished | .removeConnectionInLoop | .connectDestroyed => true
  | _ => false

/-- The loop a functor of a connection is queued in. -/
def ConnFunctor.home (loop_ : Nat) : ConnFunctor → Nat
  | .removeConnectionInLoop => 0
  | _ => loop_

/-- No flag that no channel asks for. -/
def Revents.Plain (r : Revents) : Prop :=
  r.pollpri = false ∧ r.pollrdhup = false

namespace TcpServer

variable {κ : Type}

/-- The number of queued functors `f` of connection `c`. -/
def owed (s : TcpServer κ) (c : Nat) (f : ConnFunctor) : Nat :=
  s.pending.countP fun x => x.2 = (c, f)

/-- What the user of a server knows about it: what holds of a context once the connection has
    been announced, and which connections may ever be destructed. -/
structure User (κ : Type) where
  context : Nat → Option κ → Prop
  mayDestruct : Nat → Prop

/-- The callbacks keep what is known about contexts. -/
structure User.Keeps (u : User κ) (s : TcpServer κ) : Prop where
  up : ∀ c context, u.context c (s.connectionCallback_ c true context)
  down : ∀ c context, u.context c context → u.context c (s.connectionCallback_ c false context)
  message : ∀ c context, u.context c context → u.context c (s.messageCallback_ c context)

variable {u : User κ}

/-- The connection `c`, with record `k`, is in phase `p`. -/
structure InPhase (u : User κ) (s : TcpServer κ) (c : Nat) (k : TcpConn κ) (p : Phase) : Prop where
  state : p.Accepts k.state_
  callbacks : k.callbacks = p.callbacks
  reading : k.reading = decide (p = .established)
  writing : p ≠ .established → k.sendSide.writing = false
  index : k.index_ = p.index
  added : k.addedToLoop_ = p.registered
  registered : s.channels_ k.loop_ k.fd = some c ↔ p.registered = true
  mapped : s.connections_.lookup k.name_ = some c ↔ p.mapped = true
  owed : ∀ f, f.framing = true → s.owed c f = p.owes f
  context : .connection true ∈ p.callbacks → u.context c k.context_
  alive : k.destructed = true → p = .destroyed ∧ u.mayDestruct c

/-- The server after `n` accepts, with the phase of each connection. -/
structure Inv (u : User κ) (n : Nat) (s : TcpServer κ) (ph : Nat → Phase) : Prop where
  length : s.conns.length = n
  phase : ∀ {c k}, s.conns[c]? = some k → s.InPhase u c k (ph c)
  name : ∀ {c : Nat} {k}, s.conns[c]? = some k → k.name_ = connName s.name_ s.ipPort_ (c + 1)
  nextConnId_ : s.nextConnId_ = wrap32 (n + 1)
  ipPort_ : s.ipPort_.length ≤ 47
  fds : ∀ {c c' : Nat} {k k'}, s.conns[c]? = some k → s.conns[c']? = some k' →
    k.destructed = false → k'.destructed = false → k.fd = k'.fd → c = c'
  channels_ : ∀ {L fd c}, s.channels_ L fd = some c →
    ∃ k, s.conns[c]? = some k ∧ k.loop_ = L ∧ k.fd = fd
  pending : ∀ {L c f}, (L, c, f) ∈ s.pending →
    ∃ k, s.conns[c]? = some k ∧ L = f.home k.loop_ ∧
      (ph c = .connecting → f = .connectEstablished)
  active : ∀ {L c r}, (c, r) ∈ s.active L →
    ph c = .established ∧ r.Plain ∧ ∃ k, s.conns[c]? = some k ∧ k.loop_ = L
  nodup : ∀ L, ((s.active L).map Prod.fst).Nodup
  failed : s.failed = []
  user : u.Keeps s

/-! ## Working on one connection -/

/-- What no step changes of a connection; a destructed connection stays so. -/
structure SameConn (k k' : TcpConn κ) : Prop where
  name_ : k'.name_ = k.name_
  loop_ : k'.loop_ = k.loop_
  fd : k'.fd = k.fd
  destructed : k'.destructed = false → k.destructed = false

/-- From `s` to `s'` only the connection `c` was worked on: its record, its entries in the
    poller's and the server's map, and functors for it. -/
structure Touches (c : Nat) (s s' : TcpServer κ) : Prop where
  name_ : s'.name_ = s.name_
  ipPort_ : s'.ipPort_ = s.ipPort_
  nextConnId_ : s'.nextConnId_ = s.nextConnId_
  connectionCallback_ : s'.connectionCallback_ = s.connectionCallback_
  messageCallback_ : s'.messageCallback_ = s.messageCallback_
  active : s'.active = s.active
  failed : s'.failed = s.failed
  conns : ∃ f : TcpConn κ → TcpConn κ, (∀ k, SameConn k (f k)) ∧ s'.conns = s.conns.modify c f
  channels_ : ∀ L fd, s'.channels_ L fd = s.channels_ L fd ∨
    (∀ c', c' ≠ c → s.channels_ L fd ≠ some c' ∧ s'.channels_ L fd ≠ some c') ∧
      (s'.channels_ L fd = some c → ∃ k, s.conns[c]? = some k ∧ k.loop_ = L ∧ k.fd = fd)
  connections_ : ∀ n, s'.connections_.lookup n = s.connections_.lookup n ∨
    s.connections_.lookup n = some c ∧ s'.connections_.lookup n = none
  pending : ∃ new, s'.pending = s.pending ++ new ∧
    ∀ x ∈ new, x.2.1 = c ∧ ∃ k, s.conns[c]? = some k ∧ x.1 = x.2.2.home k.loop_

namespace Touches

variable {c : Nat} {s s' s'' : TcpServer κ}

theorem refl (c : Nat) (s : TcpServer κ) : Touches c s s where
  name_ := rfl
  ipPort_ := rfl
  nextConnId_ := rfl
  connectionCallback_ := rfl
  messageCallback_ := rfl
  active := rfl
  failed := rfl
  conns := ⟨id, fun _ => ⟨rfl, rfl, rfl, id⟩, by rw [List.modify_id]⟩
  channels_ := fun _ _ => .inl rfl
  connections_ := fun _ => .inl rfl
  pending := ⟨[], by simp⟩

theorem conn_other (h : Touches c s s') {c' : Nat} (hne : c' ≠ c) :
    s'.conns[c']? = s.conns[c']? := by
  obtain ⟨f, -, hconns⟩ := h.conns
  rw [hconns, List.getElem?_modify_ne f s.conns hne.symm]

/-- Every record goes back to one of the same connection. -/
theorem back (h : Touches c s s') {c' : Nat} {k' : TcpConn κ} (hk' : s'.conns[c']? = some k') :
    ∃ k, s.conns[c']? = some k ∧ SameConn k k' := by
  rcases eq_or_ne c' c with rfl | hne
  · obtain ⟨f, hf, hconns⟩ := h.conns
    rw [hconns, List.getElem?_modify_eq] at hk'
    obtain ⟨k, hk, rfl⟩ := Option.map_eq_some_iff.mp hk'
    exact ⟨k, hk, hf k⟩
  · rw [h.conn_other hne] at hk'
    exact ⟨k', hk', ⟨rfl, rfl, rfl, id⟩⟩

/-- No record is lost. -/
theorem forward (h : Touches c s s') {c' : Nat} {k : TcpConn κ} (hk : s.conns[c']? = some k) :
    ∃ k', s'.conns[c']? = some k' ∧ SameConn k k' := by
  rcases eq_or_ne c' c with rfl | hne
  · obtain ⟨f, hf, hconns⟩ := h.conns
    refine ⟨f k, ?_, hf k⟩
    rw [hconns, List.getElem?_modify_eq, hk]
    rfl
  · exact ⟨k, (h.conn_other hne).trans hk, ⟨rfl, rfl, rfl, id⟩⟩

theorem trans (h : Touches c s s') (h' : Touches c s' s'') : Touches c s s'' where
  name_ := h'.name_.trans h.name_
  ipPort_ := h'.ipPort_.trans h.ipPort_
  nextConnId_ := h'.nextConnId_.trans h.nextConnId_
  connectionCallback_ := h'.connectionCallback_.trans h.connectionCallback_
  messageCallback_ := h'.messageCallback_.trans h.messageCallback_
  active := h'.active.trans h.active
  failed := h'.failed.trans h.failed
  conns := by
    obtain ⟨f, hf, hconns⟩ := h.conns
    obtain ⟨g, hg, hconns'⟩ := h'.conns
    refine ⟨g ∘ f, fun k => ?_, by rw [hconns', hconns, List.modify_modify_eq]⟩
    have h1 := hf k
    have h2 := hg (f k)
    exact ⟨h2.name_.trans h1.name_, h2.loop_.trans h1.loop_, h2.fd.trans h1.fd,
      fun hd => h1.destructed (h2.destructed hd)⟩
  channels_ := by
    intro L fd
    have back : (∃ k, s'.conns[c]? = some k ∧ k.loop_ = L ∧ k.fd = fd) →
        ∃ k, s.conns[c]? = some k ∧ k.loop_ = L ∧ k.fd = fd := by
      rintro ⟨k', hk', rfl, rfl⟩
      obtain ⟨k, hk, hsame⟩ := h.back hk'
      exact ⟨k, hk, hsame.loop_.symm, hsame.fd.symm⟩
    rcases h.channels_ L fd with heq | ⟨hother, hown⟩
    · rw [← heq]
      rcases h'.channels_ L fd with heq' | ⟨hother', hown'⟩
      · exact .inl heq'
      · exact .inr ⟨hother', fun hc => back (hown' hc)⟩
    · rcases h'.channels_ L fd with heq' | ⟨hother', hown'⟩
      · rw [heq']
        exact .inr ⟨hother, hown⟩
      · exact .inr ⟨fun c' hne => ⟨(hother c' hne).1, (hother' c' hne).2⟩,
          fun hc => back (hown' hc)⟩
  connections_ := by
    intro n
    rcases h.connections_ n with heq | ⟨hin, hout⟩
    · rw [← heq]
      exact h'.connections_ n
    · rcases h'.connections_ n with heq' | ⟨-, hout'⟩
      · exact .inr ⟨hin, heq'.trans hout⟩
      · exact .inr ⟨hin, hout'⟩
  pending := by
    obtain ⟨new, hp, hnew⟩ := h.pending
    obtain ⟨new', hp', hnew'⟩ := h'.pending
    refine ⟨new ++ new', by rw [hp', hp, List.append_assoc], fun x hx => ?_⟩
    rcases List.mem_append.mp hx with hx | hx
    · exact hnew x hx
    · obtain ⟨hc, k', hk', hhome⟩ := hnew' x hx
      obtain ⟨k, hk, hsame⟩ := h.back hk'
      exact ⟨hc, k, hk, by rw [hhome, hsame.loop_]⟩

/-- Functors of other connections are neither added nor taken. -/
theorem owed_other (h : Touches c s s') {c' : Nat} (hne : c' ≠ c) (f : ConnFunctor) :
    s'.owed c' f = s.owed c' f := by
  obtain ⟨new, hp, hnew⟩ := h.pending
  have hzero : new.countP (fun x => x.2 = (c', f)) = 0 := by
    rw [List.countP_eq_zero]
    intro x hx hxf
    have hfst : x.2.1 = c' := congrArg Prod.fst (of_decide_eq_true hxf)
    exact hne (hfst.symm.trans (hnew x hx).1)
  rw [owed, hp, List.countP_append, hzero, Nat.add_zero, owed]

/-- Other connections stay in their phase. -/
theorem inPhase_other (h : Touches c s s') {c' : Nat} (hne : c' ≠ c) {k : TcpConn κ} {p : Phase}
    (hp : s.InPhase u c' k p) : s'.InPhase u c' k p where
  state := hp.state
  callbacks := hp.callbacks
  reading := hp.reading
  writing := hp.writing
  index := hp.index
  added := hp.added
  registered := by
    rw [← hp.registered]
    rcases h.channels_ k.loop_ k.fd with heq | ⟨hother, -⟩
    · rw [heq]
    · exact iff_of_false (hother c' hne).2 (hother c' hne).1
  mapped := by
    rw [← hp.mapped]
    rcases h.connections_ k.name_ with heq | ⟨hin, hout⟩
    · rw [heq]
    · rw [hin, hout]
      simp [hne.symm]
  owed := by
    intro f hf
    rw [h.owed_other hne, hp.owed f hf]
  context := hp.context
  alive := hp.alive

end Touches

/-- Work on one connection that brings it into phase `p` keeps the invariant.  A connection
    that is brought to `connecting` has nothing queued but its `connectEstablished`. -/
theorem Inv.touch_of {n : Nat} {s s' : TcpServer κ} {ph : Nat → Phase} (h : Inv u n s ph) {c : Nat}
    (ht : Touches c s s') {p : Phase} (hp : ∀ k, s'.conns[c]? = some k → s'.InPhase u c k p)
    (hact : p = .established ∨ ∀ L, ∀ x ∈ s.active L, x.1 ≠ c)
    (hpc : ∀ L f, (L, c, f) ∈ s'.pending → p = .connecting → f = .connectEstablished) :
    Inv u n s' (Function.update ph c p) where
  length := by
    obtain ⟨f, -, hconns⟩ := ht.conns
    rw [hconns, List.length_modify, h.length]
  phase := by
    intro c' k hk
    rcases eq_or_ne c' c with rfl | hne
    · rw [Function.update_self]
      exact hp k hk
    · rw [Function.update_of_ne hne]
      rw [ht.conn_other hne] at hk
      exact ht.inPhase_other hne (h.phase hk)
  name := by
    intro c' k hk
    obtain ⟨k₀, hk₀, hsame⟩ := ht.back hk
    rw [hsame.name_, h.name hk₀, ht.name_, ht.ipPort_]
  nextConnId_ := ht.nextConnId_.trans h.nextConnId_
  ipPort_ := ht.ipPort_ ▸ h.ipPort_
  fds := by
    intro c₁ c₂ k₁ k₂ hk₁ hk₂ hd₁ hd₂ hfd
    obtain ⟨j₁, hj₁, hs₁⟩ := ht.back hk₁
    obtain ⟨j₂, hj₂, hs₂⟩ := ht.back hk₂
    exact h.fds hj₁ hj₂ (hs₁.destructed hd₁) (hs₂.destructed hd₂)
      (by rw [← hs₁.fd, ← hs₂.fd, hfd])
  channels_ := by
    intro L fd c' hc'
    -- an entry is an old one or that of `c`
    have hbefore : ∃ k, s.conns[c']? = some k ∧ k.loop_ = L ∧ k.fd = fd := by
      rcases ht.channels_ L fd with heq | ⟨hother, hown⟩
      · exact h.channels_ (heq ▸ hc')
      · rcases eq_or_ne c' c with rfl | hne
        · exact hown hc'
        · exact absurd hc' (hother c' hne).2
    obtain ⟨k, hk, rfl, rfl⟩ := hbefore
    obtain ⟨k', hk', hsame⟩ := ht.forward hk
    exact ⟨k', hk', hsame.loop_, hsame.fd⟩
  pending := by
    intro L c' f hx
    have hin := hx
    obtain ⟨new, hpend, hnew⟩ := ht.pending
    rw [hpend] at hx
    -- what is new in the queue is for `c`, and in the loop it belongs to
    have hhome : ∃ k, s.conns[c']? = some k ∧ L = f.home k.loop_ := by
      rcases List.mem_append.mp hx with hx | hx
      · obtain ⟨k, hk, hhome, -⟩ := h.pending hx
        exact ⟨k, hk, hhome⟩
      · obtain ⟨rfl, k, hk, hhome⟩ := hnew _ hx
        exact ⟨k, hk, hhome⟩
    obtain ⟨k, hk, rfl⟩ := hhome
    obtain ⟨k', hk', hsame⟩ := ht.forward hk
    refine ⟨k', hk', by rw [hsame.loop_], ?_⟩
    rcases eq_or_ne c' c with rfl | hne
    · rw [Function.update_self]
      exact hpc _ f hin
    · rw [Function.update_of_ne hne]
      rcases List.mem_append.mp hx with hx | hx
      · exact (h.pending hx).choose_spec.2.2
      · exact absurd (hnew _ hx).1 hne
  active := by
    intro L c' r hx
    rw [ht.active] at hx
    obtain ⟨hph, hplain, k, hk, hloop⟩ := h.active hx
    obtain ⟨k', hk', hsame⟩ := ht.forward hk
    refine ⟨?_, hplain, k', hk', hsame.loop_.trans hloop⟩
    rcases eq_or_ne c' c with rfl | hne
    · rw [Function.update_self]
      exact hact.resolve_right fun hnone => hnone L _ hx rfl
    · rw [Function.update_of_ne hne]
      exact hph
  nodup := ht.active ▸ h.nodup
  failed := ht.failed.trans h.failed
  user := by
    obtain ⟨hup, hdown, hmessage⟩ := h.user
    constructor
    · rwa [ht.connectionCallback_]
    · rwa [ht.connectionCallback_]
    · rwa [ht.messageCallback_]

/-- The other phases. -/
theorem Inv.touch {n : Nat} {s s' : TcpServer κ} {ph : Nat → Phase} (h : Inv u n s ph) {c : Nat}
    (ht : Touches c s s') {p : Phase} (hp : ∀ k, s'.conns[c]? = some k → s'.InPhase u c k p)
    (hact : p = .established ∨ ∀ L, ∀ x ∈ s.active L, x.1 ≠ c) (hpc : p ≠ .connecting) :
    Inv u n s' (Function.update ph c p) :=
  h.touch_of ht hp hact fun _ _ _ hcon => absurd hcon hpc

/-- A connection that is not established is in no list of active channels. -/
theorem Inv.not_active {n : Nat} {s : TcpServer κ} {ph : Nat → Phase} (h : Inv u n s ph) {c : Nat}
    (hc : ph c ≠ .established) : ∀ L, ∀ x ∈ s.active L, x.1 ≠ c := by
  rintro L ⟨c', r⟩ hx rfl
  exact hc (h.active hx).1

/-! ## The single actions on a connection -/

section Actions

variable {s : TcpServer κ} {c : Nat} {k : TcpConn κ}

theorem check_of {p : Prop} [Decidable p] (hp : p) (a : ConnAssert) : s.check a p = s :=
  if_pos hp

theorem conns_modifyConn (hk : s.conns[c]? = some k) (f : TcpConn κ → TcpConn κ) :
    (s.modifyConn c f).conns[c]? = some (f k) := by
  show (s.conns.modify c f)[c]? = some (f k)
  rw [List.getElem?_modify_eq, hk]
  rfl

/-- A change that leaves the record of `c` as it is changes nothing. -/
theorem modifyConn_eq_self (hk : s.conns[c]? = some k) {f : TcpConn κ → TcpConn κ}
    (hf : f k = k) : s.modifyConn c f = s := by
  have hconns : s.conns.modify c f = s.conns := by
    apply List.ext_getElem?
    intro c'
    rcases eq_or_ne c c' with rfl | hne
    · rw [List.getElem?_modify_eq, hk, Option.map_eq_map, Option.map_some, hf]
    · rw [List.getElem?_modify_ne f s.conns hne]
  unfold modifyConn
  rw [hconns]

theorem touches_modifyConn (s : TcpServer κ) (c : Nat) {f : TcpConn κ → TcpConn κ}
    (hf : ∀ k, SameConn k (f k)) : Touches c s (s.modifyConn c f) :=
  { Touches.refl c s with conns := ⟨f, hf, rfl⟩ }

theorem Touches.modifyConn {s' : TcpServer κ} (h : Touches c s s') {f : TcpConn κ → TcpConn κ}
    (hf : ∀ k, SameConn k (f k)) : Touches c s (s'.modifyConn c f) :=
  h.trans (touches_modifyConn s' c hf)

theorem touches_queueInLoop (hk : s.conns[c]? = some k) (f : ConnFunctor) :
    Touches c s (s.queueInLoop (f.home k.loop_) c f) :=
  { Touches.refl c s with
    pending := ⟨[(f.home k.loop_, c, f)], rfl, by simp [hk]⟩ }

theorem channels_setChannel (s : TcpServer κ) (L fd : Nat) (v : Option Nat) (L' fd' : Nat) :
    (s.setChannel L fd v).channels_ L' fd' =
      if L' = L ∧ fd' = fd then v else s.channels_ L' fd' := by
  unfold setChannel
  rcases eq_or_ne L' L with rfl | hL
  · rcases eq_or_ne fd' fd with rfl | hfd
    · simp
    · simp [hfd]
  · simp [hL]

/-- The poller's entry of a connection is set or erased, over nothing or its own. -/
theorem touches_setChannel (hk : s.conns[c]? = some k) {v : Option Nat}
    (hold : s.channels_ k.loop_ k.fd = none ∨ s.channels_ k.loop_ k.fd = some c)
    (hv : v = none ∨ v = some c) : Touches c s (s.setChannel k.loop_ k.fd v) :=
  { Touches.refl c s with
    channels_ := by
      intro L fd
      rw [channels_setChannel]
      split
      · rename_i hkey
        obtain ⟨rfl, rfl⟩ := hkey
        refine .inr ⟨fun c' hne => ⟨?_, ?_⟩, fun _ => ⟨k, hk, rfl, rfl⟩⟩
        · rcases hold with hold | hold <;> simp [hold, hne.symm]
        · rcases hv with rfl | rfl <;> simp [hne.symm]
      · exact .inl rfl }

theorem touches_erase {name : Bytes} (hin : s.connections_.lookup name = some c) :
    Touches c s { s with connections_ := s.connections_.erase name } :=
  { Touches.refl c s with
    connections_ := by
      intro n
      rcases eq_or_ne n name with rfl | hne
      · exact .inr ⟨hin, AList.lookup_erase _ _⟩
      · exact .inl (AList.lookup_erase_ne hne) }

theorem owed_queueInLoop (s : TcpServer κ) (L c : Nat) (f g : ConnFunctor) :
    (s.queueInLoop L c f).owed c g = s.owed c g + if f = g then 1 else 0 := by
  unfold owed queueInLoop
  rw [List.countP_append]
  by_cases hfg : f = g <;> simp [hfg]

/-- A functor that frames no phase leaves the phase. -/
theorem InPhase.queueInLoop {p : Phase} (h : s.InPhase u c k p) (L : Nat) {f : ConnFunctor}
    (hf : f.framing = false) : (s.queueInLoop L c f).InPhase u c k p :=
  { h with
    owed := by
      intro g hg
      have hne : f ≠ g := by
        rintro rfl
        rw [hf] at hg
        cases hg
      rw [owed_queueInLoop, if_neg hne, Nat.add_zero, h.owed g hg] }

/-! ### The poller -/

/-- The first registration of a channel. -/
theorem updateChannel_new (hk : s.conns[c]? = some k) (hindex : k.index_ = .kNew)
    (hfree : s.channels_ k.loop_ k.fd = none) :
    s.updateChannel c = (s.setChannel k.loop_ k.fd (some c)).modifyConn c TcpConn.epollAdd := by
  unfold updateChannel
  rw [hk]
  dsimp only
  rw [hindex]
  dsimp only
  rw [check_of hfree]

/-- A registered channel whose events have changed. -/
theorem updateChannel_added (hk : s.conns[c]? = some k) (hindex : k.index_ = .kAdded)
    (hreg : s.channels_ k.loop_ k.fd = some c) :
    s.updateChannel c = s.modifyConn c TcpConn.epollMod := by
  unfold updateChannel
  rw [hk]
  dsimp only
  rw [hindex]
  dsimp only
  rw [check_of hreg]

/-- The poller has nothing to do for a registered channel that still asks for events. -/
theorem updateChannel_established (hk : s.conns[c]? = some k) (h : s.InPhase u c k .established) :
    s.updateChannel c = s := by
  have hnone : k.isNoneEvent = false := by simp [TcpConn.isNoneEvent, h.reading]
  have hindex : k.index_ = .kAdded := h.index
  have hadded : k.addedToLoop_ = true := h.added
  rw [updateChannel_added hk hindex (h.registered.mpr rfl)]
  refine modifyConn_eq_self hk ?_
  simp only [TcpConn.epollMod, hnone, Bool.false_eq_true, if_false]
  rw [← hadded, ← hindex]

theorem connectionCallback_eq (hk : s.conns[c]? = some k) (script : List (Nat × ConnCall)) :
    s.connectionCallback c script =
      script.foldl (call (some k.loop_)) (s.modifyConn c fun k =>
        { k.ran (.connection k.connected) with
          context_ := s.connectionCallback_ c k.connected k.context_ }) := by
  unfold connectionCallback
  rw [hk]

end Actions

/-! ## Public calls and writes keep every phase -/

section Calls

variable {n : Nat} {s : TcpServer κ} {ph : Nat → Phase}

/-- Work on a connection that leaves it in its phase. -/
theorem Inv.touch_same (h : Inv u n s ph) {s' : TcpServer κ} {c : Nat} (ht : Touches c s s')
    (hp : ∀ k, s'.conns[c]? = some k → s'.InPhase u c k (ph c)) (hpc : ph c ≠ .connecting) :
    Inv u n s' ph := by
  have hact : ph c = .established ∨ ∀ L, ∀ x ∈ s.active L, x.1 ≠ c := by
    by_cases hest : ph c = .established
    · exact .inl hest
    · exact .inr (h.not_active hest)
  have htouched := h.touch ht hp hact hpc
  rwa [Function.update_eq_self] at htouched

/-- The write interest of a channel changes only while it is registered, where it is a
    matter of the poller's flags alone. -/
theorem Inv.onSendSide (h : Inv u n s ph) (c : Nat) {f : SendSide → SendSide}
    (hstate : ∀ side, (f side).state_ = side.state_)
    (hwriting : ∀ k, s.conns[c]? = some k → ph c ≠ .established →
      (f k.sendSide).writing = k.sendSide.writing)
    (hpc : ph c ≠ .connecting) : Inv u n (s.onSendSide c f) ph := by
  unfold TcpServer.onSendSide
  cases hk : s.conns[c]? with
  | none => exact h
  | some k =>
      dsimp only
      have hphase := h.phase hk
      -- the record with the new send side
      have ht₁ : Touches c s (s.modifyConn c fun k' => { k' with sendSide := f k.sendSide }) :=
        touches_modifyConn s c fun k' => ⟨rfl, rfl, rfl, id⟩
      have hk₁ := conns_modifyConn hk fun k' => { k' with sendSide := f k.sendSide }
      have hp₁ : (s.modifyConn c fun k' => { k' with sendSide := f k.sendSide }).InPhase u c
          { k with sendSide := f k.sendSide } (ph c) :=
        { hphase with
          state := by
            show (ph c).Accepts (f k.sendSide).state_
            rw [hstate]
            exact hphase.state
          writing := fun hne => (hwriting k hk hne).trans (hphase.writing hne) }
      generalize s.modifyConn c (fun k' => { k' with sendSide := f k.sendSide }) = s₁ at *
      -- with the completion callback it may ask for
      obtain ⟨s₂, hs₂, ht₂, hk₂, hp₂⟩ : ∃ s₂, (if (f k.sendSide).queued = k.sendSide.queued then s₁
          else s₁.queueInLoop k.loop_ c .writeComplete) = s₂ ∧ Touches c s s₂ ∧
          s₂.conns[c]? = some { k with sendSide := f k.sendSide } ∧
          s₂.InPhase u c { k with sendSide := f k.sendSide } (ph c) := by
        by_cases hq : (f k.sendSide).queued = k.sendSide.queued
        · exact ⟨s₁, if_pos hq, ht₁, hk₁, hp₁⟩
        · exact ⟨_, if_neg hq, ht₁.trans (touches_queueInLoop hk₁ .writeComplete), hk₁,
            hp₁.queueInLoop k.loop_ rfl⟩
      rw [hs₂]
      have hsame : Inv u n s₂ ph := by
        refine h.touch_same ht₂ (fun k' hk' => ?_) hpc
        rw [hk₂] at hk'
        cases hk'
        exact hp₂
      split
      · exact hsame
      · rename_i hchanged
        have hest : ph c = .established := by
          by_contra hne
          exact hchanged (hwriting k hk hne)
        rw [updateChannel_established hk₂ (hest ▸ hp₂)]
        exact hsame

theorem InPhase.isOpen_iff {c : Nat} {k : TcpConn κ} {p : Phase} (h : s.InPhase u c k p) :
    k.isOpen = true ↔ p = .established := by
  have hstate := h.state
  unfold TcpConn.isOpen
  cases p <;> simp_all [Phase.Accepts]

theorem InPhase.established_of_connected {c : Nat} {k : TcpConn κ} {p : Phase}
    (h : s.InPhase u c k p) (hc : k.state_ = .kConnected) : p = .established :=
  h.isOpen_iff.mp (by simp [TcpConn.isOpen, hc])

theorem Inv.sendInLoop (h : Inv u n s ph) {c : Nat} (message : Bytes) (r : WriteResult)
    (hpc : ph c ≠ .connecting) (hps : ph c ≠ .starting) :
    Inv u n (s.sendInLoop c message r) ph := by
  refine h.onSendSide c (fun side => SendSide.sendInLoop_state_ side message r) ?_ hpc
  intro k hk hne
  -- outside `established` the connection is down, and a send gives up
  have hdown : k.sendSide.state_ = .kDisconnected := by
    have hstate := (h.phase hk).state
    cases hp : ph c <;> rw [hp] at hstate <;> simp_all [Phase.Accepts, TcpConn.state_]
  show (k.sendSide.sendInLoop message r).writing = k.sendSide.writing
  rw [SendSide.sendInLoop, if_pos hdown]

theorem Inv.handleWrite (h : Inv u n s ph) {c : Nat} (r : WriteResult) (hpc : ph c ≠ .connecting) :
    Inv u n (s.handleWrite c r) ph := by
  refine h.onSendSide c (fun side => SendSide.handleWrite_state_ side r) ?_ hpc
  intro k hk hne
  have hoff := (h.phase hk).writing hne
  show (k.sendSide.handleWrite r).writing = k.sendSide.writing
  rw [SendSide.handleWrite, if_neg (by simp [hoff])]

theorem Inv.shutdownInLoop (h : Inv u n s ph) {c : Nat} (hpc : ph c ≠ .connecting) :
    Inv u n (s.shutdownInLoop c) ph := by
  refine h.onSendSide c SendSide.shutdownInLoop_state_ ?_ hpc
  intro k hk hne
  unfold SendSide.shutdownInLoop
  split <;> rfl

theorem Inv.queueInLoop (h : Inv u n s ph) {c : Nat} {k : TcpConn κ} (hk : s.conns[c]? = some k)
    {f : ConnFunctor} (hf : f.framing = false) (hpc : ph c ≠ .connecting) :
    Inv u n (s.queueInLoop (f.home k.loop_) c f) ph := by
  refine h.touch_same (touches_queueInLoop hk f) (fun k' hk' => ?_) hpc
  exact (h.phase hk').queueInLoop _ hf

theorem Inv.setDisconnecting (h : Inv u n s ph) {c : Nat} (hest : ph c = .established) :
    Inv u n (s.modifyConn c fun k => k.setState .kDisconnecting) ph := by
  refine h.touch_same (touches_modifyConn s c fun k => ⟨rfl, rfl, rfl, id⟩) ?_
    (by simp [hest])
  intro k' hk'
  cases hk : s.conns[c]? with
  | none =>
      simp [modifyConn, hk] at hk'
  | some k =>
      rw [conns_modifyConn hk] at hk'
      cases hk'
      have hphase := h.phase hk
      rw [hest] at hphase ⊢
      exact { hphase with state := .inr rfl }

theorem Inv.send (h : Inv u n s ph) (caller : Option Nat) (c : Nat) (message : Bytes)
    (r : WriteResult) : Inv u n (s.send caller c message r) ph := by
  unfold TcpServer.send
  cases hk : s.conns[c]? with
  | none => exact h
  | some k =>
      dsimp only
      split
      · rename_i hconn
        have hest := (h.phase hk).established_of_connected hconn
        split
        · exact h.sendInLoop message r (by simp [hest]) (by simp [hest])
        · exact @Inv.queueInLoop κ u n s ph h c k hk (.sendInLoop message) rfl (by simp [hest])
      · exact h

theorem Inv.shutdown (h : Inv u n s ph) (caller : Option Nat) (c : Nat) :
    Inv u n (s.shutdown caller c) ph := by
  unfold TcpServer.shutdown
  cases hk : s.conns[c]? with
  | none => exact h
  | some k =>
      dsimp only
      split
      · rename_i hconn
        have hest := (h.phase hk).established_of_connected hconn
        have h₁ := h.setDisconnecting hest
        have hk₁ := conns_modifyConn hk fun k => k.setState .kDisconnecting
        split
        · exact h₁.shutdownInLoop (by simp [hest])
        · exact @Inv.queueInLoop κ u n _ ph h₁ c _ hk₁ .shutdownInLoop rfl (by simp [hest])
      · exact h

theorem Inv.forceClose (h : Inv u n s ph) (c : Nat) : Inv u n (s.forceClose c) ph := by
  unfold TcpServer.forceClose
  cases hk : s.conns[c]? with
  | none => exact h
  | some k =>
      dsimp only
      split
      · rename_i hopen
        have hest := (h.phase hk).isOpen_iff.mp hopen
        have hk₁ := conns_modifyConn hk fun k => k.setState .kDisconnecting
        exact @Inv.queueInLoop κ u n _ ph (h.setDisconnecting hest) c _ hk₁ .forceCloseInLoop rfl
          (by simp [hest])
      · exact h

theorem Inv.call (h : Inv u n s ph) (caller : Option Nat) (x : Nat × ConnCall) :
    Inv u n (s.call caller x) ph := by
  unfold TcpServer.call
  split
  · exact h.send caller x.1 _ _
  · exact h.shutdown caller x.1
  · exact h.forceClose x.1

/-- The calls a user callback makes. -/
theorem Inv.calls (h : Inv u n s ph) (caller : Option Nat) (script : List (Nat × ConnCall)) :
    Inv u n (script.foldl (TcpServer.call caller) s) ph := by
  induction script generalizing s with
  | nil => exact h
  | cons x xs ih => exact ih (h.call caller x)

end Calls

/-! ## From phase to phase -/

section Moves

variable {n : Nat} {s : TcpServer κ} {ph : Nat → Phase} {c : Nat} {k : TcpConn κ}

/-- Nobody else's channel is in the place a new connection registers its own. -/
theorem Inv.channel_free (h : Inv u n s ph) (hk : s.conns[c]? = some k) (hph : ph c = .starting) :
    s.channels_ k.loop_ k.fd = none := by
  have hphase := h.phase hk
  rw [hph] at hphase
  cases hch : s.channels_ k.loop_ k.fd with
  | none => rfl
  | some c' =>
      exfalso
      obtain ⟨k', hk', hloop, hfd⟩ := h.channels_ hch
      have hphase' := h.phase hk'
      have hreg : (ph c').registered = true := hphase'.registered.mp (by rw [hloop, hfd, hch])
      have halive : k.destructed = false := by
        by_contra hd
        exact absurd (hphase.alive (by simpa using hd)).1 (by decide)
      have halive' : k'.destructed = false := by
        by_contra hd
        rw [(hphase'.alive (by simpa using hd)).1] at hreg
        cases hreg
      have hsame : c' = c := h.fds hk' hk halive' halive hfd
      rw [hsame, hph] at hreg
      cases hreg

theorem Inv.connectEstablished (h : Inv u n s ph) (hk : s.conns[c]? = some k)
    (hph : ph c = .starting) (script : List (Nat × ConnCall)) :
    Inv u n (s.connectEstablished c script) (Function.update ph c .established) := by
  have hphase := h.phase hk
  rw [hph] at hphase
  have hfree := h.channel_free hk hph
  unfold TcpServer.connectEstablished
  rw [hk]
  dsimp only
  rw [check_of (show k.state_ = .kConnecting from hphase.state)]
  let f₁ : TcpConn κ → TcpConn κ := fun k =>
    ((k.ran .connectEstablished).setState .kConnected).enableReading
  have hk₁ := conns_modifyConn hk f₁
  rw [updateChannel_new hk₁ hphase.index hfree]
  have hk₂ := conns_modifyConn
    (s := (s.modifyConn c f₁).setChannel (f₁ k).loop_ (f₁ k).fd (some c)) hk₁ TcpConn.epollAdd
  rw [connectionCallback_eq hk₂]
  apply Inv.calls
  -- the record is now connected, registered and announced
  have ht₁ : Touches c s (s.modifyConn c f₁) :=
    touches_modifyConn s c fun k => ⟨rfl, rfl, rfl, id⟩
  have ht₂ := ht₁.trans (touches_setChannel hk₁ (.inl hfree) (.inr rfl))
  refine h.touch ((ht₂.modifyConn ?_).modifyConn ?_) ?_ (.inl rfl) (by decide)
  · exact fun k => ⟨rfl, rfl, rfl, id⟩
  · exact fun k => ⟨rfl, rfl, rfl, id⟩
  intro k' hk'
  rw [conns_modifyConn hk₂] at hk'
  cases hk'
  exact
    { state := .inl rfl
      callbacks := by
        show (k.callbacks ++ [_]) ++ [_] = _
        rw [hphase.callbacks]
        rfl
      reading := rfl
      writing := fun hne => absurd rfl hne
      index := rfl
      added := rfl
      registered := iff_of_true
        ((channels_setChannel _ _ _ _ _ _).trans (if_pos ⟨rfl, rfl⟩)) rfl
      mapped := hphase.mapped
      owed := hphase.owed
      context := fun _ => h.user.up c _
      alive := fun hd => absurd (hphase.alive hd).1 (by decide) }

/-- The first half of `handleClose`: the connection is down and its user is told. -/
theorem Inv.closing (h : Inv u n s ph) (hk : s.conns[c]? = some k) (hph : ph c = .established)
    (hidle : ∀ L, ∀ x ∈ s.active L, x.1 ≠ c) (script : List (Nat × ConnCall)) :
    Inv u n (((s.modifyConn c fun k => (k.setState .kDisconnected).disableAll).updateChannel
      c).connectionCallback c script) (Function.update ph c .closing) := by
  have hphase := h.phase hk
  rw [hph] at hphase
  have hk₁ := conns_modifyConn hk fun k => (k.setState .kDisconnected).disableAll
  rw [updateChannel_added hk₁ hphase.index (hphase.registered.mpr rfl)]
  have hk₂ := conns_modifyConn hk₁ TcpConn.epollMod
  rw [connectionCallback_eq hk₂]
  apply Inv.calls
  refine h.touch (((touches_modifyConn s c ?_).modifyConn ?_).modifyConn ?_) ?_ (.inr hidle)
    (by decide)
  · exact fun k => ⟨rfl, rfl, rfl, id⟩
  · exact fun k => ⟨rfl, rfl, rfl, id⟩
  · exact fun k => ⟨rfl, rfl, rfl, id⟩
  intro k' hk'
  rw [conns_modifyConn hk₂] at hk'
  cases hk'
  exact
    { state := rfl
      callbacks := by
        show k.callbacks ++ [_] = _
        rw [hphase.callbacks]
        rfl
      reading := rfl
      writing := fun _ => rfl
      index := rfl
      added := rfl
      registered := hphase.registered
      mapped := hphase.mapped
      owed := hphase.owed
      context := fun _ => h.user.down c _ (hphase.context (by decide))
      alive := fun hd => absurd (hphase.alive hd).1 (by decide) }

theorem Inv.removeConnectionInLoop (h : Inv u n s ph) (hk : s.conns[c]? = some k)
    (hph : ph c = .closed) :
    Inv u n (s.removeConnectionInLoop c) (Function.update ph c .destroying) := by
  have hphase := h.phase hk
  rw [hph] at hphase
  have hin := hphase.mapped.mpr rfl
  unfold TcpServer.removeConnectionInLoop
  rw [hk]
  dsimp only
  rw [check_of (by rw [hin]; rfl)]
  refine h.touch (p := .destroying) ((touches_erase hin).trans
    (touches_queueInLoop (s := { s with connections_ := s.connections_.erase k.name_ }) hk
      .connectDestroyed)) ?_ (.inr (h.not_active (by simp [hph]))) (by decide)
  intro k' hk'
  obtain rfl : k = k' := Option.some.inj (hk.symm.trans hk')
  exact
    { hphase with
      writing := fun _ => hphase.writing (by decide)
      mapped := iff_of_false (by
        show ¬ (s.connections_.erase k.name_).lookup k.name_ = some c
        rw [AList.lookup_erase]
        simp) (by decide)
      owed := by
        intro f hf
        rw [owed_queueInLoop]
        have howed : owed { s with connections_ := s.connections_.erase k.name_ } c f = 0 :=
          (hphase.owed f hf).trans (by cases f <;> rfl)
        rw [howed]
        cases f <;> rfl
      alive := fun hd => absurd (hphase.alive hd).1 (by decide) }

/-- The removal is left to the base loop. -/
theorem Inv.queueRemoval (h : Inv u n s ph) (hk : s.conns[c]? = some k) (hph : ph c = .closed) :
    Inv u n (s.queueInLoop 0 c .removeConnectionInLoop) (Function.update ph c .removing) := by
  have hphase := h.phase hk
  rw [hph] at hphase
  refine h.touch (touches_queueInLoop hk .removeConnectionInLoop) ?_
    (.inr (h.not_active (by simp [hph]))) (by decide)
  intro k' hk'
  obtain rfl : k = k' := Option.some.inj (hk.symm.trans hk')
  exact
    { hphase with
      writing := fun _ => hphase.writing (by decide)
      owed := by
        intro f hf
        rw [owed_queueInLoop, hphase.owed f hf]
        cases f <;> rfl
      alive := fun hd => absurd (hphase.alive hd).1 (by decide) }

/-- A record is there in every state with as many connections. -/
theorem Inv.exists_conn {s' : TcpServer κ} {ph' : Nat → Phase} (h : Inv u n s ph)
    (h' : Inv u n s' ph') (hk : s.conns[c]? = some k) : ∃ k', s'.conns[c]? = some k' := by
  have hlt : c < s'.conns.length := by
    rw [h'.length, ← h.length]
    exact (List.getElem?_eq_some_iff.mp hk).1
  exact ⟨s'.conns[c], List.getElem?_eq_getElem hlt⟩

theorem Inv.handleClose (h : Inv u n s ph) (hk : s.conns[c]? = some k) (hph : ph c = .established)
    (hidle : ∀ L, ∀ x ∈ s.active L, x.1 ≠ c) (script : List (Nat × ConnCall)) :
    ∃ p, (p = .removing ∨ p = .destroying) ∧
      Inv u n (s.handleClose c script) (Function.update ph c p) := by
  unfold TcpServer.handleClose
  rw [hk]
  dsimp only
  rw [check_of ((h.phase hk).isOpen_iff.mpr hph)]
  have h₂ := h.closing hk hph hidle script
  obtain ⟨k₂, hk₂⟩ := h.exists_conn h₂ hk
  generalize ((s.modifyConn c fun k => (k.setState .kDisconnected).disableAll).updateChannel
    c).connectionCallback c script = s₂ at *
  -- `closeCallback_` is announced, then the removal is run or queued
  have hph₂ : Function.update ph c .closing c = .closing := Function.update_self ..
  have hphase₂ := h₂.phase hk₂
  rw [hph₂] at hphase₂
  have hk₃ := conns_modifyConn hk₂ fun k => k.ran .close
  have h₃ : Inv u n (s₂.modifyConn c fun k => k.ran .close) (Function.update ph c .closed) := by
    have htouch := h₂.touch (p := .closed) (touches_modifyConn s₂ c (f := fun k => k.ran .close)
      fun k => ⟨rfl, rfl, rfl, id⟩) ?_ (.inr (h₂.not_active (by simp))) (by decide)
    · rwa [Function.update_idem] at htouch
    · intro k' hk'
      rw [hk₃] at hk'
      cases hk'
      exact
        { hphase₂ with
          callbacks := by
            show k₂.callbacks ++ [_] = _
            rw [hphase₂.callbacks]
            rfl
          writing := fun _ => hphase₂.writing (by decide)
          context := fun _ => hphase₂.context (by decide)
          alive := fun hd => absurd (hphase₂.alive hd).1 (by decide) }
  have hph₃ : Function.update ph c .closed c = .closed := Function.update_self ..
  unfold TcpServer.removeConnection
  rw [hk₃]
  dsimp only
  split
  · have hdone := h₃.removeConnectionInLoop hk₃ hph₃
    rw [Function.update_idem] at hdone
    exact ⟨.destroying, .inr rfl, hdone⟩
  · have hdone := h₃.queueRemoval hk₃ hph₃
    rw [Function.update_idem] at hdone
    exact ⟨.removing, .inl rfl, hdone⟩

theorem Inv.connectDestroyed (h : Inv u n s ph) (hk : s.conns[c]? = some k)
    (hph : ph c = .finishing) (script : List (Nat × ConnCall)) :
    Inv u n (s.connectDestroyed c script) (Function.update ph c .destroyed) := by
  have hphase := h.phase hk
  rw [hph] at hphase
  -- `handleClose` has set the state and cleared the events: only `remove` is left to do
  have hdown : ¬ k.state_ = .kConnected := by
    have hstate : k.state_ = .kDisconnected := hphase.state
    simp [hstate]
  have hnone : k.isNoneEvent = true := by
    simp [TcpConn.isNoneEvent, hphase.reading, hphase.writing (by decide)]
  have hreg : s.channels_ k.loop_ k.fd = some c := hphase.registered.mpr rfl
  unfold TcpServer.connectDestroyed
  rw [hk]
  dsimp only
  rw [if_neg hdown]
  have hk₁ := conns_modifyConn hk fun k => k.ran .connectDestroyed
  unfold TcpServer.remove
  rw [hk₁]
  dsimp only
  rw [check_of (show (k.ran .connectDestroyed).isNoneEvent = true from hnone),
    check_of ⟨hreg, hnone, .inr hphase.index⟩]
  have hk₂ := conns_modifyConn (s := (s.modifyConn c fun k => k.ran .connectDestroyed).setChannel
    (k.ran .connectDestroyed).loop_ (k.ran .connectDestroyed).fd none) hk₁ TcpConn.epollRemoved
  have ht₁ : Touches c s (s.modifyConn c fun k => k.ran .connectDestroyed) :=
    touches_modifyConn s c fun k => ⟨rfl, rfl, rfl, id⟩
  have ht₂ := ht₁.trans (touches_setChannel hk₁ (.inr hreg) (.inl rfl))
  refine h.touch (ht₂.modifyConn ?_) ?_ (.inr (h.not_active (by simp [hph]))) (by decide)
  · exact fun k => ⟨rfl, rfl, rfl, id⟩
  intro k' hk'
  rw [hk₂] at hk'
  cases hk'
  exact
    { state := hphase.state
      callbacks := by
        show k.callbacks ++ [_] = _
        rw [hphase.callbacks]
        rfl
      reading := hphase.reading
      writing := fun _ => hphase.writing (by decide)
      index := rfl
      added := rfl
      registered := iff_of_false (by
        have hnow := channels_setChannel (s.modifyConn c fun k => k.ran .connectDestroyed)
          k.loop_ k.fd none k.loop_ k.fd
        rw [if_pos ⟨rfl, rfl⟩] at hnow
        intro hsome
        have hclash := hnow.symm.trans hsome
        cases hclash) (by decide)
      mapped := hphase.mapped
      owed := hphase.owed
      context := fun _ => hphase.context (by decide)
      alive := fun hd => absurd (hphase.alive hd).1 (by decide) }

end Moves

end TcpServer
end DoubleTurnouts
