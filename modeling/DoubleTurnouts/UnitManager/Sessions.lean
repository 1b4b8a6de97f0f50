/-
  DoubleTurnouts.UnitManager.Sessions

  Who keeps a client's connection alive.  `onConnection` stores a session in
  the connection's context, and the session holds the connection through
  `conn_`; the two `shared_ptr`s form a cycle that `stop` does not cut.

  `Holds` is the strong-reference relation on top of the server model.  The
  destructor of a connection may run only when nobody holds it, and since the
  connection's own session does from the up callback on, it never runs
  (`disconnected_client_held`): the fd stays open.
-/
import Mathlib.Tactic
import DoubleTurnouts.Lib.Run
import DoubleTurnouts.Network.Lifecycle

namespace DoubleTurnouts

/-- A session: the connection it holds, and whether its PULL socket is at work. -/
structure TcpSession where
  conn_ : Nat
  exit_flage : Bool
  deriving DecidableEq, Repr

/-- `onConnection` of the connection `c`: a new session in its context when it is up, `stop`
    on the session when it is down. -/
def onConnection (c : Nat) (connected : Bool) (context_ : Option TcpSession) :
    Option TcpSession :=
  if connected then some { conn_ := c, exit_flage := true }
  else context_.map fun session => { session with exit_flage := false }

/-- The server `tcp_work` starts.  `onMessage` reads the context and leaves it. -/
def tcp_work (name_ : Bytes) (listenAddr : InetAddress) (loops_ : Nat) : TcpServer TcpSession :=
  .new name_ listenAddr loops_ onConnection (fun _ context_ => context_) false

/-- The places a `shared_ptr` of a connection is kept in: an entry of `connections_`, a queued
    functor, or the session in the context of a connection. -/
inductive Holder
  | connections (name : Bytes)
  | functor (i : Nat)
  | session (owner : Nat)
  deriving DecidableEq, Repr

namespace TcpServer

/-- The strong references to the connection `c`.  A context lives as long as its connection. -/
def Holds (s : TcpServer TcpSession) (c : Nat) : Holder → Prop
  | .connections name => s.connections_.lookup name = some c
  | .functor i => ∃ x ∈ s.pending[i]?, x.2.1 = c ∧ x.2.2.holdsConn = true
  | .session owner => ∃ k ∈ s.conns[owner]?, k.destructed = false ∧
      ∃ session ∈ k.context_, session.conn_ = c

/-- Nobody holds the connection, so that its destructor runs and closes the fd. -/
def Released (s : TcpServer TcpSession) (c : Nat) : Prop := ∀ holder, ¬ s.Holds c holder

/-- The events of a run in which a destructor runs only when the last reference is gone. -/
def Owned (s : TcpServer TcpSession) (e : ServerEvent) : Prop :=
  s.Possible e ∧ ∀ c, e = .destruct c → s.Released c

/-- What is known about the contexts of the manager: once a connection has been announced,
    its context holds a session that holds the connection. -/
def sessionUser : User TcpSession where
  context := fun c context_ => ∃ session, context_ = some session ∧ session.conn_ = c
  mayDestruct := fun _ => False

theorem sessionUser_keeps (name_ : Bytes) (listenAddr : InetAddress) (loops_ : Nat) :
    sessionUser.Keeps (tcp_work name_ listenAddr loops_) where
  up := fun c _ => ⟨⟨c, true⟩, rfl, rfl⟩
  down := by
    rintro c _ ⟨session, rfl, rfl⟩
    exact ⟨_, rfl, rfl⟩
  message := fun _ _ h => h

/-- An announced connection is held by its own session. -/
theorem InPhase.holds_session {s : TcpServer TcpSession} {c : Nat} {k : TcpConn TcpSession}
    {p : Phase} (hk : s.conns[c]? = some k) (h : s.InPhase sessionUser c k p)
    (hup : .connection true ∈ p.callbacks) : s.Holds c (.session c) ∧ k.destructed = false := by
  have halive : k.destructed = false := by
    by_contra hd
    exact (h.alive (by simpa using hd)).2
  obtain ⟨session, hcontext, hconn⟩ := h.context hup
  exact ⟨⟨k, hk, halive, session, hcontext, hconn⟩, halive⟩

/-- A client that is gone, with `connectDestroyed` run, is held by its session whatever the
    queues hold: it is not released, and its fd is not closed. -/
theorem disconnected_client_held (name_ : Bytes) (listenAddr : InetAddress) (loops_ : Nat)
    (es : List ServerEvent) (hes : Run.AllSteps step Owned (tcp_work name_ listenAddr loops_) es)
    (hfew : es.countP isAccept < 2 ^ 31) (c : Nat) (k : TcpConn TcpSession)
    (hk : (Run.exec step (tcp_work name_ listenAddr loops_) es).conns[c]? = some k)
    (hdestroyed : .connectDestroyed ∈ k.callbacks) :
    (Run.exec step (tcp_work name_ listenAddr loops_) es).Holds c (.session c) ∧
      ¬ (Run.exec step (tcp_work name_ listenAddr loops_) es).Released c ∧
      k.destructed = false := by
  have hmay : ∀ {n s ph c}, Inv sessionUser n s ph → Settled ph → Owned s (.destruct c) →
      sessionUser.mayDestruct c := by
    intro n s ph c hinv hset ⟨hpos, hreleased⟩
    -- a destructor that is due finds the connection announced, hence held by its own session
    obtain ⟨k, hk, -, hdes⟩ := hinv.destroyed_of_possible hset hpos
    have hphase := hinv.phase hk
    rw [hdes] at hphase
    exact hreleased c rfl _ (hphase.holds_session hk (by decide)).1
  obtain ⟨ph, hset, hinv⟩ := Inv.exec (fun _ _ h => h.1) hmay
    (inv_new name_ listenAddr loops_ onConnection (fun _ context_ => context_) false
      (sessionUser_keeps name_ listenAddr loops_))
    (fun _ => rfl) hes (by omega)
  have hphase := hinv.phase hk
  -- connectDestroyed is only ever called on a connection that was announced
  have hup : .connection true ∈ (ph c).callbacks := by
    rw [hphase.callbacks] at hdestroyed
    cases hp : ph c <;> rw [hp] at hdestroyed <;>
      first | decide | simp [Phase.callbacks] at hdestroyed
  obtain ⟨hheld, halive⟩ := hphase.holds_session hk hup
  exact ⟨hheld, fun hreleased => hreleased _ hheld, halive⟩

/-! ## One client -/

def isDestruct : ServerEvent → Bool
  | .destruct _ => true
  | _ => false

theorem owned_of_possible {s : TcpServer TcpSession} {es : List ServerEvent}
    (h : Run.AllSteps step Possible s es) (hno : es.all (fun e => !isDestruct e) = true) :
    Run.AllSteps step Owned s es := by
  induction es generalizing s with
  | nil => trivial
  | cons e es ih =>
      rw [List.all_cons, Bool.and_eq_true] at hno
      refine ⟨⟨h.1, ?_⟩, ih h.2 hno.2⟩
      rintro c rfl
      cases hno.1

/-- The client of `oneClient`, up to the last functor for it. -/
def goneClient : List ServerEvent := oneClient.dropLast

theorem any_address_length : (str "0.0.0.0").length ≤ 39 := by decide

def oneThread : TcpServer TcpSession :=
  tcp_work (str "ZMQBridge") ⟨false, str "0.0.0.0", 10001, any_address_length⟩ 1

theorem goneClient_owned : Run.AllSteps step Owned oneThread goneClient :=
  owned_of_possible (by decide +kernel) (by decide)

/-- How the run ends. -/
theorem goneClient_end :
    (Run.exec step oneThread goneClient).pending = [] ∧
      ∃ k, (Run.exec step oneThread goneClient).conns[0]? = some k ∧
        .connectDestroyed ∈ k.callbacks ∧ k.destructed = false ∧ k.context_ = some ⟨0, false⟩ := by
  have hend : (Run.exec step oneThread goneClient).conns[0]?.map (fun k =>
      (k.callbacks.contains .connectDestroyed, k.destructed, k.context_)) =
        some (true, false, some ⟨0, false⟩) := by decide +kernel
  refine ⟨by decide +kernel, ?_⟩
  obtain ⟨k, hk, hfields⟩ := Option.map_eq_some_iff.mp hend
  simp only [Prod.mk.injEq, List.contains_iff_mem] at hfields
  exact ⟨k, hk, hfields⟩

theorem disconnected_client_held_one :
    ∃ k, (Run.exec step oneThread goneClient).conns[0]? = some k ∧
      ¬ (Run.exec step oneThread goneClient).Released 0 ∧ k.destructed = false := by
  obtain ⟨-, k, hk, hdestroyed, -⟩ := goneClient_end
  exact ⟨k, hk, (disconnected_client_held _ _ _ goneClient goneClient_owned (by decide) 0 k hk
    hdestroyed).2⟩

theorem gone_client_leaks :
    Run.AllSteps step Owned oneThread goneClient ∧
      (Run.exec step oneThread goneClient).pending = [] ∧
      ∃ k, (Run.exec step oneThread goneClient).conns[0]? = some k ∧
        .connectDestroyed ∈ k.callbacks ∧ ¬ (Run.exec step oneThread goneClient).Released 0 := by
  obtain ⟨hpending, k, hk, hdestroyed, halive, hcontext⟩ := goneClient_end
  -- the context is still there, and its session still points back
  refine ⟨goneClient_owned, hpending, k, hk, hdestroyed, fun hreleased => ?_⟩
  exact hreleased (.session 0) ⟨k, hk, halive, ⟨0, false⟩, hcontext, rfl⟩

end TcpServer
end DoubleTurnouts
