/-
  DoubleTurnouts.UnitManager.SessionEndpoints

  The endpoints of the sessions.  A session binds the URL of the id it drew,
  and the ids come again after 57536 draws.  When it is stopped its `pzmq`
  closes the socket, asks for the socket file and removes it, by its path:
  three steps, with those of the other I/O threads in between.

  What a bind, a close and a `remove` do to an endpoint is libzmq's and the
  file system's, a parameter with the hypotheses `Documented`.
-/
import Mathlib.Tactic
import DoubleTurnouts.HybridComm.RpcClient
import DoubleTurnouts.UnitManager.SessionIds

namespace DoubleTurnouts

open Text Decimal

/-! ## Outside -/

/-- What the sessions meet: `zmq_bind` of a session's socket to its URL, `zmq_close` of it, be it
    by the thread of its loop, by `close_zmq` or by both, `access(file, F_OK)`, `remove`, and the
    session that a client gets to which connects to a URL. -/
structure ZmqFiles (Z : Type) where
  zmq_bind : Nat → Bytes → Z → Z
  zmq_close : Nat → Bytes → Z → Z
  access : Z → Bytes → Int
  remove : Bytes → Z → Z
  reached : Z → Bytes → Option Nat

/-- The path behind the `ipc://` of a session's URL. -/
def session_file (port : Int) : Bytes := str "/tmp/llm/" ++ (to_string port ++ str ".sock")

/-- Binds of session URLs succeed, and override any binding of the same endpoint. -/
structure ZmqFiles.Documented {Z : Type} (lib : ZmqFiles Z) : Prop where
  bind : ∀ i a z, lib.reached (lib.zmq_bind i (session_url a) z) (session_url a) = some i
  access_bind : ∀ i a z, lib.access (lib.zmq_bind i (session_url a) z) (session_file a) = 0
  -- without its file an endpoint is not found
  remove : ∀ a z, lib.reached (lib.remove (session_file a) z) (session_url a) = none
  -- endpoints have nothing to do with one another
  bind_other : ∀ i {a b}, a ≠ b → ∀ z,
    lib.reached (lib.zmq_bind i (session_url a) z) (session_url b) = lib.reached z (session_url b)
  close_other : ∀ i {a b}, a ≠ b → ∀ z,
    lib.reached (lib.zmq_close i (session_url a) z) (session_url b) = lib.reached z (session_url b)
  remove_other : ∀ {a b}, a ≠ b → ∀ z,
    lib.reached (lib.remove (session_file a) z) (session_url b) = lib.reached z (session_url b)

/-! ## Sessions that come and go -/

/-- `rpc_url_head_` after `pzmq(url, mode)`, which asks for two characters of the URL. -/
def url_head (url : Bytes) : Bytes :=
  if url[0]? ≠ some (ch 'i') ∧ url[1]? ≠ some (ch 'p') then [] else str "ipc:///tmp/rpc."

/-- Where the `pzmq` of a session is: bound, or in `close_zmq` after `zmq_close`, or there after
    `access` has found the file, or gone. -/
inductive ChannelPoint
  | bound
  | closed
  | found
  | gone
  deriving DecidableEq, Repr

/-- `user_chennal_` of a session; `draw` tells by which draw the session got its id. -/
structure SessionChannel where
  draw : Nat
  zmq_url_ : Bytes
  point : ChannelPoint
  deriving DecidableEq, Repr

/-- The counter with the sessions and what they meet. -/
structure SessionEndpoints (T Z : Type) where
  counter : CounterPort T
  net : Z
  channels : List SessionChannel

/-- A thread takes its next step with the counter; the session with the `n`-th id is put to work;
    the session `i` takes its next step of being stopped. -/
inductive SessionEvent (T : Type)
  | counter (t : T)
  | work (n : Nat)
  | stop (i : Nat)
  deriving DecidableEq, Repr

namespace SessionEndpoints

variable {T Z : Type} (lib : ZmqFiles Z)

def new (z : Z) : SessionEndpoints T Z := ⟨.new, z, []⟩

/-- The next step of `close_zmq`. -/
def close_zmq (s : SessionEndpoints T Z) (i : Nat) (c : SessionChannel) : SessionEndpoints T Z :=
  let socket_file := c.zmq_url_.drop rpc_url_head_length
  match c.point with
  | .bound =>
      { s with
        net := lib.zmq_close i c.zmq_url_ s.net
        channels := s.channels.set i { c with point := .closed } }
  | .closed =>
      let point := if url_head c.zmq_url_ ≠ [] ∧ lib.access s.net socket_file = 0 then
        ChannelPoint.found else .gone
      { s with channels := s.channels.set i { c with point := point } }
  | .found =>
      { s with
        net := lib.remove socket_file s.net
        channels := s.channels.set i { c with point := .gone } }
  | .gone => s

section Steps

variable [DecidableEq T]

def step (s : SessionEndpoints T Z) : SessionEvent T → SessionEndpoints T Z
  | .counter t => { s with counter := s.counter.step t }
  | .work n =>
      match s.counter.draws[n]? with
      | none => s
      | some id =>
          { s with
            net := lib.zmq_bind s.channels.length (session_url id) s.net
            channels := s.channels ++ [⟨n, session_url id, .bound⟩] }
  | .stop i =>
      match s.channels[i]? with
      | none => s
      | some c => s.close_zmq lib i c

/-- The counter is used in turn, and a session has drawn its id before it is put to work. -/
def Possible (s : SessionEndpoints T Z) : SessionEvent T → Prop
  | .counter t => s.counter.InTurn t
  | .work n => n < s.counter.draws.length
  | .stop _ => True

instance (s : SessionEndpoints T Z) (e : SessionEvent T) : Decidable (s.Possible e) := by
  cases e <;> unfold Possible <;> infer_instance

end Steps

/-- No session is put to work while one is at work, or being stopped, whose id was drawn a
    multiple of 57536 draws apart. -/
def Fresh (s : SessionEndpoints T Z) : SessionEvent T → Prop
  | .work n => ∀ c ∈ s.channels, c.point ≠ .gone → c.draw % 57536 ≠ n % 57536
  | _ => True

instance (s : SessionEndpoints T Z) (e : SessionEvent T) : Decidable (s.Fresh e) := by
  cases e <;> unfold Fresh <;> infer_instance

/-- A client that connects to the URL of a session at work gets to that session. -/
def AllReached (s : SessionEndpoints T Z) : Prop :=
  ∀ i c, s.channels[i]? = some c → c.point = .bound → lib.reached s.net c.zmq_url_ = some i

/-- The sessions at work are reached, and are still when others are stopped. -/
def Kept [DecidableEq T] (s : SessionEndpoints T Z) : Prop :=
  ∀ is : List Nat, (Run.exec (step lib) s (is.map .stop)).AllReached lib

/-! ## URLs and files -/

theorem wrapped_eq_iff (n m : Nat) :
    CounterPort.wrapped n = CounterPort.wrapped m ↔ n % 57536 = m % 57536 := by
  unfold CounterPort.wrapped
  omega

theorem session_url_eq (id : Int) : session_url id = str "ipc://" ++ session_file id := by
  rw [session_url, sprintf_zmqFormat, session_file, ← List.append_assoc]
  rfl

/-- The path a session's `pzmq` removes is the one of its own id. -/
theorem drop_session_url (id : Int) :
    (session_url id).drop rpc_url_head_length = session_file id := by
  have hhead : rpc_url_head_length = (str "ipc://").length := by decide
  rw [session_url_eq, hhead, List.drop_left]

theorem url_head_session_url (id : Int) : url_head (session_url id) ≠ [] := by
  have hfirst : (session_url id)[0]? = some (ch 'i') := by
    rw [session_url_eq]
    rfl
  simp only [url_head, hfirst, ne_eq, not_true_eq_false, false_and, if_false]
  decide

/-! ## The invariant -/

/-- Sessions at work or being stopped have endpoints of their own, and those at work are
    reached. -/
structure Inv (s : SessionEndpoints T Z) : Prop where
  wraps : s.counter.Wraps
  url : ∀ c ∈ s.channels, c.zmq_url_ = session_url (CounterPort.wrapped c.draw)
  apart : ∀ {i j : Nat} {c d : SessionChannel}, s.channels[i]? = some c →
    s.channels[j]? = some d → i ≠ j → c.point ≠ .gone → d.point ≠ .gone →
      c.draw % 57536 ≠ d.draw % 57536
  reached : s.AllReached lib

theorem new_inv (z : Z) : (new z : SessionEndpoints T Z).Inv lib where
  wraps := CounterPort.wraps_new
  url := by simp [new]
  apart := by simp [new]
  reached := by simp [new, AllReached]

/-- A channel is an old one or the new one. -/
theorem getElem?_append_channel {channels : List SessionChannel} {new c : SessionChannel}
    {i : Nat} (h : (channels ++ [new])[i]? = some c) :
    channels[i]? = some c ∨ i = channels.length ∧ c = new := by
  rcases Nat.lt_or_ge i channels.length with hlt | hge
  · rw [List.getElem?_append_left hlt] at h
    exact .inl h
  · have hlt := (List.getElem?_eq_some_iff.mp h).1
    rw [List.length_append, List.length_singleton] at hlt
    obtain rfl : i = channels.length := by omega
    exact .inr ⟨rfl, by simpa using h.symm⟩

/-- A channel is the one that has been moved on, or another one that is as it was. -/
theorem getElem?_set_channel {channels : List SessionChannel} {i j : Nat}
    {c new d : SessionChannel} (hi : channels[i]? = some c)
    (h : (channels.set i new)[j]? = some d) :
    j = i ∧ d = new ∨ j ≠ i ∧ channels[j]? = some d := by
  have hlt := (List.getElem?_eq_some_iff.mp hi).1
  by_cases hji : j = i
  · subst hji
    exact .inl ⟨rfl, by simpa [List.getElem?_set_self hlt] using h.symm⟩
  · exact .inr ⟨hji, by simpa [List.getElem?_set_ne (Ne.symm hji)] using h⟩

variable {lib} {s : SessionEndpoints T Z}

theorem close_zmq_of_gone {i : Nat} {c : SessionChannel} (h : c.point = .gone) :
    s.close_zmq lib i c = s := by
  simp only [close_zmq, h]

/-- What a step of `close_zmq` can do: it moves the channel on, and touches its endpoint only. -/
theorem close_zmq_cases (hlib : lib.Documented) {i : Nat} {c : SessionChannel} {n : Nat}
    (hurl : c.zmq_url_ = session_url (CounterPort.wrapped n)) (hlive : c.point ≠ .gone) :
    ∃ net point, s.close_zmq lib i c =
        { s with net := net, channels := s.channels.set i { c with point := point } } ∧
      point ≠ .bound ∧ ∀ m, n % 57536 ≠ m % 57536 →
        lib.reached net (session_url (CounterPort.wrapped m)) =
          lib.reached s.net (session_url (CounterPort.wrapped m)) := by
  have hother : ∀ {m}, n % 57536 ≠ m % 57536 → CounterPort.wrapped n ≠ CounterPort.wrapped m :=
    fun hne heq => hne ((wrapped_eq_iff n _).mp heq)
  cases hpoint : c.point with
  | bound =>
      refine ⟨lib.zmq_close i c.zmq_url_ s.net, .closed, by simp [close_zmq, hpoint], by decide,
        fun m hne => ?_⟩
      rw [hurl]
      exact hlib.close_other i (hother hne) s.net
  | closed =>
      refine ⟨s.net, if url_head c.zmq_url_ ≠ [] ∧
        lib.access s.net (c.zmq_url_.drop rpc_url_head_length) = 0 then .found else .gone,
        by simp only [close_zmq, hpoint], ?_, fun m _ => rfl⟩
      split <;> decide
  | found =>
      refine ⟨lib.remove (session_file (CounterPort.wrapped n)) s.net, .gone, ?_, by decide,
        fun m hne => hlib.remove_other (hother hne) s.net⟩
      simp [close_zmq, hpoint, hurl, drop_session_url]
  | gone => exact absurd hpoint hlive

theorem Inv.close_zmq (h : s.Inv lib) (hlib : lib.Documented) {i : Nat} {c : SessionChannel}
    (hi : s.channels[i]? = some c) : (s.close_zmq lib i c).Inv lib := by
  have hurl := h.url c (List.mem_of_getElem? hi)
  by_cases hgone : c.point = .gone
  · rwa [close_zmq_of_gone hgone]
  · obtain ⟨net, point, heq, hpoint, hframe⟩ := close_zmq_cases (s := s) (i := i) hlib hurl hgone
    rw [heq]
    refine ⟨h.wraps, ?_, ?_, ?_⟩
    · intro d hd
      obtain ⟨j, hj⟩ := List.mem_iff_getElem?.mp hd
      rcases getElem?_set_channel hi hj with ⟨-, rfl⟩ | ⟨-, hj⟩
      · exact hurl
      · exact h.url d (List.mem_of_getElem? hj)
    · intro j k d e hset hset' hjk hdl hel
      rcases getElem?_set_channel hi hset with ⟨rfl, rfl⟩ | ⟨hji, hd⟩ <;>
        rcases getElem?_set_channel hi hset' with ⟨rfl, rfl⟩ | ⟨hki, he⟩
      · exact absurd rfl hjk
      · have hne := h.apart hi he hjk hgone hel
        exact hne
      · have hne := h.apart hd hi hjk hdl hgone
        exact hne
      · exact h.apart hd he hjk hdl hel
    · intro j d hd hbound
      rcases getElem?_set_channel hi hd with ⟨rfl, rfl⟩ | ⟨hji, hd⟩
      · exact absurd hbound hpoint
      · -- the endpoint that is touched is another one
        have hne := h.apart hi hd (Ne.symm hji) hgone (by simp [hbound])
        rw [← h.reached j d hd hbound, h.url d (List.mem_of_getElem? hd)]
        exact hframe d.draw hne

variable [DecidableEq T]

theorem step_stop {i : Nat} {c : SessionChannel} (hi : s.channels[i]? = some c) :
    s.step lib (.stop i) = s.close_zmq lib i c := by
  simp only [step, hi]

theorem step_stop_of_none {i : Nat} (hi : s.channels[i]? = none) : s.step lib (.stop i) = s := by
  simp only [step, hi]

/-- A session that is put to work binds the URL of its id. -/
theorem Inv.step_work (h : s.Inv lib) {n : Nat} (hn : n < s.counter.draws.length) :
    s.step lib (.work n) =
      { s with
        net := lib.zmq_bind s.channels.length (session_url (CounterPort.wrapped n)) s.net
        channels := s.channels ++ [⟨n, session_url (CounterPort.wrapped n), .bound⟩] } := by
  have hdraw : s.counter.draws[n]? = some (CounterPort.wrapped n) := by
    rw [List.getElem?_eq_getElem hn, h.wraps.wrapped (List.getElem?_eq_getElem hn)]
  simp only [step, hdraw]

theorem Inv.work (h : s.Inv lib) (hlib : lib.Documented) {n : Nat}
    (hn : n < s.counter.draws.length) (hfresh : s.Fresh (.work n : SessionEvent T)) :
    (s.step lib (.work n)).Inv lib := by
  have hfresh : ∀ c ∈ s.channels, c.point ≠ .gone → c.draw % 57536 ≠ n % 57536 := hfresh
  rw [h.step_work hn]
  refine ⟨h.wraps, ?_, ?_, ?_⟩
  · intro c hc
    rcases List.mem_append.mp hc with hc | hc
    · exact h.url c hc
    · rw [List.mem_singleton.mp hc]
  · intro i j c d hc hd hij hcl hdl
    rcases getElem?_append_channel hc with hc | ⟨rfl, rfl⟩ <;>
      rcases getElem?_append_channel hd with hd | ⟨rfl, rfl⟩
    · exact h.apart hc hd hij hcl hdl
    · exact hfresh c (List.mem_of_getElem? hc) hcl
    · exact (hfresh d (List.mem_of_getElem? hd) hdl).symm
    · exact absurd rfl hij
  · intro i c hc hbound
    rcases getElem?_append_channel hc with hc | ⟨rfl, rfl⟩
    · -- the endpoint that is bound is another one
      have hmem := List.mem_of_getElem? hc
      have hne := hfresh c hmem (by simp [hbound])
      rw [← h.reached i c hc hbound, h.url c hmem]
      exact hlib.bind_other _ (fun heq => hne ((wrapped_eq_iff _ _).mp heq).symm) s.net
    · exact hlib.bind _ _ _

theorem Inv.stop (h : s.Inv lib) (hlib : lib.Documented) (i : Nat) :
    (s.step lib (.stop i)).Inv lib := by
  cases hi : s.channels[i]? with
  | none => rwa [step_stop_of_none hi]
  | some c =>
      rw [step_stop hi]
      exact h.close_zmq hlib hi

theorem Inv.step (h : s.Inv lib) (hlib : lib.Documented) {e : SessionEvent T}
    (hpos : s.Possible e) (hfresh : s.Fresh e) : (s.step lib e).Inv lib := by
  cases e with
  | counter t => exact ⟨h.wraps.step t hpos, h.url, h.apart, h.reached⟩
  | work n => exact h.work hlib hpos hfresh
  | stop i => exact h.stop hlib i

theorem Inv.kept (h : s.Inv lib) (hlib : lib.Documented) : s.Kept lib := by
  intro is
  induction is generalizing s with
  | nil => exact h.reached
  | cons i is ih => exact ih (h.stop hlib i)

/-! ## Two sessions with one endpoint -/

/-- The new session takes the endpoint from the one at work. -/
theorem Inv.reached_newer (h : s.Inv lib) (hlib : lib.Documented) {n : Nat}
    (hn : n < s.counter.draws.length) {c : SessionChannel} (hc : c ∈ s.channels)
    (hsame : c.draw % 57536 = n % 57536) :
    lib.reached (s.step lib (.work n)).net c.zmq_url_ = some s.channels.length := by
  rw [h.step_work hn, h.url c hc, (wrapped_eq_iff _ _).mpr hsame]
  exact hlib.bind _ _ _

/-- Stopping a session leaves the other channels as they are. -/
theorem step_stop_other {i j : Nat} (hij : j ≠ i) :
    (s.step lib (.stop i)).channels[j]? = s.channels[j]? := by
  cases hi : s.channels[i]? with
  | none => rw [step_stop_of_none hi]
  | some c =>
      rw [step_stop hi]
      cases hpoint : c.point <;> simp [close_zmq, hpoint, List.getElem?_set_ne (Ne.symm hij)]

/-- `close_zmq` after `zmq_close` with the file there: it is removed, whoever made it. -/
theorem exec_close_zmq {i : Nat} {c : SessionChannel} {id : Int} (hi : s.channels[i]? = some c)
    (hpoint : c.point = .closed ∨ c.point = .found) (hurl : c.zmq_url_ = session_url id)
    (haccess : lib.access s.net (session_file id) = 0) :
    (Run.exec (step lib) s [.stop i, .stop i]).net = lib.remove (session_file id) s.net := by
  have hlt := (List.getElem?_eq_some_iff.mp hi).1
  rcases hpoint with hpoint | hpoint
  · have hfound : s.step lib (.stop i) =
        { s with channels := s.channels.set i { c with point := .found } } := by
      simp [step_stop hi, close_zmq, hpoint, hurl, drop_session_url, url_head_session_url, haccess]
    rw [Run.exec_cons, hfound, Run.exec_cons, Run.exec_nil,
      step_stop (List.getElem?_set_self hlt)]
    simp [close_zmq, hurl, drop_session_url]
  · have hgone : s.step lib (.stop i) =
        { s with
          net := lib.remove (session_file id) s.net
          channels := s.channels.set i { c with point := .gone } } := by
      simp [step_stop hi, close_zmq, hpoint, hurl, drop_session_url]
    rw [Run.exec_cons, hgone, Run.exec_cons, Run.exec_nil,
      step_stop (List.getElem?_set_self hlt), close_zmq_of_gone rfl]

/-- The one that is being stopped removes the file of the new session. -/
theorem Inv.reached_none (h : s.Inv lib) (hlib : lib.Documented) {n : Nat}
    (hn : n < s.counter.draws.length) {i : Nat} {c : SessionChannel}
    (hi : s.channels[i]? = some c) (hpoint : c.point = .closed ∨ c.point = .found)
    (hsame : c.draw % 57536 = n % 57536) :
    lib.reached (Run.exec (SessionEndpoints.step lib) (s.step lib (.work n))
      [.stop i, .stop i]).net c.zmq_url_ = none := by
  have hurl : c.zmq_url_ = session_url (CounterPort.wrapped n) := by
    rw [h.url c (List.mem_of_getElem? hi), (wrapped_eq_iff _ _).mpr hsame]
  have hlt := (List.getElem?_eq_some_iff.mp hi).1
  rw [h.step_work hn]
  -- the file it finds is the one that has just been bound
  rw [exec_close_zmq ((List.getElem?_append_left hlt).trans hi) hpoint hurl
    (hlib.access_bind _ _ _), hurl]
  exact hlib.remove _ _

/-- One step keeps what holds of the sessions if and only if it is fresh. -/
theorem Inv.kept_step_iff (h : s.Inv lib) (hlib : lib.Documented) {e : SessionEvent T}
    (hpos : s.Possible e) : (s.step lib e).Kept lib ↔ s.Fresh e := by
  constructor
  · intro hkept
    cases e with
    | counter t => trivial
    | stop i => trivial
    | work n =>
        intro c hc hlive hsame
        obtain ⟨i, hi⟩ := List.mem_iff_getElem?.mp hc
        have hlt := (List.getElem?_eq_some_iff.mp hi).1
        have hwork := h.step_work hpos
        by_cases hbound : c.point = .bound
        · -- the older of the two is at work and not reached
          have hold : (s.step lib (.work n)).channels[i]? = some c := by
            rw [hwork]
            exact (List.getElem?_append_left hlt).trans hi
          have hreached := (h.reached_newer hlib hpos hc hsame).symm.trans
            (hkept [] i c hold hbound)
          rw [Option.some.injEq] at hreached
          omega
        · -- the newer one loses its file to the older one
          have hclosing : c.point = .closed ∨ c.point = .found := by
            cases hpoint : c.point with
            | bound => exact absurd hpoint hbound
            | closed => exact .inl rfl
            | found => exact .inr rfl
            | gone => exact absurd hpoint hlive
          have hnew : (Run.exec (SessionEndpoints.step lib) (s.step lib (.work n))
              [.stop i, .stop i]).channels[s.channels.length]? =
                some ⟨n, session_url (CounterPort.wrapped n), .bound⟩ := by
            rw [Run.exec_cons, Run.exec_cons, Run.exec_nil, step_stop_other (by omega),
              step_stop_other (by omega), hwork]
            simp
          have hreached := hkept [i, i] _ _ hnew rfl
          have hnone := h.reached_none hlib hpos hi hclosing hsame
          rw [h.url c hc, (wrapped_eq_iff _ _).mpr hsame] at hnone
          rw [List.map_cons, List.map_cons, List.map_nil, hnone] at hreached
          cases hreached
  · intro hfresh
    exact (h.step hlib hpos hfresh).kept hlib

end SessionEndpoints

/-! ## Socket files by path -/

/-- A machine on which only the sessions bind: each file leads to the session that made it, and
    closing a socket removes its file. -/
def sessionFiles : ZmqFiles (Bytes → Option Nat) where
  zmq_bind i url file := Function.update file (url.drop rpc_url_head_length) (some i)
  zmq_close _ url file := Function.update file (url.drop rpc_url_head_length) none
  access file path := if (file path).isSome then 0 else -1
  remove path file := Function.update file path none
  reached file url := file (url.drop rpc_url_head_length)

theorem session_file_ne {a b : Int} (h : a ≠ b) : session_file b ≠ session_file a := by
  intro heq
  rw [session_file, session_file, List.append_cancel_left_eq, List.append_cancel_right_eq] at heq
  exact h (to_string_injective heq).symm

theorem sessionFiles_documented : sessionFiles.Documented where
  bind := by simp [sessionFiles]
  access_bind := by simp [sessionFiles, SessionEndpoints.drop_session_url]
  remove := by simp [sessionFiles, SessionEndpoints.drop_session_url]
  bind_other := by
    intro i a b hab z
    simp [sessionFiles, SessionEndpoints.drop_session_url, session_file_ne hab]
  close_other := by
    intro i a b hab z
    simp [sessionFiles, SessionEndpoints.drop_session_url, session_file_ne hab]
  remove_other := by
    intro a b hab z
    simp [sessionFiles, SessionEndpoints.drop_session_url, session_file_ne hab]

/-- The sessions' endpoints, along every interleaving in which the counter is used in turn and
    sessions come and go.

    Clients of a session's URL get to the session itself, at every time, for every session at work
    and whatever is stopped next, if and only if no session is put to work while one is at work or
    being stopped whose id was drawn a multiple of 57536 draws apart.  When one is at work, its
    clients get to the newer session; when one is being stopped, it removes the socket file of the
    newer session, and nobody gets to that. -/
theorem sessions_reached_iff {T Z : Type} [DecidableEq T] {lib : ZmqFiles Z}
    (hlib : lib.Documented) (z : Z) (es : List (SessionEvent T))
    (hes : Run.AllSteps (SessionEndpoints.step lib) SessionEndpoints.Possible (.new z) es) :
    (Run.AllSteps (SessionEndpoints.step lib) (fun t e => (t.step lib e).Kept lib) (.new z) es ↔
        Run.AllSteps (SessionEndpoints.step lib) SessionEndpoints.Fresh (.new z) es) ∧
      (Run.AllSteps (SessionEndpoints.step lib) SessionEndpoints.Fresh (.new z) es →
        let s := Run.exec (SessionEndpoints.step lib) (.new z) es
        ∀ n < s.counter.draws.length, ∀ (i : Nat) (c : SessionChannel), s.channels[i]? = some c →
          c.draw % 57536 = n % 57536 →
            (c.point = .bound →
              lib.reached (s.step lib (.work n)).net c.zmq_url_ = some s.channels.length) ∧
            (c.point = .closed ∨ c.point = .found →
              lib.reached (Run.exec (SessionEndpoints.step lib) (s.step lib (.work n))
                [.stop i, .stop i]).net c.zmq_url_ = none)) := by
  have hnew := SessionEndpoints.new_inv (T := T) lib z
  constructor
  · have hboth : Run.AllSteps (SessionEndpoints.step lib)
          (fun t e => t.Possible e ∧ (t.step lib e).Kept lib) (.new z) es ↔
        Run.AllSteps (SessionEndpoints.step lib) (fun t e => t.Possible e ∧ t.Fresh e)
          (.new z) es :=
      Run.AllSteps.iff_of_guarded (I := fun t : SessionEndpoints T Z => t.Inv lib)
        (W := fun _ => True)
        (fun t e ht _ he => ht.step hlib he.1 he.2)
        (fun t e ht _ => and_congr_right fun hpos => ht.kept_step_iff hlib hpos)
        hnew (by simp)
    exact ⟨fun hall => (hboth.mp (hes.and hall)).mono fun _ _ h => h.2,
      fun hall => (hboth.mpr (hes.and hall)).mono fun _ _ h => h.2⟩
  · intro hfresh s n hn i c hi hsame
    have h : s.Inv lib := Run.exec_invariant (fun t e ht he => ht.step hlib he.1 he.2) hnew
      (hes.and hfresh)
    exact ⟨fun _ => h.reached_newer hlib hn (List.mem_of_getElem? hi) hsame,
      fun hpoint => h.reached_none hlib hn hi hpoint hsame⟩

/-- Two threads, a client each; one client goes, and a third one comes while its session is being
    stopped. -/
def threeClients : List (SessionEvent Bool) :=
  [.counter false, .counter true, .work 1, .counter false, .work 0, .counter true, .stop 0,
   .counter false, .stop 0, .work 2, .stop 0]

theorem sessions_reached_iff_three_clients :
    Run.AllSteps (SessionEndpoints.step sessionFiles) (fun t e => (t.step sessionFiles e).Kept
      sessionFiles) (.new fun _ => none) threeClients :=
  (sessions_reached_iff sessionFiles_documented (fun _ => none) threeClients
    (by decide +kernel)).1.mpr (by decide +kernel)

end DoubleTurnouts
