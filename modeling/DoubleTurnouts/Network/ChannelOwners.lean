/-
  DoubleTurnouts.Network.ChannelOwners

  Who calls the channels: connections, acceptors and connectors, any number of
  them on the poller of one loop, their steps in any order.

  Every owner keeps a log of its calls, and the poller agrees with the logs
  (`Agrees`).  What is to be said about the poller is so said about each owner
  by itself: whether its step makes a stray update.  `Tidy` says when it does
  not.
-/
import Mathlib.Tactic
import DoubleTurnouts.Lib.Run
import DoubleTurnouts.Network.CallLog
import DoubleTurnouts.Network.ConnectionCalls
import DoubleTurnouts.Network.Connector

namespace DoubleTurnouts

/-! ## Acceptors -/

/-- An `Acceptor` with the calls on its channel. -/
structure Acceptor where
  listening_ : Bool
  destroyed : Bool
  calls : List PollCall
  deriving DecidableEq, Repr

inductive AcceptorEvent
  | listen
  | destroy
  deriving DecidableEq, Repr

namespace Acceptor

/-- The constructor. -/
def new : Acceptor where
  listening_ := false
  destroyed := false
  calls := []

def listen (a : Acceptor) : Acceptor :=
  { a with listening_ := true, calls := a.calls ++ [.enableReading] }

/-- The destructor. -/
def destroy (a : Acceptor) : Acceptor :=
  { a with destroyed := true, calls := a.calls ++ [.disableAll, .remove] }

/-- One step; there is none after the destructor. -/
def step (a : Acceptor) (e : AcceptorEvent) : Acceptor :=
  if a.destroyed then a
  else
    match e with
    | .listen => a.listen
    | .destroy => a.destroy

end Acceptor

/-! ## Owners -/

inductive Owner
  | connection (k : ReadConn)
  | acceptor (a : Acceptor)
  | connector (c : Connector)
  deriving DecidableEq, Repr

inductive OwnerEvent
  | connection (e : ReadEvent)
  | acceptor (e : AcceptorEvent)
  | connector (e : ConnectorEvent)
  deriving DecidableEq, Repr

namespace Owner

/-- An owner as its constructor leaves it. -/
def IsNew : Owner → Prop
  | .connection k => ∃ writeCompleteCallback_, k = .new writeCompleteCallback_
  | .acceptor a => a = .new
  | .connector c => c = .new

def step : Owner → OwnerEvent → Owner
  | .connection k, .connection e => .connection (k.step e)
  | .acceptor a, .acceptor e => .acceptor (a.step e)
  | .connector c, .connector e => .connector (c.step e)
  | o, _ => o

/-- The calls made so far, with the number of the channel: a connector has one for each socket, the
    others have channel 0. -/
def log : Owner → List (Nat × PollCall)
  | .connection k => k.calls.map fun op => (0, op)
  | .acceptor a => a.calls.map fun op => (0, op)
  | .connector c => c.calls

/-- The calls of one step. -/
def calls (o : Owner) (e : OwnerEvent) : List (Nat × PollCall) :=
  (o.step e).log.drop o.log.length

end Owner

/-- A connection empties the mask of its channel only while the channel is registered, and an
    acceptor is destroyed only when it listens. -/
def Owner.Tidy : Owner → OwnerEvent → Prop
  | .connection k, .connection e => k.Empties e → k.index_ = .kAdded
  | .acceptor a, .acceptor .destroy => a.destroyed = false → a.listening_ = true
  | _, _ => True

instance (o : Owner) (e : OwnerEvent) : Decidable (o.Tidy e) := by
  cases o <;> cases e
  case acceptor.acceptor a e => cases e <;> unfold Owner.Tidy <;> infer_instance
  all_goals
    unfold Owner.Tidy
    infer_instance

/-! ## All owners of a loop -/

namespace Owners

variable {ι : Type} [DecidableEq ι]

def step (owners : ι → Owner) (x : ι × OwnerEvent) : ι → Owner :=
  Function.update owners x.1 ((owners x.1).step x.2)

/-- The calls of one step, on the channels of the poller. -/
def calls (owners : ι → Owner) (x : ι × OwnerEvent) : List ((ι × Nat) × PollCall) :=
  ((owners x.1).calls x.2).map fun call => ((x.1, call.1), call.2)

def Tidy (owners : ι → Owner) (x : ι × OwnerEvent) : Prop := (owners x.1).Tidy x.2

instance (owners : ι → Owner) (x : ι × OwnerEvent) : Decidable (Tidy owners x) :=
  inferInstanceAs (Decidable ((owners x.1).Tidy x.2))

end Owners

/-! ## The steps of an acceptor -/

namespace Acceptor

/-- The channel of an acceptor, from its constructor to its destructor. -/
def Flow (a : Acceptor) : Prop :=
  a.destroyed = false →
    logged (Owner.acceptor a).log 0
      = if a.listening_ then ⟨EventType.ReadEvent, .kAdded, true⟩ else .new

variable {a : Acceptor}

theorem listen_ok (h : a.Flow) (hdestroyed : a.destroyed = false) :
    a.listen.Flow ∧
      (Owner.acceptor a.listen).log = (Owner.acceptor a).log ++ [(0, .enableReading)] ∧
      NoStray (Owner.acceptor a).log [(0, .enableReading)] := by
  have hchannel := h hdestroyed
  have hlog : (Owner.acceptor a.listen).log = (Owner.acceptor a).log ++ [(0, .enableReading)] := by
    simp [Owner.log, listen]
  refine ⟨fun _ => ?_, hlog, ?_⟩
  · have hlistening : a.listen.listening_ = true := rfl
    rw [hlog, logged_concat, if_pos rfl, hchannel, if_pos hlistening]
    cases a.listening_ <;> decide
  · rw [noStray_cons, hchannel]
    refine ⟨?_, noStray_nil _⟩
    cases a.listening_ <;> decide

/-- An acceptor that does not listen has a channel that was never added. -/
theorem destroy_ok (h : a.Flow) (hdestroyed : a.destroyed = false) :
    (Owner.acceptor a.destroy).log = (Owner.acceptor a).log ++ [(0, .disableAll), (0, .remove)] ∧
      (NoStray (Owner.acceptor a).log [(0, .disableAll), (0, .remove)] ↔ a.listening_ = true) := by
  refine ⟨by simp [Owner.log, destroy], ?_⟩
  rw [noStray_cons, noStray_cons, h hdestroyed]
  cases a.listening_ <;>
    simp [noStray_nil, PollChannel.Stray, PollCall.mask, PollChannel.new]

theorem step_ok (h : a.Flow) (e : AcceptorEvent) :
    (a.step e).Flow ∧ ∃ calls, (Owner.acceptor (a.step e)).log = (Owner.acceptor a).log ++ calls ∧
      ((Owner.acceptor a).Tidy (.acceptor e) ↔ NoStray (Owner.acceptor a).log calls) := by
  cases hdestroyed : a.destroyed with
  | true =>
      have hsame : a.step e = a := by simp [step, hdestroyed]
      have htidy : (Owner.acceptor a).Tidy (.acceptor e) := by
        cases e <;> simp [Owner.Tidy, hdestroyed]
      rw [hsame]
      exact ⟨h, [], by simp, iff_of_true htidy (noStray_nil _)⟩
  | false =>
      unfold step
      rw [if_neg (by simp [hdestroyed])]
      cases e with
      | listen =>
          obtain ⟨hflow, hlog, hstray⟩ := listen_ok h hdestroyed
          exact ⟨hflow, _, hlog, iff_of_true trivial hstray⟩
      | destroy =>
          obtain ⟨hlog, hiff⟩ := destroy_ok h hdestroyed
          refine ⟨?_, _, hlog, ?_⟩
          · intro halive
            cases halive
          · rw [hiff]
            exact ⟨fun htidy => htidy hdestroyed, fun hlistening _ => hlistening⟩

end Acceptor

/-! ## The steps of a connector -/

namespace Connector

/-- A socket is used after it was created, and in `kConnecting` the channel is registered. -/
structure Flow (s : Connector) : Prop where
  created : ∀ call ∈ s.calls, call.1 < s.sockets
  registered : s.state_ = .kConnecting → ∀ sockfd channel, s.channel_ = some (sockfd, channel) →
    sockfd < s.sockets ∧ logged s.calls sockfd = watched

theorem new_flow : new.Flow where
  created := by simp [new]
  registered h := by cases h

variable {s s' : Connector}

/-- What is to be shown of a step: it makes no stray update. -/
def StepOk (s s' : Connector) : Prop :=
  ∃ calls, s'.calls = s.calls ++ calls ∧ NoStray s.calls calls ∧ s'.Flow

/-- A step without calls, which does not get into `kConnecting` and makes no channel. -/
theorem StepOk.silent (h : s.Flow) (hcalls : s'.calls = s.calls) (hsockets : s.sockets ≤ s'.sockets)
    (hstate : s'.state_ = .kConnecting →
      s.state_ = .kConnecting ∧ (s'.channel_ = s.channel_ ∨ s'.channel_ = none)) :
    StepOk s s' := by
  refine ⟨[], by simp [hcalls], noStray_nil _, ⟨?_, ?_⟩⟩
  · intro call hcall
    rw [hcalls] at hcall
    exact (h.created call hcall).trans_le hsockets
  · intro hconnecting sockfd channel hchannel
    obtain ⟨hold, hsame | hnone⟩ := hstate hconnecting
    · rw [hsame] at hchannel
      obtain ⟨hlt, hlog⟩ := h.registered hold sockfd channel hchannel
      exact ⟨hlt.trans_le hsockets, hcalls ▸ hlog⟩
    · rw [hnone] at hchannel
      cases hchannel

theorem StepOk.frame (h : s.Flow) (hcalls : s'.calls = s.calls) (hsockets : s'.sockets = s.sockets)
    (hstate : s'.state_ = s.state_) (hchannel : s'.channel_ = s.channel_) : StepOk s s' :=
  .silent h hcalls hsockets.ge fun hconnecting => ⟨hstate ▸ hconnecting, Or.inl hchannel⟩

theorem StepOk.refl (h : s.Flow) : StepOk s s := .frame h rfl rfl rfl rfl

/-- The channel of a new socket has not been called before. -/
theorem logged_of_fresh {log : List (Nat × PollCall)} {n : Nat} (h : ∀ call ∈ log, call.1 < n) :
    logged log n = .new := by
  induction log using List.reverseRecOn with
  | nil => rfl
  | append_singleton log call ih =>
      have hne : call.1 ≠ n := Nat.ne_of_lt (h call (by simp))
      rw [logged_concat, if_neg hne]
      exact ih fun call' hcall' => h call' (by simp [hcall'])

/-- The calls of `connecting`. -/
theorem StepOk.registers (h : s.Flow) {channel : PollChannel}
    (hcalls : s'.calls = s.calls ++ [(s.sockets, .enableWriting)])
    (hsockets : s'.sockets = s.sockets + 1) (hchannel : s'.channel_ = some (s.sockets, channel)) :
    StepOk s s' := by
  have hfresh := logged_of_fresh h.created
  refine ⟨_, hcalls, ?_, ⟨?_, ?_⟩⟩
  · have hstray : ¬ PollChannel.new.Stray .enableWriting := by decide
    rw [noStray_cons, hfresh]
    exact ⟨hstray, noStray_nil _⟩
  · intro call hcall
    rw [hcalls, List.mem_append, List.mem_singleton] at hcall
    rw [hsockets]
    rcases hcall with hcall | rfl
    · exact (h.created call hcall).trans (Nat.lt_succ_self _)
    · exact Nat.lt_succ_self _
  · intro _ sockfd channel' hsome
    rw [hchannel] at hsome
    cases hsome
    rw [hcalls, logged_concat, if_pos rfl, hfresh, hsockets]
    exact ⟨Nat.lt_succ_self _, rfl⟩

/-- The calls of `removeAndResetChannel`. -/
theorem StepOk.released (h : s.Flow) (hconnecting : s.state_ = .kConnecting) {sockfd : Nat}
    {channel : PollChannel} (hchannel : s.channel_ = some (sockfd, channel))
    (hcalls : s'.calls = s.calls ++ [(sockfd, .disableAll), (sockfd, .remove)])
    (hsockets : s'.sockets = s.sockets) (hstate : s'.state_ ≠ .kConnecting) : StepOk s s' := by
  obtain ⟨hlt, hlog⟩ := h.registered hconnecting sockfd channel hchannel
  refine ⟨_, hcalls, ?_, ⟨?_, fun hc => absurd hc hstate⟩⟩
  · have hstray : ¬ watched.Stray .disableAll := by decide
    rw [noStray_cons, noStray_cons, hlog]
    exact ⟨hstray, by simp [PollChannel.Stray], noStray_nil _⟩
  · intro call hcall
    rw [hcalls, List.mem_append] at hcall
    rw [hsockets]
    rcases hcall with hcall | hcall
    · exact h.created call hcall
    · simp only [List.mem_cons, List.not_mem_nil, or_false] at hcall
      rcases hcall with rfl | rfl <;> exact hlt

/-! ### The functions -/

theorem connect_ok (h : s.Flow) (savedErrno : ConnectErrno) : StepOk s (s.connect savedErrno) := by
  rcases s.connect_cases savedErrno with ⟨-, heq⟩ | heq | heq
  · rw [heq]
    have hchannel : ({ s with sockets := s.sockets + 1 }.connecting s.sockets).channel_
        = some (s.sockets, watched) := rfl
    exact .registers h rfl rfl hchannel
  · rw [heq]
    exact .silent h rfl (Nat.le_succ _) fun hstate => by cases hstate
  · rw [heq]
    exact .silent h rfl (Nat.le_succ _) fun hstate => ⟨hstate, Or.inl rfl⟩

theorem startInLoop_ok (h : s.Flow) (savedErrno : ConnectErrno) :
    StepOk s (s.startInLoop savedErrno) := by
  have hchecked : (s.check .startInLoop (s.state_ = .kDisconnected)).Flow :=
    ⟨h.created, h.registered⟩
  rw [startInLoop]
  split
  · exact connect_ok hchecked savedErrno
  · exact .refl hchecked

theorem stopInLoop_ok (h : s.Flow) : StepOk s s.stopInLoop := by
  rw [stopInLoop]
  split
  · rename_i hconnecting
    dsimp only
    rcases Option.eq_none_or_eq_some s.channel_ with hchannel | ⟨c, hchannel⟩
    · simp only [removeAndResetChannel, hchannel]
      exact .silent h rfl (Nat.le_refl _) fun hstate => by cases hstate
    · rw [removeAndResetChannel_eq (s := { s with state_ := .kDisconnected }) hchannel]
      exact .released h hconnecting hchannel rfl rfl (by simp [retry])
  · exact .refl h

theorem handleError_ok (h : s.Flow) : StepOk s s.handleError := by
  rw [handleError]
  split
  · rename_i hconnecting
    rcases Option.eq_none_or_eq_some s.channel_ with hchannel | ⟨c, hchannel⟩
    · simp only [removeAndResetChannel, hchannel]
      exact .frame h rfl rfl rfl hchannel.symm
    · rw [removeAndResetChannel_eq hchannel]
      exact .released h hconnecting hchannel rfl rfl (by simp [retry])
  · exact .refl h

theorem handleWrite_ok (h : s.Flow) (err : Int) (isSelfConnect : Bool) :
    StepOk s (s.handleWrite err isSelfConnect) := by
  rw [handleWrite]
  split
  · rename_i hconnecting
    rcases Option.eq_none_or_eq_some s.channel_ with hchannel | ⟨c, hchannel⟩
    · simp only [removeAndResetChannel, hchannel]
      exact .frame h rfl rfl rfl hchannel.symm
    · rw [removeAndResetChannel_eq hchannel]
      dsimp only
      refine .released h hconnecting hchannel ?_ ?_ ?_ <;> split_ifs <;>
        simp [retry, Connector.close, Connector.released]
  · exact .frame h rfl rfl rfl rfl

theorem step_ok (h : s.Flow) (e : ConnectorEvent) : StepOk s (s.step e) := by
  unfold step
  split
  · exact .refl h
  · cases e with
    | start inLoop savedErrno =>
        have hconnect : Flow { s with connect_ := true } := ⟨h.created, h.registered⟩
        cases inLoop with
        | false => exact .frame h rfl rfl rfl rfl
        | true => exact startInLoop_ok hconnect savedErrno
    | stop => exact .frame h rfl rfl rfl rfl
    | functor i savedErrno =>
        have hrest : Flow { s with pendingFunctors_ := s.pendingFunctors_.eraseIdx i } :=
          ⟨h.created, h.registered⟩
        dsimp only
        split
        · rename_i f hparts hf
          cases f with
          | startInLoop => exact startInLoop_ok hrest savedErrno
          | stopInLoop => exact stopInLoop_ok hrest
          | resetChannel =>
              exact .silent h rfl (Nat.le_refl _) fun hstate => ⟨hstate, Or.inr rfl⟩
        · exact .refl h
    | poll revents_ =>
        dsimp only
        split
        · exact .frame h rfl rfl rfl rfl
        · exact .refl h
    | part err isSelfConnect =>
        dsimp only
        split
        · exact .refl h
        · rename_i p rest hparts
          have hrest : Flow { s with parts := rest } := ⟨h.created, h.registered⟩
          cases p with
          | handleWrite => exact handleWrite_ok hrest err isSelfConnect
          | handleError => exact handleError_ok hrest

end Connector

/-! ## The steps of any owner -/

namespace Owner

/-- What the steps of an owner keep: its log says where its channel is. -/
def Inv : Owner → Prop
  | .connection k => k.Flow ∧ logged (log (.connection k)) 0 = k.view
  | .acceptor a => a.Flow
  | .connector c => c.Flow

theorem IsNew.inv {o : Owner} (h : o.IsNew) : o.Inv := by
  cases o with
  | connection k =>
      obtain ⟨cb, rfl⟩ := h
      exact ⟨ReadConn.new_flow cb, by cases cb <;> decide⟩
  | acceptor a =>
      cases h
      exact fun _ => by decide
  | connector c =>
      cases h
      exact Connector.new_flow

theorem IsNew.log_eq_nil {o : Owner} (h : o.IsNew) : o.log = [] := by
  cases o with
  | connection k =>
      obtain ⟨cb, rfl⟩ := h
      rfl
  | acceptor a =>
      cases h
      rfl
  | connector c =>
      cases h
      rfl

/-- One step: what it adds to the log, and when that has no stray update. -/
theorem step_spec {o : Owner} (h : o.Inv) (e : OwnerEvent) :
    (o.step e).Inv ∧ ∃ calls, (o.step e).log = o.log ++ calls ∧
      (o.Tidy e ↔ NoStray o.log calls) := by
  have hstay : o.Inv ∧ ∃ calls, o.log = o.log ++ calls ∧ (True ↔ NoStray o.log calls) :=
    ⟨h, [], by simp, iff_of_true trivial (noStray_nil _)⟩
  cases o with
  | connection k =>
      cases e with
      | connection e =>
          obtain ⟨hflow, hview⟩ := h
          obtain ⟨op, hemits, hiff, hflow'⟩ := ReadConn.step_ok hflow e
          have hlog : log (.connection (k.step e))
              = log (.connection k) ++ op.toList.map fun op => (0, op) := by
            simp [log, hemits.calls]
          have hstray : (k.Empties e → k.index_ = .kAdded) ↔
              NoStray (log (.connection k)) (op.toList.map fun op => (0, op)) := by
            rw [← hiff]
            cases op with
            | none => simp [noStray_nil]
            | some op => simp [noStray_cons, noStray_nil, hview]
          have hview' : logged (log (.connection (k.step e))) 0 = (k.step e).view := by
            rw [hlog, hemits.view]
            cases op with
            | none => simpa using hview
            | some op => simp [logged_concat, hview]
          exact ⟨⟨hflow', hview'⟩, _, hlog, hstray⟩
      | acceptor e => exact hstay
      | connector e => exact hstay
  | acceptor a =>
      cases e with
      | acceptor e =>
          obtain ⟨hflow, hspec⟩ := Acceptor.step_ok h e
          exact ⟨hflow, hspec⟩
      | connection e => exact hstay
      | connector e => exact hstay
  | connector c =>
      cases e with
      | connector e =>
          obtain ⟨calls, hcalls, hstray, hflow⟩ := Connector.step_ok h e
          exact ⟨hflow, calls, hcalls, iff_of_true trivial hstray⟩
      | connection e => exact hstay
      | acceptor e => exact hstay

end Owner

namespace Owners

variable {ι : Type} [DecidableEq ι] {fd : ι × Nat → Int}

/-- The poller agrees with the logs of all owners. -/
def Agrees (fd : ι × Nat → Int) (owners : ι → Owner) (s : Poller (ι × Nat)) : Prop :=
  s.Inv fd ∧ (∀ i, (owners i).Inv) ∧ ∀ i n, s.channel (i, n) = logged (owners i).log n

theorem agrees_step {owners : ι → Owner} {s : Poller (ι × Nat)} (h : Agrees fd owners s)
    (x : ι × OwnerEvent)
    (hfd : Run.AllSteps (Poller.step fd) (Poller.Exclusive fd) s (calls owners x)) :
    Agrees fd (step owners x) (Run.exec (Poller.step fd) s (calls owners x)) ∧
      (Tidy owners x ↔
        Run.AllSteps (Poller.step fd) (Poller.Matches fd) s (calls owners x)) := by
  obtain ⟨hinv, howners, hlog⟩ := h
  obtain ⟨i, e⟩ := x
  obtain ⟨hinv', cs, hcs, htidy⟩ := Owner.step_spec (howners i) e
  have hcalls : calls owners (i, e) = cs.map fun call => ((i, call.1), call.2) := by
    simp [calls, Owner.calls, hcs]
  rw [hcalls] at hfd ⊢
  obtain ⟨hpoller, hself, hother, hiff⟩ := Poller.exec_calls hinv (hlog i) hfd
  refine ⟨⟨hpoller, ?_, ?_⟩, htidy.trans hiff.symm⟩
  · intro j
    by_cases hj : j = i
    · subst hj
      rw [step, Function.update_self]
      exact hinv'
    · rw [step, Function.update_of_ne hj]
      exact howners j
  · intro j n
    by_cases hj : j = i
    · subst hj
      rw [hself n, step, Function.update_self, hcs]
    · rw [hother j hj n, step, Function.update_of_ne hj]
      exact hlog j n

end Owners

theorem ReadConn.step_poll_of_unregistered {k : ReadConn} (hindex : k.index_ ≠ .kAdded)
    (revents_ : Revents) : k.step (.poll revents_) = k := by
  rw [step]
  split
  · rfl
  · rw [stepStarted, if_neg fun hpoll => hindex hpoll.2.1]

/-- A registered channel has interest, and one with interest is registered.  Any number of
    connections, acceptors and connectors call the channels of one poller, their steps in any order,
    and no fd is used for two channels at a time: after every update the fd of the channel is
    registered if and only if its mask is not empty, exactly when every step is tidy.  A connection
    whose mask is empty is then not reported. -/
theorem registered_iff_interest {ι : Type} [DecidableEq ι] (fd : ι × Nat → Int)
    (owners : ι → Owner) (hnew : ∀ i, (owners i).IsNew) (es : List (ι × OwnerEvent))
    (hfd : Run.AllSteps (Poller.step fd) (Poller.Exclusive fd) .new
      (Run.image Owners.step Owners.calls owners es)) :
    (Run.AllSteps (Poller.step fd) (Poller.Matches fd) .new
        (Run.image Owners.step Owners.calls owners es) ↔
      Run.AllSteps Owners.step Owners.Tidy owners es) ∧
    (Run.AllSteps Owners.step Owners.Tidy owners es →
      ∀ i k, Run.exec Owners.step owners es i = .connection k → k.isNoneEvent = true →
        ∀ revents_, k.step (.poll revents_) = k) := by
  have hagrees : Owners.Agrees fd owners .new :=
    ⟨Poller.new_inv fd, fun i => (hnew i).inv, fun i n => by rw [(hnew i).log_eq_nil]; rfl⟩
  obtain ⟨⟨-, howners, hlog⟩, hiff⟩ := Run.exec_image_iff (R := Owners.Agrees fd)
    (fun _ _ x h hx => Owners.agrees_step h x hx) hagrees hfd
  refine ⟨hiff.symm, fun htidy i k hk hnone => ?_⟩
  have hview : logged (Owner.connection k).log 0 = k.view := by
    have hinv := howners i
    rw [hk] at hinv
    exact hinv.2
  have hchannel := hlog i 0
  rw [hk, hview] at hchannel
  have hindex := Poller.exec_interest hfd (hiff.mp htidy) (i, 0)
  rw [hchannel] at hindex
  refine ReadConn.step_poll_of_unregistered (hindex ?_)
  simpa [PollChannel.isNoneEvent, ReadConn.view, ReadConn.maskOf_eq_none_iff,
    ReadConn.isNoneEvent] using hnone

/-- Fds that are never used again. -/
def distinctFds : Fin 3 × Nat → Int := fun c => 3 * c.2 + c.1

theorem distinctFds_injective : Function.Injective distinctFds := by
  intro c c' h
  obtain ⟨i, n⟩ := c
  obtain ⟨j, m⟩ := c'
  simp only [distinctFds] at h
  have hi := i.isLt
  have hj := j.isLt
  have hn : n = m := by omega
  have hij : (i : Nat) = j := by omega
  exact Prod.ext (Fin.ext hij) hn

/-- A connection, an acceptor and a connector. -/
def someOwners : Fin 3 → Owner
  | 0 => .connection (.new false)
  | 1 => .acceptor .new
  | 2 => .connector .new

theorem someOwners_isNew : ∀ i, (someOwners i).IsNew
  | 0 => ⟨false, rfl⟩
  | 1 => rfl
  | 2 => rfl

/-- All three come and go, the connection closed by its peer while it reads. -/
theorem registered_iff_interest_owners :
    Run.AllSteps (Poller.step distinctFds) (Poller.Matches distinctFds) .new
      (Run.image Owners.step Owners.calls someOwners
        [(1, .acceptor .listen), (0, .connection .connectEstablished),
         (2, .connector (.start true .EINPROGRESS)), (0, .connection .stopReadInLoop),
         (0, .connection .startReadInLoop), (2, .connector (.poll writable)),
         (2, .connector (.part 0 false)), (0, .connection (.poll readable)),
         (0, .connection (.part (.data []) (.accepts 0))), (0, .connection .connectDestroyed),
         (0, .connection (.part (.data []) (.accepts 0))), (1, .acceptor .destroy)]) := by
  refine (registered_iff_interest distinctFds someOwners someOwners_isNew _
    (Poller.exclusive_of_injective distinctFds_injective _ _)).1.mpr ?_
  decide +kernel

/-- `stopRead` and then `forceClose`: the `disableAll` of `handleClose` registers the fd with an
    empty mask, and the peer's hang-up runs `handleClose` in `kDisconnected`.  And an acceptor that
    is destroyed before it listened. -/
theorem disable_all_registers :
    let stopped : List (Fin 3 × OwnerEvent) :=
      [(0, .connection .connectEstablished), (0, .connection .stopReadInLoop),
       (0, .connection .forceClose), (0, .connection .forceCloseInLoop)]
    let hung : List (Fin 3 × OwnerEvent) :=
      [(0, .connection (.poll hungUp)), (0, .connection (.part (.data []) (.accepts 0)))]
    let calls := fun es => Run.image Owners.step Owners.calls someOwners es
    let s := Run.exec (Poller.step distinctFds) .new (calls stopped)
    (calls stopped).getLast? = some ((0, 0), .disableAll) ∧
      s.epoll (distinctFds (0, 0)) = some ((0, 0), EventType.NoneEvent) ∧
      ¬ Run.AllSteps (Poller.step distinctFds) (Poller.Matches distinctFds) .new (calls stopped) ∧
      (∃ k, Run.exec Owners.step someOwners (stopped ++ hung) 0 = .connection k ∧
        k.triggered = [.kDisconnecting, .kDisconnected]) ∧
      ¬ Run.AllSteps (Poller.step distinctFds) (Poller.Matches distinctFds) .new
        (calls [(1, .acceptor .destroy)]) := by
  refine ⟨by decide +kernel, by decide +kernel, by decide +kernel, ⟨_, rfl, by decide +kernel⟩, ?_⟩
  decide +kernel

end DoubleTurnouts
