/-
  DoubleTurnouts.Network.ClientLife

  What holds of a `TcpClient` in any order of the user's calls and the steps of
  the loop.

  `ConnPhase` follows a connection from `newConnection` to `connectDestroyed`
  and accounts for the functors that are queued for it.  `Alive` ties the
  connector to the connections: `connection_` is the one connection that has
  not been given up, and a `resetChannel` that is queued while there is one
  comes before anything that could close it, so that `restart` always finds the
  last channel gone.
-/
import Mathlib.Tactic
import DoubleTurnouts.Network.TcpClient

namespace DoubleTurnouts

/-! ## What a step of the connector does to its user -/

namespace Connector

variable {s : Connector}

/-- The connector has moved on: it kept `kept` of its queue, and has handed over the sockets
    `hands`, one at most and on the way out of `kConnecting`. -/
structure Moves (s s' : Connector) (kept : List ConnectorFunctor) (hands : List Nat) : Prop where
  pending : ∃ new, s'.pendingFunctors_ = kept ++ new ∧
    (s.state_ = .kConnected → .resetChannel ∉ new) ∧ (hands ≠ [] → new = [.resetChannel])
  handed : s'.handed = s.handed ++ hands
  hands : hands = [] ∨
    (∃ sockfd, hands = [sockfd]) ∧ s.state_ = .kConnecting ∧ s'.state_ = .kConnected
  connected : s.state_ = .kConnected → s'.state_ = .kConnected
  parts : s.parts = [] → s'.parts = []

theorem startInLoop_same (s : Connector) (savedErrno : ConnectErrno) :
    (s.startInLoop savedErrno).pendingFunctors_ = s.pendingFunctors_ ∧
      (s.startInLoop savedErrno).handed = s.handed ∧
      (s.startInLoop savedErrno).parts = s.parts := by
  unfold startInLoop
  dsimp only
  split
  · rcases connect_cases (s.check .startInLoop (s.state_ = .kDisconnected)) savedErrno with
      ⟨-, heq⟩ | heq | heq <;> rw [heq] <;> exact ⟨rfl, rfl, rfl⟩
  · exact ⟨rfl, rfl, rfl⟩

/-- The assertion of `startInLoop`. -/
theorem startInLoop_fails (hstate : s.state_ ≠ .kDisconnected) (savedErrno : ConnectErrno) :
    .startInLoop ∈ (s.startInLoop savedErrno).failed := by
  have hcheck : .startInLoop ∈ (s.check .startInLoop (s.state_ = .kDisconnected)).failed := by
    simp [check, hstate]
  unfold startInLoop
  dsimp only
  split
  · rcases connect_cases (s.check .startInLoop (s.state_ = .kDisconnected)) savedErrno with
      ⟨-, heq⟩ | heq | heq <;> rw [heq]
    · exact List.mem_append_left _ hcheck
    · exact hcheck
    · exact hcheck
  · exact hcheck

/-- `restart` is safe where the last channel is gone. -/
theorem restart_inv (h : s.Inv) (hchannel : s.channel_ = none) (savedErrno : ConnectErrno) :
    (s.restart savedErrno).Inv := by
  refine startInLoop_inv (s := { s with state_ := .kDisconnected, connect_ := true })
    ⟨?_, h.channels, h.failed, h.destroyed, h.crashed⟩ ⟨rfl, fun _ _ => hchannel⟩
  cases h.phase with
  | idle _ _ hreset hparts hbooks => exact .idle hchannel (by simp) hreset hparts hbooks
  | connecting sockfd hsome => cases hchannel.symm.trans hsome
  | removed sockfd hsome => cases hchannel.symm.trans hsome

/-- A connector that is neither connecting nor waiting for `resetChannel` has no channel. -/
theorem Inv.channel_none (h : s.Inv) (hstate : s.state_ ≠ .kConnecting)
    (hreset : .resetChannel ∉ s.pendingFunctors_) : s.channel_ = none := by
  cases h.phase with
  | idle hchannel => exact hchannel
  | connecting sockfd hchannel hconnecting => exact absurd hconnecting hstate
  | removed sockfd hchannel hremoved hone =>
      rw [List.count_eq_zero_of_not_mem hreset] at hone
      cases hone

theorem Inv.reset_once (h : s.Inv) : s.pendingFunctors_.count .resetChannel ≤ 1 := by
  cases h.phase with
  | idle _ _ hreset => omega
  | connecting _ _ _ hreset => omega
  | removed _ _ _ hreset => omega

/-- A step that leaves the queue, the sockets and the handler alone but for new functors. -/
theorem Moves.of_same {s' : Connector} {kept : List ConnectorFunctor}
    (new : List ConnectorFunctor) (hpending : s'.pendingFunctors_ = kept ++ new)
    (hnew : .resetChannel ∉ new) (hhanded : s'.handed = s.handed)
    (hstate : s.state_ = .kConnected → s'.state_ = .kConnected) (hparts : s'.parts = s.parts) :
    Moves s s' kept [] :=
  ⟨⟨new, hpending, fun _ => hnew, fun hne => absurd rfl hne⟩, by rw [hhanded, List.append_nil],
    .inl rfl, hstate, fun h => hparts.trans h⟩

theorem Moves.refl (s : Connector) : Moves s s s.pendingFunctors_ [] :=
  .of_same [] (List.append_nil _).symm (by simp) rfl id rfl

/-- Of the state before, only these count. -/
theorem Moves.of_eq {t s' : Connector} {kept : List ConnectorFunctor} {hands : List Nat}
    (h : Moves t s' kept hands) (hstate : t.state_ = s.state_) (hhanded : t.handed = s.handed)
    (hparts : s.parts = [] → t.parts = []) : Moves s s' kept hands := by
  obtain ⟨hpending, hmoved, hhands, hconnected, hquiet⟩ := h
  rw [hstate] at hpending hhands hconnected
  rw [hhanded] at hmoved
  exact ⟨hpending, hmoved, hhands, hconnected, fun hs => hquiet (hparts hs)⟩

theorem startInLoop_moves {savedErrno : ConnectErrno} (hready : s.Ready savedErrno) :
    Moves s (s.startInLoop savedErrno) s.pendingFunctors_ [] := by
  obtain ⟨hpending, hhanded, hparts⟩ := s.startInLoop_same savedErrno
  refine .of_same [] (by simpa using hpending) (by simp) hhanded ?_ hparts
  intro hstate
  cases hready.1.symm.trans hstate

/-- The way out of `kConnecting` with the socket closed. -/
theorem released_moves (sockfd : Nat) (channel : PollChannel) (closed : List Nat)
    {st : ConnectorState} (hconnecting : s.state_ = .kConnecting) :
    Moves s { s.released sockfd channel with state_ := st, closed := closed }
      s.pendingFunctors_ [] where
  pending := ⟨[.resetChannel], rfl, by simp [hconnecting], fun _ => rfl⟩
  handed := (List.append_nil _).symm
  hands := .inl rfl
  connected := by simp [hconnecting]
  parts := id

theorem Inv.connecting_channel (h : s.Inv) (hstate : s.state_ = .kConnecting) :
    ∃ sockfd, s.channel_ = some (sockfd, watched) := by
  cases h.phase with
  | idle _ hidle => exact absurd hstate hidle
  | connecting sockfd hchannel => exact ⟨sockfd, hchannel⟩
  | removed _ _ hremoved => exact absurd hstate hremoved

theorem stopInLoop_moves
    (h : s.state_ = .kConnecting → ∃ sockfd, s.channel_ = some (sockfd, watched)) :
    Moves s s.stopInLoop s.pendingFunctors_ [] := by
  rw [stopInLoop]
  split
  · rename_i hconnecting
    obtain ⟨sockfd, hchannel⟩ := h hconnecting
    dsimp only
    rw [removeAndResetChannel_eq (s := { s with state_ := .kDisconnected }) hchannel]
    exact released_moves sockfd watched _ hconnecting
  · exact .refl s

theorem handleError_moves
    (h : s.state_ = .kConnecting → ∃ sockfd, s.channel_ = some (sockfd, watched)) :
    Moves s s.handleError s.pendingFunctors_ [] := by
  rw [handleError]
  split
  · rename_i hconnecting
    obtain ⟨sockfd, hchannel⟩ := h hconnecting
    rw [removeAndResetChannel_eq hchannel]
    exact released_moves sockfd watched _ hconnecting
  · exact .refl s

/-- `handleWrite` is where a socket may be handed over. -/
theorem handleWrite_moves
    (h : s.state_ = .kConnecting → ∃ sockfd, s.channel_ = some (sockfd, watched))
    (err : Int) (isSelfConnect : Bool) :
    ∃ hands, Moves s (s.handleWrite err isSelfConnect) s.pendingFunctors_ hands := by
  rw [handleWrite]
  split
  · rename_i hconnecting
    obtain ⟨sockfd, hchannel⟩ := h hconnecting
    rw [removeAndResetChannel_eq hchannel]
    dsimp only
    split
    · exact ⟨[], released_moves sockfd watched _ hconnecting⟩
    · split
      · exact ⟨[], released_moves sockfd watched _ hconnecting⟩
      · split
        · exact ⟨[sockfd], ⟨[.resetChannel], rfl, by simp [hconnecting], fun _ => rfl⟩, rfl,
            .inr ⟨⟨sockfd, rfl⟩, hconnecting, rfl⟩, fun _ => rfl, id⟩
        · exact ⟨[], released_moves sockfd watched _ hconnecting⟩
  · exact ⟨[], .of_same [] (by simp [check]) (by simp) rfl id rfl⟩

/-- A call of the user adds to the queue, and leaves an attempt that has been made alone. -/
theorem Inv.call_moves (h : s.Inv) {e : ConnectorEvent} (hok : s.StartOk e)
    (he : (∃ inLoop savedErrno, e = .start inLoop savedErrno) ∨ e = .stop) :
    Moves s (s.step e) s.pendingFunctors_ [] ∧
      (s.state_ = .kConnecting → (s.step e).state_ = .kConnecting) := by
  unfold step
  rw [if_neg (by simp [h.crashed])]
  rcases he with ⟨inLoop, savedErrno, rfl⟩ | rfl
  · cases inLoop with
    | false => exact ⟨.of_same [.startInLoop] rfl (by simp) rfl id rfl, id⟩
    | true =>
        have hready : { s with connect_ := true }.Ready savedErrno := hok rfl
        refine ⟨(startInLoop_moves hready).of_eq rfl rfl id, fun hconnecting => ?_⟩
        cases hready.1.symm.trans hconnecting
  · exact ⟨.of_same [.stopInLoop] rfl (by simp) rfl id rfl, id⟩

/-- A callback of the handler. -/
theorem Inv.part_moves (h : s.Inv) (err : Int) (isSelfConnect : Bool) :
    ∃ hands, Moves s (s.step (.part err isSelfConnect)) s.pendingFunctors_ hands := by
  unfold step
  rw [if_neg (by simp [h.crashed])]
  dsimp only
  split
  · exact ⟨[], .refl s⟩
  · rename_i p rest hparts
    have hrest : s.parts = [] → rest = [] := fun hnil => by cases hnil.symm.trans hparts
    cases p with
    | handleWrite =>
        obtain ⟨hands, hmoves⟩ := handleWrite_moves (s := { s with parts := rest })
          h.connecting_channel err isSelfConnect
        exact ⟨hands, hmoves.of_eq rfl rfl hrest⟩
    | handleError =>
        exact ⟨[], (handleError_moves (s := { s with parts := rest })
          h.connecting_channel).of_eq rfl rfl hrest⟩

/-- A functor leaves the queue and may add to it. -/
theorem Inv.functor_moves (h : s.Inv) {f : ConnectorFunctor} {rest : List ConnectorFunctor}
    (hf : s.pendingFunctors_ = f :: rest) (hparts : s.parts = []) {savedErrno : ConnectErrno}
    (hready : f = .startInLoop → s.Ready savedErrno) :
    Moves s (s.step (.functor 0 savedErrno)) rest [] := by
  have hstep : s.step (.functor 0 savedErrno) =
      runFunctor { s with pendingFunctors_ := rest } savedErrno f := by
    simp [step, h.crashed, hf, hparts]
  rw [hstep]
  cases f with
  | startInLoop =>
      exact (startInLoop_moves (s := { s with pendingFunctors_ := rest }) (hready rfl)).of_eq
        rfl rfl id
  | stopInLoop =>
      exact (stopInLoop_moves (s := { s with pendingFunctors_ := rest })
        h.connecting_channel).of_eq rfl rfl id
  | resetChannel => exact .of_same [] (List.append_nil rest).symm (by simp) rfl id rfl

end Connector

namespace TcpClient

/-! ## The life of a connection -/

/-- The functors that are queued for a connection. -/
def functorsOf (fs : List ClientFunctor) (c : Nat) : List ClientFunctor :=
  fs.filter fun cb => cb.conn? = some c

theorem functorsOf_append (fs new : List ClientFunctor) (c : Nat) :
    functorsOf (fs ++ new) c = functorsOf fs c ++ functorsOf new c :=
  List.filter_append fs new

theorem functorsOf_singleton (cb : ClientFunctor) (c : Nat) :
    functorsOf [cb] c = if cb.conn? = some c then [cb] else [] := by
  by_cases h : cb.conn? = some c <;> simp [functorsOf, h]

theorem functorsOf_connector (fs : List ConnectorFunctor) (c : Nat) :
    functorsOf (fs.map .connector) c = [] := by
  simp [functorsOf, ClientFunctor.conn?]

/-- Where the connection `c` can be, by its record, whether it is `closing`, and the functors that
    are queued for it: `connectDestroyed` is the last of them. -/
inductive ConnPhase (k : ClientConn) (closing : Prop) (fs : List ClientFunctor) (c : Nat) : Prop
  | up (hopen : k.isOpen = true) (hclosing : ¬closing) (hdestroyed : k.destroyed = 0)
      (hfs : .connectDestroyed c ∉ fs)
  | closing (hstate : k.state_ = .kDisconnected) (hclosing : closing) (hdestroyed : k.destroyed = 0)
      (hfs : .connectDestroyed c ∉ fs)
  | leaving (hstate : k.state_ = .kDisconnected) (hclosing : ¬closing)
      (hdestroyed : k.destroyed = 0)
      (hfs : ∃ l, fs = l ++ [.connectDestroyed c] ∧ .connectDestroyed c ∉ l)
  | gone (hstate : k.state_ = .kDisconnected) (hclosing : ¬closing) (hdestroyed : k.destroyed = 1)
      (hfs : fs = [])

theorem ConnPhase.of_open {k : ClientConn} {closing : Prop} {fs : List ClientFunctor} {c : Nat}
    (h : ConnPhase k closing fs c) (hopen : k.isOpen = true) :
    ¬closing ∧ k.destroyed = 0 ∧ .connectDestroyed c ∉ fs := by
  cases h with
  | up _ hclosing hdestroyed hfs => exact ⟨hclosing, hdestroyed, hfs⟩
  | closing hstate | leaving hstate | gone hstate => simp [ClientConn.isOpen, hstate] at hopen

/-- What holds of the connections, whoever has the client. -/
structure Conns (s : TcpClient) : Prop where
  phase : ∀ {c k}, s.conns[c]? = some k →
    ConnPhase k (s.closing = some c) (functorsOf s.pendingFunctors_ c) c
  fresh : ∀ c, s.conns.length ≤ c →
    functorsOf s.pendingFunctors_ c = [] ∧ s.closing ≠ some c
  active : ∀ c, .connection c ∈ s.active → ∃ k, s.conns[c]? = some k ∧ k.isOpen = true
  nodup : (s.active.map ClientChannel.owner).Nodup
  handling : s.doing = true → s.active = []
  waiting : s.doing = false → s.left = 0

/-- The connection is up, or in `handleClose`. -/
def Current (s : TcpClient) (c : Nat) : Prop :=
  s.closing = some c ∨ ∃ k, s.conns[c]? = some k ∧ k.isOpen = true

variable {s s' : TcpClient} {c : Nat} {k : ClientConn}

/-- One connection was worked on, in the same part of the loop. -/
theorem Conns.touch (h : s.Conns) (hk : s.conns[c]? = some k) {f : ClientConn → ClientConn}
    (hconns : s'.conns = s.conns.modify c f)
    (hfs : ∀ c' ≠ c, functorsOf s'.pendingFunctors_ c' = functorsOf s.pendingFunctors_ c')
    (hclosing : ∀ c' ≠ c, s'.closing = some c' ↔ s.closing = some c')
    (hphase : ConnPhase (f k) (s'.closing = some c) (functorsOf s'.pendingFunctors_ c) c)
    (hactive : s'.active = s.active) (hdoing : s'.doing = s.doing)
    (hleft : s'.doing = false → s'.left = s.left)
    (hopen : .connection c ∈ s.active → (f k).isOpen = true) : s'.Conns := by
  have hother : ∀ c' ≠ c, s'.conns[c']? = s.conns[c']? := fun c' hne => by
    rw [hconns, List.getElem?_modify_ne f s.conns hne.symm]
  have hown : s'.conns[c]? = some (f k) := by
    rw [hconns, List.getElem?_modify_eq, hk]
    rfl
  have hlen : s'.conns.length = s.conns.length := by rw [hconns, List.length_modify]
  have hlt : c < s.conns.length := (List.getElem?_eq_some_iff.mp hk).1
  refine ⟨?_, ?_, ?_, hactive ▸ h.nodup, ?_, ?_⟩
  · intro c' k' hk'
    rcases eq_or_ne c' c with rfl | hne
    · cases hown.symm.trans hk'
      exact hphase
    · rw [hother c' hne] at hk'
      rw [hfs c' hne, propext (hclosing c' hne)]
      exact h.phase hk'
  · intro c' hc'
    have hne : c' ≠ c := by omega
    rw [hfs c' hne, ne_eq, hclosing c' hne]
    exact h.fresh c' (by omega)
  · intro c' hc'
    rw [hactive] at hc'
    rcases eq_or_ne c' c with rfl | hne
    · exact ⟨f k, hown, hopen hc'⟩
    · rw [hother c' hne]
      exact h.active c' hc'
  · rw [hdoing, hactive]
    exact h.handling
  · intro hnot
    rw [hleft hnot]
    exact h.waiting (hdoing ▸ hnot)

/-- What is done to the queue for no connection is nothing to them. -/
theorem Conns.of_queue (h : s.Conns) (hconns : s'.conns = s.conns)
    (hfs : ∀ c, functorsOf s'.pendingFunctors_ c = functorsOf s.pendingFunctors_ c)
    (hclosing : s'.closing = s.closing)
    (hactive : s'.active = s.active) (hdoing : s'.doing = s.doing)
    (hleft : s'.doing = false → s'.left = s.left) : s'.Conns where
  phase := by
    intro c k hk
    rw [hconns] at hk
    rw [hfs, hclosing]
    exact h.phase hk
  fresh := by
    rw [hconns, hclosing]
    intro c hc
    rw [hfs]
    exact h.fresh c hc
  active := by
    rw [hactive, hconns]
    exact h.active
  nodup := hactive ▸ h.nodup
  handling := by
    rw [hdoing, hactive]
    exact h.handling
  waiting := by
    intro hnot
    rw [hleft hnot]
    exact h.waiting (hdoing ▸ hnot)

theorem isOpen_disconnecting (k : ClientConn) : (k.setState .kDisconnecting).isOpen = true := by
  simp [ClientConn.isOpen, ClientConn.setState]

/-- What no work on a connection changes while there is a client. -/
def label (k : ClientConn) : Nat × CloseCallback := (k.sockfd, k.closeCallback_)

theorem labels_modify (conns : List ClientConn) (c : Nat) {f : ClientConn → ClientConn}
    (hf : ∀ k, label (f k) = label k) : (conns.modify c f).map label = conns.map label := by
  apply List.ext_getElem?
  intro c'
  rw [List.getElem?_map, List.getElem?_map, List.getElem?_modify]
  cases conns[c']? with
  | none => rfl
  | some k => by_cases hc : c = c' <;> simp [hc, hf]

/-- Work on the connections that leaves the client and its connector alone, and no connection in
    another place. -/
structure Nudge (s s' : TcpClient) : Prop where
  eq : s' = { s with conns := s'.conns, pendingFunctors_ := s'.pendingFunctors_ }
  conns : s'.conns.map label = s.conns.map label
  current : ∀ c, s'.Current c ↔ s.Current c
  pending : ∃ new, s'.pendingFunctors_ = s.pendingFunctors_ ++ new ∧
    ∀ cb ∈ new, ∃ c, cb = .shutdownInLoop c ∨ cb = .forceCloseInLoop c

theorem Nudge.refl (s : TcpClient) : Nudge s s where
  eq := rfl
  conns := rfl
  current := fun _ => Iff.rfl
  pending := ⟨[], by simp⟩

/-- A connection that is up goes on to `kDisconnecting`, and some of its functors are queued. -/
theorem Conns.disconnecting (h : s.Conns) (hk : s.conns[c]? = some k) (hopen : k.isOpen = true)
    (new : List ClientFunctor)
    (hnew : ∀ cb ∈ new, cb = .shutdownInLoop c ∨ cb = .forceCloseInLoop c) (hs' : s' = { s with
      conns := s.conns.modify c fun k => k.setState .kDisconnecting
      pendingFunctors_ := s.pendingFunctors_ ++ new }) : s'.Conns ∧ Nudge s s' := by
  obtain ⟨hclosing, hdestroyed, hnone⟩ := (h.phase hk).of_open hopen
  have hmine : ∀ c' ≠ c, functorsOf new c' = [] := by
    intro c' hne
    simp only [functorsOf, List.filter_eq_nil_iff, decide_eq_true_eq]
    intro cb hcb
    rcases hnew cb hcb with rfl | rfl <;> simpa [ClientFunctor.conn?] using hne.symm
  subst hs'
  constructor
  · refine h.touch hk rfl (fun c' hne => ?_) (fun _ _ => Iff.rfl) ?_ rfl rfl (fun _ => rfl)
      fun _ => isOpen_disconnecting k
    · rw [functorsOf_append, hmine c' hne, List.append_nil]
    · refine .up (isOpen_disconnecting k) hclosing hdestroyed ?_
      rw [functorsOf_append, List.mem_append, not_or]
      refine ⟨hnone, fun hmem => ?_⟩
      rcases hnew _ (List.mem_of_mem_filter hmem) with heq | heq <;> cases heq
  · refine ⟨rfl, labels_modify s.conns c fun _ => rfl, fun c' => or_congr_right ?_, new, rfl,
      fun cb hcb => ⟨c, hnew cb hcb⟩⟩
    show (∃ k', (s.conns.modify c _)[c']? = some k' ∧ k'.isOpen = true) ↔ _
    rcases eq_or_ne c c' with rfl | hne
    · rw [List.getElem?_modify_eq, hk]
      simp [isOpen_disconnecting, hopen]
    · rw [List.getElem?_modify_ne _ s.conns hne]

theorem isOpen_of_connected (hstate : k.state_ = .kConnected) : k.isOpen = true := by
  simp [ClientConn.isOpen, hstate]

theorem Conns.shutdown (h : s.Conns) (inLoop : Bool) (c : Nat) :
    (s.shutdown inLoop c).Conns ∧ Nudge s (s.shutdown inLoop c) := by
  unfold TcpClient.shutdown
  split
  · exact ⟨h, .refl s⟩
  · rename_i k hk
    split
    · rename_i hstate
      cases inLoop with
      | true =>
          exact h.disconnecting hk (isOpen_of_connected hstate) [] (by simp)
            (by rw [List.append_nil]; rfl)
      | false =>
          exact h.disconnecting hk (isOpen_of_connected hstate) [.shutdownInLoop c] (by simp) rfl
    · exact ⟨h, .refl s⟩

theorem Conns.forceClose (h : s.Conns) (c : Nat) :
    (s.forceClose c).Conns ∧ Nudge s (s.forceClose c) := by
  unfold TcpClient.forceClose
  split
  · exact ⟨h, .refl s⟩
  · rename_i k hk
    split
    · rename_i hopen
      exact h.disconnecting hk hopen [.forceCloseInLoop c] (by simp) rfl
    · exact ⟨h, .refl s⟩

/-- `handleClose` of a connection that is up, at the end of what else the loop is in. -/
theorem Conns.handleClose (h : s.Conns) (hk : s.conns[c]? = some k) (hopen : k.isOpen = true)
    (hclosing : s.closing = none) (hactive : .connection c ∉ s.active) :
    (s.handleClose c).Conns ∧ s.handleClose c = { s with
      conns := s.conns.modify c fun k => k.setState .kDisconnected, closing := some c } := by
  have heq : s.handleClose c = { s with
      conns := s.conns.modify c fun k => k.setState .kDisconnected, closing := some c } := by
    simp [TcpClient.handleClose, hk, check, hopen, modifyConn]
  refine ⟨?_, heq⟩
  rw [heq]
  obtain ⟨-, hdestroyed, hnone⟩ := (h.phase hk).of_open hopen
  refine h.touch hk rfl (fun _ _ => rfl) (fun c' hne => ?_) ?_ rfl rfl (fun _ => rfl)
    fun hmem => absurd hmem hactive
  · simp [hclosing, hne.symm]
  · exact .closing rfl rfl hdestroyed hnone

/-- The end of `handleClose`: the last functor of the connection is queued. -/
theorem Conns.finish (h : s.Conns) (hclosing : s.closing = some c)
    (hs' : s' = { s with
      closing := none, pendingFunctors_ := s.pendingFunctors_ ++ [.connectDestroyed c] }) :
    s'.Conns := by
  have hlt : c < s.conns.length := by
    by_contra hge
    exact (h.fresh c (by omega)).2 hclosing
  have hk : s.conns[c]? = some s.conns[c] := List.getElem?_eq_getElem hlt
  subst hs'
  refine h.touch (f := id) hk (List.modify_id _ _).symm (fun c' hne => ?_) (fun c' hne => ?_) ?_
    rfl rfl (fun _ => rfl) fun hmem => ?_
  · have hother : (ClientFunctor.connectDestroyed c).conn? ≠ some c' := by
      simpa [ClientFunctor.conn?] using hne.symm
    rw [functorsOf_append, functorsOf_singleton, if_neg hother, List.append_nil]
  · simp [hclosing, hne.symm]
  · have hlast : functorsOf [.connectDestroyed c] c = [.connectDestroyed c] := by
      simp [functorsOf, ClientFunctor.conn?]
    rw [functorsOf_append, hlast]
    cases h.phase hk with
    | closing hstate _ hdestroyed hnone =>
        exact .leaving hstate (by simp) hdestroyed ⟨_, rfl, hnone⟩
    | up _ hnot | leaving _ hnot | gone _ hnot => exact absurd hclosing hnot
  · obtain ⟨k, hk', hopen⟩ := h.active c hmem
    exact absurd hclosing ((h.phase hk').of_open hopen).1

/-- `newConnection`. -/
theorem Conns.newConnection (h : s.Conns) (sockfd : Nat) : (s.newConnection sockfd).Conns where
  phase := by
    intro c k hk
    have hk : (s.conns ++ [⟨sockfd, .kConnected, .client, 0⟩])[c]? = some k := hk
    rcases Nat.lt_or_ge c s.conns.length with hlt | hge
    · rw [List.getElem?_append_left hlt] at hk
      exact h.phase hk
    · obtain ⟨hnone, hclosing⟩ := h.fresh c hge
      rw [List.getElem?_append_right hge, List.getElem?_singleton] at hk
      split at hk
      · cases hk
        exact .up rfl hclosing rfl (by simp [TcpClient.newConnection, hnone])
      · cases hk
  fresh := by
    intro c hc
    have hc : s.conns.length + 1 ≤ c := by simpa [TcpClient.newConnection] using hc
    exact h.fresh c (by omega)
  active := by
    intro c hc
    obtain ⟨k, hk, hopen⟩ := h.active c hc
    have hlt := (List.getElem?_eq_some_iff.mp hk).1
    exact ⟨k, (List.getElem?_append_left hlt).trans hk, hopen⟩
  nodup := h.nodup
  handling := h.handling
  waiting := h.waiting

/-- The channel that is handled leaves the list. -/
theorem Conns.pop (h : s.Conns) {channel : ClientChannel} {rest : List ClientChannel}
    (hactive : s.active = channel :: rest) : Conns { s with active := rest } where
  phase := h.phase
  fresh := h.fresh
  active := fun c hc => h.active c (by rw [hactive]; exact List.mem_cons_of_mem _ hc)
  nodup := by
    have hnodup := h.nodup
    rw [hactive, List.map_cons, List.nodup_cons] at hnodup
    exact hnodup.2
  handling := fun hdoing => by cases (h.handling hdoing).symm.trans hactive
  waiting := h.waiting

/-- `poll`. -/
theorem Conns.poll (h : s.Conns) {ready : List ClientChannel}
    (hnodup : (ready.map ClientChannel.owner).Nodup) (hready : ∀ x ∈ ready, s.Registered x) :
    Conns { s with doing := false, left := 0, active := ready } where
  phase := h.phase
  fresh := h.fresh
  active := by
    intro c hc
    have hopen : s.conns[c]?.any ClientConn.isOpen = true := hready _ hc
    exact (Option.any_eq_true _ _).mp hopen
  nodup := hnodup
  handling := by simp
  waiting := fun _ => rfl

/-! ### Functors taken off the queue -/

theorem functorsOf_cons (cb : ClientFunctor) (fs : List ClientFunctor) (c : Nat) :
    functorsOf (cb :: fs) c =
      if cb.conn? = some c then cb :: functorsOf fs c else functorsOf fs c := by
  by_cases h : cb.conn? = some c <;> simp [functorsOf, h]

/-- A functor other than the last has been taken. -/
theorem ConnPhase.tail {closing : Prop} {cb : ClientFunctor} {fs : List ClientFunctor}
    (h : ConnPhase k closing (cb :: fs) c) (hcb : cb ≠ .connectDestroyed c) :
    ConnPhase k closing fs c := by
  cases h with
  | up hopen hclosing hdestroyed hfs =>
      exact .up hopen hclosing hdestroyed fun hmem => hfs (List.mem_cons_of_mem _ hmem)
  | closing hstate hclosing hdestroyed hfs =>
      exact .closing hstate hclosing hdestroyed fun hmem => hfs (List.mem_cons_of_mem _ hmem)
  | leaving hstate hclosing hdestroyed hfs =>
      obtain ⟨l, heq, hnone⟩ := hfs
      cases l with
      | nil =>
          cases heq
          exact absurd rfl hcb
      | cons cb' l =>
          cases heq
          exact .leaving hstate hclosing hdestroyed
            ⟨l, rfl, fun hmem => hnone (List.mem_cons_of_mem _ hmem)⟩
  | gone _ _ _ hfs => cases hfs

theorem Conns.take (h : s.Conns) {cb : ClientFunctor} {rest : List ClientFunctor}
    (hfs : s.pendingFunctors_ = cb :: rest) (hcb : ∀ c, cb ≠ .connectDestroyed c)
    (hdoing : s.doing = true) (left : Nat) :
    Conns { s with pendingFunctors_ := rest, left := left } where
  phase := by
    intro c k hk
    have hphase := h.phase hk
    rw [hfs, functorsOf_cons] at hphase
    split at hphase
    · exact hphase.tail (hcb c)
    · exact hphase
  fresh := by
    intro c hc
    obtain ⟨hnone, hclosing⟩ := h.fresh c hc
    rw [hfs, functorsOf_cons] at hnone
    split at hnone
    · cases hnone
    · exact ⟨hnone, hclosing⟩
  active := h.active
  nodup := h.nodup
  handling := h.handling
  waiting := fun hnot => by cases hdoing.symm.trans hnot

/-- A functor of a connection finds it there, and not yet destroyed. -/
theorem Conns.exists_conn (h : s.Conns) {cb : ClientFunctor} {rest : List ClientFunctor}
    (hfs : s.pendingFunctors_ = cb :: rest) (hcb : cb.conn? = some c) :
    ∃ k, s.conns[c]? = some k ∧ k.destroyed = 0 := by
  have hmine : functorsOf s.pendingFunctors_ c = cb :: functorsOf rest c := by
    rw [hfs, functorsOf_cons, if_pos hcb]
  have hlt : c < s.conns.length := by
    by_contra hge
    cases hmine.symm.trans (h.fresh c (by omega)).1
  have hk : s.conns[c]? = some s.conns[c] := List.getElem?_eq_getElem hlt
  refine ⟨_, hk, ?_⟩
  cases h.phase hk with
  | up _ _ hdestroyed | closing _ _ hdestroyed | leaving _ _ hdestroyed => exact hdestroyed
  | gone _ _ _ hnone => cases hmine.symm.trans hnone

/-- `connectDestroyed` runs when nothing else of the connection is queued. -/
theorem Conns.connectDestroyed (h : s.Conns) {rest : List ClientFunctor}
    (hfs : s.pendingFunctors_ = .connectDestroyed c :: rest) (hdoing : s.doing = true)
    (left : Nat) :
    let t : TcpClient := { s with pendingFunctors_ := rest, left := left }
    (t.connectDestroyed c).Conns ∧ ¬s.Current c ∧
      t.connectDestroyed c = { t with
        conns := s.conns.modify c fun k =>
          { k with state_ := .kDisconnected, destroyed := k.destroyed + 1 } } := by
  intro t
  obtain ⟨k, hk, hzero⟩ := h.exists_conn hfs rfl
  have hmine : functorsOf s.pendingFunctors_ c = .connectDestroyed c :: functorsOf rest c := by
    rw [hfs]
    exact (functorsOf_cons _ rest c).trans (if_pos rfl)
  obtain ⟨hstate, hclosing, hnone⟩ : k.state_ = .kDisconnected ∧ s.closing ≠ some c ∧
      functorsOf rest c = [] := by
    have hphase := h.phase hk
    rw [hmine] at hphase
    cases hphase with
    | up _ _ _ hnot | closing _ _ _ hnot => exact absurd (List.mem_cons_self ..) hnot
    | leaving hstate hclosing _ hlast =>
        obtain ⟨l, heq, hnot⟩ := hlast
        cases l with
        | nil =>
            rw [List.nil_append, List.cons.injEq] at heq
            exact ⟨hstate, hclosing, heq.2⟩
        | cons cb l =>
            rw [List.cons_append, List.cons.injEq] at heq
            exact absurd (heq.1 ▸ List.mem_cons_self ..) hnot
    | gone _ _ _ hnot => cases hnot
  have heq : t.connectDestroyed c = { t with
      conns := s.conns.modify c fun k =>
        { k with state_ := .kDisconnected, destroyed := k.destroyed + 1 } } := by
    simp [TcpClient.connectDestroyed, t, hk, check, modifyConn, hstate]
  refine ⟨?_, ?_, heq⟩
  · rw [heq]
    refine h.touch hk rfl (fun c' hne => ?_) (fun _ _ => Iff.rfl) ?_ rfl rfl
      (fun hnot => by cases hdoing.symm.trans hnot) fun hmem => ?_
    · rw [hfs, functorsOf_cons, if_neg (by simpa [ClientFunctor.conn?] using hne.symm)]
    · exact .gone rfl hclosing (by rw [hzero]) hnone
    · rw [h.handling hdoing] at hmem
      cases hmem
  · rintro (hc | ⟨k', hk', hopen⟩)
    · exact hclosing hc
    · cases hk.symm.trans hk'
      simp [ClientConn.isOpen, hstate] at hopen

/-! ## The client and its connector -/

/-- The `resetChannel` that is queued comes before anything that may close the connection `c`: no
    event of it is waiting to be handled, and a batch that is being run has the functor in it. -/
def ResetFirst (s : TcpClient) (c : Nat) : Prop :=
  s.closing = none ∧ .connection c ∉ s.active ∧
    ∃ l r, s.pendingFunctors_ = l ++ .connector .resetChannel :: r ∧ .forceCloseInLoop c ∉ l ∧
      (s.doing = true → l.length < s.left)

/-- A client that has not been destroyed. -/
structure Alive (s : TcpClient) : Prop where
  conns : s.Conns
  alive : s.alive = true
  connector : s.connector_.Inv
  queue : s.connector_.pendingFunctors_ = s.pendingFunctors_.filterMap ClientFunctor.connector?
  current : ∀ c, s.connection_ = some c ↔ s.Current c
  connected : s.connection_ ≠ none → s.connector_.state_ = .kConnected
  callback : ∀ k ∈ s.conns, k.closeCallback_ = .client
  handed : s.connector_.handed = s.conns.map ClientConn.sockfd
  own : ∀ c, .setCloseCallback c ∉ s.pendingFunctors_
  parts : s.doing = true → s.connector_.parts = []
  reported : ∀ r, .connector r ∈ s.active →
    s.connector_.state_ = .kConnecting ∧ s.connector_.parts = []
  reset : ∀ c, s.connection_ = some c → .connector .resetChannel ∈ s.pendingFunctors_ →
    s.ResetFirst c
  failed : s.failed = []
  dangling : s.dangling = []

theorem new_alive : new.Alive where
  conns :=
    { phase := by simp [new]
      fresh := by simp [new, functorsOf]
      active := by simp [new]
      nodup := by simp [new]
      handling := fun _ => rfl
      waiting := by simp [new] }
  alive := rfl
  connector := Connector.new_inv
  queue := rfl
  current := by simp [new, Current]
  connected := by simp [new]
  callback := by simp [new]
  handed := rfl
  own := by simp [new]
  parts := fun _ => rfl
  reported := by simp [new]
  reset := by simp [new]
  failed := rfl
  dangling := rfl

/-- What is queued behind does not come before. -/
theorem ResetFirst.append (h : s.ResetFirst c) {new : List ClientFunctor}
    (hqueue : s'.pendingFunctors_ = s.pendingFunctors_ ++ new) (hclosing : s'.closing = s.closing)
    (hactive : s'.active = s.active) (hdoing : s'.doing = s.doing) (hleft : s'.left = s.left) :
    s'.ResetFirst c := by
  obtain ⟨hnone, hmem, l, r, heq, hforce, hbatch⟩ := h
  refine ⟨hclosing.trans hnone, hactive ▸ hmem, l, r ++ new, ?_, hforce, ?_⟩
  · rw [hqueue, heq, List.append_assoc, List.cons_append]
  · rw [hdoing, hleft]
    exact hbatch

/-- What is known of the records holds of others with the same labels. -/
theorem Alive.labels (h : s.Alive) {conns : List ClientConn}
    (hconns : conns.map label = s.conns.map label) :
    (∀ k ∈ conns, k.closeCallback_ = .client) ∧
      s.connector_.handed = conns.map ClientConn.sockfd := by
  constructor
  · intro k hk
    have hmem : label k ∈ s.conns.map label := hconns ▸ List.mem_map_of_mem hk
    obtain ⟨k', hk', heq⟩ := List.mem_map.mp hmem
    rw [← h.callback k' hk']
    exact (congrArg Prod.snd heq).symm
  · have hsockfd := congrArg (List.map Prod.fst) hconns
    rw [List.map_map, List.map_map] at hsockfd
    rw [h.handed]
    exact hsockfd.symm

theorem Alive.nudge (h : s.Alive) (hconns : s'.Conns) (hn : Nudge s s') : s'.Alive := by
  obtain ⟨new, hqueue, hnew⟩ := hn.pending
  have heq := hn.eq
  have hconnector : s'.connector_ = s.connector_ := by rw [heq]
  have hconnection : s'.connection_ = s.connection_ := by rw [heq]
  have hdoing : s'.doing = s.doing := by rw [heq]
  have hactive : s'.active = s.active := by rw [heq]
  have hother : new.filterMap ClientFunctor.connector? = [] := by
    rw [List.filterMap_eq_nil_iff]
    intro cb hcb
    obtain ⟨c, rfl | rfl⟩ := hnew cb hcb <;> rfl
  obtain ⟨hcallback, hhanded⟩ := h.labels hn.conns
  refine ⟨hconns, by rw [heq]; exact h.alive, hconnector ▸ h.connector, ?_, ?_, ?_, hcallback,
    hconnector ▸ hhanded, ?_, ?_, ?_, ?_, by rw [heq]; exact h.failed,
    by rw [heq]; exact h.dangling⟩
  · rw [hconnector, hqueue, List.filterMap_append, hother, List.append_nil]
    exact h.queue
  · intro c
    rw [hconnection, hn.current]
    exact h.current c
  · rw [hconnection, hconnector]
    exact h.connected
  · intro c hc
    rw [hqueue, List.mem_append] at hc
    rcases hc with hc | hc
    · exact h.own c hc
    · obtain ⟨c', heq' | heq'⟩ := hnew _ hc <;> cases heq'
  · rw [hdoing, hconnector]
    exact h.parts
  · rw [hactive, hconnector]
    exact h.reported
  · intro c hc hreset
    rw [hconnection] at hc
    rw [hqueue, List.mem_append] at hreset
    rcases hreset with hreset | hreset
    · exact (h.reset c hc hreset).append hqueue (by rw [heq]) hactive hdoing (by rw [heq])
    · obtain ⟨c', heq' | heq'⟩ := hnew _ hreset <;> cases heq'

/-- What the connector queues behind `kept`. -/
theorem drop_kept {s : Connector} {s₀ : Connector} {kept : List ConnectorFunctor} {hands : List Nat}
    (h : Connector.Moves s₀ s kept hands) :
    ∃ new, s.pendingFunctors_.drop kept.length = new ∧ s.pendingFunctors_ = kept ++ new ∧
      (s₀.state_ = .kConnected → .resetChannel ∉ new) ∧ (hands ≠ [] → new = [.resetChannel]) := by
  obtain ⟨new, hpending, hnew, hhands⟩ := h.pending
  exact ⟨new, by rw [hpending, List.drop_left], hpending, hnew, hhands⟩

theorem filterMap_connector (fs : List ConnectorFunctor) :
    (fs.map ClientFunctor.connector).filterMap ClientFunctor.connector? = fs := by
  rw [List.filterMap_map]
  exact List.filterMap_some

/-- A step of the connector that hands nothing over, from `j`: the connector as it is, or as
    `restart` leaves it when there is no connection. -/
theorem Alive.moved (h : s.Alive) {j k : Connector} (hk : k.Inv)
    (hm : Connector.Moves j k s.connector_.pendingFunctors_ [])
    (hhanded : j.handed = s.connector_.handed) (hparts : j.parts = s.connector_.parts)
    (hstate : s.connection_ ≠ none → j.state_ = .kConnected)
    (hactive : ∀ r, .connector r ∈ s.active → k.state_ = .kConnecting) :
    (s.withConnector s.connector_.pendingFunctors_.length k).Alive := by
  obtain ⟨new, hdrop, hpending, hnew, -⟩ := drop_kept hm
  have heq : s.withConnector s.connector_.pendingFunctors_.length k =
      { s with
        connector_ := k
        pendingFunctors_ := s.pendingFunctors_ ++ new.map .connector } := by
    rw [withConnector, hdrop]
  rw [heq]
  refine ⟨?_, h.alive, hk, ?_, h.current, ?_, h.callback, ?_, ?_, ?_, ?_, ?_, h.failed, h.dangling⟩
  · refine h.conns.of_queue rfl (fun c => ?_) rfl rfl rfl fun _ => rfl
    rw [functorsOf_append, functorsOf_connector, List.append_nil]
  · rw [List.filterMap_append, filterMap_connector, ← h.queue]
    exact hpending
  · exact fun hne => hm.connected (hstate hne)
  · rw [hm.handed, List.append_nil, hhanded]
    exact h.handed
  · intro c hc
    rcases List.mem_append.mp hc with hc | hc
    · exact h.own c hc
    · simp at hc
  · exact fun hdoing => hm.parts (hparts.trans (h.parts hdoing))
  · exact fun r hr => ⟨hactive r hr, hm.parts (hparts.trans (h.reported r hr).2)⟩
  · intro c hc hreset
    rcases List.mem_append.mp hreset with hreset | hreset
    · exact (h.reset c hc hreset).append rfl rfl rfl rfl rfl
    · have hne : s.connection_ ≠ none := by rw [show s.connection_ = some c from hc]; simp
      exact absurd (by simpa using hreset) (hnew (hstate hne))

/-! ### Functors -/

/-- The functor at the head of the queue has been taken. -/
theorem ResetFirst.take (h : s.ResetFirst c) {cb : ClientFunctor} {rest : List ClientFunctor}
    (hfs : s.pendingFunctors_ = cb :: rest) (hcb : cb ≠ .connector .resetChannel)
    (hqueue : ∃ new, s'.pendingFunctors_ = rest ++ new) (hclosing : s'.closing = s.closing)
    (hactive : s'.active = s.active) (hdoing : s'.doing = s.doing) (hleft : s.left = s'.left + 1) :
    s'.ResetFirst c := by
  obtain ⟨hnone, hmem, l, r, heq, hforce, hbatch⟩ := h
  obtain ⟨new, hqueue⟩ := hqueue
  rw [hfs] at heq
  cases l with
  | nil =>
      rw [List.nil_append, List.cons.injEq] at heq
      exact absurd heq.1 hcb
  | cons cb' l =>
      rw [List.cons_append, List.cons.injEq] at heq
      refine ⟨hclosing.trans hnone, hactive ▸ hmem, l, r ++ new, ?_,
        fun hc => hforce (List.mem_cons_of_mem _ hc), fun hd => ?_⟩
      · rw [hqueue, heq.2, List.append_assoc, List.cons_append]
      · have hlt := hbatch (hdoing ▸ hd)
        rw [List.length_cons] at hlt
        omega

/-- A functor of a connection has been taken, but not the last. -/
theorem Alive.take (h : s.Alive) {cb : ClientFunctor} {rest : List ClientFunctor}
    (hfs : s.pendingFunctors_ = cb :: rest) (hconnector : cb.connector? = none)
    (hcb : ∀ c, cb ≠ .connectDestroyed c) (hdoing : s.doing = true) {left : Nat}
    (hleft : s.left = left + 1) : Alive { s with pendingFunctors_ := rest, left := left } where
  conns := h.conns.take hfs hcb hdoing left
  alive := h.alive
  connector := h.connector
  queue := by
    have hqueue := h.queue
    rw [hfs, List.filterMap_cons_none hconnector] at hqueue
    exact hqueue
  current := h.current
  connected := h.connected
  callback := h.callback
  handed := h.handed
  own := fun c hc => h.own c (by rw [hfs]; exact List.mem_cons_of_mem _ hc)
  parts := h.parts
  reported := h.reported
  reset := by
    intro c hc hreset
    have hne : cb ≠ .connector .resetChannel := by
      rintro rfl
      cases hconnector
    exact (h.reset c hc (by rw [hfs]; exact List.mem_cons_of_mem _ hreset)).take hfs hne
      ⟨[], (List.append_nil rest).symm⟩ rfl rfl rfl hleft
  failed := h.failed
  dangling := h.dangling

/-- The connector runs a functor. -/
theorem Alive.connectorFunctor (h : s.Alive) {f : ConnectorFunctor} {rest : List ClientFunctor}
    (hfs : s.pendingFunctors_ = .connector f :: rest) (hdoing : s.doing = true) {left : Nat}
    (hleft : s.left = left + 1) {savedErrno : ConnectErrno}
    (hready : f = .startInLoop → s.connector_.Ready savedErrno) :
    Alive (runFunctor { s with pendingFunctors_ := rest, left := left } savedErrno
      (.connector f)) := by
  have hqueue : s.connector_.pendingFunctors_ = f :: rest.filterMap ClientFunctor.connector? := by
    rw [h.queue, hfs]
    rfl
  have hparts := h.parts hdoing
  have hm := h.connector.functor_moves hqueue hparts hready
  have hinv : (s.connector_.step (.functor 0 savedErrno)).Inv := by
    refine Connector.step_inv h.connector fun _ hstart => hready ?_
    rw [hqueue] at hstart
    exact Option.some.inj hstart
  obtain ⟨new, hdrop, hpending, hnew, -⟩ := drop_kept hm
  have heq : runFunctor { s with pendingFunctors_ := rest, left := left } savedErrno
      (.connector f) = { s with
        connector_ := s.connector_.step (.functor 0 savedErrno)
        pendingFunctors_ := rest ++ new.map .connector
        left := left } := by
    have hlen : s.connector_.pendingFunctors_.length - 1 =
        (rest.filterMap ClientFunctor.connector?).length := by rw [hqueue]; rfl
    simp [runFunctor, h.alive, withConnector, hlen, hdrop]
  have hactive : s.active = [] := h.conns.handling hdoing
  rw [heq]
  refine ⟨?_, h.alive, hinv, ?_, h.current, ?_, h.callback, ?_, ?_, ?_, ?_, ?_, h.failed,
    h.dangling⟩
  · refine (h.conns.take hfs (by simp) hdoing left).of_queue rfl (fun c => ?_) rfl rfl rfl
      fun _ => rfl
    rw [functorsOf_append, functorsOf_connector, List.append_nil]
  · rw [List.filterMap_append, filterMap_connector]
    exact hpending
  · exact fun hne => hm.connected (h.connected hne)
  · have hhanded := hm.handed
    rw [List.append_nil] at hhanded
    exact hhanded.trans h.handed
  · intro c hc
    rcases List.mem_append.mp hc with hc | hc
    · exact h.own c (by rw [hfs]; exact List.mem_cons_of_mem _ hc)
    · simp at hc
  · exact fun _ => hm.parts hparts
  · intro r hr
    have hr : .connector r ∈ s.active := hr
    rw [hactive] at hr
    cases hr
  · intro c hc hreset
    have hstate := h.connected (by rw [show s.connection_ = some c from hc]; simp)
    have hrest : .connector .resetChannel ∈ rest := by
      rcases List.mem_append.mp hreset with hreset | hreset
      · exact hreset
      · exact absurd (by simpa using hreset) (hnew hstate)
    -- there is one `resetChannel` at most, and it is still to come
    have hf : f ≠ .resetChannel := by
      rintro rfl
      have honce := h.connector.reset_once
      have hmem : ConnectorFunctor.resetChannel ∈ rest.filterMap ClientFunctor.connector? :=
        List.mem_filterMap.mpr ⟨_, hrest, rfl⟩
      rw [hqueue, List.count_cons_self] at honce
      have hpos := List.count_pos_iff.mpr hmem
      omega
    exact (h.reset c hc (by rw [hfs]; exact List.mem_cons_of_mem _ hrest)).take hfs
      (by simpa using hf) ⟨_, rfl⟩ rfl rfl rfl hleft

/-- A connection that is up closes: the client still has it. -/
theorem Alive.handleClose (h : s.Alive) (hk : s.conns[c]? = some k) (hopen : k.isOpen = true)
    (hclosing : s.closing = none) (hactive : .connection c ∉ s.active)
    (hreset : .connector .resetChannel ∉ s.pendingFunctors_) : (s.handleClose c).Alive := by
  obtain ⟨hconns, heq⟩ := h.conns.handleClose hk hopen hclosing hactive
  have hcurrent : s.connection_ = some c := (h.current c).mpr (.inr ⟨k, hk, hopen⟩)
  obtain ⟨hcallback, hhanded⟩ := h.labels (labels_modify s.conns c
    (f := fun k => k.setState .kDisconnected) fun _ => rfl)
  rw [heq] at hconns ⊢
  refine ⟨hconns, h.alive, h.connector, h.queue, fun c' => ?_, h.connected, hcallback, hhanded,
    h.own, h.parts, h.reported, fun _ _ hmem => absurd hmem hreset, h.failed, h.dangling⟩
  show s.connection_ = some c' ↔ some c = some c' ∨
    ∃ k', (s.conns.modify c _)[c']? = some k' ∧ k'.isOpen = true
  rw [hcurrent]
  refine ⟨.inl, fun hor => ?_⟩
  rcases hor with hor | ⟨k', hk', hopen'⟩
  · exact hor
  · by_contra hne
    have hne : c ≠ c' := fun hcc => hne (by rw [hcc])
    rw [List.getElem?_modify_ne _ s.conns hne] at hk'
    have hother : s.connection_ = some c' := (h.current c').mpr (.inr ⟨k', hk', hopen'⟩)
    exact hne (Option.some.inj (hcurrent.symm.trans hother))

/-- `connectDestroyed` of a connection the client has given up. -/
theorem Alive.connectDestroyed (h : s.Alive) {rest : List ClientFunctor}
    (hfs : s.pendingFunctors_ = .connectDestroyed c :: rest) (hdoing : s.doing = true) {left : Nat}
    (hleft : s.left = left + 1) :
    Alive (TcpClient.connectDestroyed { s with pendingFunctors_ := rest, left := left } c) := by
  obtain ⟨hconns, hnot, heq⟩ := h.conns.connectDestroyed hfs hdoing left
  obtain ⟨hcallback, hhanded⟩ := h.labels (labels_modify s.conns c
    (f := fun k => { k with state_ := .kDisconnected, destroyed := k.destroyed + 1 }) fun _ => rfl)
  rw [heq] at hconns ⊢
  refine ⟨hconns, h.alive, h.connector, ?_, fun c' => ?_, h.connected, hcallback, hhanded, ?_,
    h.parts, h.reported, ?_, h.failed, h.dangling⟩
  · have hqueue := h.queue
    rw [hfs, List.filterMap_cons_none rfl] at hqueue
    exact hqueue
  · refine (h.current c').trans (or_congr_right ?_)
    show _ ↔ ∃ k', (s.conns.modify c _)[c']? = some k' ∧ k'.isOpen = true
    rcases eq_or_ne c c' with rfl | hne
    · refine ⟨fun hopen => absurd (.inr hopen) hnot, ?_⟩
      rintro ⟨k', hk', hopen⟩
      rw [List.getElem?_modify_eq] at hk'
      obtain ⟨k, -, rfl⟩ := Option.map_eq_some_iff.mp hk'
      simp [ClientConn.isOpen] at hopen
    · rw [List.getElem?_modify_ne _ s.conns hne]
  · exact fun c' hc => h.own c' (by rw [hfs]; exact List.mem_cons_of_mem _ hc)
  · intro c' hc hreset
    exact (h.reset c' hc (by rw [hfs]; exact List.mem_cons_of_mem _ hreset)).take hfs (by simp)
      ⟨[], (List.append_nil rest).symm⟩ rfl rfl rfl hleft

/-- `forceCloseInLoop`: if there is something to close, the last attempt's channel is gone. -/
theorem Alive.forceCloseInLoop (h : s.Alive) {rest : List ClientFunctor}
    (hfs : s.pendingFunctors_ = .forceCloseInLoop c :: rest) (hdoing : s.doing = true)
    (hclosing : s.closing = none) {left : Nat} (hleft : s.left = left + 1) :
    Alive (TcpClient.forceCloseInLoop { s with pendingFunctors_ := rest, left := left } c) := by
  have htaken := h.take hfs rfl (by simp) hdoing hleft
  unfold TcpClient.forceCloseInLoop
  split
  · exact htaken
  · rename_i k hk
    split
    · rename_i hopen
      have hcurrent : s.connection_ = some c := (h.current c).mpr (.inr ⟨k, hk, hopen⟩)
      refine htaken.handleClose hk hopen hclosing ?_ fun hreset => ?_
      · show .connection c ∉ s.active
        rw [h.conns.handling hdoing]
        simp
      · obtain ⟨-, -, l, r, heq, hforce, -⟩ := h.reset c hcurrent
          (by rw [hfs]; exact List.mem_cons_of_mem _ hreset)
        rw [hfs] at heq
        cases l with
        | nil => cases heq
        | cons cb l =>
            rw [List.cons_append, List.cons.injEq] at heq
            exact hforce (heq.1 ▸ List.mem_cons_self ..)
    · exact htaken

/-! ### The other steps of the loop -/

/-- The client has let go of the connection that closes, and queued its last functor. -/
theorem Alive.letGo (h : s.Alive) (hclosing : s.closing = some c) :
    Alive { s with
      closing := none
      connection_ := none
      pendingFunctors_ := s.pendingFunctors_ ++ [.connectDestroyed c] } := by
  have hcurrent : s.connection_ = some c := (h.current c).mpr (.inl hclosing)
  have hconns := h.conns.finish (c := c) hclosing rfl
  refine ⟨?_, h.alive, h.connector, ?_, ?_, by simp, h.callback, h.handed, ?_, h.parts, h.reported,
    by simp, h.failed, h.dangling⟩
  · exact hconns.of_queue rfl (fun _ => rfl) rfl rfl rfl fun _ => rfl
  · rw [List.filterMap_append, h.queue]
    exact (List.append_nil _).symm
  · intro c'
    show none = some c' ↔ _
    refine ⟨fun hnone => (by cases hnone), ?_⟩
    rintro (hnone | ⟨k, hk, hopen⟩)
    · cases hnone
    · have hother : s.connection_ = some c' := (h.current c').mpr (.inr ⟨k, hk, hopen⟩)
      cases hcurrent.symm.trans hother
      exact absurd hclosing ((h.conns.phase hk).of_open hopen).1
  · intro c' hc'
    rcases List.mem_append.mp hc' with hc' | hc'
    · exact h.own c' hc'
    · simp at hc'

/-- The end of `handleClose`: `removeConnection`, and the connector is sent off again. -/
theorem Alive.closeCallback (h : s.Alive) (hclosing : s.closing = some c)
    (savedErrno : ConnectErrno) :
    (TcpClient.closeCallback { s with closing := none } c savedErrno).Alive := by
  have hcurrent : s.connection_ = some c := (h.current c).mpr (.inl hclosing)
  have hlt : c < s.conns.length := by
    by_contra hge
    exact (h.conns.fresh c (by omega)).2 hclosing
  have hk : s.conns[c]? = some s.conns[c] := List.getElem?_eq_getElem hlt
  have hgone := h.letGo hclosing
  have heq : TcpClient.closeCallback { s with closing := none } c savedErrno =
      let t : TcpClient := { s with
        closing := none
        connection_ := none
        pendingFunctors_ := s.pendingFunctors_ ++ [.connectDestroyed c] }
      if s.retry_ && s.connect_ then
        t.withConnector s.connector_.pendingFunctors_.length (s.connector_.restart savedErrno)
      else t := by
    have hcallback := h.callback s.conns[c] (List.getElem_mem hlt)
    simp [TcpClient.closeCallback, hk, hcallback, h.alive, removeConnection, check, hcurrent,
      queueInLoop]
  rw [heq]
  dsimp only
  split
  · have hstate := h.connected (by rw [hcurrent]; simp)
    have hreset : .resetChannel ∉ s.connector_.pendingFunctors_ := by
      intro hmem
      rw [h.queue, List.mem_filterMap] at hmem
      obtain ⟨cb, hcb, hf⟩ := hmem
      have hcb' : cb = .connector .resetChannel := by
        cases cb <;> simp_all [ClientFunctor.connector?]
      have hfirst := (h.reset c hcurrent (hcb' ▸ hcb)).1
      cases hclosing.symm.trans hfirst
    have hchannel := h.connector.channel_none (by simp [hstate]) hreset
    refine hgone.moved (j := { s.connector_ with state_ := .kDisconnected, connect_ := true })
      (Connector.restart_inv h.connector hchannel savedErrno)
      (Connector.startInLoop_moves ⟨rfl, fun _ _ => hchannel⟩) rfl rfl (fun hne => absurd rfl hne)
      fun r hr => ?_
    cases hstate.symm.trans (h.reported r hr).1
  · exact hgone

/-- The connector's channel is handled. -/
theorem Alive.connectorPoll (h : s.Alive) {revents_ : Revents} {rest : List ClientChannel}
    (hactive : s.active = .connector revents_ :: rest) :
    (TcpClient.connectorStep { s with active := rest } (.poll revents_)).Alive := by
  have hdoing : s.doing = false := by
    cases hd : s.doing with
    | false => rfl
    | true => cases (h.conns.handling hd).symm.trans hactive
  have hinv : (s.connector_.step (.poll revents_)).Inv := Connector.step_inv h.connector trivial
  obtain ⟨hpending, hhanded, hstate⟩ :
      (s.connector_.step (.poll revents_)).pendingFunctors_ = s.connector_.pendingFunctors_ ∧
        (s.connector_.step (.poll revents_)).handed = s.connector_.handed ∧
        (s.connector_.step (.poll revents_)).state_ = s.connector_.state_ := by
    simp only [Connector.step, h.connector.crashed, Bool.false_eq_true, if_false]
    split <;> exact ⟨rfl, rfl, rfl⟩
  have heq : TcpClient.connectorStep { s with active := rest } (.poll revents_) =
      { s with active := rest, connector_ := s.connector_.step (.poll revents_) } := by
    simp [connectorStep, withConnector, hpending]
  have hnodup := h.conns.nodup
  rw [hactive, List.map_cons, List.nodup_cons] at hnodup
  rw [heq]
  refine ⟨(h.conns.pop hactive).of_queue rfl (fun _ => rfl) rfl rfl rfl fun _ => rfl, h.alive, hinv,
    hpending.trans h.queue, h.current, fun hne => hstate.trans (h.connected hne), h.callback,
    hhanded.trans h.handed, h.own, fun hd => ?_, fun r hr => ?_, fun c hc hreset => ?_, h.failed,
    h.dangling⟩
  · cases hdoing.symm.trans hd
  · exact absurd (List.mem_map.mpr ⟨_, hr, rfl⟩) hnodup.1
  · obtain ⟨hclosing, hmem, hqueue⟩ := h.reset c hc hreset
    exact ⟨hclosing, fun hc' => hmem (by rw [hactive]; exact List.mem_cons_of_mem _ hc'), hqueue⟩

/-- A connection's channel is handled. -/
theorem Alive.connectionEvent (h : s.Alive) {rest : List ClientChannel}
    (hactive : s.active = .connection c :: rest) (hclosing : s.closing = none) (closes : Bool) :
    Alive (if closes then TcpClient.handleClose { s with active := rest } c
      else { s with active := rest }) := by
  have hconns := h.conns.pop hactive
  have hpop : Alive { s with active := rest } := by
    refine ⟨hconns, h.alive, h.connector, h.queue, h.current, h.connected, h.callback, h.handed,
      h.own, h.parts, fun r hr => ?_, fun c' hc' hreset => ?_, h.failed, h.dangling⟩
    · exact h.reported r (by rw [hactive]; exact List.mem_cons_of_mem _ hr)
    · obtain ⟨hnone, hmem, hqueue⟩ := h.reset c' hc' hreset
      exact ⟨hnone, fun hc => hmem (by rw [hactive]; exact List.mem_cons_of_mem _ hc), hqueue⟩
  split
  · obtain ⟨k, hk, hopen⟩ := h.conns.active c (by rw [hactive]; exact List.mem_cons_self ..)
    have hcurrent : s.connection_ = some c := (h.current c).mpr (.inr ⟨k, hk, hopen⟩)
    have hnodup := h.conns.nodup
    rw [hactive, List.map_cons, List.nodup_cons] at hnodup
    refine hpop.handleClose hk hopen hclosing (fun hc => ?_) fun hreset => ?_
    · exact hnodup.1 (List.mem_map.mpr ⟨_, hc, rfl⟩)
    · exact (h.reset c hcurrent hreset).2.1 (by rw [hactive]; exact List.mem_cons_self ..)
  · exact hpop

/-- A socket has been handed over: its `resetChannel` is at the end of the queue, where nothing
    could close the connection before. -/
theorem Alive.handOver (h : s.Alive) (hclosing : s.closing = none) (hdoing : s.doing = false)
    (hactive : ∀ r, .connector r ∉ s.active) {k : Connector} {sockfd : Nat} (hk : k.Inv)
    (hpending : k.pendingFunctors_ = s.connector_.pendingFunctors_ ++ [.resetChannel])
    (hhanded : k.handed = s.connector_.handed ++ [sockfd]) (hnone : s.connection_ = none)
    (hstate : k.state_ = .kConnected) :
    (TcpClient.newConnection { s with
      connector_ := k
      pendingFunctors_ := s.pendingFunctors_ ++ [.connector .resetChannel] } sockfd).Alive := by
  have hqueued : Conns { s with
      connector_ := k
      pendingFunctors_ := s.pendingFunctors_ ++ [.connector .resetChannel] } := by
    refine h.conns.of_queue rfl (fun c => ?_) rfl rfl rfl fun _ => rfl
    exact (functorsOf_append ..).trans (List.append_nil _)
  refine ⟨hqueued.newConnection sockfd, h.alive, hk, ?_, fun c => ?_, fun _ => hstate,
    fun k' hk' => ?_, ?_, fun c hc => ?_, fun hd => ?_, fun r hr => absurd hr (hactive r),
    fun c hc _ => ?_, h.failed, h.dangling⟩
  · show _ = (s.pendingFunctors_ ++ [ClientFunctor.connector .resetChannel]).filterMap
      ClientFunctor.connector?
    rw [List.filterMap_append, ← h.queue]
    exact hpending
  · show some s.conns.length = some c ↔ s.closing = some c ∨
      ∃ k', (s.conns ++ [⟨sockfd, .kConnected, .client, 0⟩])[c]? = some k' ∧ k'.isOpen = true
    have hold : ¬s.Current c := fun hc => by
      cases hnone.symm.trans ((h.current c).mpr hc)
    constructor
    · rintro ⟨⟩
      exact .inr ⟨_, List.getElem?_concat_length .., rfl⟩
    · rintro (hc | ⟨k', hk', hopen⟩)
      · cases hclosing.symm.trans hc
      · rcases Nat.lt_or_ge c s.conns.length with hlt | hge
        · rw [List.getElem?_append_left hlt] at hk'
          exact absurd (.inr ⟨k', hk', hopen⟩) hold
        · have hlt := (List.getElem?_eq_some_iff.mp hk').1
          rw [List.length_append, List.length_singleton] at hlt
          rw [show s.conns.length = c by omega]
  · rcases List.mem_append.mp hk' with hk' | hk'
    · exact h.callback k' hk'
    · rw [List.mem_singleton.mp hk']
  · show k.handed = (s.conns ++ [_]).map ClientConn.sockfd
    rw [hhanded, h.handed, List.map_append]
    rfl
  · rcases List.mem_append.mp hc with hc | hc
    · exact h.own c hc
    · simp at hc
  · cases hdoing.symm.trans hd
  · cases hc
    refine ⟨hclosing, fun hc => ?_, s.pendingFunctors_, [], rfl, fun hc => ?_, fun hd => ?_⟩
    · obtain ⟨k', hk', -⟩ := h.conns.active _ hc
      exact absurd (List.getElem?_eq_some_iff.mp hk').1 (lt_irrefl _)
    · have hmine : .forceCloseInLoop s.conns.length ∈
          functorsOf s.pendingFunctors_ s.conns.length := by
        rw [functorsOf, List.mem_filter]
        exact ⟨hc, by simp [ClientFunctor.conn?]⟩
      rw [(h.conns.fresh _ le_rfl).1] at hmine
      cases hmine
    · cases hdoing.symm.trans hd

/-- The handler of the connector goes on; the socket it may hand over becomes the connection. -/
theorem Alive.connectorPart (h : s.Alive) (hclosing : s.closing = none)
    (hparts : s.connector_.parts ≠ []) (answers : ClientAnswers) :
    (s.connectorPart answers).Alive := by
  obtain ⟨hands, hm⟩ := h.connector.part_moves answers.err answers.isSelfConnect
  have hinv : (s.connector_.step (.part answers.err answers.isSelfConnect)).Inv :=
    Connector.step_inv h.connector trivial
  have hactive : ∀ r, .connector r ∉ s.active := fun r hr => hparts (h.reported r hr).2
  have heq : s.connectorPart answers =
      hands.foldl TcpClient.newConnection
        (s.connectorStep (.part answers.err answers.isSelfConnect)) := by
    simp [TcpClient.connectorPart, h.alive, connectorStep, withConnector, hm.handed]
  rw [heq]
  rcases hm.hands with rfl | ⟨⟨sockfd, rfl⟩, hconnecting, hconnected⟩
  · exact h.moved hinv hm rfl rfl h.connected fun r hr => absurd hr (hactive r)
  · obtain ⟨new, hdrop, hpending, -, hnew⟩ := drop_kept hm
    cases hnew (by simp)
    have hdoing : s.doing = false := by
      cases hd : s.doing with
      | false => rfl
      | true => exact absurd (h.parts hd) hparts
    have hnone : s.connection_ = none := by
      by_contra hne
      cases hconnecting.symm.trans (h.connected hne)
    have hover := h.handOver hclosing hdoing hactive hinv hpending hm.handed hnone hconnected
    rw [List.foldl_cons, List.foldl_nil, connectorStep, withConnector, hdrop]
    exact hover

/-- `poll`, after a batch that has been run to its end. -/
theorem Alive.poll (h : s.Alive) (hpolls : s.Polls) {ready : List ClientChannel}
    (hnodup : (ready.map ClientChannel.owner).Nodup) (hready : ∀ x ∈ ready, s.Registered x) :
    Alive { s with doing := false, left := 0, active := ready } := by
  obtain ⟨hclosing, hparts, hactive, hdoing, hleft⟩ := hpolls
  refine ⟨h.conns.poll hnodup hready, h.alive, h.connector, h.queue, h.current, h.connected,
    h.callback, h.handed, h.own, by simp, fun r hr => ⟨?_, hparts⟩, fun c hc hreset => ?_, h.failed,
    h.dangling⟩
  · have hadded : s.connector_.channel_.any (fun c => c.2.index_ = .kAdded) = true := hready _ hr
    cases h.connector.phase with
    | idle hchannel => simp [hchannel] at hadded
    | connecting _ _ hstate => exact hstate
    | removed sockfd hchannel => simp [hchannel, PollChannel.new] at hadded
  · -- a `resetChannel` that is in front of the connection would have been in the batch
    obtain ⟨-, -, l, r, heq, -, hbatch⟩ := h.reset c hc hreset
    have hlt := hbatch hdoing
    rcases hleft with hleft | hleft
    · omega
    · simp [hleft] at heq

/-- The loop takes all functors that are queued for its next batch. -/
theorem Alive.swap (h : s.Alive) (hactive : s.active = []) (hparts : s.connector_.parts = []) :
    Alive { s with doing := true, left := s.pendingFunctors_.length } := by
  refine ⟨⟨h.conns.phase, h.conns.fresh, h.conns.active, h.conns.nodup, fun _ => hactive, by simp⟩,
    h.alive, h.connector, h.queue, h.current, h.connected, h.callback, h.handed, h.own,
    fun _ => hparts, h.reported, fun c hc hreset => ?_, h.failed, h.dangling⟩
  obtain ⟨hclosing, hmem, l, r, heq, hforce, -⟩ := h.reset c hc hreset
  refine ⟨hclosing, hmem, l, r, heq, hforce, fun _ => ?_⟩
  show l.length < s.pendingFunctors_.length
  rw [heq, List.length_append, List.length_cons]
  omega

/-! ## Runs -/

/-- A functor that is next is the head of the batch. -/
theorem nextFunctor_eq {cb : ClientFunctor} {rest : List ClientFunctor}
    (hclosing : s.closing = none) (hparts : s.connector_.parts = []) (hactive : s.active = [])
    (hdoing : s.doing = true)
    {left : Nat} (hleft : s.left = left + 1) (hfs : s.pendingFunctors_ = cb :: rest) :
    s.nextFunctor = some cb := by
  simp [nextFunctor, hclosing, hparts, hactive, hdoing, hleft, hfs]

/-- At the end of a batch the loop polls. -/
theorem polls_of_end (hclosing : s.closing = none) (hparts : s.connector_.parts = [])
    (hactive : s.active = []) (hdoing : s.doing = true)
    (hend : ∀ left cb rest, s.left = left + 1 → s.pendingFunctors_ = cb :: rest → False) :
    s.Polls := by
  refine ⟨hclosing, hparts, hactive, hdoing, ?_⟩
  cases hl : s.left with
  | zero => exact .inl rfl
  | succ left =>
      cases hq : s.pendingFunctors_ with
      | nil => exact .inr rfl
      | cons cb rest => exact absurd hq (hend left cb rest hl)

/-- The loop runs a functor of its batch. -/
theorem Alive.runFunctor (h : s.Alive) (hclosing : s.closing = none) (hdoing : s.doing = true)
    {left : Nat} (hleft : s.left = left + 1) {cb : ClientFunctor} {rest : List ClientFunctor}
    (hfs : s.pendingFunctors_ = cb :: rest) {savedErrno : ConnectErrno}
    (hready : cb = .connector .startInLoop → s.connector_.Ready savedErrno) :
    Alive
      (TcpClient.runFunctor { s with pendingFunctors_ := rest, left := left } savedErrno cb) := by
  cases cb with
  | connector f => exact h.connectorFunctor hfs hdoing hleft fun hf => hready (hf ▸ rfl)
  | setCloseCallback c => exact absurd (by rw [hfs]; exact List.mem_cons_self ..) (h.own c)
  | shutdownInLoop c =>
      obtain ⟨k, hk, hzero⟩ := h.conns.exists_conn hfs (c := c) rfl
      have htaken := h.take hfs rfl (by simp) hdoing hleft
      simp only [TcpClient.runFunctor, hk, hzero]
      exact htaken
  | forceCloseInLoop c => exact h.forceCloseInLoop hfs hdoing hclosing hleft
  | connectDestroyed c => exact h.connectDestroyed hfs hdoing hleft

theorem Alive.loop (h : s.Alive) {answers : ClientAnswers} (hpossible : s.Possible (.loop answers))
    (hok : s.StartOk (.loop answers)) : (s.loop answers).Alive := by
  unfold TcpClient.loop
  split
  · rename_i c hclosing
    exact h.closeCallback hclosing answers.savedErrno
  · rename_i hclosing
    split
    · rename_i hparts
      exact h.connectorPart hclosing hparts answers
    · rename_i hparts
      have hparts := not_not.mp hparts
      split
      · rename_i channel rest hactive
        cases channel with
        | connector revents_ =>
            have heq : handleEvent { s with active := rest } answers (.connector revents_) =
                connectorStep { s with active := rest } (.poll revents_) := if_pos h.alive
            rw [heq]
            exact h.connectorPoll hactive
        | connection c => exact h.connectionEvent hactive hclosing answers.closes
      · rename_i hactive
        split
        · rename_i hdoing
          split
          · rename_i left cb rest hleft hfs
            refine h.runFunctor hclosing hdoing hleft hfs fun hcb => hok ?_
            rw [nextFunctor_eq hclosing hparts hactive hdoing hleft hfs, hcb]
          · rename_i hend
            have hpolls := polls_of_end hclosing hparts hactive hdoing hend
            obtain ⟨hnodup, hready⟩ := hpossible hpolls
            exact h.poll hpolls hnodup hready
        · exact h.swap hactive hparts

/-- The flags are only read when a connection is given up. -/
theorem Alive.of_flags (h : s.Alive) (retry_ connect_ : Bool) :
    Alive { s with retry_ := retry_, connect_ := connect_ } :=
  ⟨⟨h.conns.phase, h.conns.fresh, h.conns.active, h.conns.nodup, h.conns.handling,
      h.conns.waiting⟩, h.alive, h.connector, h.queue, h.current, h.connected, h.callback, h.handed,
    h.own, h.parts, h.reported, h.reset, h.failed, h.dangling⟩

/-- A call of the user to the connector. -/
theorem Alive.connectorCall (h : s.Alive) {e : ConnectorEvent} (hok : s.connector_.StartOk e)
    (he : (∃ inLoop savedErrno, e = .start inLoop savedErrno) ∨ e = .stop) :
    (s.connectorStep e).Alive := by
  obtain ⟨hm, hconnecting⟩ := h.connector.call_moves hok he
  exact h.moved (Connector.step_inv h.connector hok) hm rfl rfl h.connected fun r hr =>
    hconnecting (h.reported r hr).1

/-- The step is the destructor. -/
def Destroys : ClientEvent → Prop
  | .destroy _ _ => True
  | _ => False

theorem Alive.step (h : s.Alive) {e : ClientEvent} (hpossible : s.Possible e) (hok : s.StartOk e)
    (he : ¬Destroys e) : (s.step e).Alive := by
  cases e with
  | connect inLoop savedErrno =>
      exact (h.of_flags s.retry_ true).connectorCall hok (.inl ⟨_, _, rfl⟩)
  | disconnect inLoop =>
      have hflags := h.of_flags s.retry_ false
      simp only [TcpClient.step, TcpClient.disconnect]
      split
      · exact hflags
      · rename_i c _
        obtain ⟨hconns, hn⟩ := hflags.conns.shutdown inLoop c
        exact hflags.nudge hconns hn
  | stop => exact (h.of_flags s.retry_ false).connectorCall trivial (.inr rfl)
  | enableRetry => exact h.of_flags true s.connect_
  | shutdown inLoop c =>
      obtain ⟨hconns, hn⟩ := h.conns.shutdown inLoop c
      exact h.nudge hconns hn
  | forceClose c =>
      obtain ⟨hconns, hn⟩ := h.conns.forceClose c
      exact h.nudge hconns hn
  | destroy inLoop unique => exact absurd trivial he
  | loop answers => exact h.loop hpossible hok

instance : (e : ClientEvent) → Decidable (Destroys e)
  | .destroy .. => inferInstanceAs (Decidable True)
  | .connect .. => inferInstanceAs (Decidable False)
  | .disconnect .. => inferInstanceAs (Decidable False)
  | .stop => inferInstanceAs (Decidable False)
  | .enableRetry => inferInstanceAs (Decidable False)
  | .shutdown .. => inferInstanceAs (Decidable False)
  | .forceClose .. => inferInstanceAs (Decidable False)
  | .loop .. => inferInstanceAs (Decidable False)

/-- What is asked of the steps of a run before the destructor. -/
def Sound (s : TcpClient) (e : ClientEvent) : Prop := s.Possible e ∧ s.StartOk e ∧ ¬Destroys e

instance (s : TcpClient) (e : ClientEvent) : Decidable (s.Sound e) :=
  inferInstanceAs (Decidable (_ ∧ _))

theorem exec_alive {es : List ClientEvent} (hes : Run.AllSteps step Sound new es) :
    (Run.exec step new es).Alive :=
  Run.exec_invariant (I := Alive) (fun _ _ h hs => h.step hs.1 hs.2.1 hs.2.2) new_alive hes

/-- The last functor of a connection that is not up is queued or has run. -/
theorem ConnPhase.once {closing : Prop} {fs : List ClientFunctor}
    (h : ConnPhase k closing (functorsOf fs c) c) (hnot : ¬(closing ∨ k.isOpen = true)) :
    k.state_ = .kDisconnected ∧ k.destroyed + fs.count (.connectDestroyed c) = 1 := by
  have hcount : fs.count (.connectDestroyed c) =
      (functorsOf fs c).count (.connectDestroyed c) := by
    rw [functorsOf, List.count_filter]
    simp [ClientFunctor.conn?]
  rw [hcount]
  cases h with
  | up hopen => exact absurd (.inr hopen) hnot
  | closing _ hclosing => exact absurd (.inl hclosing) hnot
  | leaving hstate _ hdestroyed hlast =>
      obtain ⟨l, heq, hnone⟩ := hlast
      refine ⟨hstate, ?_⟩
      rw [heq, hdestroyed, List.count_append, List.count_eq_zero_of_not_mem hnone]
      simp
  | gone hstate _ hdestroyed hnone => exact ⟨hstate, by rw [hdestroyed, hnone]; rfl⟩

/-- Nothing of a connection is queued behind its last functor. -/
theorem ConnPhase.last {closing : Prop} {fs : List ClientFunctor}
    (h : ConnPhase k closing (functorsOf fs c) c) (hdestroyed : k.destroyed ≠ 0) :
    ∀ cb ∈ fs, cb.conn? ≠ some c := by
  cases h with
  | up _ _ hzero | closing _ _ hzero | leaving _ _ hzero => exact absurd hzero hdestroyed
  | gone _ _ _ hnone =>
      intro cb hcb heq
      have hmem : cb ∈ functorsOf fs c := List.mem_filter.mpr ⟨hcb, by simp [heq]⟩
      rw [hnone] at hmem
      cases hmem

/-- A connection that is up, or in `handleClose`, has its last functor to come. -/
theorem ConnPhase.none_yet {closing : Prop} {fs : List ClientFunctor}
    (h : ConnPhase k closing (functorsOf fs c) c) (hyes : closing ∨ k.isOpen = true) :
    k.destroyed = 0 ∧ .connectDestroyed c ∉ fs := by
  have hmem : .connectDestroyed c ∉ functorsOf fs c → .connectDestroyed c ∉ fs := fun hnot hc =>
    hnot (List.mem_filter.mpr ⟨hc, by simp [ClientFunctor.conn?]⟩)
  cases h with
  | up _ _ hdestroyed hnone | closing _ _ hdestroyed hnone => exact ⟨hdestroyed, hmem hnone⟩
  | leaving hstate hclosing | gone hstate hclosing =>
      rcases hyes with hyes | hyes
      · exact absurd hyes hclosing
      · simp [ClientConn.isOpen, hstate] at hyes

end TcpClient

/-- A client in use.  In every run of the user's calls and the steps of the loop in which the
    `startInLoop`s brought about by `connect` find the connector ready: no assertion fails, neither
    in the client nor in the connector, so each `restart` finds the channel of the last attempt
    destroyed; the connections are the sockets that were handed over; the one that is up or closing
    is `connection_`; every other one is in `kDisconnected`, its `connectDestroyed` is queued or has
    run, once, and once it has run nothing of the connection is queued any more. -/
theorem client_connections (es : List ClientEvent)
    (hes : Run.AllSteps TcpClient.step TcpClient.Sound .new es) :
    let s := Run.exec TcpClient.step .new es
    s.failed = [] ∧ s.connector_.failed = [] ∧ s.connector_.channels ≤ 1 ∧
      (∀ x ∈ s.connector_.destroyed, x.2 = false) ∧ s.dangling = [] ∧
      s.connector_.handed = s.conns.map ClientConn.sockfd ∧
      (∀ c, s.connection_ = some c → c < s.conns.length) ∧
      ∀ c k, s.conns[c]? = some k →
        (s.connection_ = some c ∧ (s.closing = some c ∨ k.isOpen = true) ∧ k.destroyed = 0 ∧
            .connectDestroyed c ∉ s.pendingFunctors_) ∨
          s.connection_ ≠ some c ∧ k.state_ = .kDisconnected ∧
            k.destroyed + s.pendingFunctors_.count (.connectDestroyed c) = 1 ∧
            (k.destroyed = 1 → ∀ cb ∈ s.pendingFunctors_, cb.conn? ≠ some c) := by
  intro s
  have h : s.Alive := TcpClient.exec_alive hes
  refine ⟨h.failed, h.connector.failed, h.connector.channels, h.connector.destroyed, h.dangling,
    h.handed, fun c hc => ?_, fun c k hk => ?_⟩
  · by_contra hge
    rcases (h.current c).mp hc with hclosing | ⟨k, hk, -⟩
    · exact (h.conns.fresh c (by omega)).2 hclosing
    · exact hge (List.getElem?_eq_some_iff.mp hk).1
  · have hcurrent : s.connection_ = some c ↔ s.closing = some c ∨ k.isOpen = true := by
      rw [h.current, TcpClient.Current, hk]
      simp
    by_cases hc : s.connection_ = some c
    · have hyes := hcurrent.mp hc
      exact .inl ⟨hc, hyes, (h.conns.phase hk).none_yet hyes⟩
    · obtain ⟨hstate, honce⟩ := (h.conns.phase hk).once fun hyes => hc (hcurrent.mpr hyes)
      exact .inr ⟨hc, hstate, honce, fun hone => (h.conns.phase hk).last (by omega)⟩

namespace TcpClient

/-- What the loop learns while nothing special happens. -/
def quiet : ClientAnswers := ⟨[], .EINPROGRESS, 0, false, false⟩

/-- A client connects, and the peer closes the connection. -/
def closedByPeer : List ClientEvent :=
  [.connect false .success, .loop quiet, .loop quiet, .loop quiet,
   .loop { quiet with ready := [.connector writable] }, .loop quiet, .loop quiet, .loop quiet,
   .loop quiet, .loop { quiet with ready := [.connection 0] }, .loop { quiet with closes := true },
   .loop quiet, .loop quiet, .loop quiet]

/-- With `retry_`, the next attempt is on its way then, and succeeds. -/
theorem client_connections_reconnecting :
    let es := .enableRetry :: closedByPeer ++
      [.loop { quiet with ready := [.connector writable] }, .loop quiet, .loop quiet]
    let s := Run.exec step new es
    s.conns.length = 2 ∧ s.connection_ = some 1 ∧ s.failed = [] ∧ s.connector_.failed = [] := by
  intro es s
  obtain ⟨hfailed, hconnector, -⟩ := client_connections es (by decide +kernel)
  exact ⟨by decide +kernel, by decide +kernel, hfailed, hconnector⟩

/-! ## Without `retry_` -/

variable {s s' : TcpClient}

/-- The client does not retry, and its connector stays where the first connection left it. -/
structure Once (s : TcpClient) : Prop where
  retry : s.retry_ = false
  conns : s.conns.length ≤ 1
  state : s.conns ≠ [] → s.connector_.state_ = .kConnected

theorem Once.of_eq (h : s.Once) (hretry : s'.retry_ = s.retry_)
    (hstate : s.connector_.state_ = .kConnected → s'.connector_.state_ = .kConnected)
    (hlen : s'.conns.length = s.conns.length) : s'.Once where
  retry := hretry.trans h.retry
  conns := hlen ▸ h.conns
  state := by
    intro hne
    refine hstate (h.state fun hnil => hne ?_)
    rw [hnil] at hlen
    exact List.length_eq_zero_iff.mp hlen

theorem Once.nudge (h : s.Once) (hn : Nudge s s') : s'.Once := by
  have heq := hn.eq
  have hlen := congrArg List.length hn.conns
  rw [List.length_map, List.length_map] at hlen
  exact h.of_eq (by rw [heq]) (by rw [heq]; exact id) hlen

theorem Once.closeCallback (h : s.Once) (c : Nat) (savedErrno : ConnectErrno) :
    (s.closeCallback c savedErrno).Once := by
  unfold TcpClient.closeCallback
  split
  · exact h
  · split
    · exact h.of_eq rfl id rfl
    · split
      · simp only [removeConnection, queueInLoop, check, h.retry, Bool.false_and,
          Bool.false_eq_true, if_false]
        exact h.of_eq h.retry.symm id rfl
      · exact h.of_eq rfl id rfl

theorem Once.handleClose (h : s.Once) (c : Nat) : (s.handleClose c).Once := by
  unfold TcpClient.handleClose
  split
  · exact h
  · exact h.of_eq rfl id (List.length_modify _ _ _)

theorem Once.connectorPart (h : s.Once) (ha : s.Alive) (answers : ClientAnswers) :
    (s.connectorPart answers).Once := by
  obtain ⟨hands, hm⟩ := ha.connector.part_moves answers.err answers.isSelfConnect
  have heq : s.connectorPart answers =
      hands.foldl TcpClient.newConnection
        (s.connectorStep (.part answers.err answers.isSelfConnect)) := by
    simp [TcpClient.connectorPart, ha.alive, connectorStep, withConnector, hm.handed]
  rw [heq]
  rcases hm.hands with rfl | ⟨⟨sockfd, rfl⟩, hconnecting, hconnected⟩
  · exact h.of_eq rfl hm.connected rfl
  · have hnil : s.conns = [] := by
      by_contra hne
      cases hconnecting.symm.trans (h.state hne)
    exact ⟨h.retry, by simp [TcpClient.newConnection, connectorStep, withConnector, hnil],
      fun _ => hconnected⟩

theorem Once.runFunctor (h : s.Once) (ha : s.Alive) (hdoing : s.doing = true) {left : Nat}
    {cb : ClientFunctor} {rest : List ClientFunctor} (hfs : s.pendingFunctors_ = cb :: rest)
    {savedErrno : ConnectErrno}
    (hready : cb = .connector .startInLoop → s.connector_.Ready savedErrno) :
    Once
      (TcpClient.runFunctor { s with pendingFunctors_ := rest, left := left } savedErrno cb) := by
  have htaken : Once { s with pendingFunctors_ := rest, left := left } := h.of_eq rfl id rfl
  cases cb with
  | connector f =>
      have hqueue : s.connector_.pendingFunctors_ =
          f :: rest.filterMap ClientFunctor.connector? := by
        rw [ha.queue, hfs]
        rfl
      have hm := ha.connector.functor_moves hqueue (ha.parts hdoing) fun hf => hready (hf ▸ rfl)
      simp only [TcpClient.runFunctor, ha.alive, if_true]
      exact htaken.of_eq rfl hm.connected rfl
  | setCloseCallback c => exact htaken.of_eq rfl id (List.length_modify _ _ _)
  | shutdownInLoop c =>
      simp only [TcpClient.runFunctor]
      split
      · exact htaken
      · split
        · exact htaken
        · exact htaken.of_eq rfl id rfl
  | forceCloseInLoop c =>
      simp only [TcpClient.runFunctor, forceCloseInLoop]
      split
      · exact htaken
      · split
        · exact htaken.handleClose c
        · exact htaken
  | connectDestroyed c =>
      simp only [TcpClient.runFunctor, TcpClient.connectDestroyed]
      split
      · exact htaken
      · exact htaken.of_eq rfl id (List.length_modify _ _ _)

theorem Once.loop (h : s.Once) (ha : s.Alive) {answers : ClientAnswers}
    (hok : s.StartOk (.loop answers)) : (s.loop answers).Once := by
  unfold TcpClient.loop
  split
  · have hclosed : Once { s with closing := none } := h.of_eq rfl id rfl
    exact hclosed.closeCallback _ _
  · rename_i hclosing
    split
    · exact h.connectorPart ha answers
    · rename_i hparts
      have hparts := not_not.mp hparts
      split
      · rename_i channel rest hactive
        have hpop : Once { s with active := rest } := h.of_eq rfl id rfl
        cases channel with
        | connector revents_ =>
            have hstate : (s.connector_.step (.poll revents_)).state_ = s.connector_.state_ := by
              simp only [Connector.step, ha.connector.crashed, Bool.false_eq_true, if_false]
              split <;> rfl
            simp only [handleEvent]
            split
            · exact hpop.of_eq rfl hstate.trans rfl
            · exact hpop.of_eq rfl id rfl
        | connection c =>
            simp only [handleEvent]
            split
            · exact hpop.handleClose c
            · exact hpop
      · rename_i hactive
        split
        · rename_i hdoing
          split
          · rename_i left cb rest hleft hfs
            refine h.runFunctor ha hdoing hfs fun hcb => hok ?_
            rw [nextFunctor_eq hclosing hparts hactive hdoing hleft hfs, hcb]
          · exact h.of_eq rfl id rfl
        · exact h.of_eq rfl id rfl

theorem Once.step (h : s.Once) (ha : s.Alive) {e : ClientEvent} (hs : s.Sound e)
    (he : e ≠ .enableRetry) : (s.step e).Once := by
  obtain ⟨-, hok, hlives⟩ := hs
  cases e with
  | connect inLoop savedErrno =>
      have hm := ha.connector.call_moves (e := .start inLoop savedErrno) hok (.inl ⟨_, _, rfl⟩)
      exact h.of_eq rfl hm.1.connected rfl
  | disconnect inLoop =>
      have hflags : Once { s with connect_ := false } := h.of_eq rfl id rfl
      simp only [TcpClient.step, TcpClient.disconnect]
      split
      · exact hflags
      · exact hflags.nudge ((ha.of_flags s.retry_ false).conns.shutdown inLoop _).2
  | stop =>
      have hm := ha.connector.call_moves (e := .stop) trivial (.inr rfl)
      exact h.of_eq rfl hm.1.connected rfl
  | enableRetry => exact absurd rfl he
  | shutdown inLoop c => exact h.nudge (ha.conns.shutdown inLoop c).2
  | forceClose c => exact h.nudge (ha.conns.forceClose c).2
  | destroy inLoop unique => exact absurd trivial hlives
  | loop answers => exact h.loop ha hok

end TcpClient

/-- A client that does not retry connects once.  However often `connect` is called, from whatever
    thread: it has had one connection at most, and when it has, the connector is in `kConnected` for
    good, so that the assertion of the next `startInLoop` fails, whenever that is run. -/
theorem client_connects_once (es : List ClientEvent)
    (hes : Run.AllSteps TcpClient.step (fun s e => s.Sound e ∧ e ≠ .enableRetry) .new es) :
    let s := Run.exec TcpClient.step .new es
    s.conns.length ≤ 1 ∧
      (s.conns ≠ [] → s.connector_.state_ = .kConnected ∧
        ∀ savedErrno, .startInLoop ∈ (s.connector_.startInLoop savedErrno).failed) := by
  intro s
  have h : s.Alive ∧ s.Once :=
    Run.exec_invariant (I := fun s : TcpClient => s.Alive ∧ s.Once)
      (fun _ _ h hs => ⟨h.1.step hs.1.1 hs.1.2.1 hs.1.2.2, h.2.step h.1 hs.1 hs.2⟩)
      ⟨TcpClient.new_alive, ⟨rfl, by simp [TcpClient.new], by simp [TcpClient.new]⟩⟩ hes
  have hstate := h.2.state
  exact ⟨h.2.conns, fun hne => ⟨hstate hne, Connector.startInLoop_fails (by simp [hstate hne])⟩⟩

/-- The client has let go of the connection, and `connect` is called once more. -/
theorem client_connects_once_again :
    let s := Run.exec TcpClient.step .new TcpClient.closedByPeer
    s.connection_ = none ∧ .startInLoop ∈ (s.connector_.startInLoop .EINPROGRESS).failed := by
  intro s
  have honce := client_connects_once TcpClient.closedByPeer (by decide +kernel)
  exact ⟨by decide +kernel, (honce.2 (by decide +kernel)).2 .EINPROGRESS⟩

end DoubleTurnouts
