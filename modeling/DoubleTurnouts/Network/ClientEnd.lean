/-
  DoubleTurnouts.Network.ClientEnd

  `~TcpClient`.  The connector is destroyed with the client, while functors in
  the loop's queue may still hold its address: `resetChannel`, and the
  `stopInLoop` that the destructor itself queues when there is no connection.
  A connection outlives the client and gets another close callback.
-/
import Mathlib.Tactic
import DoubleTurnouts.Network.ClientLife

namespace DoubleTurnouts
namespace TcpClient

variable {s s' : TcpClient} {c : Nat} {k : ClientConn}

/-! ## Functors of a destroyed connector -/

/-- A functor of the connector is queued, or something destroyed has been used. -/
def Haunted (s : TcpClient) : Prop :=
  (∃ f, .connector f ∈ s.pendingFunctors_) ∨ s.dangling ≠ []

/-- The queue only grows, and so does what has been used. -/
structure Grows (s s' : TcpClient) : Prop where
  alive : s'.alive = s.alive
  queue : ∀ cb ∈ s.pendingFunctors_, cb ∈ s'.pendingFunctors_
  dangling : s.dangling ≠ [] → s'.dangling ≠ []

theorem Grows.refl (s : TcpClient) : Grows s s := ⟨rfl, fun _ h => h, id⟩

theorem Grows.trans {s'' : TcpClient} (h : Grows s s') (h' : Grows s' s'') : Grows s s'' :=
  ⟨h'.alive.trans h.alive, fun cb hcb => h'.queue cb (h.queue cb hcb),
    fun hne => h'.dangling (h.dangling hne)⟩

theorem Haunted.of_grows (h : s.Haunted) (hg : Grows s s') : s'.Haunted := by
  rcases h with ⟨f, hf⟩ | hne
  · exact .inl ⟨f, hg.queue _ hf⟩
  · exact .inr (hg.dangling hne)

theorem grows_queueInLoop (s : TcpClient) (cb : ClientFunctor) : Grows s (s.queueInLoop cb) :=
  ⟨rfl, fun _ h => List.mem_append_left _ h, id⟩

theorem grows_shutdown (s : TcpClient) (inLoop : Bool) (c : Nat) :
    Grows s (s.shutdown inLoop c) := by
  unfold shutdown
  split
  · exact .refl s
  · split
    · cases inLoop with
      | true => exact ⟨rfl, fun _ h => h, id⟩
      | false => exact ⟨rfl, fun _ h => List.mem_append_left _ h, id⟩
    · exact .refl s

theorem grows_forceClose (s : TcpClient) (c : Nat) : Grows s (s.forceClose c) := by
  unfold forceClose
  split
  · exact .refl s
  · split
    · exact ⟨rfl, fun _ h => List.mem_append_left _ h, id⟩
    · exact .refl s

theorem grows_handleClose (s : TcpClient) (c : Nat) : Grows s (s.handleClose c) := by
  unfold handleClose
  split
  · exact .refl s
  · exact ⟨rfl, fun _ h => h, id⟩

/-- A use of what is destroyed. -/
theorem haunted_of_use (s : TcpClient) (use : Dangling) :
    Haunted { s with dangling := s.dangling ++ [use] } := by
  refine .inr fun hnil => ?_
  cases (List.append_eq_nil_iff.mp hnil).2

theorem Haunted.closeCallback (h : s.Haunted) (halive : s.alive = false) (c : Nat)
    (savedErrno : ConnectErrno) :
    (s.closeCallback c savedErrno).Haunted ∧ (s.closeCallback c savedErrno).alive = false := by
  unfold TcpClient.closeCallback
  split
  · exact ⟨h, halive⟩
  · split
    · exact ⟨h.of_grows (grows_queueInLoop s _), halive⟩
    · rw [if_neg (by simp [halive])]
      exact ⟨haunted_of_use s _, halive⟩

theorem Haunted.handleEvent (h : s.Haunted) (halive : s.alive = false) (answers : ClientAnswers)
    (channel : ClientChannel) :
    (s.handleEvent answers channel).Haunted ∧ (s.handleEvent answers channel).alive = false := by
  cases channel with
  | connector revents_ =>
      have heq : s.handleEvent answers (.connector revents_) =
          { s with dangling := s.dangling ++ [.connector] } := if_neg (by simp [halive])
      rw [heq]
      exact ⟨haunted_of_use s _, halive⟩
  | connection c =>
      simp only [TcpClient.handleEvent]
      split
      · have hg := grows_handleClose s c
        exact ⟨h.of_grows hg, hg.alive.trans halive⟩
      · exact ⟨h, halive⟩

/-- The functor that is taken off the queue is the connector's, or leaves that behind. -/
theorem Haunted.runFunctor (h : s.Haunted) (halive : s.alive = false) {cb : ClientFunctor}
    {rest : List ClientFunctor} (hfs : s.pendingFunctors_ = cb :: rest) (left : Nat)
    (savedErrno : ConnectErrno) :
    let s' := TcpClient.runFunctor { s with pendingFunctors_ := rest, left := left } savedErrno cb
    s'.Haunted ∧ s'.alive = false := by
  have hrest : (∀ f, cb ≠ .connector f) →
      Haunted { s with pendingFunctors_ := rest, left := left } := by
    intro hcb
    rcases h with ⟨f, hf⟩ | hne
    · rw [hfs] at hf
      rcases List.mem_cons.mp hf with heq | hf
      · exact absurd heq.symm (hcb f)
      · exact .inl ⟨f, hf⟩
    · exact .inr hne
  have hgrows : ∀ {s' : TcpClient}, (∀ f, cb ≠ .connector f) →
      Grows { s with pendingFunctors_ := rest, left := left } s' →
      s'.Haunted ∧ s'.alive = false := fun hcb hg =>
    ⟨(hrest hcb).of_grows hg, hg.alive.trans halive⟩
  cases cb with
  | connector f =>
      have heq : TcpClient.runFunctor { s with pendingFunctors_ := rest, left := left } savedErrno
          (.connector f) = { s with
            pendingFunctors_ := rest, left := left, dangling := s.dangling ++ [.connector] } :=
        if_neg (by simp [halive])
      rw [heq]
      exact ⟨haunted_of_use { s with pendingFunctors_ := rest, left := left } _, halive⟩
  | setCloseCallback c => exact hgrows (by simp) ⟨rfl, fun _ h => h, id⟩
  | shutdownInLoop c =>
      refine hgrows (by simp) ?_
      simp only [TcpClient.runFunctor]
      split
      · exact .refl _
      · split
        · exact .refl _
        · exact ⟨rfl, fun _ h => h, fun hne hnil => hne (List.append_eq_nil_iff.mp hnil).1⟩
  | forceCloseInLoop c =>
      refine hgrows (by simp) ?_
      simp only [TcpClient.runFunctor, forceCloseInLoop]
      split
      · exact .refl _
      · split
        · exact grows_handleClose _ c
        · exact .refl _
  | connectDestroyed c =>
      refine hgrows (by simp) ?_
      simp only [TcpClient.runFunctor, connectDestroyed]
      split
      · exact .refl _
      · exact ⟨rfl, fun _ h => h, id⟩

theorem Haunted.loop (h : s.Haunted) (halive : s.alive = false) (answers : ClientAnswers) :
    (s.loop answers).Haunted ∧ (s.loop answers).alive = false := by
  unfold TcpClient.loop
  split
  · have hclosed : Haunted { s with closing := none } := h
    exact hclosed.closeCallback halive _ _
  · split
    · rw [connectorPart, if_neg (by simp [halive])]
      exact ⟨haunted_of_use { s with connector_ := { s.connector_ with parts := [] } } _, halive⟩
    · split
      · rename_i channel rest hactive
        have hpop : Haunted { s with active := rest } := h
        exact hpop.handleEvent halive answers channel
      · split
        · split
          · rename_i hfs
            exact h.runFunctor halive hfs _ _
          · exact ⟨h, halive⟩
        · exact ⟨h, halive⟩

theorem Haunted.step (h : s.Haunted) (halive : s.alive = false) {e : ClientEvent}
    (hpossible : s.Possible e) : (s.step e).Haunted ∧ (s.step e).alive = false := by
  cases e with
  | shutdown inLoop c =>
      have hg := grows_shutdown s inLoop c
      exact ⟨h.of_grows hg, hg.alive.trans halive⟩
  | forceClose c =>
      have hg := grows_forceClose s c
      exact ⟨h.of_grows hg, hg.alive.trans halive⟩
  | loop answers => exact h.loop halive answers
  | connect | disconnect | stop | enableRetry | destroy => cases halive.symm.trans hpossible

theorem grows_destroy_some (inLoop unique : Bool) (hc : s.connection_ = some c) :
    ∃ t, Grows s t ∧ s.destroy inLoop unique =
      { t.check .connectorDestroyed (t.connector_.channel_ = none) with
        connection_ := none, alive := false } := by
  let t := if inLoop then s.setCloseCallback c else s.queueInLoop (.setCloseCallback c)
  have ht : Grows s t := by
    cases inLoop with
    | true => exact ⟨rfl, fun _ h => h, id⟩
    | false => exact grows_queueInLoop s _
  refine ⟨if unique then t.forceClose c else t, ?_, by simp only [destroy, hc, t]⟩
  split
  · exact ht.trans (grows_forceClose t c)
  · exact ht

/-- What the destructor leaves, whoever calls it, where it should not have been called. -/
theorem destroy_haunted (h : s.Alive) (inLoop unique : Bool)
    (hcase : s.connection_ = none ∨ ∃ f, .connector f ∈ s.pendingFunctors_) :
    (s.destroy inLoop unique).Haunted ∧ (s.destroy inLoop unique).alive = false := by
  refine ⟨?_, rfl⟩
  cases hc : s.connection_ with
  | some c =>
      obtain ⟨f, hf⟩ := hcase.resolve_left (by simp [hc])
      obtain ⟨t, hg, heq⟩ := grows_destroy_some inLoop unique hc
      rw [heq]
      exact .inl ⟨f, hg.queue _ hf⟩
  | none =>
      -- `stop` queues `stopInLoop` with the address of the connector, which is destroyed next
      refine .inl ⟨.stopInLoop, ?_⟩
      have hstop : (s.connectorStep .stop).pendingFunctors_ =
          s.pendingFunctors_ ++ [.connector .stopInLoop] := by
        simp [connectorStep, withConnector, Connector.step, h.connector.crashed, Connector.stop,
          Connector.queueInLoop]
      simp only [destroy, hc, check]
      rw [hstop]
      simp

/-! ## A connection without its client -/

/-- The client is gone, and nothing of its connector is left. -/
structure Orphan (s : TcpClient) : Prop where
  conns : s.Conns
  alive : s.alive = false
  parts : s.connector_.parts = []
  channel : s.connector_.channel_ = none
  queue : ∀ f, .connector f ∉ s.pendingFunctors_
  active : ∀ r, .connector r ∉ s.active
  callback : ∀ {c k}, s.conns[c]? = some k → s.Current c → k.closeCallback_ = .detail
  failed : s.failed = []
  dangling : s.dangling = []

theorem ConnPhase.of_same {closing : Prop} {fs : List ClientFunctor} {k' : ClientConn}
    (h : ConnPhase k closing fs c) (hstate : k'.state_ = k.state_)
    (hdestroyed : k'.destroyed = k.destroyed) : ConnPhase k' closing fs c := by
  have hopen : k'.isOpen = k.isOpen := by rw [ClientConn.isOpen, ClientConn.isOpen, hstate]
  cases h with
  | up ho hc hd hfs => exact .up (hopen.trans ho) hc (hdestroyed.trans hd) hfs
  | closing hs hc hd hfs => exact .closing (hstate.trans hs) hc (hdestroyed.trans hd) hfs
  | leaving hs hc hd hfs => exact .leaving (hstate.trans hs) hc (hdestroyed.trans hd) hfs
  | gone hs hc hd hfs => exact .gone (hstate.trans hs) hc (hdestroyed.trans hd) hfs

/-- Another close callback changes nothing else of a connection. -/
theorem Conns.setCloseCallback (h : s.Conns) (c : Nat) :
    (s.setCloseCallback c).Conns ∧ (∀ c', (s.setCloseCallback c).Current c' ↔ s.Current c') ∧
      ∀ {c' k}, (s.setCloseCallback c).conns[c']? = some k → ∃ k', s.conns[c']? = some k' ∧
        k.closeCallback_ = if c' = c then .detail else k'.closeCallback_ := by
  have hget : ∀ c', (s.setCloseCallback c).conns[c']? =
      s.conns[c']?.map fun k => if c' = c then { k with closeCallback_ := .detail } else k := by
    intro c'
    show (s.conns.modify c _)[c']? = _
    rcases eq_or_ne c c' with rfl | hne
    · rw [List.getElem?_modify_eq]
      simp
    · rw [List.getElem?_modify_ne _ s.conns hne]
      simp [hne.symm]
  refine ⟨?_, fun c' => or_congr_right ?_, fun {c' k} hk => ?_⟩
  · cases hk : s.conns[c]? with
    | none =>
        have hge : s.conns.length ≤ c := List.getElem?_eq_none_iff.mp hk
        rw [TcpClient.setCloseCallback, modifyConn, List.modify_eq_self hge]
        exact h
    | some k =>
        refine h.touch hk rfl (fun _ _ => rfl) (fun _ _ => Iff.rfl)
          ((h.phase hk).of_same rfl rfl) rfl rfl (fun _ => rfl) fun hmem => ?_
        obtain ⟨k', hk', hopen⟩ := h.active c hmem
        cases hk.symm.trans hk'
        exact hopen
  · rw [hget]
    cases s.conns[c']? with
    | none => simp
    | some k => by_cases hc : c' = c <;> simp [hc, ClientConn.isOpen]
  · rw [hget] at hk
    obtain ⟨k', hk', rfl⟩ := Option.map_eq_some_iff.mp hk
    refine ⟨k', hk', ?_⟩
    by_cases hc : c' = c <;> simp [hc]

theorem Orphan.nudge (h : s.Orphan) (hconns : s'.Conns) (hn : Nudge s s') : s'.Orphan := by
  obtain ⟨new, hqueue, hnew⟩ := hn.pending
  have heq := hn.eq
  refine ⟨hconns, by rw [heq]; exact h.alive, by rw [heq]; exact h.parts,
    by rw [heq]; exact h.channel, fun f hf => ?_, fun r => by rw [heq]; exact h.active r,
    fun {c k} hk hc => ?_, by rw [heq]; exact h.failed, by rw [heq]; exact h.dangling⟩
  · rw [hqueue, List.mem_append] at hf
    rcases hf with hf | hf
    · exact h.queue f hf
    · obtain ⟨c, heq' | heq'⟩ := hnew _ hf <;> cases heq'
  · have hlabel : (s.conns.map label)[c]? = some (label k) := by
      rw [← hn.conns, List.getElem?_map, hk]
      rfl
    rw [List.getElem?_map] at hlabel
    obtain ⟨k', hk', hsame⟩ := Option.map_eq_some_iff.mp hlabel
    rw [← h.callback hk' ((hn.current c).mp hc)]
    exact (congrArg Prod.snd hsame).symm

theorem Orphan.handleClose (h : s.Orphan) (hk : s.conns[c]? = some k) (hopen : k.isOpen = true)
    (hclosing : s.closing = none) (hactive : .connection c ∉ s.active) :
    (s.handleClose c).Orphan := by
  obtain ⟨hconns, heq⟩ := h.conns.handleClose hk hopen hclosing hactive
  rw [heq] at hconns ⊢
  refine ⟨hconns, h.alive, h.parts, h.channel, h.queue, h.active, fun {c' k'} hk' hc' => ?_,
    h.failed, h.dangling⟩
  have hk' : (s.conns.modify c fun k => k.setState .kDisconnected)[c']? = some k' := hk'
  rcases eq_or_ne c c' with rfl | hne
  · rw [List.getElem?_modify_eq, hk] at hk'
    cases hk'
    have hcallback : k.closeCallback_ = .detail := h.callback hk (.inr ⟨k, hk, hopen⟩)
    exact hcallback
  · rw [List.getElem?_modify_ne _ s.conns hne] at hk'
    refine h.callback hk' ?_
    rcases hc' with hc' | ⟨k'', hk'', hopen'⟩
    · exact absurd (Option.some.inj hc') hne
    · have hk'' : (s.conns.modify c fun k => k.setState .kDisconnected)[c']? = some k'' := hk''
      rw [List.getElem?_modify_ne _ s.conns hne] at hk''
      exact .inr ⟨k'', hk'', hopen'⟩

/-- `detail::removeConnection`. -/
theorem Orphan.closeCallback (h : s.Orphan) (hclosing : s.closing = some c)
    (savedErrno : ConnectErrno) :
    (TcpClient.closeCallback { s with closing := none } c savedErrno).Orphan := by
  have hlt : c < s.conns.length := by
    by_contra hge
    exact (h.conns.fresh c (by omega)).2 hclosing
  have hk : s.conns[c]? = some s.conns[c] := List.getElem?_eq_getElem hlt
  have hcallback := h.callback hk (.inl hclosing)
  have heq : TcpClient.closeCallback { s with closing := none } c savedErrno =
      { s with
        closing := none, pendingFunctors_ := s.pendingFunctors_ ++ [.connectDestroyed c] } := by
    simp [TcpClient.closeCallback, hk, hcallback, queueInLoop]
  rw [heq]
  refine ⟨h.conns.finish hclosing rfl, h.alive, h.parts, h.channel, fun f hf => ?_, h.active,
    fun {c' k'} hk' hc' => ?_, h.failed, h.dangling⟩
  · rcases List.mem_append.mp hf with hf | hf
    · exact h.queue f hf
    · simp at hf
  · rcases hc' with hc' | hopen
    · cases hc'
    · exact h.callback hk' (.inr hopen)

theorem Orphan.take (h : s.Orphan) {cb : ClientFunctor} {rest : List ClientFunctor}
    (hfs : s.pendingFunctors_ = cb :: rest) (hcb : ∀ c, cb ≠ .connectDestroyed c)
    (hdoing : s.doing = true) (left : Nat) :
    Orphan { s with pendingFunctors_ := rest, left := left } :=
  ⟨h.conns.take hfs hcb hdoing left, h.alive, h.parts, h.channel,
    fun f hf => h.queue f (by rw [hfs]; exact List.mem_cons_of_mem _ hf), h.active, h.callback,
    h.failed, h.dangling⟩

theorem Orphan.runFunctor (h : s.Orphan) (hclosing : s.closing = none) (hdoing : s.doing = true)
    {cb : ClientFunctor} {rest : List ClientFunctor} (hfs : s.pendingFunctors_ = cb :: rest)
    (left : Nat) (savedErrno : ConnectErrno) :
    Orphan
      (TcpClient.runFunctor { s with pendingFunctors_ := rest, left := left } savedErrno cb) := by
  cases cb with
  | connector f => exact absurd (by rw [hfs]; exact List.mem_cons_self ..) (h.queue f)
  | setCloseCallback c =>
      have htaken := h.take hfs (by simp) hdoing left
      obtain ⟨hconns, hcurrent, hcallback⟩ := htaken.conns.setCloseCallback c
      refine ⟨hconns, htaken.alive, htaken.parts, htaken.channel, htaken.queue, htaken.active,
        fun {c' k} hk hc' => ?_, htaken.failed, htaken.dangling⟩
      obtain ⟨k', hk', heq⟩ := hcallback hk
      rw [heq]
      split
      · rfl
      · exact htaken.callback hk' ((hcurrent c').mp hc')
  | shutdownInLoop c =>
      obtain ⟨k, hk, hzero⟩ := h.conns.exists_conn hfs (c := c) rfl
      have htaken := h.take hfs (by simp) hdoing left
      simp only [TcpClient.runFunctor, hk, hzero]
      exact htaken
  | forceCloseInLoop c =>
      have htaken := h.take hfs (by simp) hdoing left
      simp only [TcpClient.runFunctor, TcpClient.forceCloseInLoop]
      split
      · exact htaken
      · rename_i k hk
        split
        · rename_i hopen
          refine htaken.handleClose hk hopen hclosing ?_
          show .connection c ∉ s.active
          rw [h.conns.handling hdoing]
          simp
        · exact htaken
  | connectDestroyed c =>
      obtain ⟨hconns, hnot, heq⟩ := h.conns.connectDestroyed hfs hdoing left
      have hrun : TcpClient.runFunctor { s with pendingFunctors_ := rest, left := left } savedErrno
          (.connectDestroyed c) =
            connectDestroyed { s with pendingFunctors_ := rest, left := left } c := rfl
      rw [hrun]
      rw [heq] at hconns ⊢
      refine ⟨hconns, h.alive, h.parts, h.channel,
        fun f hf => h.queue f (by rw [hfs]; exact List.mem_cons_of_mem _ hf), h.active,
        fun {c' k} hk hc' => ?_, h.failed, h.dangling⟩
      have hk : (s.conns.modify c fun k =>
          { k with state_ := .kDisconnected, destroyed := k.destroyed + 1 })[c']? = some k := hk
      rcases eq_or_ne c c' with rfl | hne
      · rw [List.getElem?_modify_eq] at hk
        obtain ⟨k₀, hk₀, rfl⟩ := Option.map_eq_some_iff.mp hk
        rcases hc' with hc' | ⟨k', hk', hopen⟩
        · exact absurd (.inl hc') hnot
        · have hk' : (s.conns.modify c fun k =>
              { k with state_ := .kDisconnected, destroyed := k.destroyed + 1 })[c]? = some k' :=
            hk'
          rw [List.getElem?_modify_eq, hk₀] at hk'
          cases hk'
          simp [ClientConn.isOpen] at hopen
      · rw [List.getElem?_modify_ne _ s.conns hne] at hk
        refine h.callback hk (hc'.imp_right ?_)
        rintro ⟨k', hk', hopen⟩
        have hk' : (s.conns.modify c fun k =>
            { k with state_ := .kDisconnected, destroyed := k.destroyed + 1 })[c']? = some k' := hk'
        rw [List.getElem?_modify_ne _ s.conns hne] at hk'
        exact ⟨k', hk', hopen⟩

/-- `poll` with no connector to report. -/
theorem Orphan.loop (h : s.Orphan) {answers : ClientAnswers}
    (hpossible : s.Possible (.loop answers)) : (s.loop answers).Orphan := by
  unfold TcpClient.loop
  split
  · rename_i c hclosing
    exact h.closeCallback hclosing answers.savedErrno
  · rename_i hclosing
    rw [if_neg (by simp [h.parts])]
    split
    · rename_i channel rest hactive
      have hpop : Orphan { s with active := rest } :=
        ⟨h.conns.pop hactive, h.alive, h.parts, h.channel, h.queue,
          fun r hr => h.active r (by rw [hactive]; exact List.mem_cons_of_mem _ hr), h.callback,
          h.failed, h.dangling⟩
      cases channel with
      | connector revents_ =>
          exact absurd (by rw [hactive]; exact List.mem_cons_self ..) (h.active revents_)
      | connection c =>
          simp only [TcpClient.handleEvent]
          split
          · obtain ⟨k, hk, hopen⟩ := h.conns.active c (by rw [hactive]; exact List.mem_cons_self ..)
            have hnodup := h.conns.nodup
            rw [hactive, List.map_cons, List.nodup_cons] at hnodup
            exact hpop.handleClose hk hopen hclosing fun hc =>
              hnodup.1 (List.mem_map.mpr ⟨_, hc, rfl⟩)
          · exact hpop
    · rename_i hactive
      split
      · rename_i hdoing
        split
        · rename_i left cb rest hleft hfs
          exact h.runFunctor hclosing hdoing hfs left answers.savedErrno
        · rename_i hend
          have hpolls := polls_of_end hclosing h.parts hactive hdoing hend
          obtain ⟨hnodup, hready⟩ := hpossible hpolls
          refine ⟨h.conns.poll hnodup hready, h.alive, h.parts, h.channel, h.queue, fun r hr => ?_,
            h.callback, h.failed, h.dangling⟩
          have hadded : s.connector_.channel_.any (fun c => c.2.index_ = .kAdded) = true :=
            hready _ hr
          simp [h.channel] at hadded
      · exact ⟨⟨h.conns.phase, h.conns.fresh, h.conns.active, h.conns.nodup, fun _ => hactive,
          by simp⟩, h.alive, h.parts, h.channel, h.queue, h.active, h.callback, h.failed,
          h.dangling⟩

theorem Orphan.step (h : s.Orphan) {e : ClientEvent} (hpossible : s.Possible e) :
    (s.step e).Orphan := by
  cases e with
  | shutdown inLoop c =>
      obtain ⟨hconns, hn⟩ := h.conns.shutdown inLoop c
      exact h.nudge hconns hn
  | forceClose c =>
      obtain ⟨hconns, hn⟩ := h.conns.forceClose c
      exact h.nudge hconns hn
  | loop answers => exact h.loop hpossible
  | connect | disconnect | stop | enableRetry | destroy => cases h.alive.symm.trans hpossible

theorem forceClose_dead (s : TcpClient) (c : Nat) :
    TcpClient.forceClose { s with alive := false } c = { s.forceClose c with alive := false } := by
  unfold TcpClient.forceClose
  dsimp only
  split
  · rfl
  · split <;> rfl

/-- The destructor, in the loop's thread, while there is a connection and nothing of the connector
    is queued. -/
theorem destroy_orphan (h : s.Alive) (unique : Bool) (hc : s.connection_ = some c)
    (hqueue : ∀ f, .connector f ∉ s.pendingFunctors_) : (s.destroy true unique).Orphan := by
  have hstate := h.connected (by rw [hc]; simp)
  have hchannel : s.connector_.channel_ = none := by
    refine h.connector.channel_none (by simp [hstate]) fun hreset => ?_
    rw [h.queue, List.mem_filterMap] at hreset
    obtain ⟨cb, hcb, hf⟩ := hreset
    cases cb with
    | connector f => exact hqueue f hcb
    | setCloseCallback | shutdownInLoop | forceCloseInLoop | connectDestroyed => cases hf
  have hparts : s.connector_.parts = [] := by
    cases h.connector.phase with
    | idle _ _ _ hparts => exact hparts
    | connecting _ hsome | removed _ hsome => cases hchannel.symm.trans hsome
  obtain ⟨hconns, hcurrent, hcallback⟩ := h.conns.setCloseCallback c
  have hset : Orphan { s.setCloseCallback c with alive := false } := by
    refine ⟨⟨hconns.phase, hconns.fresh, hconns.active, hconns.nodup, hconns.handling,
      hconns.waiting⟩, rfl, hparts, hchannel, hqueue, fun r hr => ?_, fun {c' k} hk hc' => ?_,
      h.failed, h.dangling⟩
    · cases hstate.symm.trans (h.reported r hr).1
    · obtain ⟨k', hk', heq⟩ := hcallback hk
      have hsame : s.connection_ = some c' := (h.current c').mpr ((hcurrent c').mp hc')
      rw [heq, if_pos (Option.some.inj (hsame.symm.trans hc))]
  let u := if unique then (s.setCloseCallback c).forceClose c else s.setCloseCallback c
  have hclosed : Orphan { u with alive := false } := by
    cases unique with
    | false => exact hset
    | true =>
        obtain ⟨hforced, hn⟩ := hset.conns.forceClose c
        have hforced := hset.nudge hforced hn
        rw [forceClose_dead] at hforced
        exact hforced
  have hnone : u.connector_.channel_ = none := hclosed.channel
  have hcheck : u.check .connectorDestroyed (u.connector_.channel_ = none) = u := by
    simp [check, hnone]
  have heq : s.destroy true unique =
      { u.check .connectorDestroyed (u.connector_.channel_ = none) with
        connection_ := none, alive := false } := by
    simp only [destroy, hc]
    rfl
  rw [heq, hcheck]
  exact ⟨⟨hclosed.conns.phase, hclosed.conns.fresh, hclosed.conns.active, hclosed.conns.nodup,
    hclosed.conns.handling, hclosed.conns.waiting⟩, rfl, hclosed.parts, hclosed.channel,
    hclosed.queue, hclosed.active, hclosed.callback, hclosed.failed, hclosed.dangling⟩

end TcpClient

/-- The end of a client.  It is destroyed at any point of its use, and the loop and the user of the
    connection go on in any way.  In the loop's thread, with a connection and no functor of the
    connector in the queue, nothing that is destroyed is ever used, no assertion fails, and the
    connection is finished as if the client were there.  With no connection, or such a functor in
    the queue, the destroyed connector is used as soon as the loop comes to that functor, and there
    is no run in which it is taken off the queue before. -/
theorem client_destructor (es es' : List ClientEvent) (inLoop unique : Bool)
    (hes : Run.AllSteps TcpClient.step TcpClient.Sound .new es) :
    let s := Run.exec TcpClient.step .new es
    let t := Run.exec TcpClient.step (s.destroy inLoop unique) es'
    Run.AllSteps TcpClient.step TcpClient.Possible (s.destroy inLoop unique) es' →
    (s.connection_ ≠ none ∧ (∀ f, .connector f ∉ s.pendingFunctors_) ∧ inLoop = true →
        t.dangling = [] ∧ t.failed = [] ∧ ∀ c k, t.conns[c]? = some k →
          ((t.closing = some c ∨ k.isOpen = true) ∧ k.destroyed = 0 ∧
              .connectDestroyed c ∉ t.pendingFunctors_) ∨
            k.state_ = .kDisconnected ∧
              k.destroyed + t.pendingFunctors_.count (.connectDestroyed c) = 1) ∧
      (s.connection_ = none ∨ (∃ f, .connector f ∈ s.pendingFunctors_) →
        (∃ f, .connector f ∈ t.pendingFunctors_) ∨ t.dangling ≠ []) := by
  intro s t hpossible
  have h : s.Alive := TcpClient.exec_alive hes
  constructor
  · rintro ⟨hne, hqueue, rfl⟩
    obtain ⟨c, hc⟩ := Option.ne_none_iff_exists'.mp hne
    have ht : t.Orphan :=
      Run.exec_invariant (I := TcpClient.Orphan) (fun _ _ hs hp => hs.step hp)
        (TcpClient.destroy_orphan h unique hc hqueue) hpossible
    refine ⟨ht.dangling, ht.failed, fun c k hk => ?_⟩
    by_cases hyes : t.closing = some c ∨ k.isOpen = true
    · exact .inl ⟨hyes, (ht.conns.phase hk).none_yet hyes⟩
    · exact .inr ((ht.conns.phase hk).once hyes)
  · intro hcase
    have ht : t.Haunted ∧ t.alive = false :=
      Run.exec_invariant (I := fun s : TcpClient => s.Haunted ∧ s.alive = false)
        (fun _ _ hs hp => hs.1.step hs.2 hp) (TcpClient.destroy_haunted h inLoop unique hcase)
        hpossible
    exact ht.1

/-- A client is destroyed while it is connected: the connection is closed and finished.  And one
    that has connected to nothing: the loop comes to its `stopInLoop`. -/
theorem client_destructor_both :
    (let s := Run.exec TcpClient.step .new (TcpClient.closedByPeer.take 9)
      let t := Run.exec TcpClient.step (s.destroy true true)
        (List.replicate 7 (.loop TcpClient.quiet))
      t.conns.map ClientConn.destroyed = [1] ∧ t.dangling = [] ∧ t.failed = []) ∧
      let t := Run.exec TcpClient.step (TcpClient.new.destroy false false)
        (List.replicate 3 (.loop TcpClient.quiet))
      t.dangling = [.connector] ∧
        ((∃ f, .connector f ∈ t.pendingFunctors_) ∨ t.dangling ≠ []) := by
  constructor
  · intro s t
    have hqueue : ∀ f, .connector f ∉ s.pendingFunctors_ := by
      have hnil : s.pendingFunctors_ = [] := by decide +kernel
      simp [hnil]
    obtain ⟨hdangling, hfailed, -⟩ := (client_destructor (TcpClient.closedByPeer.take 9)
      (List.replicate 7 (.loop TcpClient.quiet)) true true (by decide +kernel)
      (by decide +kernel)).1 ⟨by decide +kernel, hqueue, rfl⟩
    exact ⟨by decide +kernel, hdangling, hfailed⟩
  · intro t
    exact ⟨by decide +kernel, (client_destructor [] (List.replicate 3 (.loop TcpClient.quiet)) false
      false (by decide +kernel) (by decide +kernel)).2 (.inl rfl)⟩

end DoubleTurnouts
