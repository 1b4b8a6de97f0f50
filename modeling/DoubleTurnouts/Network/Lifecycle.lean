/-
  DoubleTurnouts.Network.Lifecycle

  Whole runs of the server: every event takes the connection it is about from
  one settled phase to another (`Inv.step`), so after any run each connection
  has been through its callbacks once and in order, and no assertion has
  failed (`connection_lifecycle`).
-/
import Mathlib.Tactic
import DoubleTurnouts.Lib.Run
import DoubleTurnouts.Network.Phases

namespace DoubleTurnouts

open Decimal

namespace Phase

/-- The phase once a functor of the connection has been taken from its queue. -/
def taken : Phase → ConnFunctor → Phase
  | .connecting, .connectEstablished => .starting
  | .removing, .removeConnectionInLoop => .closed
  | .destroying, .connectDestroyed => .finishing
  | p, _ => p

/-- Nothing but the functors on their way tells the two phases apart. -/
theorem taken_same (p : Phase) (f : ConnFunctor) :
    (p.taken f).Accepts = p.Accepts ∧ (p.taken f).callbacks = p.callbacks ∧
      (p.taken f).index = p.index ∧ (p.taken f).registered = p.registered ∧
      (p.taken f).mapped = p.mapped ∧ (p.taken f = .established ↔ p = .established) ∧
      (p.taken f = .destroyed ↔ p = .destroyed) := by
  cases p <;> cases f <;> simp [taken, callbacks, index, registered, mapped] <;> rfl

theorem owes_taken {p : Phase} {f g : ConnFunctor} {m : Nat}
    (h : m + (if f = g then 1 else 0) = p.owes g) : m = (p.taken f).owes g := by
  cases g <;> cases p <;> cases f <;> simp_all [taken, owes]

theorem taken_eq_connecting {p : Phase} {f : ConnFunctor} (h : p.taken f = .connecting) :
    p = .connecting ∧ f ≠ .connectEstablished := by
  cases p <;> cases f <;> simp_all [taken]

end Phase

namespace TcpServer

variable {κ : Type} {u : User κ} {n : Nat} {s : TcpServer κ} {ph : Nat → Phase}

/-! ## Functors -/

theorem countP_eraseIdx {α : Type} (q : α → Bool) {l : List α} {i : Nat} {x : α}
    (h : l[i]? = some x) : l.countP q = (l.eraseIdx i).countP q + if q x then 1 else 0 := by
  induction l generalizing i with
  | nil => cases h
  | cons y l ih =>
      cases i with
      | zero =>
          cases h
          rw [List.eraseIdx_zero, List.tail_cons, List.countP_cons]
      | succ i =>
          have hrest := ih (i := i) h
          rw [List.eraseIdx_cons_succ, List.countP_cons, List.countP_cons, hrest]
          omega

/-- Taking a functor from its queue lets its connection into the phase it waited for. -/
theorem Inv.take (h : Inv u n s ph) {i L c : Nat} {f : ConnFunctor}
    (hi : s.pending[i]? = some (L, c, f)) :
    Inv u n { s with pending := s.pending.eraseIdx i } (Function.update ph c ((ph c).taken f)) := by
  have hmem : (L, c, f) ∈ s.pending := List.mem_of_getElem? hi
  obtain ⟨k, hk, -, hfirst⟩ := h.pending hmem
  -- what is owed to a connection is one functor less, if it is the one taken
  have howed : ∀ c' g, s.owed c' g =
      owed { s with pending := s.pending.eraseIdx i } c' g + if (c, f) = (c', g) then 1 else 0 := by
    intro c' g
    have hcount := countP_eraseIdx (fun x => decide (x.2 = (c', g))) hi
    simpa [owed] using hcount
  refine { h with phase := ?_, pending := ?_, active := ?_, user := { h.user with } }
  · intro c' k' hk'
    have hphase := h.phase hk'
    rcases eq_or_ne c' c with rfl | hne
    · rw [Function.update_self]
      have hown : ∀ g, g.framing = true → owed { s with pending := s.pending.eraseIdx i } c' g +
          (if f = g then 1 else 0) = (ph c').owes g := by
        intro g hg
        rw [← hphase.owed g hg, howed c' g]
        simp
      obtain ⟨hacc, hcb, hidx, hreg, hmap, hest, hdes⟩ := (ph c').taken_same f
      exact
        { state := hacc ▸ hphase.state
          callbacks := hphase.callbacks.trans hcb.symm
          reading := by rw [hphase.reading, decide_eq_decide, hest]
          writing := fun hne => hphase.writing (mt hest.mpr hne)
          index := hphase.index.trans hidx.symm
          added := hphase.added.trans hreg.symm
          registered := hreg ▸ hphase.registered
          mapped := hmap ▸ hphase.mapped
          owed := fun g hg => Phase.owes_taken (hown g hg)
          context := hcb ▸ hphase.context
          alive := fun hd => ⟨hdes.mpr (hphase.alive hd).1, (hphase.alive hd).2⟩ }
    · rw [Function.update_of_ne hne]
      refine { hphase with owed := ?_ }
      intro g hg
      have hg' := howed c' g
      rw [if_neg (by simp [hne.symm]), Nat.add_zero] at hg'
      rw [← hg', hphase.owed g hg]
  · intro L' c' g hx
    obtain ⟨k', hk', hhome, hfirst'⟩ := h.pending (List.mem_of_mem_eraseIdx hx)
    refine ⟨k', hk', hhome, ?_⟩
    rcases eq_or_ne c' c with rfl | hne
    · rw [Function.update_self]
      intro hcon
      obtain ⟨hpc, hne⟩ := Phase.taken_eq_connecting hcon
      exact absurd (hfirst hpc) hne
    · rw [Function.update_of_ne hne]
      exact hfirst'
  · intro L' c' r hx
    obtain ⟨hest, hrest⟩ := h.active hx
    refine ⟨?_, hrest⟩
    rcases eq_or_ne c' c with rfl | hne
    · rw [Function.update_self, hest]
      rfl
    · rw [Function.update_of_ne hne]
      exact hest

/-- A functor that frames no phase leaves it. -/
theorem taken_of_not_framing {p : Phase} {f : ConnFunctor} (hf : f.framing = false) :
    p.taken f = p := by
  cases p <;> cases f <;> first | rfl | cases hf

/-- A framing functor is on its way only in the phase that waits for it. -/
theorem Inv.waiting (h : Inv u n s ph) {L c : Nat} {f : ConnFunctor} (hx : (L, c, f) ∈ s.pending)
    (hf : f.framing = true) : 0 < (ph c).owes f := by
  obtain ⟨k, hk, -⟩ := h.pending hx
  rw [← (h.phase hk).owed f hf]
  exact List.countP_pos_iff.mpr ⟨_, hx, by simp⟩

/-- Every connection is in a phase of its own between two events. -/
def Settled (ph : Nat → Phase) : Prop := ∀ c, (ph c).settled = true

theorem Settled.update (h : Settled ph) (c : Nat) {p : Phase} (hp : p.settled = true) :
    Settled (Function.update ph c p) := by
  intro c'
  rcases eq_or_ne c' c with rfl | hne
  · rw [Function.update_self]
    exact hp
  · rw [Function.update_of_ne hne]
    exact h c'

theorem Inv.forceCloseInLoop (h : Inv u n s ph) (hset : Settled ph) {c : Nat}
    (hidle : ∀ L, ∀ x ∈ s.active L, x.1 ≠ c) (script : List (Nat × ConnCall)) :
    ∃ ph', Settled ph' ∧ Inv u n (s.forceCloseInLoop c script) ph' := by
  unfold TcpServer.forceCloseInLoop
  cases hk : s.conns[c]? with
  | none => exact ⟨ph, hset, h⟩
  | some k =>
      dsimp only
      split
      · rename_i hopen
        have hest := (h.phase hk).isOpen_iff.mp hopen
        obtain ⟨p, hp, hclosed⟩ := h.handleClose hk hest hidle script
        refine ⟨_, hset.update c ?_, hclosed⟩
        rcases hp with rfl | rfl <;> rfl
      · exact ⟨ph, hset, h⟩

/-- A loop takes a functor and runs it, with no active channel left to handle. -/
theorem Inv.run (h : Inv u n s ph) (hset : Settled ph) {i L c : Nat} {f : ConnFunctor}
    (hi : s.pending[i]? = some (L, c, f)) (hdone : s.active L = []) (r : WriteResult)
    (script : List (Nat × ConnCall)) :
    ∃ ph', Settled ph' ∧
      Inv u n ({ s with pending := s.pending.eraseIdx i }.runFunctor c r script f) ph' := by
  have hmem : (L, c, f) ∈ s.pending := List.mem_of_getElem? hi
  obtain ⟨k, hk, hhome, hfirst⟩ := h.pending hmem
  have htaken := h.take hi
  have hnow : Function.update ph c ((ph c).taken f) c = (ph c).taken f := Function.update_self ..
  cases hf : f.framing with
  | true =>
      have hwait := h.waiting hmem hf
      cases f with
      | connectEstablished =>
          have hp : ph c = .connecting := by
            cases hp : ph c <;> simp_all [Phase.owes]
          rw [hp] at htaken hnow
          have hdone := htaken.connectEstablished hk hnow script
          rw [Function.update_idem] at hdone
          exact ⟨_, hset.update c rfl, hdone⟩
      | removeConnectionInLoop =>
          have hp : ph c = .removing := by
            cases hp : ph c <;> simp_all [Phase.owes]
          rw [hp] at htaken hnow
          have hdone := htaken.removeConnectionInLoop hk hnow
          rw [Function.update_idem] at hdone
          exact ⟨_, hset.update c rfl, hdone⟩
      | connectDestroyed =>
          have hp : ph c = .destroying := by
            cases hp : ph c <;> simp_all [Phase.owes]
          rw [hp] at htaken hnow
          have hdone := htaken.connectDestroyed hk hnow script
          rw [Function.update_idem] at hdone
          exact ⟨_, hset.update c rfl, hdone⟩
      | _ => cases hf
  | false =>
      rw [taken_of_not_framing hf, Function.update_eq_self] at htaken
      have hpc : ph c ≠ .connecting := by
        intro hcon
        rw [hfirst hcon] at hf
        cases hf
      have hps : ph c ≠ .starting := by
        intro hcon
        have := hset c
        rw [hcon] at this
        cases this
      cases f with
      | forceCloseInLoop =>
          refine htaken.forceCloseInLoop hset ?_ script
          -- the functor runs in the loop of its connection, where no channel is active
          rintro L' ⟨c', r'⟩ hx rfl
          obtain ⟨-, -, k', hk', hloop⟩ := h.active hx
          obtain rfl : k = k' := Option.some.inj (hk.symm.trans hk')
          rw [← hloop, ← show L = k.loop_ from hhome, hdone] at hx
          cases hx
      | sendInLoop message => exact ⟨ph, hset, htaken.sendInLoop message r hpc hps⟩
      | shutdownInLoop => exact ⟨ph, hset, htaken.shutdownInLoop hpc⟩
      | writeComplete =>
          refine ⟨ph, hset, ?_⟩
          unfold TcpServer.runFunctor
          dsimp only
          rw [hk]
          exact htaken.calls _ script
      | _ => cases hf

/-! ## Events of a channel -/

/-- The user's message callback may set the context and make calls. -/
theorem Inv.message (h : Inv u n s ph) {c : Nat} {k : TcpConn κ} (hk : s.conns[c]? = some k)
    (hpc : ph c ≠ .connecting) (script : List (Nat × ConnCall)) :
    Inv u n (script.foldl (TcpServer.call (some k.loop_)) (s.modifyConn c fun k =>
      { k with context_ := s.messageCallback_ c k.context_ })) ph := by
  apply Inv.calls
  refine h.touch_same (touches_modifyConn s c ?_) ?_ hpc
  · exact fun k => ⟨rfl, rfl, rfl, id⟩
  · intro k' hk'
    rw [conns_modifyConn hk] at hk'
    cases hk'
    have hphase := h.phase hk
    exact { hphase with context := fun ha => h.user.message c _ (hphase.context ha) }

/-- A connection that is closed is on its way to be destroyed, and no longer being connected. -/
theorem Inv.handleClose_settled (h : Inv u n s ph) (hset : Settled ph) {c : Nat} {k : TcpConn κ}
    (hk : s.conns[c]? = some k) (hest : ph c = .established)
    (hidle : ∀ L, ∀ x ∈ s.active L, x.1 ≠ c) (script : List (Nat × ConnCall)) :
    ∃ ph', Settled ph' ∧ ph' c ≠ .connecting ∧ Inv u n (s.handleClose c script) ph' := by
  obtain ⟨p, hp, hclosed⟩ := h.handleClose hk hest hidle script
  refine ⟨_, hset.update c ?_, ?_, hclosed⟩
  · rcases hp with rfl | rfl <;> rfl
  · rw [Function.update_self]
    rcases hp with rfl | rfl <;> decide

theorem Inv.handleRead (h : Inv u n s ph) (hset : Settled ph) {c : Nat} (hest : ph c = .established)
    (hidle : ∀ L, ∀ x ∈ s.active L, x.1 ≠ c) (m : ReadResult) (script : List (Nat × ConnCall)) :
    ∃ ph', Settled ph' ∧ ph' c ≠ .connecting ∧ Inv u n (s.handleRead c m script) ph' := by
  have hpc : ph c ≠ .connecting := by simp [hest]
  unfold TcpServer.handleRead
  cases hk : s.conns[c]? with
  | none => exact ⟨ph, hset, hpc, h⟩
  | some k =>
      cases m with
      | error savedErrno => exact ⟨ph, hset, hpc, h⟩
      | data received =>
          dsimp only
          split
          · exact ⟨ph, hset, hpc, h.message hk hpc script⟩
          · exact h.handleClose_settled hset hk hest hidle script

/-- One active channel is handled. -/
theorem Inv.handleEvent (h : Inv u n s ph) (hset : Settled ph) {c : Nat} {k : TcpConn κ}
    (hk : s.conns[c]? = some k) (hest : ph c = .established)
    (hidle : ∀ L, ∀ x ∈ s.active L, x.1 ≠ c) {revents_ : Revents} (hplain : revents_.Plain)
    (m : ReadResult) (r : WriteResult) (script : List (Nat × ConnCall)) :
    ∃ ph', Settled ph' ∧ Inv u n (s.handleEvent c revents_ m r script) ph' := by
  obtain ⟨hpri, hrdhup⟩ := hplain
  -- at most one of the first two branches is taken
  have hread : ∃ ph', Settled ph' ∧ ph' c ≠ .connecting ∧
      Inv u n (if revents_.pollin || revents_.pollpri || revents_.pollrdhup then
        (if revents_.pollhup && !revents_.pollin then s.handleClose c script else s).handleRead c m
          script
        else if revents_.pollhup && !revents_.pollin then s.handleClose c script else s) ph' := by
    rw [hpri, hrdhup]
    cases revents_.pollin with
    | true =>
        rw [if_pos (by simp), if_neg (by simp)]
        exact h.handleRead hset hest hidle m script
    | false =>
        rw [if_neg (by simp)]
        split
        · exact h.handleClose_settled hset hk hest hidle script
        · exact ⟨ph, hset, by simp [hest], h⟩
  obtain ⟨ph', hset', hpc, hinv⟩ := hread
  refine ⟨ph', hset', ?_⟩
  unfold TcpServer.handleEvent
  dsimp only
  split
  · exact hinv.handleWrite r hpc
  · exact hinv

/-- The head of the active channels is taken off the list. -/
theorem Inv.pop (h : Inv u n s ph) {L c : Nat} {r : Revents} {rest : List (Nat × Revents)}
    (hactive : s.active L = (c, r) :: rest) :
    Inv u n { s with active := Function.update s.active L rest } ph ∧
      ∀ L', ∀ x ∈ Function.update s.active L rest L', x.1 ≠ c := by
  have hsub : ∀ L', ∀ x ∈ Function.update s.active L rest L', x ∈ s.active L' := by
    intro L' x hx
    rcases eq_or_ne L' L with rfl | hne
    · rw [Function.update_self] at hx
      rw [hactive]
      exact List.mem_cons_of_mem _ hx
    · rwa [Function.update_of_ne hne] at hx
  have hnodup := h.nodup L
  rw [hactive, List.map_cons, List.nodup_cons] at hnodup
  constructor
  · refine { h with
      phase := fun hk => { h.phase hk with }
      user := { h.user with }
      active := fun hx => h.active (hsub _ _ hx)
      nodup := ?_ }
    intro L'
    rcases eq_or_ne L' L with rfl | hne
    · show ((Function.update s.active L' rest L').map Prod.fst).Nodup
      rw [Function.update_self]
      exact hnodup.2
    · show ((Function.update s.active L rest L').map Prod.fst).Nodup
      rw [Function.update_of_ne hne]
      exact h.nodup L'
  · rintro L' ⟨c', r'⟩ hx rfl
    obtain ⟨-, -, k, hk, rfl⟩ := h.active (show (c', r) ∈ s.active L by rw [hactive]; simp)
    obtain ⟨-, -, k', hk', rfl⟩ := h.active (hsub _ _ hx)
    obtain rfl : k = k' := Option.some.inj (hk.symm.trans hk')
    rw [Function.update_self] at hx
    exact hnodup.1 (List.mem_map.mpr ⟨_, hx, rfl⟩)

theorem Inv.poll (h : Inv u n s ph) {L : Nat} {ready : List (Nat × Revents)}
    (hnodup : (ready.map Prod.fst).Nodup) (hready : ∀ x ∈ ready, s.Ready L x) :
    Inv u n { s with active := Function.update s.active L ready } ph := by
  refine { h with
    phase := fun hk => { h.phase hk with }
    user := { h.user with }
    active := ?_
    nodup := ?_ }
  · intro L' c r hx
    have hx : (c, r) ∈ Function.update s.active L ready L' := hx
    rcases eq_or_ne L' L with rfl | hne
    · rw [Function.update_self] at hx
      obtain ⟨k, hk, hloop, hindex, -, -, hpri, hrdhup, -⟩ := hready _ hx
      have hphase := h.phase hk
      have hest : ph c = .established := by
        have hidx := hphase.index
        rw [hindex] at hidx
        cases hp : ph c <;> rw [hp] at hidx <;> first | rfl | cases hidx
      exact ⟨hest, ⟨hpri, hrdhup⟩, k, hk, hloop⟩
    · rw [Function.update_of_ne hne] at hx
      exact h.active hx
  · intro L'
    rcases eq_or_ne L' L with rfl | hne
    · show ((Function.update s.active L' ready L').map Prod.fst).Nodup
      rw [Function.update_self]
      exact hnodup
    · show ((Function.update s.active L ready L').map Prod.fst).Nodup
      rw [Function.update_of_ne hne]
      exact h.nodup L'

/-! ## The end of a connection -/

/-- A connection nobody holds any more has been through `connectDestroyed`. -/
theorem Inv.destroyed_of_possible (h : Inv u n s ph) (hset : Settled ph) {c : Nat}
    (hpos : s.Possible (.destruct c)) :
    ∃ k, s.conns[c]? = some k ∧ k.destructed = false ∧ ph c = .destroyed := by
  obtain ⟨⟨k, hk, halive, hfree⟩, hnone⟩ := hpos
  refine ⟨k, hk, halive, ?_⟩
  have hphase := h.phase hk
  have hunowed : s.owed c .connectDestroyed = 0 := by
    rw [owed, List.countP_eq_zero]
    rintro ⟨L, x⟩ hx hxc
    have hxc : x = (c, .connectDestroyed) := by simpa using hxc
    have hheld := hnone _ hx (by rw [hxc])
    rw [hxc] at hheld
    cases hheld
  have hmapped := mt hphase.mapped.mpr hfree
  have howes := hphase.owed .connectDestroyed rfl
  have hset := hset c
  rw [hunowed] at howes
  cases hp : ph c with
  | destroyed => rfl
  | destroying =>
      rw [hp] at howes
      cases howes
  | finishing =>
      rw [hp] at hset
      cases hset
  | _ =>
      rw [hp] at hmapped
      exact absurd rfl hmapped

theorem Inv.destruct (h : Inv u n s ph) (hset : Settled ph) {c : Nat} (hmay : u.mayDestruct c)
    (hpos : s.Possible (.destruct c)) : ∃ ph', Settled ph' ∧ Inv u n (s.destruct c) ph' := by
  obtain ⟨k, hk, -, hdes⟩ := h.destroyed_of_possible hset hpos
  have hphase := h.phase hk
  rw [hdes] at hphase
  refine ⟨_, hset.update c (p := .destroyed) rfl, ?_⟩
  unfold TcpServer.destruct
  rw [hk]
  dsimp only
  rw [check_of ⟨hphase.state, hphase.added⟩]
  refine h.touch (touches_modifyConn s c ?_) ?_ (.inr (h.not_active (by simp [hdes]))) (by decide)
  · exact fun k => ⟨rfl, rfl, rfl, fun hd => absurd hd (by simp)⟩
  · intro k' hk'
    rw [conns_modifyConn hk] at hk'
    cases hk'
    exact { hphase with alive := fun _ => ⟨rfl, hmay⟩ }

/-! ## Accepting -/

theorem toIpPort_length (addr : InetAddress) : addr.toIpPort.length ≤ 47 := by
  have hport : (to_string addr.port.toNat).length ≤ 5 := by
    show (natDigits addr.port.toNat).length ≤ 5
    rw [natDigits, List.length_map]
    exact Nat.toDigits_length 10 _ 5 (by decide) (lt_trans addr.port.toNat_lt (by decide))
  have hip := addr.ip_length
  have hopen : (str "[").length = 1 := rfl
  have hclose : (str "]:").length = 2 := rfl
  have hcolon : (str ":").length = 1 := rfl
  unfold InetAddress.toIpPort snprintf64
  dsimp only
  split <;> simp only [List.length_take, List.length_append] <;> omega

/-- Connection names differ as long as they fit the buffer they are printed to. -/
theorem connName_injective {name_ ipPort_ : Bytes} (hip : ipPort_.length ≤ 47) {i j : Int}
    (hi : IsInt32 i) (hj : IsInt32 j) (h : connName name_ ipPort_ i = connName name_ ipPort_ j) :
    i = j := by
  have hfits : ∀ m, IsInt32 m → snprintf64 (str "-" ++ ipPort_ ++ str "#" ++ to_string m) =
      str "-" ++ ipPort_ ++ str "#" ++ to_string m := by
    intro m hm
    have hlen := length_to_string_le hm
    refine List.take_of_length_le ?_
    have hdash : (str "-").length = 1 := rfl
    have hhash : (str "#").length = 1 := rfl
    simp only [List.length_append]
    omega
  unfold connName at h
  rw [hfits i hi, hfits j hj] at h
  exact to_string_injective (List.append_cancel_left (List.append_cancel_left h))

/-- The server once a connection has been created, before it is started. -/
def accepted (s : TcpServer κ) (loop_ sockfd : Nat) : TcpServer κ :=
  { s with
    nextConnId_ := wrap32 (s.nextConnId_ + 1)
    conns := s.conns ++ [s.newConn loop_ (connName s.name_ s.ipPort_ s.nextConnId_) sockfd]
    connections_ := s.connections_.insert (connName s.name_ s.ipPort_ s.nextConnId_)
      s.conns.length }

section Accepted

variable {loop_ sockfd c : Nat} {k : TcpConn κ}

theorem Inv.lt_of_getElem? (h : Inv u n s ph) (hk : s.conns[c]? = some k) : c < n := by
  rw [← h.length]
  exact (List.getElem?_eq_some_iff.mp hk).1

/-- With fewer than 2^31 accepts the counter has not left an int. -/
theorem Inv.nextConnId_eq (h : Inv u n s ph) (hfew : n + 1 < 2 ^ 31) :
    s.nextConnId_ = n + 1 :=
  h.nextConnId_.trans (wrap32_of_isInt32 ⟨by omega, by omega⟩)

/-- The record made for connection `n`. -/
def nthConn (s : TcpServer κ) (n loop_ sockfd : Nat) : TcpConn κ :=
  s.newConn loop_ (connName s.name_ s.ipPort_ (n + 1)) sockfd

/-- A record is an old one or the new one. -/
theorem Inv.accepted_cases (h : Inv u n s ph) (hfew : n + 1 < 2 ^ 31)
    (hk : (s.accepted loop_ sockfd).conns[c]? = some k) :
    c < n ∧ s.conns[c]? = some k ∨ c = n ∧ k = s.nthConn n loop_ sockfd := by
  rw [nthConn, ← h.nextConnId_eq hfew]
  have hk : (s.conns ++ [s.newConn loop_ (connName s.name_ s.ipPort_ s.nextConnId_) sockfd])[c]?
    = some k := hk
  rcases lt_trichotomy c n with hc | rfl | hc
  · rw [List.getElem?_append_left (h.length ▸ hc)] at hk
    exact .inl ⟨hc, hk⟩
  · rw [← h.length, List.getElem?_concat_length] at hk
    exact .inr ⟨rfl, (Option.some.inj hk).symm⟩
  · rw [List.getElem?_eq_none (by simp [h.length]; omega)] at hk
    cases hk

theorem Inv.accepted_old (h : Inv u n s ph) (hk : s.conns[c]? = some k) :
    (s.accepted loop_ sockfd).conns[c]? = some k :=
  (List.getElem?_append_left (h.length ▸ h.lt_of_getElem? hk)).trans hk

/-- An old connection keeps its phase: its name is another one. -/
theorem Inv.accepted_inPhase_old (h : Inv u n s ph) (hfew : n + 1 < 2 ^ 31)
    (hk : s.conns[c]? = some k) : (s.accepted loop_ sockfd).InPhase u c k (ph c) := by
  have hc := h.lt_of_getElem? hk
  have hphase := h.phase hk
  refine { hphase with mapped := ?_ }
  have hne : k.name_ ≠ connName s.name_ s.ipPort_ s.nextConnId_ := by
    rw [h.name hk, h.nextConnId_eq hfew]
    intro heq
    have hint : ∀ m : Nat, m ≤ n → IsInt32 ((m : Int) + 1) := fun m hm => ⟨by omega, by omega⟩
    have := connName_injective h.ipPort_ (hint c hc.le) (hint n le_rfl) heq
    omega
  show (s.connections_.insert _ _).lookup k.name_ = some c ↔ _
  rw [AList.lookup_insert_ne hne]
  exact hphase.mapped

/-- The new one is in the map, and nothing is registered or queued for it. -/
theorem Inv.accepted_inPhase_new (h : Inv u n s ph) (hfew : n + 1 < 2 ^ 31) :
    (s.accepted loop_ sockfd).InPhase u n (s.nthConn n loop_ sockfd) .starting where
  state := rfl
  callbacks := rfl
  reading := rfl
  writing := fun _ => rfl
  index := rfl
  added := rfl
  registered := by
    refine iff_of_false (fun hreg => ?_) (by decide)
    obtain ⟨k, hk, -⟩ := h.channels_ hreg
    exact (h.lt_of_getElem? hk).false
  mapped := by
    refine iff_of_true ?_ rfl
    show (s.connections_.insert (connName s.name_ s.ipPort_ s.nextConnId_) _).lookup
      (connName s.name_ s.ipPort_ (n + 1)) = some n
    rw [h.nextConnId_eq hfew, AList.lookup_insert, h.length]
  owed := by
    intro f _
    show List.countP _ s.pending = _
    rw [List.countP_eq_zero.mpr]
    · cases f <;> rfl
    · rintro ⟨L, x⟩ hx hxc
      have hxc : x = (n, f) := by simpa using hxc
      obtain ⟨k, hk, -⟩ := h.pending (c := x.1) (f := x.2) hx
      rw [hxc] at hk
      exact (h.lt_of_getElem? hk).false
  context := fun ha => absurd ha (by decide)
  alive := fun hd => by cases hd

theorem Inv.accepted (h : Inv u n s ph) (hfew : n + 1 < 2 ^ 31) (loop_ : Nat) {sockfd : Nat}
    (hfd : ∀ k ∈ s.conns, k.fd = sockfd → k.destructed = true) :
    Inv u (n + 1) (s.accepted loop_ sockfd) (Function.update ph n .starting) := by
  constructor
  case length => simp [TcpServer.accepted, h.length]
  case phase =>
    intro c k hk
    rcases h.accepted_cases hfew hk with ⟨hc, hk⟩ | ⟨rfl, rfl⟩
    · rw [Function.update_of_ne hc.ne]
      exact h.accepted_inPhase_old hfew hk
    · rw [Function.update_self]
      exact h.accepted_inPhase_new hfew
  case name =>
    intro c k hk
    rcases h.accepted_cases hfew hk with ⟨-, hk⟩ | ⟨rfl, rfl⟩
    · exact h.name hk
    · rfl
  case nextConnId_ =>
    show wrap32 (s.nextConnId_ + 1) = _
    rw [h.nextConnId_eq hfew]
    push_cast
    rfl
  case ipPort_ => exact h.ipPort_
  case fds =>
    intro c c' k k' hk hk' hd hd' hsame
    rcases h.accepted_cases hfew hk with ⟨-, hk⟩ | ⟨rfl, rfl⟩ <;>
      rcases h.accepted_cases hfew hk' with ⟨-, hk'⟩ | ⟨rfl, rfl⟩
    · exact h.fds hk hk' hd hd' hsame
    · rw [hfd k (List.mem_of_getElem? hk) hsame] at hd
      cases hd
    · rw [hfd k' (List.mem_of_getElem? hk') hsame.symm] at hd'
      cases hd'
    · rfl
  case channels_ =>
    intro L fd c hc
    obtain ⟨k, hk, hloop⟩ := h.channels_ hc
    exact ⟨k, h.accepted_old hk, hloop⟩
  case pending =>
    intro L c f hx
    obtain ⟨k, hk, hhome, hfirst⟩ := h.pending hx
    refine ⟨k, h.accepted_old hk, hhome, ?_⟩
    rwa [Function.update_of_ne (h.lt_of_getElem? hk).ne]
  case active =>
    intro L c r hx
    obtain ⟨hest, hplain, k, hk, hloop⟩ := h.active hx
    refine ⟨?_, hplain, k, h.accepted_old hk, hloop⟩
    rwa [Function.update_of_ne (h.lt_of_getElem? hk).ne]
  case nodup => exact h.nodup
  case failed => exact h.failed
  case user => exact ⟨h.user.up, h.user.down, h.user.message⟩

end Accepted

theorem Inv.newConnection (h : Inv u n s ph) (hset : Settled ph) (hfew : n + 1 < 2 ^ 31)
    {sockfd : Nat} (hfd : ∀ k ∈ s.conns, k.fd = sockfd → k.destructed = true)
    (script : List (Nat × ConnCall)) :
    ∃ ph', Settled ph' ∧ Inv u (n + 1) (s.newConnection sockfd script) ph' := by
  unfold TcpServer.newConnection
  -- the round-robin counter is of no interest to the connections
  obtain ⟨loop_, s', hnext⟩ : ∃ loop_ s', s.getNextLoop = (loop_, s') := ⟨_, _, rfl⟩
  rw [hnext]
  have h' : Inv u n s' ph := by
    unfold getNextLoop at hnext
    split at hnext
    · cases hnext
      exact h
    · cases hnext
      exact { h with phase := fun hk => { h.phase hk with }, user := { h.user with } }
  have hfd' : ∀ k ∈ s'.conns, k.fd = sockfd → k.destructed = true := by
    unfold getNextLoop at hnext
    split at hnext <;> cases hnext <;> exact hfd
  obtain rfl := h'.length
  have hacc := h'.accepted hfew loop_ hfd'
  have hk : (s'.accepted loop_ sockfd).conns[s'.conns.length]? =
      some (s'.newConn loop_ (connName s'.name_ s'.ipPort_ s'.nextConnId_) sockfd) :=
    List.getElem?_concat_length
  have hph : Function.update ph s'.conns.length .starting s'.conns.length = .starting :=
    Function.update_self ..
  dsimp only
  split
  · have hdone := hacc.connectEstablished hk hph script
    rw [Function.update_idem] at hdone
    exact ⟨_, hset.update s'.conns.length (p := .established) rfl, hdone⟩
  · refine ⟨_, hset.update s'.conns.length (p := .connecting) rfl, ?_⟩
    have hphase := hacc.phase hk
    rw [hph] at hphase
    have hdone := hacc.touch_of (p := .connecting) (touches_queueInLoop hk .connectEstablished)
      ?_ (.inr (hacc.not_active (by simp))) ?_
    · rwa [Function.update_idem] at hdone
    · intro k' hk'
      obtain rfl := Option.some.inj (hk.symm.trans hk')
      refine { hphase with writing := fun _ => rfl, owed := ?_, alive := fun hd => by cases hd }
      intro f hf
      rw [owed_queueInLoop, hphase.owed f hf]
      cases f <;> rfl
    · intro L f hx _
      rcases List.mem_append.mp hx with hx | hx
      · -- nothing was queued for a connection that did not exist
        obtain ⟨k, hk, -⟩ := h'.pending hx
        rw [List.getElem?_eq_none le_rfl] at hk
        cases hk
      · simp only [List.mem_singleton, Prod.mk.injEq] at hx
        exact hx.2.2

/-! ## Runs -/

def isAccept : ServerEvent → Bool
  | .accept _ _ => true
  | _ => false

theorem Inv.step (h : Inv u n s ph) (hset : Settled ph) {e : ServerEvent} (hpos : s.Possible e)
    (hmay : ∀ c, e = .destruct c → u.mayDestruct c) (hfew : n + [e].countP isAccept < 2 ^ 31) :
    ∃ ph', Settled ph' ∧ Inv u (n + [e].countP isAccept) (s.step e) ph' := by
  cases e with
  | accept sockfd script => exact h.newConnection hset hfew hpos script
  | poll loop ready => exact ⟨ph, hset, h.poll hpos.2.1 hpos.2.2⟩
  | handleEvent loop m r script =>
      show ∃ ph', Settled ph' ∧ Inv u n (s.step (.handleEvent loop m r script)) ph'
      simp only [TcpServer.step]
      cases hactive : s.active loop with
      | nil => exact ⟨ph, hset, h⟩
      | cons x rest =>
          obtain ⟨c, revents_⟩ := x
          obtain ⟨hpop, hidle⟩ := h.pop hactive
          obtain ⟨hest, hplain, k, hk, -⟩ :=
            h.active (show (c, revents_) ∈ s.active loop by rw [hactive]; simp)
          exact hpop.handleEvent hset hk hest hidle hplain m r script
  | run i r script =>
      obtain ⟨⟨L, c, f⟩, hi, hdone⟩ := hpos
      have hi : s.pending[i]? = some (L, c, f) := hi
      show ∃ ph', Settled ph' ∧ Inv u n (s.step (.run i r script)) ph'
      simp only [TcpServer.step, hi]
      exact h.run hset hi hdone r script
  | call caller x => exact ⟨ph, hset, h.call caller x⟩
  | destruct c => exact h.destruct hset (hmay c rfl) hpos

/-- A whole run.  `P` is what is known of its steps; whatever they destruct may be. -/
theorem Inv.exec {P : TcpServer κ → ServerEvent → Prop} (hP : ∀ s e, P s e → s.Possible e)
    (hmay : ∀ {n s ph c}, Inv u n s ph → Settled ph → P s (.destruct c) → u.mayDestruct c)
    (h : Inv u n s ph) (hset : Settled ph) {es : List ServerEvent}
    (hes : Run.AllSteps TcpServer.step P s es) (hfew : n + es.countP isAccept < 2 ^ 31) :
    ∃ ph', Settled ph' ∧ Inv u (n + es.countP isAccept) (Run.exec TcpServer.step s es) ph' := by
  induction es generalizing n s ph with
  | nil => exact ⟨ph, hset, h⟩
  | cons e es ih =>
      have hcount : (e :: es).countP isAccept = [e].countP isAccept + es.countP isAccept := by
        rw [← List.countP_append, List.singleton_append]
      rw [hcount] at hfew ⊢
      obtain ⟨ph', hset', h'⟩ := h.step hset (hP s e hes.1)
        (fun c hc => hmay h hset (hc ▸ hes.1)) (by omega)
      rw [← Nat.add_assoc]
      exact ih h' hset' hes.2 (by omega)

theorem inv_new (name_ : Bytes) (listenAddr : InetAddress) (loops_ : Nat)
    (connectionCallback_ : Nat → Bool → Option κ → Option κ)
    (messageCallback_ : Nat → Option κ → Option κ) (writeCompleteCallback_ : Bool)
    (huser : u.Keeps (new name_ listenAddr loops_ connectionCallback_ messageCallback_
      writeCompleteCallback_)) :
    Inv u 0 (new name_ listenAddr loops_ connectionCallback_ messageCallback_
      writeCompleteCallback_) fun _ => .destroyed where
  length := rfl
  phase := by simp [new]
  name := by simp [new]
  nextConnId_ := rfl
  ipPort_ := toIpPort_length listenAddr
  fds := by simp [new]
  channels_ := by simp [new]
  pending := by simp [new]
  active := by simp [new]
  nodup := by simp [new]
  failed := rfl
  user := huser

/-- A connection has been through its callbacks at most once and in order: it is announced
    when `connectEstablished` runs, it is down from the callback that says so, `closeCallback_`
    comes with that one, and `connectDestroyed` last. -/
structure Lifecycle (k : TcpConn κ) : Prop where
  order : k.callbacks <+:
    [.connectEstablished, .connection true, .connection false, .close, .connectDestroyed]
  up : .connection true ∈ k.callbacks ↔ .connectEstablished ∈ k.callbacks
  down : .connection false ∈ k.callbacks ↔ k.state_ = .kDisconnected
  close : .close ∈ k.callbacks ↔ .connection false ∈ k.callbacks

theorem InPhase.lifecycle {c : Nat} {k : TcpConn κ} {p : Phase} (h : s.InPhase u c k p)
    (hset : p.settled = true) : Lifecycle k := by
  have hstate := h.state
  have hcallbacks := h.callbacks
  cases p with
  | connecting =>
      have hstate : k.state_ = .kConnecting := hstate
      constructor <;> simp [hcallbacks, hstate, Phase.callbacks]
  | established =>
      have hup : k.state_ ≠ .kDisconnected := by
        rcases hstate with hstate | hstate <;> simp [hstate]
      constructor <;> simp [hcallbacks, hup, Phase.callbacks]
  | removing | destroying | destroyed =>
      have hstate : k.state_ = .kDisconnected := hstate
      constructor <;> simp [hcallbacks, hstate, Phase.callbacks]
  | _ => cases hset

/-- Whatever is accepted, called, reported and queued, in whatever order: no assertion fails,
    and every connection lives its life once. -/
theorem connection_lifecycle (name_ : Bytes) (listenAddr : InetAddress) (loops_ : Nat)
    (connectionCallback_ : Nat → Bool → Option κ → Option κ)
    (messageCallback_ : Nat → Option κ → Option κ) (writeCompleteCallback_ : Bool)
    (es : List ServerEvent)
    (hes : Run.AllSteps step Possible (new name_ listenAddr loops_ connectionCallback_
      messageCallback_ writeCompleteCallback_) es)
    (hfew : es.countP isAccept < 2 ^ 31) :
    (Run.exec step (new name_ listenAddr loops_ connectionCallback_ messageCallback_
        writeCompleteCallback_) es).failed = [] ∧
      ∀ k ∈ (Run.exec step (new name_ listenAddr loops_ connectionCallback_ messageCallback_
        writeCompleteCallback_) es).conns, Lifecycle k := by
  -- nothing needs to be known about contexts and destructors
  obtain ⟨ph, hset, hinv⟩ := Inv.exec (u := ⟨fun _ _ => True, fun _ => True⟩)
    (fun _ _ => id) (fun _ _ _ => trivial)
    (inv_new name_ listenAddr loops_ connectionCallback_ messageCallback_ writeCompleteCallback_
      ⟨fun _ _ => trivial, fun _ _ _ => trivial, fun _ _ _ => trivial⟩)
    (fun _ => rfl) hes (by omega)
  refine ⟨hinv.failed, fun k hk => ?_⟩
  obtain ⟨c, hc⟩ := List.mem_iff_getElem?.mp hk
  exact (hinv.phase hc).lifecycle (hset c)

/-- A client connects, sends a message that is answered, and hangs up. -/
def oneClient : List ServerEvent :=
  let quiet : Revents := ⟨false, false, false, false, false, false, false⟩
  let ok : WriteResult := .accepts 100
  [.accept 7 [], .run 0 ok [],
    .poll 1 [(0, { quiet with pollin := true })],
    .handleEvent 1 (.data (str "hello")) ok [(0, .send (str "hi") ok), (0, .forceClose)],
    .poll 1 [(0, { quiet with pollhup := true })],
    .handleEvent 1 (.data []) ok [(0, .shutdown)],
    .run 1 ok [], .call none (0, .forceClose), .run 0 ok [], .run 0 ok [], .destruct 0]

/-- A server with one I/O thread, on any address, whose callbacks keep the context. -/
def bridge : TcpServer Unit :=
  new (str "ZMQBridge") ⟨false, str "0.0.0.0", 10001, by decide⟩ 1 (fun _ _ k => k)
    (fun _ k => k) false

theorem connection_lifecycle_one_client :
    Run.AllSteps step Possible bridge oneClient ∧
      (∃ k ∈ (Run.exec step bridge oneClient).conns, k.callbacks.length = 5) ∧
      (Run.exec step bridge oneClient).failed = [] ∧
      ∀ k ∈ (Run.exec step bridge oneClient).conns, Lifecycle k :=
  ⟨by decide +kernel, by decide +kernel,
    connection_lifecycle _ _ _ _ _ _ oneClient (by decide +kernel) (by decide)⟩

end TcpServer
end DoubleTurnouts
