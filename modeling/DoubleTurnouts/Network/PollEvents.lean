/-
  DoubleTurnouts.Network.PollEvents

  `network::Poller::poll` over the registrations of `Network.Poller`.  The
  kernel writes what is ready into `events_`, which has room for so many
  events; `fillActiveChannels` takes the channels from the pointers the kernel
  was given when they were registered; and a poll that has filled `events_`
  doubles it.

  The room therefore is no more than twice what was ever registered, and
  grows fast enough that a kernel which serves the ready fds in turn reports
  each of them after logarithmically many polls.
-/
import Mathlib.Tactic
import DoubleTurnouts.Lib.Run
import DoubleTurnouts.Network.Poller

namespace DoubleTurnouts

/-- `EPOLLERR`. -/
def EPOLLERR : BitVec 32 := 0x008
/-- `EPOLLHUP`. -/
def EPOLLHUP : BitVec 32 := 0x010

/-- The assertions of `fillActiveChannels`. -/
inductive FillAssert
  | numEvents
  | channels_
  deriving DecidableEq, Repr

/-- What `epoll_wait` returns: the fds that are ready, with their events, or an error. -/
inductive WaitResult
  | ready (events : List (Int × BitVec 32))
  | error (savedErrno : Int)
  deriving DecidableEq, Repr

variable {κ : Type}

/-- A poller with `events_`, of which the size counts, the channels that the last poll gave with
    their `revents_`, and the assertions that did not hold. -/
structure EventPoller (κ : Type) where
  poller : Poller κ
  events_ : Nat
  activeChannels : List (κ × BitVec 32)
  failed : List FillAssert

/-- A call on a channel, or a poll. -/
inductive PollerEvent (κ : Type)
  | call (c : κ) (op : PollCall)
  | poll (result : WaitResult)
  deriving DecidableEq, Repr

/-- `kInitEventListSize`. -/
def kInitEventListSize : Nat := 16

namespace EventPoller

/-- The constructor. -/
def new : EventPoller κ where
  poller := .new
  events_ := kInitEventListSize
  activeChannels := []
  failed := []

/-- `assert(p)`. -/
def check (s : EventPoller κ) (a : FillAssert) (p : Prop) [Decidable p] : EventPoller κ :=
  { s with failed := s.failed ++ if p then [] else [a] }

/-- What the kernel writes into `events_`: for each fd the `data.ptr` of its registration. -/
def written (s : EventPoller κ) (events : List (Int × BitVec 32)) : List (κ × BitVec 32) :=
  events.filterMap fun x => (s.poller.epoll x.1).map fun event => (event.1, x.2)

section Steps

variable [DecidableEq κ] (fd : κ → Int)

/-- One round of the loop in `fillActiveChannels`. -/
def fillActiveChannel (s : EventPoller κ) (event : κ × BitVec 32) : EventPoller κ :=
  let s := s.check .channels_ (s.poller.channels_ (fd event.1) = some event.1)
  { s with activeChannels := s.activeChannels ++ [event] }

def fillActiveChannels (s : EventPoller κ) (events : List (κ × BitVec 32)) : EventPoller κ :=
  let s := s.check .numEvents (events.length ≤ s.events_)
  events.foldl (fillActiveChannel fd) s

/-- `poll`, into the list that the loop has cleared. -/
def poll (s : EventPoller κ) (result : WaitResult) : EventPoller κ :=
  let s := { s with activeChannels := [] }
  match result with
  | .ready events =>
      let written := s.written events
      if 0 < written.length then
        let s := s.fillActiveChannels fd written
        if written.length = s.events_ then { s with events_ := s.events_ * 2 } else s
      else s
  -- only logged
  | .error _ => s

def step (s : EventPoller κ) : PollerEvent κ → EventPoller κ
  | .call c op => { s with poller := s.poller.step fd (c, op) }
  | .poll result => s.poll fd result

/-- What `epoll_wait` promises: it writes no more events than there is room for, at most one for a
    registered fd, and of events those that were asked for, or an error or a hangup. -/
def Reported (s : EventPoller κ) : WaitResult → Prop
  | .ready events =>
      events.length ≤ s.events_ ∧ (events.map Prod.fst).Nodup ∧
        ∀ x ∈ events, ∃ event ∈ s.poller.epoll x.1,
          x.2 &&& ~~~ (event.2 ||| EPOLLERR ||| EPOLLHUP) = 0
  | .error _ => True

instance (s : EventPoller κ) (result : WaitResult) : Decidable (s.Reported result) := by
  cases result <;> unfold Reported <;> infer_instance

/-- The calls are those that `Network.Poller` admits, and the polls keep the promise. -/
def Admissible (s : EventPoller κ) : PollerEvent κ → Prop
  | .call c op => s.poller.Admissible fd (c, op)
  | .poll result => s.Reported result

instance [Fintype κ] (s : EventPoller κ) (e : PollerEvent κ) : Decidable (s.Admissible fd e) := by
  cases e <;> unfold Admissible <;> infer_instance

end Steps

/-! ## What a poll gives -/

/-- A channel that a poll may give. -/
structure Active (s : EventPoller κ) (fd : κ → Int) (x : κ × BitVec 32) : Prop where
  index : (s.poller.channel x.1).index_ = .kAdded
  channels_ : s.poller.channels_ (fd x.1) = some x.1
  events : ∃ mask, s.poller.lastUpdate x.1 = some mask ∧
    x.2 &&& ~~~ (mask ||| EPOLLERR ||| EPOLLHUP) = 0

variable {fd : κ → Int} {s : EventPoller κ}

/-- The pointers the kernel has written are those of channels that are in the poller, one for each
    event. -/
theorem written_eq (h : s.poller.Inv fd) {events : List (Int × BitVec 32)}
    (hevents : ∀ x ∈ events, ∃ event ∈ s.poller.epoll x.1,
      x.2 &&& ~~~ (event.2 ||| EPOLLERR ||| EPOLLHUP) = 0) :
    (s.written events).map (fun x => (fd x.1, x.2)) = events ∧
      ∀ x ∈ s.written events, s.Active fd x := by
  induction events with
  | nil => exact ⟨rfl, by simp [written]⟩
  | cons x events ih =>
      obtain ⟨hmap, hactive⟩ := ih fun y hy => hevents y (List.mem_cons_of_mem _ hy)
      obtain ⟨⟨c, mask⟩, hevent, hmask⟩ := hevents x (List.mem_cons_self ..)
      have hevent : s.poller.epoll x.1 = some (c, mask) := hevent
      have hcons : s.written (x :: events) = (c, x.2) :: s.written events := by
        simp [written, hevent]
      obtain ⟨hreg, hfd⟩ := (h.epoll.entry x.1 c mask).mp hevent
      have hfd : fd c = x.1 := Option.some.inj hfd
      have hindex : (s.poller.channel c).index_ = .kAdded := by
        by_contra hne
        rw [Poller.registered, if_neg hne] at hreg
        cases hreg
      rw [hcons]
      refine ⟨?_, ?_⟩
      · rw [List.map_cons, hmap, hfd]
      · intro y hy
        rcases List.mem_cons.mp hy with rfl | hy
        · refine ⟨hindex, ?_, mask, ?_, hmask⟩
          · -- what is registered is in the map
            have hentry := (h.channels_.entry (fd c) c ()).mpr
              ⟨by simp [Poller.known, hindex], rfl⟩
            simpa using hentry
          · rw [Poller.registered, if_pos hindex] at hreg
            exact hreg
        · exact hactive y hy

variable [DecidableEq κ]

theorem fillActiveChannels_eq {events : List (κ × BitVec 32)} (hlen : events.length ≤ s.events_)
    (hevents : ∀ x ∈ events, s.poller.channels_ (fd x.1) = some x.1) :
    s.fillActiveChannels fd events =
      { s with activeChannels := s.activeChannels ++ events } := by
  have hfill : ∀ (events : List (κ × BitVec 32)) (t : EventPoller κ), t.poller = s.poller →
      (∀ x ∈ events, s.poller.channels_ (fd x.1) = some x.1) →
      events.foldl (fillActiveChannel fd) t =
        { t with activeChannels := t.activeChannels ++ events } := by
    intro events
    induction events with
    | nil => intro t _ _; simp
    | cons x events ih =>
        intro t ht hx
        have hstep : fillActiveChannel fd t x =
            { t with activeChannels := t.activeChannels ++ [x] } := by
          simp [fillActiveChannel, check, ht, hx x (List.mem_cons_self ..)]
        have hrest := ih { t with activeChannels := t.activeChannels ++ [x] } ht fun y hy =>
          hx y (List.mem_cons_of_mem _ hy)
        rw [List.foldl_cons, hstep, hrest]
        simp
  have hcheck : s.check .numEvents (events.length ≤ s.events_) = s := by simp [check, hlen]
  simp only [fillActiveChannels, hcheck]
  exact hfill events s rfl hevents

/-- A poll that keeps the promise gives the channels of what was reported, in the order it was, and
    doubles the room when it was filled. -/
theorem poll_ready (h : s.poller.Inv fd) {events : List (Int × BitVec 32)}
    (hevents : s.Reported (.ready events)) :
    s.poll fd (.ready events) = { s with
      activeChannels := s.written events
      events_ :=
        if 0 < events.length ∧ events.length = s.events_ then s.events_ * 2 else s.events_ } := by
  obtain ⟨hlen, -, hreg⟩ := hevents
  obtain ⟨hmap, hactive⟩ := written_eq h hreg
  have hlength : (s.written events).length = events.length := by
    simpa using congrArg List.length hmap
  have hwritten : EventPoller.written { s with activeChannels := [] } events = s.written events :=
    rfl
  have hfill := fillActiveChannels_eq (s := { s with activeChannels := [] })
    (hlength.trans_le hlen) fun x hx => (hactive x hx).channels_
  simp only [poll, hwritten, hfill, hlength, List.nil_append]
  by_cases hpos : 0 < events.length
  · by_cases hfull : events.length = s.events_
    · have hroom : 0 < s.events_ := hfull ▸ hpos
      simp [hfull, hroom]
    · simp [hpos, hfull]
  · have hnil : events = [] := List.length_eq_zero_iff.mp (by omega)
    simp [hnil, written]

/-! ## Runs -/

/-- What holds at any time. -/
structure Inv (fd : κ → Int) (s : EventPoller κ) : Prop where
  poller : s.poller.Inv fd
  events_ : ∃ k, s.events_ = kInitEventListSize * 2 ^ k
  failed : s.failed = []

theorem Inv.poll (h : Inv fd s) {result : WaitResult} (hresult : s.Reported result) :
    Inv fd (s.poll fd result) := by
  cases result with
  | error savedErrno => exact ⟨h.poller, h.events_, h.failed⟩
  | ready events =>
      rw [poll_ready h.poller hresult]
      refine ⟨h.poller, ?_, h.failed⟩
      obtain ⟨k, hk⟩ := h.events_
      dsimp only
      split
      · exact ⟨k + 1, by rw [hk, Nat.pow_succ, Nat.mul_assoc]⟩
      · exact ⟨k, hk⟩

theorem Inv.step (h : Inv fd s) {e : PollerEvent κ} (he : s.Admissible fd e) :
    Inv fd (s.step fd e) := by
  cases e with
  | call c op =>
      exact ⟨(Poller.step_channel h.poller (h.poller.alone he.1) op).1, h.events_, h.failed⟩
  | poll result => exact h.poll he

theorem exec_inv {es : List (PollerEvent κ)} (hes : Run.AllSteps (step fd) (Admissible fd) new es) :
    Inv fd (Run.exec (step fd) new es) :=
  Run.exec_invariant (I := Inv fd) (fun _ _ h he => h.step he)
    ⟨Poller.new_inv fd, ⟨0, rfl⟩, rfl⟩ hes

/-- No more than `n` fds are registered. -/
def AtMost (n : Nat) (s : EventPoller κ) : Prop :=
  ∀ fds : List Int, fds.Nodup → (∀ f ∈ fds, s.poller.epoll f ≠ none) → fds.length ≤ n

/-- The room is doubled only when that many fds were registered. -/
theorem events_step (h : Inv fd s) {e : PollerEvent κ} (he : s.Admissible fd e) {n : Nat}
    (hn : AtMost n s) (hroom : s.events_ ≤ max kInitEventListSize (2 * n)) :
    (s.step fd e).events_ ≤ max kInitEventListSize (2 * n) := by
  cases e with
  | call c op => exact hroom
  | poll result =>
      cases result with
      | error savedErrno => exact hroom
      | ready events =>
          show (s.poll fd (.ready events)).events_ ≤ _
          rw [poll_ready h.poller he]
          dsimp only
          split
          · rename_i hfull
            obtain ⟨-, hnodup, hreg⟩ := he
            have hlen := hn (events.map Prod.fst) hnodup fun f hf => by
              obtain ⟨x, hx, rfl⟩ := List.mem_map.mp hf
              obtain ⟨event, hevent, -⟩ := hreg x hx
              rw [show s.poller.epoll x.1 = some event from hevent]
              simp
            rw [List.length_map] at hlen
            omega
          · exact hroom

end EventPoller

/-- What the loop is given to handle.  After any run of calls on channels and of polls: no assertion
    of `fillActiveChannels` has failed; the last poll has given, for what the kernel reported and in
    that order, the channels that are in the poller with those fds, each once and with events it
    asked for, or an error or a hangup; the room for events is a power of two times the first one,
    and unless it is the first it is no more than twice the most fds that were ever registered. -/
theorem poll_gives_active [DecidableEq κ] (fd : κ → Int) (es : List (PollerEvent κ))
    (events : List (Int × BitVec 32))
    (hes : Run.AllSteps (EventPoller.step fd) (EventPoller.Admissible fd) .new
      (es ++ [.poll (.ready events)])) :
    let s := Run.exec (EventPoller.step fd) .new (es ++ [.poll (.ready events)])
    s.failed = [] ∧ s.activeChannels.map (fun x => (fd x.1, x.2)) = events ∧
      (s.activeChannels.map Prod.fst).Nodup ∧ (∀ x ∈ s.activeChannels, s.Active fd x) ∧
      (∃ k, s.events_ = kInitEventListSize * 2 ^ k) ∧
      ∀ n, Run.AllSteps (EventPoller.step fd) (fun s _ => s.AtMost n) .new
          (es ++ [.poll (.ready events)]) →
        s.events_ ≤ max kInitEventListSize (2 * n) := by
  intro s
  obtain ⟨hbefore, hlast⟩ := Run.AllSteps.append_iff.mp hes
  have h₀ := EventPoller.exec_inv hbefore
  have h := EventPoller.exec_inv hes
  have heq : s = EventPoller.poll fd (Run.exec (EventPoller.step fd) .new es) (.ready events) := by
    simp only [s, Run.exec_append]
    rfl
  have hreported := hlast.1
  have hactive : s.activeChannels =
      EventPoller.written (Run.exec (EventPoller.step fd) .new es) events := by
    rw [heq, EventPoller.poll_ready h₀.poller hreported]
  have hsame : s.poller = (Run.exec (EventPoller.step fd) .new es).poller := by
    rw [heq, EventPoller.poll_ready h₀.poller hreported]
  obtain ⟨hmap, hchannels⟩ := EventPoller.written_eq h₀.poller hreported.2.2
  rw [← hactive] at hmap hchannels
  refine ⟨h.failed, hmap, ?_, fun x hx => ?_, h.events_, fun n hn => ?_⟩
  · -- two channels of one fd would be two events of it
    have hnodup := hreported.2.1
    rw [← hmap, List.map_map] at hnodup
    refine List.Nodup.of_map fd ?_
    rw [List.map_map]
    exact hnodup
  · obtain ⟨hindex, hmem, hmask⟩ := hchannels x hx
    rw [← hsame] at hindex hmem hmask
    exact ⟨hindex, hmem, hmask⟩
  · have hend := Run.exec_invariant
      (I := fun s => EventPoller.Inv fd s ∧ s.events_ ≤ max kInitEventListSize (2 * n))
      (fun s e hs he => ⟨hs.1.step he.1, EventPoller.events_step hs.1 he.1 he.2 hs.2⟩)
      ⟨⟨Poller.new_inv fd, ⟨0, rfl⟩, rfl⟩, le_max_left _ _⟩ (hes.and hn)
    exact hend.2

/-- The fds of two channels. -/
def readyFds : Bool → Int := fun c => if c then 9 else 7

/-- Two channels are registered, for reading and for writing; both are ready, and one has hung
    up. -/
def readyEvents : List (PollerEvent Bool) := [.call false .enableReading, .call true .enableWriting]

theorem poll_gives_active_two :
    let s := Run.exec (EventPoller.step readyFds) .new
      (readyEvents ++ [.poll (.ready [(9, 0x014), (7, 0x001)])])
    s.activeChannels = [(true, 0x014), (false, 0x001)] ∧ s.failed = [] := by
  intro s
  have hgives := poll_gives_active readyFds readyEvents [(9, 0x014), (7, 0x001)]
    (by decide +kernel)
  exact ⟨by decide +kernel, hgives.1⟩

/-! ## Serving the ready fds in turn -/

namespace EventPoller

variable {fd : κ → Int} {s : EventPoller κ}

/-- The fds that are ready are registered, and wait for events they asked for. -/
structure Waiting (s : EventPoller κ) (rdllist : List (Int × BitVec 32)) : Prop where
  nodup : (rdllist.map Prod.fst).Nodup
  registered : ∀ x ∈ rdllist, ∃ event ∈ s.poller.epoll x.1,
    x.2 &&& ~~~ (event.2 ||| EPOLLERR ||| EPOLLHUP) = 0

theorem Waiting.reported {rdllist : List (Int × BitVec 32)} (h : s.Waiting rdllist) :
    s.Reported (.ready (rdllist.take s.events_)) :=
  ⟨List.length_take_le _ _, h.nodup.sublist ((List.take_sublist _ _).map _),
    fun x hx => h.registered x (List.mem_of_mem_take hx)⟩

variable [DecidableEq κ]

/-- One poll of a kernel that serves the fds that stay ready in turn: it reports as many as there is
    room for and puts them last. -/
def pollInTurn (fd : κ → Int) (s : EventPoller κ × List (Int × BitVec 32)) :
    EventPoller κ × List (Int × BitVec 32) :=
  (s.1.poll fd (.ready (s.2.take s.1.events_)), s.2.drop s.1.events_ ++ s.2.take s.1.events_)

theorem Waiting.pollInTurn {rdllist : List (Int × BitVec 32)} (hs : Inv fd s)
    (h : s.Waiting rdllist) :
    Inv fd (EventPoller.pollInTurn fd (s, rdllist)).1 ∧
      (EventPoller.pollInTurn fd (s, rdllist)).1.Waiting
        (EventPoller.pollInTurn fd (s, rdllist)).2 := by
  have hpoller : (s.poll fd (.ready (rdllist.take s.events_))).poller = s.poller := by
    rw [poll_ready hs.poller h.reported]
  have hperm : (rdllist.drop s.events_ ++ rdllist.take s.events_).Perm rdllist := by
    have hcomm : (rdllist.drop s.events_ ++ rdllist.take s.events_).Perm
        (rdllist.take s.events_ ++ rdllist.drop s.events_) := List.perm_append_comm
    rwa [List.take_append_drop] at hcomm
  refine ⟨hs.poll h.reported, (hperm.map _).nodup_iff.mpr h.nodup, fun x hx => ?_⟩
  show ∃ event ∈ (s.poll fd (.ready (rdllist.take s.events_))).poller.epoll x.1, _
  rw [hpoller]
  exact h.registered x (hperm.mem_iff.mp hx)

/-- The rooms of `k + 1` polls: the first one, and those of the `k` polls after it. -/
theorem rooms_succ (m k : Nat) : m * (2 ^ (k + 1) - 1) = m * 2 * (2 ^ k - 1) + m := by
  obtain ⟨j, hj⟩ := Nat.exists_eq_add_of_le (Nat.one_le_two_pow (n := k))
  have h1 : (1 + j) * 2 - 1 = 2 * j + 1 := by omega
  have h2 : 1 + j - 1 = j := by omega
  rw [Nat.pow_succ, hj, h1, h2]
  ring

/-- The fd at place `p` has been reported after `k` polls if the rooms of these polls, which double,
    come to more than `p`. -/
theorem reported_within {rdllist : List (Int × BitVec 32)} {x : Int × BitVec 32} {p k : Nat}
    (hs : Inv fd s) (h : s.Waiting rdllist) (hp : rdllist[p]? = some x)
    (hk : p < s.events_ * (2 ^ k - 1)) :
    ∃ i < k, ∃ c, (s.poller.channels_ x.1 = some c ∧ fd c = x.1) ∧
      (c, x.2) ∈ ((EventPoller.pollInTurn fd)^[i + 1] (s, rdllist)).1.activeChannels := by
  induction k generalizing s rdllist p with
  | zero => simp at hk
  | succ k ih =>
      rcases Nat.lt_or_ge p s.events_ with hlt | hge
      · -- it is among those that are reported next
        have hmem : x ∈ rdllist.take s.events_ :=
          List.mem_of_getElem? ((List.getElem?_take_of_lt hlt).trans hp)
        obtain ⟨hmap, hactive⟩ := written_eq hs.poller h.reported.2.2
        rw [← hmap] at hmem
        obtain ⟨⟨c, events⟩, hc, rfl⟩ := List.mem_map.mp hmem
        refine ⟨0, Nat.succ_pos k, c, ⟨(hactive _ hc).channels_, rfl⟩, ?_⟩
        show (c, events) ∈ (s.poll fd (.ready (rdllist.take s.events_))).activeChannels
        rw [poll_ready hs.poller h.reported]
        exact hc
      · -- the poll fills its room, and the fd moves up by as much
        obtain ⟨hs', h'⟩ := h.pollInTurn hs
        have hlen : p < rdllist.length := (List.getElem?_eq_some_iff.mp hp).1
        obtain ⟨j, hj⟩ := hs.events_
        have hpos : 0 < s.events_ := by
          rw [hj]
          exact Nat.mul_pos (by decide) (Nat.two_pow_pos j)
        have hfull : (rdllist.take s.events_).length = s.events_ := by
          rw [List.length_take]
          omega
        have hroom : (EventPoller.pollInTurn fd (s, rdllist)).1.events_ = s.events_ * 2 := by
          show (s.poll fd (.ready (rdllist.take s.events_))).events_ = _
          rw [poll_ready hs.poller h.reported]
          exact if_pos ⟨hfull.symm ▸ hpos, hfull⟩
        have hplace : (EventPoller.pollInTurn fd (s, rdllist)).2[p - s.events_]? = some x := by
          show (rdllist.drop s.events_ ++ rdllist.take s.events_)[p - s.events_]? = _
          rw [List.getElem?_append_left (by rw [List.length_drop]; omega), List.getElem?_drop,
            Nat.add_sub_cancel' hge, hp]
        have hless : p - s.events_ < s.events_ * 2 * (2 ^ k - 1) := by
          have hdouble := rooms_succ s.events_ k
          omega
        have hsame : (EventPoller.pollInTurn fd (s, rdllist)).1.poller = s.poller := by
          show (s.poll fd (.ready (rdllist.take s.events_))).poller = s.poller
          rw [poll_ready hs.poller h.reported]
        rw [← hroom] at hless
        obtain ⟨i, hi, c, hc, hmem⟩ := ih hs' h' hplace hless
        rw [hsame] at hc
        exact ⟨i + 1, by omega, c, hc, hmem⟩

end EventPoller

/-- No ready fd starves.  At any time in a run, let a kernel that serves the ready fds in turn have
    `n` of them, and let nobody change the registrations: after `k` polls, where `16 * (2 ^ k - 1)`
    is `n` at least, each of the fds has been reported, with the channel that `channels_` has for
    it. -/
theorem ready_reported_soon [DecidableEq κ] (fd : κ → Int) (es : List (PollerEvent κ))
    (rdllist : List (Int × BitVec 32)) (k : Nat)
    (hes : Run.AllSteps (EventPoller.step fd) (EventPoller.Admissible fd) .new es)
    (hready : (Run.exec (EventPoller.step fd) .new es).Waiting rdllist)
    (hk : rdllist.length ≤ kInitEventListSize * (2 ^ k - 1)) :
    ∀ x ∈ rdllist, ∃ i < k, ∃ c,
      ((Run.exec (EventPoller.step fd) .new es).poller.channels_ x.1 = some c ∧ fd c = x.1) ∧
      (c, x.2) ∈ ((EventPoller.pollInTurn fd)^[i + 1]
        (Run.exec (EventPoller.step fd) .new es, rdllist)).1.activeChannels := by
  intro x hx
  have h := EventPoller.exec_inv hes
  obtain ⟨p, hp⟩ := List.mem_iff_getElem?.mp hx
  refine EventPoller.reported_within h hready hp ?_
  obtain ⟨j, hj⟩ := h.events_
  have hlen : p < rdllist.length := (List.getElem?_eq_some_iff.mp hp).1
  have hroom : kInitEventListSize ≤ (Run.exec (EventPoller.step fd) .new es).events_ := by
    rw [hj]
    exact Nat.le_mul_of_pos_right _ (Nat.two_pow_pos j)
  calc p < rdllist.length := hlen
    _ ≤ kInitEventListSize * (2 ^ k - 1) := hk
    _ ≤ _ := Nat.mul_le_mul_right _ hroom

theorem ready_reported_soon_two :
    ∃ i < 1, ∃ c,
      ((Run.exec (EventPoller.step readyFds) .new readyEvents).poller.channels_ 7 = some c ∧
        readyFds c = 7) ∧
      (c, 0x001) ∈ ((EventPoller.pollInTurn readyFds)^[i + 1]
        (Run.exec (EventPoller.step readyFds) .new readyEvents,
          [(9, 0x014), (7, 0x001)])).1.activeChannels :=
  ready_reported_soon readyFds readyEvents [(9, 0x014), (7, 0x001)] 1 (by decide +kernel)
    ⟨by decide, by decide +kernel⟩ (by decide) (7, 0x001) (by decide)

end DoubleTurnouts
