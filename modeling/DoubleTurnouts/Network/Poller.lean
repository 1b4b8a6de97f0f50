/-
  DoubleTurnouts.Network.Poller

  `network::Poller` and the calls of `network::Channel` that end in it.  Three
  records are kept of a channel: its own `index_`, the poller's `channels_`
  and the kernel's interest list behind `epollfd_`.  They are written by
  different branches, according to the index before the call and to whether
  the new mask is empty.

  `rewritten` says what every branch comes to: the entry of one channel is
  written anew in all three places, in agreement.  The agreement of the whole
  tables (`Inv`) is then kept by `Slots.Fits`, over any number of channels.
-/
import Mathlib.Tactic
import DoubleTurnouts.Lib.Run
import DoubleTurnouts.Lib.Slots
import DoubleTurnouts.Network.TcpServer

namespace DoubleTurnouts

/-! ## The kernel's side -/

/-- The operations of `epoll_ctl`. -/
inductive EpollCtl
  | EPOLL_CTL_ADD
  | EPOLL_CTL_DEL
  | EPOLL_CTL_MOD
  deriving DecidableEq, Repr

variable {κ : Type}

/-- `epoll_ctl` on an interest list, which has for each registered fd the `data.ptr` and the
    `events` of the last call.  `none` is a call that is rejected: the addition of a registered
    fd (`EEXIST`), or a change or removal of one that is not (`ENOENT`). -/
def epoll_ctl (interest : Int → Option (κ × BitVec 32)) (operation : EpollCtl) (fd : Int)
    (event : κ × BitVec 32) : Option (Int → Option (κ × BitVec 32)) :=
  match operation, interest fd with
  | .EPOLL_CTL_ADD, none => some (Function.update interest fd (some event))
  | .EPOLL_CTL_MOD, some _ => some (Function.update interest fd (some event))
  | .EPOLL_CTL_DEL, some _ => some (Function.update interest fd none)
  | _, _ => none

theorem epoll_ctl_add {interest : Int → Option (κ × BitVec 32)} {fd : Int}
    (h : interest fd = none) (event : κ × BitVec 32) :
    epoll_ctl interest .EPOLL_CTL_ADD fd event
      = some (Function.update interest fd (some event)) := by
  simp only [epoll_ctl, h]

theorem epoll_ctl_mod {interest : Int → Option (κ × BitVec 32)} {fd : Int}
    (h : interest fd ≠ none) (event : κ × BitVec 32) :
    epoll_ctl interest .EPOLL_CTL_MOD fd event
      = some (Function.update interest fd (some event)) := by
  obtain ⟨old, hold⟩ := Option.ne_none_iff_exists'.mp h
  simp only [epoll_ctl, hold]

theorem epoll_ctl_del {interest : Int → Option (κ × BitVec 32)} {fd : Int}
    (h : interest fd ≠ none) (event : κ × BitVec 32) :
    epoll_ctl interest .EPOLL_CTL_DEL fd event = some (Function.update interest fd none) := by
  obtain ⟨old, hold⟩ := Option.ne_none_iff_exists'.mp h
  simp only [epoll_ctl, hold]

/-! ## Channels -/

/-- `Channel::EventType`. -/
def EventType.NoneEvent : BitVec 32 := 0
/-- `EPOLLIN`. -/
def EventType.ReadEvent : BitVec 32 := 0x001
/-- `EPOLLOUT`. -/
def EventType.WriteEvent : BitVec 32 := 0x004

/-- A `Channel` as the poller sees it, apart from its fd, which is constant. -/
structure PollChannel where
  events_ : BitVec 32
  index_ : PollIndex
  addedToLoop_ : Bool
  deriving DecidableEq, Repr

namespace PollChannel

/-- The channel its constructor makes. -/
def new : PollChannel where
  events_ := 0
  index_ := .kNew
  addedToLoop_ := false

def isNoneEvent (k : PollChannel) : Bool := k.events_ == EventType.NoneEvent

end PollChannel

/-- The calls of a channel that change its registration. -/
inductive PollCall
  | enableReading
  | disableReading
  | enableWriting
  | disableWriting
  | disableAll
  | remove
  deriving DecidableEq, Repr

/-- What a call does to `events_` before `update()`. -/
def PollCall.mask (events_ : BitVec 32) : PollCall → BitVec 32
  | .enableReading => events_ ||| EventType.ReadEvent
  | .disableReading => events_ &&& ~~~ EventType.ReadEvent
  | .enableWriting => events_ ||| EventType.WriteEvent
  | .disableWriting => events_ &&& ~~~ EventType.WriteEvent
  | .disableAll => EventType.NoneEvent
  | .remove => events_

/-- What a call comes to for the channel itself, the poller's answer included. -/
def PollChannel.call (k : PollChannel) (op : PollCall) : PollChannel :=
  let events := op.mask k.events_
  if op = .remove then ⟨events, .kNew, false⟩
  else if k.index_ = .kAdded ∧ events = EventType.NoneEvent then ⟨events, .kDeleted, true⟩
  else ⟨events, .kAdded, true⟩

theorem PollChannel.call_added_iff (k : PollChannel) (op : PollCall) :
    (k.call op).addedToLoop_ = true ↔ (k.call op).index_ ≠ .kNew := by
  simp only [PollChannel.call]
  split
  · simp
  · split <;> simp

/-! ## The poller -/

/-- A poller with the channels of its loop, `κ` being their addresses.  `epoll` is the kernel's
    interest list.  The rest is recorded for the statements: the mask at the last `update()` of
    a channel, the calls of `epoll_ctl` that were rejected, whether the process has ended in
    `LOG(FATAL)`, and the assertions that did not hold. -/
structure Poller (κ : Type) where
  channel : κ → PollChannel
  channels_ : Int → Option κ
  epoll : Int → Option (κ × BitVec 32)
  lastUpdate : κ → Option (BitVec 32)
  rejected : List (EpollCtl × Int)
  fatal : Bool
  failed : List ConnAssert

namespace Poller

/-- A new poller, and channels that have not been used. -/
def new : Poller κ where
  channel := fun _ => PollChannel.new
  channels_ := fun _ => none
  epoll := fun _ => none
  lastUpdate := fun _ => none
  rejected := []
  fatal := false
  failed := []

def check (s : Poller κ) (a : ConnAssert) (p : Prop) [Decidable p] : Poller κ :=
  { s with failed := s.failed ++ if p then [] else [a] }

section Calls

variable [DecidableEq κ] (fd : κ → Int)

def modifyChannel (s : Poller κ) (c : κ) (f : PollChannel → PollChannel) : Poller κ :=
  { s with channel := Function.update s.channel c (f (s.channel c)) }

def set_index (s : Poller κ) (c : κ) (idx : PollIndex) : Poller κ :=
  s.modifyChannel c fun k => { k with index_ := idx }

/-- A rejected removal is only logged, the other operations end the process. -/
def update (s : Poller κ) (operation : EpollCtl) (c : κ) : Poller κ :=
  match epoll_ctl s.epoll operation (fd c) (c, (s.channel c).events_) with
  | some epoll => { s with epoll := epoll }
  | none =>
      -- `LOG(ERROR)` for a removal, `LOG(FATAL)` otherwise
      let s := { s with rejected := s.rejected ++ [(operation, fd c)] }
      if operation = .EPOLL_CTL_DEL then s else { s with fatal := true }

def updateChannel (s : Poller κ) (c : κ) : Poller κ :=
  match (s.channel c).index_ with
  | .kNew =>
      -- a new one is added whatever its mask, also an empty one
      let s := s.check .updateChannel (s.channels_ (fd c) = none)
      let s := { s with channels_ := Function.update s.channels_ (fd c) (some c) }
      let s := s.set_index c .kAdded
      s.update fd .EPOLL_CTL_ADD c
  | .kDeleted =>
      -- the map has kept it, only the kernel's entry is gone
      let s := s.check .updateChannel (s.channels_ (fd c) = some c)
      let s := s.set_index c .kAdded
      s.update fd .EPOLL_CTL_ADD c
  | .kAdded =>
      let s := s.check .updateChannel (s.channels_ (fd c) = some c)
      if (s.channel c).isNoneEvent then
        let s := s.update fd .EPOLL_CTL_DEL c
        s.set_index c .kDeleted
      else s.update fd .EPOLL_CTL_MOD c

def removeChannel (s : Poller κ) (c : κ) : Poller κ :=
  let index := (s.channel c).index_
  let s := s.check .removeChannel
    (s.channels_ (fd c) = some c ∧ (s.channel c).isNoneEvent = true ∧
      (index = .kAdded ∨ index = .kDeleted))
  let s := { s with channels_ := Function.update s.channels_ (fd c) none }
  let s := if index = .kAdded then s.update fd .EPOLL_CTL_DEL c else s
  s.set_index c .kNew

/-! ### The calls of a channel -/

/-- A call that sets the mask and ends in `Channel::update`. -/
def channelUpdate (s : Poller κ) (c : κ) (events : BitVec 32) : Poller κ :=
  let s := s.modifyChannel c fun k => { k with events_ := events }
  let s := s.modifyChannel c fun k => { k with addedToLoop_ := true }
  let s := { s with lastUpdate := Function.update s.lastUpdate c (some events) }
  s.updateChannel fd c

/-- `Channel::remove`. -/
def channelRemove (s : Poller κ) (c : κ) : Poller κ :=
  let s := s.check .channelRemove ((s.channel c).isNoneEvent = true)
  let s := s.modifyChannel c fun k => { k with addedToLoop_ := false }
  s.removeChannel fd c

/-- One call; none is made once the process has ended. -/
def step (s : Poller κ) (call : κ × PollCall) : Poller κ :=
  if s.fatal then s
  else
    match call.2 with
    | .remove => s.channelRemove fd call.1
    | op => s.channelUpdate fd call.1 (op.mask (s.channel call.1).events_)

/-- What the callers keep to: an fd is not used for a channel while another one has it, from
    that one's first `update()` to its `remove()`; and `remove()` is called on a channel that
    has been updated before and has no events. -/
def Admissible (s : Poller κ) (call : κ × PollCall) : Prop :=
  (∀ c, c ≠ call.1 → fd c = fd call.1 → (s.channel c).addedToLoop_ = false) ∧
    (call.2 = .remove → s.lastUpdate call.1 ≠ none ∧ (s.channel call.1).isNoneEvent = true)

instance decidableAdmissible [Fintype κ] (s : Poller κ) (call : κ × PollCall) :
    Decidable (s.Admissible fd call) := by
  unfold Admissible
  infer_instance

end Calls

/-! ## The agreement of the three records -/

/-- The mask the kernel is to have of a channel. -/
def registered (s : Poller κ) (c : κ) : Option (BitVec 32) :=
  if (s.channel c).index_ = .kAdded then s.lastUpdate c else none

/-- The channels the map is to have. -/
def known (s : Poller κ) (c : κ) : Option Unit :=
  if (s.channel c).index_ = .kNew then none else some ()

section Agreement

variable (fd : κ → Int)

/-- The interest list and the map have their entry of each channel at its fd, and no others. -/
structure Inv (s : Poller κ) : Prop where
  epoll : Slots.Fits s.epoll s.registered fun c => some (fd c)
  channels_ : Slots.Fits (fun f => (s.channels_ f).map fun c => (c, ())) s.known
    fun c => some (fd c)
  added_iff : ∀ c, (s.channel c).addedToLoop_ = true ↔ (s.channel c).index_ ≠ .kNew
  updated : ∀ c, (s.channel c).index_ = .kAdded → s.lastUpdate c ≠ none
  rejected : s.rejected = []
  fatal : s.fatal = false

theorem new_inv : (new : Poller κ).Inv fd where
  epoll := ⟨by simp [new, registered, PollChannel.new], by simp [new, registered, PollChannel.new]⟩
  channels_ := ⟨by simp [new, known, PollChannel.new], by simp [new, known, PollChannel.new]⟩
  added_iff := by simp [new, PollChannel.new]
  updated := by simp [new, PollChannel.new]
  rejected := rfl
  fatal := rfl

/-- The agreement does not look at the assertions. -/
theorem Inv.of_failed {fd : κ → Int} {s : Poller κ} (h : s.Inv fd) (failed : List ConnAssert) :
    Inv fd { s with failed := failed } :=
  ⟨h.epoll, h.channels_, h.added_iff, h.updated, h.rejected, h.fatal⟩

/-- No other channel with the fd of `c` is in the poller. -/
def Alone (s : Poller κ) (c : κ) : Prop :=
  ∀ c', c' ≠ c → fd c' = fd c → (s.channel c').index_ = .kNew

variable {fd} {s : Poller κ} {c : κ}

theorem Inv.alone (h : s.Inv fd)
    (hfree : ∀ c', c' ≠ c → fd c' = fd c → (s.channel c').addedToLoop_ = false) :
    s.Alone fd c := by
  intro c' hne hfd
  by_contra hindex
  have hadded := (h.added_iff c').mpr hindex
  rw [hfree c' hne hfd] at hadded
  cases hadded

theorem Inv.epoll_eq (h : s.Inv fd) (halone : s.Alone fd c) :
    s.epoll (fd c) = (s.registered c).map fun m => (c, m) := by
  refine h.epoll.lookup rfl ?_
  intro c' hne hfd
  simp [registered, halone c' hne (Option.some.inj hfd)]

theorem Inv.channels_eq (h : s.Inv fd) (halone : s.Alone fd c) :
    s.channels_ (fd c) = if (s.channel c).index_ = .kNew then none else some c := by
  have hlookup := h.channels_.lookup (k := c) (j := fd c) rfl (by
    intro c' hne hfd
    simp [known, halone c' hne (Option.some.inj hfd)])
  cases hch : s.channels_ (fd c) with
  | none => simpa [hch, known] using hlookup
  | some c' =>
      rw [hch, known] at hlookup
      split at hlookup
      · cases hlookup
      · rename_i hindex
        rw [if_neg hindex]
        simpa using hlookup

/-- The kernel knows a channel that is `kAdded`. -/
theorem Inv.epoll_ne_none (h : s.Inv fd) (halone : s.Alone fd c)
    (hindex : (s.channel c).index_ = .kAdded) : s.epoll (fd c) ≠ none := by
  rw [h.epoll_eq halone, registered, if_pos hindex]
  simpa using h.updated c hindex

theorem Inv.epoll_eq_none (h : s.Inv fd) (halone : s.Alone fd c)
    (hindex : (s.channel c).index_ ≠ .kAdded) : s.epoll (fd c) = none := by
  rw [h.epoll_eq halone, registered, if_neg hindex]
  rfl

end Agreement

variable [DecidableEq κ] {fd : κ → Int} {s : Poller κ} {c : κ}

/-- The records of one channel written anew, to the values that go with its new index
    `k.index_` and its last mask `m`. -/
def rewritten (fd : κ → Int) (s : Poller κ) (c : κ) (k : PollChannel) (m : Option (BitVec 32)) :
    Poller κ :=
  { s with
    channel := Function.update s.channel c k
    channels_ := Function.update s.channels_ (fd c) (if k.index_ = .kNew then none else some c)
    epoll := Function.update s.epoll (fd c)
      ((if k.index_ = .kAdded then m else none).map fun m => (c, m))
    lastUpdate := Function.update s.lastUpdate c m }

theorem registered_rewritten (s : Poller κ) (c : κ) (k : PollChannel) (m : Option (BitVec 32)) :
    (s.rewritten fd c k m).registered
      = Function.update s.registered c (if k.index_ = .kAdded then m else none) := by
  funext c'
  by_cases hc : c' = c
  · subst hc
    simp [registered, rewritten]
  · simp [registered, rewritten, hc]

theorem known_rewritten (s : Poller κ) (c : κ) (k : PollChannel) (m : Option (BitVec 32)) :
    (s.rewritten fd c k m).known
      = Function.update s.known c (if k.index_ = .kNew then none else some ()) := by
  funext c'
  by_cases hc : c' = c
  · subst hc
    simp [known, rewritten]
  · simp [known, rewritten, hc]

/-- This keeps the agreement when the channel has its fd to itself. -/
theorem Inv.rewritten (h : s.Inv fd) (halone : s.Alone fd c) {k : PollChannel}
    {m : Option (BitVec 32)} (hadded : k.addedToLoop_ = true ↔ k.index_ ≠ .kNew)
    (hupdated : k.index_ = .kAdded → m ≠ none) : (s.rewritten fd c k m).Inv fd where
  epoll := by
    rw [registered_rewritten]
    refine h.epoll.rewrite rfl ?_ _
    intro c' hne hfd
    simp [registered, halone c' hne (Option.some.inj hfd)]
  channels_ := by
    have htable : (fun f => ((s.rewritten fd c k m).channels_ f).map fun c => (c, ()))
        = Function.update (fun f => (s.channels_ f).map fun c => (c, ())) (fd c)
          ((if k.index_ = .kNew then none else some ()).map fun v => (c, v)) := by
      funext f
      simp only [Poller.rewritten]
      by_cases hf : f = fd c
      · subst hf
        simp only [Function.update_self]
        split <;> rfl
      · simp only [Function.update_of_ne hf]
    rw [known_rewritten, htable]
    refine h.channels_.rewrite rfl ?_ _
    intro c' hne hfd
    simp [known, halone c' hne (Option.some.inj hfd)]
  added_iff := by
    intro c'
    by_cases hc : c' = c
    · subst hc
      simpa [Poller.rewritten] using hadded
    · simpa [Poller.rewritten, hc] using h.added_iff c'
  updated := by
    intro c'
    by_cases hc : c' = c
    · subst hc
      simpa [Poller.rewritten] using hupdated
    · simpa [Poller.rewritten, hc] using h.updated c'
  rejected := h.rejected
  fatal := h.fatal

/-! ## The branches of the code -/

/-- `Channel::update`.  A channel that is `kAdded` and has an empty mask goes to `kDeleted`,
    every other one to `kAdded`. -/
theorem channelUpdate_eq (h : s.Inv fd) (halone : s.Alone fd c) {op : PollCall}
    (hop : op ≠ .remove) :
    s.channelUpdate fd c (op.mask (s.channel c).events_)
      = s.rewritten fd c ((s.channel c).call op) (some (op.mask (s.channel c).events_)) := by
  have hchannels := h.channels_eq halone
  rw [PollChannel.call, if_neg hop]
  generalize op.mask (s.channel c).events_ = events
  cases hindex : (s.channel c).index_ with
  | kNew =>
      have hctl := epoll_ctl_add (h.epoll_eq_none halone (by simp [hindex])) (c, events)
      simp [channelUpdate, updateChannel, modifyChannel, set_index, check, update, rewritten,
        hindex, hchannels, hctl]
  | kDeleted =>
      -- the entry of the map is rewritten to what it is
      have hctl := epoll_ctl_add (h.epoll_eq_none halone (by simp [hindex])) (c, events)
      rw [if_neg (by simp [hindex])] at hchannels
      simp [channelUpdate, updateChannel, modifyChannel, set_index, check, update, rewritten,
        hindex, hctl, ← hchannels]
  | kAdded =>
      have hreg := h.epoll_ne_none halone hindex
      rw [if_neg (by simp [hindex])] at hchannels
      by_cases hnone : events = EventType.NoneEvent
      · have hctl := epoll_ctl_del hreg (c, EventType.NoneEvent)
        simp [channelUpdate, updateChannel, modifyChannel, set_index, check, update, rewritten,
          PollChannel.isNoneEvent, hindex, hctl, hnone, ← hchannels]
      · have hctl := epoll_ctl_mod hreg (c, events)
        simp [channelUpdate, updateChannel, modifyChannel, check, update, rewritten,
          PollChannel.isNoneEvent, hindex, hctl, hnone, ← hchannels]

/-- `Channel::remove`.  Without assertions it takes any channel out of the poller. -/
theorem channelRemove_eq (h : s.Inv fd) (halone : s.Alone fd c) :
    s.channelRemove fd c
      = { s.rewritten fd c ((s.channel c).call .remove) (s.lastUpdate c) with
          failed := s.failed ++
            (if (s.channel c).isNoneEvent = true then [] else [.channelRemove]) ++
            if (s.channel c).isNoneEvent = true ∧ (s.channel c).index_ ≠ .kNew then []
            else [.removeChannel] } := by
  have hchannels := h.channels_eq halone
  cases hindex : (s.channel c).index_ with
  | kNew =>
      -- neither the map nor the kernel has an entry, so clearing it changes nothing
      have hepoll := h.epoll_eq_none halone (by simp [hindex])
      have hkeep : Function.update s.epoll (fd c) none = s.epoll := by
        rw [← hepoll, Function.update_eq_self]
      rw [if_pos hindex] at hchannels
      simp [channelRemove, removeChannel, modifyChannel, set_index, check, rewritten,
        PollChannel.call, PollCall.mask, hindex, hchannels, hkeep]
  | kDeleted =>
      have hepoll := h.epoll_eq_none halone (by simp [hindex])
      have hkeep : Function.update s.epoll (fd c) none = s.epoll := by
        rw [← hepoll, Function.update_eq_self]
      rw [if_neg (by simp [hindex])] at hchannels
      simp [channelRemove, removeChannel, modifyChannel, set_index, check, rewritten,
        PollChannel.call, PollCall.mask, PollChannel.isNoneEvent, hindex, hchannels, hkeep]
  | kAdded =>
      have hctl := epoll_ctl_del (h.epoll_ne_none halone hindex) (c, (s.channel c).events_)
      rw [if_neg (by simp [hindex])] at hchannels
      simp [channelRemove, removeChannel, modifyChannel, set_index, check, update, rewritten,
        PollChannel.call, PollCall.mask, PollChannel.isNoneEvent, hindex, hctl, hchannels]

/-! ## Whole runs -/

theorem step_update (h : s.Inv fd) {op : PollCall} (hop : op ≠ .remove) :
    s.step fd (c, op) = s.channelUpdate fd c (op.mask (s.channel c).events_) := by
  rw [step, h.fatal, if_neg Bool.false_ne_true]
  cases op with
  | remove => exact absurd rfl hop
  | _ => rfl

theorem step_remove (h : s.Inv fd) : s.step fd (c, .remove) = s.channelRemove fd c := by
  rw [step, h.fatal, if_neg Bool.false_ne_true]

/-- One call on a channel that has its fd to itself: the agreement is kept, and the other
    channels stay as they are. -/
theorem step_channel (h : s.Inv fd) (halone : s.Alone fd c) (op : PollCall) :
    (s.step fd (c, op)).Inv fd ∧
      (s.step fd (c, op)).channel
        = Function.update s.channel c ((s.channel c).call op) := by
  have hadded := (s.channel c).call_added_iff op
  by_cases hop : op = .remove
  · subst hop
    rw [step_remove h, channelRemove_eq h halone]
    have hinv := h.rewritten (m := s.lastUpdate c) halone hadded (by simp [PollChannel.call])
    exact ⟨hinv.of_failed _, rfl⟩
  · rw [step_update h hop, channelUpdate_eq h halone hop]
    exact ⟨h.rewritten halone hadded (by simp), rfl⟩

/-- The assertions of an admissible call hold, but for the `remove()` of a channel that is not in
    the poller. -/
theorem step_failed (h : s.Inv fd) {call : κ × PollCall} (hcall : s.Admissible fd call)
    (hremove : call.2 = .remove → (s.channel call.1).addedToLoop_ = true) :
    (s.step fd call).failed = s.failed := by
  obtain ⟨c, op⟩ := call
  have halone : s.Alone fd c := h.alone hcall.1
  by_cases hop : op = .remove
  · subst hop
    obtain ⟨-, hnone⟩ := hcall.2 rfl
    have hindex := (h.added_iff c).mp (hremove rfl)
    rw [step_remove h, channelRemove_eq h halone]
    simp [hnone, hindex]
  · rw [step_update h hop, channelUpdate_eq h halone hop]
    rfl

theorem exec_inv {calls : List (κ × PollCall)}
    (hcalls : Run.AllSteps (step fd) (Admissible fd) new calls) :
    (Run.exec (step fd) new calls).Inv fd :=
  Run.exec_invariant (I := Inv fd)
    (fun _ call hs hcall => (step_channel hs (hs.alone hcall.1) call.2).1) (new_inv fd) hcalls

/-- No assertion fails when moreover `remove()` is called on channels in the poller only. -/
theorem exec_failed {calls : List (κ × PollCall)}
    (hcalls : Run.AllSteps (step fd) (Admissible fd) new calls)
    (hremove : Run.AllSteps (step fd)
      (fun s call => call.2 = .remove → (s.channel call.1).addedToLoop_ = true) new calls) :
    (Run.exec (step fd) new calls).failed = [] := by
  have hend := Run.exec_invariant (I := fun s : Poller κ => s.Inv fd ∧ s.failed = [])
    (fun s call hs hcall =>
      ⟨(step_channel hs.1 (hs.1.alone hcall.1.1) call.2).1,
        (step_failed hs.1 hcall.1 hcall.2).trans hs.2⟩) ⟨new_inv fd, rfl⟩ (hcalls.and hremove)
  exact hend.2

end Poller

/-- The poller's books match the kernel's.  After every sequence of calls on any channels, an fd
    being used for another channel only after `remove()` and `remove()` being called only on
    updated channels without events: the registered fds are those of the channels that are
    `kAdded`, each with the mask of the channel's last update; `channels_` has the channels that
    are `kAdded` or `kDeleted`, at their fds, and no others; and no call of `epoll_ctl` was
    rejected, so that `LOG(FATAL)` was not reached.  If moreover `remove()` is called on channels
    in the poller only, no assertion fails. -/
theorem poller_bookkeeping [DecidableEq κ] (fd : κ → Int) (calls : List (κ × PollCall))
    (hcalls : Run.AllSteps (Poller.step fd) (Poller.Admissible fd) .new calls) :
    let s := Run.exec (Poller.step fd) .new calls
    (∀ f c mask, s.epoll f = some (c, mask) ↔
        (s.channel c).index_ = .kAdded ∧ s.lastUpdate c = some mask ∧ fd c = f) ∧
      (∀ c, (s.channel c).index_ = .kAdded → ∃ mask, s.lastUpdate c = some mask) ∧
      (∀ f c, s.channels_ f = some c ↔
        ((s.channel c).index_ = .kAdded ∨ (s.channel c).index_ = .kDeleted) ∧ fd c = f) ∧
      s.rejected = [] ∧ s.fatal = false ∧
      (Run.AllSteps (Poller.step fd)
          (fun s call => call.2 = .remove → (s.channel call.1).addedToLoop_ = true) .new calls →
        s.failed = []) := by
  intro s
  have h : s.Inv fd := Poller.exec_inv hcalls
  refine ⟨?_, fun c hc => Option.ne_none_iff_exists'.mp (h.updated c hc), ?_, h.rejected, h.fatal,
    fun hremove => Poller.exec_failed hcalls hremove⟩
  · intro f c mask
    rw [h.epoll.entry, Poller.registered, Option.some.injEq]
    by_cases hc : (s.channel c).index_ = .kAdded
    · simp [hc]
    · simp [hc]
  · intro f c
    have hentry := h.channels_.entry f c ()
    rw [Poller.known, Option.some.injEq] at hentry
    have hmap : (s.channels_ f).map (fun c => (c, ())) = some (c, ()) ↔ s.channels_ f = some c := by
      simp
    rw [← hmap, hentry]
    cases hc : (s.channel c).index_ <;> simp

/-- Two channels with one fd and a third with its own: an empty first update, a removal from the
    interest list and a new addition, then the fd goes to the second channel, and the third one
    is removed twice. -/
def pollerCalls : List (Fin 3 × PollCall) :=
  [(0, .disableAll), (0, .enableReading), (2, .enableReading), (0, .enableWriting),
   (0, .disableAll), (0, .disableReading), (0, .enableWriting), (0, .disableWriting), (0, .remove),
   (1, .enableReading), (2, .disableReading), (2, .remove), (2, .remove), (1, .enableWriting)]

/-- The fds of these channels. -/
def pollerFds : Fin 3 → Int := fun c => if c = 2 then 9 else 7

theorem poller_bookkeeping_reused :
    (Run.exec (Poller.step pollerFds) .new pollerCalls).epoll 7 = some (1, 0x005) ∧
      (Run.exec (Poller.step pollerFds) .new pollerCalls).rejected = [] := by
  have hcalls : Run.AllSteps (Poller.step pollerFds) (Poller.Admissible pollerFds) .new
      pollerCalls := by
    decide +kernel
  obtain ⟨hepoll, -, -, hrejected, -⟩ := poller_bookkeeping pollerFds pollerCalls hcalls
  refine ⟨(hepoll 7 1 0x005).mpr ?_, hrejected⟩
  decide +kernel

end DoubleTurnouts
