/-
  DoubleTurnouts.Node.Shutdown

  The end of `main`: `~llm_llm`, then `~StackFlow`, on a node whose event
  thread waits for events.  `Shutdown` adds to the node what the destructors
  handle besides: the event thread, and a record of the map entries that were
  used after they had been erased.

  The first destructor empties the task table and leaves the channels in
  place.  The second one joins the thread at the top of every round, and
  releases a channel through a function that erases the entry the round goes
  on to use.  With a channel left it uses an erased entry and throws in the
  next round; so a shutdown is clean only for a node without tasks and
  channels (`shutdown_clean_iff`).
-/
import Mathlib.Tactic
import DoubleTurnouts.Lib.Effect
import DoubleTurnouts.Node.Tables

namespace DoubleTurnouts

open Text Decimal Effect StackFlow

/-- Why a destructor does not get to its end: an exception of a call it makes, `join` on a
    thread that cannot be joined, or a `join` that never returns. -/
inductive Abort
  | exn (e : Exn)
  | system_error
  | blocked
  deriving DecidableEq, Repr

structure Shutdown where
  node : Node
  exit_flage_ : Bool
  /-- The `EVENT_NONE`s that wait in `event_queue_`. -/
  event_queue_ : Nat
  /-- `even_loop_thread_->joinable()`. -/
  joinable : Bool
  joins : Nat
  /-- The uses of entries of `llm_task_channel_` after their erasure. -/
  dangling : List Int

abbrev ShutdownM := EStateM Abort Shutdown

namespace Shutdown

/-- A node at rest: its thread runs and waits for an event. -/
def start (s : Node) : Shutdown := ⟨s, false, 0, true, 0, []⟩

def onNode {α : Type} (m : LlmM α) : ShutdownM α := fun s =>
  match m.run s.node with
  | .ok a node => .ok a { s with node := node }
  | .error e node => .error (.exn e) { s with node := node }

/-- `begin()`; `none` is `end()`. -/
def first {β : Type} (m : Map Int β) : Option Int := m.keys.head?

/-! ## The destructors -/

/-- A round of `~llm_llm`, and whether there is another one.  `stop` does nothing. -/
def llm_round : ShutdownM Bool := do
  match first (← get).node.self.llm_task_ with
  | none => pure false
  | some n =>
      let channel ← onNode (get_channel n)
      onNode (set_channel n (channel.stop_subscriber []))
      modify fun s => { s with node.self.llm_task_ := s.node.self.llm_task_.erase n }
      pure true

/-- `even_loop_thread_->join()`.  The loop of the thread is woken by an event and then reads the
    flag. -/
def join : ShutdownM Unit := do
  let s ← get
  if s.joinable then
    if s.exit_flage_ ∧ 0 < s.event_queue_ then
      set { s with joinable := false, joins := s.joins + 1, event_queue_ := 0 }
    else throw .blocked
  else throw .system_error

/-- The key behind the iterator to the entry of `n`: that of the entry while it is in the table,
    and whatever its memory holds once it has been erased. -/
def iteam (freed n : Int) : ShutdownM Int := do
  let s ← get
  if (s.node.llm_task_channel_.lookup n).isSome then pure n
  else
    set { s with dangling := s.dangling ++ [n] }
    pure freed

/-- A round of `~StackFlow`, and whether there is another one. -/
def stackFlow_round (freed : Int) : ShutdownM Bool := do
  modify fun s => { s with exit_flage_ := true, event_queue_ := s.event_queue_ + 1 }
  join
  match first (← get).node.llm_task_channel_ with
  | none => pure false
  | some n =>
      onNode (sys_release_unit n [])
      -- `iteam->second.reset()`
      let _ ← iteam freed n
      -- `llm_task_channel_.erase(iteam->first)`
      let key ← iteam freed n
      modify fun s =>
        { s with node.llm_task_channel_ := s.node.llm_task_channel_.erase key }
      pure true

/-- Both destructors, with fuel for the loop of each. -/
def destroy (freed : Int) (fuel fuel' : Nat) : ShutdownM Bool := do
  if ← loop llm_round fuel then loop (stackFlow_round freed) fuel' else pure false

/-- The shutdown of a node ends without an exception, joins the thread once, uses no erased
    entry, releases each channel once and leaves both tables empty. -/
def Clean (freed : Int) (s : Node) : Prop :=
  ∃ fuel fuel' s', (destroy freed fuel fuel').run (start s) = .ok true s' ∧
    s'.joins = 1 ∧ s'.dangling = [] ∧
    (s'.node.rpcs.drop s.rpcs.length).Perm
      (s.llm_task_channel_.keys.map fun n => releaseCall (sample_get_work_id n s.unit_name_)) ∧
    s'.node.llm_task_channel_ = ∅ ∧ s'.node.self.llm_task_ = ∅

/-! ## One round -/

theorem first_eq_none_iff {β : Type} {m : Map Int β} : first m = none ↔ m = ∅ := by
  unfold first
  rw [List.head?_eq_none_iff]
  constructor
  · intro h
    exact AList.ext (List.map_eq_nil_iff.mp h)
  · rintro rfl
    rfl

theorem lookup_first {β : Type} {m : Map Int β} {n : Int} (h : first m = some n) :
    (m.lookup n).isSome := by
  rw [AList.lookup_isSome, AList.mem_keys]
  exact List.mem_of_head? h

theorem eq_empty_iff {β : Type} {m : Map Int β} : m = ∅ ↔ ∀ n, (m.lookup n).isSome = false := by
  constructor
  · rintro rfl n
    rfl
  · intro h
    rw [← first_eq_none_iff]
    by_contra hne
    obtain ⟨n, hn⟩ := Option.ne_none_iff_exists'.mp hne
    have hkey := lookup_first hn
    rw [h n] at hkey
    cases hkey

/-- A task has been taken out, and the sockets of its channel are closed. -/
def taskStopped (s : Shutdown) (n : Int) (channel : Channel) : Shutdown :=
  { s with
    node := { s.node.withChannel n (channel.stop_subscriber []) with
      self.llm_task_ := s.node.self.llm_task_.erase n } }

theorem onNode_run {α : Type} (m : LlmM α) (s : Shutdown) :
    (onNode m).run s =
      match m.run s.node with
      | .ok a node => .ok a { s with node := node }
      | .error e node => .error (.exn e) { s with node := node } := rfl

theorem llm_round_run (s : Shutdown) :
    llm_round.run s =
      match first s.node.self.llm_task_ with
      | none => .ok false s
      | some n =>
          match s.node.llm_task_channel_.lookup n with
          | none => .error (.exn .out_of_range) s
          | some channel => .ok true (s.taskStopped n channel) := by
  unfold llm_round
  simp only [EStateM.run_bind, EStateM.run_get]
  cases first s.node.self.llm_task_ with
  | none => rfl
  | some n =>
      simp only [EStateM.run_bind, onNode_run, get_channel_run]
      cases s.node.llm_task_channel_.lookup n with
      | none => rfl
      | some channel => rfl

/-- The thread has been joined. -/
def joined (s : Shutdown) : Shutdown :=
  { s with exit_flage_ := true, event_queue_ := 0, joinable := false, joins := s.joins + 1 }

/-- A channel has been released, and its entry used twice after that. -/
def channelReleased (s : Shutdown) (freed n : Int) : Shutdown :=
  { s with
    node := { s.node.released n (sample_get_work_id n s.node.unit_name_) with
      llm_task_channel_ := (s.node.llm_task_channel_.erase n).erase freed }
    dangling := s.dangling ++ [n, n] }

theorem sys_release_number_run (n : Int) (s : Node) :
    (sys_release_unit n []).run s = .ok () (s.released n (sample_get_work_id n s.unit_name_)) := rfl

theorem iteam_erased (freed : Int) {n : Int} {s : Shutdown}
    (h : s.node.llm_task_channel_.lookup n = none) :
    (iteam freed n).run s = .ok freed { s with dangling := s.dangling ++ [n] } := by
  unfold iteam
  simp only [EStateM.run_bind, EStateM.run_get, h]
  rfl

theorem stackFlow_round_run (freed : Int) {s : Shutdown} (h : s.joinable = true) :
    (stackFlow_round freed).run s =
      match first s.node.llm_task_channel_ with
      | none => .ok false s.joined
      | some n => .ok true (s.joined.channelReleased freed n) := by
  have hjoin : join.run { s with exit_flage_ := true, event_queue_ := s.event_queue_ + 1 } =
      .ok () s.joined := by
    unfold join
    simp [h, joined]
  unfold stackFlow_round
  simp only [EStateM.run_bind, EStateM.run_modify, hjoin, EStateM.run_get]
  rw [show s.joined.node = s.node from rfl]
  cases first s.node.llm_task_channel_ with
  | none => rfl
  | some n =>
      -- `sys_release_unit` has erased the entry before the round uses it
      have herased : (s.node.llm_task_channel_.erase n).lookup n = none := AList.lookup_erase _ _
      simp only [EStateM.run_bind, onNode_run, sys_release_number_run]
      rw [iteam_erased freed herased]
      dsimp only
      rw [iteam_erased freed herased]
      simp [channelReleased, joined, released]

theorem stackFlow_round_joined (freed : Int) {s : Shutdown} (h : s.joinable = false) :
    (stackFlow_round freed).run s =
      .error .system_error
        { s with exit_flage_ := true, event_queue_ := s.event_queue_ + 1 } := by
  unfold stackFlow_round join
  simp [h]

/-! ## The first destructor -/

/-- Every task has its channel. -/
def InOrder (s : Node) : Prop :=
  ∀ n, (s.self.llm_task_.lookup n).isSome → (s.llm_task_channel_.lookup n).isSome

/-- What `~llm_llm` leaves as it is. -/
structure ChannelsLeft (s s' : Shutdown) : Prop where
  keys : ∀ n, (s'.node.llm_task_channel_.lookup n).isSome =
    (s.node.llm_task_channel_.lookup n).isSome
  rpcs : s'.node.rpcs = s.node.rpcs
  unit_name_ : s'.node.unit_name_ = s.node.unit_name_
  joinable : s'.joinable = s.joinable
  joins : s'.joins = s.joins
  dangling : s'.dangling = s.dangling

theorem ChannelsLeft.refl (s : Shutdown) : ChannelsLeft s s :=
  ⟨fun _ => rfl, rfl, rfl, rfl, rfl, rfl⟩

theorem ChannelsLeft.empty_iff {s s' : Shutdown} (h : ChannelsLeft s s') :
    s'.node.llm_task_channel_ = ∅ ↔ s.node.llm_task_channel_ = ∅ := by
  rw [eq_empty_iff, eq_empty_iff]
  exact forall_congr' fun n => by rw [h.keys n]

theorem ChannelsLeft.taskStopped {s s' : Shutdown} (h : ChannelsLeft s s') {n : Int}
    {channel : Channel} (hlookup : s'.node.llm_task_channel_.lookup n = some channel) :
    ChannelsLeft s (s'.taskStopped n channel) := by
  refine ⟨fun m => ?_, h.rpcs, h.unit_name_, h.joinable, h.joins, h.dangling⟩
  rw [← h.keys m]
  show ((s'.node.llm_task_channel_.insert n _).lookup m).isSome = _
  rcases eq_or_ne m n with rfl | hne
  · rw [AList.lookup_insert, hlookup]
    rfl
  · rw [AList.lookup_insert_ne hne]

theorem ChannelsLeft.llm_round {s s1 s2 : Shutdown} (h : ChannelsLeft s s1) {b : Bool}
    (hrun : llm_round.run s1 = .ok b s2) : ChannelsLeft s s2 := by
  rw [llm_round_run] at hrun
  split at hrun
  · cases hrun
    exact h
  · split at hrun
    · cases hrun
    · next hlookup =>
        cases hrun
        exact h.taskStopped hlookup

/-- If every task has its channel, `~llm_llm` comes to its end and has taken out every task. -/
theorem llm_dtor_ends {s : Shutdown} (h : InOrder s.node) :
    ∃ fuel s', (loop llm_round fuel).run s = .ok true s' ∧
      ChannelsLeft s s' ∧ s'.node.self.llm_task_ = ∅ := by
  -- a round takes out one task, and the other tasks keep their channels
  let I : Shutdown → Prop := fun s' => ChannelsLeft s s' ∧ InOrder s'.node
  refine loop_ends (I := I) (fun s' => Map.size s'.node.self.llm_task_) ?_ ⟨.refl s, h⟩
  rintro s' ⟨hleft, horder⟩
  rw [llm_round_run]
  cases hfirst : first s'.node.self.llm_task_ with
  | none => exact .inl ⟨s', rfl, hleft, first_eq_none_iff.mp hfirst⟩
  | some n =>
      obtain ⟨channel, hlookup⟩ := Option.isSome_iff_exists.mp (horder n (lookup_first hfirst))
      simp only [hlookup]
      have hleft' := hleft.taskStopped hlookup
      have htasks : (s'.taskStopped n channel).node.self.llm_task_ =
          s'.node.self.llm_task_.erase n := rfl
      refine .inr ⟨_, rfl, ⟨hleft', ?_⟩, Map.size_erase_lt (lookup_first hfirst)⟩
      intro m hm
      have hne : m ≠ n := by
        rintro rfl
        rw [htasks, AList.lookup_erase] at hm
        cases hm
      rw [htasks, AList.lookup_erase_ne hne] at hm
      rw [hleft'.keys, ← hleft.keys]
      exact horder m hm

/-! ## The second destructor -/

/-- A node without channels: the thread is joined, and that is all. -/
theorem stackFlow_dtor_empty (freed : Int) {s : Shutdown} (hjoinable : s.joinable = true)
    (h : s.node.llm_task_channel_ = ∅) :
    (loop (stackFlow_round freed) 1).run s = .ok true s.joined := by
  rw [loop_succ_run, stackFlow_round_run freed hjoinable, first_eq_none_iff.mpr h]

/-- A node with channels: one of them is released, its entry is used after that, and the second
    `join` throws. -/
theorem stackFlow_dtor_live (freed : Int) {s : Shutdown} (hjoinable : s.joinable = true) {n : Int}
    (h : first s.node.llm_task_channel_ = some n) (fuel : Nat) :
    ∃ s', (loop (stackFlow_round freed) (fuel + 2)).run s = .error .system_error s' ∧
      s'.joins = s.joins + 1 ∧ s'.dangling = s.dangling ++ [n, n] ∧
      s'.node.rpcs = s.node.rpcs ++ [releaseCall (sample_get_work_id n s.node.unit_name_)] := by
  have hjoined : (s.joined.channelReleased freed n).joinable = false := rfl
  refine ⟨{ s.joined.channelReleased freed n with exit_flage_ := true, event_queue_ := 1 }, ?_,
    rfl, rfl, rfl⟩
  rw [loop_succ_run, stackFlow_round_run freed hjoinable, h]
  dsimp only
  rw [loop_succ_run, stackFlow_round_joined freed hjoined]
  rfl

theorem channels_empty_of_dtor {freed : Int} {s s' : Shutdown} (hjoinable : s.joinable = true)
    {fuel : Nat} (h : (loop (stackFlow_round freed) fuel).run s = .ok true s') :
    s.node.llm_task_channel_ = ∅ := by
  rw [← first_eq_none_iff]
  cases hfirst : first s.node.llm_task_channel_ with
  | none => rfl
  | some n =>
      match fuel with
      | 0 => cases h
      | 1 =>
          rw [loop_succ_run, stackFlow_round_run freed hjoinable, hfirst] at h
          cases h
      | fuel + 2 =>
          obtain ⟨s2, hthrows, -⟩ := stackFlow_dtor_live freed hjoinable hfirst fuel
          rw [hthrows] at h
          cases h

/-! ## The shutdown -/

theorem destroy_run (freed : Int) (fuel fuel' : Nat) (s : Shutdown) :
    (destroy freed fuel fuel').run s =
      match (loop llm_round fuel).run s with
      | .ok true s' => (loop (stackFlow_round freed) fuel').run s'
      | .ok false s' => .ok false s'
      | .error e s' => .error e s' := by
  unfold destroy
  rw [EStateM.run_bind]
  match (loop llm_round fuel).run s with
  | .ok true _ => rfl
  | .ok false _ => rfl
  | .error _ _ => rfl

/-- A shutdown that ends well began with empty tables. -/
theorem tables_empty_of_destroy {freed : Int} {fuel fuel' : Nat} {s : Node} {s' : Shutdown}
    (h : (destroy freed fuel fuel').run (start s) = .ok true s') :
    s.llm_task_channel_ = ∅ ∧ s.self.llm_task_ = ∅ := by
  rw [destroy_run] at h
  cases hloop : (loop llm_round fuel).run (start s) with
  | error e s1 =>
      rw [hloop] at h
      cases h
  | ok ended s1 =>
      rw [hloop] at h
      cases ended with
      | false => cases h
      | true =>
          have hleft : ChannelsLeft (start s) s1 :=
            loop_keeps (fun _ _ _ hl hrun => hl.llm_round hrun) (.refl _) hloop
          have hchannels : s.llm_task_channel_ = ∅ :=
            hleft.empty_iff.mp (channels_empty_of_dtor hleft.joinable h)
          refine ⟨hchannels, ?_⟩
          -- a task would have made `get_channel` throw in the first round
          rw [← first_eq_none_iff]
          by_contra hne
          obtain ⟨n, hn⟩ := Option.ne_none_iff_exists'.mp hne
          cases fuel with
          | zero => cases hloop
          | succ fuel =>
              rw [loop_succ_run, llm_round_run,
                show first (start s).node.self.llm_task_ = some n from hn] at hloop
              simp only [show (start s).node.llm_task_channel_ = ∅ from hchannels,
                AList.lookup_empty] at hloop
              cases hloop

/-- A node in order that has channels: its tasks are taken out, one channel is released, and
    then the destructor fails. -/
theorem shutdown_live (freed : Int) {s : Node} (horder : InOrder s)
    (hlive : s.llm_task_channel_ ≠ ∅) :
    ∃ n, (s.llm_task_channel_.lookup n).isSome ∧
      ∃ fuel fuel' s', (destroy freed fuel fuel').run (start s) = .error .system_error s' ∧
        s'.joins = 1 ∧ s'.dangling = [n, n] ∧
        s'.node.rpcs = s.rpcs ++ [releaseCall (sample_get_work_id n s.unit_name_)] := by
  obtain ⟨fuel, s1, hllm, hleft, -⟩ := llm_dtor_ends (s := start s) horder
  have hlive1 : first s1.node.llm_task_channel_ ≠ none := by
    rw [Ne, first_eq_none_iff, hleft.empty_iff]
    exact hlive
  obtain ⟨n, hn⟩ := Option.ne_none_iff_exists'.mp hlive1
  obtain ⟨s', hthrows, hjoins, hdangling, hrpcs⟩ :=
    stackFlow_dtor_live freed hleft.joinable hn 0
  have hkey : (s.llm_task_channel_.lookup n).isSome := (hleft.keys n).symm.trans (lookup_first hn)
  refine ⟨n, hkey, fuel, 2, s', ?_, ?_, ?_, ?_⟩
  · rw [destroy_run, hllm]
    exact hthrows
  · rw [hjoins, hleft.joins]
    rfl
  · rw [hdangling, hleft.dangling]
    rfl
  · rw [hrpcs, hleft.rpcs, hleft.unit_name_]
    rfl

/-- The shutdown of a node is clean if and only if it has neither channels nor tasks.  If it has
    channels, and one for every task, one of them is released, its entry is used after that, and
    the second `join` throws. -/
theorem shutdown_clean_iff (freed : Int) (s : Node) :
    (Clean freed s ↔ s.llm_task_channel_ = ∅ ∧ s.self.llm_task_ = ∅) ∧
    (InOrder s → s.llm_task_channel_ ≠ ∅ → ∃ n, (s.llm_task_channel_.lookup n).isSome ∧
      ∃ fuel fuel' s', (destroy freed fuel fuel').run (start s) = .error .system_error s' ∧
        s'.joins = 1 ∧ s'.dangling = [n, n] ∧
        s'.node.rpcs = s.rpcs ++ [releaseCall (sample_get_work_id n s.unit_name_)]) := by
  refine ⟨?_, shutdown_live freed⟩
  constructor
  · rintro ⟨fuel, fuel', s', hrun, -⟩
    exact tables_empty_of_destroy hrun
  · rintro ⟨hchannels, htasks⟩
    have hllm : (loop llm_round 1).run (start s) = .ok true (start s) := by
      rw [loop_succ_run, llm_round_run,
        show first (start s).node.self.llm_task_ = none from first_eq_none_iff.mpr htasks]
    refine ⟨1, 1, (start s).joined, ?_, rfl, rfl, ?_, hchannels, htasks⟩
    · rw [destroy_run, hllm]
      exact stackFlow_dtor_empty freed rfl hchannels
    · rw [hchannels]
      simp [joined, start, AList.keys_empty]

/-- The node after one setup. -/
def oneTask : NodeProcess :=
  Run.exec (NodeProcess.step (configEnv .emit)) .initial [setupRequest.event]

theorem shutdown_one_task_fails :
    oneTask.alive = true ∧ oneTask.node.llm_task_channel_.keys = [0] ∧ ¬ Clean 0 oneTask.node := by
  have hkeys : oneTask.node.llm_task_channel_.keys = [0] := by decide +kernel
  refine ⟨by decide +kernel, hkeys, ?_⟩
  rintro ⟨fuel, fuel', s', hrun, -⟩
  rw [(tables_empty_of_destroy hrun).1] at hkeys
  cases hkeys

end Shutdown

end DoubleTurnouts
