/-
  DoubleTurnouts.Network.CallLog

  Whether a poller registers what has interest, read off the calls alone.  A
  `Stray` update is one that leaves the mask empty of a channel that is not
  registered, and that therefore registers it: without one, an fd is registered
  exactly while its mask is not empty.

  `logged` goes through a log of calls without the poller.  The poller agrees
  with it as long as no fd is used for two channels at a time (`exec_calls`).
-/
import Mathlib.Tactic
import DoubleTurnouts.Lib.Run
import DoubleTurnouts.Network.Poller

namespace DoubleTurnouts

namespace Poller

variable {κ : Type} [DecidableEq κ] (fd : κ → Int)

/-- An fd is not used for a channel while another one has it. -/
def Exclusive (s : Poller κ) (call : κ × PollCall) : Prop :=
  ∀ c, c ≠ call.1 → fd c = fd call.1 → (s.channel c).addedToLoop_ = false

/-- After an update the fd of the channel is registered if and only if its mask is not empty. -/
def Matches (s : Poller κ) (call : κ × PollCall) : Prop :=
  call.2 ≠ .remove →
    let s' := s.step fd call
    ((s'.epoll (fd call.1)).isSome = true ↔ (s'.channel call.1).isNoneEvent = false)

end Poller

/-! ## One call -/

namespace PollChannel

/-- An update that leaves the mask empty of a channel that is not registered. -/
def Stray (k : PollChannel) (op : PollCall) : Prop :=
  op ≠ .remove ∧ op.mask k.events_ = EventType.NoneEvent ∧ k.index_ ≠ .kAdded

instance (k : PollChannel) (op : PollCall) : Decidable (k.Stray op) := by
  unfold Stray
  infer_instance

theorem call_of_update (k : PollChannel) {op : PollCall} (hop : op ≠ .remove) :
    k.call op = ⟨op.mask k.events_,
      if k.index_ = .kAdded ∧ op.mask k.events_ = EventType.NoneEvent then .kDeleted else .kAdded,
      true⟩ := by
  simp only [call, if_neg hop]
  split <;> rfl

/-- Only a stray update registers a channel without interest, and none fails to register one with
    interest. -/
theorem call_added_iff_of_update (k : PollChannel) {op : PollCall} (hop : op ≠ .remove) :
    ((k.call op).index_ = .kAdded ↔ (k.call op).isNoneEvent = false) ↔ ¬ k.Stray op := by
  by_cases hnone : op.mask k.events_ = EventType.NoneEvent
  · by_cases hindex : k.index_ = .kAdded <;>
      simp [call, Stray, isNoneEvent, hop, hnone, hindex]
  · simp [call, Stray, isNoneEvent, hop, hnone]

/-- An update that leaves some interest registers the channel. -/
theorem call_index_of_mask {k : PollChannel} {op : PollCall} (hop : op ≠ .remove)
    (hmask : op.mask k.events_ ≠ EventType.NoneEvent) : (k.call op).index_ = .kAdded := by
  simp [call, hop, hmask]

end PollChannel

namespace Poller

variable {κ : Type} {fd : κ → Int} {s : Poller κ} {c : κ}

theorem Inv.isSome_iff (h : s.Inv fd) (halone : s.Alone fd c) :
    (s.epoll (fd c)).isSome = true ↔ (s.channel c).index_ = .kAdded := by
  by_cases hindex : (s.channel c).index_ = .kAdded
  · simpa [hindex, Option.isSome_iff_ne_none] using h.epoll_ne_none halone hindex
  · simp [hindex, h.epoll_eq_none halone hindex]

theorem matches_iff [DecidableEq κ] (h : s.Inv fd) (halone : s.Alone fd c) (op : PollCall) :
    s.Matches fd (c, op) ↔ ¬ (s.channel c).Stray op := by
  by_cases hop : op = .remove
  · simp [Matches, PollChannel.Stray, hop]
  · obtain ⟨hinv, hchannel⟩ := step_channel h halone op
    have hself : (s.step fd (c, op)).channel c = (s.channel c).call op := by
      rw [hchannel, Function.update_self]
    have halone' : (s.step fd (c, op)).Alone fd c := by
      intro c' hne hfd
      rw [hchannel, Function.update_of_ne hne]
      exact halone c' hne hfd
    rw [← (s.channel c).call_added_iff_of_update hop]
    simp only [Matches, ne_eq, hop, not_false_eq_true, true_imp_iff]
    rw [hinv.isSome_iff halone', hself]

end Poller

/-! ## A log of calls -/

/-- Channel `n` after the calls of a log. -/
def logged (log : List (Nat × PollCall)) (n : Nat) : PollChannel :=
  log.foldl (fun k call => if call.1 = n then k.call call.2 else k) .new

theorem logged_concat (log : List (Nat × PollCall)) (call : Nat × PollCall) (n : Nat) :
    logged (log ++ [call]) n
      = if call.1 = n then (logged log n).call call.2 else logged log n := by
  simp [logged]

/-- None of the calls that come after a log is a stray update. -/
def NoStray (log calls : List (Nat × PollCall)) : Prop :=
  Run.AllSteps (fun log call => log ++ [call])
    (fun log call => ¬ (logged log call.1).Stray call.2) log calls

theorem noStray_nil (log : List (Nat × PollCall)) : NoStray log [] := trivial

theorem noStray_cons (log : List (Nat × PollCall)) (call : Nat × PollCall)
    (calls : List (Nat × PollCall)) :
    NoStray log (call :: calls) ↔
      ¬ (logged log call.1).Stray call.2 ∧ NoStray (log ++ [call]) calls := Iff.rfl

namespace Poller

variable {ι : Type} [DecidableEq ι] {fd : ι × Nat → Int}

/-- The poller gone through the calls of one owner `i`, whose log it agrees with. -/
theorem exec_calls {s : Poller (ι × Nat)} {i : ι} {log calls : List (Nat × PollCall)}
    (h : s.Inv fd) (hlog : ∀ n, s.channel (i, n) = logged log n)
    (hfd : Run.AllSteps (step fd) (Exclusive fd) s
      (calls.map fun call => ((i, call.1), call.2))) :
    let s' := Run.exec (step fd) s (calls.map fun call => ((i, call.1), call.2))
    s'.Inv fd ∧ (∀ n, s'.channel (i, n) = logged (log ++ calls) n) ∧
      (∀ j, j ≠ i → ∀ n, s'.channel (j, n) = s.channel (j, n)) ∧
      (Run.AllSteps (step fd) (Matches fd) s (calls.map fun call => ((i, call.1), call.2)) ↔
        NoStray log calls) := by
  induction calls generalizing s log with
  | nil => exact ⟨h, by simpa using hlog, fun _ _ _ => rfl, Iff.rfl⟩
  | cons call calls ih =>
      have halone : s.Alone fd (i, call.1) := h.alone hfd.1
      obtain ⟨hinv, hchannel⟩ := step_channel h halone call.2
      have hlog' : ∀ n, (s.step fd ((i, call.1), call.2)).channel (i, n)
          = logged (log ++ [call]) n := by
        intro n
        rw [hchannel, logged_concat]
        by_cases hn : call.1 = n
        · subst hn
          rw [Function.update_self, if_pos rfl, hlog]
        · rw [Function.update_of_ne (by simp [Ne.symm hn]), if_neg hn, hlog]
      obtain ⟨hinv', hlog'', hother, hiff⟩ := ih hinv hlog' hfd.2
      refine ⟨hinv', by simpa using hlog'', ?_, ?_⟩
      · intro j hj n
        refine (hother j hj n).trans ?_
        rw [hchannel, Function.update_of_ne (by simp [hj])]
      · rw [noStray_cons, ← hiff, ← hlog, ← matches_iff h halone]
        exact Iff.rfl

end Poller

/-! ## Whole runs -/

namespace Poller

variable {κ : Type} [DecidableEq κ] {fd : κ → Int}

instance (s : Poller κ) (call : κ × PollCall) : Decidable (s.Matches fd call) := by
  unfold Matches
  infer_instance

/-- Channels whose fds differ are never in each other's way. -/
theorem exclusive_of_injective (hfd : Function.Injective fd) (s : Poller κ)
    (calls : List (κ × PollCall)) : Run.AllSteps (step fd) (Exclusive fd) s calls :=
  Run.AllSteps.of_invariant (I := fun _ => True) (P := fun _ _ => True) (fun _ _ _ _ => trivial)
    (fun _ _ _ _ _ hne heq => absurd (hfd heq) hne) trivial
    (Run.AllSteps.of_forall (P := fun _ => True) fun _ _ => trivial)

/-- Where updates match, a channel without interest is not registered. -/
theorem exec_interest {calls : List (κ × PollCall)}
    (hfd : Run.AllSteps (step fd) (Exclusive fd) .new calls)
    (hmatches : Run.AllSteps (step fd) (Matches fd) .new calls) (c : κ)
    (hnone : ((Run.exec (step fd) .new calls).channel c).isNoneEvent = true) :
    ((Run.exec (step fd) .new calls).channel c).index_ ≠ .kAdded := by
  have hend := Run.exec_invariant
    (I := fun s : Poller κ =>
      s.Inv fd ∧ ∀ c, (s.channel c).isNoneEvent = true → (s.channel c).index_ ≠ .kAdded)
    (fun s call hs hcall => by
      have halone := hs.1.alone hcall.1
      obtain ⟨hinv, hchannel⟩ := step_channel hs.1 halone call.2
      refine ⟨hinv, fun c => ?_⟩
      rw [hchannel]
      by_cases hc : c = call.1
      · subst hc
        rw [Function.update_self]
        by_cases hop : call.2 = .remove
        · intro _ hindex
          simp [hop, PollChannel.call] at hindex
        · have hstray := (matches_iff hs.1 halone call.2).mp hcall.2
          have hiff := ((s.channel call.1).call_added_iff_of_update hop).mpr hstray
          intro hnone hindex
          rw [hiff.mp hindex] at hnone
          cases hnone
      · rw [Function.update_of_ne hc]
        exact hs.2 c) ⟨new_inv fd, fun _ _ => by simp [new, PollChannel.new]⟩ (hfd.and hmatches)
  exact hend.2 c hnone

end Poller

end DoubleTurnouts
