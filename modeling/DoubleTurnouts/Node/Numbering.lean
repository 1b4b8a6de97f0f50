/-
  DoubleTurnouts.Node.Numbering

  The indices of streamed output.  The counter behind them is a static of
  `task_output`, so all tasks of the process count with it, and whoever
  finishes sets it back.

  An `Emission` is the node together with the calls every inference has made
  and the chunks that were sent for it.  `Inv` is the invariant: at most one
  inference has begun and not finished, and the counter is the number of its
  calls.  A call that comes while another inference is open gets an index that
  is not its own.
-/
import Mathlib.Tactic
import DoubleTurnouts.InfraController.SizedReader
import DoubleTurnouts.Node.ChunkText

namespace DoubleTurnouts

open Text Decimal Effect StackFlow Run

/-- A call of `task_output` by an inference of task `n`. -/
structure OutputCall (κ : Type) where
  inference : κ
  n : Int
  data : Bytes
  finish : Bool
  deriving DecidableEq, Repr

/-- Task `n` is set up and streams. -/
structure Node.Streams (n : Int) (s : Node) : Prop where
  task : ∃ task, s.self.llm_task_.lookup n = some task ∧ Utf8.Valid task.response_format_
  channel : ∃ channel, s.llm_task_channel_.lookup n = some channel ∧ channel.Ready ∧
    channel.enstream_ = true

instance (n : Int) (s : Node) : Decidable (Node.Streams n s) :=
  decidable_of_iff
    ((∃ task ∈ s.self.llm_task_.lookup n, Utf8.Valid task.response_format_) ∧
      ∃ channel ∈ s.llm_task_channel_.lookup n, channel.Ready ∧ channel.enstream_ = true)
    ⟨fun h => ⟨h.1, h.2⟩, fun h => ⟨h.task, h.channel⟩⟩

/-- The data of what was published. -/
def published (outs : List Out) : List Json := (outs.filter (·.kind = .pub)).map (·.body.data)

/-- The node, the calls each inference has made, and the chunks sent for it. -/
structure Emission (κ : Type) where
  node : Node
  calls : κ → List (Bytes × Bool)
  sent : κ → List Json

namespace Emission

variable {κ : Type} [DecidableEq κ]

def new (s : Node) : Emission κ := ⟨s, fun _ => [], fun _ => []⟩

def step (env : NodeEnv) (e : Emission κ) (c : OutputCall κ) : Emission κ :=
  let node := final (Llm.task_output env c.n c.data c.finish) e.node
  { node := node
    calls := Function.update e.calls c.inference (e.calls c.inference ++ [(c.data, c.finish)])
    sent := Function.update e.sent c.inference
      (e.sent c.inference ++ published (node.outs.drop e.node.outs.length)) }

/-- The calls of one inference in a sequence. -/
def callsOf (k : κ) (cs : List (OutputCall κ)) : List (Bytes × Bool) :=
  (cs.filter (·.inference = k)).map fun c => (c.data, c.finish)

/-- An inference makes calls that are not final and then one that is. -/
def IsInference (calls : List (Bytes × Bool)) : Prop :=
  calls = [] ∨ ∃ ts last, calls = outputCalls ts last

/-- The chunks sent for an inference have the indices 0, 1, .. and the flags of its calls. -/
def Delivered (e : Emission κ) (k : κ) : Prop := e.sent k = numbered 0 (e.calls k)

/-- A receiver has the whole output with the last chunk, and not before. -/
def Reassembled (e : Emission κ) (k : κ) : Prop :=
  ∀ ts last, e.calls k = outputCalls ts last →
    receive ∅ ((e.sent k).map Json.dump) =
      List.replicate ts.length (.ok (true, [])) ++ [.ok (false, ts.flatten)]

/-- An inference that has begun and not finished. -/
def Open (e : Emission κ) (k : κ) : Prop := ∃ c ∈ (e.calls k).getLast?, c.2 = false

instance (e : Emission κ) (k : κ) : Decidable (e.Open k) :=
  inferInstanceAs (Decidable (∃ c ∈ (e.calls k).getLast?, c.2 = false))

/-- nlohmann can encode the text. -/
def Sendable (env : NodeEnv) (c : OutputCall κ) : Prop :=
  c.finish = true ∨ env.mode = .emit ∨ Utf8.Valid c.data

instance (env : NodeEnv) (c : OutputCall κ) : Decidable (Sendable env c) :=
  inferInstanceAs (Decidable (_ ∨ _))

/-- The condition on a call: no other inference is open, the counter is not at its end, and the
    text can be sent. -/
def Alone (env : NodeEnv) (e : Emission κ) (c : OutputCall κ) : Prop :=
  (∀ k, e.Open k → k = c.inference) ∧ (e.calls c.inference).length < 2 ^ 31 ∧ Sendable env c

instance [Fintype κ] (env : NodeEnv) (e : Emission κ) (c : OutputCall κ) :
    Decidable (Alone env e c) :=
  inferInstanceAs (Decidable (_ ∧ _))

end Emission

/-! ## One call -/

/-- What a channel publishes is the given data, and its settings stay. -/
theorem Channel.send_published {env : NodeEnv} {channel channel' : Channel} {object : Bytes}
    {data error_msg : Json} {work_id : Bytes} {outs : List Out}
    (h : channel.send env object data error_msg work_id = .ok (channel', outs)) :
    published outs = [data] ∧ channel'.enstream_ = channel.enstream_ := by
  -- reading a slot changes the table only
  have hslot : ∀ (c : Channel) i, (c.slot i).2.enstream_ = c.enstream_ := by
    intro c i
    unfold slot
    split <;> rfl
  unfold Channel.send at h
  obtain ⟨error, -, h⟩ := exists_of_bind_eq_ok h
  obtain ⟨-, -, h⟩ := exists_of_bind_eq_ok h
  have hfirst := hslot channel (-1)
  cases hpub : channel.slot (-1) with
  | mk pub channel1 =>
      rw [hpub] at hfirst h
      cases pub with
      | none => cases h
      | some pub =>
          have hsecond := hslot channel1 (-2)
          simp only at h
          split at h
          · cases h
            refine ⟨?_, hsecond.trans hfirst⟩
            simp [published, List.filter_map, Function.comp_def]
          · cases h
            exact ⟨rfl, hfirst⟩

/-- With nlohmann's conversions a text that is not UTF-8 is not sent. -/
theorem Channel.send_invalid {env : NodeEnv} (hmode : env.mode = .convert) (channel : Channel)
    (object : Bytes) {data : Json} (hdata : ¬ ∀ s ∈ data.strings, Utf8.Valid s) :
    channel.send env object data LLM_NO_ERROR [] = .error .type_error := by
  have herror : env.error_msg LLM_NO_ERROR = .ok LLM_NO_ERROR := env.error_msg_string []
  unfold Channel.send
  rw [herror]
  simp only [Bind.bind, Except.bind]
  rw [NodeEnv.dump_convert hmode, if_neg]
  rw [OutBody.strings_valid_iff]
  rintro ⟨-, -, -, hvalid, -⟩
  exact hdata hvalid

/-- The texts of a chunk are UTF-8 exactly if its `delta` is. -/
theorem data_body_valid_iff (index : Int) (data : Bytes) (finish : Bool) :
    (∀ s ∈ (Llm.data_body index data finish).strings, Utf8.Valid s) ↔
      (finish = true ∨ Utf8.Valid data) := by
  have hkeys : Utf8.Valid (str "delta") ∧ Utf8.Valid (str "finish") ∧ Utf8.Valid (str "index") ∧
      Utf8.Valid [] := by decide +kernel
  obtain ⟨hdelta, hfinish, hindex, hnil⟩ := hkeys
  cases finish <;>
    simp [Llm.data_body, Json.strings, Json.memberStrings, hdelta, hfinish, hindex, hnil]

/-- Tasks that stream go on streaming, and the counter is as given. -/
structure Counted (count : Int) (s s' : Node) : Prop where
  streams : ∀ m, Node.Streams m s → Node.Streams m s'
  count : s'.self.count = count

theorem Counted.withChannel {s : Node} {n : Int} {channel : Channel} (hready : channel.Ready)
    (hstream : channel.enstream_ = true) (count : Int) (outs : List Out) :
    Counted count s
      { s.withChannel n channel with
        self.count := count
        outs := outs } := by
  refine ⟨fun m hm => ⟨hm.task, ?_⟩, rfl⟩
  rcases eq_or_ne m n with rfl | hne
  · exact ⟨channel, AList.lookup_insert _, hready, hstream⟩
  · obtain ⟨channel', hlookup, hrest⟩ := hm.channel
    refine ⟨channel', ?_, hrest⟩
    show (s.llm_task_channel_.insert n channel).lookup m = some channel'
    rw [AList.lookup_insert_ne hne]
    exact hlookup

namespace Emission

variable {κ : Type} {env : NodeEnv}

/-- A call of a task that streams: it takes the counter as its index, and its chunk is
    published if it can be encoded. -/
theorem task_output_streams (env : NodeEnv) {s : Node} {c : OutputCall κ} (h : Node.Streams c.n s) :
    Counted (if c.finish then 0 else wrap32 (s.self.count + 1)) s
        (final (Llm.task_output env c.n c.data c.finish) s) ∧
      (Sendable env c → published
        ((final (Llm.task_output env c.n c.data c.finish) s).outs.drop s.outs.length) =
          [Llm.data_body s.self.count c.data c.finish]) ∧
      (¬ Sendable env c → published
        ((final (Llm.task_output env c.n c.data c.finish) s).outs.drop s.outs.length) = []) := by
  obtain ⟨task, htask, hformat⟩ := h.task
  obtain ⟨channel, hchannel, hready, hstream⟩ := h.channel
  let count := if c.finish then 0 else wrap32 (s.self.count + 1)
  let data := Llm.data_body s.self.count c.data c.finish
  have hfinal : final (Llm.task_output env c.n c.data c.finish) s =
      final (Llm.channel_send env c.n task.response_format_ data)
        { s with self.count := count } := by
    unfold final
    rw [Llm.task_output_stream_run htask hchannel hstream]
  have hrun := @Llm.channel_send_run env { s with self.count := count } c.n channel hchannel
    task.response_format_ data
  have hsendable : Sendable env c ↔
      (env.mode = .convert → ∀ t ∈ data.strings, Utf8.Valid t) := by
    rw [data_body_valid_iff, Sendable]
    cases env.mode <;> simp
  rw [hfinal]
  by_cases hencodes : Sendable env c
  · obtain ⟨channel', outs, hok, hready'⟩ := hready.send env hformat (hsendable.mp hencodes)
    obtain ⟨hpublished, hstream'⟩ := Channel.send_published hok
    have hsend : final (Llm.channel_send env c.n task.response_format_ data)
          { s with self.count := count } =
        { s.withChannel c.n channel' with
          self.count := count
          outs := s.outs ++ outs } := by
      rw [final, hrun, hok]
      rfl
    rw [hsend]
    refine ⟨.withChannel hready' (hstream'.trans hstream) count _, fun _ => ?_, fun h => ?_⟩
    · simpa using hpublished
    · exact absurd hencodes h
  · -- the exception leaves the counter as the call has set it
    have hinvalid := hencodes
    rw [hsendable] at hinvalid
    push Not at hinvalid
    obtain ⟨hmode, t, ht, hbad⟩ := hinvalid
    have hsend : final (Llm.channel_send env c.n task.response_format_ data)
        { s with self.count := count } = { s with self.count := count } := by
      rw [final, hrun, Channel.send_invalid hmode channel _ fun h => hbad (h t ht)]
    rw [hsend]
    refine ⟨⟨fun m hm => ⟨hm.task, hm.channel⟩, rfl⟩, fun h => absurd h hencodes, fun _ => ?_⟩
    simp [published]

/-! ## The invariant -/

/-- At most one inference is open, and the counter is the number of its calls. -/
structure Inv (e : Emission κ) : Prop where
  one : ∀ k k', e.Open k → e.Open k' → k = k'
  busy : ∀ k, e.Open k → e.node.self.count = wrap32 (e.calls k).length
  idle : (∀ k, ¬ e.Open k) → e.node.self.count = 0
  length : ∀ k, (e.calls k).length ≤ 2 ^ 31

/-- What comes before another call of the same inference is not final. -/
theorem IsInference.not_final {xs rest : List (Bytes × Bool)} {c : Bytes × Bool}
    (h : IsInference (xs ++ c :: rest)) : ∀ x ∈ xs, x.2 = false := by
  rcases h with h | ⟨ts, last, h⟩
  · simp at h
  -- all but the last call of an inference are not final
  · have hinit := congrArg List.dropLast h
    rw [List.dropLast_append_cons, outputCalls, List.dropLast_concat] at hinit
    intro x hx
    have hmem : x ∈ ts.map (·, false) := by
      rw [← hinit]
      exact List.mem_append_left _ hx
    obtain ⟨t, -, rfl⟩ := List.mem_map.mp hmem
    rfl

/-- So an inference that goes on is open, or has yet to begin. -/
theorem calls_eq_nil {e : Emission κ} {k : κ} (hgoing : ∀ x ∈ e.calls k, x.2 = false)
    (hopen : ¬ e.Open k) : e.calls k = [] := by
  cases hlast : (e.calls k).getLast? with
  | none => exact List.getLast?_eq_none_iff.mp hlast
  | some c => exact absurd ⟨c, hlast, hgoing c (List.mem_of_getLast? hlast)⟩ hopen

theorem Open.calls_ne_nil {e : Emission κ} {k : κ} (h : e.Open k) : e.calls k ≠ [] := by
  obtain ⟨c, hlast, -⟩ := h
  intro hnil
  rw [hnil] at hlast
  cases hlast

/-- Up to 2^31 calls, the counter tells their number from 0, and from 2^31. -/
theorem wrap32_natCast_eq_iff {n : Nat} (h : n ≤ 2 ^ 31) : wrap32 n = n ↔ n < 2 ^ 31 := by
  rw [wrap32, Int.bmod_def]
  split <;> omega

theorem wrap32_natCast_ne_zero {n : Nat} (h : n ≤ 2 ^ 31) (hpos : n ≠ 0) : wrap32 n ≠ 0 := by
  rw [wrap32, Int.bmod_def]
  split <;> omega

/-- The counter is right for an inference if and only if no other one is open. -/
theorem Inv.count_eq_iff {e : Emission κ} (hinv : e.Inv) {k : κ}
    (hgoing : ∀ x ∈ e.calls k, x.2 = false) :
    e.node.self.count = (e.calls k).length ↔
      (∀ k', e.Open k' → k' = k) ∧ (e.calls k).length < 2 ^ 31 := by
  by_cases hk : e.Open k
  -- the open one is this one, and its own calls are what was counted
  · rw [hinv.busy k hk, wrap32_natCast_eq_iff (hinv.length k)]
    exact ⟨fun h => ⟨fun k' hk' => hinv.one k' k hk' hk, h⟩, fun h => h.2⟩
  · have hnil := calls_eq_nil hgoing hk
    rw [hnil]
    constructor
    · intro hzero
      refine ⟨fun k' hk' => ?_, by simp⟩
      -- another one that is open has been counted, and this one has yet to begin
      have hpos : (e.calls k').length ≠ 0 :=
        fun h => hk'.calls_ne_nil (List.length_eq_zero_iff.mp h)
      rw [hinv.busy k' hk'] at hzero
      exact absurd hzero (wrap32_natCast_ne_zero (hinv.length k') hpos)
    · rintro ⟨honly, -⟩
      exact hinv.idle fun k' hk' => hk (honly k' hk' ▸ hk')

/-! ## One step -/

section Step

variable [DecidableEq κ] {e : Emission κ} {c : OutputCall κ}

theorem step_calls (k : κ) : (step env e c).calls k = e.calls k ++ callsOf k [c] := by
  by_cases hk : c.inference = k
  · subst hk
    simp [step, callsOf]
  · simp [step, callsOf, hk, Function.update_of_ne (Ne.symm hk)]

theorem open_step_iff (k : κ) :
    (step env e c).Open k ↔ if c.inference = k then c.finish = false else e.Open k := by
  unfold Open
  rw [step_calls]
  split
  · next hk => simp [callsOf, hk]
  · next hk => simp [callsOf, hk]

/-- What is sent for one inference does not touch another. -/
theorem step_sent_ne {k : κ} (hk : k ≠ c.inference) : (step env e c).sent k = e.sent k :=
  Function.update_of_ne hk _ _

/-- A call of a task that streams sends at most one chunk. -/
theorem step_sent (env : NodeEnv) (h : Node.Streams c.n e.node) :
    ∃ more, more.length ≤ 1 ∧
      (step env e c).sent c.inference = e.sent c.inference ++ more ∧
      (more = [Llm.data_body (e.calls c.inference).length c.data c.finish] ↔
        Sendable env c ∧ e.node.self.count = (e.calls c.inference).length) := by
  obtain ⟨-, hsent, hunsent⟩ := task_output_streams env h
  refine ⟨_, ?_, Function.update_self _ _ _, ?_⟩
  all_goals
    by_cases hs : Sendable env c
    · simp only [hsent hs, hs]
      simp [Llm.data_body]
    · simp only [hunsent hs, hs]
      simp

/-- The chunk of a call is the next one of its inference if and only if the call is alone. -/
theorem step_delivered_iff (env : NodeEnv) (hinv : e.Inv) (hdel : e.Delivered c.inference)
    (hgoing : ∀ x ∈ e.calls c.inference, x.2 = false) (h : Node.Streams c.n e.node) :
    (step env e c).Delivered c.inference ↔ Alone env e c := by
  obtain ⟨more, -, hsent, hmore⟩ := step_sent env h
  have hcalls : callsOf c.inference [c] = [(c.data, c.finish)] := by simp [callsOf]
  unfold Delivered
  rw [hsent, step_calls, hcalls, numbered_append, hdel, List.append_cancel_left_eq, Nat.zero_add]
  simp only [numbered]
  -- the chunk carries the counter as its index
  rw [hmore, hinv.count_eq_iff hgoing, Alone]
  tauto

theorem step_delivered_ne {k : κ} (hk : k ≠ c.inference) (hdel : e.Delivered k) :
    (step env e c).Delivered k := by
  have hcalls : callsOf k [c] = [] := by simp [callsOf, Ne.symm hk]
  unfold Delivered
  rw [step_sent_ne hk, step_calls, hcalls, List.append_nil]
  exact hdel

theorem step_length_le (hlength : ∀ k, (e.calls k).length ≤ 2 ^ 31) (halone : Alone env e c)
    (k : κ) : ((step env e c).calls k).length ≤ 2 ^ 31 := by
  rw [step_calls]
  by_cases hk : c.inference = k
  · subst hk
    have hlen := halone.2.1
    simp only [callsOf, List.filter_cons, decide_true, if_true, List.length_append,
      List.length_map, List.filter_nil, List.length_singleton]
    omega
  · simpa [callsOf, hk] using hlength k

/-- A call that is alone keeps the invariant. -/
theorem Inv.step (hinv : e.Inv) (hgoing : ∀ x ∈ e.calls c.inference, x.2 = false)
    (h : Node.Streams c.n e.node) (halone : Alone env e c) : (step env e c).Inv := by
  have hlength := step_length_le hinv.length halone
  obtain ⟨honly, hlen, -⟩ := halone
  have hcount : (Emission.step env e c).node.self.count =
      if c.finish then 0 else wrap32 (e.node.self.count + 1) :=
    (task_output_streams env h).1.count
  rw [(hinv.count_eq_iff hgoing).mpr ⟨honly, hlen⟩] at hcount
  have hopen : ∀ k, (Emission.step env e c).Open k → k = c.inference ∧ c.finish = false := by
    intro k hk
    rw [open_step_iff] at hk
    split at hk
    · next heq => exact ⟨heq.symm, hk⟩
    · next hne => exact absurd (honly k hk).symm hne
  refine ⟨?_, ?_, ?_, hlength⟩
  · intro k k' hk hk'
    rw [(hopen k hk).1, (hopen k' hk').1]
  · intro k hk
    obtain ⟨rfl, hfinish⟩ := hopen k hk
    rw [hcount, step_calls, hfinish]
    simp [callsOf]
  · intro hnone
    -- nobody is open any more, so this was the final call, which sets the counter back
    have hfinish : c.finish = true := by
      by_contra hf
      refine hnone c.inference ?_
      rw [open_step_iff, if_pos rfl]
      simpa using hf
    rw [hcount, hfinish, if_pos rfl]

theorem step_streams (h : Node.Streams c.n e.node) {n : Int} (hn : Node.Streams n e.node) :
    Node.Streams n (step env e c).node :=
  (task_output_streams env h).1.streams n hn

end Step

/-- A delivered inference is reassembled if and only if its texts can be read back. -/
theorem reassembled_iff {e : Emission κ} {k : κ} (hdel : e.Delivered k)
    (hcalls : IsInference (e.calls k)) (hlen : (e.calls k).length ≤ 2 ^ 31) :
    e.Reassembled k ↔ ∀ x ∈ e.calls k, x.2 = false → Readable x.1 := by
  unfold Reassembled
  rw [hdel]
  rcases hcalls with hnil | ⟨ts, last, hcalls⟩
  · rw [hnil]
    simp [outputCalls]
  · have hts : ts.length < 2 ^ 31 := by
      rw [hcalls, outputCalls, List.length_append, List.length_map, List.length_singleton] at hlen
      omega
    have hread :
        (∀ x ∈ outputCalls ts last, x.2 = false → Readable x.1) ↔ ∀ t ∈ ts, Readable t := by
      simp [outputCalls, or_imp, forall_and]
    rw [hcalls, hread, ← receive_whole_iff hts last]
    constructor
    · intro h
      exact h ts last rfl
    · intro h ts' last' heq
      obtain ⟨hmap, hlast⟩ := List.append_inj' heq rfl
      -- the calls determine the texts of the inference
      have hsame : ts = ts' := List.map_injective_iff.mpr (fun _ _ h => (Prod.mk.inj h).1) hmap
      subst hsame
      exact h

/-! ## Runs -/

section Runs

variable [DecidableEq κ] {e : Emission κ} {cs : List (OutputCall κ)}

theorem callsOf_cons (k : κ) (c : OutputCall κ) (cs : List (OutputCall κ)) :
    callsOf k (c :: cs) = callsOf k [c] ++ callsOf k cs := by
  unfold callsOf
  rw [← List.map_append, ← List.filter_append, List.singleton_append]

theorem exec_calls (e : Emission κ) (cs : List (OutputCall κ)) (k : κ) :
    (exec (step env) e cs).calls k = e.calls k ++ callsOf k cs := by
  induction cs generalizing e with
  | nil => simp [callsOf]
  | cons c cs ih => rw [exec_cons, ih, step_calls, callsOf_cons k c cs, List.append_assoc]

/-- A run sends for an inference at most one chunk for each of its calls. -/
theorem exec_sent (env : NodeEnv) (hstreams : ∀ c ∈ cs, Node.Streams c.n e.node) (k : κ) :
    ∃ more, more.length ≤ (callsOf k cs).length ∧
      (exec (step env) e cs).sent k = e.sent k ++ more := by
  induction cs generalizing e with
  | nil => exact ⟨[], by simp [callsOf], by simp⟩
  | cons c cs ih =>
      have hc := hstreams c (by simp)
      obtain ⟨more, hlen, hmore⟩ := @ih (step env e c) fun c' hc' =>
        step_streams hc (hstreams c' (by simp [hc']))
      obtain ⟨first, hfirst, hsent⟩ : ∃ first, first.length ≤ (callsOf k [c]).length ∧
          (step env e c).sent k = e.sent k ++ first := by
        rcases eq_or_ne k c.inference with rfl | hk
        · obtain ⟨first, hfirst, hsent, -⟩ := step_sent env hc
          exact ⟨first, by simpa [callsOf] using hfirst, hsent⟩
        · exact ⟨[], by simp, by rw [step_sent_ne hk, List.append_nil]⟩
      refine ⟨first ++ more, ?_, ?_⟩
      · rw [callsOf_cons, List.length_append, List.length_append]
        omega
      · rw [exec_cons, hmore, hsent, List.append_assoc]

/-- What has its chunks at the end had them all along. -/
theorem Delivered.of_exec (hstreams : ∀ c ∈ cs, Node.Streams c.n e.node) {k : κ}
    (hle : (e.sent k).length ≤ (e.calls k).length)
    (hdel : (exec (step env) e cs).Delivered k) : e.Delivered k := by
  obtain ⟨more, hlen, hmore⟩ := exec_sent env hstreams k
  unfold Delivered at hdel
  rw [hmore, exec_calls, numbered_append] at hdel
  -- one chunk for each call at most, so no chunk of the rest makes up for a missing one
  have hlength := congrArg List.length hdel
  simp only [List.length_append, length_numbered] at hlength
  refine (List.append_inj hdel ?_).1
  rw [length_numbered]
  omega

/-- The chunks of every inference are numbered as they should be if and only if every call was
    alone. -/
theorem delivered_iff (env : NodeEnv) (hinv : e.Inv) (hdel : ∀ k, e.Delivered k)
    (hcs : ∀ k, IsInference (e.calls k ++ callsOf k cs))
    (hstreams : ∀ c ∈ cs, Node.Streams c.n e.node) :
    (∀ k, (exec (step env) e cs).Delivered k) ↔ AllSteps (step env) (Alone env) e cs := by
  induction cs generalizing e with
  | nil => exact ⟨fun _ => trivial, fun _ => hdel⟩
  | cons c cs ih =>
      have hc := hstreams c (by simp)
      have hstreams' : ∀ c' ∈ cs, Node.Streams c'.n (step env e c).node :=
        fun c' hc' => step_streams hc (hstreams c' (by simp [hc']))
      -- this call is still to come, so the inference has not finished
      have hgoing : ∀ x ∈ e.calls c.inference, x.2 = false := by
        have hwhole := hcs c.inference
        rw [callsOf_cons, show callsOf c.inference [c] = [(c.data, c.finish)] by simp [callsOf]]
          at hwhole
        exact hwhole.not_final
      have hstep := step_delivered_iff env hinv (hdel c.inference) hgoing hc
      have hrest : Alone env e c →
          ((∀ k, (exec (step env) (step env e c) cs).Delivered k) ↔
            AllSteps (step env) (Alone env) (step env e c) cs) := by
        intro halone
        refine ih (hinv.step hgoing hc halone) (fun k => ?_) (fun k => ?_) hstreams'
        · rcases eq_or_ne k c.inference with rfl | hk
          · exact hstep.mpr halone
          · exact step_delivered_ne hk (hdel k)
        · rw [step_calls, List.append_assoc, ← callsOf_cons]
          exact hcs k
      constructor
      · intro hend
        have halone : Alone env e c := by
          refine hstep.mp (Delivered.of_exec hstreams' ?_ (hend c.inference))
          obtain ⟨more, hmore, hsent, -⟩ := step_sent env hc
          -- a chunk for each call so far, and at most one for this one
          have hbefore := congrArg List.length (hdel c.inference)
          rw [length_numbered] at hbefore
          rw [hsent, step_calls, List.length_append, List.length_append]
          simp only [callsOf, List.filter_cons, decide_true, if_true, List.map_cons,
            List.length_cons]
          omega
        exact ⟨halone, (hrest halone).mp hend⟩
      · rintro ⟨halone, hsteps⟩
        exact (hrest halone).mpr hsteps

theorem mem_callsOf {k : κ} {x : Bytes × Bool} :
    x ∈ callsOf k cs ↔ ∃ c ∈ cs, c.inference = k ∧ (c.data, c.finish) = x := by
  simp [callsOf, and_assoc]

end Runs

theorem Inv.new [DecidableEq κ] {s : Node} (hcount : s.self.count = 0) :
    (Emission.new s : Emission κ).Inv := by
  -- nobody has called yet
  have hopen : ∀ k, ¬ (Emission.new s : Emission κ).Open k := fun k hk => hk.calls_ne_nil rfl
  exact ⟨fun k _ hk => absurd hk (hopen k), fun k hk => absurd hk (hopen k), fun _ => hcount,
    fun _ => by simp [Emission.new]⟩

/-- Inferences of streaming tasks that call `task_output` in any order.  The chunks of each one
    are numbered 0, 1, .. with `finish` on the last, and a receiver reassembles them, if and only
    if no call comes while another inference is open and every text can be sent and read.  Chunks
    below 2 GiB are decoded the same with the casts of `sample_json_str_get`. -/
theorem numbering_iff [DecidableEq κ] (env : NodeEnv) (s : Node) (hcount : s.self.count = 0)
    (cs : List (OutputCall κ)) (hstreams : ∀ c ∈ cs, Node.Streams c.n s)
    (hcs : ∀ k, IsInference (callsOf k cs)) :
    ((∀ k, (exec (step env) (new s) cs).Delivered k ∧
        (exec (step env) (new s) cs).Reassembled k) ↔
      AllSteps (step env) (Alone env) (new s) cs ∧
        ∀ c ∈ cs, c.finish = false → Readable c.data) ∧
    ∀ k, ∀ j ∈ (exec (step env) (new s) cs).sent k, j.dump.length < 2 ^ 31 →
      ∀ stream_buff, Sized.decode_stream j.dump stream_buff = decode_stream j.dump stream_buff := by
  refine ⟨?_, fun k j _ hlen stream_buff => Sized.decode_stream_eq hlen stream_buff⟩
  have hcalls : ∀ k, (exec (step env) (new s) cs).calls k = callsOf k cs :=
    fun k => exec_calls (new s) cs k
  have hdel := delivered_iff env (Inv.new hcount) (fun _ => rfl) hcs hstreams
  have hread : AllSteps (step env) (Alone env) (new s) cs →
      ∀ k, (exec (step env) (new s) cs).Delivered k →
        ((exec (step env) (new s) cs).Reassembled k ↔
          ∀ x ∈ callsOf k cs, x.2 = false → Readable x.1) := by
    intro halone k hk
    have hlen := exec_invariant (fun _ _ => step_length_le) (Inv.new hcount).length halone k
    rw [← hcalls]
    exact reassembled_iff hk (by rw [hcalls]; exact hcs k) hlen
  constructor
  · intro h
    have halone := hdel.mp fun k => (h k).1
    refine ⟨halone, fun c hc hfinish => ?_⟩
    have hk := (hread halone c.inference (h c.inference).1).mp (h c.inference).2
    exact hk (c.data, c.finish) (mem_callsOf.mpr ⟨c, hc, rfl, rfl⟩) hfinish
  · rintro ⟨halone, htexts⟩ k
    have hk := hdel.mpr halone k
    refine ⟨hk, (hread halone k hk).mpr ?_⟩
    intro x hx hfinish
    obtain ⟨c, hc, -, rfl⟩ := mem_callsOf.mp hx
    exact htexts c hc hfinish

/-! ## Two tasks that stream -/

section TwoStreams

/-- A configuration that asks for a stream, and nlohmann on its text. -/
def streamConfigText : Bytes :=
  str "\x7b\"model\":\"m\",\"response_format\":\"llm.utf-8.stream\",\"enoutput\":true\x7d"

def streamConfigBody : Json :=
  .object [(str "model", .string (str "m")),
    (str "response_format", .string (str "llm.utf-8.stream")), (str "enoutput", .bool true)]

def streamEnv : NodeEnv where
  json_parse text := if text = streamConfigText then some streamConfigBody else none
  json_parse_valid := by
    intro text j h
    split_ifs at h
    cases h
    decide
  mode := .convert

/-- A setup with that configuration, answered with the number `n`. -/
def setupStream (n : String) : NodeEvent :=
  .setup
    (set_param (str "ipc:///tmp/llm/8000.sock")
      (str "\x7b\"request_id\":\"1\",\"work_id\":\"llm\",\"action\":\"setup\",\"data\":"
        ++ (streamConfigText ++ str "\x7d")))
    (set_param (str n) (set_param (str "ipc://out" ++ str n) (str "ipc://inf" ++ str n)))

def twoStreams : Node :=
  (exec (NodeProcess.step streamEnv) .initial [setupStream "0", setupStream "1"]).node

def outputs (k : Bool) (text : String) : List (OutputCall Bool) :=
  [⟨k, k.toNat, str text, false⟩, ⟨k, k.toNat, [], true⟩]

/-- The second inference begins when the first has finished. -/
def oneAfterTheOther : List (OutputCall Bool) := outputs false "hi" ++ outputs true "yo"

/-- The second inference begins while the first is open. -/
def oneInTheOther : List (OutputCall Bool) :=
  (outputs false "hi").take 1 ++ outputs true "yo" ++ (outputs false "hi").drop 1

theorem isInference_two {cs : List (OutputCall Bool)}
    (h : callsOf false cs = outputCalls [str "hi"] [] ∧ callsOf true cs = outputCalls [str "yo"] [])
    (k : Bool) : IsInference (callsOf k cs) := by
  cases k with
  | false => exact .inr ⟨_, _, h.1⟩
  | true => exact .inr ⟨_, _, h.2⟩

theorem numbering_iff_one_after_the_other :
    (twoStreams.self.count = 0 ∧ ∀ c ∈ oneAfterTheOther, Node.Streams c.n twoStreams) ∧
      ∀ k, (exec (step streamEnv) (new twoStreams) oneAfterTheOther).Delivered k ∧
        (exec (step streamEnv) (new twoStreams) oneAfterTheOther).Reassembled k := by
  have hnode : twoStreams.self.count = 0 ∧ ∀ c ∈ oneAfterTheOther, Node.Streams c.n twoStreams := by
    decide +kernel
  refine ⟨hnode, ?_⟩
  exact (numbering_iff streamEnv twoStreams hnode.1 oneAfterTheOther hnode.2
    (isInference_two ⟨rfl, rfl⟩)).1.mpr (by decide +kernel)

/-- The first chunk of the second inference gets the index 1. -/
theorem interleaved_outputs_misnumbered :
    ((twoStreams.self.count = 0 ∧ ∀ c ∈ oneInTheOther, Node.Streams c.n twoStreams) ∧
      ∀ k, IsInference (callsOf k oneInTheOther)) ∧
    ((exec (step streamEnv) (new twoStreams) oneInTheOther).sent true).map Json.dump =
      [outputText 1 (str "yo") false, outputText 2 [] true] ∧
    ¬ ∀ k, (exec (step streamEnv) (new twoStreams) oneInTheOther).Delivered k ∧
      (exec (step streamEnv) (new twoStreams) oneInTheOther).Reassembled k := by
  have hnode : twoStreams.self.count = 0 ∧ ∀ c ∈ oneInTheOther, Node.Streams c.n twoStreams := by
    decide +kernel
  have hsent : ((exec (step streamEnv) (new twoStreams) oneInTheOther).sent true).map Json.dump =
      [outputText 1 (str "yo") false, outputText 2 [] true] := by
    decide +kernel
  refine ⟨⟨hnode, isInference_two ⟨rfl, rfl⟩⟩, hsent, fun h => ?_⟩
  have htexts := congrArg (List.map Json.dump) (h true).1
  rw [hsent, exec_calls] at htexts
  revert htexts
  decide +kernel

end TwoStreams

end Emission

end DoubleTurnouts
