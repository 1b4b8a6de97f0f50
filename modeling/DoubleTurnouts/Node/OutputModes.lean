/-
  DoubleTurnouts.Node.OutputModes

  The two modes of `task_output`.  A channel that streams sends a chunk for
  every call; a channel that does not sends one message with the last call,
  and that one holds the data of the last call only, which is empty.  What
  the model has put out before is lost, so both modes deliver the same text
  only where there was none (`modes_agree_iff`).
-/
import Mathlib.Tactic
import DoubleTurnouts.Node.Numbering

namespace DoubleTurnouts

open Text Decimal Effect StackFlow

/-! ## The calls of an inference -/

/-- `out_callback_` with each text of the model, and then the final call. -/
def outCalls (env : NodeEnv) (n : Int) : List Bytes → LlmM Unit
  | [] => Llm.task_output env n [] true
  | t :: ts => do
      Llm.task_output env n t false
      outCalls env n ts

/-- `llm_task::inference` makes such calls. -/
example (env : NodeEnv) (n : Int) (msg : Bytes) :
    Llm.inference env n msg = (do
      modify fun s => { s with self.inferences := s.self.inferences ++ [(n, msg)] }
      outCalls env n [msg, str "hello"]) := rfl

/-- Task `n` with `enstream_` set or not. -/
def withMode (s : Node) (n : Int) (enstream : Bool) : Node :=
  match s.llm_task_channel_.lookup n with
  | none => s
  | some channel => s.withChannel n { channel with enstream_ := enstream }

/-- The data of the messages that the calls send. -/
def sentData (env : NodeEnv) (s : Node) (n : Int) (ts : List Bytes) : List Json :=
  published ((final (outCalls env n ts) s).outs.drop s.outs.length)

/-- `index` and `delta` of a chunk. -/
def chunkIndex : Json → Int
  | .object members =>
      match (members.find? (·.1 = str "index")).map Prod.snd with
      | some (.int index) => index
      | _ => 0
  | _ => 0

def chunkDelta (chunk : Json) : Bytes := ((chunk.at? (str "delta")).bind Json.string?).getD []

/-- The deltas of the chunks in the order of their indices. -/
def inIndexOrder (chunks : List Json) : Bytes :=
  ((chunks.insertionSort fun a b => chunkIndex a ≤ chunkIndex b).map chunkDelta).flatten

/-- Both modes deliver the same text. -/
def ModesAgree (env : NodeEnv) (s : Node) (n : Int) (ts : List Bytes) : Prop :=
  ∃ text, sentData env (withMode s n false) n ts = [.string text] ∧
    text = inIndexOrder (sentData env (withMode s n true) n ts)

/-- nlohmann can encode the text. -/
def encodes (env : NodeEnv) (t : Bytes) : Bool := env.mode = .emit ∨ Utf8.Valid t

/-! ## Sending -/

/-- A message that can be encoded is sent, and the channel keeps its mode. -/
theorem channel_send_published {env : NodeEnv} {s : Node} {n : Int} {channel : Channel}
    (hc : s.llm_task_channel_.lookup n = some channel) (hready : channel.Ready) {object : Bytes}
    (hobject : Utf8.Valid object) {data : Json}
    (hdata : env.mode = .convert → ∀ t ∈ data.strings, Utf8.Valid t) :
    ∃ channel' new, (Llm.channel_send env n object data).run s =
        .ok () { s.withChannel n channel' with outs := s.outs ++ new } ∧
      published new = [data] ∧ channel'.Ready ∧ channel'.enstream_ = channel.enstream_ := by
  obtain ⟨channel', new, hsend, hready'⟩ := hready.send env hobject hdata
  obtain ⟨hpublished, hmode⟩ := Channel.send_published hsend
  refine ⟨channel', new, ?_, hpublished, hready', hmode⟩
  rw [Llm.channel_send_run env hc, hsend]

/-! ## A channel that streams -/

/-- What the calls send while the counter stands at `count`: an exception ends them. -/
def chunksFrom (env : NodeEnv) (count : Int) : List Bytes → List Json
  | [] => [Llm.data_body count [] true]
  | t :: ts =>
      if encodes env t then Llm.data_body count t false :: chunksFrom env (wrap32 (count + 1)) ts
      else []

section Streaming

variable {env : NodeEnv} {s : Node} {n : Int}

theorem task_output_stream_sent (h : Node.Streams n s) {data : Bytes} {finish : Bool}
    (hdata : finish = true ∨ encodes env data = true) :
    ∃ s' new, (Llm.task_output env n data finish).run s = .ok () s' ∧ Node.Streams n s' ∧
      s'.self.count = (if finish then 0 else wrap32 (s.self.count + 1)) ∧
      s'.outs = s.outs ++ new ∧ published new = [Llm.data_body s.self.count data finish] := by
  obtain ⟨task, htask, hformat⟩ := h.task
  obtain ⟨channel, hc, hready, hstream⟩ := h.channel
  have hstrings : env.mode = .convert →
      ∀ t ∈ (Llm.data_body s.self.count data finish).strings, Utf8.Valid t := by
    intro hmode
    rw [data_body_valid_iff]
    simpa [encodes, hmode] using hdata
  let s1 : Node := { s with self.count := if finish then 0 else wrap32 (s.self.count + 1) }
  obtain ⟨channel', new, hrun, hpublished, hready', hmode⟩ :=
    @channel_send_published env s1 n channel hc hready _ hformat _ hstrings
  refine ⟨_, new, (Llm.task_output_stream_run htask hc hstream data finish).trans hrun, ?_, rfl,
    rfl, hpublished⟩
  exact ⟨⟨task, htask, hformat⟩, channel', AList.lookup_insert _, hready', hmode.trans hstream⟩

/-- A text that cannot be encoded throws. -/
theorem task_output_stream_throws (h : Node.Streams n s) {data : Bytes}
    (hdata : ¬ encodes env data = true) :
    ∃ e s', (Llm.task_output env n data false).run s = .error e s' ∧ s'.outs = s.outs := by
  obtain ⟨task, htask, -⟩ := h.task
  obtain ⟨channel, hc, -, hstream⟩ := h.channel
  simp only [encodes, decide_eq_true_eq, not_or] at hdata
  have hmode : env.mode = .convert := by
    cases hm : env.mode with
    | emit => exact absurd hm hdata.1
    | convert => rfl
  have hbad : ¬ ∀ t ∈ (Llm.data_body s.self.count data false).strings, Utf8.Valid t := by
    rw [data_body_valid_iff]
    simpa using hdata.2
  have hsend := Channel.send_invalid hmode channel task.response_format_ hbad
  -- the counter has been raised before the exception
  let s1 : Node := { s with self.count := wrap32 (s.self.count + 1) }
  have hrun := @Llm.channel_send_run env s1 n channel hc task.response_format_
    (Llm.data_body s.self.count data false)
  rw [hsend] at hrun
  exact ⟨.type_error, s1, (Llm.task_output_stream_run htask hc hstream data false).trans hrun, rfl⟩

/-- What the calls of an inference send. -/
theorem outCalls_streams (h : Node.Streams n s) (ts : List Bytes) :
    ∃ new, (final (outCalls env n ts) s).outs = s.outs ++ new ∧
      published new = chunksFrom env s.self.count ts := by
  -- on the calls, with the counter of the state they start from
  induction ts generalizing s with
  | nil =>
      obtain ⟨s', new, hrun, -, -, houts, hpublished⟩ :=
        @task_output_stream_sent env s n h [] true (.inl rfl)
      refine ⟨new, ?_, hpublished⟩
      rw [final, outCalls, hrun]
      exact houts
  | cons t ts ih =>
      rw [chunksFrom]
      by_cases hencodes : encodes env t = true
      · obtain ⟨s', first, hrun, hstreams, hcount, houts, hpublished⟩ :=
          @task_output_stream_sent env s n h t false (.inr hencodes)
        obtain ⟨rest, hrest, hpublished'⟩ := ih hstreams
        refine ⟨first ++ rest, ?_, ?_⟩
        · have hstep : final (outCalls env n (t :: ts)) s = final (outCalls env n ts) s' := by
            rw [final, final, outCalls, EStateM.run_bind, hrun]
          rw [hstep, hrest, houts, List.append_assoc]
        · rw [if_pos hencodes, published, List.filter_append, List.map_append]
          rw [← published, ← published, hpublished, hpublished', hcount]
          rfl
      · -- the exception leaves `inference`, so no further call is made
        obtain ⟨e, s', hrun, houts⟩ := task_output_stream_throws h hencodes
        refine ⟨[], ?_, ?_⟩
        · rw [final, outCalls, EStateM.run_bind, hrun, List.append_nil]
          exact houts
        · rw [if_neg hencodes]
          rfl

end Streaming

/-! ## A channel that does not -/

section Buffering

variable {env : NodeEnv} {s : Node} {n : Int} {task : Task} {channel : Channel}
  (htask : s.self.llm_task_.lookup n = some task)
  (hc : s.llm_task_channel_.lookup n = some channel) (hmode : channel.enstream_ = false)

include htask hc hmode

/-- Nothing is kept of a call that is not final. -/
theorem task_output_not_final (data : Bytes) :
    (Llm.task_output env n data false).run s = .ok () s := by
  simp [Llm.task_output, htask, hc, hmode]

theorem task_output_final (data : Bytes) :
    (Llm.task_output env n data true).run s =
      (Llm.channel_send env n task.response_format_ (.string data)).run s := by
  simp [Llm.task_output, htask, hc, hmode]

/-- The one message of an inference holds the data of its final call. -/
theorem outCalls_buffers (hformat : Utf8.Valid task.response_format_) (hready : channel.Ready)
    (ts : List Bytes) :
    ∃ new, (final (outCalls env n ts) s).outs = s.outs ++ new ∧ published new = [.string []] := by
  induction ts with
  | nil =>
      have hstrings : env.mode = .convert → ∀ t ∈ (Json.string []).strings, Utf8.Valid t := by
        intro _
        decide
      obtain ⟨channel', new, hrun, hpublished, -⟩ :=
        channel_send_published hc hready hformat hstrings
      refine ⟨new, ?_, hpublished⟩
      rw [final, outCalls, task_output_final htask hc hmode, hrun]
  | cons t ts ih =>
      have hstep : final (outCalls env n (t :: ts)) s = final (outCalls env n ts) s := by
        rw [final, final, outCalls, EStateM.run_bind, task_output_not_final htask hc hmode]
      rw [hstep]
      exact ih

end Buffering

/-! ## The same text -/

theorem chunkDelta_data_body (count : Int) (data : Bytes) (finish : Bool) :
    chunkDelta (Llm.data_body count data finish) = if finish then [] else data := rfl

/-- Texts are concatenated to nothing, in whatever order, if all of them are empty. -/
theorem inIndexOrder_eq_nil_iff (chunks : List Json) :
    inIndexOrder chunks = [] ↔ ∀ chunk ∈ chunks, chunkDelta chunk = [] := by
  rw [inIndexOrder, List.flatten_eq_nil_iff]
  simp only [List.mem_map, forall_exists_index, and_imp, forall_apply_eq_imp_iff₂]
  have hperm := List.perm_insertionSort (fun a b => chunkIndex a ≤ chunkIndex b) chunks
  constructor
  · intro h chunk hchunk
    exact h chunk (hperm.mem_iff.mpr hchunk)
  · intro h chunk hchunk
    exact h chunk (hperm.mem_iff.mp hchunk)

theorem chunksFrom_deltas_iff (env : NodeEnv) (count : Int) (ts : List Bytes) :
    (∀ chunk ∈ chunksFrom env count ts, chunkDelta chunk = []) ↔
      ∀ t ∈ ts.takeWhile (encodes env), t = [] := by
  induction ts generalizing count with
  | nil => simp [chunksFrom, chunkDelta_data_body]
  | cons t ts ih =>
      rw [chunksFrom, List.takeWhile_cons]
      by_cases hencodes : encodes env t = true
      · rw [if_pos hencodes, if_pos hencodes, List.forall_mem_cons, List.forall_mem_cons, ih,
          chunkDelta_data_body, if_neg (by decide)]
      · rw [if_neg hencodes, if_neg hencodes]
        simp

theorem sentData_eq {env : NodeEnv} {s : Node} {n : Int} {ts : List Bytes} {new : List Out}
    (h : (final (outCalls env n ts) s).outs = s.outs ++ new) :
    sentData env s n ts = published new := by
  rw [sentData, h, List.drop_left]

theorem withMode_self (s : Node) (n : Int) (enstream : Bool) :
    (withMode s n enstream).self = s.self := by
  unfold withMode
  split <;> rfl

/-- The two modes of a task that is set up. -/
theorem withMode_lookup {s : Node} {n : Int} (h : Node.Ready n s) (enstream : Bool) :
    ∃ channel, (withMode s n enstream).llm_task_channel_.lookup n = some channel ∧
      channel.Ready ∧ channel.enstream_ = enstream := by
  obtain ⟨channel, hc, hready⟩ := h.channel
  have hready' : Channel.Ready { channel with enstream_ := enstream } :=
    ⟨hready.publisher, hready.subscription, hready.request_id_, hready.work_id_⟩
  refine ⟨{ channel with enstream_ := enstream }, ?_, hready', rfl⟩
  rw [withMode, hc]
  exact AList.lookup_insert _

/-- What each mode has sent after all calls. -/
theorem sentData_modes (env : NodeEnv) {s : Node} {n : Int} (h : Node.Ready n s) (ts : List Bytes) :
    sentData env (withMode s n false) n ts = [.string []] ∧
      sentData env (withMode s n true) n ts = chunksFrom env s.self.count ts := by
  obtain ⟨task, htask, hformat⟩ := h.task
  constructor
  · obtain ⟨channel, hc, hready, hmode⟩ := withMode_lookup h false
    rw [← withMode_self s n false] at htask
    obtain ⟨new, houts, hpublished⟩ :=
      @outCalls_buffers env _ n task channel htask hc hmode hformat hready ts
    rw [sentData_eq houts, hpublished]
  · obtain ⟨channel, hc, hready, hmode⟩ := withMode_lookup h true
    rw [← withMode_self s n true] at htask
    obtain ⟨new, houts, hpublished⟩ := @outCalls_streams env _ n
      ⟨⟨task, htask, hformat⟩, channel, hc, hready, hmode⟩ ts
    rw [sentData_eq houts, hpublished, withMode_self]

/-- For every task that is set up and all texts of the model: the two modes deliver the same text
    if and only if every text is empty, up to the first that cannot be encoded. -/
theorem modes_agree_iff (env : NodeEnv) (s : Node) (n : Int) (h : Node.Ready n s)
    (ts : List Bytes) : ModesAgree env s n ts ↔ ∀ t ∈ ts.takeWhile (encodes env), t = [] := by
  obtain ⟨hbuffered, hstreamed⟩ := sentData_modes env h ts
  rw [ModesAgree, hbuffered, hstreamed, ← chunksFrom_deltas_iff env s.self.count,
    ← inIndexOrder_eq_nil_iff]
  constructor
  · rintro ⟨text, htext, heq⟩
    obtain rfl : [] = text := by simpa using htext
    exact heq.symm
  · intro heq
    exact ⟨[], rfl, heq.symm⟩

section Examples

open Emission

theorem modes_agree_iff_silent : ModesAgree streamEnv twoStreams 0 [[], []] :=
  (modes_agree_iff streamEnv twoStreams 0 (by decide +kernel) [[], []]).mpr (by decide)

/-- The calls of an inference on `hi`: the stream says `hihello`, the message nothing. -/
theorem buffered_output_lost :
    Node.Ready 0 twoStreams ∧
    (inIndexOrder (sentData streamEnv (withMode twoStreams 0 true) 0 [str "hi", str "hello"]) =
      str "hihello") ∧
    ¬ ModesAgree streamEnv twoStreams 0 [str "hi", str "hello"] := by
  have hready : Node.Ready 0 twoStreams := by decide +kernel
  obtain ⟨hbuffered, hstreamed⟩ := sentData_modes streamEnv hready [str "hi", str "hello"]
  have hstream : inIndexOrder
      (sentData streamEnv (withMode twoStreams 0 true) 0 [str "hi", str "hello"]) =
        str "hihello" := by
    rw [hstreamed]
    decide +kernel
  refine ⟨hready, hstream, ?_⟩
  rintro ⟨text, htext, heq⟩
  rw [hbuffered] at htext
  obtain rfl : [] = text := by simpa using htext
  rw [hstream] at heq
  exact absurd heq (by decide)

end Examples

end DoubleTurnouts
