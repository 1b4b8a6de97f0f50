/-
  DoubleTurnouts.Node.Streams

  Two input streams through one buffer.  `stream_buff` is a static of
  `task_user_data`, so the chunks of all tasks end up in the same table under
  their index alone.  `Reassembly` is that table with the texts that come out
  of it; the process follows it message by message.  Over it, an interleaving
  of two streams comes out right exactly if one stream is complete before the
  other one starts.
-/
import Mathlib.Tactic
import DoubleTurnouts.Lib.Run
import DoubleTurnouts.Node.Control
import DoubleTurnouts.Node.Ready

namespace DoubleTurnouts

open Text Decimal

/-! ## Chunks and streams -/

/-- A message whose data is one chunk of a stream. -/
structure ChunkMessage where
  raw : Bytes
  index : Int
  valid : Utf8.Valid raw
  object : (find (str "stream") (sample_json_str_get raw (str "object"))).isSome
  index_eq : stoi (sample_json_str_get (sample_json_str_get raw (str "data")) (str "index"))
    = .ok index

namespace ChunkMessage

def data (c : ChunkMessage) : Bytes := sample_json_str_get c.raw (str "data")

def delta (c : ChunkMessage) : Bytes := sample_json_str_get c.data (str "delta")

/-- `finish` is `true`: it has no `f`. -/
def final (c : ChunkMessage) : Bool :=
  (find (str "f") (sample_json_str_get c.data (str "finish"))).isNone

end ChunkMessage

/-- The chunks of a stream from index `i` on: consecutive indices, and the last chunk and no
    other is final. -/
inductive IsStreamFrom : Int → List ChunkMessage → Prop
  | last {c : ChunkMessage} : c.final = true → IsStreamFrom c.index [c]
  | more {c : ChunkMessage} {cs : List ChunkMessage} : c.final = false →
      IsStreamFrom (c.index + 1) cs → IsStreamFrom c.index (c :: cs)

namespace IsStreamFrom

variable {i : Int} {c : ChunkMessage} {cs ds : List ChunkMessage}

theorem le_index (h : IsStreamFrom i cs) (hc : c ∈ cs) : i ≤ c.index := by
  induction h with
  | last _ =>
      obtain rfl := List.mem_singleton.mp hc
      exact le_refl _
  | more _ _ ih =>
      rcases List.mem_cons.mp hc with rfl | hc
      · exact le_refl _
      · have := ih hc
        omega

/-- Behind at least one chunk every index is larger than the first. -/
theorem lt_index (h : IsStreamFrom i (cs ++ ds)) (hcs : cs ≠ []) (hc : c ∈ ds) :
    i < c.index := by
  cases cs with
  | nil => exact absurd rfl hcs
  | cons d cs =>
      rw [List.cons_append] at h
      generalize hall : cs ++ ds = rest at h
      have hmem : c ∈ rest := by rw [← hall]; exact List.mem_append_right cs hc
      cases h with
      | last _ => cases hmem
      | more _ htail =>
          have := htail.le_index hmem
          omega

/-- Nothing follows the final chunk. -/
theorem eq_nil_of_final (h : IsStreamFrom i (cs ++ c :: ds)) (hc : c.final = true) :
    ds = [] := by
  induction cs generalizing i with
  | nil =>
      cases h with
      | last _ => rfl
      | more hmore _ =>
          rw [hmore] at hc
          cases hc
  | cons d cs ih =>
      rw [List.cons_append] at h
      generalize hall : cs ++ c :: ds = rest at h
      cases h with
      | last _ => simp at hall
      | more _ htail =>
          rw [← hall] at htail
          exact ih htail

theorem exists_final (h : IsStreamFrom i cs) : ∃ c ∈ cs, c.final = true := by
  induction h with
  | last hfinal => exact ⟨_, by simp, hfinal⟩
  | more _ _ ih =>
      obtain ⟨c, hc, hfinal⟩ := ih
      exact ⟨c, by simp [hc], hfinal⟩

end IsStreamFrom

/-- A whole stream. -/
def IsStream (cs : List ChunkMessage) : Prop := IsStreamFrom 0 cs

/-- The text of a stream. -/
def streamText (cs : List ChunkMessage) : Bytes := (cs.map ChunkMessage.delta).flatten

/-! ## The shared buffer -/

/-- The buffer, the texts that came out of it with their tasks, and whether a stream was
    ever thrown away. -/
structure Reassembly where
  buff : Map Int Bytes
  texts : List (Int × Bytes)
  lost : Bool

namespace Reassembly

/-- One chunk for task `m.1`. -/
def step (r : Reassembly) (m : Int × ChunkMessage) : Reassembly :=
  let buff := r.buff.insert m.2.index m.2.delta
  if m.2.final then
    match joinStream buff (Map.size buff) 0 with
    | .ok out => { r with buff := ∅, texts := r.texts ++ [(m.1, out)] }
    | .error _ => { r with buff := ∅, lost := true }
  else { r with buff := buff }

/-- An empty buffer. -/
def initial : Reassembly := ⟨∅, [], false⟩

/-- Chunks that are not final are kept, and nothing comes out. -/
theorem exec_not_final {r : Reassembly} {ms : List (Int × ChunkMessage)}
    (h : ∀ m ∈ ms, m.2.final = false) : (Run.exec step r ms).texts = r.texts := by
  induction ms generalizing r with
  | nil => rfl
  | cons m ms ih =>
      have hstep : (r.step m).texts = r.texts := by simp [step, h m (by simp)]
      rw [Run.exec_cons, ih fun m' hm' => h m' (by simp [hm']), hstep]

theorem step_final_buff (r : Reassembly) {m : Int × ChunkMessage} (h : m.2.final = true) :
    (r.step m).buff = ∅ := by
  simp only [step, h, if_true]
  split <;> rfl

/-- A final chunk adds a text of its own task, or none. -/
theorem step_final_texts (r : Reassembly) (m : Int × ChunkMessage) :
    ∃ new : List (Int × Bytes), (r.step m).texts = r.texts ++ new ∧ ∀ t ∈ new, t.1 = m.1 := by
  unfold step
  dsimp only
  split
  · split
    · exact ⟨_, rfl, by simp⟩
    · exact ⟨[], by simp, by simp⟩
  · exact ⟨[], by simp, by simp⟩

theorem joinStream_of_no_zero {buff : Map Int Bytes} (h : buff.lookup 0 = none) {n : Nat}
    (hn : n ≠ 0) : joinStream buff n 0 = .error .out_of_range := by
  cases n with
  | zero => exact absurd rfl hn
  | succ n =>
      have hzero : buff.lookup (wrap32 (0 : Nat)) = none := h
      rw [joinStream, hzero]

theorem size_insert_ne_zero (buff : Map Int Bytes) (i : Int) (d : Bytes) :
    Map.size (buff.insert i d) ≠ 0 := by
  have hmem : i ∈ (buff.insert i d).keys := by simp
  exact Nat.ne_of_gt (List.length_pos_of_mem hmem)

/-- Without chunk 0 nothing ever comes out. -/
theorem exec_no_zero {r : Reassembly} (hr : r.buff.lookup 0 = none)
    {ms : List (Int × ChunkMessage)} (h : ∀ m ∈ ms, m.2.index ≠ 0) :
    (Run.exec step r ms).texts = r.texts := by
  induction ms generalizing r with
  | nil => rfl
  | cons m ms ih =>
      have hinsert : (r.buff.insert m.2.index m.2.delta).lookup 0 = none := by
        rw [AList.lookup_insert_ne (h m (by simp)).symm]
        exact hr
      have hjoin := joinStream_of_no_zero hinsert (size_insert_ne_zero r.buff m.2.index m.2.delta)
      have hstep : (r.step m).texts = r.texts ∧ (r.step m).buff.lookup 0 = none := by
        simp only [step, hjoin]
        split
        · exact ⟨rfl, rfl⟩
        · exact ⟨rfl, hinsert⟩
      rw [Run.exec_cons, ih hstep.2 fun m' hm' => h m' (by simp [hm']), hstep.1]

/-! ## One stream on its own -/

/-- The buffer holds the deltas `ds` under the indices 0, 1, .. and nothing else. -/
structure Holds (buff : Map Int Bytes) (ds : List Bytes) : Prop where
  lookup : ∀ k : Nat, buff.lookup (k : Int) = ds[k]?
  size : Map.size buff = ds.length

theorem Holds.empty : Holds ∅ [] := ⟨fun _ => rfl, rfl⟩

theorem Holds.insert {buff : Map Int Bytes} {ds : List Bytes} (h : Holds buff ds) (d : Bytes) :
    Holds (buff.insert ds.length d) (ds ++ [d]) := by
  have hnew : buff.lookup (ds.length : Int) = none := by simp [h.lookup]
  refine ⟨?_, ?_⟩
  · intro k
    rcases eq_or_ne k ds.length with rfl | hne
    · simp
    · rw [AList.lookup_insert_ne (by exact_mod_cast hne), h.lookup]
      rcases Nat.lt_or_gt_of_ne hne with hlt | hgt
      · rw [List.getElem?_append_left hlt]
      · rw [List.getElem?_eq_none (by omega), List.getElem?_eq_none (by simp; omega)]
  · rw [Map.size_insert_of_lookup_eq_none d hnew, h.size, List.length_append]
    rfl

theorem Holds.join {buff : Map Int Bytes} {ds : List Bytes} (h : Holds buff ds)
    (hlen : ds.length ≤ 2 ^ 31) (i : Nat) :
    joinStream buff (ds.length - i) i = .ok (ds.drop i).flatten := by
  generalize hn : ds.length - i = n
  induction n generalizing i with
  | zero =>
      rw [List.drop_eq_nil_of_le (by omega)]
      rfl
  | succ n ih =>
      have hi : i < ds.length := by omega
      have hwrap : wrap32 (i : Int) = i := wrap32_of_isInt32 (by unfold IsInt32; omega)
      have hlookup : buff.lookup (wrap32 i) = some ds[i] := by
        rw [hwrap, h.lookup, List.getElem?_eq_getElem hi]
      rw [joinStream, hlookup, List.drop_eq_getElem_cons hi]
      simp only [ih (i + 1) (by omega)]
      rfl

/-- A stream whose first chunks are in the buffer comes out whole with its last chunk. -/
theorem exec_stream {cs : List ChunkMessage} {i : Int} (hcs : IsStreamFrom i cs) (ds : List Bytes)
    (hi : i = ds.length) {r : Reassembly} (hr : Holds r.buff ds) (n : Int) :
    Run.exec step r (cs.map (n, ·)) =
      { r with buff := ∅, texts := r.texts ++ [(n, ds.flatten ++ streamText cs)] } := by
  induction hcs generalizing ds r with
  | @last c hfinal =>
      have hins : Holds (r.buff.insert c.index c.delta) (ds ++ [c.delta]) := by
        rw [hi]
        exact hr.insert c.delta
      have hlen : (ds ++ [c.delta]).length ≤ 2 ^ 31 := by
        have hrange := isInt32_of_stoi c.index_eq
        unfold IsInt32 at hrange
        simp only [List.length_append, List.length_singleton]
        omega
      have hjoin := hins.join hlen 0
      rw [Nat.sub_zero, ← hins.size, List.drop_zero] at hjoin
      simp [step, hfinal, hjoin, streamText]
  | @more c cs hmore _ ih =>
      have hins : Holds (r.buff.insert c.index c.delta) (ds ++ [c.delta]) := by
        rw [hi]
        exact hr.insert c.delta
      have hstep : r.step (n, c) = { r with buff := r.buff.insert c.index c.delta } := by
        simp [step, hmore]
      have hnext : c.index + 1 = ((ds ++ [c.delta]).length : Int) := by simp [hi]
      rw [List.map_cons, Run.exec_cons, hstep, ih _ hnext hins]
      simp [streamText]

end Reassembly

/-! ## Interleavings -/

/-- The chunks that a sequence of messages has for task `n`. -/
def chunksOf (n : Int) (ms : List (Int × ChunkMessage)) : List ChunkMessage :=
  (ms.filter (·.1 = n)).map Prod.snd

/-- The messages are those of two streams, each in its own order. -/
structure Interleaves (a b : Int) (as bs : List ChunkMessage) (ms : List (Int × ChunkMessage)) :
    Prop where
  mem : ∀ m ∈ ms, m.1 = a ∨ m.1 = b
  left : chunksOf a ms = as
  right : chunksOf b ms = bs

theorem Interleaves.symm {a b : Int} {as bs : List ChunkMessage}
    {ms : List (Int × ChunkMessage)} (h : Interleaves a b as bs ms) :
    Interleaves b a bs as ms :=
  ⟨fun m hm => (h.mem m hm).symm, h.right, h.left⟩

/-- One stream is complete before the other one starts. -/
def Sequential (a b : Int) (as bs : List ChunkMessage) (ms : List (Int × ChunkMessage)) : Prop :=
  ms = as.map (a, ·) ++ bs.map (b, ·) ∨ ms = bs.map (b, ·) ++ as.map (a, ·)

theorem chunksOf_append (n : Int) (ms ms' : List (Int × ChunkMessage)) :
    chunksOf n (ms ++ ms') = chunksOf n ms ++ chunksOf n ms' := by
  simp [chunksOf]

theorem mem_chunksOf {n : Int} {ms : List (Int × ChunkMessage)} {m : Int × ChunkMessage}
    (hm : m ∈ ms) (hn : m.1 = n) : m.2 ∈ chunksOf n ms := by
  simp only [chunksOf, List.mem_map, List.mem_filter, decide_eq_true_eq]
  exact ⟨m, ⟨hm, hn⟩, rfl⟩

/-- Messages of one task only. -/
theorem eq_map_chunksOf {n : Int} {ms : List (Int × ChunkMessage)} (h : ∀ m ∈ ms, m.1 = n) :
    ms = (chunksOf n ms).map (n, ·) := by
  induction ms with
  | nil => rfl
  | cons m ms ih =>
      have hm : m.1 = n := h m (by simp)
      have htail := ih fun m' hm' => h m' (by simp [hm'])
      have hhead : chunksOf n (m :: ms) = m.2 :: chunksOf n ms := by simp [chunksOf, hm]
      rw [hhead, List.map_cons, ← htail, ← hm]

namespace Reassembly

/-- If the first stream to finish is that of `a`, it was complete before `b` started, or
    nothing ever comes out for `b`. -/
theorem first_final {a b : Int} (hab : a ≠ b) {as bs : List ChunkMessage} (ha : IsStream as)
    (hb : IsStream bs) {pre post : List (Int × ChunkMessage)} {c : ChunkMessage}
    (hms : Interleaves a b as bs (pre ++ (a, c) :: post)) (hpre : ∀ m ∈ pre, m.2.final = false)
    (hc : c.final = true) :
    pre ++ (a, c) :: post = as.map (a, ·) ++ bs.map (b, ·) ∨
      ∀ t ∈ (Run.exec step initial (pre ++ (a, c) :: post)).texts, t.1 ≠ b := by
  have has : chunksOf a pre ++ c :: chunksOf a post = as := by
    rw [← hms.left, chunksOf_append]
    simp [chunksOf]
  have hbs : chunksOf b pre ++ chunksOf b post = bs := by
    rw [← hms.right, chunksOf_append]
    simp [chunksOf, hab]
  -- `a` has nothing after its final chunk
  have hpost_a : chunksOf a post = [] := by
    rw [← has] at ha
    exact ha.eq_nil_of_final hc
  have hpost : ∀ m ∈ post, m.1 = b := by
    intro m hm
    rcases hms.mem m (by simp [hm]) with hma | hmb
    · have hmem := mem_chunksOf hm hma
      rw [hpost_a] at hmem
      cases hmem
    · exact hmb
  by_cases hpre_b : chunksOf b pre = []
  · left
    have hpre_a : ∀ m ∈ pre, m.1 = a := by
      intro m hm
      rcases hms.mem m (by simp [hm]) with hma | hmb
      · exact hma
      · have hmem := mem_chunksOf hm hmb
        rw [hpre_b] at hmem
        cases hmem
    rw [hpost_a] at has
    rw [hpre_b, List.nil_append] at hbs
    rw [eq_map_chunksOf hpre_a, eq_map_chunksOf hpost, hbs, ← has]
    simp
  · right
    -- chunk 0 of `b` is thrown away with the rest of the buffer
    have hlate : ∀ m ∈ post, m.2.index ≠ 0 := by
      intro m hm
      rw [← hbs] at hb
      have := hb.lt_index hpre_b (mem_chunksOf hm (hpost m hm))
      omega
    have hempty : ((Run.exec step initial pre).step (a, c)).buff.lookup 0 = none := by
      rw [step_final_buff _ hc]
      rfl
    obtain ⟨new, hnew, htag⟩ := step_final_texts (Run.exec step initial pre) (a, c)
    rw [Run.exec_append, Run.exec_cons, exec_no_zero hempty hlate, hnew, exec_not_final hpre]
    intro t ht
    rw [htag t (by simpa [initial] using ht)]
    exact hab

/-- Texts for both tasks come out of sequential streams only. -/
theorem sequential_of_texts {a b : Int} (hab : a ≠ b) {as bs : List ChunkMessage}
    (ha : IsStream as) (hb : IsStream bs) {ms : List (Int × ChunkMessage)}
    (hms : Interleaves a b as bs ms) {x y : Bytes}
    (hx : (a, x) ∈ (Run.exec step initial ms).texts)
    (hy : (b, y) ∈ (Run.exec step initial ms).texts) : Sequential a b as bs ms := by
  have hsome : (ms.find? (·.2.final)).isSome := by
    obtain ⟨c, hc, hfinal⟩ := ha.exists_final
    rw [← hms.left, chunksOf, List.mem_map] at hc
    obtain ⟨m, hm, rfl⟩ := hc
    rw [List.find?_isSome]
    exact ⟨m, (List.mem_filter.mp hm).1, hfinal⟩
  obtain ⟨m, hm⟩ := Option.isSome_iff_exists.mp hsome
  obtain ⟨hfinal, pre, post, rfl, hpre⟩ := List.find?_eq_some_iff_append.mp hm
  have hpre' : ∀ m ∈ pre, m.2.final = false := fun m hm => by simpa using hpre m hm
  obtain ⟨n, c⟩ := m
  rcases hms.mem (n, c) (by simp) with rfl | rfl
  · rcases first_final hab ha hb hms hpre' hfinal with hseq | hnone
    · exact .inl hseq
    · exact absurd rfl (hnone _ hy)
  · rcases first_final hab.symm hb ha hms.symm hpre' hfinal with hseq | hnone
    · exact .inr hseq
    · exact absurd rfl (hnone _ hx)

/-- Two streams one after the other. -/
theorem exec_two_streams {a b : Int} {as bs : List ChunkMessage} (ha : IsStream as)
    (hb : IsStream bs) :
    Run.exec step initial (as.map (a, ·) ++ bs.map (b, ·)) =
      ⟨∅, [(a, streamText as), (b, streamText bs)], false⟩ := by
  have hfirst := exec_stream ha [] rfl (r := initial) Holds.empty a
  rw [Run.exec_append, hfirst, exec_stream hb [] rfl Holds.empty b]
  rfl

end Reassembly

/-! ## The process follows the buffer -/

/-- The unit receiving chunks, each for its task. -/
def chunkStep (env : NodeEnv) (p : NodeProcess) (m : Int × ChunkMessage) : NodeProcess :=
  p.step env (.inference m.1 m.2.raw)

/-- The process started with `base` as its record of inferences.  A process that an
    exception has ended stays behind; otherwise it has the same buffer and has run the same
    inferences. -/
structure Follows (a b : Int) (base : List (Int × Bytes)) (p : NodeProcess) (r : Reassembly) :
    Prop where
  ready_left : Node.Ready a p.node
  ready_right : Node.Ready b p.node
  valid : Map.All Utf8.Valid p.node.self.stream_buff
  texts : ∃ new, p.node.self.inferences = base ++ new ∧ new <+: r.texts
  alive : p.alive = true →
    p.node.self.stream_buff = r.buff ∧ p.node.self.inferences = base ++ r.texts
  lost : r.lost = false → p.alive = true

/-- What the process decides about a chunk is what the buffer does with it. -/
theorem intake_chunk {p : NodeProcess} {r : Reassembly} (h : p.node.self.stream_buff = r.buff)
    (m : Int × ChunkMessage) :
    (r.step m).buff = (p.intake m.2.raw).buff ∧
      (r.step m).texts = r.texts ++ (p.intake m.2.raw).msg?.toList.map (m.1, ·) ∧
      ((r.step m).lost = false → (p.intake m.2.raw).isReject = false) := by
  have hintake : p.intake m.2.raw =
      let buff := r.buff.insert m.2.index m.2.delta
      if m.2.final then
        match joinStream buff (Map.size buff) 0 with
        | .ok out => .infer out ∅
        | .error _ => .reject (-25) (str "Stream data index error.") ∅
      else .hold buff := by
    rw [← h]
    exact Llm.intakeData_chunk m.2.object m.2.index_eq _
  rw [hintake]
  unfold Reassembly.step
  generalize r.buff.insert m.2.index m.2.delta = buff
  cases m.2.final with
  | true =>
      cases hjoin : joinStream buff (Map.size buff) 0 with
      | ok out => simp [hjoin, Llm.Intake.buff, Llm.Intake.msg?, Llm.Intake.isReject]
      | error e => simp [hjoin, Llm.Intake.buff, Llm.Intake.msg?]
  | false => exact ⟨rfl, (List.append_nil _).symm, fun _ => rfl⟩

theorem Reassembly.step_lost {r : Reassembly} {m : Int × ChunkMessage}
    (h : (r.step m).lost = false) : r.lost = false := by
  unfold Reassembly.step at h
  dsimp only at h
  split at h
  · split at h
    · exact h
    · cases h
  · exact h

theorem Follows.step (env : NodeEnv) {a b : Int} {base : List (Int × Bytes)} {p : NodeProcess}
    {r : Reassembly} (h : Follows a b base p r) {m : Int × ChunkMessage}
    (hm : m.1 = a ∨ m.1 = b) : Follows a b base (chunkStep env p m) (r.step m) := by
  cases halive : p.alive with
  | true =>
      obtain ⟨hbuff, hlog⟩ := h.alive halive
      have hready : Node.Ready m.1 p.node := by
        rcases hm with hm | hm
        · rw [hm]; exact h.ready_left
        · rw [hm]; exact h.ready_right
      obtain ⟨hbuff', hlog', halive', hready'⟩ :=
        NodeProcess.step_message env halive hready h.valid m.2.valid
      obtain ⟨hrbuff, hrtexts, hrlost⟩ := intake_chunk hbuff m
      have hnew : (chunkStep env p m).node.self.inferences = base ++ (r.step m).texts := by
        rw [hrtexts, ← List.append_assoc, ← hlog]
        exact hlog'
      have hvalid' : Map.All Utf8.Valid (chunkStep env p m).node.self.stream_buff := by
        rw [chunkStep, hbuff']
        exact (Llm.intakeData_valid _ (sample_json_str_get_valid m.2.valid) h.valid).1
      exact ⟨hready' a h.ready_left, hready' b h.ready_right, hvalid',
        ⟨(r.step m).texts, hnew, List.prefix_refl _⟩,
        fun _ => ⟨hbuff'.trans hrbuff.symm, hnew⟩, fun hlost => halive' (hrlost hlost)⟩
  | false =>
      -- the process has ended and the buffer goes on without it
      have hsame : chunkStep env p m = p := by simp [chunkStep, NodeProcess.step, halive]
      have hlost : (r.step m).lost = false → p.alive = true :=
        fun hlost => h.lost (Reassembly.step_lost hlost)
      obtain ⟨new, hnew, hinitial⟩ := h.texts
      obtain ⟨more, hmore, -⟩ := r.step_final_texts m
      rw [hsame]
      refine ⟨h.ready_left, h.ready_right, h.valid, ⟨new, hnew, ?_⟩, ?_, hlost⟩
      · rw [hmore]
        exact hinitial.trans (List.prefix_append _ _)
      · intro halive'
        rw [halive] at halive'
        cases halive'

theorem Follows.run (env : NodeEnv) {a b : Int} {base : List (Int × Bytes)} {p : NodeProcess}
    {r : Reassembly} (h : Follows a b base p r) {ms : List (Int × ChunkMessage)}
    (hms : ∀ m ∈ ms, m.1 = a ∨ m.1 = b) :
    Follows a b base (Run.exec (chunkStep env) p ms) (Run.exec Reassembly.step r ms) := by
  induction ms generalizing p r with
  | nil => exact h
  | cons m ms ih =>
      exact ih (h.step env (hms m (by simp))) fun m' hm' => hms m' (by simp [hm'])

/-! ## Two streams through the process -/

/-- The calls of `inference` for task `n` since the process was in state `p`. -/
def inferencesSince (n : Int) (p p' : NodeProcess) : List (Int × Bytes) :=
  (newInferences p p').filter (·.1 = n)

/-- Each task runs one inference, on the text of its own stream. -/
def StreamsSeparate (env : NodeEnv) (p : NodeProcess) (a b : Int) (as bs : List ChunkMessage)
    (ms : List (Int × ChunkMessage)) : Prop :=
  inferencesSince a p (Run.exec (chunkStep env) p ms) = [(a, streamText as)] ∧
    inferencesSince b p (Run.exec (chunkStep env) p ms) = [(b, streamText bs)]

instance (env : NodeEnv) (p : NodeProcess) (a b : Int) (as bs : List ChunkMessage)
    (ms : List (Int × ChunkMessage)) : Decidable (StreamsSeparate env p a b as bs ms) :=
  inferInstanceAs (Decidable (_ ∧ _))

theorem mem_of_inferencesSince {n : Int} {p p' : NodeProcess} {new : List (Int × Bytes)}
    (hnew : p'.node.self.inferences = p.node.self.inferences ++ new) {x : Bytes}
    (h : inferencesSince n p p' = [(n, x)]) : (n, x) ∈ new := by
  have hmem : (n, x) ∈ inferencesSince n p p' := by simp [h]
  rw [inferencesSince, newInferences, hnew, List.drop_left] at hmem
  exact (List.mem_filter.mp hmem).1

/-- For two tasks that are set up, any two streams and any interleaving of their messages:
    each task runs one inference on its own stream's text exactly if one of the streams was
    complete before the other one started. -/
theorem streams_separate_iff (env : NodeEnv) {p : NodeProcess} (halive : p.alive = true)
    (hbuff : p.node.self.stream_buff = ∅) {a b : Int} (hab : a ≠ b)
    (hready_a : Node.Ready a p.node) (hready_b : Node.Ready b p.node)
    {as bs : List ChunkMessage} (ha : IsStream as) (hb : IsStream bs)
    {ms : List (Int × ChunkMessage)} (hms : Interleaves a b as bs ms) :
    StreamsSeparate env p a b as bs ms ↔ Sequential a b as bs ms := by
  have hstart : Follows a b p.node.self.inferences p .initial := by
    refine ⟨hready_a, hready_b, ?_, ⟨[], by simp, List.nil_prefix⟩, ?_, fun _ => halive⟩
    · rw [hbuff]
      exact .empty
    · intro _
      exact ⟨hbuff, (List.append_nil _).symm⟩
  have hrun := hstart.run env hms.mem
  constructor
  · rintro ⟨hleft, hright⟩
    obtain ⟨new, hnew, hinitial⟩ := hrun.texts
    exact Reassembly.sequential_of_texts hab ha hb hms
      (hinitial.subset (mem_of_inferencesSince hnew hleft))
      (hinitial.subset (mem_of_inferencesSince hnew hright))
  · intro hseq
    have hkept : ∀ {texts}, Run.exec Reassembly.step .initial ms = ⟨∅, texts, false⟩ →
        (Run.exec (chunkStep env) p ms).node.self.inferences = p.node.self.inferences ++ texts := by
      intro texts htexts
      rw [htexts] at hrun
      exact (hrun.alive (hrun.lost rfl)).2
    unfold StreamsSeparate inferencesSince newInferences
    rcases hseq with hseq | hseq
    · have htexts := Reassembly.exec_two_streams (a := a) (b := b) ha hb
      rw [← hseq] at htexts
      rw [hkept htexts, List.drop_left]
      simp [hab, hab.symm]
    · have htexts := Reassembly.exec_two_streams (a := b) (b := a) hb ha
      rw [← hseq] at htexts
      rw [hkept htexts, List.drop_left]
      simp [hab, hab.symm]

/-! ## Two tasks and three chunks -/

/-- An inference message of `sample/test.py` with the given chunk. -/
def chunkText (delta index finish : String) : Bytes :=
  str "\x7b\"zmq_com\":\"ipc:///tmp/llm/8000.sock\",\"request_id\": \"3\", \"work_id\": "
    ++ str "\"llm.0\", \"action\": \"inference\", \"object\": \"llm.utf-8.stream\", \"data\": "
    ++ (str "\x7b\"delta\": \"" ++ str delta ++ str "\", \"index\": " ++ str index
      ++ str ", \"finish\": " ++ str finish ++ str "\x7d\x7d")

/-- What the unit reads of three such texts: two of one stream, and one that is a stream of its
    own. -/
theorem chunkTexts_read :
    ∀ p ∈ [(chunkText "how " "0" "false", (0 : Int), false),
        (chunkText "are you" "1" "true", 1, true), (chunkText "hello" "0" "true", 0, true)],
      Utf8.Valid p.1 ∧ (find (str "stream") (sample_json_str_get p.1 (str "object"))).isSome ∧
        stoi (sample_json_str_get (sample_json_str_get p.1 (str "data")) (str "index"))
          = .ok p.2.1 ∧
        (find (str "f") (sample_json_str_get (sample_json_str_get p.1 (str "data"))
          (str "finish"))).isNone = p.2.2 := by
  decide +kernel

def firstChunk : ChunkMessage where
  raw := chunkText "how " "0" "false"
  index := 0
  valid := (chunkTexts_read _ (.head _)).1
  object := (chunkTexts_read _ (.head _)).2.1
  index_eq := (chunkTexts_read _ (.head _)).2.2.1

def lastChunk : ChunkMessage where
  raw := chunkText "are you" "1" "true"
  index := 1
  valid := (chunkTexts_read _ (.tail _ (.head _))).1
  object := (chunkTexts_read _ (.tail _ (.head _))).2.1
  index_eq := (chunkTexts_read _ (.tail _ (.head _))).2.2.1

def onlyChunk : ChunkMessage where
  raw := chunkText "hello" "0" "true"
  index := 0
  valid := (chunkTexts_read _ (.tail _ (.tail _ (.head _)))).1
  object := (chunkTexts_read _ (.tail _ (.tail _ (.head _)))).2.1
  index_eq := (chunkTexts_read _ (.tail _ (.tail _ (.head _)))).2.2.1

theorem isStream_two : IsStream [firstChunk, lastChunk] :=
  .more (c := firstChunk) (chunkTexts_read _ (.head _)).2.2.2
    (.last (c := lastChunk) (chunkTexts_read _ (.tail _ (.head _))).2.2.2)

theorem isStream_one : IsStream [onlyChunk] :=
  .last (c := onlyChunk) (chunkTexts_read _ (.tail _ (.tail _ (.head _)))).2.2.2

/-- A unit with the tasks 0 and 1. -/
def twoTasks : NodeProcess :=
  let setupSecond := { setupRequest with
    action := .setup (set_param (str "1") (set_param (str "ipc://out1") (str "ipc://inf1"))) }
  (NodeProcess.initial.step (configEnv .convert) setupRequest.event).step (configEnv .convert)
    setupSecond.event

theorem twoTasks_ready :
    twoTasks.alive = true ∧ Node.Ready 0 twoTasks.node ∧ Node.Ready 1 twoTasks.node := by
  decide +kernel

theorem twoTasks_stream_buff : twoTasks.node.self.stream_buff = ∅ :=
  AList.ext (List.eq_nil_of_length_eq_zero (by decide +kernel))

/-- One stream after the other. -/
theorem streams_separate_iff_sequential :
    StreamsSeparate (configEnv .convert) twoTasks 0 1 [firstChunk, lastChunk] [onlyChunk]
      [(0, firstChunk), (0, lastChunk), (1, onlyChunk)] :=
  (streams_separate_iff (configEnv .convert) twoTasks_ready.1 twoTasks_stream_buff (by decide)
    twoTasks_ready.2.1 twoTasks_ready.2.2 isStream_two isStream_one
    ⟨by simp, rfl, rfl⟩).mpr (.inl rfl)

/-- The short stream arrives between the two chunks of the other one, which is lost. -/
theorem interleaved_streams_mix :
    (twoTasks.alive = true ∧ Node.Ready 0 twoTasks.node ∧ Node.Ready 1 twoTasks.node) ∧
    twoTasks.node.self.stream_buff = ∅ ∧
    (IsStream [firstChunk, lastChunk] ∧ IsStream [onlyChunk] ∧
      Interleaves 0 1 [firstChunk, lastChunk] [onlyChunk]
        [(0, firstChunk), (1, onlyChunk), (0, lastChunk)]) ∧
    ¬ StreamsSeparate (configEnv .convert) twoTasks 0 1 [firstChunk, lastChunk] [onlyChunk]
      [(0, firstChunk), (1, onlyChunk), (0, lastChunk)] :=
  ⟨twoTasks_ready, twoTasks_stream_buff,
    ⟨isStream_two, isStream_one, by simp, rfl, rfl⟩, by decide +kernel⟩

end DoubleTurnouts
