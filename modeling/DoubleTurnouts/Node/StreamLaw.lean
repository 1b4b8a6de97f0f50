/-
  DoubleTurnouts.Node.StreamLaw

  Streams whose chunks arrive in any order, with repetitions and gaps.  The
  buffer holds the most recent `delta` of each index.  With the final chunk
  `decode_stream` walks the indices from 0 up to the size of the buffer, and
  `at` throws at the first one that is missing; counting shows that the walk
  succeeds only if it meets every index of the buffer.

  The loop counts in `size_t` and asks for an `int`, so from 2^31 on it asks
  for negative indices.  A buffer that has all indices of an `int` from 0 on
  and the smallest negative ones is joined although its indices are not
  consecutive; there and nowhere else the law of reassembly fails
  (`later_stream_law_iff`).
-/
import Mathlib.Tactic
import DoubleTurnouts.Node.ChunkText
import DoubleTurnouts.Node.Tables

namespace DoubleTurnouts

open Text Decimal Effect

/-! ## Walking the buffer -/

section Walk

variable {buff : Map Int Bytes}

theorem joinStream_eq_ok {n i : Nat}
    (h : ∀ j, i ≤ j → j < i + n → (buff.lookup (wrap32 j)).isSome) :
    joinStream buff n i =
      .ok ((List.range' i n).flatMap fun j : Nat => (buff.lookup (wrap32 j)).getD []) := by
  induction n generalizing i with
  | zero => rfl
  | succ n ih =>
      obtain ⟨delta, hdelta⟩ := Option.isSome_iff_exists.mp (h i le_rfl (by omega))
      have hrest := @ih (i + 1) fun j hj hj' => h j (by omega) (by omega)
      rw [joinStream, hdelta, hrest, List.range'_succ, List.flatMap_cons, hdelta]
      rfl

theorem joinStream_eq_error {n i j : Nat} (hj : i ≤ j) (hj' : j < i + n)
    (h : buff.lookup (wrap32 j) = none) : joinStream buff n i = .error .out_of_range := by
  induction n generalizing i with
  | zero => omega
  | succ n ih =>
      rw [joinStream]
      cases hlookup : buff.lookup (wrap32 i) with
      | none => rfl
      | some delta =>
          -- the gap is further on, since index `i` is there
          have hne : i ≠ j := by
            rintro rfl
            rw [h] at hlookup
            cases hlookup
          rw [ih (by omega) (by omega)]
          rfl

/-- What the loop asks for in round `j`. -/
theorem wrap32_natCast_of_lt {j : Nat} (h : j < 2 ^ 31) : wrap32 j = j := by
  apply wrap32_of_isInt32
  unfold IsInt32
  omega

theorem wrap32_natCast_of_ge {j : Nat} (h : 2 ^ 31 ≤ j) (h' : j < 2 ^ 32) :
    wrap32 j = (j : Int) - 2 ^ 32 := by
  have hsub : wrap32 ((j : Int) - 2 ^ 32) = (j : Int) - 2 ^ 32 := by
    apply wrap32_of_isInt32
    unfold IsInt32
    omega
  rw [← hsub, wrap32, wrap32, show ((2 : Int) ^ 32) = ((4294967296 : Nat) : Int) by norm_num,
    Int.sub_bmod_right]

/-- The walk from 0 reaches the end of the buffer. -/
def Walks (buff : Map Int Bytes) : Prop :=
  ∀ j : Nat, j < Map.size buff → (buff.lookup (wrap32 j)).isSome

/-- Behind the indices 0 .. 2^31 - 1 the `r` smallest ones. -/
def InWrapped (r : Nat) (i : Int) : Prop := (0 ≤ i ∧ i < 2 ^ 31) ∨ (-2 ^ 31 ≤ i ∧ i < -2 ^ 31 + r)

variable (hkeys : ∀ i, (buff.lookup i).isSome → IsInt32 i)

theorem mem_toFinset_keys (i : Int) : i ∈ buff.keys.toFinset ↔ (buff.lookup i).isSome := by
  rw [List.mem_toFinset, ← AList.mem_keys, AList.lookup_isSome]

theorem card_toFinset_keys : buff.keys.toFinset.card = Map.size buff :=
  List.toFinset_card_of_nodup buff.nodupKeys

/-- Buffers are as large as what contains their indices, or smaller. -/
theorem size_le_card {s : Finset Int} (h : ∀ i, (buff.lookup i).isSome → i ∈ s) :
    Map.size buff ≤ s.card := by
  rw [← card_toFinset_keys]
  refine Finset.card_le_card fun i hi => ?_
  exact h i ((mem_toFinset_keys i).mp hi)

include hkeys

theorem size_le_of_isInt32 : Map.size buff ≤ 2 ^ 32 := by
  have hsub : ∀ i, (buff.lookup i).isSome → i ∈ Finset.Ico (-2147483648 : Int) 2147483648 := by
    intro i hi
    have hrange := hkeys i hi
    unfold IsInt32 at hrange
    rw [Finset.mem_Ico]
    omega
  have hle := size_le_card hsub
  rw [Int.card_Ico] at hle
  omega

/-- With the indices 0 .. m - 1 there are `m` of them, and the largest is an `int`. -/
theorem size_of_consecutive {m : Nat} (hm : ∀ i, (buff.lookup i).isSome ↔ 0 ≤ i ∧ i < m) :
    Map.size buff = m ∧ m ≤ 2 ^ 31 := by
  have hset : buff.keys.toFinset = Finset.Ico 0 (m : Int) := by
    ext i
    rw [mem_toFinset_keys, hm, Finset.mem_Ico]
  refine ⟨by rw [← card_toFinset_keys, hset, Int.card_Ico]; omega, ?_⟩
  by_contra hlarge
  have hrange := hkeys (2 ^ 31) ((hm _).mpr (by omega))
  unfold IsInt32 at hrange
  omega

/-- A walk to the end meets every index: it asks for as many different ones as there are. -/
theorem Walks.isSome_iff (h : Walks buff) (i : Int) :
    (buff.lookup i).isSome ↔ ∃ j : Nat, j < Map.size buff ∧ wrap32 j = i := by
  have hsize := size_le_of_isInt32 hkeys
  -- no two rounds ask for the same index, since there are at most 2^32
  have hinj : Set.InjOn (fun j : Nat => wrap32 j) (Finset.range (Map.size buff)) := by
    intro j hj k hk hjk
    have hj' : j < Map.size buff := by simpa using hj
    have hk' : k < Map.size buff := by simpa using hk
    have hvalue : ∀ l : Nat, l < 2 ^ 32 → wrap32 l = l ∨ wrap32 l = (l : Int) - 2 ^ 32 := by
      intro l hl
      rcases Nat.lt_or_ge l (2 ^ 31) with hlt | hge
      · exact .inl (wrap32_natCast_of_lt hlt)
      · exact .inr (wrap32_natCast_of_ge hge hl)
    have hjk' : wrap32 j = wrap32 k := hjk
    have := hvalue j (by omega)
    have := hvalue k (by omega)
    omega
  have hcard : ((Finset.range (Map.size buff)).image fun j : Nat => wrap32 j).card =
      Map.size buff := by
    rw [Finset.card_image_of_injOn hinj, Finset.card_range]
  have hsub : (Finset.range (Map.size buff)).image (fun j : Nat => wrap32 j) ⊆
      buff.keys.toFinset := by
    intro k hk
    obtain ⟨j, hj, rfl⟩ := Finset.mem_image.mp hk
    exact (mem_toFinset_keys _).mpr (h j (Finset.mem_range.mp hj))
  -- the indices asked for are in the buffer and as many as are in it, so they are all
  have heq := Finset.eq_of_subset_of_card_le hsub (by rw [hcard, card_toFinset_keys])
  rw [← mem_toFinset_keys, ← heq, Finset.mem_image]
  simp only [Finset.mem_range]

/-- The walk succeeds on consecutive indices from 0, and on wrapped ones. -/
theorem walks_iff : Walks buff ↔
    (∃ m : Nat, ∀ i, (buff.lookup i).isSome ↔ 0 ≤ i ∧ i < m) ∨
      ∃ r : Nat, 0 < r ∧ ∀ i, (buff.lookup i).isSome ↔ InWrapped r i := by
  have hsize := size_le_of_isInt32 hkeys
  constructor
  · intro h
    have hiff := h.isSome_iff hkeys
    rcases Nat.lt_or_ge (2 ^ 31) (Map.size buff) with hlarge | hsmall
    · -- from round 2^31 on the narrowed index is negative
      right
      refine ⟨Map.size buff - 2 ^ 31, by omega, fun i => ?_⟩
      rw [hiff, InWrapped]
      constructor
      · rintro ⟨j, hj, rfl⟩
        rcases Nat.lt_or_ge j (2 ^ 31) with hlt | hge
        · rw [wrap32_natCast_of_lt hlt]
          omega
        · rw [wrap32_natCast_of_ge hge (by omega)]
          omega
      · rintro (⟨h0, h1⟩ | ⟨h0, h1⟩)
        · exact ⟨i.toNat, by omega, by rw [wrap32_natCast_of_lt (by omega)]; omega⟩
        · exact ⟨(i + 2 ^ 32).toNat, by omega,
            by rw [wrap32_natCast_of_ge (by omega) (by omega)]; omega⟩
    · left
      refine ⟨Map.size buff, fun i => ?_⟩
      rw [hiff]
      constructor
      · rintro ⟨j, hj, rfl⟩
        rw [wrap32_natCast_of_lt (by omega)]
        omega
      · rintro ⟨h0, h1⟩
        exact ⟨i.toNat, by omega, by rw [wrap32_natCast_of_lt (by omega)]; omega⟩
  · rintro (⟨m, hm⟩ | ⟨r, -, hr⟩) j hj
    · obtain ⟨hsize', hm31⟩ := size_of_consecutive hkeys hm
      rw [wrap32_natCast_of_lt (by omega), hm]
      omega
    · have hsub : ∀ i, (buff.lookup i).isSome →
          i ∈ Finset.Ico 0 (2 ^ 31) ∪ Finset.Ico (-2 ^ 31) (-2 ^ 31 + r : Int) := by
        intro i hi
        rw [Finset.mem_union, Finset.mem_Ico, Finset.mem_Ico]
        exact (hr i).mp hi
      have hle := size_le_card hsub
      have hunion := hle.trans (Finset.card_union_le _ _)
      rw [Int.card_Ico, Int.card_Ico] at hunion
      rw [hr, InWrapped]
      rcases Nat.lt_or_ge j (2 ^ 31) with hlt | hge
      · rw [wrap32_natCast_of_lt hlt]
        omega
      · rw [wrap32_natCast_of_ge hge (by omega)]
        omega

end Walk

/-! ## Chunks and streams -/

/-- A call of `task_user_data` of task `n` with a chunk. -/
structure ChunkCall where
  n : Int
  object : Bytes
  data : Bytes
  stream : (find (str "stream") object).isSome
  nonempty : ¬ (data = [] ∨ data = str "None")

namespace ChunkCall

def index (c : ChunkCall) : Except Exn Int := stoi (sample_json_str_get c.data (str "index"))

def delta (c : ChunkCall) : Bytes := sample_json_str_get c.data (str "delta")

def finish (c : ChunkCall) : Bytes := sample_json_str_get c.data (str "finish")

def isFinal (c : ChunkCall) : Bool := (find (str "f") c.finish).isNone

/-- `std::stoi` rejects the index. -/
def Rejected (c : ChunkCall) : Prop := ∀ i, c.index ≠ .ok i

def hasIndex (i : Int) (c : ChunkCall) : Bool :=
  match c.index with
  | .ok j => j = i
  | .error _ => false

theorem hasIndex_iff {i : Int} {c : ChunkCall} : c.hasIndex i = true ↔ c.index = .ok i := by
  unfold hasIndex
  cases c.index <;> simp

end ChunkCall

/-- The most recent `delta` of an index. -/
def latest (cs : List ChunkCall) (i : Int) : Option Bytes :=
  ((cs.filter (·.hasIndex i)).getLast?).map (·.delta)

/-- Chunks that are kept, and one that is final or rejected. -/
structure ChunkStream where
  held : List ChunkCall
  last : ChunkCall
  accepted : ∀ c ∈ held, ∃ i, c.index = .ok i
  not_final : ∀ c ∈ held, c.isFinal = false
  ends : last.isFinal = true ∨ last.Rejected

namespace ChunkStream

def chunks (st : ChunkStream) : List ChunkCall := st.held ++ [st.last]

/-- Some chunk of the stream has this index. -/
def Received (st : ChunkStream) (i : Int) : Prop := ∃ c ∈ st.chunks, c.index = .ok i

/-- The received indices are 0 .. m - 1. -/
def Consecutive (st : ChunkStream) (m : Nat) : Prop := ∀ i, st.Received i ↔ 0 ≤ i ∧ i < m

/-- They are the indices from 0 on and at least one of the smallest. -/
def Wrapped (st : ChunkStream) : Prop := ∃ r : Nat, 0 < r ∧ ∀ i, st.Received i ↔ InWrapped r i

/-- The most recent texts in the order of their indices. -/
def text (st : ChunkStream) (m : Nat) : Bytes :=
  (List.range m).flatMap fun i : Nat => (latest st.chunks i).getD []

end ChunkStream

/-! ## The law of reassembly -/

/-- The node after a call, or after the exception that ended it. -/
def chunkCall (env : NodeEnv) (s : Node) (c : ChunkCall) : Node :=
  final (Llm.task_user_data env c.n c.object c.data) s

/-- The reply to a stream that cannot be put together. -/
def indexError (s : Node) : Out :=
  ⟨.push, s.out_zmq_url_, ⟨s.request_id_, s.unit_name_, str "None", LLM_NONE,
    error_body (-25) (str "Stream data index error.")⟩⟩

/-- This error is all that a call has come to. -/
structure IndexErrorOnly (s s' : Node) : Prop where
  inferences : s'.self.inferences = s.self.inferences
  outs : s'.outs = s.outs ++ [indexError s]

/-- The law for the stream `st` from state `s` on. -/
structure StreamLaw (env : NodeEnv) (s : Node) (st : ChunkStream) : Prop where
  silent : (Run.exec (chunkCall env) s st.held).self.inferences = s.self.inferences ∧
    (Run.exec (chunkCall env) s st.held).outs = s.outs
  rejected : st.last.Rejected → IndexErrorOnly (Run.exec (chunkCall env) s st.held)
    (Run.exec (chunkCall env) s st.chunks)
  complete : ¬ st.last.Rejected → ∀ m, st.Consecutive m →
    (Run.exec (chunkCall env) s st.chunks).self.inferences =
      s.self.inferences ++ [(st.last.n, st.text m)]
  incomplete : ¬ st.last.Rejected → (∀ m, ¬ st.Consecutive m) →
    IndexErrorOnly (Run.exec (chunkCall env) s st.held) (Run.exec (chunkCall env) s st.chunks)
  emptied : (Run.exec (chunkCall env) s st.chunks).self.stream_buff = ∅

/-! ## What calls leave alone -/

/-- Tasks stay alive, and the buffer stays as it is. -/
structure LiveFrame (s s' : Node) : Prop where
  live : ∀ n, s.Live n → s'.Live n
  stream_buff : s'.self.stream_buff = s.self.stream_buff

instance : IsPreorder Node LiveFrame where
  refl _ := ⟨fun _ h => h, rfl⟩
  trans _ _ _ hab hbc := ⟨fun n h => hbc.1 n (hab.1 n h), hbc.2.trans hab.2⟩

theorem Node.Live.withChannel {s : Node} {n m : Int} (h : Node.Live s n) (channel : Channel) :
    Node.Live (s.withChannel m channel) n := by
  refine ⟨h.1, ?_⟩
  rcases eq_or_ne n m with rfl | hne
  · rw [StackFlow.withChannel, AList.lookup_insert]
    rfl
  · rw [StackFlow.withChannel, AList.lookup_insert_ne hne]
    exact h.2

theorem inference_liveFrame (env : NodeEnv) (n : Int) (msg : Bytes) :
    Within LiveFrame (Llm.inference env n msg) := by
  apply Llm.inference_within
  · intro object data s
    rcases Llm.channel_send_final env n object data s with
      hsame | ⟨channel, channel', outs, -, -, hfinal⟩
    · rw [hsame]
      exact refl_of LiveFrame s
    · rw [hfinal]
      exact ⟨fun m hm => hm.withChannel channel', rfl⟩
  · exact fun s count => ⟨fun _ h => h, rfl⟩
  · exact fun s inferences => ⟨fun _ h => h, rfl⟩

/-! ## One call -/

section Calls

variable {env : NodeEnv} {s : Node} {c : ChunkCall}

theorem chunkCall_run (h : s.Live c.n) {d : Llm.Intake}
    (hd : Llm.intakeData c.object c.data s.self.stream_buff = d) :
    chunkCall env s c =
      match d with
      | .reject code message b =>
          final (StackFlow.send_error env code message s.unit_name_) (Llm.withBuff s b)
      | .hold b => Llm.withBuff s b
      | .infer msg b => final (Llm.inference env c.n msg) (Llm.withBuff s b) := by
  obtain ⟨task, htask⟩ := Option.isSome_iff_exists.mp h.1
  obtain ⟨channel, hchannel⟩ := Option.isSome_iff_exists.mp h.2
  have hintake : Llm.intake s c.n c.object c.data = d := by
    simp only [Llm.intake, htask, hchannel, hd]
  rw [chunkCall, final, Llm.task_user_data_run, hintake]
  cases d <;> rfl

/-- The decision on a chunk with an index. -/
theorem ChunkCall.intakeData_eq {i : Int} (hi : c.index = .ok i) (buff : Map Int Bytes) :
    Llm.intakeData c.object c.data buff =
      if c.isFinal then
        match joinStream (buff.insert i c.delta) (Map.size (buff.insert i c.delta)) 0 with
        | .ok out => .infer out ∅
        | .error _ => .reject (-25) (str "Stream data index error.") ∅
      else .hold (buff.insert i c.delta) :=
  Llm.intakeData_chunk c.stream hi buff

/-- A chunk that is not final is kept. -/
theorem chunkCall_held (h : s.Live c.n) {i : Int} (hi : c.index = .ok i)
    (hfinal : c.isFinal = false) :
    chunkCall env s c = Llm.withBuff s (s.self.stream_buff.insert i c.delta) := by
  have hd := ChunkCall.intakeData_eq hi s.self.stream_buff
  rw [if_neg (by simp [hfinal])] at hd
  exact chunkCall_run h hd

/-- A final chunk whose buffer is joined. -/
theorem chunkCall_joined (h : s.Live c.n) {i : Int} (hi : c.index = .ok i)
    (hfinal : c.isFinal = true) {out : Bytes}
    (hjoin : joinStream (s.self.stream_buff.insert i c.delta)
      (Map.size (s.self.stream_buff.insert i c.delta)) 0 = .ok out) :
    chunkCall env s c = final (Llm.inference env c.n out) (Llm.withBuff s ∅) := by
  have hd := ChunkCall.intakeData_eq hi s.self.stream_buff
  rw [if_pos hfinal, hjoin] at hd
  exact chunkCall_run h hd

/-- The decisions that come to the error. -/
theorem chunkCall_indexError (hemit : env.mode = .emit) (h : s.Live c.n)
    (hd : Llm.intakeData c.object c.data s.self.stream_buff =
      .reject (-25) (str "Stream data index error.") ∅) :
    chunkCall env s c = { Llm.withBuff s ∅ with outs := s.outs ++ [indexError s] } := by
  have hrun : chunkCall env s c =
      final (StackFlow.send_error env (-25) (str "Stream data index error.") s.unit_name_)
        (Llm.withBuff s ∅) := chunkCall_run h hd
  rw [hrun, final, StackFlow.send_error, StackFlow.send_run, StackFlow.body_emit hemit]
  rfl

/-- A final chunk whose buffer has a gap. -/
theorem chunkCall_gap (hemit : env.mode = .emit) (h : s.Live c.n) {i : Int}
    (hi : c.index = .ok i) (hfinal : c.isFinal = true) {e : Exn}
    (hjoin : joinStream (s.self.stream_buff.insert i c.delta)
      (Map.size (s.self.stream_buff.insert i c.delta)) 0 = .error e) :
    chunkCall env s c = { Llm.withBuff s ∅ with outs := s.outs ++ [indexError s] } := by
  have hd := ChunkCall.intakeData_eq hi s.self.stream_buff
  rw [if_pos hfinal, hjoin] at hd
  exact chunkCall_indexError hemit h hd

theorem chunkCall_rejected (hemit : env.mode = .emit) (h : s.Live c.n) (hrej : c.Rejected) :
    chunkCall env s c = { Llm.withBuff s ∅ with outs := s.outs ++ [indexError s] } := by
  obtain ⟨e, he⟩ : ∃ e, stoi (sample_json_str_get c.data (str "index")) = .error e := by
    cases hindex : stoi (sample_json_str_get c.data (str "index")) with
    | ok i => exact absurd hindex (hrej i)
    | error e => exact ⟨e, rfl⟩
  apply chunkCall_indexError hemit h
  rw [Llm.intakeData, if_neg c.nonempty, if_pos c.stream, decode_stream_eq, he]

end Calls

/-! ## The buffer of a stream -/

/-- The buffer with the chunks that have an index. -/
def stored (buff : Map Int Bytes) (c : ChunkCall) : Map Int Bytes :=
  match c.index with
  | .ok i => buff.insert i c.delta
  | .error _ => buff

theorem latest_append (cs : List ChunkCall) (c : ChunkCall) (i : Int) :
    latest (cs ++ [c]) i = if c.hasIndex i then some c.delta else latest cs i := by
  rw [latest, List.filter_append]
  by_cases h : c.hasIndex i = true
  · simp [h]
  · simp [h, latest]

/-- The buffer holds the most recent texts. -/
theorem lookup_stored (cs : List ChunkCall) (i : Int) :
    (cs.foldl stored ∅).lookup i = latest cs i := by
  induction cs using List.reverseRecOn with
  | nil => rfl
  | append_singleton cs c ih =>
      rw [List.foldl_append, List.foldl_cons, List.foldl_nil, latest_append, ← ih, stored,
        ChunkCall.hasIndex]
      cases c.index with
      | error e => rfl
      | ok j =>
          rcases eq_or_ne i j with rfl | hne
          · simp
          · simp [AList.lookup_insert_ne hne, hne.symm]

theorem isSome_latest_iff {cs : List ChunkCall} {i : Int} :
    (latest cs i).isSome ↔ ∃ c ∈ cs, c.index = .ok i := by
  rw [latest, Option.isSome_map, List.getLast?_isSome]
  constructor
  · intro h
    obtain ⟨c, hc⟩ := List.exists_mem_of_ne_nil _ h
    rw [List.mem_filter, ChunkCall.hasIndex_iff] at hc
    exact ⟨c, hc⟩
  · rintro ⟨c, hc, hi⟩
    exact List.ne_nil_of_mem (List.mem_filter.mpr ⟨hc, ChunkCall.hasIndex_iff.mpr hi⟩)

/-- The buffer with which the final chunk of a stream is decided. -/
def ChunkStream.buff (st : ChunkStream) : Map Int Bytes := st.chunks.foldl stored ∅

theorem ChunkStream.isSome_buff_iff (st : ChunkStream) (i : Int) :
    (st.buff.lookup i).isSome ↔ st.Received i := by
  rw [buff, lookup_stored, isSome_latest_iff, Received]

theorem ChunkStream.isInt32_of_buff (st : ChunkStream) (i : Int) (h : (st.buff.lookup i).isSome) :
    IsInt32 i := by
  obtain ⟨c, -, hc⟩ := (st.isSome_buff_iff i).mp h
  exact isInt32_of_stoi hc

theorem ChunkStream.walks_buff_iff (st : ChunkStream) :
    Walks st.buff ↔ (∃ m, st.Consecutive m) ∨ st.Wrapped := by
  rw [walks_iff st.isInt32_of_buff]
  simp only [st.isSome_buff_iff]
  rfl

/-- Consecutive indices are joined in their order. -/
theorem ChunkStream.joinStream_consecutive {st : ChunkStream} {m : Nat} (h : st.Consecutive m) :
    joinStream st.buff (Map.size st.buff) 0 = .ok (st.text m) := by
  have hwalks : Walks st.buff := st.walks_buff_iff.mpr (.inl ⟨m, h⟩)
  -- the buffer has `m` indices, all of them below 2^31, so the walk does not wrap
  obtain ⟨hsize, hm31⟩ := @size_of_consecutive st.buff st.isInt32_of_buff m
    fun i => (st.isSome_buff_iff i).trans (h i)
  rw [joinStream_eq_ok fun j _ hj => hwalks j (by omega), hsize, ← List.range_eq_range', text]
  congr 1
  apply List.flatMap_congr
  intro j hj
  rw [List.mem_range] at hj
  rw [wrap32_natCast_of_lt (by omega), buff, lookup_stored]

theorem ChunkStream.joinStream_gap {st : ChunkStream} (h : ¬ Walks st.buff) :
    joinStream st.buff (Map.size st.buff) 0 = .error .out_of_range := by
  unfold Walks at h
  push Not at h
  obtain ⟨j, hj, hnone⟩ := h
  apply joinStream_eq_error (Nat.zero_le j) (by omega)
  simpa using hnone

/-! ## Whole streams -/

section Streams

variable {env : NodeEnv} {s : Node}

theorem Node.Live.withBuff {n : Int} (h : s.Live n) (b : Map Int Bytes) :
    (Llm.withBuff s b).Live n := h

theorem exec_held {cs : List ChunkCall} (hlive : ∀ c ∈ cs, s.Live c.n)
    (haccepted : ∀ c ∈ cs, ∃ i, c.index = .ok i) (hopen : ∀ c ∈ cs, c.isFinal = false) :
    Run.exec (chunkCall env) s cs = Llm.withBuff s (cs.foldl stored s.self.stream_buff) := by
  induction cs generalizing s with
  | nil => rfl
  | cons c cs ih =>
      obtain ⟨i, hi⟩ := haccepted c (by simp)
      have hstored : stored s.self.stream_buff c = s.self.stream_buff.insert i c.delta := by
        rw [stored, hi]
      rw [Run.exec_cons, chunkCall_held (hlive c (by simp)) hi (hopen c (by simp)), ← hstored]
      exact ih (fun d hd => hlive d (by simp [hd])) (fun d hd => haccepted d (by simp [hd]))
        fun d hd => hopen d (by simp [hd])

variable {st : ChunkStream} (hbuff : s.self.stream_buff = ∅)
  (hlive : ∀ c ∈ st.chunks, s.Live c.n)

include hbuff hlive

/-- The last chunk meets the buffer of the others. -/
theorem exec_stream_chunks : Run.exec (chunkCall env) s st.chunks =
    chunkCall env (Llm.withBuff s (st.held.foldl stored ∅)) st.last := by
  have hheld := @exec_held env s st.held (fun c hc => hlive c (by simp [ChunkStream.chunks, hc]))
    st.accepted st.not_final
  rw [ChunkStream.chunks, Run.exec_append, hheld, hbuff]
  rfl

theorem exec_stream_held : Run.exec (chunkCall env) s st.held =
    Llm.withBuff s (st.held.foldl stored ∅) := by
  rw [exec_held (fun c hc => hlive c (by simp [ChunkStream.chunks, hc])) st.accepted st.not_final,
    hbuff]

omit hbuff in
theorem live_last : (Llm.withBuff s (st.held.foldl stored ∅)).Live st.last.n :=
  (hlive st.last (by simp [ChunkStream.chunks])).withBuff _

/-- What the last chunk of a stream comes to. -/
theorem exec_stream_cases (hemit : env.mode = .emit) :
    (st.last.Rejected ∨ ¬ Walks st.buff) ∧ Run.exec (chunkCall env) s st.chunks =
        { Llm.withBuff s ∅ with outs := s.outs ++ [indexError s] } ∨
      (¬ st.last.Rejected ∧ Walks st.buff) ∧ ∃ out,
        joinStream st.buff (Map.size st.buff) 0 = .ok out ∧ Run.exec (chunkCall env) s st.chunks =
          final (Llm.inference env st.last.n out) (Llm.withBuff s ∅) := by
  have hlast := live_last hlive
  rw [exec_stream_chunks hbuff hlive]
  by_cases hrej : st.last.Rejected
  · exact .inl ⟨.inl hrej, chunkCall_rejected hemit hlast hrej⟩
  · obtain ⟨i, hi⟩ : ∃ i, st.last.index = .ok i := by
      simpa [ChunkCall.Rejected] using hrej
    have hfinal : st.last.isFinal = true := st.ends.resolve_right hrej
    have hinsert : (st.held.foldl stored ∅).insert i st.last.delta = st.buff := by
      rw [ChunkStream.buff, ChunkStream.chunks, List.foldl_append, List.foldl_cons, List.foldl_nil,
        stored, hi]
    by_cases hwalks : Walks st.buff
    · have hjoin := @joinStream_eq_ok st.buff (Map.size st.buff) 0 fun j _ hj => hwalks j (by omega)
      refine .inr ⟨⟨hrej, hwalks⟩, _, hjoin, ?_⟩
      rw [← hinsert] at hjoin ⊢
      exact chunkCall_joined hlast hi hfinal hjoin
    · have hjoin := ChunkStream.joinStream_gap hwalks
      rw [← hinsert] at hjoin
      exact .inl ⟨.inr hwalks, chunkCall_gap hemit hlast hi hfinal hjoin⟩

/-- The law fails for a stream with wrapped indices only. -/
theorem streamLaw_iff (hemit : env.mode = .emit) :
    StreamLaw env s st ↔ st.last.Rejected ∨ ¬ st.Wrapped := by
  have hheld := @exec_stream_held env s st hbuff hlive
  rcases exec_stream_cases hbuff hlive hemit with
    ⟨hwhy, hexec⟩ | ⟨⟨hrej, hwalks⟩, out, hjoin, hexec⟩
  · -- the error is sent, and no index is missing only if the last chunk was rejected
    have hlaw : IndexErrorOnly (Run.exec (chunkCall env) s st.held)
        (Run.exec (chunkCall env) s st.chunks) := by
      rw [hheld, hexec]
      exact ⟨rfl, rfl⟩
    rw [st.walks_buff_iff, not_or, not_exists] at hwhy
    refine ⟨fun _ => hwhy.imp_right And.right, fun _ => ?_⟩
    refine ⟨by rw [hheld]; exact ⟨rfl, rfl⟩, fun _ => hlaw, fun hacc m hm => ?_, fun _ _ => hlaw,
      by rw [hexec]; rfl⟩
    exact absurd hm ((hwhy.resolve_left hacc).1 m)
  · -- the model is run, which is right for consecutive indices only
    have hinf : (Run.exec (chunkCall env) s st.chunks).self.inferences =
        s.self.inferences ++ [(st.last.n, out)] := by
      rw [hexec, Llm.inference_inferences]
      rfl
    constructor
    · rintro hlaw
      refine .inr fun hwrapped => ?_
      -- a negative index is among the received ones, so the error would be due
      obtain ⟨r, hr, hiff⟩ := hwrapped
      have hnot : ∀ m, ¬ st.Consecutive m := by
        intro m hm
        have hneg := (hm (-2 ^ 31)).mp ((hiff _).mpr (by unfold InWrapped; omega))
        omega
      have hsame := (hlaw.incomplete hrej hnot).inferences
      rw [hinf, hheld] at hsame
      exact absurd hsame (by simp [Llm.withBuff])
    · intro hcond
      obtain ⟨m, hm⟩ := (st.walks_buff_iff.mp hwalks).resolve_right (hcond.resolve_left hrej)
      refine ⟨by rw [hheld]; exact ⟨rfl, rfl⟩, fun h => absurd h hrej, fun _ k hk => ?_,
        fun _ hnot => absurd hm (hnot m), ?_⟩
      · have htext := ChunkStream.joinStream_consecutive hk
        rw [hjoin] at htext
        rw [hinf, Except.ok.inj htext]
      · rw [hexec]
        exact (inference_liveFrame env st.last.n out (Llm.withBuff s ∅)).stream_buff

/-- Whatever a stream comes to, it leaves the buffer empty and the tasks alive. -/
theorem exec_stream_leaves (hemit : env.mode = .emit) :
    (Run.exec (chunkCall env) s st.chunks).self.stream_buff = ∅ ∧
      ∀ n, s.Live n → Node.Live (Run.exec (chunkCall env) s st.chunks) n := by
  rcases exec_stream_cases hbuff hlive hemit with ⟨-, hexec⟩ | ⟨-, out, -, hexec⟩
  · rw [hexec]
    exact ⟨rfl, fun n h => h⟩
  · have hframe := inference_liveFrame env st.last.n out (Llm.withBuff s ∅)
    rw [hexec]
    exact ⟨hframe.stream_buff, fun n h => hframe.live n h⟩

end Streams

/-- One stream after the other. -/
def streamCalls (env : NodeEnv) (s : Node) (st : ChunkStream) : Node :=
  Run.exec (chunkCall env) s st.chunks

/-- For any number of streams to tasks that are alive, one after the other: the law of reassembly
    holds for the last of them if and only if it ends in a rejected chunk or its indices are not
    wrapped. -/
theorem later_stream_law_iff (env : NodeEnv) (hemit : env.mode = .emit) (s : Node)
    (hbuff : s.self.stream_buff = ∅) (earlier : List ChunkStream) (st : ChunkStream)
    (hlive : ∀ st' ∈ earlier ++ [st], ∀ c ∈ st'.chunks, s.Live c.n) :
    StreamLaw env (Run.exec (streamCalls env) s earlier) st ↔
      st.last.Rejected ∨ ¬ st.Wrapped := by
  induction earlier generalizing s with
  | nil => exact streamLaw_iff hbuff (hlive st (by simp)) hemit
  | cons st' earlier ih =>
      -- the first stream leaves an empty buffer and its tasks alive: the others start as it did
      obtain ⟨hempty, hkeeps⟩ := exec_stream_leaves hbuff (hlive st' (by simp)) hemit
      rw [Run.exec_cons]
      exact ih _ hempty fun st'' hst c hc => hkeeps _ (hlive st'' (by simp_all) c hc)

/-! ## Streams for task 0 -/

/-- The unit's own output as its input. -/
def outputChunk (index : Int) (delta : Bytes) (finish : Bool) : ChunkCall where
  n := 0
  object := str "llm.utf-8.stream"
  data := outputText index delta finish
  stream := by decide
  nonempty := by
    have hhead : (outputText index delta finish).head? = some (ch '{') := rfl
    rintro (h | h)
    · rw [h] at hhead
      cases hhead
    · rw [h] at hhead
      exact absurd hhead (by decide)

/-- A chunk without an index. -/
def unnumberedChunk : ChunkCall where
  n := 0
  object := str "llm.utf-8.stream"
  data := str "\x7b\"delta\": \"x\", \"finish\": false\x7d"
  stream := by decide
  nonempty := by decide

/-- A stream that is given up. -/
def brokenStream : ChunkStream where
  held := [outputChunk 7 (str "z") false]
  last := unnumberedChunk
  accepted := by
    intro c hc
    obtain rfl := List.mem_singleton.mp hc
    exact ⟨7, by decide +kernel⟩
  not_final := by decide +kernel
  ends := .inr fun i h => by cases h

/-- The middle chunk first, and the first one twice. -/
def shuffledStream : ChunkStream where
  held := [outputChunk 1 (str "b") false, outputChunk 0 (str "x") false,
    outputChunk 0 (str "a") false]
  last := outputChunk 2 (str "c") true
  accepted := by
    have hindex : ∀ c ∈ [outputChunk 1 (str "b") false, outputChunk 0 (str "x") false,
        outputChunk 0 (str "a") false], c.hasIndex 0 = true ∨ c.hasIndex 1 = true := by
      decide +kernel
    intro c hc
    rcases hindex c hc with h | h
    · exact ⟨0, ChunkCall.hasIndex_iff.mp h⟩
    · exact ⟨1, ChunkCall.hasIndex_iff.mp h⟩
  not_final := by decide +kernel
  ends := .inl (by decide +kernel)

theorem twoTasks_live : twoTasks.node.Live 0 := by decide +kernel

theorem later_stream_law_iff_shuffled :
    StreamLaw (configEnv .emit)
      (Run.exec (streamCalls (configEnv .emit)) twoTasks.node [brokenStream]) shuffledStream := by
  refine (later_stream_law_iff (configEnv .emit) rfl twoTasks.node twoTasks_stream_buff
    [brokenStream] shuffledStream ?_).mpr (.inr ?_)
  · have hn : ∀ st' ∈ [brokenStream] ++ [shuffledStream], ∀ c ∈ st'.chunks, c.n = 0 := by
      decide +kernel
    intro st' hst c hc
    rw [hn st' hst c hc]
    exact twoTasks_live
  · -- index 7 would be among wrapped ones
    rintro ⟨r, -, hr⟩
    obtain ⟨c, hc, hindex⟩ := (hr 7).mpr (.inl (by decide))
    have hno : ∀ c ∈ shuffledStream.chunks, c.hasIndex 7 = false := by decide +kernel
    rw [← ChunkCall.hasIndex_iff, hno c hc] at hindex
    cases hindex

/-- A chunk with an index of its own and no text. -/
theorem outputChunk_index {i : Int} (hi : IsInt32 i) (finish : Bool) :
    (outputChunk i [] finish).index = .ok i := by
  have hread := get_output_index i [] finish
  rw [if_neg (by decide)] at hread
  rw [ChunkCall.index, show (outputChunk i [] finish).data = outputText i [] finish from rfl, hread]
  exact stoi_to_string hi

theorem outputChunk_isFinal (i : Int) (finish : Bool) :
    (outputChunk i [] finish).isFinal = finish := by
  have hread := get_output_finish i [] finish
  rw [if_neg (by decide)] at hread
  rw [ChunkCall.isFinal, ChunkCall.finish,
    show (outputChunk i [] finish).data = outputText i [] finish from rfl, hread]
  cases finish <;> decide

/-- The indices below `m`. -/
def indexRun (m : Nat) : List ChunkCall := (List.range m).map fun i : Nat => outputChunk i [] false

theorem mem_indexRun {m : Nat} {c : ChunkCall} :
    c ∈ indexRun m ↔ ∃ i : Nat, i < m ∧ outputChunk i [] false = c := by
  rw [indexRun, List.mem_map]
  simp only [List.mem_range]

/-- All indices from 0 to 2^31 - 1, and then -2^31. -/
def wrappedStream : ChunkStream where
  held := indexRun (2 ^ 31)
  last := outputChunk (-2 ^ 31) [] true
  accepted := by
    intro c hc
    obtain ⟨i, hi, rfl⟩ := mem_indexRun.mp hc
    exact ⟨i, outputChunk_index (isInt32_natCast hi) false⟩
  not_final := by
    intro c hc
    obtain ⟨i, -, rfl⟩ := mem_indexRun.mp hc
    exact outputChunk_isFinal i false
  ends := .inl (outputChunk_isFinal _ true)

theorem mem_wrappedStream {c : ChunkCall} : c ∈ wrappedStream.chunks ↔
    (∃ i : Nat, i < 2 ^ 31 ∧ outputChunk i [] false = c) ∨ c = outputChunk (-2 ^ 31) [] true := by
  have hchunks : wrappedStream.chunks =
      indexRun (2 ^ 31) ++ [outputChunk (-2 ^ 31) [] true] := by
    rw [ChunkStream.chunks, wrappedStream]
  rw [hchunks, List.mem_append, List.mem_singleton, mem_indexRun]

theorem wrappedStream_received (i : Int) : wrappedStream.Received i ↔ InWrapped 1 i := by
  have hlast := @outputChunk_index (-2 ^ 31) (by decide) true
  constructor
  · rintro ⟨c, hc, hindex⟩
    rcases mem_wrappedStream.mp hc with ⟨j, hj, rfl⟩ | rfl
    · rw [outputChunk_index (isInt32_natCast hj) false] at hindex
      obtain rfl := Except.ok.inj hindex
      exact .inl (by omega)
    · rw [hlast] at hindex
      obtain rfl := Except.ok.inj hindex
      exact .inr (by omega)
  · rintro (⟨h0, h1⟩ | ⟨h0, h1⟩)
    · have hj : i.toNat < 2 ^ 31 := by omega
      have hcast : ((i.toNat : Nat) : Int) = i := by omega
      have hindex := outputChunk_index (isInt32_natCast hj) false
      rw [hcast] at hindex
      exact ⟨_, mem_wrappedStream.mpr (.inl ⟨i.toNat, hj, by rw [hcast]⟩), hindex⟩
    · obtain rfl : i = -2 ^ 31 := by omega
      exact ⟨_, mem_wrappedStream.mpr (.inr rfl), hlast⟩

/-- The indices are not consecutive, and the model is run all the same. -/
theorem wrapped_stream_joined :
    twoTasks.node.self.stream_buff = ∅ ∧
      (∀ c ∈ wrappedStream.chunks, twoTasks.node.Live c.n) ∧
      ¬ StreamLaw (configEnv .emit) twoTasks.node wrappedStream := by
  have hlive : ∀ c ∈ wrappedStream.chunks, twoTasks.node.Live c.n := by
    intro c hc
    have hn : c.n = 0 := by
      rcases mem_wrappedStream.mp hc with ⟨j, -, rfl⟩ | rfl <;> rfl
    rw [hn]
    exact twoTasks_live
  refine ⟨twoTasks_stream_buff, hlive, ?_⟩
  rw [streamLaw_iff twoTasks_stream_buff hlive rfl]
  rintro (hrej | hwrapped)
  · exact hrej _ (outputChunk_index (by decide) true)
  · exact hwrapped ⟨1, Nat.one_pos, wrappedStream_received⟩

end DoubleTurnouts
