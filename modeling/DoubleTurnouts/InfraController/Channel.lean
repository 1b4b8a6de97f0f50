/-
  DoubleTurnouts.InfraController.Channel

  `llm_channel_obj`: the sockets of one task and the reply context that the
  last inference message left in it.  The sockets live in a table under
  integer keys: -1 is the publisher, -2 the push socket to the current user,
  0 the task's own inference subscription, other numbers come from work ids
  and, from -1000 downwards, from URLs.

  A `shared_ptr` in the table may be null, and `operator[]` creates a null
  entry, so a slot is an `Option` and reading one returns the table too.
-/
import Mathlib.Tactic
import DoubleTurnouts.Lib.Run
import DoubleTurnouts.InfraController.OutBody
import DoubleTurnouts.InfraController.StackFlowUtil

namespace DoubleTurnouts

open Text Decimal

/-- The socket types a channel uses. -/
inductive SockKind
  | pub
  | push
  | sub
  deriving DecidableEq, Repr

/-- A live `pzmq` object. -/
structure Sock where
  url : Bytes
  kind : SockKind
  deriving DecidableEq, Repr

/-- A message handed to a socket. -/
structure Out where
  kind : SockKind
  url : Bytes
  body : OutBody

structure Channel where
  zmq_ : Map Int (Option Sock)
  zmq_url_index_ : Int
  zmq_url_map_ : Map Bytes Int
  enoutput_ : Bool
  enstream_ : Bool
  request_id_ : Bytes
  work_id_ : Bytes
  inference_url_ : Bytes
  publisher_url_ : Bytes
  output_url_ : Bytes

namespace Channel

/-- The constructor.  It leaves `enoutput_` and `enstream_` unset; they are set before the
    first `send`. -/
def new (_publisher_url inference_url : Bytes) : Channel where
  zmq_ := [⟨-1, some ⟨_publisher_url, .pub⟩⟩, ⟨-2, none⟩].toAList
  zmq_url_index_ := -1000
  zmq_url_map_ := ∅
  enoutput_ := false
  enstream_ := false
  request_id_ := []
  work_id_ := []
  inference_url_ := inference_url
  publisher_url_ := _publisher_url
  output_url_ := []

/-- `zmq_[index]`. -/
def slot (channel : Channel) (index : Int) : Option Sock × Channel :=
  match channel.zmq_.lookup index with
  | some sock => (sock, channel)
  -- operator[] on a missing key
  | none => (none, { channel with zmq_ := channel.zmq_.insert index none })

def set_push_url (channel : Channel) (url : Bytes) : Channel :=
  -- no new socket for the URL that is remembered, whether or not there is one
  if channel.output_url_ ≠ url then
    { channel with output_url_ := url, zmq_ := channel.zmq_.insert (-2) (some ⟨url, .push⟩) }
  else channel

@[simp] theorem set_push_url_work_id_ (channel : Channel) (url : Bytes) :
    (channel.set_push_url url).work_id_ = channel.work_id_ := by
  unfold set_push_url
  split <;> rfl

/-- Setting the URL that is remembered does nothing. -/
theorem set_push_url_of_eq {channel : Channel} {url : Bytes} (h : channel.output_url_ = url) :
    channel.set_push_url url = channel := by
  unfold set_push_url
  rw [if_neg (not_not.mpr h)]

def cear_push_url (channel : Channel) : Channel :=
  { channel with zmq_ := channel.zmq_.insert (-2) none }

/-! ## Subscriptions -/

/-- `\w` of the work id pattern. -/
def isWord (c : UInt8) : Bool :=
  isDigit c || (ch 'a' ≤ c && c ≤ ch 'z') || (ch 'A' ≤ c && c ≤ ch 'Z') || c = ch '_'

/-- `(\w+)\.(\d+)` against the whole text: the second group.  Neither group has a dot, so
    the dot of the pattern is the first one. -/
def work_id_match (work_id : Bytes) : Option Bytes :=
  match find [ch '.'] work_id with
  | none => none
  | some a =>
      let name := work_id.take a
      let number := work_id.drop (a + 1)
      if name ≠ [] ∧ name.all isWord ∧ number ≠ [] ∧ number.all isDigit then some number
      else none

/-- `subscriber_work_id`, with the answers of the manager's `sql_select`. -/
def subscriber_work_id (sql_select : Bytes → Bytes) (channel : Channel) (work_id : Bytes) :
    Except Exn (Int × Channel) :=
  match work_id_match work_id with
  | some number => do
      -- the unit's name is matched and then not used
      let id_num ← stoi number
      let input_url := sql_select (work_id ++ str ".out_port")
      if input_url = [] then return (-1, channel)
      return (0, { channel with zmq_ := channel.zmq_.insert id_num (some ⟨input_url, .sub⟩) })
  | none =>
      .ok (0, { channel with
        zmq_ := channel.zmq_.insert 0 (some ⟨channel.inference_url_, .sub⟩) })

def stop_subscriber_work_id (channel : Channel) (work_id : Bytes) : Except Exn Channel := do
  let id_num ← match work_id_match work_id with
    | some number => stoi number
    | none => .ok 0
  return { channel with zmq_ := channel.zmq_.erase id_num }

def subscriber (channel : Channel) (zmq_url : Bytes) : Channel :=
  let index := channel.zmq_url_index_
  { channel with
    zmq_url_index_ := wrap32 (index - 1)
    -- the old slot of a URL that is subscribed again is forgotten, not closed
    zmq_url_map_ := channel.zmq_url_map_.insert zmq_url index
    zmq_ := channel.zmq_.insert index (some ⟨zmq_url, .sub⟩) }

def stop_subscriber (channel : Channel) (zmq_url : Bytes) : Channel :=
  -- clear() takes the publisher and the push socket with it
  if zmq_url = [] then { channel with zmq_ := ∅, zmq_url_map_ := ∅ }
  else
    match channel.zmq_url_map_.lookup zmq_url with
    | none => channel
    | some index =>
        { channel with
          zmq_ := channel.zmq_.erase index
          zmq_url_map_ := channel.zmq_url_map_.erase zmq_url }

/-! ## Inference messages -/

/-- `"action"`, the text that marks a message as coming from a user. -/
def user_inference_flage_str : Bytes := find_key (str "action")

/-- The search loop of `subscriber_event_call`: some occurrence of the mark has a
    predecessor that is no backslash.  After an occurrence the search goes on `sizeof` of a
    pointer, that is 8 bytes, further, which is the length of the mark. -/
def userMarked : Option UInt8 → Nat → Bytes → Bool
  | _, _, [] => false
  | _, skip + 1, c :: s => userMarked (some c) skip s
  | prev, 0, c :: s =>
      if user_inference_flage_str.isPrefixOf (c :: s) then
        match prev with
        | none => userMarked (some c) 7 s
        | some p => if p ≠ backslash then true else userMarked (some c) 7 s
      else userMarked (some c) 0 s

/-- The reply context `subscriber_event_call` leaves in the channel. -/
def take_user (channel : Channel) (_raw : Bytes) : Channel :=
  if userMarked none 0 _raw then
    let zmq_com := sample_json_str_get _raw (str "zmq_com")
    -- a message without a client URL keeps the last client's
    let channel := if zmq_com ≠ [] then channel.set_push_url zmq_com else channel
    { channel with
      request_id_ := sample_json_str_get _raw (str "request_id")
      work_id_ := sample_json_str_get _raw (str "work_id") }
  else channel

/-! ## Sending -/

/-- `llm_channel_obj::send`: the publisher gets every message, the user those of a channel
    with output. -/
def send (env : NodeEnv) (channel : Channel) (object : Bytes) (data : Json)
    (error_msg : Json) (work_id : Bytes) : Except Exn (Channel × List Out) := do
  let error_msg ← env.error_msg error_msg
  let out_body : OutBody :=
    { request_id := channel.request_id_
      work_id := if work_id = [] then channel.work_id_ else work_id
      object := object
      data := data
      error := error_member error_msg }
  env.dump out_body
  match channel.slot (-1) with
  | (none, _) => throw .null_dereference
  | (some pub, channel) =>
      let published : List Out := [⟨.pub, pub.url, out_body⟩]
      if channel.enoutput_ then
        let (usr, channel) := channel.slot (-2)
        return (channel, published ++ usr.toList.map fun s => ⟨.push, s.url, out_body⟩)
      return (channel, published)

/-! ## The push socket

The socket to the user, while there is one, is connected to `output_url_`. -/

def PushOk (channel : Channel) : Prop :=
  ∀ sock, channel.zmq_.lookup (-2) = some (some sock) → sock.url = channel.output_url_

theorem new_pushOk (publisher_url inference_url : Bytes) :
    (new publisher_url inference_url).PushOk := by
  intro sock h
  have hnull : (new publisher_url inference_url).zmq_.lookup (-2) = some none := rfl
  rw [hnull] at h
  cases h

theorem PushOk.set_push_url {channel : Channel} (h : channel.PushOk) (url : Bytes) :
    (channel.set_push_url url).PushOk := by
  unfold Channel.set_push_url
  split
  · intro sock hsock
    simp only [AList.lookup_insert] at hsock
    cases hsock
    rfl
  · exact h

theorem output_url_set_push_url (channel : Channel) (url : Bytes) :
    (channel.set_push_url url).output_url_ = url := by
  unfold Channel.set_push_url
  split
  · rfl
  · rename_i hsame
    simpa using hsame

theorem stop_subscriber_nil_pushOk (channel : Channel) :
    (channel.stop_subscriber []).PushOk := by
  intro sock h
  cases h

theorem PushOk.take_user {channel : Channel} (h : channel.PushOk) (raw : Bytes) :
    (channel.take_user raw).PushOk := by
  unfold Channel.take_user
  split
  · dsimp only
    split
    · exact h.set_push_url _
    · exact h
  · exact h

/-- What a user's message leaves in the channel. -/
theorem take_user_context (channel : Channel) {raw : Bytes}
    (hmark : userMarked none 0 raw = true) (hcom : sample_json_str_get raw (str "zmq_com") ≠ []) :
    (channel.take_user raw).request_id_ = sample_json_str_get raw (str "request_id") ∧
      (channel.take_user raw).output_url_ = sample_json_str_get raw (str "zmq_com") := by
  unfold Channel.take_user
  rw [if_pos hmark]
  dsimp only
  rw [if_pos hcom]
  exact ⟨rfl, output_url_set_push_url channel _⟩

/-- Reading a slot other than the push socket's leaves it alone, and reading that one only
    adds a null entry. -/
theorem PushOk.slot {channel : Channel} (h : channel.PushOk) (index : Int) :
    (channel.slot index).2.PushOk := by
  unfold Channel.slot
  split
  · exact h
  · intro sock hsock
    -- the entry that is added for a missing slot is null, hence no socket
    rcases eq_or_ne (-2) index with rfl | hne
    · simp only [AList.lookup_insert] at hsock
      cases hsock
    · simp only [AList.lookup_insert_ne hne] at hsock
      exact h sock hsock

theorem slot_context (channel : Channel) (index : Int) :
    (channel.slot index).2.request_id_ = channel.request_id_ ∧
      (channel.slot index).2.output_url_ = channel.output_url_ ∧
      (channel.slot index).2.enoutput_ = channel.enoutput_ := by
  unfold Channel.slot
  split <;> exact ⟨rfl, rfl, rfl⟩

theorem PushOk.url_of_slot {channel : Channel} (h : channel.PushOk) {sock : Sock}
    (hsock : (channel.slot (-2)).1 = some sock) : sock.url = channel.output_url_ := by
  unfold Channel.slot at hsock
  split at hsock
  · rename_i entry hentry
    simp only at hsock
    rw [hsock] at hentry
    exact h sock hentry
  · cases hsock

end Channel

/-- If this is a user reply, it goes to `url` and carries `request_id`. -/
def Out.Routed (request_id url : Bytes) (o : Out) : Prop :=
  o.kind = .push → o.url = url ∧ o.body.request_id = request_id

/-- A channel keeps its context while it sends, and every user reply is routed by it. -/
theorem Channel.send_spec {env : NodeEnv} {channel channel' : Channel} {object : Bytes}
    {data error_msg : Json} {work_id : Bytes} {outs : List Out}
    (h : channel.send env object data error_msg work_id = .ok (channel', outs))
    (hpush : channel.PushOk) :
    channel'.PushOk ∧ channel'.request_id_ = channel.request_id_ ∧
      channel'.output_url_ = channel.output_url_ ∧
      ∀ o ∈ outs, o.Routed channel.request_id_ channel.output_url_ := by
  unfold Channel.send at h
  obtain ⟨error, -, h⟩ := exists_of_bind_eq_ok h
  obtain ⟨-, -, h⟩ := exists_of_bind_eq_ok h
  have hpush1 := hpush.slot (-1)
  obtain ⟨hid1, hurl1, -⟩ := channel.slot_context (-1)
  cases hslot : channel.slot (-1) with
  | mk pub channel1 =>
      rw [hslot] at hpush1 hid1 hurl1
      cases pub with
      | none =>
          rw [hslot] at h
          cases h
      | some pub =>
          simp only [hslot] at h
          by_cases hout : channel1.enoutput_ = true
          · -- The user's copy goes through slot -2, whose socket is at `output_url_`.
            obtain ⟨hid2, hurl2, -⟩ := channel1.slot_context (-2)
            rw [if_pos hout] at h
            cases h
            refine ⟨hpush1.slot (-2), hid2.trans hid1, hurl2.trans hurl1, ?_⟩
            intro o ho hkind
            simp only [List.mem_append, List.mem_singleton, List.mem_map,
              Option.mem_toList] at ho
            rcases ho with rfl | ⟨sock, hsock, rfl⟩
            · cases hkind
            · exact ⟨(hpush1.url_of_slot hsock).trans hurl1, rfl⟩
          · rw [if_neg hout] at h
            cases h
            refine ⟨hpush1, hid1, hurl1, ?_⟩
            intro o ho hkind
            obtain rfl := List.mem_singleton.mp ho
            cases hkind

end DoubleTurnouts
