/-
  DoubleTurnouts.InfraController.Endpoints

  The two sockets a channel sends through, along any sequence of its
  operations: the publisher in slot -1 and the push socket to the user in
  slot -2.  Next to the channel goes `user`, the URL that was set last and not
  cleared since, which is what the push socket should be connected to.

  `cear_push_url` leaves `output_url_` as it was, so setting the same URL again
  makes no socket, and `stop_subscriber("")` empties the whole table.  The
  invariant `Inv` therefore says two things about slot -2: with a user it has
  the socket to `output_url_`, and without one it has none.
-/
import Mathlib.Tactic
import DoubleTurnouts.InfraController.Subscriptions

namespace DoubleTurnouts

open Decimal

/-- An operation on a channel. -/
inductive ChannelOp
  | set_push_url (url : Bytes)
  | cear_push_url
  | subscription (op : SubscriptionOp)
  | set_output (flage : Bool)
  | send (object : Bytes) (data error_msg : Json) (work_id : Bytes)

namespace Channel

/-- `send_raw_to_pub`: the socket the message goes through.  It is not tested. -/
def send_raw_to_pub (channel : Channel) : Except Exn (Sock × Channel) :=
  match channel.slot (-1) with
  | (none, _) => throw .null_dereference
  | (some pub, channel) => .ok (pub, channel)

/-- `send_raw_to_usr`: the socket, or nothing and the result -1. -/
def send_raw_to_usr (channel : Channel) : Option Sock × Channel := channel.slot (-2)

/-- `send` hands its message to the two functions. -/
theorem send_eq (env : NodeEnv) (channel : Channel) (object : Bytes) (data error_msg : Json)
    (work_id : Bytes) : channel.send env object data error_msg work_id = (do
      let error_msg ← env.error_msg error_msg
      let out_body : OutBody :=
        { request_id := channel.request_id_
          work_id := if work_id = [] then channel.work_id_ else work_id
          object := object
          data := data
          error := error_member error_msg }
      env.dump out_body
      let (pub, channel) ← channel.send_raw_to_pub
      if channel.enoutput_ then
        let (usr, channel) := channel.send_raw_to_usr
        return (channel, ⟨.pub, pub.url, out_body⟩ ::
          usr.toList.map fun s => ⟨.push, s.url, out_body⟩)
      return (channel, [⟨.pub, pub.url, out_body⟩])) := by
  unfold send send_raw_to_pub send_raw_to_usr
  refine bind_congr fun error => ?_
  refine bind_congr fun _ => ?_
  cases hslot : channel.slot (-1) with
  | mk pub channel' => cases pub <;> rfl

/-- The socket in a slot. -/
def sockAt (channel : Channel) (i : Int) : Option Sock := (channel.zmq_.lookup i).join

theorem slot_fst (channel : Channel) (i : Int) : (channel.slot i).1 = channel.sockAt i := by
  unfold slot sockAt
  split <;> simp_all

theorem sockAt_insert (channel : Channel) (i j : Int) (sock : Option Sock) :
    sockAt { channel with zmq_ := channel.zmq_.insert i sock } j =
      if j = i then sock else channel.sockAt j := by
  unfold sockAt
  split
  · rename_i heq
    subst heq
    rw [AList.lookup_insert]
    rfl
  · rename_i hne
    rw [AList.lookup_insert_ne hne]

theorem sockAt_erase (channel : Channel) (i j : Int) :
    sockAt { channel with zmq_ := channel.zmq_.erase i } j =
      if j = i then none else channel.sockAt j := by
  unfold sockAt
  split
  · rename_i heq
    subst heq
    rw [AList.lookup_erase]
    rfl
  · rename_i hne
    rw [AList.lookup_erase_ne hne]

/-- Reading a slot adds a null entry at most. -/
theorem sockAt_slot (channel : Channel) (i j : Int) :
    (channel.slot i).2.sockAt j = channel.sockAt j := by
  unfold slot
  split
  · rfl
  · rename_i hnone
    rw [sockAt_insert]
    split
    · rename_i heq
      subst heq
      simp [sockAt, hnone]
    · rfl

theorem sockAt_set_push_url_of_ne {channel : Channel} {url : Bytes}
    (h : channel.output_url_ ≠ url) :
    (channel.set_push_url url).sockAt (-2) = some ⟨url, .push⟩ := by
  unfold set_push_url
  rw [if_pos h]
  exact (channel.sockAt_insert (-2) (-2) _).trans (if_pos rfl)

theorem sockAt_set_push_url (channel : Channel) (url : Bytes) :
    (channel.set_push_url url).sockAt (-1) = channel.sockAt (-1) := by
  unfold set_push_url
  split
  · exact (channel.sockAt_insert (-2) (-1) _).trans (if_neg (by decide))
  · rfl

/-- Digits have no sign. -/
theorem stoi_nonneg {s : Bytes} (hdigits : ∀ c ∈ s, isDigit c = true) {j : Int}
    (h : stoi s = .ok j) : 0 ≤ j := by
  have hsign : ∀ t : Bytes, (∀ c ∈ t, isDigit c = true) → (splitSign t).1 = false := by
    intro t ht
    cases t with
    | nil => rfl
    | cons c t =>
        have hc := ht c (by simp)
        have hminus : c ≠ ch '-' := by
          rintro rfl
          cases hc
        simp only [splitSign, if_neg hminus]
        split <;> rfl
  have hneg := hsign (s.dropWhile isSpace) fun c hc =>
    hdigits c ((List.dropWhile_sublist isSpace).subset hc)
  simp only [stoi] at h
  split_ifs at h
  cases h
  rw [hneg]
  simp [applySign]

/-- Slots of work ids are not negative. -/
theorem id_num_nonneg {work_id : Bytes} {j : Int} (h : id_num work_id = .ok j) : 0 ≤ j := by
  unfold id_num at h
  cases hmatch : work_id_match work_id with
  | none =>
      simp only [hmatch, Except.ok.injEq] at h
      omega
  | some number =>
      simp only [hmatch] at h
      have hdigits : ∀ c ∈ number, isDigit c = true := by
        unfold work_id_match at hmatch
        split at hmatch
        · cases hmatch
        · dsimp only at hmatch
          split at hmatch
          · rename_i hform
            cases hmatch
            exact List.all_eq_true.mp hform.2.2.2
          · cases hmatch
      exact stoi_nonneg hdigits h

/-- Work id calls leave the reserved slots, the URL map and `output_url_` alone. -/
structure Frame (channel channel' : Channel) : Prop where
  reserved : ∀ i < 0, channel'.sockAt i = channel.sockAt i
  map : channel'.zmq_url_map_ = channel.zmq_url_map_
  url : channel'.output_url_ = channel.output_url_

theorem frame_subscriber_work_id {channel channel' : Channel} {work_id input_url : Bytes}
    (h : channel.apply (.subscriber_work_id work_id input_url) = .ok channel') :
    Frame channel channel' := by
  rw [Subscriptions.apply_subscriber_work_id] at h
  cases hj : id_num work_id with
  | error e =>
      rw [hj] at h
      cases h
  | ok j =>
      rw [hj] at h
      simp only [Except.map, Except.ok.injEq] at h
      subst h
      split
      · exact ⟨fun _ _ => rfl, rfl, rfl⟩
      · refine ⟨fun i hi => ?_, rfl, rfl⟩
        have hne : i ≠ j := by
          have := id_num_nonneg hj
          omega
        exact (channel.sockAt_insert j i _).trans (if_neg hne)

theorem frame_stop_subscriber_work_id {channel channel' : Channel} {work_id : Bytes}
    (h : channel.apply (.stop_subscriber_work_id work_id) = .ok channel') :
    Frame channel channel' := by
  rw [Subscriptions.apply_stop_subscriber_work_id] at h
  cases hj : id_num work_id with
  | error e =>
      rw [hj] at h
      cases h
  | ok j =>
      rw [hj] at h
      simp only [Except.map, Except.ok.injEq] at h
      subst h
      refine ⟨fun i hi => ?_, rfl, rfl⟩
      have hne : i ≠ j := by
        have := id_num_nonneg hj
        omega
      exact (channel.sockAt_erase j i).trans (if_neg hne)

/-- Sending reads slots only. -/
theorem frame_send {env : NodeEnv} {channel channel' : Channel} {object : Bytes}
    {data error_msg : Json} {work_id : Bytes} {outs : List Out}
    (h : channel.send env object data error_msg work_id = .ok (channel', outs)) :
    Frame channel channel' := by
  have hslot : ∀ (c : Channel) i, Frame c (c.slot i).2 := by
    intro c i
    refine ⟨fun j _ => c.sockAt_slot i j, ?_, (c.slot_context i).2.1⟩
    unfold slot
    split <;> rfl
  rw [send_eq] at h
  obtain ⟨error, -, h⟩ := exists_of_bind_eq_ok h
  obtain ⟨-, -, h⟩ := exists_of_bind_eq_ok h
  obtain ⟨⟨pub, channel1⟩, hpub, h⟩ := exists_of_bind_eq_ok h
  have hfirst : Frame channel channel1 := by
    have hread := hslot channel (-1)
    unfold send_raw_to_pub at hpub
    split at hpub
    · cases hpub
    · rename_i heq
      cases hpub
      rwa [heq] at hread
  have hsecond := hslot channel1 (-2)
  dsimp only at h
  split at h
  · cases h
    exact ⟨fun i hi => (hsecond.reserved i hi).trans (hfirst.reserved i hi),
      hsecond.map.trans hfirst.map, hsecond.url.trans hfirst.url⟩
  · cases h
    exact hfirst

end Channel

/-- A channel, and the URL set last and not cleared since. -/
structure Endpoints where
  channel : Channel
  user : Option Bytes

namespace Endpoints

def new (publisher_url inference_url : Bytes) : Endpoints where
  channel := Channel.new publisher_url inference_url
  user := none

/-- An operation that throws leaves the channel as it was. -/
def step (env : NodeEnv) (e : Endpoints) : ChannelOp → Endpoints
  | .set_push_url url =>
      { channel := e.channel.set_push_url url, user := if url = [] then none else some url }
  | .cear_push_url => { channel := e.channel.cear_push_url, user := none }
  | .subscription op =>
      match e.channel.apply op with
      | .error _ => e
      | .ok channel =>
          { channel := channel, user := if op = .stop_subscriber [] then none else e.user }
  | .set_output flage => { e with channel := { e.channel with enoutput_ := flage } }
  | .send object data error_msg work_id =>
      match e.channel.send env object data error_msg work_id with
      | .error _ => e
      | .ok (channel, _) => { e with channel := channel }

/-- The publisher is there, and what is sent to the user goes to the URL set last. -/
def Usable (e : Endpoints) : Prop :=
  (∃ pub channel, e.channel.send_raw_to_pub = .ok (pub, channel) ∧ pub.kind = .pub) ∧
    ∀ url, e.user = some url → e.channel.send_raw_to_usr.1 = some ⟨url, .push⟩

/-- The condition on an operation: not all subscriptions are stopped at once, a URL is set
    again only while a user is set or after another URL, and no URL gets or gives up the slot
    of the publisher or of the user. -/
def Keeps (e : Endpoints) : ChannelOp → Prop
  | .set_push_url url => url ≠ [] → e.channel.output_url_ = url → e.user ≠ none
  | .subscription (.stop_subscriber url) =>
      url ≠ [] ∧ (e.channel.zmq_url_map_.lookup url = some (-2) → e.user = none)
  | .subscription (.subscriber _) =>
      e.channel.zmq_url_index_ ≠ -1 ∧ (e.channel.zmq_url_index_ = -2 → e.user = none)
  | _ => True

theorem usable_iff {e : Endpoints} : e.Usable ↔
    (∃ url, e.channel.sockAt (-1) = some ⟨url, .pub⟩) ∧
      ∀ url, e.user = some url → e.channel.sockAt (-2) = some ⟨url, .push⟩ := by
  unfold Usable Channel.send_raw_to_usr
  rw [Channel.slot_fst]
  refine and_congr ?_ Iff.rfl
  have hfst := e.channel.slot_fst (-1)
  unfold Channel.send_raw_to_pub
  -- the publisher is usable exactly if slot -1 has a PUB socket
  cases hslot : e.channel.slot (-1) with
  | mk pub channel =>
      rw [hslot] at hfst
      rw [← hfst]
      rcases pub with _ | ⟨url, kind⟩
      · simp [throw, throwThe, MonadExceptOf.throw]
      · simp

/-! ## The invariant -/

/-- With a user slot -2 has the socket to `output_url_`, without one it has no socket there. -/
structure Inv (e : Endpoints) : Prop where
  pub : ∃ url, e.channel.sockAt (-1) = some ⟨url, .pub⟩
  push : ∀ url, e.user = some url →
    e.channel.output_url_ = url ∧ e.channel.sockAt (-2) = some ⟨url, .push⟩
  idle : e.user = none → e.channel.output_url_ ≠ [] →
    e.channel.sockAt (-2) ≠ some ⟨e.channel.output_url_, .push⟩
  index : ∀ url, e.channel.zmq_url_map_.lookup url ≠ some (-1)

theorem Inv.usable {e : Endpoints} (h : Inv e) : e.Usable :=
  usable_iff.mpr ⟨h.pub, fun url hurl => (h.push url hurl).2⟩

theorem inv_new (publisher_url inference_url : Bytes) : Inv (new publisher_url inference_url) where
  pub := ⟨publisher_url, rfl⟩
  push := fun _ hurl => by cases hurl
  idle := fun _ hne => absurd rfl hne
  index := fun _ hurl => by cases hurl

section Steps

variable {env : NodeEnv} {e : Endpoints}

/-- An operation on the other slots, or on slot -2 while there is no user. -/
theorem Inv.of_slots (h : Inv e) {channel : Channel}
    (hurl : channel.output_url_ = e.channel.output_url_)
    (hpub : channel.sockAt (-1) = e.channel.sockAt (-1))
    (hpush : channel.sockAt (-2) = e.channel.sockAt (-2) ∨
      e.user = none ∧ ∀ url, channel.sockAt (-2) ≠ some ⟨url, .push⟩)
    (hindex : ∀ url, channel.zmq_url_map_.lookup url ≠ some (-1)) :
    Inv { e with channel := channel } where
  pub := hpub ▸ h.pub
  push := by
    intro url huser
    obtain ⟨hout, hsock⟩ := h.push url huser
    rcases hpush with hsame | ⟨hnone, -⟩
    · exact ⟨hurl.trans hout, hsame.trans hsock⟩
    · rw [hnone] at huser
      cases huser
  idle := by
    intro huser hne
    rcases hpush with hsame | ⟨-, hnot⟩
    · have hidle := h.idle huser (hurl ▸ hne)
      dsimp only
      rwa [hsame, hurl]
    · exact hnot _
  index := hindex

theorem Inv.cear_push_url (h : Inv e) : Inv (e.step env .cear_push_url) where
  pub := by
    obtain ⟨url, hurl⟩ := h.pub
    refine ⟨url, ?_⟩
    show Channel.sockAt { e.channel with zmq_ := e.channel.zmq_.insert (-2) none } (-1) = _
    rw [Channel.sockAt_insert]
    exact hurl
  push := fun _ huser => by cases huser
  idle := by
    intro _ _
    show Channel.sockAt { e.channel with zmq_ := e.channel.zmq_.insert (-2) none } (-2) ≠ _
    rw [Channel.sockAt_insert, if_pos rfl]
    simp
  index := h.index

/-- Setting a URL again while a user is set, or another one. -/
theorem Inv.set_push_url (h : Inv e) {url : Bytes} (hkeeps : e.Keeps (.set_push_url url)) :
    Inv (e.step env (.set_push_url url)) where
  pub := by
    obtain ⟨url', hurl'⟩ := h.pub
    exact ⟨url', (e.channel.sockAt_set_push_url url).trans hurl'⟩
  push := by
    intro url' huser
    have huser : (if url = [] then none else some url) = some url' := huser
    split_ifs at huser with hnil
    cases huser
    refine ⟨Channel.output_url_set_push_url e.channel url, ?_⟩
    by_cases hsame : e.channel.output_url_ = url
    · -- the URL is the one in force
      obtain ⟨url', huser⟩ := Option.ne_none_iff_exists'.mp (hkeeps hnil hsame)
      obtain ⟨hout, hsock⟩ := h.push url' huser
      rw [← hout, hsame] at hsock
      show (e.channel.set_push_url url).sockAt (-2) = _
      rw [Channel.set_push_url_of_eq hsame]
      exact hsock
    · exact Channel.sockAt_set_push_url_of_ne hsame
  idle := by
    intro huser hne
    have huser : (if url = [] then none else some url) = none := huser
    have hurl : (e.channel.set_push_url url).output_url_ ≠ [] := hne
    rw [Channel.output_url_set_push_url] at hurl
    rw [if_neg hurl] at huser
    cases huser
  index := by
    intro url'
    show (e.channel.set_push_url url).zmq_url_map_.lookup url' ≠ some (-1)
    unfold Channel.set_push_url
    split <;> exact h.index url'

theorem Inv.subscriber (h : Inv e) {zmq_url : Bytes}
    (hkeeps : e.Keeps (.subscription (.subscriber zmq_url))) :
    Inv { e with channel := e.channel.subscriber zmq_url } := by
  obtain ⟨hpub, hpush⟩ := hkeeps
  have hsock : ∀ i, (e.channel.subscriber zmq_url).sockAt i =
      if i = e.channel.zmq_url_index_ then some ⟨zmq_url, .sub⟩ else e.channel.sockAt i :=
    fun i => e.channel.sockAt_insert e.channel.zmq_url_index_ i _
  refine h.of_slots rfl ?_ ?_ ?_
  -- the counter is not at the publisher's slot
  · rw [hsock, if_neg (Ne.symm hpub)]
  · by_cases hindex : e.channel.zmq_url_index_ = -2
    · right
      refine ⟨hpush hindex, fun url => ?_⟩
      rw [hsock, if_pos hindex.symm]
      simp
    · left
      rw [hsock, if_neg (Ne.symm hindex)]
  · intro url
    show AList.lookup url (e.channel.zmq_url_map_.insert zmq_url _) ≠ _
    rcases eq_or_ne url zmq_url with rfl | hne
    · rw [AList.lookup_insert]
      simpa using hpub
    · rw [AList.lookup_insert_ne hne]
      exact h.index url

theorem Inv.stop_subscriber (h : Inv e) {zmq_url : Bytes}
    (hkeeps : e.Keeps (.subscription (.stop_subscriber zmq_url))) :
    Inv { e with channel := e.channel.stop_subscriber zmq_url } := by
  obtain ⟨hurl, hpush⟩ := hkeeps
  unfold Channel.stop_subscriber
  rw [if_neg hurl]
  cases hj : e.channel.zmq_url_map_.lookup zmq_url with
  | none => exact h
  | some j =>
      -- no URL was ever given the publisher's slot
      have hpub : j ≠ -1 := fun heq => h.index zmq_url (heq ▸ hj)
      refine h.of_slots rfl ?_ ?_ ?_
      · exact (e.channel.sockAt_erase j (-1)).trans (if_neg (Ne.symm hpub))
      · by_cases hindex : j = -2
        · right
          refine ⟨hpush (hindex ▸ hj), fun url => ?_⟩
          have hnone := (e.channel.sockAt_erase j (-2)).trans (if_pos hindex.symm)
          exact fun hsome => by cases hnone.symm.trans hsome
        · left
          exact (e.channel.sockAt_erase j (-2)).trans (if_neg (Ne.symm hindex))
      · intro url
        rcases eq_or_ne url zmq_url with rfl | hne
        · simp [AList.lookup_erase]
        · simp only [AList.lookup_erase_ne hne]
          exact h.index url

theorem Inv.of_frame (h : Inv e) {channel : Channel} (hframe : Channel.Frame e.channel channel) :
    Inv { e with channel := channel } := by
  refine h.of_slots hframe.url (hframe.reserved _ (by decide))
    (.inl (hframe.reserved _ (by decide))) ?_
  rw [hframe.map]
  exact h.index

/-- Every operation that meets the condition keeps the invariant. -/
theorem Inv.step (h : Inv e) (op : ChannelOp) (hkeeps : e.Keeps op) : Inv (e.step env op) := by
  cases op with
  | set_push_url url => exact h.set_push_url hkeeps
  | cear_push_url => exact h.cear_push_url
  | set_output flage => exact h.of_frame ⟨fun _ _ => rfl, rfl, rfl⟩
  | send object data error_msg work_id =>
      unfold Endpoints.step
      dsimp only
      split
      · exact h
      · rename_i hsend
        exact h.of_frame (Channel.frame_send hsend)
  | subscription op =>
      cases op with
      | subscriber zmq_url => exact h.subscriber hkeeps
      | stop_subscriber zmq_url =>
          have hne : SubscriptionOp.stop_subscriber zmq_url ≠ .stop_subscriber [] := by
            simpa using hkeeps.1
          have hstep : e.step env (.subscription (.stop_subscriber zmq_url)) =
              { e with channel := e.channel.stop_subscriber zmq_url } := by
            simp only [Endpoints.step, Channel.apply, if_neg hne]
          rw [hstep]
          exact h.stop_subscriber hkeeps
      | subscriber_work_id work_id input_url =>
          unfold Endpoints.step
          dsimp only
          split
          · exact h
          · rename_i happly
            exact h.of_frame (Channel.frame_subscriber_work_id happly)
      | stop_subscriber_work_id work_id =>
          unfold Endpoints.step
          dsimp only
          split
          · exact h
          · rename_i happly
            exact h.of_frame (Channel.frame_stop_subscriber_work_id happly)

/-! ## Operations that do not meet the condition -/

/-- The URL of a user that was cleared is set again: there is no socket to it. -/
theorem Inv.not_usable_set_push_url (h : Inv e) {url : Bytes}
    (hkeeps : ¬ e.Keeps (.set_push_url url)) : ¬ (e.step env (.set_push_url url)).Usable := by
  simp only [Keeps, ne_eq, Classical.not_imp, not_not] at hkeeps
  obtain ⟨hnil, hsame, hnone⟩ := hkeeps
  intro husable
  have hpush := (usable_iff.mp husable).2 url (if_neg hnil)
  have hpush : (e.channel.set_push_url url).sockAt (-2) = some ⟨url, .push⟩ := hpush
  rw [Channel.set_push_url_of_eq hsame] at hpush
  -- output_url_ still names the URL, so no socket was made
  apply h.idle hnone (by rwa [hsame])
  rw [hsame]
  exact hpush

/-- A URL takes the slot of the publisher or of the user. -/
theorem not_usable_subscriber {zmq_url : Bytes}
    (hkeeps : ¬ e.Keeps (.subscription (.subscriber zmq_url))) :
    ¬ (e.step env (.subscription (.subscriber zmq_url))).Usable := by
  intro husable
  obtain ⟨⟨url, hpub⟩, hpush⟩ := usable_iff.mp husable
  have hsock : ∀ i, (e.channel.subscriber zmq_url).sockAt i =
      if i = e.channel.zmq_url_index_ then some ⟨zmq_url, .sub⟩ else e.channel.sockAt i :=
    fun i => e.channel.sockAt_insert e.channel.zmq_url_index_ i _
  apply hkeeps
  constructor
  · intro hindex
    have hpub : (e.channel.subscriber zmq_url).sockAt (-1) = some ⟨url, .pub⟩ := hpub
    -- the SUB socket has replaced the publisher
    rw [hsock, if_pos hindex.symm] at hpub
    cases hpub
  · intro hindex
    by_contra hne
    obtain ⟨user, huser⟩ := Option.ne_none_iff_exists'.mp hne
    have hpush : (e.channel.subscriber zmq_url).sockAt (-2) = some ⟨user, .push⟩ :=
      hpush user huser
    rw [hsock, if_pos hindex.symm] at hpush
    cases hpush

/-- All subscriptions are stopped, or the URL that has the user's slot. -/
theorem not_usable_stop_subscriber {zmq_url : Bytes}
    (hkeeps : ¬ e.Keeps (.subscription (.stop_subscriber zmq_url))) :
    ¬ (e.step env (.subscription (.stop_subscriber zmq_url))).Usable := by
  intro husable
  obtain ⟨⟨url, hpub⟩, hpush⟩ := usable_iff.mp husable
  by_cases hnil : zmq_url = []
  · subst hnil
    cases hpub
  · apply hkeeps
    refine ⟨hnil, fun hslot => ?_⟩
    by_contra hne
    obtain ⟨user, huser⟩ := Option.ne_none_iff_exists'.mp hne
    have hpush := hpush user (by simpa [Endpoints.step, Channel.apply, hnil] using huser)
    have hpush : (e.channel.stop_subscriber zmq_url).sockAt (-2) = some ⟨user, .push⟩ := hpush
    simp only [Channel.stop_subscriber, if_neg hnil, hslot] at hpush
    cases ((e.channel.sockAt_erase (-2) (-2)).trans (if_pos rfl)).symm.trans hpush

/-- One operation: the endpoints stay usable if and only if it meets the condition. -/
theorem Inv.usable_step_iff (h : Inv e) (op : ChannelOp) :
    (e.step env op).Usable ↔ e.Keeps op := by
  refine ⟨fun husable => ?_, fun hkeeps => (h.step op hkeeps).usable⟩
  by_contra hkeeps
  cases op with
  | set_push_url url => exact h.not_usable_set_push_url hkeeps husable
  | cear_push_url => exact hkeeps trivial
  | set_output flage => exact hkeeps trivial
  | send object data error_msg work_id => exact hkeeps trivial
  | subscription op =>
      cases op with
      | subscriber zmq_url => exact not_usable_subscriber hkeeps husable
      | stop_subscriber zmq_url => exact not_usable_stop_subscriber hkeeps husable
      | subscriber_work_id work_id input_url => exact hkeeps trivial
      | stop_subscriber_work_id work_id => exact hkeeps trivial

end Steps

/-! ## Whole runs -/

/-- In every sequence of operations both endpoints are usable after each of them if and only if
    each meets the condition. -/
theorem endpoints_usable_iff (env : NodeEnv) (publisher_url inference_url : Bytes)
    (ops : List ChannelOp) :
    Run.AllSteps (step env) (fun e op => (e.step env op).Usable)
        (new publisher_url inference_url) ops ↔
      Run.AllSteps (step env) Keeps (new publisher_url inference_url) ops := by
  refine Run.AllSteps.iff_of_guarded (I := Inv) (W := fun _ => True) ?_ ?_
    (inv_new publisher_url inference_url) fun _ _ => trivial
  · intro e op h _ hkeeps
    exact h.step op hkeeps
  · intro e op h _
    exact h.usable_step_iff op

/-- No text is JSON; the operations below do not ask. -/
def noJson : NodeEnv where
  json_parse _ := none
  json_parse_valid := by
    intro _ _ h
    cases h
  mode := .convert

def clearedUser : List ChannelOp :=
  [.set_push_url (str "u"), .cear_push_url, .set_push_url (str "u")]

def stoppedAll : List ChannelOp := [.subscription (.stop_subscriber [])]

/-- A user that is cleared and set again gets nothing, and once all subscriptions are stopped the
    publisher is missing. -/
theorem cleared_endpoints_unusable :
    (¬ Run.AllSteps (step noJson) (fun e op => (e.step noJson op).Usable) (new [] []) clearedUser) ∧
      (Run.exec (step noJson) (new [] []) clearedUser).channel.send_raw_to_usr.1 = none ∧
      (¬ Run.AllSteps (step noJson) (fun e op => (e.step noJson op).Usable) (new [] [])
        stoppedAll) ∧
      (Run.exec (step noJson) (new [] []) stoppedAll).channel.send_raw_to_pub =
        .error .null_dereference := by
  refine ⟨?_, rfl, ?_, rfl⟩
  · rintro ⟨-, -, husable, -⟩
    cases husable.2 (str "u") rfl
  · rintro ⟨husable, -⟩
    obtain ⟨pub, channel, hpub, -⟩ := husable.1
    cases hpub

end Endpoints
end DoubleTurnouts
