/-
  DoubleTurnouts.InfraController.Subscriptions

  The subscriptions of a channel as its callers see them, next to the slots
  `llm_channel_obj` keeps them in.

  A subscription is named by its URL or its work id; every text that is not
  of the form name.number names the channel's own inference.  The abstract
  state is the table `live` of the subscriptions that were made and not since
  stopped.  The code keeps the sockets under numbers instead: a counter for
  URLs, the bare number of a work id, 0 for the own inference.  `made` records
  for each slot which subscription filled it last.

  `Exact` says that there is one SUB socket for each live subscription.  It
  survives a call exactly when no other live subscription has the slot the
  call uses (`Apart`).
-/
import Mathlib.Tactic
import DoubleTurnouts.Lib.Slots
import DoubleTurnouts.InfraController.Channel

namespace DoubleTurnouts

open Decimal

/-- A subscription, as its callers name it. -/
inductive Subscription
  | url (zmq_url : Bytes)
  | work_id (work_id : Bytes)
  | inference
  deriving DecidableEq, Repr

/-- A call; `input_url` is what the manager answers to `sql_select`. -/
inductive SubscriptionOp
  | subscriber (zmq_url : Bytes)
  | stop_subscriber (zmq_url : Bytes)
  | subscriber_work_id (work_id input_url : Bytes)
  | stop_subscriber_work_id (work_id : Bytes)
  deriving DecidableEq, Repr

namespace Channel

/-- `id_num` of the two work id functions. -/
def id_num (work_id : Bytes) : Except Exn Int :=
  match work_id_match work_id with
  -- "llm.5" and "asr.5" have the same id_num
  | some number => stoi number
  | none => .ok 0

def apply (channel : Channel) : SubscriptionOp → Except Exn Channel
  | .subscriber zmq_url => .ok (channel.subscriber zmq_url)
  | .stop_subscriber zmq_url => .ok (channel.stop_subscriber zmq_url)
  | .subscriber_work_id work_id input_url =>
      (channel.subscriber_work_id (fun _ => input_url) work_id).map Prod.snd
  | .stop_subscriber_work_id work_id => channel.stop_subscriber_work_id work_id

/-- The slot a subscription is in, if it is in one. -/
def slotOf (channel : Channel) : Subscription → Option Int
  | .url zmq_url => channel.zmq_url_map_.lookup zmq_url
  | .work_id work_id => (id_num work_id).toOption
  | .inference => some 0

end Channel

def Subscription.of_work_id (work_id : Bytes) : Subscription :=
  if (Channel.work_id_match work_id).isSome then .work_id work_id else .inference

structure Subscriptions where
  channel : Channel
  made : Int → Subscription
  live : Map Subscription Bytes

namespace Subscriptions

def new (publisher_url inference_url : Bytes) : Subscriptions where
  channel := Channel.new publisher_url inference_url
  made := fun _ => .inference
  live := ∅

/-- What a call means for the live subscriptions. -/
def subscribed (inference_url : Bytes) (live : Map Subscription Bytes) :
    SubscriptionOp → Map Subscription Bytes
  | .subscriber zmq_url => live.insert (.url zmq_url) zmq_url
  -- the empty URL stops everything
  | .stop_subscriber zmq_url => if zmq_url = [] then ∅ else live.erase (.url zmq_url)
  | .subscriber_work_id work_id input_url =>
      let sub := Subscription.of_work_id work_id
      -- the own inference needs no answer of the manager
      live.insert sub (if sub = .inference then inference_url else input_url)
  | .stop_subscriber_work_id work_id => live.erase (.of_work_id work_id)

/-- Which slot a call fills, and for which subscription. -/
def fills (channel : Channel) : SubscriptionOp → Option (Int × Subscription)
  | .subscriber zmq_url => some (channel.zmq_url_index_, .url zmq_url)
  | .subscriber_work_id work_id _ =>
      (Channel.id_num work_id).toOption.map fun id_num => (id_num, .of_work_id work_id)
  | .stop_subscriber _ | .stop_subscriber_work_id _ => none

def step (s : Subscriptions) (op : SubscriptionOp) : Subscriptions :=
  match s.channel.apply op with
  | .error _ => s
  | .ok channel =>
      { channel := channel
        made := match fills s.channel op with
          | some (i, sub) => Function.update s.made i sub
          | none => s.made
        live := subscribed s.channel.inference_url_ s.live op }

/-- The SUB sockets there are, each with the subscription it was made for and its URL. -/
def sockets (s : Subscriptions) (i : Int) : Option (Subscription × Bytes) :=
  match s.channel.zmq_.lookup i with
  | some (some ⟨url, .sub⟩) => some (s.made i, url)
  | _ => none

/-- There is one SUB socket for each live subscription, connected to its URL, and no other. -/
def Exact (s : Subscriptions) : Prop :=
  Slots.OnePerKey s.sockets fun sub => s.live.lookup sub

/-- The calls with a URL that is not empty, a number that fits an `int` and an answer of the
    manager. -/
def Admitted : SubscriptionOp → Prop
  | .subscriber zmq_url => zmq_url ≠ []
  | .stop_subscriber zmq_url => zmq_url ≠ []
  | .subscriber_work_id work_id input_url =>
      input_url ≠ [] ∧ (Channel.id_num work_id).toOption.isSome
  | .stop_subscriber_work_id work_id => (Channel.id_num work_id).toOption.isSome

/-- No other live subscription has the slot the call uses, and a URL that is subscribed has no
    other slot. -/
def Apart (s : Subscriptions) : SubscriptionOp → Prop
  | .subscriber zmq_url =>
      ∀ sub ∈ s.live.keys,
        (s.channel.slotOf sub = some s.channel.zmq_url_index_ ↔ sub = .url zmq_url)
  | .stop_subscriber _ => True
  | .subscriber_work_id work_id _ | .stop_subscriber_work_id work_id =>
      ∀ sub ∈ s.live.keys, s.channel.slotOf sub = (Channel.id_num work_id).toOption →
        sub = .of_work_id work_id

instance (op : SubscriptionOp) : Decidable (Admitted op) :=
  match op with
  | .subscriber zmq_url => inferInstanceAs (Decidable (zmq_url ≠ []))
  | .stop_subscriber zmq_url => inferInstanceAs (Decidable (zmq_url ≠ []))
  | .subscriber_work_id work_id input_url =>
      inferInstanceAs (Decidable (input_url ≠ [] ∧ (Channel.id_num work_id).toOption.isSome))
  | .stop_subscriber_work_id work_id =>
      inferInstanceAs (Decidable ((Channel.id_num work_id).toOption.isSome = true))

instance (s : Subscriptions) (op : SubscriptionOp) : Decidable (s.Apart op) :=
  match op with
  | .subscriber zmq_url =>
      inferInstanceAs (Decidable (∀ sub ∈ s.live.keys,
        (s.channel.slotOf sub = some s.channel.zmq_url_index_ ↔ sub = .url zmq_url)))
  | .stop_subscriber _ => inferInstanceAs (Decidable True)
  | .subscriber_work_id work_id _ | .stop_subscriber_work_id work_id =>
      inferInstanceAs (Decidable (∀ sub ∈ s.live.keys,
        s.channel.slotOf sub = (Channel.id_num work_id).toOption →
          sub = .of_work_id work_id))

/-! ## What a call does to slots and subscriptions -/

/-- Slot `j` is filled for `sub`, and nothing else changes. -/
structure Fills (s s' : Subscriptions) (sub : Subscription) (j : Int) (url : Bytes) : Prop where
  sockets : s'.sockets = Function.update s.sockets j (some (sub, url))
  live : (fun k => s'.live.lookup k) = Function.update (fun k => s.live.lookup k) sub (some url)
  slot : s'.channel.slotOf sub = some j
  others : ∀ k, k ≠ sub → s'.channel.slotOf k = s.channel.slotOf k

/-- Slot `j` is cleared for `sub`; the slot of a URL is forgotten. -/
structure Clears (s s' : Subscriptions) (sub : Subscription) (j : Int) : Prop where
  sockets : s'.sockets = Function.update s.sockets j none
  live : (fun k => s'.live.lookup k) = Function.update (fun k => s.live.lookup k) sub none
  forgotten : ∀ url, sub = .url url → s'.channel.slotOf sub = none
  others : ∀ k, k ≠ sub → s'.channel.slotOf k = s.channel.slotOf k

theorem lookup_insert_eq_update {κ β : Type} [DecidableEq κ] (m : Map κ β) (k : κ) (v : β) :
    (fun k' => (m.insert k v).lookup k') = Function.update (fun k' => m.lookup k') k (some v) := by
  funext k'
  rcases eq_or_ne k' k with rfl | hne
  · rw [AList.lookup_insert, Function.update_self]
  · rw [AList.lookup_insert_ne hne, Function.update_of_ne hne]

theorem lookup_erase_eq_update {κ β : Type} [DecidableEq κ] (m : Map κ β) (k : κ) :
    (fun k' => (m.erase k).lookup k') = Function.update (fun k' => m.lookup k') k none := by
  funext k'
  rcases eq_or_ne k' k with rfl | hne
  · rw [AList.lookup_erase, Function.update_self]
  · rw [AList.lookup_erase_ne hne, Function.update_of_ne hne]

/-- A new SUB socket in slot `j`. -/
theorem sockets_insert {s s' : Subscriptions} {sub : Subscription} {j : Int} {url : Bytes}
    (hzmq : s'.channel.zmq_ = s.channel.zmq_.insert j (some ⟨url, .sub⟩))
    (hmade : s'.made = Function.update s.made j sub) :
    s'.sockets = Function.update s.sockets j (some (sub, url)) := by
  funext i
  unfold sockets
  rw [hzmq, hmade]
  rcases eq_or_ne i j with rfl | hne
  · rw [AList.lookup_insert, Function.update_self, Function.update_self]
  · rw [AList.lookup_insert_ne hne, Function.update_of_ne hne, Function.update_of_ne hne]

theorem sockets_erase {s s' : Subscriptions} {j : Int}
    (hzmq : s'.channel.zmq_ = s.channel.zmq_.erase j) (hmade : s'.made = s.made) :
    s'.sockets = Function.update s.sockets j none := by
  funext i
  unfold sockets
  rw [hzmq, hmade]
  rcases eq_or_ne i j with rfl | hne
  · rw [AList.lookup_erase, Function.update_self]
  · rw [AList.lookup_erase_ne hne, Function.update_of_ne hne]

section Calls

variable (s : Subscriptions)

theorem fills_subscriber (zmq_url : Bytes) :
    Fills s (s.step (.subscriber zmq_url)) (.url zmq_url) s.channel.zmq_url_index_ zmq_url where
  sockets := sockets_insert rfl rfl
  live := lookup_insert_eq_update s.live _ _
  slot := AList.lookup_insert _
  others := by
    intro k hk
    cases k with
    | url u =>
        have hne : u ≠ zmq_url := fun h => hk (h ▸ rfl)
        exact AList.lookup_insert_ne hne
    | work_id w => rfl
    | inference => rfl

/-- The slot of the subscription a work id stands for. -/
theorem slotOf_of_work_id (channel : Channel) (work_id : Bytes) :
    channel.slotOf (.of_work_id work_id) = (Channel.id_num work_id).toOption := by
  unfold Subscription.of_work_id
  split
  · rfl
  · rename_i hnone
    have hmatch : Channel.work_id_match work_id = none := by simpa using hnone
    simp [Channel.id_num, Channel.slotOf, hmatch, Except.toOption]

/-- Only URLs change the slots of URLs. -/
theorem slotOf_congr {channel channel' : Channel}
    (h : channel'.zmq_url_map_ = channel.zmq_url_map_) (k : Subscription) :
    channel'.slotOf k = channel.slotOf k := by
  cases k <;> simp only [Channel.slotOf, h]

theorem of_work_id_ne_url (work_id url : Bytes) : Subscription.of_work_id work_id ≠ .url url := by
  unfold Subscription.of_work_id
  split <;> simp

/-- The URL a work id's socket is connected to. -/
def sourceUrl (channel : Channel) (work_id input_url : Bytes) : Bytes :=
  if Subscription.of_work_id work_id = .inference then channel.inference_url_ else input_url

/-- `subscriber_work_id` in terms of its slot; without an answer it does nothing. -/
theorem apply_subscriber_work_id (channel : Channel) (work_id input_url : Bytes) :
    channel.apply (.subscriber_work_id work_id input_url) =
      (Channel.id_num work_id).map fun id_num =>
        if Subscription.of_work_id work_id ≠ .inference ∧ input_url = [] then channel
        else { channel with
          zmq_ := channel.zmq_.insert id_num
            (some ⟨sourceUrl channel work_id input_url, .sub⟩) } := by
  unfold Channel.id_num sourceUrl Subscription.of_work_id
  cases hmatch : Channel.work_id_match work_id with
  | none =>
      simp only [Channel.apply, Channel.subscriber_work_id, hmatch]
      rfl
  | some number =>
      simp only [Channel.apply, Channel.subscriber_work_id, hmatch]
      cases stoi number with
      | error e => rfl
      | ok j =>
          by_cases hurl : input_url = []
          -- no answer: the channel is left as it is
          · simp [hurl, Except.map, bind, Except.bind, pure, Except.pure]
          · simp [hurl, Except.map, bind, Except.bind, pure, Except.pure]

theorem apply_stop_subscriber_work_id (channel : Channel) (work_id : Bytes) :
    channel.apply (.stop_subscriber_work_id work_id) =
      (Channel.id_num work_id).map fun id_num =>
        { channel with zmq_ := channel.zmq_.erase id_num } := by
  simp only [Channel.apply, Channel.stop_subscriber_work_id, Channel.id_num]
  cases Channel.work_id_match work_id with
  | none => rfl
  | some number =>
      dsimp only
      cases stoi number with
      | error e => rfl
      | ok j => rfl

theorem fills_subscriber_work_id {work_id input_url : Bytes} (hurl : input_url ≠ []) {j : Int}
    (hj : Channel.id_num work_id = .ok j) :
    Fills s (s.step (.subscriber_work_id work_id input_url)) (.of_work_id work_id) j
      (sourceUrl s.channel work_id input_url) := by
  have hfills : fills s.channel (.subscriber_work_id work_id input_url) =
      some (j, .of_work_id work_id) := by
    simp [fills, hj, Except.toOption]
  have hstep : s.step (.subscriber_work_id work_id input_url) =
      { channel := { s.channel with
          zmq_ := s.channel.zmq_.insert j
            (some ⟨sourceUrl s.channel work_id input_url, .sub⟩) }
        made := Function.update s.made j (.of_work_id work_id)
        live := s.live.insert (.of_work_id work_id)
          (sourceUrl s.channel work_id input_url) } := by
    unfold step
    rw [apply_subscriber_work_id, hj, hfills]
    simp only [Except.map, hurl, and_false, if_false]
    rfl
  rw [hstep]
  exact
    { sockets := sockets_insert rfl rfl
      live := lookup_insert_eq_update s.live _ _
      slot := by
        rw [slotOf_of_work_id, hj]
        rfl
      others := fun k _ => slotOf_congr rfl k }

theorem clears_stop_subscriber_work_id {work_id : Bytes} {j : Int}
    (hj : Channel.id_num work_id = .ok j) :
    Clears s (s.step (.stop_subscriber_work_id work_id)) (.of_work_id work_id) j := by
  have hstep : s.step (.stop_subscriber_work_id work_id) =
      { channel := { s.channel with zmq_ := s.channel.zmq_.erase j }
        made := s.made
        live := s.live.erase (.of_work_id work_id) } := by
    unfold step
    rw [apply_stop_subscriber_work_id, hj]
    rfl
  rw [hstep]
  exact
    { sockets := sockets_erase rfl rfl
      live := lookup_erase_eq_update s.live _
      forgotten := fun url hurl => absurd hurl (of_work_id_ne_url work_id url)
      others := fun k _ => slotOf_congr rfl k }

theorem clears_stop_subscriber {zmq_url : Bytes} (hurl : zmq_url ≠ []) {j : Int}
    (hj : s.channel.slotOf (.url zmq_url) = some j) :
    Clears s (s.step (.stop_subscriber zmq_url)) (.url zmq_url) j := by
  have hlookup : s.channel.zmq_url_map_.lookup zmq_url = some j := hj
  have hstop : s.channel.stop_subscriber zmq_url =
      { s.channel with
        zmq_ := s.channel.zmq_.erase j
        zmq_url_map_ := s.channel.zmq_url_map_.erase zmq_url } := by
    unfold Channel.stop_subscriber
    rw [if_neg hurl, hlookup]
  have hstep : s.step (.stop_subscriber zmq_url) =
      { channel := s.channel.stop_subscriber zmq_url
        made := s.made
        live := s.live.erase (.url zmq_url) } := by
    simp [step, Channel.apply, fills, subscribed, hurl]
  rw [hstep, hstop]
  exact
    { sockets := sockets_erase rfl rfl
      live := lookup_erase_eq_update s.live _
      forgotten := fun _ _ => AList.lookup_erase _ _
      others := by
        intro k hk
        cases k with
        | url u =>
            have hne : u ≠ zmq_url := fun h => hk (h ▸ rfl)
            exact AList.lookup_erase_ne hne
        | work_id w => rfl
        | inference => rfl }

end Calls

/-! ## The invariant -/

/-- Every live subscription has its socket in its slot, there are no other SUB sockets, and
    only live URLs have a slot. -/
structure Inv (s : Subscriptions) : Prop where
  fits : Slots.Fits s.sockets (fun k => s.live.lookup k) s.channel.slotOf
  urls : ∀ url, s.live.lookup (.url url) = none → s.channel.slotOf (.url url) = none

theorem inv_new (publisher_url inference_url : Bytes) : Inv (new publisher_url inference_url) where
  fits := by
    -- a new channel has its PUB and its PUSH socket, neither of which counts
    have hnone : ∀ i, (new publisher_url inference_url).sockets i = none := by
      intro i
      by_cases hpub : i = -1
      · subst hpub
        rfl
      · by_cases hpush : i = -2
        · subst hpush
          rfl
        · have hlookup : (new publisher_url inference_url).channel.zmq_.lookup i = none := by
            show AList.lookup i (List.toAList _) = none
            rw [AList.lookup_to_alist, List.dlookup_cons_ne _ _ hpub,
              List.dlookup_cons_ne _ _ hpush]
            rfl
          unfold sockets
          rw [hlookup]
    constructor
    · intro i k v
      rw [hnone i]
      constructor
      · intro hi
        cases hi
      · rintro ⟨hk, -⟩
        cases hk
    · intro k v hk
      cases hk
  urls := fun _ _ => rfl

section Steps

variable {s s' : Subscriptions} {sub : Subscription} {j : Int}

theorem Inv.of_fills (h : Inv s) {url : Bytes} (hfills : Fills s s' sub j url)
    (hfree : Slots.Free (fun k => s.live.lookup k) s.channel.slotOf sub j) : Inv s' where
  fits := by
    rw [hfills.sockets, hfills.live]
    exact h.fits.set url hfree hfills.slot hfills.others
  urls := by
    intro u hu
    have hlive := congrFun hfills.live (.url u)
    rw [hu] at hlive
    by_cases hkey : Subscription.url u = sub
    · rw [hkey, Function.update_self] at hlive
      cases hlive
    · rw [Function.update_of_ne hkey] at hlive
      rw [hfills.others _ hkey]
      exact h.urls u hlive.symm

/-- A call that fills a slot keeps the subscriptions exact if and only if the slot is free. -/
theorem Inv.exact_fills_iff (h : Inv s) {url : Bytes} (hfills : Fills s s' sub j url) :
    s'.Exact ↔ Slots.Free (fun k => s.live.lookup k) s.channel.slotOf sub j := by
  constructor
  · intro hexact
    unfold Exact at hexact
    rw [hfills.sockets, hfills.live] at hexact
    -- a slot that is taken loses its socket or is counted for the wrong subscription
    by_contra hfree
    exact h.fits.not_onePerKey_set url hfree hexact
  · intro hfree
    exact (h.of_fills hfills hfree).fits.onePerKey

theorem Inv.of_clears (h : Inv s) (hclears : Clears s s' sub j)
    (hown : Slots.Own (fun k => s.live.lookup k) s.channel.slotOf sub j)
    (hslot : ∀ v, s.live.lookup sub = some v → s.channel.slotOf sub = some j) : Inv s' where
  fits := by
    rw [hclears.sockets, hclears.live]
    exact h.fits.clear hown hslot hclears.others
  urls := by
    intro u hu
    by_cases hkey : Subscription.url u = sub
    · rw [hkey]
      exact hclears.forgotten u hkey.symm
    · have hlive := congrFun hclears.live (.url u)
      rw [hu, Function.update_of_ne hkey] at hlive
      rw [hclears.others _ hkey]
      exact h.urls u hlive.symm

theorem Inv.exact_clears_iff (h : Inv s) (hclears : Clears s s' sub j)
    (hslot : ∀ v, s.live.lookup sub = some v → s.channel.slotOf sub = some j) :
    s'.Exact ↔ Slots.Own (fun k => s.live.lookup k) s.channel.slotOf sub j := by
  constructor
  · intro hexact
    unfold Exact at hexact
    rw [hclears.sockets, hclears.live] at hexact
    -- clearing another one's slot takes that one's socket away
    by_contra hown
    exact h.fits.not_onePerKey_clear hown hexact
  · intro hown
    exact (h.of_clears hclears hown hslot).fits.onePerKey

theorem exists_id_num {work_id : Bytes} (h : (Channel.id_num work_id).toOption.isSome = true) :
    ∃ j, Channel.id_num work_id = .ok j := by
  cases hnum : Channel.id_num work_id with
  | ok j => exact ⟨j, rfl⟩
  | error e =>
      rw [hnum] at h
      cases h

theorem mem_keys_iff {k : Subscription} : k ∈ s.live.keys ↔ ∃ v, s.live.lookup k = some v := by
  rw [← AList.mem_keys, ← AList.lookup_isSome, Option.isSome_iff_exists]

theorem apart_subscriber_iff {zmq_url : Bytes} : s.Apart (.subscriber zmq_url) ↔
    Slots.Free (fun k => s.live.lookup k) s.channel.slotOf (.url zmq_url)
      s.channel.zmq_url_index_ := by
  simp only [Apart, mem_keys_iff, Slots.Free, forall_exists_index]

/-- The slot of a work id is free as soon as no other live subscription has it. -/
theorem own_iff_free {work_id : Bytes} (hj : Channel.id_num work_id = .ok j) :
    Slots.Own (fun k => s.live.lookup k) s.channel.slotOf (.of_work_id work_id) j ↔
      Slots.Free (fun k => s.live.lookup k) s.channel.slotOf (.of_work_id work_id) j := by
  have hslot : s.channel.slotOf (.of_work_id work_id) = some j := by
    rw [slotOf_of_work_id, hj]
    rfl
  constructor
  · intro hown k v hk
    exact ⟨hown k v hk, fun heq => heq ▸ hslot⟩
  · intro hfree k v hk
    exact (hfree k v hk).mp

theorem apart_work_id_iff {work_id input_url : Bytes} (hj : Channel.id_num work_id = .ok j) :
    (s.Apart (.subscriber_work_id work_id input_url) ↔
      Slots.Own (fun k => s.live.lookup k) s.channel.slotOf (.of_work_id work_id) j) ∧
    (s.Apart (.stop_subscriber_work_id work_id) ↔
      Slots.Own (fun k => s.live.lookup k) s.channel.slotOf (.of_work_id work_id) j) := by
  simp only [Apart, mem_keys_iff, Slots.Own, forall_exists_index, hj, Except.toOption, and_self]

/-- Stopping a URL that is not subscribed does nothing. -/
theorem Inv.stop_subscriber_of_none (h : Inv s) {zmq_url : Bytes} (hurl : zmq_url ≠ [])
    (hnone : s.channel.slotOf (.url zmq_url) = none) : Inv (s.step (.stop_subscriber zmq_url)) := by
  have hlookup : s.channel.zmq_url_map_.lookup zmq_url = none := hnone
  have hstop : s.channel.stop_subscriber zmq_url = s.channel := by
    unfold Channel.stop_subscriber
    rw [if_neg hurl, hlookup]
  have hstep : s.step (.stop_subscriber zmq_url) =
      { s with live := s.live.erase (.url zmq_url) } := by
    simp [step, Channel.apply, fills, subscribed, hurl, hstop]
  -- a live URL would have a slot
  have hdead : s.live.lookup (.url zmq_url) = none := by
    by_contra hlive
    obtain ⟨v, hv⟩ := Option.ne_none_iff_exists'.mp hlive
    obtain ⟨i, hi⟩ := h.fits.assigned _ v hv
    rw [hnone] at hi
    cases hi
  have hsame : (fun k => (s.live.erase (.url zmq_url)).lookup k) = fun k => s.live.lookup k := by
    rw [lookup_erase_eq_update, ← hdead]
    exact Function.update_eq_self _ _
  rw [hstep]
  constructor
  · dsimp only
    rw [hsame]
    exact h.fits
  · intro u hu
    exact h.urls u ((congrFun hsame (.url u)).symm.trans hu)

/-- The socket of a URL is in the slot the URL map has for it, and in no other. -/
theorem Inv.own_url (h : Inv s) {zmq_url : Bytes} (hj : s.channel.slotOf (.url zmq_url) = some j) :
    Slots.Own (fun k => s.live.lookup k) s.channel.slotOf (.url zmq_url) j := by
  have hlive : s.live.lookup (.url zmq_url) ≠ none := by
    intro hnone
    rw [h.urls zmq_url hnone] at hj
    cases hj
  obtain ⟨url, hurl⟩ := Option.ne_none_iff_exists'.mp hlive
  -- slot j holds one socket, so two owners are the same subscription
  have hentry := (h.fits.entry j (.url zmq_url) url).mpr ⟨hurl, hj⟩
  intro k v hk hslot
  have hother := (h.fits.entry j k v).mpr ⟨hk, hslot⟩
  rw [hentry] at hother
  cases hother
  rfl

theorem Inv.stop_subscriber (h : Inv s) {zmq_url : Bytes} (hurl : zmq_url ≠ []) :
    Inv (s.step (.stop_subscriber zmq_url)) := by
  cases hj : s.channel.slotOf (.url zmq_url) with
  | none => exact h.stop_subscriber_of_none hurl hj
  | some j => exact h.of_clears (clears_stop_subscriber s hurl hj) (h.own_url hj) fun _ _ => hj

/-- One call: the subscriptions stay exact if and only if the call keeps apart. -/
theorem Inv.exact_step_iff (h : Inv s) {op : SubscriptionOp} (hop : Admitted op) :
    (s.step op).Exact ↔ s.Apart op := by
  cases op with
  | subscriber zmq_url =>
      rw [apart_subscriber_iff]
      exact h.exact_fills_iff (fills_subscriber s zmq_url)
  | stop_subscriber zmq_url =>
      exact iff_of_true (h.stop_subscriber hop).fits.onePerKey trivial
  | subscriber_work_id work_id input_url =>
      obtain ⟨hurl, hnum⟩ := hop
      obtain ⟨j, hj⟩ := exists_id_num hnum
      rw [(apart_work_id_iff hj).1, own_iff_free hj]
      exact h.exact_fills_iff (fills_subscriber_work_id s hurl hj)
  | stop_subscriber_work_id work_id =>
      obtain ⟨j, hj⟩ := exists_id_num hop
      rw [(@apart_work_id_iff s j work_id [] hj).2]
      refine h.exact_clears_iff (clears_stop_subscriber_work_id s hj) fun _ _ => ?_
      rw [slotOf_of_work_id, hj]
      rfl

theorem Inv.step (h : Inv s) {op : SubscriptionOp} (hop : Admitted op) (hapart : s.Apart op) :
    Inv (s.step op) := by
  cases op with
  | subscriber zmq_url =>
      exact h.of_fills (fills_subscriber s zmq_url) (apart_subscriber_iff.mp hapart)
  | stop_subscriber zmq_url => exact h.stop_subscriber hop
  | subscriber_work_id work_id input_url =>
      obtain ⟨hurl, hnum⟩ := hop
      obtain ⟨j, hj⟩ := exists_id_num hnum
      rw [(apart_work_id_iff hj).1, own_iff_free hj] at hapart
      exact h.of_fills (fills_subscriber_work_id s hurl hj) hapart
  | stop_subscriber_work_id work_id =>
      obtain ⟨j, hj⟩ := exists_id_num hop
      rw [(@apart_work_id_iff s j work_id [] hj).2] at hapart
      refine h.of_clears (clears_stop_subscriber_work_id s hj) hapart fun _ _ => ?_
      rw [slotOf_of_work_id, hj]
      rfl

end Steps

/-! ## Whole runs -/

/-- In every sequence of calls the sockets match the subscriptions after every call if and only
    if every call keeps apart from the other live subscriptions. -/
theorem subscriptions_exact_iff (publisher_url inference_url : Bytes) (ops : List SubscriptionOp)
    (hops : ∀ op ∈ ops, Admitted op) :
    Run.AllSteps step (fun s op => (s.step op).Exact) (new publisher_url inference_url) ops ↔
      Run.AllSteps step Apart (new publisher_url inference_url) ops := by
  -- the invariant lasts as long as every call keeps apart, which is where exactness ends
  refine Run.AllSteps.iff_of_guarded (I := Inv) ?_ ?_ (inv_new publisher_url inference_url) hops
  · intro s op h hop hapart
    exact h.step hop hapart
  · intro s op h hop
    exact h.exact_step_iff hop

/-- A URL, a work id and the own inference, with the URL stopped and subscribed again. -/
def someCalls : List SubscriptionOp :=
  [.subscriber (str "u"), .subscriber_work_id (str "llm.5") (str "out5"),
    .subscriber_work_id [] (str "out0"), .stop_subscriber (str "u"), .subscriber (str "u"),
    .stop_subscriber_work_id (str "llm.5")]

theorem subscriptions_exact_some_calls :
    (∀ op ∈ someCalls, Admitted op) ∧
      Run.AllSteps step (fun s op => (s.step op).Exact) (new (str "p") (str "i")) someCalls :=
  ⟨by decide +kernel,
    (subscriptions_exact_iff (str "p") (str "i") someCalls (by decide +kernel)).mpr
      (by decide +kernel)⟩

/-- Two calls, the second of which uses a slot that is taken. -/
theorem not_exact_of_clash {publisher_url inference_url : Bytes} {op op' : SubscriptionOp}
    (hop : Admitted op) (hop' : Admitted op') (hfirst : (new publisher_url inference_url).Apart op)
    (hclash : ¬ ((new publisher_url inference_url).step op).Apart op') :
    ¬ Run.AllSteps step (fun s op => (s.step op).Exact) (new publisher_url inference_url)
        [op, op'] := by
  rintro ⟨-, hexact, -⟩
  have hinv := (inv_new publisher_url inference_url).step hop hfirst
  exact hclash ((hinv.exact_step_iff hop').mp hexact)

/-- Work ids of two units with the same number share a slot, a work id with number 0 shares the
    slot of the own inference, also when it is stopped, and a URL that is subscribed twice has
    two sockets. -/
theorem subscriptions_clash :
    (¬ Run.AllSteps step (fun s op => (s.step op).Exact) (new (str "p") (str "i"))
        [.subscriber_work_id (str "llm.1") (str "a"),
          .subscriber_work_id (str "asr.1") (str "b")]) ∧
      (¬ Run.AllSteps step (fun s op => (s.step op).Exact) (new (str "p") (str "i"))
        [.subscriber_work_id [] (str "a"), .stop_subscriber_work_id (str "llm.0")]) ∧
      ¬ Run.AllSteps step (fun s op => (s.step op).Exact) (new (str "p") (str "i"))
        [.subscriber (str "u"), .subscriber (str "u")] := by
  refine ⟨?_, ?_, ?_⟩
  · exact not_exact_of_clash (by decide) (by decide) (by decide) (by decide)
  · exact not_exact_of_clash (by decide) (by decide) (by decide) (by decide)
  · exact not_exact_of_clash (by decide) (by decide) (by decide) (by decide)

end Subscriptions
end DoubleTurnouts
