/-
  DoubleTurnouts.UnitManager.UnitPointers

  Units as what they are in the code: objects on the heap that `key_sql`
  points to.  The RPC thread registers and releases them while the TCP
  threads look pointers up and send through them; each section of the key
  store's spinlock, each `delete` and each `send_msg` is one step, and the
  threads' steps come in any order.

  `sys_release_unit` deletes the unit before it erases the key, so a pointer
  in the store is stale from the delete on.  `pointers_live_iff` says that
  this is the only way one gets stale, `send_msg_live` what the other threads
  would have to avoid while a unit is released.
-/
import Mathlib.Tactic
import DoubleTurnouts.Lib.Run
import DoubleTurnouts.UnitManager.RemoteServer

namespace DoubleTurnouts

open Text Decimal

/-- An entry of `key_sql`, units by address. -/
inductive Cell
  | unit (unit_p : Nat)
  | other (val : Any)
  deriving DecidableEq, Repr

/-- What the RPC thread does next: store a new unit or its output URL, delete the unit it has
    found, or erase one of its keys. -/
inductive RpcPoint
  | idle
  | set_unit (unit_p : Nat) (u : UnitData)
  | set_out_port (u : UnitData)
  | delete_unit (unit : Bytes) (unit_p : Nat)
  | erase_unit (unit : Bytes)
  | erase_out_port (unit : Bytes)
  deriving DecidableEq, Repr

/-- The manager with its threads.  `globals` is every global but the store, `heap` has `none`
    for a unit that was deleted, `tcp` is the pointer a TCP thread has in hand between its
    lookup and `send_msg`, and `lateSends` are the deleted units `send_msg` was called on. -/
structure SharedUnits (T : Type) where
  globals : Manager
  key_sql : Map Bytes Cell
  heap : List (Option UnitData)
  rpc : RpcPoint
  tcp : T → Option Nat
  lateSends : List Nat

/-- One step: the RPC thread takes a request or goes on with the one in hand, a TCP thread
    enters `zmq_bus_publisher_push` and looks its unit up, or calls `send_msg`. -/
inductive UnitStep (T : Type)
  | register_unit (unit : Bytes) (indet : Indet)
  | release_unit (unit : Bytes) (uninit : Int)
  | rpc
  | lookup (t : T) (work_id : Bytes)
  | send_msg (t : T)
  deriving DecidableEq, Repr

namespace SharedUnits

variable {T : Type}

/-- The store as it is configured, before any unit is registered. -/
def config (key_sql : KeySql) : Map Bytes Cell :=
  (key_sql.entries.map fun e => (⟨e.1, .other e.2⟩ : Sigma fun _ : Bytes => Cell)).toAList

/-- The manager as it starts. -/
def initial (min_port max_port : Int) : SharedUnits T where
  globals := Manager.initial min_port max_port
  key_sql := config (load_default_config min_port max_port)
  heap := []
  rpc := .idle
  tcp := fun _ => none
  lateSends := []

/-- `SAFE_READING(unit_p, unit_data *, key)`. -/
def unitAt (s : SharedUnits T) (key : Bytes) : Option Nat :=
  match s.key_sql.lookup key with
  | some (.unit unit_p) => some unit_p
  | _ => none

/-- The unit has not been deleted. -/
def Live (s : SharedUnits T) (unit_p : Nat) : Prop := ∃ u, s.heap[unit_p]? = some (some u)

/-- `sys_allocate_unit` up to its first `SAFE_SETTING`: `new`, the number, the ports and the
    URLs. -/
def sys_allocate_unit (s : SharedUnits T) (unit : Bytes) (indet : Indet) : SharedUnits T :=
  let (u, m) := DoubleTurnouts.sys_allocate_unit indet s.globals unit
  { s with
    globals := { m with key_sql := s.globals.key_sql }
    heap := s.heap ++ [some u]
    rpc := .set_unit s.heap.length u }

/-- `sys_release_unit` up to its `delete`: the lookup, and the ports of the unit it found. -/
def sys_release_unit (s : SharedUnits T) (unit : Bytes) (uninit : Int) : SharedUnits T :=
  match s.unitAt unit with
  | none => s
  | some unit_p =>
      let port_list :=
        match s.heap[unit_p]? with
        | some (some u) =>
            let (i, j) := release_indices s.globals u uninit
            free_port (free_port s.globals.port_list i) j
        | _ => s.globals.port_list
      { s with
        globals := { s.globals with port_list := port_list }
        rpc := .delete_unit unit unit_p }

/-- The next step of the request in hand. -/
def rpcNext (s : SharedUnits T) : SharedUnits T :=
  match s.rpc with
  | .idle => s
  | .set_unit unit_p u =>
      { s with key_sql := s.key_sql.insert u.work_id (.unit unit_p), rpc := .set_out_port u }
  | .set_out_port u =>
      { s with
        key_sql := s.key_sql.insert (out_port_key u.work_id) (.other (.string u.output_url))
        rpc := .idle }
  | .delete_unit unit unit_p =>
      { s with heap := s.heap.set unit_p none, rpc := .erase_unit unit }
  | .erase_unit unit => { s with key_sql := s.key_sql.erase unit, rpc := .erase_out_port unit }
  | .erase_out_port unit =>
      { s with key_sql := s.key_sql.erase (out_port_key unit), rpc := .idle }

/-- The lookup of `zmq_bus_publisher_push`, which gives up on an empty work id. -/
def lookup [DecidableEq T] (s : SharedUnits T) (t : T) (work_id : Bytes) : SharedUnits T :=
  if work_id = [] then s else { s with tcp := Function.update s.tcp t (s.unitAt work_id) }

def send_msg [DecidableEq T] (s : SharedUnits T) (t : T) : SharedUnits T :=
  match s.tcp t with
  | none => s
  | some unit_p =>
      { s with
        tcp := Function.update s.tcp t none
        lateSends := match s.heap[unit_p]? with
          | some (some _) => s.lateSends
          | _ => s.lateSends ++ [unit_p] }

/-- A thread starts a request when it is done with the last one. -/
def step [DecidableEq T] (s : SharedUnits T) : UnitStep T → SharedUnits T
  | .register_unit unit indet =>
      if s.rpc = .idle then s.sys_allocate_unit unit indet else s
  | .release_unit unit uninit => if s.rpc = .idle then s.sys_release_unit unit uninit else s
  | .rpc => s.rpcNext
  | .lookup t work_id => if s.tcp t = none then s.lookup t work_id else s
  | .send_msg t => s.send_msg t

/-- Every unit pointer in the store is alive, and so was every unit a message was sent
    through. -/
def PointersLive (s : SharedUnits T) : Prop :=
  (∀ key unit_p, s.key_sql.lookup key = some (.unit unit_p) → s.Live unit_p) ∧ s.lateSends = []

/-- The step is not the `delete` of a unit. -/
def NoDelete (s : SharedUnits T) (e : UnitStep T) : Prop :=
  e = .rpc → ∀ unit unit_p, s.rpc ≠ .delete_unit unit unit_p

/-! ## Pointers in general -/

theorem unitAt_eq_some {s : SharedUnits T} {key : Bytes} {unit_p : Nat} :
    s.unitAt key = some unit_p ↔ s.key_sql.lookup key = some (.unit unit_p) := by
  unfold unitAt
  split <;> simp_all

/-- What holds in every state: the pointers at hand were allocated, the one the RPC thread
    is about to store is new and the one it is about to delete is stored, and no pointer is
    stored twice. -/
structure Inv (s : SharedUnits T) : Prop where
  fresh : ∀ unit_p u, s.rpc = .set_unit unit_p u →
    unit_p < s.heap.length ∧ ∀ key, s.key_sql.lookup key ≠ some (.unit unit_p)
  found : ∀ unit unit_p, s.rpc = .delete_unit unit unit_p →
    s.key_sql.lookup unit = some (.unit unit_p)
  allocated : ∀ key unit_p, s.key_sql.lookup key = some (.unit unit_p) → unit_p < s.heap.length
  once : ∀ key key' unit_p, s.key_sql.lookup key = some (.unit unit_p) →
    s.key_sql.lookup key' = some (.unit unit_p) → key = key'
  inHand : ∀ t unit_p, s.tcp t = some unit_p → unit_p < s.heap.length

section Invariant

variable {s s' : SharedUnits T}

/-- A step that stores no new pointer, with the RPC thread at neither of the places that are
    tied to the store. -/
theorem Inv.of_stored (h : Inv s) (hlen : s.heap.length ≤ s'.heap.length)
    (hsub : ∀ key unit_p, s'.key_sql.lookup key = some (.unit unit_p) →
      s.key_sql.lookup key = some (.unit unit_p))
    (htcp : ∀ t unit_p, s'.tcp t = some unit_p → unit_p < s'.heap.length)
    (hfresh : ∀ unit_p u, s'.rpc ≠ .set_unit unit_p u)
    (hfound : ∀ unit unit_p, s'.rpc ≠ .delete_unit unit unit_p) : Inv s' where
  fresh := fun unit_p u hrpc => absurd hrpc (hfresh unit_p u)
  found := fun unit unit_p hrpc => absurd hrpc (hfound unit unit_p)
  allocated := fun key unit_p hkey => (h.allocated key unit_p (hsub _ _ hkey)).trans_le hlen
  once := fun key key' unit_p hkey hkey' => h.once key key' unit_p (hsub _ _ hkey) (hsub _ _ hkey')
  inHand := htcp

theorem Inv.sys_allocate_unit (h : Inv s) (unit : Bytes) (indet : Indet) :
    Inv (s.sys_allocate_unit unit indet) := by
  have hlen : (s.sys_allocate_unit unit indet).heap.length = s.heap.length + 1 := by
    simp [SharedUnits.sys_allocate_unit]
  constructor
  · intro unit_p u hrpc
    simp only [SharedUnits.sys_allocate_unit, RpcPoint.set_unit.injEq] at hrpc
    obtain ⟨rfl, -⟩ := hrpc
    refine ⟨by omega, fun key hkey => ?_⟩
    exact (h.allocated key _ hkey).false
  · intro unit' unit_p hrpc
    simp [SharedUnits.sys_allocate_unit] at hrpc
  · intro key unit_p hkey
    have := h.allocated key unit_p hkey
    omega
  · exact h.once
  · intro t unit_p ht
    have := h.inHand t unit_p ht
    omega

theorem Inv.sys_release_unit (h : Inv s) (unit : Bytes) (uninit : Int) :
    Inv (s.sys_release_unit unit uninit) := by
  unfold SharedUnits.sys_release_unit
  cases hunit : s.unitAt unit with
  | none => exact h
  | some unit_p =>
      refine ⟨by simp, ?_, h.allocated, h.once, h.inHand⟩
      intro unit' unit_p' hrpc
      simp only [RpcPoint.delete_unit.injEq] at hrpc
      obtain ⟨rfl, rfl⟩ := hrpc
      exact unitAt_eq_some.mp hunit

theorem lookup_erase_unit {m : Map Bytes Cell} {key key' : Bytes} {c : Cell}
    (h : (m.erase key).lookup key' = some c) : m.lookup key' = some c := by
  rcases eq_or_ne key' key with rfl | hne
  · rw [AList.lookup_erase] at h
    cases h
  · rwa [AList.lookup_erase_ne hne] at h

theorem Inv.rpcNext (h : Inv s) : Inv s.rpcNext := by
  unfold SharedUnits.rpcNext
  cases hrpc : s.rpc with
  | idle => exact h
  | set_unit unit_p u =>
      obtain ⟨hlt, hnew⟩ := h.fresh unit_p u hrpc
      -- the pointer that is stored now was stored nowhere
      have hcases : ∀ key q, (s.key_sql.insert u.work_id (.unit unit_p)).lookup key =
          some (.unit q) → key = u.work_id ∧ q = unit_p ∨
            key ≠ u.work_id ∧ s.key_sql.lookup key = some (.unit q) := by
        intro key q hkey
        rcases eq_or_ne key u.work_id with rfl | hne
        · rw [AList.lookup_insert] at hkey
          cases hkey
          exact .inl ⟨rfl, rfl⟩
        · rw [AList.lookup_insert_ne hne] at hkey
          exact .inr ⟨hne, hkey⟩
      refine ⟨by simp, by simp, ?_, ?_, h.inHand⟩
      · intro key q hkey
        rcases hcases key q hkey with ⟨-, rfl⟩ | ⟨-, hold⟩
        · exact hlt
        · exact h.allocated key q hold
      · intro key key' q hkey hkey'
        rcases hcases key q hkey with ⟨rfl, rfl⟩ | ⟨-, hold⟩ <;>
          rcases hcases key' _ hkey' with ⟨rfl, hq⟩ | ⟨-, hold'⟩
        · rfl
        · exact absurd hold' (hnew key')
        · exact absurd (hq ▸ hold) (hnew key)
        · exact h.once key key' q hold hold'
  | set_out_port u =>
      refine h.of_stored le_rfl ?_ h.inHand (by simp) (by simp)
      intro key q hkey
      rcases eq_or_ne key (out_port_key u.work_id) with rfl | hne
      · simp only [AList.lookup_insert] at hkey
        cases hkey
      · simpa only [AList.lookup_insert_ne hne] using hkey
  | delete_unit unit unit_p =>
      have hlen : s.heap.length = (s.heap.set unit_p none).length := by simp
      refine h.of_stored hlen.le (fun _ _ hkey => hkey) ?_ (by simp) (by simp)
      exact fun t q ht => hlen ▸ h.inHand t q ht
  | erase_unit unit =>
      exact h.of_stored le_rfl (fun _ _ hkey => lookup_erase_unit hkey) h.inHand (by simp) (by simp)
  | erase_out_port unit =>
      exact h.of_stored le_rfl (fun _ _ hkey => lookup_erase_unit hkey) h.inHand (by simp) (by simp)

theorem Inv.lookup [DecidableEq T] (h : Inv s) (t : T) (work_id : Bytes) :
    Inv (s.lookup t work_id) := by
  unfold SharedUnits.lookup
  split
  · exact h
  · refine ⟨h.fresh, h.found, h.allocated, h.once, ?_⟩
    intro t' unit_p ht'
    rcases eq_or_ne t' t with rfl | hne
    · simp only [Function.update_self] at ht'
      exact h.allocated work_id unit_p (unitAt_eq_some.mp ht')
    · simp only [Function.update_of_ne hne] at ht'
      exact h.inHand t' unit_p ht'

theorem Inv.send_msg [DecidableEq T] (h : Inv s) (t : T) : Inv (s.send_msg t) := by
  unfold SharedUnits.send_msg
  split
  · exact h
  · refine ⟨h.fresh, h.found, h.allocated, h.once, ?_⟩
    intro t' unit_p ht'
    rcases eq_or_ne t' t with rfl | hne
    · simp at ht'
    · simp only [Function.update_of_ne hne] at ht'
      exact h.inHand t' unit_p ht'

theorem Inv.step [DecidableEq T] (h : Inv s) (e : UnitStep T) : Inv (s.step e) := by
  cases e with
  | register_unit unit indet =>
      simp only [SharedUnits.step]
      split
      · exact h.sys_allocate_unit unit indet
      · exact h
  | release_unit unit uninit =>
      simp only [SharedUnits.step]
      split
      · exact h.sys_release_unit unit uninit
      · exact h
  | rpc => exact h.rpcNext
  | lookup t work_id =>
      simp only [SharedUnits.step]
      split
      · exact h.lookup t work_id
      · exact h
  | send_msg t => exact h.send_msg t

/-- A configuration has no units. -/
theorem lookup_config (key_sql : KeySql) (key : Bytes) (unit_p : Nat) :
    (config key_sql).lookup key ≠ some (.unit unit_p) := by
  intro h
  have hmem : (⟨key, .unit unit_p⟩ : Sigma fun _ : Bytes => Cell) ∈
      key_sql.entries.map fun e => (⟨e.1, .other e.2⟩ : Sigma fun _ : Bytes => Cell) := by
    apply List.of_mem_dlookup
    rw [← List.dlookup_dedupKeys]
    exact h
  obtain ⟨e, -, he⟩ := List.mem_map.mp hmem
  cases he

theorem inv_initial (min_port max_port : Int) :
    Inv (initial min_port max_port : SharedUnits T) where
  fresh := by simp [initial]
  found := by simp [initial]
  allocated := fun key unit_p h => absurd h (lookup_config _ _ _)
  once := fun key _ unit_p h => absurd h (lookup_config _ _ _)
  inHand := by simp [initial]

end Invariant

/-! ## Stale pointers -/

/-- Nothing has been deleted so far. -/
structure Whole (s : SharedUnits T) : Prop extends Inv s where
  live : ∀ unit_p, unit_p < s.heap.length → s.Live unit_p
  noLateSend : s.lateSends = []

section Whole

variable {s : SharedUnits T}

theorem Whole.pointersLive (h : Whole s) : s.PointersLive :=
  ⟨fun key unit_p hkey => h.live unit_p (h.allocated key unit_p hkey), h.noLateSend⟩

/-- A step that keeps the heap. -/
theorem Whole.of_heap {s' : SharedUnits T} (h : Whole s) (hinv : Inv s')
    (hheap : s'.heap = s.heap) (hlate : s'.lateSends = s.lateSends) : Whole s' where
  toInv := hinv
  live := by
    intro unit_p hlt
    unfold Live
    rw [hheap] at hlt ⊢
    exact h.live unit_p hlt
  noLateSend := hlate.trans h.noLateSend

theorem Whole.sys_allocate_unit (h : Whole s) (unit : Bytes) (indet : Indet) :
    Whole (s.sys_allocate_unit unit indet) where
  toInv := h.toInv.sys_allocate_unit unit indet
  live := by
    intro unit_p hlt
    simp only [SharedUnits.sys_allocate_unit, List.length_append, List.length_singleton] at hlt
    unfold Live
    simp only [SharedUnits.sys_allocate_unit]
    rcases Nat.lt_succ_iff_lt_or_eq.mp hlt with hlt | rfl
    · obtain ⟨u, hu⟩ := h.live unit_p hlt
      exact ⟨u, (List.getElem?_append_left hlt).trans hu⟩
    · exact ⟨_, List.getElem?_concat_length⟩
  noLateSend := h.noLateSend

theorem Whole.send_msg [DecidableEq T] (h : Whole s) (t : T) : Whole (s.send_msg t) := by
  have hinv := h.toInv.send_msg t
  unfold SharedUnits.send_msg at hinv ⊢
  cases ht : s.tcp t with
  | none => exact h
  | some unit_p =>
      obtain ⟨u, hu⟩ := h.live unit_p (h.inHand t unit_p ht)
      simp only [ht, hu] at hinv ⊢
      exact h.of_heap hinv rfl rfl

theorem Whole.step [DecidableEq T] (h : Whole s) (e : UnitStep T) (hno : s.NoDelete e) :
    Whole (s.step e) := by
  have hinv := h.toInv.step e
  cases e with
  | register_unit unit indet =>
      simp only [SharedUnits.step]
      split
      · exact h.sys_allocate_unit unit indet
      · exact h
  | release_unit unit uninit =>
      refine h.of_heap hinv ?_ ?_ <;> simp only [SharedUnits.step] <;> split <;> try rfl
      all_goals
        unfold SharedUnits.sys_release_unit
        split <;> rfl
  | rpc =>
      refine h.of_heap hinv ?_ ?_ <;> simp only [SharedUnits.step, SharedUnits.rpcNext]
      · cases hrpc : s.rpc with
        | delete_unit unit unit_p => exact absurd hrpc (hno rfl unit unit_p)
        | _ => rfl
      · cases s.rpc <;> rfl
  | lookup t work_id =>
      refine h.of_heap hinv ?_ ?_ <;> simp only [SharedUnits.step, SharedUnits.lookup] <;>
        split <;> try rfl
      all_goals split <;> rfl
  | send_msg t => exact h.send_msg t

theorem whole_initial (min_port max_port : Int) :
    Whole (initial min_port max_port : SharedUnits T) where
  toInv := inv_initial min_port max_port
  live := by simp [initial]
  noLateSend := rfl

/-- The key of a unit still points to it when it has just been deleted. -/
theorem not_pointersLive_delete [DecidableEq T] (h : Inv s) {unit : Bytes} {unit_p : Nat}
    (hrpc : s.rpc = .delete_unit unit unit_p) : ¬ (s.step .rpc).PointersLive := by
  rintro ⟨hlive, -⟩
  have hkey := h.found unit unit_p hrpc
  have hlt := h.allocated unit unit_p hkey
  obtain ⟨u, hu⟩ := hlive unit unit_p (by simpa [SharedUnits.step, SharedUnits.rpcNext, hrpc])
  simp only [SharedUnits.step, SharedUnits.rpcNext, hrpc] at hu
  rw [List.getElem?_set_self hlt] at hu
  cases hu

end Whole

/-! ## Sending -/

/-- The threads stay out of each other's way: a unit is deleted only while no TCP thread has
    its pointer in hand, and nobody looks a unit up between its delete and the erase. -/
def Careful (s : SharedUnits T) : UnitStep T → Prop
  | .rpc => ∀ unit unit_p, s.rpc = .delete_unit unit unit_p → ∀ t, s.tcp t ≠ some unit_p
  | .lookup _ work_id => s.rpc ≠ .erase_unit work_id
  | _ => True

/-- A stored pointer is stale only while its key is about to be erased; the pointers in hand
    are live. -/
structure Guarded (s : SharedUnits T) : Prop extends Inv s where
  stale : ∀ key unit_p, s.key_sql.lookup key = some (.unit unit_p) →
    s.Live unit_p ∨ s.rpc = .erase_unit key
  handLive : ∀ t unit_p, s.tcp t = some unit_p → s.Live unit_p
  newLive : ∀ unit_p u, s.rpc = .set_unit unit_p u → s.Live unit_p
  noLateSend : s.lateSends = []

section Guarded

variable {s : SharedUnits T}

/-- Outside the erase every stored pointer is live. -/
theorem Guarded.stored_live (h : Guarded s) {key : Bytes} {unit_p : Nat}
    (hkey : s.key_sql.lookup key = some (.unit unit_p)) (hrpc : s.rpc ≠ .erase_unit key) :
    s.Live unit_p :=
  (h.stale key unit_p hkey).resolve_right hrpc

theorem Guarded.sys_allocate_unit (h : Guarded s) (hidle : s.rpc = .idle) (unit : Bytes)
    (indet : Indet) : Guarded (s.sys_allocate_unit unit indet) := by
  have hlive : ∀ unit_p, s.Live unit_p → (s.sys_allocate_unit unit indet).Live unit_p := by
    rintro unit_p ⟨u, hu⟩
    have hlt := (List.getElem?_eq_some_iff.mp hu).1
    exact ⟨u, (List.getElem?_append_left hlt).trans hu⟩
  refine ⟨h.toInv.sys_allocate_unit unit indet, ?_, ?_, ?_, h.noLateSend⟩
  · exact fun key unit_p hkey => .inl (hlive _ (h.stored_live hkey (by simp [hidle])))
  · exact fun t unit_p ht => hlive _ (h.handLive t unit_p ht)
  · intro unit_p u hrpc
    simp only [SharedUnits.sys_allocate_unit, RpcPoint.set_unit.injEq] at hrpc
    obtain ⟨rfl, -⟩ := hrpc
    exact ⟨_, List.getElem?_concat_length⟩

theorem Guarded.sys_release_unit (h : Guarded s) (hidle : s.rpc = .idle) (unit : Bytes)
    (uninit : Int) : Guarded (s.sys_release_unit unit uninit) := by
  have hinv := h.toInv.sys_release_unit unit uninit
  unfold SharedUnits.sys_release_unit at hinv ⊢
  cases hunit : s.unitAt unit with
  | none => exact h
  | some unit_p =>
      rw [hunit] at hinv
      refine ⟨hinv, ?_, h.handLive, by simp, h.noLateSend⟩
      exact fun key q hkey => .inl (h.stored_live hkey (by simp [hidle]))

theorem Guarded.rpcNext (h : Guarded s)
    (hfree : ∀ unit unit_p, s.rpc = .delete_unit unit unit_p → ∀ t, s.tcp t ≠ some unit_p) :
    Guarded s.rpcNext := by
  have hinv := h.toInv.rpcNext
  unfold SharedUnits.rpcNext at hinv ⊢
  cases hrpc : s.rpc with
  | idle => exact h
  | set_unit unit_p u =>
      rw [hrpc] at hinv
      refine ⟨hinv, fun key q hkey => .inl ?_, h.handLive, by simp, h.noLateSend⟩
      rcases eq_or_ne key u.work_id with rfl | hne
      · simp only [AList.lookup_insert] at hkey
        cases hkey
        exact h.newLive unit_p u hrpc
      · simp only [AList.lookup_insert_ne hne] at hkey
        exact h.stored_live hkey (by simp [hrpc])
  | set_out_port u =>
      rw [hrpc] at hinv
      refine ⟨hinv, fun key q hkey => .inl ?_, h.handLive, by simp, h.noLateSend⟩
      rcases eq_or_ne key (out_port_key u.work_id) with rfl | hne
      · simp only [AList.lookup_insert] at hkey
        cases hkey
      · simp only [AList.lookup_insert_ne hne] at hkey
        exact h.stored_live hkey (by simp [hrpc])
  | delete_unit unit unit_p =>
      rw [hrpc] at hinv
      -- deleting one unit leaves the others where they are
      have hother : ∀ q, q ≠ unit_p → s.Live q →
          ∃ u, (s.heap.set unit_p none)[q]? = some (some u) := by
        rintro q hne ⟨u, hu⟩
        exact ⟨u, (List.getElem?_set_ne hne.symm).trans hu⟩
      refine ⟨hinv, ?_, ?_, by simp, h.noLateSend⟩
      · intro key q hkey
        rcases eq_or_ne q unit_p with rfl | hne
        · -- only the key of the released unit points to it
          rw [h.once key unit q hkey (h.found unit q hrpc)]
          exact .inr rfl
        · exact .inl (hother q hne (h.stored_live hkey (by simp [hrpc])))
      · -- no client thread has the deleted unit in hand
        intro t q ht
        have hne : q ≠ unit_p := by
          rintro rfl
          exact hfree unit q hrpc t ht
        exact hother q hne (h.handLive t q ht)
  | erase_unit unit =>
      rw [hrpc] at hinv
      refine ⟨hinv, fun key q hkey => .inl ?_, h.handLive, by simp, h.noLateSend⟩
      rcases eq_or_ne key unit with rfl | hne
      · simp only [AList.lookup_erase] at hkey
        cases hkey
      · simp only [AList.lookup_erase_ne hne] at hkey
        exact h.stored_live hkey (by simp [hrpc, hne.symm])
  | erase_out_port unit =>
      rw [hrpc] at hinv
      refine ⟨hinv, fun key q hkey => .inl ?_, h.handLive, by simp, h.noLateSend⟩
      exact h.stored_live (lookup_erase_unit hkey) (by simp [hrpc])

theorem Guarded.lookup [DecidableEq T] (h : Guarded s) (t : T) {work_id : Bytes}
    (hno : s.rpc ≠ .erase_unit work_id) : Guarded (s.lookup t work_id) := by
  have hinv := h.toInv.lookup t work_id
  unfold SharedUnits.lookup at hinv ⊢
  split
  · exact h
  · rename_i hne
    rw [if_neg hne] at hinv
    refine ⟨hinv, h.stale, ?_, h.newLive, h.noLateSend⟩
    intro t' unit_p ht'
    rcases eq_or_ne t' t with rfl | hne'
    · simp only [Function.update_self] at ht'
      exact h.stored_live (unitAt_eq_some.mp ht') hno
    · simp only [Function.update_of_ne hne'] at ht'
      exact h.handLive t' unit_p ht'

theorem Guarded.send_msg [DecidableEq T] (h : Guarded s) (t : T) : Guarded (s.send_msg t) := by
  have hinv := h.toInv.send_msg t
  unfold SharedUnits.send_msg at hinv ⊢
  cases ht : s.tcp t with
  | none => exact h
  | some unit_p =>
      obtain ⟨u, hu⟩ := h.handLive t unit_p ht
      simp only [ht, hu] at hinv ⊢
      refine ⟨hinv, h.stale, ?_, h.newLive, h.noLateSend⟩
      intro t' q ht'
      rcases eq_or_ne t' t with rfl | hne
      · simp at ht'
      · simp only [Function.update_of_ne hne] at ht'
        exact h.handLive t' q ht'

theorem Guarded.step [DecidableEq T] (h : Guarded s) (e : UnitStep T) (hcareful : s.Careful e) :
    Guarded (s.step e) := by
  cases e with
  | register_unit unit indet =>
      simp only [SharedUnits.step]
      split
      · exact h.sys_allocate_unit ‹_› unit indet
      · exact h
  | release_unit unit uninit =>
      simp only [SharedUnits.step]
      split
      · exact h.sys_release_unit ‹_› unit uninit
      · exact h
  | rpc => exact h.rpcNext hcareful
  | lookup t work_id =>
      simp only [SharedUnits.step]
      split
      · exact h.lookup t hcareful
      · exact h
  | send_msg t => exact h.send_msg t

theorem guarded_initial (min_port max_port : Int) :
    Guarded (initial min_port max_port : SharedUnits T) where
  toInv := inv_initial min_port max_port
  stale := fun _ _ h => absurd h (lookup_config _ _ _)
  handLive := by simp [initial]
  newLive := by simp [initial]
  noLateSend := rfl

end Guarded

/-- While the threads stay out of each other's way, no message is sent through a deleted
    unit. -/
theorem send_msg_live [DecidableEq T] (min_port max_port : Int) (es : List (UnitStep T))
    (hes : Run.AllSteps step Careful (initial min_port max_port) es) :
    (Run.exec step (initial min_port max_port) es).lateSends = [] :=
  (Run.exec_invariant (I := Guarded) (fun _ e h hc => h.step e hc)
    (guarded_initial min_port max_port) hes).noLateSend

/-! ## The claim of the store -/

/-- All pointers are live in every state of a run exactly when the run deletes no unit.  While the
    threads stay out of each other's way, no message is sent through a deleted one. -/
theorem pointers_live_iff [DecidableEq T] (min_port max_port : Int) (es : List (UnitStep T)) :
    (Run.AllSteps step (fun s e => PointersLive (s.step e)) (initial min_port max_port) es ↔
      Run.AllSteps step NoDelete (initial min_port max_port) es) ∧
    (Run.AllSteps step Careful (initial min_port max_port) es →
      (Run.exec step (initial min_port max_port) es).lateSends = []) := by
  refine ⟨?_, send_msg_live min_port max_port es⟩
  refine Run.AllSteps.iff_of_guarded (I := Whole) (W := fun _ => True)
    (fun s e h _ hno => h.step e hno) ?_ (whole_initial min_port max_port) (fun _ _ => trivial)
  intro s e h _
  constructor
  · rintro hlive rfl unit unit_p hrpc
    exact not_pointersLive_delete h.toInv hrpc hlive
  · intro hno
    exact (h.step e hno).pointersLive

/-- A TCP thread looks a unit up, and sends through it after it has been released. -/
def releasedInHand : List (UnitStep Unit) :=
  [.register_unit (str "llm") ⟨0, 0⟩, .rpc, .rpc, .lookup () (str "llm.0"),
    .release_unit (str "llm.0") 0, .rpc, .send_msg ()]

theorem released_in_hand_used :
    (Run.exec step (initial 5010 6000) releasedInHand).lateSends = [0] ∧
      ¬ Run.AllSteps step (fun s e => PointersLive (s.step e)) (initial 5010 6000)
        releasedInHand := by
  refine ⟨by decide +kernel, ?_⟩
  rintro ⟨-, -, -, -, -, ⟨hlive, -⟩, -⟩
  -- the state after the delete: the key is still there, the unit is not
  obtain ⟨u, hu⟩ := hlive (str "llm.0") 0 (by decide +kernel)
  have hnone : (Run.exec step (initial 5010 6000) (releasedInHand.take 6)).heap[0]? =
      some none := by decide +kernel
  cases hnone.symm.trans hu

end SharedUnits
end DoubleTurnouts
