/-
  DoubleTurnouts.UnitManager.SessionIds

  The ids `onConnection` gives to sessions.  `counter_port` is shared by the
  I/O threads of the server; each new connection draws an id with a
  `fetch_add`, compares the counter with 65535 in a second step and stores
  8000 in a third, so another thread may draw or store in between.

  `Wraps` is the invariant of the runs in which that does no harm: the `i`-th
  id drawn is 8000 plus the remainder of `i` modulo the size of the range.
-/
import Mathlib.Tactic
import DoubleTurnouts.Lib.Run
import DoubleTurnouts.UnitManager.PortRegistry

namespace DoubleTurnouts

open Decimal

/-- Where a thread is in `onConnection`: outside, after the `fetch_add`, or after a load
    above 65535. -/
inductive DrawPoint
  | idle
  | drawn
  | exceeded
  deriving DecidableEq, Repr

/-- `counter_port` with the threads that use it; `draws` are the ids given out so far, in
    the order of the `fetch_add`s. -/
structure CounterPort (T : Type) where
  counter_port : Int
  point : T → DrawPoint
  draws : List Int

/-- `_zmq_url` of `zmq_bus_com::work`, the endpoint of the session with the given id. -/
def session_url (port : Int) : Bytes := sprintf zmqFormat port

namespace CounterPort

variable {T : Type}

/-- The counter when the process starts. -/
def new : CounterPort T where
  counter_port := 8000
  point := fun _ => .idle
  draws := []

section Steps

variable [DecidableEq T]

/-- `counter_port.fetch_add(1)`. -/
def fetch_add (s : CounterPort T) (t : T) : CounterPort T where
  counter_port := wrap32 (s.counter_port + 1)
  point := Function.update s.point t .drawn
  draws := s.draws ++ [s.counter_port]

/-- The load that is compared with 65535. -/
def load (s : CounterPort T) (t : T) : CounterPort T :=
  { s with
    point := Function.update s.point t (if s.counter_port > 65535 then .exceeded else .idle) }

/-- `counter_port.store(8000)`. -/
def store (s : CounterPort T) (t : T) : CounterPort T :=
  { s with counter_port := 8000, point := Function.update s.point t .idle }

/-- The next atomic step of a thread; a thread outside `onConnection` gets a connection. -/
def step (s : CounterPort T) (t : T) : CounterPort T :=
  match s.point t with
  | .idle => s.fetch_add t
  | .drawn => s.load t
  | .exceeded => s.store t

end Steps

/-- Every id lies in the range, and ids drawn fewer than 57536 draws apart differ, and so do
    the endpoints made from them. -/
def IdsUnique (s : CounterPort T) : Prop :=
  (∀ id ∈ s.draws, 8000 ≤ id ∧ id ≤ 65535) ∧
    ∀ (i j : Nat) (a b : Int), s.draws[i]? = some a → s.draws[j]? = some b → i < j →
      j - i < 57536 → a ≠ b ∧ session_url a ≠ session_url b

/-- No thread draws while the counter stands above the range, and none stores 8000 over a
    counter that has been reset and used since. -/
def InTurn (s : CounterPort T) (t : T) : Prop :=
  match s.point t with
  | .idle => s.counter_port ≤ 65535
  | .drawn => True
  | .exceeded => 65535 < s.counter_port ∨ s.counter_port = 8000

/-! ## The invariant -/

/-- The `i`-th id of a counter that wraps around at the end of its range. -/
def wrapped (i : Nat) : Int := 8000 + (i % 57536 : Nat)

/-- The ids drawn so far are the first ones of the wrapping counter, which stands at the
    next one or has yet to be reset. -/
structure Wraps (s : CounterPort T) : Prop where
  draws : s.draws = (List.range s.draws.length).map wrapped
  counter : s.counter_port = wrapped s.draws.length ∨
    s.counter_port = 65536 ∧ s.draws.length % 57536 = 0

theorem wraps_new : Wraps (new : CounterPort T) := ⟨rfl, .inl rfl⟩

theorem wrapped_bounds (i : Nat) : 8000 ≤ wrapped i ∧ wrapped i ≤ 65535 := by
  unfold wrapped
  omega

theorem wrapped_ne {i j : Nat} (hij : i < j) (hnear : j - i < 57536) : wrapped i ≠ wrapped j := by
  unfold wrapped
  omega

section Steps

variable [DecidableEq T]

theorem Wraps.fetch_add {s : CounterPort T} (h : s.Wraps) (t : T)
    (hlow : s.counter_port ≤ 65535) : (s.fetch_add t).Wraps := by
  have hcounter : s.counter_port = wrapped s.draws.length := by
    -- the counter is below the end of the range, so it has been reset
    rcases h.counter with hc | ⟨hc, -⟩
    · exact hc
    · omega
  have hlength : (s.fetch_add t).draws.length = s.draws.length + 1 := by
    simp [CounterPort.fetch_add]
  constructor
  · rw [hlength, List.range_succ, List.map_append, ← h.draws]
    simp [CounterPort.fetch_add, hcounter]
  · have hbounds := wrapped_bounds s.draws.length
    have hwrap : (s.fetch_add t).counter_port = s.counter_port + 1 :=
      wrap32_of_isInt32 ⟨by omega, by omega⟩
    rw [hlength, hwrap, hcounter]
    -- after the last id of the range the counter stands one above it
    unfold wrapped
    omega

theorem Wraps.load {s : CounterPort T} (h : s.Wraps) (t : T) : (s.load t).Wraps :=
  ⟨h.draws, h.counter⟩

theorem Wraps.store {s : CounterPort T} (h : s.Wraps) (t : T)
    (hdue : 65535 < s.counter_port ∨ s.counter_port = 8000) : (s.store t).Wraps := by
  refine ⟨h.draws, .inl ?_⟩
  show (8000 : Int) = wrapped s.draws.length
  have hbounds := wrapped_bounds s.draws.length
  have hcounter := h.counter
  unfold wrapped at *
  omega

theorem Wraps.step {s : CounterPort T} (h : s.Wraps) (t : T) (hturn : s.InTurn t) :
    (s.step t).Wraps := by
  unfold InTurn at hturn
  unfold CounterPort.step
  cases hpoint : s.point t with
  | idle =>
      rw [hpoint] at hturn
      exact h.fetch_add t hturn
  | drawn => exact h.load t
  | exceeded =>
      rw [hpoint] at hturn
      exact h.store t hturn

end Steps

/-! ## Unique ids -/

theorem session_url_injective : Function.Injective session_url := by
  intro a b h
  unfold session_url at h
  rw [sprintf_zmqFormat, sprintf_zmqFormat] at h
  exact to_string_injective (List.append_cancel_right (List.append_cancel_left h))

/-- An id is known from its place in the list of draws. -/
theorem Wraps.wrapped {s : CounterPort T} (h : s.Wraps) {n : Nat} {id : Int}
    (hn : s.draws[n]? = some id) : id = CounterPort.wrapped n := by
  rw [h.draws, List.getElem?_map] at hn
  obtain ⟨k, hk, rfl⟩ := Option.map_eq_some_iff.mp hn
  obtain ⟨-, rfl⟩ := List.getElem?_eq_some_iff.mp hk
  simp

theorem Wraps.idsUnique {s : CounterPort T} (h : s.Wraps) : s.IdsUnique := by
  constructor
  · intro id hid
    rw [h.draws] at hid
    obtain ⟨i, -, rfl⟩ := List.mem_map.mp hid
    exact wrapped_bounds i
  · intro i j a b ha hb hij hnear
    have hne : a ≠ b := by
      rw [h.wrapped ha, h.wrapped hb]
      exact wrapped_ne hij hnear
    exact ⟨hne, fun hurl => hne (session_url_injective hurl)⟩

/-- In every interleaving whose draws and stores come in turn, session ids are unique while
    they are in use. -/
theorem session_ids_unique [DecidableEq T] (ts : List T) (hts : Run.AllSteps step InTurn new ts) :
    IdsUnique (Run.exec step (new : CounterPort T) ts) :=
  Wraps.idsUnique
    (Run.exec_invariant (I := Wraps) (fun _ t h hturn => h.step t hturn) wraps_new hts)

instance [DecidableEq T] (s : CounterPort T) (t : T) : Decidable (s.InTurn t) := by
  unfold InTurn
  split <;> infer_instance

theorem session_ids_unique_two_threads :
    Run.AllSteps step InTurn (new : CounterPort Bool) [false, true, false, true] ∧
      IdsUnique (Run.exec step (new : CounterPort Bool) [false, true, false, true]) :=
  ⟨by decide, session_ids_unique _ (by decide)⟩

/-! ## Two threads at the end of the range -/

/-- One thread alone: two steps a connection, until the counter has reached the end of its
    range. -/
theorem exec_alone [DecidableEq T] (t : T) {n : Nat} (hn : n ≤ 57535) :
    Run.exec step (new : CounterPort T) (List.replicate (2 * n) t) =
      ⟨8000 + n, fun _ => .idle, (List.range n).map wrapped⟩ := by
  induction n with
  | zero => rfl
  | succ n ih =>
      have hn' : n < 57536 := by omega
      have hwrap : wrap32 (8000 + (n : Int) + 1) = 8000 + (n : Int) + 1 :=
        wrap32_of_isInt32 ⟨by omega, by omega⟩
      have hlow : ¬ (8000 + (n : Int) + 1 > 65535) := by omega
      have hnext : wrapped n = 8000 + (n : Int) := by
        unfold wrapped
        rw [Nat.mod_eq_of_lt hn']
      -- the two steps of the next connection: draw and compare
      rw [show 2 * (n + 1) = 2 * n + 2 from rfl, List.replicate_add, Run.exec_append,
        ih (by omega)]
      simp [step, fetch_add, load, hwrap, hlow, List.range_succ, hnext]
      omega

/-- Both threads draw at the end of the range and both see the counter beyond it; one resets
    it and draws again before the other one does. -/
def lateStore : List Bool :=
  List.replicate (2 * 57535) false ++
    [false, false, true, true, false, false, false, true, false]

theorem late_store_repeats_id :
    (Run.exec step new lateStore).draws =
        (List.range 57535).map wrapped ++ [65535, 65536, 8000, 8000] ∧
      ¬ IdsUnique (Run.exec step new lateStore) := by
  have hdraws : (Run.exec step new lateStore).draws =
      (List.range 57535).map wrapped ++ [65535, 65536, 8000, 8000] := by
    rw [lateStore, Run.exec_append, exec_alone false le_rfl]
    have h1 : wrap32 65536 = 65536 := by decide
    have h2 : wrap32 65537 = 65537 := by decide
    have h3 : wrap32 8001 = 8001 := by decide
    simp [step, fetch_add, load, store, h1, h2, h3]
  refine ⟨hdraws, ?_⟩
  rintro ⟨hrange, -⟩
  have hmem : (65536 : Int) ∈ (Run.exec step new lateStore).draws := by
    rw [hdraws]
    simp
  exact absurd (hrange _ hmem).2 (by decide)

end CounterPort
end DoubleTurnouts
