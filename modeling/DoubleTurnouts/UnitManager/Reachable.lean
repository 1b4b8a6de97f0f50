/-
  DoubleTurnouts.UnitManager.Reachable

  The manager after any requests at all: registers without a free port, writes
  over live work ids, releases of anything.  The bitmap and the units need not
  agree there, but every stored record is still one `sys_allocate_unit` has
  rendered (`Manager.Running`), and `serve_unitAt` says where a record can come
  from.  Two questions are settled from that: what a register does when fewer
  than two ports are free, and what the key-value requests can do to a live
  unit.
-/
import Mathlib.Tactic
import DoubleTurnouts.Lib.Effect
import DoubleTurnouts.UnitManager.Dispatch
import DoubleTurnouts.UnitManager.PortRegistry

namespace DoubleTurnouts

open Text Decimal

/-! ## Runs without a side condition -/

/-- The `int` variables a register reads hold `int`s, assigned or not. -/
def SysRequest.Typed : SysRequest → Prop
  | .register_unit _ indet => IsInt32 indet.output_port ∧ IsInt32 indet.inference_port
  | _ => True

/-- A record as `sys_allocate_unit` renders it, with whatever ports it had. -/
structure Rendered (w : Bytes) (u : UnitData) (unit : Bytes) (p q : Int) : Prop where
  key_eq : w = sample_get_work_id u.port_ unit
  output_url : u.output_url = unit_url zmqFormat unit (str ".output_url") p
  inference_url : u.inference_url = unit_url zmqFormat unit (str ".inference_url") q
  output_int : IsInt32 p
  inference_int : IsInt32 q

/-- What no request can break, for the port range `[lo, hi)`. -/
structure Manager.Running (lo hi : Int) (m : Manager) : Prop where
  format : m.zmq_s_format = zmqFormat
  start : m.port_list_start = lo
  size : (m.port_list.length : Int) = hi - lo
  records : ∀ {w u}, m.key_sql.unitAt w = some u → ∃ unit p q, Rendered w u unit p q

/-- A record found after a request was there before, or the request has registered it. -/
theorem serve_unitAt {m : Manager} {r : SysRequest} {w : Bytes} {u : UnitData}
    (h : (serveState m r).key_sql.unitAt w = some u) :
    m.key_sql.unitAt w = some u ∨
      ∃ unit indet, r = .register_unit unit indet ∧
        u = (sys_allocate_unit indet m unit).1 ∧
        w = sample_get_work_id m.work_id_number_counter unit := by
  have herase : ∀ {key_sql : KeySql} {k : Bytes},
      KeySql.unitAt (key_sql.erase k) w = some u → key_sql.unitAt w = some u := by
    intro key_sql k hu
    rw [unitAt_erase] at hu
    split at hu
    · cases hu
    · exact hu
  -- a string in the store never reads as a unit
  have hinsert : ∀ {key_sql : KeySql} {k v : Bytes},
      KeySql.unitAt (key_sql.insert k (.string v)) w = some u → key_sql.unitAt w = some u := by
    intro key_sql k v hu
    rw [unitAt_insert] at hu
    split at hu
    · cases hu
    · exact hu
  cases r with
  | register_unit unit indet =>
      have hu := hinsert h
      rw [unitAt_insert] at hu
      split at hu
      · rename_i hw
        exact .inr ⟨unit, indet, rfl, (Option.some.inj hu).symm, hw⟩
      · exact .inl hu
  | release_unit w' uninit =>
      apply Or.inl
      simp only [serveState, serve, rpc_release_unit, sys_release_unit] at h
      split at h
      · exact h
      · exact herase (herase h)
  | sql_select key => exact .inl h
  | sql_set raw =>
      apply Or.inl
      simp only [serveState, serve, rpc_sql_set] at h
      split at h
      · exact h
      · exact hinsert h
  | sql_unset key => exact .inl (herase h)

@[simp] theorem length_free_port (port_list : List Bool) (idx : Int) :
    (free_port port_list idx).length = port_list.length := by
  unfold free_port
  split <;> simp

@[simp] theorem length_claim_port (start : Int) (port_list : List Bool) (uninit : Int) :
    (claim_port start port_list uninit).2.length = port_list.length := by
  unfold claim_port
  split <;> simp

/-- No request changes the formats, the first port or the size of the bitmap. -/
theorem serve_frame (m : Manager) (r : SysRequest) :
    (serveState m r).zmq_s_format = m.zmq_s_format ∧
      (serveState m r).zmq_c_format = m.zmq_c_format ∧
      (serveState m r).port_list_start = m.port_list_start ∧
      (serveState m r).port_list.length = m.port_list.length := by
  cases r with
  | register_unit unit indet =>
      simp [serveState, serve, rpc_allocate_unit, sys_allocate_unit]
  | release_unit w uninit =>
      simp only [serveState, serve, rpc_release_unit, sys_release_unit]
      split <;> simp
  | sql_select key => simp [serveState, serve, rpc_sql_select]
  | sql_set raw =>
      simp only [serveState, serve, rpc_sql_set]
      split <;> simp [sys_sql_set]
  | sql_unset key => simp [serveState, serve, rpc_sql_unset, sys_sql_unset]

/-- The port a first-fit loop returns is an `int`, found or not. -/
theorem isInt32_claim_port {lo hi : Int} (hlo : IsInt32 lo) (hhi : IsInt32 hi)
    {port_list : List Bool} (hsize : (port_list.length : Int) = hi - lo) {uninit : Int}
    (huninit : IsInt32 uninit) : IsInt32 (claim_port lo port_list uninit).1 := by
  unfold claim_port
  split
  · rename_i i hidx
    have hlt : i < port_list.length := (List.findIdx?_eq_some_iff_getElem.mp hidx).1
    obtain ⟨hlo1, hlo2⟩ := hlo
    obtain ⟨hhi1, hhi2⟩ := hhi
    exact ⟨by simp only; omega, by simp only; omega⟩
  · exact huninit

namespace Manager.Running

variable {lo hi : Int} {m : Manager}

/-- The record of a register is a rendered one. -/
theorem rendered_sys_allocate_unit (hlo : IsInt32 lo) (hhi : IsInt32 hi)
    (h : m.Running lo hi) {indet : Indet}
    (hindet : IsInt32 indet.output_port ∧ IsInt32 indet.inference_port) (unit : Bytes) :
    Rendered (sample_get_work_id m.work_id_number_counter unit)
      (sys_allocate_unit indet m unit).1 unit
      (claim_port m.port_list_start m.port_list indet.output_port).1
      (claim_port m.port_list_start
        (claim_port m.port_list_start m.port_list indet.output_port).2 indet.inference_port).1 where
  key_eq := rfl
  output_url := by rw [← h.format]; rfl
  inference_url := by rw [← h.format]; rfl
  output_int := by
    rw [h.start]
    exact isInt32_claim_port hlo hhi h.size hindet.1
  inference_int := by
    rw [h.start]
    exact isInt32_claim_port hlo hhi (by rw [length_claim_port]; exact h.size) hindet.2

theorem serve (hlo : IsInt32 lo) (hhi : IsInt32 hi) (h : m.Running lo hi) {r : SysRequest}
    (hr : r.Typed) : (serveState m r).Running lo hi := by
  obtain ⟨hformat, -, hstart, hlength⟩ := serve_frame m r
  refine ⟨hformat.trans h.format, hstart.trans h.start, by rw [hlength]; exact h.size, ?_⟩
  intro w u hu
  rcases serve_unitAt hu with hold | ⟨unit, indet, rfl, rfl, rfl⟩
  · exact h.records hold
  · exact ⟨unit, _, _, h.rendered_sys_allocate_unit hlo hhi hr unit⟩

theorem initial (hle : lo ≤ hi) : (Manager.initial lo hi).Running lo hi := by
  have hinit := registryInv_initial hle
  refine ⟨hinit.format, hinit.start, hinit.size, ?_⟩
  intro w u hu
  have hnone : (Manager.initial lo hi).key_sql.unitAt w = none :=
    unitAt_load_default_config lo hi w
  rw [hnone] at hu
  cases hu

/-- After any requests. -/
theorem run (hlo : IsInt32 lo) (hhi : IsInt32 hi) (h : m.Running lo hi)
    {reqs : List SysRequest} (hreqs : ∀ r ∈ reqs, r.Typed) :
    (Run.exec serveState m reqs).Running lo hi := by
  induction reqs generalizing m with
  | nil => exact h
  | cons r reqs ih =>
      exact ih (h.serve hlo hhi (hreqs r (by simp))) fun r' hr' => hreqs r' (by simp [hr'])

theorem ports_of_rendered (h : m.Running lo hi) {w : Bytes} {u : UnitData} {unit : Bytes}
    {p q : Int} (hu : Rendered w u unit p q) :
    m.output_port u = some p ∧ m.inference_port u = some q := by
  simp only [Manager.output_port, Manager.inference_port, h.format, hu.output_url,
    hu.inference_url]
  exact ⟨sscanf_unit_url hu.output_int _ _, sscanf_unit_url hu.inference_int _ _⟩

end Manager.Running

/-! ## Port exhaustion -/

/-- A live unit has the port printed in one of its URLs. -/
def Manager.HeldByLive (m : Manager) (p : Int) : Prop :=
  ∃ w u, m.key_sql.unitAt w = some u ∧ (m.output_port u = some p ∨ m.inference_port u = some p)

/-- A register that fails as a whole: the URLs it hands out carry no port outside the range
    and none of a live unit, and the bitmap and the key store are as before. -/
structure RefusedCleanly (lo hi : Int) (m : Manager) (unit : Bytes) (indet : Indet) : Prop where
  ports : ∀ url ∈ [(sys_allocate_unit indet m unit).1.output_url,
      (sys_allocate_unit indet m unit).1.inference_url],
    ∀ p, sscanf url m.zmq_s_format = some p → (lo ≤ p ∧ p < hi) ∧ ¬ m.HeldByLive p
  port_list : (serveState m (.register_unit unit indet)).port_list = m.port_list
  key_sql : ∀ key,
    (serveState m (.register_unit unit indet)).key_sql.lookup key = m.key_sql.lookup key

/-- No register is refused cleanly: a key store that has not changed held this very record
    before, so the ports it hands out were a live unit's. -/
theorem not_refusedCleanly {lo hi : Int} (hlo : IsInt32 lo) (hhi : IsInt32 hi) {m : Manager}
    (h : m.Running lo hi) {indet : Indet}
    (hindet : IsInt32 indet.output_port ∧ IsInt32 indet.inference_port) (unit : Bytes) :
    ¬ RefusedCleanly lo hi m unit indet := by
  intro hclean
  have hrendered := h.rendered_sys_allocate_unit hlo hhi hindet unit
  obtain ⟨hout, -⟩ := h.ports_of_rendered hrendered
  -- read back through the unchanged store
  have hstored : m.key_sql.unitAt (sample_get_work_id m.work_id_number_counter unit)
      = some (sys_allocate_unit indet m unit).1 := by
    rw [← unitAt_sys_allocate_unit indet m unit, KeySql.unitAt, KeySql.unitAt]
    congr 1
    exact (hclean.key_sql _).symm
  have hfree := (hclean.ports _ (by simp) _ hout).2
  exact hfree ⟨_, _, hstored, Or.inl hout⟩

theorem claim_port_of_full {port_list : List Bool} (h : port_list.count false = 0)
    (start uninit : Int) : claim_port start port_list uninit = (uninit, port_list) := by
  have hnone : port_list.findIdx? (fun taken => !taken) = none := by
    apply List.findIdx?_eq_none_iff.mpr
    intro b hb
    have hne : b ≠ false := by
      rintro rfl
      exact List.count_eq_zero.mp h hb
    simpa using hne
  simp [claim_port, hnone]

/-- With fewer than two free entries the second loop finds none. -/
theorem claim_port_second {port_list : List Bool} (h : port_list.count false < 2)
    (start uninit uninit' : Int) :
    (claim_port start (claim_port start port_list uninit).2 uninit').1 = uninit' := by
  have hfull : (claim_port start port_list uninit).2.count false = 0 := by
    -- one free entry, which the first loop takes, or none at all
    by_cases hone : 1 ≤ port_list.count false
    · obtain ⟨i, hi, hclaim⟩ := claim_port_of_free hone start uninit
      have hcount := count_false_set_true hi
      rw [hclaim]
      show (port_list.set i true).count false = 0
      omega
    · have hzero : port_list.count false = 0 := by omega
      rw [claim_port_of_full hzero]
      exact hzero
  rw [claim_port_of_full hfull]

/-- After any requests, when fewer than two ports are free: a register is never refused
    cleanly, and its inference URL carries the value of an uninitialised variable. -/
theorem exhausted_register_not_refused (lo hi : Int) (hlo : IsInt32 lo) (hhi : IsInt32 hi)
    (hle : lo ≤ hi) (reqs : List SysRequest) (hreqs : ∀ r ∈ reqs, r.Typed)
    (hfew : (Run.exec serveState (Manager.initial lo hi) reqs).port_list.count false < 2)
    (unit : Bytes) (indet : Indet)
    (hindet : IsInt32 indet.output_port ∧ IsInt32 indet.inference_port) :
    ¬ RefusedCleanly lo hi (Run.exec serveState (Manager.initial lo hi) reqs) unit indet ∧
      sscanf (sys_allocate_unit indet
          (Run.exec serveState (Manager.initial lo hi) reqs) unit).1.inference_url
        (Run.exec serveState (Manager.initial lo hi) reqs).zmq_s_format
          = some indet.inference_port := by
  have hrun := (Manager.Running.initial hle).run hlo hhi hreqs
  refine ⟨not_refusedCleanly hlo hhi hrun hindet unit, ?_⟩
  have hrendered := hrun.rendered_sys_allocate_unit hlo hhi hindet unit
  obtain ⟨-, hinference⟩ := hrun.ports_of_rendered hrendered
  -- the port printed in the inference URL is what the second loop returned
  rw [claim_port_second hfew] at hinference
  exact hinference

/-- `n` registers of one unit. -/
def registerMany (n : Nat) : List SysRequest :=
  List.replicate n (.register_unit (str "llm") ⟨0, 0⟩)

theorem registerMany_typed (n : Nat) : ∀ r ∈ registerMany n, r.Typed := by
  intro r hr
  obtain rfl := List.eq_of_mem_replicate hr
  exact ⟨by decide, by decide⟩

/-- Each of them takes two entries while there are two. -/
theorem count_false_registerMany {m : Manager} {n : Nat} (h : 2 * n ≤ m.port_list.count false) :
    (Run.exec serveState m (registerMany n)).port_list.count false
      = m.port_list.count false - 2 * n := by
  induction n generalizing m with
  | zero => rfl
  | succ n ih =>
      obtain ⟨i, j, u, hgi, hgj, hij, -, -, -, -, heq⟩ :=
        sys_allocate_unit_eq (m := m) ⟨0, 0⟩ (str "llm") (by omega)
      have hstate : serveState m (.register_unit (str "llm") ⟨0, 0⟩) = m.withUnit u i j := by
        simp [serveState, serve, rpc_allocate_unit, heq]
      have hcount_i := count_false_set_true hgi
      have hcount_j : ((m.port_list.set i true).set j true).count false
          = (m.port_list.set i true).count false - 1 := by
        apply count_false_set_true
        rw [List.getElem?_set_ne hij]
        exact hgj
      have hcount : (m.withUnit u i j).port_list.count false = m.port_list.count false - 2 := by
        show ((m.port_list.set i true).set j true).count false = _
        omega
      rw [registerMany, List.replicate_succ, Run.exec_cons, hstate]
      have hrest := ih (m := m.withUnit u i j) (by omega)
      rw [registerMany] at hrest
      omega

/-- The shipped range has an odd number of ports; 272 units leave one. -/
theorem count_false_shipped :
    (Run.exec serveState (Manager.initial 5010 5555) (registerMany 272)).port_list.count false
      = 1 := by
  have hinit : (Manager.initial 5010 5555).port_list.count false = 545 := by decide +kernel
  rw [count_false_registerMany (by omega), hinit]

theorem exhausted_register_not_refused_shipped :
    ¬ RefusedCleanly 5010 5555 (Run.exec serveState (Manager.initial 5010 5555)
      (registerMany 272)) (str "llm") ⟨5010, 5010⟩ :=
  (exhausted_register_not_refused 5010 5555 (by decide) (by decide) (by decide)
    (registerMany 272) (registerMany_typed 272) (by rw [count_false_shipped]; decide) (str "llm")
    ⟨5010, 5010⟩ ⟨by decide, by decide⟩).1

/-- The 273rd unit gets the last port and an uninitialised one. -/
theorem last_port_register_not_refused :
    (Run.exec serveState (Manager.initial 5010 5555) (registerMany 272)).port_list.count false < 2 ∧
      ¬ RefusedCleanly 5010 5555 (Run.exec serveState (Manager.initial 5010 5555)
        (registerMany 272)) (str "llm") ⟨0, 0⟩ := by
  refine ⟨by rw [count_false_shipped]; decide, ?_⟩
  have hrun := (Manager.Running.initial (show (5010 : Int) ≤ 5555 by decide)).run
    (by decide) (by decide) (registerMany_typed 272)
  exact not_refusedCleanly (by decide) (by decide) hrun ⟨by decide, by decide⟩ _

/-! ## The key-value requests and a live unit -/

/-- A request of the key-value API. -/
inductive SqlRequest
  | select (key : Bytes)
  | set (raw : Bytes)
  | unset (key : Bytes)
  deriving DecidableEq, Repr

def SqlRequest.sys : SqlRequest → SysRequest
  | .select key => .sql_select key
  | .set raw => .sql_set raw
  | .unset key => .sql_unset key

/-- The key a request writes or erases, as the server reads it. -/
def SqlRequest.written : SqlRequest → Option Bytes
  | .select _ => none
  | .set raw => some (sample_json_str_get raw (str "key"))
  | .unset key => some key

def Manager.sql (m : Manager) (ops : List SqlRequest) : Manager :=
  Run.exec serveState m (ops.map SqlRequest.sys)

/-- Every accepted inference request for `w` is published on the unit's socket. -/
def Manager.Reaches (env : ManagerEnv) (m : Manager) (w : Bytes) (u : UnitData) : Prop :=
  ∀ com_id json_str r, env.sj.request json_str = some r → r.target = w →
    r.action = str "inference" →
    (u.inference_url, spliced (sprintf m.zmq_c_format com_id) json_str) ∈
      (Effect.final (unit_action_match env m com_id json_str) Wire.empty).published

/-- The bitmap entry of a port is there and free. -/
def Manager.PortFree (m : Manager) (p : Int) : Prop :=
  ∃ i : Nat, m.port_list[i]? = some false ∧ p = m.port_list_start + i

/-- The unit is reached by inference requests at every point of the sequence, and a release
    after it finds the unit and frees both of its ports. -/
structure UnitSurvives (env : ManagerEnv) (m : Manager) (w : Bytes) (u : UnitData)
    (ops : List SqlRequest) : Prop where
  reached : ∀ before after, ops = before ++ after → (m.sql before).Reaches env w u
  released : ∀ uninit, (sys_release_unit uninit (m.sql ops) w).1 = 0
  freed : ∀ uninit p, m.output_port u = some p ∨ m.inference_port u = some p →
    (sys_release_unit uninit (m.sql ops) w).2.PortFree p

/-- One key-value request: the registry loses the written key's unit and nothing else. -/
theorem unitAt_serve_sql (m : Manager) (op : SqlRequest) {w : Bytes} (hw : w ≠ []) :
    (serveState m op.sys).key_sql.unitAt w
      = if op.written = some w then none else m.key_sql.unitAt w := by
  cases op with
  | select key => rfl
  | set raw =>
      simp only [SqlRequest.sys, serveState, serve, rpc_sql_set, SqlRequest.written,
        Option.some.injEq]
      split
      · rename_i hempty
        -- an empty key is refused, and a unit's key is not empty
        rw [if_neg]
        rw [hempty]
        exact hw.symm
      · rw [sys_sql_set, unitAt_insert]
        simp only [Any.unit?, eq_comm]
  | unset key =>
      show KeySql.unitAt (m.key_sql.erase key) w = _
      rw [unitAt_erase]
      simp only [SqlRequest.written, Option.some.injEq, eq_comm]

/-- A whole sequence. -/
theorem unitAt_sql (m : Manager) (ops : List SqlRequest) {w : Bytes} (hw : w ≠ []) :
    (m.sql ops).key_sql.unitAt w
      = if ∃ op ∈ ops, op.written = some w then none else m.key_sql.unitAt w := by
  induction ops generalizing m with
  | nil => simp [Manager.sql]
  | cons op ops ih =>
      have hstep : m.sql (op :: ops) = (serveState m op.sys).sql ops := rfl
      rw [hstep, ih, unitAt_serve_sql m op hw]
      by_cases hop : op.written = some w <;> simp [hop]

/-- The sequence leaves everything but the key store alone. -/
theorem sql_frame (m : Manager) (ops : List SqlRequest) :
    ∃ key_sql, m.sql ops = { m with key_sql := key_sql } := by
  induction ops generalizing m with
  | nil => exact ⟨m.key_sql, rfl⟩
  | cons op ops ih =>
      obtain ⟨key_sql, hop⟩ : ∃ key_sql, serveState m op.sys = { m with key_sql := key_sql } := by
        cases op with
        | select key => exact ⟨m.key_sql, rfl⟩
        | set raw =>
            simp only [SqlRequest.sys, serveState, serve, rpc_sql_set]
            split <;> exact ⟨_, rfl⟩
        | unset key => exact ⟨_, rfl⟩
      obtain ⟨key_sql', hops⟩ := ih (serveState m op.sys)
      refine ⟨key_sql', ?_⟩
      show (serveState m op.sys).sql ops = _
      rw [hops, hop]

theorem reaches_of_unitAt (env : ManagerEnv) {m : Manager} {w : Bytes} {u : UnitData}
    (hu : m.key_sql.unitAt w = some u) : m.Reaches env w u := by
  rintro com_id json_str r hr rfl haction
  obtain ⟨hid, htarget⟩ := Simdjson.request_valid hr
  have hrun := route_inference_run env m com_id json_str hid htarget r.target_ne_nil Wire.empty
  rw [hu] at hrun
  rw [unit_action_match_eq, hr]
  simp only [haction, Effect.final, hrun]
  simp

/-- A freed entry is free. -/
theorem getElem?_free_port_self {port_list : List Bool} {i : Nat} (h : i < port_list.length) :
    (free_port port_list i)[i]? = some false := by
  rw [free_port, if_pos (by omega), Int.toNat_natCast, List.getElem?_set_self h]

/-- Freeing another entry does not take it back. -/
theorem getElem?_free_port_of_free {port_list : List Bool} {k : Nat}
    (h : port_list[k]? = some false) (idx : Int) :
    (free_port port_list idx)[k]? = some false := by
  have hlt := (List.getElem?_eq_some_iff.mp h).1
  unfold free_port
  split
  -- freed twice, it is free all the same
  · by_cases hk : idx.toNat = k
    · rw [hk, List.getElem?_set_self hlt]
    · rw [List.getElem?_set_ne hk]
      exact h
  · exact h

/-- A release of a live unit whose ports are in the range frees them both. -/
theorem Manager.Running.release_frees {lo hi : Int} {m : Manager} (h : m.Running lo hi)
    {w unit : Bytes} {u : UnitData} {p q : Int} (hu : m.key_sql.unitAt w = some u)
    (hrendered : Rendered w u unit p q) (hp : lo ≤ p ∧ p < hi) (hq : lo ≤ q ∧ q < hi)
    (uninit : Int) :
    (sys_release_unit uninit m w).1 = 0 ∧ (sys_release_unit uninit m w).2.PortFree p ∧
      (sys_release_unit uninit m w).2.PortFree q := by
  obtain ⟨hout, hinf⟩ := h.ports_of_rendered hrendered
  have hsize := h.size
  obtain ⟨i, hi⟩ : ∃ i : Nat, p - lo = i := Int.eq_ofNat_of_zero_le (by omega)
  obtain ⟨j, hj⟩ : ∃ j : Nat, q - lo = j := Int.eq_ofNat_of_zero_le (by omega)
  have hidx : release_indices m u uninit = ((i : Int), (j : Int)) := by
    simp only [Manager.output_port, Manager.inference_port] at hout hinf
    simp [release_indices, hout, hinf, h.start, hi, hj]
  simp only [sys_release_unit, hu, hidx]
  refine ⟨trivial, ⟨i, ?_, by simp only [h.start]; omega⟩, ⟨j, ?_, by simp only [h.start]; omega⟩⟩
  · show (free_port (free_port m.port_list i) j)[i]? = some false
    apply getElem?_free_port_of_free
    exact getElem?_free_port_self (by omega)
  · show (free_port (free_port m.port_list i) j)[j]? = some false
    apply getElem?_free_port_self
    rw [length_free_port]
    omega

/-- After any requests, for every live unit and every sequence of key-value requests: the
    unit is reached until a release that frees its two ports, exactly if these are in the
    configured range and no request of the sequence writes or erases the unit's own key. -/
theorem unit_survives_sql_iff (env : ManagerEnv) (lo hi : Int) (hlo : IsInt32 lo)
    (hhi : IsInt32 hi) (hle : lo ≤ hi) (reqs : List SysRequest) (hreqs : ∀ r ∈ reqs, r.Typed)
    (w : Bytes) (u : UnitData)
    (hu : (Run.exec serveState (Manager.initial lo hi) reqs).key_sql.unitAt w = some u)
    (ops : List SqlRequest) :
    UnitSurvives env (Run.exec serveState (Manager.initial lo hi) reqs) w u ops ↔
      (∀ p, (Run.exec serveState (Manager.initial lo hi) reqs).output_port u = some p ∨
        (Run.exec serveState (Manager.initial lo hi) reqs).inference_port u = some p →
          lo ≤ p ∧ p < hi) ∧
      ∀ op ∈ ops, op.written ≠ some w := by
  have hrun := (Manager.Running.initial hle).run hlo hhi hreqs
  generalize Run.exec serveState (Manager.initial lo hi) reqs = m at hu hrun ⊢
  obtain ⟨unit, p, q, hrendered⟩ := hrun.records hu
  obtain ⟨hout, hinf⟩ := hrun.ports_of_rendered hrendered
  have hw : w ≠ [] := by
    rw [hrendered.key_eq]
    simp [sample_get_work_id]
  constructor
  · intro hsurvives
    -- a release that finds nothing returns -1
    have hlive : ∀ op ∈ ops, op.written ≠ some w := by
      intro op hop hwritten
      have hnone : (m.sql ops).key_sql.unitAt w = none := by
        rw [unitAt_sql m ops hw, if_pos ⟨op, hop, hwritten⟩]
      have hzero := hsurvives.released 0
      simp [sys_release_unit, hnone] at hzero
    refine ⟨?_, hlive⟩
    intro p' hp'
    obtain ⟨i, hi, rfl⟩ := hsurvives.freed 0 p' hp'
    -- the release changes no size, so the free entry is one of the range
    obtain ⟨key_sql, hsql⟩ := sql_frame m ops
    obtain ⟨-, -, hstart, hlength⟩ := serve_frame (m.sql ops) (.release_unit w 0)
    have hlt := (List.getElem?_eq_some_iff.mp hi).1
    have hstart' : (sys_release_unit 0 (m.sql ops) w).2.port_list_start = lo := by
      rw [← hrun.start]
      exact hstart.trans (by rw [hsql])
    have hlength' : (sys_release_unit 0 (m.sql ops) w).2.port_list.length
        = m.port_list.length := hlength.trans (by rw [hsql])
    have hsize := hrun.size
    omega
  · rintro ⟨hrange, hlive⟩
    -- at every point of the sequence the record is the one the sequence started with
    have hkept : ∀ before after, ops = before ++ after →
        (m.sql before).key_sql.unitAt w = some u := by
      rintro before after rfl
      rw [unitAt_sql m before hw, if_neg, hu]
      rintro ⟨op, hop, hwritten⟩
      exact hlive op (by simp [hop]) hwritten
    have hend := hkept ops [] (List.append_nil ops).symm
    have hsql_run : (m.sql ops).Running lo hi := by
      apply hrun.run hlo hhi
      intro r hr
      obtain ⟨op, -, rfl⟩ := List.mem_map.mp hr
      cases op <;> trivial
    have hreleased := hsql_run.release_frees hend hrendered (hrange p (.inl hout))
      (hrange q (.inr hinf))
    refine ⟨fun before after h => reaches_of_unitAt env (hkept before after h),
      fun uninit => (hreleased uninit).1, ?_⟩
    intro uninit p' hp'
    rw [hout, hinf] at hp'
    rcases hp' with hp' | hp'
    · obtain rfl := Option.some.inj hp'
      exact (hreleased uninit).2.1
    · obtain rfl := Option.some.inj hp'
      exact (hreleased uninit).2.2

/-- The state of a manager with one llm unit, and that unit's record. -/
def oneUnit : Manager := Run.exec serveState (Manager.initial 5010 5555) (registerMany 1)

def firstRecord : UnitData where
  port_ := 0
  work_id := str "llm.0"
  output_url := str "ipc:///tmp/llm/5010.sock.llm.output_url"
  inference_url := str "ipc:///tmp/llm/5011.sock.llm.inference_url"

/-- Requests about other keys, the unit's `.out_port` entry among them. -/
theorem unit_survives_sql_iff_other_keys :
    UnitSurvives (inferEnv .info) oneUnit (str "llm.0") firstRecord
      [.set (str "\x7b\"key\":\"name\",\"val\":\"llm.0\"\x7d"), .select (str "llm.0"),
        .unset (str "llm.0.out_port")] := by
  refine (unit_survives_sql_iff (inferEnv .info) 5010 5555 (by decide) (by decide) (by decide)
    (registerMany 1) (registerMany_typed 1) _ _ (by decide +kernel) _).mpr
    ⟨?_, by decide +kernel⟩
  have hports : oneUnit.output_port firstRecord = some 5010 ∧
      oneUnit.inference_port firstRecord = some 5011 := by decide +kernel
  intro p hp
  change oneUnit.output_port firstRecord = some p ∨
    oneUnit.inference_port firstRecord = some p at hp
  rw [hports.1, hports.2, Option.some.injEq, Option.some.injEq] at hp
  omega

/-- One `sql_unset` of the work id, and neither release nor inference finds the unit. -/
theorem sql_unset_loses_unit :
    oneUnit.key_sql.unitAt (str "llm.0") = some firstRecord ∧
      ¬ UnitSurvives (inferEnv .info) oneUnit (str "llm.0") firstRecord
        [.unset (str "llm.0")] := by
  refine ⟨by decide +kernel, ?_⟩
  intro hsurvives
  have hzero := hsurvives.released 0
  exact absurd hzero (by decide +kernel)

end DoubleTurnouts
