/-
  DoubleTurnouts.UnitManager.RemoteServer

  The unit manager's registry: the untyped key store `key_sql` behind the
  `SAFE_*` macros, the port bitmap, unit allocation and release, and the RPC
  actions the manager serves as `sys`.

  `std::any` is a sum of the three types that are ever stored.  A failed
  `any_cast` or a missing key throws inside the macro and is swallowed there,
  so a typed read is an `Option`.  A unit is stored by value: `new` and
  `delete` happen inside one RPC each, under the REP thread.
-/
import Mathlib.Tactic
import DoubleTurnouts.Lib.Bytes
import DoubleTurnouts.Lib.Decimal
import DoubleTurnouts.HybridComm.PzmqData
import DoubleTurnouts.InfraController.StackFlowUtil

namespace DoubleTurnouts

open Text Decimal

/-- `unit_data`, without its PUB socket: that socket is bound to `inference_url`. -/
structure UnitData where
  port_ : Int
  work_id : Bytes
  output_url : Bytes
  inference_url : Bytes
  deriving DecidableEq, Repr

/-- The types `key_sql` holds: configuration numbers, strings and unit pointers. -/
inductive Any
  | int (n : Int)
  | string (s : Bytes)
  | unit (u : UnitData)
  deriving DecidableEq, Repr

def Any.int? : Any → Option Int
  | .int n => some n
  | _ => none

def Any.string? : Any → Option Bytes
  | .string s => some s
  | _ => none

def Any.unit? : Any → Option UnitData
  | .unit u => some u
  | _ => none

abbrev KeySql := Map Bytes Any

/-- The manager's globals.  The two formats are those of `sprintf` here: `%i` is the only
    conversion. -/
structure Manager where
  key_sql : KeySql
  work_id_number_counter : Int
  port_list_start : Int
  port_list : List Bool
  zmq_s_format : Bytes
  zmq_c_format : Bytes
  deriving DecidableEq

/-- Values read from `int port` variables that were never assigned. -/
structure Indet where
  output_port : Int
  inference_port : Int
  deriving DecidableEq, Repr

/-! ## The key store -/

/-- `SAFE_READING` of a unit pointer. -/
def KeySql.unitAt (key_sql : KeySql) (key : Bytes) : Option UnitData :=
  (key_sql.lookup key).bind Any.unit?

def sys_sql_select (m : Manager) (key : Bytes) : Bytes :=
  ((m.key_sql.lookup key).bind Any.string?).getD []

def sys_sql_set (m : Manager) (key val : Bytes) : Manager :=
  { m with key_sql := m.key_sql.insert key (.string val) }

def sys_sql_unset (m : Manager) (key : Bytes) : Manager :=
  { m with key_sql := m.key_sql.erase key }

/-! ## Units -/

/-- The first-fit loop: the first free entry is marked and its port returned.  When there
    is none, `port` keeps whatever value it had. -/
def claim_port (port_list_start : Int) (port_list : List Bool) (uninit : Int) :
    Int × List Bool :=
  match port_list.findIdx? (fun taken => !taken) with
  | some i => (port_list_start + i, port_list.set i true)
  -- the loop ran to its end: nothing is assigned and nothing is marked
  | none => (uninit, port_list)

/-- The URL a unit endpoint is rendered to.  The suffix is added for `ipc` formats only. -/
def unit_url (zmq_s_format unit suffix : Bytes) (port : Int) : Bytes :=
  let zmq_format :=
    if (find (str "sock") zmq_s_format).isSome then zmq_s_format ++ (str "." ++ (unit ++ suffix))
    else zmq_s_format
  sprintf zmq_format port

/-- `unit_p->work_id + ".out_port"`. -/
def out_port_key (work_id : Bytes) : Bytes := work_id ++ str ".out_port"

def sys_allocate_unit (indet : Indet) (m : Manager) (unit : Bytes) : UnitData × Manager :=
  let port_ := m.work_id_number_counter
  let work_id := unit ++ ch '.' :: to_string port_
  let (out_port, list1) := claim_port m.port_list_start m.port_list indet.output_port
  let output_url := unit_url m.zmq_s_format unit (str ".output_url") out_port
  -- the second loop sees the mark the first one made
  let (inf_port, list2) := claim_port m.port_list_start list1 indet.inference_port
  let inference_url := unit_url m.zmq_s_format unit (str ".inference_url") inf_port
  let unit_p : UnitData := ⟨port_, work_id, output_url, inference_url⟩
  (unit_p,
   { m with
     -- the counter is an int, and nothing ever takes a number back
     work_id_number_counter := wrap32 (port_ + 1)
     port_list := list2
     key_sql := (m.key_sql.insert work_id (.unit unit_p)).insert (out_port_key work_id)
       (.string output_url) })

/-- `port_list[idx] = false`.  An index outside the vector is undefined behaviour; the
    model leaves the list alone there. -/
def free_port (port_list : List Bool) (idx : Int) : List Bool :=
  if 0 ≤ idx then port_list.set idx.toNat false else port_list

/-- The two values `port - port_list_start` takes in `sys_release_unit`.  A failed `sscanf`
    leaves `port` as it was. -/
def release_indices (m : Manager) (u : UnitData) (uninit : Int) : Int × Int :=
  let port := (sscanf u.output_url m.zmq_s_format).getD uninit
  -- the same variable is used for both URLs
  let port' := (sscanf u.inference_url m.zmq_s_format).getD port
  (port - m.port_list_start, port' - m.port_list_start)

def sys_release_unit (uninit : Int) (m : Manager) (unit : Bytes) : Int × Manager :=
  match m.key_sql.unitAt unit with
  -- also when the key holds a number or a string
  | none => (-1, m)
  | some unit_p =>
      let (i, j) := release_indices m unit_p uninit
      (0, { m with
            port_list := free_port (free_port m.port_list i) j
            key_sql := (m.key_sql.erase unit).erase (out_port_key unit) })

/-! ## RPC actions -/

def rpc_allocate_unit (indet : Indet) (m : Manager) (raw : Bytes) : Bytes × Manager :=
  let (unit_info, m) := sys_allocate_unit indet m raw
  (set_param (to_string unit_info.port_)
    (set_param unit_info.output_url unit_info.inference_url), m)

def rpc_release_unit (uninit : Int) (m : Manager) (raw : Bytes) : Bytes × Manager :=
  -- whatever the release returned
  (str "Success", (sys_release_unit uninit m raw).2)

def rpc_sql_select (m : Manager) (raw : Bytes) : Bytes × Manager := (sys_sql_select m raw, m)

def rpc_sql_set (m : Manager) (raw : Bytes) : Bytes × Manager :=
  let key := sample_json_str_get raw (str "key")
  let val := sample_json_str_get raw (str "val")
  if key = [] then (str "False", m) else (str "Success", sys_sql_set m key val)

def rpc_sql_unset (m : Manager) (raw : Bytes) : Bytes × Manager :=
  (str "Success", sys_sql_unset m raw)

/-- A request to the `sys` RPC server: the action with its data frame, and the values its
    uninitialised variables happen to hold. -/
inductive SysRequest
  | register_unit (unit : Bytes) (indet : Indet)
  | release_unit (unit : Bytes) (uninit : Int)
  | sql_select (key : Bytes)
  | sql_set (raw : Bytes)
  | sql_unset (key : Bytes)
  deriving DecidableEq, Repr

def serve (m : Manager) : SysRequest → Bytes × Manager
  | .register_unit unit indet => rpc_allocate_unit indet m unit
  | .release_unit unit uninit => rpc_release_unit uninit m unit
  | .sql_select key => rpc_sql_select m key
  | .sql_set raw => rpc_sql_set m raw
  | .sql_unset key => rpc_sql_unset m key

/-- The state after a request has been served. -/
def serveState (m : Manager) (r : SysRequest) : Manager := (serve m r).2

/-! ## Start-up -/

/-- `master_config.json`, with the two port limits left open. -/
def load_default_config (min_port max_port : Int) : KeySql :=
  [⟨str "config_tcp_server", .int 10001⟩,
   ⟨str "config_zmq_min_port", .int min_port⟩,
   ⟨str "config_zmq_max_port", .int max_port⟩,
   ⟨str "config_zmq_s_format", .string (str "ipc:///tmp/llm/%i.sock")⟩,
   ⟨str "config_zmq_c_format", .string (str "ipc:///tmp/llm/%i.sock")⟩].toAList

/-- `SAFE_READING` of an `int`: the variable keeps its value when the key is missing. -/
def KeySql.readInt (key_sql : KeySql) (key : Bytes) (old : Int) : Int :=
  ((key_sql.lookup key).bind Any.int?).getD old

def KeySql.readString (key_sql : KeySql) (key : Bytes) : Bytes :=
  ((key_sql.lookup key).bind Any.string?).getD []

/-- The globals after `all_work` and `remote_server_work` have read the configuration.
    The counter and `port_list_start` are zero before, `port_list_end` is not. -/
def remote_server_work (key_sql : KeySql) (port_list_end : Int) : Manager :=
  let start := key_sql.readInt (str "config_zmq_min_port") 0
  let stop := key_sql.readInt (str "config_zmq_max_port") port_list_end
  { key_sql := key_sql
    work_id_number_counter := key_sql.readInt (str "config_work_id") 0
    port_list_start := start
    port_list := List.replicate (stop - start).toNat false
    zmq_s_format := key_sql.readString (str "config_zmq_s_format")
    zmq_c_format := key_sql.readString (str "config_zmq_c_format") }

/-- The manager as it starts with the shipped formats and the given port limits. -/
def Manager.initial (min_port max_port : Int) : Manager :=
  remote_server_work (load_default_config min_port max_port) 0

end DoubleTurnouts
