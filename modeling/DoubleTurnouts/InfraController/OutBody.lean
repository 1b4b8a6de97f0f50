/-
  DoubleTurnouts.InfraController.OutBody

  The reply a unit sends: nlohmann's JSON values as far as the units use
  them, the body `send` builds, and the two places where building one can
  throw.  `send` takes its error as a `std::string`, so a JSON value passed
  there is converted and only a string survives; `dump` rejects text that is
  not UTF-8.

  Several results are about what the units would do if every `send` simply
  emitted its message.  `SendMode` selects between that reading and the
  conversions as they are.
-/
import Mathlib.Tactic
import DoubleTurnouts.Lib.Bytes
import DoubleTurnouts.Lib.Decimal
import DoubleTurnouts.Lib.Utf8

namespace DoubleTurnouts

open Decimal

/-- A `nlohmann::json` value.  A floating point number is kept as its literal. -/
inductive Json
  | null
  | bool (b : Bool)
  | int (n : Int)
  | float (literal : Bytes)
  | string (s : Bytes)
  | array (items : List Json)
  | object (members : List (Bytes × Json))

namespace Json

def string? : Json → Option Bytes
  | .string s => some s
  | _ => none

def bool? : Json → Option Bool
  | .bool b => some b
  | _ => none

/-- `at(key)`; a value that is no object and a missing key both throw. -/
def at? : Json → Bytes → Option Json
  | .object members, key => (members.find? (·.1 = key)).map Prod.snd
  | _, _ => none

mutual

/-- Every string in a value, member names included. -/
def strings : Json → List Bytes
  | .string s => [s]
  | .array items => itemStrings items
  | .object members => memberStrings members
  | _ => []

def itemStrings : List Json → List Bytes
  | [] => []
  | j :: js => strings j ++ itemStrings js

def memberStrings : List (Bytes × Json) → List Bytes
  | [] => []
  | (key, j) :: js => key :: (strings j ++ memberStrings js)

end

end Json

/-- `out_body`, less its time stamp. -/
structure OutBody where
  request_id : Bytes
  work_id : Bytes
  object : Bytes
  data : Json
  error : Json

/-- How `send` is read: as emitting its message whatever the error argument is, or with
    nlohmann's conversions. -/
inductive SendMode
  | emit
  | convert
  deriving DecidableEq, Repr

/-- nlohmann as the units use it: `parse`, whose strings are UTF-8, and the reading of
    `send`. -/
structure NodeEnv where
  json_parse : Bytes → Option Json
  json_parse_valid : ∀ {text j}, json_parse text = some j → ∀ s ∈ j.strings, Utf8.Valid s
  mode : SendMode

/-- The implicit conversion of a JSON argument to `const std::string &`. -/
def NodeEnv.error_msg (env : NodeEnv) (error : Json) : Except Exn Json :=
  match env.mode, error with
  | .emit, error => .ok error
  | .convert, .string s => .ok (.string s)
  -- objects are not converted to a string, and neither is null
  | .convert, _ => .error .type_error

/-- Every string of a body. -/
def OutBody.strings (out_body : OutBody) : List Bytes :=
  [out_body.request_id, out_body.work_id, out_body.object]
    ++ (out_body.data.strings ++ out_body.error.strings)

/-- `dump`: an exception or nothing, the text itself being the body. -/
def NodeEnv.dump (env : NodeEnv) (out_body : OutBody) : Except Exn Unit :=
  match env.mode with
  | .emit => .ok ()
  | .convert => if ∀ s ∈ out_body.strings, Utf8.Valid s then .ok () else .error .type_error

/-- `{"code": code, "message": message}`. -/
def error_body (code : Int) (message : Bytes) : Json :=
  .object [(str "code", .int code), (str "message", .string message)]

/-- `LLM_NO_ERROR`, and the string `"None"`. -/
def LLM_NO_ERROR : Json := .string []

def LLM_NONE : Json := .string (str "None")

/-- The `error` member: the given text, or code 0 for an empty one. -/
def error_member : Json → Json
  -- no error is the empty string
  | .string [] => error_body 0 []
  | error => error

theorem NodeEnv.dump_emit {env : NodeEnv} (h : env.mode = .emit) (out_body : OutBody) :
    env.dump out_body = .ok () := by
  simp [dump, h]

theorem NodeEnv.dump_convert {env : NodeEnv} (h : env.mode = .convert) (out_body : OutBody) :
    env.dump out_body =
      if ∀ s ∈ out_body.strings, Utf8.Valid s then .ok () else .error .type_error := by
  simp [dump, h]

/-- The strings of a body, part by part. -/
theorem OutBody.strings_valid_iff (out_body : OutBody) :
    (∀ s ∈ out_body.strings, Utf8.Valid s) ↔
      Utf8.Valid out_body.request_id ∧ Utf8.Valid out_body.work_id ∧
        Utf8.Valid out_body.object ∧ (∀ s ∈ out_body.data.strings, Utf8.Valid s) ∧
        ∀ s ∈ out_body.error.strings, Utf8.Valid s := by
  simp [strings, or_imp, forall_and]

theorem NodeEnv.error_msg_emit {env : NodeEnv} (h : env.mode = .emit) (error : Json) :
    env.error_msg error = .ok error := by
  simp [error_msg, h]

/-- A string argument is passed as it is in either reading. -/
@[simp] theorem NodeEnv.error_msg_string (env : NodeEnv) (s : Bytes) :
    env.error_msg (.string s) = .ok (.string s) := by
  cases h : env.mode <;> simp [error_msg, h]

end DoubleTurnouts
