import Evalorch.Evaluators.Base
import Evalorch.Services.Scoping

/-!
# Required fields

`RequiredFields.evaluate` verifies that values are there and not empty. A field is a key of the
input, followed by a path into its value when the field has a dot. Without a list of fields the
keys of the input are the fields.
-/

namespace Evalorch

open Evaluator

namespace RequiredFields

/-- The tokens of a path that are not empty. -/
def pathTokens (path : String) : List String :=
  (Python.split '.' path).filter (· != "")

/-- `_dig`, of the tokens of a path. -/
def dig (b : Builtins) : List String → Json → Except Exn (Option Json)
  | [], current => .ok (some current)
  | token :: tokens, .dict fields =>
    match fields.lookup token with
    | some next => dig b tokens next
    | none => .ok none
  | token :: tokens, .list items =>
    if Python.isDigit token then do
      let index ← b.intOfText token
      match items[index.toNat]? with
      | some next => dig b tokens next
      | none => .ok none
    else .ok none
  | _ :: _, _ => .ok none

/-- `_is_empty`. -/
def isEmpty : Json → Bool
  | .null => true
  | .str text => Python.strip text = ""
  | .list items => items.isEmpty
  | .dict fields => fields.isEmpty
  | _ => false

/-- The value that a field names, unless there is none; `none` stands for a key that is not
there. -/
def fieldValue (b : Builtins) (input : Dict) (field : String) :
    Option (Except Exn (Option Json)) :=
  let (root, sub) := Python.partition '.' field
  (input.lookup root).map fun value =>
    if sub = "" then .ok (some value) else dig b (pathTokens sub) value

/-- The body of the loop over the fields: the reason why a field is missing, if it is. -/
def missingReason (b : Builtins) (input : Dict) (allowEmpty : Bool) (field : String) :
    Except Exn (Option String) :=
  match fieldValue b input field with
  | none => .ok (some "unmapped_or_unresolved")
  | some found => found.map fun
    | none => some "path_absent"
    | some value => if !allowEmpty && isEmpty value then some "empty" else none

/-- `params.get("fields") or list(evaluator_input.keys())`. -/
def fieldsOf (input params : Dict) : Except Exn (List Json) :=
  if (params.get "fields").truthy then iterated (params.get "fields")
  else .ok (input.map fun entry => .str entry.1)

/-- A missing field with its reason. -/
def missingField (field : Json) (reason : String) : Json :=
  .dict [("field", field), ("reason", .str reason)]

/-- `RequiredFieldsEvaluator.evaluate`. -/
def evaluate (b : Builtins) (input config : Dict) (_ : ExecutionContext) :
    Except Exn EvaluatorOutput := do
  let params ← paramsOf config
  let allowEmpty := ((params.lookup "allow_empty").getD (.bool false)).truthy
  let fields ← fieldsOf input params
  let checked ← fields.mapM fun field =>
    (missingReason b input allowEmpty (b.str field)).map fun reason => (field, reason)
  let present := (checked.filter (·.2.isNone)).map fun c => Json.str (b.str c.1)
  let missing := checked.filterMap fun c => c.2.map (missingField c.1)
  .ok (outcome "required_fields" "1.0.0" missing.isEmpty
    (some (share present.length (max fields.length 1)))
    (if missing.isEmpty then s!"all {present.length} required field(s) present"
      else s!"{missing.length} required field(s) missing or empty")
    [("checked_fields", .list (fields.map fun field => .str (b.str field))),
      ("present", .list present), ("missing", .list missing),
      ("allow_empty", .bool allowEmpty)] none)

end RequiredFields

end Evalorch
