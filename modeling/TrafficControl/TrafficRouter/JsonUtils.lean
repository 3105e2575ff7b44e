import Mathlib.Data.List.Basic

set_option autoImplicit false

namespace TrafficControl.TrafficRouter

-- A parsed document. A number is kept as the text Jackson prints for it.
inductive JsonNode where
  | null
  | bool (value : Bool)
  | number (printed : String)
  | text (value : String)
  | array (items : List JsonNode)
  | object (fields : List (String × JsonNode))

namespace JsonNode

def get (node : JsonNode) (key : String) : Option JsonNode :=
  match node with
  | object fields => (fields.find? fun field => field.1 = key).map (·.2)
  | _ => none

-- What `for (JsonNode child : node)` visits.
def elements : JsonNode → List JsonNode
  | array items => items
  | object fields => fields.map (·.2)
  | _ => []

def fields : JsonNode → List (String × JsonNode)
  | object fields => fields
  | _ => []

def asText : JsonNode → String
  | null => "null"
  | bool value => if value then "true" else "false"
  | number printed => printed
  | text value => value
  | array _ => ""
  | object _ => ""

def asTextOr (node : JsonNode) (d : String) : String :=
  match node with
  | null => d
  | node => node.asText

-- `String.trim`.
def trim (text : List Char) : List Char :=
  let blank (c : Char) : Bool := c.toNat <= 0x20
  ((text.dropWhile blank).reverse.dropWhile blank).reverse

-- Only an integer converts among the numbers.
def asBooleanOr (node : JsonNode) (d : Bool) : Bool :=
  match node with
  | bool value => value
  | number printed => if printed.all fun c => c.isDigit || c == '-' then printed != "0" else d
  | text value => if trim value.toList == "true".toList then true else d
  | _ => d

end JsonNode

-- A parsed object has each field name once.
structure JsonObject where
  fields : List (String × JsonNode)
  unique : (fields.map Prod.fst).Nodup

namespace JsonObject

def node (object : JsonObject) : JsonNode := .object object.fields

def fieldNames (object : JsonObject) : List String := object.fields.map Prod.fst

theorem get_of_mem (object : JsonObject) {field : String × JsonNode} (member : field ∈ object.fields) :
    object.node.get field.1 = some field.2 := by
  obtain ⟨fields, unique⟩ := object
  change (fields.find? _).map _ = _
  induction fields with
  | nil => simp at member
  | cons first rest ih =>
    rw [List.map_cons, List.nodup_cons] at unique
    rcases List.mem_cons.mp member with rfl | inRest
    · simp
    · have different : first.1 ≠ field.1 := by
        intro same
        exact unique.1 (same ▸ List.mem_map_of_mem inRest)
      rw [List.find?_cons_of_neg (by simpa using different)]
      exact ih unique.2 inRest

end JsonObject

-- The exceptions a configuration document can raise, with the texts of their messages.
inductive ConfigException where
  | jsonUtilsException (message : String)
  | illegalArgumentException (message : String)
  | patternSyntaxException (regex : String)
  | illegalStateException (message : String)
deriving DecidableEq

namespace JsonUtils

def throwException (key : String) : ConfigException :=
  .jsonUtilsException ("Failed querying JSON for key: " ++ key)

def getJsonNode (jsonNode : JsonNode) (key : String) : Except ConfigException JsonNode :=
  match jsonNode.get key with
  | none => .error (throwException key)
  | some node => .ok node

def getString (jsonNode : JsonNode) (key : String) : Except ConfigException String :=
  (getJsonNode jsonNode key).map JsonNode.asText

def optString (jsonNode : JsonNode) (key : String) (d : String) : String :=
  match jsonNode.get key with
  | none => d
  | some node => node.asTextOr d

def optBoolean (jsonNode : Option JsonNode) (key : String) (d : Bool) : Bool :=
  match jsonNode.bind (·.get key) with
  | none => d
  | some node => node.asBooleanOr d

end JsonUtils

end TrafficControl.TrafficRouter
