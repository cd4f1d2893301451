import DocFlow.Lib.JsonTree

/-!
# The adapter for strict tool schemas

`resolve_local_schema_refs` puts the definitions of a schema in the place of the references to them, and
`normalize_strict_tool_schema` turns the result into the subset of JSON Schema that a strict tool may
have: keywords for display are dropped, and an object lists all of its properties as required and allows
no others.

Both walk a schema as any value.  They do not know whether an object is a schema, a map from names to
schemas, or the value of a keyword such as `const`.
-/

namespace DocFlow.Context.StrictSchema

/-- An object, as its members. -/
abbrev Members := List (Str × Json)

def key (name : String) : Str := Text.str name.toList

inductive SchemaError
  /-- `ContextAgentOutputError`, with the name at the end of the message -/
  | agentOutput (message : String) (name : Codes)
  | attributeError
  | recursionError
deriving DecidableEq

/-! ## `resolve_local_schema_refs` -/

def refStart : Codes := Text.codes "#/$defs/".toList

/-- The name of the definition that an object refers to. -/
def localRef? (members : Members) : Option Codes :=
  match members.lookup (key "$ref") with
  | some (.str reference) =>
    if refStart.isPrefixOf reference.codes = true then some (reference.codes.drop refStart.length)
    else none
  | _ => none

/-- `definitions.get(definition_name)`. -/
def definition? (definitions : Members) (name : Codes) : Option Json :=
  (definitions.find? fun d => d.1.codes = name).map Prod.snd

/-- The definition, updated with the members beside the reference. -/
def merged (definition members : Members) : Members :=
  Dict.update definition (members.filter fun m => m.1 ≠ key "$ref")

/-- The number bounds the depth of the recursion. -/
def resolveLocalSchemaRefs (definitions : Members) : Nat → Json → Except SchemaError Json
  | 0, _ => .error .recursionError
  | n + 1, .arr items => do
    let resolved ← items.mapM (resolveLocalSchemaRefs definitions n)
    return .arr resolved
  | n + 1, .obj members =>
    match localRef? members with
    | some name =>
      match definition? definitions name with
      | none | some .null => .error (.agentOutput "Context Selection Schema 引用了未知定义: " name)
      | some (.obj definition) =>
        resolveLocalSchemaRefs definitions n (.obj (merged definition members))
      | some _ => .error .attributeError
    | none => do
      let resolved ← (members.filter fun m => m.1 ≠ key "$defs").mapM fun m => do
        let item ← resolveLocalSchemaRefs definitions n m.2
        return (m.1, item)
      return .obj resolved
  | _ + 1, v => .ok v

/-! ## `normalize_strict_tool_schema` -/

def displayOnly : List Str :=
  ["title", "default", "minLength", "maxLength", "minItems", "maxItems"].map key

/-- `value.get("type") == "object"`. -/
def isObjectType (members : Members) : Bool :=
  match members.lookup (key "type") with
  | some (.str t) => t = key "object"
  | _ => false

/-- What is done to the members that are left. -/
def strictMembers (normalized : Members) : Members :=
  if isObjectType normalized = true then
    let required := match (normalized.lookup (key "properties")).getD (.obj []) with
      | .obj properties =>
        Dict.set normalized (key "required") (.arr (properties.map fun p => .str p.1))
      | _ => normalized
    Dict.set required (key "additionalProperties") (.bool false)
  else normalized

def normalizeStrictToolSchema : Json → Json
  | .arr items => .arr (normalizeItems items)
  | .obj members => .obj (strictMembers (normalizeMembers members))
  | v => v
where
  normalizeItems : List Json → List Json
    | [] => []
    | v :: items => normalizeStrictToolSchema v :: normalizeItems items
  normalizeMembers : Members → Members
    | [] => []
    | (k, v) :: members =>
      if k ∈ displayOnly then normalizeMembers members
      else (k, normalizeStrictToolSchema v) :: normalizeMembers members

end DocFlow.Context.StrictSchema
