/-! The names of data types. Five names are known to the language; any other name may stand in a
declaration, and values of such a type can be held but not computed with. -/
namespace Flowchart

/-- The type names that the language gives a meaning to. -/
def knownTypeNames : List String :=
  ["integer", "string", "float", "boolean", "array"]

/-- A data type: one of the known ones, or a name without a meaning. -/
inductive DataType where
  | integer
  | float
  | string
  | boolean
  | array
  | other (name : String) (unknown : name ∉ knownTypeNames)
  deriving DecidableEq

namespace DataType

/-- The name a type is declared with. -/
def name : DataType → String
  | integer => "integer"
  | float => "float"
  | string => "string"
  | boolean => "boolean"
  | array => "array"
  | other name _ => name

/-- The type with the given name. -/
def ofName (s : String) : DataType :=
  if integer : s = "integer" then .integer
  else if float : s = "float" then .float
  else if string : s = "string" then .string
  else if boolean : s = "boolean" then .boolean
  else if array : s = "array" then .array
  else .other s (by simp [knownTypeNames, *])

/-- Whether the language gives the type a meaning. -/
def isKnown : DataType → Bool
  | other .. => false
  | _ => true

/-- Whether values of the type are numbers. -/
def isNumeric : DataType → Bool
  | integer => true
  | float => true
  | _ => false

@[simp] theorem name_ofName (s : String) : (ofName s).name = s := by
  unfold ofName
  split
  · simp [name, *]
  split
  · simp [name, *]
  split
  · simp [name, *]
  split
  · simp [name, *]
  split
  · simp [name, *]
  · rfl

@[simp] theorem ofName_name (t : DataType) : ofName t.name = t := by
  cases t with
  | other s unknown =>
    simp only [knownTypeNames, List.mem_cons, List.not_mem_nil, or_false, not_or] at unknown
    simp [name, ofName, unknown]
  | _ => rfl

/-- A type in a message; the type of something undeclared reads `None`. -/
def text : Option DataType → String
  | some t => t.name
  | none => "None"

end DataType

end Flowchart
