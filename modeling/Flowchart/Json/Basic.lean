import Flowchart.Value
/-! Data as it is stored: null, truth values, numbers, texts, lists and objects. The members of an
object keep their order. -/
namespace Flowchart

/-- A stored datum. Whole numbers and doubles are kept apart. -/
inductive Json where
  | null
  | bool (b : Bool)
  | int (n : Int)
  | real (x : Float)
  | text (s : String)
  | list (items : List Json)
  | object (members : List (String × Json))
  deriving Inhabited

namespace Json

/-- The members of an object, none for other data. -/
def members? : Json → Option (List (String × Json))
  | object members => some members
  | _ => none

/-- The items of a list, none for other data. -/
def items? : Json → Option (List Json)
  | list items => some items
  | _ => none

/-- The text of a text datum. -/
def text? : Json → Option String
  | text s => some s
  | _ => none

/-- The member of an object with the given key. -/
def get? (j : Json) (key : String) : Option Json :=
  match j with
  | object members => (members.find? (·.1 == key)).map Prod.snd
  | _ => none

/-- Whether a datum counts as present: null, false, zero and everything empty do not. -/
def isPresent : Json → Bool
  | null => false
  | bool b => b
  | int n => n != 0
  | real x => x != 0.0
  | text s => s != ""
  | list items => !items.isEmpty
  | object members => !members.isEmpty

/-- The member with the given key, if it counts as present. -/
def present? (j : Json) (key : String) : Option Json :=
  (j.get? key).filter isPresent

mutual
/-- A datum in a message. -/
def inspect : Json → String
  | null => "None"
  | bool b => if b then "True" else "False"
  | int n => toString n
  | real x => Shortest.text x
  | text s => Text.inspect s
  | list items => "[" ++ ", ".intercalate (inspectItems items) ++ "]"
  | object members => "\x7b" ++ ", ".intercalate (inspectMembers members) ++ "\x7d"
/-- The items of a list in a message. -/
def inspectItems : List Json → List String
  | [] => []
  | j :: rest => j.inspect :: inspectItems rest
/-- The members of an object in a message. -/
def inspectMembers : List (String × Json) → List String
  | [] => []
  | (key, j) :: rest => (Text.inspect key ++ ": " ++ j.inspect) :: inspectMembers rest
end

/-- A datum that stands for a name: a text itself, everything else as in a message. -/
def display : Json → String
  | text s => s
  | j => j.inspect

mutual
/-- A datum as stored text, without spaces. -/
def render : Json → String
  | null => "null"
  | bool b => if b then "true" else "false"
  | int n => toString n
  | real x => (Value.float x).quoted
  | text s => Text.quoted s
  | list items => "[" ++ ",".intercalate (renderItems items) ++ "]"
  | object members => "\x7b" ++ ",".intercalate (renderMembers members) ++ "\x7d"
/-- The stored items of a list. -/
def renderItems : List Json → List String
  | [] => []
  | j :: rest => j.render :: renderItems rest
/-- The stored members of an object. -/
def renderMembers : List (String × Json) → List String
  | [] => []
  | (key, j) :: rest => (Text.quoted key ++ ":" ++ j.render) :: renderMembers rest
end

/-- What an object holds is smaller than the object. -/
theorem sizeOf_get? {j v : Json} {key : String} (found : j.get? key = some v) :
    sizeOf v < sizeOf j := by
  unfold get? at found
  split at found
  · rename_i members
    obtain ⟨member, searched, rfl⟩ := Option.map_eq_some_iff.1 found
    have inside := List.sizeOf_lt_of_mem (List.mem_of_find?_eq_some searched)
    cases member
    simp only [object.sizeOf_spec, Prod.mk.sizeOf_spec] at inside ⊢
    omega
  · cases found

theorem sizeOf_present? {j v : Json} {key : String} (found : j.present? key = some v) :
    sizeOf v < sizeOf j := by
  unfold present? at found
  exact sizeOf_get? (Option.filter_eq_some_iff.1 found).1

theorem sizeOf_items? {j : Json} {items : List Json} (found : j.items? = some items) :
    sizeOf items < sizeOf j := by
  unfold items? at found
  split at found
  · cases found
    simp
  · cases found

end Json

end Flowchart
