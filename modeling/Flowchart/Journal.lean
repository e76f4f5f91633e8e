import Flowchart.Text.Quoted
/-! Notes on what was done and on what looks wrong in a diagram. A note is kept as its cause; a
journal line gives its level, the part of the program that wrote it, and the text. -/
namespace Flowchart

/-- How important a note is. -/
inductive Level where
  | debug
  | warning
  | error
  deriving DecidableEq

def Level.name : Level → String
  | debug => "DEBUG"
  | warning => "WARNING"
  | error => "ERROR"

/-- A note. -/
inductive Note where
  | reading (file : String)
  | elements (text : String) (count : Nat)
  | parsed (labels : List String) (form : String)
  | arrayDefaulted (name : String)
  | repeatedBlock (id : String)
  | danglingArrow (source target : String)
  | severalStarts (count : Nat) (id : String)
  | dominatorsStable (rounds : Nat)
  | loopFound (header : String) (body : List String)
  | structuring (start : String) (blocks loops : Nat)
  | soleEntry (header entry : String)
  | notStructured (message : String)
  | finished (steps : Nat)
  deriving DecidableEq

namespace Note

def level : Note → Level
  | repeatedBlock _ => .warning
  | danglingArrow .. => .warning
  | severalStarts .. => .warning
  | soleEntry .. => .warning
  | notStructured _ => .error
  | _ => .debug

/-- The part of the program that a note is from. -/
def source : Note → String
  | reading _ => "flowc"
  | elements .. => "lexer"
  | parsed .. => "parser"
  | arrayDefaulted _ => "expression"
  | repeatedBlock _ => "flowgraph"
  | danglingArrow .. => "flowgraph"
  | severalStarts .. => "flowgraph"
  | dominatorsStable _ => "analysis"
  | loopFound .. => "analysis"
  | structuring .. => "codegen"
  | soleEntry .. => "codegen"
  | notStructured _ => "codegen"
  | finished _ => "runner"

/-- Texts in a list, each of them quoted. -/
def listed (texts : List String) : String :=
  "[" ++ ", ".intercalate (texts.map Text.inspect) ++ "]"

def text : Note → String
  | reading file => "leyendo diagrama " ++ file
  | elements text count => Text.inspect text ++ " -> " ++ toString count ++ " elementos"
  | parsed labels form => "expresión " ++ listed labels ++ " -> " ++ form
  | arrayDefaulted name => "arreglo " ++ name ++ " sin valor, se inicializa por defecto"
  | repeatedBlock id => "nodo " ++ id ++ " repetido, se conserva el primero"
  | danglingArrow source target => "arista colgante " ++ source ++ " -> " ++ target ++ " descartada"
  | severalStarts count id => "hay " ++ toString count ++ " nodos Start, se usa " ++ id
  | dominatorsStable rounds => "dominadores estables tras " ++ toString rounds ++ " vueltas"
  | loopFound header body => "bucle con cabecera " ++ header ++ ": " ++ listed body
  | structuring start blocks loops =>
    "entrada " ++ start ++ ", " ++ toString blocks ++ " nodos, " ++ toString loops ++ " bucles"
  | soleEntry header entry =>
    "cabecera " ++ header ++ ": su único predecesor " ++ entry ++ " también cierra el bucle"
  | notStructured message => "no se pudo generar el AST: " ++ message
  | finished steps => "ejecución terminada tras " ++ toString steps ++ " pasos"

/-- The line of a note in the journal. -/
def line (n : Note) : String :=
  n.level.name ++ " " ++ n.source ++ ": " ++ n.text

end Note

end Flowchart
