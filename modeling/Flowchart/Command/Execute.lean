import Flowchart.Command.Arguments
import Flowchart.Command.Session
import Flowchart.Compile
import Flowchart.Diagram.Stored
import Flowchart.Drawing.OfCode
import Flowchart.Drawing.OfGraph
import Flowchart.Expression.Declaration
import Flowchart.Expression.OfText
import Flowchart.Json.Read
import Flowchart.Outline
import Flowchart.Table
/-! Executing commands. -/
namespace Flowchart
open Job

/-- Reads the diagram in a file; what is wrong with it is reported. -/
def readDiagram (path : String) : Job (Option Diagram) := do
  let files := (← get).files
  if !files.has path then
    fail "Archivo" ("el archivo " ++ path ++ " no existe")
    return none
  note [.reading path]
  match files.text? path with
  | none => throw (.file .isFolder)
  | some text =>
    match Json.read (String.ofList (Files.withLineFeeds text.toList)) with
    | .error e =>
      fail "Archivo" ("JSON inválido: " ++ e.message)
      return none
    | .ok j =>
      match Diagram.ofJson j with
      | .ok d => return some d
      | .error e =>
        failWith e
        return none

/-- Generates the code of a diagram. -/
def compileDiagram (d : Diagram) (out : Option String) : Job Unit := do
  note d.compile.notes
  match out with
  | some path => save path (d.compile.text ++ "\n")
  | none =>
    print (Console.rule "Código generado")
    printLine d.compile.text
  let pending := d.compile.program.unsupportedCount
  if pending = 0 then printLine " ✅ Sin bloques sin traducir."
  else warn (toString pending ++ " bloque(s) no se pudieron traducir")

/-- Shows the code of a diagram as a tree. -/
def outlineDiagram (d : Diagram) : Job Unit := do
  note d.compile.notes
  print (Console.rule "AST (rich.Tree)")
  match Console.tree? d.compile.program.outline with
  | some tree => print tree
  | none => throw .unopenedStyle

/-- The drawing of a diagram's code, or of its flow of control. -/
def drawingOf (d : Diagram) (flow : Bool) : Job Dot.Drawing := do
  if flow then
    let g := d.flowGraph
    let loops := g.loops (.ofGraph g)
    note (FlowGraph.buildNotes d.blocks d.arrows ++ Dominators.notes g ++ FlowGraph.loopNotes loops)
    return g.drawing loops
  else
    note d.compile.notes
    return d.compile.program.drawing

/-- Saves a drawing. Pictures are made by another program, which is never found. -/
def drawDiagram (d : Diagram) (flow : Bool) (base : String) (dotOnly : Bool) : Job Unit := do
  let drawing ← drawingOf d flow
  save (base ++ ".dot") drawing.text
  if !dotOnly then
    write base drawing.text
    fail "Graphviz" ("No se pudo renderizar con Graphviz (¿está 'dot' en el PATH?): failed to execute "
      ++ "PosixPath('dot'), make sure the Graphviz executables are on your systems' PATH")

/-- The table of the variables in a store. -/
def Store.table (s : Store) : Table where
  headers := ["VARIABLE", "TIPO", "VALOR"]
  rows := s.bindings.map fun b => [b.target.name, b.target.declaration, b.value.shown]

/-- Shows a table. -/
def printTable (t : Table) : Job Unit :=
  match t.grid with
  | .ok s => print s
  | .error e => throw e

/-- Runs a diagram. -/
def runDiagram (d : Diagram) (inputs : List String) (limit : Int) : Job Unit := do
  let run := d.run inputs limit
  note run.notes
  match run.finished with
  | .error e => failWith e
  | .ok run =>
    print (Console.rule "Salida")
    run.outputs.forM printLine
    printTable run.store.table
    printLine (" ✅ Terminó en " ++ toString run.steps.length ++ " paso(s).")

/-- What stands in front of the path when a command starts on a file. -/
def Command.heading : Command → String
  | compile .. => " Compilando diagrama: "
  | outline .. => " AST de: "
  | draw .. => " Graphviz de: "
  | run .. => " Ejecutando diagrama: "
  | elements .. => " Elementos de: "

/-- The table of the elements of an expression. -/
def Element.table (es : List Element) : Table where
  headers := ["TOKEN", "VALOR", "TIPO"]
  rows := es.map fun e => [e.text, e.label, e.kind]

/-- Lists the elements of an expression. -/
def listElements (text : String) (declarations : List String) : Job Unit := do
  match Variable.ofDeclarations 1 declarations with
  | .error (.unknownType name) => fail "Argumento" (Error.unknownType name).message
  | .error e => failWith e
  | .ok declared =>
    match Element.ofText declared text with
    | .error e => failWith (.malformed e)
    | .ok es =>
      note [.elements text es.length]
      printTable (Element.table es)

/-- Executes a command on one file. -/
def executeOn (c : Command) (path : String) : Job Unit := do
  about path
  printLine (c.heading ++ path)
  match ← readDiagram path with
  | none => return
  | some d =>
    match c with
    | .compile _ out => compileDiagram d out
    | .outline _ => outlineDiagram d
    | .draw _ flow out dotOnly =>
      let default := (Path.ofText path).stem ++ if flow then "_CFG" else "_AST"
      drawDiagram d flow (out.getD default) dotOnly
    | .run _ inputs limit => runDiagram d inputs limit
    | .elements .. => return

/-- Whether a path ends as diagram files do. -/
def isDiagramFile (path : String) : Bool :=
  ".json".toList.isSuffixOf path.toList

/-- The path of a name in a folder. -/
def inFolder (folder name : String) : String :=
  if folder.toList.getLast? == some '/' then folder ++ name else folder ++ "/" ++ name

/-- Executes a command on a file, or on the diagram files in a folder. -/
def executeAt (c : Command) (path : String) : Job Unit := do
  let files := (← get).files
  if files.isFolder path then
    ((files.names path).filter isDiagramFile).forM fun name => do
      printLine ("\n Encontrado archivo: " ++ inFolder path name)
      executeOn c (inFolder path name)
  else
    if !isDiagramFile path then
      printLine "Advertencia: la ruta no parece .json; se intentará igual."
    executeOn c path

/-- Executes a command; the result says whether all went well. -/
def Command.execute (c : Command) : Job Bool := do
  match c with
  | .elements text declarations =>
    printLine (c.heading ++ text)
    listElements text declarations
  | .compile path _ => executeAt c path
  | .outline path => executeAt c path
  | .draw path .. => executeAt c path
  | .run path .. => executeAt c path
  if (← get).report.failed then
    printLine " ❌ Se detectaron errores."
    return false
  return true

/-- What a session came to: the exit code or the failure that ended it, what the console showed, the
files, and the lines of the journal. -/
structure Outcome where
  exit : Except Error Nat
  shown : String
  files : Files
  journal : List String

/-- The lines of the journal that are shown. -/
def journalLines (verbose : Bool) (notes : List Note) : List String :=
  (notes.filter fun n => verbose || n.level ≠ .debug).map Note.line

/-- The session that the arguments of the command line ask for. -/
def session (arguments : List String) (files : Files) : Outcome :=
  match Arguments.read arguments with
  | .error .help => ⟨.ok 0, "", files, []⟩
  | .error .misuse => ⟨.ok 2, "", files, []⟩
  | .ok invocation =>
    let (result, session) := invocation.command.execute.run.run ⟨"", files, [], .empty⟩
    let exit := result.map fun good => if good then 0 else 1
    ⟨exit, session.shown, session.files, journalLines invocation.verbose session.notes⟩

end Flowchart
