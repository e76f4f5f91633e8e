import Flowchart.Command.Basic
import Flowchart.Number.Decimal
import Flowchart.Run
/-! Reading the arguments of the command line. Options stand anywhere among the arguments of a
command. A long option may be cut short as long as it stays the only one of its kind, and takes its
value from the next argument or behind an equals sign. Behind `--` there are no more options. -/
namespace Flowchart.Arguments

/-- Why there is no command: help was asked for, or the arguments do not fit. -/
inductive Usage where
  | help
  | misuse
  deriving DecidableEq

/-- An option: its spellings, whether it takes a value, and which values it takes. -/
structure Flag where
  key : String
  spellings : List String
  valued : Bool
  accepts : String → Bool

/-- An option without a value. -/
def Flag.bare (key : String) (spellings : List String) : Flag :=
  ⟨key, spellings, false, fun _ => true⟩

/-- An option that takes any value. -/
def Flag.any (key : String) (spellings : List String) : Flag :=
  ⟨key, spellings, true, fun _ => true⟩

/-- The option that every command has. -/
def help : Flag :=
  .bare "help" ["-h", "--help"]

/-- What an argument is. -/
inductive Word where
  | plain (s : String)
  | separator
  | option (flag : Flag) (value : Option String)
  | unknown

/-- The options with the spellings that satisfy a test, one for every spelling. -/
def spelled (flags : List Flag) (test : String → Bool) : List Flag :=
  flags.flatMap fun f => (f.spellings.filter test).map fun _ => f

/-- Whether the characters are digits with a minus sign and perhaps a point among them. A line feed
at their end does not count. -/
def isNegative (cs : List Char) : Bool :=
  match Text.withoutLineFeed cs with
  | '-' :: rest =>
    let fraction := (rest.dropWhile Text.isDigit).drop 1
    match rest.dropWhile Text.isDigit with
    | [] => !rest.isEmpty
    | c :: _ => c == '.' && !fraction.isEmpty && fraction.all Text.isDigit
  | _ => false

/-- The text before the first equals sign, and the one behind it if there is one. -/
def splitValue (s : String) : String × Option String :=
  let cs := s.toList
  (String.ofList (cs.takeWhile (· != '=')),
    if cs.contains '=' then some (String.ofList ((cs.dropWhile (· != '=')).drop 1)) else none)

/-- The options that an argument with a leading hyphen may abbreviate, with their values. -/
def candidates (flags : List Flag) (s : String) : List (Flag × Option String) :=
  if "--".isPrefixOf s then
    let (name, value) := splitValue s
    (spelled flags name.isPrefixOf).map fun f => (f, value)
  else
    let short := String.ofList (s.toList.take 2)
    (spelled flags (· == short)).map fun f => (f, some (String.ofList (s.toList.drop 2)))

/-- An option with the value given to it. What is glued to a short option that takes no value does
not matter. -/
def Word.given (s : String) (f : Flag) (value : Option String) : Word :=
  if !f.valued && !"--".isPrefixOf s && value != some "" then .option f none else .option f value

/-- What an argument is among the given options. -/
def classify (flags : List Flag) (s : String) : Except Usage Word :=
  let (name, value) := splitValue s
  if !"-".isPrefixOf s || s == "-" then .ok (.plain s)
  else
    match spelled flags (· == s), value, spelled flags (· == name) with
    | f :: _, _, _ => .ok (.option f none)
    | [], some value, f :: _ => .ok (.given s f (some value))
    | _, _, _ =>
      match candidates flags s with
      | [(f, value)] => .ok (.given s f value)
      | [] =>
        if isNegative s.toList || s.toList.contains ' ' then .ok (.plain s) else .ok .unknown
      | _ => .error .misuse

/-- What the arguments of a command are. -/
def classifyAll (flags : List Flag) : List String → Except Usage (List Word)
  | [] => .ok []
  | s :: rest =>
    if s == "--" then .ok (.separator :: rest.map .plain)
    else do
      let word ← classify flags s
      let words ← classifyAll flags rest
      return word :: words

/-- What was read so far: the plain argument of the command, the options with their values, and
whether something was left over. -/
structure Found where
  plain : Option String
  options : List (String × String)
  extra : Bool

def Found.empty : Found := ⟨none, [], false⟩

/-- Takes a plain argument; the first one is that of the command. -/
def Found.take (found : Found) (s : String) : Found :=
  if found.plain.isNone then { found with plain := some s } else { found with extra := true }

/-- Takes an option. -/
def Found.set (found : Found) (f : Flag) (value : String) : Except Usage Found :=
  if f.key == "help" then .error .help
  else if f.accepts value then .ok { found with options := found.options ++ [(f.key, value)] }
  else .error .misuse

/-- Reads what the arguments are. A separator is dropped next to the argument of the command and is
left over elsewhere. -/
def gather (found : Found) : List Word → Except Usage Found
  | [] => .ok found
  | .plain s :: .separator :: rest => gather (found.take s) rest
  | .plain s :: rest => gather (found.take s) rest
  | .separator :: rest => gather { found with extra := found.extra || found.plain.isSome } rest
  | .unknown :: rest => gather { found with extra := true } rest
  | .option f (some value) :: rest =>
    if f.valued then do gather (← found.set f value) rest else .error .misuse
  | .option f none :: rest =>
    if !f.valued then do gather (← found.set f "") rest
    else
      match rest with
      | .plain value :: rest => do gather (← found.set f value) rest
      | _ => .error .misuse

namespace Found

/-- The last value given for an option. -/
def last? (found : Found) (key : String) : Option String :=
  (found.options.reverse.find? (·.1 == key)).map Prod.snd

/-- All values given for an option. -/
def all (found : Found) (key : String) : List String :=
  (found.options.filter (·.1 == key)).map Prod.snd

def given (found : Found) (key : String) : Bool :=
  (found.last? key).isSome

/-- The file that an option names; an empty name is none. -/
def file? (found : Found) (key : String) : Option String :=
  (found.last? key).filter (· ≠ "")

end Found

/-- A command by name: its options, and the command that its arguments come to. -/
structure Form where
  name : String
  flags : List Flag
  build : String → Found → Command

def forms : List Form :=
  [⟨"compile", [.any "out" ["-o", "--out"]], fun path found => .compile path (found.file? "out")⟩,
    ⟨"ast", [], fun path _ => .outline path⟩,
    ⟨"graph",
      [.bare "cfg" ["--cfg"], .any "out" ["--gv-out"],
        ⟨"format", ["--gv-format"], true, ["png", "svg", "pdf"].contains⟩,
        .bare "dotOnly" ["--gv-dot-only"]],
      fun path found => .draw path (found.given "cfg") (found.file? "out") (found.given "dotOnly")⟩,
    ⟨"run",
      [.any "input" ["--input"],
        ⟨"limit", ["--max-steps"], true, fun s => (Decimal.integer? s).isSome⟩],
      fun path found =>
        .run path (found.all "input")
          (((found.last? "limit").bind Decimal.integer?).getD Run.defaultLimit)⟩,
    ⟨"tokens", [.any "var" ["--var"]], fun text found => .elements text (found.all "var")⟩]

/-- The command of a form with the given arguments. -/
def Form.read (form : Form) (arguments : List String) : Except Usage (Command × Bool) := do
  let words ← classifyAll (help :: form.flags) arguments
  let found ← gather .empty words
  match found.plain with
  | none => .error .misuse
  | some plain => .ok (form.build plain found, found.extra)

/-- The options in front of the command. -/
def generalFlags : List Flag :=
  [help, .bare "verbose" ["--verbose"]]

/-- Reads the arguments from the options in front of the command on; `extra` says that something was
left over. -/
def readFrom (verbose extra : Bool) : List String → Except Usage Invocation
  | [] => .error .misuse
  | s :: rest =>
    if s == "--" then .error .misuse
    else do
      match ← classify generalFlags s with
      | .option f none => if f.key == "help" then .error .help else readFrom true extra rest
      | .option _ (some _) => .error .misuse
      | .unknown => readFrom verbose true rest
      | .separator => .error .misuse
      | .plain name =>
        match forms.find? (·.name == name) with
        | none => .error .misuse
        | some form =>
          let (command, left) ← form.read rest
          if extra || left then .error .misuse else .ok ⟨verbose, command⟩

/-- The command that the arguments ask for. No argument may be ambiguous among the options in front
of the command, wherever it stands. -/
def read (arguments : List String) : Except Usage Invocation := do
  let _ ← classifyAll generalFlags arguments
  readFrom false false arguments

end Flowchart.Arguments
