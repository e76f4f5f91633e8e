import Flowchart.Text.WordCharacter
/-! Control sequences for terminals. A text may hold sequences that set colours or turn a part of it
into a link; they take no room where the text is shown. -/
namespace Flowchart.Codes

/-- The character that control sequences start with. -/
def escape : Char := '\x1b'

/-- Whether a character lies between two code points. -/
def within (first last : Nat) (c : Char) : Bool :=
  first ≤ c.toNat && c.toNat ≤ last

/-- What follows a control sequence whose start was just read: parameters, further parameters, and
the character that says what to do. -/
def afterControl? (cs : List Char) : Option (List Char) :=
  match (cs.dropWhile (within 0x30 0x3f)).dropWhile (within 0x20 0x2f) with
  | c :: rest => if within 0x40 0x7e c then some rest else none
  | [] => none

/-- How far the properties of a link were read. Each is a key, an equals sign and a value; colons
may stand between them, but a value may also run into the next key. -/
inductive Reading where
  | between
  | key
  | equals
  /-- One character of a value was read. -/
  | value
  /-- A value was read whose end may be the start of the next key. -/
  | longValue

/-- What follows the properties of a link and the semicolon at their end. -/
def afterProperties? : Reading → List Char → Option (List Char)
  | _, [] => none
  | state, c :: rest =>
    match state with
    | .between =>
      if c == ';' then some rest
      else if Text.isWordCharacter c then afterProperties? .key rest else none
    | .key =>
      if c == '=' then afterProperties? .equals rest
      else if Text.isWordCharacter c then afterProperties? .key rest else none
    | .equals => if Text.isWordCharacter c then afterProperties? .value rest else none
    | .value =>
      if c == ';' then some rest
      else if c == ':' then afterProperties? .between rest
      else if Text.isWordCharacter c then afterProperties? .longValue rest else none
    | .longValue =>
      if c == ';' then some rest
      else if c == ':' then afterProperties? .between rest
      else if c == '=' then afterProperties? .equals rest
      else if Text.isWordCharacter c then afterProperties? .longValue rest else none

/-- Cuts off what comes before the next escape, which must be something, and the mark that has to
follow there. -/
def upTo? (mark : List Char) (cs : List Char) : Option (List Char × List Char) :=
  let inside := cs.takeWhile (· != escape)
  let rest := cs.dropWhile (· != escape)
  if !inside.isEmpty && mark.isPrefixOf rest then some (inside, rest.drop mark.length) else none

/-- The end of a link's address. -/
def addressEnd : List Char := [escape, '\\']

/-- The end of a link. -/
def linkEnd : List Char := [escape, ']', '8', ';', ';', escape, '\\']

/-- The text of a link whose start was just read, and what follows the link. -/
def afterLink? (cs : List Char) : Option (List Char × List Char) :=
  match afterProperties? .between cs with
  | none => none
  | some rest =>
    match upTo? addressEnd rest with
    | none => none
    | some (_, rest) => upTo? linkEnd rest

/-- Cuts a control sequence off the start: what is shown in its place, and what follows. -/
def cut? : List Char → Option (List Char × List Char)
  | '\x1b' :: '[' :: rest => (afterControl? rest).map fun rest => ([], rest)
  | '\x1b' :: ']' :: '8' :: ';' :: rest => afterLink? rest
  | _ => none

theorem length_afterControl? {cs rest : List Char} (found : afterControl? cs = some rest) :
    rest.length ≤ cs.length := by
  unfold afterControl? at found
  split at found
  · rename_i c after closed
    split at found
    · cases found
      have outer := (List.dropWhile_suffix (within 0x20 0x2f)
        (l := cs.dropWhile (within 0x30 0x3f))).length_le
      have inner := (List.dropWhile_suffix (within 0x30 0x3f) (l := cs)).length_le
      rw [closed] at outer
      simp only [List.length_cons] at outer
      omega
    · cases found
  · cases found

theorem length_afterProperties? {state : Reading} {cs rest : List Char}
    (found : afterProperties? state cs = some rest) : rest.length ≤ cs.length := by
  fun_induction afterProperties? state cs <;> grind

theorem length_upTo? {mark cs inside rest : List Char} (found : upTo? mark cs = some (inside, rest)) :
    rest.length ≤ cs.length := by
  simp only [upTo?] at found
  split at found
  · cases found
    have := (List.dropWhile_suffix (· != escape) (l := cs)).length_le
    simp only [List.length_drop]
    omega
  · cases found

theorem length_afterLink? {cs inside rest : List Char} (found : afterLink? cs = some (inside, rest)) :
    rest.length ≤ cs.length := by
  unfold afterLink? at found
  split at found
  · cases found
  · rename_i properties read
    have := length_afterProperties? read
    split at found
    · cases found
    · rename_i address closed
      have := length_upTo? closed
      have := length_upTo? found
      omega

/-- What follows a control sequence is shorter. -/
theorem length_cut? {cs shown rest : List Char} (found : cut? cs = some (shown, rest)) :
    rest.length < cs.length := by
  unfold cut? at found
  split at found
  · obtain ⟨after, read, same⟩ := Option.map_eq_some_iff.1 found
    cases same
    have := length_afterControl? read
    simp only [List.length_cons]
    omega
  · have := length_afterLink? found
    simp only [List.length_cons]
    omega
  · cases found

/-- The characters that are shown. -/
def visible (cs : List Char) : List Char :=
  match _found : cut? cs with
  | some (shown, rest) => shown ++ visible rest
  | none =>
    match cs with
    | [] => []
    | c :: rest => c :: visible rest
termination_by cs.length
decreasing_by
  · exact length_cut? _found
  · exact Nat.lt_succ_self _

/-- A text without its control sequences. -/
def strip (s : String) : String :=
  String.ofList (visible s.toList)

/-- Whether characters hold a control sequence. -/
def anyIn : List Char → Bool
  | [] => false
  | c :: rest => (cut? (c :: rest)).isSome || anyIn rest

end Flowchart.Codes
