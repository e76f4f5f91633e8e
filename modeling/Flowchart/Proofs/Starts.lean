import Flowchart.Proofs.GrammarReading
/-! How sentences start. Tokens are walked through one by one: at every place either an operand is due or one has
just ended, and some groups and indices are open. A walk that never gets stuck is the start of a sentence, and every
start of a sentence is such a walk, so the longest start is the one at which the walk stops. The walk also tells which
variable an index belongs to when its bracket is closed. -/
namespace Flowchart.Grammar

/-- The tokens start some sentence. -/
def StartsSentence (p : List Token) : Prop :=
  ∃ tree : ParseTree .expression, p <+: tree.tokens

/-- The longest start of the tokens that starts a sentence. -/
structure LongestStart (p ts : List Token) : Prop where
  starts : p <+: ts
  viable : StartsSentence p
  longest : ∀ q, q <+: ts → StartsSentence q → q.length ≤ p.length

/-- The tokens end with the index of the variable: the last one closes the bracket right behind it. -/
def EndsIndex (v : Variable) (q : List Token) : Prop :=
  ∃ before inside, q = before ++ .named v :: .op .openBracket :: (inside ++ [.op .closeBracket]) ∧
    Token.matchDelimiters [] inside = .ok ()

/-- The first index of a variable that is no array ends with `q`. -/
structure FirstMisuse (v : Variable) (q p : List Token) : Prop where
  starts : q <+: p
  ends : EndsIndex v q
  misused : v.isArray = false
  first : ∀ v' q', q' <+: p → EndsIndex v' q' → v'.isArray = false → q.length ≤ q'.length

/-! ### Walking through tokens -/

/-- What is open at a place: a group, or the index of a variable. -/
inductive Frame where
  | group
  | index (v : Variable)

def Frame.opening : Frame → List Token
  | group => [.op .openParen]
  | index v => [.named v, .op .openBracket]

def Frame.closing : Frame → Operator
  | group => .closeParen
  | index _ => .closeBracket

/-- Whether an operand is due or has ended. Behind a variable an index may be opened. -/
inductive Stance where
  | due
  | named (v : Variable)
  | ended

/-- A place between tokens, with what is open there, the innermost first. -/
structure Place where
  stance : Stance
  frames : List Frame

/-- One token further. Only indices of variables that fit are closed. -/
inductive Advances (fits : Variable → Prop) : Place → Token → Place → Prop
  | literal (fs : List Frame) (value : Value) (type : DataType) :
    Advances fits ⟨.due, fs⟩ (.literal value type) ⟨.ended, fs⟩
  | call (fs : List Frame) (function : Function) (argument : Term) :
    Advances fits ⟨.due, fs⟩ (.call function argument) ⟨.ended, fs⟩
  | named (fs : List Frame) (v : Variable) : Advances fits ⟨.due, fs⟩ (.named v) ⟨.named v, fs⟩
  | sign (fs : List Frame) {o : Operator} {sign : UnaryOp} (applies : Applies o sign) :
    Advances fits ⟨.due, fs⟩ (.op o) ⟨.due, fs⟩
  | group (fs : List Frame) : Advances fits ⟨.due, fs⟩ (.op .openParen) ⟨.due, .group :: fs⟩
  | index (fs : List Frame) (v : Variable) :
    Advances fits ⟨.named v, fs⟩ (.op .openBracket) ⟨.due, .index v :: fs⟩
  | join (fs : List Frame) {st : Stance} (ended : st ≠ .due) {s : Layer} {o : Operator} {op : BinaryOp}
    (joins : Joins s o op) : Advances fits ⟨st, fs⟩ (.op o) ⟨.due, fs⟩
  | close (fs : List Frame) {st : Stance} (ended : st ≠ .due) {f : Frame} {o : Operator} (closes : o = f.closing)
    (fit : ∀ v, f = .index v → fits v) : Advances fits ⟨st, f :: fs⟩ (.op o) ⟨.ended, fs⟩

/-- Several tokens further. -/
inductive Walk (fits : Variable → Prop) : Place → List Token → Place → Prop
  | done (a : Place) : Walk fits a [] a
  | step {a b c : Place} {t : Token} {ts : List Token} (first : Advances fits a t b) (rest : Walk fits b ts c) :
    Walk fits a (t :: ts) c

/-- The place before the first token. -/
def Place.start : Place :=
  ⟨.due, []⟩

/-- Every variable may be indexed, as far as the grammar goes. -/
def anyVariable (_ : Variable) : Prop :=
  True

/-- Only arrays may be indexed. -/
def onlyArrays (v : Variable) : Prop :=
  v.isArray = true

variable {fits : Variable → Prop} {a b c : Place} {t : Token} {ts us : List Token} {v : Variable}

theorem Walk.append (first : Walk fits a ts b) (second : Walk fits b us c) : Walk fits a (ts ++ us) c := by
  induction first with
  | done => exact second
  | step one rest ih => exact .step one (ih second)

theorem Walk.split (walk : Walk fits a (ts ++ us) c) : ∃ b, Walk fits a ts b ∧ Walk fits b us c := by
  induction ts generalizing a with
  | nil => exact ⟨a, .done a, walk⟩
  | cons t ts ih =>
    cases walk with
    | step one rest =>
      obtain ⟨b, first, second⟩ := ih rest
      exact ⟨b, .step one first, second⟩

theorem Advances.any (advances : Advances fits a t b) : Advances anyVariable a t b := by
  cases advances with
  | literal fs value type => exact .literal fs value type
  | call fs function argument => exact .call fs function argument
  | named fs v => exact .named fs v
  | sign fs applies => exact .sign fs applies
  | group fs => exact .group fs
  | index fs v => exact .index fs v
  | join fs ended joins => exact .join fs ended joins
  | close fs ended closes => exact .close fs ended closes fun _ _ => trivial

theorem Walk.any (walk : Walk fits a ts b) : Walk anyVariable a ts b := by
  induction walk with
  | done a => exact .done a
  | step one rest ih => exact .step one.any ih

theorem Joins.ne_closing {s : Layer} {o : Operator} {op : BinaryOp} (joins : Joins s o op) (f : Frame) :
    o ≠ f.closing := by
  cases f <;> cases joins <;> simp [Frame.closing]

theorem Frame.closing_ne_openBracket (f : Frame) : f.closing ≠ .openBracket := by
  cases f <;> simp [closing]

/-- A token leads to one place alone. -/
theorem Advances.unique (first : Advances fits a t b) (second : Advances fits a t c) : b = c := by
  cases first with
  | literal => cases second; rfl
  | call => cases second; rfl
  | named => cases second; rfl
  | sign fs applies =>
    cases second with
    | sign => rfl
    | group => cases applies
    | join _ ended => exact absurd rfl ended
    | close _ ended => exact absurd rfl ended
  | group =>
    cases second with
    | sign _ applies => cases applies
    | group => rfl
    | join _ ended => exact absurd rfl ended
    | close _ ended => exact absurd rfl ended
  | index =>
    cases second with
    | index => rfl
    | join _ _ joins => cases joins
    | close _ _ closes => exact absurd closes.symm (Frame.closing_ne_openBracket _)
  | join fs ended joins =>
    cases second with
    | sign => exact absurd rfl ended
    | group => exact absurd rfl ended
    | index => cases joins
    | join => rfl
    | close _ _ closes => exact absurd closes (joins.ne_closing _)
  | close fs ended closes =>
    cases second with
    | sign => exact absurd rfl ended
    | group => exact absurd rfl ended
    | index => exact absurd closes.symm (Frame.closing_ne_openBracket _)
    | join _ _ joins => exact absurd closes (joins.ne_closing _)
    | close => rfl

theorem Walk.unique (first : Walk fits a ts b) (second : Walk fits a ts c) : b = c := by
  induction first with
  | done => cases second; rfl
  | step one rest ih =>
    cases second with
    | step other more =>
      obtain rfl := one.unique other
      exact ih more

/-! ### Starts of sentences are walked through -/

/-- A tree is an operand with all that belongs to it. -/
theorem ParseTree.exists_walk {s : Layer} (tree : ParseTree s) (fs : List Frame) :
    ∃ st, st ≠ .due ∧ Walk anyVariable ⟨.due, fs⟩ tree.tokens ⟨st, fs⟩ := by
  induction tree generalizing fs with
  | pass covers inner ih => exact ih fs
  | binary covers o op joins left right ihLeft ihRight =>
    obtain ⟨st, ended, first⟩ := ihLeft fs
    obtain ⟨st', ended', second⟩ := ihRight fs
    exact ⟨st', ended', first.append (.step (.join fs ended joins) second)⟩
  | unary o sign applies operand ih =>
    obtain ⟨st, ended, walk⟩ := ih fs
    exact ⟨st, ended, .step (.sign fs applies) walk⟩
  | literal value type => exact ⟨.ended, by simp, .step (.literal fs value type) (.done _)⟩
  | named v => exact ⟨.named v, by simp, .step (.named fs v) (.done _)⟩
  | item v index ih =>
    obtain ⟨st, ended, walk⟩ := ih (.index v :: fs)
    have closed : Walk anyVariable ⟨st, .index v :: fs⟩ [.op .closeBracket] ⟨.ended, fs⟩ :=
      .step (.close fs ended rfl fun _ _ => trivial) (.done _)
    exact ⟨.ended, by simp, .step (.named fs v) (.step (.index fs v) (walk.append closed))⟩
  | call function argument => exact ⟨.ended, by simp, .step (.call fs function argument) (.done _)⟩
  | group inside ih =>
    obtain ⟨st, ended, walk⟩ := ih (.group :: fs)
    have closed : Walk anyVariable ⟨st, .group :: fs⟩ [.op .closeParen] ⟨.ended, fs⟩ :=
      .step (.close fs ended rfl fun _ _ => trivial) (.done _)
    exact ⟨.ended, by simp, .step (.group fs) (walk.append closed)⟩

theorem StartsSentence.exists_walk {p : List Token} (starts : StartsSentence p) :
    ∃ place, Walk anyVariable .start p place := by
  obtain ⟨tree, rest, same⟩ := starts
  obtain ⟨st, -, walk⟩ := tree.exists_walk []
  rw [← same] at walk
  obtain ⟨place, first, -⟩ := walk.split
  exact ⟨place, first⟩

/-! ### What is walked through starts a sentence -/

theorem exists_lift (u : ParseTree .unary) (s : Layer) (loose : s ≠ .primary) :
    ∃ tree : ParseTree s, tree.tokens = u.tokens := by
  cases s with
  | unary => exact ⟨u, rfl⟩
  | multiplicative => exact ⟨.pass .multiplicative u, rfl⟩
  | additive => exact ⟨.pass .additive <| .pass .multiplicative u, rfl⟩
  | conjunction => exact ⟨.pass .conjunction <| .pass .additive <| .pass .multiplicative u, rfl⟩
  | disjunction => exact ⟨.pass .disjunction <| .pass .conjunction <| .pass .additive <| .pass .multiplicative u, rfl⟩
  | expression =>
    exact ⟨.pass .expression <| .pass .disjunction <| .pass .conjunction <| .pass .additive <|
      .pass .multiplicative u, rfl⟩
  | primary => exact absurd rfl loose

theorem Layer.eq_of_level {s t : Layer} (same : t.level = s.level) : t = s := by
  cases s <;> cases t <;> simp_all [level]

theorem Joins.exists_covers {s : Layer} {o : Operator} {op : BinaryOp} (joins : Joins s o op) :
    ∃ t, Covers s t ∧ t ≠ .primary := by
  cases joins with
  | relation => exact ⟨_, .expression, by simp⟩
  | or => exact ⟨_, .disjunction, by simp⟩
  | and => exact ⟨_, .conjunction, by simp⟩
  | plus => exact ⟨_, .additive, by simp⟩
  | minus => exact ⟨_, .additive, by simp⟩
  | times => exact ⟨_, .multiplicative, by simp⟩
  | divide => exact ⟨_, .multiplicative, by simp⟩
  | modulo => exact ⟨_, .multiplicative, by simp⟩

theorem Joins.level_lt {s : Layer} {o : Operator} {op : BinaryOp} (joins : Joins s o op) : s.level < 5 := by
  cases joins <;> decide

/-- Another operand can be joined to a tree by any operator that binds no looser than the tree's layer. Where the
operator binds tighter, it becomes part of the last operand. -/
theorem ParseTree.exists_join {s t : Layer} {o : Operator} {op : BinaryOp} (joins : Joins s o op)
    (tree : ParseTree t) (u : ParseTree .unary) (looser : t.level ≤ s.level) :
    ∃ joined : ParseTree t, joined.tokens = tree.tokens ++ .op o :: u.tokens := by
  have here (left : ParseTree s) : ∃ joined : ParseTree s, joined.tokens = left.tokens ++ .op o :: u.tokens := by
    obtain ⟨next, covers, loose⟩ := joins.exists_covers
    obtain ⟨right, same⟩ := exists_lift u next loose
    exact ⟨.binary covers o op joins left right, by rw [tokens, same]⟩
  have tight := joins.level_lt
  induction tree with
  | @pass t t' covers inner ih =>
    by_cases same : t.level = s.level
    · obtain rfl := Layer.eq_of_level same
      exact here _
    · obtain ⟨joined, tokens⟩ := ih (by have := covers.level; omega)
      exact ⟨.pass covers joined, tokens⟩
  | @binary t t' covers o' op' joins' left right ihLeft ihRight =>
    by_cases same : t.level = s.level
    · obtain rfl := Layer.eq_of_level same
      exact here _
    · obtain ⟨joined, tokens⟩ := ihRight (by have := covers.level; omega)
      exact ⟨.binary covers o' op' joins' left joined, by simp [ParseTree.tokens, tokens]⟩
  | _ => exact absurd (looser.trans_lt tight) (by decide)

/-- The tokens become a sentence when the frames are closed one after the other, and go on to be one whatever
operand stands where the innermost of them was opened. -/
def Completes : List Frame → List Token → Prop
  | [], p => ∃ tree : ParseTree .expression, tree.tokens = p
  | f :: fs, p => ∃ before, ∃ inside : ParseTree .expression, p = before ++ (f.opening ++ inside.tokens) ∧
    ∀ u : ParseTree .unary, Completes fs (before ++ u.tokens)

/-- An operand may follow the tokens. -/
def Awaits (fs : List Frame) (p : List Token) : Prop :=
  ∀ u : ParseTree .unary, Completes fs (p ++ u.tokens)

/-- The tokens lead to the place. -/
def Place.Reached : Place → List Token → Prop
  | ⟨.due, fs⟩, p => Awaits fs p
  | ⟨.named v, fs⟩, p => ∃ before, p = before ++ [.named v] ∧ Awaits fs before
  | ⟨.ended, fs⟩, p => Completes fs p

/-- The operand that a frame makes of what is inside. -/
def Frame.tree (inside : ParseTree .expression) : Frame → ParseTree .unary
  | group => .pass .unary (.group inside)
  | index v => .pass .unary (.item v inside)

theorem Frame.tokens_tree (f : Frame) (inside : ParseTree .expression) :
    (f.tree inside).tokens = f.opening ++ (inside.tokens ++ [.op f.closing]) := by
  cases f <;> rfl

theorem Place.Reached.completes {st : Stance} {fs : List Frame} {p : List Token} (ended : st ≠ .due)
    (reached : Place.Reached ⟨st, fs⟩ p) : Completes fs p := by
  cases st with
  | due => exact absurd rfl ended
  | named v =>
    obtain ⟨before, rfl, awaits⟩ := reached
    exact awaits (.pass .unary (.named v))
  | ended => exact reached

theorem Awaits.sign {fs : List Frame} {p : List Token} {o : Operator} {sign : UnaryOp} (awaits : Awaits fs p)
    (applies : Applies o sign) : Awaits fs (p ++ [.op o]) := by
  intro u
  have whole := awaits (.unary o sign applies u)
  rw [List.append_assoc]
  exact whole

/-- Inside of a frame an operand may follow if one may stand where the frame was opened. -/
theorem Awaits.frame {fs : List Frame} {p : List Token} (awaits : Awaits fs p) (f : Frame) :
    Awaits (f :: fs) (p ++ f.opening) := by
  intro u
  obtain ⟨inside, same⟩ := exists_lift u .expression (by simp)
  exact ⟨p, inside, by rw [same, List.append_assoc], awaits⟩

theorem Completes.join {fs : List Frame} {p : List Token} {s : Layer} {o : Operator} {op : BinaryOp}
    (completes : Completes fs p) (joins : Joins s o op) : Awaits fs (p ++ [.op o]) := by
  intro u
  cases fs with
  | nil =>
    obtain ⟨tree, rfl⟩ := completes
    obtain ⟨joined, tokens⟩ := tree.exists_join joins u (Nat.zero_le _)
    exact ⟨joined, by simp [tokens]⟩
  | cons f fs =>
    obtain ⟨before, inside, rfl, awaits⟩ := completes
    obtain ⟨joined, tokens⟩ := inside.exists_join joins u (Nat.zero_le _)
    exact ⟨before, joined, by simp [tokens], awaits⟩

theorem Completes.close {f : Frame} {fs : List Frame} {p : List Token} (completes : Completes (f :: fs) p) :
    Completes fs (p ++ [.op f.closing]) := by
  obtain ⟨before, inside, rfl, awaits⟩ := completes
  have closed := awaits (f.tree inside)
  rw [f.tokens_tree] at closed
  simpa using closed

/-- What one token keeps: the tokens so far lead to the place. -/
theorem Advances.reached {p : List Token} (advances : Advances fits a t b) (reached : a.Reached p) :
    b.Reached (p ++ [t]) := by
  cases advances with
  | literal fs value type => exact reached (.pass .unary (.literal value type))
  | call fs function argument => exact reached (.pass .unary (.call function argument))
  | named fs v => exact ⟨p, rfl, reached⟩
  | sign fs applies => exact Awaits.sign reached applies
  | group fs => exact Awaits.frame reached .group
  | index fs v =>
    obtain ⟨before, rfl, awaits⟩ := reached
    have inside := awaits.frame (.index v)
    rw [List.append_assoc]
    exact inside
  | join fs ended joins => exact (reached.completes ended).join joins
  | close fs ended closes =>
    rw [closes]
    exact (reached.completes ended).close

/-- What a walk keeps. -/
theorem Walk.reached {p : List Token} (walk : Walk fits a ts b) (reached : a.Reached p) : b.Reached (p ++ ts) := by
  induction walk generalizing p with
  | done => simpa using reached
  | step one rest ih => simpa using ih (one.reached reached)

theorem reached_start : Place.start.Reached [] := by
  intro u
  exact exists_lift u .expression (by simp)

theorem Walk.reached_of_start {p : List Token} {place : Place} (walk : Walk fits .start p place) : place.Reached p :=
  walk.reached reached_start

theorem Completes.starts {fs : List Frame} {p : List Token} (completes : Completes fs p) : StartsSentence p := by
  induction fs generalizing p with
  | nil =>
    obtain ⟨tree, rfl⟩ := completes
    exact ⟨tree, List.prefix_refl _⟩
  | cons f fs ih =>
    obtain ⟨tree, whole⟩ := ih completes.close
    exact ⟨tree, (List.prefix_append _ _).trans whole⟩

/-- The walks from the start are the starts of sentences. -/
theorem startsSentence_iff_walk {p : List Token} :
    StartsSentence p ↔ ∃ place, Walk anyVariable .start p place := by
  constructor
  · exact StartsSentence.exists_walk
  · rintro ⟨⟨st, fs⟩, walk⟩
    have reached := walk.reached_of_start
    by_cases ended : st = .due
    · subst ended
      obtain ⟨tree, whole⟩ := (reached (.pass .unary (.call (.other "") (.blank "")))).starts
      exact ⟨tree, (List.prefix_append _ _).trans whole⟩
    · exact (reached.completes ended).starts

/-! ### Delimiters along a walk -/

/-- The closing symbols that the frames await. -/
def closings (fs : List Frame) : List Operator :=
  fs.map Frame.closing

/-- One token further, delimiters that are matched within the frames `gs` are matched within those open then. What
was open before is not closed, since nothing awaits its closing symbol. -/
theorem Advances.within (gs base : List Frame) {rest : List Token} (frames : a.frames = gs ++ base)
    (advances : Advances fits a t b) (matched : Token.matchDelimiters (closings gs) (t :: rest) = .ok ()) :
    ∃ gs', b.frames = gs' ++ base ∧ Token.matchDelimiters (closings gs') rest = .ok () := by
  cases advances with
  | literal => exact ⟨gs, frames, by cases gs <;> simpa [closings, Token.matchDelimiters] using matched⟩
  | call => exact ⟨gs, frames, by cases gs <;> simpa [closings, Token.matchDelimiters] using matched⟩
  | named => exact ⟨gs, frames, by cases gs <;> simpa [closings, Token.matchDelimiters] using matched⟩
  | sign fs applies =>
    refine ⟨gs, frames, ?_⟩
    cases applies <;> cases gs <;> simpa [closings, Token.matchDelimiters] using matched
  | group fs =>
    refine ⟨.group :: gs, congrArg (Frame.group :: ·) frames, ?_⟩
    cases gs <;> simpa [closings, Frame.closing, Token.matchDelimiters] using matched
  | index fs v =>
    refine ⟨.index v :: gs, congrArg (Frame.index v :: ·) frames, ?_⟩
    cases gs <;> simpa [closings, Frame.closing, Token.matchDelimiters] using matched
  | join fs ended joins =>
    refine ⟨gs, frames, ?_⟩
    cases joins <;> cases gs <;> simpa [closings, Token.matchDelimiters] using matched
  | @close fs st ended f o closes fit =>
    cases gs with
    | nil =>
      -- Nothing is awaited, so delimiters would not match here.
      subst closes
      cases f <;> cases matched
    | cons g gs =>
      obtain ⟨rfl, rfl⟩ := List.cons.inj frames
      subst closes
      refine ⟨gs, rfl, ?_⟩
      cases f <;> simpa [closings, Frame.closing, Token.matchDelimiters] using matched

theorem Walk.within (gs base : List Frame) {rest : List Token} (frames : a.frames = gs ++ base)
    (walk : Walk fits a ts b) (matched : Token.matchDelimiters (closings gs) (ts ++ rest) = .ok ()) :
    ∃ gs', b.frames = gs' ++ base ∧ Token.matchDelimiters (closings gs') rest = .ok () := by
  induction walk generalizing gs with
  | done a => exact ⟨gs, frames, matched⟩
  | step one more ih =>
    obtain ⟨gs', frames', matched'⟩ := one.within gs base frames matched
    exact ih gs' frames' matched'

theorem Walk.matched {p rest : List Token} {place : Place} (walk : Walk fits .start p place)
    (matched : Token.matchDelimiters [] (p ++ rest) = .ok ()) :
    Token.matchDelimiters (closings place.frames) rest = .ok () := by
  obtain ⟨gs, frames, left⟩ := walk.within [] [] rfl matched
  rw [List.append_nil] at frames
  rw [frames]
  exact left

/-- Matched tokens close all that they open and nothing else. -/
theorem Walk.frames_eq (walk : Walk fits a ts b) (matched : Token.matchDelimiters [] ts = .ok ()) :
    b.frames = a.frames := by
  rw [← List.append_nil ts] at matched
  obtain ⟨gs, frames, left⟩ := walk.within [] a.frames rfl matched
  cases gs with
  | nil => exact frames
  | cons f gs => cases f <;> cases left

/-! ### Ends of indices -/

/-- Where a bracket closes, the index of the variable it belongs to ends. -/
theorem Walk.endsIndex {p : List Token} {st : Stance} {fs : List Frame}
    (walk : Walk fits .start p ⟨st, .index v :: fs⟩) (ended : st ≠ .due) :
    EndsIndex v (p ++ [.op .closeBracket]) := by
  obtain ⟨before, inside, rfl, -⟩ := walk.reached_of_start.completes ended
  exact ⟨before, inside.tokens, by simp [Frame.opening], inside.matchDelimiters_tokens⟩

theorem Advances.of_named (advances : Advances fits a (.named v) b) :
    a.stance = .due ∧ b = ⟨.named v, a.frames⟩ := by
  cases advances
  exact ⟨rfl, rfl⟩

theorem Advances.of_openBracket {fs : List Frame} (advances : Advances fits ⟨.named v, fs⟩ (.op .openBracket) b) :
    b = ⟨.due, .index v :: fs⟩ := by
  cases advances with
  | index => rfl
  | join _ _ joins => cases joins
  | close _ _ closes => exact absurd closes.symm (Frame.closing_ne_openBracket _)

theorem Advances.of_closeBracket {st : Stance} {fs : List Frame}
    (advances : Advances fits ⟨st, .index v :: fs⟩ (.op .closeBracket) b) : fits v := by
  cases advances with
  | sign _ applies => cases applies
  | join _ _ joins => cases joins
  | close _ _ _ fit => exact fit v rfl

/-- An index that ends on a walk was opened on it, and its variable fits. -/
theorem EndsIndex.walk {q : List Token} {place : Place} (ends : EndsIndex v q) (walk : Walk fits .start q place) :
    fits v ∧ ∃ p st fs, q = p ++ [.op .closeBracket] ∧ Walk fits .start p ⟨st, .index v :: fs⟩ := by
  obtain ⟨before, inside, rfl, matched⟩ := ends
  obtain ⟨opened, first, second⟩ := walk.split
  cases second with
  | step name second =>
    obtain ⟨due, rfl⟩ := name.of_named
    cases second with
    | step bracket second =>
      obtain rfl := bracket.of_openBracket
      obtain ⟨⟨st, fs⟩, within, last⟩ := second.split
      obtain rfl : fs = .index v :: opened.frames := within.frames_eq matched
      cases last with
      | step close _ =>
        have whole := first.append (.step name (.step bracket within))
        exact ⟨close.of_closeBracket, _, st, _, by simp, whole⟩

/-- A bracket closes the index of one variable. -/
theorem EndsIndex.unique {v' : Variable} {q : List Token} {place : Place} (first : EndsIndex v q)
    (second : EndsIndex v' q) (walk : Walk fits .start q place) : v = v' := by
  obtain ⟨-, p, st, fs, rfl, opened⟩ := first.walk walk
  obtain ⟨-, p', st', fs', same, opened'⟩ := second.walk walk
  obtain ⟨rfl, -⟩ := List.append_inj' same rfl
  cases opened.unique opened'
  rfl

/-! ### Longest starts -/

/-- The walk does not go on from the place. -/
def Stuck (place : Place) (rest : List Token) : Prop :=
  ∀ t more next, rest = t :: more → ¬Advances anyVariable place t next

theorem stuck_nil (place : Place) : Stuck place [] := by
  intro t more next same
  cases same

theorem LongestStart.unique {p q : List Token} (first : LongestStart p ts) (second : LongestStart q ts) : p = q := by
  have le := first.longest q second.starts second.viable
  have ge := second.longest p first.starts first.viable
  exact (List.prefix_of_prefix_length_le first.starts second.starts ge).eq_of_length (by omega)

/-- The longest start is where the walk does not go on. -/
theorem Walk.longestStart {p rest : List Token} {place : Place} (walk : Walk fits .start p place)
    (stuck : Stuck place rest) : LongestStart p (p ++ rest) where
  starts := List.prefix_append p rest
  viable := startsSentence_iff_walk.2 ⟨place, walk.any⟩
  longest := by
    intro q starts viable
    by_contra longer
    -- A longer start is a walk that passes the same place, since walks are unique, and goes on from it.
    obtain ⟨further, rfl⟩ := List.prefix_of_prefix_length_le (List.prefix_append p rest) starts (by omega)
    obtain ⟨last, whole⟩ := viable.exists_walk
    obtain ⟨there, first, second⟩ := whole.split
    obtain rfl := first.unique walk.any
    cases second with
    | done => simp at longer
    | step one =>
      obtain ⟨more, same⟩ := (List.prefix_append_right_inj p).1 starts
      exact stuck _ _ _ same.symm one

/-- From every place there is a walk as far as it goes. -/
theorem exists_longest_walk (a : Place) (ts : List Token) :
    ∃ p rest b, ts = p ++ rest ∧ Walk anyVariable a p b ∧ Stuck b rest := by
  induction ts generalizing a with
  | nil => exact ⟨[], [], a, rfl, .done a, stuck_nil a⟩
  | cons t ts ih =>
    by_cases goes : ∃ b, Advances anyVariable a t b
    · obtain ⟨b, one⟩ := goes
      obtain ⟨p, rest, c, rfl, walk, stuck⟩ := ih b
      exact ⟨t :: p, rest, c, rfl, .step one walk, stuck⟩
    · refine ⟨[], t :: ts, a, rfl, .done a, fun t' more next same one => ?_⟩
      cases same
      exact goes ⟨next, one⟩

theorem exists_longestStart (ts : List Token) : ∃ p, LongestStart p ts := by
  obtain ⟨p, rest, place, rfl, walk, stuck⟩ := exists_longest_walk .start ts
  exact ⟨p, walk.longestStart stuck⟩

end Flowchart.Grammar
