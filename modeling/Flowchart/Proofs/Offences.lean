import Flowchart.Proofs.Starts
/-! Where a rejected expression goes wrong. The reader walks through the tokens as far as they start a sentence and
complains about the token behind, or about the end. The index of a variable that is no array stops it earlier, unless
the token behind the bracket cannot stand there: then that token is what it complains about. -/
namespace Flowchart.Grammar

/-- The tokens left cannot be walked on, and the error they give. -/
inductive Halts : Place → List Token → SyntaxError → Prop
  | stuck {place : Place} {rest : List Token} (stuck : Stuck place rest) : Halts place rest (Token.unexpected rest)
  | misused {st : Stance} (ended : st ≠ .due) {v : Variable} (scalar : v.isArray = false) (fs : List Frame)
    (more : List Token) :
    Halts ⟨st, .index v :: fs⟩ (.op .closeBracket :: more)
      (if Token.canFollow more then .notArray v.name else Token.unexpected more)

/-- Walking on from the place leads to an error. -/
def Fails (a : Place) (ts : List Token) (e : SyntaxError) : Prop :=
  ∃ p rest b, ts = p ++ rest ∧ Walk onlyArrays a p b ∧ Halts b rest e

/-- Tokens at which an operand of level `n` ends that has the given stance. Unlike after a whole tree, an index may
only follow a variable. -/
def Rests (n : Nat) (st : Stance) (rest : List Token) : Prop :=
  ∀ o more, rest = .op o :: more →
    (o = .openBracket → ∀ v, st ≠ .named v) ∧ ∀ s op, Joins s o op → s.level < n

/-- What is read at level `n` has been walked through, and an error comes from where the walk halts. -/
def Accounts (n : Nat) (st : Stance) (ts : List Token) : Except SyntaxError (Term × List Token) → Prop
  | .ok (_, rest) => ∃ p st', ts = p ++ rest ∧ st' ≠ .due ∧
    (∀ fs, Walk onlyArrays ⟨st, fs⟩ p ⟨st', fs⟩) ∧ Rests n st' rest
  | .error e => ∀ fs, Fails ⟨st, fs⟩ ts e

variable {n : Nat} {st : Stance} {ts rest : List Token} {e : SyntaxError}

theorem Fails.append {a b : Place} {p : List Token} (walk : Walk onlyArrays a p b) (fails : Fails b rest e) :
    Fails a (p ++ rest) e := by
  obtain ⟨q, more, c, rfl, onward, halts⟩ := fails
  exact ⟨p ++ q, more, c, by rw [List.append_assoc], walk.append onward, halts⟩

theorem Halts.fails {a : Place} (halts : Halts a rest e) : Fails a rest e :=
  ⟨[], rest, a, rfl, .done a, halts⟩

theorem accounts_append {p : List Token} {st' : Stance} {r : Except SyntaxError (Term × List Token)}
    (walk : ∀ fs, Walk onlyArrays ⟨st, fs⟩ p ⟨st', fs⟩) (accounts : Accounts n st' ts r) :
    Accounts n st (p ++ ts) r := by
  cases r with
  | error e => exact fun fs => (accounts fs).append (walk fs)
  | ok r =>
    obtain ⟨q, last, rfl, ended, onward, rests⟩ := accounts
    exact ⟨p ++ q, last, by rw [List.append_assoc], ended, fun fs => (walk fs).append (onward fs), rests⟩

/-- Reading on after what was read. -/
theorem accounts_bind {m : Nat} {r : Except SyntaxError (Term × List Token)}
    {next : Term × List Token → Except SyntaxError (Term × List Token)} (accounts : Accounts m st ts r)
    (onward : ∀ term rest st', rest.length ≤ ts.length → st' ≠ .due → Rests m st' rest →
      Accounts n st' rest (next (term, rest))) : Accounts n st ts (r.bind next) := by
  cases r with
  | error e => exact accounts
  | ok r =>
    obtain ⟨term, rest⟩ := r
    obtain ⟨p, st', rfl, ended, walk, rests⟩ := accounts
    exact accounts_append walk (onward term rest st' (by simp) ended rests)

theorem accounts_map {r : Except SyntaxError (Term × List Token)} {make : Term → Term}
    (accounts : Accounts n st ts r) : Accounts n st ts (r.map fun r => (make r.1, r.2)) := by
  cases r with
  | error e => exact accounts
  | ok r => exact accounts

/-! ### Operands -/

theorem rests_levels (ended : ∀ v, st ≠ .named v) (rest : List Token) : Rests Token.levels st rest := by
  intro o more _
  exact ⟨fun _ => ended, fun s op joins => joins.level_lt⟩

/-- Nothing but an index, an operator between operands and a closing symbol goes on after an operand. -/
theorem stuck_of_rests (fs : List Frame) (ended : st ≠ .due) (rests : Rests 0 st rest)
    (unclosed : ∀ f fs' more, fs = f :: fs' → rest ≠ .op f.closing :: more) : Stuck ⟨st, fs⟩ rest := by
  rintro t more next rfl advances
  cases advances with
  | index fs v => exact (rests _ _ rfl).1 rfl v rfl
  | join fs _ joins => exact absurd ((rests _ _ rfl).2 _ _ joins) (Nat.not_lt_zero _)
  | close fs' _ closes =>
    subst closes
    exact unclosed _ _ _ rfl rfl
  | _ => exact ended rfl

end Flowchart.Grammar

namespace Flowchart.Token
open Grammar

/-- What is read up to a closing symbol. -/
def readWithin (o : Operator) (ts : List Token) : Except SyntaxError (Term × List Token) :=
  (read 0 ts).bind fun r => (skip o r.2).map fun rest => (r.1, rest)

theorem readOperand_group_eq (ts : List Token) :
    readOperand (.op .openParen :: ts) = readWithin .closeParen ts :=
  readOperand_group

theorem readOperand_item_eq (v : Variable) (ts : List Token) :
    readOperand (.named v :: .op .openBracket :: ts) = (readWithin .closeBracket ts).bind fun r =>
      if v.isArray then .ok (.access v.name v.base r.1, r.2)
      else .error (if canFollow r.2 then .notArray v.name else unexpected r.2) := by
  rw [readOperand_item, readWithin]
  cases read 0 ts with
  | error e => rfl
  | ok r =>
    simp only [Except.bind]
    cases skip .closeBracket r.2 with
    | error e => rfl
    | ok rest =>
      simp only [Except.map]
      by_cases follows : canFollow rest = true <;> simp [follows]

theorem skip_eq_error {o : Operator} {ts : List Token} {e : SyntaxError} (missed : skip o ts = .error e) :
    e = unexpected ts ∧ ∀ more, ts ≠ .op o :: more := by
  constructor
  · unfold skip expect at missed
    cases ts with
    | nil => cases missed; rfl
    | cons t rest =>
      cases t with
      | op found =>
        by_cases same : found = o
        · simp [same, Except.map] at missed
        · simp only [same, if_false] at missed
          cases missed
          rfl
      | _ => cases missed; rfl
  · intro more same
    rw [skip_eq_ok.2 same] at missed
    cases missed

end Flowchart.Token

namespace Flowchart.Grammar

section Operands
variable {n : Nat} {st : Stance} {ts rest : List Token} {e : SyntaxError} {term : Term}

/-- What is read within a frame is walked through up to the closing symbol. -/
theorem walk_of_readWithin (f : Frame) (inside : Accounts 0 .due ts (Token.read 0 ts))
    (done : Token.readWithin f.closing ts = .ok (term, rest)) :
    ∃ p st, ts = p ++ .op f.closing :: rest ∧ st ≠ .due ∧ ∀ fs, Walk onlyArrays ⟨.due, fs⟩ p ⟨st, fs⟩ := by
  obtain ⟨⟨term', tail⟩, opened, done⟩ := bind_eq_ok done
  obtain ⟨rest', closed, done⟩ := map_eq_ok done
  cases done
  obtain rfl := Token.skip_eq_ok.1 closed
  rw [opened] at inside
  obtain ⟨p, st, same, ended, walk, -⟩ := inside
  exact ⟨p, st, same, ended, walk⟩

theorem fails_of_readWithin (f : Frame) (inside : Accounts 0 .due ts (Token.read 0 ts))
    (failed : Token.readWithin f.closing ts = .error e) (fs : List Frame) : Fails ⟨.due, f :: fs⟩ ts e := by
  unfold Token.readWithin at failed
  cases opened : Token.read 0 ts with
  | error e' =>
    rw [opened] at failed inside
    cases failed
    exact inside (f :: fs)
  | ok r =>
    obtain ⟨term, tail⟩ := r
    rw [opened] at failed inside
    obtain ⟨p, st, rfl, ended, walk, rests⟩ := inside
    cases closed : Token.skip f.closing tail with
    | ok rest => simp [Except.bind, closed, Except.map] at failed
    | error e' =>
      simp only [Except.bind, closed, Except.map, Except.error.injEq] at failed
      subst failed
      obtain ⟨rfl, unclosed⟩ := Token.skip_eq_error closed
      -- Neither an index nor an operator goes on, and the closing symbol is not the one that is awaited.
      have stuck := stuck_of_rests (f :: fs) ended rests fun g gs more same => by
        obtain ⟨rfl, rfl⟩ := List.cons.inj same
        exact unclosed more
      exact (Halts.stuck stuck).fails.append (walk (f :: fs))

theorem accounts_group (inside : Accounts 0 .due ts (Token.read 0 ts)) :
    Accounts Token.levels .due (.op .openParen :: ts) (Token.readOperand (.op .openParen :: ts)) := by
  have opens (fs : List Frame) : Walk onlyArrays ⟨.due, fs⟩ [.op .openParen] ⟨.due, .group :: fs⟩ :=
    .step (.group fs) (.done _)
  rw [Token.readOperand_group_eq]
  cases done : Token.readWithin .closeParen ts with
  | error e => exact fun fs => (fails_of_readWithin .group inside done fs).append (opens fs)
  | ok r =>
    obtain ⟨term, rest⟩ := r
    obtain ⟨p, st, rfl, ended, walk⟩ := walk_of_readWithin .group inside done
    have closes (fs : List Frame) : Walk onlyArrays ⟨st, .group :: fs⟩ [.op .closeParen] ⟨.ended, fs⟩ :=
      .step (.close fs ended rfl (by simp)) (.done _)
    refine ⟨[.op .openParen] ++ (p ++ [.op .closeParen]), .ended, by simp [Frame.closing], by simp, ?_,
      rests_levels (by simp) rest⟩
    intro fs
    exact (opens fs).append ((walk (.group :: fs)).append (closes fs))

theorem accounts_item (v : Variable) (inside : Accounts 0 .due ts (Token.read 0 ts)) :
    Accounts Token.levels .due (.named v :: .op .openBracket :: ts)
      (Token.readOperand (.named v :: .op .openBracket :: ts)) := by
  have opens (fs : List Frame) :
      Walk onlyArrays ⟨.due, fs⟩ [.named v, .op .openBracket] ⟨.due, .index v :: fs⟩ :=
    .step (.named fs v) (.step (.index fs v) (.done _))
  rw [Token.readOperand_item_eq]
  cases done : Token.readWithin .closeBracket ts with
  | error e => exact fun fs => (fails_of_readWithin (.index v) inside done fs).append (opens fs)
  | ok r =>
    obtain ⟨term, rest⟩ := r
    obtain ⟨p, st, rfl, ended, walk⟩ := walk_of_readWithin (.index v) inside done
    simp only [Except.bind]
    by_cases array : v.isArray = true
    · rw [if_pos array]
      have closes (fs : List Frame) : Walk onlyArrays ⟨st, .index v :: fs⟩ [.op .closeBracket] ⟨.ended, fs⟩ :=
        .step (.close fs ended rfl fun w same => by cases same; exact array) (.done _)
      refine ⟨[.named v, .op .openBracket] ++ (p ++ [.op .closeBracket]), .ended, by simp [Frame.closing], by simp,
        ?_, rests_levels (by simp) rest⟩
      intro fs
      exact (opens fs).append ((walk (.index v :: fs)).append (closes fs))
    · rw [if_neg array]
      intro fs
      have halts := Halts.misused ended (by simpa using array) fs rest
      exact (halts.fails.append (walk (.index v :: fs))).append (opens fs)

/-- Where an operand is due, nothing else can stand. -/
theorem halts_of_other {o : Operator} (noGroup : o ≠ .openParen) (none : o.unary? = none) (fs : List Frame)
    (rest : List Token) : Halts ⟨.due, fs⟩ (.op o :: rest) (Token.unexpected (.op o :: rest)) := by
  apply Halts.stuck
  intro t more next same advances
  cases same
  cases advances with
  | sign _ applies => simp [applies_iff.1 applies] at none
  | group => exact noGroup rfl
  | join _ ended => exact ended rfl
  | close _ ended => exact ended rfl

/-- What is read as an operand is accounted for if that holds of what is read within groups and indices. -/
theorem accounts_operand (inside : ∀ more, more.length < ts.length → Accounts 0 .due more (Token.read 0 more)) :
    Accounts Token.levels .due ts (Token.readOperand ts) := by
  induction ts with
  | nil =>
    rw [Token.readOperand, Token.readUnary]
    exact fun fs => (Halts.stuck (stuck_nil _)).fails
  | cons first more ih =>
    cases first with
    | literal value type =>
      rw [Token.readOperand_literal]
      exact ⟨[.literal value type], .ended, rfl, by simp, fun fs => .step (.literal fs value type) (.done _),
        rests_levels (by simp) more⟩
    | call function argument =>
      rw [Token.readOperand_call]
      exact ⟨[.call function argument], .ended, rfl, by simp,
        fun fs => .step (.call fs function argument) (.done _), rests_levels (by simp) more⟩
    | named v =>
      by_cases bracket : ∃ index, more = .op .openBracket :: index
      · obtain ⟨index, rfl⟩ := bracket
        exact accounts_item v (inside index (by simp only [List.length_cons]; omega))
      · have alone (index : List Token) : more ≠ .op .openBracket :: index := fun same => bracket ⟨index, same⟩
        rw [Token.readOperand_named v alone]
        refine ⟨[.named v], .named v, rfl, by simp, fun fs => .step (.named fs v) (.done _), ?_⟩
        rintro o index rfl
        exact ⟨fun opens => absurd (by rw [opens]) (alone index), fun s op joins => joins.level_lt⟩
    | op o =>
      by_cases paren : o = .openParen
      · subst paren
        exact accounts_group (inside more (by simp))
      · cases one : o.unary? with
        | none =>
          rw [Token.readOperand_other paren one]
          exact fun fs => (halts_of_other paren one fs more).fails
        | some sign =>
          rw [Token.readOperand_sign one]
          have signs (fs : List Frame) : Walk onlyArrays ⟨.due, fs⟩ [.op o] ⟨.due, fs⟩ :=
            .step (.sign fs (applies_iff.2 one)) (.done _)
          exact accounts_append signs (accounts_map (ih fun ts less => inside ts (Nat.lt_succ_of_lt less)))

end Operands

/-! ### Operators -/

section Operators
variable {n : Nat} {st : Stance} {ts : List Token} {e : SyntaxError}

theorem exists_joins {o : Operator} {op : BinaryOp} (two : o.binary? = some op) : ∃ s, Joins s o op := by
  cases o <;> cases two <;> exact ⟨_, by constructor⟩

/-- Going on with the operators of a level is accounted for if what is read at the next level is. -/
theorem accounts_readOn (left : Term) (ended : st ≠ .due) (rests : Rests (n + 1) st ts)
    (next : ∀ more, more.length < ts.length → Accounts (n + 1) .due more (Token.read (n + 1) more)) :
    Accounts n st ts (Token.readOn n left ts) := by
  induction size : ts.length using Nat.strongRecOn generalizing ts left st with
  | ind k ih =>
    by_cases goes : ∃ o more op, ts = .op o :: more ∧ o.binary? = some op ∧ op.level = n
    · obtain ⟨o, more, op, rfl, two, level⟩ := goes
      rw [Token.readOn_operator two level]
      obtain ⟨s, joins⟩ := exists_joins two
      have passes (fs : List Frame) : Walk onlyArrays ⟨st, fs⟩ [.op o] ⟨.due, fs⟩ :=
        .step (.join fs ended joins) (.done _)
      rw [List.length_cons] at size
      refine accounts_append passes (accounts_bind (next more (by simp)) ?_)
      intro right rest st' shorter ended' rests'
      exact ih rest.length (by omega) _ ended' rests' (fun ts less => next ts (by simp only [List.length_cons]; omega))
        rfl
    · rw [Token.readOn_of_stops]
      · refine ⟨[], st, rfl, ended, fun fs => .done _, fun o more same => ?_⟩
        obtain ⟨unindexed, looser⟩ := rests o more same
        refine ⟨unindexed, fun s op joins => ?_⟩
        obtain ⟨two, level⟩ := joins_iff.1 joins
        have bound := looser s op joins
        have other : op.level ≠ n := fun here => goes ⟨o, more, op, same, two, here⟩
        omega
      · intro o more op same two level
        exact goes ⟨o, more, op, same, two, level⟩

/-- A level of operators is accounted for if the operands are. The induction is on the levels above. -/
theorem accounts_level (operand : ∀ more, more.length ≤ ts.length →
      Accounts Token.levels .due more (Token.readOperand more)) (k : Nat) (level : n + k = Token.levels) :
    Accounts n .due ts (Token.read n ts) := by
  induction k generalizing n ts with
  | zero =>
    obtain rfl : n = Token.levels := level
    rw [Token.read_of_le (Nat.le_refl _)]
    exact operand ts (Nat.le_refl _)
  | succ k ih =>
    have next (more : List Token) (le : more.length ≤ ts.length) :
        Accounts (n + 1) .due more (Token.read (n + 1) more) :=
      ih (fun inner less => operand inner (by omega)) (by omega)
    rw [Token.read_of_lt (by omega)]
    refine accounts_bind (next ts (Nat.le_refl _)) ?_
    intro left rest st shorter ended rests
    exact accounts_readOn left ended rests fun more less => next more (by omega)

/-- Reading is accounted for at every level. The induction is on the length, since what is within groups and indices
is shorter. -/
theorem accounts_read (ts : List Token) : Accounts 0 .due ts (Token.read 0 ts) := by
  induction size : ts.length using Nat.strongRecOn generalizing ts with
  | ind k ih =>
    have operand (more : List Token) (le : more.length ≤ ts.length) :
        Accounts Token.levels .due more (Token.readOperand more) :=
      accounts_operand fun inner less => ih _ (by omega) inner rfl
    exact accounts_level operand Token.levels (Nat.zero_add _)

/-- An error of the reader comes from where the walk from the start halts. -/
theorem fails_of_parse (nested : Token.matchDelimiters [] ts = .ok ()) (rejected : Token.parse ts = .error e) :
    Fails .start ts e := by
  have accounts := accounts_read ts
  unfold Token.parse at rejected
  unfold Token.read at accounts
  rw [nested] at rejected
  cases opened : Token.readLevel 0 ts with
  | error e' =>
    rw [opened] at rejected accounts
    cases rejected
    exact accounts []
  | ok r =>
    obtain ⟨⟨term, rest⟩, fits⟩ := r
    rw [opened] at rejected accounts
    obtain ⟨p, st, rfl, ended, walk, rests⟩ := accounts
    have halts : Halts ⟨st, []⟩ rest (Token.unexpected rest) := .stuck (stuck_of_rests [] ended rests (by simp))
    cases rest with
    | nil => cases rejected
    | cons t rest =>
      cases rejected
      exact halts.fails.append (walk [])

end Operators

/-! ### The first offence -/

section Offence
variable {p q rest ts more : List Token} {v : Variable} {place : Place} {st : Stance} {fs : List Frame}

/-- Where only arrays are indexed, nothing is misused. -/
theorem Walk.not_misused (walk : Walk onlyArrays .start p place) (starts : q <+: p) (ends : EndsIndex v q) :
    v.isArray = true := by
  obtain ⟨further, rfl⟩ := starts
  obtain ⟨there, first, -⟩ := walk.split
  exact (ends.walk first).1

/-- The first index that is refused is the first misuse, in whatever goes on after it. -/
theorem firstMisuse_of_walk (walk : Walk onlyArrays .start q ⟨st, .index v :: fs⟩) (ended : st ≠ .due)
    (scalar : v.isArray = false) (starts : q ++ [.op .closeBracket] <+: p) :
    FirstMisuse v (q ++ [.op .closeBracket]) p where
  starts := starts
  ends := walk.endsIndex ended
  misused := scalar
  first := by
    intro v' q' starts' ends misused
    by_contra shorter
    have before : q' <+: q := by
      refine List.prefix_of_prefix_length_le starts' ((List.prefix_append q _).trans starts) ?_
      simp only [List.length_append, List.length_singleton] at shorter
      omega
    simp [walk.not_misused before ends] at misused

theorem FirstMisuse.unique {v' : Variable} {q' : List Token} (first : FirstMisuse v q p)
    (second : FirstMisuse v' q' p) (viable : StartsSentence p) : v' = v ∧ q' = q := by
  have le := first.first v' q' second.starts second.ends second.misused
  have ge := second.first v q first.starts first.ends first.misused
  obtain rfl : q' = q :=
    (List.prefix_of_prefix_length_le second.starts first.starts ge).eq_of_length (by omega)
  obtain ⟨place, walk⟩ := viable.exists_walk
  obtain ⟨further, rfl⟩ := first.starts
  obtain ⟨there, before, -⟩ := walk.split
  exact ⟨second.ends.unique first.ends before, rfl⟩

/-- If nothing can follow an operand, the walk ends behind it. -/
theorem stuck_of_not_canFollow (blocked : Token.canFollow rest = false) : Stuck ⟨.ended, fs⟩ rest := by
  rintro t more next rfl advances
  cases advances with
  | join _ _ joins => simp [Token.canFollow, (joins_iff.1 joins).1] at blocked
  | @close _ _ _ f _ closes =>
    subst closes
    cases f <;> simp [Token.canFollow, Frame.closing] at blocked

/-- A closing symbol closes the innermost frame, if delimiters match. -/
theorem exists_frame_of_matched {o : Operator} (closing : o = .closeParen ∨ o = .closeBracket)
    (matched : Token.matchDelimiters (closings fs) (.op o :: more) = .ok ()) :
    ∃ f fs', fs = f :: fs' ∧ o = f.closing := by
  cases fs with
  | nil => rcases closing with rfl | rfl <;> cases matched
  | cons f fs =>
    refine ⟨f, fs, rfl, ?_⟩
    rcases closing with rfl | rfl <;> cases f <;>
      simp_all [closings, Frame.closing, Token.matchDelimiters]

/-- What can follow an operand is walked on, if delimiters match. -/
theorem exists_advances_of_canFollow {t : Token} (follows : Token.canFollow (t :: more) = true)
    (matched : Token.matchDelimiters (closings fs) (t :: more) = .ok ()) :
    ∃ next, Advances anyVariable ⟨.ended, fs⟩ t next := by
  cases t with
  | op o =>
    cases two : o.binary? with
    | some op =>
      obtain ⟨s, joins⟩ := exists_joins two
      exact ⟨_, .join fs (by simp) joins⟩
    | none =>
      have closing : o = .closeParen ∨ o = .closeBracket := by simpa [Token.canFollow, two] using follows
      obtain ⟨f, fs', rfl, closes⟩ := exists_frame_of_matched closing matched
      exact ⟨_, .close fs' (by simp) closes fun _ _ => trivial⟩
  | _ => simp [Token.canFollow] at follows

/-- The bracket of an index is closed whether its variable is an array or not. -/
theorem Walk.closed (walk : Walk onlyArrays .start q ⟨st, .index v :: fs⟩) (ended : st ≠ .due) :
    Walk anyVariable .start (q ++ [.op .closeBracket]) ⟨.ended, fs⟩ :=
  walk.any.append (.step (.close fs ended rfl fun _ _ => trivial) (.done _))

theorem LongestStart.starts_of_walk (longest : LongestStart p ts) (walk : Walk anyVariable .start q place)
    (starts : q <+: ts) : q <+: p :=
  List.prefix_of_prefix_length_le starts longest.starts
    (longest.longest q starts (startsSentence_iff_walk.2 ⟨place, walk⟩))

/-- The reader complains about the first misuse, if it comes to it, and otherwise about what stands behind the longest
start. It does not come to a misuse that ends the longest start while more tokens follow. -/
def Complains (e : SyntaxError) (p ts : List Token) : Prop :=
  (∀ v q, FirstMisuse v q p → q ≠ p ∨ p = ts → e = .notArray v.name) ∧
  ((∀ v q, FirstMisuse v q p → q = p ∧ p ≠ ts) → ∀ rest, ts = p ++ rest → e = Token.unexpected rest)

theorem Walk.complains (walk : Walk onlyArrays .start p place) (rest : List Token) :
    Complains (Token.unexpected rest) p (p ++ rest) := by
  constructor
  · intro v q misuse
    have array := walk.not_misused misuse.starts misuse.ends
    rw [misuse.misused] at array
    cases array
  · intro _ rest' same
    rw [List.append_cancel_left same]

/-- Behind the bracket of a misused index something can follow. -/
theorem Walk.complains_of_follows (walk : Walk onlyArrays .start q ⟨st, .index v :: fs⟩) (ended : st ≠ .due)
    (scalar : v.isArray = false) (nested : Token.matchDelimiters [] (q ++ .op .closeBracket :: more) = .ok ())
    (follows : Token.canFollow more = true) (longest : LongestStart p (q ++ .op .closeBracket :: more)) :
    Complains (.notArray v.name) p (q ++ .op .closeBracket :: more) := by
  have closed := walk.closed ended
  have starts := longest.starts_of_walk closed ⟨more, by simp⟩
  have first := firstMisuse_of_walk walk ended scalar starts
  have notLast : q ++ [.op .closeBracket] ≠ p ∨ p = q ++ .op .closeBracket :: more := by
    cases more with
    | nil => exact .inr (longest.starts.eq_of_length_le starts.length_le)
    | cons t more =>
      -- The token behind the bracket can be walked on, so the longest start is longer.
      refine .inl fun same => ?_
      have matched : Token.matchDelimiters (closings fs) (t :: more) = .ok () :=
        closed.matched (by simpa using nested)
      obtain ⟨next, advances⟩ := exists_advances_of_canFollow follows matched
      have further := closed.append (.step advances (.done next))
      have longer := (longest.starts_of_walk further ⟨more, by simp⟩).length_le
      rw [← same] at longer
      simp at longer
  constructor
  · intro v' q' misuse _
    obtain ⟨rfl, -⟩ := misuse.unique first longest.viable
    rfl
  · intro hidden
    obtain ⟨same, more⟩ := hidden v _ first
    exact absurd notLast (by simp [same, more])

theorem Walk.complains_of_blocked (walk : Walk onlyArrays .start q ⟨st, .index v :: fs⟩) (ended : st ≠ .due)
    (scalar : v.isArray = false) (blocked : Token.canFollow more = false)
    (longest : LongestStart p (q ++ .op .closeBracket :: more)) :
    Complains (Token.unexpected more) p (q ++ .op .closeBracket :: more) := by
  have closed := walk.closed ended
  have whole : q ++ .op .closeBracket :: more = (q ++ [.op .closeBracket]) ++ more := by simp
  rw [whole] at longest ⊢
  obtain rfl := longest.unique (closed.longestStart (stuck_of_not_canFollow blocked))
  have first := firstMisuse_of_walk walk ended scalar (List.prefix_refl _)
  constructor
  · intro v' q' misuse shown
    obtain ⟨-, rfl⟩ := misuse.unique first longest.viable
    cases more with
    | nil => cases blocked
    | cons t more => simp at shown
  · intro _ rest same
    rw [List.append_cancel_left same]

theorem Fails.complains {e : SyntaxError} (fails : Fails .start ts e)
    (nested : Token.matchDelimiters [] ts = .ok ()) (longest : LongestStart p ts) : Complains e p ts := by
  obtain ⟨q, rest, place, rfl, walk, halts⟩ := fails
  cases halts with
  | stuck stuck =>
    obtain rfl := longest.unique (walk.longestStart stuck)
    exact walk.complains _
  | misused ended scalar fs more =>
    cases follows : Token.canFollow more with
    | true => exact walk.complains_of_follows ended scalar nested follows longest
    | false => exact walk.complains_of_blocked ended scalar follows longest

end Offence

end Flowchart.Grammar

namespace Flowchart
open Grammar

theorem fails_of_term_parse {es : List Element} {ts : List Token} {e : SyntaxError}
    (made : Element.tokens es = .ok ts) (nested : Token.matchDelimiters [] ts = .ok ())
    (rejected : Term.parse es = .error e) : Fails .start ts e := by
  unfold Term.parse at rejected
  rw [made] at rejected
  exact fails_of_parse nested rejected

/-- What is said of elements that are rejected although their delimiters match. They have one longest start that
starts a sentence. If the index of a variable that is no array ends in it, the first such index is blamed, unless it
ends with the start and more tokens follow. Otherwise the token behind the start is blamed, or the end. -/
theorem Term.parse_blames_first_offence {es : List Element} {ts : List Token} {e : SyntaxError}
    (made : Element.tokens es = .ok ts) (nested : Token.matchDelimiters [] ts = .ok ())
    (rejected : Term.parse es = .error e) :
    (∃ p, LongestStart p ts) ∧ ∀ p, LongestStart p ts →
      (∀ v q, FirstMisuse v q p → q ≠ p ∨ p = ts →
        e.message = "Variable \"" ++ v.name ++ "\" is not an array and cannot be indexed.") ∧
      ((∀ v q, FirstMisuse v q p → q = p ∧ p ≠ ts) →
        (p = ts → e.message = "Unexpected end of expression") ∧
        ∀ t rest, ts = p ++ t :: rest → e.message = "Unexpected token '" ++ t.shown ++ "'") := by
  refine ⟨exists_longestStart ts, fun p longest => ?_⟩
  obtain ⟨misused, otherwise⟩ := (fails_of_term_parse made nested rejected).complains nested longest
  refine ⟨fun v q misuse comes => ?_, fun hidden => ⟨fun whole => ?_, fun t rest same => ?_⟩⟩
  · rw [misused v q misuse comes]
    rfl
  · rw [otherwise hidden [] (by rw [List.append_nil, whole])]
    rfl
  · rw [otherwise hidden _ same]
    rfl

/-! ### A number at a place -/

/-- A number, which has no items. -/
def Variable.count : Variable :=
  .make "n" .integer "count" none none none []

/-- The number with itself as index. -/
def Element.countAt : List Element :=
  [.attached "c" .count, .operator "o" "[", .attached "i" .count, .operator "e" "]"]

def Token.countAt : List Token :=
  [.named .count, .op .openBracket, .named .count, .op .closeBracket]

theorem Element.tokens_countAt {es : List Element} {ts : List Token} (made : Element.tokens es = .ok ts) :
    Element.tokens (Element.countAt ++ es) = .ok (Token.countAt ++ ts) := by
  rw [Element.tokens_eq_ok] at made ⊢
  refine .cons ?_ (.cons ?_ (.cons ?_ (.cons ?_ made)))
  · exact .attached "c" .count
  · exact .operator "o" (by decide)
  · exact .attached "i" .count
  · exact .operator "e" (by decide)

/-- The number cannot be indexed, whatever follows. -/
theorem Term.exists_parse_countAt_eq_error {es : List Element} {ts : List Token} (made : Element.tokens es = .ok ts) :
    ∃ e, Term.parse (Element.countAt ++ es) = .error e := by
  cases read : Term.parse (Element.countAt ++ es) with
  | error e => exact ⟨e, rfl⟩
  | ok t =>
    obtain ⟨tree, ⟨spelled, chain⟩, -⟩ := Term.parse_eq_ok.1 read
    rw [← Except.ok.inj ((Element.tokens_countAt made).symm.trans spelled)] at chain
    exact absurd ((List.isChain_cons_cons.1 chain).1 .count rfl rfl) (by decide)

theorem walk_count : Walk onlyArrays .start [.named .count, .op .openBracket, .named .count]
    ⟨.named .count, [.index .count]⟩ :=
  .step (.named [] .count) (.step (.index [] .count) (.step (.named [.index .count] .count) (.done _)))

theorem walk_countAt : Walk anyVariable .start Token.countAt ⟨.ended, []⟩ :=
  walk_count.closed (by simp)

theorem firstMisuse_countAt {p : List Token} (starts : Token.countAt <+: p) : FirstMisuse .count Token.countAt p :=
  firstMisuse_of_walk walk_count (by simp) rfl starts

/-- In a sum the number is blamed for its index. -/
theorem Term.parse_blames_indexed_count :
    ∃ e, Term.parse (Element.countAt ++ [.operator "p" "+", .attached "s" .count]) = .error e ∧
      e.message = "Variable \"count\" is not an array and cannot be indexed." := by
  have made : Element.tokens [.operator "p" "+", .attached "s" .count] = .ok [.op .plus, .named .count] := rfl
  obtain ⟨e, rejected⟩ := Term.exists_parse_countAt_eq_error made
  have sum : Walk anyVariable .start (Token.countAt ++ [.op .plus, .named .count]) ⟨.named .count, []⟩ :=
    walk_countAt.append (.step (.join [] (by simp) .plus) (.step (.named [] .count) (.done _)))
  have longest : LongestStart (Token.countAt ++ [.op .plus, .named .count])
      (Token.countAt ++ [.op .plus, .named .count]) :=
    sum.longestStart (stuck_nil _)
  obtain ⟨-, blames⟩ := Term.parse_blames_first_offence (Element.tokens_countAt made) rfl rejected
  exact ⟨e, rejected, (blames _ longest).1 _ _ (firstMisuse_countAt (List.prefix_append _ _)) (.inr rfl)⟩

/-- The first misuse is not always blamed: if a number with an index is followed by an operand, the operand is. -/
theorem Term.parse_blames_operand_behind_misuse :
    ¬∀ es ts e p v q, Element.tokens es = .ok ts → Token.matchDelimiters [] ts = .ok () →
      Term.parse es = .error e → LongestStart p ts → FirstMisuse v q p →
      e.message = "Variable \"" ++ v.name ++ "\" is not an array and cannot be indexed." := by
  intro always
  have made : Element.tokens [.attached "s" .count] = .ok [.named .count] := rfl
  obtain ⟨e, rejected⟩ := Term.exists_parse_countAt_eq_error made
  have longest : LongestStart Token.countAt (Token.countAt ++ [.named .count]) :=
    walk_countAt.longestStart (stuck_of_not_canFollow rfl)
  have hidden (v : Variable) (q : List Token) (misuse : FirstMisuse v q Token.countAt) :
      q = Token.countAt ∧ Token.countAt ≠ Token.countAt ++ [.named .count] := by
    have first := firstMisuse_countAt (List.prefix_refl _)
    exact ⟨(first.unique misuse longest.viable).2, by simp⟩
  have blamed : e = .unexpectedToken "count" :=
    (Fails.complains (fails_of_term_parse (Element.tokens_countAt made) rfl rejected) rfl longest).2 hidden _ rfl
  have told := always _ _ e _ _ _ (Element.tokens_countAt made) rfl rejected longest
    (firstMisuse_countAt (List.prefix_refl _))
  rw [blamed] at told
  exact absurd told (by decide)

end Flowchart
