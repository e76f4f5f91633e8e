import Flowchart.Term.Parse
/-! What holds of every term that is read. Reading makes terms in six ways; a property that these keep
holds of the term that a sequence of elements is read as. -/
namespace Flowchart

/-- A result is the one of the steps it was made in. -/
theorem bind_eq_ok {ε α β : Type} {first : Except ε α} {next : α → Except ε β} {result : β}
    (made : first.bind next = .ok result) : ∃ a, first = .ok a ∧ next a = .ok result := by
  cases first with
  | error e => cases made
  | ok a => exact ⟨a, rfl, made⟩

theorem map_eq_ok {ε α β : Type} {first : Except ε α} {f : α → β} {result : β}
    (made : first.map f = .ok result) : ∃ a, first = .ok a ∧ f a = result := by
  cases first with
  | error e => cases made
  | ok a => exact ⟨a, rfl, Except.ok.inj made⟩

/-- A property of terms that the ways of reading keep. -/
structure Term.Kept (holds : Term → Prop) : Prop where
  literal : ∀ text, holds (.literal (Literal.infer text).value (Literal.infer text).type)
  call : ∀ name argument, holds argument → holds (.call (.ofName name) argument)
  named : ∀ v : Variable, holds (.named v.name v)
  access : ∀ (v : Variable) (index : Term), v.isArray = true → holds index →
    holds (.access v.name v.base index)
  unary : ∀ op operand, holds operand → holds (.unary op operand)
  binary : ∀ op left right, holds left → holds right → holds (.binary op left right)

namespace Token
variable {holds : Term → Prop}

/-- What a token brings along has the property. -/
def Carries (holds : Term → Prop) : Token → Prop
  | .literal value type => holds (.literal value type)
  | .call function argument => holds (.call function argument)
  | .named _ => True
  | .op _ => True

theorem mem_of_expect {o : Operator} {ts : List Token} {r : { rest // weights rest + 1 = weights ts }}
    (dropped : expect o ts = .ok r) : ∀ t ∈ r.1, t ∈ ts := by
  unfold expect at dropped
  split at dropped
  · split at dropped
    · cases dropped
      exact fun t later => List.mem_cons_of_mem _ later
    · cases dropped
  · cases dropped
  · cases dropped

/-- Whatever is read off the start of the tokens has the property, and so have the tokens left. -/
def ReadsAs (holds : Term → Prop) (ts : List Token) : Prop :=
  ∀ n (r : Read (weights ts)), readLevel n ts = .ok r → holds r.1.1 ∧ ∀ t ∈ r.1.2, t.Carries holds

/-! One step of each reader, given the property for fewer tokens. -/

section Steps
variable (kept : Term.Kept holds) {ts : List Token} (all : ∀ t ∈ ts, t.Carries holds)
  (shorter : ∀ rest, weights rest < weights ts → (∀ t ∈ rest, t.Carries holds) → ReadsAs holds rest)
include kept all shorter

theorem holds_of_readUnary {r : Read (weights ts)} (read : Token.readUnary ts = .ok r) :
    holds r.1.1 ∧ ∀ t ∈ r.1.2, t.Carries holds := by
  induction ts with
  | nil => rw [Token.readUnary] at read; cases read
  | cons first rest ih =>
    have here : first.Carries holds := all first List.mem_cons_self
    have tail : ∀ t ∈ rest, t.Carries holds := fun t later => all t (List.mem_cons_of_mem _ later)
    cases first with
    | literal value type =>
      rw [Token.readUnary] at read
      cases read
      exact ⟨here, tail⟩
    | call function argument =>
      rw [Token.readUnary] at read
      cases read
      exact ⟨here, tail⟩
    | named v =>
      by_cases bracket : ∃ more, rest = .op .openBracket :: more
      · obtain ⟨more, rfl⟩ := bracket
        have fewer : weights more < weights (.named v :: .op .openBracket :: more) := by
          simp only [weights, weight, Variable.weight_eq]
          omega
        rw [Token.readUnary] at read
        split at read
        · cases read
        · next index left fits inside =>
          obtain ⟨known, after⟩ :=
            shorter more fewer (fun t later => tail t (List.mem_cons_of_mem _ later)) 0 _ inside
          split at read
          · cases read
          · next closed =>
            split at read
            · next isArray =>
              cases read
              exact ⟨kept.access v index isArray known, fun t later => after t (mem_of_expect closed t later)⟩
            · split at read <;> cases read
      · rw [Token.readUnary] at read
        · cases read
          exact ⟨kept.named v, tail⟩
        · exact fun more same => bracket ⟨more, same⟩
    | op o =>
      have fewer : weights rest < weights (.op o :: rest) := by
        simp only [weights, weight]
        omega
      by_cases paren : o = .openParen
      · subst paren
        rw [Token.readUnary] at read
        split at read
        · cases read
        · next inside left fits opened =>
          obtain ⟨known, after⟩ := shorter rest fewer tail 0 _ opened
          split at read
          · cases read
          · next closed =>
            cases read
            exact ⟨known, fun t later => after t (mem_of_expect closed t later)⟩
      · rw [Token.readUnary] at read
        · split at read
          · next operation _ =>
            split at read
            · cases read
            · next operand left fits applied =>
              obtain ⟨known, after⟩ :=
                ih tail (fun more less => shorter more (Nat.lt_trans less fewer)) applied
              cases read
              exact ⟨kept.unary operation operand known, after⟩
          · cases read
        · exact paren

theorem holds_of_readMore {n k : Nat} {left : Term} (known : holds left) {r : Read (left.weight + weights ts)}
    (read : Token.readMore n left ts = .ok r) (size : weights ts = k) :
    holds r.1.1 ∧ ∀ t ∈ r.1.2, t.Carries holds := by
  induction k using Nat.strongRecOn generalizing ts left with
  | ind k ih =>
    cases ts with
    | nil =>
      rw [Token.readMore] at read
      cases read
      exact ⟨known, all⟩
    | cons first rest =>
      cases first with
      | op o =>
        rw [Token.readMore] at read
        split at read
        · next operation _ =>
          split at read
          · split at read
            · cases read
            · next right after fits second =>
              have fewer : weights rest < weights (.op o :: rest) := by
                simp only [weights, weight]
                omega
              have less : weights after < weights (.op o :: rest) := by
                have := right.weight_pos
                simp only [weights, weight] at fits ⊢
                omega
              obtain ⟨knownRight, afterFit⟩ :=
                shorter rest fewer (fun t later => all t (List.mem_cons_of_mem _ later)) _ _ second
              split at read
              · cases read
              · next more =>
                cases read
                exact ih _ (size ▸ less) afterFit (fun ts fewer => shorter ts (Nat.lt_trans fewer less))
                  (kept.binary operation left right known knownRight) more rfl
          · cases read
            exact ⟨known, all⟩
        · cases read
          exact ⟨known, all⟩
      | _ =>
        rw [Token.readMore] at read
        · cases read
          exact ⟨known, all⟩
        · simp

end Steps

theorem readsAs (kept : Term.Kept holds) (ts : List Token) (all : ∀ t ∈ ts, t.Carries holds) :
    ReadsAs holds ts := by
  induction size : weights ts using Nat.strongRecOn generalizing ts with
  | ind k ih =>
    have shorter (rest : List Token) (fewer : weights rest < weights ts)
        (fits : ∀ t ∈ rest, t.Carries holds) : ReadsAs holds rest := ih _ (size ▸ fewer) rest fits rfl
    intro n
    -- the levels above read the same tokens, so they need an induction of their own
    induction above : levels - n generalizing n with
    | zero =>
      intro r read
      rw [Token.readLevel, if_neg (by omega)] at read
      exact holds_of_readUnary kept all shorter read
    | succ above inner =>
      intro r read
      rw [Token.readLevel, if_pos (by omega)] at read
      split at read
      · cases read
      · next left rest fits first =>
        obtain ⟨known, after⟩ := inner (n + 1) (by omega) _ first
        have fewer : weights rest < weights ts := by
          have := left.weight_pos
          simp only at fits
          omega
        split at read
        · cases read
        · next more =>
          cases read
          exact holds_of_readMore kept after (fun ts less => shorter ts (Nat.lt_trans less fewer)) known more
            rfl

theorem holds_of_parse (kept : Term.Kept holds) {ts : List Token} {t : Term}
    (all : ∀ t ∈ ts, t.Carries holds) (read : Token.parse ts = .ok t) : holds t := by
  unfold Token.parse at read
  split at read
  · cases read
  · split at read
    · cases read
    · next first =>
      cases read
      exact (readsAs kept ts all 0 _ first).1
    · cases read

end Token

mutual
theorem Element.carries_token {holds : Term → Prop} (kept : Term.Kept holds) (e : Element) {t : Token}
    (made : e.token = .ok t) : t.Carries holds := by
  cases e with
  | literal id text =>
    simp only [Element.token, Except.ok.injEq] at made
    subst made
    exact kept.literal text
  | operator id symbol =>
    simp only [Element.token] at made
    split at made <;> cases made
    trivial
  | function id name argument =>
    simp only [Element.token] at made
    split at made
    · next read =>
      cases made
      exact kept.call name _ (Expression.holds_of_parse kept argument read)
    · cases made
  | attached id v =>
    simp only [Element.token, Except.ok.injEq] at made
    subst made
    trivial
  | unattached => simp [Element.token] at made
theorem Element.carries_tokens {holds : Term → Prop} (kept : Term.Kept holds) (es : List Element)
    {ts : List Token} (made : Element.tokens es = .ok ts) : ∀ t ∈ ts, t.Carries holds := by
  cases es with
  | nil =>
    simp only [Element.tokens, Except.ok.injEq] at made
    subst made
    simp
  | cons e rest =>
    simp only [Element.tokens] at made
    split at made
    · cases made
    · next first =>
      split at made
      · cases made
      · next others =>
        cases made
        exact List.forall_mem_cons.2
          ⟨Element.carries_token kept e first, Element.carries_tokens kept rest others⟩
theorem Expression.holds_of_parse {holds : Term → Prop} (kept : Term.Kept holds) (e : Expression) {t : Term}
    (read : e.parse = .ok t) : holds t := by
  have ofTokens {right : List Element}
      (carries : ∀ ts, Element.tokens right = .ok ts → ∀ t ∈ ts, t.Carries holds)
      (read : (Element.tokens right).bind Token.parse = .ok t) : holds t := by
    cases made : Element.tokens right with
    | error err => rw [made] at read; cases read
    | ok ts =>
      rw [made] at read
      exact Token.holds_of_parse kept (carries ts made) read
  cases e with
  | value right =>
    simp only [Expression.parse] at read
    exact ofTokens (fun _ => Element.carries_tokens kept right) read
  | assignment _ right =>
    simp only [Expression.parse] at read
    exact ofTokens (fun _ => Element.carries_tokens kept right) read
  | condition _ _ right =>
    simp only [Expression.parse] at read
    exact ofTokens (fun _ => Element.carries_tokens kept right) read
  | halfCondition _ right =>
    simp only [Expression.parse] at read
    exact ofTokens (fun _ => Element.carries_tokens kept right) read
end

/-- A property that the ways of reading keep holds of every term that is read. -/
theorem Term.holds_of_parse {holds : Term → Prop} (kept : Term.Kept holds) {es : List Element} {t : Term}
    (read : Term.parse es = .ok t) : holds t :=
  Expression.holds_of_parse kept (.value es) (by rw [Expression.parse_eq]; exact read)

end Flowchart
