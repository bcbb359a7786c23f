import Stencil.Expr.Printer
import Stencil.Number.Literal
import Stencil.Token.Parsed

/-!
# Reading expressions

An expression is read by **levels** of precedence, from the loosest to the tightest:

| level | forms | grouping |
|---|---|---|
| ternary | `a ? b : c` | to the right |
| disjunction | `or` | to the left |
| conjunction | `and` | to the left |
| negation | `not` | prefix |
| comparison | `==` `!=` `<` `>` `<=` `>=` `in` `not in` `is` `is not` | to the left |
| range | `..` | at most one |
| concatenation | `~` | to the left |
| sum | `+` `-` | to the left |
| product | `*` `/` `//` `%` | to the left |
| sign | `-` `+` | prefix |
| power | `**`, whose exponent is a sign | to the right |
| suffixed | `.name` `[index]` `(args)` `\|filter(args)` | to the left |
| primary | literals, variables, lists, maps, parentheses | |

Reading takes as many tokens as belong to the expression and leaves the others, always
fewer than there were.
-/

namespace Stencil.Expr

open Token

/-! ### Precedence -/

/-- The levels of precedence. -/
inductive Precedence where
  | ternary
  | disjunction
  | conjunction
  | negation
  | comparison
  | range
  | concatenation
  | sum
  | product
  | sign
  | power
  | suffixed
  | primary
  deriving DecidableEq, Repr

namespace Precedence

/-- How many levels are tighter. -/
def rank : Precedence → Nat
  | ternary => 12
  | disjunction => 11
  | conjunction => 10
  | negation => 9
  | comparison => 8
  | range => 7
  | concatenation => 6
  | sum => 5
  | product => 4
  | sign => 3
  | power => 2
  | suffixed => 1
  | primary => 0

theorem rank_le (level : Precedence) : level.rank ≤ 12 := by
  cases level <;> decide

end Precedence

/-- What a reader has before it: tokens, and among readers of the same tokens those that it
may go on to. -/
def weight (ts : List Token) (kind : Nat) : Nat :=
  26 * ts.length + kind

/-- The operator of a chain of this level that the token spells. -/
def binaryOp? (level : Precedence) (t : Token) : Option BinaryOp :=
  match level, t.kind, t.text with
  | .disjunction, .identifier, "or" => some .or
  | .conjunction, .identifier, "and" => some .and
  | .comparison, .operator, "==" => some .eq
  | .comparison, .operator, "!=" => some .ne
  | .comparison, .operator, "<" => some .lt
  | .comparison, .operator, ">" => some .gt
  | .comparison, .operator, "<=" => some .le
  | .comparison, .operator, ">=" => some .ge
  | .comparison, .identifier, "in" => some .mem
  | .concatenation, .operator, "~" => some .concat
  | .sum, .operator, "+" => some .add
  | .sum, .operator, "-" => some .sub
  | .product, .operator, "*" => some .mul
  | .product, .operator, "//" => some .floorDiv
  | .product, .operator, "/" => some .div
  | .product, .operator, "%" => some .rem
  | _, _, _ => none

/-- Takes the operator that goes on a chain of this level, if one comes next. Only
`not in` has two tokens. -/
def takeOperator? (level : Precedence) (ts : List Token) : Option (Parsed BinaryOp ts) :=
  match ts with
  | [] => none
  | t :: rest =>
    match binaryOp? level t with
    | some op => some (.one op t rest)
    | none =>
      if level = .comparison && t.isId "not" then
        (dropId? "in" rest).map fun word =>
          (Parsed.one () t rest).andThen (word.map fun _ => .notMem)
      else none

/-- The value of a number literal. -/
def literal? (text : String) : Except GrammarFault Value :=
  let v :=
    if text.toList.contains '.' then (Number.interpretNumber? text none).map Value.float
    else (Number.interpretInteger? text none).map Value.int
  match v with
  | some v => .ok v
  | none => .error (.badNumber text)

/-- The literal or the variable that a word is. -/
def ofWord (name : String) : Expr :=
  match name with
  | "true" | "TRUE" => .literal (.bool true)
  | "false" | "FALSE" => .literal (.bool false)
  | "null" | "none" | "NULL" | "NONE" => .literal .null
  | _ => .var name

/-! ### The levels -/

mutual

/-- Reads an expression of a level. -/
def parseAt (level : Precedence) (ts : List Token) : Except GrammarFault (Parsed Expr ts) :=
  match level with
  | .ternary => do
    let ⟨cond, ts₁, h₁⟩ ← parseAt .disjunction ts
    match dropOp? "?" ts₁ with
    | none => return ⟨cond, ts₁, h₁⟩
    | some ⟨_, ts₂, h₂⟩ =>
      let ⟨yes, ts₃, h₃⟩ ← parseAt .ternary ts₂
      let ⟨_, ts₄, h₄⟩ ← needOp ":" ts₃
      let ⟨no, ts₅, h₅⟩ ← parseAt .ternary ts₄
      return ⟨.ternary cond yes no, ts₅, by omega⟩
  | .disjunction => do
    let ⟨left, ts₁, h₁⟩ ← parseAt .conjunction ts
    let ⟨e, ts₂, h₂⟩ ← parseChain .disjunction .conjunction left ts₁
    return ⟨e, ts₂, by omega⟩
  | .conjunction => do
    let ⟨left, ts₁, h₁⟩ ← parseAt .negation ts
    let ⟨e, ts₂, h₂⟩ ← parseChain .conjunction .negation left ts₁
    return ⟨e, ts₂, by omega⟩
  | .negation =>
    match dropId? "not" ts with
    | some ⟨_, ts₁, h₁⟩ => do
      let ⟨e, ts₂, h₂⟩ ← parseAt .negation ts₁
      return ⟨.unary .not e, ts₂, by omega⟩
    | none => parseAt .comparison ts
  | .comparison => do
    let ⟨left, ts₁, h₁⟩ ← parseAt .range ts
    let ⟨e, ts₂, h₂⟩ ← parseChain .comparison .range left ts₁
    return ⟨e, ts₂, by omega⟩
  | .range => do
    let ⟨left, ts₁, h₁⟩ ← parseAt .concatenation ts
    match dropOp? ".." ts₁ with
    | none => return ⟨left, ts₁, h₁⟩
    | some ⟨_, ts₂, h₂⟩ =>
      let ⟨right, ts₃, h₃⟩ ← parseAt .concatenation ts₂
      return ⟨.binary .range left right, ts₃, by omega⟩
  | .concatenation => do
    let ⟨left, ts₁, h₁⟩ ← parseAt .sum ts
    let ⟨e, ts₂, h₂⟩ ← parseChain .concatenation .sum left ts₁
    return ⟨e, ts₂, by omega⟩
  | .sum => do
    let ⟨left, ts₁, h₁⟩ ← parseAt .product ts
    let ⟨e, ts₂, h₂⟩ ← parseChain .sum .product left ts₁
    return ⟨e, ts₂, by omega⟩
  | .product => do
    let ⟨left, ts₁, h₁⟩ ← parseAt .sign ts
    let ⟨e, ts₂, h₂⟩ ← parseChain .product .sign left ts₁
    return ⟨e, ts₂, by omega⟩
  | .sign =>
    match dropOp? "-" ts with
    | some ⟨_, ts₁, h₁⟩ => do
      let ⟨e, ts₂, h₂⟩ ← parseAt .sign ts₁
      return ⟨.unary .neg e, ts₂, by omega⟩
    | none =>
      match dropOp? "+" ts with
      | some ⟨_, ts₁, h₁⟩ => do
        let ⟨e, ts₂, h₂⟩ ← parseAt .sign ts₁
        return ⟨.unary .pos e, ts₂, by omega⟩
      | none => parseAt .power ts
  | .power => do
    let ⟨base, ts₁, h₁⟩ ← parseAt .suffixed ts
    match dropOp? "**" ts₁ with
    | none => return ⟨base, ts₁, h₁⟩
    | some ⟨_, ts₂, h₂⟩ =>
      let ⟨exponent, ts₃, h₃⟩ ← parseAt .sign ts₂
      return ⟨.binary .pow base exponent, ts₃, by omega⟩
  | .suffixed => do
    let ⟨e, ts₁, h₁⟩ ← parseAt .primary ts
    let ⟨e, ts₂, h₂⟩ ← parseSuffixes e ts₁
    return ⟨e, ts₂, by omega⟩
  | .primary =>
    match ts with
    | [] => .error .expressionEnds
    | t :: rest =>
      match t.kind with
      | .number => do return ⟨.literal (← literal? t.text), rest, by simp⟩
      | .string => .ok ⟨.literal (.str t.text), rest, by simp⟩
      | .identifier => .ok ⟨ofWord t.text, rest, by simp⟩
      | .operator =>
        if t.text = "(" then do
          let ⟨e, ts₁, h₁⟩ ← parseAt .ternary rest
          let ⟨_, ts₂, h₂⟩ ← needOp ")" ts₁
          return ⟨e, ts₂, by simp only [List.length_cons]; omega⟩
        else if t.text = "[" then do
          let ⟨items, ts₁, h₁⟩ ← parseItems "]" rest
          return ⟨.list items, ts₁, by simp only [List.length_cons]; omega⟩
        else if t.text = "\x7b" then do
          let ⟨entries, ts₁, h₁⟩ ← parseEntries rest
          return ⟨.map entries, ts₁, by simp only [List.length_cons]; omega⟩
        else .error (.notInExpression t.text)
termination_by weight ts (2 * level.rank)
decreasing_by
  all_goals
    simp only [weight, List.length_cons, Precedence.rank]
    omega

/-- Goes on a chain of a level, whose operands are of the tighter level, after `left`. -/
def parseChain (level tighter : Precedence) (left : Expr) (ts : List Token) :
    Except GrammarFault (Continued Expr ts) :=
  match (if level = .comparison then dropId? "is" ts else none) with
  | some ⟨_, ts₁, h₁⟩ => do
    let ⟨negated, ts₂, h₂⟩ := takeId "not" ts₁
    let ⟨name, ts₃, h₃⟩ ← needId ts₂
    let ⟨e, ts₄, h₄⟩ ← parseChain level tighter (.test left name negated) ts₃
    return ⟨e, ts₄, by omega⟩
  | none =>
    match takeOperator? level ts with
    | none => .ok ⟨left, ts, Nat.le_refl _⟩
    | some ⟨op, ts₁, h₁⟩ => do
      let ⟨right, ts₂, h₂⟩ ← parseAt tighter ts₁
      let ⟨e, ts₃, h₃⟩ ← parseChain level tighter (.binary op left right) ts₂
      return ⟨e, ts₃, by omega⟩
termination_by weight ts 0
decreasing_by
  all_goals
    have := tighter.rank_le
    simp only [weight]
    omega

/-- Reads attributes, indexes, arguments and filters after `e`. -/
def parseSuffixes (e : Expr) (ts : List Token) : Except GrammarFault (Continued Expr ts) :=
  match dropOp? "." ts with
  | some ⟨_, ts₁, h₁⟩ => do
    let ⟨name, ts₂, h₂⟩ ← needAttribute ts₁
    let ⟨e, ts₃, h₃⟩ ← parseSuffixes (.attr e name) ts₂
    return ⟨e, ts₃, by omega⟩
  | none =>
  match dropOp? "[" ts with
  | some ⟨_, ts₁, h₁⟩ => do
    let ⟨position, ts₂, h₂⟩ ← parseAt .ternary ts₁
    let ⟨_, ts₃, h₃⟩ ← needOp "]" ts₂
    let ⟨e, ts₄, h₄⟩ ← parseSuffixes (.index e position) ts₃
    return ⟨e, ts₄, by omega⟩
  | none =>
  match dropOp? "(" ts with
  | some ⟨_, ts₁, h₁⟩ => do
    let ⟨args, ts₂, h₂⟩ ← parseItems ")" ts₁
    let ⟨e, ts₃, h₃⟩ ← parseSuffixes (.call e args) ts₂
    return ⟨e, ts₃, by omega⟩
  | none =>
  match dropOp? "|" ts with
  | some ⟨_, ts₁, h₁⟩ => do
    let ⟨name, ts₂, h₂⟩ ← needId ts₁
    match dropOp? "(" ts₂ with
    | some ⟨_, ts₃, h₃⟩ =>
      let ⟨args, ts₄, h₄⟩ ← parseItems ")" ts₃
      let ⟨e, ts₅, h₅⟩ ← parseSuffixes (.filter e name args) ts₄
      return ⟨e, ts₅, by omega⟩
    | none =>
      let ⟨e, ts₃, h₃⟩ ← parseSuffixes (.filter e name []) ts₂
      return ⟨e, ts₃, by omega⟩
  | none => .ok ⟨e, ts, Nat.le_refl _⟩
termination_by weight ts 0
decreasing_by
  all_goals
    simp only [weight, Precedence.rank]
    omega

/-- Reads expressions with commas between them up to a closing bracket. A comma may stand
before the bracket too. -/
def parseItems (close : String) (ts : List Token) :
    Except GrammarFault (Parsed (List Expr) ts) :=
  match dropOp? close ts with
  | some ⟨_, ts₁, h₁⟩ => .ok ⟨[], ts₁, h₁⟩
  | none => do
    let ⟨item, ts₁, h₁⟩ ← parseAt .ternary ts
    match dropOp? "," ts₁ with
    | some ⟨_, ts₂, h₂⟩ =>
      let ⟨items, ts₃, h₃⟩ ← parseItems close ts₂
      return ⟨item :: items, ts₃, by omega⟩
    | none =>
      let ⟨_, ts₂, h₂⟩ ← needOp close ts₁
      return ⟨[item], ts₂, by omega⟩
termination_by weight ts 25
decreasing_by
  all_goals
    simp only [weight, Precedence.rank]
    omega

/-- Reads the entries of a map up to its closing brace. -/
def parseEntries (ts : List Token) : Except GrammarFault (Parsed (List (Expr × Expr)) ts) :=
  match dropOp? "\x7d" ts with
  | some ⟨_, ts₁, h₁⟩ => .ok ⟨[], ts₁, h₁⟩
  | none => do
    let ⟨key, ts₁, h₁⟩ ← parseKey ts
    let ⟨_, ts₂, h₂⟩ ← needOp ":" ts₁
    let ⟨value, ts₃, h₃⟩ ← parseAt .ternary ts₂
    match dropOp? "," ts₃ with
    | some ⟨_, ts₄, h₄⟩ =>
      let ⟨entries, ts₅, h₅⟩ ← parseEntries ts₄
      return ⟨(key, value) :: entries, ts₅, by omega⟩
    | none =>
      let ⟨_, ts₄, h₄⟩ ← needOp "\x7d" ts₃
      return ⟨[(key, value)], ts₄, by omega⟩
termination_by weight ts 1
decreasing_by
  all_goals
    simp only [weight, Precedence.rank]
    omega

/-- Reads the key of a map entry: a word, a literal, or an expression in parentheses. -/
def parseKey (ts : List Token) : Except GrammarFault (Parsed Expr ts) :=
  match ts with
  | [] => .error .mapEnds
  | t :: rest =>
    match t.kind with
    | .identifier | .string => .ok ⟨.literal (.str t.text), rest, by simp⟩
    | .number => do return ⟨.literal (← literal? t.text), rest, by simp⟩
    | .operator =>
      if t.text = "(" then do
        let ⟨key, ts₁, h₁⟩ ← parseAt .ternary rest
        let ⟨_, ts₂, h₂⟩ ← needOp ")" ts₁
        return ⟨key, ts₂, by simp only [List.length_cons]; omega⟩
      else .error (.badMapKey t.text)
termination_by weight ts 0
decreasing_by
  all_goals
    simp only [weight, List.length_cons, Precedence.rank]
    omega

end

/-! ### Whole expressions -/

/-- Reads one expression from the front, and gives the tokens left. -/
def parsePrefix (ts : List Token) : Except GrammarFault (Expr × List Token) :=
  (parseAt .ternary ts).map fun p => (p.value, p.rest)

/-- Reads all tokens as one expression. -/
def parse (ts : List Token) : Except GrammarFault Expr := do
  match ← parsePrefix ts with
  | (e, []) => return e
  | (e, t :: _) => throw (.leftoverAfter t.text e.display)

end Stencil.Expr
