import Stencil.Token.Basic

/-!
# Readings that use up tokens

A reading takes tokens from the front of a list and **carries the proof** that fewer are
left, so that readers may call each other as deep as the tokens go.
-/

namespace Stencil.Token

/-- What was read from a list of tokens, and the tokens left, which are fewer. -/
structure Parsed (α : Type) (ts : List Token) where
  value : α
  rest : List Token
  shorter : rest.length < ts.length

namespace Parsed

variable {α β : Type} {ts : List Token}

/-- What was read from the first token alone. -/
def one (a : α) (t : Token) (rest : List Token) : Parsed α (t :: rest) :=
  ⟨a, rest, Nat.lt_succ_self rest.length⟩

/-- The same reading with another value. -/
def map (f : α → β) (p : Parsed α ts) : Parsed β ts :=
  ⟨f p.value, p.rest, p.shorter⟩

/-- A reading that goes on where `p` ended, as one that began where `p` began. -/
def andThen (p : Parsed α ts) (q : Parsed β p.rest) : Parsed β ts :=
  ⟨q.value, q.rest, Nat.lt_trans q.shorter p.shorter⟩

end Parsed

/-- What was read from a list of tokens, perhaps without taking any. -/
structure Continued (α : Type) (ts : List Token) where
  value : α
  rest : List Token
  notLonger : rest.length ≤ ts.length

/-- What follows the next token, if that is this operator. -/
def dropOp? (op : String) (ts : List Token) : Option (Parsed Unit ts) :=
  match ts with
  | [] => none
  | t :: rest => if t.isOp op then some (.one () t rest) else none

/-- What follows the next token, if that is this identifier. -/
def dropId? (name : String) (ts : List Token) : Option (Parsed Unit ts) :=
  match ts with
  | [] => none
  | t :: rest => if t.isId name then some (.one () t rest) else none

/-- Takes the next token, which must be this operator. -/
def needOp (op : String) (ts : List Token) : Except GrammarFault (Parsed Unit ts) :=
  match ts with
  | [] => .error (.operatorExpected op none)
  | t :: rest =>
    if t.isOp op then .ok (.one () t rest) else .error (.operatorExpected op (some t.text))

/-- Takes the next token, which must be an identifier. -/
def needId (ts : List Token) : Except GrammarFault (Parsed String ts) :=
  match ts with
  | [] => .error (.identifierExpected none)
  | t :: rest =>
    if t.kind = .identifier then .ok (.one t.text t rest)
    else .error (.identifierExpected (some t.text))

/-- Takes an attribute name after its point: a word or a number. -/
def needAttribute (ts : List Token) : Except GrammarFault (Parsed String ts) :=
  match ts with
  | [] => .error (.attributeExpected none)
  | t :: rest =>
    if t.kind = .identifier || t.kind = .number then .ok (.one t.text t rest)
    else .error (.attributeExpected (some t.text))

/-- Takes this identifier, if it comes next. -/
def takeId (name : String) (ts : List Token) : Continued Bool ts :=
  match dropId? name ts with
  | some p => ⟨true, p.rest, Nat.le_of_lt p.shorter⟩
  | none => ⟨false, ts, Nat.le_refl _⟩

end Stencil.Token
