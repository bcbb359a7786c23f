import Stencil.Error

/-!
# Tokens

A template is a list of **pieces**: literal text, output regions `{{ … }}`
and tags `{% … %}`. What stands inside a region is a list of **tokens**, each with
its kind, its meaning and the byte at which it begins in the source.

Tags and expressions are read from the front of a token list. The functions here answer
with what they found and with the tokens that are left, which are fewer even where
something else was expected.
-/

namespace Stencil

inductive TokenKind where
  | identifier
  | number
  | string
  | operator
  deriving DecidableEq, Repr

/-- A token. The text of a string is its meaning, that of any other token its spelling. -/
structure Token where
  kind : TokenKind
  text : String
  offset : Nat
  deriving DecidableEq, Repr

/-- A part of a template. -/
inductive Piece where
  | text (s : String)
  | output (tokens : List Token)
  | tag (tokens : List Token)
  deriving DecidableEq, Repr

namespace Token

def isId (name : String) (t : Token) : Bool :=
  t.kind = .identifier && t.text = name

def isOp (op : String) (t : Token) : Bool :=
  t.kind = .operator && t.text = op

/-- Whether the next token is this identifier. -/
def nextIsId (name : String) : List Token → Bool
  | [] => false
  | t :: _ => t.isId name

/-- Whether the next token is this operator. -/
def nextIsOp (op : String) : List Token → Bool
  | [] => false
  | t :: _ => t.isOp op

/-- Takes the next token if it is this identifier. -/
def tryId (name : String) (ts : List Token) : Bool × List Token :=
  if nextIsId name ts then (true, ts.tail) else (false, ts)

/-- Takes the next token if it is this operator. -/
def tryOp (op : String) (ts : List Token) : Bool × List Token :=
  if nextIsOp op ts then (true, ts.tail) else (false, ts)

/-- Takes the next token, which must be an identifier. -/
def expectId : List Token → Except GrammarFault String × List Token
  | [] => (.error (.identifierExpected none), [])
  | t :: ts =>
    (if t.kind = .identifier then .ok t.text else .error (.identifierExpected (some t.text)), ts)

/-- Takes the next token, which must be this operator. -/
def expectOp (op : String) : List Token → Except GrammarFault Unit × List Token
  | [] => (.error (.operatorExpected op none), [])
  | t :: ts =>
    (if t.isOp op then .ok () else .error (.operatorExpected op (some t.text)), ts)

/-- There must be no token left in a tag of this name. -/
def expectEnd (tag : String) : List Token → Except GrammarFault Unit
  | [] => .ok ()
  | t :: _ => .error (.leftoverInTag t.text tag)

end Token

end Stencil
