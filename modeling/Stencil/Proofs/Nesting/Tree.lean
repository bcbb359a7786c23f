import Stencil.Proofs.Nesting.Arguments
import Stencil.Tag.Parser

/-!
# Template trees

A template is a **tree** of nodes: texts, outputs and tags without a body are leaves, and
the other tags hold the nodes between them and their ends. `Tag.Spelled` is the grammar: it
says which pieces spell which nodes; `Stencil.Proofs.Nesting.Arguments` is the part of it for
the arguments of a tag. Nothing in it reads one piece after the other; the end of a tag is
simply the piece behind its body.

The meaning of a tree is told by its **events**, in the order of the source: what is
written at the place of the node or into a segment of its own, and which blocks and macros
are opened. `Tag.program` puts the program together from them.
-/

namespace Stencil.Tag

/-! ### Trees -/

/-- A part of a template with all that is nested in it. -/
inductive Node where
  /-- A text, an output or a tag that stands for one instruction. -/
  | leaf (i : Instr)
  | branch (branches : List (Expr × List Node)) (otherwise : List Node)
  | loop (head : LoopHead) (body otherwise : List Node)
  | capture (name : String) (body : List Node)
  /-- A block that holds the value of an expression. -/
  | valueBlock (name : String) (value : Expr)
  | block (name : String) (body : List Node)
  | macroDef (name : String) (params : Params) (body : List Node)

/-- A tag of a name, with the tokens that follow the name. -/
inductive IsTag (name : String) (args : List Token) : Piece → Prop
  | intro {t : Token} (isName : t.isId name) : IsTag name args (.tag (t :: args))

/-- The pieces that are one instruction. -/
inductive Leaf : Piece → Instr → Prop
  | text (s : String) : Leaf (.text s) (.text s)
  | output {ts : List Token} {e : Expr} (expr : Expr.parse ts = .ok e) :
    Leaf (.output ts) (.output e)
  | set {p : Piece} {args : List Token} {name : String} {e : Expr} (tag : IsTag "set" args p)
    (head : SetArgs args (name, some e)) : Leaf p (.set name e)
  | extend {p : Piece} {args : List Token} {e : Expr} (tag : IsTag "extends" args p)
    (expr : Expr.parse args = .ok e) : Leaf p (.extend e)
  | embed {p : Piece} {args : List Token} {i : Instr} (tag : IsTag "include" args p)
    (head : EmbedArgs args i) : Leaf p i
  | importAs {p : Piece} {args : List Token} {i : Instr} (tag : IsTag "import" args p)
    (head : ImportArgs args i) : Leaf p i
  | importNames {p : Piece} {args : List Token} {i : Instr} (tag : IsTag "from" args p)
    (head : ImportNamesArgs args i) : Leaf p i

/-! ### Spelling -/

mutual

/-- Pieces that spell nodes, one after the other. -/
inductive Spelled : List Node → List Piece → Prop
  | nil : Spelled [] []
  | cons {n : Node} {ns : List Node} {ps qs : List Piece} (first : SpelledOne n ps)
    (rest : Spelled ns qs) : Spelled (n :: ns) (ps ++ qs)

/-- Pieces that spell one node. -/
inductive SpelledOne : Node → List Piece → Prop
  | leaf {p : Piece} {i : Instr} (leaf : Leaf p i) : SpelledOne (.leaf i) [p]
  | branch {p : Piece} {args : List Token} {cond : Expr} {branches : List (Expr × List Node)}
    {otherwise : List Node} {ps : List Piece} (tag : IsTag "if" args p)
    (expr : Expr.parse args = .ok cond) (rest : SpelledBranches cond branches otherwise ps) :
    SpelledOne (.branch branches otherwise) (p :: ps)
  | loop {p q : Piece} {args : List Token} {head : LoopHead} {body : List Node} {ps : List Piece}
    (tag : IsTag "for" args p) (reads : LoopArgs args head) (inside : Spelled body ps)
    (closer : IsTag "endfor" [] q) : SpelledOne (.loop head body []) (p :: (ps ++ [q]))
  | loopElse {p q r : Piece} {args : List Token} {head : LoopHead} {body otherwise : List Node}
    {ps qs : List Piece} (tag : IsTag "for" args p) (reads : LoopArgs args head)
    (inside : Spelled body ps) (turn : IsTag "else" [] q) (other : Spelled otherwise qs)
    (closer : IsTag "endfor" [] r) :
    SpelledOne (.loop head body otherwise) (p :: (ps ++ q :: (qs ++ [r])))
  | capture {p q : Piece} {args : List Token} {name : String} {body : List Node}
    {ps : List Piece} (tag : IsTag "set" args p) (head : SetArgs args (name, none))
    (inside : Spelled body ps) (closer : IsTag "endset" [] q) :
    SpelledOne (.capture name body) (p :: (ps ++ [q]))
  | valueBlock {p : Piece} {n : Token} {name : String} {args : List Token} {e : Expr}
    (tag : IsTag "block" (n :: args) p) (isName : n.isId name) (more : args ≠ [])
    (expr : Expr.parse args = .ok e) : SpelledOne (.valueBlock name e) [p]
  | block {p q : Piece} {n : Token} {name : String} {body : List Node} {ps : List Piece}
    {last : List Token} (tag : IsTag "block" [n] p) (isName : n.isId name)
    (inside : Spelled body ps) (closer : IsTag "endblock" last q)
    (again : ClosingArgs name last) : SpelledOne (.block name body) (p :: (ps ++ [q]))
  | macroDef {p q : Piece} {args : List Token} {name : String} {params : Params}
    {body : List Node} {ps : List Piece} {last : List Token} (tag : IsTag "macro" args p)
    (head : MacroArgs args (name, params)) (inside : Spelled body ps)
    (closer : IsTag "endmacro" last q) (again : ClosingArgs name last) :
    SpelledOne (.macroDef name params body) (p :: (ps ++ [q]))

/-- What follows the head of a branch: its body, and then the other branches and the end. -/
inductive SpelledBranches :
    Expr → List (Expr × List Node) → List Node → List Piece → Prop
  | last {cond : Expr} {body : List Node} {ps : List Piece} {q : Piece}
    (inside : Spelled body ps) (closer : IsTag "endif" [] q) :
    SpelledBranches cond [(cond, body)] [] (ps ++ [q])
  | orElse {cond : Expr} {body otherwise : List Node} {ps qs : List Piece} {q r : Piece}
    (inside : Spelled body ps) (turn : IsTag "else" [] q) (other : Spelled otherwise qs)
    (closer : IsTag "endif" [] r) :
    SpelledBranches cond [(cond, body)] otherwise (ps ++ q :: (qs ++ [r]))
  | next {cond cond' : Expr} {body otherwise : List Node} {more : List (Expr × List Node)}
    {ps qs : List Piece} {q : Piece} {args : List Token} (inside : Spelled body ps)
    (turn : IsTag "elseif" args q ∨ IsTag "elif" args q) (expr : Expr.parse args = .ok cond')
    (rest : SpelledBranches cond' more otherwise qs) :
    SpelledBranches cond ((cond, body) :: more) otherwise (ps ++ q :: qs)

end

/-! ### Meaning -/

/-- A segment of a program other than the main one. -/
inductive Segment where
  | block (name : String)
  | macroBody (name : String)
  deriving DecidableEq

/-- Something that happens while a tree is compiled. -/
inductive Event where
  /-- An instruction is written to a segment, or else to where the tree stands. -/
  | write (target : Option Segment) (i : Instr)
  | openBlock (name : String)
  | openMacro (name : String) (params : Params)

namespace Event

/-- The instruction that is written to where the tree stands. -/
def here? : Event → Option Instr
  | write none i => some i
  | _ => none

/-- The instruction that is written to a segment. -/
def inside? (s : Segment) : Event → Option Instr
  | write (some s') i => if s' = s then some i else none
  | _ => none

/-- The same event if the tree stands in a segment. -/
def into (s : Segment) : Event → Event
  | write none i => write (some s) i
  | e => e

end Event

/-- What events write to where their tree stands. -/
def here (events : List Event) : List Instr :=
  events.filterMap Event.here?

/-- The events that are left when what is written to where the tree stands is taken out. -/
def aside (events : List Event) : List Event :=
  events.filter fun e => e.here?.isNone

mutual

/-- What happens when a node is compiled, in the order of the source. A tag that collects
its body is written behind it. -/
def Node.events : Node → List Event
  | .leaf i => [.write none i]
  | .branch branches otherwise =>
    aside (branchEvents branches) ++ aside (eventsOf otherwise) ++
      [.write none (.branch (branchBodies branches) (here (eventsOf otherwise)))]
  | .loop head body otherwise =>
    aside (eventsOf body) ++ aside (eventsOf otherwise) ++
      [.write none (.loop head.key head.value head.iterable (here (eventsOf body))
        (here (eventsOf otherwise)))]
  | .capture name body =>
    aside (eventsOf body) ++ [.write none (.capture name (here (eventsOf body)))]
  | .valueBlock name value =>
    [.write none (.callBlock name), .openBlock name, .write (some (.block name)) (.output value)]
  | .block name body =>
    .write none (.callBlock name) :: .openBlock name ::
      (eventsOf body).map (Event.into (.block name))
  | .macroDef name params body =>
    .openMacro name params :: (eventsOf body).map (Event.into (.macroBody name))

/-- What happens when nodes are compiled. -/
def eventsOf : List Node → List Event
  | [] => []
  | n :: ns => n.events ++ eventsOf ns

/-- What happens when the bodies of branches are compiled. -/
def branchEvents : List (Expr × List Node) → List Event
  | [] => []
  | (_, body) :: rest => eventsOf body ++ branchEvents rest

/-- The branches with what their bodies are compiled to. -/
def branchBodies : List (Expr × List Node) → List (Expr × List Instr)
  | [] => []
  | (cond, body) :: rest => (cond, here (eventsOf body)) :: branchBodies rest

end

/-- The blocks that are opened, by name. -/
def blocksOf (events : List Event) : List String :=
  events.filterMap fun
    | .openBlock name => some name
    | _ => none

/-- The macros that are opened, with their parameters. -/
def macrosOf (events : List Event) : List (String × Params) :=
  events.filterMap fun
    | .openMacro name params => some (name, params)
    | _ => none

/-- What is written to a segment. -/
def contents (s : Segment) (events : List Event) : List Instr :=
  events.filterMap (Event.inside? s)

/-- **The program of a tree.** Of several openings of one macro the last one has the
parameters. -/
def program (nodes : List Node) : Program :=
  let events := eventsOf nodes
  { main := here events
    blocks := Table.ofEntries <|
      (blocksOf events).map fun name => (name, contents (.block name) events)
    macros := Table.ofEntries <|
      (macrosOf events).map fun m =>
        (m.1, { params := m.2, body := contents (.macroBody m.1) events }) }

end Stencil.Tag
