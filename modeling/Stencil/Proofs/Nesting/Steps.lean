import Stencil.Proofs.Nesting.Tree
import Stencil.Proofs.Table

/-!
# Reading one piece

What the reading of a piece can do when it goes on after it. `Tag.Reads` lists it, one
case for each tag and for each end of a tag, with the state before and the state after,
and `Tag.readPiece_eq_ok_none_iff` says that the list is complete and that nothing on it
fails. All that is proved about whole lists of pieces is proved from this list.
-/

namespace Stencil

/-- The built-in tags in the order of their names. -/
theorem TagTable.builtins_eq : TagTable.builtins = [
    ("block", .builtin .block), ("elif", .terminator), ("else", .terminator),
    ("elseif", .terminator), ("endblock", .terminator), ("endfor", .terminator),
    ("endif", .terminator), ("endmacro", .terminator), ("endset", .terminator),
    ("extends", .builtin .extend), ("for", .builtin .loop), ("from", .builtin .importNames),
    ("if", .builtin .condition), ("import", .builtin .importAs), ("include", .builtin .embed),
    ("macro", .builtin .macroDef), ("set", .builtin .set)] := by
  decide

/-- An open tag that is not from an extension. -/
def OpenTag.Native : OpenTag → Prop
  | transform .. => False
  | _ => True

namespace Tag

/-- No tag from an extension is open. -/
def State.Native (s : State) : Prop :=
  ∀ tag ∈ s.opened, tag.Native

/-- What reading a piece does to the accumulator and to the open tags, if it goes on. -/
inductive Reads : Piece → State → State → Prop
  | leaf {p : Piece} {i : Instr} {acc : Accumulator} {o : List OpenTag} (leaf : Leaf p i) :
    Reads p ⟨acc, o⟩ ⟨acc.write i, o⟩
  | branch {p : Piece} {args : List Token} {cond : Expr} {acc : Accumulator} {o : List OpenTag}
    (tag : IsTag "if" args p) (expr : Expr.parse args = .ok cond) :
    Reads p ⟨acc, o⟩ ⟨acc.enterCapture, .branch [] cond :: o⟩
  | elseIf {p : Piece} {args : List Token} {done : List (Expr × List Instr)} {cond next : Expr}
    {acc : Accumulator} {o : List OpenTag} (tag : IsTag "elseif" args p ∨ IsTag "elif" args p)
    (expr : Expr.parse args = .ok next) :
    Reads p ⟨acc, .branch done cond :: o⟩
      ⟨acc.leave.enterCapture, .branch (done ++ [(cond, acc.captured)]) next :: o⟩
  | ifElse {p : Piece} {done : List (Expr × List Instr)} {cond : Expr} {acc : Accumulator}
    {o : List OpenTag} (tag : IsTag "else" [] p) :
    Reads p ⟨acc, .branch done cond :: o⟩
      ⟨acc.leave.enterCapture, .otherwise (done ++ [(cond, acc.captured)]) :: o⟩
  | endIf {p : Piece} {done : List (Expr × List Instr)} {cond : Expr} {acc : Accumulator}
    {o : List OpenTag} (tag : IsTag "endif" [] p) :
    Reads p ⟨acc, .branch done cond :: o⟩
      ⟨acc.leave.write (.branch (done ++ [(cond, acc.captured)]) []), o⟩
  | endElse {p : Piece} {branches : List (Expr × List Instr)} {acc : Accumulator}
    {o : List OpenTag} (tag : IsTag "endif" [] p) :
    Reads p ⟨acc, .otherwise branches :: o⟩ ⟨acc.leave.write (.branch branches acc.captured), o⟩
  | loop {p : Piece} {args : List Token} {head : LoopHead} {acc : Accumulator}
    {o : List OpenTag} (tag : IsTag "for" args p) (reads : LoopArgs args head) :
    Reads p ⟨acc, o⟩ ⟨acc.enterCapture, .loop head.key head.value head.iterable :: o⟩
  | loopElse {p : Piece} {key : Option String} {value : String} {iterable : Expr}
    {acc : Accumulator} {o : List OpenTag} (tag : IsTag "else" [] p) :
    Reads p ⟨acc, .loop key value iterable :: o⟩
      ⟨acc.leave.enterCapture, .loopElse key value iterable acc.captured :: o⟩
  | endFor {p : Piece} {key : Option String} {value : String} {iterable : Expr}
    {acc : Accumulator} {o : List OpenTag} (tag : IsTag "endfor" [] p) :
    Reads p ⟨acc, .loop key value iterable :: o⟩
      ⟨acc.leave.write (.loop key value iterable acc.captured []), o⟩
  | endLoopElse {p : Piece} {key : Option String} {value : String} {iterable : Expr}
    {body : List Instr} {acc : Accumulator} {o : List OpenTag} (tag : IsTag "endfor" [] p) :
    Reads p ⟨acc, .loopElse key value iterable body :: o⟩
      ⟨acc.leave.write (.loop key value iterable body acc.captured), o⟩
  | capture {p : Piece} {args : List Token} {name : String} {acc : Accumulator}
    {o : List OpenTag} (tag : IsTag "set" args p) (head : SetArgs args (name, none)) :
    Reads p ⟨acc, o⟩ ⟨acc.enterCapture, .capture name :: o⟩
  | endSet {p : Piece} {name : String} {acc : Accumulator} {o : List OpenTag}
    (tag : IsTag "endset" [] p) :
    Reads p ⟨acc, .capture name :: o⟩ ⟨acc.leave.write (.capture name acc.captured), o⟩
  | valueBlock {p : Piece} {n : Token} {name : String} {args : List Token} {e : Expr}
    {acc : Accumulator} {o : List OpenTag} (tag : IsTag "block" (n :: args) p)
    (isName : n.isId name) (more : args ≠ []) (expr : Expr.parse args = .ok e) :
    Reads p ⟨acc, o⟩
      ⟨(((acc.write (.callBlock name)).enterBlock name).write (.output e)).leave, o⟩
  | block {p : Piece} {n : Token} {name : String} {acc : Accumulator} {o : List OpenTag}
    (tag : IsTag "block" [n] p) (isName : n.isId name) :
    Reads p ⟨acc, o⟩ ⟨(acc.write (.callBlock name)).enterBlock name, .block name :: o⟩
  | endBlock {p : Piece} {name : String} {last : List Token} {acc : Accumulator}
    {o : List OpenTag} (tag : IsTag "endblock" last p) (again : ClosingArgs name last) :
    Reads p ⟨acc, .block name :: o⟩ ⟨acc.leave, o⟩
  | macroDef {p : Piece} {args : List Token} {name : String} {params : Params}
    {acc : Accumulator} {o : List OpenTag} (tag : IsTag "macro" args p)
    (head : MacroArgs args (name, params)) :
    Reads p ⟨acc, o⟩ ⟨(acc.setParams name params).enterMacro name, .macroBody name :: o⟩
  | endMacro {p : Piece} {name : String} {last : List Token} {acc : Accumulator}
    {o : List OpenTag} (tag : IsTag "endmacro" last p) (again : ClosingArgs name last) :
    Reads p ⟨acc, .macroBody name :: o⟩ ⟨acc.leave, o⟩

/-! ### Steps one after the other -/

namespace Step

variable {α β : Type} {s s' : State}

theorem bind_apply (x : Step α) (f : α → Step β) (s : State) :
    (x >>= f) s = match x s with
      | (.ok a, s₁) => f a s₁
      | (.error fault, s₁) => (.error fault, s₁) := by
  simp only [bind, ExceptT.bind, ExceptT.mk, StateT.bind]
  rcases x s with ⟨fault | a, s₁⟩ <;> rfl

theorem bind_eq_ok {x : Step α} {f : α → Step β} {b : β} :
    (x >>= f) s = (.ok b, s') ↔ ∃ a s₁, x s = (.ok a, s₁) ∧ f a s₁ = (.ok b, s') := by
  rw [bind_apply]
  rcases x s with ⟨fault | a, s₁⟩
  · constructor
    · rintro ⟨⟩
    · rintro ⟨a, s₁, ⟨⟩, -⟩
  · constructor
    · intro h
      exact ⟨a, s₁, rfl, h⟩
    · rintro ⟨_, _, ⟨⟩, h⟩
      exact h

theorem pure_eq_ok {a b : α} : (pure a : Step α) s = (.ok b, s') ↔ a = b ∧ s = s' := by
  constructor
  · rintro ⟨⟩
    exact ⟨rfl, rfl⟩
  · rintro ⟨rfl, rfl⟩
    rfl

/-- What only reads tokens leaves the state alone. -/
theorem lift_eq_ok {x : Except GrammarFault α} {a : α} :
    (liftM x : Step α) s = (.ok a, s') ↔ x = .ok a ∧ s = s' := by
  cases x with
  | error fault =>
    constructor
    · rintro ⟨⟩
    · rintro ⟨⟨⟩, -⟩
  | ok b =>
    constructor
    · rintro ⟨⟩
      exact ⟨rfl, rfl⟩
    · rintro ⟨⟨⟩, rfl⟩
      rfl

/-- A step that begins with reading tokens. -/
theorem lift_bind_eq_ok {x : Except GrammarFault α} {f : α → Step β} {b : β} :
    ((liftM x : Step α) >>= f) s = (.ok b, s') ↔ ∃ a, x = .ok a ∧ f a s = (.ok b, s') := by
  rw [bind_eq_ok]
  constructor
  · rintro ⟨a, s₁, hlift, hf⟩
    obtain ⟨hx, rfl⟩ := lift_eq_ok.mp hlift
    exact ⟨a, hx, hf⟩
  · rintro ⟨a, hx, hf⟩
    exact ⟨a, s, lift_eq_ok.mpr ⟨hx, rfl⟩, hf⟩

end Step

/-! ### Everything on the list happens -/

/-- A tag is a piece that begins with an identifier, its name. -/
theorem IsTag.eq_tag {name : String} {args : List Token} {p : Piece}
    (tag : IsTag name args p) :
    ∃ t : Token, t.kind = .identifier ∧ t.text = name ∧ p = .tag (t :: args) := by
  obtain ⟨isName⟩ := tag
  rename_i t
  simp only [Token.isId, Bool.and_eq_true, decide_eq_true_eq] at isName
  exact ⟨t, isName.1, isName.2, rfl⟩

/-- A built-in tag reads its arguments. -/
theorem readPiece_builtin {name : String} {args : List Token} {p : Piece} {b : BuiltinTag}
    (tag : IsTag name args p) (h : Table.find? name TagTable.builtins = some (.builtin b)) :
    readPiece TagTable.builtins p = (do openBuiltin b args; return none) := by
  obtain ⟨t, kind, rfl, rfl⟩ := IsTag.eq_tag tag
  simp only [readPiece, readTag, kind, h]
  rfl

/-- A terminator meets the innermost open tag. -/
theorem readPiece_terminator {name : String} {args : List Token} {p : Piece}
    (tag : IsTag name args p) (h : Table.find? name TagTable.builtins = some .terminator) :
    readPiece TagTable.builtins p = meetTerminator ⟨name, args⟩ := by
  obtain ⟨t, kind, rfl, rfl⟩ := IsTag.eq_tag tag
  simp only [readPiece, readTag, kind, h]
  rfl

/-- A terminator ends the innermost open tag if that expects it. -/
theorem meetTerminator_eq_ok_none_iff {term : Terminator} {s s' : State} :
    meetTerminator term s = (.ok none, s') ↔
      ∃ tag o, s.opened = tag :: o ∧ term.tag ∈ tag.expected ∧
        closeTag tag term s = (.ok (), s') := by
  obtain ⟨acc, _ | ⟨tag, o⟩⟩ := s
  · constructor
    · rintro ⟨⟩
    · rintro ⟨tag, o, ⟨⟩, -⟩
  · constructor
    · intro h
      obtain ⟨_, s₁, ⟨⟩, h₁⟩ := Step.bind_eq_ok.mp h
      obtain ⟨term', s₂, hterm, h₂⟩ := Step.bind_eq_ok.mp h₁
      obtain ⟨haccept, rfl⟩ := Step.lift_eq_ok.mp hterm
      obtain ⟨_, s₃, hclose, h₃⟩ := Step.bind_eq_ok.mp h₂
      obtain ⟨-, rfl⟩ := Step.pure_eq_ok.mp h₃
      by_cases hmem : term.tag ∈ tag.expected
      · rw [acceptTerminator, if_pos hmem] at haccept
        cases haccept
        exact ⟨tag, o, rfl, hmem, hclose⟩
      · rw [acceptTerminator, if_neg hmem] at haccept
        cases haccept
    · rintro ⟨_, _, ⟨⟩, hmem, hclose⟩
      refine Step.bind_eq_ok.mpr ⟨_, _, rfl, ?_⟩
      refine Step.bind_eq_ok.mpr ⟨term, _, Step.lift_eq_ok.mpr ⟨?_, rfl⟩, ?_⟩
      · rw [acceptTerminator, if_pos hmem]
      · exact Step.bind_eq_ok.mpr ⟨(), s', hclose, rfl⟩

/-- A terminator that the innermost open tag expects ends it, if what follows the name is right. -/
theorem readPiece_closes {name : String} {args : List Token} {p : Piece} {tag : OpenTag}
    {acc : Accumulator} {o : List OpenTag} {s' : State} (isTag : IsTag name args p)
    (h : Table.find? name TagTable.builtins = some .terminator) (hmem : name ∈ tag.expected)
    (hclose : closeTag tag ⟨name, args⟩ ⟨acc, tag :: o⟩ = (.ok (), s')) :
    readPiece TagTable.builtins p ⟨acc, tag :: o⟩ = (.ok none, s') := by
  rw [readPiece_terminator isTag h, meetTerminator_eq_ok_none_iff]
  exact ⟨tag, o, rfl, hmem, hclose⟩

theorem closeTag_next {done : List (Expr × List Instr)} {cond next : Expr} {name : String}
    {args : List Token} {acc : Accumulator} {o : List OpenTag} (hif : name ≠ "endif")
    (helse : name ≠ "else") (expr : Expr.parse args = .ok next) :
    closeTag (.branch done cond) ⟨name, args⟩ ⟨acc, .branch done cond :: o⟩ =
      (.ok (), ⟨acc.leave.enterCapture, .branch (done ++ [(cond, acc.captured)]) next :: o⟩) := by
  refine Step.bind_eq_ok.mpr ⟨_, _, rfl, ?_⟩
  simp only [hif, helse, if_false]
  exact Step.bind_eq_ok.mpr ⟨_, _, Step.lift_eq_ok.mpr ⟨expr, rfl⟩, rfl⟩

/-- Everything on the list happens. -/
theorem readPiece_of_reads {p : Piece} {s s' : State} (h : Reads p s s') :
    readPiece TagTable.builtins p s = (.ok none, s') := by
  cases h with
  | leaf leaf =>
    cases leaf with
    | text s => rfl
    | output expr =>
      simp only [readPiece, expr]
      rfl
    | set tag head =>
      rw [readPiece_builtin tag rfl]
      simp only [openBuiltin, setHead_eq_ok_iff.mpr head]
      rfl
    | extend tag expr =>
      rw [readPiece_builtin tag rfl]
      simp only [openBuiltin, expr]
      rfl
    | embed tag head =>
      rw [readPiece_builtin tag rfl]
      simp only [openBuiltin, embedHead_eq_ok_iff.mpr head]
      rfl
    | importAs tag head =>
      rw [readPiece_builtin tag rfl]
      simp only [openBuiltin, importHead_eq_ok_iff.mpr head]
      rfl
    | importNames tag head =>
      rw [readPiece_builtin tag rfl]
      simp only [openBuiltin, importNamesHead_eq_ok_iff.mpr head]
      rfl
  | branch tag expr =>
    rw [readPiece_builtin tag rfl]
    simp only [openBuiltin, expr]
    rfl
  | elseIf tag expr =>
    rcases tag with tag | tag
    · refine readPiece_closes tag rfl (by simp [OpenTag.expected]) ?_
      exact closeTag_next (by decide) (by decide) expr
    · refine readPiece_closes tag rfl (by simp [OpenTag.expected]) ?_
      exact closeTag_next (by decide) (by decide) expr
  | ifElse tag => exact readPiece_closes tag rfl (by simp [OpenTag.expected]) rfl
  | endIf tag => exact readPiece_closes tag rfl (by simp [OpenTag.expected]) rfl
  | endElse tag => exact readPiece_closes tag rfl (by simp [OpenTag.expected]) rfl
  | loop tag reads =>
    rw [readPiece_builtin tag rfl]
    simp only [openBuiltin, loopHead_eq_ok_iff.mpr reads]
    rfl
  | loopElse tag => exact readPiece_closes tag rfl (by simp [OpenTag.expected]) rfl
  | endFor tag => exact readPiece_closes tag rfl (by simp [OpenTag.expected]) rfl
  | endLoopElse tag => exact readPiece_closes tag rfl (by simp [OpenTag.expected]) rfl
  | capture tag head =>
    rw [readPiece_builtin tag rfl]
    simp only [openBuiltin, setHead_eq_ok_iff.mpr head]
    rfl
  | endSet tag => exact readPiece_closes tag rfl (by simp [OpenTag.expected]) rfl
  | @valueBlock _ _ args _ _ _ tag isName more expr =>
    have hargs : args.isEmpty = false := List.isEmpty_eq_false_iff.mpr more
    rw [readPiece_builtin tag rfl]
    refine Step.bind_eq_ok.mpr ⟨(), _, ?_, rfl⟩
    refine Step.bind_eq_ok.mpr ⟨_, _, Step.lift_eq_ok.mpr ⟨Token.needId_cons isName _, rfl⟩, ?_⟩
    refine Step.bind_eq_ok.mpr ⟨(), _, rfl, ?_⟩
    simp only [hargs, expr]
    rfl
  | block tag isName =>
    rw [readPiece_builtin tag rfl]
    refine Step.bind_eq_ok.mpr ⟨(), _, ?_, rfl⟩
    refine Step.bind_eq_ok.mpr ⟨_, _, Step.lift_eq_ok.mpr ⟨Token.needId_cons isName _, rfl⟩, ?_⟩
    rfl
  | endBlock tag again =>
    refine readPiece_closes tag rfl (by simp [OpenTag.expected]) ?_
    refine Step.bind_eq_ok.mpr ⟨_, _, rfl, ?_⟩
    exact Step.lift_eq_ok.mpr ⟨closingName_eq_ok_iff.mpr again, rfl⟩
  | macroDef tag head =>
    rw [readPiece_builtin tag rfl]
    simp only [openBuiltin, macroHead_eq_ok_iff.mpr head]
    rfl
  | endMacro tag again =>
    refine readPiece_closes tag rfl (by simp [OpenTag.expected]) ?_
    refine Step.bind_eq_ok.mpr ⟨_, _, rfl, ?_⟩
    exact Step.lift_eq_ok.mpr ⟨closingName_eq_ok_iff.mpr again, rfl⟩

/-! ### Nothing else happens -/

/-- The built-in tags with their names. -/
theorem name_of_builtin {name : String} {b : BuiltinTag}
    (h : Table.find? name TagTable.builtins = some (.builtin b)) :
    (name, TagHandler.builtin b) ∈ [("block", TagHandler.builtin .block),
      ("extends", .builtin .extend), ("for", .builtin .loop), ("from", .builtin .importNames),
      ("if", .builtin .condition), ("import", .builtin .importAs), ("include", .builtin .embed),
      ("macro", .builtin .macroDef), ("set", .builtin .set)] := by
  have hmem := Table.mem_of_find? h
  rw [TagTable.builtins_eq] at hmem
  simpa using hmem

/-- A block that is not left open holds an output. -/
theorem inBlock_output_eq_ok {name : String} {args : List Token} {s s' : State}
    (h : Step.inBlock name (do Step.write (.output (← Expr.parse args))) s = (.ok (), s')) :
    ∃ e, Expr.parse args = .ok e ∧
      s' = ⟨((s.acc.enterBlock name).write (.output e)).leave, s.opened⟩ := by
  cases hargs : Expr.parse args with
  | error fault =>
    rw [hargs] at h
    cases h
  | ok e =>
    rw [hargs] at h
    cases h
    exact ⟨e, rfl, rfl⟩

/-- No name is that of a handler from an extension. -/
theorem builtin_or_terminator {name : String} {handler : TagHandler}
    (h : Table.find? name TagTable.builtins = some handler) :
    match handler with
    | .builtin _ | .terminator => True
    | _ => False := by
  have hmem := Table.mem_of_find? h
  rw [TagTable.builtins_eq] at hmem
  cases handler with
  | builtin | terminator => trivial
  | transform | constant => simp at hmem

theorem reads_of_openBuiltin {name : String} {args : List Token} {p : Piece} {b : BuiltinTag}
    {s s' : State} (tag : IsTag name args p)
    (hb : Table.find? name TagTable.builtins = some (.builtin b))
    (h : openBuiltin b args s = (.ok (), s')) : Reads p s s' := by
  have hname := name_of_builtin hb
  obtain ⟨acc, o⟩ := s
  -- each kind of tag has one name in the table, and its arguments are read by their grammar
  cases b with
  | condition =>
    obtain rfl : name = "if" := by simpa using hname
    obtain ⟨cond, expr, h₁⟩ := Step.lift_bind_eq_ok.mp h
    cases h₁
    exact .branch tag expr
  | loop =>
    obtain rfl : name = "for" := by simpa using hname
    obtain ⟨head, hhead, h₁⟩ := Step.lift_bind_eq_ok.mp h
    cases h₁
    exact .loop tag (loopHead_eq_ok_iff.mp hhead)
  | set =>
    obtain rfl : name = "set" := by simpa using hname
    obtain ⟨⟨name, _ | value⟩, hhead, h₁⟩ := Step.lift_bind_eq_ok.mp h
    · cases h₁
      exact .capture tag (setHead_eq_ok_iff.mp hhead)
    · cases h₁
      exact .leaf (.set tag (setHead_eq_ok_iff.mp hhead))
  | block =>
    obtain rfl : name = "block" := by simpa using hname
    obtain ⟨⟨name, rest, _⟩, hfirst, h₁⟩ := Step.lift_bind_eq_ok.mp h
    obtain ⟨_, s₂, ⟨⟩, h₂⟩ := Step.bind_eq_ok.mp h₁
    obtain ⟨n, isName, rfl⟩ := Token.eq_of_needId hfirst
    cases rest with
    | nil =>
      cases h₂
      exact .block tag isName
    | cons t rest =>
      obtain ⟨e, expr, rfl⟩ := inBlock_output_eq_ok h₂
      exact .valueBlock tag isName (List.cons_ne_nil t rest) expr
  | extend =>
    obtain rfl : name = "extends" := by simpa using hname
    obtain ⟨e, expr, h₁⟩ := Step.lift_bind_eq_ok.mp h
    cases h₁
    exact .leaf (.extend tag expr)
  | embed =>
    obtain rfl : name = "include" := by simpa using hname
    obtain ⟨i, hhead, h₁⟩ := Step.lift_bind_eq_ok.mp h
    cases h₁
    exact .leaf (.embed tag (embedHead_eq_ok_iff.mp hhead))
  | macroDef =>
    obtain rfl : name = "macro" := by simpa using hname
    obtain ⟨⟨name, params⟩, hhead, h₁⟩ := Step.lift_bind_eq_ok.mp h
    cases h₁
    exact .macroDef tag (macroHead_eq_ok_iff.mp hhead)
  | importAs =>
    obtain rfl : name = "import" := by simpa using hname
    obtain ⟨i, hhead, h₁⟩ := Step.lift_bind_eq_ok.mp h
    cases h₁
    exact .leaf (.importAs tag (importHead_eq_ok_iff.mp hhead))
  | importNames =>
    obtain rfl : name = "from" := by simpa using hname
    obtain ⟨i, hhead, h₁⟩ := Step.lift_bind_eq_ok.mp h
    cases h₁
    exact .leaf (.importNames tag (importNamesHead_eq_ok_iff.mp hhead))

theorem reads_of_closeTag {name : String} {args : List Token} {p : Piece} {tag : OpenTag}
    {acc : Accumulator} {o : List OpenTag} {s' : State} (isTag : IsTag name args p)
    (native : tag.Native) (hmem : name ∈ tag.expected)
    (h : closeTag tag ⟨name, args⟩ ⟨acc, tag :: o⟩ = (.ok (), s')) :
    Reads p ⟨acc, tag :: o⟩ s' := by
  obtain ⟨body, s₁, ⟨⟩, h₁⟩ := Step.bind_eq_ok.mp h
  cases tag with
  | branch done cond =>
    by_cases hif : name = "endif"
    · subst hif
      obtain ⟨_, hend, h₂⟩ := Step.lift_bind_eq_ok.mp h₁
      cases Token.expectEnd_eq_ok_iff.mp hend
      cases h₂
      exact .endIf isTag
    by_cases helse : name = "else"
    · subst helse
      obtain ⟨_, hend, h₂⟩ := Step.lift_bind_eq_ok.mp h₁
      cases Token.expectEnd_eq_ok_iff.mp hend
      cases h₂
      exact .ifElse isTag
    -- what is left begins another branch
    simp only [hif, helse, if_false] at h₁
    obtain ⟨next, expr, h₂⟩ := Step.lift_bind_eq_ok.mp h₁
    cases h₂
    simp only [OpenTag.expected, List.mem_cons, hif, helse, List.not_mem_nil, or_false] at hmem
    rcases hmem with rfl | rfl
    · exact .elseIf (.inl isTag) expr
    · exact .elseIf (.inr isTag) expr
  | otherwise branches =>
    obtain rfl : name = "endif" := List.mem_singleton.mp hmem
    obtain ⟨_, hend, h₂⟩ := Step.lift_bind_eq_ok.mp h₁
    cases Token.expectEnd_eq_ok_iff.mp hend
    cases h₂
    exact .endElse isTag
  | loop key value iterable =>
    obtain ⟨_, hend, h₂⟩ := Step.lift_bind_eq_ok.mp h₁
    cases Token.expectEnd_eq_ok_iff.mp hend
    simp only [OpenTag.expected, List.mem_cons, List.not_mem_nil, or_false] at hmem
    rcases hmem with rfl | rfl
    · cases h₂
      exact .loopElse isTag
    · cases h₂
      exact .endFor isTag
  | loopElse key value iterable first =>
    obtain rfl : name = "endfor" := List.mem_singleton.mp hmem
    obtain ⟨_, hend, h₂⟩ := Step.lift_bind_eq_ok.mp h₁
    cases Token.expectEnd_eq_ok_iff.mp hend
    cases h₂
    exact .endLoopElse isTag
  | capture target =>
    obtain rfl : name = "endset" := List.mem_singleton.mp hmem
    obtain ⟨_, hend, h₂⟩ := Step.lift_bind_eq_ok.mp h₁
    cases Token.expectEnd_eq_ok_iff.mp hend
    cases h₂
    exact .endSet isTag
  | block target =>
    obtain rfl : name = "endblock" := List.mem_singleton.mp hmem
    obtain ⟨hclosing, rfl⟩ := Step.lift_eq_ok.mp h₁
    exact .endBlock isTag (closingName_eq_ok_iff.mp hclosing)
  | macroBody target =>
    obtain rfl : name = "endmacro" := List.mem_singleton.mp hmem
    obtain ⟨hclosing, rfl⟩ := Step.lift_eq_ok.mp h₁
    exact .endMacro isTag (closingName_eq_ok_iff.mp hclosing)
  -- an extension opened it
  | transform => exact native.elim

/-- **Only what is on the list happens** if the reading goes on. -/
theorem reads_of_readPiece {p : Piece} {s s' : State} (native : s.Native)
    (h : readPiece TagTable.builtins p s = (.ok none, s')) : Reads p s s' := by
  cases p with
  | text t =>
    cases h
    exact .leaf (.text t)
  | output tokens =>
    obtain ⟨e, expr, h₁⟩ := Step.lift_bind_eq_ok.mp h
    cases h₁
    exact .leaf (.output expr)
  | tag tokens =>
    cases tokens with
    | nil => cases h
    | cons t args =>
      by_cases kind : t.kind = .identifier
      · have isTag : IsTag t.text args (.tag (t :: args)) := .intro (by simp [Token.isId, kind])
        cases hfind : Table.find? t.text TagTable.builtins with
        -- a tag that no one knows
        | none =>
          simp only [readPiece, readTag, kind, hfind] at h
          cases h
        | some handler =>
          cases handler with
          | builtin b =>
            rw [readPiece_builtin isTag hfind] at h
            obtain ⟨_, s₁, hopen, h₁⟩ := Step.bind_eq_ok.mp h
            cases h₁
            exact reads_of_openBuiltin isTag hfind hopen
          | terminator =>
            rw [readPiece_terminator isTag hfind, meetTerminator_eq_ok_none_iff] at h
            obtain ⟨acc, o⟩ := s
            obtain ⟨tag, o, rfl, hexpected, hclose⟩ := h
            exact reads_of_closeTag isTag (native tag (List.mem_cons_self ..)) hexpected hclose
          | transform => cases builtin_or_terminator hfind
          | constant => cases builtin_or_terminator hfind
      · simp only [readPiece, readTag, ne_eq, kind, not_false_eq_true, if_true] at h
        cases h

/-- A piece that does not end the reading does something on the list, and what is on the
list does not end it. -/
theorem readPiece_eq_ok_none_iff {p : Piece} {s s' : State} (native : s.Native) :
    readPiece TagTable.builtins p s = (.ok none, s') ↔ Reads p s s' :=
  ⟨reads_of_readPiece native, readPiece_of_reads⟩

/-- Reading opens no tag from an extension. -/
theorem Reads.native {p : Piece} {s s' : State} (h : Reads p s s') (native : s.Native) :
    s'.Native := by
  cases h <;> simp_all [State.Native, OpenTag.Native]

end Tag

end Stencil
