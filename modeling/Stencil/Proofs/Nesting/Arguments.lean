import Stencil.Tag.Arguments

/-!
# The grammar of the arguments

What may stand behind the name of each built-in tag, as a grammar of its own: a rule for
each form, none of which reads one token after the other or leaves a token over. The one
thing that is not told here is what an expression is; `Expr.Begins` and `Expr.parse` refer
to the reading of expressions for that.

For each tag there is a theorem that what its arguments are read as is what the grammar
says, and that they are read at all exactly if the grammar has them.
-/

namespace Stencil

/-- The first of two readings succeeds, and the second goes on from what it gives. -/
theorem Except.bind_eq_ok {ε α β : Type} {x : Except ε α} {f : α → Except ε β} {b : β} :
    (x >>= f) = .ok b ↔ ∃ a, x = .ok a ∧ f a = .ok b := by
  cases x with
  | error e => simp [bind, Except.bind]
  | ok a => simp [bind, Except.bind]

/-- An expression stands before these other tokens. -/
def Expr.Begins (e : Expr) (ts rest : List Token) : Prop :=
  ∃ h, Expr.parseAt .ternary ts = .ok ⟨e, rest, h⟩

namespace Token

/-! ### Single tokens -/

theorem needId_cons {name : String} {t : Token} (h : t.isId name) (ts : List Token) :
    needId (t :: ts) = .ok (.one name t ts) := by
  simp only [isId, Bool.and_eq_true, decide_eq_true_eq] at h
  simp [needId, h.1, h.2]

theorem needOp_cons {op : String} {t : Token} (h : t.isOp op) (ts : List Token) :
    needOp op (t :: ts) = .ok (.one () t ts) := by
  simp [needOp, h]

theorem dropOp?_cons {op : String} {t : Token} (h : t.isOp op) (ts : List Token) :
    dropOp? op (t :: ts) = some (.one () t ts) := by
  simp [dropOp?, h]

theorem dropId?_cons {name : String} {t : Token} (h : t.isId name) (ts : List Token) :
    dropId? name (t :: ts) = some (.one () t ts) := by
  simp [dropId?, h]

/-- An identifier is no operator. -/
theorem dropOp?_of_isId {name op : String} {t : Token} (h : t.isId name) (ts : List Token) :
    dropOp? op (t :: ts) = none := by
  simp only [isId, Bool.and_eq_true, decide_eq_true_eq] at h
  simp [dropOp?, isOp, h.1]

/-- An operator is no other operator. -/
theorem dropOp?_of_isOp {op other : String} {t : Token} (h : t.isOp op) (hne : op ≠ other)
    (ts : List Token) : dropOp? other (t :: ts) = none := by
  simp only [isOp, Bool.and_eq_true, decide_eq_true_eq] at h
  simp [dropOp?, isOp, h.2, hne]

/-- An identifier is no other identifier. -/
theorem dropId?_of_isId {name other : String} {t : Token} (h : t.isId name) (hne : name ≠ other)
    (ts : List Token) : dropId? other (t :: ts) = none := by
  simp only [isId, Bool.and_eq_true, decide_eq_true_eq] at h
  simp [dropId?, isId, h.2, hne]

/-- An operator is no identifier. -/
theorem dropId?_of_isOp {op name : String} {t : Token} (h : t.isOp op) (ts : List Token) :
    dropId? name (t :: ts) = none := by
  simp only [isOp, Bool.and_eq_true, decide_eq_true_eq] at h
  simp [dropId?, isId, h.1]

theorem eq_of_needId {ts rest : List Token} {name : String} {hlt : rest.length < ts.length}
    (h : needId ts = .ok ⟨name, rest, hlt⟩) : ∃ t, t.isId name ∧ ts = t :: rest := by
  cases ts with
  | nil => cases h
  | cons t ts =>
    by_cases kind : t.kind = .identifier
    · simp only [needId, kind, if_true, Except.ok.injEq, Parsed.one, Parsed.mk.injEq] at h
      obtain ⟨rfl, rfl⟩ := h
      exact ⟨t, by simp [isId, kind], rfl⟩
    · simp [needId, kind] at h

theorem eq_of_needOp {op : String} {ts rest : List Token} {u : Unit}
    {hlt : rest.length < ts.length} (h : needOp op ts = .ok ⟨u, rest, hlt⟩) :
    ∃ t, t.isOp op ∧ ts = t :: rest := by
  cases ts with
  | nil => cases h
  | cons t ts =>
    by_cases isOp : t.isOp op
    · simp only [needOp, isOp, if_true, Except.ok.injEq, Parsed.one, Parsed.mk.injEq] at h
      obtain ⟨-, rfl⟩ := h
      exact ⟨t, isOp, rfl⟩
    · simp [needOp, isOp] at h

theorem eq_of_dropOp? {op : String} {ts rest : List Token} {u : Unit}
    {hlt : rest.length < ts.length} (h : dropOp? op ts = some ⟨u, rest, hlt⟩) :
    ∃ t, t.isOp op ∧ ts = t :: rest := by
  cases ts with
  | nil => cases h
  | cons t ts =>
    by_cases isOp : t.isOp op
    · simp only [dropOp?, isOp, if_true, Option.some.injEq, Parsed.one, Parsed.mk.injEq] at h
      obtain ⟨-, rfl⟩ := h
      exact ⟨t, isOp, rfl⟩
    · simp [dropOp?, isOp] at h

theorem eq_of_dropId? {name : String} {ts rest : List Token} {u : Unit}
    {hlt : rest.length < ts.length} (h : dropId? name ts = some ⟨u, rest, hlt⟩) :
    ∃ t, t.isId name ∧ ts = t :: rest := by
  cases ts with
  | nil => cases h
  | cons t ts =>
    by_cases isId : t.isId name
    · simp only [dropId?, isId, if_true, Option.some.injEq, Parsed.one, Parsed.mk.injEq] at h
      obtain ⟨-, rfl⟩ := h
      exact ⟨t, isId, rfl⟩
    · simp [dropId?, isId] at h

theorem takeId_cons {name : String} {t : Token} (h : t.isId name) (ts : List Token) :
    takeId name (t :: ts) = ⟨true, ts, Nat.le_succ _⟩ := by
  rw [takeId, dropId?_cons h]
  rfl

theorem eq_of_takeId {name : String} {ts rest : List Token} {b : Bool}
    {hle : rest.length ≤ ts.length} (h : takeId name ts = ⟨b, rest, hle⟩) :
    (b = true ∧ ∃ t, t.isId name ∧ ts = t :: rest) ∨ (b = false ∧ ts = rest) := by
  rw [takeId] at h
  split at h
  next p hp =>
    obtain ⟨_, rest', _⟩ := p
    cases h
    exact .inl ⟨rfl, eq_of_dropId? hp⟩
  next =>
    cases h
    exact .inr ⟨rfl, rfl⟩

/-- Nothing is left over exactly if nothing is left. -/
theorem expectEnd_eq_ok_iff {tag : String} {ts : List Token} :
    expectEnd tag ts = .ok () ↔ ts = [] := by
  cases ts with
  | nil => simp [expectEnd]
  | cons t ts => simp [expectEnd]

end Token

namespace Tag

open Token

theorem needWord_eq_ok_iff {word tag : String} {ts rest : List Token} :
    needWord word tag ts = .ok rest ↔ ∃ t, t.isId word ∧ ts = t :: rest := by
  cases ts with
  | nil => simp [needWord, nextIsId]
  | cons t ts =>
    by_cases h : t.isId word
    · simp only [needWord, nextIsId, h, if_true, List.tail_cons, Except.ok.injEq]
      constructor
      · rintro rfl
        exact ⟨t, h, rfl⟩
      · rintro ⟨_, -, heq⟩
        exact (List.cons.inj heq).2
    · simp only [needWord, nextIsId, h]
      constructor
      · intro h'
        cases h'
      · rintro ⟨_, h', heq⟩
        rw [(List.cons.inj heq).1] at h
        exact absurd h' h

theorem needWord_cons {word tag : String} {t : Token} (h : t.isId word) (ts : List Token) :
    needWord word tag (t :: ts) = .ok ts :=
  needWord_eq_ok_iff.mpr ⟨t, h, rfl⟩

/-! ### Loops -/

/-- `value in expression` or `key, value in expression`. -/
inductive LoopArgs : List Token → LoopHead → Prop
  | value {value : String} {iterable : Expr} {v w : Token} {ts : List Token}
    (isValue : v.isId value) (isIn : w.isId "in") (expr : Expr.parse ts = .ok iterable) :
    LoopArgs (v :: w :: ts) ⟨none, value, iterable⟩
  | keyed {key value : String} {iterable : Expr} {k c v w : Token} {ts : List Token}
    (isKey : k.isId key) (isComma : c.isOp ",") (isValue : v.isId value) (isIn : w.isId "in")
    (expr : Expr.parse ts = .ok iterable) :
    LoopArgs (k :: c :: v :: w :: ts) ⟨some key, value, iterable⟩

theorem loopHead_eq_ok_iff {ts : List Token} {head : LoopHead} :
    loopHead ts = .ok head ↔ LoopArgs ts head := by
  constructor
  · intro h
    obtain ⟨⟨first, ts₁, _⟩, hfirst, h⟩ := Except.bind_eq_ok.mp h
    obtain ⟨k, isKey, rfl⟩ := eq_of_needId hfirst
    dsimp only at h
    split at h
    next comma hcomma =>
      obtain ⟨_, ts₂, _⟩ := comma
      obtain ⟨c, isComma, rfl⟩ := eq_of_dropOp? hcomma
      obtain ⟨⟨second, ts₃, _⟩, hsecond, h⟩ := Except.bind_eq_ok.mp h
      obtain ⟨v, isValue, rfl⟩ := eq_of_needId hsecond
      rw [pure_bind] at h
      obtain ⟨ts₄, hin, h⟩ := Except.bind_eq_ok.mp h
      obtain ⟨w, isIn, rfl⟩ := needWord_eq_ok_iff.mp hin
      obtain ⟨iterable, expr, h⟩ := Except.bind_eq_ok.mp h
      cases h
      exact .keyed isKey isComma isValue isIn expr
    next =>
      rw [pure_bind] at h
      obtain ⟨ts₂, hin, h⟩ := Except.bind_eq_ok.mp h
      obtain ⟨w, isIn, rfl⟩ := needWord_eq_ok_iff.mp hin
      obtain ⟨iterable, expr, h⟩ := Except.bind_eq_ok.mp h
      cases h
      exact .value isKey isIn expr
  · intro h
    cases h with
    | value isValue isIn expr =>
      rw [loopHead, needId_cons isValue]
      simp only [Parsed.one, bind, Except.bind, dropOp?_of_isId isIn, pure, Except.pure,
        needWord_cons isIn, expr]
    | keyed isKey isComma isValue isIn expr =>
      rw [loopHead, needId_cons isKey]
      simp only [Parsed.one, bind, Except.bind, dropOp?_cons isComma, needId_cons isValue, pure,
        Except.pure, needWord_cons isIn, expr]

/-! ### Assignments -/

/-- `name = expression`, or a name alone. -/
inductive SetArgs : List Token → String × Option Expr → Prop
  | value {name : String} {value : Expr} {n q : Token} {ts : List Token} (isName : n.isId name)
    (isEq : q.isOp "=") (expr : Expr.parse ts = .ok value) :
    SetArgs (n :: q :: ts) (name, some value)
  | text {name : String} {n : Token} (isName : n.isId name) : SetArgs [n] (name, none)

theorem setHead_eq_ok_iff {ts : List Token} {head : String × Option Expr} :
    setHead ts = .ok head ↔ SetArgs ts head := by
  constructor
  · intro h
    obtain ⟨⟨name, ts₁, _⟩, hname, h⟩ := Except.bind_eq_ok.mp h
    obtain ⟨n, isName, rfl⟩ := eq_of_needId hname
    dsimp only at h
    split at h
    next eq heq =>
      obtain ⟨_, ts₂, _⟩ := eq
      obtain ⟨q, isEq, rfl⟩ := eq_of_dropOp? heq
      obtain ⟨value, expr, h⟩ := Except.bind_eq_ok.mp h
      cases h
      exact .value isName isEq expr
    next =>
      obtain ⟨_, hend, h⟩ := Except.bind_eq_ok.mp h
      cases expectEnd_eq_ok_iff.mp hend
      cases h
      exact .text isName
  · intro h
    cases h with
    | value isName isEq expr =>
      rw [setHead, needId_cons isName]
      simp only [Parsed.one, bind, Except.bind, dropOp?_cons isEq, expr, pure, Except.pure]
    | text isName =>
      rw [setHead, needId_cons isName]
      rfl

/-! ### Other templates -/

/-- `ignore missing`, or nothing. -/
inductive IgnoreArgs : Bool → List Token → List Token → Prop
  | ignore {t u : Token} {rest : List Token} (isIgnore : t.isId "ignore")
    (isMissing : u.isId "missing") : IgnoreArgs true (t :: u :: rest) rest
  | without {rest : List Token} : IgnoreArgs false rest rest

/-- `with expression`, or nothing. -/
inductive WithArgs : Option Expr → List Token → List Token → Prop
  | vars {vars : Expr} {t : Token} {ts rest : List Token} (isWith : t.isId "with")
    (expr : vars.Begins ts rest) : WithArgs (some vars) (t :: ts) rest
  | without {rest : List Token} : WithArgs none rest rest

/-- `only`, or nothing. -/
inductive OnlyArgs : Bool → List Token → Prop
  | only {t : Token} (isOnly : t.isId "only") : OnlyArgs true [t]
  | without : OnlyArgs false []

/-- `expression [ignore missing] [with expression] [only]`. -/
inductive EmbedArgs : List Token → Instr → Prop
  | intro {template : Expr} {vars : Option Expr} {only ignoreMissing : Bool}
    {ts₀ ts₁ ts₂ ts₃ : List Token} (expr : template.Begins ts₀ ts₁)
    (ignore : IgnoreArgs ignoreMissing ts₁ ts₂) (given : WithArgs vars ts₂ ts₃)
    (last : OnlyArgs only ts₃) : EmbedArgs ts₀ (.embed template vars only ignoreMissing)

theorem takeIgnore_eq_ok {b : Bool} {ts rest : List Token}
    (h : takeIgnore ts = .ok (b, rest)) : IgnoreArgs b ts rest := by
  rw [takeIgnore] at h
  split at h
  next =>
    cases h
    exact .without
  next p hp =>
    obtain ⟨_, ts₁, _⟩ := p
    obtain ⟨t, isIgnore, rfl⟩ := eq_of_dropId? hp
    dsimp only at h
    split at h
    next hmissing =>
      cases h
      -- the word was seen, so there is a token
      cases ts₁ with
      | nil => cases hmissing
      | cons u ts₁ => exact .ignore isIgnore hmissing
    next => cases h

theorem takeVars_eq_ok {vars : Option Expr} {ts rest : List Token}
    (h : takeVars ts = .ok (vars, rest)) : WithArgs vars ts rest := by
  rw [takeVars] at h
  split at h
  next =>
    cases h
    exact .without
  next p hp =>
    obtain ⟨_, ts₁, _⟩ := p
    obtain ⟨t, isWith, rfl⟩ := eq_of_dropId? hp
    obtain ⟨⟨vars, ts₂, hlt⟩, hvars, h⟩ := Except.bind_eq_ok.mp h
    cases h
    exact .vars isWith ⟨hlt, hvars⟩

theorem onlyArgs_of_takeId {ts : List Token} (h : (takeId "only" ts).rest = []) :
    OnlyArgs (takeId "only" ts).value ts := by
  generalize hr : takeId "only" ts = r at h
  obtain ⟨only, rest, hle⟩ := r
  cases h
  rcases eq_of_takeId hr with ⟨rfl, t, isOnly, rfl⟩ | ⟨rfl, rfl⟩
  · exact .only isOnly
  · exact .without

theorem takeIgnore_of_args {b : Bool} {ts rest : List Token} (args : IgnoreArgs b ts rest)
    (next : dropId? "ignore" rest = none) : takeIgnore ts = .ok (b, rest) := by
  cases args with
  | ignore isIgnore isMissing =>
    rw [takeIgnore, dropId?_cons isIgnore]
    simp [Parsed.one, nextIsId, isMissing]
  | without => rw [takeIgnore, next]

theorem takeVars_of_args {vars : Option Expr} {ts rest : List Token} (args : WithArgs vars ts rest)
    (next : dropId? "with" rest = none) : takeVars ts = .ok (vars, rest) := by
  cases args with
  | vars isWith expr =>
    obtain ⟨_, expr⟩ := expr
    rw [takeVars, dropId?_cons isWith]
    simp only [Parsed.one, expr]
    rfl
  | without => rw [takeVars, next]

theorem takeId_of_onlyArgs {only : Bool} {ts : List Token} (last : OnlyArgs only ts) :
    ∃ hle, takeId "only" ts = ⟨only, [], hle⟩ := by
  cases last with
  | only isOnly => exact ⟨_, takeId_cons isOnly []⟩
  | without => exact ⟨Nat.le_refl _, rfl⟩

/-- No `with` may stand where only the last word may. -/
theorem dropId?_with_of_last {only : Bool} {ts : List Token} (last : OnlyArgs only ts) :
    dropId? "with" ts = none := by
  cases last with
  | only isOnly => exact dropId?_of_isId isOnly (by decide) _
  | without => rfl

/-- No `ignore` may stand where the variables may. -/
theorem dropId?_ignore_of_given {vars : Option Expr} {only : Bool} {ts rest : List Token}
    (given : WithArgs vars ts rest) (last : OnlyArgs only rest) : dropId? "ignore" ts = none := by
  cases given with
  | vars isWith expr => exact dropId?_of_isId isWith (by decide) _
  | without =>
    cases last with
    | only isOnly => exact dropId?_of_isId isOnly (by decide) _
    | without => rfl

theorem embedHead_eq_ok_iff {ts : List Token} {i : Instr} :
    embedHead ts = .ok i ↔ EmbedArgs ts i := by
  constructor
  · intro h
    obtain ⟨⟨template, ts₁, hlt⟩, htemplate, h⟩ := Except.bind_eq_ok.mp h
    obtain ⟨⟨ignoreMissing, ts₂⟩, hignore, h⟩ := Except.bind_eq_ok.mp h
    obtain ⟨⟨vars, ts₃⟩, hvars, h⟩ := Except.bind_eq_ok.mp h
    obtain ⟨_, hend, h⟩ := Except.bind_eq_ok.mp h
    have last := onlyArgs_of_takeId (expectEnd_eq_ok_iff.mp hend)
    cases h
    exact .intro ⟨hlt, htemplate⟩ (takeIgnore_eq_ok hignore) (takeVars_eq_ok hvars) last
  · intro h
    -- each part is read as far as it goes since the next one begins with another word
    obtain ⟨⟨_, expr⟩, ignore, given, last⟩ := h
    have hignore := takeIgnore_of_args ignore (dropId?_ignore_of_given given last)
    have hvars := takeVars_of_args given (dropId?_with_of_last last)
    obtain ⟨_, honly⟩ := takeId_of_onlyArgs last
    rw [embedHead, expr]
    simp only [bind, Except.bind, hignore, hvars, honly]
    rfl

/-- `expression as name`. -/
inductive ImportArgs : List Token → Instr → Prop
  | intro {template : Expr} {newName : String} {ts : List Token} {w n : Token}
    (expr : template.Begins ts [w, n]) (isAs : w.isId "as") (isName : n.isId newName) :
    ImportArgs ts (.importAs template newName)

theorem importHead_eq_ok_iff {ts : List Token} {i : Instr} :
    importHead ts = .ok i ↔ ImportArgs ts i := by
  constructor
  · intro h
    obtain ⟨⟨template, ts₁, hlt⟩, htemplate, h₁⟩ := Except.bind_eq_ok.mp h
    obtain ⟨ts₂, has, h₂⟩ := Except.bind_eq_ok.mp h₁
    obtain ⟨⟨newName, ts₃, _⟩, hname, h₃⟩ := Except.bind_eq_ok.mp h₂
    obtain ⟨_, hend, h₄⟩ := Except.bind_eq_ok.mp h₃
    obtain ⟨w, isAs, rfl⟩ := needWord_eq_ok_iff.mp has
    obtain ⟨n, isName, rfl⟩ := eq_of_needId hname
    cases expectEnd_eq_ok_iff.mp hend
    cases h₄
    exact .intro ⟨hlt, htemplate⟩ isAs isName
  · intro h
    obtain ⟨⟨_, expr⟩, isAs, isName⟩ := h
    rw [importHead, expr]
    simp only [bind, Except.bind, needWord_cons isAs, needId_cons isName]
    rfl

/-- A name, and perhaps `as` with another one. -/
inductive AliasedArgs : String × String → List Token → List Token → Prop
  | same {name : String} {n : Token} {rest : List Token} (isName : n.isId name) :
    AliasedArgs (name, name) (n :: rest) rest
  | renamed {name newName : String} {n w m : Token} {rest : List Token} (isName : n.isId name)
    (isAs : w.isId "as") (isNewName : m.isId newName) :
    AliasedArgs (name, newName) (n :: w :: m :: rest) rest

/-- Names with commas between them. -/
inductive AliasesArgs : List (String × String) → List Token → Prop
  | last {a : String × String} {ts : List Token} (first : AliasedArgs a ts []) :
    AliasesArgs [a] ts
  | more {a : String × String} {as : List (String × String)} {c : Token} {ts rest : List Token}
    (first : AliasedArgs a ts (c :: rest)) (isComma : c.isOp ",") (others : AliasesArgs as rest) :
    AliasesArgs (a :: as) ts

theorem aliased_eq_ok {a : String × String} {ts rest : List Token}
    {hlt : rest.length < ts.length} (h : aliased ts = .ok ⟨a, rest, hlt⟩) :
    AliasedArgs a ts rest := by
  obtain ⟨⟨name, ts₁, _⟩, hname, h⟩ := Except.bind_eq_ok.mp h
  obtain ⟨n, isName, rfl⟩ := eq_of_needId hname
  dsimp only at h
  split at h
  next word hword =>
    obtain ⟨_, ts₂, _⟩ := word
    obtain ⟨w, isAs, rfl⟩ := eq_of_dropId? hword
    obtain ⟨⟨newName, ts₃, _⟩, hnew, h⟩ := Except.bind_eq_ok.mp h
    obtain ⟨m, isNewName, rfl⟩ := eq_of_needId hnew
    cases h
    exact .renamed isName isAs isNewName
  next =>
    cases h
    exact .same isName

/-- A name is read alone if no `as` comes behind it. -/
theorem aliased_of_args {a : String × String} {ts rest : List Token}
    (args : AliasedArgs a ts rest) (next : dropId? "as" rest = none) :
    ∃ hlt, aliased ts = .ok ⟨a, rest, hlt⟩ := by
  cases args with
  | same isName =>
    refine ⟨Nat.lt_succ_self _, ?_⟩
    rw [aliased, needId_cons isName]
    simp only [bind, Except.bind, Parsed.one, next]
    rfl
  | renamed isName isAs isNewName =>
    refine ⟨by simp only [List.length_cons]; omega, ?_⟩
    rw [aliased, needId_cons isName]
    simp only [bind, Except.bind, Parsed.one, dropId?_cons isAs, needId_cons isNewName]
    rfl

theorem aliases_eq_ok {as : List (String × String)} {ts : List Token}
    (h : aliases ts = .ok (as, [])) : AliasesArgs as ts := by
  induction hn : ts.length using Nat.strongRecOn generalizing as ts with
  | ind n ih =>
    rw [aliases] at h
    obtain ⟨⟨first, ts₁, hlt₁⟩, hfirst, h₁⟩ := Except.bind_eq_ok.mp h
    have args := aliased_eq_ok hfirst
    dsimp only at h₁
    split at h₁
    -- a comma, and therefore more names
    next _ ts₂ hlt₂ hcomma =>
      obtain ⟨c, isComma, rfl⟩ := eq_of_dropOp? hcomma
      obtain ⟨⟨others, ts₃⟩, hothers, h₂⟩ := Except.bind_eq_ok.mp h₁
      cases h₂
      exact .more args isComma (ih ts₂.length (by omega) hothers rfl)
    next =>
      cases h₁
      exact .last args

theorem aliases_of_args {as : List (String × String)} {ts : List Token}
    (args : AliasesArgs as ts) : aliases ts = .ok (as, []) := by
  induction args with
  | last first =>
    obtain ⟨_, hfirst⟩ := aliased_of_args first rfl
    rw [aliases, hfirst]
    rfl
  | more first isComma others ih =>
    obtain ⟨_, hfirst⟩ := aliased_of_args first (dropId?_of_isOp isComma _)
    rw [aliases, hfirst]
    simp only [bind, Except.bind, dropOp?_cons isComma, Parsed.one, ih]
    rfl

/-- `expression import name [as name], …`. -/
inductive ImportNamesArgs : List Token → Instr → Prop
  | intro {template : Expr} {names : List (String × String)} {w : Token} {ts rest : List Token}
    (expr : template.Begins ts (w :: rest)) (isImport : w.isId "import")
    (all : AliasesArgs names rest) : ImportNamesArgs ts (.importNames template names)

theorem importNamesHead_eq_ok_iff {ts : List Token} {i : Instr} :
    importNamesHead ts = .ok i ↔ ImportNamesArgs ts i := by
  constructor
  · intro h
    obtain ⟨⟨template, ts₁, hlt⟩, htemplate, h₁⟩ := Except.bind_eq_ok.mp h
    obtain ⟨ts₂, himport, h₂⟩ := Except.bind_eq_ok.mp h₁
    obtain ⟨⟨names, ts₃⟩, hnames, h₃⟩ := Except.bind_eq_ok.mp h₂
    obtain ⟨_, hend, h₄⟩ := Except.bind_eq_ok.mp h₃
    obtain ⟨w, isImport, rfl⟩ := needWord_eq_ok_iff.mp himport
    cases expectEnd_eq_ok_iff.mp hend
    cases h₄
    exact .intro ⟨hlt, htemplate⟩ isImport (aliases_eq_ok hnames)
  · intro h
    obtain ⟨⟨_, expr⟩, isImport, all⟩ := h
    rw [importNamesHead, expr]
    simp only [bind, Except.bind, needWord_cons isImport, aliases_of_args all]
    rfl

/-! ### Macros -/

/-- A parameter, and perhaps its default. -/
inductive ParamArgs : String × Option Expr → List Token → List Token → Prop
  | required {name : String} {n : Token} {rest : List Token} (isName : n.isId name) :
    ParamArgs (name, none) (n :: rest) rest
  | optional {name : String} {default : Expr} {n q : Token} {ts rest : List Token}
    (isName : n.isId name) (isEq : q.isOp "=") (expr : default.Begins ts rest) :
    ParamArgs (name, some default) (n :: q :: ts) rest

theorem param_eq_ok {a : String × Option Expr} {ts rest : List Token}
    {hlt : rest.length < ts.length} (h : param ts = .ok ⟨a, rest, hlt⟩) :
    ParamArgs a ts rest := by
  obtain ⟨⟨name, ts₁, _⟩, hname, h₁⟩ := Except.bind_eq_ok.mp h
  dsimp only at h₁
  split at h₁
  next eq heq =>
    obtain ⟨_, ts₂, _⟩ := eq
    obtain ⟨⟨default, ts₃, _⟩, hdefault, h₂⟩ := Except.bind_eq_ok.mp h₁
    obtain ⟨n, isName, rfl⟩ := eq_of_needId hname
    obtain ⟨q, isEq, rfl⟩ := eq_of_dropOp? heq
    cases h₂
    exact .optional isName isEq ⟨_, hdefault⟩
  next =>
    obtain ⟨n, isName, rfl⟩ := eq_of_needId hname
    cases h₁
    exact .required isName

/-- A parameter is read without a default if no `=` comes behind it. -/
theorem param_of_args {a : String × Option Expr} {ts rest : List Token}
    (args : ParamArgs a ts rest) (next : dropOp? "=" rest = none) :
    ∃ hlt, param ts = .ok ⟨a, rest, hlt⟩ := by
  cases args with
  | required isName =>
    refine ⟨Nat.lt_succ_self _, ?_⟩
    rw [param, needId_cons isName]
    simp only [bind, Except.bind, Parsed.one, next]
    rfl
  | optional isName isEq expr =>
    obtain ⟨hlt, expr⟩ := expr
    refine ⟨by simp only [List.length_cons]; omega, ?_⟩
    rw [param, needId_cons isName]
    simp only [bind, Except.bind, Parsed.one, dropOp?_cons isEq, expr]
    rfl

/-- A parameter begins with its name. -/
theorem dropOp?_of_paramArgs {op : String} {a : String × Option Expr} {ts rest : List Token}
    (args : ParamArgs a ts rest) : dropOp? op ts = none := by
  cases args with
  | required isName => exact dropOp?_of_isId isName _
  | optional isName isEq expr => exact dropOp?_of_isId isName _

/-- Parameters with commas between them, and perhaps one behind them, up to the parenthesis
that is the last token. -/
inductive ParamsArgs : Params → List Token → Prop
  | none {p : Token} (isClose : p.isOp ")") : ParamsArgs [] [p]
  | last {a : String × Option Expr} {p : Token} {ts : List Token} (first : ParamArgs a ts [p])
    (isClose : p.isOp ")") : ParamsArgs [a] ts
  | more {a : String × Option Expr} {as : Params} {c : Token} {ts rest : List Token}
    (first : ParamArgs a ts (c :: rest)) (isComma : c.isOp ",") (others : ParamsArgs as rest) :
    ParamsArgs (a :: as) ts

theorem params_eq_ok {as : Params} {ts : List Token} (h : params ts = .ok (as, [])) :
    ParamsArgs as ts := by
  induction hn : ts.length using Nat.strongRecOn generalizing as ts with
  | ind n ih =>
    rw [params] at h
    split at h
    next close hclose =>
      obtain ⟨_, ts₁, _⟩ := close
      obtain ⟨p, isClose, rfl⟩ := eq_of_dropOp? hclose
      cases h
      exact .none isClose
    next =>
      obtain ⟨⟨first, ts₁, hlt₁⟩, hfirst, h₁⟩ := Except.bind_eq_ok.mp h
      have args := param_eq_ok hfirst
      dsimp only at h₁
      split at h₁
      next _ ts₂ hlt₂ hcomma =>
        obtain ⟨c, isComma, rfl⟩ := eq_of_dropOp? hcomma
        obtain ⟨⟨others, ts₃⟩, hothers, h₂⟩ := Except.bind_eq_ok.mp h₁
        cases h₂
        exact .more args isComma (ih ts₂.length (by omega) hothers rfl)
      next =>
        obtain ⟨⟨_, ts₂, _⟩, hclose, h₂⟩ := Except.bind_eq_ok.mp h₁
        obtain ⟨p, isClose, rfl⟩ := eq_of_needOp hclose
        cases h₂
        exact .last args isClose

theorem params_of_args {as : Params} {ts : List Token} (args : ParamsArgs as ts) :
    params ts = .ok (as, []) := by
  induction args with
  | none isClose =>
    rw [params, dropOp?_cons isClose]
    rfl
  | last first isClose =>
    obtain ⟨_, hfirst⟩ := param_of_args first (dropOp?_of_isOp isClose (by decide) _)
    rw [params, dropOp?_of_paramArgs first, hfirst]
    simp only [bind, Except.bind, dropOp?_of_isOp isClose (by decide : ")" ≠ ","),
      needOp_cons isClose]
    rfl
  | more first isComma others ih =>
    obtain ⟨_, hfirst⟩ := param_of_args first (dropOp?_of_isOp isComma (by decide) _)
    rw [params, dropOp?_of_paramArgs first, hfirst]
    simp only [bind, Except.bind, dropOp?_cons isComma, Parsed.one, ih]
    rfl

/-- `name` or `name(parameters)`. -/
inductive MacroArgs : List Token → String × Params → Prop
  | plain {name : String} {n : Token} (isName : n.isId name) : MacroArgs [n] (name, [])
  | params {name : String} {params : Params} {n p : Token} {ts : List Token}
    (isName : n.isId name) (isOpen : p.isOp "(") (all : ParamsArgs params ts) :
    MacroArgs (n :: p :: ts) (name, params)

theorem macroHead_eq_ok_iff {ts : List Token} {head : String × Params} :
    macroHead ts = .ok head ↔ MacroArgs ts head := by
  constructor
  · intro h
    obtain ⟨⟨name, ts₁, _⟩, hname, h₁⟩ := Except.bind_eq_ok.mp h
    obtain ⟨⟨as, ts₂⟩, hparams, h₂⟩ := Except.bind_eq_ok.mp h₁
    obtain ⟨_, hend, h₃⟩ := Except.bind_eq_ok.mp h₂
    obtain ⟨n, isName, rfl⟩ := eq_of_needId hname
    cases expectEnd_eq_ok_iff.mp hend
    cases h₃
    rw [takeParams] at hparams
    split at hparams
    next =>
      cases hparams
      exact .plain isName
    next paren hparen =>
      obtain ⟨_, ts₃, _⟩ := paren
      obtain ⟨p, isOpen, rfl⟩ := eq_of_dropOp? hparen
      exact .params isName isOpen (params_eq_ok hparams)
  · intro h
    cases h with
    | plain isName =>
      rw [macroHead, needId_cons isName]
      rfl
    | params isName isOpen all =>
      rw [macroHead, needId_cons isName]
      simp only [bind, Except.bind, Parsed.one, takeParams, dropOp?_cons isOpen,
        params_of_args all]
      rfl

/-! ### End tags -/

/-- Nothing, or the name of what ends. -/
inductive ClosingArgs (name : String) : List Token → Prop
  | without : ClosingArgs name []
  | named {t : Token} (text : t.text = name) : ClosingArgs name [t]

theorem closingName_eq_ok_iff {term : Terminator} {name : String} :
    closingName term name = .ok () ↔ ClosingArgs name term.args := by
  obtain ⟨tag, args⟩ := term
  constructor
  · intro h
    cases args with
    | nil => exact .without
    | cons t ts =>
      rw [closingName] at h
      by_cases text : t.text = name
      · simp only [text, ne_eq, not_true_eq_false, if_false] at h
        cases expectEnd_eq_ok_iff.mp h
        exact .named text
      · simp only [ne_eq, text, not_false_eq_true, if_true] at h
        cases h
  · intro h
    cases h with
    | without => rfl
    | named text =>
      simp only [closingName, text, ne_eq, not_true_eq_false, if_false]
      rfl

end Tag

end Stencil
