import Stencil.Proofs.Expr.Levels

/-!
# What a reading was made of

The lemmas about what the readers of expressions do are told backwards here: if a reader has read
something, then it has read the parts of some form, and what it looked at in between was this or
that. Each lemma lists the forms that one reader knows, with the facts that the forward lemma about
that form asks for, so that a proof about what was read can take a reading apart and put it together
again.

Where a reader knows more than two forms they are the constructors of an inductive: `ChainForm` for
what may stand behind an operand, `SuffixForm` for what may stand behind a primary, `PrimaryForm`
for the primaries themselves.
-/

namespace Stencil.Expr

open Token

variable {level : Precedence} {ts us rest : List Token} {e e' left : Expr}

/-! ### Tokens that came next -/

theorem nextIsOp_of_dropOp? {op : String} (h : dropOp? op ts = none) :
    nextIsOp op ts = false := by
  cases ts with
  | nil => rfl
  | cons t ts => simpa [dropOp?, nextIsOp] using h

theorem nextIsId_of_dropId? {name : String} (h : dropId? name ts = none) :
    nextIsId name ts = false := by
  cases ts with
  | nil => rfl
  | cons t ts => simpa [dropId?, nextIsId] using h

/-- Only the levels that group to the left take an operator by its first symbol. -/
theorem of_binaryOp? {t : Token} {op : BinaryOp} (h : binaryOp? level t = some op) :
    op.level = level ∧ level.isChain = true ∧ [t].map Token.symbol = op.words := by
  obtain ⟨kind, text, offset⟩ := t
  unfold binaryOp? at h
  split at h <;> simp_all [BinaryOp.level, Precedence.isChain, BinaryOp.words, BinaryOp.symbol,
    Token.symbol] <;> subst h <;> simp_all

/-- The operator that a chain takes is spelled by the tokens it takes. -/
theorem exists_words {op : BinaryOp} {hlt : us.length < ts.length}
    (h : takeOperator? level ts = some ⟨op, us, hlt⟩) :
    op.level = level ∧ level.isChain = true ∧
      ∃ words, ts = words ++ us ∧ words.map Token.symbol = op.words := by
  cases ts with
  | nil => cases h
  | cons t ts =>
    rw [takeOperator?] at h
    split at h
    next op' hop =>
      cases h
      obtain ⟨hlevel, hchain, hwords⟩ := of_binaryOp? hop
      exact ⟨hlevel, hchain, [t], rfl, hwords⟩
    next =>
      split at h
      next hnot =>
        simp only [Option.map_eq_some_iff] at h
        obtain ⟨⟨_, vs, hvs⟩, hin, h⟩ := h
        cases h
        obtain ⟨u, hu, rfl⟩ := eq_of_dropId? hin
        simp only [Bool.and_eq_true, decide_eq_true_eq] at hnot
        obtain ⟨rfl, ht⟩ := hnot
        refine ⟨rfl, rfl, [t, u], rfl, ?_⟩
        simp only [isId, Bool.and_eq_true, decide_eq_true_eq] at ht hu
        simp [Token.symbol, BinaryOp.words, Parsed.map, ht, hu]
      next => cases h

/-! ### Levels -/

theorem ReadsAt.ternary_cases (h : ReadsAt .ternary ts e rest) :
    (ReadsAt .disjunction ts e rest ∧ nextIsOp "?" rest = false) ∨
      ∃ cond mark us yes colon vs no, ReadsAt .disjunction ts cond (mark :: us) ∧ mark.isOp "?" ∧
        ReadsAt .ternary us yes (colon :: vs) ∧ colon.isOp ":" ∧ ReadsAt .ternary vs no rest ∧
        e = .ternary cond yes no := by
  obtain ⟨_, h⟩ := h
  rw [parseAt] at h
  obtain ⟨⟨cond, us, hlt⟩, hcond, h⟩ := Except.bind_eq_ok.mp h
  dsimp only at h
  split at h
  next hmark =>
    cases h
    exact .inl ⟨⟨hlt, hcond⟩, nextIsOp_of_dropOp? hmark⟩
  next hmark =>
    obtain ⟨⟨yes, vs, hyeslt⟩, hyes, h⟩ := Except.bind_eq_ok.mp h
    obtain ⟨⟨_, ws, hws⟩, hcolon, h⟩ := Except.bind_eq_ok.mp h
    obtain ⟨⟨no, _, hnolt⟩, hno, h⟩ := Except.bind_eq_ok.mp h
    cases h
    obtain ⟨mark, isMark, rfl⟩ := eq_of_dropOp? hmark
    obtain ⟨colon, isColon, rfl⟩ := eq_of_needOp hcolon
    exact .inr ⟨cond, mark, _, yes, colon, ws, no, ⟨hlt, hcond⟩, isMark, ⟨hyeslt, hyes⟩, isColon,
      ⟨hnolt, hno⟩, rfl⟩

theorem ReadsAt.chain_cases (hlevel : level.isChain = true) (h : ReadsAt level ts e rest) :
    ∃ left us, ReadsAt level.tighter ts left us ∧ ChainReads level left us e rest := by
  obtain ⟨_, h⟩ := h
  rw [parseAt_of_isChain hlevel] at h
  obtain ⟨⟨left, us, hlt⟩, hleft, h⟩ := Except.bind_eq_ok.mp h
  obtain ⟨⟨_, _, hle⟩, hchain, h⟩ := Except.bind_eq_ok.mp h
  cases h
  exact ⟨left, us, ⟨hlt, hleft⟩, hle, hchain⟩

/-- What may stand behind an operand of a level that groups to the left: nothing, a test, or an
operator with its other operand. -/
inductive ChainForm : Precedence → Expr → List Token → Expr → List Token → Prop
  | stop {level : Precedence} {e : Expr} {ts : List Token} (h : level.goesOn ts = false) :
    ChainForm level e ts e ts
  | test {left e : Expr} {is name : Token} {ts rest : List Token} (his : is.isId "is")
    (hkind : name.kind = .identifier) (hname : name.text ≠ "not")
    (hchain : ChainReads .comparison (.test left name.text false) ts e rest) :
    ChainForm .comparison left (is :: name :: ts) e rest
  | negatedTest {left e : Expr} {is not name : Token} {ts rest : List Token} (his : is.isId "is")
    (hnot : not.isId "not") (hkind : name.kind = .identifier)
    (hchain : ChainReads .comparison (.test left name.text true) ts e rest) :
    ChainForm .comparison left (is :: not :: name :: ts) e rest
  | operator {op : BinaryOp} {left right e : Expr} {words ts us rest : List Token}
    (hlevel : op.level.isChain = true) (hwords : words.map Token.symbol = op.words)
    (hright : ReadsAt op.level.tighter ts right us)
    (hchain : ChainReads op.level (.binary op left right) us e rest) :
    ChainForm op.level left (words ++ ts) e rest

/-- The name of a test is an identifier, with a `not` before it or without. -/
theorem exists_of_needId_takeId {name : String}
    {hlt : us.length < (takeId "not" ts).rest.length}
    (h : needId (takeId "not" ts).rest = .ok ⟨name, us, hlt⟩) :
    ∃ token : Token, token.kind = .identifier ∧ token.text = name ∧
      (ts = token :: us ∧ token.text ≠ "not" ∧ (takeId "not" ts).value = false ∨
        ∃ not : Token, not.isId "not" ∧ ts = not :: token :: us ∧
          (takeId "not" ts).value = true) := by
  obtain ⟨token, hid, hrest⟩ := eq_of_needId h
  simp only [isId, Bool.and_eq_true, decide_eq_true_eq] at hid
  refine ⟨token, hid.1, hid.2, ?_⟩
  cases hnot : dropId? "not" ts with
  | none =>
    simp only [takeId, hnot] at hrest ⊢
    have hnext := nextIsId_of_dropId? hnot
    rw [hrest] at hnext
    exact .inl ⟨hrest, by simpa [nextIsId, isId, hid.1] using hnext, trivial⟩
  | some p =>
    obtain ⟨_, vs, hvs⟩ := p
    simp only [takeId, hnot] at hrest ⊢
    obtain ⟨not, isNot, rfl⟩ := eq_of_dropId? hnot
    exact .inr ⟨not, isNot, by rw [hrest], trivial⟩

theorem ChainReads.form (hlevel : level.isChain = true) (h : ChainReads level left ts e rest) :
    ChainForm level left ts e rest := by
  obtain ⟨_, h⟩ := h
  rw [parseChain] at h
  split at h
  next _ us _ his =>
    obtain ⟨⟨name, vs, hlt⟩, hname, h⟩ := Except.bind_eq_ok.mp h
    obtain ⟨⟨_, _, hle⟩, hchain, h⟩ := Except.bind_eq_ok.mp h
    cases h
    split at his
    next hcomparison =>
      subst hcomparison
      obtain ⟨is, isIs, rfl⟩ := eq_of_dropId? his
      obtain ⟨token, hkind, rfl, ⟨hts, htext, hvalue⟩ | ⟨not, isNot, hts, hvalue⟩⟩ :=
        exists_of_needId_takeId hname
      · have hmore : ChainReads .comparison (.test left token.text (takeId "not" us).value) vs e
            rest := ⟨hle, hchain⟩
        rw [hvalue] at hmore
        rw [hts]
        exact .test isIs hkind htext hmore
      · have hmore : ChainReads .comparison (.test left token.text (takeId "not" us).value) vs e
            rest := ⟨hle, hchain⟩
        rw [hvalue] at hmore
        rw [hts]
        exact .negatedTest isIs isNot hkind hmore
    next => cases his
  next his =>
    split at h
    next htake =>
      cases h
      refine .stop ?_
      cases level with
      | comparison =>
        rw [if_pos rfl] at his
        simp [Precedence.goesOn, htake, nextIsId_of_dropId? his]
      | _ => first | exact absurd hlevel (by decide) | simp [Precedence.goesOn, htake]
    next op us _ htake =>
      -- one operator may be two tokens, `not` and `in`
      obtain ⟨⟨right, vs, hlt⟩, hright, h⟩ := Except.bind_eq_ok.mp h
      obtain ⟨⟨_, _, hle⟩, hchain, h⟩ := Except.bind_eq_ok.mp h
      cases h
      obtain ⟨rfl, -, words, rfl, hwords⟩ := exists_words htake
      exact .operator hlevel hwords ⟨hlt, hright⟩ ⟨hle, hchain⟩

theorem ReadsAt.negation_cases (h : ReadsAt .negation ts e rest) :
    (ReadsAt .comparison ts e rest ∧ nextIsId "not" ts = false) ∨
      ∃ t us inside, ts = t :: us ∧ t.isId "not" ∧ ReadsAt .negation us inside rest ∧
        e = .unary .not inside := by
  obtain ⟨hlt, h⟩ := h
  rw [parseAt] at h
  split at h
  next hnot =>
    obtain ⟨⟨inside, _, hinsidelt⟩, hinside, h⟩ := Except.bind_eq_ok.mp h
    cases h
    obtain ⟨t, ht, rfl⟩ := eq_of_dropId? hnot
    exact .inr ⟨t, _, inside, rfl, ht, ⟨hinsidelt, hinside⟩, rfl⟩
  next hnot => exact .inl ⟨⟨hlt, h⟩, nextIsId_of_dropId? hnot⟩

theorem ReadsAt.range_cases (h : ReadsAt .range ts e rest) :
    (ReadsAt .concatenation ts e rest ∧ nextIsOp ".." rest = false) ∨
      ∃ left t us right, ReadsAt .concatenation ts left (t :: us) ∧ t.isOp ".." ∧
        ReadsAt .concatenation us right rest ∧ e = .binary .range left right := by
  obtain ⟨_, h⟩ := h
  rw [parseAt] at h
  obtain ⟨⟨left, us, hlt⟩, hleft, h⟩ := Except.bind_eq_ok.mp h
  dsimp only at h
  split at h
  next hdots =>
    cases h
    exact .inl ⟨⟨hlt, hleft⟩, nextIsOp_of_dropOp? hdots⟩
  next hdots =>
    obtain ⟨⟨right, _, hrightlt⟩, hright, h⟩ := Except.bind_eq_ok.mp h
    cases h
    obtain ⟨t, ht, rfl⟩ := eq_of_dropOp? hdots
    exact .inr ⟨left, t, _, right, ⟨hlt, hleft⟩, ht, ⟨hrightlt, hright⟩, rfl⟩

theorem ReadsAt.sign_cases (h : ReadsAt .sign ts e rest) :
    (ReadsAt .power ts e rest ∧ nextIsOp "-" ts = false ∧ nextIsOp "+" ts = false) ∨
      ∃ t us inside, ts = t :: us ∧ ReadsAt .sign us inside rest ∧
        (t.isOp "-" ∧ e = .unary .neg inside ∨ t.isOp "+" ∧ e = .unary .pos inside) := by
  obtain ⟨hlt, h⟩ := h
  rw [parseAt] at h
  split at h
  next hminus =>
    obtain ⟨⟨inside, _, hinsidelt⟩, hinside, h⟩ := Except.bind_eq_ok.mp h
    cases h
    obtain ⟨t, ht, rfl⟩ := eq_of_dropOp? hminus
    exact .inr ⟨t, _, inside, rfl, ⟨hinsidelt, hinside⟩, .inl ⟨ht, rfl⟩⟩
  next hminus =>
    split at h
    next hplus =>
      obtain ⟨⟨inside, _, hinsidelt⟩, hinside, h⟩ := Except.bind_eq_ok.mp h
      cases h
      obtain ⟨t, ht, rfl⟩ := eq_of_dropOp? hplus
      exact .inr ⟨t, _, inside, rfl, ⟨hinsidelt, hinside⟩, .inr ⟨ht, rfl⟩⟩
    next hplus =>
      exact .inl ⟨⟨hlt, h⟩, nextIsOp_of_dropOp? hminus, nextIsOp_of_dropOp? hplus⟩

theorem ReadsAt.power_cases (h : ReadsAt .power ts e rest) :
    (ReadsAt .suffixed ts e rest ∧ nextIsOp "**" rest = false) ∨
      ∃ base t us exponent, ReadsAt .suffixed ts base (t :: us) ∧ t.isOp "**" ∧
        ReadsAt .sign us exponent rest ∧ e = .binary .pow base exponent := by
  obtain ⟨_, h⟩ := h
  rw [parseAt] at h
  obtain ⟨⟨base, us, hlt⟩, hbase, h⟩ := Except.bind_eq_ok.mp h
  dsimp only at h
  split at h
  next hstars =>
    cases h
    exact .inl ⟨⟨hlt, hbase⟩, nextIsOp_of_dropOp? hstars⟩
  next hstars =>
    obtain ⟨⟨exponent, _, hexponentlt⟩, hexponent, h⟩ := Except.bind_eq_ok.mp h
    cases h
    obtain ⟨t, ht, rfl⟩ := eq_of_dropOp? hstars
    exact .inr ⟨base, t, _, exponent, ⟨hlt, hbase⟩, ht, ⟨hexponentlt, hexponent⟩, rfl⟩

/-! ### Suffixes -/

theorem ReadsAt.suffixed_cases (h : ReadsAt .suffixed ts e rest) :
    ∃ first us, ReadsAt .primary ts first us ∧ SuffixesRead first us e rest := by
  obtain ⟨_, h⟩ := h
  rw [parseAt] at h
  obtain ⟨⟨first, us, hlt⟩, hfirst, h⟩ := Except.bind_eq_ok.mp h
  obtain ⟨⟨_, _, hle⟩, hmore, h⟩ := Except.bind_eq_ok.mp h
  cases h
  exact ⟨first, us, ⟨hlt, hfirst⟩, hle, hmore⟩

/-- What may stand behind a primary. -/
inductive SuffixForm : Expr → List Token → Expr → List Token → Prop
  | stop {e : Expr} {ts : List Token} (h : Precedence.suffixed.goesOn ts = false) :
    SuffixForm e ts e ts
  | attr {e e' : Expr} {t name : Token} {ts rest : List Token} (ht : t.isOp ".")
    (hname : name.kind = .identifier ∨ name.kind = .number)
    (hmore : SuffixesRead (.attr e name.text) ts e' rest) :
    SuffixForm e (t :: name :: ts) e' rest
  | index {e e' position : Expr} {t close : Token} {ts us rest : List Token} (ht : t.isOp "[")
    (hposition : ReadsAt .ternary ts position (close :: us)) (hclose : close.isOp "]")
    (hmore : SuffixesRead (.index e position) us e' rest) : SuffixForm e (t :: ts) e' rest
  | call {e e' : Expr} {args : List Expr} {t : Token} {ts us rest : List Token} (ht : t.isOp "(")
    (hargs : ItemsRead ")" ts args us) (hmore : SuffixesRead (.call e args) us e' rest) :
    SuffixForm e (t :: ts) e' rest
  | filter {e e' : Expr} {args : List Expr} {t name paren : Token} {ts us rest : List Token}
    (ht : t.isOp "|") (hname : name.kind = .identifier) (hparen : paren.isOp "(")
    (hargs : ItemsRead ")" ts args us)
    (hmore : SuffixesRead (.filter e name.text args) us e' rest) :
    SuffixForm e (t :: name :: paren :: ts) e' rest
  | bareFilter {e e' : Expr} {t name : Token} {ts rest : List Token} (ht : t.isOp "|")
    (hname : name.kind = .identifier) (hnext : nextIsOp "(" ts = false)
    (hmore : SuffixesRead (.filter e name.text []) ts e' rest) :
    SuffixForm e (t :: name :: ts) e' rest

theorem exists_of_needAttribute {name : String} {hlt : us.length < ts.length}
    (h : needAttribute ts = .ok ⟨name, us, hlt⟩) :
    ∃ t, ts = t :: us ∧ name = t.text ∧ (t.kind = .identifier ∨ t.kind = .number) := by
  cases ts with
  | nil => cases h
  | cons t ts =>
    rw [needAttribute] at h
    split at h
    next hkind =>
      cases h
      exact ⟨t, rfl, rfl, by simpa using hkind⟩
    next => cases h

theorem SuffixesRead.form (h : SuffixesRead e ts e' rest) : SuffixForm e ts e' rest := by
  obtain ⟨_, h⟩ := h
  rw [parseSuffixes] at h
  split at h
  next hdot =>
    obtain ⟨⟨name, us, _⟩, hname, h⟩ := Except.bind_eq_ok.mp h
    obtain ⟨⟨_, _, hle⟩, hmore, h⟩ := Except.bind_eq_ok.mp h
    cases h
    obtain ⟨t, ht, rfl⟩ := eq_of_dropOp? hdot
    obtain ⟨token, rfl, rfl, hkind⟩ := exists_of_needAttribute hname
    exact .attr ht hkind ⟨hle, hmore⟩
  next hdot =>
  split at h
  next hopen =>
    obtain ⟨⟨position, us, hlt⟩, hposition, h⟩ := Except.bind_eq_ok.mp h
    obtain ⟨⟨_, vs, _⟩, hclose, h⟩ := Except.bind_eq_ok.mp h
    obtain ⟨⟨_, _, hle⟩, hmore, h⟩ := Except.bind_eq_ok.mp h
    cases h
    obtain ⟨t, ht, rfl⟩ := eq_of_dropOp? hopen
    obtain ⟨close, closes, rfl⟩ := eq_of_needOp hclose
    exact .index ht ⟨hlt, hposition⟩ closes ⟨hle, hmore⟩
  next hopen =>
  split at h
  next hparen =>
    obtain ⟨⟨args, us, hlt⟩, hargs, h⟩ := Except.bind_eq_ok.mp h
    obtain ⟨⟨_, _, hle⟩, hmore, h⟩ := Except.bind_eq_ok.mp h
    cases h
    obtain ⟨t, ht, rfl⟩ := eq_of_dropOp? hparen
    exact .call ht ⟨hlt, hargs⟩ ⟨hle, hmore⟩
  next hparen =>
  split at h
  next hbar =>
    obtain ⟨⟨name, us, _⟩, hname, h⟩ := Except.bind_eq_ok.mp h
    obtain ⟨t, ht, rfl⟩ := eq_of_dropOp? hbar
    obtain ⟨token, hid, rfl⟩ := eq_of_needId hname
    simp only [isId, Bool.and_eq_true, decide_eq_true_eq] at hid
    obtain ⟨hkind, rfl⟩ := hid
    dsimp only at h
    split at h
    next hopens =>
      obtain ⟨⟨args, vs, hlt⟩, hargs, h⟩ := Except.bind_eq_ok.mp h
      obtain ⟨⟨_, _, hle⟩, hmore, h⟩ := Except.bind_eq_ok.mp h
      cases h
      obtain ⟨paren, opens, rfl⟩ := eq_of_dropOp? hopens
      exact .filter ht hkind opens ⟨hlt, hargs⟩ ⟨hle, hmore⟩
    next hopens =>
      obtain ⟨⟨_, _, hle⟩, hmore, h⟩ := Except.bind_eq_ok.mp h
      cases h
      exact .bareFilter ht hkind (nextIsOp_of_dropOp? hopens) ⟨hle, hmore⟩
  next hbar =>
    cases h
    refine .stop ?_
    simp [Precedence.goesOn, nextIsOp_of_dropOp? hdot, nextIsOp_of_dropOp? hopen,
      nextIsOp_of_dropOp? hparen, nextIsOp_of_dropOp? hbar]

/-! ### Primaries -/

/-- What an expression may begin with. -/
inductive PrimaryForm : List Token → Expr → List Token → Prop
  | number {t : Token} {v : Value} {ts : List Token} (ht : t.kind = .number)
    (hv : literal? t.text = .ok v) : PrimaryForm (t :: ts) (.literal v) ts
  | string {t : Token} {ts : List Token} (ht : t.kind = .string) :
    PrimaryForm (t :: ts) (.literal (.str t.text)) ts
  | word {t : Token} {ts : List Token} (ht : t.kind = .identifier) :
    PrimaryForm (t :: ts) (ofWord t.text) ts
  | group {e : Expr} {t close : Token} {ts rest : List Token} (ht : t.isOp "(")
    (h : ReadsAt .ternary ts e (close :: rest)) (hclose : close.isOp ")") :
    PrimaryForm (t :: ts) e rest
  | list {items : List Expr} {t : Token} {ts rest : List Token} (ht : t.isOp "[")
    (h : ItemsRead "]" ts items rest) : PrimaryForm (t :: ts) (.list items) rest
  | map {entries : List (Expr × Expr)} {t : Token} {ts rest : List Token} (ht : t.isOp "\x7b")
    (h : EntriesRead ts entries rest) : PrimaryForm (t :: ts) (.map entries) rest

theorem ReadsAt.primary_form (h : ReadsAt .primary ts e rest) : PrimaryForm ts e rest := by
  obtain ⟨_, h⟩ := h
  cases ts with
  | nil =>
    rw [parseAt] at h
    cases h
  | cons t ts =>
    rw [parseAt] at h
    split at h
    next hkind =>
      obtain ⟨v, hv, h⟩ := Except.bind_eq_ok.mp h
      cases h
      exact .number hkind hv
    next hkind =>
      cases h
      exact .string hkind
    next hkind =>
      cases h
      exact .word hkind
    next hkind =>
      split at h
      next htext =>
        obtain ⟨⟨e, us, hlt⟩, hinside, h⟩ := Except.bind_eq_ok.mp h
        obtain ⟨⟨_, _, _⟩, hclose, h⟩ := Except.bind_eq_ok.mp h
        cases h
        obtain ⟨close, closes, rfl⟩ := eq_of_needOp hclose
        exact .group (by simp [isOp, hkind, htext]) ⟨hlt, hinside⟩ closes
      next =>
        split at h
        next htext =>
          obtain ⟨⟨items, _, hlt⟩, hitems, h⟩ := Except.bind_eq_ok.mp h
          cases h
          exact .list (by simp [isOp, hkind, htext]) ⟨hlt, hitems⟩
        next =>
          split at h
          next htext =>
            obtain ⟨⟨entries, _, hlt⟩, hentries, h⟩ := Except.bind_eq_ok.mp h
            cases h
            exact .map (by simp [isOp, hkind, htext]) ⟨hlt, hentries⟩
          next => cases h

/-! ### Items and entries -/

/-- What may stand between brackets. -/
inductive ItemsForm (close : String) : List Token → List Expr → List Token → Prop
  | close {t : Token} {ts : List Token} (ht : t.isOp close) : ItemsForm close (t :: ts) [] ts
  | last {e : Expr} {t : Token} {ts us : List Token} (hfirst : nextIsOp close ts = false)
    (h : ReadsAt .ternary ts e (t :: us)) (ht : t.isOp close) : ItemsForm close ts [e] us
  | more {e : Expr} {items : List Expr} {t : Token} {ts us rest : List Token}
    (hfirst : nextIsOp close ts = false) (h : ReadsAt .ternary ts e (t :: us)) (ht : t.isOp ",")
    (hmore : ItemsRead close us items rest) : ItemsForm close ts (e :: items) rest

theorem ItemsRead.form {close : String} {items : List Expr} (h : ItemsRead close ts items rest) :
    ItemsForm close ts items rest := by
  obtain ⟨_, h⟩ := h
  rw [parseItems] at h
  split at h
  next hclose =>
    cases h
    obtain ⟨t, ht, rfl⟩ := eq_of_dropOp? hclose
    exact .close ht
  next hfirst =>
    obtain ⟨⟨item, us, hlt⟩, hitem, h⟩ := Except.bind_eq_ok.mp h
    dsimp only at h
    split at h
    next hcomma =>
      obtain ⟨⟨items, _, hmorelt⟩, hmore, h⟩ := Except.bind_eq_ok.mp h
      cases h
      obtain ⟨t, ht, rfl⟩ := eq_of_dropOp? hcomma
      exact .more (nextIsOp_of_dropOp? hfirst) ⟨hlt, hitem⟩ ht ⟨hmorelt, hmore⟩
    next =>
      obtain ⟨⟨_, _, _⟩, hclose, h⟩ := Except.bind_eq_ok.mp h
      cases h
      obtain ⟨t, ht, rfl⟩ := eq_of_needOp hclose
      exact .last (nextIsOp_of_dropOp? hfirst) ⟨hlt, hitem⟩ ht

/-- What may stand between braces. -/
inductive EntriesForm : List Token → List (Expr × Expr) → List Token → Prop
  | close {t : Token} {ts : List Token} (ht : t.isOp "\x7d") : EntriesForm (t :: ts) [] ts
  | last {key value : Expr} {colon t : Token} {ts us vs : List Token}
    (hfirst : nextIsOp "\x7d" ts = false) (hkey : KeyReads ts key (colon :: us))
    (hcolon : colon.isOp ":") (hvalue : ReadsAt .ternary us value (t :: vs)) (ht : t.isOp "\x7d") :
    EntriesForm ts [(key, value)] vs
  | more {key value : Expr} {entries : List (Expr × Expr)} {colon t : Token}
    {ts us vs rest : List Token} (hfirst : nextIsOp "\x7d" ts = false)
    (hkey : KeyReads ts key (colon :: us)) (hcolon : colon.isOp ":")
    (hvalue : ReadsAt .ternary us value (t :: vs)) (ht : t.isOp ",")
    (hmore : EntriesRead vs entries rest) : EntriesForm ts ((key, value) :: entries) rest

theorem EntriesRead.form {entries : List (Expr × Expr)} (h : EntriesRead ts entries rest) :
    EntriesForm ts entries rest := by
  obtain ⟨_, h⟩ := h
  rw [parseEntries] at h
  split at h
  next hclose =>
    cases h
    obtain ⟨t, ht, rfl⟩ := eq_of_dropOp? hclose
    exact .close ht
  next hfirst =>
    obtain ⟨⟨key, us, hkeylt⟩, hkey, h⟩ := Except.bind_eq_ok.mp h
    obtain ⟨⟨_, vs, _⟩, hcolon, h⟩ := Except.bind_eq_ok.mp h
    obtain ⟨⟨value, ws, hvaluelt⟩, hvalue, h⟩ := Except.bind_eq_ok.mp h
    obtain ⟨colon, isColon, rfl⟩ := eq_of_needOp hcolon
    dsimp only at h
    split at h
    next hcomma =>
      obtain ⟨⟨entries, _, hmorelt⟩, hmore, h⟩ := Except.bind_eq_ok.mp h
      cases h
      obtain ⟨t, ht, rfl⟩ := eq_of_dropOp? hcomma
      exact .more (nextIsOp_of_dropOp? hfirst) ⟨hkeylt, hkey⟩ isColon ⟨hvaluelt, hvalue⟩ ht
        ⟨hmorelt, hmore⟩
    next =>
      obtain ⟨⟨_, _, _⟩, hclose, h⟩ := Except.bind_eq_ok.mp h
      cases h
      obtain ⟨t, ht, rfl⟩ := eq_of_needOp hclose
      exact .last (nextIsOp_of_dropOp? hfirst) ⟨hkeylt, hkey⟩ isColon ⟨hvaluelt, hvalue⟩ ht

/-- What may stand before the colon of an entry. -/
inductive KeyForm : List Token → Expr → List Token → Prop
  | string {t : Token} {ts : List Token} (ht : t.kind = .identifier ∨ t.kind = .string) :
    KeyForm (t :: ts) (.literal (.str t.text)) ts
  | number {t : Token} {v : Value} {ts : List Token} (ht : t.kind = .number)
    (hv : literal? t.text = .ok v) : KeyForm (t :: ts) (.literal v) ts
  | group {e : Expr} {t close : Token} {ts rest : List Token} (ht : t.isOp "(")
    (h : ReadsAt .ternary ts e (close :: rest)) (hclose : close.isOp ")") :
    KeyForm (t :: ts) e rest

theorem KeyReads.form {key : Expr} (h : KeyReads ts key rest) : KeyForm ts key rest := by
  obtain ⟨_, h⟩ := h
  cases ts with
  | nil =>
    rw [parseKey] at h
    cases h
  | cons t ts =>
    rw [parseKey] at h
    split at h
    next hkind =>
      cases h
      exact .string (.inl hkind)
    next hkind =>
      cases h
      exact .string (.inr hkind)
    next hkind =>
      obtain ⟨v, hv, h⟩ := Except.bind_eq_ok.mp h
      cases h
      exact .number hkind hv
    next hkind =>
      split at h
      next htext =>
        obtain ⟨⟨e, us, hlt⟩, hinside, h⟩ := Except.bind_eq_ok.mp h
        obtain ⟨⟨_, _, _⟩, hclose, h⟩ := Except.bind_eq_ok.mp h
        cases h
        obtain ⟨close, closes, rfl⟩ := eq_of_needOp hclose
        exact .group (by simp [isOp, hkind, htext]) ⟨hlt, hinside⟩ closes
      next => cases h

end Stencil.Expr
