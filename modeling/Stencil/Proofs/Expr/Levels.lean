import Stencil.Expr.Parser
import Stencil.Proofs.Nesting.Arguments

/-!
# What the readers of expressions do

One lemma for each thing that a reader can do, so that no proof about reading has to open a
reader again. They are told forwards: if what a reader goes on with reads this expression, then the
reader reads that one. `Expr.ReadsAt` and its relatives say what is read and which tokens are left,
and nothing about how many they are.

A reader of a level goes on as long as it can. `Precedence.goesOn` tells what the next tokens must
be for that, and `Precedence.Stops` that neither this level nor a tighter one goes on.
-/

namespace Stencil

/-! ### Symbols and levels -/

/-- What a token says, wherever it stands. -/
def Token.symbol (t : Token) : TokenKind × String :=
  (t.kind, t.text)

/-- The symbols that spell an operator. Only `not in` has two. -/
def BinaryOp.words : BinaryOp → List (TokenKind × String)
  | .or => [(.identifier, "or")]
  | .and => [(.identifier, "and")]
  | .mem => [(.identifier, "in")]
  | .notMem => [(.identifier, "not"), (.identifier, "in")]
  | op => [(.operator, op.symbol)]

/-- The level that an operator belongs to. -/
def BinaryOp.level : BinaryOp → Expr.Precedence
  | .or => .disjunction
  | .and => .conjunction
  | .eq | .ne | .lt | .gt | .le | .ge | .mem | .notMem => .comparison
  | .range => .range
  | .concat => .concatenation
  | .add | .sub => .sum
  | .mul | .div | .floorDiv | .rem => .product
  | .pow => .power

namespace Expr

open Token

namespace Precedence

/-- The next tighter level. -/
def tighter : Precedence → Precedence
  | ternary => disjunction
  | disjunction => conjunction
  | conjunction => negation
  | negation => comparison
  | comparison => range
  | range => concatenation
  | concatenation => sum
  | sum => product
  | product => sign
  | sign => power
  | power => suffixed
  | suffixed => primary
  | primary => primary

/-- Whether the level has operators that group to the left. -/
def isChain : Precedence → Bool
  | disjunction | conjunction | comparison | concatenation | sum | product => true
  | _ => false

/-- Whether a form of this level goes on with these tokens. -/
def goesOn (level : Precedence) (ts : List Token) : Bool :=
  match level with
  | ternary => nextIsOp "?" ts
  | disjunction | conjunction | concatenation | sum | product => (takeOperator? level ts).isSome
  | comparison => nextIsId "is" ts || (takeOperator? comparison ts).isSome
  | range => nextIsOp ".." ts
  | power => nextIsOp "**" ts
  | suffixed => nextIsOp "." ts || nextIsOp "[" ts || nextIsOp "(" ts || nextIsOp "|" ts
  | negation | sign | primary => false

/-- Whether no form of this level or of a tighter one goes on with these tokens. -/
def Stops (level : Precedence) (ts : List Token) : Prop :=
  ∀ l : Precedence, l.rank ≤ level.rank → l.goesOn ts = false

theorem Stops.mono {level level' : Precedence} {ts : List Token} (h : level.Stops ts)
    (hle : level'.rank ≤ level.rank) : level'.Stops ts :=
  fun l hl => h l (Nat.le_trans hl hle)

theorem stops_nil (level : Precedence) : level.Stops [] := by
  intro l _
  cases l <;> rfl

theorem stops_primary (ts : List Token) : primary.Stops ts := by
  intro l hl
  cases l <;> first | rfl | exact absurd hl (by decide)

theorem rank_tighter_le (level : Precedence) : level.tighter.rank ≤ level.rank := by
  cases level <;> decide

theorem rank_tighter_lt (level : Precedence) (h : level ≠ .primary) :
    level.tighter.rank < level.rank := by
  cases level <;> first | exact absurd rfl h | decide

/-- There is no level between a level and the next tighter one. -/
theorem eq_or_rank_le_tighter {l level : Precedence} (h : l.rank ≤ level.rank) :
    l = level ∨ l.rank ≤ level.tighter.rank := by
  revert h
  cases level <;> cases l <;> decide

theorem Stops.of_tighter {level : Precedence} {ts : List Token} (h : level.tighter.Stops ts)
    (hlevel : level.goesOn ts = false) : level.Stops ts := by
  intro l hl
  rcases eq_or_rank_le_tighter hl with rfl | hl
  · exact hlevel
  · exact h l hl

/-- Whether a chain goes on is told by one token, or by the two of `not in`. -/
theorem isSome_takeOperator?_cons (level : Precedence) (t : Token) (ts : List Token) :
    (takeOperator? level (t :: ts)).isSome =
      ((binaryOp? level t).isSome ||
        (level = .comparison && t.isId "not" && nextIsId "in" ts)) := by
  rw [takeOperator?]
  cases binaryOp? level t with
  | some op => simp
  | none =>
    by_cases h : (level = .comparison && t.isId "not") = true
    · cases ts with
      | nil => simp [dropId?, nextIsId]
      | cons u ts => cases hu : u.isId "in" <;> simp [h, dropId?, nextIsId, hu]
    · simp [h]

/-- Which levels an operator goes on with does not depend on where it stands. -/
theorem goesOn_of_isOp {op : String} {t : Token} (ht : t.isOp op = true) (level : Precedence)
    (ts : List Token) : level.goesOn (t :: ts) = level.goesOn [⟨.operator, op, 0⟩] := by
  obtain ⟨kind, text, offset⟩ := t
  simp only [isOp, Bool.and_eq_true, decide_eq_true_eq] at ht
  obtain ⟨rfl, rfl⟩ := ht
  cases level <;> simp [goesOn, isSome_takeOperator?_cons, nextIsOp, nextIsId, isOp, isId,
    binaryOp?]

end Precedence

/-! ### What is read -/

/-- A level reads an expression and leaves the rest. -/
def ReadsAt (level : Precedence) (ts : List Token) (e : Expr) (rest : List Token) : Prop :=
  ∃ h, parseAt level ts = .ok ⟨e, rest, h⟩

/-- The chain of a level, after an operand, becomes an expression and leaves the rest. -/
def ChainReads (level : Precedence) (left : Expr) (ts : List Token) (e : Expr)
    (rest : List Token) : Prop :=
  ∃ h, parseChain level level.tighter left ts = .ok ⟨e, rest, h⟩

/-- An expression with what is read behind it becomes another and leaves the rest. -/
def SuffixesRead (e : Expr) (ts : List Token) (e' : Expr) (rest : List Token) : Prop :=
  ∃ h, parseSuffixes e ts = .ok ⟨e', rest, h⟩

def ItemsRead (close : String) (ts : List Token) (items : List Expr) (rest : List Token) : Prop :=
  ∃ h, parseItems close ts = .ok ⟨items, rest, h⟩

def EntriesRead (ts : List Token) (entries : List (Expr × Expr)) (rest : List Token) : Prop :=
  ∃ h, parseEntries ts = .ok ⟨entries, rest, h⟩

def KeyReads (ts : List Token) (key : Expr) (rest : List Token) : Prop :=
  ∃ h, parseKey ts = .ok ⟨key, rest, h⟩

/-! ### Tokens that do not come next -/

theorem dropOp?_of_nextIsOp {op : String} {ts : List Token} (h : nextIsOp op ts = false) :
    dropOp? op ts = none := by
  cases ts with
  | nil => rfl
  | cons t ts =>
    rw [nextIsOp] at h
    simp [dropOp?, h]

theorem nextIsOp_of_isOp {op other : String} {t : Token} (ht : t.isOp op = true)
    (hne : op ≠ other) (ts : List Token) : nextIsOp other (t :: ts) = false := by
  simp only [isOp, Bool.and_eq_true, decide_eq_true_eq] at ht
  simp [nextIsOp, isOp, ht.2, hne]

theorem dropId?_of_nextIsId {name : String} {ts : List Token} (h : nextIsId name ts = false) :
    dropId? name ts = none := by
  cases ts with
  | nil => rfl
  | cons t ts =>
    rw [nextIsId] at h
    simp [dropId?, h]

variable {level : Precedence} {ts us vs rest : List Token} {t : Token} {e e' left right : Expr}

/-! ### Chains -/

/-- All levels that group to the left are read alike. -/
theorem parseAt_of_isChain (hlevel : level.isChain = true) (ts : List Token) :
    parseAt level ts = (do
      let left ← parseAt level.tighter ts
      let e ← parseChain level level.tighter left.value left.rest
      return ⟨e.value, e.rest, Nat.lt_of_le_of_lt e.notLonger left.shorter⟩) := by
  cases level <;> first | exact absurd hlevel (by decide) | (rw [parseAt]; rfl)

theorem ReadsAt.chain (hlevel : level.isChain = true) (hleft : ReadsAt level.tighter ts left us)
    (hchain : ChainReads level left us e rest) : ReadsAt level ts e rest := by
  obtain ⟨_, hleft⟩ := hleft
  obtain ⟨_, hchain⟩ := hchain
  refine ⟨by omega, ?_⟩
  rw [parseAt_of_isChain hlevel, hleft]
  simp only [bind, Except.bind, hchain]
  rfl

/-- Whether a test comes next, for a chain that has tests. -/
def dropIs? (level : Precedence) (ts : List Token) : Option (Parsed Unit ts) :=
  if level = .comparison then dropId? "is" ts else none

theorem ChainReads.stop (hlevel : level.isChain = true) (h : level.goesOn ts = false) :
    ChainReads level e ts e ts := by
  have hstop : dropIs? level ts = none ∧ takeOperator? level ts = none := by
    unfold dropIs?
    cases level <;> first
      | exact absurd hlevel (by decide)
      | simpa [Precedence.goesOn] using h
      | simp only [Precedence.goesOn, Bool.or_eq_false_iff] at h
        exact ⟨dropId?_of_nextIsId h.1, by simpa using h.2⟩
  refine ⟨Nat.le_refl _, ?_⟩
  rw [parseChain]
  simp only [dropIs?] at hstop
  rw [hstop.1, hstop.2]

/-- The tokens that spell an operator are its symbols at some offsets. -/
theorem exists_offsets {op : BinaryOp} (h : ts.map Token.symbol = op.words) :
    ∃ offset offset', ts =
      List.zipWith (fun s offset => ⟨s.1, s.2, offset⟩) op.words [offset, offset'] := by
  have hone {s : TokenKind × String} (h : ts.map Token.symbol = [s]) :
      ∃ offset, ts = [⟨s.1, s.2, offset⟩] := by
    obtain ⟨t, rfl, rfl⟩ := List.map_eq_singleton_iff.mp h
    exact ⟨t.offset, rfl⟩
  cases op with
  | notMem =>
    obtain ⟨t, ts, rfl, ht, hts⟩ := List.map_eq_cons_iff.mp h
    obtain ⟨u, rfl, hu⟩ := List.map_eq_singleton_iff.mp hts
    obtain ⟨_, _, offset⟩ := t
    obtain ⟨_, _, offset'⟩ := u
    cases ht
    cases hu
    exact ⟨offset, offset', rfl⟩
  | _ =>
    obtain ⟨offset, rfl⟩ := hone h
    exact ⟨offset, 0, rfl⟩

/-- An operator is taken by the chain of its level. -/
theorem takeOperator?_words {op : BinaryOp} (hlevel : op.level.isChain = true)
    (hwords : ts.map Token.symbol = op.words) (us : List Token) :
    (∃ h, takeOperator? op.level (ts ++ us) = some ⟨op, us, h⟩) ∧
      dropIs? op.level (ts ++ us) = none := by
  obtain ⟨offset, offset', rfl⟩ := exists_offsets hwords
  cases op <;> first
    | exact absurd hlevel (by decide)
    | exact ⟨⟨by grind [BinaryOp.words], rfl⟩, rfl⟩

/-- No tighter form goes on with an operator. -/
theorem stops_words {op : BinaryOp} (hlevel : op.level.isChain = true)
    (hwords : ts.map Token.symbol = op.words) (us : List Token) :
    op.level.tighter.Stops (ts ++ us) := by
  obtain ⟨offset, offset', rfl⟩ := exists_offsets hwords
  intro l hl
  revert hl
  cases op <;> first
    | exact absurd hlevel (by decide)
    | (cases l <;> first | exact fun _ => rfl | exact fun hl => absurd hl (by decide))

theorem ChainReads.operator {op : BinaryOp} (hlevel : op.level.isChain = true)
    (hwords : ts.map Token.symbol = op.words) (hright : ReadsAt op.level.tighter us right vs)
    (hchain : ChainReads op.level (.binary op left right) vs e rest) :
    ChainReads op.level left (ts ++ us) e rest := by
  obtain ⟨⟨_, htake⟩, his⟩ := takeOperator?_words hlevel hwords us
  obtain ⟨_, hright⟩ := hright
  obtain ⟨_, hchain⟩ := hchain
  refine ⟨by omega, ?_⟩
  rw [parseChain]
  rw [dropIs?] at his
  rw [his, htake]
  simp only [bind, Except.bind, hright, hchain]
  rfl

/-- A test, with a `not` before its name if that comes next. -/
theorem ChainReads.is {is : Token} {name : String} (his : is.isId "is")
    (hname : ∃ h, needId (takeId "not" ts).rest = .ok ⟨name, us, h⟩)
    (hchain : ChainReads .comparison (.test left name (takeId "not" ts).value) us e rest) :
    ChainReads .comparison left (is :: ts) e rest := by
  obtain ⟨_, hname⟩ := hname
  obtain ⟨_, hchain⟩ := hchain
  have hle := (takeId "not" ts).notLonger
  refine ⟨by grind, ?_⟩
  rw [parseChain, if_pos rfl, dropId?_cons his]
  simp only [Parsed.one, bind, Except.bind, hname, hchain]
  rfl

theorem ChainReads.test {is name : Token} (his : is.isId "is") (hkind : name.kind = .identifier)
    (hname : name.text ≠ "not")
    (hchain : ChainReads .comparison (.test left name.text false) ts e rest) :
    ChainReads .comparison left (is :: name :: ts) e rest := by
  have hnot : takeId "not" (name :: ts) = ⟨false, name :: ts, Nat.le_refl _⟩ := by
    rw [takeId, dropId?_of_nextIsId (by simp [nextIsId, isId, hname])]
  have hneed : ∃ h, needId (takeId "not" (name :: ts)).rest = .ok ⟨name.text, ts, h⟩ := by
    rw [hnot]
    exact ⟨Nat.lt_succ_self _, by rw [needId, if_pos hkind]; rfl⟩
  refine .is his hneed ?_
  rw [hnot]
  exact hchain

theorem ChainReads.negatedTest {is not name : Token} (his : is.isId "is") (hnot : not.isId "not")
    (hkind : name.kind = .identifier)
    (hchain : ChainReads .comparison (.test left name.text true) ts e rest) :
    ChainReads .comparison left (is :: not :: name :: ts) e rest := by
  have hneed : ∃ h, needId (takeId "not" (not :: name :: ts)).rest = .ok ⟨name.text, ts, h⟩ := by
    rw [takeId_cons hnot]
    exact ⟨Nat.lt_succ_self _, by rw [needId, if_pos hkind]; rfl⟩
  refine .is his hneed ?_
  rw [takeId_cons hnot]
  exact hchain

/-! ### Levels with other forms -/

theorem ReadsAt.ternary_of_disjunction (h : ReadsAt .disjunction ts e us)
    (hstop : nextIsOp "?" us = false) : ReadsAt .ternary ts e us := by
  obtain ⟨_, h⟩ := h
  refine ⟨by omega, ?_⟩
  rw [parseAt, h]
  simp only [bind, Except.bind, dropOp?_of_nextIsOp hstop]
  rfl

theorem ReadsAt.ternary {mark colon : Token} {cond yes no : Expr} {ts₁ ts₂ ts₃ : List Token}
    (hcond : ReadsAt .disjunction ts cond (mark :: ts₁)) (hmark : mark.isOp "?")
    (hyes : ReadsAt .ternary ts₁ yes (colon :: ts₂)) (hcolon : colon.isOp ":")
    (hno : ReadsAt .ternary ts₂ no ts₃) : ReadsAt .ternary ts (.ternary cond yes no) ts₃ := by
  obtain ⟨_, hcond⟩ := hcond
  obtain ⟨_, hyes⟩ := hyes
  obtain ⟨_, hno⟩ := hno
  refine ⟨by grind, ?_⟩
  rw [parseAt, hcond]
  simp only [bind, Except.bind, dropOp?_cons hmark, Parsed.one, hyes, needOp_cons hcolon, hno]
  rfl

theorem ReadsAt.negation_of_comparison (h : ReadsAt .comparison ts e rest)
    (hfirst : nextIsId "not" ts = false) : ReadsAt .negation ts e rest := by
  obtain ⟨_, h⟩ := h
  exact ⟨_, by rw [parseAt, dropId?_of_nextIsId hfirst]; exact h⟩

theorem ReadsAt.not (ht : t.isId "not") (h : ReadsAt .negation ts e rest) :
    ReadsAt .negation (t :: ts) (.unary .not e) rest := by
  obtain ⟨_, h⟩ := h
  refine ⟨by grind, ?_⟩
  rw [parseAt, dropId?_cons ht]
  simp only [Parsed.one, bind, Except.bind, h]
  rfl

theorem ReadsAt.range_of_concatenation (h : ReadsAt .concatenation ts e us)
    (hstop : nextIsOp ".." us = false) : ReadsAt .range ts e us := by
  obtain ⟨_, h⟩ := h
  refine ⟨by omega, ?_⟩
  rw [parseAt, h]
  simp only [bind, Except.bind, dropOp?_of_nextIsOp hstop]
  rfl

theorem ReadsAt.range (hleft : ReadsAt .concatenation ts left (t :: us)) (ht : t.isOp "..")
    (hright : ReadsAt .concatenation us right rest) :
    ReadsAt .range ts (.binary .range left right) rest := by
  obtain ⟨_, hleft⟩ := hleft
  obtain ⟨_, hright⟩ := hright
  refine ⟨by grind, ?_⟩
  rw [parseAt, hleft]
  simp only [bind, Except.bind, dropOp?_cons ht, Parsed.one, hright]
  rfl

theorem ReadsAt.sign_of_power (h : ReadsAt .power ts e rest) (hminus : nextIsOp "-" ts = false)
    (hplus : nextIsOp "+" ts = false) : ReadsAt .sign ts e rest := by
  obtain ⟨hlt, h⟩ := h
  refine ⟨hlt, ?_⟩
  rw [parseAt, dropOp?_of_nextIsOp hminus]
  simp only [dropOp?_of_nextIsOp hplus]
  exact h

theorem ReadsAt.neg (ht : t.isOp "-") (h : ReadsAt .sign ts e rest) :
    ReadsAt .sign (t :: ts) (.unary .neg e) rest := by
  obtain ⟨_, h⟩ := h
  refine ⟨by grind, ?_⟩
  rw [parseAt, dropOp?_cons ht]
  simp only [Parsed.one, bind, Except.bind, h]
  rfl

theorem ReadsAt.pos (ht : t.isOp "+") (h : ReadsAt .sign ts e rest) :
    ReadsAt .sign (t :: ts) (.unary .pos e) rest := by
  obtain ⟨_, h⟩ := h
  refine ⟨by grind, ?_⟩
  rw [parseAt, dropOp?_of_isOp ht (by decide)]
  simp only [dropOp?_cons ht, Parsed.one, bind, Except.bind, h]
  rfl

theorem ReadsAt.power_of_suffixed (h : ReadsAt .suffixed ts e us)
    (hstop : nextIsOp "**" us = false) : ReadsAt .power ts e us := by
  obtain ⟨_, h⟩ := h
  refine ⟨by omega, ?_⟩
  rw [parseAt, h]
  simp only [bind, Except.bind, dropOp?_of_nextIsOp hstop]
  rfl

theorem ReadsAt.power (hbase : ReadsAt .suffixed ts left (t :: us)) (ht : t.isOp "**")
    (hexponent : ReadsAt .sign us right rest) :
    ReadsAt .power ts (.binary .pow left right) rest := by
  obtain ⟨_, hbase⟩ := hbase
  obtain ⟨_, hexponent⟩ := hexponent
  refine ⟨by grind, ?_⟩
  rw [parseAt, hbase]
  simp only [bind, Except.bind, dropOp?_cons ht, Parsed.one, hexponent]
  rfl

/-! ### Suffixes -/

theorem ReadsAt.suffixed (hfirst : ReadsAt .primary ts e us) (hmore : SuffixesRead e us e' rest) :
    ReadsAt .suffixed ts e' rest := by
  obtain ⟨_, hfirst⟩ := hfirst
  obtain ⟨_, hmore⟩ := hmore
  refine ⟨by omega, ?_⟩
  rw [parseAt, hfirst]
  simp only [bind, Except.bind, hmore]
  rfl

theorem SuffixesRead.stop (h : Precedence.suffixed.goesOn ts = false) : SuffixesRead e ts e ts := by
  simp only [Precedence.goesOn, Bool.or_eq_false_iff] at h
  obtain ⟨⟨⟨hdot, hindex⟩, hcall⟩, hbar⟩ := h
  refine ⟨Nat.le_refl _, ?_⟩
  rw [parseSuffixes]
  simp only [dropOp?_of_nextIsOp hdot, dropOp?_of_nextIsOp hindex, dropOp?_of_nextIsOp hcall,
    dropOp?_of_nextIsOp hbar]

theorem SuffixesRead.attr {name : Token} (ht : t.isOp ".")
    (hname : name.kind = .identifier ∨ name.kind = .number)
    (hmore : SuffixesRead (.attr e name.text) ts e' rest) :
    SuffixesRead e (t :: name :: ts) e' rest := by
  obtain ⟨_, hmore⟩ := hmore
  have hneed : needAttribute (name :: ts) = .ok (.one name.text name ts) := by
    rw [needAttribute, if_pos (by simpa using hname)]
  refine ⟨by grind, ?_⟩
  rw [parseSuffixes]
  simp only [dropOp?_cons ht, Parsed.one, bind, Except.bind, hneed, hmore]
  rfl

theorem SuffixesRead.index {close : Token} {position : Expr} (ht : t.isOp "[")
    (hposition : ReadsAt .ternary ts position (close :: us)) (hclose : close.isOp "]")
    (hmore : SuffixesRead (.index e position) us e' rest) : SuffixesRead e (t :: ts) e' rest := by
  obtain ⟨_, hposition⟩ := hposition
  obtain ⟨_, hmore⟩ := hmore
  refine ⟨by grind, ?_⟩
  rw [parseSuffixes]
  simp only [dropOp?_of_isOp ht (show "[" ≠ "." by decide), dropOp?_cons ht, Parsed.one, bind,
    Except.bind, hposition, needOp_cons hclose, hmore]
  rfl

theorem SuffixesRead.call {args : List Expr} (ht : t.isOp "(") (hargs : ItemsRead ")" ts args us)
    (hmore : SuffixesRead (.call e args) us e' rest) : SuffixesRead e (t :: ts) e' rest := by
  obtain ⟨_, hargs⟩ := hargs
  obtain ⟨_, hmore⟩ := hmore
  refine ⟨by grind, ?_⟩
  rw [parseSuffixes]
  simp only [dropOp?_of_isOp ht (show "(" ≠ "." by decide),
    dropOp?_of_isOp ht (show "(" ≠ "[" by decide), dropOp?_cons ht, Parsed.one, bind, Except.bind,
    hargs, hmore]
  rfl

theorem SuffixesRead.filter {name paren : Token} {args : List Expr} (ht : t.isOp "|")
    (hname : name.kind = .identifier) (hparen : paren.isOp "(") (hargs : ItemsRead ")" ts args us)
    (hmore : SuffixesRead (.filter e name.text args) us e' rest) :
    SuffixesRead e (t :: name :: paren :: ts) e' rest := by
  obtain ⟨_, hargs⟩ := hargs
  obtain ⟨_, hmore⟩ := hmore
  have hneed : needId (name :: paren :: ts) = .ok (.one name.text name (paren :: ts)) := by
    rw [needId, if_pos hname]
  refine ⟨by grind, ?_⟩
  rw [parseSuffixes]
  simp only [dropOp?_of_isOp ht (show "|" ≠ "." by decide),
    dropOp?_of_isOp ht (show "|" ≠ "[" by decide), dropOp?_of_isOp ht (show "|" ≠ "(" by decide),
    dropOp?_cons ht, Parsed.one, bind, Except.bind, hneed, dropOp?_cons hparen, hargs, hmore]
  rfl

theorem SuffixesRead.bareFilter {name : Token} (ht : t.isOp "|") (hname : name.kind = .identifier)
    (hnext : nextIsOp "(" ts = false) (hmore : SuffixesRead (.filter e name.text []) ts e' rest) :
    SuffixesRead e (t :: name :: ts) e' rest := by
  obtain ⟨_, hmore⟩ := hmore
  have hneed : needId (name :: ts) = .ok (.one name.text name ts) := by
    rw [needId, if_pos hname]
  refine ⟨by grind, ?_⟩
  rw [parseSuffixes]
  simp only [dropOp?_of_isOp ht (show "|" ≠ "." by decide),
    dropOp?_of_isOp ht (show "|" ≠ "[" by decide), dropOp?_of_isOp ht (show "|" ≠ "(" by decide),
    dropOp?_cons ht, Parsed.one, bind, Except.bind, hneed, dropOp?_of_nextIsOp hnext, hmore]
  rfl

/-! ### Primaries -/

theorem ReadsAt.number {v : Value} (ht : t.kind = .number) (hv : literal? t.text = .ok v) :
    ReadsAt .primary (t :: ts) (.literal v) ts := by
  refine ⟨Nat.lt_succ_self _, ?_⟩
  rw [parseAt]
  simp only [ht, hv]
  rfl

theorem ReadsAt.string (ht : t.kind = .string) :
    ReadsAt .primary (t :: ts) (.literal (.str t.text)) ts := by
  refine ⟨Nat.lt_succ_self _, ?_⟩
  rw [parseAt]
  simp only [ht]

theorem ReadsAt.word (ht : t.kind = .identifier) :
    ReadsAt .primary (t :: ts) (ofWord t.text) ts := by
  refine ⟨Nat.lt_succ_self _, ?_⟩
  rw [parseAt]
  simp only [ht]

theorem ReadsAt.group {close : Token} (ht : t.isOp "(") (h : ReadsAt .ternary ts e (close :: rest))
    (hclose : close.isOp ")") : ReadsAt .primary (t :: ts) e rest := by
  obtain ⟨_, h⟩ := h
  refine ⟨by grind, ?_⟩
  simp only [isOp, Bool.and_eq_true, decide_eq_true_eq] at ht
  rw [parseAt]
  simp only [ht.1, ht.2, if_true, bind, Except.bind, h, needOp_cons hclose]
  rfl

theorem ReadsAt.list {items : List Expr} (ht : t.isOp "[") (h : ItemsRead "]" ts items rest) :
    ReadsAt .primary (t :: ts) (.list items) rest := by
  obtain ⟨_, h⟩ := h
  refine ⟨by grind, ?_⟩
  simp only [isOp, Bool.and_eq_true, decide_eq_true_eq] at ht
  rw [parseAt]
  simp only [ht.1, ht.2, if_neg (show "[" ≠ "(" by decide), if_true, bind, Except.bind, h]
  rfl

theorem ReadsAt.map {entries : List (Expr × Expr)} (ht : t.isOp "\x7b")
    (h : EntriesRead ts entries rest) : ReadsAt .primary (t :: ts) (.map entries) rest := by
  obtain ⟨_, h⟩ := h
  refine ⟨by grind, ?_⟩
  simp only [isOp, Bool.and_eq_true, decide_eq_true_eq] at ht
  rw [parseAt]
  simp only [ht.1, ht.2, if_neg (show "\x7b" ≠ "(" by decide),
    if_neg (show "\x7b" ≠ "[" by decide), if_true, bind, Except.bind, h]
  rfl

/-! ### Items and entries -/

theorem ItemsRead.close {close : String} (ht : t.isOp close) : ItemsRead close (t :: ts) [] ts := by
  refine ⟨Nat.lt_succ_self _, ?_⟩
  rw [parseItems, dropOp?_cons ht]
  rfl

theorem ItemsRead.last {close : String} (hfirst : nextIsOp close ts = false)
    (h : ReadsAt .ternary ts e (t :: us)) (ht : t.isOp close) (hne : close ≠ ",") :
    ItemsRead close ts [e] us := by
  obtain ⟨_, h⟩ := h
  refine ⟨by grind, ?_⟩
  rw [parseItems, dropOp?_of_nextIsOp hfirst]
  simp only [bind, Except.bind, h, dropOp?_of_isOp ht hne, needOp_cons ht]
  rfl

theorem ItemsRead.more {close : String} {items : List Expr} (hfirst : nextIsOp close ts = false)
    (h : ReadsAt .ternary ts e (t :: us)) (ht : t.isOp ",")
    (hmore : ItemsRead close us items rest) : ItemsRead close ts (e :: items) rest := by
  obtain ⟨_, h⟩ := h
  obtain ⟨_, hmore⟩ := hmore
  refine ⟨by grind, ?_⟩
  rw [parseItems, dropOp?_of_nextIsOp hfirst]
  simp only [bind, Except.bind, h, dropOp?_cons ht, Parsed.one, hmore]
  rfl

theorem EntriesRead.close (ht : t.isOp "\x7d") : EntriesRead (t :: ts) [] ts := by
  refine ⟨Nat.lt_succ_self _, ?_⟩
  rw [parseEntries, dropOp?_cons ht]
  rfl

theorem EntriesRead.last {colon : Token} {key value : Expr} (hfirst : nextIsOp "\x7d" ts = false)
    (hkey : KeyReads ts key (colon :: us)) (hcolon : colon.isOp ":")
    (hvalue : ReadsAt .ternary us value (t :: vs)) (ht : t.isOp "\x7d") :
    EntriesRead ts [(key, value)] vs := by
  obtain ⟨_, hkey⟩ := hkey
  obtain ⟨_, hvalue⟩ := hvalue
  refine ⟨by grind, ?_⟩
  rw [parseEntries, dropOp?_of_nextIsOp hfirst]
  simp only [bind, Except.bind, hkey, needOp_cons hcolon, Parsed.one, hvalue,
    dropOp?_of_isOp ht (show "\x7d" ≠ "," by decide), needOp_cons ht]
  rfl

theorem EntriesRead.more {colon : Token} {key value : Expr} {entries : List (Expr × Expr)}
    (hfirst : nextIsOp "\x7d" ts = false) (hkey : KeyReads ts key (colon :: us))
    (hcolon : colon.isOp ":") (hvalue : ReadsAt .ternary us value (t :: vs)) (ht : t.isOp ",")
    (hmore : EntriesRead vs entries rest) : EntriesRead ts ((key, value) :: entries) rest := by
  obtain ⟨_, hkey⟩ := hkey
  obtain ⟨_, hvalue⟩ := hvalue
  obtain ⟨_, hmore⟩ := hmore
  refine ⟨by grind, ?_⟩
  rw [parseEntries, dropOp?_of_nextIsOp hfirst]
  simp only [bind, Except.bind, hkey, needOp_cons hcolon, Parsed.one, hvalue, dropOp?_cons ht,
    hmore]
  rfl

theorem KeyReads.string (ht : t.kind = .identifier ∨ t.kind = .string) :
    KeyReads (t :: ts) (.literal (.str t.text)) ts := by
  refine ⟨Nat.lt_succ_self _, ?_⟩
  rw [parseKey]
  rcases ht with ht | ht <;> simp only [ht]

theorem KeyReads.number {v : Value} (ht : t.kind = .number) (hv : literal? t.text = .ok v) :
    KeyReads (t :: ts) (.literal v) ts := by
  refine ⟨Nat.lt_succ_self _, ?_⟩
  rw [parseKey]
  simp only [ht, hv]
  rfl

theorem KeyReads.group {close : Token} (ht : t.isOp "(") (h : ReadsAt .ternary ts e (close :: rest))
    (hclose : close.isOp ")") : KeyReads (t :: ts) e rest := by
  obtain ⟨_, h⟩ := h
  refine ⟨by grind, ?_⟩
  simp only [isOp, Bool.and_eq_true, decide_eq_true_eq] at ht
  rw [parseKey]
  simp only [ht.1, ht.2, if_true, bind, Except.bind, h, needOp_cons hclose]
  rfl

end Expr

end Stencil
