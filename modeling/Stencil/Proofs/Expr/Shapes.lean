import Mathlib.Data.List.Chain
import Stencil.Proofs.Expr.Boundary

/-!
# What stands in an expression

The grammar of expressions is exact about levels, and so it is about texts that are to be read. What
has been read can be described more loosely. `Expr.Formed` has a rule for each form and no levels:
the same tokens may be formed in several ways, one of which is how they were read
(`Expr.ReadsAt.formed`). This is enough to tell what an expression is made of, token by token and
subtree by subtree, without the readers.

One consequence is told here. Operands and operators take turns, so that of two tokens that stand
side by side not every pair is possible (`Expr.Beside`): no word but an operator stands behind a
number, and behind a minus there is what begins an operand.
-/

namespace Stencil.Expr

open Token

/-! ### The rules -/

mutual

/-- The tokens make the expression if levels do not count. -/
inductive Formed : Expr → List Token → Prop
  | number {t : Token} {v : Value} (kind : t.kind = .number) (means : literal? t.text = .ok v) :
    Formed (.literal v) [t]
  | string {t : Token} (kind : t.kind = .string) : Formed (.literal (.str t.text)) [t]
  | word {t : Token} (kind : t.kind = .identifier) : Formed (ofWord t.text) [t]
  | group {e : Expr} {t u : Token} {ts : List Token} (opens : t.isOp "(") (inside : Formed e ts)
    (closes : u.isOp ")") : Formed e (t :: (ts ++ [u]))
  | list {items : List Expr} {t u : Token} {ts : List Token} (opens : t.isOp "[")
    (inside : FormedItems items ts) (closes : u.isOp "]") : Formed (.list items) (t :: (ts ++ [u]))
  | map {entries : List (Expr × Expr)} {t u : Token} {ts : List Token} (opens : t.isOp "\x7b")
    (inside : FormedEntries entries ts) (closes : u.isOp "\x7d") :
    Formed (.map entries) (t :: (ts ++ [u]))
  | attr {target : Expr} {t name : Token} {ts : List Token} (first : Formed target ts)
    (point : t.isOp ".") (kind : name.kind = .identifier ∨ name.kind = .number) :
    Formed (.attr target name.text) (ts ++ [t, name])
  | index {target position : Expr} {t u : Token} {ts us : List Token} (first : Formed target ts)
    (opens : t.isOp "[") (inside : Formed position us) (closes : u.isOp "]") :
    Formed (.index target position) (ts ++ t :: (us ++ [u]))
  | call {callee : Expr} {args : List Expr} {t u : Token} {ts us : List Token}
    (first : Formed callee ts) (opens : t.isOp "(") (inside : FormedItems args us)
    (closes : u.isOp ")") : Formed (.call callee args) (ts ++ t :: (us ++ [u]))
  | filter {input : Expr} {args : List Expr} {bar name t u : Token} {ts us : List Token}
    (first : Formed input ts) (isBar : bar.isOp "|") (kind : name.kind = .identifier)
    (opens : t.isOp "(") (inside : FormedItems args us) (closes : u.isOp ")") :
    Formed (.filter input name.text args) (ts ++ bar :: name :: t :: (us ++ [u]))
  | bareFilter {input : Expr} {bar name : Token} {ts : List Token} (first : Formed input ts)
    (isBar : bar.isOp "|") (kind : name.kind = .identifier) :
    Formed (.filter input name.text []) (ts ++ [bar, name])
  | neg {e : Expr} {t : Token} {ts : List Token} (op : t.isOp "-") (inside : Formed e ts) :
    Formed (.unary .neg e) (t :: ts)
  | pos {e : Expr} {t : Token} {ts : List Token} (op : t.isOp "+") (inside : Formed e ts) :
    Formed (.unary .pos e) (t :: ts)
  | not {e : Expr} {t : Token} {ts : List Token} (op : t.isId "not") (inside : Formed e ts) :
    Formed (.unary .not e) (t :: ts)
  | binary {op : BinaryOp} {left right : Expr} {ts words us : List Token} (first : Formed left ts)
    (spells : words.map Token.symbol = op.words) (second : Formed right us) :
    Formed (.binary op left right) (ts ++ words ++ us)
  | test {input : Expr} {is name : Token} {ts : List Token} (first : Formed input ts)
    (isIs : is.isId "is") (kind : name.kind = .identifier) (hnot : name.text ≠ "not") :
    Formed (.test input name.text false) (ts ++ [is, name])
  | negatedTest {input : Expr} {is not name : Token} {ts : List Token} (first : Formed input ts)
    (isIs : is.isId "is") (isNot : not.isId "not") (kind : name.kind = .identifier) :
    Formed (.test input name.text true) (ts ++ [is, not, name])
  | ternary {cond yes no : Expr} {mark colon : Token} {ts us vs : List Token}
    (first : Formed cond ts) (isMark : mark.isOp "?") (second : Formed yes us)
    (isColon : colon.isOp ":") (third : Formed no vs) :
    Formed (.ternary cond yes no) (ts ++ mark :: (us ++ colon :: vs))

inductive FormedItems : List Expr → List Token → Prop
  | nil : FormedItems [] []
  | last {e : Expr} {ts : List Token} (h : Formed e ts) : FormedItems [e] ts
  | more {e : Expr} {items : List Expr} {comma : Token} {ts us : List Token} (h : Formed e ts)
    (isComma : comma.isOp ",") (rest : FormedItems items us) :
    FormedItems (e :: items) (ts ++ comma :: us)

inductive FormedEntries : List (Expr × Expr) → List Token → Prop
  | nil : FormedEntries [] []
  | last {key value : Expr} {colon : Token} {ts us : List Token} (h : FormedKey key ts)
    (isColon : colon.isOp ":") (h' : Formed value us) :
    FormedEntries [(key, value)] (ts ++ colon :: us)
  | more {key value : Expr} {entries : List (Expr × Expr)} {colon comma : Token}
    {ts us vs : List Token} (h : FormedKey key ts) (isColon : colon.isOp ":")
    (h' : Formed value us) (isComma : comma.isOp ",") (rest : FormedEntries entries vs) :
    FormedEntries ((key, value) :: entries) (ts ++ colon :: (us ++ comma :: vs))

inductive FormedKey : Expr → List Token → Prop
  | string {t : Token} (kind : t.kind = .identifier ∨ t.kind = .string) :
    FormedKey (.literal (.str t.text)) [t]
  | number {t : Token} {v : Value} (kind : t.kind = .number) (means : literal? t.text = .ok v) :
    FormedKey (.literal v) [t]
  | group {e : Expr} {t u : Token} {ts : List Token} (opens : t.isOp "(") (inside : Formed e ts)
    (closes : u.isOp ")") : FormedKey e (t :: (ts ++ [u]))

end

/-! ### What is read is formed -/

/-- An operator between two operands, of one symbol. -/
theorem Formed.operator {op : BinaryOp} {left right : Expr} {t : Token} {ts us : List Token}
    (first : Formed left ts) (spells : t.isOp op.symbol)
    (hwords : op.words = [(.operator, op.symbol)]) (second : Formed right us) :
    Formed (.binary op left right) (ts ++ t :: us) := by
  simp only [isOp, Bool.and_eq_true, decide_eq_true_eq] at spells
  have hsymbols : [t].map Token.symbol = op.words := by simp [symbol, spells, hwords]
  simpa using first.binary hsymbols second

mutual

theorem ReadsAt.formed : ∀ {level : Precedence} {ts : List Token} {e : Expr} {rest : List Token},
    ReadsAt level ts e rest → ∃ pre, ts = pre ++ rest ∧ Formed e pre
  | .ternary, ts, e, rest, h => by
    obtain ⟨hcond, -⟩ | ⟨cond, mark, us, yes, colon, vs, no, hcond, isMark, hyes, isColon, hno,
      rfl⟩ := h.ternary_cases
    · exact hcond.formed
    · have hus := hcond.shorter
      have hvs := hyes.shorter
      obtain ⟨pre, hts, hpre⟩ := hcond.formed
      obtain ⟨pre₁, hus', hpre₁⟩ := hyes.formed
      obtain ⟨pre₂, hvs', hpre₂⟩ := hno.formed
      exact ⟨_, by simp [hts, hus', hvs'], .ternary hpre isMark hpre₁ isColon hpre₂⟩
  | .negation, ts, e, rest, h => by
    obtain ⟨hread, -⟩ | ⟨t, us, inside, hts, ht, hread, rfl⟩ := h.negation_cases
    · exact hread.formed
    · have hlength := congrArg List.length hts
      obtain ⟨pre, hus, hpre⟩ := hread.formed
      exact ⟨_, by simp [hts, hus], .not ht hpre⟩
  | .range, ts, e, rest, h => by
    obtain ⟨hread, -⟩ | ⟨left, t, us, right, hleft, ht, hright, rfl⟩ := h.range_cases
    · exact hread.formed
    · have hus := hleft.shorter
      obtain ⟨pre, hts, hpre⟩ := hleft.formed
      obtain ⟨pre₁, hus', hpre₁⟩ := hright.formed
      exact ⟨_, by simp [hts, hus'], hpre.operator ht rfl hpre₁⟩
  | .sign, ts, e, rest, h => by
    obtain ⟨hread, -, -⟩ | ⟨t, us, inside, hts, hread, hsign⟩ := h.sign_cases
    · exact hread.formed
    · have hlength := congrArg List.length hts
      obtain ⟨pre, hus, hpre⟩ := hread.formed
      refine ⟨t :: pre, by simp [hts, hus], ?_⟩
      obtain ⟨ht, rfl⟩ | ⟨ht, rfl⟩ := hsign
      · exact .neg ht hpre
      · exact .pos ht hpre
  | .power, ts, e, rest, h => by
    obtain ⟨hread, -⟩ | ⟨base, t, us, exponent, hbase, ht, hexponent, rfl⟩ := h.power_cases
    · exact hread.formed
    · have hus := hbase.shorter
      obtain ⟨pre, hts, hpre⟩ := hbase.formed
      obtain ⟨pre₁, hus', hpre₁⟩ := hexponent.formed
      exact ⟨_, by simp [hts, hus'], hpre.operator ht rfl hpre₁⟩
  | .suffixed, ts, e, rest, h => by
    obtain ⟨first, us, hfirst, hmore⟩ := h.suffixed_cases
    have hus := hfirst.shorter
    obtain ⟨pre, hts, hpre⟩ := hfirst.formed
    obtain ⟨pre₁, hus', hpre₁⟩ := hmore.formed
    exact ⟨_, by simp [hts, hus'], hpre₁ pre hpre⟩
  | .primary, ts, e, rest, h => by
    have form := h.primary_form
    generalize hts : ts = tokens at form
    have hlength := congrArg List.length hts
    cases form with
    | number ht hv => exact ⟨[_], rfl, .number ht hv⟩
    | string ht => exact ⟨[_], rfl, .string ht⟩
    | word ht => exact ⟨[_], rfl, .word ht⟩
    | group ht hinside hclose =>
      obtain ⟨pre, hus, hpre⟩ := hinside.formed
      exact ⟨_, by simp [hus], .group ht hpre hclose⟩
    | list ht hinside =>
      obtain ⟨pre, close, hus, hclose, hpre⟩ := hinside.formed
      exact ⟨_, by simp [hus], .list ht hpre hclose⟩
    | map ht hinside =>
      obtain ⟨pre, close, hus, hclose, hpre⟩ := hinside.formed
      exact ⟨_, by simp [hus], .map ht hpre hclose⟩
  | .disjunction, _, _, _, h | .conjunction, _, _, _, h | .comparison, _, _, _, h
  | .concatenation, _, _, _, h | .sum, _, _, _, h | .product, _, _, _, h => by
    obtain ⟨left, us, hleft, hmore⟩ := h.chain_cases rfl
    have hus := hleft.shorter
    obtain ⟨pre, hts, hpre⟩ := hleft.formed
    obtain ⟨pre₁, hus', hpre₁⟩ := hmore.formed rfl
    exact ⟨_, by simp [hts, hus'], hpre₁ pre hpre⟩
termination_by level ts => weight ts (2 * level.rank)
decreasing_by
  all_goals
    simp only [weight, List.length_cons, Precedence.rank, Precedence.tighter] at *
    omega

theorem ChainReads.formed : ∀ {level : Precedence} {left : Expr} {ts : List Token} {e : Expr}
    {rest : List Token}, level.isChain = true → ChainReads level left ts e rest →
      ∃ pre, ts = pre ++ rest ∧ ∀ before, Formed left before → Formed e (before ++ pre)
  | level, left, ts, e, rest, hlevel, h => by
    have form := h.form hlevel
    generalize hts : ts = tokens at form
    have hlength := congrArg List.length hts
    cases form with
    | stop => exact ⟨[], rfl, fun before hbefore => by rwa [List.append_nil]⟩
    | @test left e is name us rest his hkind hname hchain =>
      obtain ⟨pre, hus, hpre⟩ := hchain.formed rfl
      refine ⟨is :: name :: pre, by simp [hus], fun before hbefore => ?_⟩
      simpa using hpre _ (hbefore.test his hkind hname)
    | @negatedTest left e is not name us rest his hnot hkind hchain =>
      obtain ⟨pre, hus, hpre⟩ := hchain.formed rfl
      refine ⟨is :: not :: name :: pre, by simp [hus], fun before hbefore => ?_⟩
      simpa using hpre _ (hbefore.negatedTest his hnot hkind)
    | @operator op left right e words us vs rest hlevel hwords hright hchain =>
      have hpos := length_pos_of_words hwords
      have hvs := hright.shorter
      have hrank := op.level.tighter.rank_le
      obtain ⟨pre, hus, hpre⟩ := hright.formed
      obtain ⟨pre₁, hvs', hpre₁⟩ := hchain.formed hlevel
      refine ⟨words ++ pre ++ pre₁, by simp [hus, hvs'], fun before hbefore => ?_⟩
      simpa using hpre₁ _ (hbefore.binary hwords hpre)
termination_by _ _ ts => weight ts 0
decreasing_by
  all_goals
    simp only [weight, List.length_cons, List.length_append, Nat.add_zero] at *
    omega

theorem SuffixesRead.formed : ∀ {e : Expr} {ts : List Token} {e' : Expr} {rest : List Token},
    SuffixesRead e ts e' rest →
      ∃ pre, ts = pre ++ rest ∧ ∀ before, Formed e before → Formed e' (before ++ pre)
  | e, ts, e', rest, h => by
    have form := h.form
    generalize hts : ts = tokens at form
    have hlength := congrArg List.length hts
    cases form with
    | stop => exact ⟨[], rfl, fun before hbefore => by rwa [List.append_nil]⟩
    | @attr e' t name us rest ht hname hmore =>
      obtain ⟨pre, hus, hpre⟩ := hmore.formed
      refine ⟨t :: name :: pre, by simp [hus], fun before hbefore => ?_⟩
      simpa using hpre _ (hbefore.attr ht hname)
    | @index e' position t close us vs rest ht hposition hclose hmore =>
      have hvs := hposition.shorter
      obtain ⟨pre, hus, hpre⟩ := hposition.formed
      obtain ⟨pre₁, hvs', hpre₁⟩ := hmore.formed
      refine ⟨t :: (pre ++ close :: pre₁), by simp [hus, hvs'], fun before hbefore => ?_⟩
      simpa using hpre₁ _ (hbefore.index ht hpre hclose)
    | @call e' args t us vs rest ht hargs hmore =>
      have hvs := hargs.shorter
      obtain ⟨pre, close, hus, hclose, hpre⟩ := hargs.formed
      obtain ⟨pre₁, hvs', hpre₁⟩ := hmore.formed
      refine ⟨t :: (pre ++ close :: pre₁), by simp [hus, hvs'], fun before hbefore => ?_⟩
      simpa using hpre₁ _ (hbefore.call ht hpre hclose)
    | @filter e' args t name paren us vs rest ht hname hparen hargs hmore =>
      have hvs := hargs.shorter
      obtain ⟨pre, close, hus, hclose, hpre⟩ := hargs.formed
      obtain ⟨pre₁, hvs', hpre₁⟩ := hmore.formed
      refine ⟨t :: name :: paren :: (pre ++ close :: pre₁), by simp [hus, hvs'],
        fun before hbefore => ?_⟩
      simpa using hpre₁ _ (hbefore.filter ht hname hparen hpre hclose)
    | @bareFilter e' t name us rest ht hname hnext hmore =>
      obtain ⟨pre, hus, hpre⟩ := hmore.formed
      refine ⟨t :: name :: pre, by simp [hus], fun before hbefore => ?_⟩
      simpa using hpre _ (hbefore.bareFilter ht hname)
termination_by _ ts => weight ts 0
decreasing_by
  all_goals
    simp only [weight, List.length_cons, Precedence.rank] at *
    omega

/-- The closing bracket has been read with the items. -/
theorem ItemsRead.formed : ∀ {close : String} {ts : List Token} {items : List Expr}
    {rest : List Token}, ItemsRead close ts items rest →
      ∃ pre u, ts = pre ++ u :: rest ∧ u.isOp close = true ∧ FormedItems items pre
  | close, ts, items, rest, h => by
    have form := h.form
    generalize hts : ts = tokens at form
    have hlength := congrArg List.length hts
    cases form with
    | close ht => exact ⟨[], _, rfl, ht, .nil⟩
    | last hfirst hitem ht =>
      obtain ⟨pre, hts, hpre⟩ := hitem.formed
      exact ⟨pre, _, hts, ht, .last hpre⟩
    | more hfirst hitem ht hmore =>
      have hlt := hitem.shorter
      obtain ⟨pre, hts, hpre⟩ := hitem.formed
      obtain ⟨pre₁, u, hus, hu, hpre₁⟩ := hmore.formed
      exact ⟨_, u, by simp [hts, hus], hu, .more hpre ht hpre₁⟩
termination_by _ ts => weight ts 25
decreasing_by
  all_goals
    simp only [weight, List.length_cons, Precedence.rank] at *
    omega

theorem EntriesRead.formed : ∀ {ts : List Token} {entries : List (Expr × Expr)}
    {rest : List Token}, EntriesRead ts entries rest →
      ∃ pre u, ts = pre ++ u :: rest ∧ u.isOp "\x7d" = true ∧ FormedEntries entries pre
  | ts, entries, rest, h => by
    have form := h.form
    generalize hts : ts = tokens at form
    have hlength := congrArg List.length hts
    cases form with
    | close ht => exact ⟨[], _, rfl, ht, .nil⟩
    | last hfirst hkey hcolon hvalue ht =>
      have hlt := hkey.shorter
      obtain ⟨pre, hts, hpre⟩ := hkey.formed
      obtain ⟨pre₁, hus, hpre₁⟩ := hvalue.formed
      exact ⟨_, _, by simp [hts, hus], ht, .last hpre hcolon hpre₁⟩
    | more hfirst hkey hcolon hvalue ht hmore =>
      have hlt := hkey.shorter
      have hlt' := hvalue.shorter
      obtain ⟨pre, hts, hpre⟩ := hkey.formed
      obtain ⟨pre₁, hus, hpre₁⟩ := hvalue.formed
      obtain ⟨pre₂, u, hvs, hu, hpre₂⟩ := hmore.formed
      exact ⟨_, u, by simp [hts, hus, hvs], hu, .more hpre hcolon hpre₁ ht hpre₂⟩
termination_by ts => weight ts 1
decreasing_by
  all_goals
    simp only [weight, List.length_cons, Precedence.rank] at *
    omega

theorem KeyReads.formed : ∀ {ts : List Token} {key : Expr} {rest : List Token},
    KeyReads ts key rest → ∃ pre, ts = pre ++ rest ∧ FormedKey key pre
  | ts, key, rest, h => by
    have form := h.form
    generalize hts : ts = tokens at form
    have hlength := congrArg List.length hts
    cases form with
    | string ht => exact ⟨[_], rfl, .string ht⟩
    | number ht hv => exact ⟨[_], rfl, .number ht hv⟩
    | group ht hinside hclose =>
      obtain ⟨pre, hus, hpre⟩ := hinside.formed
      exact ⟨_, by simp [hus], .group ht hpre hclose⟩
termination_by ts => weight ts 0
decreasing_by
  all_goals
    simp only [weight, List.length_cons, Precedence.rank] at *
    omega

end

/-! ### What stands beside what -/

/-- The words that may stand behind an operand. -/
def operatorWords : List String :=
  ["or", "and", "in", "not", "is"]

/-- What is true of two tokens that stand side by side in an expression. -/
structure Beside (t u : Token) : Prop where
  number : t.kind = .number → u.kind = .identifier → u.text ∈ operatorWords
  minus : t.isOp "-" = true → u.isOp "\x7d" = false

/-- A token that may stand at the front of an expression. -/
def Front (t : Token) : Prop :=
  t.kind = .operator → t.text ∈ ["(", "[", "\x7b", "-", "+"]

/-- A token that may stand at the back of an expression. -/
def Back (t : Token) : Prop :=
  t.kind = .operator → t.text ∈ [")", "]", "\x7d"]

/-- A token that may stand behind an expression. -/
def Behind (t : Token) : Prop :=
  t.kind = .operator ∨ t.kind = .identifier ∧ t.text ∈ operatorWords

/-- A token that any other may stand behind. -/
def Free (t : Token) : Prop :=
  t.kind ≠ .number ∧ t.isOp "-" = false

/-- Any token at all. -/
def Any (_ : Token) : Prop :=
  True

variable {t u : Token} {op : String}

theorem front_of_kind (h : t.kind ≠ .operator) : Front t :=
  fun ht => absurd ht h

theorem back_of_kind (h : t.kind ≠ .operator) : Back t :=
  fun ht => absurd ht h

theorem front_of_isOp (h : t.isOp op = true) (hop : op ∈ ["(", "[", "\x7b", "-", "+"]) :
    Front t := by
  simp only [isOp, Bool.and_eq_true, decide_eq_true_eq] at h
  exact fun _ => h.2 ▸ hop

theorem back_of_isOp (h : t.isOp op = true) (hop : op ∈ [")", "]", "\x7d"]) : Back t := by
  simp only [isOp, Bool.and_eq_true, decide_eq_true_eq] at h
  exact fun _ => h.2 ▸ hop

theorem behind_of_isOp (h : t.isOp op = true) : Behind t := by
  simp only [isOp, Bool.and_eq_true, decide_eq_true_eq] at h
  exact .inl h.1

theorem behind_of_isId {name : String} (h : t.isId name = true) (hname : name ∈ operatorWords) :
    Behind t := by
  simp only [isId, Bool.and_eq_true, decide_eq_true_eq] at h
  exact .inr ⟨h.1, h.2 ▸ hname⟩

theorem kind_ne_of_isOp (h : t.isOp op = true) : t.kind ≠ .number := by
  simp only [isOp, Bool.and_eq_true, decide_eq_true_eq] at h
  simp [h.1]

theorem kind_of_isId {name : String} (h : t.isId name = true) : t.kind = .identifier := by
  simp only [isId, Bool.and_eq_true, decide_eq_true_eq] at h
  exact h.1

theorem free_of_isOp (h : t.isOp op = true) (hop : op ≠ "-") : Free t := by
  simp only [isOp, Bool.and_eq_true, decide_eq_true_eq] at h
  exact ⟨by simp [h.1], by simp [isOp, h.2, hop]⟩

theorem free_of_kind (h : t.kind = .identifier) : Free t :=
  ⟨by simp [h], by simp [isOp, h]⟩

theorem beside_of_back (ht : Back t) (hu : Behind u) : Beside t u where
  number _ hkind := by
    rcases hu with hu | hu
    · rw [hu] at hkind
      cases hkind
    · exact hu.2
  minus h := by
    simp only [isOp, Bool.and_eq_true, decide_eq_true_eq] at h
    have htext := ht h.1
    rw [h.2] at htext
    exact absurd htext (by decide)

theorem beside_of_front (ht : t.kind ≠ .number) (hu : Front u) : Beside t u where
  number h := absurd h ht
  minus _ := by
    rw [Bool.eq_false_iff]
    intro h
    simp only [isOp, Bool.and_eq_true, decide_eq_true_eq] at h
    have htext := hu h.1
    rw [h.2] at htext
    exact absurd htext (by decide)

theorem beside_of_free (ht : Free t) (u : Token) : Beside t u where
  number h := absurd h ht.1
  minus h := absurd h (by simp [ht.2])

/-- Some tokens, of which the first and the last are known, stand side by side as they may. -/
structure Shaped (first last : Token → Prop) (ts : List Token) : Prop where
  ne : ts ≠ []
  first : ∀ t ∈ ts.head?, first t
  last : ∀ t ∈ ts.getLast?, last t
  beside : ts.IsChain Beside

namespace Shaped

variable {p p' q q' : Token → Prop} {ts us : List Token}

theorem one (hp : p t) (hq : q t) : Shaped p q [t] where
  ne := by simp
  first := by simpa using hp
  last := by simpa using hq
  beside := .singleton t

theorem last_one (hq : q t) : Shaped Any q [t] :=
  one trivial hq

theorem weaken (h : Shaped p q ts) : Shaped Any q ts :=
  ⟨h.ne, fun _ _ => trivial, h.last, h.beside⟩

theorem append (h : Shaped p q ts) (h' : Shaped p' q' us)
    (hbeside : ∀ t u, q t → p' u → Beside t u) : Shaped p q' (ts ++ us) where
  ne := by simp [h.ne]
  first := by
    rw [List.head?_append_of_ne_nil _ h.ne]
    exact h.first
  last := by
    rw [List.getLast?_append_of_ne_nil _ h'.ne]
    exact h'.last
  beside := List.isChain_append.mpr
    ⟨h.beside, h'.beside, fun t ht u hu => hbeside t u (h.last t ht) (h'.first u hu)⟩

/-- Anything may stand behind a token that is free. -/
theorem cons (hp : p t) (ht : Free t) (h : Shaped p' q us) : Shaped p q (t :: us) :=
  (one hp ht).append h fun _ u ht _ => beside_of_free ht u

/-- An expression behind what is no number. -/
theorem lead (hp : p t) (ht : t.kind ≠ .number) (h : Shaped Front q us) : Shaped p q (t :: us) :=
  (one hp ht).append h fun _ _ => beside_of_front

/-- What follows an expression. -/
theorem follow (h : Shaped p Back ts) (h' : Shaped Behind q us) : Shaped p q (ts ++ us) :=
  h.append h' fun _ _ => beside_of_back

/-- What closes behind an expression. -/
theorem close (h : Shaped p Back ts) (hu : u.isOp op = true) (hop : op ∈ [")", "]", "\x7d"]) :
    Shaped p Back (ts ++ [u]) :=
  h.follow (one (behind_of_isOp hu) (back_of_isOp hu hop))

end Shaped

/-- The symbols of an operator stand between two operands. -/
theorem shaped_words {op : BinaryOp} {words : List Token}
    (h : words.map Token.symbol = op.words) :
    Shaped Behind (fun t => t.kind ≠ .number) words := by
  obtain ⟨offset, offset', rfl⟩ := exists_offsets h
  cases op with
  | or | and | mem => exact .one (.inr ⟨rfl, by simp [operatorWords]⟩) (by simp)
  | notMem =>
    exact .cons (.inr ⟨rfl, by simp [operatorWords]⟩) (free_of_kind rfl) (.last_one (by simp))
  | _ => exact .one (.inl rfl) (by simp)

mutual

/-- **Operands and operators take turns.** -/
theorem Formed.shaped : ∀ {e : Expr} {ts : List Token}, Formed e ts → Shaped Front Back ts
  | _, _, .number kind _ => .one (front_of_kind (by simp [kind])) (back_of_kind (by simp [kind]))
  | _, _, .string kind => .one (front_of_kind (by simp [kind])) (back_of_kind (by simp [kind]))
  | _, _, .word kind => .one (front_of_kind (by simp [kind])) (back_of_kind (by simp [kind]))
  | _, _, .group opens inside closes =>
    .cons (front_of_isOp opens (by simp)) (free_of_isOp opens (by decide))
      (inside.shaped.close closes (by simp))
  | _, _, .list opens inside closes =>
    .cons (front_of_isOp opens (by simp)) (free_of_isOp opens (by decide))
      (inside.shaped closes (by simp))
  | _, _, .map opens inside closes =>
    .cons (front_of_isOp opens (by simp)) (free_of_isOp opens (by decide))
      (inside.shaped closes (by simp))
  | _, _, .attr first point kind =>
    have hname : _ ≠ TokenKind.operator := by rcases kind with kind | kind <;> simp [kind]
    first.shaped.follow (.cons (behind_of_isOp point) (free_of_isOp point (by decide))
      (.last_one (back_of_kind hname)))
  | _, _, .index first opens inside closes =>
    first.shaped.follow (.cons (behind_of_isOp opens) (free_of_isOp opens (by decide))
      (inside.shaped.close closes (by simp)))
  | _, _, .call first opens inside closes =>
    first.shaped.follow (.cons (behind_of_isOp opens) (free_of_isOp opens (by decide))
      (inside.shaped closes (by simp)))
  | _, _, .filter first isBar kind opens inside closes =>
    first.shaped.follow (.cons (behind_of_isOp isBar) (free_of_isOp isBar (by decide))
      (.cons (p := Any) trivial (free_of_kind kind) (.cons (p := Any) trivial
        (free_of_isOp opens (by decide)) (inside.shaped closes (by simp)))))
  | _, _, .bareFilter first isBar kind =>
    first.shaped.follow (.cons (behind_of_isOp isBar) (free_of_isOp isBar (by decide))
      (.last_one (back_of_kind (by simp [kind]))))
  | _, _, .neg op inside =>
    .lead (front_of_isOp op (by simp)) (kind_ne_of_isOp op) inside.shaped
  | _, _, .pos op inside =>
    .lead (front_of_isOp op (by simp)) (kind_ne_of_isOp op) inside.shaped
  | _, _, .not op inside =>
    .lead (front_of_kind (by simp [kind_of_isId op])) (by simp [kind_of_isId op]) inside.shaped
  | _, _, .binary first spells second =>
    (first.shaped.follow (shaped_words spells)).append second.shaped fun _ _ => beside_of_front
  | _, _, .test first isIs kind _ =>
    first.shaped.follow (.cons (behind_of_isId isIs (by simp [operatorWords]))
      (free_of_kind (kind_of_isId isIs)) (.last_one (back_of_kind (by simp [kind]))))
  | _, _, .negatedTest first isIs isNot kind =>
    first.shaped.follow (.cons (behind_of_isId isIs (by simp [operatorWords]))
      (free_of_kind (kind_of_isId isIs)) (.cons (p := Any) trivial
        (free_of_kind (kind_of_isId isNot)) (.last_one (back_of_kind (by simp [kind])))))
  | _, _, .ternary first isMark second isColon third =>
    first.shaped.follow (.cons (behind_of_isOp isMark) (free_of_isOp isMark (by decide))
      (second.shaped.follow (.cons (behind_of_isOp isColon) (free_of_isOp isColon (by decide))
        third.shaped)))

/-- Items are told with the bracket that closes them, since there may be none. -/
theorem FormedItems.shaped : ∀ {items : List Expr} {ts : List Token}, FormedItems items ts →
    ∀ {u : Token} {op : String}, u.isOp op = true → op ∈ [")", "]", "\x7d"] →
      Shaped Any Back (ts ++ [u])
  | _, _, .nil, _, _, closes, hop => .last_one (back_of_isOp closes hop)
  | _, _, .last h, _, _, closes, hop => (h.shaped.close closes hop).weaken
  | _, _, .more h isComma rest, _, _, closes, hop => by
    have hrest := rest.shaped closes hop
    have hmore := h.shaped.follow
      (.cons (behind_of_isOp isComma) (free_of_isOp isComma (by decide)) hrest)
    simpa using hmore.weaken

theorem FormedEntries.shaped : ∀ {entries : List (Expr × Expr)} {ts : List Token},
    FormedEntries entries ts → ∀ {u : Token} {op : String}, u.isOp op = true →
      op ∈ [")", "]", "\x7d"] → Shaped Any Back (ts ++ [u])
  | _, _, .nil, _, _, closes, hop => .last_one (back_of_isOp closes hop)
  | _, _, .last h isColon h', _, _, closes, hop => by
    have hvalue := h'.shaped.close closes hop
    have hentry := h.shaped.follow
      (.cons (behind_of_isOp isColon) (free_of_isOp isColon (by decide)) hvalue)
    simpa using hentry
  | _, _, .more h isColon h' isComma rest, _, _, closes, hop => by
    have hrest := rest.shaped closes hop
    have hvalue := h'.shaped.follow
      (.cons (behind_of_isOp isComma) (free_of_isOp isComma (by decide)) hrest)
    have hentry := h.shaped.follow
      (.cons (behind_of_isOp isColon) (free_of_isOp isColon (by decide)) hvalue)
    simpa using hentry

theorem FormedKey.shaped : ∀ {key : Expr} {ts : List Token}, FormedKey key ts →
    Shaped Any Back ts
  | _, _, .string kind =>
    .last_one (back_of_kind (by rcases kind with kind | kind <;> simp [kind]))
  | _, _, .number kind _ => .last_one (back_of_kind (by simp [kind]))
  | _, _, .group opens inside closes =>
    .cons (p := Any) trivial (free_of_isOp opens (by decide))
      (inside.shaped.close closes (by simp))

end

theorem shaped_of_parse {ts : List Token} {e : Expr} (h : parse ts = .ok e) :
    Shaped Front Back ts := by
  obtain ⟨pre, hts, hpre⟩ := (parse_eq_ok_iff.mp h).formed
  rw [List.append_nil] at hts
  exact hts ▸ hpre.shaped

end Stencil.Expr
