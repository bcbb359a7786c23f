import Mathlib.Data.Option.Basic
import Stencil.Proofs.Expr.Levels

/-!
# Tokens that lie elsewhere

A token knows at which byte of its source it begins, but no reader of expressions looks at that. If
two lists of tokens have the same symbols, then each reader takes as many tokens of the one as of
the other, and gives the same tree, or else the same fault. This is the walk through all readers at
once, level by level as they call each other.
-/

namespace Stencil

namespace Token

/-- Whether two lists of tokens are the same up to where the tokens lie. -/
def Same (ts us : List Token) : Prop :=
  us.map symbol = ts.map symbol

/-- Whether two readings, of different tokens perhaps, fail for the same reason or give related
values. -/
inductive Alike {α β : Type} (S : α → β → Prop) :
    Except GrammarFault α → Except GrammarFault β → Prop
  | fail (fault : GrammarFault) : Alike S (.error fault) (.error fault)
  | give {x : α} {y : β} (h : S x y) : Alike S (.ok x) (.ok y)

/-- Whether two readings have the same value and leave the same tokens. -/
def Parsed.Same {α : Type} {ts us : List Token} (p : Parsed α ts) (q : Parsed α us) : Prop :=
  p.value = q.value ∧ Token.Same p.rest q.rest

def Continued.Same {α : Type} {ts us : List Token} (p : Continued α ts) (q : Continued α us) :
    Prop :=
  p.value = q.value ∧ Token.Same p.rest q.rest

variable {α β γ δ : Type} {ts us : List Token}

theorem Alike.bind {S : α → β → Prop} {T : γ → δ → Prop} {r : Except GrammarFault α}
    {r' : Except GrammarFault β} {f : α → Except GrammarFault γ} {g : β → Except GrammarFault δ}
    (h : Alike S r r') (hfg : ∀ x y, S x y → Alike T (f x) (g y)) :
    Alike T (r >>= f) (r' >>= g) := by
  cases h with
  | fail fault => exact .fail fault
  | give hxy => exact hfg _ _ hxy

theorem Alike.refl (r : Except GrammarFault α) : Alike Eq r r := by
  cases r with
  | error fault => exact .fail fault
  | ok x => exact .give rfl

/-- A reading that uses up tokens, and what is done with the tokens that are left. -/
theorem Alike.andThen {S : γ → δ → Prop} {r : Except GrammarFault (Parsed α ts)}
    {r' : Except GrammarFault (Parsed α us)} {f : Parsed α ts → Except GrammarFault γ}
    {g : Parsed α us → Except GrammarFault δ} (h : Alike Parsed.Same r r')
    (hfg : ∀ (x : α) (ts' : List Token) (hlt : ts'.length < ts.length) (us' : List Token)
      (hlt' : us'.length < us.length), Token.Same ts' us' →
        Alike S (f ⟨x, ts', hlt⟩) (g ⟨x, us', hlt'⟩)) :
    Alike S (r >>= f) (r' >>= g) := by
  refine h.bind ?_
  rintro ⟨x, ts', hlt⟩ ⟨_, us', hlt'⟩ ⟨rfl, hrest⟩
  exact hfg x ts' hlt us' hlt' hrest

/-- The same for a reading that may have used up none. -/
theorem Alike.goOn {S : γ → δ → Prop} {r : Except GrammarFault (Continued α ts)}
    {r' : Except GrammarFault (Continued α us)} {f : Continued α ts → Except GrammarFault γ}
    {g : Continued α us → Except GrammarFault δ} (h : Alike Continued.Same r r')
    (hfg : ∀ (x : α) (ts' : List Token) (hle : ts'.length ≤ ts.length) (us' : List Token)
      (hle' : us'.length ≤ us.length), Token.Same ts' us' →
        Alike S (f ⟨x, ts', hle⟩) (g ⟨x, us', hle'⟩)) :
    Alike S (r >>= f) (r' >>= g) := by
  refine h.bind ?_
  rintro ⟨x, ts', hle⟩ ⟨_, us', hle'⟩ ⟨rfl, hrest⟩
  exact hfg x ts' hle us' hle' hrest

/-- Readings that give equal values are equal. -/
theorem Alike.eq {r r' : Except GrammarFault α} (h : Alike Eq r r') : r' = r := by
  cases h with
  | fail fault => rfl
  | give hxy => rw [hxy]

/-! ### One token -/

theorem Same.refl (ts : List Token) : Same ts ts := rfl

theorem same_cons {t u : Token} :
    Same (t :: ts) (u :: us) ↔ (u.kind = t.kind ∧ u.text = t.text) ∧ Same ts us := by
  simp [Same, symbol]

/-- Tokens that are the same are equally many. -/
theorem Same.cases (h : Same ts us) :
    (ts = [] ∧ us = []) ∨ ∃ t u ts' us', ts = t :: ts' ∧ us = u :: us' ∧ u.kind = t.kind ∧
      u.text = t.text ∧ Same ts' us' := by
  cases ts with
  | nil => exact .inl ⟨rfl, List.map_eq_nil_iff.mp h⟩
  | cons t ts =>
    cases us with
    | nil => cases h
    | cons u us =>
      obtain ⟨⟨hkind, htext⟩, hrest⟩ := same_cons.mp h
      exact .inr ⟨t, u, ts, us, rfl, rfl, hkind, htext, hrest⟩

theorem isOp_eq {t u : Token} (hkind : u.kind = t.kind) (htext : u.text = t.text) (op : String) :
    u.isOp op = t.isOp op := by
  rw [isOp, isOp, hkind, htext]

theorem isId_eq {t u : Token} (hkind : u.kind = t.kind) (htext : u.text = t.text)
    (name : String) : u.isId name = t.isId name := by
  rw [isId, isId, hkind, htext]

section One

variable (h : Same ts us)

include h

theorem same_dropOp? (op : String) : Option.Rel Parsed.Same (dropOp? op ts) (dropOp? op us) := by
  obtain ⟨rfl, rfl⟩ | ⟨t, u, ts, us, rfl, rfl, hkind, htext, hrest⟩ := h.cases
  · exact .none
  rw [dropOp?, dropOp?, isOp_eq hkind htext]
  by_cases hop : t.isOp op = true
  · rw [if_pos hop, if_pos hop]
    exact .some ⟨rfl, hrest⟩
  · rw [if_neg hop, if_neg hop]
    exact .none

theorem same_dropId? (name : String) :
    Option.Rel Parsed.Same (dropId? name ts) (dropId? name us) := by
  obtain ⟨rfl, rfl⟩ | ⟨t, u, ts, us, rfl, rfl, hkind, htext, hrest⟩ := h.cases
  · exact .none
  rw [dropId?, dropId?, isId_eq hkind htext]
  by_cases hid : t.isId name = true
  · rw [if_pos hid, if_pos hid]
    exact .some ⟨rfl, hrest⟩
  · rw [if_neg hid, if_neg hid]
    exact .none

theorem same_needOp (op : String) : Alike Parsed.Same (needOp op ts) (needOp op us) := by
  obtain ⟨rfl, rfl⟩ | ⟨t, u, ts, us, rfl, rfl, hkind, htext, hrest⟩ := h.cases
  · exact .fail _
  rw [needOp, needOp, isOp_eq hkind htext, htext]
  by_cases hop : t.isOp op = true
  · rw [if_pos hop, if_pos hop]
    exact .give ⟨rfl, hrest⟩
  · rw [if_neg hop, if_neg hop]
    exact .fail _

theorem same_needId : Alike Parsed.Same (needId ts) (needId us) := by
  obtain ⟨rfl, rfl⟩ | ⟨t, u, ts, us, rfl, rfl, hkind, htext, hrest⟩ := h.cases
  · exact .fail _
  rw [needId, needId, hkind, htext]
  by_cases hid : t.kind = .identifier
  · rw [if_pos hid, if_pos hid]
    exact .give ⟨rfl, hrest⟩
  · rw [if_neg hid, if_neg hid]
    exact .fail _

theorem same_needAttribute : Alike Parsed.Same (needAttribute ts) (needAttribute us) := by
  obtain ⟨rfl, rfl⟩ | ⟨t, u, ts, us, rfl, rfl, hkind, htext, hrest⟩ := h.cases
  · exact .fail _
  rw [needAttribute, needAttribute, hkind, htext]
  by_cases hname : (decide (t.kind = .identifier) || decide (t.kind = .number)) = true
  · rw [if_pos hname, if_pos hname]
    exact .give ⟨rfl, hrest⟩
  · rw [if_neg hname, if_neg hname]
    exact .fail _

theorem same_takeId (name : String) : Continued.Same (takeId name ts) (takeId name us) := by
  have hdrop := same_dropId? h name
  rw [takeId, takeId]
  generalize dropId? name ts = o, dropId? name us = o' at hdrop
  cases hdrop with
  | none => exact ⟨rfl, h⟩
  | some hpq => exact ⟨rfl, hpq.2⟩

theorem nextIsId_eq (name : String) : nextIsId name us = nextIsId name ts := by
  obtain ⟨rfl, rfl⟩ | ⟨t, u, ts, us, rfl, rfl, hkind, htext, -⟩ := h.cases
  · rfl
  · simp only [nextIsId, isId, hkind, htext]

theorem expectEnd_eq (tag : String) : expectEnd tag us = expectEnd tag ts := by
  obtain ⟨rfl, rfl⟩ | ⟨t, u, ts, us, rfl, rfl, -, htext, -⟩ := h.cases
  · rfl
  · simp only [expectEnd, htext]

end One

end Token

namespace Expr

open Token

variable {ts us : List Token}

theorem same_takeOperator? (level : Precedence) (h : Same ts us) :
    Option.Rel Parsed.Same (takeOperator? level ts) (takeOperator? level us) := by
  obtain ⟨rfl, rfl⟩ | ⟨t, u, ts, us, rfl, rfl, hkind, htext, hrest⟩ := h.cases
  · exact .none
  have hop : binaryOp? level u = binaryOp? level t := by
    simp only [binaryOp?, hkind, htext]
  rw [takeOperator?, takeOperator?, hop]
  cases binaryOp? level t with
  | some op => exact .some ⟨rfl, hrest⟩
  | none =>
    have hin := same_dropId? hrest "in"
    dsimp only
    rw [isId_eq hkind htext]
    by_cases htwo : (decide (level = .comparison) && t.isId "not") = true
    · rw [if_pos htwo, if_pos htwo]
      generalize dropId? "in" ts = o, dropId? "in" us = o' at hin
      cases hin with
      | none => exact .none
      | some hpq => exact .some ⟨rfl, hpq.2⟩
    · rw [if_neg htwo, if_neg htwo]
      exact .none

/-! ### The walk through the readers -/

mutual

-- The measure is told by the first list; the second one is taken apart along with it.
theorem same_parseAt (level : Precedence) {ts us : List Token} (h : Same ts us) :
    Alike Parsed.Same (parseAt level ts) (parseAt level us) := by
  cases level with
  | ternary =>
    rw [parseAt.eq_def .ternary ts, parseAt.eq_def .ternary us]
    dsimp only
    refine (same_parseAt .disjunction h).andThen fun cond ts₁ h₁ us₁ _ hus₁ => ?_
    have hmark := same_dropOp? hus₁ "?"
    dsimp only
    generalize dropOp? "?" ts₁ = o, dropOp? "?" us₁ = o' at hmark
    cases hmark with
    | none => exact .give ⟨rfl, hus₁⟩
    | @some p q hpq =>
      obtain ⟨_, ts₂, h₂⟩ := p
      refine (same_parseAt .ternary hpq.2).andThen fun yes ts₃ h₃ us₃ _ hus₃ => ?_
      dsimp only
      refine (same_needOp hus₃ ":").andThen fun _ ts₄ h₄ us₄ _ hus₄ => ?_
      dsimp only
      refine (same_parseAt .ternary hus₄).andThen fun no ts₅ h₅ us₅ _ hus₅ => ?_
      exact .give ⟨rfl, hus₅⟩
  | negation =>
    have hnot := same_dropId? h "not"
    rw [parseAt.eq_def .negation ts, parseAt.eq_def .negation us]
    dsimp only
    generalize dropId? "not" ts = o, dropId? "not" us = o' at hnot
    cases hnot with
    | none => exact same_parseAt .comparison h
    | @some p q hpq =>
      obtain ⟨_, ts₁, h₁⟩ := p
      refine (same_parseAt .negation hpq.2).andThen fun e ts₂ h₂ us₂ _ hus₂ => ?_
      exact .give ⟨rfl, hus₂⟩
  | range =>
    rw [parseAt.eq_def .range ts, parseAt.eq_def .range us]
    dsimp only
    refine (same_parseAt .concatenation h).andThen fun left ts₁ h₁ us₁ _ hus₁ => ?_
    have hdots := same_dropOp? hus₁ ".."
    dsimp only
    generalize dropOp? ".." ts₁ = o, dropOp? ".." us₁ = o' at hdots
    cases hdots with
    | none => exact .give ⟨rfl, hus₁⟩
    | @some p q hpq =>
      obtain ⟨_, ts₂, h₂⟩ := p
      refine (same_parseAt .concatenation hpq.2).andThen fun right ts₃ h₃ us₃ _ hus₃ => ?_
      exact .give ⟨rfl, hus₃⟩
  | sign =>
    have hminus := same_dropOp? h "-"
    have hplus := same_dropOp? h "+"
    rw [parseAt.eq_def .sign ts, parseAt.eq_def .sign us]
    dsimp only
    generalize dropOp? "-" ts = o, dropOp? "-" us = o' at hminus
    cases hminus with
    | @some p q hpq =>
      obtain ⟨_, ts₁, h₁⟩ := p
      refine (same_parseAt .sign hpq.2).andThen fun e ts₂ h₂ us₂ _ hus₂ => ?_
      exact .give ⟨rfl, hus₂⟩
    | none =>
      dsimp only
      generalize dropOp? "+" ts = o, dropOp? "+" us = o' at hplus
      cases hplus with
      | none => exact same_parseAt .power h
      | @some p q hpq =>
        obtain ⟨_, ts₁, h₁⟩ := p
        refine (same_parseAt .sign hpq.2).andThen fun e ts₂ h₂ us₂ _ hus₂ => ?_
        exact .give ⟨rfl, hus₂⟩
  | power =>
    rw [parseAt.eq_def .power ts, parseAt.eq_def .power us]
    dsimp only
    refine (same_parseAt .suffixed h).andThen fun base ts₁ h₁ us₁ _ hus₁ => ?_
    have hstars := same_dropOp? hus₁ "**"
    dsimp only
    generalize dropOp? "**" ts₁ = o, dropOp? "**" us₁ = o' at hstars
    cases hstars with
    | none => exact .give ⟨rfl, hus₁⟩
    | @some p q hpq =>
      obtain ⟨_, ts₂, h₂⟩ := p
      refine (same_parseAt .sign hpq.2).andThen fun exponent ts₃ h₃ us₃ _ hus₃ => ?_
      exact .give ⟨rfl, hus₃⟩
  | suffixed =>
    rw [parseAt.eq_def .suffixed ts, parseAt.eq_def .suffixed us]
    dsimp only
    refine (same_parseAt .primary h).andThen fun e ts₁ h₁ us₁ _ hus₁ => ?_
    dsimp only
    refine (same_parseSuffixes e hus₁).goOn fun e' ts₂ h₂ us₂ _ hus₂ => ?_
    exact .give ⟨rfl, hus₂⟩
  | primary =>
    obtain ⟨rfl, rfl⟩ | ⟨t, u, ts₁, us₁, hts, hus, hkind, htext, hrest⟩ := h.cases
    · rw [parseAt]
      exact .fail _
    have hlt : ts₁.length < ts.length := by simp [hts]
    rw [hts, hus, parseAt.eq_def .primary (t :: ts₁), parseAt.eq_def .primary (u :: us₁)]
    simp only [hkind, htext]
    cases t.kind with
    | number =>
      exact (Alike.refl (literal? t.text)).bind fun v w hvw => .give ⟨by rw [hvw], hrest⟩
    | string => exact .give ⟨rfl, hrest⟩
    | identifier => exact .give ⟨rfl, hrest⟩
    | operator =>
      dsimp only
      by_cases hparenthesis : t.text = "("
      · rw [if_pos hparenthesis, if_pos hparenthesis]
        refine (same_parseAt .ternary hrest).andThen fun e ts₂ h₂ us₂ _ hus₂ => ?_
        dsimp only
        refine (same_needOp hus₂ ")").andThen fun _ ts₃ h₃ us₃ _ hus₃ => ?_
        exact .give ⟨rfl, hus₃⟩
      rw [if_neg hparenthesis, if_neg hparenthesis]
      by_cases hbracket : t.text = "["
      · rw [if_pos hbracket, if_pos hbracket]
        refine (same_parseItems "]" hrest).andThen fun items ts₂ h₂ us₂ _ hus₂ => ?_
        exact .give ⟨rfl, hus₂⟩
      rw [if_neg hbracket, if_neg hbracket]
      by_cases hbrace : t.text = "\x7b"
      · rw [if_pos hbrace, if_pos hbrace]
        refine (same_parseEntries hrest).andThen fun entries ts₂ h₂ us₂ _ hus₂ => ?_
        exact .give ⟨rfl, hus₂⟩
      · rw [if_neg hbrace, if_neg hbrace]
        exact .fail _
  | disjunction | conjunction | comparison | concatenation | sum | product =>
    rw [parseAt_of_isChain rfl ts, parseAt_of_isChain rfl us]
    refine (same_parseAt _ h).andThen fun left ts₁ h₁ us₁ _ hus₁ => ?_
    dsimp only
    refine (same_parseChain _ _ left hus₁).goOn fun e ts₂ h₂ us₂ _ hus₂ => ?_
    exact .give ⟨rfl, hus₂⟩
termination_by weight ts (2 * level.rank)
decreasing_by
  all_goals
    dsimp only [weight, Precedence.rank, Precedence.tighter] at *
    omega

theorem same_parseChain (level tighter : Precedence) (left : Expr) {ts us : List Token}
    (h : Same ts us) :
    Alike Continued.Same (parseChain level tighter left ts) (parseChain level tighter left us) := by
  have his : Option.Rel Parsed.Same (if level = .comparison then dropId? "is" ts else none)
      (if level = .comparison then dropId? "is" us else none) := by
    split
    · exact same_dropId? h "is"
    · exact .none
  rw [parseChain.eq_def level tighter left ts, parseChain.eq_def level tighter left us]
  generalize (if level = .comparison then dropId? "is" ts else none) = o,
    (if level = .comparison then dropId? "is" us else none) = o' at his
  cases his with
  | @some p q hpq =>
    obtain ⟨_, ts₁, h₁⟩ := p
    obtain ⟨_, us₁, _⟩ := q
    obtain ⟨-, hus₁⟩ := hpq
    have hnegated := same_takeId hus₁ "not"
    dsimp only at hus₁ ⊢
    generalize takeId "not" ts₁ = c, takeId "not" us₁ = c' at hnegated
    obtain ⟨negated, ts₂, h₂⟩ := c
    obtain ⟨_, us₂, _⟩ := c'
    obtain ⟨rfl, hus₂⟩ := hnegated
    refine (same_needId hus₂).andThen fun name ts₃ h₃ us₃ _ hus₃ => ?_
    dsimp only
    refine (same_parseChain level tighter (.test left name negated) hus₃).goOn
      fun e ts₄ h₄ us₄ _ hus₄ => ?_
    exact .give ⟨rfl, hus₄⟩
  | none =>
    have hop := same_takeOperator? level h
    dsimp only
    generalize takeOperator? level ts = o, takeOperator? level us = o' at hop
    cases hop with
    | none => exact .give ⟨rfl, h⟩
    | @some p q hpq =>
      obtain ⟨op, ts₁, h₁⟩ := p
      obtain ⟨_, us₁, _⟩ := q
      obtain ⟨rfl, hus₁⟩ := hpq
      refine (same_parseAt tighter hus₁).andThen fun right ts₂ h₂ us₂ _ hus₂ => ?_
      dsimp only
      refine (same_parseChain level tighter (.binary op left right) hus₂).goOn
        fun e ts₃ h₃ us₃ _ hus₃ => ?_
      exact .give ⟨rfl, hus₃⟩
termination_by weight ts 0
decreasing_by
  all_goals
    have := tighter.rank_le
    dsimp only [weight] at *
    omega

theorem same_parseSuffixes (e : Expr) {ts us : List Token} (h : Same ts us) :
    Alike Continued.Same (parseSuffixes e ts) (parseSuffixes e us) := by
  have hpoint := same_dropOp? h "."
  have hbracket := same_dropOp? h "["
  have hparenthesis := same_dropOp? h "("
  have hbar := same_dropOp? h "|"
  rw [parseSuffixes.eq_def e ts, parseSuffixes.eq_def e us]
  generalize dropOp? "." ts = o, dropOp? "." us = o' at hpoint
  cases hpoint with
  | @some p q hpq =>
    obtain ⟨_, ts₁, h₁⟩ := p
    refine (same_needAttribute hpq.2).andThen fun name ts₂ h₂ us₂ _ hus₂ => ?_
    dsimp only
    refine (same_parseSuffixes (.attr e name) hus₂).goOn fun e' ts₃ h₃ us₃ _ hus₃ => ?_
    exact .give ⟨rfl, hus₃⟩
  | none =>
  dsimp only
  generalize dropOp? "[" ts = o, dropOp? "[" us = o' at hbracket
  cases hbracket with
  | @some p q hpq =>
    obtain ⟨_, ts₁, h₁⟩ := p
    refine (same_parseAt .ternary hpq.2).andThen fun position ts₂ h₂ us₂ _ hus₂ => ?_
    dsimp only
    refine (same_needOp hus₂ "]").andThen fun _ ts₃ h₃ us₃ _ hus₃ => ?_
    dsimp only
    refine (same_parseSuffixes (.index e position) hus₃).goOn fun e' ts₄ h₄ us₄ _ hus₄ => ?_
    exact .give ⟨rfl, hus₄⟩
  | none =>
  dsimp only
  generalize dropOp? "(" ts = o, dropOp? "(" us = o' at hparenthesis
  cases hparenthesis with
  | @some p q hpq =>
    obtain ⟨_, ts₁, h₁⟩ := p
    refine (same_parseItems ")" hpq.2).andThen fun args ts₂ h₂ us₂ _ hus₂ => ?_
    dsimp only
    refine (same_parseSuffixes (.call e args) hus₂).goOn fun e' ts₃ h₃ us₃ _ hus₃ => ?_
    exact .give ⟨rfl, hus₃⟩
  | none =>
  dsimp only
  generalize dropOp? "|" ts = o, dropOp? "|" us = o' at hbar
  cases hbar with
  | none => exact .give ⟨rfl, h⟩
  | @some p q hpq =>
    obtain ⟨_, ts₁, h₁⟩ := p
    refine (same_needId hpq.2).andThen fun name ts₂ h₂ us₂ _ hus₂ => ?_
    have hargs := same_dropOp? hus₂ "("
    dsimp only
    generalize dropOp? "(" ts₂ = o, dropOp? "(" us₂ = o' at hargs
    cases hargs with
    | none =>
      refine (same_parseSuffixes (.filter e name []) hus₂).goOn fun e' ts₃ h₃ us₃ _ hus₃ => ?_
      exact .give ⟨rfl, hus₃⟩
    | @some p q hpq =>
      obtain ⟨_, ts₃, h₃⟩ := p
      refine (same_parseItems ")" hpq.2).andThen fun args ts₄ h₄ us₄ _ hus₄ => ?_
      dsimp only
      refine (same_parseSuffixes (.filter e name args) hus₄).goOn fun e' ts₅ h₅ us₅ _ hus₅ => ?_
      exact .give ⟨rfl, hus₅⟩
termination_by weight ts 0
decreasing_by
  all_goals
    dsimp only [weight, Precedence.rank] at *
    omega

theorem same_parseItems (close : String) {ts us : List Token} (h : Same ts us) :
    Alike Parsed.Same (parseItems close ts) (parseItems close us) := by
  have hclose := same_dropOp? h close
  rw [parseItems.eq_def close ts, parseItems.eq_def close us]
  generalize dropOp? close ts = o, dropOp? close us = o' at hclose
  cases hclose with
  | some hpq => exact .give ⟨rfl, hpq.2⟩
  | none =>
    refine (same_parseAt .ternary h).andThen fun item ts₁ h₁ us₁ _ hus₁ => ?_
    have hcomma := same_dropOp? hus₁ ","
    dsimp only
    generalize dropOp? "," ts₁ = o, dropOp? "," us₁ = o' at hcomma
    cases hcomma with
    | none =>
      refine (same_needOp hus₁ close).andThen fun _ ts₂ h₂ us₂ _ hus₂ => ?_
      exact .give ⟨rfl, hus₂⟩
    | @some p q hpq =>
      obtain ⟨_, ts₂, h₂⟩ := p
      refine (same_parseItems close hpq.2).andThen fun items ts₃ h₃ us₃ _ hus₃ => ?_
      exact .give ⟨rfl, hus₃⟩
termination_by weight ts 25
decreasing_by
  all_goals
    dsimp only [weight, Precedence.rank] at *
    omega

theorem same_parseEntries {ts us : List Token} (h : Same ts us) :
    Alike Parsed.Same (parseEntries ts) (parseEntries us) := by
  have hclose := same_dropOp? h "\x7d"
  rw [parseEntries.eq_def ts, parseEntries.eq_def us]
  generalize dropOp? "\x7d" ts = o, dropOp? "\x7d" us = o' at hclose
  cases hclose with
  | some hpq => exact .give ⟨rfl, hpq.2⟩
  | none =>
    refine (same_parseKey h).andThen fun key ts₁ h₁ us₁ _ hus₁ => ?_
    dsimp only
    refine (same_needOp hus₁ ":").andThen fun _ ts₂ h₂ us₂ _ hus₂ => ?_
    dsimp only
    refine (same_parseAt .ternary hus₂).andThen fun value ts₃ h₃ us₃ _ hus₃ => ?_
    have hcomma := same_dropOp? hus₃ ","
    dsimp only
    generalize dropOp? "," ts₃ = o, dropOp? "," us₃ = o' at hcomma
    cases hcomma with
    | none =>
      refine (same_needOp hus₃ "\x7d").andThen fun _ ts₄ h₄ us₄ _ hus₄ => ?_
      exact .give ⟨rfl, hus₄⟩
    | @some p q hpq =>
      obtain ⟨_, ts₄, h₄⟩ := p
      refine (same_parseEntries hpq.2).andThen fun entries ts₅ h₅ us₅ _ hus₅ => ?_
      exact .give ⟨rfl, hus₅⟩
termination_by weight ts 1
decreasing_by
  all_goals
    dsimp only [weight, Precedence.rank] at *
    omega

theorem same_parseKey {ts us : List Token} (h : Same ts us) :
    Alike Parsed.Same (parseKey ts) (parseKey us) := by
  obtain ⟨rfl, rfl⟩ | ⟨t, u, ts₁, us₁, hts, hus, hkind, htext, hrest⟩ := h.cases
  · rw [parseKey]
    exact .fail _
  have hlt : ts₁.length < ts.length := by simp [hts]
  rw [hts, hus, parseKey.eq_def (t :: ts₁), parseKey.eq_def (u :: us₁)]
  simp only [hkind, htext]
  cases t.kind with
  | number => exact (Alike.refl (literal? t.text)).bind fun v w hvw => .give ⟨by rw [hvw], hrest⟩
  | string => exact .give ⟨rfl, hrest⟩
  | identifier => exact .give ⟨rfl, hrest⟩
  | operator =>
    dsimp only
    by_cases hparenthesis : t.text = "("
    · rw [if_pos hparenthesis, if_pos hparenthesis]
      refine (same_parseAt .ternary hrest).andThen fun key ts₂ h₂ us₂ _ hus₂ => ?_
      dsimp only
      refine (same_needOp hus₂ ")").andThen fun _ ts₃ h₃ us₃ _ hus₃ => ?_
      exact .give ⟨rfl, hus₃⟩
    · rw [if_neg hparenthesis, if_neg hparenthesis]
      exact .fail _
termination_by weight ts 0
decreasing_by
  all_goals
    dsimp only [weight, Precedence.rank] at *
    omega

end

/-- **Where the tokens lie does not matter** to what they mean as an expression. -/
theorem parse_eq_of_same {ts us : List Token} (h : Same ts us) : parse us = parse ts := by
  refine Alike.eq (Alike.bind (S := fun p q => p.1 = q.1 ∧ Same p.2 q.2) ?_ ?_)
  · have hread := same_parseAt .ternary h
    rw [parsePrefix, parsePrefix]
    generalize parseAt .ternary ts = r, parseAt .ternary us = r' at hread
    cases hread with
    | fail fault => exact .fail fault
    | give hpq => exact .give hpq
  · rintro ⟨e, ts'⟩ ⟨_, us'⟩ ⟨rfl, hrest⟩
    dsimp only at hrest ⊢
    obtain ⟨rfl, rfl⟩ | ⟨t, u, ts', us', rfl, rfl, -, htext, -⟩ := hrest.cases
    · exact .refl _
    · dsimp only
      rw [htext]
      exact .refl _

end Expr

end Stencil
