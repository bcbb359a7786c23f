import Stencil.Proofs.Expr.Levels

/-!
# The grammar of expressions

`Expr.Spelled` is the table of precedences as a grammar: a rule for each form, which says at which
level the form stands and at which levels its parts do. A form may stand wherever a looser one may.
Nothing in it reads one token after the other, and parentheses may stand around anything.

**What is spelled is read** (`Expr.Spelled.reads`), whatever follows, as long as that does not go
on. The induction needs more than this, because an operator that groups to the left is read by the
chain that its left operand began. `Expr.Continues` says what a level does behind a form that it has
read, and `Expr.Spelled.sound` that the level comes to that point.

Two forms can be told from others only by what follows or precedes them. A `not` or a sign begins
no tighter form (`Expr.Spelled.starts`), and a filter without arguments must not be called without
parentheses, since these would be its own (`Expr.EndsOpen`).
-/

namespace Stencil.Expr

open Token

/-- Whether the tokens spell a filter without arguments and end with its name. -/
def EndsOpen (e : Expr) (ts : List Token) : Prop :=
  (∃ input name, e = .filter input name []) ∧ ∀ t, ts.getLast? = some t → t.isOp ")" = false

/-! ### The rules -/

mutual

/-- The tokens spell an expression that may stand at a level. -/
inductive Spelled : Precedence → Expr → List Token → Prop
  | number {t : Token} {v : Value} (kind : t.kind = .number) (means : literal? t.text = .ok v) :
    Spelled .primary (.literal v) [t]
  | string {t : Token} (kind : t.kind = .string) : Spelled .primary (.literal (.str t.text)) [t]
  | word {t : Token} (kind : t.kind = .identifier) (hnot : t.text ≠ "not") :
    Spelled .primary (ofWord t.text) [t]
  | group {e : Expr} {t u : Token} {ts : List Token} (opens : t.isOp "(")
    (inside : Spelled .ternary e ts) (closes : u.isOp ")") :
    Spelled .primary e (t :: (ts ++ [u]))
  | list {items : List Expr} {t u : Token} {ts : List Token} (opens : t.isOp "[")
    (inside : SpelledItems items ts) (closes : u.isOp "]") :
    Spelled .primary (.list items) (t :: (ts ++ [u]))
  | map {entries : List (Expr × Expr)} {t u : Token} {ts : List Token} (opens : t.isOp "\x7b")
    (inside : SpelledEntries entries ts) (closes : u.isOp "\x7d") :
    Spelled .primary (.map entries) (t :: (ts ++ [u]))
  | attr {target : Expr} {t name : Token} {ts : List Token} (first : Spelled .suffixed target ts)
    (point : t.isOp ".") (kind : name.kind = .identifier ∨ name.kind = .number) :
    Spelled .suffixed (.attr target name.text) (ts ++ [t, name])
  | index {target position : Expr} {t u : Token} {ts us : List Token}
    (first : Spelled .suffixed target ts) (opens : t.isOp "[")
    (inside : Spelled .ternary position us) (closes : u.isOp "]") :
    Spelled .suffixed (.index target position) (ts ++ t :: (us ++ [u]))
  | call {callee : Expr} {args : List Expr} {t u : Token} {ts us : List Token}
    (first : Spelled .suffixed callee ts) (ends : ¬ EndsOpen callee ts) (opens : t.isOp "(")
    (inside : SpelledItems args us) (closes : u.isOp ")") :
    Spelled .suffixed (.call callee args) (ts ++ t :: (us ++ [u]))
  | filter {input : Expr} {args : List Expr} {bar name t u : Token} {ts us : List Token}
    (first : Spelled .suffixed input ts) (isBar : bar.isOp "|") (kind : name.kind = .identifier)
    (opens : t.isOp "(") (inside : SpelledItems args us) (closes : u.isOp ")") :
    Spelled .suffixed (.filter input name.text args) (ts ++ bar :: name :: t :: (us ++ [u]))
  | bareFilter {input : Expr} {bar name : Token} {ts : List Token}
    (first : Spelled .suffixed input ts) (isBar : bar.isOp "|") (kind : name.kind = .identifier) :
    Spelled .suffixed (.filter input name.text []) (ts ++ [bar, name])
  | power {base exponent : Expr} {t : Token} {ts us : List Token} (left : Spelled .suffixed base ts)
    (op : t.isOp "**") (right : Spelled .sign exponent us) :
    Spelled .power (.binary .pow base exponent) (ts ++ t :: us)
  | neg {e : Expr} {t : Token} {ts : List Token} (op : t.isOp "-") (inside : Spelled .sign e ts) :
    Spelled .sign (.unary .neg e) (t :: ts)
  | pos {e : Expr} {t : Token} {ts : List Token} (op : t.isOp "+") (inside : Spelled .sign e ts) :
    Spelled .sign (.unary .pos e) (t :: ts)
  /-- The operators that group to the left: their right operand stands at a tighter level. -/
  | chain {op : BinaryOp} {left right : Expr} {ts words us : List Token}
    (chains : op.level.isChain = true) (first : Spelled op.level left ts)
    (spells : words.map Token.symbol = op.words) (second : Spelled op.level.tighter right us) :
    Spelled op.level (.binary op left right) (ts ++ words ++ us)
  | test {input : Expr} {is name : Token} {ts : List Token} (first : Spelled .comparison input ts)
    (isIs : is.isId "is") (kind : name.kind = .identifier) (hnot : name.text ≠ "not") :
    Spelled .comparison (.test input name.text false) (ts ++ [is, name])
  | negatedTest {input : Expr} {is not name : Token} {ts : List Token}
    (first : Spelled .comparison input ts) (isIs : is.isId "is") (isNot : not.isId "not")
    (kind : name.kind = .identifier) :
    Spelled .comparison (.test input name.text true) (ts ++ [is, not, name])
  | range {left right : Expr} {t : Token} {ts us : List Token}
    (first : Spelled .concatenation left ts) (op : t.isOp "..")
    (second : Spelled .concatenation right us) :
    Spelled .range (.binary .range left right) (ts ++ t :: us)
  | not {e : Expr} {t : Token} {ts : List Token} (op : t.isId "not")
    (inside : Spelled .negation e ts) : Spelled .negation (.unary .not e) (t :: ts)
  | ternary {cond yes no : Expr} {mark colon : Token} {ts us vs : List Token}
    (first : Spelled .disjunction cond ts) (isMark : mark.isOp "?")
    (second : Spelled .ternary yes us) (isColon : colon.isOp ":") (third : Spelled .ternary no vs) :
    Spelled .ternary (.ternary cond yes no) (ts ++ mark :: (us ++ colon :: vs))
  /-- What may stand at a level may stand at the next looser one. -/
  | loosen {level : Precedence} {e : Expr} {ts : List Token} (looser : level ≠ .primary)
    (h : Spelled level.tighter e ts) : Spelled level e ts

/-- The tokens spell expressions with commas between them, and perhaps one behind them. -/
inductive SpelledItems : List Expr → List Token → Prop
  | nil : SpelledItems [] []
  | last {e : Expr} {ts : List Token} (h : Spelled .ternary e ts) : SpelledItems [e] ts
  | more {e : Expr} {items : List Expr} {comma : Token} {ts us : List Token}
    (h : Spelled .ternary e ts) (isComma : comma.isOp ",") (rest : SpelledItems items us) :
    SpelledItems (e :: items) (ts ++ comma :: us)

/-- The tokens spell the entries of a map. -/
inductive SpelledEntries : List (Expr × Expr) → List Token → Prop
  | nil : SpelledEntries [] []
  | last {key value : Expr} {colon : Token} {ts us : List Token} (h : SpelledKey key ts)
    (isColon : colon.isOp ":") (h' : Spelled .ternary value us) :
    SpelledEntries [(key, value)] (ts ++ colon :: us)
  | more {key value : Expr} {entries : List (Expr × Expr)} {colon comma : Token}
    {ts us vs : List Token} (h : SpelledKey key ts) (isColon : colon.isOp ":")
    (h' : Spelled .ternary value us) (isComma : comma.isOp ",")
    (rest : SpelledEntries entries vs) :
    SpelledEntries ((key, value) :: entries) (ts ++ colon :: (us ++ comma :: vs))

/-- The tokens spell the key of an entry: a text with or without quotes, a number, or anything in
parentheses. -/
inductive SpelledKey : Expr → List Token → Prop
  | string {t : Token} (kind : t.kind = .identifier ∨ t.kind = .string) :
    SpelledKey (.literal (.str t.text)) [t]
  | number {t : Token} {v : Value} (kind : t.kind = .number) (means : literal? t.text = .ok v) :
    SpelledKey (.literal v) [t]
  | group {e : Expr} {t u : Token} {ts : List Token} (opens : t.isOp "(")
    (inside : Spelled .ternary e ts) (closes : u.isOp ")") : SpelledKey e (t :: (ts ++ [u]))

end

/-! ### How a form begins -/

/-- Whether a form of a level may begin with the token. -/
structure Starts (level : Precedence) (t : Token) : Prop where
  not : t.isId "not" = true → Precedence.negation.rank ≤ level.rank
  minus : t.isOp "-" = true → Precedence.sign.rank ≤ level.rank
  plus : t.isOp "+" = true → Precedence.sign.rank ≤ level.rank
  paren : t.isOp ")" = false
  bracket : t.isOp "]" = false
  brace : t.isOp "\x7d" = false

theorem Starts.mono {level level' : Precedence} {t : Token} (h : Starts level t)
    (hle : level.rank ≤ level'.rank) : Starts level' t :=
  ⟨fun ht => Nat.le_trans (h.not ht) hle, fun ht => Nat.le_trans (h.minus ht) hle,
    fun ht => Nat.le_trans (h.plus ht) hle, h.paren, h.bracket, h.brace⟩

/-- A token that is no operator begins any form, unless it is a `not`. -/
theorem Starts.of_kind {level : Precedence} {t : Token} (hkind : t.kind ≠ .operator)
    (hnot : t.isId "not" = false) : Starts level t := by
  have hop (op : String) : t.isOp op = false := by simp [isOp, hkind]
  constructor <;> simp [hop, hnot]

/-- So does an opening parenthesis or bracket or brace. -/
theorem Starts.of_isOp {level : Precedence} {t : Token} {op : String} (ht : t.isOp op = true)
    (hop : op ∈ ["(", "[", "\x7b"]) : Starts level t := by
  simp only [isOp, Bool.and_eq_true, decide_eq_true_eq] at ht
  have hid (name : String) : t.isId name = false := by simp [isId, ht.1]
  have hother {other : String} (hne : op ≠ other) : t.isOp other = false := by
    simp [isOp, ht.2, hne]
  simp only [List.mem_cons, List.not_mem_nil, or_false] at hop
  constructor
  · simp [hid]
  all_goals rcases hop with rfl | rfl | rfl <;> simp [hother]

/-- A sign begins a form of the level of signs. -/
theorem Starts.of_sign {t : Token} {op : String} (ht : t.isOp op = true)
    (hop : op = "-" ∨ op = "+") : Starts .sign t := by
  simp only [isOp, Bool.and_eq_true, decide_eq_true_eq] at ht
  have hid (name : String) : t.isId name = false := by simp [isId, ht.1]
  have hother {other : String} (hne : op ≠ other) : t.isOp other = false := by
    simp [isOp, ht.2, hne]
  constructor
  · simp [hid]
  · simp
  · simp
  all_goals rcases hop with rfl | rfl <;> simp [hother]

theorem Starts.of_not {t : Token} (ht : t.isId "not" = true) : Starts .negation t := by
  simp only [isId, Bool.and_eq_true, decide_eq_true_eq] at ht
  have hop (op : String) : t.isOp op = false := by simp [isOp, ht.1]
  constructor <;> simp [hop]

/-- Whether the tokens begin as a form of a level may. -/
def StartsAt (level : Precedence) (ts : List Token) : Prop :=
  ∃ t us, ts = t :: us ∧ Starts level t

theorem StartsAt.append {level level' : Precedence} {ts : List Token} (h : StartsAt level ts)
    (hle : level.rank ≤ level'.rank) (us : List Token) : StartsAt level' (ts ++ us) := by
  obtain ⟨t, more, rfl, ht⟩ := h
  exact ⟨t, more ++ us, rfl, ht.mono hle⟩

/-- Some token begins each form, and not any. -/
theorem Spelled.starts {level : Precedence} {e : Expr} {ts : List Token} (h : Spelled level e ts) :
    StartsAt level ts := by
  cases h with
  | number kind => exact ⟨_, _, rfl, .of_kind (by simp [kind]) (by simp [isId, kind])⟩
  | string kind => exact ⟨_, _, rfl, .of_kind (by simp [kind]) (by simp [isId, kind])⟩
  | word kind hnot => exact ⟨_, _, rfl, .of_kind (by simp [kind]) (by simp [isId, hnot])⟩
  | group opens => exact ⟨_, _, rfl, .of_isOp opens (by simp)⟩
  | list opens => exact ⟨_, _, rfl, .of_isOp opens (by simp)⟩
  | map opens => exact ⟨_, _, rfl, .of_isOp opens (by simp)⟩
  | neg op => exact ⟨_, _, rfl, .of_sign op (.inl rfl)⟩
  | pos op => exact ⟨_, _, rfl, .of_sign op (.inr rfl)⟩
  | not op => exact ⟨_, _, rfl, .of_not op⟩
  -- all others begin as their first operand does
  | attr first => exact first.starts.append (by decide) _
  | index first => exact first.starts.append (by decide) _
  | call first => exact first.starts.append (by decide) _
  | filter first => exact first.starts.append (by decide) _
  | bareFilter first => exact first.starts.append (by decide) _
  | power left => exact left.starts.append (by decide) _
  | chain _ first =>
    exact (first.starts.append (Nat.le_refl _) _).append (Nat.le_refl _) _
  | test first => exact first.starts.append (by decide) _
  | negatedTest first => exact first.starts.append (by decide) _
  | range first => exact first.starts.append (by decide) _
  | ternary first => exact first.starts.append (by decide) _
  | loosen hlooser h => simpa using h.starts.append level.rank_tighter_le []
-- the same expression may be spelled at a tighter level, so the level counts as well
termination_by (e, level.rank)
decreasing_by
  all_goals first
    | decreasing_tactic
    | subst_vars
      exact Prod.Lex.right _ (Precedence.rank_tighter_lt _ hlooser)

theorem StartsAt.not_close {level : Precedence} {ts : List Token} {close : String}
    (h : StartsAt level ts) (hclose : close ∈ [")", "]"]) (us : List Token) :
    nextIsOp close (ts ++ us) = false := by
  obtain ⟨t, more, rfl, ht⟩ := h
  simp only [List.mem_cons, List.not_mem_nil, or_false] at hclose
  rcases hclose with rfl | rfl
  · exact ht.paren
  · exact ht.bracket

theorem SpelledKey.not_brace {key : Expr} {ts : List Token} (h : SpelledKey key ts)
    (us : List Token) : nextIsOp "\x7d" (ts ++ us) = false := by
  cases h with
  | string kind => rcases kind with kind | kind <;> simp [nextIsOp, isOp, kind]
  | number kind => simp [nextIsOp, isOp, kind]
  | group opens =>
    have hstarts : Starts .primary _ := .of_isOp opens (by simp)
    exact hstarts.brace

/-! ### What may follow a form -/

/-- A symbol that separates or closes goes on with no form at all. -/
theorem stops_of_isOp {op : String} {t : Token} (ht : t.isOp op = true)
    (hop : op ∈ [":", ",", ")", "]", "\x7d"]) (rest : List Token) :
    Precedence.ternary.Stops (t :: rest) := by
  intro l _
  rw [Precedence.goesOn_of_isOp ht]
  simp only [List.mem_cons, List.not_mem_nil, or_false] at hop
  rcases hop with rfl | rfl | rfl | rfl | rfl <;> cases l <;> rfl

theorem stops_mark {t : Token} (ht : t.isOp "?" = true) (rest : List Token) :
    Precedence.disjunction.Stops (t :: rest) := by
  intro l hl
  rw [Precedence.goesOn_of_isOp ht]
  cases l <;> first | rfl | exact absurd hl (by decide)

theorem stops_dots {t : Token} (ht : t.isOp ".." = true) (rest : List Token) :
    Precedence.concatenation.Stops (t :: rest) := by
  intro l hl
  rw [Precedence.goesOn_of_isOp ht]
  cases l <;> first | rfl | exact absurd hl (by decide)

theorem stops_stars {t : Token} (ht : t.isOp "**" = true) (rest : List Token) :
    Precedence.suffixed.Stops (t :: rest) := by
  intro l hl
  rw [Precedence.goesOn_of_isOp ht]
  cases l <;> first | rfl | exact absurd hl (by decide)

theorem stops_is {t : Token} (ht : t.isId "is" = true) (rest : List Token) :
    Precedence.range.Stops (t :: rest) := by
  obtain ⟨kind, text, offset⟩ := t
  simp only [isId, Bool.and_eq_true, decide_eq_true_eq] at ht
  obtain ⟨rfl, rfl⟩ := ht
  intro l hl
  cases l <;> first | rfl | exact absurd hl (by decide)

/-! ### Reading what is spelled -/

/-- What a level makes of a form that it has read, with what stands behind it. Only a level that
groups to the left goes on. -/
def Continues (level : Precedence) (e : Expr) (ts rest : List Token) (e' : Expr)
    (rest' : List Token) : Prop :=
  if level.isChain then ChainReads level e rest e' rest'
  else if level = .suffixed then
    SuffixesRead e rest e' rest' ∧ (EndsOpen e ts → nextIsOp "(" rest = false)
  else level.goesOn rest = false ∧ e' = e ∧ rest' = rest

/-- Whether tokens that spell a form are read as that form, whatever stands behind them. -/
def Sound (level : Precedence) (e : Expr) (ts : List Token) : Prop :=
  ∀ rest e' rest', level.tighter.Stops rest → Continues level e ts rest e' rest' →
    ReadsAt level (ts ++ rest) e' rest'

variable {level : Precedence} {e : Expr} {ts : List Token}

theorem Continues.stop {rest : List Token} (h : level.goesOn rest = false) :
    Continues level e ts rest e rest := by
  unfold Continues
  split
  next hchain => exact .stop hchain h
  next =>
    split
    next hsuffixed =>
      subst hsuffixed
      refine ⟨.stop h, fun _ => ?_⟩
      simp only [Precedence.goesOn, Bool.or_eq_false_iff] at h
      exact h.1.2
    next => exact ⟨h, rfl, rfl⟩

theorem Sound.reads (h : Sound level e ts) {rest : List Token} (hstop : level.Stops rest) :
    ReadsAt level (ts ++ rest) e rest :=
  h rest e rest (hstop.mono level.rank_tighter_le) (.stop (hstop level (Nat.le_refl _)))

/-- A level that groups to no side has read a form when it has read it. -/
theorem Sound.of_reads (hchain : level.isChain = false) (hsuffixed : level ≠ .suffixed)
    (h : ∀ rest, level.Stops rest → ReadsAt level (ts ++ rest) e rest) : Sound level e ts := by
  intro rest e' rest' hstop hcontinues
  rw [Continues, if_neg (by simp [hchain]), if_neg hsuffixed] at hcontinues
  obtain ⟨hgoesOn, rfl, rfl⟩ := hcontinues
  exact h _ (hstop.of_tighter hgoesOn)

/-- A form with a suffix is read if the suffix is read behind the form. -/
theorem Sound.suffix {e' : Expr} {us : List Token} (h : Sound .suffixed e ts)
    (hnext : EndsOpen e ts → ∀ rest, nextIsOp "(" (us ++ rest) = false)
    (hsuffix : ∀ rest e'' rest', (EndsOpen e' (ts ++ us) → nextIsOp "(" rest = false) →
      SuffixesRead e' rest e'' rest' → SuffixesRead e (us ++ rest) e'' rest') :
    Sound .suffixed e' (ts ++ us) := by
  intro rest e'' rest' _ hcontinues
  have hmore : SuffixesRead e' rest e'' rest' ∧
      (EndsOpen e' (ts ++ us) → nextIsOp "(" rest = false) := hcontinues
  have hreads := hsuffix rest e'' rest' hmore.2 hmore.1
  rw [List.append_assoc]
  exact h _ _ _ (Precedence.stops_primary _) ⟨hreads, fun hopen => hnext hopen rest⟩

theorem Sound.loosen (hlooser : level ≠ .primary) (hstarts : StartsAt level.tighter ts)
    (h : Sound level.tighter e ts) : Sound level e ts := by
  intro rest e' rest' hstop hcontinues
  have hreads := h.reads hstop
  obtain ⟨t, us, rfl, ht⟩ := hstarts
  by_cases hchain : level.isChain = true
  · rw [Continues, if_pos hchain] at hcontinues
    exact .chain hchain hreads hcontinues
  · rw [Continues, if_neg hchain] at hcontinues
    split at hcontinues
    next hsuffixed =>
      subst hsuffixed
      exact .suffixed hreads hcontinues.1
    next hsuffixed =>
      obtain ⟨hgoesOn, rfl, rfl⟩ := hcontinues
      cases level with
      | ternary => exact hreads.ternary_of_disjunction hgoesOn
      | negation =>
        have hnot : nextIsId "not" (t :: us ++ rest') = false := by
          simpa [nextIsId] using mt ht.not (by decide)
        exact hreads.negation_of_comparison hnot
      | range => exact hreads.range_of_concatenation hgoesOn
      | sign =>
        exact hreads.sign_of_power (by simpa [nextIsOp] using mt ht.minus (by decide))
          (by simpa [nextIsOp] using mt ht.plus (by decide))
      | power => exact hreads.power_of_suffixed hgoesOn
      | suffixed => exact absurd rfl hsuffixed
      | primary => exact absurd rfl hlooser
      | _ => exact absurd rfl hchain

mutual

theorem Spelled.sound : ∀ {level : Precedence} {e : Expr} {ts : List Token},
    Spelled level e ts → Sound level e ts
  | _, _, _, .number kind means => .of_reads rfl (by decide) fun _ _ => .number kind means
  | _, _, _, .string kind => .of_reads rfl (by decide) fun _ _ => .string kind
  | _, _, _, .word kind _ => .of_reads rfl (by decide) fun _ _ => .word kind
  | _, _, _, .group opens inside closes => .of_reads rfl (by decide) fun rest _ => by
    have hinside := inside.sound.reads (stops_of_isOp closes (by simp) rest)
    simpa using ReadsAt.group opens hinside closes
  | _, _, _, .list opens inside closes => .of_reads rfl (by decide) fun rest _ => by
    simpa using ReadsAt.list opens (inside.reads (by simp) closes rest)
  | _, _, _, .map opens inside closes => .of_reads rfl (by decide) fun rest _ => by
    simpa using ReadsAt.map opens (inside.reads closes rest)
  | _, _, _, .attr first point kind =>
    first.sound.suffix (fun _ _ => nextIsOp_of_isOp point (by decide) _) fun _ _ _ _ hmore =>
      .attr point kind hmore
  | _, _, _, @Spelled.index _ _ t u _ us first opens inside closes => by
    refine first.sound.suffix (fun _ _ => nextIsOp_of_isOp opens (by decide) _) ?_
    intro rest e' rest' _ hmore
    have hinside := inside.sound.reads (stops_of_isOp closes (by simp) rest)
    simpa using SuffixesRead.index opens hinside closes hmore
  | _, _, _, @Spelled.call _ _ t u _ us first ends opens inside closes => by
    refine first.sound.suffix (fun hopen => absurd hopen ends) ?_
    intro rest e' rest' _ hmore
    simpa using SuffixesRead.call opens (inside.reads (by simp) closes rest) hmore
  | _, _, _, @Spelled.filter _ _ bar name t u _ us first isBar kind opens inside closes => by
    refine first.sound.suffix (fun _ _ => nextIsOp_of_isOp isBar (by decide) _) ?_
    intro rest e' rest' _ hmore
    simpa using SuffixesRead.filter isBar kind opens (inside.reads (by simp) closes rest) hmore
  | _, _, _, @Spelled.bareFilter input bar name ts first isBar kind => by
    refine first.sound.suffix (fun _ _ => nextIsOp_of_isOp isBar (by decide) _) ?_
    intro rest e' rest' hnext hmore
    have hopen : EndsOpen (.filter input name.text []) (ts ++ [bar, name]) :=
      ⟨⟨_, _, rfl⟩, by simp [isOp, kind]⟩
    exact .bareFilter isBar kind (hnext hopen) hmore
  | _, _, _, @Spelled.power _ _ _ _ us left op right =>
    .of_reads rfl (by decide) fun rest hstop => by
      have hleft := left.sound.reads (stops_stars op (us ++ rest))
      have hexponent : Precedence.sign.Stops rest := .of_tighter hstop rfl
      simpa using ReadsAt.power hleft op (right.sound.reads hexponent)
  | _, _, _, .neg op inside => .of_reads rfl (by decide) fun _ hstop =>
    .neg op (inside.sound.reads hstop)
  | _, _, _, .pos op inside => .of_reads rfl (by decide) fun _ hstop =>
    .pos op (inside.sound.reads hstop)
  | _, _, _, @Spelled.chain op _ _ _ words us chains first spells second => by
    intro rest e' rest' hstop hcontinues
    rw [Continues, if_pos chains] at hcontinues
    have hsecond := second.sound.reads hstop
    have hchain := ChainReads.operator chains spells hsecond hcontinues
    have hfirst := first.sound (words ++ (us ++ rest)) e' rest' (stops_words chains spells _)
      (by rwa [Continues, if_pos chains])
    simpa using hfirst
  | _, _, _, @Spelled.test _ is name _ first isIs kind hnot => by
    intro rest e' rest' hstop hcontinues
    have hfirst := first.sound (is :: name :: rest) e' rest' (stops_is isIs _)
      (ChainReads.test isIs kind hnot hcontinues)
    simpa using hfirst
  | _, _, _, @Spelled.negatedTest _ is not name _ first isIs isNot kind => by
    intro rest e' rest' hstop hcontinues
    have hfirst := first.sound (is :: not :: name :: rest) e' rest' (stops_is isIs _)
      (ChainReads.negatedTest isIs isNot kind hcontinues)
    simpa using hfirst
  | _, _, _, @Spelled.range _ _ _ _ us first op second =>
    .of_reads rfl (by decide) fun rest hstop => by
      have hfirst := first.sound.reads (stops_dots op (us ++ rest))
      have hsecond := second.sound.reads (hstop.mono (by decide))
      simpa using ReadsAt.range hfirst op hsecond
  | _, _, _, .not op inside => .of_reads rfl (by decide) fun _ hstop =>
    .not op (inside.sound.reads hstop)
  | _, _, _, @Spelled.ternary _ _ _ _ colon _ us vs first isMark second isColon third =>
    .of_reads rfl (by decide) fun rest hstop => by
      have hfirst := first.sound.reads (stops_mark isMark (us ++ colon :: (vs ++ rest)))
      have hsecond := second.sound.reads (stops_of_isOp isColon (by simp) (vs ++ rest))
      simpa using ReadsAt.ternary hfirst isMark hsecond isColon (third.sound.reads hstop)
  | _, _, _, .loosen looser h => h.sound.loosen looser h.starts

theorem SpelledItems.reads : ∀ {items : List Expr} {ts : List Token} {close : String},
    SpelledItems items ts → close ∈ [")", "]"] → ∀ {u : Token}, u.isOp close = true →
      ∀ rest, ItemsRead close (ts ++ u :: rest) items rest
  | _, _, _, .nil, _, _, closes, _ => .close closes
  | _, _, _, .last h, hclose, u, closes, rest => by
    have hreads := h.sound.reads (stops_of_isOp closes (by grind) rest)
    exact .last (h.starts.not_close hclose _) hreads closes (by rintro rfl; simp at hclose)
  | _, _, _, @SpelledItems.more _ _ _ _ us h isComma more, hclose, u, closes, rest => by
    have hreads := h.sound.reads (stops_of_isOp isComma (by simp) (us ++ u :: rest))
    simpa using ItemsRead.more (h.starts.not_close hclose _) hreads isComma
      (more.reads hclose closes rest)

theorem SpelledEntries.reads : ∀ {entries : List (Expr × Expr)} {ts : List Token},
    SpelledEntries entries ts → ∀ {u : Token}, u.isOp "\x7d" = true →
      ∀ rest, EntriesRead (ts ++ u :: rest) entries rest
  | _, _, .nil, _, closes, _ => .close closes
  | _, _, @SpelledEntries.last _ _ colon _ us h isColon h', u, closes, rest => by
    have hvalue := h'.sound.reads (stops_of_isOp closes (by simp) rest)
    simpa using EntriesRead.last (h.not_brace _) (h.reads (colon :: (us ++ u :: rest))) isColon
      hvalue closes
  | _, _, @SpelledEntries.more _ _ _ colon comma _ us vs h isColon h' isComma more, u, closes,
      rest => by
    have hvalue := h'.sound.reads (stops_of_isOp isComma (by simp) (vs ++ u :: rest))
    simpa using EntriesRead.more (h.not_brace _)
      (h.reads (colon :: (us ++ comma :: (vs ++ u :: rest)))) isColon hvalue isComma
      (more.reads closes rest)

theorem SpelledKey.reads : ∀ {key : Expr} {ts : List Token},
    SpelledKey key ts → ∀ rest, KeyReads (ts ++ rest) key rest
  | _, _, .string kind, _ => .string kind
  | _, _, .number kind means, _ => .number kind means
  | _, _, .group opens inside closes, rest => by
    have hinside := inside.sound.reads (stops_of_isOp closes (by simp) rest)
    simpa using KeyReads.group opens hinside closes

end

/-- **What is spelled is read**, up to what follows it. -/
theorem Spelled.reads (h : Spelled level e ts) {rest : List Token} (hstop : level.Stops rest) :
    ReadsAt level (ts ++ rest) e rest :=
  h.sound.reads hstop

/-- What is spelled by all tokens is all that they are read as. -/
theorem Spelled.parse (h : Spelled .ternary e ts) : Expr.parse ts = .ok e := by
  have hreads := h.reads (Precedence.stops_nil _)
  rw [List.append_nil] at hreads
  obtain ⟨_, hreads⟩ := hreads
  rw [Expr.parse, parsePrefix, hreads]
  rfl

/-- What may stand at a level may stand at every looser one. -/
theorem Spelled.mono {level' : Precedence} (h : Spelled level e ts)
    (hle : level.rank ≤ level'.rank) : Spelled level' e ts := by
  rcases Precedence.eq_or_rank_le_tighter hle with rfl | hlt
  · exact h
  · by_cases hprimary : level' = .primary
    · subst hprimary
      cases level <;> first | exact h | exact absurd hle (by decide)
    · exact .loosen hprimary (h.mono hlt)
termination_by level'.rank
decreasing_by exact level'.rank_tighter_lt hprimary

end Stencil.Expr
