import Stencil.Proofs.Expr.Forms
import Stencil.Proofs.Expr.Grammar

/-!
# Where the reading of an expression stops

A reader of an expression takes some tokens and leaves the others, and which it leaves is up to
what comes next. Here it is shown that this is all that the others can do: **what a reader took is
read again as the same expression in front of any tokens that do not continue it**, in particular
in front of none.

The proof takes a reading apart into its forms and puts each of them together again over the new
tokens. What makes this work is that a reader looks at one token more than it takes, or at two for
`not in`. If that token was taken afterwards, then it is still there; if it was not, then it was
the first of those that were left, of which `Precedence.Stops` tells enough. A chain of operators
has to say what its operands saw, too: the operand before a chain was followed by the chain's first
operator, or by what stands behind the chain if there is none.
-/

namespace Stencil.Expr

open Token Precedence

variable {level : Precedence} {ts us pre rest : List Token} {e e' left : Expr}

/-! ### What has been taken -/

theorem ReadsAt.shorter (h : ReadsAt level ts e rest) : rest.length < ts.length := h.1

theorem ChainReads.notLonger (h : ChainReads level left ts e rest) : rest.length ≤ ts.length := h.1

theorem SuffixesRead.notLonger (h : SuffixesRead e ts e' rest) : rest.length ≤ ts.length := h.1

theorem ItemsRead.shorter {close : String} {items : List Expr} (h : ItemsRead close ts items rest) :
    rest.length < ts.length := h.1

theorem EntriesRead.shorter {entries : List (Expr × Expr)} (h : EntriesRead ts entries rest) :
    rest.length < ts.length := h.1

theorem KeyReads.shorter {key : Expr} (h : KeyReads ts key rest) : rest.length < ts.length := h.1

theorem ne_nil_of_shorter (hts : ts = pre ++ rest) (h : rest.length < ts.length) : pre ≠ [] := by
  rintro rfl
  rw [hts] at h
  exact Nat.lt_irrefl _ h

theorem nextIsOp_append {op : String} (h : pre ≠ []) (rest : List Token) :
    nextIsOp op (pre ++ rest) = nextIsOp op pre := by
  obtain ⟨t, ts, rfl⟩ := List.exists_cons_of_ne_nil h
  rfl

theorem nextIsId_append {name : String} (h : pre ≠ []) (rest : List Token) :
    nextIsId name (pre ++ rest) = nextIsId name pre := by
  obtain ⟨t, ts, rfl⟩ := List.exists_cons_of_ne_nil h
  rfl

theorem length_pos_of_words {op : BinaryOp} {words : List Token}
    (h : words.map Token.symbol = op.words) : 0 < words.length := by
  have hlength := congrArg List.length h
  rw [List.length_map] at hlength
  rw [hlength]
  cases op <;> decide

/-! ### Putting a reading over other tokens -/

mutual

/-- What a level took is read again in front of any tokens that stop the level. -/
theorem ReadsAt.detached : ∀ {level : Precedence} {ts : List Token} {e : Expr} {rest : List Token},
    ReadsAt level ts e rest → ∃ pre, ts = pre ++ rest ∧
      ∀ rest', level.Stops rest' → ReadsAt level (pre ++ rest') e rest'
  | .ternary, ts, e, rest, h => by
    obtain ⟨hcond, -⟩ | ⟨cond, mark, us, yes, colon, vs, no, hcond, isMark, hyes, isColon, hno,
      rfl⟩ := h.ternary_cases
    · obtain ⟨pre, hts, hpre⟩ := hcond.detached
      refine ⟨pre, hts, fun rest' hrest' => ?_⟩
      have hread := hpre rest' (hrest'.mono (rank_tighter_le .ternary))
      exact hread.ternary_of_disjunction (hrest' .ternary (Nat.le_refl _))
    · have hus := hcond.shorter
      have hvs := hyes.shorter
      obtain ⟨pre, hts, hpre⟩ := hcond.detached
      obtain ⟨pre₁, hus', hpre₁⟩ := hyes.detached
      obtain ⟨pre₂, hvs', hpre₂⟩ := hno.detached
      refine ⟨pre ++ mark :: (pre₁ ++ colon :: pre₂), by simp [hts, hus', hvs'],
        fun rest' hrest' => ?_⟩
      simp only [List.append_assoc, List.cons_append]
      exact .ternary (hpre _ (stops_mark isMark _)) isMark
        (hpre₁ _ (stops_of_isOp isColon (by simp) _)) isColon (hpre₂ rest' hrest')
  | .negation, ts, e, rest, h => by
    obtain ⟨hread, hfirst⟩ | ⟨t, us, inside, hts, ht, hread, rfl⟩ := h.negation_cases
    · have hlt := hread.shorter
      obtain ⟨pre, rfl, hpre⟩ := hread.detached
      have hne : pre ≠ [] := ne_nil_of_shorter rfl hlt
      refine ⟨pre, rfl, fun rest' hrest' => ?_⟩
      rw [nextIsId_append hne] at hfirst
      exact (hpre rest' (hrest'.mono (rank_tighter_le .negation))).negation_of_comparison
        (by rw [nextIsId_append hne, hfirst])
    · have hlength := congrArg List.length hts
      obtain ⟨pre, hus, hpre⟩ := hread.detached
      exact ⟨t :: pre, by simp [hts, hus], fun rest' hrest' => .not ht (hpre rest' hrest')⟩
  | .range, ts, e, rest, h => by
    obtain ⟨hread, -⟩ | ⟨left, t, us, right, hleft, ht, hright, rfl⟩ := h.range_cases
    · obtain ⟨pre, hts, hpre⟩ := hread.detached
      refine ⟨pre, hts, fun rest' hrest' => ?_⟩
      exact (hpre rest' (hrest'.mono (rank_tighter_le .range))).range_of_concatenation
        (hrest' .range (Nat.le_refl _))
    · have hus := hleft.shorter
      obtain ⟨pre, hts, hpre⟩ := hleft.detached
      obtain ⟨pre₁, hus', hpre₁⟩ := hright.detached
      refine ⟨pre ++ t :: pre₁, by simp [hts, hus'], fun rest' hrest' => ?_⟩
      simp only [List.append_assoc, List.cons_append]
      exact .range (hpre _ (stops_dots ht _)) ht
        (hpre₁ rest' (hrest'.mono (rank_tighter_le .range)))
  | .sign, ts, e, rest, h => by
    obtain ⟨hread, hminus, hplus⟩ | ⟨t, us, inside, hts, hread, hsign⟩ := h.sign_cases
    · have hlt := hread.shorter
      obtain ⟨pre, rfl, hpre⟩ := hread.detached
      have hne : pre ≠ [] := ne_nil_of_shorter rfl hlt
      refine ⟨pre, rfl, fun rest' hrest' => ?_⟩
      rw [nextIsOp_append hne] at hminus hplus
      exact (hpre rest' (hrest'.mono (rank_tighter_le .sign))).sign_of_power
        (by rw [nextIsOp_append hne, hminus]) (by rw [nextIsOp_append hne, hplus])
    · have hlength := congrArg List.length hts
      obtain ⟨pre, hus, hpre⟩ := hread.detached
      refine ⟨t :: pre, by simp [hts, hus], fun rest' hrest' => ?_⟩
      obtain ⟨ht, rfl⟩ | ⟨ht, rfl⟩ := hsign
      · exact .neg ht (hpre rest' hrest')
      · exact .pos ht (hpre rest' hrest')
  | .power, ts, e, rest, h => by
    obtain ⟨hread, -⟩ | ⟨base, t, us, exponent, hbase, ht, hexponent, rfl⟩ := h.power_cases
    · obtain ⟨pre, hts, hpre⟩ := hread.detached
      refine ⟨pre, hts, fun rest' hrest' => ?_⟩
      exact (hpre rest' (hrest'.mono (rank_tighter_le .power))).power_of_suffixed
        (hrest' .power (Nat.le_refl _))
    · have hus := hbase.shorter
      obtain ⟨pre, hts, hpre⟩ := hbase.detached
      obtain ⟨pre₁, hus', hpre₁⟩ := hexponent.detached
      refine ⟨pre ++ t :: pre₁, by simp [hts, hus'], fun rest' hrest' => ?_⟩
      simp only [List.append_assoc, List.cons_append]
      -- The exponent is a sign, which is looser than a power but has no form of its own behind it.
      exact .power (hpre _ (stops_stars ht _)) ht (hpre₁ rest' (.of_tighter hrest' rfl))
  | .suffixed, ts, e, rest, h => by
    obtain ⟨first, us, hfirst, hmore⟩ := h.suffixed_cases
    have hus := hfirst.shorter
    obtain ⟨pre, hts, hpre⟩ := hfirst.detached
    obtain ⟨pre₁, hus', hpre₁⟩ := hmore.detached
    refine ⟨pre ++ pre₁, by simp [hts, hus'], fun rest' hrest' => ?_⟩
    rw [List.append_assoc]
    exact .suffixed (hpre _ (stops_primary _)) (hpre₁ rest' hrest')
  | .primary, ts, e, rest, h => by
    have form := h.primary_form
    generalize hts : ts = tokens at form
    have hlength := congrArg List.length hts
    cases form with
    | number ht hv => exact ⟨[_], rfl, fun _ _ => .number ht hv⟩
    | string ht => exact ⟨[_], rfl, fun _ _ => .string ht⟩
    | word ht => exact ⟨[_], rfl, fun _ _ => .word ht⟩
    | @group e t close us rest ht hinside hclose =>
      obtain ⟨pre, hus, hpre⟩ := hinside.detached
      refine ⟨t :: (pre ++ [close]), by simp [hus], fun rest' _ => ?_⟩
      simp only [List.append_assoc, List.cons_append, List.nil_append]
      exact .group ht (hpre _ (stops_of_isOp hclose (by simp) _)) hclose
    | @list items t us rest ht hinside =>
      obtain ⟨pre, hus, hpre⟩ := hinside.detached (by simp)
      exact ⟨t :: pre, by simp [hus], fun rest' _ => .list ht (hpre rest')⟩
    | @map entries t us rest ht hinside =>
      obtain ⟨pre, hus, hpre⟩ := hinside.detached
      exact ⟨t :: pre, by simp [hus], fun rest' _ => .map ht (hpre rest')⟩
  | .disjunction, _, _, _, h | .conjunction, _, _, _, h | .comparison, _, _, _, h
  | .concatenation, _, _, _, h | .sum, _, _, _, h | .product, _, _, _, h => by
    obtain ⟨left, us, hleft, hmore⟩ := h.chain_cases rfl
    have hus := hleft.shorter
    obtain ⟨pre, hts, hpre⟩ := hleft.detached
    obtain ⟨pre₁, hus', hpre₁⟩ := hmore.detached rfl
    refine ⟨pre ++ pre₁, by simp [hts, hus'], fun rest' hrest' => ?_⟩
    obtain ⟨hchain, hstop⟩ := hpre₁ rest' hrest'
    rw [List.append_assoc]
    exact .chain rfl (hpre _ hstop) hchain
termination_by level ts => weight ts (2 * level.rank)
decreasing_by
  all_goals
    simp only [weight, List.length_cons, Precedence.rank, tighter] at *
    omega

/-- So is what a chain took, and with that in front of the new tokens the operand before the chain
stops as well. -/
theorem ChainReads.detached : ∀ {level : Precedence} {left : Expr} {ts : List Token} {e : Expr}
    {rest : List Token}, level.isChain = true → ChainReads level left ts e rest →
      ∃ pre, ts = pre ++ rest ∧ ∀ rest', level.Stops rest' →
        ChainReads level left (pre ++ rest') e rest' ∧ level.tighter.Stops (pre ++ rest')
  | level, left, ts, e, rest, hlevel, h => by
    have form := h.form hlevel
    generalize hts : ts = tokens at form
    have hlength := congrArg List.length hts
    cases form with
    | stop =>
      refine ⟨[], rfl, fun rest' hrest' => ?_⟩
      exact ⟨.stop hlevel (hrest' level (Nat.le_refl _)), hrest'.mono (rank_tighter_le level)⟩
    | @test left e is name us rest his hkind hname hchain =>
      obtain ⟨pre, hus, hpre⟩ := hchain.detached rfl
      refine ⟨is :: name :: pre, by simp [hus], fun rest' hrest' => ?_⟩
      exact ⟨.test his hkind hname (hpre rest' hrest').1, stops_is his _⟩
    | @negatedTest left e is not name us rest his hnot hkind hchain =>
      obtain ⟨pre, hus, hpre⟩ := hchain.detached rfl
      refine ⟨is :: not :: name :: pre, by simp [hus], fun rest' hrest' => ?_⟩
      exact ⟨.negatedTest his hnot hkind (hpre rest' hrest').1, stops_is his _⟩
    | @operator op left right e words us vs rest hlevel hwords hright hchain =>
      have hpos := length_pos_of_words hwords
      have hvs := hright.shorter
      have hrank := op.level.tighter.rank_le
      obtain ⟨pre, hus, hpre⟩ := hright.detached
      obtain ⟨pre₁, hvs', hpre₁⟩ := hchain.detached hlevel
      refine ⟨words ++ (pre ++ pre₁), by simp [hus, hvs'], fun rest' hrest' => ?_⟩
      obtain ⟨hmore, hstop⟩ := hpre₁ rest' hrest'
      simp only [List.append_assoc]
      exact ⟨.operator hlevel hwords (hpre _ hstop) hmore, stops_words hlevel hwords _⟩
termination_by _ _ ts => weight ts 0
decreasing_by
  all_goals
    simp only [weight, List.length_cons, List.length_append, Nat.add_zero] at *
    omega

theorem SuffixesRead.detached : ∀ {e : Expr} {ts : List Token} {e' : Expr} {rest : List Token},
    SuffixesRead e ts e' rest → ∃ pre, ts = pre ++ rest ∧
      ∀ rest', suffixed.Stops rest' → SuffixesRead e (pre ++ rest') e' rest'
  | e, ts, e', rest, h => by
    have form := h.form
    generalize hts : ts = tokens at form
    have hlength := congrArg List.length hts
    cases form with
    | stop => exact ⟨[], rfl, fun rest' hrest' => .stop (hrest' .suffixed (Nat.le_refl _))⟩
    | @attr e' t name us rest ht hname hmore =>
      obtain ⟨pre, hus, hpre⟩ := hmore.detached
      exact ⟨t :: name :: pre, by simp [hus],
        fun rest' hrest' => .attr ht hname (hpre rest' hrest')⟩
    | @index e' position t close us vs rest ht hposition hclose hmore =>
      have hvs := hposition.shorter
      obtain ⟨pre, hus, hpre⟩ := hposition.detached
      obtain ⟨pre₁, hvs', hpre₁⟩ := hmore.detached
      refine ⟨t :: (pre ++ close :: pre₁), by simp [hus, hvs'], fun rest' hrest' => ?_⟩
      simp only [List.append_assoc, List.cons_append]
      exact .index ht (hpre _ (stops_of_isOp hclose (by simp) _)) hclose (hpre₁ rest' hrest')
    | @call e' args t us vs rest ht hargs hmore =>
      have hvs := hargs.shorter
      obtain ⟨pre, hus, hpre⟩ := hargs.detached (by simp)
      obtain ⟨pre₁, hvs', hpre₁⟩ := hmore.detached
      refine ⟨t :: (pre ++ pre₁), by simp [hus, hvs'], fun rest' hrest' => ?_⟩
      simp only [List.append_assoc, List.cons_append]
      exact .call ht (hpre _) (hpre₁ rest' hrest')
    | @filter e' args t name paren us vs rest ht hname hparen hargs hmore =>
      have hvs := hargs.shorter
      obtain ⟨pre, hus, hpre⟩ := hargs.detached (by simp)
      obtain ⟨pre₁, hvs', hpre₁⟩ := hmore.detached
      refine ⟨t :: name :: paren :: (pre ++ pre₁), by simp [hus, hvs'], fun rest' hrest' => ?_⟩
      simp only [List.append_assoc, List.cons_append]
      exact .filter ht hname hparen (hpre _) (hpre₁ rest' hrest')
    | @bareFilter e' t name us rest ht hname hnext hmore =>
      obtain ⟨pre, rfl, hpre⟩ := hmore.detached
      refine ⟨t :: name :: pre, by simp, fun rest' hrest' => ?_⟩
      refine .bareFilter ht hname ?_ (hpre rest' hrest')
      -- The token behind the name was either taken after it or is the first of the new ones.
      by_cases hne : pre = []
      · have hgoes := hrest' .suffixed (Nat.le_refl _)
        simp only [goesOn, Bool.or_eq_false_iff] at hgoes
        rw [hne]
        exact hgoes.1.2
      · rw [nextIsOp_append hne] at hnext
        exact (nextIsOp_append hne rest').trans hnext
termination_by _ ts => weight ts 0
decreasing_by
  all_goals
    simp only [weight, List.length_cons, Precedence.rank] at *
    omega

theorem ItemsRead.detached : ∀ {close : String} {ts : List Token} {items : List Expr}
    {rest : List Token}, ItemsRead close ts items rest → close ∈ [")", "]"] →
      ∃ pre, ts = pre ++ rest ∧ ∀ rest', ItemsRead close (pre ++ rest') items rest'
  | close, ts, items, rest, h, hclose => by
    have form := h.form
    generalize hts : ts = tokens at form
    have hlength := congrArg List.length hts
    cases form with
    | close ht => exact ⟨[_], rfl, fun _ => .close ht⟩
    | @last e t us rest hfirst hitem ht =>
      have hlt := hitem.shorter
      obtain ⟨pre, rfl, hpre⟩ := hitem.detached
      -- an item takes a token at least, so the first token of the new list is that of the old one
      have hne : pre ≠ [] := ne_nil_of_shorter rfl hlt
      refine ⟨pre ++ [t], by simp, fun rest' => ?_⟩
      rw [nextIsOp_append hne] at hfirst
      rw [List.append_assoc]
      exact .last (by rw [nextIsOp_append hne, hfirst])
        (hpre _ (stops_of_isOp ht (by grind) _)) ht (by grind)
    | @more e items t us vs rest hfirst hitem ht hmore =>
      have hlt := hitem.shorter
      obtain ⟨pre, hus, hpre⟩ := hitem.detached
      obtain ⟨pre₁, hvs, hpre₁⟩ := hmore.detached hclose
      have hne : pre ≠ [] := ne_nil_of_shorter hus hlt
      refine ⟨pre ++ t :: pre₁, by simp [hus, hvs], fun rest' => ?_⟩
      rw [hus, nextIsOp_append hne] at hfirst
      rw [List.append_assoc]
      exact .more (by rw [nextIsOp_append hne, hfirst]) (hpre _ (stops_of_isOp ht (by simp) _)) ht
        (hpre₁ rest')
termination_by _ ts => weight ts 25
decreasing_by
  all_goals
    simp only [weight, List.length_cons, Precedence.rank] at *
    omega

theorem EntriesRead.detached : ∀ {ts : List Token} {entries : List (Expr × Expr)}
    {rest : List Token}, EntriesRead ts entries rest →
      ∃ pre, ts = pre ++ rest ∧ ∀ rest', EntriesRead (pre ++ rest') entries rest'
  | ts, entries, rest, h => by
    have form := h.form
    generalize hts : ts = tokens at form
    have hlength := congrArg List.length hts
    cases form with
    | close ht => exact ⟨[_], rfl, fun _ => .close ht⟩
    | @last key value colon t us vs rest hfirst hkey hcolon hvalue ht =>
      have hlt := hkey.shorter
      obtain ⟨pre, hts, hpre⟩ := hkey.detached
      obtain ⟨pre₁, hvs, hpre₁⟩ := hvalue.detached
      have hne : pre ≠ [] := ne_nil_of_shorter hts hlt
      refine ⟨pre ++ colon :: (pre₁ ++ [t]), by simp [hts, hvs], fun rest' => ?_⟩
      rw [hts, nextIsOp_append hne] at hfirst
      simp only [List.append_assoc, List.cons_append]
      exact .last (by rw [nextIsOp_append hne, hfirst]) (hpre _) hcolon
        (hpre₁ _ (stops_of_isOp ht (by simp) _)) ht
    | @more key value entries colon t us vs ws rest hfirst hkey hcolon hvalue ht hmore =>
      have hlt := hkey.shorter
      have hlt' := hvalue.shorter
      obtain ⟨pre, hts, hpre⟩ := hkey.detached
      obtain ⟨pre₁, hvs, hpre₁⟩ := hvalue.detached
      obtain ⟨pre₂, hws, hpre₂⟩ := hmore.detached
      have hne : pre ≠ [] := ne_nil_of_shorter hts hlt
      refine ⟨pre ++ colon :: (pre₁ ++ t :: pre₂), by simp [hts, hvs, hws], fun rest' => ?_⟩
      rw [hts, nextIsOp_append hne] at hfirst
      simp only [List.append_assoc, List.cons_append]
      exact .more (by rw [nextIsOp_append hne, hfirst]) (hpre _) hcolon
        (hpre₁ _ (stops_of_isOp ht (by simp) _)) ht (hpre₂ rest')
termination_by ts => weight ts 1
decreasing_by
  all_goals
    simp only [weight, List.length_cons, Precedence.rank] at *
    omega

theorem KeyReads.detached : ∀ {ts : List Token} {key : Expr} {rest : List Token},
    KeyReads ts key rest → ∃ pre, ts = pre ++ rest ∧ ∀ rest', KeyReads (pre ++ rest') key rest'
  | ts, key, rest, h => by
    have form := h.form
    generalize hts : ts = tokens at form
    have hlength := congrArg List.length hts
    cases form with
    | string ht => exact ⟨[_], rfl, fun _ => .string ht⟩
    | number ht hv => exact ⟨[_], rfl, fun _ => .number ht hv⟩
    | @group e t close us rest ht hinside hclose =>
      obtain ⟨pre, hus, hpre⟩ := hinside.detached
      refine ⟨t :: (pre ++ [close]), by simp [hus], fun rest' => ?_⟩
      simp only [List.append_assoc, List.cons_append, List.nil_append]
      exact .group ht (hpre _ (stops_of_isOp hclose (by simp) _)) hclose
termination_by ts => weight ts 0
decreasing_by
  all_goals
    simp only [weight, List.length_cons, Precedence.rank] at *
    omega

end

/-! ### Where an expression ends -/

/-- The operators that an expression may go on with. -/
def continuingOps : List String :=
  ["?", "+", "-", "*", "/", "//", "%", "**", "..", "~", "==", "!=", "<", ">", "<=", ">=", ".", "[",
    "(", "|"]

/-- The words that an expression may go on with. A `not` is one of two. -/
def continuingWords : List String :=
  ["or", "and", "in", "is"]

/-- No expression goes on with these tokens. -/
structure EndsBefore (ts : List Token) : Prop where
  ops : ∀ op ∈ continuingOps, nextIsOp op ts = false
  words : ∀ word ∈ continuingWords, nextIsId word ts = false
  notIn : nextIsId "not" ts = true → nextIsId "in" ts.tail = false

theorem isContinuing_of_binaryOp? {t : Token} {op : BinaryOp} {level : Precedence}
    (h : binaryOp? level t = some op) :
    (∃ symbol ∈ continuingOps, t.isOp symbol = true) ∨
      ∃ word ∈ continuingWords, t.isId word = true := by
  obtain ⟨-, -, hwords⟩ := of_binaryOp? h
  obtain ⟨kind, text, offset⟩ := t
  cases op <;> simp_all [BinaryOp.words, BinaryOp.symbol, Token.symbol, isOp, isId, continuingOps,
    continuingWords]

/-- No level takes an operator from tokens that an expression ends before. -/
theorem EndsBefore.takeOperator? (h : EndsBefore ts) (level : Precedence) :
    (takeOperator? level ts).isSome = false := by
  cases ts with
  | nil => rfl
  | cons t ts =>
    have hop : ∀ op, binaryOp? level t ≠ some op := by
      rintro op hop
      rcases isContinuing_of_binaryOp? hop with ⟨symbol, hmem, ht⟩ | ⟨word, hmem, ht⟩
      · exact Bool.false_ne_true ((h.ops symbol hmem).symm.trans ht)
      · exact Bool.false_ne_true ((h.words word hmem).symm.trans ht)
    rw [isSome_takeOperator?_cons, Option.eq_none_iff_forall_ne_some.mpr hop]
    by_cases hnot : t.isId "not" = true
    · have hin : nextIsId "in" ts = false := h.notIn hnot
      simp [hin]
    · simp [hnot]

/-- All levels stop where an expression ends. -/
theorem EndsBefore.stops (h : EndsBefore ts) : Precedence.ternary.Stops ts := by
  have hops := h.ops
  have his := h.words "is" (by decide)
  simp only [continuingOps, List.forall_mem_cons] at hops
  rintro level -
  cases level <;> simp [goesOn, h.takeOperator?, his, hops]

theorem parsePrefix_eq_ok_iff : parsePrefix ts = .ok (e, rest) ↔ ReadsAt .ternary ts e rest := by
  simp only [parsePrefix, ReadsAt]
  cases h : parseAt .ternary ts with
  | error fault => simp [Except.map]
  | ok p =>
    obtain ⟨e', rest', hlt⟩ := p
    simp only [Except.map, Except.ok.injEq, Prod.mk.injEq, Parsed.mk.injEq]
    constructor
    · rintro ⟨rfl, rfl⟩
      exact ⟨hlt, rfl, rfl⟩
    · rintro ⟨-, rfl, rfl⟩
      exact ⟨rfl, rfl⟩

theorem parse_eq_ok_iff : parse ts = .ok e ↔ ReadsAt .ternary ts e [] := by
  rw [← parsePrefix_eq_ok_iff, parse, Except.bind_eq_ok]
  constructor
  · rintro ⟨⟨e', rest⟩, hprefix, h⟩
    cases rest with
    | nil =>
      cases h
      exact hprefix
    | cons t rest => cases h
  · exact fun h => ⟨(e, []), h, rfl⟩

/-- **The front of an expression stands on its own.** What is read from the front is the same
expression when nothing else is there, and what is an expression when nothing else is there is read
from the front of any tokens that do not continue it, all of which are left. -/
theorem parsePrefix_stable :
    (∀ ts e rest, parsePrefix ts = .ok (e, rest) →
      ∃ pre, pre ≠ [] ∧ ts = pre ++ rest ∧ parse pre = .ok e) ∧
    ∀ pre e rest, parse pre = .ok e → EndsBefore rest →
      parsePrefix (pre ++ rest) = .ok (e, rest) := by
  refine ⟨fun ts e rest h => ?_, fun pre e rest h hrest => ?_⟩
  · have hread : ReadsAt .ternary ts e rest := parsePrefix_eq_ok_iff.mp h
    have hlt := hread.shorter
    obtain ⟨pre, hts, hpre⟩ := hread.detached
    have halone := hpre [] (stops_nil _)
    rw [List.append_nil] at halone
    exact ⟨pre, ne_nil_of_shorter hts hlt, hts, parse_eq_ok_iff.mpr halone⟩
  · have hread : ReadsAt .ternary pre e [] := parse_eq_ok_iff.mp h
    obtain ⟨pre', hpre', hstable⟩ := hread.detached
    rw [List.append_nil] at hpre'
    subst hpre'
    exact parsePrefix_eq_ok_iff.mpr (hstable rest hrest.stops)

/-- The tokens of `rows[i] not x`, of which the last two are no part of the expression. -/
def indexThenNot : List Token :=
  [⟨.identifier, "rows", 0⟩, ⟨.operator, "[", 4⟩, ⟨.identifier, "i", 5⟩, ⟨.operator, "]", 6⟩,
    ⟨.identifier, "not", 8⟩, ⟨.identifier, "x", 12⟩]

theorem parsePrefix_stable_indexThenNot :
    parse (indexThenNot.take 4) = .ok (.index (.var "rows") (.var "i")) ∧
      EndsBefore (indexThenNot.drop 4) ∧
      parsePrefix indexThenNot = .ok (.index (.var "rows") (.var "i"), indexThenNot.drop 4) ∧
      ∃ pre, pre ≠ [] ∧ indexThenNot = pre ++ indexThenNot.drop 4 ∧
        parse pre = .ok (.index (.var "rows") (.var "i")) := by
  have hrows : Spelled .primary (ofWord "rows") [⟨.identifier, "rows", 0⟩] :=
    .word (t := ⟨.identifier, "rows", 0⟩) rfl (by decide)
  have hi : Spelled .primary (ofWord "i") [⟨.identifier, "i", 5⟩] :=
    .word (t := ⟨.identifier, "i", 5⟩) rfl (by decide)
  have hindex : Spelled .suffixed (.index (.var "rows") (.var "i")) (indexThenNot.take 4) :=
    .index (hrows.mono (by decide)) rfl (hi.mono (by decide)) rfl
  have hspelled : Spelled .ternary (.index (.var "rows") (.var "i")) (indexThenNot.take 4) :=
    hindex.mono (by decide)
  have halone : parse (indexThenNot.take 4) = .ok (.index (.var "rows") (.var "i")) :=
    hspelled.parse
  have hends : EndsBefore (indexThenNot.drop 4) := ⟨by decide, by decide, by decide⟩
  have hread : parsePrefix indexThenNot =
      .ok (.index (.var "rows") (.var "i"), indexThenNot.drop 4) :=
    parsePrefix_stable.2 _ _ _ halone hends
  exact ⟨halone, hends, hread, parsePrefix_stable.1 _ _ _ hread⟩

end Stencil.Expr
