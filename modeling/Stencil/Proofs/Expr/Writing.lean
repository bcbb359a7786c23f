import Stencil.Proofs.Expr.Grammar
import Stencil.Proofs.Expr.Literals
import Stencil.Proofs.Render.Parts
import Stencil.Token.Scanner

/-!
# Expressions as they are written

`Expr.written` writes an expression with no more parentheses than the table of precedences asks
for: a form stands in parentheses only where its level is looser than the level that is expected
there. One other pair is needed. A filter without arguments is written with its name alone, and if
it is called, the arguments would be its own.

**What is written is read back** (`Expr.parse_eq_of_written`), because it is spelled by the grammar
of expressions. The kinds of the tokens are those that a scanner gives
(`Expr.attributeKind_of_isRead`): behind a point stands a name or a position, and a position is a
number.
-/

namespace Stencil

/-! ### Writing -/

/-- The level of the left operand. Only operators that group to the left may have one of their own
level there. -/
def BinaryOp.leftLevel (op : BinaryOp) : Expr.Precedence :=
  if op.level.isChain then op.level else op.level.tighter

/-- The level of the right operand. The exponent of a power may have a sign. -/
def BinaryOp.rightLevel : BinaryOp → Expr.Precedence
  | .pow => .sign
  | op => op.level.tighter

namespace Expr

open Token

/-- The level that the form of an expression belongs to. -/
def level : Expr → Precedence
  | .literal _ | .var _ | .list _ | .map _ => .primary
  | .attr .. | .index .. | .call .. | .filter .. => .suffixed
  | .unary .neg _ | .unary .pos _ => .sign
  | .unary .not _ => .negation
  | .binary op _ _ => op.level
  | .test .. => .comparison
  | .ternary .. => .ternary

/-- Symbols between a pair of brackets. -/
def enclosed (opening closing : String) (symbols : List (TokenKind × String)) :
    List (TokenKind × String) :=
  (.operator, opening) :: (symbols ++ [(.operator, closing)])

/-- The symbols of an expression where one of a level is expected. -/
def placed (level : Precedence) (e : Expr) (symbols : List (TokenKind × String)) :
    List (TokenKind × String) :=
  if e.level.rank ≤ level.rank then symbols else enclosed "(" ")" symbols

/-- The symbols of an expression that is called. -/
def placedCallee (e : Expr) (symbols : List (TokenKind × String)) : List (TokenKind × String) :=
  match e with
  | .filter _ _ [] => enclosed "(" ")" symbols
  | e => placed .suffixed e symbols

/-- The symbols of an expression that is the key of an entry. -/
def placedKey (e : Expr) (symbols : List (TokenKind × String)) : List (TokenKind × String) :=
  match e with
  | .literal (.str _) | .literal (.int _) => symbols
  | _ => enclosed "(" ")" symbols

/-- The kind of token that the name of an attribute is. A position in a list is a number, and so is
whatever else begins with a digit. -/
def attributeKind (name : String) : TokenKind :=
  if name.toList.head?.any Char.isDigit then .number else .identifier

theorem attributeKind_eq (name : String) :
    attributeKind name = .identifier ∨ attributeKind name = .number := by
  rw [attributeKind]
  split
  · exact .inr rfl
  · exact .inl rfl

/-- The symbols of a literal, if it has any. -/
def writtenLiteral : Value → List (TokenKind × String)
  | .int n => [(.number, toString n.toInt.toNat)]
  | .str s => [(.string, s)]
  | .bool b => [(.identifier, if b then "true" else "false")]
  | .null => [(.identifier, "null")]
  | _ => []

mutual

/-- The symbols of an expression. -/
def written : Expr → List (TokenKind × String)
  | .literal v => writtenLiteral v
  | .var name => [(.identifier, name)]
  | .list items => enclosed "[" "]" (writtenItems items)
  | .map entries => enclosed "\x7b" "\x7d" (writtenEntries entries)
  | .attr target name =>
    placed .suffixed target target.written ++ [(.operator, "."), (attributeKind name, name)]
  | .index target position =>
    placed .suffixed target target.written ++ enclosed "[" "]" position.written
  | .call callee args => placedCallee callee callee.written ++ enclosed "(" ")" (writtenItems args)
  | .filter input name args =>
    placed .suffixed input input.written ++ (.operator, "|") :: (.identifier, name) ::
      if args.isEmpty then [] else enclosed "(" ")" (writtenItems args)
  | .test input name negated =>
    placed .comparison input input.written ++ (.identifier, "is") ::
      ((if negated then [(.identifier, "not")] else []) ++ [(.identifier, name)])
  | .unary .not e => (.identifier, "not") :: placed .negation e e.written
  | .unary .neg e => (.operator, "-") :: placed .sign e e.written
  | .unary .pos e => (.operator, "+") :: placed .sign e e.written
  | .binary op left right =>
    placed op.leftLevel left left.written ++ op.words ++ placed op.rightLevel right right.written
  | .ternary cond yes no =>
    placed .disjunction cond cond.written ++ (.operator, "?") :: (yes.written ++
      (.operator, ":") :: no.written)

/-- The symbols of expressions with commas between them. -/
def writtenItems : List Expr → List (TokenKind × String)
  | [] => []
  | [e] => e.written
  | e :: e' :: es => e.written ++ (.operator, ",") :: writtenItems (e' :: es)

/-- The symbols of the entries of a map. -/
def writtenEntries : List (Expr × Expr) → List (TokenKind × String)
  | [] => []
  | [(key, value)] => placedKey key key.written ++ (.operator, ":") :: value.written
  | (key, value) :: entry :: entries =>
    placedKey key key.written ++ (.operator, ":") :: (value.written ++
      (.operator, ",") :: writtenEntries (entry :: entries))

end

/-! ### What can be written -/

/-- The words that are not variables where an expression begins. -/
def reservedWords : List String :=
  ["not", "true", "TRUE", "false", "FALSE", "null", "none", "NULL", "NONE"]

/-- Whether the form of an expression, apart from what is inside it, has a spelling. A sign is no
part of a literal, and the name of a test is never `not`, which would negate it instead. -/
def HasSpelling : Expr → Prop
  | .literal (.int n) => 0 ≤ n
  | .literal (.str _) | .literal (.bool _) | .literal .null => True
  | .literal _ => False
  | .var name => name ∉ reservedWords
  | .test _ name negated => negated = false → name ≠ "not"
  | _ => True

/-! ### Tokens from symbols -/

theorem isOp_of_symbol {t : Token} {op : String} (h : t.symbol = (.operator, op)) :
    t.isOp op = true := by
  simp_all [symbol, isOp]

theorem isId_of_symbol {t : Token} {name : String} (h : t.symbol = (.identifier, name)) :
    t.isId name = true := by
  simp_all [symbol, isId]

theorem of_symbol {t : Token} {kind : TokenKind} {text : String} (h : t.symbol = (kind, text)) :
    t.kind = kind ∧ t.text = text :=
  Prod.mk.inj h

/-- Tokens with the symbols of something in brackets. -/
theorem eq_of_enclosed {opening closing : String} {symbols : List (TokenKind × String)}
    {ts : List Token} (h : ts.map Token.symbol = enclosed opening closing symbols) :
    ∃ t us u, ts = t :: (us ++ [u]) ∧ t.isOp opening = true ∧ us.map Token.symbol = symbols ∧
      u.isOp closing = true := by
  obtain ⟨t, ts, rfl, ht, hts⟩ := List.map_eq_cons_iff.mp h
  obtain ⟨us, vs, rfl, hus, hvs⟩ := List.map_eq_append_iff.mp hts
  obtain ⟨u, rfl, hu⟩ := List.map_eq_singleton_iff.mp hvs
  exact ⟨t, us, u, rfl, isOp_of_symbol ht, hus, isOp_of_symbol hu⟩

/-! ### What is written is spelled -/

/-- A form that is spelled wherever it is written is spelled where it is placed. -/
theorem spelled_placed {e : Expr}
    (h : ∀ ts : List Token, ts.map Token.symbol = e.written → Spelled e.level e ts)
    {level : Precedence} {ts : List Token} (hts : ts.map Token.symbol = placed level e e.written) :
    Spelled level e ts := by
  rw [placed] at hts
  split at hts
  next hle => exact (h ts hts).mono hle
  next =>
    obtain ⟨t, us, u, rfl, ht, hus, hu⟩ := eq_of_enclosed hts
    have hinside : Spelled .ternary e us := (h us hus).mono e.level.rank_le
    exact (Spelled.group ht hinside hu).mono (Nat.zero_le _)

theorem spelled_placedCallee {e : Expr}
    (h : ∀ ts : List Token, ts.map Token.symbol = e.written → Spelled e.level e ts)
    {ts : List Token} (hts : ts.map Token.symbol = placedCallee e e.written) :
    Spelled .suffixed e ts ∧ ¬ EndsOpen e ts := by
  unfold placedCallee at hts
  split at hts
  next input name =>
    obtain ⟨t, us, u, rfl, ht, hus, hu⟩ := eq_of_enclosed hts
    have hinside : Spelled .ternary _ us := (h us hus).mono (Precedence.rank_le _)
    refine ⟨(Spelled.group ht hinside hu).mono (by decide), fun hopen => ?_⟩
    have hlast := hopen.2 u (by rw [← List.cons_append, List.getLast?_concat])
    rw [hu] at hlast
    cases hlast
  next hne =>
    refine ⟨spelled_placed h hts, ?_⟩
    rintro ⟨⟨input, name, rfl⟩, -⟩
    exact hne input name rfl

theorem spelled_placedKey {e : Expr} (he : e.HasSpelling)
    (h : ∀ ts : List Token, ts.map Token.symbol = e.written → Spelled e.level e ts)
    {ts : List Token} (hts : ts.map Token.symbol = placedKey e e.written) : SpelledKey e ts := by
  unfold placedKey at hts
  split at hts
  next s =>
    obtain ⟨t, rfl, ht⟩ := List.map_eq_singleton_iff.mp hts
    obtain ⟨hkind, rfl⟩ := of_symbol ht
    exact .string (.inr hkind)
  next n =>
    obtain ⟨t, rfl, ht⟩ := List.map_eq_singleton_iff.mp hts
    obtain ⟨hkind, htext⟩ := of_symbol ht
    exact .number hkind (htext ▸ literal?_digits he)
  next =>
    obtain ⟨t, us, u, rfl, ht, hus, hu⟩ := eq_of_enclosed hts
    exact .group ht ((h us hus).mono e.level.rank_le) hu

theorem spelled_literal {v : Value} (hv : (Expr.literal v).HasSpelling) {ts : List Token}
    (hts : ts.map Token.symbol = writtenLiteral v) : Spelled .primary (.literal v) ts := by
  cases v with
  | null =>
    obtain ⟨t, rfl, ht⟩ := List.map_eq_singleton_iff.mp hts
    obtain ⟨hkind, htext⟩ := of_symbol ht
    have hspelled := Spelled.word hkind (by rw [htext]; decide)
    rwa [htext] at hspelled
  | bool b =>
    obtain ⟨t, rfl, ht⟩ := List.map_eq_singleton_iff.mp hts
    obtain ⟨hkind, htext⟩ := of_symbol ht
    have hspelled := Spelled.word hkind (by rw [htext]; cases b <;> decide)
    rw [htext] at hspelled
    cases b <;> exact hspelled
  | int n =>
    obtain ⟨t, rfl, ht⟩ := List.map_eq_singleton_iff.mp hts
    obtain ⟨hkind, htext⟩ := of_symbol ht
    exact .number hkind (htext ▸ literal?_digits hv)
  | str s =>
    obtain ⟨t, rfl, ht⟩ := List.map_eq_singleton_iff.mp hts
    obtain ⟨hkind, rfl⟩ := of_symbol ht
    exact .string hkind
  | _ => exact hv.elim

theorem spelled_binary {op : BinaryOp} {left right : Expr} {ts words us : List Token}
    (hleft : Spelled op.leftLevel left ts) (hwords : words.map Token.symbol = op.words)
    (hright : Spelled op.rightLevel right us) :
    Spelled op.level (.binary op left right) (ts ++ words ++ us) := by
  by_cases hchain : op.level.isChain = true
  · rw [BinaryOp.leftLevel, if_pos hchain] at hleft
    have hlevel : op.rightLevel = op.level.tighter := by
      cases op <;> first | rfl | exact absurd hchain (by decide)
    exact .chain hchain hleft hwords (hlevel ▸ hright)
  · cases op with
    | range =>
      obtain ⟨t, rfl, ht⟩ := List.map_eq_singleton_iff.mp hwords
      rw [List.append_assoc]
      exact .range hleft (isOp_of_symbol ht) hright
    | pow =>
      obtain ⟨t, rfl, ht⟩ := List.map_eq_singleton_iff.mp hwords
      rw [List.append_assoc]
      exact .power hleft (isOp_of_symbol ht) hright
    | _ => exact absurd rfl hchain

theorem ofWord_of_not_reserved {name : String} (h : name ∉ reservedWords) :
    ofWord name = .var name := by
  unfold ofWord
  split <;> first | rfl | exact absurd (by decide) h

mutual

theorem spelled_written : ∀ e : Expr, e.Every HasSpelling → ∀ ts : List Token,
    ts.map Token.symbol = e.written → Spelled e.level e ts
  | .literal v, he, ts, hts => spelled_literal (he _ (mem_parts_self _)) hts
  | .var name, he, ts, hts => by
    obtain ⟨t, rfl, ht⟩ := List.map_eq_singleton_iff.mp hts
    obtain ⟨hkind, rfl⟩ := of_symbol ht
    have hname : t.text ∉ reservedWords := he _ (mem_parts_self _)
    have hspelled := Spelled.word hkind (by rintro hnot; exact hname (by rw [hnot]; decide))
    rwa [ofWord_of_not_reserved hname] at hspelled
  | .list items, he, ts, hts => by
    obtain ⟨t, us, u, rfl, ht, hus, hu⟩ := eq_of_enclosed hts
    exact .list ht (spelled_writtenItems items (fun x hx => he x (by simp [parts, hx])) us hus) hu
  | .map entries, he, ts, hts => by
    obtain ⟨t, us, u, rfl, ht, hus, hu⟩ := eq_of_enclosed hts
    exact .map ht
      (spelled_writtenEntries entries (fun x hx => he x (by simp [parts, hx])) us hus) hu
  | .attr target name, he, ts, hts => by
    have htarget := spelled_written target fun x hx => he x (by simp [parts, hx])
    rw [written] at hts
    obtain ⟨us, vs, rfl, hus, hvs⟩ := List.map_eq_append_iff.mp hts
    obtain ⟨t, vs, rfl, ht, hvs⟩ := List.map_eq_cons_iff.mp hvs
    obtain ⟨n, rfl, hn⟩ := List.map_eq_singleton_iff.mp hvs
    obtain ⟨hkind, rfl⟩ := of_symbol hn
    exact .attr (spelled_placed htarget hus) (isOp_of_symbol ht) (hkind ▸ attributeKind_eq n.text)
  | .index target position, he, ts, hts => by
    have htarget := spelled_written target fun x hx => he x (by simp [parts, hx])
    have hposition := spelled_written position fun x hx => he x (by simp [parts, hx])
    rw [written] at hts
    obtain ⟨us, vs, rfl, hus, hvs⟩ := List.map_eq_append_iff.mp hts
    obtain ⟨t, ws, u, rfl, ht, hws, hu⟩ := eq_of_enclosed hvs
    exact .index (spelled_placed htarget hus) ht ((hposition ws hws).mono position.level.rank_le) hu
  | .call callee args, he, ts, hts => by
    have hcallee := spelled_written callee fun x hx => he x (by simp [parts, hx])
    have hargs := spelled_writtenItems args fun x hx => he x (by simp [parts, hx])
    rw [written] at hts
    obtain ⟨us, vs, rfl, hus, hvs⟩ := List.map_eq_append_iff.mp hts
    obtain ⟨t, ws, u, rfl, ht, hws, hu⟩ := eq_of_enclosed hvs
    obtain ⟨hspelled, hends⟩ := spelled_placedCallee hcallee hus
    exact .call hspelled hends ht (hargs ws hws) hu
  | .filter input name args, he, ts, hts => by
    have hinput := spelled_written input fun x hx => he x (by simp [parts, hx])
    have hargs := spelled_writtenItems args fun x hx => he x (by simp [parts, hx])
    rw [written] at hts
    obtain ⟨us, vs, rfl, hus, hvs⟩ := List.map_eq_append_iff.mp hts
    obtain ⟨bar, vs, rfl, hbar, hvs⟩ := List.map_eq_cons_iff.mp hvs
    obtain ⟨n, ws, rfl, hn, hws⟩ := List.map_eq_cons_iff.mp hvs
    obtain ⟨hkind, rfl⟩ := of_symbol hn
    cases args with
    | nil =>
      obtain rfl : ws = [] := List.map_eq_nil_iff.mp hws
      exact .bareFilter (spelled_placed hinput hus) (isOp_of_symbol hbar) hkind
    | cons arg args =>
      obtain ⟨t, ws, u, rfl, ht, hws, hu⟩ := eq_of_enclosed hws
      exact .filter (spelled_placed hinput hus) (isOp_of_symbol hbar) hkind ht (hargs ws hws) hu
  | .test input name negated, he, ts, hts => by
    have hinput := spelled_written input fun x hx => he x (by simp [parts, hx])
    have hname : negated = false → name ≠ "not" := he _ (mem_parts_self _)
    rw [written] at hts
    obtain ⟨us, vs, rfl, hus, hvs⟩ := List.map_eq_append_iff.mp hts
    obtain ⟨is, vs, rfl, his, hvs⟩ := List.map_eq_cons_iff.mp hvs
    cases negated with
    | false =>
      obtain ⟨n, rfl, hn⟩ := List.map_eq_singleton_iff.mp hvs
      obtain ⟨hkind, rfl⟩ := of_symbol hn
      exact .test (spelled_placed hinput hus) (isId_of_symbol his) hkind (hname rfl)
    | true =>
      obtain ⟨not, vs, rfl, hnot, hvs⟩ := List.map_eq_cons_iff.mp hvs
      obtain ⟨n, rfl, hn⟩ := List.map_eq_singleton_iff.mp hvs
      obtain ⟨hkind, rfl⟩ := of_symbol hn
      exact .negatedTest (spelled_placed hinput hus) (isId_of_symbol his) (isId_of_symbol hnot)
        hkind
  | .unary op e, he, ts, hts => by
    have hinside := spelled_written e fun x hx => he x (by simp [parts, hx])
    cases op <;> rw [written] at hts <;> obtain ⟨t, us, rfl, ht, hus⟩ := List.map_eq_cons_iff.mp hts
    · exact .not (isId_of_symbol ht) (spelled_placed hinside hus)
    · exact .neg (isOp_of_symbol ht) (spelled_placed hinside hus)
    · exact .pos (isOp_of_symbol ht) (spelled_placed hinside hus)
  | .binary op left right, he, ts, hts => by
    have hleft := spelled_written left fun x hx => he x (by simp [parts, hx])
    have hright := spelled_written right fun x hx => he x (by simp [parts, hx])
    rw [written] at hts
    obtain ⟨us, vs, rfl, hus, hvs⟩ := List.map_eq_append_iff.mp hts
    obtain ⟨us, words, rfl, hus, hwords⟩ := List.map_eq_append_iff.mp hus
    exact spelled_binary (spelled_placed hleft hus) hwords (spelled_placed hright hvs)
  | .ternary cond yes no, he, ts, hts => by
    have hcond := spelled_written cond fun x hx => he x (by simp [parts, hx])
    have hyes := spelled_written yes fun x hx => he x (by simp [parts, hx])
    have hno := spelled_written no fun x hx => he x (by simp [parts, hx])
    rw [written] at hts
    obtain ⟨us, vs, rfl, hus, hvs⟩ := List.map_eq_append_iff.mp hts
    obtain ⟨mark, vs, rfl, hmark, hvs⟩ := List.map_eq_cons_iff.mp hvs
    obtain ⟨ys, vs, rfl, hys, hvs⟩ := List.map_eq_append_iff.mp hvs
    obtain ⟨colon, ns, rfl, hcolon, hns⟩ := List.map_eq_cons_iff.mp hvs
    exact .ternary (spelled_placed hcond hus) (isOp_of_symbol hmark)
      ((hyes ys hys).mono yes.level.rank_le) (isOp_of_symbol hcolon)
      ((hno ns hns).mono no.level.rank_le)

theorem spelled_writtenItems : ∀ items : List Expr,
    (∀ x ∈ partsOf items, x.HasSpelling) → ∀ ts : List Token,
      ts.map Token.symbol = writtenItems items → SpelledItems items ts
  | [], _, ts, hts => by
    obtain rfl : ts = [] := List.map_eq_nil_iff.mp hts
    exact .nil
  | [e], he, ts, hts => by
    have hspelled := spelled_written e (fun x hx => he x (by simp [partsOf, hx])) ts hts
    exact .last (hspelled.mono e.level.rank_le)
  | e :: e' :: es, he, ts, hts => by
    have hfirst := spelled_written e fun x hx => he x (by simp [partsOf, hx])
    have hmore := spelled_writtenItems (e' :: es) fun x hx => he x (by
      rw [partsOf]
      exact List.mem_append_right _ hx)
    rw [writtenItems] at hts
    obtain ⟨us, vs, rfl, hus, hvs⟩ := List.map_eq_append_iff.mp hts
    obtain ⟨comma, vs, rfl, hcomma, hvs⟩ := List.map_eq_cons_iff.mp hvs
    exact .more ((hfirst us hus).mono e.level.rank_le) (isOp_of_symbol hcomma) (hmore vs hvs)

theorem spelled_writtenEntries : ∀ entries : List (Expr × Expr),
    (∀ x ∈ entryParts entries, x.HasSpelling) → ∀ ts : List Token,
      ts.map Token.symbol = writtenEntries entries → SpelledEntries entries ts
  | [], _, ts, hts => by
    obtain rfl : ts = [] := List.map_eq_nil_iff.mp hts
    exact .nil
  | [(key, value)], he, ts, hts => by
    have hkey := spelled_written key fun x hx => he x (by simp [entryParts, hx])
    have hvalue := spelled_written value fun x hx => he x (by simp [entryParts, hx])
    have hkeySpelling := he key (by simp [entryParts, mem_parts_self])
    rw [writtenEntries] at hts
    obtain ⟨us, vs, rfl, hus, hvs⟩ := List.map_eq_append_iff.mp hts
    obtain ⟨colon, vs, rfl, hcolon, hvs⟩ := List.map_eq_cons_iff.mp hvs
    exact .last (spelled_placedKey hkeySpelling hkey hus) (isOp_of_symbol hcolon)
      ((hvalue vs hvs).mono value.level.rank_le)
  | (key, value) :: entry :: entries, he, ts, hts => by
    have hkey := spelled_written key fun x hx => he x (by simp [entryParts, hx])
    have hvalue := spelled_written value fun x hx => he x (by simp [entryParts, hx])
    have hmore := spelled_writtenEntries (entry :: entries) fun x hx => he x (by
      rw [entryParts]
      exact List.mem_append_right _ hx)
    have hkeySpelling := he key (by simp [entryParts, mem_parts_self])
    rw [writtenEntries] at hts
    obtain ⟨us, vs, rfl, hus, hvs⟩ := List.map_eq_append_iff.mp hts
    obtain ⟨colon, vs, rfl, hcolon, hvs⟩ := List.map_eq_cons_iff.mp hvs
    obtain ⟨vs, ws, rfl, hvalues, hws⟩ := List.map_eq_append_iff.mp hvs
    obtain ⟨comma, ws, rfl, hcomma, hrest⟩ := List.map_eq_cons_iff.mp hws
    exact .more (spelled_placedKey hkeySpelling hkey hus) (isOp_of_symbol hcolon)
      ((hvalue vs hvalues).mono value.level.rank_le) (isOp_of_symbol hcomma) (hmore ws hrest)

end

/-- **What is written is read back**, at whatever offsets the tokens stand. -/
theorem parse_eq_of_written {e : Expr} (he : e.Every HasSpelling) {ts : List Token}
    (hts : ts.map Token.symbol = e.written) : Expr.parse ts = .ok e := by
  have hspelled : Spelled .ternary e ts := (spelled_written e he ts hts).mono e.level.rank_le
  exact hspelled.parse

/-- A choice with all that the levels have to tell apart. -/
def choice : Expr :=
  .ternary
    (.binary .and (.binary .or (.var "a") (.var "b"))
      (.unary .not (.binary .notMem (.var "c")
        (.binary .range (.literal (.int 1))
          (.unary .neg (.binary .pow (.literal (.int 2)) (.unary .neg (.var "n"))))))))
    (.call (.filter (.var "x") "f" []) [.test (.var "y") "odd" true])
    (.map [(.literal (.str "k"), .list [.literal (.int 10), .literal (.bool true)]),
      (.binary .mul (.literal (.int 2)) (.literal (.int 3)),
        .filter (.index (.attr (.attr (.var "u") "v") "0") (.literal (.int 0))) "g"
          [.literal .null])])

/-- Its tokens, as they are scanned from a text. -/
def choiceTokens : List Token :=
  match Token.scan ("(a or b) and not c not in 1..-2 ** -n ? (x|f)(y is not odd)" ++
    " : \x7b'k': [10, true], (2 * 3): u.v.0[0]|g(null)\x7d") with
  | .ok ts => ts
  | .error _ => []

theorem parse_eq_of_written_choice :
    choice.Every HasSpelling ∧ choiceTokens.map Token.symbol = choice.written ∧
      Expr.parse choiceTokens = .ok choice := by
  have hspelling : choice.Every HasSpelling := by
    simp [Every, choice, parts, partsOf, entryParts, HasSpelling, reservedWords]
  have hsymbols : choiceTokens.map Token.symbol = choice.written := by decide +kernel
  exact ⟨hspelling, hsymbols, parse_eq_of_written hspelling hsymbols⟩

end Expr

end Stencil
