import Stencil.Proofs.Expr.Shapes
import Stencil.Proofs.Expr.Writing
import Stencil.Proofs.Token.Separation

/-!
# Expressions in print

`Expr.display` prints an expression with parentheses around every operation, and the printer knows
nothing of the scanner and the reader. Here its text is scanned and read back.

The induction goes over the tree, with the text that follows kept in view. A lexeme at the end of a
printed form must not go on with that (`Scanner.Separates`), and it does not, because behind a form
there is a blank, a bracket, a comma, a colon, a bar, or a point with a name. What a form is read as
may stand before any suffix (`Expr.Closed`): an operation because it is in parentheses, the others
because they have suffixes at most.

Not every tree can be read back. The printer writes floats in its own way, the escapes of the
printer are not all known to the scanner, and there are no parentheses around the key of a map
(`Expr.Printable`). Other trees do not come from the reader at all (`Expr.AsRead`): a literal has
no sign, and what is a word or a name has been one in the text. **A tree that was read, and that is
printable, is read back from print** (`Expr.parse_display`).
-/

namespace Stencil

open Scanner

/-! ### The trees that are printed -/

namespace Expr

open Token

/-- The literals that may be keys in print. -/
def IsKey : Expr → Prop
  | .literal (.str _) | .literal (.int _) => True
  | _ => False

/-- Whether the form of an expression, apart from what is inside it, is printed so that it can be
read: the escapes of a text are known to the scanner, and no number is one that has a point. -/
def Printable : Expr → Prop
  | .literal (.float _) => False
  | .literal (.str s) => Text.Quotable s.toList
  | .var name => name ≠ "not"
  | .map entries => ∀ entry ∈ entries, entry.1.IsKey
  | .attr _ name => IsName name
  | _ => True

/-- What the reader gives, apart from what is inside: no literal has a sign, and each word is one
that does not mean something else. -/
def AsRead : Expr → Prop
  | .literal (.int n) => 0 ≤ n
  | .literal .null | .literal (.bool _) | .literal (.float _) | .literal (.str _) => True
  | .literal _ => False
  | .var name => IsName name ∧ (name ∈ reservedWords → name = "not")
  | .filter _ name _ => IsName name
  | .test _ name negated => IsName name ∧ (negated = false → name ≠ "not")
  | _ => True

/-- Whether the tokens spell the expression and may stand before any suffix. -/
def Closed (e : Expr) (ts : List Token) : Prop :=
  Spelled .suffixed e ts ∧ ¬ EndsOpen e ts

theorem Closed.ternary {e : Expr} {ts : List Token} (h : Closed e ts) : Spelled .ternary e ts :=
  h.1.mono (by decide)

/-- Only a filter may end with a name that takes arguments. -/
theorem closed_of_spelled {e : Expr} {ts : List Token} {level : Precedence}
    (h : Spelled level e ts) (hlevel : level.rank ≤ Precedence.suffixed.rank)
    (he : ∀ input name, e ≠ .filter input name []) : Closed e ts := by
  refine ⟨h.mono hlevel, ?_⟩
  rintro ⟨⟨input, name, rfl⟩, -⟩
  exact he input name rfl

theorem not_endsOpen_concat {e : Expr} {ts : List Token} {u : Token} (hu : u.isOp ")" = true) :
    ¬ EndsOpen e (ts ++ [u]) := by
  rintro ⟨-, hlast⟩
  have hopen := hlast u (by simp)
  rw [hu] at hopen
  cases hopen

/-- An operation in parentheses. -/
theorem closed_group {e : Expr} {ts : List Token} {t u : Token} (ht : t.isOp "(" = true)
    (h : Spelled .ternary e ts) (hu : u.isOp ")" = true) : Closed e (t :: (ts ++ [u])) := by
  refine ⟨(Spelled.group ht h hu).mono (by decide), ?_⟩
  rw [← List.cons_append]
  exact not_endsOpen_concat hu

/-! ### Scanning what is printed -/

/-- An operator that is one symbol of punctuation. -/
theorem exists_operator {op : BinaryOp} (h : op.words = [(.operator, op.symbol)]) :
    ∃ c cs, op.symbol.toList = c :: cs ∧ ∀ rest, Lexeme.read c (cs ++ ' ' :: rest) =
      .ok (.plain .operator (c :: cs)) := by
  cases op <;> first
    | exact ⟨_, _, rfl, fun _ => rfl⟩
    | cases h

/-- The symbols of an operator, before a blank. -/
theorem scans_words (op : BinaryOp) (tail : List Char) :
    Scans (' ' :: tail) op.symbol.toList fun ts => ts.map Token.symbol = op.words := by
  have hword (name : String) (hname : IsName name) (rest : List Char) :
      Scans (' ' :: rest) name.toList fun ts => ts.map Token.symbol = [(.identifier, name)] := by
    refine (Prints.word hname _ (separates_cons (by decide) rest)).mono ?_
    rintro _ ⟨t, rfl, ht⟩
    rw [List.map_singleton, ht]
  by_cases hop : op.words = [(.operator, op.symbol)]
  · obtain ⟨c, cs, hlist, hread⟩ := exists_operator hop
    rw [hlist, hop]
    refine (Scans.lexeme (hread tail) rfl).mono ?_
    rintro _ ⟨t, rfl, ht⟩
    simp [ht, Lexeme.plain, ← hlist]
  · cases op with
    | or => exact hword "or" (by decide) tail
    | and => exact hword "and" (by decide) tail
    | mem => exact hword "in" (by decide) tail
    | notMem =>
      have hnot := hword "not" (by decide) ('i' :: 'n' :: ' ' :: tail)
      have hin := hword "in" (by decide) tail
      refine (hnot.append hin.blank).mono ?_
      rintro _ ⟨us, vs, rfl, hus, hvs⟩
      rw [List.map_append, hus, hvs]
      rfl
    | _ => exact absurd rfl hop

/-- A literal that was read. -/
theorem prints_literal {v : Value} (hread : AsRead (.literal v)) (hprint : Printable (.literal v)) :
    Prints (displayLiteral v).toList (Spelled .primary (.literal v)) := by
  have hword (name : String) (hname : IsName name) (hnot : name ≠ "not") :
      Prints name.toList (Spelled .primary (ofWord name)) := by
    refine (Prints.word hname).mono ?_
    rintro _ ⟨t, rfl, ht⟩
    obtain ⟨hkind, rfl⟩ := of_symbol ht
    exact .word hkind hnot
  cases v with
  | null => exact hword "null" (by decide) (by decide)
  | bool b => cases b <;> exact hword _ (by decide) (by decide)
  | int n =>
    refine (Prints.integer hread).mono ?_
    rintro _ ⟨t, rfl, ht⟩
    obtain ⟨hkind, htext⟩ := of_symbol ht
    exact .number hkind (htext ▸ literal?_digits hread)
  | str s =>
    refine (Prints.quoted hprint).mono ?_
    rintro _ ⟨t, rfl, ht⟩
    obtain ⟨hkind, rfl⟩ := of_symbol ht
    exact .string hkind
  | float x => exact hprint.elim
  | _ => exact hread.elim

/-- A key, which has no parentheses. -/
theorem prints_key {key : Expr} (hkey : key.IsKey) (he : AsRead key ∧ Printable key) :
    Prints key.display.toList (SpelledKey key) := by
  unfold IsKey at hkey
  split at hkey
  next s =>
    refine (Prints.quoted he.2).mono ?_
    rintro _ ⟨t, rfl, ht⟩
    obtain ⟨hkind, rfl⟩ := of_symbol ht
    exact .string (.inr hkind)
  next n =>
    refine (Prints.integer he.1).mono ?_
    rintro _ ⟨t, rfl, ht⟩
    obtain ⟨hkind, htext⟩ := of_symbol ht
    exact .number hkind (htext ▸ literal?_digits he.1)
  next => exact hkey.elim

/-- A printed form in parentheses. -/
theorem scans_group {e : Expr} {tail cs : List Char} (h : Prints cs (Spelled .ternary e)) :
    Scans tail ('(' :: (cs ++ [')'])) (Closed e) := by
  refine (Scans.enclosed (by decide) h).mono ?_
  rintro _ ⟨t, ts, u, rfl, ht, hspelled, hu⟩
  exact closed_group ht hspelled hu

mutual

/-- **What is printed is scanned to tokens that spell it**, before all that separates. -/
theorem prints_display : ∀ e : Expr, e.Every (fun x => AsRead x ∧ Printable x) →
    Prints e.display.toList (Closed e)
  | .literal v, he => by
    obtain ⟨hread, hprint⟩ := he _ (mem_parts_self _)
    refine (prints_literal hread hprint).mono fun ts hts => ?_
    exact closed_of_spelled hts (by decide) (by simp)
  | .var name, he => by
    obtain ⟨⟨hname, hreserved⟩, hnot⟩ := he _ (mem_parts_self _)
    refine (Prints.word hname).mono ?_
    rintro _ ⟨t, rfl, ht⟩
    obtain ⟨hkind, rfl⟩ := of_symbol ht
    have hspelled := Spelled.word hkind hnot
    rw [ofWord_of_not_reserved fun h => hnot (hreserved h)] at hspelled
    exact closed_of_spelled hspelled (by decide) (by simp)
  | .list items, he => by
    have hitems := prints_displayItems items fun x hx => he x (by simp [parts, hx])
    have hlist : (Expr.list items).display.toList =
        '[' :: ((Text.join ", " (displayItems items)).toList ++ [']']) := by simp [display]
    rw [hlist]
    intro tail _
    refine Scans.mono (.enclosed (by decide) hitems) ?_
    rintro _ ⟨t, ts, u, rfl, ht, hspelled, hu⟩
    exact closed_of_spelled (.list ht hspelled hu) (by decide) (by simp)
  | .map entries, he => by
    have hkeys : ∀ entry ∈ entries, entry.1.IsKey := (he _ (mem_parts_self _)).2
    have hentries := prints_displayEntries entries hkeys fun x hx => he x (by simp [parts, hx])
    have hlist : (Expr.map entries).display.toList =
        '\x7b' :: ((Text.join ", " (displayEntries entries)).toList ++ ['\x7d']) := by
      simp [display]
    rw [hlist]
    intro tail _
    refine Scans.mono (.enclosed (by decide) hentries) ?_
    rintro _ ⟨t, ts, u, rfl, ht, hspelled, hu⟩
    exact closed_of_spelled (.map ht hspelled hu) (by decide) (by simp)
  | .attr target name, he => by
    have htarget := prints_display target fun x hx => he x (by simp [parts, hx])
    have hname : IsName name := (he _ (mem_parts_self _)).2
    have hlist : (Expr.attr target name).display.toList =
        target.display.toList ++ '.' :: name.toList := by simp [display]
    rw [hlist]
    intro tail htail
    -- the point goes on neither with the target nor with the name, which has a letter at the front
    obtain ⟨c, cs, hchars, hc, -⟩ := hname.exists_cons
    have hpoint : Separates ('.' :: (name.toList ++ tail)) := hchars ▸ separates_point hc _
    have hnext : ∀ d ∈ (name.toList ++ tail).head?, ('.', d) ∉ Lexeme.longOperators := by
      intro d hd hlong
      obtain rfl : c = d := by simpa [hchars] using hd
      obtain rfl : c = '.' := by simpa [Lexeme.longOperators] using hlong
      exact absurd hc (by decide)
    refine Scans.mono (.follow htarget hpoint
      (.led (by decide) hnext (Prints.word hname _ htail))) ?_
    rintro _ ⟨ts, _, rfl, hspelled, t, _, rfl, ht, n, rfl, hn⟩
    obtain ⟨hkind, rfl⟩ := of_symbol hn
    exact closed_of_spelled (.attr hspelled.1 ht (.inl hkind)) (by decide) (by simp)
  | .index target position, he => by
    have htarget := prints_display target fun x hx => he x (by simp [parts, hx])
    have hposition := prints_display position fun x hx => he x (by simp [parts, hx])
    have hlist : (Expr.index target position).display.toList =
        target.display.toList ++ '[' :: (position.display.toList ++ [']']) := by simp [display]
    rw [hlist]
    intro tail _
    refine Scans.mono (.follow htarget (separates_cons (by decide) _)
      (.enclosed (by decide) hposition)) ?_
    rintro _ ⟨ts, _, rfl, hspelled, t, us, u, rfl, ht, hinside, hu⟩
    exact closed_of_spelled (.index hspelled.1 ht hinside.ternary hu) (by decide) (by simp)
  | .call callee args, he => by
    have hcallee := prints_display callee fun x hx => he x (by simp [parts, hx])
    have hargs := prints_displayItems args fun x hx => he x (by simp [parts, hx])
    have hlist : (Expr.call callee args).display.toList = callee.display.toList ++
        '(' :: ((Text.join ", " (displayItems args)).toList ++ [')']) := by simp [display]
    rw [hlist]
    intro tail _
    refine Scans.mono (.follow hcallee (separates_cons (by decide) _)
      (.enclosed (by decide) hargs)) ?_
    rintro _ ⟨ts, _, rfl, hspelled, t, us, u, rfl, ht, hinside, hu⟩
    exact closed_of_spelled (.call hspelled.1 hspelled.2 ht hinside hu) (by decide) (by simp)
  | .filter input name args, he => by
    have hinput := prints_display input fun x hx => he x (by simp [parts, hx])
    have hargs := prints_displayItems args fun x hx => he x (by simp [parts, hx])
    have hname : IsName name := (he _ (mem_parts_self _)).1
    have hlist : (Expr.filter input name args).display.toList = input.display.toList ++ '|' ::
        (name.toList ++ '(' :: ((Text.join ", " (displayItems args)).toList ++ [')'])) := by
      simp [display]
    rw [hlist]
    intro tail _
    refine Scans.mono (.follow hinput (separates_cons (by decide) _)
      (.op (by decide) (by decide) (.follow (.word hname) (separates_cons (by decide) _)
        (.enclosed (by decide) hargs)))) ?_
    rintro _ ⟨ts, _, rfl, hspelled, bar, _, rfl, hbar, _, _, rfl, ⟨n, rfl, hn⟩, t, us, u, rfl, ht,
      hinside, hu⟩
    obtain ⟨hkind, rfl⟩ := of_symbol hn
    refine ⟨.filter hspelled.1 hbar hkind ht hinside hu, ?_⟩
    have hlast : ts ++ bar :: n :: t :: (us ++ [u]) = ts ++ bar :: n :: t :: us ++ [u] := by simp
    rw [List.singleton_append, hlast]
    exact not_endsOpen_concat hu
  | .test input name negated, he => by
    have hinput := prints_display input fun x hx => he x (by simp [parts, hx])
    obtain ⟨hname, hnot⟩ : IsName name ∧ (negated = false → name ≠ "not") :=
      (he _ (mem_parts_self _)).1
    cases negated with
    | false =>
      have hlist : (Expr.test input name false).display.toList = '(' :: (input.display.toList ++
          ' ' :: ("is".toList ++ ' ' :: name.toList) ++ [')']) := by simp [display]
      rw [hlist]
      refine fun tail _ => scans_group fun tail htail => ?_
      refine Scans.mono (.follow hinput (separates_cons (by decide) _)
        (.blank (.follow (.word (by decide)) (separates_cons (by decide) _)
          (.blank (Prints.word hname _ htail))))) ?_
      rintro _ ⟨ts, _, rfl, hts, _, _, rfl, ⟨is, rfl, his⟩, n, rfl, hn⟩
      obtain ⟨hkind, rfl⟩ := of_symbol hn
      have htest := (hts.1.mono (by decide)).test (isId_of_symbol his) hkind (hnot rfl)
      exact htest.mono (by decide)
    | true =>
      have hlist : (Expr.test input name true).display.toList = '(' :: (input.display.toList ++
          ' ' :: ("is".toList ++ ' ' :: ("not".toList ++ ' ' :: name.toList)) ++ [')']) := by
        simp [display]
      rw [hlist]
      refine fun tail _ => scans_group fun tail htail => ?_
      refine Scans.mono (.follow hinput (separates_cons (by decide) _)
        (.blank (.follow (.word (by decide)) (separates_cons (by decide) _)
          (.blank (.follow (.word (by decide)) (separates_cons (by decide) _)
            (.blank (Prints.word hname _ htail))))))) ?_
      rintro _ ⟨ts, _, rfl, hts, _, _, rfl, ⟨is, rfl, his⟩, _, _, rfl, ⟨t, rfl, ht⟩, n, rfl, hn⟩
      obtain ⟨hkind, rfl⟩ := of_symbol hn
      have htest := (hts.1.mono (by decide)).negatedTest (isId_of_symbol his) (isId_of_symbol ht)
        hkind
      exact htest.mono (by decide)
  | .unary op e, he => by
    have hinside := prints_display e fun x hx => he x (by simp [parts, hx])
    cases op with
    | not =>
      have hlist : (Expr.unary .not e).display.toList =
          '(' :: ("not".toList ++ ' ' :: e.display.toList ++ [')']) := by
        simp [display, UnaryOp.sign]
      rw [hlist]
      refine fun tail _ => scans_group fun tail htail => ?_
      refine Scans.mono (.follow (.word (by decide)) (separates_cons (by decide) _)
        (.blank (hinside _ htail))) ?_
      rintro _ ⟨_, ts, rfl, ⟨t, rfl, ht⟩, hts⟩
      exact (Spelled.not (isId_of_symbol ht) (hts.1.mono (by decide))).mono (by decide)
    | neg =>
      have hlist : (Expr.unary .neg e).display.toList =
          '(' :: ('-' :: e.display.toList ++ [')']) := by simp [display, UnaryOp.sign]
      rw [hlist]
      refine fun tail _ => scans_group fun tail htail => ?_
      refine Scans.mono (.op (by decide) (by decide) (hinside _ htail)) ?_
      rintro _ ⟨t, ts, rfl, ht, hts⟩
      exact (Spelled.neg ht (hts.1.mono (by decide))).mono (by decide)
    | pos =>
      have hlist : (Expr.unary .pos e).display.toList =
          '(' :: ('+' :: e.display.toList ++ [')']) := by simp [display, UnaryOp.sign]
      rw [hlist]
      refine fun tail _ => scans_group fun tail htail => ?_
      refine Scans.mono (.op (by decide) (by decide) (hinside _ htail)) ?_
      rintro _ ⟨t, ts, rfl, ht, hts⟩
      exact (Spelled.pos ht (hts.1.mono (by decide))).mono (by decide)
  | .binary op left right, he => by
    have hleft := prints_display left fun x hx => he x (by simp [parts, hx])
    have hright := prints_display right fun x hx => he x (by simp [parts, hx])
    have hlist : (Expr.binary op left right).display.toList = '(' :: (left.display.toList ++
        ' ' :: (op.symbol.toList ++ ' ' :: right.display.toList) ++ [')']) := by simp [display]
    rw [hlist]
    intro tail _
    refine scans_group fun tail htail => ?_
    refine Scans.mono (.follow hleft (separates_cons (by decide) _)
      (.blank (.append (scans_words op _) (hright _ htail).blank))) ?_
    rintro _ ⟨ts, _, rfl, hts, words, us, rfl, hwords, hus⟩
    have hleft : Spelled op.leftLevel left ts := hts.1.mono (by cases op <;> decide)
    have hright : Spelled op.rightLevel right us := hus.1.mono (by cases op <;> decide)
    rw [← List.append_assoc]
    exact (spelled_binary hleft hwords hright).mono op.level.rank_le
  | .ternary cond yes no, he => by
    have hcond := prints_display cond fun x hx => he x (by simp [parts, hx])
    have hyes := prints_display yes fun x hx => he x (by simp [parts, hx])
    have hno := prints_display no fun x hx => he x (by simp [parts, hx])
    have hlist : (Expr.ternary cond yes no).display.toList = '(' :: (cond.display.toList ++
        ' ' :: '?' :: ' ' :: (yes.display.toList ++ ' ' :: ':' :: ' ' :: no.display.toList) ++
          [')']) := by simp [display]
    rw [hlist]
    intro tail _
    refine scans_group fun tail htail => ?_
    refine Scans.mono (.follow hcond (separates_cons (by decide) _)
      (.blank (.op (by decide) (by decide) (.blank (.follow hyes (separates_cons (by decide) _)
        (.blank (.op (by decide) (by decide) (hno _ htail).blank))))))) ?_
    rintro _ ⟨ts, _, rfl, hts, mark, _, rfl, hmark, us, _, rfl, hus, colon, vs, rfl, hcolon, hvs⟩
    exact .ternary (hts.1.mono (by decide)) hmark hus.ternary hcolon hvs.ternary

/-- Items with commas between them. -/
theorem prints_displayItems : ∀ items : List Expr,
    (∀ x ∈ partsOf items, AsRead x ∧ Printable x) →
      Prints (Text.join ", " (displayItems items)).toList (SpelledItems items)
  | [], _ => fun _ _ => Scans.nil.mono (by rintro _ rfl; exact .nil)
  | [e], he =>
    (prints_display e fun x hx => he x (by simp [partsOf, hx])).mono
      fun _ hspelled => .last hspelled.ternary
  | e :: e' :: es, he => by
    have hfirst := prints_display e fun x hx => he x (by simp [partsOf, hx])
    have hmore := prints_displayItems (e' :: es) fun x hx => he x (by
      rw [partsOf]
      exact List.mem_append_right _ hx)
    have hlist : (Text.join ", " (displayItems (e :: e' :: es))).toList = e.display.toList ++
        ',' :: ' ' :: (Text.join ", " (displayItems (e' :: es))).toList := by
      simp [displayItems, Text.join_cons_cons]
    rw [hlist]
    intro tail htail
    refine Scans.mono (.follow hfirst (separates_cons (by decide) _)
      (.op (by decide) (by decide) (hmore _ htail).blank)) ?_
    rintro _ ⟨ts, _, rfl, hspelled, comma, us, rfl, hcomma, hrest⟩
    exact .more hspelled.ternary hcomma hrest

/-- The entries of a map. -/
theorem prints_displayEntries : ∀ entries : List (Expr × Expr),
    (∀ entry ∈ entries, entry.1.IsKey) → (∀ x ∈ entryParts entries, AsRead x ∧ Printable x) →
      Prints (Text.join ", " (displayEntries entries)).toList (SpelledEntries entries)
  | [], _, _ => fun _ _ => Scans.nil.mono (by rintro _ rfl; exact .nil)
  | [(key, value)], hkeys, he => by
    have hkey := prints_key (hkeys (key, value) (by simp))
      (he key (by simp [entryParts, mem_parts_self]))
    have hvalue := prints_display value fun x hx => he x (by simp [entryParts, hx])
    have hlist : (Text.join ", " (displayEntries [(key, value)])).toList =
        key.display.toList ++ ':' :: ' ' :: value.display.toList := by
      simp [displayEntries, Text.join, Text.joinOnto]
    rw [hlist]
    intro tail htail
    refine Scans.mono (.follow hkey (separates_cons (by decide) _)
      (.op (by decide) (by decide) (hvalue _ htail).blank)) ?_
    rintro _ ⟨ts, _, rfl, hspelled, colon, us, rfl, hcolon, hus⟩
    exact .last hspelled hcolon hus.ternary
  | (key, value) :: entry :: entries, hkeys, he => by
    have hkey := prints_key (hkeys (key, value) (by simp))
      (he key (by simp [entryParts, mem_parts_self]))
    have hvalue := prints_display value fun x hx => he x (by simp [entryParts, hx])
    have hmore := prints_displayEntries (entry :: entries)
      (fun entry hentry => hkeys entry (List.mem_cons_of_mem _ hentry)) fun x hx => he x (by
        rw [entryParts]
        exact List.mem_append_right _ hx)
    have hlist : (Text.join ", " (displayEntries ((key, value) :: entry :: entries))).toList =
        key.display.toList ++ ':' :: ' ' :: (value.display.toList ++
          ',' :: ' ' :: (Text.join ", " (displayEntries (entry :: entries))).toList) := by
      simp [displayEntries, Text.join_cons_cons]
    rw [hlist]
    intro tail htail
    refine Scans.mono (.follow hkey (separates_cons (by decide) _)
      (.op (by decide) (by decide) (.blank (.follow hvalue (separates_cons (by decide) _)
        (.op (by decide) (by decide) (hmore _ htail).blank))))) ?_
    rintro _ ⟨ts, _, rfl, hspelled, colon, _, rfl, hcolon, us, _, rfl, hus, comma, vs, rfl, hcomma,
      hvs⟩
    exact .more hspelled hcolon hus.ternary hcomma hvs

end

/-! ### What was read -/

/-- A word or a number that is scanned is of the kind that is written behind a point. -/
theorem attributeKind_of_isRead {t : Token} (ht : t.IsRead)
    (hkind : t.kind = .identifier ∨ t.kind = .number) : attributeKind t.text = t.kind := by
  obtain ⟨c, cs, l, hread, hl, htext⟩ := ht
  rw [← hl] at hkind ⊢
  rw [attributeKind, ← htext, String.toList_ofList]
  cases Lexeme.read_eq_ok_iff.mp hread with
  | word hword => simp [Lexeme.plain, Lexeme.isDigit_of_isWordStart hword]
  | number _ hdigit => simp [Lexeme.plain, Lexeme.head?_number hdigit, hdigit]
  | string => simp at hkind
  | operator _ _ _ hoperator =>
    rw [Lexeme.eq_plain_of_operator? hoperator] at hkind
    simp [Lexeme.plain] at hkind

theorem asRead_number {t : Token} {v : Value} (ht : t.IsRead) (hkind : t.kind = .number)
    (hv : literal? t.text = .ok v) : AsRead (.literal v) := by
  obtain ⟨x, rfl⟩ | ⟨n, rfl, hn⟩ := of_literal? (ht.minus_notMem hkind) hv
  · trivial
  · exact hn

theorem asRead_word {t : Token} (ht : t.IsRead) (hkind : t.kind = .identifier) :
    (ofWord t.text).Every AsRead := by
  by_cases hreserved : t.text ∈ reservedWords
  · have hname := ht.isName hkind
    revert hname
    simp only [reservedWords, List.mem_cons, List.not_mem_nil, or_false] at hreserved
    rcases hreserved with h | h | h | h | h | h | h | h | h <;> rw [h] <;>
      simp [ofWord, Every, parts, AsRead, reservedWords]
  · rw [ofWord_of_not_reserved hreserved]
    simpa [Every, parts, AsRead] using ⟨ht.isName hkind, fun h => absurd h hreserved⟩

mutual

/-- The parts of what is read off tokens are as they are read. -/
theorem Formed.asRead : ∀ {e : Expr} {ts : List Token}, Formed e ts → (∀ t ∈ ts, t.IsRead) →
    e.Every AsRead
  | _, _, .number kind means, hts => by
    simpa [Every, parts] using asRead_number (hts _ (by simp)) kind means
  | _, _, .string kind, hts => by simp [Every, parts, AsRead]
  | _, _, .word kind, hts => asRead_word (hts _ (by simp)) kind
  | _, _, .group opens inside closes, hts => inside.asRead fun t ht => hts t (by simp [ht])
  | _, _, .list opens inside closes, hts => by
    rw [Every, parts, List.forall_mem_cons]
    exact ⟨trivial, inside.asRead fun t ht => hts t (by simp [ht])⟩
  | _, _, .map opens inside closes, hts => by
    rw [Every, parts, List.forall_mem_cons]
    exact ⟨trivial, inside.asRead fun t ht => hts t (by simp [ht])⟩
  | _, _, .attr first point kind, hts => by
    rw [Every, parts, List.forall_mem_cons]
    exact ⟨trivial, first.asRead fun t ht => hts t (by simp [ht])⟩
  | _, _, .index first opens inside closes, hts => by
    rw [Every, parts, List.forall_mem_cons, List.forall_mem_append]
    exact ⟨trivial, first.asRead fun t ht => hts t (by simp [ht]),
      inside.asRead fun t ht => hts t (by simp [ht])⟩
  | _, _, .call first opens inside closes, hts => by
    rw [Every, parts, List.forall_mem_cons, List.forall_mem_append]
    exact ⟨trivial, first.asRead fun t ht => hts t (by simp [ht]),
      inside.asRead fun t ht => hts t (by simp [ht])⟩
  | _, _, .filter first isBar kind opens inside closes, hts => by
    rw [Every, parts, List.forall_mem_cons, List.forall_mem_append]
    exact ⟨(hts _ (by simp)).isName kind, first.asRead fun t ht => hts t (by simp [ht]),
      inside.asRead fun t ht => hts t (by simp [ht])⟩
  | _, _, .bareFilter first isBar kind, hts => by
    rw [Every, parts, List.forall_mem_cons, List.forall_mem_append]
    exact ⟨(hts _ (by simp)).isName kind, first.asRead fun t ht => hts t (by simp [ht]),
      by simp [partsOf]⟩
  | _, _, .neg op inside, hts | _, _, .pos op inside, hts | _, _, .not op inside, hts => by
    rw [Every, parts, List.forall_mem_cons]
    exact ⟨trivial, inside.asRead fun t ht => hts t (by simp [ht])⟩
  | _, _, .binary first spells second, hts => by
    rw [Every, parts, List.forall_mem_cons, List.forall_mem_append]
    exact ⟨trivial, first.asRead fun t ht => hts t (by simp [ht]),
      second.asRead fun t ht => hts t (by simp [ht])⟩
  | _, _, .test first isIs kind hnot, hts => by
    rw [Every, parts, List.forall_mem_cons]
    exact ⟨⟨(hts _ (by simp)).isName kind, fun _ => hnot⟩,
      first.asRead fun t ht => hts t (by simp [ht])⟩
  | _, _, .negatedTest first isIs isNot kind, hts => by
    rw [Every, parts, List.forall_mem_cons]
    exact ⟨⟨(hts _ (by simp)).isName kind, by simp⟩,
      first.asRead fun t ht => hts t (by simp [ht])⟩
  | _, _, .ternary first isMark second isColon third, hts => by
    rw [Every, parts, List.forall_mem_cons, List.forall_mem_append, List.forall_mem_append]
    exact ⟨trivial, ⟨first.asRead fun t ht => hts t (by simp [ht]),
      second.asRead fun t ht => hts t (by simp [ht])⟩,
      third.asRead fun t ht => hts t (by simp [ht])⟩

theorem FormedItems.asRead : ∀ {items : List Expr} {ts : List Token}, FormedItems items ts →
    (∀ t ∈ ts, t.IsRead) → ∀ x ∈ partsOf items, AsRead x
  | _, _, .nil, hts => by simp [partsOf]
  | _, _, .last h, hts => by
    rw [partsOf, List.forall_mem_append]
    exact ⟨h.asRead hts, by simp [partsOf]⟩
  | _, _, .more h isComma rest, hts => by
    rw [partsOf, List.forall_mem_append]
    exact ⟨h.asRead fun t ht => hts t (by simp [ht]), rest.asRead fun t ht => hts t (by simp [ht])⟩

theorem FormedEntries.asRead : ∀ {entries : List (Expr × Expr)} {ts : List Token},
    FormedEntries entries ts → (∀ t ∈ ts, t.IsRead) → ∀ x ∈ entryParts entries, AsRead x
  | _, _, .nil, hts => by simp [entryParts]
  | _, _, .last h isColon h', hts => by
    rw [entryParts, List.forall_mem_append, List.forall_mem_append]
    exact ⟨⟨h.asRead fun t ht => hts t (by simp [ht]), h'.asRead fun t ht => hts t (by simp [ht])⟩,
      by simp [entryParts]⟩
  | _, _, .more h isColon h' isComma rest, hts => by
    rw [entryParts, List.forall_mem_append, List.forall_mem_append]
    exact ⟨⟨h.asRead fun t ht => hts t (by simp [ht]), h'.asRead fun t ht => hts t (by simp [ht])⟩,
      rest.asRead fun t ht => hts t (by simp [ht])⟩

theorem FormedKey.asRead : ∀ {key : Expr} {ts : List Token}, FormedKey key ts →
    (∀ t ∈ ts, t.IsRead) → key.Every AsRead
  | _, _, .string kind, hts => by simp [Every, parts, AsRead]
  | _, _, .number kind means, hts => by
    simpa [Every, parts] using asRead_number (hts _ (by simp)) kind means
  | _, _, .group opens inside closes, hts => inside.asRead fun t ht => hts t (by simp [ht])

end

/-- **What was read is read back from print**, if it can be printed. The tokens may be those of an
expression alone or those of a region, and more may stand behind it. -/
theorem parse_display {ts rest : List Token} {e : Expr} (hts : ∀ t ∈ ts, t.IsRead)
    (h : parsePrefix ts = .ok (e, rest)) (hprintable : e.Every Printable) :
    ∃ us, Token.scan e.display = .ok us ∧ parse us = .ok e := by
  obtain ⟨pre, rfl, hformed⟩ := (parsePrefix_eq_ok_iff.mp h).formed
  have hread : e.Every AsRead := hformed.asRead fun t ht => hts t (List.mem_append_left _ ht)
  obtain ⟨us, hus, hclosed⟩ := prints_display e (fun x hx => ⟨hread x hx, hprintable x hx⟩) []
    separates_nil 0
  exact ⟨us, scan_iff_lexes.mpr hus, hclosed.ternary.parse⟩

/-- What the printer has to be careful with: suffixes behind operations, quotes, signs and keys. -/
def careful : Expr :=
  .ternary
    (.test (.index (.attr (.filter (.call (.var "f")
      [.unary .neg (.var "n"), .literal (.str "q\"\\\n")]) "g" []) "h") (.literal (.int 0)))
      "odd" true)
    (.filter (.ternary (.var "a") (.var "b") (.var "c")) "w" [.unary .not (.var "d")])
    (.binary .concat
      (.map [(.literal (.str "k"), .binary .range (.literal (.int 1)) (.literal (.int 2))),
        (.literal (.int 5), .literal (.str "é'"))])
      (.list [.literal .null, .literal (.bool true),
        .call (.attr (.var "x") "y") [.binary .pow (.literal (.int 2))
          (.unary .neg (.literal (.int 3)))]]))

/-- It is written with fewer parentheses. -/
def carefulSource : String :=
  "f(-n, 'q\"\\\\\\n')|g.h[0] is not odd ? (a ? b : c)|w(not d) : " ++
    "\x7b'k': 1..2, 5: \"é'\"\x7d ~ [null, true, x.y(2 ** -3)]"

def carefulTokens : List Token :=
  match Token.scan carefulSource with
  | .ok ts => ts
  | .error _ => []

/-- Quotes are changed, keys lose them or keep them, and every operation has parentheses. -/
theorem parse_display_careful :
    ∃ ts, Token.scan carefulSource = .ok ts ∧ parsePrefix ts = .ok (careful, []) ∧
      careful.Every Printable ∧
      careful.display = "((f((-n), \"q\\\"\\\\\\n\")|g().h[0] is not odd) ? " ++
        "(a ? b : c)|w((not d)) : (\x7b\"k\": (1 .. 2), 5: \"é'\"\x7d ~ " ++
        "[null, true, x.y((2 ** (-3)))]))" ∧
      ∃ us, Token.scan careful.display = .ok us ∧ parse us = .ok careful := by
  have hsymbols : carefulTokens.map Token.symbol = careful.written := by decide +kernel
  -- only a source that is scanned has tokens
  have hscan : Token.scan carefulSource = .ok carefulTokens := by
    rw [carefulTokens] at hsymbols ⊢
    cases hsource : Token.scan carefulSource with
    | ok ts => rfl
    | error fault =>
      rw [hsource] at hsymbols
      cases hsymbols
  have hspelling : careful.Every HasSpelling := by
    simp [Every, careful, parts, partsOf, entryParts, HasSpelling, reservedWords]
  have hspelled : Spelled .ternary careful carefulTokens :=
    (spelled_written careful hspelling _ hsymbols).mono careful.level.rank_le
  have hread : parsePrefix carefulTokens = .ok (careful, []) :=
    parsePrefix_eq_ok_iff.mpr (parse_eq_ok_iff.mp hspelled.parse)
  have hnames : IsName "h" ∧ IsName "y" := by decide
  have hplain : Text.quoteChar 'q' = ['q'] ∧ Text.quoteChar 'k' = ['k'] ∧
      Text.quoteChar 'é' = ['é'] ∧ Text.quoteChar '\'' = ['\''] := by decide
  have hprintable : careful.Every Printable := by
    simp [Every, careful, parts, partsOf, entryParts, Printable, IsKey, Text.Quotable, hnames,
      hplain, -Prod.forall]
  exact ⟨_, hscan, hread, hprintable, by decide +kernel,
    parse_display (isRead_of_lexes (scan_iff_lexes.mp hscan)) hread hprintable⟩

end Expr

end Stencil
