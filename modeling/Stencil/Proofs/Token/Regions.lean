import Mathlib.Data.List.Infix
import Stencil.Token.Scanner

/-!
# What stands in a region

The scanner finds openers, reads the inside of a region and meets its closing delimiter in one
pass from left to right. Here each of these readings is told without the pass: a text is cut at an
opener, at a mark or at a closing delimiter, and what stands before the cut has no other place for
it.

Only for the inside of an output or a tag does it matter what follows, because a lexeme is as long
as it can be, and a string may hold a closing delimiter. `Scanner.Reads` therefore keeps in view
the whole text up to the end of the source.
-/

namespace Stencil

theorem Text.byteSize_append (cs ds : List Char) :
    byteSize (cs ++ ds) = byteSize cs + byteSize ds := by
  induction cs with
  | nil => simp [byteSize]
  | cons c cs ih => simp [byteSize, ih, Nat.add_assoc]

theorem Text.utf8Size_of_isAsciiBlank {c : Char} (hc : isAsciiBlank c = true) :
    c.utf8Size = 1 := by
  simp only [isAsciiBlank, Bool.or_eq_true, beq_iff_eq] at hc
  rcases hc with (((rfl | rfl) | rfl) | rfl) | rfl <;> rfl

/-! ### Lexemes -/

namespace Lexeme

theorem fraction_isPrefix (cs : List Char) : fraction cs <+: cs := by
  unfold fraction
  split
  · split <;> simp [List.takeWhile_prefix]
  · exact List.nil_prefix

theorem decimal_isPrefix (cs : List Char) : decimal cs <+: cs := by
  have hsplit : cs.takeWhile Char.isDigit ++ cs.dropWhile Char.isDigit = cs :=
    List.takeWhile_append_dropWhile
  obtain ⟨rest, hrest⟩ := fraction_isPrefix (cs.dropWhile Char.isDigit)
  exact ⟨rest, by rw [decimal, List.append_assoc, hrest, hsplit]⟩

theorem number_isPrefix (cs : List Char) : number cs <+: cs := by
  unfold number
  split
  · split
    · simp [List.takeWhile_prefix]
    · exact decimal_isPrefix _
  · exact decimal_isPrefix _

theorem quoted?_isPrefix {quote : Char} {cs raw text : List Char}
    (h : quoted? quote cs = some (raw, text)) : raw <+: cs := by
  fun_induction quoted? quote cs generalizing raw text with
  | case1 => cases h
  | case2 => cases h
  | case3 e cs ih =>
    simp only [Option.map_eq_some_iff, Prod.mk.injEq, Prod.exists] at h
    obtain ⟨raw, text, h, rfl, -⟩ := h
    simpa using ih h
  | case4 =>
    cases h
    simp
  | case5 c cs _ _ ih =>
    simp only [Option.map_eq_some_iff, Prod.mk.injEq, Prod.exists] at h
    obtain ⟨raw, text, h, rfl, -⟩ := h
    simpa using ih h

theorem operator?_isPrefix {c : Char} {cs : List Char} {l : Lexeme}
    (h : operator? c cs = some l) : l.raw <+: c :: cs := by
  unfold operator? at h
  grind [plain]

/-- A lexeme is a stretch of the text. -/
theorem isPrefix_of_read {c : Char} {cs : List Char} {l : Lexeme} (h : read c cs = .ok l) :
    l.raw <+: c :: cs := by
  unfold read at h
  split at h
  · cases h
    simp [plain, List.takeWhile_prefix]
  · split at h
    · cases h
      exact number_isPrefix _
    · split at h
      · split at h
        next raw text hquoted =>
          cases h
          simpa using quoted?_isPrefix hquoted
        next => cases h
      · split at h
        next hoperator =>
          cases h
          exact operator?_isPrefix hoperator
        next => cases h

/-- No lexeme begins with a blank. -/
theorem read_ne_ok_of_isAsciiBlank {c : Char} (hc : Text.isAsciiBlank c = true) (cs : List Char)
    (l : Lexeme) : read c cs ≠ .ok l := by
  simp only [Text.isAsciiBlank, Bool.or_eq_true, beq_iff_eq] at hc
  have hword : isWordStart c = false := by
    rcases hc with (((rfl | rfl) | rfl) | rfl) | rfl <;> decide
  have hdigit : c.isDigit = false := by
    rcases hc with (((rfl | rfl) | rfl) | rfl) | rfl <;> decide
  have hoperator : operator? c cs = none := by
    unfold operator?
    rcases hc with (((rfl | rfl) | rfl) | rfl) | rfl <;> cases cs <;>
      simp [shortOperators, longOperators]
  have hquotes : c ≠ '\'' ∧ c ≠ '"' := by
    rcases hc with (((rfl | rfl) | rfl) | rfl) | rfl <;> decide
  unfold read
  rw [hoperator]
  simp [hword, hdigit, hquotes]

end Lexeme

namespace Scanner

/-! ### Delimiters and marks -/

/-- The mark beside a delimiter that asks for trimming, if it is there. -/
def dash : Bool → List Char
  | true => ['-']
  | false => []

/-- The character of an opener after the brace. -/
def RegionKind.mark : RegionKind → Char
  | .output => '{'
  | .tag => '%'
  | .comment => '#'

def RegionKind.opener (kind : RegionKind) : List Char :=
  ['{', kind.mark]

/-- The character of a closing delimiter before the brace. -/
def RegionKind.endMark : RegionKind → Char
  | .output => '}'
  | .tag => '%'
  | .comment => '#'

def RegionKind.closer (kind : RegionKind) : List Char :=
  [kind.endMark, '}']

theorem RegionKind.ofChar?_eq_some_iff {c : Char} {kind : RegionKind} :
    RegionKind.ofChar? c = some kind ↔ c = kind.mark := by
  unfold RegionKind.ofChar?
  cases kind <;> split <;> simp_all [RegionKind.mark]

/-- What a text begins with, if it begins with a `-`. -/
theorem splitTrim_eq_iff {cs rest : List Char} {trim : Bool} :
    splitTrim cs = (trim, rest) ↔
      cs = dash trim ++ rest ∧ (trim = false → rest.head? ≠ some '-') := by
  unfold splitTrim
  split
  · cases trim <;> simp [dash, eq_comm]
    rintro rfl
    simp
  next h =>
    have hhead : cs.head? ≠ some '-' := by
      cases cs with
      | nil => simp
      | cons c cs => simpa using fun hc => h cs (by rw [hc])
    cases trim with
    | false =>
      simp only [Prod.mk.injEq, true_and, dash, List.nil_append, forall_const]
      exact ⟨fun h => ⟨h, h ▸ hhead⟩, fun h => h.1⟩
    | true =>
      simp only [Prod.mk.injEq, Bool.false_eq_true, false_and, dash, false_iff, not_and]
      rintro rfl
      simp at hhead

theorem splitTrim_spec (cs : List Char) :
    cs = dash (splitTrim cs).1 ++ (splitTrim cs).2 ∧
      ((splitTrim cs).1 = false → (splitTrim cs).2.head? ≠ some '-') :=
  splitTrim_eq_iff.mp rfl

/-! ### Where an opener stands -/

/-- No opener stands in the text. -/
def NoOpener (cs : List Char) : Prop :=
  ∀ kind : RegionKind, ¬ kind.opener <:+: cs

theorem noOpener_cons {c d : Char} {cs : List Char} :
    NoOpener (c :: d :: cs) ↔
      (if c = '{' then RegionKind.ofChar? d else none) = none ∧ NoOpener (d :: cs) := by
  have hofChar : (if c = '{' then RegionKind.ofChar? d else none) = none ↔
      ∀ kind : RegionKind, ¬ kind.opener <+: c :: d :: cs := by
    simp only [RegionKind.opener, List.cons_prefix_cons, List.nil_prefix, and_true, not_and,
      Option.eq_none_iff_forall_ne_some, ne_eq]
    refine forall_congr' fun kind => ?_
    split
    next hc => rw [RegionKind.ofChar?_eq_some_iff, eq_comm (a := kind.mark), hc]; simp
    next hc => simpa using fun h => absurd h.symm hc
  simp only [NoOpener, hofChar, List.infix_cons_iff (a := c), not_or, forall_and]

theorem noOpener_of_length {cs : List Char} (h : cs.length < 2) : NoOpener cs :=
  fun _ hkind => absurd hkind.length_le (by simpa [RegionKind.opener] using h)

/-- Splitting at the first opener loses nothing, and no opener stands before it. -/
theorem splitOpener_spec (cs : List Char) :
    (∀ text, splitOpener cs = (text, none) → text = cs ∧ NoOpener cs) ∧
      ∀ text kind rest, splitOpener cs = (text, some (kind, rest)) →
        cs = text ++ kind.opener ++ rest ∧ NoOpener (text ++ ['{']) := by
  fun_induction splitOpener cs with
  | case1 => simp [noOpener_of_length]
  | case2 c => simp [noOpener_of_length]
  | case3 c d cs kind hkind =>
    have hc : c = '{' := by
      by_contra hc
      simp [hc] at hkind
    rw [if_pos hc, RegionKind.ofChar?_eq_some_iff] at hkind
    simp [hc, hkind, RegionKind.opener, noOpener_of_length]
  | case4 c d cs hnone text region heq ih =>
    rw [heq] at ih
    refine ⟨fun text' h => ?_, fun text' kind rest h => ?_⟩
    · obtain ⟨rfl, rfl⟩ := Prod.mk.inj h
      obtain ⟨rfl, hcs⟩ := ih.1 text rfl
      exact ⟨rfl, noOpener_cons.mpr ⟨hnone, hcs⟩⟩
    · obtain ⟨rfl, rfl⟩ := Prod.mk.inj h
      obtain ⟨hcs, htext⟩ := ih.2 text kind rest rfl
      refine ⟨by rw [hcs]; rfl, ?_⟩
      -- the character after `c` is the same with what follows the brace cut away
      obtain ⟨more, hmore⟩ : ∃ more, text ++ ['{'] = d :: more := by
        cases text with
        | nil => exact ⟨[], by rw [List.nil_append, (List.cons.inj hcs).1]⟩
        | cons t text => exact ⟨text ++ ['{'], by rw [(List.cons.inj hcs).1]; rfl⟩
      rw [List.cons_append, hmore]
      exact noOpener_cons.mpr ⟨hnone, hmore ▸ htext⟩

/-- A text without an opener is all before the first one. -/
theorem splitOpener_of_noOpener {cs : List Char} (h : NoOpener cs) :
    splitOpener cs = (cs, none) := by
  fun_induction splitOpener cs with
  | case1 => rfl
  | case2 c => rfl
  | case3 c d cs kind hkind =>
    rw [(noOpener_cons.mp h).1] at hkind
    cases hkind
  | case4 c d cs hnone text region heq ih =>
    obtain ⟨rfl, rfl⟩ := Prod.mk.inj (heq.symm.trans (ih (noOpener_cons.mp h).2))
    rfl

/-- An opener is the first one if no other stands in the text up to its brace. -/
theorem splitOpener_append {text : List Char} (h : NoOpener (text ++ ['{'])) (kind : RegionKind)
    (rest : List Char) :
    splitOpener (text ++ kind.opener ++ rest) = (text, some (kind, rest)) := by
  induction text with
  | nil => cases kind <;> rfl
  | cons c text ih =>
    obtain ⟨d, more, hmore⟩ : ∃ d more, text ++ ['{'] = d :: more := by
      cases text <;> exact ⟨_, _, rfl⟩
    rw [List.cons_append, hmore, noOpener_cons] at h
    have hrest : text ++ kind.opener ++ rest = d :: (more ++ kind.mark :: rest) := by
      rw [← List.cons_append, ← hmore]
      simp [RegionKind.opener]
    have ih := ih (hmore ▸ h.2)
    rw [List.cons_append, List.cons_append, hrest, splitOpener, h.1]
    rw [hrest] at ih
    simp [ih]

/-! ### Where a comment ends -/

/-- A comment ends where its closing delimiter is found first. -/
theorem splitComment?_eq_some_iff {cs text rest : List Char} :
    splitComment? cs = some (text, rest) ↔
      cs = text ++ RegionKind.comment.closer ++ rest ∧
        ¬ RegionKind.comment.closer <:+: text := by
  fun_induction splitComment? cs generalizing text rest with
  | case1 cs =>
    simp only [Option.some.injEq, Prod.mk.injEq]
    constructor
    · rintro ⟨rfl, rfl⟩
      simp [RegionKind.closer, RegionKind.endMark]
    · rintro ⟨hcs, htext⟩
      cases text with
      | nil => simpa [RegionKind.closer, RegionKind.endMark] using hcs
      | cons c text =>
        cases text with
        | nil => simp [RegionKind.closer, RegionKind.endMark] at hcs
        | cons d text =>
          simp only [List.cons_append, List.cons.injEq] at hcs
          refine absurd (List.IsPrefix.isInfix ?_) htext
          simp [RegionKind.closer, RegionKind.endMark, ← hcs.1, ← hcs.2.1]
  | case2 c cs hne ih =>
    simp only [Option.map_eq_some_iff, Prod.mk.injEq, Prod.exists]
    constructor
    · rintro ⟨text', rest, h, rfl, rfl⟩
      obtain ⟨rfl, htext⟩ := ih.mp h
      refine ⟨rfl, fun hinfix => ?_⟩
      rcases List.infix_cons_iff.mp hinfix with ⟨more, hmore⟩ | hinfix
      · simp only [RegionKind.closer, RegionKind.endMark, List.cons_append, List.nil_append,
          List.cons.injEq] at hmore
        exact hne _ hmore.1.symm (by rw [← hmore.2]; rfl)
      · exact htext hinfix
    · rintro ⟨hcs, htext⟩
      cases text with
      | nil =>
        obtain ⟨rfl, rfl⟩ := List.cons.inj hcs
        exact absurd rfl (hne rest rfl)
      | cons c' text =>
        obtain ⟨rfl, rfl⟩ := List.cons.inj hcs
        exact ⟨text, rest, ih.mpr ⟨rfl, fun hinfix => htext (List.infix_cons hinfix)⟩, rfl, rfl⟩
  | case3 => simp [RegionKind.closer]

theorem splitComment?_eq_none_iff {cs : List Char} :
    splitComment? cs = none ↔ ¬ RegionKind.comment.closer <:+: cs := by
  fun_induction splitComment? cs with
  | case1 cs =>
    have hcloser : RegionKind.comment.closer <:+: '#' :: '\x7d' :: cs := ⟨[], cs, rfl⟩
    simp [hcloser]
  | case2 c cs hne ih =>
    have hhead : ¬ RegionKind.comment.closer <+: c :: cs := by
      rintro ⟨rest, hrest⟩
      obtain ⟨rfl, rfl⟩ := List.cons.inj hrest
      exact hne rest rfl rfl
    rw [Option.map_eq_none_iff, ih, List.infix_cons_iff]
    simp [hhead]
  | case3 => simp [RegionKind.closer]

/-! ### Where an output or a tag ends -/

/-- What follows a delimiter at the front of a text. -/
theorem dropDelimiter?_eq_some_iff {ds cs after : List Char} :
    tokens.dropDelimiter? ds cs = some after ↔ cs = ds ++ after := by
  induction ds generalizing cs with
  | nil => simp [tokens.dropDelimiter?]
  | cons d ds ih =>
    cases cs with
    | nil => simp [tokens.dropDelimiter?]
    | cons c cs =>
      simp only [tokens.dropDelimiter?, List.cons_append, List.cons.injEq]
      split
      next h => simp [ih, h]
      next h => simp [Ne.symm h]

/-- Whether a text begins with the closing delimiter, with or without a mark. -/
def Closes (kind : RegionKind) (cs : List Char) : Prop :=
  ∃ trim, dash trim ++ kind.closer <+: cs

variable {kind : RegionKind} {missing : ScanError}

theorem closes?_eq_some_iff {c : Char} {cs after : List Char} {size : Nat} {trim : Bool} :
    tokens.closes? (.closer kind.closer missing) c cs = some (after, size, trim) ↔
      c :: cs = dash trim ++ kind.closer ++ after ∧
        size = (dash trim ++ kind.closer).length := by
  have hmark : kind.endMark ≠ '-' := by cases kind <;> decide
  rw [tokens.closes?]
  split
  next after' heq =>
    split at heq
    next hc =>
      subst hc
      rw [dropDelimiter?_eq_some_iff] at heq
      subst heq
      cases trim with
      | false => simp [dash, RegionKind.closer, hmark.symm]
      | true => simp [dash, and_comm, eq_comm]
    next => cases heq
  next hnone =>
    cases trim with
    | false =>
      simp only [Option.map_eq_some_iff, Prod.mk.injEq, dropDelimiter?_eq_some_iff, dash,
        List.nil_append, and_true]
      constructor
      · rintro ⟨_, hcs, rfl, rfl⟩
        exact ⟨hcs, rfl⟩
      · rintro ⟨hcs, rfl⟩
        exact ⟨after, hcs, rfl, rfl⟩
    | true =>
      simp only [Option.map_eq_some_iff, Prod.mk.injEq, Bool.false_eq_true, and_false,
        exists_false, false_iff, dash, not_and]
      intro hcs
      obtain ⟨hc, hcs⟩ := List.cons.inj hcs
      have hsome : tokens.dropDelimiter? kind.closer cs = some after :=
        dropDelimiter?_eq_some_iff.mpr hcs
      rw [if_pos hc, hsome] at hnone
      cases hnone

theorem closes?_eq_none_iff {c : Char} {cs : List Char} :
    tokens.closes? (.closer kind.closer missing) c cs = none ↔ ¬ Closes kind (c :: cs) := by
  simp only [Option.eq_none_iff_forall_ne_some, Prod.forall, ne_eq, closes?_eq_some_iff, Closes]
  constructor
  · rintro h ⟨trim, after, hafter⟩
    exact h after _ trim ⟨hafter.symm, rfl⟩
  · rintro h after size trim ⟨hafter, -⟩
    exact h ⟨trim, after, hafter.symm⟩

/-- How a text is read up to a closing delimiter: it is made of blanks and of lexemes, and none of
these stands where the region could be closed. The `tail` is all that follows, and the tokens lie
at the bytes where their lexemes begin. -/
inductive Reads (kind : RegionKind) (tail : List Char) : Nat → List Char → List Token → Prop
  | nil (offset : Nat) : Reads kind tail offset [] []
  | blank {offset : Nat} {c : Char} {cs : List Char} {ts : List Token}
      (hc : Text.isAsciiBlank c = true) (h : Reads kind tail (offset + 1) cs ts) :
      Reads kind tail offset (c :: cs) ts
  | lexeme {offset : Nat} {c : Char} {cs rest : List Char} {ts : List Token} {l : Lexeme}
      (hopen : ¬ Closes kind (c :: cs ++ tail)) (hread : Lexeme.read c (cs ++ tail) = .ok l)
      (hraw : c :: cs = l.raw ++ rest)
      (h : Reads kind tail (offset + Text.byteSize l.raw) rest ts) :
      Reads kind tail offset (c :: cs) (⟨l.kind, String.ofList l.text, offset⟩ :: ts)

theorem byteSize_dash_closer (trim : Bool) :
    Text.byteSize (dash trim ++ kind.closer) = (dash trim ++ kind.closer).length := by
  cases trim <;> cases kind <;> rfl

/-- A lexeme that stands where the region cannot be closed is the next token. -/
theorem tokens_lexeme {ending : Ending} {before : List Token} {c : Char} {cs : List Char}
    {offset : Nat} {l : Lexeme} (hcloses : tokens.closes? ending c cs = none)
    (hread : Lexeme.read c cs = .ok l) :
    tokens ending before (c :: cs) offset =
      tokens ending (⟨l.kind, String.ofList l.text, offset⟩ :: before)
        ((c :: cs).drop l.raw.length) (offset + Text.byteSize l.raw) := by
  have hblank : ¬ Text.isAsciiBlank c = true := fun hc =>
    Lexeme.read_ne_ok_of_isAsciiBlank hc _ l hread
  rw [tokens, if_neg hblank, hcloses]
  dsimp only
  split
  next fault hfault => cases hread.symm.trans hfault
  next l' hl =>
    cases hread.symm.trans hl
    rfl

/-- What reads well is read, whatever is made of the text behind it. -/
theorem tokens_append {inside tail : List Char} {offset : Nat} {ts : List Token}
    (h : Reads kind tail offset inside ts) (before : List Token) :
    tokens (.closer kind.closer missing) before (inside ++ tail) offset =
      tokens (.closer kind.closer missing) (ts.reverse ++ before) tail
        (offset + Text.byteSize inside) := by
  induction h generalizing before with
  | nil offset => rfl
  | @blank offset c cs ts hc _ ih =>
    rw [List.cons_append, tokens, if_pos hc, ih, Text.byteSize, Text.utf8Size_of_isAsciiBlank hc,
      Nat.add_assoc]
  | @lexeme offset c cs rest ts l hopen hread hraw _ ih =>
    have hdrop : (c :: (cs ++ tail)).drop l.raw.length = rest ++ tail := by
      rw [← List.cons_append, hraw, List.append_assoc, List.drop_left]
    have hcloses : tokens.closes? (.closer kind.closer missing) c (cs ++ tail) = none :=
      closes?_eq_none_iff.mpr hopen
    rw [List.cons_append, tokens_lexeme hcloses hread, hdrop, ih, hraw, Text.byteSize_append,
      Nat.add_assoc, List.reverse_cons, List.append_assoc, List.singleton_append]

/-- A region that reads well is read. -/
theorem tokens_of_reads {after inside : List Char} {trim : Bool} {offset : Nat} {ts : List Token}
    (h : Reads kind (dash trim ++ kind.closer ++ after) offset inside ts) (before : List Token) :
    tokens (.closer kind.closer missing) before (inside ++ (dash trim ++ kind.closer ++ after))
        offset =
      .ok ⟨before.reverse ++ ts, after,
        offset + Text.byteSize (inside ++ (dash trim ++ kind.closer)), trim⟩ := by
  obtain ⟨c, cs, hcs⟩ : ∃ c cs, dash trim ++ kind.closer ++ after = c :: cs := by
    cases trim <;> exact ⟨_, _, rfl⟩
  have hblank : ¬ Text.isAsciiBlank c = true := by
    cases trim <;> cases kind <;> cases hcs <;> decide
  have hcloses : tokens.closes? (.closer kind.closer missing) c cs =
      some (after, (dash trim ++ kind.closer).length, trim) :=
    closes?_eq_some_iff.mpr ⟨hcs.symm, rfl⟩
  rw [tokens_append h, hcs, tokens, if_neg hblank, hcloses, Text.byteSize_append inside,
    byteSize_dash_closer]
  simp [Nat.add_assoc]

/-- A region that is read reads well. -/
theorem reads_of_tokens {cs : List Char} {before : List Token} {offset : Nat} {r : Region}
    (h : tokens (.closer kind.closer missing) before cs offset = .ok r) :
    ∃ inside ts, cs = inside ++ (dash r.trims ++ kind.closer ++ r.rest) ∧
      Reads kind (dash r.trims ++ kind.closer ++ r.rest) offset inside ts ∧
      r.tokens = before.reverse ++ ts ∧
      r.offset = offset + Text.byteSize (inside ++ (dash r.trims ++ kind.closer)) := by
  fun_induction tokens (.closer kind.closer missing) before cs offset with
  | case1 before offset hsource => cases hsource
  | case2 => cases h
  | case3 before offset c rest hc ih =>
    obtain ⟨inside, ts, hrest, hreads, htokens, hoffset⟩ := ih h
    refine ⟨c :: inside, ts, by rw [hrest]; rfl, .blank hc hreads, htokens, ?_⟩
    rw [hoffset, List.cons_append, Text.byteSize, Text.utf8Size_of_isAsciiBlank hc, Nat.add_assoc]
  | case4 before offset c rest hc after size trims hcloses =>
    cases h
    obtain ⟨hcs, rfl⟩ := closes?_eq_some_iff.mp hcloses
    exact ⟨[], [], hcs, .nil offset, by simp, by simp [byteSize_dash_closer]⟩
  | case5 => cases h
  | case6 before offset c rest hc hcloses l hread token ih =>
    obtain ⟨inside, ts, hdrop, hreads, htokens, hoffset⟩ := ih h
    obtain ⟨more, hmore⟩ := Lexeme.isPrefix_of_read hread
    obtain rfl : more = inside ++ (dash r.trims ++ kind.closer ++ r.rest) := by
      rw [← hdrop, ← hmore, List.drop_left]
    obtain ⟨raw, hraw⟩ : ∃ raw, l.raw = c :: raw := by
      have hpos := Lexeme.length_pos_of_read hread
      cases hl : l.raw with
      | nil => simp [hl] at hpos
      | cons d raw =>
        rw [hl] at hmore
        exact ⟨raw, by rw [(List.cons.inj hmore).1]⟩
    obtain rfl : rest = raw ++ inside ++ (dash r.trims ++ kind.closer ++ r.rest) := by
      rw [hraw] at hmore
      exact (List.cons.inj hmore).2.symm.trans (List.append_assoc ..).symm
    refine ⟨c :: (raw ++ inside), token :: ts, rfl, ?_, ?_, ?_⟩
    · exact .lexeme (closes?_eq_none_iff.mp hcloses) hread (by rw [hraw]; rfl) hreads
    · rw [htokens]
      simp
    · rw [hoffset, ← List.cons_append, ← hraw]
      simp [Text.byteSize_append, Nat.add_assoc]

/-! ### What a region is -/

/-- The piece that a region with these tokens is, if it is one. -/
def RegionKind.piece (kind : RegionKind) (ts : List Token) : List Piece :=
  match kind with
  | .output => [.output ts]
  | .tag => [.tag ts]
  | .comment => []

theorem RegionKind.tokens_eq_of_piece {kind : RegionKind} (hkind : kind ≠ .comment)
    {ts ts' : List Token} (h : kind.piece ts = kind.piece ts') : ts = ts' := by
  cases kind with
  | comment => exact absurd rfl hkind
  | output => simpa [piece] using h
  | tag => simpa [piece] using h

/-- The fault of a region that does not end. -/
def RegionKind.unterminated : RegionKind → ScanFault
  | .output => .unterminatedExpression
  | .tag => .unterminatedBlock
  | .comment => .unterminatedComment

/-- An output or a tag is made of its tokens. -/
theorem region_eq_map_tokens (hkind : kind ≠ .comment) (opener : Nat) (cs : List Char)
    (offset : Nat) : region kind opener cs offset =
      (tokens (.closer kind.closer ⟨kind.unterminated, opener⟩) [] cs offset).map
        fun r => (kind.piece r.tokens, r.rest, r.offset, r.trims) := by
  cases kind with
  | comment => exact absurd rfl hkind
  | output => rfl
  | tag => rfl

/-- An output or a tag ends where the tokens inside it end. -/
theorem region_eq_ok_iff (hkind : kind ≠ .comment) {opener offset stop : Nat}
    {cs after : List Char} {pieces : List Piece} {trim : Bool} :
    region kind opener cs offset = .ok (pieces, after, stop, trim) ↔
      ∃ inside ts, cs = inside ++ (dash trim ++ kind.closer ++ after) ∧
        Reads kind (dash trim ++ kind.closer ++ after) offset inside ts ∧
        pieces = kind.piece ts ∧
        stop = offset + Text.byteSize (inside ++ (dash trim ++ kind.closer)) := by
  rw [region_eq_map_tokens hkind]
  constructor
  · intro h
    cases htokens : tokens (.closer kind.closer ⟨kind.unterminated, opener⟩) [] cs offset with
    | error fault =>
      rw [htokens] at h
      cases h
    | ok r =>
      rw [htokens] at h
      cases h
      obtain ⟨inside, ts, hcs, hreads, hts, hoffset⟩ := reads_of_tokens htokens
      exact ⟨inside, ts, hcs, hreads, by rw [hts]; rfl, hoffset⟩
  · rintro ⟨inside, ts, rfl, hreads, rfl, rfl⟩
    rw [tokens_of_reads hreads []]
    rfl

/-- The last `-` of a text set apart. -/
theorem exists_dash (text : List Char) :
    ∃ inside trim, text = inside ++ dash trim ∧ (trim = false → inside.getLast? ≠ some '-') := by
  by_cases hlast : text.getLast? = some '-'
  · obtain ⟨inside, rfl⟩ := List.getLast?_eq_some_iff.mp hlast
    exact ⟨inside, true, rfl, by simp⟩
  · exact ⟨text, false, by simp [dash], fun _ => hlast⟩

theorem getLast?_dash {inside : List Char} {trim : Bool}
    (h : trim = false → inside.getLast? ≠ some '-') :
    ((inside ++ dash trim).getLast? == some '-') = trim := by
  cases trim with
  | false => simpa [dash] using h rfl
  | true => simp [dash]

/-- A comment ends at its first closing delimiter. Its last `-` is a mark, if it has one. -/
theorem region_comment_eq_ok_iff {opener offset stop : Nat} {cs after : List Char}
    {pieces : List Piece} {trim : Bool} :
    region .comment opener cs offset = .ok (pieces, after, stop, trim) ↔
      ∃ inside, cs = inside ++ (dash trim ++ RegionKind.comment.closer ++ after) ∧
        ¬ RegionKind.comment.closer <:+: inside ++ dash trim ∧
        (trim = false → inside.getLast? ≠ some '-') ∧ pieces = [] ∧
        stop = offset + Text.byteSize (inside ++ (dash trim ++ RegionKind.comment.closer)) := by
  have hsize (text : List Char) : Text.byteSize (text ++ RegionKind.comment.closer) =
      Text.byteSize text + 2 := Text.byteSize_append ..
  rw [region]
  constructor
  · intro h
    split at h
    next => cases h
    next text rest hsplit =>
      obtain ⟨rfl, hcloser⟩ := splitComment?_eq_some_iff.mp hsplit
      obtain ⟨inside, trim', rfl, hlast⟩ := exists_dash text
      rw [getLast?_dash hlast] at h
      cases h
      exact ⟨inside, by simp, hcloser, hlast, rfl, by rw [← List.append_assoc, hsize]; rfl⟩
  · rintro ⟨inside, rfl, hcloser, hlast, rfl, rfl⟩
    have hsplit : splitComment? (inside ++ (dash trim ++ RegionKind.comment.closer ++ after)) =
        some (inside ++ dash trim, after) :=
      splitComment?_eq_some_iff.mpr ⟨by simp, hcloser⟩
    rw [hsplit, ← List.append_assoc, hsize]
    simp only [getLast?_dash hlast, Nat.add_assoc]

end Scanner

end Stencil
