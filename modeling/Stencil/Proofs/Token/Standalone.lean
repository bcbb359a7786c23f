import Stencil.Proofs.Token.Following

/-!
# Scanning the inside of a region alone

Between delimiters the scanner looks for the end of the region before each token, and a lexeme may
look at what is behind the region. The same text can be scanned alone, where there is nothing to
look for and nothing behind it. Both readings meet the same lexemes.

`Scanner.Lexes` is a reading without a closing delimiter, with the text behind it kept in view, as
in `Scanner.Reads`. Such a reading does not depend on which character stops its last lexeme
(`Scanner.Lexes.congr_stop`), and the one with nothing behind it is what `Token.scan` does
(`Token.scan_iff_lexes`). So **a region is scanned as its inside is scanned alone, with a blank in
place of the delimiter** (`Scanner.tokens_closer_eq_ok_iff`). The blank is needed because a radix
mark at the very end of a text would be a word.

Where the region ends is told without the tokens, too: a text has **boundaries**, the places behind
blanks where a lexeme may begin, and the region ends at the first of them where a closing delimiter
stands.
-/

namespace Stencil

/-- The token as it is in a text with `n` bytes more before it. -/
def Token.shift (n : Nat) (t : Token) : Token :=
  { t with offset := n + t.offset }

namespace Scanner

/-! ### Readings without a delimiter -/

/-- How a text is read if no closing delimiter is looked for: it is made of blanks and of lexemes.
The `tail` is all that follows, and the tokens lie at the bytes where their lexemes begin. -/
inductive Lexes (tail : List Char) : Nat → List Char → List Token → Prop
  | nil (offset : Nat) : Lexes tail offset [] []
  | blank {offset : Nat} {c : Char} {cs : List Char} {ts : List Token}
      (hc : Text.isAsciiBlank c = true) (h : Lexes tail (offset + 1) cs ts) :
      Lexes tail offset (c :: cs) ts
  | lexeme {offset : Nat} {c : Char} {cs rest : List Char} {ts : List Token} {l : Lexeme}
      (hread : Lexeme.read c (cs ++ tail) = .ok l) (hraw : c :: cs = l.raw ++ rest)
      (h : Lexes tail (offset + Text.byteSize l.raw) rest ts) :
      Lexes tail offset (c :: cs) (⟨l.kind, String.ofList l.text, offset⟩ :: ts)

variable {kind : RegionKind} {offset : Nat} {tail cs : List Char} {ts : List Token}

/-- The inside of a region reads as it would if its end were not looked for. -/
theorem Reads.lexes (h : Reads kind tail offset cs ts) : Lexes tail offset cs ts := by
  induction h with
  | nil offset => exact .nil offset
  | blank hc _ ih => exact .blank hc ih
  | lexeme _ hread hraw _ ih => exact .lexeme hread hraw ih

namespace Lexes

/-- Where a text lies does not matter but to where its tokens lie. -/
theorem shift (h : Lexes tail offset cs ts) (n : Nat) :
    Lexes tail (n + offset) cs (ts.map (Token.shift n)) := by
  induction h with
  | nil offset => exact .nil _
  | blank hc _ ih => exact .blank hc ih
  | lexeme hread hraw _ ih =>
    rw [← Nat.add_assoc] at ih
    exact .lexeme hread hraw ih

/-- What is read `n` bytes on is what would be read here, moved there. -/
theorem exists_shift {n : Nat} (h : Lexes tail (n + offset) cs ts) :
    ∃ us, Lexes tail offset cs us ∧ ts = us.map (Token.shift n) := by
  generalize hstart : n + offset = start at h
  induction h generalizing offset with
  | nil start => exact ⟨[], .nil offset, rfl⟩
  | blank hc _ ih =>
    obtain ⟨us, hus, hts⟩ := @ih (offset + 1) (by omega)
    exact ⟨us, .blank hc hus, hts⟩
  | @lexeme start c cs rest ts l hread hraw _ ih =>
    obtain ⟨us, hus, rfl⟩ := @ih (offset + Text.byteSize l.raw) (by omega)
    exact ⟨_, .lexeme hread hraw hus, by simp [Token.shift, hstart]⟩

/-- Two texts that follow each other. -/
theorem append {bs : List Char} {us : List Token} (h : Lexes (bs ++ tail) offset cs ts)
    (h' : Lexes tail (offset + Text.byteSize cs) bs us) :
    Lexes tail offset (cs ++ bs) (ts ++ us) := by
  induction h with
  | nil offset => exact h'
  | @blank offset c cs ts hc _ ih =>
    rw [Text.byteSize, Text.utf8Size_of_isAsciiBlank hc, ← Nat.add_assoc] at h'
    exact .blank hc (ih h')
  | @lexeme offset c cs rest ts l hread hraw _ ih =>
    rw [hraw, Text.byteSize_append, ← Nat.add_assoc] at h'
    have hrest : c :: (cs ++ bs) = l.raw ++ (rest ++ bs) := by
      rw [← List.cons_append, hraw, List.append_assoc]
    rw [← List.append_assoc] at hread
    rw [List.cons_append, List.cons_append]
    exact .lexeme hread hrest (ih h')

/-- It does not matter which character stops the last lexeme, nor what is behind that. -/
theorem congr_stop {m m' : Char} {rest rest' : List Char} (hm : Lexeme.Stops m)
    (hm' : Lexeme.Stops m') (h : Lexes (m :: rest) offset cs ts) :
    Lexes (m' :: rest') offset cs ts := by
  induction h with
  | nil offset => exact .nil offset
  | blank hc _ ih => exact .blank hc ih
  | lexeme hread hraw _ ih =>
    exact .lexeme (Lexeme.read_append hm hm' hread ⟨_, hraw.symm⟩ _) hraw ih

end Lexes

/-! ### The scanner of expressions -/

/-- A text that reads well is read. -/
theorem tokens_of_lexes (h : Lexes [] offset cs ts) (before : List Token) :
    tokens .source before cs offset =
      .ok ⟨before.reverse ++ ts, [], offset + Text.byteSize cs, false⟩ := by
  induction h generalizing before with
  | nil offset => simp [tokens, Text.byteSize]
  | @blank offset c cs ts hc _ ih =>
    rw [tokens, if_pos hc, ih, Text.byteSize, Text.utf8Size_of_isAsciiBlank hc, Nat.add_assoc]
  | @lexeme offset c cs rest ts l hread hraw _ ih =>
    rw [List.append_nil] at hread
    rw [tokens_lexeme rfl hread, hraw, List.drop_left, ih, Text.byteSize_append, Nat.add_assoc]
    simp

/-- A text that is read reads well. -/
theorem lexes_of_tokens {before : List Token} {r : Region}
    (h : tokens .source before cs offset = .ok r) :
    ∃ ts, Lexes [] offset cs ts ∧ r.tokens = before.reverse ++ ts := by
  fun_induction tokens .source before cs offset with
  | case1 before offset =>
    cases h
    exact ⟨[], .nil offset, by simp⟩
  | case2 before offset delimiter missing hsource => cases hsource
  | case3 before offset c rest hc ih =>
    obtain ⟨ts, hlexes, hr⟩ := ih h
    exact ⟨ts, .blank hc hlexes, hr⟩
  | case4 before offset c rest hc after size trims hcloses => cases hcloses
  | case5 => cases h
  | case6 before offset c rest hc hcloses l hread token ih =>
    obtain ⟨ts, hlexes, hr⟩ := ih h
    obtain ⟨more, hmore⟩ := Lexeme.isPrefix_of_read hread
    rw [← hmore, List.drop_left] at hlexes
    exact ⟨token :: ts, .lexeme (by rwa [List.append_nil]) hmore.symm hlexes, by simp [hr]⟩

end Scanner

open Scanner

/-- Scanning an expression is reading it with nothing behind it. -/
theorem Token.scan_iff_lexes {source : String} {ts : List Token} :
    Token.scan source = .ok ts ↔ Lexes [] 0 source.toList ts := by
  rw [Token.scan]
  constructor
  · intro h
    split at h
    next r hr =>
      cases h
      obtain ⟨ts, hlexes, hts⟩ := lexes_of_tokens hr
      rw [hts]
      exact hlexes
    next => cases h
  · intro h
    rw [tokens_of_lexes h]
    rfl

namespace Scanner

/-! ### Boundaries -/

/-- What is left of a text behind the blanks at its front. -/
def skipBlanks (cs : List Char) : List Char :=
  cs.dropWhile Text.isAsciiBlank

/-- What is left of a text behind the lexeme at its front. -/
def skipLexeme? : List Char → Option (List Char)
  | [] => none
  | c :: cs =>
    match Lexeme.read c cs with
    | .ok l => some ((c :: cs).drop l.raw.length)
    | .error _ => none

/-- What is left of a text at its boundaries: behind some lexemes and the blanks after them. -/
def boundary? : Nat → List Char → Option (List Char)
  | 0, cs => some (skipBlanks cs)
  | n + 1, cs => (skipLexeme? (skipBlanks cs)).bind (boundary? n)

/-- Whether `closed` is what is left of a text at the first boundary where a closing delimiter
stands. -/
def ClosesFirst (kind : RegionKind) (cs closed : List Char) : Prop :=
  ∃ n, boundary? n cs = some closed ∧ Closes kind closed ∧
    ∀ i < n, ∀ other, boundary? i cs = some other → ¬ Closes kind other

variable {s : List Char}

theorem skipBlanks_cons {c : Char} (hc : Text.isAsciiBlank c = true) (cs : List Char) :
    skipBlanks (c :: cs) = skipBlanks cs :=
  List.dropWhile_cons_of_pos hc

theorem skipBlanks_of_not_blank {c : Char} (hc : Text.isAsciiBlank c = false) (cs : List Char) :
    skipBlanks (c :: cs) = c :: cs :=
  List.dropWhile_cons_of_neg (by simp [hc])

theorem boundary?_cons {c : Char} (hc : Text.isAsciiBlank c = true) (cs : List Char) (n : Nat) :
    boundary? n (c :: cs) = boundary? n cs := by
  cases n <;> rw [boundary?, boundary?, skipBlanks_cons hc]

/-- Blanks in front move no boundary. -/
theorem closesFirst_cons {c : Char} (hc : Text.isAsciiBlank c = true) :
    ClosesFirst kind (c :: cs) s ↔ ClosesFirst kind cs s := by
  simp only [ClosesFirst, boundary?_cons hc]

/-- Nor does a closing delimiter begin with a blank. -/
theorem Closes.skipBlanks_eq (h : Closes kind s) : skipBlanks s = s := by
  obtain ⟨trim, after, rfl⟩ := h
  cases trim <;> cases kind <;> rfl

theorem ClosesFirst.here (h : Closes kind s) : ClosesFirst kind s s :=
  ⟨0, congrArg some h.skipBlanks_eq, h, fun _ hi => absurd hi (Nat.not_lt_zero _)⟩

/-- A lexeme that does not stand at the end of the region is skipped. -/
theorem closesFirst_lexeme {c : Char} {rest : List Char} {l : Lexeme}
    (hread : Lexeme.read c cs = .ok l) (hraw : c :: cs = l.raw ++ rest)
    (hopen : ¬ Closes kind (c :: cs)) :
    ClosesFirst kind (c :: cs) s ↔ ClosesFirst kind rest s := by
  have hblank : Text.isAsciiBlank c = false := by
    by_contra hc
    exact Lexeme.read_ne_ok_of_isAsciiBlank (by simpa using hc) _ l hread
  have hskip : skipBlanks (c :: cs) = c :: cs := skipBlanks_of_not_blank hblank cs
  have hnext (n : Nat) : boundary? (n + 1) (c :: cs) = boundary? n rest := by
    rw [boundary?, hskip, skipLexeme?, hread]
    simp [hraw]
  have hfirst : boundary? 0 (c :: cs) = some (c :: cs) := congrArg some hskip
  constructor
  · rintro ⟨n, hn, hclosed, hbefore⟩
    cases n with
    | zero =>
      rw [hfirst] at hn
      cases hn
      exact absurd hclosed hopen
    | succ n =>
      rw [hnext] at hn
      refine ⟨n, hn, hclosed, fun i hi other hother => ?_⟩
      exact hbefore (i + 1) (by omega) other ((hnext i).trans hother)
  · rintro ⟨n, hn, hclosed, hbefore⟩
    refine ⟨n + 1, (hnext n).trans hn, hclosed, fun i hi other hother => ?_⟩
    cases i with
    | zero =>
      rw [hfirst] at hother
      cases hother
      exact hopen
    | succ i => exact hbefore i (by omega) other ((hnext i).symm.trans hother)

/-- What reads well up to a closing delimiter has its first one there. -/
theorem Reads.closesFirst (h : Reads kind tail offset cs ts) (htail : Closes kind tail) :
    ClosesFirst kind (cs ++ tail) tail := by
  induction h with
  | nil offset => exact .here htail
  | blank hc _ ih => exact (closesFirst_cons hc).mpr ih
  | @lexeme offset c cs rest ts l hopen hread hraw _ ih =>
    have hrest : c :: (cs ++ tail) = l.raw ++ (rest ++ tail) := by
      rw [← List.cons_append, hraw, List.append_assoc]
    exact (closesFirst_lexeme hread hrest hopen).mpr ih

/-- Where the first closing delimiter stands at once. -/
theorem ClosesFirst.eq_of_closes (h : ClosesFirst kind cs s) (hcs : Closes kind cs) : s = cs := by
  obtain ⟨n, hn, -, hbefore⟩ := h
  have hfirst : boundary? 0 cs = some cs := congrArg some hcs.skipBlanks_eq
  cases n with
  | zero =>
    rw [hfirst] at hn
    cases hn
    rfl
  | succ n => exact absurd hcs (hbefore 0 (by omega) cs hfirst)

/-- Before the first closing delimiter there are lexemes. -/
theorem ClosesFirst.exists_read {c : Char} (h : ClosesFirst kind (c :: cs) s)
    (hblank : Text.isAsciiBlank c = false) (hopen : ¬ Closes kind (c :: cs)) :
    ∃ l, Lexeme.read c cs = .ok l := by
  obtain ⟨n, hn, hclosed, -⟩ := h
  have hskip : skipBlanks (c :: cs) = c :: cs := skipBlanks_of_not_blank hblank cs
  cases n with
  | zero =>
    rw [boundary?, hskip] at hn
    cases hn
    exact absurd hclosed hopen
  | succ n =>
    rw [boundary?, hskip, skipLexeme?] at hn
    cases hread : Lexeme.read c cs with
    | ok l => exact ⟨l, rfl⟩
    | error fault =>
      rw [hread] at hn
      cases hn

theorem not_closesFirst_nil : ¬ ClosesFirst kind [] s := by
  rintro ⟨n, hn, hclosed, -⟩
  cases n with
  | zero =>
    cases hn
    obtain ⟨trim, after, hafter⟩ := hclosed
    cases trim <;> cases hafter
  | succ n => cases hn

/-- What has its first closing delimiter somewhere reads well up to there. -/
theorem reads_of_closesFirst : ∀ {cs : List Char}, ClosesFirst kind cs tail → ∀ offset,
    ∃ inside ts, cs = inside ++ tail ∧ Reads kind tail offset inside ts
  | [], h, _ => absurd h not_closesFirst_nil
  | c :: cs, h, offset => by
    by_cases hblank : Text.isAsciiBlank c = true
    · have hmore : ClosesFirst kind cs tail := (closesFirst_cons hblank).mp h
      obtain ⟨inside, ts, rfl, hreads⟩ := reads_of_closesFirst hmore (offset + 1)
      exact ⟨c :: inside, ts, rfl, .blank hblank hreads⟩
    · by_cases hopen : Closes kind (c :: cs)
      · obtain rfl : tail = c :: cs := h.eq_of_closes hopen
        exact ⟨[], [], rfl, .nil offset⟩
      · obtain ⟨l, hread⟩ := h.exists_read (by simpa using hblank) hopen
        obtain ⟨w, rest, hraw, hcs⟩ := Lexeme.exists_of_read hread
        have hsplit : c :: cs = l.raw ++ rest := by rw [hcs, hraw, List.cons_append]
        have hlt : rest.length < (c :: cs).length := by
          simp only [hcs, List.length_cons, List.length_append]
          omega
        have hmore : ClosesFirst kind rest tail := (closesFirst_lexeme hread hsplit hopen).mp h
        obtain ⟨inside, ts, rfl, hreads⟩ :=
          reads_of_closesFirst hmore (offset + Text.byteSize l.raw)
        rw [← List.append_assoc] at hcs
        subst hcs
        exact ⟨c :: (w ++ inside), _, rfl, .lexeme hopen hread (by simp [hraw]) hreads⟩
termination_by cs => cs.length

/-! ### The region and its inside -/

/-- The inside of a region reads alone, with a blank behind it. -/
theorem Reads.scan_alone {trim : Bool} {after inside : List Char}
    (h : Reads kind (dash trim ++ kind.closer ++ after) offset inside ts) :
    ∃ us, Token.scan (String.ofList (inside ++ [' '])) = .ok us ∧
      ts = us.map (Token.shift offset) := by
  have hlexes := h.lexes
  rw [← Nat.add_zero offset] at hlexes
  obtain ⟨us, hlexes, hts⟩ := hlexes.exists_shift
  obtain ⟨m, more, hmore, hm⟩ := exists_stops kind trim
  rw [hmore, List.cons_append] at hlexes
  have hblank : Text.isAsciiBlank ' ' = true := by decide
  have hspace : Lexes [' '] 0 inside us :=
    hlexes.congr_stop hm (Lexeme.stops_of_isAsciiBlank hblank)
  have hend : Lexes [] (0 + Text.byteSize inside) [' '] [] := .blank hblank (.nil _)
  have hall : Lexes [] 0 (inside ++ [' ']) us := by simpa using hspace.append hend
  refine ⟨us, Token.scan_iff_lexes.mpr ?_, hts⟩
  rwa [String.toList_ofList]

/-- **A region is scanned as its inside is scanned alone.** -/
theorem tokens_closer_eq_ok_iff {kind : RegionKind} {missing : ScanError} (before cs : List Char)
    (r : Region) :
    tokens (.closer kind.closer missing) [] cs (Text.byteSize before) = .ok r ↔
      ∃ inside ts, cs = inside ++ (dash r.trims ++ kind.closer ++ r.rest) ∧
        r.offset = Text.byteSize (before ++ inside ++ (dash r.trims ++ kind.closer)) ∧
        ClosesFirst kind cs (dash r.trims ++ kind.closer ++ r.rest) ∧
        Token.scan (String.ofList (inside ++ [' '])) = .ok ts ∧
        r.tokens = ts.map (Token.shift (Text.byteSize before)) := by
  have hcloses : Closes kind (dash r.trims ++ kind.closer ++ r.rest) := ⟨r.trims, r.rest, rfl⟩
  constructor
  · intro h
    obtain ⟨inside, ts, hcs, hreads, htokens, hoffset⟩ := reads_of_tokens h
    obtain ⟨us, hscan, hts⟩ := hreads.scan_alone
    refine ⟨inside, us, hcs, ?_, ?_, hscan, ?_⟩
    · rw [hoffset, List.append_assoc, ← Text.byteSize_append]
    · rw [hcs]
      exact hreads.closesFirst hcloses
    · rw [htokens, hts]
      rfl
  · rintro ⟨inside, ts, hcs, hoffset, hfirst, hscan, htokens⟩
    obtain ⟨inside', ts', hcs', hreads⟩ := reads_of_closesFirst hfirst (Text.byteSize before)
    obtain rfl : inside' = inside := List.append_cancel_right (hcs'.symm.trans hcs)
    obtain ⟨us, hscan', hts⟩ := hreads.scan_alone
    rw [hscan] at hscan'
    cases hscan'
    obtain ⟨rtokens, rest, roffset, trims⟩ := r
    dsimp only at hoffset htokens hreads hcs ⊢
    rw [hcs, tokens_of_reads hreads [], hoffset, htokens, hts, List.append_assoc,
      ← Text.byteSize_append]
    rfl

end Scanner

/-- Without the blank the radix mark is a word. -/
example : Token.scan "0x" = .ok [⟨.number, "0", 0⟩, ⟨.identifier, "x", 1⟩] ∧
    Token.scan "0x " = .ok [⟨.number, "0x", 0⟩] := by decide +kernel

end Stencil
