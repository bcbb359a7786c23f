import Stencil.Proofs.Expr.Printing
import Stencil.Proofs.Render.Growing

/-!
# Positions behind points and in brackets

An item of a list is reached by its position, which stands in brackets (`a[0][1]`) or behind a point
(`a.0 .1`). Both say the same as long as each position is a token of its own
(`Expr.value?_dotted`).

It is not if a position **touches** the one before it, with nothing but the point between them. Then
the scanner takes the two for one number, and the reader takes this for one attribute
(`Expr.attributes`), which may be the name of an entry but is no position in a list
(`Value.attr?_of_point`). So a single position behind a point needs no blanks, and of several ones
each needs a blank on one side of its point.
-/

namespace Stencil

open Scanner Token

/-! ### Parts of values -/

/-- What digits spell is the position. -/
theorem Value.readPosition?_digits (n : Nat) : readPosition? (Nat.toDigits 10 n) = some n := by
  have hplus : '+' ∉ Nat.toDigits 10 n := fun h => absurd (isDigit_of_mem_digits h) (by decide)
  have hread : Number.readNat? 10 (Nat.toDigits 10 n) = some n :=
    Number.readNat?_toDigits (by decide) n (by decide)
  rw [← hread]
  unfold readPosition?
  split
  next heq => exact absurd (heq ▸ List.mem_cons_self) hplus
  next => rfl

/-- **A position is the name of the same part**, but in a text, which has characters and no
attributes. -/
theorem Value.attr?_position {v : Value} {n : Nat} (hv : v.text? = none) (hn : n < 2 ^ 63) :
    v.attr? (toString n) = v.item? (.ofNat n) := by
  have hposition : (Int64.ofNat n).toInt = n := Int64.toInt_ofNat_of_lt hn
  cases v with
  | map entries =>
    have hdisplay : (Value.ofNat n).display = toString n := by
      rw [ofNat, display, hposition]
      rfl
    rw [attr?, item?, hdisplay]
  | list items =>
    have hitem : itemAt? items (Int64.ofNat n).toInt = items[n]? := by
      have hnonneg : ¬ (n : Int) < 0 := by omega
      rw [hposition, itemAt?, if_neg hnonneg, if_neg hnonneg, Int.toNat_natCast]
    rw [attr?, Nat.toString_eq_ofList_toDigits, String.toList_ofList, readPosition?_digits]
    exact hitem.symm
  | str s => cases hv
  | _ => rfl

/-- A number is all of digits. -/
theorem Number.isSome_digitValue? {radix before n : Nat} {cs : List Char}
    (h : readDigits radix before cs = some n) : ∀ c ∈ cs, (digitValue? radix c).isSome = true := by
  induction cs generalizing before with
  | nil => simp
  | cons c cs ih =>
    rw [readDigits, Option.bind_eq_bind, Option.bind_eq_some_iff] at h
    obtain ⟨d, hd, h⟩ := h
    rw [List.forall_mem_cons]
    exact ⟨by rw [hd]; rfl, ih h⟩

/-- What has a point is no position in a list. -/
theorem Value.attr?_of_point {key : String} (hkey : '.' ∈ key.toList) (items : List Value) :
    (Value.list items).attr? key = none := by
  have hnat {cs : List Char} (hcs : '.' ∈ cs) : Number.readNat? 10 cs = none := by
    rw [Option.eq_none_iff_forall_ne_some]
    intro n h
    cases cs with
    | nil => cases hcs
    | cons c cs => exact absurd (Number.isSome_digitValue? h '.' hcs) (by decide)
  have hposition : readPosition? key.toList = none := by
    unfold readPosition?
    split
    next cs heq =>
      rw [heq] at hkey
      exact hnat (by simpa using hkey)
    next => exact hnat hkey
  rw [attr?, hposition]
  rfl

namespace Expr

/-! ### Paths as they are spelled -/

/-- A position behind a point, with the blanks about the point. -/
structure Spot where
  before : List Char
  after : List Char
  position : Nat
  blanks : (∀ c ∈ before, Text.isAsciiBlank c = true) ∧ ∀ c ∈ after, Text.isAsciiBlank c = true
  small : position < 2 ^ 63

namespace Spot

def digits (s : Spot) : List Char :=
  Nat.toDigits 10 s.position

/-- A text behind the point of the position. -/
def around (s : Spot) (text : List Char) : List Char :=
  s.before ++ '.' :: (s.after ++ text)

/-- The position as it is spelled behind a point. -/
def dotted (s : Spot) : List Char :=
  s.around s.digits

/-- The position as it is spelled in brackets. -/
def bracketed (s : Spot) : List Char :=
  '[' :: (s.digits ++ [']'])

/-- Whether there is nothing but the point between the position and what is before it. -/
def Touches (s : Spot) : Prop :=
  s.before = [] ∧ s.after = []

instance (s : Spot) : Decidable s.Touches :=
  inferInstanceAs (Decidable (s.before = [] ∧ s.after = []))

end Spot

/-- A name with positions behind points. -/
def dotted (name : String) (spots : List Spot) : String :=
  String.ofList (name.toList ++ spots.flatMap Spot.dotted)

/-- A name with positions in brackets. -/
def bracketed (name : String) (spots : List Spot) : String :=
  String.ofList (name.toList ++ spots.flatMap Spot.bracketed)

/-- The attributes that positions behind points are read as. Two that touch are one. -/
def attributes : List Spot → List String
  | [] => []
  | [s] => [String.ofList s.digits]
  | s :: t :: spots =>
    if t.Touches then String.ofList (s.digits ++ '.' :: t.digits) :: attributes spots
    else String.ofList s.digits :: attributes (t :: spots)

/-- The expression that a name with positions behind points is read as. -/
def attrs (name : String) (spots : List Spot) : Expr :=
  (attributes spots).foldl .attr (.var name)

/-- The expression that a name with positions in brackets is read as. -/
def indexes (name : String) (spots : List Spot) : Expr :=
  spots.foldl (fun e s => .index e (.literal (.ofNat s.position))) (.var name)

/-- Whether no position touches the one before it. The first may touch the name. -/
def Apart (spots : List Spot) : Prop :=
  ∀ s ∈ spots.tail, ¬ s.Touches

theorem attributes_of_apart {spots : List Spot} (h : Apart spots) :
    attributes spots = spots.map fun s => toString s.position := by
  fun_induction attributes spots with
  | case1 => rfl
  | case2 s => rw [Spot.digits, ← Nat.toString_eq_ofList_toDigits]; rfl
  | case3 s t spots ht => exact absurd ht (h t (by simp))
  | case4 s t spots ht ih =>
    have htail : Apart (t :: spots) := fun u hu => h u (by simp_all)
    rw [ih htail, List.map_cons, Spot.digits, Nat.toString_eq_ofList_toDigits]
    rfl

/-! ### Paths as they are read -/

section Reading

variable {cs tail text before after : List Char} {e : Expr} {name : String} {s : Spot}
  {spots : List Spot}

theorem Spot.isDigit_of_mem {c : Char} (hc : c ∈ s.digits) : c.isDigit = true :=
  isDigit_of_mem_digits hc

theorem Spot.digits_ne_nil : s.digits ≠ [] :=
  Nat.toDigits_ne_nil

/-- No word and no number goes on with a point or a blank. -/
theorem not_isWordChar_head?_dotted :
    ∀ c ∈ (spots.flatMap Spot.dotted).head?, Lexeme.isWordChar c = false := by
  intro c hc
  cases spots with
  | nil => cases hc
  | cons s spots =>
    rw [List.flatMap_cons, Spot.dotted, Spot.around] at hc
    cases hbefore : s.before with
    | nil =>
      obtain rfl : '.' = c := by simpa [hbefore] using hc
      decide
    | cons b bs =>
      obtain rfl : b = c := by simpa [hbefore] using hc
      exact (Lexeme.stops_of_isAsciiBlank (s.blanks.1 b (by simp [hbefore]))).word

/-- A number does not go on with a position that does not touch it. -/
theorem separates_dotted (hs : ¬ s.Touches) (tail : List Char) :
    Separates (s.dotted ++ tail) := by
  rw [Spot.dotted, Spot.around]
  cases hbefore : s.before with
  | cons b bs =>
    have hstops := Lexeme.stops_of_isAsciiBlank (s.blanks.1 b (by simp [hbefore]))
    exact separates_cons ⟨hstops.word, hstops.point⟩ _
  | nil =>
    cases hafter : s.after with
    | nil => exact absurd ⟨hbefore, hafter⟩ hs
    | cons b bs =>
      have hstops := Lexeme.stops_of_isAsciiBlank (s.blanks.2 b (by simp [hafter]))
      exact ⟨by simp [Lexeme.isWordChar], by simp [Lexeme.fraction, hstops.digit]⟩

/-- An attribute that begins with a digit, behind a point. -/
theorem scans_attr (hne : text ≠ []) (htext : ∀ c ∈ text.head?, c.isDigit = true)
    (h : Scans (s.around text ++ tail) cs (Spelled .suffixed e))
    (hname : Scans tail text (One .number name)) :
    Scans tail (cs ++ s.around text) (Spelled .suffixed (.attr e name)) := by
  have hnext : ∀ d ∈ (s.after ++ text ++ tail).head?, ('.', d) ∉ Lexeme.longOperators := by
    intro d hd hlong
    obtain rfl : d = '.' := by simpa [Lexeme.longOperators] using hlong
    cases hafter : s.after with
    | cons b bs =>
      obtain rfl : b = '.' := by simpa [hafter] using hd
      exact absurd (s.blanks.2 '.' (by simp [hafter])) (by decide)
    | nil =>
      obtain ⟨c, text, rfl⟩ := List.exists_cons_of_ne_nil hne
      obtain rfl : c = '.' := by simpa [hafter] using hd
      exact absurd (htext '.' rfl) (by decide)
  refine (h.append (.blanks s.blanks.1 (.led (by decide) hnext (.blanks s.blanks.2 hname)))).mono ?_
  rintro _ ⟨ts, _, rfl, hspelled, t, _, rfl, ht, n, rfl, hn⟩
  obtain ⟨hkind, rfl⟩ := of_symbol hn
  exact .attr hspelled ht (.inr hkind)

/-- A position that is a token of its own. -/
theorem scans_digits (h : Scans (s.dotted ++ tail) cs (Spelled .suffixed e))
    (htail : Separates tail) :
    Scans tail (cs ++ s.dotted) (Spelled .suffixed (.attr e (String.ofList s.digits))) :=
  scans_attr s.digits_ne_nil (fun _ hc => s.isDigit_of_mem (List.mem_of_mem_head? hc)) h
    (Prints.digits s.digits_ne_nil (fun _ => s.isDigit_of_mem) tail htail)

/-- Two positions that are one token. -/
theorem scans_joined {t : Spot} (ht : t.Touches)
    (h : Scans (s.dotted ++ (t.dotted ++ tail)) cs (Spelled .suffixed e))
    (htail : ∀ c ∈ tail.head?, Lexeme.isWordChar c = false) :
    Scans tail (cs ++ (s.dotted ++ t.dotted))
      (Spelled .suffixed (.attr e (String.ofList (s.digits ++ '.' :: t.digits)))) := by
  have hspelled : s.dotted ++ t.dotted = s.around (s.digits ++ '.' :: t.digits) := by
    simp [Spot.dotted, Spot.around, ht.1, ht.2]
  have hfraction : Lexeme.fraction ('.' :: t.digits ++ tail) = '.' :: t.digits :=
    Lexeme.fraction_digits_append t.digits_ne_nil (fun _ => t.isDigit_of_mem)
      fun c hc => Lexeme.isDigit_of_not_isWordChar (htail c hc)
  have hnumber : Lexeme.number (s.digits ++ '.' :: t.digits ++ tail) =
      s.digits ++ '.' :: t.digits := by
    rw [List.append_assoc, Lexeme.number_digits_append s.digits_ne_nil (fun _ => s.isDigit_of_mem)
      (by simp [Lexeme.isWordChar]), hfraction]
  have hhead : ∀ c ∈ (s.digits ++ '.' :: t.digits).head?, c.isDigit = true := by
    intro c hc
    rw [List.head?_append_of_ne_nil _ s.digits_ne_nil] at hc
    exact s.isDigit_of_mem (List.mem_of_mem_head? hc)
  rw [← List.append_assoc, hspelled] at h
  rw [hspelled]
  exact scans_attr (by simp) hhead h (.number (by simp) hhead hnumber)

/-- **Positions behind points are read as attributes.** -/
theorem scans_dotted (h : Scans (spots.flatMap Spot.dotted) cs (Spelled .suffixed e)) :
    Scans [] (cs ++ spots.flatMap Spot.dotted)
      (Spelled .suffixed ((attributes spots).foldl .attr e)) := by
  fun_induction attributes spots generalizing cs e with
  | case1 => simpa using h
  | case2 s => simpa using scans_digits h separates_nil
  | case3 s t spots ht ih =>
    have hrest := ih (scans_joined ht h not_isWordChar_head?_dotted)
    simpa using hrest
  | case4 s t spots ht ih =>
    have hrest := ih (scans_digits h (separates_dotted ht _))
    simpa using hrest

/-- A position in brackets. -/
theorem scans_index (h : Scans (s.bracketed ++ tail) cs (Spelled .suffixed e)) :
    Scans tail (cs ++ s.bracketed)
      (Spelled .suffixed (.index e (.literal (.ofNat s.position)))) := by
  have hposition : (Int64.ofNat s.position).toInt = s.position := Int64.toInt_ofNat_of_lt s.small
  have hliteral : literal? (String.ofList s.digits) = .ok (.ofNat s.position) := by
    have hread := literal?_digits (n := .ofNat s.position)
      (Int64.le_iff_toInt_le.mpr (hposition ▸ Int.natCast_nonneg _))
    rwa [hposition, Int.toNat_natCast, Nat.toString_eq_ofList_toDigits] at hread
  have hdigits : Prints s.digits (One .number (String.ofList s.digits)) :=
    .digits s.digits_ne_nil fun _ => s.isDigit_of_mem
  refine (h.append (.enclosed (by decide) hdigits)).mono ?_
  rintro _ ⟨ts, _, rfl, hspelled, t, _, u, rfl, ht, ⟨n, rfl, hn⟩, hu⟩
  obtain ⟨hkind, htext⟩ := of_symbol hn
  have hnumber : Spelled .primary (.literal (.ofNat s.position)) [n] :=
    .number hkind (htext ▸ hliteral)
  exact .index hspelled ht (hnumber.mono (Nat.zero_le _)) hu

/-- Positions in brackets are read as indexes. -/
theorem scans_bracketed (h : Scans (spots.flatMap Spot.bracketed) cs (Spelled .suffixed e)) :
    Scans [] (cs ++ spots.flatMap Spot.bracketed)
      (Spelled .suffixed (spots.foldl (fun e s => .index e (.literal (.ofNat s.position))) e)) := by
  induction spots generalizing cs e with
  | nil => simpa using h
  | cons s spots ih =>
    have hrest := ih (scans_index h)
    simpa using hrest

/-- A name stands for itself before what is no part of it. -/
theorem scans_name (hname : IsName name) (hreserved : name ∉ reservedWords)
    (htail : ∀ c ∈ tail.head?, Lexeme.isWordChar c = false) :
    Scans tail name.toList (Spelled .suffixed (.var name)) := by
  refine (Scans.word hname htail).mono ?_
  rintro _ ⟨t, rfl, ht⟩
  obtain ⟨hkind, rfl⟩ := of_symbol ht
  have hspelled := Spelled.word hkind fun hnot => hreserved (by simp [hnot, reservedWords])
  rw [ofWord_of_not_reserved hreserved] at hspelled
  exact hspelled.mono (by decide)

/-- What is scanned to an expression is read as that. -/
theorem exists_parse (h : Scans [] cs (Spelled .suffixed e)) :
    ∃ ts, Token.scan (String.ofList cs) = .ok ts ∧ parse ts = .ok e := by
  obtain ⟨ts, hts, hspelled⟩ := h 0
  have hternary : Spelled .ternary e ts := hspelled.mono (by decide)
  exact ⟨ts, scan_iff_lexes.mpr (by rwa [String.toList_ofList]), hternary.parse⟩

theorem parse_dotted (hname : IsName name) (hreserved : name ∉ reservedWords)
    (spots : List Spot) :
    ∃ ts, Token.scan (dotted name spots) = .ok ts ∧ parse ts = .ok (attrs name spots) :=
  exists_parse (scans_dotted (scans_name hname hreserved not_isWordChar_head?_dotted))

theorem parse_bracketed (hname : IsName name) (hreserved : name ∉ reservedWords)
    (spots : List Spot) :
    ∃ ts, Token.scan (bracketed name spots) = .ok ts ∧ parse ts = .ok (indexes name spots) := by
  have hhead : ∀ c ∈ (spots.flatMap Spot.bracketed).head?, Lexeme.isWordChar c = false := by
    intro c hc
    cases spots with
    | nil => cases hc
    | cons s spots =>
      cases hc
      decide
  exact exists_parse (scans_bracketed (scans_name hname hreserved hhead))

end Reading

/-! ### Paths and their values -/

section Evaluation

variable {engine : Engine} {below : Below} {c : Context} {e : Expr} {v : Option Value}

/-- Attributes are taken one after the other. -/
theorem value?_foldl_attr (h : value? engine below e c = (.ok v, c)) (names : List String) :
    value? engine below (names.foldl .attr e) c =
      (.ok (names.foldl (fun v name => v.bind fun v => v.attr? name) v), c) := by
  induction names generalizing e v with
  | nil => exact h
  | cons name names ih =>
    refine ih ?_
    rw [value?, Action.bind_apply, h]
    rfl

/-- So are indexes. -/
theorem value?_foldl_index (h : value? engine below e c = (.ok v, c)) (spots : List Spot) :
    value? engine below
        (spots.foldl (fun e s => .index e (.literal (.ofNat s.position))) e) c =
      (.ok (spots.foldl (fun v s => v.bind fun v => v.item? (.ofNat s.position)) v), c) := by
  induction spots generalizing e v with
  | nil => exact h
  | cons s spots ih =>
    refine ih ?_
    rw [value?, Action.bind_apply, h]
    rfl

/-- Whether no text is on the way along the positions, apart from their end. A text has characters
at positions but no attributes; of all other values only lists and maps have either. -/
def PassesNoText : Option Value → List Spot → Prop
  | some v, s :: spots => v.text? = none ∧ PassesNoText (v.item? (.ofNat s.position)) spots
  | _, _ => True

theorem foldl_attr?_eq_foldl_item? {spots : List Spot} (h : PassesNoText v spots) :
    (spots.map fun s => toString s.position).foldl (fun v name => v.bind fun v => v.attr? name) v =
      spots.foldl (fun v s => v.bind fun v => v.item? (.ofNat s.position)) v := by
  induction spots generalizing v with
  | nil => rfl
  | cons s spots ih =>
    rw [List.map_cons, List.foldl_cons, List.foldl_cons]
    cases v with
    | none => exact ih (by simp [PassesNoText])
    | some v =>
      rw [Option.bind_some, Option.bind_some, Value.attr?_position h.1 s.small]
      exact ih h.2

/-- **A chain of positions is a nested access, behind points as in brackets.** Both are read,
whatever blanks there are about the points. They have the same value, or both have none, if no
position touches the one before it. -/
theorem value?_dotted {name : String} (hname : IsName name) (hreserved : name ∉ reservedWords)
    (spots : List Spot) :
    (∃ ts, Token.scan (dotted name spots) = .ok ts ∧ parse ts = .ok (attrs name spots)) ∧
    (∃ ts, Token.scan (bracketed name spots) = .ok ts ∧ parse ts = .ok (indexes name spots)) ∧
    (Apart spots → ∀ (engine : Engine) (below : Below) (c : Context),
      PassesNoText (c.scope.lookup? name) spots →
        value? engine below (attrs name spots) c = value? engine below (indexes name spots) c) := by
  refine ⟨parse_dotted hname hreserved spots, parse_bracketed hname hreserved spots, ?_⟩
  intro hapart engine below c hpasses
  have hvar : value? engine below (.var name) c = (.ok (c.scope.lookup? name), c) := rfl
  rw [attrs, attributes_of_apart hapart, value?_foldl_attr hvar, foldl_attr?_eq_foldl_item? hpasses,
    indexes, value?_foldl_index hvar]

/-- A list in a list, under the name `a`. -/
def nested : Context :=
  { scope := { root := [("a", .list [.list [.int 1, .int 2]])] } }

/-- The positions `.0 .1`, with a blank between them. -/
def spaced : List Spot :=
  [⟨[], [], 0, by simp, by decide⟩, ⟨[' '], [], 1, by simp [Text.isAsciiBlank], by decide⟩]

/-- The positions `.0.1`, which touch. -/
def touching : List Spot :=
  [⟨[], [], 0, by simp, by decide⟩, ⟨[], [], 1, by simp, by decide⟩]

/-- A blank is enough to keep positions apart. -/
theorem value?_dotted_spaced :
    ∃ ts us x y, Token.scan "a.0 .1" = .ok ts ∧ parse ts = .ok x ∧
      Token.scan "a[0][1]" = .ok us ∧ parse us = .ok y ∧
      value? {} none x nested = (.ok (some (.int 2)), nested) ∧
      value? {} none y nested = (.ok (some (.int 2)), nested) := by
  have hdotted : dotted "a" spaced = "a.0 .1" := by decide
  have hbracketed : bracketed "a" spaced = "a[0][1]" := by decide
  obtain ⟨⟨ts, hts, hx⟩, ⟨us, hus, hy⟩, hvalue⟩ := value?_dotted (by decide)
    (by decide : "a" ∉ reservedWords) spaced
  have hpasses : PassesNoText (nested.scope.lookup? "a") spaced := ⟨rfl, rfl, trivial⟩
  have hitem : value? {} none (indexes "a" spaced) nested = (.ok (some (.int 2)), nested) := rfl
  have hattr := (hvalue (by simp [Apart, spaced, Spot.Touches]) {} none nested hpasses).trans hitem
  rw [hdotted] at hts
  rw [hbracketed] at hus
  exact ⟨ts, us, _, _, hts, hx, hus, hy, hattr, hitem⟩

/-- In a list there is nothing under two positions that touch. -/
theorem value?_of_touches {name : String} {s t : Spot} {spots : List Spot} {items : List Value}
    (ht : t.Touches) (hlist : c.scope.lookup? name = some (.list items)) :
    value? engine below (attrs name (s :: t :: spots)) c = (.ok none, c) := by
  have hvar : value? engine below (.var name) c = (.ok (some (.list items)), c) := hlist ▸ rfl
  have hpoint : '.' ∈ (String.ofList (s.digits ++ '.' :: t.digits)).toList := by
    rw [String.toList_ofList]
    simp
  have hnone (names : List String) :
      names.foldl (fun v name => v.bind fun v => v.attr? name) none = (none : Option Value) := by
    induction names with
    | nil => rfl
    | cons name names ih => exact ih
  rw [attrs, attributes, if_pos ht, value?_foldl_attr hvar, List.foldl_cons, Option.bind_some,
    Value.attr?_of_point hpoint, hnone]

/-- **Without any blanks a chain is not a nested access.** -/
theorem not_value?_dotted_touching :
    ∃ ts us x y, Token.scan "a.0.1" = .ok ts ∧ parse ts = .ok x ∧
      Token.scan "a[0][1]" = .ok us ∧ parse us = .ok y ∧
      PassesNoText (nested.scope.lookup? "a") touching ∧
      value? {} none x nested = (.ok none, nested) ∧
      value? {} none y nested = (.ok (some (.int 2)), nested) := by
  have hdotted : dotted "a" touching = "a.0.1" := by decide
  have hbracketed : bracketed "a" touching = "a[0][1]" := by decide
  have hname : IsName "a" ∧ "a" ∉ reservedWords := by decide
  obtain ⟨ts, hts, hx⟩ := parse_dotted hname.1 hname.2 touching
  obtain ⟨us, hus, hy⟩ := parse_bracketed hname.1 hname.2 touching
  rw [hdotted] at hts
  rw [hbracketed] at hus
  exact ⟨ts, us, _, _, hts, hx, hus, hy, ⟨rfl, rfl, trivial⟩, value?_of_touches ⟨rfl, rfl⟩ rfl, rfl⟩

end Evaluation

end Expr

end Stencil
