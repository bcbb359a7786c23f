import Stencil.Proofs.Nesting.Placement
import Stencil.Proofs.Token.Following
import Stencil.Proofs.Token.Quoting

/-!
# What stands elsewhere in a source

Two sources may differ in the middle. Then the scanner reads the same up to there, because no
region looks beyond its own closing delimiter (`Scanner.Delimited.Stands.congr_after`), and from
there on it reads the same again, though at other bytes (`Scanner.pieces_alike`).

A `Front` is what has been read up to some place: regions, each with the text before it.
`Scanner.Front.Stands.scan` cuts the scanning of a source at such a place.
-/

namespace Stencil

namespace Scanner

/-! ### Regions -/

variable {kind : RegionKind} {trim : Bool} {after after' : List Char}

/-- Whether a region closes is told by the delimiter and what is before it. -/
theorem closes_congr_after {c : Char} (cs : List Char) :
    Closes kind (c :: cs ++ (dash trim ++ kind.closer ++ after)) ↔
      Closes kind (c :: cs ++ (dash trim ++ kind.closer ++ after')) := by
  have hlength (mark : Bool) :
      (dash mark ++ kind.closer).length ≤ (c :: cs ++ (dash trim ++ kind.closer)).length := by
    cases mark <;> cases trim <;> simp [dash, RegionKind.closer]
  have hsplit (more : List Char) : c :: cs ++ (dash trim ++ kind.closer ++ more) =
      (c :: cs ++ (dash trim ++ kind.closer)) ++ more := by simp
  refine exists_congr fun mark => ?_
  rw [hsplit, hsplit, List.isPrefix_append_of_length (hlength mark),
    List.isPrefix_append_of_length (hlength mark)]

/-- So is how the inside of a region reads. -/
theorem Reads.congr_after {offset : Nat} {inside : List Char} {ts : List Token}
    (h : Reads kind (dash trim ++ kind.closer ++ after) offset inside ts) (after' : List Char) :
    Reads kind (dash trim ++ kind.closer ++ after') offset inside ts := by
  induction h with
  | nil offset => exact .nil offset
  | blank hc _ ih => exact .blank hc ih
  | @lexeme offset c cs rest ts l hopen hread hraw _ ih =>
    refine .lexeme (mt (closes_congr_after cs).mp hopen) ?_ hraw ih
    obtain ⟨m, more, hmore, hm⟩ := exists_stops kind trim
    rw [hmore, List.cons_append] at hread ⊢
    exact Lexeme.read_append hm hm hread ⟨rest, hraw.symm⟩ _

/-- **A region does not look beyond its closing delimiter.** -/
theorem Delimited.Stands.congr_after {d : Delimited} {offset : Nat} (h : d.Stands offset after)
    (after' : List Char) : d.Stands offset after' :=
  { h with reads := fun hkind => (h.reads hkind).congr_after after' }

/-! ### Bytes -/

/-- Whether two scans fail with the same fault, at different bytes perhaps, or give related
results. -/
inductive Alike {α : Type} (S : α → α → Prop) : Except ScanError α → Except ScanError α → Prop
  | fail (fault : ScanFault) (offset offset' : Nat) :
    Alike S (.error ⟨fault, offset⟩) (.error ⟨fault, offset'⟩)
  | give {x y : α} (h : S x y) : Alike S (.ok x) (.ok y)

/-- Whether two insides are the same up to the bytes where they lie. -/
structure Region.Same (r r' : Region) : Prop where
  tokens : Token.Same r.tokens r'.tokens
  rest : r'.rest = r.rest
  trims : r'.trims = r.trims

theorem tokens_alike (delimiter : List Char) (fault : ScanFault) (opener opener' : Nat)
    {before before' : List Token} (hbefore : Token.Same before before') (cs : List Char)
    (offset offset' : Nat) :
    Alike Region.Same (tokens (.closer delimiter ⟨fault, opener⟩) before cs offset)
      (tokens (.closer delimiter ⟨fault, opener'⟩) before' cs offset') := by
  have hcloses (c : Char) (cs : List Char) :
      tokens.closes? (.closer delimiter ⟨fault, opener'⟩) c cs =
        tokens.closes? (.closer delimiter ⟨fault, opener⟩) c cs := rfl
  fun_induction tokens (.closer delimiter ⟨fault, opener⟩) before cs offset
    generalizing before' offset' with
  | case1 before offset hsource => cases hsource
  | case2 before offset delimiter' missing hending =>
    cases hending
    rw [tokens]
    exact .fail fault opener opener'
  | case3 before offset c rest hc ih =>
    rw [tokens, if_pos hc]
    exact ih hbefore _
  | case4 before offset c rest hc after size trims h =>
    rw [tokens, if_neg hc, hcloses, h]
    have hreverse : Token.Same before.reverse before'.reverse := by
      rw [Token.Same, List.map_reverse, List.map_reverse, hbefore]
    exact .give ⟨hreverse, rfl, rfl⟩
  | case5 before offset c rest hc h f hread =>
    rw [tokens, if_neg hc, hcloses, h]
    dsimp only
    split
    next f' hread' =>
      cases hread.symm.trans hread'
      exact .fail f offset offset'
    next l hread' => cases hread.symm.trans hread'
  | case6 before offset c rest hc h l hread token =>
    rename_i ih
    rw [tokens_lexeme ((hcloses c rest).trans h) hread]
    have hmore : Token.Same (token :: before)
        (⟨l.kind, String.ofList l.text, offset'⟩ :: before') :=
      Token.same_cons.mpr ⟨⟨rfl, rfl⟩, hbefore⟩
    exact ih hmore _

/-- Whether two regions are the same up to the bytes where they lie. -/
structure RegionSame (r r' : List Piece × List Char × Nat × Bool) : Prop where
  pieces : List.Forall₂ Piece.Same r.1 r'.1
  rest : r'.2.1 = r.2.1
  trims : r'.2.2.2 = r.2.2.2

theorem region_alike (kind : RegionKind) (opener opener' : Nat) (cs : List Char)
    (offset offset' : Nat) :
    Alike RegionSame (region kind opener cs offset) (region kind opener' cs offset') := by
  cases kind with
  | comment =>
    rw [region, region]
    cases splitComment? cs with
    | none => exact .fail _ opener opener'
    | some r => exact .give ⟨.nil, rfl, rfl⟩
  | output =>
    have hr := tokens_alike ['}', '}'] .unterminatedExpression opener opener' (.refl []) cs offset
      offset'
    rw [region, region]
    generalize tokens _ [] cs offset = r, tokens _ [] cs offset' = r' at hr ⊢
    cases hr with
    | fail fault o o' => exact .fail fault o o'
    | give hr => exact .give ⟨.cons (.output hr.tokens) .nil, hr.rest, hr.trims⟩
  | tag =>
    have hr := tokens_alike ['%', '}'] .unterminatedBlock opener opener' (.refl []) cs offset
      offset'
    rw [region, region]
    generalize tokens _ [] cs offset = r, tokens _ [] cs offset' = r' at hr ⊢
    cases hr with
    | fail fault o o' => exact .fail fault o o'
    | give hr => exact .give ⟨.cons (.tag hr.tokens) .nil, hr.rest, hr.trims⟩

/-- A source without a region is a text. -/
theorem pieces_of_noRegion {cs text : List Char} (hopener : splitOpener cs = (text, none))
    (trimStart : Bool) (offset : Nat) :
    pieces trimStart cs offset = .ok (textPiece trimStart false text) := by
  rw [pieces]
  split
  next heq =>
    cases hopener.symm.trans heq
    rfl
  next heq => cases hopener.symm.trans heq

/-- A source with a region is what the region is and then what follows it. -/
theorem pieces_of_opener {cs text inside : List Char} {kind : RegionKind}
    (hopener : splitOpener cs = (text, some (kind, inside))) (trimStart : Bool) (offset : Nat) :
    pieces trimStart cs offset =
      (region kind (offset + Text.byteSize text) (splitTrim inside).2
          (offset + Text.byteSize text + 2 + if (splitTrim inside).1 then 1 else 0)).bind fun r =>
        (pieces r.2.2.2 r.2.1 r.2.2.1).map
          (textPiece trimStart (splitTrim inside).1 text ++ r.1 ++ ·) := by
  rw [pieces]
  split
  next heq => cases hopener.symm.trans heq
  next heq =>
    cases hopener.symm.trans heq
    dsimp only
    split
    next f hregion => rw [hregion, Except.bind]
    next hregion =>
      rw [hregion, Except.bind]
      generalize pieces _ _ _ = r
      cases r <;> rfl

/-- **Where a source lies does not matter to the scanner**, but for the bytes that it reports. -/
theorem pieces_alike (trimStart : Bool) (cs : List Char) (offset offset' : Nat) :
    Alike (List.Forall₂ Piece.Same) (pieces trimStart cs offset) (pieces trimStart cs offset') := by
  have hrefl (ps : List Piece) : List.Forall₂ Piece.Same ps ps :=
    List.forall₂_same.mpr fun p _ => .refl p
  rcases hopener : splitOpener cs with ⟨text, _ | ⟨kind, inside⟩⟩
  · rw [pieces_of_noRegion hopener, pieces_of_noRegion hopener]
    exact .give (hrefl _)
  · rw [pieces_of_opener hopener, pieces_of_opener hopener]
    have hregion := region_alike kind (offset + Text.byteSize text) (offset' + Text.byteSize text)
      (splitTrim inside).2 (offset + Text.byteSize text + 2 + if (splitTrim inside).1 then 1 else 0)
      (offset' + Text.byteSize text + 2 + if (splitTrim inside).1 then 1 else 0)
    generalize hr : region _ _ _ (offset + _ + 2 + _) = r,
      region _ _ _ (offset' + _ + 2 + _) = r' at hregion ⊢
    cases hregion with
    | fail fault o o' => exact .fail fault o o'
    | @give x y h =>
      obtain ⟨ps, rest, stop, trims⟩ := x
      obtain ⟨ps', rest', stop', trims'⟩ := y
      obtain ⟨hps, hrest, htrims⟩ := h
      dsimp only at hps hrest htrims
      subst hrest htrims
      -- a region takes characters, so the recursion goes on with a shorter source
      have hshorter : rest'.length < cs.length := by
        have hsplit := length_splitOpener hopener
        have htrim := length_splitTrim inside
        have hrest := length_region hr
        dsimp only at hrest
        omega
      have hmore := pieces_alike trims' rest' stop stop'
      dsimp only [Except.bind]
      generalize pieces trims' rest' stop = r, pieces trims' rest' stop' = r' at hmore ⊢
      cases hmore with
      | fail fault o o' => exact .fail fault o o'
      | give hmore => exact .give (List.rel_append (List.rel_append (hrefl _) hps) hmore)
termination_by cs.length

/-! ### Fronts -/

/-- The front of a source: regions, each with the text before it. -/
abbrev Front := List (List Char × Delimited)

namespace Front

/-- The front as it is spelled. -/
def raw : Front → List Char
  | [] => []
  | (text, d) :: front => text ++ d.raw ++ raw front

/-- Whether each region stands where no opener comes before it, if the front begins at a byte.
What follows the front is of no account. -/
def Stands (offset : Nat) : Front → Prop
  | [] => True
  | (text, d) :: front =>
    NoOpener (text ++ ['{']) ∧ d.Stands (offset + Text.byteSize text) [] ∧
      Stands (offset + Text.byteSize (text ++ d.raw)) front

/-- The pieces of the front. Its first text is trimmed if the region before it asks so. -/
def pieces (trimStart : Bool) : Front → List Piece
  | [] => []
  | (text, d) :: front =>
    Part.piece (.text (trimmed trimStart d.opensTrim text)) ++ d.piece ++
      pieces d.closesTrim front

/-- Whether the text behind the front is trimmed. -/
def trims (trimStart : Bool) : Front → Bool
  | [] => trimStart
  | (_, d) :: front => trims d.closesTrim front

variable {front : Front}

theorem raw_append (front more : Front) : raw (front ++ more) = raw front ++ raw more := by
  induction front with
  | nil => rfl
  | cons r front ih => simp [raw, ih]

theorem stands_append {offset : Nat} {more : Front} :
    Stands offset (front ++ more) ↔
      Stands offset front ∧ Stands (offset + Text.byteSize (raw front)) more := by
  induction front generalizing offset with
  | nil => simp [Stands, raw, Text.byteSize]
  | cons r front ih => simp [Stands, raw, ih, Text.byteSize_append, Nat.add_assoc, and_assoc]

theorem pieces_append (trimStart : Bool) (front more : Front) :
    pieces trimStart (front ++ more) =
      pieces trimStart front ++ pieces (trims trimStart front) more := by
  induction front generalizing trimStart with
  | nil => rfl
  | cons r front ih => simp [pieces, trims, ih]

theorem trims_append (trimStart : Bool) (front more : Front) :
    trims trimStart (front ++ more) = trims (trims trimStart front) more := by
  induction front generalizing trimStart with
  | nil => rfl
  | cons r front ih => exact ih r.2.closesTrim

/-- **The scanner has read the front when it comes to what follows it.** -/
theorem Stands.scan {offset : Nat} (h : Stands offset front) (trimStart : Bool)
    (after : List Char) :
    Scanner.pieces trimStart (raw front ++ after) offset =
      (Scanner.pieces (trims trimStart front) after (offset + Text.byteSize (raw front))).map
        (pieces trimStart front ++ ·) := by
  induction front generalizing offset trimStart with
  | nil =>
    simp only [raw, pieces, trims, List.nil_append, Text.byteSize, Nat.add_zero]
    generalize Scanner.pieces trimStart after offset = r
    cases r <;> rfl
  | cons r front ih =>
    obtain ⟨text, d⟩ := r
    obtain ⟨htext, hd, hfront⟩ := h
    -- the region was told with nothing behind it
    have hd := hd.congr_after (raw front ++ after)
    have hopener : splitOpener (raw ((text, d) :: front) ++ after) = (text, some (d.kind,
        dash d.opensTrim ++
          (d.inside ++ (dash d.closesTrim ++ d.kind.closer ++ (raw front ++ after))))) := by
      rw [← splitOpener_append htext]
      simp [raw, Delimited.raw]
    have hregion := hd.region (offset + Text.byteSize text)
    rw [d.insideOffset_eq] at hregion
    rw [Division.pieces_region hopener hd.splitTrim_inside hregion, Nat.add_assoc,
      ← Text.byteSize_append, ih hfront]
    simp only [trims, pieces, raw, Text.byteSize_append, Nat.add_assoc]
    generalize Scanner.pieces _ after _ = r
    cases r <;> simp [Except.map]

end Front

end Scanner

end Stencil
