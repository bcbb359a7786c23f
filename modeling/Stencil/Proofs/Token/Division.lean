import Stencil.Proofs.Token.Regions

/-!
# How a source is divided

A source is texts with regions between them. A `Division` lists both as they are spelled, and
`Division.Divides` says when this is how a source is divided: each opener is the first one after
the region before it, and each region ends where it first can. A source has at most one division
(`Division.Stands.unique`).

**Scanning is dividing** (`Piece.scan_eq_ok_iff`). The pieces are the texts and the regions in
their order, the texts trimmed where a region beside them has a mark on that side. The scanner
carries a request to trim from one region to the next; here it is a field of the region that asks,
and `Division.parts` looks at the two neighbours of each text.
-/

namespace Stencil

namespace Scanner

/-! ### Regions as they are spelled -/

/-- A region of a source: the marks beside its delimiters, what stands between them, and the
tokens that this makes. A comment makes none. -/
structure Delimited where
  kind : RegionKind
  opensTrim : Bool
  inside : List Char
  closesTrim : Bool
  tokens : List Token
  deriving DecidableEq

namespace Delimited

/-- The region as it is spelled. -/
def raw (d : Delimited) : List Char :=
  d.kind.opener ++ dash d.opensTrim ++ d.inside ++ dash d.closesTrim ++ d.kind.closer

/-- The piece that the region is, if it is one. -/
def piece (d : Delimited) : List Piece :=
  d.kind.piece d.tokens

/-- Where the inside begins, if the region begins at a byte. -/
def insideOffset (d : Delimited) (offset : Nat) : Nat :=
  offset + Text.byteSize (d.kind.opener ++ dash d.opensTrim)

/-- Whether a region that begins at a byte reads as it is spelled, if the text `after` follows. A
`-` that could belong to either delimiter belongs to the opener. -/
structure Stands (d : Delimited) (offset : Nat) (after : List Char) : Prop where
  opensTrim : d.opensTrim = false → (d.inside ++ dash d.closesTrim).head? ≠ some '-'
  comment : d.kind = .comment →
    ¬ d.kind.closer <:+: d.inside ++ dash d.closesTrim ∧
      (d.closesTrim = false → d.inside.getLast? ≠ some '-') ∧ d.tokens = []
  reads : d.kind ≠ .comment →
    Reads d.kind (dash d.closesTrim ++ d.kind.closer ++ after) (d.insideOffset offset) d.inside
      d.tokens

theorem byteSize_raw (d : Delimited) (offset : Nat) :
    d.insideOffset offset + Text.byteSize (d.inside ++ (dash d.closesTrim ++ d.kind.closer)) =
      offset + Text.byteSize d.raw := by
  simp [insideOffset, raw, Text.byteSize_append, Nat.add_assoc]

theorem insideOffset_eq (d : Delimited) (offset : Nat) :
    d.insideOffset offset = offset + 2 + if d.opensTrim then 1 else 0 := by
  obtain ⟨kind, opens, inside, closes, ts⟩ := d
  cases kind <;> cases opens <;> rfl

/-- A region that stands in a source is scanned as it stands. -/
theorem Stands.region {d : Delimited} {offset : Nat} {after : List Char}
    (h : d.Stands offset after) (opener : Nat) :
    Scanner.region d.kind opener (d.inside ++ (dash d.closesTrim ++ d.kind.closer ++ after))
        (d.insideOffset offset) =
      .ok (d.piece, after, offset + Text.byteSize d.raw, d.closesTrim) := by
  rw [← d.byteSize_raw]
  by_cases hkind : d.kind = .comment
  · obtain ⟨hcloser, hlast, -⟩ := h.comment hkind
    rw [piece, hkind] at *
    exact region_comment_eq_ok_iff.mpr ⟨d.inside, rfl, hcloser, hlast, rfl, rfl⟩
  · exact (region_eq_ok_iff hkind).mpr ⟨d.inside, d.tokens, rfl, h.reads hkind, rfl, rfl⟩

/-- The closing delimiter itself does not begin with a `-`. -/
theorem head?_inside (d : Delimited) {after : List Char} :
    (d.inside ++ dash d.closesTrim).head? ≠ some '-' ↔
      (d.inside ++ (dash d.closesTrim ++ d.kind.closer ++ after)).head? ≠ some '-' := by
  obtain ⟨kind, opens, inside, closes, ts⟩ := d
  cases inside with
  | cons c inside => rfl
  | nil => cases closes <;> cases kind <;> simp [dash, RegionKind.closer, RegionKind.endMark]

/-- A region that is scanned stands in the source. -/
theorem stands_of_region {kind : RegionKind} {opens closes : Bool} {opener stop : Nat}
    {cs after : List Char} {pieces : List Piece} (offset : Nat)
    (hopens : opens = false → cs.head? ≠ some '-')
    (h : Scanner.region kind opener cs (offset + 2 + if opens then 1 else 0) =
      .ok (pieces, after, stop, closes)) :
    ∃ d : Delimited, d.kind = kind ∧ d.opensTrim = opens ∧ d.closesTrim = closes ∧
      cs = d.inside ++ (dash closes ++ kind.closer ++ after) ∧ d.Stands offset after ∧
      d.piece = pieces ∧ stop = offset + Text.byteSize d.raw := by
  by_cases hkind : kind = .comment
  · subst hkind
    obtain ⟨inside, rfl, hcloser, hlast, rfl, rfl⟩ := region_comment_eq_ok_iff.mp h
    let d : Delimited := ⟨.comment, opens, inside, closes, []⟩
    refine ⟨d, rfl, rfl, rfl, rfl, ?_, rfl, ?_⟩
    · exact ⟨fun ho => d.head?_inside.mpr (hopens ho), fun _ => ⟨hcloser, hlast, rfl⟩,
        fun h => absurd rfl h⟩
    · rw [← d.byteSize_raw, d.insideOffset_eq]
  · obtain ⟨inside, ts, rfl, hreads, rfl, rfl⟩ := (region_eq_ok_iff hkind).mp h
    let d : Delimited := ⟨kind, opens, inside, closes, ts⟩
    refine ⟨d, rfl, rfl, rfl, rfl, ?_, rfl, ?_⟩
    · exact ⟨fun ho => d.head?_inside.mpr (hopens ho), fun h => absurd h hkind,
        fun _ => by rw [d.insideOffset_eq]; exact hreads⟩
    · rw [← d.byteSize_raw, d.insideOffset_eq]

theorem Stands.splitTrim_inside {d : Delimited} {offset : Nat} {after : List Char}
    (h : d.Stands offset after) :
    splitTrim (dash d.opensTrim ++ (d.inside ++ (dash d.closesTrim ++ d.kind.closer ++ after))) =
      (d.opensTrim, d.inside ++ (dash d.closesTrim ++ d.kind.closer ++ after)) :=
  splitTrim_eq_iff.mpr ⟨rfl, fun hopens => d.head?_inside.mp (h.opensTrim hopens)⟩

/-- What follows a brace tells the kind of region. -/
theorem kind_eq_of_raw {d d' : Delimited} {after after' : List Char}
    (hraw : d.raw ++ after = d'.raw ++ after') : d.kind = d'.kind := by
  have hmark : d.kind.mark = d'.kind.mark := by
    simp [raw, RegionKind.opener] at hraw
    exact hraw.1
  cases h : d.kind <;> cases h' : d'.kind <;> rw [h, h'] at hmark <;> revert hmark <;> decide

/-- A region ends in one place only. -/
theorem Stands.unique {d d' : Delimited} {offset : Nat} {after after' : List Char}
    (h : d.Stands offset after) (h' : d'.Stands offset after')
    (hraw : d.raw ++ after = d'.raw ++ after') : d = d' ∧ after = after' := by
  obtain ⟨kind, opens, inside, closes, ts⟩ := d
  obtain ⟨kind', opens', inside', closes', ts'⟩ := d'
  obtain rfl : kind = kind' := kind_eq_of_raw hraw
  have hopener : dash opens ++ (inside ++ (dash closes ++ kind.closer ++ after)) =
      dash opens' ++ (inside' ++ (dash closes' ++ kind.closer ++ after')) := by
    simpa [raw] using hraw
  have htrim := h.splitTrim_inside
  rw [hopener, h'.splitTrim_inside] at htrim
  obtain ⟨rfl, hbody⟩ := Prod.mk.inj htrim
  have hregion := h.region 0
  dsimp only at hregion hbody
  rw [← hbody] at hregion
  have hends := hregion.symm.trans (h'.region 0)
  simp only [Except.ok.injEq, Prod.mk.injEq] at hends
  obtain ⟨hpiece, rfl, -, rfl⟩ := hends
  obtain rfl : inside' = inside := List.append_cancel_right hbody
  refine ⟨?_, rfl⟩
  by_cases hkind : kind = .comment
  · exact congrArg _ ((h.comment hkind).2.2.trans (h'.comment hkind).2.2.symm)
  · exact congrArg _ (RegionKind.tokens_eq_of_piece hkind hpiece)

end Delimited

/-! ### Divisions -/

/-- A source as texts with regions between them. -/
inductive Division where
  | last (text : List Char)
  | region (text : List Char) (d : Delimited) (rest : Division)

/-- A part of a source: a text, perhaps trimmed, or a region. -/
inductive Part where
  | text (cs : List Char)
  | region (d : Delimited)

namespace Part

def raw : Part → List Char
  | .text cs => cs
  | .region d => d.raw

/-- The piece that the part is. Empty text and comments are none. -/
def piece : Part → List Piece
  | .text cs => if cs.isEmpty then [] else [.text (String.ofList cs)]
  | .region d => d.piece

end Part

/-- A text without the blanks at the ends that are to be trimmed. -/
def trimmed (atStart atEnd : Bool) (cs : List Char) : List Char :=
  let cs := if atStart then Text.trimStart cs else cs
  if atEnd then Text.trimEnd cs else cs

namespace Division

/-- The source that is divided. -/
def raw : Division → List Char
  | .last text => text
  | .region text d rest => text ++ d.raw ++ rest.raw

/-- The parts in their order, each text trimmed where the region beside it asks so. The region
before the first text is told. -/
def parts (trimStart : Bool) : Division → List Part
  | .last text => [.text (trimmed trimStart false text)]
  | .region text d rest =>
    .text (trimmed trimStart d.opensTrim text) :: .region d :: rest.parts d.closesTrim

/-- Whether each region stands where no opener comes before it, if the division begins at a
byte. -/
def Stands (offset : Nat) : Division → Prop
  | .last text => NoOpener text
  | .region text d rest =>
    NoOpener (text ++ ['{']) ∧ d.Stands (offset + Text.byteSize text) rest.raw ∧
      rest.Stands (offset + Text.byteSize (text ++ d.raw))

/-- Whether this is how a source is divided. -/
def Divides (source : List Char) (d : Division) : Prop :=
  d.raw = source ∧ d.Stands 0

/-- Whether no delimiter has a mark. -/
def Unmarked : Division → Prop
  | .last _ => True
  | .region _ d rest => d.opensTrim = false ∧ d.closesTrim = false ∧ rest.Unmarked

end Division

/-! ### Scanning is dividing -/

namespace Division

/-- How a source begins, if its division has a region. -/
theorem splitOpener_raw {text : List Char} (htext : NoOpener (text ++ ['{'])) (d : Delimited)
    (rest : Division) :
    splitOpener (Division.region text d rest).raw = (text, some (d.kind,
      dash d.opensTrim ++ (d.inside ++ (dash d.closesTrim ++ d.kind.closer ++ rest.raw)))) := by
  rw [← splitOpener_append htext]
  simp [raw, Delimited.raw]

/-- One step of the scanner: a text and a region. -/
theorem pieces_region {trimStart opens closes : Bool} {cs text inside body rest : List Char}
    {offset stop : Nat} {kind : RegionKind} {piece : List Piece}
    (hopener : splitOpener cs = (text, some (kind, inside)))
    (htrim : splitTrim inside = (opens, body))
    (hregion : Scanner.region kind (offset + Text.byteSize text) body
      (offset + Text.byteSize text + 2 + if opens then 1 else 0) =
        .ok (piece, rest, stop, closes)) :
    Scanner.pieces trimStart cs offset = (Scanner.pieces closes rest stop).map fun more =>
      Part.piece (.text (trimmed trimStart opens text)) ++ piece ++ more := by
  rw [Scanner.pieces]
  split
  next heq => cases hopener.symm.trans heq
  next text' kind' inside' heq =>
    cases hopener.symm.trans heq
    dsimp only
    split
    next fault heq =>
      rw [htrim] at heq
      cases hregion.symm.trans heq
    next heq =>
      rw [htrim] at heq ⊢
      cases hregion.symm.trans heq
      cases Scanner.pieces closes rest stop <;> rfl

/-- A division that stands is scanned. -/
theorem Stands.pieces {d : Division} {offset : Nat} (h : d.Stands offset) (trimStart : Bool) :
    Scanner.pieces trimStart d.raw offset =
      .ok ((d.parts trimStart).flatMap Part.piece) := by
  induction d generalizing offset trimStart with
  | last text =>
    have hopener := splitOpener_of_noOpener h
    rw [Scanner.pieces, raw]
    split
    next heq =>
      cases hopener.symm.trans heq
      simp [parts, Part.piece, trimmed, textPiece]
    next heq => cases hopener.symm.trans heq
  | region text d rest ih =>
    obtain ⟨htext, hd, hrest⟩ := h
    have hregion := hd.region (offset + Text.byteSize text)
    rw [d.insideOffset_eq] at hregion
    rw [pieces_region (splitOpener_raw htext d rest) hd.splitTrim_inside hregion, Nat.add_assoc,
      ← Text.byteSize_append, ih hrest]
    simp [Except.map, parts, Part.piece]

/-- A source that is scanned has a division that stands. -/
theorem exists_of_pieces {trimStart : Bool} {cs : List Char} {offset : Nat} {ps : List Piece}
    (h : Scanner.pieces trimStart cs offset = .ok ps) :
    ∃ d : Division, d.raw = cs ∧ d.Stands offset ∧
      (d.parts trimStart).flatMap Part.piece = ps := by
  fun_induction Scanner.pieces trimStart cs offset generalizing ps with
  | case1 trimStart cs offset text hopener =>
    cases h
    obtain ⟨rfl, htext⟩ := (splitOpener_spec cs).1 text hopener
    exact ⟨.last text, rfl, htext, by simp [parts, Part.piece, trimmed, textPiece]⟩
  | case2 => cases h
  | case3 => cases h
  | case4 trimStart cs offset text kind inside hopener opener trim piece rest stop trims hregion
      more hmore =>
    rename_i ih
    cases h
    obtain ⟨d', rfl, hrest, rfl⟩ := ih hmore
    obtain ⟨rfl, htext⟩ := (splitOpener_spec cs).2 text kind inside hopener
    obtain ⟨hinside, hopens⟩ := splitTrim_spec inside
    obtain ⟨d, rfl, hdopens, rfl, hbody, hd, rfl, rfl⟩ :=
      Delimited.stands_of_region (offset + Text.byteSize text) hopens hregion
    refine ⟨.region text d d', ?_, ⟨htext, hd, ?_⟩, ?_⟩
    · rw [hinside, hbody, ← hdopens]
      simp [raw, Delimited.raw]
    · rw [Text.byteSize_append, ← Nat.add_assoc]
      exact hrest
    · rw [← hdopens]
      simp [parts, Part.piece, trimmed, textPiece]

/-- **A source has at most one division.** -/
theorem Stands.unique {d d' : Division} {offset : Nat} (h : d.Stands offset)
    (h' : d'.Stands offset) (hraw : d.raw = d'.raw) : d = d' := by
  induction d generalizing d' offset with
  | last text =>
    cases d' with
    | last text' => exact congrArg _ hraw
    | region text' d' rest' =>
      have hopener := splitOpener_raw h'.1 d' rest'
      rw [← hraw, raw, splitOpener_of_noOpener h] at hopener
      cases hopener
  | region text d rest ih =>
    obtain ⟨htext, hd, hrest⟩ := h
    have hopener := splitOpener_raw htext d rest
    cases d' with
    | last text' =>
      rw [hraw, raw, splitOpener_of_noOpener h'] at hopener
      cases hopener
    | region text' d' rest' =>
      obtain ⟨htext', hd', hrest'⟩ := h'
      have hopener' := splitOpener_raw htext' d' rest'
      rw [← hraw, hopener] at hopener'
      obtain ⟨rfl, -⟩ := Prod.mk.inj hopener'
      have hrest_raw : d.raw ++ rest.raw = d'.raw ++ rest'.raw := by
        simpa [raw] using hraw
      obtain ⟨rfl, hafter⟩ := hd.unique hd' hrest_raw
      rw [ih hrest hrest' hafter]

/-- Without marks the parts are the source. -/
theorem Unmarked.flatMap_parts {d : Division} (h : d.Unmarked) :
    (d.parts false).flatMap Part.raw = d.raw := by
  induction d with
  | last text => simp [parts, trimmed, Part.raw, raw]
  | region text d rest ih =>
    obtain ⟨hopens, hcloses, hrest⟩ := h
    simp [parts, trimmed, Part.raw, raw, hopens, hcloses, ih hrest]

end Division

end Scanner

open Scanner

/-- **Scanning is dividing.** The scanner accepts a source exactly if it has a division, which is
then the only one. The pieces are the parts of the division, the empty texts and the comments
left out. If no delimiter has a mark, the parts are the source. -/
theorem Piece.scan_eq_ok_iff (source : String) (pieces : List Piece) :
    Piece.scan source = .ok pieces ↔
      ∃ d : Division, d.Divides source.toList ∧ (∀ d', d'.Divides source.toList → d' = d) ∧
        pieces = (d.parts false).flatMap Part.piece ∧
        (d.Unmarked → (d.parts false).flatMap Part.raw = source.toList) := by
  rw [Piece.scan]
  constructor
  · intro h
    split at h
    next ps hpieces =>
      cases h
      obtain ⟨d, hraw, hstands, rfl⟩ := Division.exists_of_pieces hpieces
      refine ⟨d, ⟨hraw, hstands⟩, fun d' h' => ?_, rfl, fun hunmarked => ?_⟩
      · exact h'.2.unique hstands (h'.1.trans hraw.symm)
      · exact hunmarked.flatMap_parts.trans hraw
    next => cases h
  · rintro ⟨d, ⟨hraw, hstands⟩, -, rfl, -⟩
    rw [← hraw, hstands.pieces false]

/-- The one `-` belongs to the opener. -/
example : Piece.scan "a {#-#} b" = .ok [.text "a", .text " b"] := by decide +kernel

end Stencil
