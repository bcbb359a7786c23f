import Stencil.Proofs.Expr.Placement
import Stencil.Proofs.Nesting.Plain

/-!
# Pieces that lie elsewhere

What a piece is compiled to does not depend on where its tokens lie in the source. The arguments of
every tag are read alike (`Tag.openBuiltin_eq_of_same`), and so is the end of every tag. So a
program is the same if the source of its template is moved (`Program.ofPieces_eq_of_same`), and it
cannot be compiled for the same reason.
-/

namespace Stencil

open Token

/-- Whether two pieces are the same up to where their tokens lie. -/
inductive Piece.Same : Piece → Piece → Prop
  | text (s : String) : Same (.text s) (.text s)
  | output {ts us : List Token} (h : Token.Same ts us) : Same (.output ts) (.output us)
  | tag {ts us : List Token} (h : Token.Same ts us) : Same (.tag ts) (.tag us)

theorem Piece.Same.refl (p : Piece) : p.Same p := by
  cases p with
  | text s => exact .text s
  | output ts => exact .output (.refl ts)
  | tag ts => exact .tag (.refl ts)

namespace Tag

variable {ts us : List Token}

/-! ### Arguments -/

section Arguments

variable (h : Same ts us)

include h

theorem same_needWord (word tag : String) :
    Alike Token.Same (needWord word tag ts) (needWord word tag us) := by
  rw [needWord, needWord, nextIsId_eq h]
  by_cases hword : nextIsId word ts = true
  · rw [if_pos hword, if_pos hword]
    exact .give (by rw [Token.Same, List.map_tail, List.map_tail, h])
  · rw [if_neg hword, if_neg hword]
    exact .fail _

theorem loopHead_eq : loopHead us = loopHead ts := by
  -- what follows the names, of which there are one or two
  have hiterable (key : Option String) (value : String) {ts₂ us₂ : List Token}
      (h₂ : Same ts₂ us₂) : Alike Eq
        (do return (⟨key, value, ← Expr.parse (← needWord "in" "for" ts₂)⟩ : LoopHead))
        (do return (⟨key, value, ← Expr.parse (← needWord "in" "for" us₂)⟩ : LoopHead)) := by
    refine (same_needWord h₂ "in" "for").bind fun ts₃ us₃ h₃ => ?_
    rw [Expr.parse_eq_of_same h₃]
    exact .refl _
  refine Alike.eq ((same_needId h).andThen fun first ts₁ _ us₁ _ h₁ => ?_)
  have hcomma := same_dropOp? h₁ ","
  dsimp only
  generalize dropOp? "," ts₁ = o, dropOp? "," us₁ = o' at hcomma
  cases hcomma with
  | none => exact hiterable none first h₁
  | some hpq =>
    exact (same_needId hpq.2).andThen fun second ts₂ _ us₂ _ h₂ =>
      hiterable (some first) second h₂

theorem setHead_eq : setHead us = setHead ts := by
  refine Alike.eq ((same_needId h).andThen fun name ts₁ _ us₁ _ h₁ => ?_)
  have heq := same_dropOp? h₁ "="
  dsimp only
  generalize dropOp? "=" ts₁ = o, dropOp? "=" us₁ = o' at heq
  cases heq with
  | none =>
    dsimp only
    rw [expectEnd_eq h₁]
    exact .refl _
  | some hpq =>
    dsimp only
    rw [Expr.parse_eq_of_same hpq.2]
    exact .refl _

/-- Whether two readings of something that may be absent have the same value and leave the same
tokens. -/
def Rests {α : Type} (p q : α × List Token) : Prop :=
  p.1 = q.1 ∧ Token.Same p.2 q.2

theorem same_takeIgnore : Alike Rests (takeIgnore ts) (takeIgnore us) := by
  have hignore := same_dropId? h "ignore"
  rw [takeIgnore, takeIgnore]
  generalize dropId? "ignore" ts = o, dropId? "ignore" us = o' at hignore
  cases hignore with
  | none => exact .give ⟨rfl, h⟩
  | @some p q hpq =>
    dsimp only
    rw [nextIsId_eq hpq.2]
    by_cases hmissing : nextIsId "missing" p.rest = true
    · rw [if_pos hmissing, if_pos hmissing]
      exact .give ⟨rfl, by rw [Token.Same, List.map_tail, List.map_tail, hpq.2]⟩
    · rw [if_neg hmissing, if_neg hmissing]
      exact .fail _

theorem same_takeVars : Alike Rests (takeVars ts) (takeVars us) := by
  have hwith := same_dropId? h "with"
  rw [takeVars, takeVars]
  generalize dropId? "with" ts = o, dropId? "with" us = o' at hwith
  cases hwith with
  | none => exact .give ⟨rfl, h⟩
  | some hpq =>
    exact (Expr.same_parseAt .ternary hpq.2).andThen fun vars ts₁ _ us₁ _ h₁ => .give ⟨rfl, h₁⟩

theorem embedHead_eq : embedHead us = embedHead ts := by
  refine Alike.eq ((Expr.same_parseAt .ternary h).andThen fun template ts₁ _ us₁ _ h₁ => ?_)
  refine (same_takeIgnore h₁).bind ?_
  rintro ⟨ignoreMissing, ts₂⟩ ⟨_, us₂⟩ ⟨rfl, h₂⟩
  refine (same_takeVars h₂).bind ?_
  rintro ⟨vars, ts₃⟩ ⟨_, us₃⟩ ⟨rfl, h₃⟩
  obtain ⟨hvalue, hrest⟩ := same_takeId h₃ "only"
  dsimp only
  rw [← hvalue, expectEnd_eq hrest]
  exact .refl _

theorem importHead_eq : importHead us = importHead ts := by
  refine Alike.eq ((Expr.same_parseAt .ternary h).andThen fun template ts₁ _ us₁ _ h₁ => ?_)
  refine (same_needWord h₁ "as" "import").bind fun ts₂ us₂ h₂ => ?_
  refine (same_needId h₂).andThen fun newName ts₃ _ us₃ _ h₃ => ?_
  dsimp only
  rw [expectEnd_eq h₃]
  exact .refl _

theorem same_aliased : Alike Parsed.Same (aliased ts) (aliased us) := by
  refine (same_needId h).andThen fun name ts₁ _ us₁ _ h₁ => ?_
  have has := same_dropId? h₁ "as"
  dsimp only
  generalize dropId? "as" ts₁ = o, dropId? "as" us₁ = o' at has
  cases has with
  | none => exact .give ⟨rfl, h₁⟩
  | some hpq =>
    exact (same_needId hpq.2).andThen fun newName ts₂ _ us₂ _ h₂ => .give ⟨rfl, h₂⟩

end Arguments

theorem same_aliases {ts us : List Token} (h : Same ts us) :
    Alike Rests (aliases ts) (aliases us) := by
  rw [aliases.eq_def ts, aliases.eq_def us]
  refine (same_aliased h).andThen fun first ts₁ h₁ us₁ _ hus₁ => ?_
  have hcomma := same_dropOp? hus₁ ","
  dsimp only
  generalize dropOp? "," ts₁ = o, dropOp? "," us₁ = o' at hcomma
  cases hcomma with
  | none => exact .give ⟨rfl, hus₁⟩
  | @some p q hpq =>
    obtain ⟨_, ts₂, h₂⟩ := p
    refine (same_aliases hpq.2).bind ?_
    rintro ⟨others, ts₃⟩ ⟨_, us₃⟩ ⟨rfl, h₃⟩
    exact .give ⟨rfl, h₃⟩
termination_by ts.length

theorem importNamesHead_eq (h : Same ts us) : importNamesHead us = importNamesHead ts := by
  refine Alike.eq ((Expr.same_parseAt .ternary h).andThen fun template ts₁ _ us₁ _ h₁ => ?_)
  refine (same_needWord h₁ "import" "from").bind fun ts₂ us₂ h₂ => ?_
  refine (same_aliases h₂).bind ?_
  rintro ⟨names, ts₃⟩ ⟨_, us₃⟩ ⟨rfl, h₃⟩
  dsimp only at h₃ ⊢
  rw [expectEnd_eq h₃]
  exact .refl _

theorem same_param (h : Same ts us) : Alike Parsed.Same (param ts) (param us) := by
  refine (same_needId h).andThen fun name ts₁ _ us₁ _ h₁ => ?_
  have heq := same_dropOp? h₁ "="
  dsimp only
  generalize dropOp? "=" ts₁ = o, dropOp? "=" us₁ = o' at heq
  cases heq with
  | none => exact .give ⟨rfl, h₁⟩
  | some hpq =>
    exact (Expr.same_parseAt .ternary hpq.2).andThen fun value ts₂ _ us₂ _ h₂ => .give ⟨rfl, h₂⟩

theorem same_params {ts us : List Token} (h : Same ts us) :
    Alike Rests (params ts) (params us) := by
  have hclose := same_dropOp? h ")"
  rw [params.eq_def ts, params.eq_def us]
  generalize dropOp? ")" ts = o, dropOp? ")" us = o' at hclose
  cases hclose with
  | some hpq => exact .give ⟨rfl, hpq.2⟩
  | none =>
    refine (same_param h).andThen fun first ts₁ h₁ us₁ _ hus₁ => ?_
    have hcomma := same_dropOp? hus₁ ","
    dsimp only
    generalize dropOp? "," ts₁ = o, dropOp? "," us₁ = o' at hcomma
    cases hcomma with
    | none => exact (same_needOp hus₁ ")").andThen fun _ ts₂ _ us₂ _ h₂ => .give ⟨rfl, h₂⟩
    | @some p q hpq =>
      obtain ⟨_, ts₂, h₂⟩ := p
      refine (same_params hpq.2).bind ?_
      rintro ⟨others, ts₃⟩ ⟨_, us₃⟩ ⟨rfl, h₃⟩
      exact .give ⟨rfl, h₃⟩
termination_by ts.length

theorem same_takeParams (h : Same ts us) : Alike Rests (takeParams ts) (takeParams us) := by
  have hopen := same_dropOp? h "("
  rw [takeParams, takeParams]
  generalize dropOp? "(" ts = o, dropOp? "(" us = o' at hopen
  cases hopen with
  | none => exact .give ⟨rfl, h⟩
  | some hpq => exact same_params hpq.2

theorem macroHead_eq (h : Same ts us) : macroHead us = macroHead ts := by
  refine Alike.eq ((same_needId h).andThen fun name ts₁ _ us₁ _ h₁ => ?_)
  refine (same_takeParams h₁).bind ?_
  rintro ⟨params, ts₂⟩ ⟨_, us₂⟩ ⟨rfl, h₂⟩
  dsimp only at h₂ ⊢
  rw [expectEnd_eq h₂]
  exact .refl _

theorem closingName_eq (tag : String) (h : Same ts us) (name : String) :
    closingName ⟨tag, us⟩ name = closingName ⟨tag, ts⟩ name := by
  obtain ⟨rfl, rfl⟩ | ⟨t, u, ts, us, rfl, rfl, -, htext, hrest⟩ := h.cases
  · rfl
  · simp only [closingName, htext, expectEnd_eq hrest]

/-! ### Tags -/

/-- A tag does the same wherever its arguments lie. -/
theorem openBuiltin_eq_of_same (b : BuiltinTag) (h : Same ts us) :
    openBuiltin b us = openBuiltin b ts := by
  cases b with
  | block =>
    have hname := same_needId h
    simp only [openBuiltin]
    generalize needId ts = r, needId us = r' at hname
    cases hname with
    | fail fault => rfl
    | @give p q hpq =>
      obtain ⟨name, ts₁, _⟩ := p
      obtain ⟨_, us₁, _⟩ := q
      obtain ⟨rfl, h₁⟩ := hpq
      have hempty : us₁.isEmpty = ts₁.isEmpty := by
        obtain ⟨rfl, rfl⟩ | ⟨t, u, ts₂, us₂, rfl, rfl, -⟩ := h₁.cases <;> rfl
      change (do
        Step.write (.callBlock name)
        if us₁.isEmpty then Step.openBlock name
        else Step.inBlock name do Step.write (.output (← Expr.parse us₁))) = (do
        Step.write (.callBlock name)
        if ts₁.isEmpty then Step.openBlock name
        else Step.inBlock name do Step.write (.output (← Expr.parse ts₁)))
      rw [hempty, Expr.parse_eq_of_same h₁]
  | condition => simp only [openBuiltin, Expr.parse_eq_of_same h]
  | loop => simp only [openBuiltin, loopHead_eq h]
  | set => simp only [openBuiltin, setHead_eq h]
  | extend => simp only [openBuiltin, Expr.parse_eq_of_same h]
  | embed => simp only [openBuiltin, embedHead_eq h]
  | macroDef => simp only [openBuiltin, macroHead_eq h]
  | importAs => simp only [openBuiltin, importHead_eq h]
  | importNames => simp only [openBuiltin, importNamesHead_eq h]

/-- So does the end of a tag. -/
theorem closeTag_eq_of_same (tag : OpenTag) (name : String) (h : Same ts us) :
    closeTag tag ⟨name, us⟩ = closeTag tag ⟨name, ts⟩ := by
  cases tag <;>
    simp only [closeTag, expectEnd_eq h, Expr.parse_eq_of_same h, closingName_eq name h]

/-- A terminator that is met keeps its arguments only if no tag waits for it. -/
theorem meetTerminator_of_same (name : String) (h : Same ts us) (s : State) :
    (meetTerminator ⟨name, us⟩ s).2 = (meetTerminator ⟨name, ts⟩ s).2 ∧
      (meetTerminator ⟨name, us⟩ s).1.map (Option.map Terminator.tag) =
        (meetTerminator ⟨name, ts⟩ s).1.map (Option.map Terminator.tag) := by
  obtain ⟨acc, _ | ⟨tag, o⟩⟩ := s
  · exact ⟨rfl, rfl⟩
  rw [meetTerminator_cons, meetTerminator_cons, acceptTerminator, acceptTerminator]
  by_cases hexpected : name ∈ tag.expected
  · rw [if_pos hexpected, if_pos hexpected]
    simp only [closeTag_eq_of_same tag name h, and_self]
  · rw [if_neg hexpected, if_neg hexpected]
    exact ⟨rfl, rfl⟩

/-! ### Pieces -/

theorem readPiece_of_same (tags : TagTable) {p q : Piece} (h : p.Same q) (s : State) :
    (readPiece tags q s).2 = (readPiece tags p s).2 ∧
      (readPiece tags q s).1.map (Option.map Terminator.tag) =
        (readPiece tags p s).1.map (Option.map Terminator.tag) := by
  cases h with
  | text t => exact ⟨rfl, rfl⟩
  | output h => simp only [readPiece, Expr.parse_eq_of_same h, and_self]
  | tag h =>
    obtain ⟨rfl, rfl⟩ | ⟨t, u, ts, us, rfl, rfl, hkind, htext, hrest⟩ := h.cases
    · exact ⟨rfl, rfl⟩
    by_cases hid : t.kind = .identifier
    · cases hfind : Table.find? t.text tags with
      | none => simp only [readPiece, readTag, hkind, htext, hid, hfind, and_self]
      | some handler =>
        simp only [readPiece, readTag, hkind, htext, hid, hfind]
        cases handler with
        | builtin b =>
          dsimp only
          rw [openBuiltin_eq_of_same b hrest]
          exact ⟨rfl, rfl⟩
        | terminator => exact meetTerminator_of_same t.text hrest s
        | transform change closer =>
          dsimp only
          rw [expectEnd_eq hrest]
          exact ⟨rfl, rfl⟩
        | constant text => exact ⟨rfl, rfl⟩
    · simp only [readPiece, readTag, hkind, htext, hid, ne_eq, not_false_eq_true, if_true]
      exact ⟨rfl, rfl⟩

theorem readFrom_of_same (tags : TagTable) {ps qs : List Piece}
    (h : List.Forall₂ Piece.Same ps qs) (s : State) :
    (readFrom tags s qs).acc = (readFrom tags s ps).acc ∧
      (readFrom tags s qs).result.map (fun o => o.terminator.map Terminator.tag) =
        (readFrom tags s ps).result.map fun o => o.terminator.map Terminator.tag := by
  induction h generalizing s with
  | nil => exact ⟨rfl, rfl⟩
  | @cons p q ps qs hpq _ ih =>
    obtain ⟨hstate, hresult⟩ := readPiece_of_same tags hpq s
    rw [readFrom, readFrom]
    generalize readPiece tags p s = r, readPiece tags q s = r' at hstate hresult ⊢
    obtain ⟨r, s₁⟩ := r
    obtain ⟨r', s₁'⟩ := r'
    obtain rfl : s₁' = s₁ := hstate
    -- outcomes of different kinds have no results in common
    rcases r with fault | _ | term <;> rcases r' with fault' | _ | term' <;>
      simp only [Except.map, Option.map] at hresult <;> try cases hresult
    · exact ⟨rfl, rfl⟩
    · exact ih s₁'
    · have htag : term'.tag = term.tag := Option.some.inj (Except.ok.inj hresult)
      exact ⟨rfl, congrArg (fun n => Except.ok (some n)) htag⟩

end Tag

/-- **Where a source lies does not matter**: the same pieces are compiled to the same program, or
cannot be compiled for the same reason. -/
theorem Program.ofPieces_eq_of_same (tags : TagTable) {ps qs : List Piece}
    (h : List.Forall₂ Piece.Same ps qs) : ofPieces tags qs = ofPieces tags ps := by
  obtain ⟨hacc, hresult⟩ := Tag.readFrom_of_same tags h ⟨{}, []⟩
  rw [ofPieces, ofPieces, Tag.readSequence, Tag.readSequence]
  generalize Tag.readFrom tags ⟨{}, []⟩ ps = r, Tag.readFrom tags ⟨{}, []⟩ qs = r'
    at hacc hresult ⊢
  obtain ⟨result, acc, rest⟩ := r
  obtain ⟨result', acc', rest'⟩ := r'
  obtain rfl : acc' = acc := hacc
  rcases result with fault | ⟨_ | term, _⟩ <;> rcases result' with fault' | ⟨_ | term', _⟩ <;>
    simp only [Except.map, Option.map] at hresult <;> try cases hresult
  · rfl
  · rfl
  · have htag : term'.tag = term.tag := Option.some.inj (Except.ok.inj hresult)
    exact congrArg (fun n => Except.error (GrammarFault.tagAtRoot n)) htag

end Stencil
