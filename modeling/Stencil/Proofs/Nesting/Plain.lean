import Stencil.Proofs.Nesting.Steps

/-!
# Pieces that are no terminators

A piece is read in one of two ways. A terminator looks at the open tags, and what it does depends on
whether there is one. Every other piece is read by a **plain** step, which is put together from a few
that never look at the state: they read tokens, write, and open tags
(`Tag.readPiece_terminator_or_plain`). The end of a tag is plain too once its place has been left
(`Tag.closeTag_eq_leave_bind`). So what is to be shown of all steps is shown by induction over plain
ones and for the two that are not.
-/

namespace Stencil.Tag

/-- A step that reads tokens, writes and opens tags without looking at the state. -/
inductive Step.Plain : {α : Type} → Step α → Prop
  | pure {α : Type} (a : α) : Plain (Pure.pure a : Step α)
  | lift {α : Type} (x : Except GrammarFault α) : Plain (liftM x : Step α)
  | bind {α β : Type} {x : Step α} {f : α → Step β} (first : Plain x)
    (rest : ∀ a, Plain (f a)) : Plain (x >>= f)
  | write (i : Instr) : Plain (Step.write i)
  | openCapture (tag : OpenTag) : Plain (Step.openCapture tag)
  | openBlock (name : String) : Plain (Step.openBlock name)
  | openMacro (name : String) : Plain (Step.openMacro name)
  | setParams (name : String) (params : Params) :
    Plain (modify fun s => { s with acc := s.acc.setParams name params } : Step Unit)
  | valueBlock (name : String) (args : List Token) :
    Plain (Step.inBlock name do Step.write (.output (← Expr.parse args)))

open Step (Plain)

theorem plain_openBuiltin (b : BuiltinTag) (args : List Token) : Plain (openBuiltin b args) := by
  cases b with
  | condition => exact .bind (.lift _) fun _ => .openCapture _
  | loop => exact .bind (.lift _) fun _ => .openCapture _
  | set =>
    refine .bind (.lift _) fun head => ?_
    obtain ⟨name, _ | value⟩ := head
    · exact .openCapture _
    · exact .write _
  | block =>
    refine .bind (.lift _) fun name => .bind (.write _) fun _ => ?_
    split
    · exact .openBlock _
    · exact .valueBlock _ _
  | extend => exact .bind (.lift _) fun _ => .write _
  | embed => exact .bind (.lift _) fun _ => .write _
  | macroDef =>
    refine .bind (.lift _) fun head => ?_
    exact .bind (.setParams _ _) fun _ => .openMacro _
  | importAs => exact .bind (.lift _) fun _ => .write _
  | importNames => exact .bind (.lift _) fun _ => .write _

/-- The end of a tag leaves its place, and then looks at the state no more. -/
theorem closeTag_eq_leave_bind (tag : OpenTag) (term : Terminator) :
    ∃ f, closeTag tag term = Step.leave >>= f ∧ ∀ body, Plain (f body) := by
  refine ⟨_, rfl, fun body => ?_⟩
  cases tag with
  | branch done cond =>
    dsimp only
    split
    · exact .bind (.lift _) fun _ => .write _
    split
    · exact .bind (.lift _) fun _ => .openCapture _
    · exact .bind (.lift _) fun _ => .openCapture _
  | otherwise branches => exact .bind (.lift _) fun _ => .write _
  | loop key value iterable =>
    refine .bind (.lift _) fun _ => ?_
    split
    · exact .openCapture _
    · exact .write _
  | loopElse key value iterable first => exact .bind (.lift _) fun _ => .write _
  | capture name => exact .bind (.lift _) fun _ => .write _
  | block name => exact .lift _
  | macroBody name => exact .lift _
  | transform tag t closer => exact .write _

/-- A terminator that is met with a tag open ends this tag, or is a fault. -/
theorem meetTerminator_cons (term : Terminator) (acc : Accumulator) (tag : OpenTag)
    (o : List OpenTag) :
    meetTerminator term ⟨acc, tag :: o⟩ =
      match acceptTerminator tag.opener tag.expected (some term) with
      | .error fault => (.error fault, ⟨acc, tag :: o⟩)
      | .ok term =>
        ((closeTag tag term ⟨acc, tag :: o⟩).1.map fun () => none,
          (closeTag tag term ⟨acc, tag :: o⟩).2) := by
  change ((liftM (acceptTerminator tag.opener tag.expected (some term)) : Step Terminator) >>=
    fun term => closeTag tag term >>= fun _ => pure none) ⟨acc, tag :: o⟩ = _
  rw [Step.bind_apply]
  cases acceptTerminator tag.opener tag.expected (some term) with
  | error fault => rfl
  | ok term =>
    refine (Step.bind_apply _ _ _).trans ?_
    dsimp only
    obtain ⟨fault | _, s⟩ := closeTag tag term ⟨acc, tag :: o⟩ <;> rfl

/-- **How a piece is read**, whatever the tags are. -/
theorem readPiece_terminator_or_plain (tags : TagTable) (p : Piece) :
    (∃ term, IsTag term.tag term.args p ∧ Table.find? term.tag tags = some .terminator ∧
      readPiece tags p = meetTerminator term) ∨
    ∃ x : Step Unit, Plain x ∧ readPiece tags p = do x; return none := by
  have hfault : ∀ fault : GrammarFault, ∃ x : Step Unit, Plain x ∧
      (throw fault : Step (Option Terminator)) = do x; return none :=
    fun fault => ⟨_, .lift (.error fault), rfl⟩
  cases p with
  | text t => exact .inr ⟨_, .write _, rfl⟩
  | output tokens =>
    refine .inr ⟨_, .bind (.lift (Expr.parse tokens)) fun e => .write (.output e), ?_⟩
    rw [readPiece, bind_assoc]
  | tag tokens =>
    cases tokens with
    | nil => exact .inr (hfault _)
    | cons t args =>
      by_cases kind : t.kind = .identifier
      · cases hfind : Table.find? t.text tags with
        | none =>
          simp only [readPiece, readTag, kind, hfind]
          exact .inr (hfault _)
        | some handler =>
          simp only [readPiece, readTag, kind, hfind]
          cases handler with
          | builtin b => exact .inr ⟨_, plain_openBuiltin b args, rfl⟩
          | terminator =>
            have isTag : IsTag t.text args (.tag (t :: args)) :=
              .intro (by simp [Token.isId, kind])
            exact .inl ⟨⟨t.text, args⟩, isTag, hfind, rfl⟩
          | transform change closer =>
            refine .inr ⟨_, .bind (.lift (Token.expectEnd t.text args)) fun _ =>
              .openCapture (.transform t.text change closer), ?_⟩
            rw [bind_assoc]
            rfl
          | constant text => exact .inr ⟨_, .write (.text text), rfl⟩
      · simp only [readPiece, readTag, ne_eq, kind, not_false_eq_true, if_true]
        exact .inr (hfault _)

end Stencil.Tag
