import Stencil.Proofs.Nesting.Plain
import Stencil.Proofs.Render.Agreement

/-!
# Programs in the making that agree

While pieces are read, what was written so far stands in segments, in captures and in open tags. Two
such states **agree** if they have the same shape and agree instruction by instruction. The same
pieces take agreeing states to agreeing states, with the same outcome or the same fault
(`Tag.readFrom_agrees`), so an instruction may be exchanged for an agreeing one in the middle of a
reading, and nothing that comes behind it tells the difference.

A plain step has nothing to show for itself here, since it does not look at the state. The end of a
tag takes what was captured, and builds an instruction of it that agrees because its bodies do.
-/

namespace Stencil

open Instr (ListsAgree BranchesAgree)

/-! ### Places to write to -/

/-- Whether two places that were entered are the same, or captures that agree. -/
inductive Frame.Agrees : Frame → Frame → Prop
  | block (name : String) : Agrees (.block name) (.block name)
  | macroBody (name : String) : Agrees (.macroBody name) (.macroBody name)
  | capture {is js : List Instr} (h : ListsAgree is js) : Agrees (.capture is) (.capture js)

theorem Frame.Agrees.refl (f : Frame) : f.Agrees f := by
  cases f with
  | block name => exact .block name
  | macroBody name => exact .macroBody name
  | capture written => exact .capture (.refl written)

namespace Accumulator

/-- Whether two programs in the making agree. -/
structure Agrees (a a' : Accumulator) : Prop where
  main : ListsAgree a.main a'.main
  blocks : Table.Rel ListsAgree a.blocks a'.blocks
  macros : Table.Rel ListsAgree a.macros a'.macros
  params : a'.params = a.params
  frames : List.Forall₂ Frame.Agrees a.frames a'.frames

/-- What stands in the innermost place. -/
def active (a : Accumulator) : List Instr :=
  match a.frames with
  | [] => a.main
  | .block name :: _ => (Table.find? name a.blocks).getD []
  | .macroBody name :: _ => (Table.find? name a.macros).getD []
  | .capture written :: _ => written

variable {a a' : Accumulator} {i j : Instr}

theorem Agrees.refl (a : Accumulator) : a.Agrees a where
  main := .refl _
  blocks := .refl .refl _
  macros := .refl .refl _
  params := rfl
  frames := List.forall₂_same.mpr fun f _ => .refl f

/-- Two writes agree if the innermost place agrees with the one and with the other at its end. -/
theorem agrees_write_of_active (h : ListsAgree (a.active ++ [i]) (a.active ++ [j])) :
    (a.write i).Agrees (a.write j) := by
  have hrefl := Agrees.refl a
  obtain ⟨main, blocks, macros, params, frames⟩ := a
  rcases frames with _ | ⟨_ | _ | written, outer⟩
  · exact { hrefl with main := h }
  · exact { hrefl with blocks := hrefl.blocks.insert _ h }
  · exact { hrefl with macros := hrefl.macros.insert _ h }
  · exact { hrefl with
      frames := .cons (.capture h) (List.forall₂_same.mpr fun f _ => .refl f) }

/-- Related segments with agreeing writes at their ends. -/
theorem append_rel {t u : Table (List Instr)} (h : Table.Rel ListsAgree t u) (name : String)
    {is js : List Instr} (hmore : ∀ {xs ys : List Instr}, ListsAgree xs ys →
      ListsAgree (xs ++ is) (ys ++ js)) :
    Table.Rel ListsAgree (append name is t) (append name js u) := by
  have hfind := h.find? name
  rw [append, append]
  refine h.insert name (hmore ?_)
  generalize Table.find? name t = o, Table.find? name u = o' at hfind ⊢
  cases hfind with
  | none => exact .refl []
  | some hsegment => exact hsegment

namespace Agrees

variable (h : a.Agrees a')

include h

theorem write (hij : Instr.Agrees i j) : (a.write i).Agrees (a'.write j) := by
  obtain ⟨main, blocks, macros, params, frames⟩ := a
  obtain ⟨main', blocks', macros', params', frames'⟩ := a'
  have hframes := h.frames
  dsimp only at hframes
  cases hframes with
  | nil => exact { h with main := h.main.concat hij, frames := .nil }
  | cons hframe houter =>
    cases hframe with
    | block name =>
      exact { h with blocks := append_rel h.blocks name fun hxy => hxy.concat hij }
    | macroBody name =>
      exact { h with macros := append_rel h.macros name fun hxy => hxy.concat hij }
    | capture hwritten =>
      exact { h with frames := .cons (.capture (hwritten.concat hij)) houter }

theorem enterBlock (name : String) : (a.enterBlock name).Agrees (a'.enterBlock name) :=
  { h with
    blocks := append_rel h.blocks name fun hxy => by rwa [List.append_nil, List.append_nil]
    frames := .cons (.block name) h.frames }

theorem enterMacro (name : String) : (a.enterMacro name).Agrees (a'.enterMacro name) :=
  { h with
    macros := append_rel h.macros name fun hxy => by rwa [List.append_nil, List.append_nil]
    frames := .cons (.macroBody name) h.frames }

theorem enterCapture : a.enterCapture.Agrees a'.enterCapture :=
  { h with frames := .cons (.capture (.refl [])) h.frames }

theorem setParams (name : String) (params : Params) :
    (a.setParams name params).Agrees (a'.setParams name params) :=
  { h with params := congrArg (Table.insert name params) h.params }

theorem captured : ListsAgree a.captured a'.captured := by
  have hframes := h.frames
  rw [Accumulator.captured, Accumulator.captured]
  generalize a.frames = fs, a'.frames = fs' at hframes
  cases hframes with
  | nil => exact .refl []
  | cons hframe _ =>
    cases hframe with
    | capture hwritten => exact hwritten
    | _ => exact .refl []

theorem leaveAll (n : Nat) : (a.leaveAll n).Agrees (a'.leaveAll n) :=
  { h with frames := List.forall₂_drop n h.frames }

theorem leave : a.leave.Agrees a'.leave := by
  have hone := h.leaveAll 1
  rwa [Accumulator.leaveAll, Accumulator.leaveAll, List.drop_one, List.drop_one] at hone

/-- Programs that agree when they are finished. -/
theorem finish : a.finish.Agrees a'.finish where
  main := h.main
  blocks := h.blocks
  macros := by
    have hmacros := h.macros
    rw [Accumulator.finish, Accumulator.finish, h.params]
    refine List.forall₂_map_left_iff.mpr (List.forall₂_map_right_iff.mpr ?_)
    exact hmacros.imp fun m m' hm => ⟨hm.1, by rw [hm.1], hm.2⟩

end Agrees

end Accumulator

/-! ### Open tags and states -/

/-- Whether two open tags are the same up to bodies that agree. -/
inductive OpenTag.Agrees : OpenTag → OpenTag → Prop
  | same (tag : OpenTag) : Agrees tag tag
  | branch {xs ys : List (Expr × List Instr)} (cond : Expr) (h : List.Forall₂ BranchesAgree xs ys) :
    Agrees (.branch xs cond) (.branch ys cond)
  | otherwise {xs ys : List (Expr × List Instr)} (h : List.Forall₂ BranchesAgree xs ys) :
    Agrees (.otherwise xs) (.otherwise ys)
  | loopElse (key : Option String) (value : String) (iterable : Expr) {is js : List Instr}
    (h : ListsAgree is js) :
    Agrees (.loopElse key value iterable is) (.loopElse key value iterable js)

theorem OpenTag.Agrees.opener {tag tag' : OpenTag} (h : tag.Agrees tag') :
    tag'.opener = tag.opener := by
  cases h <;> rfl

theorem OpenTag.Agrees.expected {tag tag' : OpenTag} (h : tag.Agrees tag') :
    tag'.expected = tag.expected := by
  cases h <;> rfl

namespace Tag

/-- Whether two readings have come as far and agree in all that was written. -/
structure State.Agrees (s s' : State) : Prop where
  acc : s.acc.Agrees s'.acc
  opened : List.Forall₂ OpenTag.Agrees s.opened s'.opened

theorem State.Agrees.unwind {s s' : State} (h : s.Agrees s') : s.unwind.Agrees s'.unwind := by
  rw [State.unwind, State.unwind, ← h.opened.length_eq]
  exact h.acc.leaveAll _

/-! ### Steps -/

/-- Whether two steps keep states in agreement, with the same fault or with related results. -/
def Step.Agrees {α : Type} (S : α → α → Prop) (x y : Step α) : Prop :=
  ∀ s s' : State, s.Agrees s' → (x s).2.Agrees (y s').2 ∧
    ((∃ fault, (x s).1 = .error fault ∧ (y s').1 = .error fault) ∨
      ∃ u v, (x s).1 = .ok u ∧ (y s').1 = .ok v ∧ S u v)

namespace Step.Agrees

variable {α β : Type} {S : α → α → Prop} {T : β → β → Prop}

theorem pure {u v : α} (h : S u v) : Agrees S (Pure.pure u) (Pure.pure v) :=
  fun _ _ hs => ⟨hs, .inr ⟨u, v, rfl, rfl, h⟩⟩

theorem lift (r : Except GrammarFault α) : Agrees Eq (liftM r : Step α) (liftM r) := by
  cases r with
  | error fault => exact fun _ _ hs => ⟨hs, .inl ⟨fault, rfl, rfl⟩⟩
  | ok u => exact pure rfl

theorem bind {x y : Step α} {f g : α → Step β} (hxy : Agrees S x y)
    (hfg : ∀ u v, S u v → Agrees T (f u) (g v)) : Agrees T (x >>= f) (y >>= g) := by
  intro s s' hs
  obtain ⟨hstates, hresults⟩ := hxy s s' hs
  rw [Step.bind_apply, Step.bind_apply]
  generalize x s = r, y s' = r' at hstates hresults ⊢
  obtain ⟨r, s₁⟩ := r
  obtain ⟨r', s₁'⟩ := r'
  obtain ⟨fault, rfl, rfl⟩ | ⟨u, v, rfl, rfl, huv⟩ := hresults
  · exact ⟨hstates, .inl ⟨fault, rfl, rfl⟩⟩
  · exact hfg u v huv s₁ s₁' hstates

/-- Two steps of which the first gives the same result. -/
theorem andThen {x y : Step α} {f g : α → Step β} (hxy : Agrees Eq x y)
    (hfg : ∀ u, Agrees T (f u) (g u)) : Agrees T (x >>= f) (y >>= g) := by
  refine hxy.bind fun u v huv => ?_
  rw [← huv]
  exact hfg u

/-- What changes agreeing states alike. -/
theorem change {f g : State → State} (h : ∀ s s' : State, s.Agrees s' → (f s).Agrees (g s')) :
    Agrees Eq (modify f : Step Unit) (modify g) :=
  fun s s' hs => ⟨h s s' hs, .inr ⟨(), (), rfl, rfl, rfl⟩⟩

theorem write {i j : Instr} (h : Instr.Agrees i j) : Agrees Eq (Step.write i) (Step.write j) :=
  change fun _ _ hs => { hs with acc := hs.acc.write h }

theorem openCapture {tag tag' : OpenTag} (h : tag.Agrees tag') :
    Agrees Eq (Step.openCapture tag) (Step.openCapture tag') :=
  change fun _ _ hs => ⟨hs.acc.enterCapture, .cons h hs.opened⟩

theorem leave : Agrees ListsAgree Step.leave Step.leave := by
  refine fun s s' hs => ⟨⟨hs.acc.leave, ?_⟩, .inr ⟨_, _, rfl, rfl, hs.acc.captured⟩⟩
  have htail := List.forall₂_drop 1 hs.opened
  rwa [List.drop_one, List.drop_one] at htail

end Step.Agrees

open Step (Plain)

/-- A plain step agrees with itself. -/
theorem Step.Plain.agrees {α : Type} {x : Step α} (h : Plain x) : Step.Agrees Eq x x := by
  induction h with
  | pure a => exact .pure rfl
  | lift x => exact .lift x
  | bind _ _ ih ih' => exact ih.andThen ih'
  | write i => exact .write (.refl i)
  | openCapture tag => exact .openCapture (.same tag)
  | openBlock name =>
    exact .change fun _ _ hs => ⟨hs.acc.enterBlock name, .cons (.same _) hs.opened⟩
  | openMacro name =>
    exact .change fun _ _ hs => ⟨hs.acc.enterMacro name, .cons (.same _) hs.opened⟩
  | setParams name params =>
    exact .change fun _ _ hs => { hs with acc := hs.acc.setParams name params }
  | valueBlock name args =>
    -- the block is left at once, so no tag is opened for it and the bracket is undone by hand
    intro s s' hs
    have hinside : State.Agrees ⟨s.acc.enterBlock name, s.opened⟩
        ⟨s'.acc.enterBlock name, s'.opened⟩ := { hs with acc := hs.acc.enterBlock name }
    have hbody := (Step.Agrees.lift (Expr.parse args)).andThen
      (fun e => Step.Agrees.write (.refl (.output e))) _ _ hinside
    exact ⟨⟨hbody.1.acc.leave, hs.opened⟩, hbody.2⟩

/-! ### The end of a tag -/

/-- The bodies of the branches so far and one more. -/
theorem branchesAgree_concat {xs ys : List (Expr × List Instr)} {is js : List Instr}
    (h : List.Forall₂ BranchesAgree xs ys) (cond : Expr) (hbody : ListsAgree is js) :
    List.Forall₂ BranchesAgree (xs ++ [(cond, is)]) (ys ++ [(cond, js)]) :=
  List.rel_append h (.cons ⟨rfl, hbody⟩ .nil)

theorem branchesAgree_refl (xs : List (Expr × List Instr)) : List.Forall₂ BranchesAgree xs xs :=
  List.forall₂_same.mpr fun x _ => ⟨rfl, .refl x.2⟩

/-- Conditions go on with another branch or end. -/
theorem agrees_closeTag_branch {xs ys : List (Expr × List Instr)}
    (h : List.Forall₂ BranchesAgree xs ys) (cond : Expr) (term : Terminator) :
    Step.Agrees Eq (closeTag (.branch xs cond) term) (closeTag (.branch ys cond) term) := by
  refine Step.Agrees.leave.bind fun is js hbody => ?_
  have hall := branchesAgree_concat h cond hbody
  dsimp only
  split
  · exact .andThen (.lift _) fun _ => .write (.branch hall (.refl []))
  split
  · exact .andThen (.lift _) fun _ => .openCapture (.otherwise hall)
  · exact .andThen (.lift _) fun next => .openCapture (.branch next hall)

theorem agrees_closeTag_otherwise {xs ys : List (Expr × List Instr)}
    (h : List.Forall₂ BranchesAgree xs ys) (term : Terminator) :
    Step.Agrees Eq (closeTag (.otherwise xs) term) (closeTag (.otherwise ys) term) :=
  Step.Agrees.leave.bind fun _ _ hbody =>
    .andThen (.lift _) fun _ => .write (.branch h hbody)

theorem agrees_closeTag_loopElse (key : Option String) (value : String) (iterable : Expr)
    {is js : List Instr} (h : ListsAgree is js) (term : Terminator) :
    Step.Agrees Eq (closeTag (.loopElse key value iterable is) term)
      (closeTag (.loopElse key value iterable js) term) :=
  Step.Agrees.leave.bind fun _ _ hbody =>
    .andThen (.lift _) fun _ => .write (.loop key value iterable h hbody)

/-- Agreeing tags end in agreement, whatever was captured in them. -/
theorem agrees_closeTag {tag tag' : OpenTag} (h : tag.Agrees tag') (term : Terminator) :
    Step.Agrees Eq (closeTag tag term) (closeTag tag' term) := by
  cases h with
  | branch cond h => exact agrees_closeTag_branch h cond term
  | otherwise h => exact agrees_closeTag_otherwise h term
  | loopElse key value iterable h => exact agrees_closeTag_loopElse key value iterable h term
  | same tag =>
    cases tag with
    | branch done cond => exact agrees_closeTag_branch (branchesAgree_refl done) cond term
    | otherwise branches => exact agrees_closeTag_otherwise (branchesAgree_refl branches) term
    | loopElse key value iterable body =>
      exact agrees_closeTag_loopElse key value iterable (.refl body) term
    | loop key value iterable =>
      refine Step.Agrees.leave.bind fun is js hbody => .andThen (.lift _) fun _ => ?_
      split
      · exact .openCapture (.loopElse key value iterable hbody)
      · exact .write (.loop key value iterable hbody (.refl []))
    | capture name =>
      exact Step.Agrees.leave.bind fun _ _ hbody =>
        .andThen (.lift _) fun _ => .write (.capture name hbody)
    -- what stands in a block or a macro has a segment of its own and is not captured
    | block name => exact Step.Agrees.leave.bind fun _ _ _ => .lift _
    | macroBody name => exact Step.Agrees.leave.bind fun _ _ _ => .lift _
    | transform name t closer =>
      exact Step.Agrees.leave.bind fun _ _ hbody => .write (.transform t hbody)

/-! ### Pieces -/

/-- The reading of a piece keeps states in agreement. -/
theorem agrees_readPiece (tags : TagTable) (p : Piece) :
    Step.Agrees Eq (readPiece tags p) (readPiece tags p) := by
  obtain ⟨term, -, -, hread⟩ | ⟨x, hplain, hread⟩ := readPiece_terminator_or_plain tags p
  · rw [hread]
    rintro ⟨acc, opened⟩ ⟨acc', opened'⟩ hs
    have hopened := hs.opened
    dsimp only at hopened
    cases hopened with
    | nil => exact ⟨hs, .inr ⟨some term, some term, rfl, rfl, rfl⟩⟩
    | @cons tag tag' o o' htag _ =>
      -- what the terminator may be is told by the open tag, and the two are alike in that
      let ending (tag : OpenTag) : Step (Option Terminator) := do
        let t ← acceptTerminator tag.opener tag.expected (some term)
        closeTag tag t
        return none
      have hending : Step.Agrees Eq (ending tag) (ending tag') := by
        dsimp only [ending]
        rw [htag.opener, htag.expected]
        exact .andThen (.lift _) fun t => .andThen (agrees_closeTag htag t) fun _ => .pure rfl
      exact hending _ _ hs
  · rw [hread]
    exact (Plain.bind hplain fun _ => .pure _).agrees

/-- **Agreement is kept by reading**: from agreeing states the same pieces are read with the same
outcome, and agree in what they were compiled to. -/
theorem readFrom_agrees (tags : TagTable) {s s' : State} (h : s.Agrees s') (ps : List Piece) :
    (readFrom tags s' ps).result = (readFrom tags s ps).result ∧
      (readFrom tags s ps).acc.Agrees (readFrom tags s' ps).acc := by
  induction ps generalizing s s' with
  | nil =>
    have hopened := h.opened
    obtain ⟨acc, opened⟩ := s
    obtain ⟨acc', opened'⟩ := s'
    dsimp only at hopened
    cases hopened with
    | nil => exact ⟨rfl, h.acc⟩
    | cons htag _ =>
      refine ⟨?_, h.unwind⟩
      simp only [readFrom, htag.opener, htag.expected]
  | cons p ps ih =>
    obtain ⟨hstates, hresults⟩ := agrees_readPiece tags p s s' h
    rw [readFrom, readFrom]
    generalize readPiece tags p s = r, readPiece tags p s' = r' at hstates hresults ⊢
    obtain ⟨r, s₁⟩ := r
    obtain ⟨r', s₁'⟩ := r'
    obtain ⟨fault, rfl, rfl⟩ | ⟨o, _, rfl, rfl, rfl⟩ := hresults
    · exact ⟨rfl, hstates.unwind⟩
    cases o with
    | none => exact ih hstates
    | some term => exact ⟨rfl, hstates.unwind⟩

end Tag

end Stencil
