import Stencil.Proofs.Render.Growing

/-!
# Growing pairings of runs

The laws under which a pairing holds of running instructions, and the walk that proves it
from them: one case for each instruction, the loop over the rounds of a `for`, and the list.

The world may grow wherever something runs, so what was fetched in one world is used in a
larger one: an `extend` fetches the parent, runs what is declared after it, and only then
hands over.
-/

namespace Stencil

theorem Action.discard_eq {α : Type} (a : Action α) :
    (discard a : Action Unit) = a >>= fun _ => pure () := rfl

/-- Importing from the template that owns the instructions. -/
theorem importedTemplate_self (e : Engine) (b : Below) :
    Instr.importedTemplate e b (.var "_self") =
      (do return (← get).owner?) >>= fun o =>
        match o with
        | some t => pure t
        | none => Action.fault .selfOutside := rfl

/-- Importing from any other template. -/
theorem importedTemplate_fetched {x : Expr} (h : x ≠ .var "_self") (e : Engine) (b : Below) :
    Instr.importedTemplate e b x =
      (do Action.fetch e (← x.eval e b).display) := by
  unfold Instr.importedTemplate
  split
  · exact absurd rfl h
  · rfl

/-- What getting an included template comes to, by what fetching comes to. -/
def Instr.fetchedIncluded (ignoreMissing : Bool) :
    Except Error Template × Store → Except Error (Option Template) × Store
  | (.ok t, s) => (.ok (some t), s)
  | (.error (.notFound name), s) =>
    (if ignoreMissing then .ok none else .error (.notFound name), s)
  | (.error fault, s) => (.error fault, s)

@[simp] theorem Instr.snd_fetchedIncluded (ignoreMissing : Bool)
    (r : Except Error Template × Store) : (fetchedIncluded ignoreMissing r).2 = r.2 := by
  obtain ⟨fault | t, s⟩ := r
  · cases fault <;> rfl
  · rfl

/-- Getting an included template is a matter of the store, also when there is none. -/
theorem Instr.fetchIncluded_eq_onStore (e : Engine) (path : String) (ignoreMissing : Bool) :
    fetchIncluded e path ignoreMissing =
      Action.onStore fun s => fetchedIncluded ignoreMissing (e.fetch path s) := by
  funext c
  simp only [fetchIncluded, Action.fetch, Action.onStore]
  generalize e.fetch path c.store = r
  obtain ⟨fault | t, s⟩ := r
  · cases fault <;> rfl
  · rfl

namespace GrowingPairing

variable {W : Type} (P : GrowingPairing W) [Preorder W]

/-- What a pairing must keep to hold of running instructions. -/
structure Executes (e₁ e₂ : Engine) (b₁ b₂ : Below) : Prop extends P.Evaluates e₁ e₂ b₁ b₂ where
  write (w : W) (s : String) : P.same w (Action.write s) (Action.write s)
  capture {w : W} {a b : Action Unit} (h : P.same w a b) :
    P.same w (Action.capture a) (Action.capture b)
  push (w : W) (name : String) (v : Value) : P.same w (Action.push name v) (Action.push name v)
  set (w : W) (name : String) (v : Value) : P.same w (Action.set name v) (Action.set name v)
  withLocals {w : W} {a b : Action Flow} (h : P.same w a b) :
    P.same w (Action.withLocals a) (Action.withLocals b)
  renderBlock (w : W) {name : String} (hi : P.instr (.callBlock name)) :
    P.same w (b₁.renderBlock e₁ name) (b₂.renderBlock e₂ name)
  named {w : W} {x : Expr} (h : P.same w (x.eval e₁ b₁) (x.eval e₂ b₂)) :
    P.rel w (fun _ v v' => v = v' ∧ P.names x v.display) (x.eval e₁ b₁) (x.eval e₂ b₂)
  fetch (w : W) {i : Instr} (hi : P.instr i) {x : Expr} (hx : i.template? = some x)
    {path : String} (hpath : P.names x path) :
    P.rel w P.fetched (Action.fetch e₁ path) (Action.fetch e₂ path)
  fetchIncluded (w : W) {i : Instr} (hi : P.instr i) {x : Expr} (hx : i.template? = some x)
    {path : String} (hpath : P.names x path) (ignoreMissing : Bool) :
    P.rel w (fun w' => Option.Rel (P.fetched w')) (Instr.fetchIncluded e₁ path ignoreMissing)
      (Instr.fetchIncluded e₂ path ignoreMissing)
  callParent {w : W} {x : Expr} (hi : P.instr (.extend x)) {t u : Template}
    (h : P.fetched w t u) : P.same w (b₁.callParent e₁ t) (b₂.callParent e₂ u)
  embed {w : W} {t u : Template} (h : P.fetched w t u) (vars : Table Value) (only : Bool) :
    P.same w (b₁.embed e₁ t vars only) (b₂.embed e₂ u vars only)
  owner? (w : W) : P.rel w (fun w' => Option.Rel (P.owner w')) (do return (← get).owner?)
    (do return (← get).owner?)
  owner {w : W} {t u : Template} (h : P.fetched w t u) : P.owner w t u
  fetched_mono {w w' : W} (hw : w ≤ w') {t u : Template} (h : P.fetched w t u) :
    P.fetched w' t u
  importAs {w : W} {x : Expr} {newName : String} (hi : P.instr (.importAs x newName))
    {t u : Template} (h : P.owner w t u) :
    P.same w (Action.importAs newName t) (Action.importAs newName u)
  importEach {w : W} {x : Expr} {names : List (String × String)}
    (hi : P.instr (.importNames x names)) {t u : Template} (h : P.owner w t u) :
    P.same w (Instr.importEach t names) (Instr.importEach u names)

namespace Executes

variable {P} {e₁ e₂ : Engine} {b₁ b₂ : Below}

section Steps

variable (h : P.Executes e₁ e₂ b₁ b₂) {w : W}

include h

theorem discard {a b : Action Flow} (hab : P.same w a b) :
    P.same w (discard a : Action Unit) (discard b) := by
  rw [Action.discard_eq, Action.discard_eq]
  exact h.andThen hab fun _ _ _ => h.pure _

/-- What is done before going on. -/
theorem goOn {a b : Action Unit} (hab : P.same w a b) :
    P.same w (do a; return Flow.goOn) (do b; return Flow.goOn) :=
  h.andThen hab fun _ _ _ => h.pure _

theorem bindRound (key : Option String) (value : String) (pair : Value × Value)
    (index length : Nat) :
    P.same w (Instr.bindRound key value pair index length)
      (Instr.bindRound key value pair index length) := by
  have hrest : ∀ w', P.same w'
      (do Action.push value pair.2; Action.push "loop" (Instr.loopValue index length))
      (do Action.push value pair.2; Action.push "loop" (Instr.loopValue index length)) :=
    fun w' => h.andThen (h.push w' value pair.2) fun w'' _ _ => h.push w'' "loop" _
  cases key with
  | none => exact hrest w
  | some name => exact h.andThen (h.push w name pair.1) fun w' _ _ => hrest w'

theorem round (key : Option String) (value : String) (length : Nat) {a b : Action Flow}
    (hab : ∀ w', P.same w' a b) (index : Nat) (pair : Value × Value) :
    P.same w (Instr.round key value length a index pair)
      (Instr.round key value length b index pair) :=
  h.withLocals (h.andThen (h.bindRound key value pair index length) fun w' _ _ => hab w')

/-- The rounds of a loop. -/
theorem rounds (key : Option String) (value : String) (length : Nat) {a b : Action Flow}
    (hab : ∀ w', P.same w' a b) (index : Nat) (pairs : List (Value × Value)) :
    P.same w (Instr.rounds key value length a index pairs)
      (Instr.rounds key value length b index pairs) := by
  -- on the pairs that are left; the index only counts the rounds
  induction pairs generalizing index w with
  | nil => exact h.pure _
  | cons pair pairs ih =>
    refine h.andThen (h.round key value length hab index pair) fun _ _ flow => ?_
    cases flow with
    | halt => exact h.pure _
    | goOn => exact ih (index + 1)

/-- The variables handed to an included template. -/
theorem includedVars {vars : Option Expr} (hvars : ∀ x ∈ vars, x.Every P.expr) :
    P.same w (Instr.includedVars e₁ b₁ vars) (Instr.includedVars e₂ b₂ vars) := by
  cases vars with
  | none => exact h.pure _
  | some x =>
    refine h.andThen (h.eval w (hvars x rfl)) fun _ _ v => ?_
    cases v with
    | map entries => exact h.pure _
    | null => exact h.pure _
    | _ => exact h.fault (.includeVariables _)

/-- The template to import from. -/
theorem importedTemplate {i : Instr} (hi : P.instr i) {x : Expr} (hx : i.template? = some x)
    (hcovers : x.Every P.expr) :
    P.rel w P.owner (Instr.importedTemplate e₁ b₁ x) (Instr.importedTemplate e₂ b₂ x) := by
  by_cases hself : x = .var "_self"
  · -- `_self` is the owner, which is not fetched
    rw [hself, importedTemplate_self, importedTemplate_self]
    refine h.bind (h.owner? w) ?_
    rintro _ _ _ _ (htu | _)
    · exact h.result htu
    · exact h.fault .selfOutside
  · rw [importedTemplate_fetched hself, importedTemplate_fetched hself]
    refine h.bind (h.named (h.eval w hcovers)) ?_
    rintro w' _ v _ ⟨rfl, hpath⟩
    exact h.mono (h.fetch w' hi hx hpath) fun _ _ _ => h.owner

end Steps

/-! ### The walk over instructions -/

mutual

/-- One instruction, with what is declared after it. -/
theorem step (h : P.Executes e₁ e₂ b₁ b₂) {d₁ d₂ : Action Unit} (hd : ∀ w, P.same w d₁ d₂) :
    ∀ (i : Instr) (w : W), (∀ j ∈ i.parts, P.covers j) →
      P.same w (Instr.step e₁ b₁ d₁ i) (Instr.step e₂ b₂ d₂ i)
  | .text s, w, _ => by
    simp only [Instr.step]
    exact h.goOn (h.write w s)
  | .output value, w, hi => by
    have hx := (hi _ (Instr.mem_parts_self _)).2 value (by simp [Instr.exprs])
    simp only [Instr.step]
    exact h.andThen (h.eval w hx) fun w' _ v => h.goOn (h.write w' v.display)
  | .branch branches otherwise, w, hi => by
    have hself := hi _ (Instr.mem_parts_self _)
    have hotherwise := fun w' =>
      sequence h otherwise w' fun j hj => hi j (by simp [Instr.parts, hj])
    simp only [Instr.step]
    refine firstBranch h hotherwise branches w (fun j hj => hi j ?_) fun b hb => hself.2 b.1 ?_
    · simp [Instr.parts, hj]
    · exact List.mem_map_of_mem hb
  | .loop key value iterable body otherwise, w, hi => by
    have hx := (hi _ (Instr.mem_parts_self _)).2 iterable (by simp [Instr.exprs])
    simp only [Instr.step]
    refine h.andThen (h.eval w hx) fun _ _ v => ?_
    refine h.andThen (h.lift fun _ => .pairs) fun w' _ pairs => ?_
    split
    · exact sequence h otherwise w' fun j hj => hi j (by simp [Instr.parts, hj])
    · have hbody := fun w'' => sequence h body w'' fun j hj => hi j (by simp [Instr.parts, hj])
      exact h.rounds key value pairs.length hbody 0 pairs
  | .set name value, w, hi => by
    have hx := (hi _ (Instr.mem_parts_self _)).2 value (by simp [Instr.exprs])
    simp only [Instr.step]
    exact h.andThen (h.eval w hx) fun w' _ v => h.goOn (h.set w' name v)
  | .capture name body, w, hi => by
    have hbody := sequence h body w fun j hj => hi j (by simp [Instr.parts, hj])
    simp only [Instr.step]
    exact h.andThen (h.capture (h.discard hbody)) fun w' _ s => h.goOn (h.set w' name _)
  | .callBlock name, w, hi => by
    simp only [Instr.step]
    exact h.goOn (h.renderBlock w (hi _ (Instr.mem_parts_self _)).1)
  | .extend parent, w, hi => by
    have hself := hi _ (Instr.mem_parts_self _)
    simp only [Instr.step]
    refine h.bind (h.named (h.eval w (hself.2 parent (by simp [Instr.exprs])))) ?_
    rintro w' _ v _ ⟨rfl, hpath⟩
    refine h.bind (h.fetch w' hself.1 rfl hpath) fun w'' _ t u htu => ?_
    -- what is declared after it runs before the parent does
    refine h.andThen (hd w'') fun _ hw _ => ?_
    exact h.andThen (h.callParent hself.1 (h.fetched_mono hw htu)) fun _ _ _ => h.pure _
  | .embed template vars only ignoreMissing, w, hi => by
    have hself := hi _ (Instr.mem_parts_self _)
    simp only [Instr.step]
    refine h.bind (h.named (h.eval w (hself.2 template (by simp [Instr.exprs])))) ?_
    rintro w' _ v _ ⟨rfl, hpath⟩
    refine h.bind (h.fetchIncluded w' hself.1 rfl hpath ignoreMissing) ?_
    rintro w'' _ _ _ (htu | _)
    · have hvars : ∀ x ∈ vars, x.Every P.expr := fun x hx => hself.2 x (by simp_all [Instr.exprs])
      refine h.andThen (h.includedVars hvars) fun _ hw vs => ?_
      exact h.goOn (h.embed (h.fetched_mono hw htu) vs only)
    · exact h.pure _
  | .importAs template newName, w, hi => by
    have hself := hi _ (Instr.mem_parts_self _)
    simp only [Instr.step]
    refine h.bind (h.importedTemplate hself.1 rfl (hself.2 template (by simp [Instr.exprs]))) ?_
    exact fun _ _ t u htu => h.goOn (h.importAs hself.1 htu)
  | .importNames template names, w, hi => by
    have hself := hi _ (Instr.mem_parts_self _)
    simp only [Instr.step]
    refine h.bind (h.importedTemplate hself.1 rfl (hself.2 template (by simp [Instr.exprs]))) ?_
    exact fun _ _ t u htu => h.goOn (h.importEach hself.1 htu)
  | .transform t body, w, hi => by
    have hbody := sequence h body w fun j hj => hi j (by simp [Instr.parts, hj])
    simp only [Instr.step]
    exact h.andThen (h.capture (h.discard hbody)) fun w' _ s => h.goOn (h.write w' _)

/-- A list of instructions. -/
theorem sequence (h : P.Executes e₁ e₂ b₁ b₂) :
    ∀ (instrs : List Instr) (w : W), (∀ j ∈ Instr.partsOf instrs, P.covers j) →
      P.same w (Instr.sequence e₁ b₁ instrs) (Instr.sequence e₂ b₂ instrs)
  | [], _, _ => by
    simp only [Instr.sequence]
    exact h.pure _
  | i :: rest, w, hi => by
    have hrest : ∀ j ∈ Instr.partsOf rest, P.covers j :=
      fun j hj => hi j (by simp [Instr.partsOf, hj])
    simp only [Instr.sequence]
    refine h.andThen (step h (fun w' => declarations h rest w' hrest) i w fun j hj => hi j ?_)
      fun w' _ flow => ?_
    · simp [Instr.partsOf, hj]
    · cases flow with
      | halt => exact h.pure _
      | goOn => exact sequence h rest w' hrest

/-- The declarations among instructions. -/
theorem declarations (h : P.Executes e₁ e₂ b₁ b₂) :
    ∀ (instrs : List Instr) (w : W), (∀ j ∈ Instr.partsOf instrs, P.covers j) →
      P.same w (Instr.declarations e₁ b₁ instrs) (Instr.declarations e₂ b₂ instrs)
  | [], _, _ => by
    simp only [Instr.declarations]
    exact h.pure _
  | i :: rest, w, hi => by
    have hrest := fun w' =>
      declarations h rest w' fun j hj => hi j (by simp [Instr.partsOf, hj])
    have hstep := step h (fun _ => h.pure ()) i w fun j hj => hi j (by simp [Instr.partsOf, hj])
    simp only [Instr.declarations]
    split
    · exact h.andThen (h.discard hstep) fun w' _ _ => hrest w'
    · exact hrest w

/-- The branches of a condition. -/
theorem firstBranch (h : P.Executes e₁ e₂ b₁ b₂) {a b : Action Flow} (hab : ∀ w, P.same w a b) :
    ∀ (branches : List (Expr × List Instr)) (w : W),
      (∀ j ∈ Instr.branchParts branches, P.covers j) → (∀ b ∈ branches, b.1.Every P.expr) →
      P.same w (Instr.firstBranch e₁ b₁ a branches) (Instr.firstBranch e₂ b₂ b branches)
  | [], w, _, _ => by
    simp only [Instr.firstBranch]
    exact hab w
  | (cond, body) :: rest, w, hi, hx => by
    simp only [Instr.firstBranch]
    refine h.andThen (h.eval w (hx _ (List.mem_cons_self ..))) fun w' _ v => ?_
    split
    · exact sequence h body w' fun j hj => hi j (by simp [Instr.branchParts, hj])
    · refine firstBranch h hab rest w' (fun j hj => hi j ?_) fun b hb => ?_
      · simp [Instr.branchParts, hj]
      · exact hx b (List.mem_cons_of_mem _ hb)

end

end Executes

end GrowingPairing

end Stencil
