import Stencil.Proofs.Inheritance.Handovers

/-!
# The last step of a main part

An `extend` halts the main part that it stands in. The halt is told by a value that every
condition and every loop around it has to pass on, so nothing in the definition of a run says
that the parent comes last.

Here the run is cut in two. `Instr.untilParent` runs instructions up to the first `extend` that
they come to, with what is declared after it in the same list, and tells which parent is to
render. It leaves the loops around the `extend` as they stand, for the parent sees their names.
`Handover.render` renders the parent and cuts the locals back to where the loops began. **A run
is the one followed by the other** (`Instr.sequence_eq`): whatever a main part does,
it does before its parent renders.

What comes before the parent adds nothing to the chain, and so it renders no other parent, as
long as no assignment captures an `extend`. The capture keeps the halt to itself
(`Engine.not_capture_halts`).
-/

namespace Stencil

/-- Cutting back twice is cutting back to the lower mark. -/
theorem Scope.truncate_truncate (m m' : Nat) (s : Scope) :
    (s.truncate m).truncate m' = s.truncate (min m m') := by
  simp only [Scope.truncate, List.drop_drop, List.length_drop]
  congr 2
  omega

/-! ### Up to the parent -/

/-- A parent that instructions have come to. If loops stand around its `extend`, no more locals
than there were at the mark are left when it has rendered. -/
structure Handover where
  parent : Template
  mark : Option Nat := none

namespace Handover

/-- The same out of a loop whose round began at a mark. -/
def outOf (mark : Nat) (h : Handover) : Handover :=
  { h with mark := some (h.mark.elim mark fun inner => min inner mark) }

/-- Cuts a scope back to the mark. -/
def cut (h : Handover) (s : Scope) : Scope :=
  h.mark.elim s fun mark => s.truncate mark

theorem cut_outOf (mark : Nat) (h : Handover) (s : Scope) :
    (h.outOf mark).cut s = (h.cut s).truncate mark := by
  obtain ⟨t, _ | inner⟩ := h
  · rfl
  · exact (Scope.truncate_truncate inner mark s).symm

/-- Renders the parent. Then the loops around are left, and that is all. -/
def render (e : Engine) (below : Below) (h : Handover) : Action Unit := fun c =>
  let (r, d) := below.callParent e h.parent c
  (r, { d with scope := h.cut d.scope })

theorem render_of_no_loop (e : Engine) (below : Below) (t : Template) :
    ({ parent := t } : Handover).render e below = below.callParent e t := rfl

/-- Out of a loop the locals are cut back once more. -/
theorem render_outOf (e : Engine) (below : Below) (mark : Nat) (h : Handover) (c : Context) :
    (h.outOf mark).render e below c =
      ((h.render e below c).1,
        { (h.render e below c).2 with
          scope := (h.render e below c).2.scope.truncate mark }) := by
  simp only [render, cut_outOf]
  rfl

/-- Renders the parent, if there is one. -/
def finish (e : Engine) (below : Below) : Option Handover → Action Flow
  | none => return .goOn
  | some h => do
    h.render e below
    return .halt

/-- Takes away the locals that the action brings, unless it has come to a parent. -/
def withLocals (body : Action (Option Handover)) : Action (Option Handover) := fun c =>
  match body c with
  | (.ok (some h), d) => (.ok (some (h.outOf c.scope.mark)), d)
  | (r, d) => (r, { d with scope := d.scope.truncate c.scope.mark })

/-- The locals that were left for the parent are taken away when it has rendered. -/
theorem withLocals_finish (e : Engine) (below : Below) (body : Action (Option Handover)) :
    Action.withLocals (body >>= finish e below) = withLocals body >>= finish e below := by
  funext c
  simp only [Action.withLocals, Action.bind_apply, withLocals]
  generalize body c = r
  obtain ⟨fault | ⟨⟩ | h, d⟩ := r
  · rfl
  · rfl
  · simp only [finish, Action.bind_apply, render_outOf]
    generalize h.render e below d = r'
    obtain ⟨fault | ⟨⟩, d'⟩ := r' <;> rfl

end Handover

namespace Instr

/-- One round of a loop. Its names are gone afterwards, unless it has come to a parent. -/
def roundUntilParent (key : Option String) (value : String) (length : Nat)
    (body : Action (Option Handover)) (index : Nat) (pair : Value × Value) :
    Action (Option Handover) :=
  Handover.withLocals do
    bindRound key value pair index length
    body

/-- Runs the body of a loop for each pair from an index on, until it comes to a parent. -/
def roundsUntilParent (key : Option String) (value : String) (length : Nat)
    (body : Action (Option Handover)) :
    (index : Nat) → List (Value × Value) → Action (Option Handover)
  | _, [] => return none
  | index, pair :: pairs => do
    match ← roundUntilParent key value length body index pair with
    | some h => return some h
    | none => roundsUntilParent key value length body (index + 1) pairs

section Running

variable (e : Engine) (below : Below)

mutual

/-- Runs one instruction up to a parent. Only a condition, a loop and an `extend` come to one. -/
def stepUntilParent (declarations : Action Unit) : Instr → Action (Option Handover)
  | .branch branches otherwise => branchUntilParent (untilParent otherwise) branches
  | .loop key value iterable body otherwise => do
    let pairs ← Action.lift (← iterable.eval e below).pairs
    if pairs.isEmpty then untilParent otherwise
    else roundsUntilParent key value pairs.length (untilParent body) 0 pairs
  | .extend parent => do
    let t ← Action.fetch e (← parent.eval e below).display
    declarations
    return some { parent := t }
  | i => do
    discard (step e below (pure ()) i)
    return none

/-- Runs instructions in their order up to the first parent, without rendering it. -/
def untilParent : List Instr → Action (Option Handover)
  | [] => return none
  | i :: rest => do
    match ← stepUntilParent (declarations e below rest) i with
    | some h => return some h
    | none => untilParent rest

/-- Runs the first branch whose condition holds, or else the other action. -/
def branchUntilParent (otherwise : Action (Option Handover)) :
    List (Expr × List Instr) → Action (Option Handover)
  | [] => otherwise
  | (cond, body) :: rest => do
    if (← cond.eval e below).isTruthy then untilParent body
    else branchUntilParent otherwise rest

end

end Running

/-! ### A run is cut in two -/

section Cut

variable {e : Engine} {below : Below}

theorem round_eq (key : Option String) (value : String) (length : Nat)
    (body : Action (Option Handover)) (index : Nat) (pair : Value × Value) :
    round key value length (body >>= Handover.finish e below) index pair =
      roundUntilParent key value length body index pair >>= Handover.finish e below := by
  rw [round, roundUntilParent, ← Handover.withLocals_finish, bind_assoc]

theorem rounds_eq (key : Option String) (value : String) (length : Nat)
    (body : Action (Option Handover)) (index : Nat) (pairs : List (Value × Value)) :
    rounds key value length (body >>= Handover.finish e below) index pairs =
      roundsUntilParent key value length body index pairs >>= Handover.finish e below := by
  induction pairs generalizing index with
  | nil => rfl
  | cons pair pairs ih =>
    rw [rounds, roundsUntilParent, round_eq, bind_assoc, bind_assoc]
    refine congrArg _ (funext fun h => ?_)
    cases h with
    | none => exact ih (index + 1)
    | some h => simp [Handover.finish]

mutual

theorem step_eq (d : Action Unit) :
    ∀ i : Instr, step e below d i = stepUntilParent e below d i >>= Handover.finish e below
  | .branch branches otherwise => by
    rw [step, stepUntilParent, sequence_eq otherwise]
    exact firstBranch_eq _ branches
  | .loop key value iterable body otherwise => by
    rw [step, stepUntilParent, bind_assoc]
    refine congrArg _ (funext fun v => ?_)
    rw [bind_assoc]
    refine congrArg _ (funext fun pairs => ?_)
    split
    · exact sequence_eq otherwise
    · rw [sequence_eq body]
      exact rounds_eq ..
  | .extend parent => by
    simp only [step, stepUntilParent, bind_assoc, pure_bind, Handover.finish,
      Handover.render_of_no_loop]
  -- all others go on in any case
  | .text s => by simp [step, stepUntilParent, Action.discard_eq, Handover.finish]
  | .output value => by simp [step, stepUntilParent, Action.discard_eq, Handover.finish]
  | .set name value => by simp [step, stepUntilParent, Action.discard_eq, Handover.finish]
  | .capture name body => by simp [step, stepUntilParent, Action.discard_eq, Handover.finish]
  | .callBlock name => by simp [step, stepUntilParent, Action.discard_eq, Handover.finish]
  | .embed template vars only ignoreMissing => by
    simp only [step, stepUntilParent, Action.discard_eq, bind_assoc, pure_bind, Handover.finish]
    refine congrArg _ (funext fun v => congrArg _ (funext fun t => ?_))
    cases t <;> simp
  | .importAs template newName => by
    simp [step, stepUntilParent, Action.discard_eq, Handover.finish]
  | .importNames template names => by
    simp [step, stepUntilParent, Action.discard_eq, Handover.finish]
  | .transform t body => by simp [step, stepUntilParent, Action.discard_eq, Handover.finish]

theorem sequence_eq :
    ∀ instrs : List Instr,
      sequence e below instrs = untilParent e below instrs >>= Handover.finish e below
  | [] => by
    rw [sequence, untilParent]
    rfl
  | i :: rest => by
    rw [sequence, untilParent, step_eq _ i, bind_assoc, bind_assoc]
    refine congrArg _ (funext fun h => ?_)
    cases h with
    | none => exact sequence_eq rest
    | some h => simp [Handover.finish]

theorem firstBranch_eq (a : Action (Option Handover)) :
    ∀ branches : List (Expr × List Instr),
      firstBranch e below (a >>= Handover.finish e below) branches =
        branchUntilParent e below a branches >>= Handover.finish e below
  | [] => by
    rw [firstBranch, branchUntilParent]
  | (cond, body) :: rest => by
    rw [firstBranch, branchUntilParent, bind_assoc]
    refine congrArg _ (funext fun v => ?_)
    split
    · exact sequence_eq body
    · exact firstBranch_eq a rest

end

end Cut

/-! ### No parent before the last step -/

/-- Whether the instruction, if it is an assignment of a captured text, captures no `extend`. -/
def CapturesNoParent (i : Instr) : Prop :=
  ∀ name body, i = .capture name body → anyHandsOver body = false

/-- Whether an instruction is native and captures no `extend`. -/
def Plain (i : Instr) : Prop :=
  i.Native ∧ i.CapturesNoParent

section Keeping

variable {e : Engine} (he : e.Follows .handovers) (n : Nat) {σ : Setting} {t : Template}

include he

theorem eval_keeps (x : Expr) :
    (σ.pairing .handovers).rel Eq (x.eval e (e.below n)) (x.eval e (e.below n)) :=
  (Setting.evaluates he (Setting.belows_self he n σ)).eval fun _ _ => trivial

/-- An instruction without an `extend` inside keeps a setting. -/
theorem step_keeps (howner : σ.owners.head? = some t) {i : Instr}
    (hi : ∀ j ∈ i.parts, ∀ x, j ≠ .extend x) :
    (σ.pairing .handovers).rel Eq (step e (e.below n) (pure ()) i)
      (step e (e.below n) (pure ()) i) := by
  have hexecutes := Setting.executes he (Setting.belows_self he n σ)
  refine hexecutes.growing.step (fun _ => Setting.result rfl) i .still fun j hj => ?_
  exact ⟨⟨t, howner, fun h => h.elim, fun _ _ => hi j hj⟩, fun _ _ _ _ => trivial⟩

theorem declarations_keeps (howner : σ.owners.head? = some t) (instrs : List Instr) :
    (σ.pairing .handovers).rel Eq (declarations e (e.below n) instrs)
      (declarations e (e.below n) instrs) := by
  induction instrs with
  | nil =>
    rw [declarations]
    exact Setting.result rfl
  | cons i rest ih =>
    rw [declarations]
    split
    next hi =>
      -- a declaration is neither an `extend` nor has anything inside
      have hparts : ∀ j ∈ i.parts, ∀ x, j ≠ .extend x := by
        cases i <;> simp_all [isDeclaration, parts]
      have hstep := step_keeps he n howner hparts
      rw [Action.discard_eq]
      exact Setting.andThen (Setting.andThen hstep fun _ => Setting.result rfl) fun _ => ih
    next => exact ih

/-- So does one that cannot come to a parent. -/
theorem leaf_keeps (howner : σ.owners.head? = some t) {i : Instr}
    (hi : ∀ j ∈ i.parts, ∀ x, j ≠ .extend x) :
    (σ.pairing .handovers).rel Eq
      (do discard (step e (e.below n) (pure ()) i); return (none : Option Handover))
      (do discard (step e (e.below n) (pure ()) i); return none) := by
  have hstep := step_keeps he n howner hi
  rw [Action.discard_eq]
  exact Setting.andThen (Setting.andThen hstep fun _ => Setting.result rfl) fun _ =>
    Setting.result rfl

omit he in
theorem withLocals_keeps {a : Action (Option Handover)} (ha : (σ.pairing .handovers).rel Eq a a) :
    (σ.pairing .handovers).rel Eq (Handover.withLocals a) (Handover.withLocals a) := by
  intro c hc
  have hends := ha c hc
  unfold Handover.withLocals
  generalize a c = r at hends
  cases hends with
  | fail hfault hd => exact .fail hfault { hd with knows := { hd.knows with } }
  | @give h _ d _ hd =>
    cases h with
    | none => exact .give rfl { hd with knows := { hd.knows with } }
    | some h => exact .give rfl hd

omit he in
theorem rounds_keeps (key : Option String) (value : String) (length : Nat)
    {a : Action (Option Handover)} (ha : (σ.pairing .handovers).rel Eq a a) (index : Nat)
    (pairs : List (Value × Value)) :
    (σ.pairing .handovers).rel Eq (roundsUntilParent key value length a index pairs)
      (roundsUntilParent key value length a index pairs) := by
  induction pairs generalizing index with
  | nil => exact Setting.result rfl
  | cons pair pairs ih =>
    have hbind : (σ.pairing .handovers).rel Eq (bindRound key value pair index length)
        (bindRound key value pair index length) := by
      have hrest := Setting.andThen (Setting.push (R := .handovers) (σ := σ) value pair.2) fun _ =>
        Setting.push "loop" (loopValue index length)
      cases key with
      | none => exact hrest
      | some name => exact Setting.andThen (Setting.push name pair.1) fun _ => hrest
    rw [roundsUntilParent]
    refine Setting.andThen (withLocals_keeps (Setting.andThen hbind fun _ => ha)) fun h => ?_
    cases h with
    | none => exact ih (index + 1)
    | some h => exact Setting.result rfl

mutual

theorem stepUntilParent_keeps (howner : σ.owners.head? = some t) {d : Action Unit}
    (hd : (σ.pairing .handovers).rel Eq d d) :
    ∀ i : Instr, (∀ j ∈ i.parts, j.Plain) →
      (σ.pairing .handovers).rel Eq (stepUntilParent e (e.below n) d i)
        (stepUntilParent e (e.below n) d i)
  | .branch branches otherwise, hi => by
    have hotherwise := untilParent_keeps howner otherwise fun j hj => hi j (by simp [parts, hj])
    rw [stepUntilParent]
    exact branchUntilParent_keeps howner hotherwise branches fun j hj => hi j (by simp [parts, hj])
  | .loop key value iterable body otherwise, hi => by
    have hbody := untilParent_keeps howner body fun j hj => hi j (by simp [parts, hj])
    have hotherwise := untilParent_keeps howner otherwise fun j hj => hi j (by simp [parts, hj])
    rw [stepUntilParent]
    refine Setting.andThen (eval_keeps he n iterable) fun v => Setting.andThen ?_ fun pairs => ?_
    · exact Setting.lift fun _ _ hclosed => hclosed.elim
    · split
      · exact hotherwise
      · exact rounds_keeps key value _ hbody 0 pairs
  | .extend parent, _ => by
    rw [stepUntilParent]
    refine Setting.andThen (eval_keeps he n parent) fun v => ?_
    refine Setting.bind (Setting.fetch he.compiles v.display) ?_
    rintro t _ ⟨rfl, -⟩
    exact Setting.andThen hd fun _ => Setting.result rfl
  | .capture name body, hi => by
    refine leaf_keeps he n howner fun j hj x => ?_
    rcases List.mem_cons.mp hj with rfl | hj
    · exact fun h => by cases h
    · have hbody := (hi _ (mem_parts_self _)).2 name body rfl
      exact ne_extend_of_any body hbody (fun k hk => (hi k (by simp [parts, hk])).1) j hj x
  | .transform t body, hi => absurd rfl ((hi _ (mem_parts_self _)).1 t body)
  | .text s, _ => leaf_keeps he n howner (by simp [parts])
  | .output value, _ => leaf_keeps he n howner (by simp [parts])
  | .set name value, _ => leaf_keeps he n howner (by simp [parts])
  | .callBlock name, _ => leaf_keeps he n howner (by simp [parts])
  | .embed template vars only ignoreMissing, _ => leaf_keeps he n howner (by simp [parts])
  | .importAs template newName, _ => leaf_keeps he n howner (by simp [parts])
  | .importNames template names, _ => leaf_keeps he n howner (by simp [parts])

theorem untilParent_keeps (howner : σ.owners.head? = some t) :
    ∀ instrs : List Instr, (∀ j ∈ partsOf instrs, j.Plain) →
      (σ.pairing .handovers).rel Eq (untilParent e (e.below n) instrs)
        (untilParent e (e.below n) instrs)
  | [], _ => by
    rw [untilParent]
    exact Setting.result rfl
  | i :: rest, hi => by
    have hdeclarations := declarations_keeps he n howner rest
    have hstep := stepUntilParent_keeps howner hdeclarations i fun j hj =>
      hi j (by simp [partsOf, hj])
    rw [untilParent]
    refine Setting.andThen hstep fun h => ?_
    cases h with
    | none => exact untilParent_keeps howner rest fun j hj => hi j (by simp [partsOf, hj])
    | some h => exact Setting.result rfl

theorem branchUntilParent_keeps (howner : σ.owners.head? = some t)
    {a : Action (Option Handover)} (ha : (σ.pairing .handovers).rel Eq a a) :
    ∀ branches : List (Expr × List Instr), (∀ j ∈ branchParts branches, j.Plain) →
      (σ.pairing .handovers).rel Eq (branchUntilParent e (e.below n) a branches)
        (branchUntilParent e (e.below n) a branches)
  | [], _ => by
    rw [branchUntilParent]
    exact ha
  | (cond, body) :: rest, hi => by
    rw [branchUntilParent]
    refine Setting.andThen (eval_keeps he n cond) fun v => ?_
    split
    · exact untilParent_keeps howner body fun j hj => hi j (by simp [branchParts, hj])
    · exact branchUntilParent_keeps howner ha rest fun j hj => hi j (by simp [branchParts, hj])

end

end Keeping

end Instr

/-- A template without transforms. -/
theorem Template.Loaded.native {t : Template} (h : t.Loaded) : t.program.Every Instr.Native := by
  obtain ⟨d, hload, hnative⟩ := h
  rw [Draft.load] at hload
  split at hload
  next => cases hload
  next =>
    have hprogram : d.program = t.program := congrArg Template.program (Except.ok.inj hload)
    exact hprogram ▸ hnative

/-- **The parent renders last.** Let a loaded template own the instructions, and let no assignment
in its main part capture an `extend`. Then a run of the main part is a run up to the first
`extend` that it comes to, which adds no parent to the chain, and after that, if it came to one,
the rendering of this one parent. Nothing runs and nothing is written after it; only the locals of
the loops around are taken away. -/
theorem Engine.parent_renders_last (e : Engine) (htags : e.language.tags = TagTable.builtins)
    (n : Nat) {t : Template} (ht : t.Loaded)
    (hcaptures : ∀ i ∈ Instr.partsOf t.main, i.CapturesNoParent) {c : Context}
    (hc : c.Knows Template.Loaded) (howner : c.owner? = some t) :
    let before := Instr.untilParent e (e.below n) t.main c
    before.2.chain = c.chain ∧
      (e.level n).run t.main c =
        match before with
        | (.ok (some h), d) => h.render e (e.below n) d
        | (.ok none, d) => (.ok (), d)
        | (.error fault, d) => (.error fault, d) := by
  intro before
  constructor
  · have hplain : ∀ i ∈ Instr.partsOf t.main, i.Plain :=
      fun i hi => ⟨ht.native.main i hi, hcaptures i hi⟩
    have hknows := hc.mono fun t => Template.Loaded.obeys
    have hends := Instr.untilParent_keeps (Engine.follows_handovers htags) n
      (σ := .of c True) howner t.main hplain c (Setting.holds_of hknows True)
    change (Instr.untilParent e (e.below n) t.main c).2.chain = c.chain
    generalize Instr.untilParent e (e.below n) t.main c = r at hends
    cases hends with
    | fail _ hd => exact hd.chain trivial trivial
    | give _ hd => exact hd.chain trivial trivial
  · rw [Engine.level_eq_over]
    change discard (Instr.sequence e (e.below n) t.main) c = _
    rw [Instr.sequence_eq, Action.discard_eq, bind_assoc, Action.bind_apply]
    subst before
    generalize Instr.untilParent e (e.below n) t.main c = r
    obtain ⟨fault | ⟨⟩ | h, d⟩ := r
    · rfl
    · rfl
    · simp [Handover.finish]

/-! ### A letter with a choice -/

/-- A letter that extends the last of several, and says what it is about after the `extend`. -/
def choosingLetter : Template where
  id := 2
  name := "choosing"
  program := {
    main := [
      .loop none "letter" (.var "letters") [
        .text "not ", .output (.var "letter"), .text ", ",
        .branch [(.attr (.var "loop") "last",
          [.extend (.var "letter"), .text "lost", .set "matter" (.literal (.str "rain"))])] []]
        [],
      .text "lost too"] }

/-- A rendering of it. -/
def choosingContext : Context where
  store := { source := .ofTemplates [
    ("hail", "about {{ matter }} and {{ letter }}")] }
  scope := Scope.ofValue (.map [("letters", .list [.str "snow", .str "hail"])])
  chain := [choosingLetter]
  owners := [choosingLetter]

theorem loaded_choosingLetter : choosingLetter.Loaded := by
  refine ⟨⟨"choosing", choosingLetter.program⟩, rfl, ?_⟩
  constructor <;>
    simp [choosingLetter, Instr.partsOf, Instr.parts, Instr.branchParts, Instr.Native]

theorem knows_choosingContext : choosingContext.Knows Template.Loaded where
  store k t ht := by cases k <;> cases ht
  chain := by simp [choosingContext, loaded_choosingLetter]
  owners := by simp [choosingContext, loaded_choosingLetter]
  imports _ _ ht := by cases ht
  importedMacros _ _ hm := by cases hm

/-- The second round of the loop comes to the parent, which sees the name of the round and what is
declared after the `extend`. -/
theorem Engine.parent_renders_last_choosingLetter :
    let e : Engine := {}
    let before := Instr.untilParent e (e.below 2) choosingLetter.main choosingContext
    e.language.tags = TagTable.builtins ∧ choosingLetter.Loaded ∧
      (∀ i ∈ Instr.partsOf choosingLetter.main, i.CapturesNoParent) ∧
      choosingContext.Knows Template.Loaded ∧ choosingContext.owner? = some choosingLetter ∧
      before.2.chain = [choosingLetter] ∧
      (e.level 2).run choosingLetter.main choosingContext =
        (match before with
        | (.ok (some h), d) => h.render e (e.below 2) d
        | (.ok none, d) => (.ok (), d)
        | (.error fault, d) => (.error fault, d)) ∧
      ((e.level 2).run choosingLetter.main choosingContext).2.output =
        "not snow, not hail, about rain and hail" := by
  have hcaptures : ∀ i ∈ Instr.partsOf choosingLetter.main, i.CapturesNoParent := by
    simp [choosingLetter, Template.main, Instr.partsOf, Instr.parts, Instr.branchParts,
      Instr.CapturesNoParent]
  obtain ⟨hchain, hrun⟩ := Engine.parent_renders_last {} rfl 2 loaded_choosingLetter hcaptures
    knows_choosingContext rfl
  exact ⟨rfl, loaded_choosingLetter, hcaptures, knows_choosingContext, rfl, hchain, hrun,
    by decide +kernel⟩

/-- A letter that captures what it extends. -/
def capturingLetter : Template where
  id := 3
  name := "capturing"
  program := {
    main := [.capture "copy" [.extend (.literal (.str "letter"))], .text "after"] }

/-- A rendering of it. -/
def capturingContext : Context where
  store := { source := .ofTemplates [("letter", "dear you")] }
  chain := [capturingLetter]
  owners := [capturingLetter]

/-- **A capture keeps the halt to itself**: the parent has rendered and joined the chain, and the
main part that extends it goes on and writes. -/
theorem Engine.not_capture_halts :
    (¬ ∀ (e : Engine) (n : Nat) (t : Template) (c : Context),
        e.language.tags = TagTable.builtins → t.Loaded → c.Knows Template.Loaded →
        c.owner? = some t → (Instr.untilParent e (e.below n) t.main c).2.chain = c.chain) ∧
      let after := ((({} : Engine).level 2).run capturingLetter.main capturingContext).2
      after.chain.map Template.name = ["capturing", "letter"] ∧ after.output = "after" := by
  refine ⟨fun h => ?_, by decide +kernel, by decide +kernel⟩
  have hloaded : capturingLetter.Loaded := by
    refine ⟨⟨"capturing", capturingLetter.program⟩, rfl, ?_⟩
    constructor <;> simp [capturingLetter, Instr.partsOf, Instr.parts, Instr.Native]
  have hknows : capturingContext.Knows Template.Loaded := by
    refine ⟨fun k t ht => ?_, ?_, ?_, fun _ _ ht => ?_, fun _ _ hm => ?_⟩
    · cases k <;> cases ht
    · simp [capturingContext, hloaded]
    · simp [capturingContext, hloaded]
    · cases ht
    · cases hm
  have hchain := congrArg List.length
    (h {} 2 capturingLetter capturingContext rfl hloaded hknows rfl)
  have htwo : (Instr.untilParent {} (({} : Engine).below 2) capturingLetter.main
      capturingContext).2.chain.length = 2 := by decide +kernel
  rw [htwo] at hchain
  cases hchain

end Stencil
