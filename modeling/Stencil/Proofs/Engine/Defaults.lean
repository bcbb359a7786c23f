import Stencil.Proofs.Engine.Fetching
import Stencil.Proofs.Render.Framing
import Stencil.Proofs.Render.Lockstep

/-!
# Defaults of parameters

The body of a macro is owned by the template of the macro, but the defaults of its parameters are
evaluated before that, while the instructions are still those of the caller. So an unqualified call
in a default means a macro of the **caller**, and so does one through `_self`; from a host, which
owns no instructions, it means a function or nothing.

Here it is shown that this is the only way in which the owners around a call matter to it. A default
can but **inquire** after the innermost owner: for its macros by their names, or for the owner
itself. If two owners give the same answers to all that defaults may ask, then a call gives the same
value or the same failure with either of them, and leaves the same context but for the owners. What
a default calls has defaults of its own, which are evaluated while the same caller is the owner; so
an inquiry is asked of all templates that may be come upon.
-/

open Stencil.Action

namespace Stencil

/-! ### Inquiries -/

/-- What defaults may ask about the owner of the instructions around a call. -/
structure Inquiry where
  /-- The names by which its macros may be called. -/
  macros : String → Prop := fun _ => True
  /-- Whether it may be asked for itself. -/
  self : Prop := True

namespace Inquiry

variable (Q : Inquiry)

/-- Whether the call, if the expression is one, asks no more than may be asked. -/
def expr : Expr → Prop
  | .call (.var name) _ => Q.macros name
  | .call (.attr (.var name) _) _ => name = "_self" → Q.self
  | _ => True

/-- Whether two owners, or an owner and none, give the same answers. -/
structure Alike (o o' : Option Template) : Prop where
  macros (name : String) (h : Q.macros name) :
    (o'.filter fun t => (t.findMacro? name).isSome) = o.filter fun t => (t.findMacro? name).isSome
  self (h : Q.self) : o' = o

end Inquiry

/-- Whether no default of a program asks more than may be asked. -/
def Program.Asks (Q : Inquiry) (p : Program) : Prop :=
  ∀ m ∈ p.macros, ∀ param ∈ m.2.params, ∀ x ∈ param.2, x.Every Q.expr

/-- The same for all templates that a context knows. -/
structure Context.Asks (Q : Inquiry) (c : Context) : Prop where
  chain : ∀ t ∈ c.chain, t.program.Asks Q
  blocks : ∀ b ∈ c.blocks, b.1.program.Asks Q
  owners : ∀ t ∈ c.owners, t.program.Asks Q
  imports : ∀ name t, Table.find? name c.imports = some t → t.program.Asks Q
  importedMacros : ∀ name m, Table.find? name c.importedMacros = some m → m.1.program.Asks Q

/-- The same for all templates that may be fetched. -/
def Engine.Inquires (e : Engine) (Q : Inquiry) (s : Store) : Prop :=
  e.Honest s ∧ ∀ path p, e.content s path = .ok p → p.Asks Q

theorem Engine.Inquires.fetch {e : Engine} {Q : Inquiry} {s : Store} (h : e.Inquires Q s)
    (path : String) :
    e.Inquires Q (e.fetch path s).2 ∧ ∀ t, (e.fetch path s).1 = .ok t → t.program.Asks Q := by
  obtain ⟨hprogram, hcontent, hhonest⟩ := h.1.fetch path
  refine ⟨⟨hhonest, ?_⟩, fun t ht => ?_⟩
  · rw [hcontent]
    exact h.2
  · rw [ht] at hprogram
    exact h.2 path t.program hprogram.symm

/-! ### What the owners do not matter to -/

namespace Action

variable {α : Type} {a : Action α}

/-- An action that neither sees nor changes the owners. -/
def Unowned (a : Action α) : Prop :=
  ∀ (c : Context) (owners : List Template),
    a { c with owners } = ((a c).1, { (a c).2 with owners })

theorem Unowned.owners_eq (ha : a.Unowned) (c : Context) : (a c).2.owners = c.owners :=
  congrArg (fun r => r.2.owners) (ha c c.owners)

theorem Unowned.fault (f : RenderFault) : (Action.fault f : Action α).Unowned :=
  fun _ _ => rfl

theorem Unowned.bind {β : Type} {f : α → Action β} (ha : a.Unowned) (hf : ∀ x, (f x).Unowned) :
    (a >>= f).Unowned := by
  intro c owners
  rw [bind_apply, bind_apply, ha c owners]
  rcases a c with ⟨fault | x, d⟩
  · rfl
  · exact hf x d owners

/-- What looks at the context first, but not at its owners. -/
theorem Unowned.get_bind {f : Context → Action α}
    (hsame : ∀ (c : Context) (owners : List Template), f { c with owners } = f c)
    (hf : ∀ c, (f c).Unowned) : (get >>= f).Unowned := by
  intro c owners
  rw [get_bind_apply, get_bind_apply, hsame c owners]
  exact hf c c owners

/-- A framed action does not see the owners behind the innermost one. -/
theorem Framed.of_head (ha : a.Framed) (c : Context) {owners : List Template}
    (h : owners.head? = c.owners.head?) :
    a { c with owners } = ((a c).1, { (a c).2 with owners }) := by
  obtain ⟨written, hframe⟩ := ha c
  have hhere : (a c).2.output = c.output ++ written :=
    congrArg (fun r => r.2.output) (hframe c.owners c.output rfl)
  have hthere : a { c with owners } =
      ((a c).1, { (a c).2 with owners, output := c.output ++ written }) :=
    hframe owners c.output h
  rw [hthere, ← hhere]

/-- So what a template owns does not see who owned the instructions before. -/
theorem Framed.unowned_withOwner (ha : a.Framed) (t : Template) :
    (Action.withOwner t a).Unowned := by
  intro c owners
  have h : a { c with owners := t :: owners } =
      ((a { c with owners := t :: c.owners }).1,
        { (a { c with owners := t :: c.owners }).2 with owners := t :: owners }) :=
    ha.of_head { c with owners := t :: c.owners } rfl
  simp only [Action.withOwner, h]
  rfl

theorem Unowned.capture {a : Action Unit} (ha : a.Unowned) : (Action.capture a).Unowned := by
  intro c owners
  have h := ha { c with output := "" } owners
  simp only [Action.capture]
  rw [h]
  rfl

theorem Unowned.withBlock (ha : a.Unowned) (t : Template) (name : String) :
    (Action.withBlock t name a).Unowned := by
  intro c owners
  have h := ha { c with blocks := (t, name) :: c.blocks } owners
  simp only [Action.withBlock]
  rw [h]
  rfl

theorem Unowned.deeper (ha : a.Unowned) : (Action.deeper a).Unowned := by
  intro c owners
  have h := ha { c with depth := c.depth + 1 } owners
  simp only [Action.deeper]
  rw [h]
  rfl

theorem Unowned.isolated (ha : a.Unowned) : (Action.isolated a).Unowned := by
  intro c owners
  have h := ha { c with scope := {} } owners
  simp only [Action.isolated, withScope]
  rw [h]
  rfl

end Action

namespace Engine

variable (e : Engine) (n : Nat)

/-- Instructions that a template owns do not see who owned the instructions before. -/
theorem unowned_run (t : Template) (instrs : List Instr) :
    (withOwner t ((e.level n).run instrs)).Unowned :=
  ((e.has compositional_framed n).run instrs).unowned_withOwner t

theorem unowned_callBlock (t : Template) (name : String) :
    ((e.below n).callBlock e t name).Unowned := by
  unfold Below.callBlock
  split
  · exact .fault _
  · cases n with
    | zero => exact .fault _
    | succ n => exact ((e.unowned_run n t _).withBlock t name).deeper

theorem unowned_parentBlock : ((e.below n).parentBlock e).Unowned := by
  refine Unowned.get_bind (fun _ _ => rfl) fun c => ?_
  split
  · exact .fault _
  · split
    · exact .fault _
    · exact (e.unowned_callBlock n _ _).capture.bind fun _ _ _ => rfl

end Engine

/-! ### Runs around which the owners differ -/

namespace Correspondence

/-- The correspondence of a run with itself, in which all templates keep to an inquiry. -/
def asking (e : Engine) (Q : Inquiry) : Correspondence {} where
  stores w s s' := s' = s ∧ e.Inquires Q s ∧ ∀ t u, w.stands t u → u = t ∧ t.program.Asks Q

variable {e : Engine} {Q : Inquiry}

theorem clear_asking (c : Context) : (asking e Q).Clear c :=
  fun _ _ => trivial

theorem lawful_asking (e : Engine) (Q : Inquiry) : (asking e Q).Lawful e e where
  language := rfl
  strict := .inl rfl
  fetch {w s s'} h path := by
    obtain ⟨rfl, hs, hw⟩ := h
    obtain ⟨hs', hasks⟩ := hs.fetch path
    generalize e.fetch path s' = r at hs' hasks
    obtain ⟨fault | t, s⟩ := r
    · exact ⟨w, le_rfl, ⟨rfl, hs', hw⟩, .fail fault⟩
    · refine ⟨w.extend t t rfl rfl t.program.within_all, w.le_extend _ _ _ _ _, ⟨rfl, hs', ?_⟩,
        .give (.inr ⟨rfl, rfl⟩)⟩
      rintro t' u' (h | ⟨rfl, rfl⟩)
      · exact hw t' u' h
      · exact ⟨rfl, hasks _ rfl⟩
  parents {w c d} h t u htu _ := by
    have hw := h.stores.2.2
    obtain ⟨rfl, -⟩ := hw t u htu
    refine forall₂_parentsOf h.chain fun t' u' htu' => ?_
    obtain ⟨rfl, -⟩ := hw t' u' htu'
    exact Iff.rfl

theorem levels_asking (e : Engine) (Q : Inquiry) (n : Nat) :
    (asking e Q).Levels (e.level n) (e.level n) :=
  levels (k := 0) (lawful_asking e Q) clear_asking (.bottom rfl) n

theorem belows_asking (e : Engine) (Q : Inquiry) (n : Nat) :
    (asking e Q).Belows e e (e.below n) (e.below n) :=
  belows (k := 0) (lawful_asking e Q) clear_asking (.bottom rfl) n

end Correspondence

namespace Inquiry

open Correspondence

variable {e : Engine} {Q : Inquiry} {w : World {}} {α β : Type} {S : World {} → α → α → Prop}
  {c : Context} {owners : List Template}

/-- How two runs end that began in contexts which differ in their owners only: with the same
failure, or with related results, and in contexts that differ in nothing else either. -/
inductive Ends (e : Engine) (Q : Inquiry) (S : World {} → α → α → Prop) (w : World {}) (c : Context)
    (owners : List Template) : Except Error α × Context → Except Error α × Context → Prop
  | fail {fault : Error} {c' : Context} :
    Ends e Q S w c owners (.error fault, c') (.error fault, { c' with owners })
  | give {x y : α} {c' : Context} {w' : World {}} (hw : w ≤ w')
    (h : (asking e Q).Contexts w' c' c') (howners : c'.owners = c.owners) (hxy : S w' x y) :
    Ends e Q S w c owners (.ok x, c') (.ok y, { c' with owners })

/-- **The pairing of runs with different owners around them**, which give the same answers. -/
def pairing (e : Engine) (Q : Inquiry) : GrowingPairing (World {}) where
  rel w S a b := ∀ (c : Context) (owners : List Template), (asking e Q).Contexts w c c →
    Q.Alike c.owner? owners.head? → Ends e Q S w c owners (a c) (b { c with owners })
  owner := World.stands
  fetched := World.stands
  expr := Q.expr

theorem result {x y : α} (h : S w x y) : (pairing e Q).rel w S (pure x) (pure y) :=
  fun _ _ hc _ => .give le_rfl hc rfl h

theorem fail (fault : Error) : (pairing e Q).rel w S (throw fault) (throw fault) :=
  fun _ _ _ _ => .fail

theorem bind {T : World {} → β → β → Prop} {a b : Action α} {f g : α → Action β}
    (h : (pairing e Q).rel w S a b)
    (hf : ∀ w', w ≤ w' → ∀ x y, S w' x y → (pairing e Q).rel w' T (f x) (g y)) :
    (pairing e Q).rel w T (a >>= f) (b >>= g) := by
  intro c owners hc halike
  have hab := h c owners hc halike
  rw [Action.bind_apply, Action.bind_apply]
  generalize a c = r₁, b { c with owners } = r₂ at hab
  cases hab with
  | fail => exact .fail
  | @give x y c' w' hw hc' howners hxy =>
    -- the first action has left the owners, so the same answers are given to the second one
    have halike' : Q.Alike c'.owner? owners.head? := by
      rw [Context.owner?, howners]
      exact halike
    have hrest := hf w' hw x y hxy c' owners hc' halike'
    dsimp only
    generalize f x c' = r₁, g y { c' with owners } = r₂ at hrest
    cases hrest with
    | fail => exact .fail
    | give hw' hc'' howners' hxy' =>
      exact .give (hw.trans hw') hc'' (howners'.trans howners) hxy'

/-- What does not see the owners. -/
theorem of_unowned {a : Action α} (ha : a.Unowned) (hself : (asking e Q).pairing.same w a a) :
    (pairing e Q).same w a a := by
  intro c owners hc _
  have hends := hself c c hc (clear_asking c)
  have howners := ha.owners_eq c
  rw [ha c owners]
  generalize a c = r at hends howners
  obtain ⟨r, c'⟩ := r
  cases hends with
  | refuse h => exact h.elim
  | fail => exact .fail
  | give hw h _ _ _ _ => exact .give hw h howners rfl

theorem deeper {a b : Action α} (h : (pairing e Q).rel w S a b) :
    (pairing e Q).rel w S (Action.deeper a) (Action.deeper b) := by
  intro c owners hc halike
  have hinner := h { c with depth := c.depth + 1 } owners { hc with } halike
  simp only [Action.deeper]
  generalize a { c with depth := c.depth + 1 } = r₁,
    b { c with owners, depth := c.depth + 1 } = r₂ at hinner
  cases hinner with
  | fail => exact .fail
  | give hw h' howners hxy => exact .give hw { h' with } howners hxy

theorem isolated {a b : Action α} (h : (pairing e Q).rel w S a b) :
    (pairing e Q).rel w S (Action.isolated a) (Action.isolated b) := by
  intro c owners hc halike
  have hinner := h { c with scope := {} } owners { hc with scope := rfl } halike
  simp only [Action.isolated, Action.withScope]
  generalize a { c with scope := {} } = r₁, b { c with owners, scope := {} } = r₂ at hinner
  cases hinner with
  | fail => exact .fail
  | give hw h' howners hxy => exact .give hw { h' with scope := rfl } howners hxy

/-! ### Evaluation -/

/-- Whether calls of macros end alike. -/
def Calls (e : Engine) (Q : Inquiry) (b : Below) : Prop :=
  ∀ {w : World {}} {t u : Template}, w.stands t u → ∀ (name : String) (args : List Value),
    (pairing e Q).same w (b.callMacro e t name args) (b.callMacro e u name args)

/-- A call without a qualifier asks the owner for its macro, unless there is an imported one. -/
theorem callNamed {b : Below} (hb : Calls e Q b) {name : String} (hname : Q.macros name)
    (args : List Value) :
    (pairing e Q).same w (Expr.callNamed e b name args) (Expr.callNamed e b name args) := by
  intro c owners hc halike
  have himported := hc.importedMacros name trivial
  have howner := hc.owner?
  have hmacro := halike.macros name hname
  have hthere : ({ c with owners } : Context).owner? = owners.head? := rfl
  rw [Expr.callNamed, Action.get_bind_apply, Action.get_bind_apply, hthere, hmacro]
  dsimp only
  generalize Table.find? name c.importedMacros = o at himported
  cases himported with
  -- an imported macro goes before those of the owner
  | some h => exact hb h.1 _ args c owners hc halike
  | none =>
    dsimp only
    cases hfilter : c.owner?.filter fun t => (t.findMacro? name).isSome with
    | some t =>
      have ht : c.owner? = some t := (Option.filter_eq_some_iff.mp hfilter).1
      rw [ht] at howner
      cases howner with
      | some h => exact hb h name args c owners hc halike
    | none =>
      cases Table.find? name e.language.functions with
      | none => exact .fail
      | some f =>
        dsimp only
        cases f args with
        | ok v => exact result rfl c owners hc halike
        | error fault => exact .fail

/-- A call through `_self` asks for the owner. -/
theorem qualifier {target : Expr} {name : String} {args : List Expr}
    (h : Q.expr (.call (.attr target name) args)) :
    (pairing e Q).rel w (fun w' => Option.Rel w'.stands)
      (do return Expr.qualifier? (← get) target) (do return Expr.qualifier? (← get) target) := by
  intro c owners hc halike
  refine .give le_rfl hc rfl ?_
  cases target with
  | var q =>
    change Option.Rel _ (if q = "_self" then c.owner? else _)
      (if q = "_self" then owners.head? else _)
    split
    next hself =>
      rw [halike.self (h hself)]
      exact hc.owner?
    next => exact hc.imports q trivial
  | _ => exact .none

/-- The parent of a block does not see who owns the instructions around it. -/
theorem parentCall {n : Nat} (hb : Calls e Q (e.below n))
    (h : Q.expr (.call (.var "parent") [])) :
    (pairing e Q).same w (Expr.value? e (e.below n) (.call (.var "parent") []))
      (Expr.value? e (e.below n) (.call (.var "parent") [])) := by
  intro c owners hc halike
  have hself : (asking e Q).pairing.same w ((e.below n).parentBlock e)
      ((e.below n).parentBlock e) :=
    parentBlock (belows_asking e Q n) (lawful_asking e Q)
  simp only [Expr.value?, Expr.values, Action.get_bind_apply, Expr.isParentCall]
  split
  · refine bind (of_unowned (e.unowned_parentBlock n) hself) ?_ c owners hc halike
    rintro _ _ v _ rfl
    exact result rfl
  · refine bind (callNamed hb h []) ?_ c owners hc halike
    rintro _ _ v _ rfl
    exact result rfl

theorem evaluates {n : Nat} (hb : Calls e Q (e.below n)) :
    (pairing e Q).Evaluates e e (e.below n) (e.below n) where
  language := rfl
  result := result
  bind := bind
  fail _ := fail _
  raised _ := trivial
  missing w path := by
    rw [Expr.orMissing]
    split
    · exact fail _
    · exact result rfl
  lookup w name := fun _ _ hc _ => .give le_rfl hc rfl rfl
  parentCall _ h := parentCall hb h
  callNamed _ _ _ h := callNamed hb h
  qualifier _ _ _ _ := qualifier
  callMacro := hb
  owner_mono hw _ _ := World.stands_mono hw

/-! ### Calls -/

theorem push (name : String) (v : Value) :
    (pairing e Q).same w (Action.push name v) (Action.push name v) :=
  fun _ _ hc _ => .give le_rfl { hc with scope := rfl } rfl rfl

/-- Parameters are bound alike if their defaults ask no more than may be asked. -/
theorem bindParams {l : Level}
    (hl : ∀ (x : Expr) (w : World {}), x.Every Q.expr → (pairing e Q).same w (l.eval x) (l.eval x))
    {params : Params} (hparams : ∀ param ∈ params, ∀ x ∈ param.2, x.Every Q.expr)
    (args : List Value) :
    (pairing e Q).same w (l.bindParams params args) (l.bindParams params args) := by
  induction params generalizing args w with
  | nil => exact result rfl
  | cons param params ih =>
    have hvalue : (pairing e Q).same w (l.paramValue args.head? param.2)
        (l.paramValue args.head? param.2) := by
      cases args.head? with
      | some arg => exact result rfl
      | none =>
        cases hdefault : param.2 with
        | none => exact result rfl
        | some x => exact hl x w (hparams param (List.mem_cons_self ..) x hdefault)
    refine bind hvalue ?_
    rintro w' _ v _ rfl
    refine bind (push param.1 v) fun w'' _ _ _ _ => ?_
    exact ih (fun p hp => hparams p (List.mem_cons_of_mem _ hp)) args.tail

/-- Calls end alike on every level: the defaults are evaluated alike, and the body is owned by the
template of the macro. -/
theorem calls (e : Engine) (Q : Inquiry) (n : Nat) : Calls e Q (e.below n) := by
  induction n with
  | zero =>
    intro w t u htu name args c owners hc _
    obtain ⟨rfl, -⟩ := hc.stores.2.2 t u htu
    rw [Below.callMacro]
    cases u.findMacro? name <;> exact .fail
  | succ n ih =>
    intro w t u htu name args c owners hc halike
    obtain ⟨rfl, hasks⟩ := hc.stores.2.2 t u htu
    -- a default may call a macro in turn, but only on the level below
    have heval (x : Expr) (w : World {}) (hx : x.Every Q.expr) :
        (pairing e Q).same w ((e.level n).eval x) ((e.level n).eval x) := by
      rw [Engine.level_eq_over]
      exact (evaluates ih).eval w hx
    rw [Below.callMacro]
    cases hfind : u.findMacro? name with
    | none => exact .fail
    | some m =>
      have hmem := Table.mem_of_find? hfind
      have hbody (w' : World {}) (hw : w ≤ w') :=
        (levels_asking e Q n).captureBody (World.stands_mono hw htu) ((w.within htu).body _ hmem)
      refine deeper (isolated (bind (bindParams heval (hasks _ hmem) args) ?_)) c owners hc halike
      rintro w' hw _ _ -
      refine bind (of_unowned (e.unowned_run n u m.body).capture (hbody w' hw)) ?_
      rintro _ _ s _ rfl
      exact result rfl

end Inquiry

/-! ### Owners around a call -/

namespace Engine

open Correspondence

variable {Q : Inquiry}

/-- A context all of whose templates keep to an inquiry corresponds to itself. -/
theorem contexts_asking {e : Engine} {c : Context} (hstore : e.Inquires Q c.store)
    (hc : c.Asks Q) :
    ∃ w : World {}, (asking e Q).Contexts w c c ∧ ∀ t, t.program.Asks Q → w.stands t t := by
  let w : World {} := {
    stands t u := u = t ∧ t.program.Asks Q
    name h := congrArg Template.name h.1
    program h := congrArg Template.program h.1
    within {t _} _ := t.program.within_all }
  refine ⟨w, ?_, fun t ht => ⟨rfl, ht⟩⟩
  exact {
    stores := ⟨rfl, hstore, fun _ _ h => h⟩
    scope := rfl
    output := rfl
    chain := List.forall₂_same.mpr fun t ht => ⟨rfl, hc.chain t ht⟩
    blocks := List.forall₂_same.mpr fun b hb => ⟨⟨rfl, hc.blocks b hb⟩, rfl⟩
    owners := List.forall₂_same.mpr fun t ht => ⟨rfl, hc.owners t ht⟩
    imports := fun name _ => by
      cases hfind : Table.find? name c.imports with
      | none => exact .none
      | some t => exact .some ⟨rfl, hc.imports name t hfind⟩
    importedMacros := fun name _ => by
      cases hfind : Table.find? name c.importedMacros with
      | none => exact .none
      | some m => exact .some ⟨⟨rfl, hc.importedMacros name m hfind⟩, rfl⟩ }

/-- Arguments for all parameters that have a default are bound without looking at the owners. -/
theorem unowned_bindParams (l : Level) {params : Params} {args : List Value}
    (h : ∀ param ∈ params.drop args.length, param.2 = none) :
    (l.bindParams params args).Unowned := by
  have hpush (name : String) (v : Value) : (Action.push name v).Unowned := fun _ _ => rfl
  induction params generalizing args with
  | nil => exact fun _ _ => rfl
  | cons param params ih =>
    cases args with
    | nil =>
      have hnone : param.2 = none := h param (List.mem_cons_self ..)
      have hrest : (l.bindParams params []).Unowned :=
        ih fun p hp => h p (List.mem_cons_of_mem _ hp)
      rw [Level.bindParams, hnone]
      exact .bind (fun _ _ => rfl) fun v => (hpush param.1 v).bind fun _ => hrest
    | cons arg args =>
      exact .bind (fun _ _ => rfl) fun v => (hpush param.1 v).bind fun _ => ih h

/-- Without defaults to evaluate, a call does not look at the owners. -/
theorem unowned_callMacro (e : Engine) (n : Nat) {t : Template} {name : String} {args : List Value}
    (h : ∀ m, t.findMacro? name = some m → ∀ param ∈ m.params.drop args.length, param.2 = none) :
    ((e.below n).callMacro e t name args).Unowned := by
  unfold Below.callMacro
  split
  next => exact .fault _
  next m hm =>
    cases n with
    | zero => exact .fault _
    | succ n =>
      have hbody := (e.unowned_run n t m.body).capture.bind fun s _ _ =>
        (rfl : (pure (Value.str s) : Action Value) _ = _)
      exact ((unowned_bindParams (e.level n) (h m hm)).bind fun _ => hbody).isolated.deeper

/-- **The owners around a call matter to its defaults only.** A call of a macro has the same value
or fails for the same reason, and leaves the same context but for the owners, whoever owns the
instructions around it: if all parameters with a default are given an argument; if the innermost
owner is the same; and if the two innermost owners give the same answers to all that the defaults
of the templates in play may ask. -/
theorem owners_matter_to_defaults (e : Engine) (n : Nat) (t : Template) (name : String)
    (args : List Value) (c : Context) (owners : List Template) :
    let here := (e.below n).callMacro e t name args c
    let there := (e.below n).callMacro e t name args { c with owners }
    ((∀ m, t.findMacro? name = some m → ∀ param ∈ m.params.drop args.length, param.2 = none) →
      there = (here.1, { here.2 with owners })) ∧
    (owners.head? = c.owners.head? → there = (here.1, { here.2 with owners })) ∧
    ∀ Q : Inquiry, t.program.Asks Q → e.Inquires Q c.store → c.Asks Q →
      Q.Alike c.owner? owners.head? → there = (here.1, { here.2 with owners }) := by
  intro here there
  refine ⟨fun h => e.unowned_callMacro n h c owners, fun h => ?_, fun Q ht hstore hc halike => ?_⟩
  · -- the owners behind the innermost one are never looked at
    have hframed := e.has_below Action.compositional_framed n
    exact (Action.compositional_framed.callMacro hframed e t name args).of_head c h
  obtain ⟨w, hcontexts, hstands⟩ := contexts_asking hstore hc
  have hends : Inquiry.Ends e Q (fun _ => Eq) w c owners here there :=
    Inquiry.calls e Q n (hstands t ht) name args c owners hcontexts halike
  generalize here = r₁, there = r₂ at hends
  cases hends with
  | fail => rfl
  | give _ _ _ hxy => rw [hxy]

/-! ### Forms -/

/-- A library with a macro whose defaults call another one of it, and a function. -/
def formsPage : Template where
  id := 0
  name := "forms"
  program := {
    macros := [("sign", { body := [.text "forms"] }),
      ("field", {
        params := [("label", some (.call (.var "sign") [])),
          ("size", some (.call (.var "max") [.literal (.int 3), .literal (.int 5)]))]
        body := [.output (.var "label"), .output (.var "size")] })] }

/-- A template with a macro of the same name. -/
def signingPage : Template where
  id := 1
  name := "signing"
  program := { macros := [("sign", { body := [.text "page"] })] }

/-- A template with no macro of such a name. -/
def plainPage : Template where
  id := 2
  name := "plain"
  program := { macros := [("hint", { body := [.text "plain"] })] }

/-- What the defaults of the library ask for. -/
def formsInquiry : Inquiry where
  macros name := name = "sign" ∨ name = "max"
  self := False

theorem asks_formsPage : formsPage.program.Asks formsInquiry := by
  have hsign : (Expr.call (.var "sign") []).Every formsInquiry.expr := by
    simp [Expr.Every, Expr.parts, Expr.partsOf, Inquiry.expr, formsInquiry]
  have hsize : (Expr.call (.var "max") [.literal (.int 3), .literal (.int 5)]).Every
      formsInquiry.expr := by
    simp [Expr.Every, Expr.parts, Expr.partsOf, Inquiry.expr, formsInquiry]
  intro m hm param hparam x hx
  rcases List.mem_pair.mp hm with rfl | rfl
  · cases hparam
  · rcases List.mem_pair.mp hparam with rfl | rfl
    · exact Option.mem_some.mp hx ▸ hsign
    · exact Option.mem_some.mp hx ▸ hsize

theorem inquires_empty (e : Engine) (Q : Inquiry) : e.Inquires Q {} := by
  refine ⟨.fresh e .empty, fun path p hp => ?_⟩
  rw [content] at hp
  split at hp <;> cases hp

/-- The library does the same for two callers whose macros it does not ask for, and for any caller
who gives all arguments. -/
theorem owners_matter_to_defaults_formsPage :
    let call := (({} : Engine).below 2).callMacro {} formsPage "field"
    let c : Context := { owners := [plainPage] }
    call [.str "a", .int 1] { c with owners := [signingPage] } =
        ((call [.str "a", .int 1] c).1,
          { (call [.str "a", .int 1] c).2 with owners := [signingPage] }) ∧
      call [] { c with owners := [plainPage, signingPage] } =
        ((call [] c).1, { (call [] c).2 with owners := [plainPage, signingPage] }) ∧
      call [.str "a"] { c with owners := [] } =
        ((call [.str "a"] c).1, { (call [.str "a"] c).2 with owners := [] }) := by
  intro call c
  have hasks : c.Asks formsInquiry := by
    constructor <;> simp [c, plainPage, Program.Asks, Table.find?]
  have halike : formsInquiry.Alike c.owner? ([] : List Template).head? := by
    refine ⟨fun name hname => ?_, fun h => h.elim⟩
    rcases hname with rfl | rfl <;> rfl
  refine ⟨(owners_matter_to_defaults {} 2 formsPage "field" _ c _).1 ?_,
    (owners_matter_to_defaults {} 2 formsPage "field" _ c _).2.1 rfl,
    (owners_matter_to_defaults {} 2 formsPage "field" _ c _).2.2 formsInquiry asks_formsPage
      (inquires_empty {} formsInquiry) hasks halike⟩
  rintro m hm param hparam
  obtain rfl := Option.some.inj hm
  simp at hparam

/-- **Defaults do not belong to the template of their macro**: whose macro they call is up to the
owner of the instructions around the call. -/
theorem not_defaults_of_own_template :
    ¬ ∀ (e : Engine) (n : Nat) (t : Template) (name : String) (args : List Value) (c : Context)
      (owners : List Template),
      ((e.below n).callMacro e t name args c).1 =
        ((e.below n).callMacro e t name args { c with owners }).1 := by
  intro h
  have hsame := h {} 2 formsPage "field" [] { owners := [formsPage] } [signingPage]
  have hhere : ((({} : Engine).below 2).callMacro {} formsPage "field" []
      { owners := [formsPage] }).1.map Value.display = .ok "forms5" := by decide +kernel
  have hthere : ((({} : Engine).below 2).callMacro {} formsPage "field" []
      { owners := [signingPage] }).1.map Value.display = .ok "page5" := by decide +kernel
  rw [hsame, hthere] at hhere
  exact absurd hhere (by decide)

end Engine

end Stencil
