import Stencil.Proofs.Inheritance.Alike

/-!
# Runs of alike contexts

The interpreter keeps contexts alike, level after level: what is below a level may be taken
to be alike on both sides, and then all laws of a pairing hold. The two places that look at
what may differ are the lookup of a block, which finds the same body in both chains, and
fetching a template, which gives the same program from both stores.
-/

namespace Stencil

/-- Two levels on which runs look alike. -/
def Level.Alike (e : Engine) (s : Store) (p : Program) (l₁ l₂ : Level) : Prop :=
  ∀ instrs, (∀ i ∈ Instr.partsOf instrs, Fit e s p i) →
    (alikeness e s p).rel Eq (l₁.run instrs) (l₂.run instrs)

/-- The same of what is below, which is as deep on both sides. -/
def Below.Alike (e : Engine) (s : Store) (p : Program) : Below → Below → Prop :=
  Option.Rel fun l₁ l₂ => l₁.get.Alike e s p l₂.get

section Simulation

variable {e : Engine} {s : Store} {p : Program} {limit₁ limit₂ : Nat} {b₁ b₂ : Below}

/-! ### What is reached is fit to run -/

section Reached

variable (hplain : ∀ q, e.Reaches s p q → q.Plain)

include hplain

theorem fit_of_reaches {q : Program} (hq : e.Reaches s p q) {i : Instr} (hi : q.Has i) :
    Fit e s p i :=
  ⟨⟨(hplain q hq).imports i hi, fun _ hx _ _ hname hfound => .step hq hi hx hname hfound⟩,
    (hplain q hq).parent i hi⟩

theorem fit_of_block {q : Program} (hq : e.Reaches s p q) {name : String} {body : List Instr}
    (h : Table.find? name q.blocks = some body) : ∀ i ∈ Instr.partsOf body, Fit e s p i :=
  fun _ hi => fit_of_reaches hplain hq (.inr ⟨_, Table.mem_of_find? h, hi⟩)

end Reached

namespace Alikeness

variable {α : Type} {S : α → α → Prop} {c d : Context}

/-! ### What is on the level below -/

theorem descend (hb : b₁.Alike e s p b₂) {body body' : Level → Action α}
    (hbody : ∀ l l', l.Alike e s p l' →
      Outcome e s p S { c with depth := c.depth + 1 } { d with depth := d.depth + 1 }
        (body l { c with depth := c.depth + 1 }) (body' l' { d with depth := d.depth + 1 })) :
    Outcome e s p S c d (b₁.descend (e.withLimit limit₁) body c)
      (b₂.descend (e.withLimit limit₂) body' d) := by
  cases hb with
  | none => trivial
  | some hl => exact deeper (hbody _ _ hl)

/-- The definition of a block runs while its template owns the instructions. -/
theorem callBlock (hb : b₁.Alike e s p b₂) (h : Alike e s p c d) {t u : Template} {name : String}
    {body : List Instr} (ht : t ∈ c.chain) (hu : u ∈ d.chain) (hbody : t.block? name = some body)
    (hbody' : u.block? name = some body) (hfit : ∀ i ∈ Instr.partsOf body, Fit e s p i) :
    Outcome e s p Eq c d (b₁.callBlock (e.withLimit limit₁) t name c)
      (b₂.callBlock (e.withLimit limit₂) u name d) := by
  rw [Below.callBlock, hbody, Below.callBlock, hbody']
  refine descend hb fun l l' hl => withBlock (withOwner (hl body hfit) ?_ ?_ ?_)
  · exact ⟨{ h.data with }, { h.frame with }⟩
  · have hmem : t.program ∈ c.programs := List.mem_map_of_mem ht
    exact .of_mem hmem (h.frame.macros _ hmem)
  · have hmem : u.program ∈ d.programs := List.mem_map_of_mem hu
    exact .of_mem hmem (h.frame.macros' _ hmem)

/-- Rendering a block runs the same body on both sides. -/
theorem renderBlock (hb : b₁.Alike e s p b₂) (name : String) :
    (alikeness e s p).rel Eq (b₁.renderBlock (e.withLimit limit₁) name)
      (b₂.renderBlock (e.withLimit limit₂) name) := by
  intro c d h
  obtain ⟨hown, hown'⟩ := h.frame.owned
  have hblock := h.frame.blocks name
  rw [Below.renderBlock, Below.renderBlock, Action.get_bind_apply, Action.get_bind_apply]
  -- a block is found in both chains, with the same body, or in neither
  rcases c.blockProvider?_eq hown name with ⟨hnone, hc⟩ | ⟨t, ht, hsome, body, hbody, hc⟩ <;>
    rcases d.blockProvider?_eq hown' name with ⟨hnone', hd⟩ | ⟨u, hu, hsome', body', hbody', hd⟩
  · rw [hnone, hnone']
    trivial
  · rw [hd, hc] at hblock
    cases hblock
  · rw [hd, hc] at hblock
    cases hblock
  · obtain rfl : body' = body := by
      rw [hd, hc] at hblock
      exact Option.some.inj hblock
    rw [hsome, hsome']
    exact callBlock hb h ht hu hbody hbody' (h.frame.fit name body' hc)

section Reached

variable (hplain : ∀ q, e.Reaches s p q → q.Plain)

include hplain

/-- A parent with the same program may join both chains. -/
theorem pushParent {t u : Template} (h : Alike e s p c d) (hprogram : u.program = t.program)
    (hreach : e.Reaches s p t.program) :
    Alike e s p { c with chain := c.chain ++ [t] } { d with chain := d.chain ++ [u] } := by
  have hc : ({ c with chain := c.chain ++ [t] } : Context).programs = c.programs ++ [t.program] :=
    List.map_append
  have hd : ({ d with chain := d.chain ++ [u] } : Context).programs = d.programs ++ [t.program] :=
    List.map_append.trans (congrArg (d.programs ++ [·]) hprogram)
  have hmacros := (hplain _ hreach).macros
  refine ⟨{ h.data with }, ?_⟩
  rw [hc]
  refine { h.frame with blocks := ?_, fit := ?_, macros := ?_, macros' := ?_, owner := ?_ }
  · intro name
    rw [hd, findBlock_append, findBlock_append, h.frame.blocks name]
  · intro name body hbody
    rw [findBlock_append, Option.or_eq_some_iff] at hbody
    rcases hbody with hbody | ⟨-, hbody⟩
    · exact h.frame.fit name body hbody
    · obtain ⟨q, hq, hfind⟩ := mem_of_findBlock hbody
      rw [List.mem_singleton.mp hq] at hfind
      exact fit_of_block hplain hreach hfind
  · intro q hq
    rw [List.mem_append, List.mem_singleton] at hq
    rcases hq with hq | rfl
    · exact h.frame.macros q hq
    · exact hmacros
  · intro q hq
    rw [hd, List.mem_append, List.mem_singleton] at hq
    rcases hq with hq | rfl
    · exact h.frame.macros' q hq
    · exact hmacros
  · rw [hd]
    exact Owned.mono_rel h.frame.owner (List.prefix_append ..) (List.prefix_append ..)

/-- What runs of a fetched template on the level below. -/
theorem main {l l' : Level} (hl : l.Alike e s p l') {t u : Template}
    (hprogram : u.program = t.program) (hreach : e.Reaches s p t.program) :
    (alikeness e s p).rel Eq (l.run t.main) (l'.run u.main) := by
  rw [show u.main = t.main from congrArg Program.main hprogram]
  exact hl _ fun _ hi => fit_of_reaches hplain hreach (.inl hi)

/-- Handing over to a parent adds the same program to both chains. -/
theorem callParent (hb : b₁.Alike e s p b₂) {t u : Template} (hprogram : u.program = t.program)
    (hreach : e.Reaches s p t.program) :
    (alikeness e s p).rel Eq (b₁.callParent (e.withLimit limit₁) t)
      (b₂.callParent (e.withLimit limit₂) u) := by
  intro c d h
  have hpushed := pushParent hplain h hprogram hreach
  have hmacros := (hplain _ hreach).macros
  have hc : c.Steady { c with chain := c.chain ++ [t] } := ⟨rfl, List.prefix_append ..⟩
  have hd : d.Steady { d with chain := d.chain ++ [u] } := ⟨rfl, List.prefix_append ..⟩
  refine Outcome.trans hc hd ?_
  -- the parent is in the chain already when it becomes the owner
  refine descend hb fun l l' hl => withOwner (main hplain hl hprogram hreach) ?_ ?_ ?_
  · exact ⟨{ hpushed.data with }, { hpushed.frame with }⟩
  · exact .of_mem (List.mem_map_of_mem (by simp)) hmacros
  · exact .of_mem (List.mem_map_of_mem (by simp)) (hprogram ▸ hmacros)

/-- Rendering a template begins a chain of its own. -/
theorem render {l l' : Level} (hl : l.Alike e s p l') {t u : Template}
    (hprogram : u.program = t.program) (hreach : e.Reaches s p t.program) :
    (alikeness e s p).rel Eq (l.render t) (l'.render u) := by
  intro c d h
  have hmacros := (hplain _ hreach).macros
  have hinner : Alike e s p { c with chain := [t], owners := t :: c.owners }
      { d with chain := [u], owners := u :: d.owners } := by
    refine ⟨{ h.data with }, { h.frame with
      blocks := ?_, fit := ?_, macros := ?_, macros' := ?_, owner := ?_ }⟩
    · intro name
      rw [Context.programs, Context.programs, List.map_singleton, List.map_singleton, hprogram]
    · intro name body hbody
      obtain ⟨q, hq, hfind⟩ := mem_of_findBlock hbody
      rw [List.mem_singleton.mp hq] at hfind
      exact fit_of_block hplain hreach hfind
    · intro q hq
      rw [List.mem_singleton.mp hq]
      exact hmacros
    · intro q hq
      rw [List.mem_singleton.mp hq, hprogram]
      exact hmacros
    · exact .some ⟨.of_mem (List.mem_singleton.mpr rfl) hmacros,
        .of_mem (List.mem_singleton.mpr rfl) (hprogram ▸ hmacros)⟩
  -- inside there is nothing of the outer chain; outside it is there again
  have hrun := main hplain hl hprogram hreach _ _ hinner
  refine hrun.bracket (fun i => { i with owners := i.owners.tail, chain := c.chain })
    (fun i => { i with owners := i.owners.tail, chain := d.chain }) fun c' d' h' hc hd => ?_
  have howners : c'.owners.tail = c.owners := congrArg List.tail hc.owners
  have howners' : d'.owners.tail = d.owners := congrArg List.tail hd.owners
  rw [howners, howners']
  refine ⟨⟨{ h'.data with }, ?_⟩, ⟨rfl, List.prefix_rfl⟩, ⟨rfl, List.prefix_rfl⟩⟩
  exact { h.frame with imports := h'.frame.imports, imports' := h'.frame.imports' }

/-- Embedding a template. -/
theorem embed (hb : b₁.Alike e s p b₂) {t u : Template} (hprogram : u.program = t.program)
    (hreach : e.Reaches s p t.program) (vars : Table Value) (only : Bool) :
    (alikeness e s p).rel Eq (b₁.embed (e.withLimit limit₁) t vars only)
      (b₂.embed (e.withLimit limit₂) u vars only) := by
  intro c d h
  refine descend hb fun l l' hl => ?_
  have hrender := render hplain hl hprogram hreach
  refine withFreshImports ?_ _ _ ⟨{ h.data with }, { h.frame with }⟩
  cases only with
  | true => exact withScope _ hrender
  | false =>
    refine withLocals (bind (T := Eq) (S := Eq) ?_ fun _ _ _ => hrender)
    induction vars with
    | nil => exact result rfl
    | cons v vars ih => exact bind (push v.1 v.2) fun _ _ _ => ih

end Reached

/-! ### Fetching -/

/-- What a path gives in alike contexts, and what fetching it leaves of them. -/
theorem fetched (h : Alike e s p c d) (path : String) :
    ((∃ fault, (e.fetch path c.store).1 = .error fault ∧
        (e.fetch path d.store).1 = .error fault) ∨
      ∃ t u, (e.fetch path c.store).1 = .ok t ∧ (e.fetch path d.store).1 = .ok u ∧
        u.program = t.program ∧ e.content s path = .ok t.program) ∧
    Alike e s p { c with store := (e.fetch path c.store).2 }
      { d with store := (e.fetch path d.store).2 } := by
  obtain ⟨hread, hcontent, honest⟩ := h.data.honest.fetch path
  obtain ⟨hread', hcontent', honest'⟩ := h.data.honest'.fetch path
  rw [h.data.content] at hread hcontent
  rw [h.data.content'] at hread' hcontent'
  -- both stores hold what stands in the same source, so they give the same program or fault
  refine ⟨?_, ⟨{ h.data with
    honest, honest', content := hcontent, content' := hcontent' }, { h.frame with }⟩⟩
  rcases hc : (e.fetch path c.store).1 with fault | t <;>
    rcases hd : (e.fetch path d.store).1 with fault' | u <;>
    rw [hc] at hread <;> rw [hd, ← hread] at hread'
  · cases hread'
    exact .inl ⟨fault, rfl, rfl⟩
  · cases hread'
  · cases hread'
  · exact .inr ⟨t, u, rfl, rfl, Except.ok.inj hread', hread.symm⟩

theorem fetch {i : Instr} (hi : Tame e s p i) {x : Expr} (hx : i.template? = some x)
    {path : String} (hpath : e.CanName x path) :
    (alikeness e s p).rel (alikeness e s p).fetched (Action.fetch (e.withLimit limit₁) path)
      (Action.fetch (e.withLimit limit₂) path) := by
  intro c d h
  obtain ⟨⟨fault, hc, hd⟩ | ⟨t, u, hc, hd, hprogram, hfound⟩, halike⟩ := fetched h path
  · simp [Action.fetch, Action.onStore, hc, hd, Outcome]
  · simp only [Action.fetch, Action.onStore, Engine.withLimit_fetch, hc, hd]
    exact ⟨⟨hprogram, hi.2 x hx path _ hpath hfound⟩, halike, ⟨rfl, List.prefix_rfl⟩,
      ⟨rfl, List.prefix_rfl⟩⟩

/-- A template that is missing is missing on both sides. -/
theorem fetchIncluded {i : Instr} (hi : Tame e s p i) {x : Expr} (hx : i.template? = some x)
    {path : String} (hpath : e.CanName x path) (ignoreMissing : Bool) :
    (alikeness e s p).rel (Option.Rel (alikeness e s p).fetched)
      (Instr.fetchIncluded (e.withLimit limit₁) path ignoreMissing)
      (Instr.fetchIncluded (e.withLimit limit₂) path ignoreMissing) := by
  intro c d h
  obtain ⟨⟨fault, hc, hd⟩ | ⟨t, u, hc, hd, hprogram, hfound⟩, halike⟩ := fetched h path
  · simp only [Instr.fetchIncluded, Action.fetch, Action.onStore, Engine.withLimit_fetch, hc, hd]
    cases fault with
    | notFound name =>
      cases ignoreMissing with
      | true => exact ⟨.none, halike, ⟨rfl, List.prefix_rfl⟩, ⟨rfl, List.prefix_rfl⟩⟩
      | false => trivial
    | _ => trivial
  · simp only [Instr.fetchIncluded, Action.fetch, Action.onStore, Engine.withLimit_fetch, hc, hd]
    exact ⟨.some ⟨hprogram, hi.2 x hx path _ hpath hfound⟩, halike, ⟨rfl, List.prefix_rfl⟩,
      ⟨rfl, List.prefix_rfl⟩⟩

/-! ### Names -/

/-- No macro of the owner is meant by a name. -/
theorem owner_filter_eq_none {c : Context} (h : ∀ t ∈ c.owner?, t.program.macros = [])
    (name : String) :
    (c.owner?.filter fun t : Template => (t.findMacro? name).isSome) = none := by
  rw [Option.filter_eq_none_iff]
  intro t ht hsome
  rw [Template.findMacro?, h t ht] at hsome
  cases hsome

/-- A name can only mean a function. -/
theorem callNamed_eq {c : Context} (himports : c.importedMacros = [])
    (howner : ∀ t ∈ c.owner?, t.program.macros = []) (E : Engine) (b : Below) (name : String)
    (args : List Value) :
    Expr.callNamed E b name args c =
      (match Table.find? name E.language.functions with
      | some f => Action.lift (f args)
      | none => Action.fault (.unknownFunction name)) c := by
  -- neither an import nor the owner has a macro of that name
  rw [Expr.callNamed, Action.get_bind_apply, himports, owner_filter_eq_none howner]
  rfl

theorem callNamed (name : String) (args : List Value) :
    (alikeness e s p).rel Eq (Expr.callNamed (e.withLimit limit₁) b₁ name args)
      (Expr.callNamed (e.withLimit limit₂) b₂ name args) := by
  intro c d h
  obtain ⟨hown, hown'⟩ := h.frame.owned
  rw [callNamed_eq h.frame.imports.2 fun t ht => (hown t ht).macros,
    callNamed_eq h.frame.imports'.2 fun u hu => (hown' u hu).macros, Engine.withLimit_language,
    Engine.withLimit_language]
  cases Table.find? name e.language.functions with
  | none => trivial
  | some f =>
    dsimp only
    cases f args with
    | error fault => trivial
    | ok v => exact ⟨rfl, h, .refl c, .refl d⟩

/-- What owns the instructions has no macros on either side. -/
theorem owner_rel (h : Alike e s p c d) :
    Option.Rel (alikeness e s p).owner c.owner? d.owner? := by
  have howner := h.frame.owner
  generalize c.owner? = o, d.owner? = o' at howner ⊢
  cases howner with
  | none => exact .none
  | some hown => exact .some ⟨hown.1.macros, hown.2.macros⟩

theorem owner? :
    (alikeness e s p).rel (Option.Rel (alikeness e s p).owner)
      (do return (← get).owner?) (do return (← get).owner?) := by
  intro c d h
  exact ⟨owner_rel h, h, .refl c, .refl d⟩

theorem qualifier (target : Expr) :
    (alikeness e s p).rel (Option.Rel (alikeness e s p).owner)
      (do return Expr.qualifier? (← get) target) (do return Expr.qualifier? (← get) target) := by
  intro c d h
  refine ⟨?_, h, .refl c, .refl d⟩
  cases target with
  | var name =>
    rw [Expr.qualifier?, Expr.qualifier?, h.frame.imports.1, h.frame.imports'.1]
    by_cases hname : name = "_self"
    · rw [if_pos hname, if_pos hname]
      exact owner_rel h
    · rw [if_neg hname, if_neg hname]
      exact .none
  | _ => exact .none

/-- A macro of a template without macros. -/
theorem callMacro {t u : Template} (h : (alikeness e s p).owner t u) (name : String)
    (args : List Value) :
    (alikeness e s p).rel Eq (b₁.callMacro (e.withLimit limit₁) t name args)
      (b₂.callMacro (e.withLimit limit₂) u name args) := by
  intro c d _
  have ht : t.findMacro? name = none := by
    rw [Template.findMacro?, h.1]
    rfl
  have hu : u.findMacro? name = none := by
    rw [Template.findMacro?, h.2]
    rfl
  rw [Below.callMacro, ht, Below.callMacro, hu]
  trivial

theorem missing (path : Expr) :
    (alikeness e s p).rel Eq (Expr.orMissing (e.withLimit limit₁) path none)
      (Expr.orMissing (e.withLimit limit₂) path none) := by
  rw [Expr.orMissing, Expr.orMissing, Engine.withLimit_strict, Engine.withLimit_strict]
  split
  · exact fun _ _ _ => trivial
  · exact result rfl

theorem lookup (name : String) :
    (alikeness e s p).rel Eq (do return (← get).scope.lookup? name)
      (do return (← get).scope.lookup? name) := by
  intro c d h
  exact ⟨congrArg (Scope.lookup? name) h.data.scope.symm, h, .refl c, .refl d⟩

/-- What a name expression gives is the name of a path. -/
theorem named {x : Expr} {n : Nat}
    (heval : (alikeness e s p).rel Eq
      (x.eval (e.withLimit limit₁) ((e.withLimit limit₁).below n))
      (x.eval (e.withLimit limit₂) b₂)) :
    (alikeness e s p).rel (fun v w => v = w ∧ e.CanName x v.display)
      (x.eval (e.withLimit limit₁) ((e.withLimit limit₁).below n))
      (x.eval (e.withLimit limit₂) b₂) := by
  intro c d h
  obtain ⟨f, f', c', d', hc, hd⟩ | ⟨v, w, c', d', hc, hd, heq, hrest⟩ := (heval c d h).split
  · rw [hc, hd]
    trivial
  · rw [hc, hd]
    exact ⟨⟨heq, limit₁, n, c, v, c', hc, rfl⟩, hrest⟩

/-! ### The walk and the levels -/

theorem evaluates (b₁ b₂ : Below) :
    (alikeness e s p).Evaluates (e.withLimit limit₁) (e.withLimit limit₂) b₁ b₂ where
  language := rfl
  result := result
  bind := bind
  fail _ := fun _ _ _ => trivial
  raised _ := trivial
  missing := missing
  lookup := lookup
  parentCall h := absurd rfl h
  callNamed := callNamed
  qualifier := qualifier
  callMacro := callMacro

section Reached

variable (hplain : ∀ q, e.Reaches s p q → q.Plain)

include hplain

theorem executes {n : Nat} (hb : ((e.withLimit limit₁).below n).Alike e s p b₂) :
    (alikeness e s p).Executes (e.withLimit limit₁) (e.withLimit limit₂)
      ((e.withLimit limit₁).below n) b₂ where
  toEvaluates := evaluates _ _
  write := write
  capture := capture
  push := push
  set := set
  withLocals := withLocals
  renderBlock {name} _ := renderBlock hb name
  named := named
  fetch hi _ hx _ hpath := fetch hi hx hpath
  fetchIncluded hi _ hx _ hpath := fetchIncluded hi hx hpath
  callParent _ _ _ h := callParent hplain hb h.1 h.2
  embed h := embed hplain hb h.1 h.2
  owner? := owner?
  owner h := ⟨(hplain _ h.2).macros, h.1 ▸ (hplain _ h.2).macros⟩
  importAs hi _ _ _ := absurd (.inl ⟨_, _, rfl⟩) hi.1
  importEach hi _ _ _ := absurd (.inr ⟨_, _, rfl⟩) hi.1

theorem levelOver {n : Nat} (hb : ((e.withLimit limit₁).below n).Alike e s p b₂) :
    (Level.over (e.withLimit limit₁) ((e.withLimit limit₁).below n)).Alike e s p
      (Level.over (e.withLimit limit₂) b₂) := by
  intro instrs hfit
  have hexecutes : (alikeness e s p).Executes (e.withLimit limit₁) (e.withLimit limit₂)
      ((e.withLimit limit₁).below n) b₂ := executes hplain hb
  exact hexecutes.discard (hexecutes.sequence instrs hfit)

/-- **Levels as deep as each other run alike**, whatever the limits are. -/
theorem level (limit₁ limit₂ n : Nat) :
    ((e.withLimit limit₁).level n).Alike e s p ((e.withLimit limit₂).level n) := by
  -- there are as many levels below on both sides, whatever the limits say
  induction n with
  | zero => exact levelOver (n := 0) hplain .none
  | succ n ih => exact levelOver (n := n + 1) hplain (.some ih)

end Reached

end Alikeness

end Simulation

end Stencil
