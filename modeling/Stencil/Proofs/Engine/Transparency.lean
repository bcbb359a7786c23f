import Stencil.Proofs.Engine.Loading
import Stencil.Proofs.Render.Unison

/-!
# Taking templates from the cache

An engine that takes templates from its cache has one template for each path; any other one
has as many as it loads. Only `parent()` can tell the difference: it looks for the template of
the running block in the chain. A path that occurs twice in a chain stands there for two
templates without a cache, but for one and the same with it, whose second occurrence is then
taken for the first.

Where this does not happen the cache is transparent. The place of a template in a chain is
**certain** if as many templates follow it whether it is looked for by its name or by its
identity. A **watched** render fails as soon as the place of a template is uncertain whose
block is rendered. If the watched render without a cache does not fail in this way, then what
it answers is the answer with and without a cache.
-/

namespace Stencil

/-! ### Certain places -/

/-- The templates that follow the first one of a name in the chain. -/
def Context.parentsNamed (name : String) : List Template → List Template
  | [] => []
  | u :: rest => if u.name = name then rest else parentsNamed name rest

/-- Whether a template has as many parents by its name as by its identity. -/
def Context.Certain (chain : List Template) (t : Template) : Prop :=
  (parentsNamed t.name chain).length = (parentsOf t chain).length

instance (chain : List Template) (t : Template) : Decidable (Context.Certain chain t) :=
  inferInstanceAs (Decidable (_ = _))

theorem Context.length_parentsOf_lt (t u : Template) (ts : List Template) :
    (parentsOf t (u :: ts)).length < (u :: ts).length := by
  induction ts generalizing u with
  | nil =>
    rw [parentsOf]
    split <;> simp [parentsOf]
  | cons u' ts ih =>
    rw [parentsOf]
    split
    · simp
    · exact Nat.lt_succ_of_lt (ih u')

/-- **Where a place is certain, parents stand for parents**, if equal identities on the left
stand for equal ones on the right, and these belong to templates of the same name. -/
theorem Context.Certain.parents {R : Template → Template → Prop} {ts us : List Template}
    {t u : Template} (h : Certain ts t) (hchain : List.Forall₂ R ts us)
    (hid : ∀ t' u', R t' u' → t'.id = t.id → u'.id = u.id)
    (hname : ∀ t' u', R t' u' → u'.id = u.id → t'.name = t.name) :
    List.Forall₂ R (parentsOf t ts) (parentsOf u us) := by
  induction hchain with
  | nil => exact .nil
  | @cons t' u' ts us htu hrest ih =>
    by_cases ht : t'.id = t.id
    · rw [parentsOf, parentsOf, if_pos ht, if_pos (hid t' u' htu ht)]
      exact hrest
    by_cases hn : t'.name = t.name
    · -- found here by its name, but not by its identity: then nothing may follow
      rw [Certain, parentsNamed, if_pos hn, parentsOf, if_neg ht] at h
      cases hrest with
      | nil => simp [parentsOf]
      | cons => exact absurd h.symm (Nat.ne_of_lt (length_parentsOf_lt ..))
    · have hu : u'.id ≠ u.id := fun hu => hn (hname t' u' htu hu)
      rw [Certain, parentsNamed, if_neg hn, parentsOf, if_neg ht] at h
      rw [parentsOf, parentsOf, if_neg ht, if_neg hu]
      exact ih h

/-! ### Watched renders -/

/-- Whether the places of all templates are certain whose blocks are rendered. -/
def Context.AllCertain (c : Context) : Prop :=
  ∀ b ∈ c.blocks, Certain c.chain b.1

instance (c : Context) : Decidable c.AllCertain :=
  inferInstanceAs (Decidable (∀ b ∈ c.blocks, Context.Certain c.chain b.1))

/-- The same level, which fails instead of running instructions where a place is uncertain. -/
def Level.watched (fault : Error) (l : Level) : Level where
  eval := l.eval
  run instrs c := if c.AllCertain then l.run instrs c else (.error fault, c)

namespace Engine

/-- What is below the watched level of number `n`. -/
def watchedBelow (e : Engine) (fault : Error) : Nat → Below
  | 0 => none
  | n + 1 => some (.mk fun _ => (Level.over e (e.watchedBelow fault n)).watched fault)

/-- What an engine answers if it fails as soon as a place is uncertain. -/
def watchedAnswer (e : Engine) (fault : Error) : Call → Store → Except Error String × Store :=
  e.answerOn ((Level.over e (e.watchedBelow fault e.config.maxDepth)).watched fault)
    (e.watchedBelow fault e.config.maxDepth)

/-- Whether an engine answers a call without ever being uncertain: there is a way to fail where
a place is uncertain that is not the answer. -/
def Undoubted (e : Engine) (call : Call) (s : Store) : Prop :=
  ∃ fault, (e.watchedAnswer fault call s).1 ≠ .error fault

end Engine

namespace Correspondence

variable {V : Coverage} {K : Correspondence V} {e₁ e₂ : Engine} {fault : Error}

/-- A watched level runs in lockstep with one that is not watched. -/
theorem levelWatched (hK : K.Lawful e₁ e₂) (hrefused : K.refused fault)
    (hclear : ∀ c : Context, c.AllCertain → K.Clear c) {b₁ b₂ : Below}
    (hb : K.Belows e₁ e₂ b₁ b₂) :
    K.Levels ((Level.over e₁ b₁).watched fault) (Level.over e₂ b₂) where
  eval hx w := (evaluates hb hK).eval w hx
  run {instrs} hi {w c d} hcd := by
    by_cases hcertain : c.AllCertain
    · have hrun := (executes hb hK).discard ((executes hb hK).sequence instrs w hi) c d hcd
        (hclear c hcertain)
      rw [Level.watched]
      dsimp only
      rw [if_pos hcertain]
      exact hrun
    · rw [Level.watched]
      dsimp only
      rw [if_neg hcertain]
      exact .refuse hrefused

theorem belowsWatched (hK : K.Lawful e₁ e₂) (hrefused : K.refused fault)
    (hclear : ∀ c : Context, c.AllCertain → K.Clear c)
    (hlimit : e₁.config.maxDepth = e₂.config.maxDepth) (n : Nat) :
    K.Belows e₁ e₂ (e₁.watchedBelow fault n) (e₂.below n) := by
  induction n with
  | zero => exact .bottom hlimit
  | succ n ih =>
    refine .some ?_
    change K.Levels ((Level.over e₁ (e₁.watchedBelow fault n)).watched fault) (e₂.level n)
    rw [Engine.level_eq_over]
    exact levelWatched hK hrefused hclear ih

/-- The answer of a watched engine, if it does not refuse, is the answer of the other one. -/
theorem watchedAnswer (hK : K.Lawful e₁ e₂) (hrefused : ∀ f, K.refused f ↔ f = fault)
    (hclear : ∀ c : Context, c.AllCertain → K.Clear c)
    (hlimit : e₁.config.maxDepth = e₂.config.maxDepth) {w : World V} (call : Call) {s s' : Store}
    (h : K.Fetches w (e₁.template call s) (e₂.template call s'))
    (hwatched : (e₁.watchedAnswer fault call s).1 ≠ .error fault) :
    (e₂.answer call s').1 = (e₁.watchedAnswer fault call s).1 := by
  have hb := belowsWatched hK ((hrefused fault).mpr rfl) hclear hlimit e₁.config.maxDepth
  have hl := levelWatched hK ((hrefused fault).mpr rfl) hclear hb
  rw [e₂.answer_eq_answerOn, ← hlimit, Engine.level_eq_over]
  refine (answerOn hl hb call h fun f hf hf' => ?_).1
  rw [(hrefused f).mp hf'] at hf
  exact hwatched hf

end Correspondence

/-- Whether a source reads the same whether or not it may answer from a copy of its own. -/
def Source.Unchanging (source : Source) : Prop :=
  ∀ path, (source.read path true).1 = (source.read path false).1

namespace Engine

/-- The same engine with or without taking templates from its cache. -/
def withCache (e : Engine) (cache : Bool) : Engine :=
  { e with config := { e.config with cache } }

/-- A watched answer that is no refusal is the answer. -/
theorem answer_of_watched {e : Engine} {fault : Error} {call : Call} {s : Store}
    (h : (e.watchedAnswer fault call s).1 ≠ .error fault) :
    (e.answer call s).1 = (e.watchedAnswer fault call s).1 := by
  let K := Correspondence.unison {} (fun _ => True) (· = fault)
  have hlawful : K.Lawful e e :=
    Correspondence.lawful_unison rfl rfl rfl (fun _ _ _ => trivial)
      fun _ _ t _ _ => t.program.within_all
  have hfetches : K.Fetches .empty (e.template call s) (e.template call s) :=
    Correspondence.fetches_unison (fun _ _ h => h.elim) trivial fun t _ => t.program.within_all
  exact Correspondence.watchedAnswer hlawful (fun _ => Iff.rfl)
    (fun c _ => Correspondence.clear_unison c) rfl call hfetches h

/-! ### With and without a cache -/

/-- On the left every template is new; on the right those that stand for them are held, and one
identity on the left goes with one template on the right. -/
structure Cached (R : Template → Template → Prop) (s s' : Store) : Prop where
  name {t u : Template} (h : R t u) : u.name = t.name
  left {t u : Template} (h : R t u) : t.id < s.cache.nextId
  right {t u : Template} (h : R t u) : ∃ k, s'.held? k = some u
  unique {t u t' u' : Template} (h : R t u) (h' : R t' u') (hid : t'.id = t.id) : u' = u

theorem loads_cached (e : Engine) : (e.withCache false).Loads (e.withCache true) Cached where
  fail h h₁ h₂ := {
    name := h.name
    left := fun htu => Nat.lt_of_lt_of_le (h.left htu) h₁.next
    right := fun htu => (h.right htu).imp fun k hk => h₂.kept rfl k _ hk
    unique := h.unique }
  give {R s s' s₁ s₂ k t u} h h₁ h₂ := by
    have ht : s.cache.nextId ≤ t.id := h₁.fresh rfl t rfl
    have hleft : s₁.held? k = some t := h₁.held t rfl
    have hright : s₂.held? k = some u := h₂.held u rfl
    refine ⟨?_, ?_, ?_, ?_⟩
    · rintro t' u' (htu | ⟨rfl, rfl⟩)
      · exact h.name htu
      · exact (h₂.sound.name hright).trans (h₁.sound.name hleft).symm
    · rintro t' u' (htu | ⟨rfl, rfl⟩)
      · exact Nat.lt_of_lt_of_le (h.left htu) h₁.next
      · exact h₁.sound.id_lt hleft
    · rintro t' u' (htu | ⟨rfl, rfl⟩)
      · exact (h.right htu).imp fun k' hk => h₂.kept rfl k' u' hk
      · exact ⟨k, hright⟩
    · -- the identity of the new template is new on the left
      rintro t₁ u₁ t₂ u₂ (htu | ⟨rfl, rfl⟩) (htu' | ⟨rfl, rfl⟩) hid
      · exact h.unique htu htu' hid
      · have hlt := h.left htu
        omega
      · have hlt := h.left htu'
        omega
      · rfl

/-- One identity on the right goes with one name. -/
theorem Cached.name_eq {e : Engine} {R : Template → Template → Prop} {s s' : Store}
    (h : Cached R s s') (hs' : e.Sound s') {t u t' u' : Template} (htu : R t u) (htu' : R t' u')
    (hid : u'.id = u.id) : t'.name = t.name := by
  obtain ⟨k, hu⟩ := h.right htu
  obtain ⟨k', hu'⟩ := h.right htu'
  rw [hs'.apart hu hu' hid, hu] at hu'
  rw [← h.name htu', ← h.name htu, Option.some.inj hu']

/-- Such a source supplies both engines alike. -/
theorem supply_withCache (e : Engine) {source : Source} (h : source.Unchanging) :
    (e.withCache true).supply { source } = (e.withCache false).supply { source } := by
  funext k
  cases k with
  | path key =>
    change (e.withCache true).contentAt _ key = (e.withCache false).contentAt _ key
    rw [contentAt, contentAt]
    change (do (e.withCache true).programOf (← (source.read key true).1) key) =
      (do (e.withCache false).programOf (← (source.read key false).1) key)
    rw [h key]
    rfl
  | text text => rfl

/-- **The cache is transparent where no place is uncertain**: for a source whose texts do not
change, an engine that takes templates from its cache answers a call as one that does not, if
the latter is never uncertain about the place of a template in its chain. -/
theorem answer_withCache (e : Engine) {source : Source} (hsource : source.Unchanging) (call : Call)
    (hcertain : (e.withCache false).Undoubted call { source }) :
    ((e.withCache true).answer call { source }).1 =
      ((e.withCache false).answer call { source }).1 := by
  obtain ⟨fault, hwatched⟩ := hcertain
  rw [answer_of_watched hwatched]
  let supply := (e.withCache false).supply { source }
  let K := Correspondence.loading (e.withCache false) (e.withCache true) supply Cached
    Context.Certain (· = fault)
  have hlawful : K.Lawful (e.withCache false) (e.withCache true) := by
    refine Correspondence.lawful_loading rfl rfl (loads_cached e) ?_
    intro R s s' _ hs' h ts us t u hts htu hclear
    refine hclear.parents hts (fun t' u' htu' hid => ?_) fun t' u' htu' hid => ?_
    · rw [h.unique htu htu' hid]
    · exact h.name_eq hs' htu htu' hid
  have hstores : K.stores World.empty { source } { source } :=
    ⟨⟨.fresh _ source, rfl⟩, ⟨.fresh _ source, supply_withCache e hsource⟩,
      ⟨fun h => h.elim, fun h => h.elim, fun h => h.elim, fun h => h.elim⟩⟩
  exact Correspondence.watchedAnswer hlawful (fun _ => Iff.rfl) (fun _ h => h) rfl call
    (Correspondence.fetches_template (loads_cached e) hstores call) hwatched

/-! ### A page with and without a parent of its own name -/

/-- A base template, and a page that adds to a block of its parent. When the page is rendered
again, its parent is the last one. -/
def addingSource : Source :=
  .ofTemplates [("base", "{% block b %}base{% endblock %}"),
    ("page", "{% extends next %}{% set next = last %}{% block b %}{{ parent() }}!{% endblock %}")]

/-- Renders the page with a certain parent, and the base template as the last one. -/
def addingTo (parent : String) : Call :=
  .render "page" (.map [("last", .str "base"), ("next", .str parent)])

/-- The page that extends the base template at once is the same with and without a cache. -/
theorem answer_addingTo_base :
    (({} : Engine).withCache false).Undoubted (addingTo "base") { source := addingSource } ∧
      ((({} : Engine).withCache true).answer (addingTo "base") { source := addingSource }).1 =
        ((({} : Engine).withCache false).answer (addingTo "base") { source := addingSource }).1 ∧
      ((({} : Engine).withCache false).answer (addingTo "base") { source := addingSource }).1 =
        .ok "base!" := by
  have hwatched : ((({} : Engine).withCache false).watchedAnswer .noOrder (addingTo "base")
      { source := addingSource }).1 = .ok "base!" := by decide +kernel
  have hne : ((({} : Engine).withCache false).watchedAnswer .noOrder (addingTo "base")
      { source := addingSource }).1 ≠ .error .noOrder := by simp [hwatched]
  exact ⟨⟨.noOrder, hne⟩, answer_withCache {} (fun _ => rfl) (addingTo "base") ⟨.noOrder, hne⟩,
    (answer_of_watched hne).trans hwatched⟩

/-- **The cache is not transparent to a page that extends itself first**: its second occurrence
in the chain is taken for the first, and its block for a block of its own parent, without end. -/
theorem not_cache_transparent :
    ¬ ∀ (e : Engine) (source : Source), source.Unchanging → ∀ call,
      ((e.withCache true).answer call { source }).1 =
        ((e.withCache false).answer call { source }).1 := by
  intro h
  have hsame := h {} addingSource (fun _ => rfl) (addingTo "page")
  have hon : ((({} : Engine).withCache true).answer (addingTo "page")
      { source := addingSource }).1 = .error (.render (.tooDeep 64)) := by decide +kernel
  have hoff : ((({} : Engine).withCache false).answer (addingTo "page")
      { source := addingSource }).1 = .ok "base!!" := by decide +kernel
  rw [hon, hoff] at hsame
  cases hsame

end Engine

end Stencil
