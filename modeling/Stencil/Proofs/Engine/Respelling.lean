import Stencil.Proofs.Engine.History
import Stencil.Proofs.Nesting.Respelling
import Stencil.Proofs.Render.Replacing

/-!
# Respelled templates

A host may respell a capture of a text as an assignment, in an inline template or in the source of
any template that is read. Then every call is answered as before (`Engine.answer_respelled`), unless
the capture stands behind an `extends` in the same body. The two stores give out the same
identities, and hold programs that agree under the same paths.

Behind an `extends` only declarations run. An assignment is one, a capture is not
(`Instr.isDeclaration`), and so the two forms differ there.
-/

namespace Stencil

open Scanner

/-! ### Sources -/

/-- Whether two sources give texts of which the one is the other respelled, or the same failure. -/
def Source.Respelled (tags : TagTable) (useKept : Bool) (source source' : Source) : Prop :=
  ∀ key, Error.AlikeOr (Stencil.Respelled tags) (source.read key useKept).1
    (source'.read key useKept).1

/-- In memory each text may be respelled. -/
theorem Source.respelled_memory {tags : TagTable} {t u : Table String}
    (h : Table.Rel (Stencil.Respelled tags) t u) (useKept : Bool) :
    (memory t).Respelled tags useKept (memory u) := by
  intro key
  have hfind := h.find? (Path.normalize key)
  rw [read, read]
  generalize Table.find? (Path.normalize key) t = o, Table.find? (Path.normalize key) u = o'
    at hfind
  cases hfind with
  | none => exact .fail (.refl _)
  | some htext => exact .give htext

namespace Engine

/-! ### Stores -/

/-- Whether two slots, of one store and of another, are supplied with programs that agree and hold
templates that agree. -/
structure Corresponding (e : Engine) (s s' : Store) (k k' : Slot) : Prop where
  name : k'.name = k.name
  path (key : String) : .path key = k' ↔ .path key = k
  supply : Error.AlikeOr Program.Agrees (e.supply s k) (e.supply s' k')
  held : Option.Rel Template.Agrees (s.held? k) (s'.held? k')

/-- Whether two stores give out the same identities next, and correspond in all paths. -/
structure Agreeing (e : Engine) (s s' : Store) : Prop where
  next : s'.cache.nextId = s.cache.nextId
  slot (key : String) : e.Corresponding s s' (.path key) (.path key)

variable {e : Engine} {s s' : Store} {k k' : Slot}

/-- Emptying corresponding slots. -/
theorem Agreeing.evict (h : e.Agreeing s s') (hk : e.Corresponding s s' k k') :
    e.Agreeing (s.evict k) (s'.evict k') where
  next := by rw [Store.nextId_evict, Store.nextId_evict, h.next]
  slot key := { h.slot key with
    supply := by
      rw [supply_evict, supply_evict]
      exact (h.slot key).supply
    held := by
      rw [Store.held?_evict, Store.held?_evict]
      by_cases hkey : .path key = k
      · rw [if_pos hkey, if_pos ((hk.path key).mpr hkey)]
        exact .none
      · rw [if_neg hkey, if_neg (mt (hk.path key).mp hkey)]
        exact (h.slot key).held }

/-- New templates for corresponding slots agree. -/
theorem Agreeing.renewed (h : e.Agreeing s s') (hname : k'.name = k.name)
    (hpath : ∀ key, .path key = k' ↔ .path key = k)
    (hsupply : Error.AlikeOr Program.Agrees (e.supply s k) (e.supply s' k'))
    {r r' : Except Error Template × Store} (hr : Renewed e k s r) (hr' : Renewed e k' s' r') :
    Error.AlikeOr Template.Agrees r.1 r'.1 ∧ e.Agreeing r.2 r'.2 := by
  -- what is supplied agrees, so the two slots are renewed or fail together
  cases hr with
  | fail hs hcache hsame =>
    cases hr' with
    | new hs' =>
      rw [hs, hs'] at hsupply
      cases hsupply
    | fail hs' hcache' hsame' =>
      rw [hs, hs'] at hsupply
      cases hsupply with
      | fail hfault =>
        refine ⟨.fail hfault, ⟨by rw [hcache, hcache', h.next], fun key => ?_⟩⟩
        exact { h.slot key with
          supply := by
            rw [hsame, hsame']
            exact (h.slot key).supply
          held := by
            rw [Store.held?, Store.held?, hcache, hcache']
            exact (h.slot key).held }
  | @new t s₁ hs hname₁ hid hheld hnext hsame =>
    cases hr' with
    | fail hs' =>
      rw [hs, hs'] at hsupply
      cases hsupply
    | @new u s₁' hs' hname₁' hid' hheld' hnext' hsame' =>
      rw [hs, hs'] at hsupply
      cases hsupply with
      | give hprogram =>
        have htu : t.Agrees u := {
          id := by rw [hid, hid', h.next]
          name := by rw [hname₁, hname₁', hname]
          program := hprogram }
        refine ⟨.give htu, ⟨by rw [hnext, hnext', h.next], fun key => ?_⟩⟩
        exact { h.slot key with
          supply := by
            rw [hsame, hsame']
            exact (h.slot key).supply
          held := by
            rw [hheld, hheld']
            by_cases hkey : .path key = k
            · rw [if_pos hkey, if_pos ((hpath key).mpr hkey)]
              exact .some htu
            · rw [if_neg hkey, if_neg (mt (hpath key).mp hkey)]
              exact (h.slot key).held }

/-- **Corresponding slots give templates that agree**, or fail for the same cause. -/
theorem Agreeing.obtain (h : e.Agreeing s s') (hk : e.Corresponding s s' k k') :
    Error.AlikeOr Template.Agrees (e.obtain k s).1 (e.obtain k' s').1 ∧
      e.Agreeing (e.obtain k s).2 (e.obtain k' s').2 := by
  rw [Engine.obtain, Engine.obtain]
  split
  · have hheld := hk.held
    generalize ho : s.held? k = o, ho' : s'.held? k' = o' at hheld
    cases hheld with
    | some htu => exact ⟨.give htu, h⟩
    | none =>
      exact h.renewed hk.name hk.path hk.supply (e.renewed k s) (e.renewed k' s')
  · refine (h.evict hk).renewed hk.name hk.path ?_ (e.renewed k (s.evict k))
      (e.renewed k' (s'.evict k'))
    rw [supply_evict, supply_evict]
    exact hk.supply

/-- Fetching keeps stores in agreement. -/
theorem fetchesAlike_agreeing (e : Engine) : e.FetchesAlike e.Agreeing := by
  intro s s' h path
  cases hpath : Path.contained? path with
  | none =>
    rw [fetch, fetch, hpath]
    exact ⟨.fail (.refl _), h⟩
  | some key =>
    rw [fetch_eq_obtain hpath]
    exact h.obtain (h.slot key)

end Engine

/-! ### Calls -/

/-- Whether a call is another one, in which the text of an inline template may be respelled. -/
inductive Call.Respelled (tags : TagTable) : Call → Call → Prop
  | same (call : Call) : Respelled tags call call
  | inline {text text' : String} (h : Stencil.Respelled tags text text') (scope : Value) :
    Respelled tags (.renderInline text scope) (.renderInline text' scope)

namespace Engine

variable {e : Engine} {s s' : Store}

theorem Agreeing.start (h : e.Agreeing s s') (scope : Value) :
    (Engine.start scope s).Agrees e.Agreeing (Engine.start scope s') where
  store := h
  scope := rfl
  output := rfl
  chain := .nil
  blocks := .nil
  owners := .nil
  imports := .nil
  importedMacros := .nil

/-- What runs for a call gives the same answer for templates that agree. -/
theorem Agreeing.runOn (h : e.Agreeing s s') {t u : Template} (htu : t.Agrees u) {tags : TagTable}
    {call call' : Call} (hcall : call.Respelled tags call') :
    Error.AlikeOr Eq
      (e.runOn (e.level e.config.maxDepth) (e.below e.config.maxDepth) t call s).1
      (e.runOn (e.level e.config.maxDepth) (e.below e.config.maxDepth) u call' s').1 := by
  have hlevel := (fetchesAlike_agreeing e).level e.config.maxDepth
  have hbelow := (fetchesAlike_agreeing e).below e.config.maxDepth
  have hrender (scope : Value) : Error.AlikeOr Eq
      (e.runOn (e.level e.config.maxDepth) (e.below e.config.maxDepth) t (.render "" scope) s).1
      (e.runOn (e.level e.config.maxDepth) (e.below e.config.maxDepth) u (.render "" scope)
        s').1 := by
    obtain ⟨hresults, hcontexts⟩ := hlevel.render htu _ _ (h.start scope)
    have houtput := hcontexts.output
    simp only [Engine.runOn]
    generalize (e.level e.config.maxDepth).render t (Engine.start scope s) = r,
      (e.level e.config.maxDepth).render u (Engine.start scope s') = r'
      at hresults houtput ⊢
    obtain ⟨r, c⟩ := r
    obtain ⟨r', d⟩ := r'
    cases hresults with
    | fail hfault => exact .fail hfault
    | give _ => exact .give houtput.symm
  cases hcall with
  | inline htext scope => exact hrender scope
  | same call =>
    cases call with
    | render path scope => exact hrender scope
    | renderInline text scope => exact hrender scope
    | callMacro path name args =>
      obtain ⟨hresults, -⟩ :=
        Action.Concur.withTemplate htu (hbelow.callMacro htu name args) _ _ (h.start .null)
      simp only [Engine.runOn]
      generalize Action.withTemplate t _ (Engine.start .null s) = r,
        Action.withTemplate u _ (Engine.start .null s') = r' at hresults ⊢
      obtain ⟨r, c⟩ := r
      obtain ⟨r', d⟩ := r'
      cases hresults with
      | fail hfault => exact .fail hfault
      | give hvalue => exact .give (congrArg Value.display hvalue)

section Respelling

variable (hset : Table.find? "set" e.language.tags = some (.builtin .set))
  (hendset : Table.find? "endset" e.language.tags = some .terminator)

include hset hendset

/-- New stores with respelled sources. -/
theorem agreeing_fresh {source source' : Source}
    (h : source.Respelled e.language.tags e.config.cache source') :
    e.Agreeing { source } { source := source' } where
  next := rfl
  slot key := {
    name := rfl
    path := fun _ => Iff.rfl
    held := .none
    supply := by
      have hread := h key
      simp only [supply, contentAt]
      generalize (source.read key e.config.cache).1 = r, (source'.read key e.config.cache).1 = r'
        at hread
      cases hread with
      | fail hfault => exact .fail hfault
      | give htext => exact e.programOf_respelled hset hendset htext key }

/-- What a respelled call is about, in new stores. -/
theorem template_respelled {source source' : Source}
    (h : source.Respelled e.language.tags e.config.cache source') {call call' : Call}
    (hcall : call.Respelled e.language.tags call') :
    Error.AlikeOr Template.Agrees (e.template call { source }).1
        (e.template call' { source := source' }).1 ∧
      e.Agreeing (e.template call { source }).2 (e.template call' { source := source' }).2 := by
  have hstores := agreeing_fresh hset hendset h
  have hinline {text text' : String} (htext : Stencil.Respelled e.language.tags text text') :
      e.Corresponding { source } { source := source' } (.text text) (.text text') := {
    name := rfl
    path := fun key => by simp
    held := .none
    supply := e.programOf_respelled hset hendset htext inlineName }
  cases hcall with
  | inline htext scope => exact hstores.obtain (hinline htext)
  | same call =>
    cases call with
    | render path scope => exact fetchesAlike_agreeing e _ _ hstores path
    | renderInline text scope => exact hstores.obtain (hinline (.same text))
    | callMacro path name args => exact fetchesAlike_agreeing e _ _ hstores path

end Respelling

/-- **A respelled template is rendered as before**: each call gives the same text or fails for the
same cause, in every scope and whatever the engine was used for before. -/
theorem answer_respelled (e : Engine)
    (hset : Table.find? "set" e.language.tags = some (.builtin .set))
    (hendset : Table.find? "endset" e.language.tags = some .terminator)
    (hs : e.Sound s) (hs' : e.Sound s')
    (hsource : s.source.Respelled e.language.tags e.config.cache s'.source) {call call' : Call}
    (hcall : call.Respelled e.language.tags call') :
    Error.AlikeOr Eq (e.answer call s).1 (e.answer call' s').1 := by
  -- a sound store answers as a new one does
  have hnew {s : Store} (hs : e.Sound s) (call : Call) :
      (e.answer call s).1 = (e.answer call { source := s.source }).1 := by
    have hsupplied : e.Supplied (e.supply s) { source := s.source } :=
      ⟨.fresh e s.source, supply_congr rfl⟩
    exact (answer_supplied hsupplied ⟨hs, rfl⟩ call).1
  rw [hnew hs, hnew hs', answer_eq_answerOn, answer_eq_answerOn, answerOn, answerOn]
  obtain ⟨hresults, hstores⟩ := template_respelled hset hendset hsource hcall
  generalize e.template call { source := s.source } = r,
    e.template call' { source := s'.source } = r' at hresults hstores ⊢
  obtain ⟨r, s₁⟩ := r
  obtain ⟨r', s₁'⟩ := r'
  cases hresults with
  | fail hfault => exact .fail hfault
  | give htu => exact hstores.runOn htu hcall

/-- A capture in a block, of a text with quotes. -/
def inBlock : Occurrence where
  front := [([], {
    kind := .tag
    opensTrim := false
    inside := " block b ".toList
    closesTrim := false
    tokens := [⟨.identifier, "block", 3⟩, ⟨.identifier, "b", 9⟩] })]
  text := []
  name := ⟨'x', [], by decide, by decide⟩
  body := "say \"T\"".toList
  after := "\x7b\x7b x \x7d\x7d\x7b% endblock %\x7d".toList
  stands := by
    refine ⟨noOpener_of_length (by decide),
      ⟨fun _ => by decide, fun h => (by cases h), fun _ => ?_⟩, trivial⟩
    have hspace := Occurrence.isAsciiBlank_space
    exact .blank hspace (.word ⟨'b', "lock".toList, by decide, by decide⟩ (.blank hspace
      (.word ⟨'b', [], by decide, by decide⟩ (.blank hspace (.nil _)))))
  textPlain := noOpener_of_length (by decide)
  bodyPlain kind := by cases kind <;> decide

/-- Nothing is written in the block before the capture. -/
theorem free_inBlock : inBlock.Free TagTable.builtins := by
  intro s hs parent hmem
  have hstate : Tag.stateAfter? TagTable.builtins ⟨{}, []⟩ inBlock.before =
      some ⟨(({} : Accumulator).write (.callBlock "b")).enterBlock "b", [.block "b"]⟩ := rfl
  cases hstate.symm.trans hs
  exact absurd hmem List.not_mem_nil

/-- A page that is read from memory and respelled there. -/
theorem answer_respelled_inBlock :
    let t := [("page", inBlock.captured)]
    let u := [("page", inBlock.assigned)]
    inBlock.assigned = "\x7b% block b %\x7d\x7b% set x = \"say \\\"T\\\"\" %\x7d" ++
        "\x7b\x7b x \x7d\x7d\x7b% endblock %\x7d" ∧
      Table.find? "set" ({} : Language).tags = some (.builtin .set) ∧
      Table.find? "endset" ({} : Language).tags = some .terminator ∧
      Sound {} { source := .memory t } ∧ Sound {} { source := .memory u } ∧
      (Source.memory t).Respelled ({} : Language).tags true (.memory u) ∧
      Error.AlikeOr Eq (answer {} (.render "page" .null) { source := .memory t }).1
        (answer {} (.render "page" .null) { source := .memory u }).1 ∧
      (answer {} (.render "page" .null) { source := .memory u }).1 = .ok "say \"T\"" := by
  intro t u
  have hset : Table.find? "set" ({} : Language).tags = some (.builtin .set) := by decide
  have hendset : Table.find? "endset" ({} : Language).tags = some .terminator := by decide
  have htexts : Table.Rel (Stencil.Respelled ({} : Language).tags) t u :=
    .cons ⟨rfl, .place free_inBlock⟩ .nil
  have hsource := Source.respelled_memory htexts true
  have hanswers := answer_respelled {} hset hendset (.fresh _ _) (.fresh _ _) hsource
    (.same (.render "page" .null))
  exact ⟨by decide, hset, hendset, .fresh _ _, .fresh _ _, hsource, hanswers, by decide +kernel⟩

/-- A capture behind an `extends`. -/
def behindExtends : Occurrence where
  front := [([], {
    kind := .tag
    opensTrim := false
    inside := " extends ".toList ++ (Lexeme.literal "base".toList ++ [' '])
    closesTrim := false
    tokens := [⟨.identifier, "extends", 3⟩, ⟨.string, "base", 11⟩] })]
  text := []
  name := ⟨'x', [], by decide, by decide⟩
  body := ['T']
  after := []
  stands := by
    refine ⟨noOpener_of_length (by decide),
      ⟨fun _ => by decide, fun h => (by cases h), fun _ => ?_⟩, trivial⟩
    have hspace := Occurrence.isAsciiBlank_space
    exact .blank hspace (.word ⟨'e', "xtends".toList, by decide, by decide⟩ (.blank hspace
      (.literal "base".toList (.blank hspace (.nil _)))))
  textPlain := noOpener_of_length (by decide)
  bodyPlain kind := by cases kind <;> decide

/-- **Behind an `extends` the two forms differ**: the parent sees the name that is assigned, but not
the one that is captured. -/
theorem not_respelled_behind_extends :
    (¬ ∀ (o : Occurrence) (scope : Value) (s : Store), Sound {} s →
      Error.AlikeOr Eq (renderInline {} o.captured scope s).1
        (renderInline {} o.assigned scope s).1) ∧
    let s : Store := { source := .memory [("base", "\x7b\x7b x \x7d\x7d")] }
    behindExtends.captured =
        "\x7b% extends \"base\" %\x7d\x7b% set x %\x7dT\x7b% endset %\x7d" ∧
      behindExtends.assigned = "\x7b% extends \"base\" %\x7d\x7b% set x = \"T\" %\x7d" ∧
      (renderInline {} behindExtends.captured .null s).1 = .ok "" ∧
      (renderInline {} behindExtends.assigned .null s).1 = .ok "T" := by
  let s : Store := { source := .memory [("base", "\x7b\x7b x \x7d\x7d")] }
  have hcaptured : (renderInline {} behindExtends.captured .null s).1 = .ok "" := by
    decide +kernel
  have hassigned : (renderInline {} behindExtends.assigned .null s).1 = .ok "T" := by
    decide +kernel
  refine ⟨fun h => ?_, by decide, by decide, hcaptured, hassigned⟩
  have hsame := h behindExtends .null s (.fresh {} _)
  rw [hcaptured, hassigned] at hsame
  cases hsame with
  | give heq => exact absurd heq (by decide)

end Engine

end Stencil
