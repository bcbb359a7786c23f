import Stencil.Proofs.Engine.Fetching
import Stencil.Proofs.Render.Unison

/-!
# Imports around a macro

A macro has a scope of its own, but it has no imports of its own. What its caller has imported
is found before the macros that stand next to it, and what it imports itself stays when it is
done. So a caller can put another macro in the place of one that the macro calls, and the macro
can rebind the aliases of its caller.

Imports get in the way of each other by their names only. If all templates keep to a coverage,
a macro does the same in all contexts whose imports agree on the names that may be called, and
it leaves every import alone whose name may not be bound.
-/

namespace Stencil

/-- Whether all templates that a context knows keep to a coverage, as far as they may be called. -/
structure Context.Within (V : Coverage) (c : Context) : Prop where
  chain : ∀ t ∈ c.chain, t.program.Within V
  blocks : ∀ b ∈ c.blocks, b.1.program.Within V
  owners : ∀ t ∈ c.owners, t.program.Within V
  imports : ∀ name t, V.called name → Table.find? name c.imports = some t → t.program.Within V
  importedMacros : ∀ name m, V.called name → Table.find? name c.importedMacros = some m →
    m.1.program.Within V

/-- Whether two contexts have the same imports under the names that may be called. -/
def Context.AgreeOn (V : Coverage) (c d : Context) : Prop :=
  ∀ name, V.called name → Table.find? name d.imports = Table.find? name c.imports ∧
    Table.find? name d.importedMacros = Table.find? name c.importedMacros

/-- Whether all that may be fetched keeps to a coverage. -/
def Engine.Offers (e : Engine) (V : Coverage) (s : Store) : Prop :=
  e.Honest s ∧ ∀ path p, e.content s path = .ok p → p.Within V

namespace Engine

variable {e : Engine} {V : Coverage}

theorem Offers.fetch {s : Store} (h : e.Offers V s) (path : String) :
    e.Offers V (e.fetch path s).2 ∧
      ∀ t, (e.fetch path s).1 = .ok t → t.program.Within V := by
  obtain ⟨hprogram, hcontent, hhonest⟩ := h.1.fetch path
  refine ⟨⟨hhonest, ?_⟩, fun t ht => ?_⟩
  · rw [hcontent]
    exact h.2
  · rw [ht] at hprogram
    exact h.2 path t.program hprogram.symm

/-- Templates that stand for themselves, and keep to the coverage. -/
def selfWorld (V : Coverage) : World V where
  stands t u := u = t ∧ t.program.Within V
  name h := congrArg Template.name h.1
  program h := congrArg Template.program h.1
  within h := h.2

/-- The correspondence of runs that differ in imports which nothing calls. -/
abbrev importing (e : Engine) (V : Coverage) : Correspondence V :=
  .unison V (e.Offers V) fun _ => False

theorem lawful_importing (e : Engine) (V : Coverage) : (e.importing V).Lawful e e :=
  Correspondence.lawful_unison rfl rfl rfl (fun path _ hs => (hs.fetch path).1)
    fun path _ t hs ht => (hs.fetch path).2 t ht

/-- Contexts that agree on the names that may be called correspond. -/
theorem contexts_importing {c : Context} (hstore : e.Offers V c.store) (hc : c.Within V)
    {imports : Table Template} {importedMacros : Table (Template × String)}
    (hagree : c.AgreeOn V { c with imports, importedMacros }) :
    (e.importing V).Contexts (selfWorld V) c { c with imports, importedMacros } where
  stores := ⟨rfl, hstore, fun _ _ h => h.1⟩
  scope := rfl
  output := rfl
  chain := List.forall₂_same.mpr fun t ht => ⟨rfl, hc.chain t ht⟩
  blocks := List.forall₂_same.mpr fun b hb => ⟨⟨rfl, hc.blocks b hb⟩, rfl⟩
  owners := List.forall₂_same.mpr fun t ht => ⟨rfl, hc.owners t ht⟩
  imports name hname := by
    have h := (hagree name hname).1
    dsimp only at h ⊢
    rw [h]
    cases hfind : Table.find? name c.imports with
    | none => exact .none
    | some t => exact .some ⟨rfl, hc.imports name t hname hfind⟩
  importedMacros name hname := by
    have h := (hagree name hname).2
    dsimp only at h ⊢
    rw [h]
    cases hfind : Table.find? name c.importedMacros with
    | none => exact .none
    | some m => exact .some ⟨⟨rfl, hc.importedMacros name m hname hfind⟩, rfl⟩

/-- **A macro sees and touches the imports of its caller by their names only.** If all
templates begin their calls with certain names and bind certain names by their imports, then a
call of a macro gives the same value or the same failure in two contexts that differ only in
imports under other names than those called, and each context keeps its imports under all
names that are not bound. -/
theorem macro_imports_by_name (e : Engine) (n : Nat) (V : Coverage) {t : Template}
    (ht : t.program.Within V) (name : String) (args : List Value) {c : Context}
    (hstore : e.Offers V c.store) (hc : c.Within V) {imports : Table Template}
    {importedMacros : Table (Template × String)}
    (hagree : c.AgreeOn V { c with imports, importedMacros }) :
    let d := { c with imports, importedMacros }
    let here := (e.below n).callMacro e t name args c
    let there := (e.below n).callMacro e t name args d
    here.1 = there.1 ∧ c.Intact V here.2 ∧ d.Intact V there.2 := by
  intro d here there
  have hbelow : (e.importing V).Belows e e (e.below n) (e.below n) :=
    Correspondence.belows (k := 0) (lawful_importing e V) Correspondence.clear_unison
      (.bottom rfl) n
  have htu : (selfWorld V).stands t t := ⟨rfl, ht⟩
  have hends : (e.importing V).Ends (fun _ => Eq) (selfWorld V) c d here there :=
    Correspondence.callMacro hbelow htu name args c d (contexts_importing hstore hc hagree)
      (Correspondence.clear_unison c)
  generalize here = r₁, there = r₂ at hends
  cases hends with
  | refuse h => exact h.elim
  | fail _ _ hleft hright => exact ⟨rfl, hleft, hright⟩
  | give _ _ _ hleft hright hxy => exact ⟨congrArg Except.ok hxy, hleft, hright⟩

/-! ### A library -/

/-- A library with a macro that imports something and then calls another one of it. -/
def libraryPage : Template where
  id := 0
  name := "library"
  program := {
    macros := [("greet", { body := [.text "hello"] }),
      ("welcome",
        { body := [.importAs (.var "_self") "own", .output (.call (.var "greet") [])] })] }

/-- A template with a macro of the same name. -/
def otherPage : Template where
  id := 1
  name := "other"
  program := { macros := [("greet", { body := [.text "bye"] })] }

/-- What the library calls and binds. -/
def libraryCoverage : Coverage where
  called name := name = "greet"
  bound name := name = "own"

theorem within_libraryPage : libraryPage.program.Within libraryCoverage := by
  constructor <;>
    simp [libraryPage, libraryCoverage, Instr.partsOf, Instr.parts, Coverage.covers,
      Coverage.instr, Instr.exprs, Expr.Every, Expr.parts, Expr.partsOf, Coverage.expr]

/-- A store without templates offers none. -/
theorem offers_empty (e : Engine) (V : Coverage) : e.Offers V {} := by
  refine ⟨.fresh e .empty, fun path p hp => ?_⟩
  rw [content] at hp
  split at hp <;> cases hp

/-- A caller with imports that the library does not call. -/
def importingCaller : Context where
  imports := [("lib", otherPage)]
  importedMacros := [("hi", otherPage, "greet")]

/-- The library does for the caller what it does without imports around. -/
theorem macro_imports_libraryPage :
    let here := (({} : Engine).below 2).callMacro {} libraryPage "welcome" [] {}
    let there := (({} : Engine).below 2).callMacro {} libraryPage "welcome" [] importingCaller
    ({} : Context).AgreeOn libraryCoverage importingCaller ∧ here.1 = there.1 ∧
      ({} : Context).Intact libraryCoverage here.2 ∧
        importingCaller.Intact libraryCoverage there.2 := by
  have hagree : ({} : Context).AgreeOn libraryCoverage importingCaller := by
    rintro _ rfl
    exact ⟨rfl, rfl⟩
  have hwithin : ({} : Context).Within libraryCoverage := by
    constructor <;> simp [Table.find?]
  exact ⟨hagree, macro_imports_by_name {} 2 libraryCoverage within_libraryPage "welcome" []
    (offers_empty {} libraryCoverage) hwithin hagree⟩

/-- **Macros do not have imports of their own**: what the caller has imported can change the
value of a call, and a call can change what the caller has imported. -/
theorem not_macro_keeps_imports :
    (¬ ∀ (e : Engine) (n : Nat) (t : Template) (name : String) (args : List Value) (c : Context)
        (imports : Table Template) (importedMacros : Table (Template × String)),
        ((e.below n).callMacro e t name args c).1 =
          ((e.below n).callMacro e t name args { c with imports, importedMacros }).1) ∧
      ¬ ∀ (e : Engine) (n : Nat) (t : Template) (name : String) (args : List Value) (c : Context),
        ((e.below n).callMacro e t name args c).2.imports = c.imports := by
  constructor
  · intro h
    have hsame := h {} 2 libraryPage "welcome" [] {} [] [("greet", otherPage, "greet")]
    have hhere : ((({} : Engine).below 2).callMacro {} libraryPage "welcome" [] {}).1.map
        Value.display = .ok "hello" := by decide +kernel
    have hthere : ((({} : Engine).below 2).callMacro {} libraryPage "welcome" []
        { importedMacros := [("greet", otherPage, "greet")] }).1.map Value.display =
          .ok "bye" := by decide +kernel
    rw [← hsame, hhere] at hthere
    exact absurd hthere (by decide)
  · intro h
    have hkept := congrArg List.length (h {} 2 libraryPage "welcome" [] {})
    have hbound : ((({} : Engine).below 2).callMacro {} libraryPage "welcome" []
        {}).2.imports.length = 1 := by decide +kernel
    rw [hbound] at hkept
    cases hkept

end Engine

end Stencil
