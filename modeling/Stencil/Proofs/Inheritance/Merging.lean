import Stencil.Proofs.Inheritance.Simulation

/-!
# Merging a chain of templates

Rendering a template that inherits is rendering the merged one: the hand-overs up the chain
write nothing and leave a context that no run can tell from the one that the merged template
starts in. Each of them takes one level of nesting, and this is all that it costs.

The proof follows the chain. On the way up the two contexts are not alike yet, since the
parents that are still to come are in one of the chains only; what is kept is that the blocks
of the merged template are those of the whole chain (`SameFrame`), and at the root of the
chain this is being alike.
-/

namespace Stencil

/-- What a run has written when it gives a result. -/
def written (r : Except Error Unit × Context) : Except Error String :=
  r.1.map fun () => r.2.output

section Merging

variable {e : Engine} {s : Store} {p₀ : Program}

/-- Runs between which there is no difference write the same. -/
theorem Outcome.written {c d : Context} {r₁ r₂ : Except Error Unit × Context}
    (h : Outcome e s p₀ Eq c d r₁ r₂) (out : String) :
    written r₁ = .ok out ↔ written r₂ = .ok out := by
  obtain ⟨f, f', c', d', rfl, rfl⟩ | ⟨x, y, c', d', rfl, rfl, -, halike, -, -⟩ := h.split
  · constructor
    · intro h'
      cases h'
    · intro h'
      cases h'
  · have houtput : d'.output = c'.output := halike.data.output
    simp only [Stencil.written, Except.map, houtput]

/-! ### Handing over -/

/-- Texts and calls of blocks declare nothing. -/
theorem declarations_passive (E : Engine) (b : Below) {rest : List Instr}
    (h : ∀ i ∈ rest, i.IsPassive) : Instr.declarations E b rest = pure () := by
  induction rest with
  | nil => rfl
  | cons i rest ih =>
    have hi : i.isDeclaration = false := by
      rcases h i (List.mem_cons_self ..) with ⟨text, rfl⟩ | ⟨name, rfl⟩ <;> rfl
    rw [Instr.declarations, hi]
    exact ih fun j hj => h j (List.mem_cons_of_mem _ hj)

/-- A main part that extends a template does nothing but hand over to it. -/
theorem run_extend {E : Engine} {b : Below} {v : Value} {rest : List Instr} {c : Context}
    {t : Template} (hpassive : ∀ i ∈ rest, i.IsPassive)
    (hfetch : (E.fetch v.display c.store).1 = .ok t) :
    (Level.over E b).run (.extend (.literal v) :: rest) c =
      b.callParent E t { c with store := (E.fetch v.display c.store).2 } := by
  -- the path is a literal, and nothing is declared behind it
  have hstep : Instr.step E b (Instr.declarations E b rest) (.extend (.literal v)) c =
      (do b.callParent E t; return Flow.halt)
        { c with store := (E.fetch v.display c.store).2 } := by
    rw [declarations_passive E b hpassive]
    simp only [Instr.step]
    rw [Action.bind_apply, show (Expr.literal v).eval E b c = (.ok v, c) from rfl]
    dsimp only
    rw [Action.bind_apply]
    simp only [Action.fetch, Action.onStore, hfetch]
    rfl
  simp only [Level.over, Action.discard_eq, Instr.sequence]
  rw [Action.bind_apply, Action.bind_apply, hstep, Action.bind_apply]
  rcases b.callParent E t { c with store := (E.fetch v.display c.store).2 } with ⟨_ | x, c'⟩ <;> rfl

/-- What handing over writes is what the parent's main part does on the level below, where the
parent has joined the chain and owns the instructions. -/
theorem written_callParent (E : Engine) (l : Thunk Level) (t : Template) (c : Context) :
    written (Below.callParent E (some l) t c) =
      written (l.get.run t.main { c with
        chain := c.chain ++ [t], owners := t :: c.owners, depth := c.depth + 1 }) := rfl

/-- **Up the chain**: a run of the most derived program, with one level more for each of its
parents, writes what a run of the root of the chain does. -/
theorem Inherits.run {p : Program} {parents : List Program}
    (hchain : Inherits (e.content s) p parents)
    (hplain : ∀ q, e.Reaches s p₀ q → q.Plain) (hreach : ∀ q ∈ p :: parents, e.Reaches s p₀ q)
    {limit₁ limit₂ : Nat} (n : Nat) {c d : Context} {u : Template} (hu : d.owner? = some u)
    (hdata : SameData e s c d) (hframe : SameFrame e s p₀ (c.programs ++ parents) c d)
    (out : String) :
    written (((e.withLimit limit₁).level (n + parents.length)).run p.main c) = .ok out ↔
      written (((e.withLimit limit₂).level n).run (parents.getLast?.getD p).main d) =
        .ok out := by
  induction hchain generalizing c with
  | root p =>
    rw [List.append_nil] at hframe
    have hp : e.Reaches s p₀ p := hreach p (List.mem_singleton.mpr rfl)
    refine Outcome.written (Alikeness.level hplain limit₁ limit₂ n p.main (fun i hi => ?_) c d
      ⟨hdata, hframe⟩) out
    exact fit_of_reaches hplain hp (.inl hi)
  | @child p q parents v rest main passive found next ih =>
    obtain ⟨hread, hcontent, honest⟩ := hdata.honest.fetch v.display
    rw [hdata.content, found] at hread
    -- the store gives the program that the chain has in this place
    rcases hfetch : (e.fetch v.display c.store).1 with fault | t
    · rw [hfetch] at hread
      cases hread
    rw [hfetch] at hread
    obtain rfl : t.program = q := Except.ok.inj hread
    have hrun := run_extend (E := e.withLimit limit₁)
      (b := (e.withLimit limit₁).below (n + parents.length + 1)) passive hfetch
    rw [← Engine.level_eq_over] at hrun
    rw [main, List.length_cons, ← Nat.add_assoc, hrun, Engine.below, written_callParent]
    rw [List.getLast?_cons, Option.getD_some]
    have hq : ∀ q ∈ t.program :: parents, e.Reaches s p₀ q := fun q hq =>
      hreach q (List.mem_cons_of_mem _ hq)
    have hmem : t.program ∈ c.programs ++ t.program :: parents := by simp
    -- the parent moves from those to come into the chain, which together stay the same
    have hchain : (c.chain ++ [t]).map Template.program ++ parents =
        c.programs ++ t.program :: parents := by
      rw [List.map_append, List.append_assoc]
      rfl
    refine ih hq ?_ ?_
    · exact { honest := honest, honest' := hdata.honest', content := hcontent.trans hdata.content,
              content' := hdata.content', scope := hdata.scope, output := hdata.output }
    · rw [Context.programs, hchain]
      refine { hframe with owner := ?_ }
      rw [hu]
      exact .some ⟨.of_mem hmem (hframe.macros _ hmem), hframe.owned.2 u hu⟩

/-! ### The merged template -/

/-- What a render gives is what the main part of its template writes. -/
theorem output_eq_written (e : Engine) (limit : Nat) (t : Template) (scope : Value) (s : Store) :
    ((e.withLimit limit).output t scope s).1 =
      written (((e.withLimit limit).level limit).run t.main
        { Engine.start scope s with chain := [t], owners := [t] }) := rfl

/-- **Inheritance is merging.** If nothing that is reached has macros or calls `parent()`, a
template that inherits from a chain of parents renders under a limit that leaves room for
them exactly if the merged template renders, and it gives the same output. -/
theorem Engine.output_merged (e : Engine) {s s' : Store} (hs : e.Honest s) (hs' : e.Honest s')
    (hsame : e.content s' = e.content s) {t u : Template} {parents : List Program}
    (hchain : Inherits (e.content s) t.program parents)
    (hplain : ∀ q, e.Reaches s t.program q → q.Plain)
    (hmerges : u.program.Merges t.program parents) (scope : Value) (d : Nat) (out : String) :
    ((e.withLimit (d + parents.length)).output t scope s).1 = .ok out ↔
      ((e.withLimit d).output u scope s').1 = .ok out := by
  rw [output_eq_written, output_eq_written, show u.main = _ from hmerges.main]
  have hreach := hchain.reaches
  refine hchain.run hplain hreach d rfl ?_ ?_ out
  · exact { honest := hs, honest' := hs', content := rfl, content' := hsame, scope := rfl,
            output := rfl }
  · refine { blocks := fun name => ?_, fit := fun name body hbody => ?_, macros := fun q hq => ?_,
             macros' := fun q hq => ?_, owner := .some ⟨?_, ?_⟩, imports := ⟨rfl, rfl⟩,
             imports' := ⟨rfl, rfl⟩ }
    · show findBlock [u.program] name = findBlock (t.program :: parents) name
      rw [findBlock_singleton]
      exact hmerges.block name
    · obtain ⟨q, hq, hfind⟩ := mem_of_findBlock hbody
      exact fit_of_block hplain (hreach q hq) hfind
    · exact (hplain q (hreach q hq)).macros
    · rw [List.mem_singleton.mp hq]
      exact hmerges.macros
    · exact .of_mem (List.mem_cons_self ..) (hplain _ .refl).macros
    · exact .of_mem (List.mem_singleton.mpr rfl) hmerges.macros

end Merging

/-! ### A page and its base -/

/-- A store with one base template. -/
def baseStore : Store where
  source := .ofTemplates [("base", "a{% block b %}x{% endblock %}")]

/-- The program of the base template. -/
def baseProgram : Program where
  main := [.text "a", .callBlock "b"]
  blocks := [("b", [.text "x"])]

/-- A page that extends the base template. -/
def basePage : Template where
  id := 1
  name := "page"
  program := { main := [.extend (.literal (.str "base"))], blocks := [("b", [.text "y"])] }

/-- The page with the base template merged into it. -/
def mergedPage : Template where
  id := 2
  name := "merged"
  program := { main := [.text "a", .callBlock "b"], blocks := [("b", [.text "y"])] }

/-- The texts and names of a program that looks like that of the base template. -/
def baseTexts? : Except Error Program → Option (String × String × String × String)
  | .ok ⟨[.text a, .callBlock b], [(c, [.text d])], []⟩ => some (a, b, c, d)
  | _ => none

theorem content_base : ({} : Engine).content baseStore "base" = .ok baseProgram := by
  have h : baseTexts? (({} : Engine).content baseStore "base") = some ("a", "b", "b", "x") := by
    decide +kernel
  unfold baseTexts? at h
  split at h
  next hcontent =>
    rw [hcontent]
    cases h
    rfl
  next => cases h

/-- What stands in the page and in its base. -/
theorem has_basePage {i : Instr} (h : basePage.program.Has i) :
    i = .extend (.literal (.str "base")) ∨ i = .text "y" := by
  simpa [Program.Has, basePage, Instr.partsOf, Instr.parts] using h

theorem has_baseProgram {i : Instr} (h : baseProgram.Has i) :
    i = .text "a" ∨ i = .callBlock "b" ∨ i = .text "x" := by
  simpa [Program.Has, baseProgram, Instr.partsOf, Instr.parts, or_assoc] using h

theorem reaches_basePage {q : Program}
    (h : ({} : Engine).Reaches baseStore basePage.program q) :
    q = basePage.program ∨ q = baseProgram := by
  induction h with
  | refl => exact .inl rfl
  | step h has template name found ih =>
    rcases ih with rfl | rfl
    · rcases has_basePage has with rfl | rfl
      · cases template
        rw [name.eq_of_literal, show (Value.str "base").display = "base" from rfl,
          content_base] at found
        exact .inr (Except.ok.inj found).symm
      · cases template
    · rcases has_baseProgram has with rfl | rfl | rfl <;> cases template

theorem plain_basePage {q : Program}
    (h : ({} : Engine).Reaches baseStore basePage.program q) : q.Plain := by
  rcases reaches_basePage h with rfl | rfl
  · refine ⟨rfl, fun i hi => ?_, fun i hi => ?_⟩
    · rcases has_basePage hi with rfl | rfl <;> simp [Instr.Imports]
    · rcases has_basePage hi with rfl | rfl <;>
        simp [Instr.exprs, Expr.Every, Expr.parts, Expr.parentCall]
  · refine ⟨rfl, fun i hi => ?_, fun i hi => ?_⟩
    · rcases has_baseProgram hi with rfl | rfl | rfl <;> simp [Instr.Imports]
    · rcases has_baseProgram hi with rfl | rfl | rfl <;> simp [Instr.exprs]

theorem inherits_basePage :
    Inherits (({} : Engine).content baseStore) basePage.program [baseProgram] :=
  .child rfl (fun _ hi => absurd hi List.not_mem_nil) content_base (.root _)

theorem merges_basePage : mergedPage.program.Merges basePage.program [baseProgram] := by
  refine ⟨rfl, fun name => ?_, rfl⟩
  by_cases hname : name = "b"
  · subst hname
    rfl
  · have hne : "b" ≠ name := Ne.symm hname
    simp [mergedPage, basePage, baseProgram, findBlock, Table.find?, hne]

/-- The page renders with its own block in the base template, as the merged page does one level
higher up. -/
theorem output_basePage :
    ((({} : Engine).withLimit 1).output mergedPage .null baseStore).1 = .ok "ay" ∧
      ((({} : Engine).withLimit (1 + 1)).output basePage .null baseStore).1 = .ok "ay" := by
  have hmerged : ((({} : Engine).withLimit 1).output mergedPage .null baseStore).1 = .ok "ay" := by
    decide +kernel
  have hhonest := Engine.Honest.fresh {} baseStore.source
  have hiff := Engine.output_merged {} hhonest hhonest rfl inherits_basePage
    (fun _ => plain_basePage) merges_basePage .null 1 "ay"
  exact ⟨hmerged, hiff.mpr hmerged⟩

end Stencil
