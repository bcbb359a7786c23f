import Stencil.Proofs.Render.Composing

/-!
# Frames

What runs is set into a **frame**: the owners of the instructions around it, and what has been
written before. Nothing that runs looks at its frame, but for the innermost owner, whose
instructions they are. So in another frame it does the same, ends as it does here, and the frame
stays around it: the owners are those that were there, and to the output it adds the same text.
-/

namespace Stencil

namespace Action

variable {α β : Type}

/-- An action that does the same in all frames with the same innermost owner. -/
def Framed (a : Action α) : Prop :=
  ∀ c : Context, ∃ written : String, ∀ (owners : List Template) (output : String),
    owners.head? = c.owners.head? →
      a { c with owners, output } =
        ((a c).1, { (a c).2 with owners, output := output ++ written })

namespace Framed

/-- What such an action leaves of its own frame. -/
theorem frame_eq {a : Action α} (ha : a.Framed) (c : Context) :
    (a c).2.owners = c.owners ∧ ∃ written, (a c).2.output = c.output ++ written := by
  obtain ⟨written, h⟩ := ha c
  have hself : a c = (_, { (a c).2 with owners := c.owners, output := c.output ++ written }) :=
    h c.owners c.output rfl
  exact ⟨congrArg (fun r => r.2.owners) hself, written, congrArg (fun r => r.2.output) hself⟩

/-- An action that does not look at the frame at all, and writes nothing. -/
theorem of_still {a : Action α}
    (h : ∀ c owners output,
      a { c with owners, output } = ((a c).1, { (a c).2 with owners, output })) : a.Framed := by
  refine fun c => ⟨"", fun owners output _ => ?_⟩
  rw [String.append_empty]
  exact h c owners output

theorem bind {a : Action α} {f : α → Action β} (ha : a.Framed)
    (hf : ∀ c x, (a c).1 = .ok x → (f x).Framed) : (a >>= f).Framed := by
  intro c
  obtain ⟨first, hfirst⟩ := ha c
  have howners := (ha.frame_eq c).1
  rcases hac : a c with ⟨fault | x, d⟩ <;> rw [hac] at hfirst howners
  · refine ⟨first, fun owners output hhead => ?_⟩
    rw [bind_apply, bind_apply, hfirst owners output hhead, hac]
  · obtain ⟨second, hsecond⟩ := hf c x (by rw [hac]) d
    refine ⟨first ++ second, fun owners output hhead => ?_⟩
    rw [bind_apply, bind_apply, hfirst owners output hhead, hac]
    dsimp only
    rw [hsecond owners _ (hhead.trans (congrArg List.head? howners.symm)), String.append_assoc]

/-- What runs between a change of the context and its undoing. -/
theorem bracket {a : Action α} (ha : a.Framed) (enter : Context → Context)
    (leave : Context → Context → Context)
    (henter : ∀ c owners output, enter { c with owners, output } = { enter c with owners, output })
    (howners : ∀ c, (enter c).owners = c.owners)
    (hleave : ∀ c d owners output owners' output',
      leave { c with owners, output } { d with owners := owners', output := output' } =
        { leave c d with owners := owners', output := output' }) :
    Framed fun c => ((a (enter c)).1, leave c (a (enter c)).2) := by
  intro c
  obtain ⟨written, h⟩ := ha (enter c)
  refine ⟨written, fun owners output hhead => ?_⟩
  dsimp only
  rw [henter, h owners output (hhead.trans (congrArg List.head? (howners c).symm)), hleave]

theorem capture {a : Action Unit} (ha : a.Framed) : (Action.capture a).Framed := by
  refine fun c => ⟨"", fun owners output hhead => ?_⟩
  obtain ⟨written, h⟩ := ha { c with output := "" }
  have hhere : (a { c with output := "" }).2.output = "" ++ written :=
    congrArg (fun r => r.2.output) (h c.owners "" rfl)
  have hthere : a { c with owners, output := "" } =
      ((a { c with output := "" }).1,
        { (a { c with output := "" }).2 with owners, output := "" ++ written }) :=
    h owners "" hhead
  simp only [Action.capture, hthere, String.append_empty]
  generalize a { c with output := "" } = r at hhere
  rw [← hhere]
  rfl

theorem withOwner {a : Action α} (ha : a.Framed) (t : Template) :
    (Action.withOwner t a).Framed := by
  intro c
  obtain ⟨written, h⟩ := ha { c with owners := t :: c.owners }
  refine ⟨written, fun owners output _ => ?_⟩
  simp only [Action.withOwner]
  rw [h (t :: owners) output rfl]
  rfl

end Framed

/-- **Whatever is put together from framed actions is framed.** -/
theorem compositional_framed : Compositional fun a => a.Framed where
  pure _ := .of_still fun _ _ _ => rfl
  fail _ := .of_still fun _ _ _ => rfl
  bind := Framed.bind
  look {_ f} hf hsame := by
    intro c
    obtain ⟨written, h⟩ := hf c c
    refine ⟨written, fun owners output hhead => ?_⟩
    have hresembles : c.Resembles { c with owners, output } := ⟨rfl, rfl, rfl, hhead, rfl, rfl⟩
    rw [get_bind_apply, get_bind_apply, hsame c _ hresembles]
    exact h owners output hhead
  onStore _ := .of_still fun _ _ _ => rfl
  write s := fun c => ⟨s, fun _ _ _ => rfl⟩
  capture := Framed.capture
  push _ _ := .of_still fun _ _ _ => rfl
  set _ _ := .of_still fun _ _ _ => rfl
  pushParent _ := .of_still fun _ _ _ => rfl
  importAs _ _ := .of_still fun _ _ _ => rfl
  importMacro _ _ _ := .of_still fun _ _ _ => rfl
  withLocals ha := ha.bracket id (fun c d => { d with scope := d.scope.truncate c.scope.mark })
    (fun _ _ _ => rfl) (fun _ => rfl) fun _ _ _ _ _ _ => rfl
  withScope ha scope := ha.bracket (fun c => { c with scope })
    (fun c d => { d with scope := c.scope })
    (fun _ _ _ => rfl) (fun _ => rfl) fun _ _ _ _ _ _ => rfl
  withOwner := Framed.withOwner
  withBlock ha t name := ha.bracket (fun c => { c with blocks := (t, name) :: c.blocks })
    (fun _ d => { d with blocks := d.blocks.tail })
    (fun _ _ _ => rfl) (fun _ => rfl) fun _ _ _ _ _ _ => rfl
  withTemplate ha t := ha.bracket (fun c => { c with chain := [t] })
    (fun c d => { d with chain := c.chain })
    (fun _ _ _ => rfl) (fun _ => rfl) fun _ _ _ _ _ _ => rfl
  withFreshImports ha := ha.bracket (fun c => { c with imports := [], importedMacros := [] })
    (fun c d => { d with imports := c.imports, importedMacros := c.importedMacros })
    (fun _ _ _ => rfl) (fun _ => rfl) fun _ _ _ _ _ _ => rfl
  deeper ha := ha.bracket (fun c => { c with depth := c.depth + 1 })
    (fun _ d => { d with depth := d.depth - 1 })
    (fun _ _ _ => rfl) (fun _ => rfl) fun _ _ _ _ _ _ => rfl

end Action

end Stencil
