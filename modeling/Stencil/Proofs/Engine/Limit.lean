import Stencil.Proofs.Engine.Calls
import Stencil.Proofs.Engine.Reach
import Stencil.Proofs.Render.Unison

/-!
# The limit to nesting

The limit to nesting is told only where it is met: nothing in a render asks how deep it is,
and nothing catches the failure. So with a higher limit everything is answered as before,
unless the lower one was met.

Two engines with different limits run in unison. The level that is `n` above the lowest one
of the left engine goes with the level that is as much higher in the right one as the limit
is, and the left run is refused when it meets its limit.
-/

namespace Stencil

namespace Engine

@[simp] theorem withLimit_template (e : Engine) (limit : Nat) :
    (e.withLimit limit).template = e.template := by
  funext call
  cases call <;> rfl

/-- **A higher limit changes no answer** but that the limit is met: what an engine answers
without meeting its limit it answers under any higher one, and it leaves the same store. -/
theorem answer_withLimit_of_le (e : Engine) {limit limit' : Nat} (hle : limit ≤ limit')
    (call : Call) (s : Store)
    (hmet : ((e.withLimit limit).answer call s).1 ≠ .error (.render (.tooDeep limit))) :
    (e.withLimit limit').answer call s = (e.withLimit limit).answer call s := by
  let K := Correspondence.unison {} (fun _ => True) (· = .render (.tooDeep limit))
  have hlawful : K.Lawful (e.withLimit limit) (e.withLimit limit') :=
    Correspondence.lawful_unison rfl rfl rfl (fun _ _ _ => trivial)
      fun _ _ t _ _ => t.program.within_all
  obtain ⟨k, rfl⟩ := Nat.exists_eq_add_of_le hle
  have hfetches : K.Fetches .empty ((e.withLimit limit).template call s)
      ((e.withLimit (limit + k)).template call s) := by
    rw [withLimit_template, withLimit_template]
    exact Correspondence.fetches_unison (fun _ _ h => h.elim) trivial
      fun t _ => t.program.within_all
  have hanswers := Correspondence.answer hlawful Correspondence.clear_unison
    (.refused rfl _) rfl call hfetches
  obtain ⟨heq, _, _, hstore, _⟩ := hanswers fun fault hfault hrefused => by
    rw [hrefused] at hfault
    exact hmet hfault
  exact Prod.ext heq hstore

/-! ### A page in a frame -/

/-- A store with a frame around a block. -/
def frameStore : Store where
  source := .ofTemplates [("frame", "({% block b %}{% endblock %})")]

/-- Renders a page that fills the frame, two levels deep. -/
def framed : Call :=
  .renderInline "{% extends frame %}{% block b %}text{% endblock %}"
    (.map [("frame", .str "frame")])

/-- What the page is under the limit that it needs it is under the usual one. -/
theorem answer_framed :
    ((({} : Engine).withLimit 2).answer framed frameStore).1 ≠ .error (.render (.tooDeep 2)) ∧
      (({} : Engine).withLimit 64).answer framed frameStore =
        (({} : Engine).withLimit 2).answer framed frameStore ∧
      ((({} : Engine).withLimit 2).answer framed frameStore).1 = .ok "(text)" := by
  have hanswer : ((({} : Engine).withLimit 2).answer framed frameStore).1 = .ok "(text)" := by
    decide +kernel
  have hmet : ((({} : Engine).withLimit 2).answer framed frameStore).1 ≠
      .error (.render (.tooDeep 2)) := by simp [hanswer]
  exact ⟨hmet, answer_withLimit_of_le {} (by decide) framed frameStore hmet, hanswer⟩

end Engine

end Stencil
