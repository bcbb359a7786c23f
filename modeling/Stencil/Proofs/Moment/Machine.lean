import Stencil.Proofs.Moment.Denotation

/-!
# The moments of a run

A run is a row of **moments**. A moment has the script at hand, what is **pending** behind it, and
the context; one step takes the script apart, does a single deed, opens or closes a bracket, enters
something or leaves it. What is entered stays pending as a mark until it is left, so the marks are
the entries that are **active**.

A step is a plain function and knows nothing of levels, so nothing about it says that a run ends.
That it does is `Script.ends`: a script comes to its result, and what is pending is left as it
was. The proof goes down in two ways at once. Within an entry, scripts get smaller; and what an
entry runs, which may be larger than anything before, runs where one level less is left.
-/

namespace Stencil

/-- What is pending when a script of one type is at hand and the run is to give another. -/
inductive Pending (ω : Type) : Type → Type 1
  /-- Nothing: the result at hand is that of the run. -/
  | done : Pending ω ω
  /-- Another script, which takes the result. -/
  | next {α β : Type} (f : α → Script β) (rest : Pending ω β) : Pending ω α
  /-- A closing bracket, with the context before the opening one. -/
  | close {α β : Type} (b : Bracket α β) (outer : Context) (rest : Pending ω β) : Pending ω α
  /-- The end of what has been entered. -/
  | leave {α : Type} (x : Entry α) (rest : Pending ω α) : Pending ω α

/-- The entries that have been entered and not been left, the last one first. -/
def Pending.active {ω : Type} : {α : Type} → Pending ω α → List (Σ α : Type, Entry α)
  | _, done => []
  | _, next _ rest => rest.active
  | _, close _ _ rest => rest.active
  | _, leave x rest => ⟨_, x⟩ :: rest.active

/-- A moment of a run that gives a result of some type. -/
structure Moment (ω : Type) where
  {α : Type}
  script : Script α
  pending : Pending ω α
  context : Context

namespace Moment

variable {ω α β : Type}

/-- The moment when a result is at hand. -/
def resume (r : Except Error α) (c : Context) : Pending ω α → Moment ω
  | .done => ⟨.ret r, .done, c⟩
  | .next f rest =>
    match r with
    | .ok x => ⟨f x, rest, c⟩
    | .error fault => ⟨.ret (.error fault), rest, c⟩
  | .close b outer rest => ⟨.ret (b.closing outer (r, c)).1, rest, (b.closing outer (r, c)).2⟩
  | .leave _ rest => ⟨.ret r, rest, { c with depth := c.depth - 1 }⟩

/-- The next moment. -/
def step (e : Engine) : Moment ω → Moment ω
  | ⟨.ret r, p, c⟩ => resume r c p
  | ⟨.act a, p, c⟩ => ⟨.ret (a.action c).1, p, (a.action c).2⟩
  | ⟨.andThen first f, p, c⟩ => ⟨first, .next f p, c⟩
  | ⟨.within b body, p, c⟩ => ⟨body, .close b c p, b.opening c⟩
  | ⟨.enter x, p, c⟩ =>
    if c.depth < e.config.maxDepth then ⟨x.script e, .leave x p, { c with depth := c.depth + 1 }⟩
    else ⟨.ret (.error (.render (.tooDeep e.config.maxDepth))), p, c⟩

/-- The moment that comes some steps after one. -/
def after (e : Engine) (m : Moment ω) : Nat → Moment ω
  | 0 => m
  | i + 1 => (m.after e i).step e

/-- The entries that are active. -/
def active (m : Moment ω) : List (Σ α : Type, Entry α) :=
  m.pending.active

/-- Whether a run comes from one moment to another. -/
def Reaches (e : Engine) (m m' : Moment ω) : Prop :=
  ∃ n, m.after e n = m'

theorem after_step (e : Engine) (m : Moment ω) (n : Nat) :
    (m.step e).after e n = m.after e (n + 1) := by
  induction n with
  | zero => rfl
  | succ n ih => exact congrArg (step e) ih

theorem after_add (e : Engine) (m : Moment ω) (i n : Nat) :
    (m.after e i).after e n = m.after e (i + n) := by
  induction n with
  | zero => rfl
  | succ n ih => exact congrArg (step e) ih

/-- Whether a run is over, with a result and the store that is left. -/
inductive Over (r : Except Error ω × Store) : Moment ω → Prop
  | intro (c : Context) (h : c.store = r.2) : Over r ⟨.ret r.1, .done, c⟩

namespace Over

variable {e : Engine} {r : Except Error ω × Store} {m : Moment ω}

theorem step (h : m.Over r) : (m.step e).Over r := by
  obtain ⟨c, hc⟩ := h
  exact ⟨c, hc⟩

/-- It stays over. -/
theorem after (h : m.Over r) (n : Nat) : (m.after e n).Over r := by
  induction n with
  | zero => exact h
  | succ n ih => exact ih.step

end Over

namespace Reaches

variable {e : Engine} {m m' m'' : Moment ω}

theorem refl (m : Moment ω) : Reaches e m m :=
  ⟨0, rfl⟩

theorem head (h : Reaches e (m.step e) m') : Reaches e m m' := by
  obtain ⟨n, hn⟩ := h
  exact ⟨n + 1, after_step e m n ▸ hn⟩

theorem trans (h : Reaches e m m') (h' : Reaches e m' m'') : Reaches e m m'' := by
  obtain ⟨i, rfl⟩ := h
  obtain ⟨n, rfl⟩ := h'
  exact ⟨i + n, (after_add e m i n).symm⟩

end Reaches

end Moment

/-! ### Runs end -/

namespace Script

open Moment (Reaches)

/-- Whether a script that runs where so many levels are left comes to its result, on the same level
and with the same things pending. -/
def Ends {α : Type} (e : Engine) (left : Nat) (s : Script α) : Prop :=
  ∀ c r c', c.depth + left = e.config.maxDepth → s.denote e (e.below left) c = (r, c') →
    c'.depth = c.depth ∧ ∀ {ω : Type} (p : Pending ω α), Reaches e ⟨s, p, c⟩ ⟨.ret r, p, c'⟩

variable {e : Engine} {left : Nat} {α β : Type}

namespace Ends

theorem ret (r : Except Error α) : (Script.ret r).Ends e left := by
  rintro c r c' - ⟨⟩
  exact ⟨rfl, fun p => .refl _⟩

theorem act (a : Primitive α) : (Script.act a).Ends e left := by
  intro c r c' _ hr
  have hdepth := a.depth_action c
  rw [show a.action c = (r, c') from hr] at hdepth
  refine ⟨hdepth, fun p => .head ?_⟩
  rw [Moment.step, show a.action c = (r, c') from hr]
  exact .refl _

theorem andThen {s : Script α} {f : α → Script β} (h : s.Ends e left)
    (hf : ∀ x, (f x).Ends e left) : (Script.andThen s f).Ends e left := by
  intro c r c' hc hr
  rw [denote, Action.bind_apply] at hr
  cases hfirst : s.denote e (e.below left) c with
  | mk r₁ c₁ =>
    obtain ⟨hdepth, hreach⟩ := h c r₁ c₁ hc hfirst
    rw [hfirst] at hr
    cases r₁ with
    | error fault =>
      cases hr
      exact ⟨hdepth, fun p => .head ((hreach (.next f p)).trans (.head (.refl _)))⟩
    | ok x =>
      obtain ⟨hdepth', hreach'⟩ := hf x c₁ r c' (hdepth.symm ▸ hc) hr
      refine ⟨hdepth'.trans hdepth, fun p => .head ?_⟩
      exact (hreach (.next f p)).trans (.head (hreach' p))

theorem within {b : Bracket α β} {s : Script α} (h : s.Ends e left) :
    (Script.within b s).Ends e left := by
  intro c r c' hc hr
  rw [denote, Bracket.around_apply] at hr
  cases hbody : s.denote e (e.below left) (b.opening c) with
  | mk r₁ c₁ =>
    obtain ⟨hdepth, hreach⟩ := h (b.opening c) r₁ c₁ (by rwa [b.depth_opening]) hbody
    rw [hbody] at hr
    have hclosed := b.depth_closing c (r₁, c₁)
    rw [hr] at hclosed
    refine ⟨hclosed.trans (hdepth.trans (b.depth_opening c)), fun p => .head ?_⟩
    refine (hreach (.close b c p)).trans (.head ?_)
    rw [Moment.step, Moment.resume, hr]
    exact .refl _

/-- Where no level is left, nothing is entered. -/
theorem enter_none (x : Entry α) : (Script.enter x).Ends e 0 := by
  rintro c r c' hc ⟨⟩
  refine ⟨rfl, fun p => .head ?_⟩
  rw [Moment.step, if_neg (by omega)]
  exact .refl _

/-- Otherwise what is entered runs where one level less is left. -/
theorem enter_some (hl : e.language.OverValues) {x : Entry α} (h : (x.script e).Ends e left) :
    (Script.enter x).Ends e (left + 1) := by
  intro c r c' hc hr
  cases hbody : (x.script e).denote e (e.below left) { c with depth := c.depth + 1 } with
  | mk r₁ c₁ =>
    obtain ⟨hdepth, hreach⟩ := h _ r₁ c₁ (by change c.depth + 1 + left = _; omega) hbody
    have hc₁ : (r, c') = (r₁, { c₁ with depth := c₁.depth - 1 }) := by
      rw [(x.does_script hl).denote, ← Engine.level_eq_over] at hbody
      rw [← hr]
      simp only [denote, Engine.below, Below.descend, Action.deeper, Thunk.get]
      rw [hbody]
    cases hc₁
    refine ⟨by rw [hdepth]; rfl, fun p => .head ?_⟩
    rw [Moment.step, if_pos (by omega)]
    exact (hreach (.leave x p)).trans (.head (.refl _))

end Ends

/-- A script comes to its result if what it enters does. -/
theorem ends_of_enter (h : ∀ {β : Type} (x : Entry β), (enter x).Ends e left) (s : Script α) :
    s.Ends e left := by
  induction s with
  | ret r => exact .ret r
  | act a => exact .act a
  | andThen first f ih ihf => exact ih.andThen ihf
  | within b body ih => exact ih.within
  | enter x => exact h x

/-- **Every script comes to its result.** -/
theorem ends (hl : e.language.OverValues) (left : Nat) (s : Script α) : s.Ends e left := by
  induction left generalizing α with
  | zero => exact ends_of_enter Ends.enter_none s
  | succ left ih => exact ends_of_enter (fun x => .enter_some hl (ih (x.script e))) s

end Script

end Stencil
