import Stencil.Proofs.Moment.Machine

/-!
# The depth and its fault

Two things hold in every moment of a run. The depth counts the entries that are active, and there
are no more of them than the limit allows. And no depth fault is lying in wait: the script at hand
and all that is pending spare it, unless it has been raised already, and then it is the result at
hand from there on (`Moment.Sound`). So it is raised by the attempt of an entry with the limit
reached, and by nothing else (`Moment.Sound.raises_iff`).
-/

namespace Stencil

/-- Whether nothing that is pending raises a depth fault by itself. -/
def Pending.SparesDepth {ω : Type} : {α : Type} → Pending ω α → Prop
  | _, done => True
  | _, next f rest => (∀ x, (f x).SparesDepth) ∧ rest.SparesDepth
  | _, close _ _ rest => rest.SparesDepth
  | _, leave _ rest => rest.SparesDepth

namespace Moment

variable {ω α : Type} {e : Engine} {m : Moment ω}

/-- Whether an entry is attempted. -/
inductive Attempts : Moment ω → Prop
  | intro {α : Type} (x : Entry α) (p : Pending ω α) (c : Context) : Attempts ⟨.enter x, p, c⟩

/-- Whether the depth fault is the result at hand. -/
inductive Faulty (e : Engine) : Moment ω → Prop
  | intro {α : Type} (p : Pending ω α) (c : Context) :
    Faulty e ⟨.ret (.error (.render (.tooDeep e.config.maxDepth))), p, c⟩

/-- Whether the depth fault is raised. -/
def Raises (e : Engine) (m : Moment ω) : Prop :=
  ¬ m.Faulty e ∧ (m.step e).Faulty e

/-- Whether an entry is attempted while as many are active as the limit allows. -/
def Overruns (e : Engine) (m : Moment ω) : Prop :=
  m.Attempts ∧ m.active.length = e.config.maxDepth

/-- Whether no depth fault is lying in wait. -/
structure SparesDepth (m : Moment ω) : Prop where
  script : m.script.SparesDepth
  pending : m.pending.SparesDepth

/-- What holds in every moment of a run. -/
structure Sound (e : Engine) (m : Moment ω) : Prop where
  depth : m.context.depth = m.active.length
  le : m.active.length ≤ e.config.maxDepth
  fault : m.SparesDepth ∨ m.Faulty e

theorem SparesDepth.not_faulty (h : m.SparesDepth) : ¬ m.Faulty e := by
  rintro ⟨p, c⟩
  exact h.script _ rfl ⟨_⟩

theorem Overruns.not_faulty (h : m.Overruns e) : ¬ m.Faulty e := by
  obtain ⟨⟨x, p, c⟩, -⟩ := h
  rintro ⟨⟩

/-! ### The depth -/

theorem depth_resume (r : Except Error α) {c : Context} {p : Pending ω α}
    (h : c.depth = p.active.length) :
    (resume r c p).context.depth = (resume r c p).active.length := by
  cases p with
  | done => exact h
  | next f rest => cases r <;> exact h
  | close b outer rest => exact (b.depth_closing outer (r, c)).trans h
  | leave x rest =>
    change c.depth - 1 = rest.active.length
    rw [h]
    rfl

theorem active_resume_le (r : Except Error α) (c : Context) (p : Pending ω α) :
    (resume r c p).active.length ≤ p.active.length := by
  cases p with
  | done => exact Nat.le_refl _
  | next f rest => cases r <;> exact Nat.le_refl _
  | close b outer rest => exact Nat.le_refl _
  | leave x rest => exact Nat.le_succ _

/-- One step keeps the count. -/
theorem depth_step (h : m.context.depth = m.active.length) :
    (m.step e).context.depth = (m.step e).active.length := by
  obtain ⟨s, p, c⟩ := m
  cases s with
  | ret r => exact depth_resume r h
  | act a => exact (a.depth_action c).trans h
  | andThen first f => exact h
  | within b body => exact (b.depth_opening c).trans h
  | enter x =>
    rw [step]
    split
    · exact congrArg (· + 1) h
    · exact h

/-- One step keeps the limit. -/
theorem active_step_le (h : m.context.depth = m.active.length)
    (hle : m.active.length ≤ e.config.maxDepth) : (m.step e).active.length ≤ e.config.maxDepth := by
  obtain ⟨s, p, c⟩ := m
  cases s with
  | ret r => exact Nat.le_trans (active_resume_le r c p) hle
  | act a => exact hle
  | andThen first f => exact hle
  | within b body => exact hle
  | enter x =>
    rw [step]
    split
    next hroom => exact h ▸ hroom
    next => exact hle

/-! ### The fault -/

/-- The depth fault stays at hand. -/
theorem Faulty.step (h : m.Faulty e) : (m.step e).Faulty e := by
  obtain ⟨p, c⟩ := h
  cases p with
  | done => exact ⟨_, _⟩
  | next f rest => exact ⟨_, _⟩
  | close b outer rest =>
    rw [Moment.step, resume, b.closing_error]
    exact ⟨_, _⟩
  | leave x rest => exact ⟨_, _⟩

theorem SparesDepth.resume {r : Except Error α} (hr : Stencil.SparesDepth r) (c : Context)
    {p : Pending ω α} (hp : p.SparesDepth) : (Moment.resume r c p).SparesDepth := by
  cases p with
  | done => exact ⟨hr, hp⟩
  | next f rest =>
    cases r with
    | ok x => exact ⟨hp.1 x, hp.2⟩
    | error fault => exact ⟨sparesDepth_error (hr fault rfl), hp.2⟩
  | close b outer rest => exact ⟨b.sparesDepth_closing outer hr, hp⟩
  | leave x rest => exact ⟨hr, hp⟩

/-- Where no depth fault is lying in wait, none is after one step, or else an entry has been
attempted with the limit reached. -/
theorem SparesDepth.step (hl : e.language.OverValues) (h : m.SparesDepth)
    (hdepth : m.context.depth = m.active.length) (hle : m.active.length ≤ e.config.maxDepth) :
    (m.step e).SparesDepth ∨ m.Overruns e := by
  obtain ⟨s, p, c⟩ := m
  obtain ⟨hs, hp⟩ := h
  cases s with
  | ret r => exact .inl (.resume hs c hp)
  | act a => exact .inl ⟨hs c, hp⟩
  | andThen first f => exact .inl ⟨hs.1, hs.2, hp⟩
  | within b body => exact .inl ⟨hs, hp⟩
  | enter x =>
    rw [Moment.step]
    split
    next => exact .inl ⟨x.sparesDepth_script hl, hp⟩
    next hfull => exact .inr ⟨⟨x, p, c⟩, Nat.le_antisymm hle (hdepth ▸ Nat.le_of_not_lt hfull)⟩

/-- An attempt with the limit reached raises the fault. -/
theorem Overruns.step (h : m.Overruns e) (hdepth : m.context.depth = m.active.length) :
    (m.step e).Faulty e := by
  obtain ⟨⟨x, p, c⟩, hfull⟩ := h
  have hlimit : ¬ c.depth < e.config.maxDepth := by
    rw [show c.depth = e.config.maxDepth from hdepth.trans hfull]
    exact Nat.lt_irrefl _
  rw [Moment.step, if_neg hlimit]
  exact ⟨p, c⟩

/-- Any other attempt makes one more entry active. -/
theorem Attempts.active_step (h : m.Attempts) (hover : ¬ m.Overruns e)
    (hdepth : m.context.depth = m.active.length) (hle : m.active.length ≤ e.config.maxDepth) :
    ∃ x, (m.step e).active = x :: m.active := by
  have hroom : m.context.depth < e.config.maxDepth := by
    rw [hdepth]
    exact Nat.lt_of_le_of_ne hle fun hfull => hover ⟨h, hfull⟩
  obtain ⟨x, p, c⟩ := h
  rw [Moment.step, if_pos hroom]
  exact ⟨⟨_, x⟩, rfl⟩

/-! ### Every moment -/

namespace Sound

/-- One step from a sound moment gives a sound moment. -/
theorem step (hl : e.language.OverValues) (h : m.Sound e) : (m.step e).Sound e where
  depth := depth_step h.depth
  le := active_step_le h.depth h.le
  fault := by
    obtain hspares | hfaulty := h.fault
    · exact (hspares.step hl h.depth h.le).imp_right fun hover => hover.step h.depth
    · exact .inr hfaulty.step

/-- So every moment of a run is sound. -/
theorem after (hl : e.language.OverValues) (h : m.Sound e) (i : Nat) : (m.after e i).Sound e := by
  induction i with
  | zero => exact h
  | succ i ih => exact ih.step hl

/-- **The depth fault is raised by an attempt with the limit reached, and by nothing else.** -/
theorem raises_iff (hl : e.language.OverValues) (h : m.Sound e) : m.Raises e ↔ m.Overruns e := by
  constructor
  · rintro ⟨hnot, hfaulty⟩
    have hspares := h.fault.resolve_right hnot
    exact (hspares.step hl h.depth h.le).resolve_left fun hnext => hnext.not_faulty hfaulty
  · exact fun hover => ⟨hover.not_faulty, hover.step h.depth⟩

/-- It is at hand if it has been raised. -/
theorem faulty_after_iff (hl : e.language.OverValues) (h : m.Sound e) (hm : ¬ m.Faulty e)
    (n : Nat) : (m.after e n).Faulty e ↔ ∃ i < n, (m.after e i).Overruns e := by
  induction n with
  | zero => exact ⟨fun hf => absurd hf hm, fun ⟨i, hi, _⟩ => absurd hi (Nat.not_lt_zero i)⟩
  | succ n ih =>
    have hn := h.after hl n
    constructor
    · intro hf
      by_cases hbefore : (m.after e n).Faulty e
      · obtain ⟨i, hi, hover⟩ := ih.mp hbefore
        exact ⟨i, Nat.lt_succ_of_lt hi, hover⟩
      · exact ⟨n, Nat.lt_succ_self n, (hn.raises_iff hl).mp ⟨hbefore, hf⟩⟩
    · rintro ⟨i, hi, hover⟩
      obtain hi | rfl := Nat.lt_succ_iff_lt_or_eq.mp hi
      · exact (ih.mpr ⟨i, hi, hover⟩).step
      · exact hover.step hn.depth

/-- A run that is over has failed over the depth if that fault is at hand. -/
theorem over_iff (h : m.Sound e) {r : Except Error ω × Store} (hm : m.Over r) (limit : Nat) :
    r.1 = .error (.render (.tooDeep limit)) ↔ limit = e.config.maxDepth ∧ m.Faulty e := by
  obtain ⟨r, s⟩ := r
  obtain ⟨c, -⟩ := hm
  constructor
  · intro hr
    obtain hspares | hfaulty := h.fault
    · exact absurd ⟨limit⟩ (hspares.script _ hr)
    · cases hfaulty
      cases hr
      exact ⟨rfl, _, _⟩
  · rintro ⟨rfl, ⟨⟩⟩
    rfl

end Sound

end Moment

end Stencil
