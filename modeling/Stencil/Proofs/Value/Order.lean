import Stencil.Proofs.Number.Order

/-!
# The order of values

Values are compared in four ways: two texts by code points, two dates and two date-times by time,
and everything else as numbers, where nothing counts as a number that is compared by time or not at
all (`Value.compare?_eq_some_iff`). Each way is an order, and dates never meet a value of another
kind. But a text meets texts in one way and everything else in another one, and of `"10"`, `"9"` and
the integer 10 each is less than the next one, while the first and the last are equal
(`Value.not_compare?_lt_trans`).

That is all that goes wrong. Of three values the order is transitive if none or one or all of them
are texts, or if the two that are texts are in the order of the numbers that they spell
(`Value.compare?_order`).
-/

namespace Stencil

instance : Std.TransCmp Date.order :=
  inferInstanceAs (Std.TransCmp (compareLex (compareOn Date.year)
    (compareLex (compareOn Date.month) (compareOn Date.day))))

instance : Std.TransCmp Time.order :=
  inferInstanceAs (Std.TransCmp (compareLex (compareOn Time.hour)
    (compareLex (compareOn Time.minute)
      (compareLex (compareOn Time.second) (compareOn Time.nanosecond)))))

instance : Std.TransCmp DateTime.order :=
  inferInstanceAs (Std.TransCmp (compareLex
    (compareLex (compareOn fun d : DateTime => d.date.year)
      (compareLex (compareOn fun d => d.date.month) (compareOn fun d => d.date.day)))
    (compareLex (compareOn fun d => d.time.hour)
      (compareLex (compareOn fun d => d.time.minute)
        (compareLex (compareOn fun d => d.time.second) (compareOn fun d => d.time.nanosecond))))))

namespace Value

variable {a b c : Value} {o : Ordering}

/-- The order of two values as numbers. -/
def compareNumbers? (a b : Value) : Option Ordering := do
  Number.compare? (← a.toNumber?) (← b.toNumber?)

/-- Two values in the order of their kind, other than that of numbers. -/
inductive SameKind : Value → Value → Ordering → Prop
  | texts (s t : String) : SameKind (.str s) (.str t) (compare s t)
  | dates (d e : Date) : SameKind (.date d) (.date e) (d.order e)
  | dateTimes (d e : DateTime) : SameKind (.dateTime d) (.dateTime e) (d.order e)

theorem SameKind.swap (h : SameKind a b o) : SameKind b a o.swap := by
  cases h with
  | texts s t =>
    rw [← Std.OrientedCmp.eq_swap]
    exact .texts t s
  | dates d e =>
    rw [← Std.OrientedCmp.eq_swap]
    exact .dates e d
  | dateTimes d e =>
    rw [← Std.OrientedCmp.eq_swap]
    exact .dateTimes e d

theorem compareNumbers?_swap (a b : Value) :
    b.compareNumbers? a = (a.compareNumbers? b).map Ordering.swap := by
  rw [compareNumbers?, compareNumbers?]
  rcases a.toNumber? with _ | x <;> rcases b.toNumber? with _ | y
  case some.some => exact x.compare?_swap y
  all_goals rfl

theorem compareNumbers?_eq_some_iff : a.compareNumbers? b = some o ↔
    ∃ x y, a.toNumber? = some x ∧ b.toNumber? = some y ∧ x.compare? y = some o := by
  rw [compareNumbers?]
  rcases a.toNumber? with _ | x <;> rcases b.toNumber? with _ | y <;> simp

theorem compareNumbers?_of_toNumber?_left (h : a.toNumber? = none) : a.compareNumbers? b = none := by
  rw [compareNumbers?, h]
  rfl

theorem compareNumbers?_of_toNumber?_right (h : b.toNumber? = none) :
    a.compareNumbers? b = none := by
  rw [compareNumbers?, h]
  cases a.toNumber? <;> rfl

/-- Two values are of one kind with an order of its own, or else they compare as numbers or not at
all. -/
theorem compare?_cases (a b : Value) :
    (∃ o, SameKind a b o ∧ a.compare? b = some o) ∨
      (a.text? = none ∨ b.text? = none) ∧ a.compare? b = a.compareNumbers? b := by
  unfold compare?
  split
  next s t => exact .inl ⟨_, .texts s t, rfl⟩
  next d e => exact .inl ⟨_, .dates d e, rfl⟩
  next d e => exact .inl ⟨_, .dateTimes d e, rfl⟩
  next => exact .inr ⟨.inl rfl, (compareNumbers?_of_toNumber?_left rfl).symm⟩
  next => exact .inr ⟨.inl rfl, (compareNumbers?_of_toNumber?_left rfl).symm⟩
  next => exact .inr ⟨.inr rfl, (compareNumbers?_of_toNumber?_right rfl).symm⟩
  next => exact .inr ⟨.inr rfl, (compareNumbers?_of_toNumber?_right rfl).symm⟩
  next htexts _ _ =>
    refine .inr ⟨?_, rfl⟩
    cases a with
    | str s =>
      cases b with
      | str t => exact (htexts s t rfl rfl).elim
      | _ => exact .inr rfl
    | _ => exact .inl rfl

/-- **How values are compared.** -/
theorem compare?_eq_some_iff : a.compare? b = some o ↔
    SameKind a b o ∨ (a.text? = none ∨ b.text? = none) ∧ a.compareNumbers? b = some o := by
  constructor
  · intro h
    rcases compare?_cases a b with ⟨o', hkind, ho'⟩ | ⟨htext, hnumbers⟩
    · obtain rfl : o' = o := Option.some_inj.mp (ho'.symm.trans h)
      exact .inl hkind
    · exact .inr ⟨htext, hnumbers.symm.trans h⟩
  · rintro (hkind | ⟨htext, hnumbers⟩)
    · cases hkind <;> rfl
    · rcases compare?_cases a b with ⟨o', hkind, -⟩ | ⟨-, hsame⟩
      · cases hkind with
        | texts s t =>
          exact htext.elim (fun h => absurd h (Option.some_ne_none s))
            fun h => absurd h (Option.some_ne_none t)
        | dates d e => cases hnumbers
        | dateTimes d e => cases hnumbers
      · exact hsame.trans hnumbers

/-- Turned round, two values compare the other way round. -/
theorem compare?_swap (a b : Value) : b.compare? a = (a.compare? b).map Ordering.swap := by
  have hswap : ∀ {a b : Value} {o : Ordering}, a.compare? b = some o →
      b.compare? a = some o.swap := by
    intro a b o h
    rcases compare?_eq_some_iff.mp h with hkind | ⟨htext, hnumbers⟩
    · exact compare?_eq_some_iff.mpr (.inl hkind.swap)
    · refine compare?_eq_some_iff.mpr (.inr ⟨htext.symm, ?_⟩)
      rw [compareNumbers?_swap a b, hnumbers, Option.map_some]
  rcases h : a.compare? b with _ | o
  · rcases hback : b.compare? a with _ | o
    · rfl
    · exact absurd (h.symm.trans (hswap hback)) (Option.some_ne_none _).symm
  · exact hswap h

theorem text?_str (s : String) : (Value.str s).text? = some s := rfl

theorem eq_str_of_text?_eq_some {s : String} (h : a.text? = some s) : a = .str s := by
  cases a with
  | str t => exact congrArg _ (Option.some_inj.mp h)
  | _ => exact absurd h.symm (Option.some_ne_none s)

/-- Should exactly two of three values be texts, then these are in the order of the numbers that
they spell. -/
def TextsAgree (a b c : Value) : Prop :=
  ∀ s t, [a, b, c].filterMap text? = [s, t] →
    (Value.str s).compareNumbers? (.str t) = some (compare s t)

/-- Values of one kind are in order as their kind is. -/
theorem SameKind.trans {o' : Ordering} (hab : SameKind a b o) (hbc : SameKind b c o') (ho : o = .lt)
    (ho' : o' = .lt) : SameKind a c .lt := by
  cases hab with
  | texts s t =>
    cases hbc with
    | texts _ u =>
      rw [← Std.TransCmp.lt_trans ho ho']
      exact .texts s u
  | dates d e =>
    cases hbc with
    | dates _ f =>
      rw [← Std.TransCmp.lt_trans ho ho']
      exact .dates d f
  | dateTimes d e =>
    cases hbc with
    | dateTimes _ f =>
      rw [← Std.TransCmp.lt_trans ho ho']
      exact .dateTimes d f

/-- Only texts compare as their kind and may compare as numbers as well. -/
theorem SameKind.eq_texts (h : SameKind a b o) (hnumber : a.toNumber? ≠ none ∨ b.toNumber? ≠ none) :
    ∃ s t, a = .str s ∧ b = .str t ∧ compare s t = o := by
  cases h with
  | texts s t => exact ⟨s, t, rfl, rfl, rfl⟩
  | dates d e => exact (hnumber.elim (· rfl) (· rfl)).elim
  | dateTimes d e => exact (hnumber.elim (· rfl) (· rfl)).elim

theorem compareNumbers?_lt_trans (hab : a.compareNumbers? b = some .lt)
    (hbc : b.compareNumbers? c = some .lt) : a.compareNumbers? c = some .lt := by
  obtain ⟨x, y, hx, hy, hxy⟩ := compareNumbers?_eq_some_iff.mp hab
  obtain ⟨y', z, hy', hz, hyz⟩ := compareNumbers?_eq_some_iff.mp hbc
  obtain rfl : y = y' := Option.some_inj.mp (hy.symm.trans hy')
  exact compareNumbers?_eq_some_iff.mpr ⟨x, z, hx, hz, Number.compare?_lt_trans hxy hyz⟩

theorem toNumber?_ne_none (h : a.compareNumbers? b = some o) :
    a.toNumber? ≠ none ∧ b.toNumber? ≠ none := by
  obtain ⟨x, y, hx, hy, -⟩ := compareNumbers?_eq_some_iff.mp h
  exact ⟨hx ▸ Option.some_ne_none x, hy ▸ Option.some_ne_none y⟩

/-- **The order of values is transitive**, where texts agree with the numbers that they spell. -/
theorem compare?_lt_trans (htexts : TextsAgree a b c) (hab : a.compare? b = some .lt)
    (hbc : b.compare? c = some .lt) : a.compare? c = some .lt := by
  refine compare?_eq_some_iff.mpr ?_
  rcases compare?_eq_some_iff.mp hab with hkind | ⟨htext, hnumbers⟩ <;>
    rcases compare?_eq_some_iff.mp hbc with hkind' | ⟨htext', hnumbers'⟩
  · exact .inl (hkind.trans hkind' rfl rfl)
  · obtain ⟨s, t, rfl, rfl, hst⟩ := hkind.eq_texts (.inr (toNumber?_ne_none hnumbers').1)
    have hc : c.text? = none := htext'.resolve_left (Option.some_ne_none t)
    have hspelled := htexts s t (by simp only [List.filterMap, text?_str, hc])
    rw [hst] at hspelled
    exact .inr ⟨.inr hc, compareNumbers?_lt_trans hspelled hnumbers'⟩
  · obtain ⟨s, t, rfl, rfl, hst⟩ := hkind'.eq_texts (.inl (toNumber?_ne_none hnumbers).2)
    have ha : a.text? = none := htext.resolve_right (Option.some_ne_none s)
    have hspelled := htexts s t (by simp only [List.filterMap, text?_str, ha])
    rw [hst] at hspelled
    exact .inr ⟨.inl ha, compareNumbers?_lt_trans hnumbers hspelled⟩
  · have hac := compareNumbers?_lt_trans hnumbers hnumbers'
    rcases ha : a.text? with _ | s
    · exact .inr ⟨.inl rfl, hac⟩
    rcases hc : c.text? with _ | t
    · exact .inr ⟨.inr rfl, hac⟩
    have hb : b.text? = none := htext.resolve_left (ha ▸ Option.some_ne_none s)
    obtain rfl := eq_str_of_text?_eq_some ha
    obtain rfl := eq_str_of_text?_eq_some hc
    have hspelled := htexts s t (by simp only [List.filterMap, text?_str, hb])
    rw [hac, Option.some_inj] at hspelled
    rw [hspelled]
    exact .inl (.texts s t)

/-- **Values are ordered.** Turned round they compare the other way round, and the order is
transitive unless two of three values are texts that are not in the order of their numbers. -/
theorem compare?_order (a b c : Value) :
    b.compare? a = (a.compare? b).map Ordering.swap ∧
    (TextsAgree a b c → a.compare? b = some .lt → b.compare? c = some .lt →
      a.compare? c = some .lt) :=
  ⟨compare?_swap a b, compare?_lt_trans⟩

/-- An integer lies between the numbers that two texts spell. -/
theorem compare?_order_spelled :
    TextsAgree (.str "2") (.int 3) (.str "4") ∧
      (Value.str "2").compare? (.int 3) = some .lt ∧
      (Value.int 3).compare? (.str "4") = some .lt ∧
      (Value.str "2").compare? (.str "4") = some .lt := by
  have htexts : TextsAgree (.str "2") (.int 3) (.str "4") := by
    rintro s t ⟨⟩
    decide
  have hleft : (Value.str "2").compare? (.int 3) = some .lt := by decide
  have hright : (Value.int 3).compare? (.str "4") = some .lt := by decide
  exact ⟨htexts, hleft, hright, (compare?_order _ _ _).2 htexts hleft hright⟩

/-- Two texts are not compared as the numbers that they spell. -/
theorem not_compare?_lt_trans :
    ¬ ∀ a b c : Value, (∀ x, .float x ∈ [a, b, c] → ¬ x.isNaN) →
      a.compare? b = some .lt → b.compare? c = some .lt → a.compare? c = some .lt := by
  intro h
  have hsame := h (.str "10") (.str "9") (.int 10) (by simp) (by decide) (by decide)
  exact absurd hsame (by decide)

end Value

end Stencil
