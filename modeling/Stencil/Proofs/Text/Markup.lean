import Mathlib.Data.List.Infix
import Mathlib.Logic.Function.Iterate
import Stencil.Text.Markup

/-!
# Escaped text

A text may hold anything, also something that looks like an entity, and yet its escaped form can be
read in one way only. The reason is that **no ampersand is left alone**: each one in the escaped form
begins one of the five entities, and no entity is the front of another. So whoever replaces entities
from left to right (`Text.unescapeMarkup`) takes the escaped form apart at the very places where it
was put together, one character of the text after the other (`Text.unescapeFrom_entity`).

A text that is escaped twice is so undone in two steps. Replacing the entities one kind after the other
would not do: what the ampersands give would be replaced again.
-/

namespace Stencil.Text

/-- The entities, and what they stand for. -/
def entities : List (String × Char) :=
  [("&amp;", '&'), ("&lt;", '<'), ("&gt;", '>'), ("&quot;", '"'), ("&#39;", '\'')]

/-- The entity that a text begins with. -/
def entityAt? (cs : List Char) : Option (String × Char) :=
  entities.find? fun e => e.1.toList.isPrefixOf cs

/-- Replaces entities from left to right; `skip` characters still belong to the entity before. -/
def unescapeFrom : (skip : Nat) → List Char → List Char
  | _, [] => []
  | skip + 1, _ :: cs => unescapeFrom skip cs
  | 0, c :: cs =>
    match entityAt? (c :: cs) with
    | some e => e.2 :: unescapeFrom (e.1.length - 1) cs
    | none => c :: unescapeFrom 0 cs

/-- The text with each entity replaced by what it stands for. -/
def unescapeMarkup (s : String) : String :=
  String.ofList (unescapeFrom 0 s.toList)

/-! ### Entities -/

/-- A character is written as its entity, or as itself if it means nothing in markup. -/
theorem entity_cases (c : Char) :
    (∃ e ∈ entities, e.2 = c ∧ entity c = e.1.toList) ∨
      entity c = [c] ∧ c ≠ '&' ∧ c ≠ '<' ∧ c ≠ '>' ∧ c ≠ '"' ∧ c ≠ '\'' := by
  unfold entity
  split
  case h_6 hamp hlt hgt hquot hapos => exact .inr ⟨rfl, hamp, hlt, hgt, hquot, hapos⟩
  all_goals exact .inl (by simp [entities])

/-- An ampersand begins an entity and stands nowhere else in it. -/
theorem exists_tail_of_mem {e : String × Char} (h : e ∈ entities) :
    ∃ tail, e.1.toList = '&' :: tail ∧ e.1.length - 1 = tail.length ∧
      ∀ c ∈ tail, c ≠ '&' ∧ c ≠ '<' ∧ c ≠ '>' ∧ c ≠ '"' ∧ c ≠ '\'' := by
  refine ⟨e.1.toList.tail, ?_⟩
  simp only [entities, List.mem_cons, List.not_mem_nil, or_false] at h
  rcases h with rfl | rfl | rfl | rfl | rfl <;> exact ⟨rfl, rfl, by simp⟩

/-- No entity is the front of another one. -/
theorem entityAt?_append {e : String × Char} (h : e ∈ entities) (rest : List Char) :
    entityAt? (e.1.toList ++ rest) = some e := by
  simp only [entities, List.mem_cons, List.not_mem_nil, or_false] at h
  rcases h with rfl | rfl | rfl | rfl | rfl <;> rfl

/-! ### Back again -/

theorem unescapeFrom_append (front rest : List Char) :
    unescapeFrom front.length (front ++ rest) = unescapeFrom 0 rest := by
  induction front with
  | nil => rfl
  | cons c front ih => exact ih

/-- An ampersand begins every entity. -/
theorem entityAt?_of_ne {c : Char} (hc : c ≠ '&') (rest : List Char) :
    entityAt? (c :: rest) = none := by
  refine List.find?_eq_none.mpr fun e he => ?_
  obtain ⟨tail, htail, -⟩ := exists_tail_of_mem he
  rw [htail]
  simp [Ne.symm hc]

/-- **What stands for a character is read as that character,** whatever comes behind it. -/
theorem unescapeFrom_entity (c : Char) (rest : List Char) :
    unescapeFrom 0 (entity c ++ rest) = c :: unescapeFrom 0 rest := by
  rcases entity_cases c with ⟨e, he, rfl, hc⟩ | ⟨hc, hamp, -⟩
  · obtain ⟨tail, htail, hlength, -⟩ := exists_tail_of_mem he
    have hat := entityAt?_append he rest
    rw [htail, List.cons_append] at hat
    rw [hc, htail, List.cons_append, unescapeFrom, hat]
    dsimp only
    rw [hlength, unescapeFrom_append]
  · rw [hc, List.singleton_append, unescapeFrom, entityAt?_of_ne hamp]

theorem unescapeFrom_flatMap (cs : List Char) : unescapeFrom 0 (cs.flatMap entity) = cs := by
  induction cs with
  | nil => rfl
  | cons c cs ih => rw [List.flatMap_cons, unescapeFrom_entity, ih]

theorem unescapeMarkup_escapeMarkup (s : String) : unescapeMarkup (escapeMarkup s) = s := by
  rw [unescapeMarkup, escapeMarkup, String.toList_ofList, unescapeFrom_flatMap,
    String.ofList_toList]

/-- Each layer of entities is undone by itself. -/
theorem iterate_unescapeMarkup (k n : Nat) (s : String) :
    unescapeMarkup^[k] (escapeMarkup^[k + n] s) = escapeMarkup^[n] s := by
  rw [Function.iterate_add_apply]
  exact Function.LeftInverse.iterate unescapeMarkup_escapeMarkup k _

/-! ### What is left of the special characters -/

/-- The characters that mean something in a quoted attribute or begin a tag are gone. -/
theorem ne_of_mem_entity {c x : Char} (h : x ∈ entity c) :
    x ≠ '<' ∧ x ≠ '>' ∧ x ≠ '"' ∧ x ≠ '\'' := by
  rcases entity_cases c with ⟨e, he, -, hc⟩ | ⟨hc, -, hrest⟩
  · obtain ⟨tail, htail, -, hne⟩ := exists_tail_of_mem he
    rw [hc, htail, List.mem_cons] at h
    rcases h with rfl | h
    · decide
    · exact (hne x h).2
  · rw [hc, List.mem_singleton] at h
    rw [h]
    exact hrest

/-- What begins with a character that is not in the front of a text lies behind that front. -/
theorem suffix_of_suffix_append {x : Char} {front rest after : List Char}
    (hx : ∀ c ∈ front, c ≠ x) (h : x :: after <:+ front ++ rest) : x :: after <:+ rest := by
  induction front with
  | nil => exact h
  | cons c front ih =>
    rw [List.cons_append, List.suffix_cons_iff] at h
    rcases h with h | h
    · exact absurd (List.cons.inj h).1.symm (hx c List.mem_cons_self)
    · exact ih (fun c hc => hx c (List.mem_cons_of_mem _ hc)) h

/-- **Each ampersand begins an entity.** -/
theorem entity_prefix_of_suffix {cs after : List Char} (h : '&' :: after <:+ cs.flatMap entity) :
    ∃ e ∈ entities, e.1.toList <+: '&' :: after := by
  induction cs with
  | nil => cases List.suffix_nil.mp h
  | cons c cs ih =>
    rw [List.flatMap_cons] at h
    rcases entity_cases c with ⟨e, he, -, hc⟩ | ⟨hc, hamp, -⟩
    · obtain ⟨tail, htail, -, hne⟩ := exists_tail_of_mem he
      rw [hc, htail, List.cons_append, List.suffix_cons_iff] at h
      -- the ampersand begins this entity, or it lies behind it
      rcases h with h | h
      · refine ⟨e, he, ?_⟩
        rw [htail, h]
        exact List.prefix_append _ _
      · exact ih (suffix_of_suffix_append (fun x hx => (hne x hx).1) h)
    · rw [hc] at h
      refine ih (suffix_of_suffix_append (fun x hx => ?_) h)
      rw [List.mem_singleton.mp hx]
      exact hamp

/-- **Escaping is safe and can be undone.** In an escaped text there is no angle bracket and no
quotation mark, and each ampersand begins an entity. Replacing the entities from left to right gives
the text back, so different texts are escaped differently, and each layer is undone by itself. What is
put together may be escaped before or after. -/
theorem escapeMarkup_safe_and_reversible :
    (∀ s, ∀ c ∈ (escapeMarkup s).toList, c ≠ '<' ∧ c ≠ '>' ∧ c ≠ '"' ∧ c ≠ '\'') ∧
    (∀ s after, '&' :: after <:+ (escapeMarkup s).toList →
      ∃ e ∈ entities, e.1.toList <+: '&' :: after) ∧
    (∀ s, unescapeMarkup (escapeMarkup s) = s) ∧
    Function.Injective escapeMarkup ∧
    (∀ k n s, unescapeMarkup^[k] (escapeMarkup^[k + n] s) = escapeMarkup^[n] s) ∧
    ∀ s t, escapeMarkup (s ++ t) = escapeMarkup s ++ escapeMarkup t := by
  refine ⟨fun s c hc => ?_, fun s after h => ?_, unescapeMarkup_escapeMarkup,
    Function.LeftInverse.injective unescapeMarkup_escapeMarkup, iterate_unescapeMarkup,
    fun s t => ?_⟩
  · rw [escapeMarkup, String.toList_ofList, List.mem_flatMap] at hc
    obtain ⟨x, -, hx⟩ := hc
    exact ne_of_mem_entity hx
  · rw [escapeMarkup, String.toList_ofList] at h
    exact entity_prefix_of_suffix h
  · rw [escapeMarkup, String.toList_append, List.flatMap_append, String.ofList_append]
    rfl

/-- A text that looks like an entity, next to a character that is written as that entity. -/
theorem escapeMarkup_safe_and_reversible_lookalike :
    escapeMarkup "&lt;<" = "&amp;lt;&lt;" ∧
      ('&' ≠ '<' ∧ '&' ≠ '>' ∧ '&' ≠ '"' ∧ '&' ≠ '\'') ∧
      (∃ e ∈ entities, e.1.toList <+: "&lt;".toList) ∧
      unescapeMarkup (escapeMarkup "&lt;<") = "&lt;<" := by
  obtain ⟨hsafe, hbegins, hback, -⟩ := escapeMarkup_safe_and_reversible
  exact ⟨by decide, hsafe "&lt;<" '&' (by decide), hbegins "&lt;<" "lt;".toList (by decide),
    hback "&lt;<"⟩

end Stencil.Text
