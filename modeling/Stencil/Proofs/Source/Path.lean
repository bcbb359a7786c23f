import Mathlib.Data.List.Infix
import Stencil.Path

/-!
# Paths by their segments

Two functions cancel the segments `..` of a path, and neither sees the whole path at once: both walk
over the segments with a stack of those that are left. One gives up when the stack has nothing to
take back, the other goes on. What they compute is told without a stack: a `..` and an ordinary
segment right before it **cancel**, once what stood between them is gone (`Path.Cancels`). Nothing
depends on the order in which pairs are cancelled (`Path.cancel?_eq_some_iff`), and what cannot be
cancelled shows in the counts: some beginning of the path has more `..` than ordinary segments
(`Path.cancel?_eq_none_iff`).

The segments that are left make a path whose segments they are (`Path.segments_ofSegments`), so the
result can be cancelled again. The one path without a segment is the empty text, which is read as
one empty segment.
-/

namespace Stencil

/-! ### Cutting and joining -/

namespace Text

variable {sep : Char}

theorem splitAt_of_notMem {cs : List Char} (h : sep ∉ cs) : splitAt sep cs = [cs] := by
  induction cs with
  | nil => rfl
  | cons c cs ih =>
    obtain ⟨hc, hcs⟩ := not_or.mp (List.mem_cons.not.mp h)
    rw [splitAt, if_neg (Ne.symm hc), ih hcs]

/-- A text is cut at every separator alike. -/
theorem splitAt_append (cs rest : List Char) :
    splitAt sep (cs ++ sep :: rest) = splitAt sep cs ++ splitAt sep rest := by
  induction cs with
  | nil => exact if_pos rfl
  | cons c cs ih =>
    rw [List.cons_append, splitAt, splitAt, ih]
    split
    · rfl
    · obtain ⟨piece, pieces, hpieces⟩ := List.exists_cons_of_ne_nil (splitAt_ne_nil sep cs)
      rw [hpieces]
      rfl

/-- The first piece ends at the first separator. -/
theorem splitAt_append_cons {cs : List Char} (h : sep ∉ cs) (rest : List Char) :
    splitAt sep (cs ++ sep :: rest) = cs :: splitAt sep rest := by
  rw [splitAt_append, splitAt_of_notMem h, List.singleton_append]

/-- The characters of the pieces come from the text, and the separator is not among them. -/
theorem mem_of_mem_splitAt {cs piece : List Char} {c : Char} (hpiece : piece ∈ splitAt sep cs)
    (hc : c ∈ piece) : c ∈ cs ∧ c ≠ sep := by
  induction cs generalizing piece with
  | nil =>
    rw [splitAt, List.mem_singleton] at hpiece
    exact absurd (hpiece ▸ hc) List.not_mem_nil
  | cons d cs ih =>
    rw [splitAt] at hpiece
    split at hpiece
    next hd =>
      rcases List.mem_cons.mp hpiece with rfl | hpiece
      · exact absurd hc List.not_mem_nil
      · exact ⟨List.mem_cons_of_mem d (ih hpiece hc).1, (ih hpiece hc).2⟩
    next hd =>
      split at hpiece
      next hnil => exact absurd hnil (splitAt_ne_nil sep cs)
      next first pieces hpieces =>
        rw [hpieces] at ih
        rcases List.mem_cons.mp hpiece with rfl | hpiece
        · rcases List.mem_cons.mp hc with rfl | hc
          · exact ⟨List.mem_cons_self, hd⟩
          · have hfirst := ih List.mem_cons_self hc
            exact ⟨List.mem_cons_of_mem d hfirst.1, hfirst.2⟩
        · have hrest := ih (List.mem_cons_of_mem first hpiece) hc
          exact ⟨List.mem_cons_of_mem d hrest.1, hrest.2⟩

end Text

namespace Path

/-! ### Segments of paths -/

/-- Whether a text may stand between slashes. -/
def IsSegment (s : List Char) : Prop :=
  '/' ∉ s ∧ '\\' ∉ s

theorem isSegment_of_mem_segments {path : String} {s : List Char} (hs : s ∈ segments path) :
    IsSegment s := by
  constructor
  · intro hslash
    exact (Text.mem_of_mem_splitAt hs hslash).2 rfl
  · intro hback
    obtain ⟨c, -, hc⟩ := List.mem_map.mp (Text.mem_of_mem_splitAt hs hback).1
    split at hc
    next => exact absurd hc (by decide)
    next hne => exact hne hc

theorem toList_ofSegments_cons_cons (s t : List Char) (rest : List (List Char)) :
    (ofSegments (s :: t :: rest)).toList = s ++ '/' :: (ofSegments (t :: rest)).toList := by
  simp [ofSegments, Text.join_cons_cons]

theorem toList_ofSegments_singleton (s : List Char) : (ofSegments [s]).toList = s := by
  simp [ofSegments, Text.join, Text.joinOnto]

/-- Backslashes are the only characters that are read as others. -/
theorem map_slash_eq_self {cs : List Char} (h : '\\' ∉ cs) :
    (cs.map fun c => if c = '\\' then '/' else c) = cs := by
  refine (List.map_congr_left fun c hc => ?_).trans (List.map_id cs)
  have hne : c ≠ '\\' := fun heq => h (heq ▸ hc)
  rw [if_neg hne, id]

/-- **The segments of a path made of segments are these.** -/
theorem segments_ofSegments {kept : List (List Char)} (hne : kept ≠ [])
    (hkept : ∀ s ∈ kept, IsSegment s) : segments (ofSegments kept) = kept := by
  induction kept with
  | nil => exact absurd rfl hne
  | cons s rest ih =>
    obtain ⟨hslash, hback⟩ := hkept s List.mem_cons_self
    cases rest with
    | nil =>
      rw [segments, toList_ofSegments_singleton, map_slash_eq_self hback,
        Text.splitAt_of_notMem hslash]
    | cons t rest =>
      have hrest := ih (List.cons_ne_nil t rest) fun u hu => hkept u (List.mem_cons_of_mem s hu)
      rw [segments, toList_ofSegments_cons_cons, List.map_append, map_slash_eq_self hback,
        List.map_cons, if_neg (by decide), Text.splitAt_append_cons hslash]
      exact congrArg (s :: ·) hrest

/-! ### Ordinary segments -/

theorem isOrdinary_iff {s : List Char} :
    isOrdinary s = true ↔ s ≠ [] ∧ s ≠ ['.'] ∧ s ≠ ['.', '.'] := by
  simp [isOrdinary, and_assoc]

theorem not_isOrdinary_up : ¬ isOrdinary ['.', '.'] = true := by
  simp [isOrdinary]

/-- A path of ordinary segments starts with a character that is no slash. -/
theorem not_isAbsolute_ofSegments {kept : List (List Char)}
    (hkept : ∀ s ∈ kept, IsSegment s ∧ isOrdinary s) : isAbsolute (ofSegments kept) = false := by
  cases kept with
  | nil => rfl
  | cons s rest =>
    obtain ⟨⟨hslash, hback⟩, hs⟩ := hkept s List.mem_cons_self
    cases s with
    | nil => exact absurd rfl (isOrdinary_iff.mp hs).1
    | cons c cs =>
      have hfirst : ∃ tail, (ofSegments ((c :: cs) :: rest)).toList = c :: tail := by
        cases rest with
        | nil => exact ⟨cs, toList_ofSegments_singleton _⟩
        | cons t rest => exact ⟨_, toList_ofSegments_cons_cons _ t rest⟩
      obtain ⟨tail, htail⟩ := hfirst
      rw [isAbsolute, htail]
      simp only [Bool.or_eq_false_iff, decide_eq_false_iff_not]
      exact ⟨fun h => hslash (h ▸ List.mem_cons_self), fun h => hback (h ▸ List.mem_cons_self)⟩

theorem head?_ofSegments_ne {kept : List (List Char)}
    (hkept : ∀ s ∈ kept, IsSegment s ∧ isOrdinary s) :
    (ofSegments kept).toList.head? ≠ some '/' := by
  intro h
  obtain ⟨tail, htail⟩ := List.head?_eq_some_iff.mp h
  have habsolute := not_isAbsolute_ofSegments hkept
  rw [isAbsolute, htail] at habsolute
  cases habsolute

/-! ### Cancelling -/

/-- Which segments are left when some are dropped: a segment that stands for nothing, and a `..`
with the ordinary segment right before it. -/
inductive Cancels : List (List Char) → List (List Char) → Prop where
  | done (l : List (List Char)) : Cancels l l
  | idle {before after left : List (List Char)} {s : List Char} :
      s = [] ∨ s = ['.'] → Cancels (before ++ after) left → Cancels (before ++ s :: after) left
  | pair {before after left : List (List Char)} {s : List Char} :
      isOrdinary s → Cancels (before ++ after) left →
      Cancels (before ++ s :: ['.', '.'] :: after) left

section Steps

variable {s : List Char} (kept rest : List (List Char))

theorem cancel?_up : cancel? kept (['.', '.'] :: rest) =
    match kept with
    | [] => none
    | _ :: below => cancel? below rest := rfl

theorem cancel?_ordinary (hs : isOrdinary s) :
    cancel? kept (s :: rest) = cancel? (s :: kept) rest := by
  rw [cancel?.eq_def]
  exact (if_neg (isOrdinary_iff.mp hs).2.2).trans (if_pos hs)

theorem cancel?_idle (hs : s = [] ∨ s = ['.']) : cancel? kept (s :: rest) = cancel? kept rest := by
  rcases hs with rfl | rfl <;> rfl

/-- Every segment is of one of three kinds. -/
theorem up_or_ordinary_or_idle (s : List Char) :
    s = ['.', '.'] ∨ isOrdinary s ∨ s = [] ∨ s = ['.'] := by
  rw [isOrdinary_iff]
  tauto

variable {kept rest}

/-- What stands before two lists that come to the same makes no difference. -/
theorem cancel?_append_congr {l l' : List (List Char)}
    (h : ∀ kept, cancel? kept l = cancel? kept l') (before kept : List (List Char)) :
    cancel? kept (before ++ l) = cancel? kept (before ++ l') := by
  induction before generalizing kept with
  | nil => exact h kept
  | cons s before ih =>
    rw [List.cons_append, List.cons_append]
    rcases up_or_ordinary_or_idle s with rfl | hs | hs
    · rw [cancel?_up, cancel?_up]
      cases kept with
      | nil => rfl
      | cons t below => exact ih below
    · rw [cancel?_ordinary _ _ hs, cancel?_ordinary _ _ hs, ih]
    · rw [cancel?_idle _ _ hs, cancel?_idle _ _ hs, ih]

end Steps

/-- Ordinary segments are all kept. -/
theorem cancel?_of_ordinary {l : List (List Char)} (hl : ∀ s ∈ l, isOrdinary s)
    (kept : List (List Char)) : cancel? kept l = some (l.reverse ++ kept) := by
  induction l generalizing kept with
  | nil => rfl
  | cons s l ih =>
    rw [cancel?_ordinary _ _ (hl s List.mem_cons_self),
      ih fun t ht => hl t (List.mem_cons_of_mem s ht)]
    simp

/-- What the stack holds at the end is what is left of the stack and the segments. -/
theorem cancels_of_cancel?_eq_some {l kept left : List (List Char)}
    (hkept : ∀ s ∈ kept, isOrdinary s) (h : cancel? kept l = some left) :
    Cancels (kept.reverse ++ l) left.reverse ∧ ∀ s ∈ left, isOrdinary s := by
  induction l generalizing kept with
  | nil =>
    cases h
    rw [List.append_nil]
    exact ⟨.done _, hkept⟩
  | cons s l ih =>
    rcases up_or_ordinary_or_idle s with rfl | hs | hs
    · rw [cancel?_up] at h
      cases kept with
      | nil => cases h
      | cons t below =>
        obtain ⟨ht, hbelow⟩ := List.forall_mem_cons.mp hkept
        obtain ⟨hcancels, hleft⟩ := ih hbelow h
        refine ⟨?_, hleft⟩
        rw [List.reverse_cons, List.append_assoc, List.singleton_append]
        exact .pair ht hcancels
    · rw [cancel?_ordinary _ _ hs] at h
      have hstep := ih (List.forall_mem_cons.mpr ⟨hs, hkept⟩) h
      rwa [List.reverse_cons, List.append_assoc, List.singleton_append] at hstep
    · rw [cancel?_idle _ _ hs] at h
      obtain ⟨hcancels, hleft⟩ := ih hkept h
      exact ⟨.idle hs hcancels, hleft⟩

/-- **What is left when everything is cancelled that can be**, in whatever order. -/
theorem cancel?_eq_some_iff {l left : List (List Char)} :
    cancel? [] l = some left.reverse ↔ Cancels l left ∧ ∀ s ∈ left, isOrdinary s := by
  constructor
  · intro h
    obtain ⟨hcancels, hleft⟩ := cancels_of_cancel?_eq_some (List.forall_mem_nil _) h
    rw [List.reverse_reverse] at hcancels
    exact ⟨hcancels, fun s hs => hleft s (List.mem_reverse.mpr hs)⟩
  · rintro ⟨hcancels, hleft⟩
    induction hcancels with
    | done l => rw [cancel?_of_ordinary hleft, List.append_nil]
    | idle hs _ ih =>
      rw [← ih hleft]
      exact cancel?_append_congr (fun kept => cancel?_idle kept _ hs) _ []
    | pair hs _ ih =>
      rw [← ih hleft]
      refine cancel?_append_congr (fun kept => ?_) _ []
      rw [cancel?_ordinary _ _ hs, cancel?_up]

/-- Whether some beginning has more `..` than ordinary segments, `above` of which are there
already. -/
def Climbs (above : Nat) (l : List (List Char)) : Prop :=
  ∃ start, start <+: l ∧ above + start.countP isOrdinary < start.count ['.', '.']

theorem not_climbs_nil (above : Nat) : ¬ Climbs above [] := by
  rintro ⟨start, hstart, hlt⟩
  rw [List.prefix_nil.mp hstart] at hlt
  exact absurd hlt (Nat.not_lt_zero _)

/-- The first segment is in every beginning that counts. -/
theorem climbs_cons_iff {above : Nat} {s : List Char} {l : List (List Char)} :
    Climbs above (s :: l) ↔
      ∃ start, start <+: l ∧
        above + (s :: start).countP isOrdinary < (s :: start).count ['.', '.'] := by
  constructor
  · rintro ⟨start, hstart, hlt⟩
    rcases List.prefix_cons_iff.mp hstart with rfl | ⟨tail, rfl, htail⟩
    · exact absurd hlt (Nat.not_lt_zero _)
    · exact ⟨tail, htail, hlt⟩
  · rintro ⟨start, hstart, hlt⟩
    exact ⟨s :: start, List.cons_prefix_cons.mpr ⟨rfl, hstart⟩, hlt⟩

/-- **When a `..` has nothing to take back.** -/
theorem cancel?_eq_none_iff {kept l : List (List Char)} :
    cancel? kept l = none ↔ Climbs kept.length l := by
  induction l generalizing kept with
  | nil => exact iff_of_false (Option.some_ne_none _) (not_climbs_nil _)
  | cons s l ih =>
    rw [climbs_cons_iff]
    rcases up_or_ordinary_or_idle s with rfl | hs | hs
    · rw [cancel?_up]
      simp only [List.countP_cons_of_neg not_isOrdinary_up, List.count_cons_self]
      cases kept with
      | nil =>
        exact iff_of_true rfl ⟨[], List.nil_prefix, Nat.one_pos⟩
      | cons t below =>
        rw [ih, Climbs]
        simp only [List.length_cons, Nat.add_right_comm _ 1, Nat.add_lt_add_iff_right]
    · rw [cancel?_ordinary _ _ hs, ih, Climbs]
      simp only [List.countP_cons_of_pos hs, List.count_cons_of_ne (isOrdinary_iff.mp hs).2.2,
        List.length_cons, Nat.add_right_comm _ 1, Nat.add_assoc]
    · have hneg : ¬ isOrdinary s = true := by
        rcases hs with rfl | rfl <;> decide
      have hne : s ≠ ['.', '.'] := by
        rcases hs with rfl | rfl <;> decide
      rw [cancel?_idle _ _ hs, ih, Climbs]
      simp only [List.countP_cons_of_neg hneg, List.count_cons_of_ne hne]

/-- Where nothing is missing, it makes no difference what is done about it. -/
theorem cancel_eq_of_cancel?_eq_some {kept l left : List (List Char)}
    (h : cancel? kept l = some left) : cancel kept l = left := by
  fun_induction cancel? kept l with
  | case1 kept =>
    cases h
    rfl
  | case2 rest => cases h
  | case3 rest t below ih => exact ih h
  | case4 kept s rest hup hs ih =>
    rw [cancel, if_neg hup, if_pos hs]
    exact ih h
  | case5 kept s rest hup hs ih =>
    rw [cancel, if_neg hup, if_neg hs]
    exact ih h

/-- What is left was there. -/
theorem Cancels.subset {l left : List (List Char)} (h : Cancels l left) : left ⊆ l := by
  induction h with
  | done l => exact List.Subset.refl l
  | idle _ _ ih =>
    intro t ht
    have hmem := ih ht
    simp only [List.mem_append, List.mem_cons] at hmem ⊢
    tauto
  | pair _ _ ih =>
    intro t ht
    have hmem := ih ht
    simp only [List.mem_append, List.mem_cons] at hmem ⊢
    tauto

/-! ### Contained and normal paths -/

/-- Nothing cancels in a path of ordinary segments. -/
theorem cancel?_segments_ofSegments {kept : List (List Char)}
    (hkept : ∀ s ∈ kept, IsSegment s ∧ isOrdinary s) :
    cancel? [] (segments (ofSegments kept)) = some kept.reverse := by
  rcases eq_or_ne kept [] with rfl | hne
  · rfl
  · rw [segments_ofSegments hne fun s hs => (hkept s hs).1,
      cancel?_of_ordinary (fun s hs => (hkept s hs).2), List.append_nil]

/-- A path of ordinary segments is normal. -/
theorem normalize_ofSegments {kept : List (List Char)}
    (hkept : ∀ s ∈ kept, IsSegment s ∧ isOrdinary s) :
    normalize (ofSegments kept) = ofSegments kept := by
  rw [normalize, not_isAbsolute_ofSegments hkept,
    cancel_eq_of_cancel?_eq_some (cancel?_segments_ofSegments hkept), List.reverse_reverse]
  rfl

theorem contained?_eq_none_iff {path : String} :
    contained? path = none ↔
      isAbsolute path ∨ namesDrive path ∨ Climbs 0 (segments path) := by
  rw [contained?]
  split
  next h =>
    rw [Bool.or_eq_true] at h
    exact iff_of_true rfl (h.imp_right .inl)
  next h =>
    rw [Bool.or_eq_true, not_or] at h
    rw [Option.map_eq_none_iff, cancel?_eq_none_iff]
    simp [h.1, h.2]

/-- **A contained path is made of what is left of its segments**, and so is its normal form. -/
theorem eq_of_contained?_eq_some {path q : String} (h : contained? path = some q) :
    ∃ kept, Cancels (segments path) kept ∧ (∀ s ∈ kept, IsSegment s ∧ isOrdinary s) ∧
      q = ofSegments kept ∧ normalize path = q := by
  rw [contained?] at h
  split at h
  next => cases h
  next hrel =>
    rw [Bool.or_eq_true, not_or] at hrel
    obtain ⟨left, hleft, rfl⟩ := Option.map_eq_some_iff.mp h
    have hkept := cancel?_eq_some_iff.mp (hleft.trans (congrArg some left.reverse_reverse.symm))
    refine ⟨left.reverse, hkept.1, fun s hs => ?_, rfl, ?_⟩
    · exact ⟨isSegment_of_mem_segments (hkept.1.subset hs), hkept.2 s hs⟩
    · rw [normalize, if_neg hrel.1, cancel_eq_of_cancel?_eq_some hleft]

end Path

end Stencil
