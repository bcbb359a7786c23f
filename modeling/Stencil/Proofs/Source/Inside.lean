import Stencil.Proofs.Source.Path

/-!
# What lies inside a directory

One path lies inside another if the segments of the one begin with the segments of the other. That
is asked of texts: the normal form of the path has to begin with that of the base and a slash. The
slash keeps neighbours apart whose names begin alike. It is told by **closing** every segment with
a slash (`Path.closed`): closed segments are a prefix of closed segments exactly if the segments
are (`Path.closed_prefix_iff`), and a normal form with a slash behind it is closed.

The one base to which this does not apply is the empty one. A slash behind nothing is the slash of
absolute paths, so that, of all paths, `.` contains the absolute ones and itself
(`Path.isInside_iff`).
-/

namespace Stencil.Path

/-! ### Normal forms -/

/-- The segments of a path that are not empty. -/
def parts (path : String) : List (List Char) :=
  (segments path).filter (· ≠ [])

theorem mem_cancel {s : List Char} {kept l : List (List Char)} (h : s ∈ cancel kept l) :
    s ∈ kept ∨ s ∈ l ∧ isOrdinary s := by
  fun_induction cancel kept l with
  | case1 kept => exact .inl h
  | case2 kept rest ih =>
    exact (ih h).imp List.mem_of_mem_tail fun hs => ⟨List.mem_cons_of_mem _ hs.1, hs.2⟩
  | case3 kept t rest hup ht ih =>
    rcases ih h with hs | hs
    · rcases List.mem_cons.mp hs with rfl | hs
      · exact .inr ⟨List.mem_cons_self, ht⟩
      · exact .inl hs
    · exact .inr ⟨List.mem_cons_of_mem t hs.1, hs.2⟩
  | case4 kept t rest hup ht ih =>
    exact (ih h).imp_right fun hs => ⟨List.mem_cons_of_mem t hs.1, hs.2⟩

/-- A slash at the front of absolute paths, and nothing at the front of others. -/
def lead (absolute : Bool) : List Char :=
  if absolute then ['/'] else []

/-- **A normal form** is made of ordinary segments, and a slash in front of them if the path is
absolute. -/
theorem exists_normalize (path : String) :
    ∃ kept, (∀ s ∈ kept, IsSegment s ∧ isOrdinary s) ∧
      normalize path = .ofList (lead (isAbsolute path)) ++ ofSegments kept := by
  refine ⟨(cancel [] (segments path)).reverse, fun s hs => ?_, ?_⟩
  · rcases mem_cancel (List.mem_reverse.mp hs) with hs | ⟨hs, hordinary⟩
    · exact absurd hs List.not_mem_nil
    · exact ⟨isSegment_of_mem_segments hs, hordinary⟩
  · rw [normalize, lead]
    split
    · rfl
    · exact (String.empty_append).symm

section Normal

variable {kept : List (List Char)} (hkept : ∀ s ∈ kept, IsSegment s ∧ isOrdinary s)
  (absolute : Bool)
include hkept

theorem isAbsolute_lead :
    isAbsolute (.ofList (lead absolute) ++ ofSegments kept) = absolute := by
  cases absolute with
  | true => simp [isAbsolute, lead]
  | false =>
    rw [lead, if_neg Bool.false_ne_true]
    exact (congrArg isAbsolute String.empty_append).trans (not_isAbsolute_ofSegments hkept)

theorem parts_ofSegments : parts (ofSegments kept) = kept := by
  rcases eq_or_ne kept [] with rfl | hne
  · rfl
  · rw [parts, segments_ofSegments hne fun s hs => (hkept s hs).1]
    refine List.filter_eq_self.mpr fun s hs => ?_
    exact decide_eq_true (isOrdinary_iff.mp (hkept s hs).2).1

theorem parts_lead : parts (.ofList (lead absolute) ++ ofSegments kept) = kept := by
  refine Eq.trans ?_ (parts_ofSegments hkept)
  cases absolute with
  | true =>
    rw [parts, parts, segments, String.toList_append, String.toList_ofList]
    simp [lead, Text.splitAt, segments]
  | false => exact congrArg parts String.empty_append

end Normal

/-! ### Closed segments -/

/-- The text of segments with a slash behind each of them. -/
def closed (kept : List (List Char)) : List Char :=
  kept.flatMap (· ++ ['/'])

/-- The segments in front of the last ones are closed. -/
theorem toList_ofSegments_append (l : List (List Char)) (t : List Char) (rest : List (List Char)) :
    (ofSegments (l ++ t :: rest)).toList = closed l ++ (ofSegments (t :: rest)).toList := by
  induction l with
  | nil => rfl
  | cons s l ih =>
    have hnext : ∃ u tail, l ++ t :: rest = u :: tail := List.exists_cons_of_ne_nil (by simp)
    obtain ⟨u, tail, hu⟩ := hnext
    rw [List.cons_append, hu, toList_ofSegments_cons_cons, ← hu, ih]
    simp [closed]

/-- Closed segments are read back, whatever follows. -/
theorem splitAt_closed_append {kept : List (List Char)} (hkept : ∀ s ∈ kept, '/' ∉ s)
    (rest : List Char) :
    Text.splitAt '/' (closed kept ++ rest) = kept ++ Text.splitAt '/' rest := by
  induction kept with
  | nil => rfl
  | cons s kept ih =>
    obtain ⟨hs, hkept⟩ := List.forall_mem_cons.mp hkept
    have hclosed : closed (s :: kept) ++ rest = s ++ '/' :: (closed kept ++ rest) := by
      simp [closed]
    rw [hclosed, Text.splitAt_append_cons hs, ih hkept, List.cons_append]

/-- **A prefix of closed segments that is closed** is one of whole segments. -/
theorem closed_prefix_iff {l l' : List (List Char)} (hl : ∀ s ∈ l, '/' ∉ s)
    (hl' : ∀ s ∈ l', '/' ∉ s) : closed l <+: closed l' ↔ l <+: l' := by
  constructor
  · rintro ⟨rest, hrest⟩
    have hsplit : l ++ Text.splitAt '/' rest = l' ++ [[]] := by
      rw [← splitAt_closed_append hl, hrest, ← List.append_nil (closed l'),
        splitAt_closed_append hl', Text.splitAt]
    obtain ⟨pieces, piece, hpieces⟩ :=
      (List.eq_nil_or_concat (Text.splitAt '/' rest)).resolve_left (Text.splitAt_ne_nil '/' rest)
    rw [hpieces, List.concat_eq_append, ← List.append_assoc] at hsplit
    exact ⟨pieces, List.append_inj_left' hsplit rfl⟩
  · rintro ⟨rest, rfl⟩
    exact ⟨closed rest, List.flatMap_append.symm⟩

/-- Closed segments do not begin with a slash. -/
theorem not_slash_prefix_closed {l : List (List Char)} (hl : ∀ s ∈ l, IsSegment s ∧ isOrdinary s) :
    ¬ ['/'] <+: closed l := by
  cases l with
  | nil => simp [closed]
  | cons s l =>
    obtain ⟨⟨hslash, -⟩, hs⟩ := hl s List.mem_cons_self
    cases s with
    | nil => exact absurd rfl (isOrdinary_iff.mp hs).1
    | cons c s =>
      have hc : '/' ≠ c := fun h => hslash (h ▸ List.mem_cons_self)
      simp [closed, hc]

/-! ### Bases and what is inside -/

section Inside

variable {l l' : List (List Char)} {a a' : Bool}

/-- A normal form with a slash behind it, unless it has one or is empty, is closed. -/
theorem slash_normal (hl : ∀ s ∈ l, IsSegment s ∧ isOrdinary s) (hne : a = true ∨ l ≠ []) :
    (if (lead a ++ (ofSegments l).toList).getLast? == some '/'
      then lead a ++ (ofSegments l).toList
      else lead a ++ (ofSegments l).toList ++ ['/']) = lead a ++ closed l := by
  rcases List.eq_nil_or_concat l with rfl | ⟨l, t, rfl⟩
  · obtain rfl : a = true := hne.resolve_right fun h => h rfl
    rfl
  · rw [List.concat_eq_append] at hl ⊢
    obtain ⟨⟨hslash, -⟩, ht⟩ := hl t (List.mem_append_right _ (List.mem_singleton_self t))
    have hlast : ∃ c, t.getLast? = some c ∧ c ≠ '/' := by
      refine ⟨t.getLast (isOrdinary_iff.mp ht).1, List.getLast?_eq_some_getLast _, fun h => ?_⟩
      exact hslash (h ▸ List.getLast_mem _)
    obtain ⟨c, hc, hne⟩ := hlast
    rw [toList_ofSegments_append, toList_ofSegments_singleton, ← List.append_assoc,
      List.getLast?_append, hc, Option.some_or, if_neg (by simpa using hne)]
    simp [closed]

/-- **Closed normal forms** begin with each other if both are absolute, or none is, and the segments
begin with each other. -/
theorem lead_closed_prefix_iff (hl : ∀ s ∈ l, IsSegment s ∧ isOrdinary s)
    (hl' : ∀ s ∈ l', IsSegment s ∧ isOrdinary s) (hne : a = true ∨ l ≠ []) :
    lead a ++ closed l <+: lead a' ++ closed l' ↔ a = a' ∧ l <+: l' := by
  have hclosed := closed_prefix_iff (fun s hs => (hl s hs).1.1) fun s hs => (hl' s hs).1.1
  cases a <;> cases a'
  case false.false => simpa [lead] using hclosed
  case true.true => simpa [lead] using hclosed
  case true.false =>
    refine iff_of_false (fun h => not_slash_prefix_closed hl' ?_) (by simp)
    exact (List.prefix_append ['/'] (closed l)).trans h
  case false.true =>
    refine iff_of_false (fun h => ?_) (by simp)
    rcases List.prefix_cons_iff.mp h with hnil | ⟨tail, htail, -⟩
    · have hl : l = [] := List.eq_nil_iff_forall_not_mem.mpr (by simpa [lead, closed] using hnil)
      exact absurd hl (hne.resolve_left Bool.false_ne_true)
    · refine not_slash_prefix_closed hl ⟨tail, ?_⟩
      exact htail.symm

/-- One normal form is another, or begins with it and a slash, exactly if this holds of the
segments. -/
theorem normal_inside_iff (hl : ∀ s ∈ l, IsSegment s ∧ isOrdinary s)
    (hl' : ∀ s ∈ l', IsSegment s ∧ isOrdinary s) (hne : a = true ∨ l ≠ []) :
    (lead a' ++ (ofSegments l').toList = lead a ++ (ofSegments l).toList ∨
      lead a ++ closed l <+: lead a' ++ (ofSegments l').toList) ↔ a = a' ∧ l <+: l' := by
  constructor
  · rintro (heq | hbegins)
    · have htext : String.ofList (lead a') ++ ofSegments l' = .ofList (lead a) ++ ofSegments l := by
        rw [← String.toList_inj]
        simpa using heq
      have habsolute := congrArg isAbsolute htext
      have hparts := congrArg parts htext
      rw [isAbsolute_lead hl', isAbsolute_lead hl] at habsolute
      rw [parts_lead hl', parts_lead hl] at hparts
      exact ⟨habsolute.symm, hparts ▸ List.prefix_rfl⟩
    · refine (lead_closed_prefix_iff hl hl' hne).mp (hbegins.trans ?_)
      rcases List.eq_nil_or_concat l' with rfl | ⟨l', t, rfl⟩
      · exact List.prefix_rfl
      · rw [List.concat_eq_append, toList_ofSegments_append, toList_ofSegments_singleton]
        exact ⟨['/'], by simp [closed]⟩
  · rintro ⟨rfl, rest, rfl⟩
    cases rest with
    | nil => exact .inl (by rw [List.append_nil])
    | cons t rest =>
      refine .inr ?_
      rw [toList_ofSegments_append, ← List.append_assoc]
      exact List.prefix_append _ _

end Inside

/-- A normal form is absolute if it begins with a slash. -/
theorem slash_prefix_normal_iff {l : List (List Char)} (hl : ∀ s ∈ l, IsSegment s ∧ isOrdinary s)
    (a : Bool) : ['/'] <+: lead a ++ (ofSegments l).toList ↔ a = true := by
  cases a with
  | true => exact iff_of_true (List.prefix_append ['/'] _) rfl
  | false =>
    refine iff_of_false (fun h => head?_ofSegments_ne hl ?_) Bool.false_ne_true
    obtain ⟨tail, htail⟩ := h
    exact congrArg List.head? htail.symm

/-- **What lies inside a base.** Unless the normal form of the base is empty, these are the paths
that are absolute if it is, and whose segments begin with its segments. The empty base contains
itself and the absolute paths. -/
theorem isInside_iff (base path : String) :
    isInside base path = true ↔
      if normalize base = "" then normalize path = "" ∨ isAbsolute (normalize path) = true
      else isAbsolute (normalize base) = isAbsolute (normalize path) ∧
        parts (normalize base) <+: parts (normalize path) := by
  obtain ⟨l, hl, hbase⟩ := exists_normalize base
  obtain ⟨l', hl', hpath⟩ := exists_normalize path
  rw [isInside, hbase, hpath, isAbsolute_lead hl, isAbsolute_lead hl', parts_lead hl,
    parts_lead hl', Bool.or_eq_true, beq_iff_eq, List.isPrefixOf_iff_prefix]
  by_cases hempty : String.ofList (lead (isAbsolute base)) ++ ofSegments l = ""
  · -- nothing, with a slash behind it, is the slash of absolute paths
    rw [if_pos hempty, hempty, ← String.toList_inj, String.toList_append, String.toList_ofList]
    exact or_congr_right (slash_prefix_normal_iff hl' _)
  · have hne : isAbsolute base = true ∨ l ≠ [] := by
      by_contra! hcon
      rw [hcon.2, Bool.eq_false_iff.mpr hcon.1] at hempty
      exact hempty rfl
    rw [if_neg hempty, String.toList_append, String.toList_append, String.toList_ofList,
      String.toList_ofList, slash_normal hl hne]
    exact normal_inside_iff hl hl' hne

/-- Neighbours whose names begin alike, the root, and a path that comes back. -/
example : isInside "/base" "/base2" = false ∧ isInside "/" "/base" = true ∧
    isInside "base/" "base/./pages/../nav" = true := by
  decide

/-- The empty base does not contain the paths below it, and it contains the root. -/
theorem not_isInside_iff_prefix :
    ¬ ∀ base path : String, isInside base path = true ↔
      isAbsolute (normalize base) = isAbsolute (normalize path) ∧
        parts (normalize base) <+: parts (normalize path) := by
  intro h
  have habsolute := (h "." "/etc/hosts").mp (by decide)
  exact absurd habsolute.1 (by decide)

end Stencil.Path
