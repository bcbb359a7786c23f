import Stencil.Engine.Basic
import Stencil.Proofs.Source.Path

/-!
# Drives that come to the front

Whether a path names a drive is asked of its first segment as it is written. But what stands in
front of a segment may cancel, and then one comes to the front that was not asked about:
`./C:/page` is contained, and its contained form `C:/page` is not.

Nothing else can happen to a contained form that is brought into form again. It is made of
ordinary segments, so it does not begin at the top and nothing in it cancels; it is contained
exactly if it names no drive (`Path.contained?_ofSegments`). And it names one exactly if some
segment that ends with a colon is left and all in front of it cancels (`Path.Cancels.cons_iff`).
An engine over files, which brings a path into form before the source does the same, then finds
nothing under a path under which the source has a file.
-/

namespace Stencil

namespace Path

variable {s : List Char} {l l' left : List (List Char)}

/-! ### Cancelling part of a path -/

namespace Cancels

/-- What cancels does so in a longer path. -/
theorem context (h : Cancels l left) (before after : List (List Char)) :
    Cancels (before ++ l ++ after) (before ++ left ++ after) := by
  induction h with
  | done l => exact .done _
  | @idle front back left t ht _ ih =>
    have hstep : Cancels ((before ++ front) ++ t :: (back ++ after)) (before ++ left ++ after) :=
      .idle ht (by simpa using ih)
    simpa using hstep
  | @pair front back left t ht _ ih =>
    have hstep : Cancels ((before ++ front) ++ t :: ['.', '.'] :: (back ++ after))
        (before ++ left ++ after) := .pair ht (by simpa using ih)
    simpa using hstep

theorem trans (h : Cancels l l') (h' : Cancels l' left) : Cancels l left := by
  induction h with
  | done l => exact h'
  | idle ht _ ih => exact .idle ht (ih h')
  | pair ht _ ih => exact .pair ht (ih h')

/-- Where something is put into a list: in front of a member of it or behind. -/
theorem front_or_behind {front before after back : List (List Char)}
    (h : front ++ back = before ++ s :: after) :
    (∃ mid, before = front ++ mid ∧ back = mid ++ s :: after) ∨
      ∃ mid, front = before ++ s :: mid ∧ after = mid ++ back := by
  rcases List.append_eq_append_iff.mp h with ⟨mid, hbefore, hback⟩ | ⟨mid, hfront, hafter⟩
  · exact .inl ⟨mid, hbefore, hback⟩
  · cases mid with
    | nil => exact .inl ⟨[], by simpa using hfront.symm, by simpa using hafter.symm⟩
    | cons t mid =>
      obtain ⟨rfl, rfl⟩ := List.cons_eq_cons.mp hafter
      exact .inr ⟨mid, hfront, rfl⟩

/-- **The first segment that is left** is there, with nothing left in front of it. -/
theorem cons_iff : Cancels l (s :: left) ↔
    ∃ before after, l = before ++ s :: after ∧ Cancels before [] ∧ Cancels after left := by
  constructor
  · intro h
    generalize hkept : s :: left = kept at h
    induction h with
    | done l => exact ⟨[], left, hkept.symm, .done [], .done left⟩
    | @idle front back kept t ht _ ih =>
      obtain ⟨before, after, heq, hbefore, hafter⟩ := ih hkept
      rcases front_or_behind heq with ⟨mid, rfl, rfl⟩ | ⟨mid, rfl, rfl⟩
      · exact ⟨front ++ t :: mid, after, by simp, .idle ht hbefore, hafter⟩
      · exact ⟨before, mid ++ t :: back, by simp, hbefore, .idle ht hafter⟩
    | @pair front back kept t ht _ ih =>
      obtain ⟨before, after, heq, hbefore, hafter⟩ := ih hkept
      rcases front_or_behind heq with ⟨mid, rfl, rfl⟩ | ⟨mid, rfl, rfl⟩
      · exact ⟨front ++ t :: ['.', '.'] :: mid, after, by simp, .pair ht hbefore, hafter⟩
      · exact ⟨before, mid ++ t :: ['.', '.'] :: back, by simp, hbefore, .pair ht hafter⟩
  · rintro ⟨before, after, rfl, hbefore, hafter⟩
    have hfront := hbefore.context [] (s :: after)
    have hback := hafter.context [s] []
    rw [List.append_nil, List.append_nil] at hback
    exact hfront.trans hback

end Cancels

/-! ### Contained forms -/

/-- Whether a path of ordinary segments names a drive is seen at the first of them. -/
theorem namesDrive_ofSegments {kept : List (List Char)} (hkept : ∀ s ∈ kept, IsSegment s) :
    namesDrive (ofSegments kept) = true ↔
      ∃ drive rest, kept = drive :: rest ∧ drive.getLast? = some ':' := by
  cases kept with
  | nil => exact iff_of_false (by decide) (by simp)
  | cons drive rest =>
    rw [namesDrive, segments_ofSegments (List.cons_ne_nil drive rest) hkept]
    simp

/-- A path of ordinary segments is contained unless it names a drive. -/
theorem contained?_ofSegments {kept : List (List Char)}
    (hkept : ∀ s ∈ kept, IsSegment s ∧ isOrdinary s) :
    contained? (ofSegments kept) =
      if namesDrive (ofSegments kept) then none else some (ofSegments kept) := by
  rw [contained?, not_isAbsolute_ofSegments hkept, Bool.false_or, cancel?_segments_ofSegments hkept,
    Option.map_some, List.reverse_reverse]

/-- A segment that ends with a colon stands for itself. -/
theorem isOrdinary_of_getLast? (h : s.getLast? = some ':') : isOrdinary s := by
  rw [isOrdinary_iff]
  refine ⟨?_, ?_, ?_⟩ <;> rintro rfl <;> exact absurd h (by decide)

/-- **When a contained form names a drive**: some segment that ends with a colon is left, and all in
front of it, which is not nothing, cancels. -/
theorem namesDrive_of_contained?_iff {path q : String} (h : contained? path = some q) :
    namesDrive q = true ↔
      ∃ before drive after left, segments path = before ++ drive :: after ∧ before ≠ [] ∧
        Cancels before [] ∧ Cancels after left ∧ (∀ s ∈ left, isOrdinary s) ∧
        drive.getLast? = some ':' := by
  obtain ⟨kept, hcancels, hkept, rfl, -⟩ := eq_of_contained?_eq_some h
  rw [namesDrive_ofSegments fun s hs => (hkept s hs).1]
  constructor
  · rintro ⟨drive, left, rfl, hcolon⟩
    obtain ⟨before, after, hpath, hbefore, hafter⟩ := Cancels.cons_iff.mp hcancels
    refine ⟨before, drive, after, left, hpath, ?_, hbefore, hafter, fun s hs => ?_, hcolon⟩
    · -- a drive that stands in front was asked about
      rintro rfl
      have hdrive : namesDrive path = true := by
        rw [namesDrive, hpath]
        simpa using hcolon
      have hnone : contained? path = none := contained?_eq_none_iff.mpr (.inr (.inl hdrive))
      rw [hnone] at h
      cases h
    · exact (hkept s (List.mem_cons_of_mem drive hs)).2
  · rintro ⟨before, drive, after, left, hpath, -, hbefore, hafter, hleft, hcolon⟩
    have hcancels' : Cancels (segments path) (drive :: left) :=
      Cancels.cons_iff.mpr ⟨before, after, hpath, hbefore, hafter⟩
    have hordinary : ∀ s ∈ drive :: left, isOrdinary s :=
      List.forall_mem_cons.mpr ⟨isOrdinary_of_getLast? hcolon, hleft⟩
    -- what is left of a path is left of it in every order
    have hsame := (cancel?_eq_some_iff.mpr ⟨hcancels, fun s hs => (hkept s hs).2⟩).symm.trans
      (cancel?_eq_some_iff.mpr ⟨hcancels', hordinary⟩)
    exact ⟨drive, left, List.reverse_injective (Option.some_inj.mp hsame), hcolon⟩

end Path

/-! ### Reading under a contained form -/

/-- A file source refuses what is not contained. -/
theorem FileSource.read_of_contained?_eq_none (s : FileSource) {path : String} (useKept : Bool)
    (h : Path.contained? path = none) :
    s.read path useKept =
      (.error (.notFound (path ++ " (outside of template root " ++ s.root ++ ")")), s) := by
  rw [read, h]

/-- Paths with one contained form are one path to a file source. -/
theorem FileSource.read_eq_read (s : FileSource) {path path' key : String} (useKept : Bool)
    (h : Path.contained? path = some key) (h' : Path.contained? path' = some key) :
    s.read path useKept = s.read path' useKept := by
  rw [read, read, h, h']

/-- What an engine over files does not find in its cache it reads under the contained form. -/
theorem Engine.fetch_of_read_error {e : Engine} {σ : Store} {s : FileSource} {path q : String}
    {fault : Error} (hpath : Path.contained? path = some q) (hsource : σ.source = .files s)
    (hcache : e.config.cache → σ.cache.findPath? q = none)
    (hread : (s.read q e.config.cache).1 = .error fault) : (e.fetch path σ).1 = .error fault := by
  have hrefetch : ∀ σ : Store, σ.source = .files s → (e.refetch q σ).1 = .error fault := by
    intro σ hsource
    have hfirst : (σ.read q e.config.cache).1 = .error fault := by
      rw [Store.read, hsource, Source.read]
      exact hread
    rw [refetch]
    split
    next fault' σ' h =>
      rw [h] at hfirst
      rw [Except.error.inj hfirst]
    next text σ' h =>
      rw [h] at hfirst
      cases hfirst
  rw [fetch, hpath]
  dsimp only
  split
  next hc =>
    rw [hcache hc]
    exact hrefetch σ hsource
  next => exact hrefetch _ hsource

namespace Path

/-- **A contained form is contained again unless it names a drive.** It never begins at the top
and is its own normal form. It names a drive exactly if, in the path, a segment that ends with a
colon is left and all in front of it cancels. If it does not, a file source reads the same under
it as under the path; if it does, an engine over files, whose cache does not hold the template,
finds nothing under the path, whatever the files are. -/
theorem contained_again {path q : String} (h : contained? path = some q) :
    isAbsolute q = false ∧ normalize q = q ∧
    contained? q = (if namesDrive q then none else some q) ∧
    (namesDrive q = true ↔
      ∃ before drive after left, segments path = before ++ drive :: after ∧ before ≠ [] ∧
        Cancels before [] ∧ Cancels after left ∧ (∀ s ∈ left, isOrdinary s) ∧
        drive.getLast? = some ':') ∧
    (namesDrive q = false → ∀ (s : FileSource) (useKept : Bool),
      s.read q useKept = s.read path useKept) ∧
    (namesDrive q = true → ∀ (e : Engine) (σ : Store) (s : FileSource), σ.source = .files s →
      (e.config.cache → σ.cache.findPath? q = none) →
      (e.fetch path σ).1 =
        .error (.notFound (q ++ " (outside of template root " ++ s.root ++ ")"))) := by
  obtain ⟨kept, -, hkept, hq, -⟩ := eq_of_contained?_eq_some h
  have hagain : contained? q = if namesDrive q then none else some q := by
    rw [hq, contained?_ofSegments hkept]
  refine ⟨?_, ?_, hagain, namesDrive_of_contained?_iff h, fun hdrive s useKept => ?_,
    fun hdrive e σ s hsource hcache => ?_⟩
  · rw [hq, not_isAbsolute_ofSegments hkept]
  · rw [hq, normalize_ofSegments hkept]
  · rw [hdrive, if_neg Bool.false_ne_true] at hagain
    exact s.read_eq_read useKept hagain h
  · rw [if_pos hdrive] at hagain
    refine Engine.fetch_of_read_error h hsource hcache ?_
    rw [s.read_of_contained?_eq_none _ hagain]

/-- A drive comes to the front when the directory in front of it is left again. -/
theorem contained_again_drive :
    contained? "pages/../C:/nav" = some "C:/nav" ∧ contained? "C:/nav" = none ∧
      (({} : Engine).fetch "pages/../C:/nav"
          { source := .files { root := "root", tree := .write "root/C:/nav" ⟨#[]⟩ {} } }).1 =
        .error (.notFound "C:/nav (outside of template root root)") := by
  have hpath : contained? "pages/../C:/nav" = some "C:/nav" := by decide
  obtain ⟨-, -, hagain, -, -, hfetch⟩ := contained_again hpath
  have hmessage : "C:/nav" ++ " (outside of template root " ++ "root" ++ ")" =
      "C:/nav (outside of template root root)" := by decide
  refine ⟨hpath, hagain.trans (if_pos (by decide)), ?_⟩
  rw [hfetch (by decide) _ _ _ rfl fun _ => rfl, hmessage]

/-- A contained form need not be contained: what is in front of a drive may cancel. -/
theorem not_contained?_contained? :
    ¬ ∀ path q : String, contained? path = some q → contained? q = some q := by
  intro h
  have hagain := h "./C:/nav" "C:/nav" (by decide)
  exact absurd hagain (by decide)

end Path

end Stencil
