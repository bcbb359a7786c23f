import Stencil.Filter
import Stencil.Function
import Stencil.Proofs.Sorting.Parting
import Stencil.Proofs.Value.Order

/-!
# Sorting and extremes agree

A list of values need not have an order, as texts and numbers may go round in a circle. Where it has
one, sorting puts the list into that order and leaves ties as they were, and the extremes of the
list are told by the order too: the least value is the one that sorting puts in front, the greatest
one is the first that no value exceeds.

The least value and the first one after sorting are found in different ways and might be different
values that are equal, as 1 and `"1"` are. That they are one is seen from the ties of the least
value: sorting leaves them in their order, and the first of them stands in front both times
(`Value.head?_of_sorts`).
-/

namespace Stencil.Value

variable {items sorted : List Value} {o : Ordering} {P : Value → Prop} {best m : Value}

/-! ### Lists with an order -/

/-- What is not greater than a value that is not greater than a third one is not greater than that
one either, throughout a list. -/
def Graded (items : List Value) : Prop :=
  ∀ u ∈ items, ∀ v ∈ items, ∀ w ∈ items,
    u.compare? v ≠ some .gt → v.compare? w ≠ some .gt → u.compare? w ≠ some .gt

instance : Decidable (Graded items) := by
  unfold Graded
  infer_instance

/-- Values that are compared by one order are graded, and any two of them compare. -/
theorem graded_map {β : Type} {kind : β → Value} (order : β → β → Ordering) [Std.TransCmp order]
    (hkind : ∀ a b, (kind a).compare? (kind b) = some (order a b)) (bs : List β) :
    Graded (bs.map kind) ∧ ∀ u ∈ bs.map kind, ∀ v ∈ bs.map kind, (u.compare? v).isSome := by
  constructor
  · intro u hu v hv w hw huv hvw
    obtain ⟨a, -, rfl⟩ := List.mem_map.mp hu
    obtain ⟨b, -, rfl⟩ := List.mem_map.mp hv
    obtain ⟨c, -, rfl⟩ := List.mem_map.mp hw
    simp only [hkind, Ne, Option.some_inj, ← Ordering.isLE_iff_ne_gt] at huv hvw ⊢
    exact Std.TransCmp.isLE_trans huv hvw
  · intro u hu v hv
    obtain ⟨a, -, rfl⟩ := List.mem_map.mp hu
    obtain ⟨b, -, rfl⟩ := List.mem_map.mp hv
    rw [hkind]
    rfl

/-- The lists of integers, those of texts, and those of dates and of date-times. -/
inductive OfOneKind : List Value → Prop
  | integers (ns : List Int64) : OfOneKind (ns.map .int)
  | texts (ss : List String) : OfOneKind (ss.map .str)
  | dates (ds : List Date) : OfOneKind (ds.map .date)
  | dateTimes (ts : List DateTime) : OfOneKind (ts.map .dateTime)

theorem OfOneKind.graded (h : OfOneKind items) :
    Graded items ∧ ∀ u ∈ items, ∀ v ∈ items, (u.compare? v).isSome := by
  cases h with
  | integers ns => exact graded_map (compareOn Int64.toInt) (fun _ _ => rfl) ns
  | texts ss => exact graded_map compare (fun _ _ => rfl) ss
  | dates ds => exact graded_map Date.order (fun _ _ => rfl) ds
  | dateTimes ts => exact graded_map DateTime.order (fun _ _ => rfl) ts

theorem compare?_eq_gt_iff {a b : Value} : a.compare? b = some .gt ↔ b.compare? a = some .lt := by
  rw [compare?_swap b a]
  rcases b.compare? a with _ | _ | _ | _ <;> simp [Ordering.swap]

theorem isLess_eq_false_iff {a b : Value} : isLess b a = false ↔ a.compare? b ≠ some .gt := by
  rw [isLess, beq_eq_false_iff_ne, Ne, Ne, compare?_eq_gt_iff]

/-- Whether a value lies beyond another one, on the side `o` of it. -/
def isBeyond (o : Ordering) (a b : Value) : Bool := a.compare? b == some o

theorem isBeyond_eq_true_iff {a b : Value} : isBeyond o a b ↔ a.compare? b = some o :=
  beq_iff_eq

theorem isBeyond_lt : isBeyond .lt = isLess := rfl

theorem isBeyond_gt : isBeyond .gt = fun a b => isLess b a := by
  funext a b
  rw [Bool.eq_iff_iff, isBeyond_eq_true_iff, compare?_eq_gt_iff, isLess, beq_iff_eq]

/-- Values that are graded are ordered, those without an order between them counting as equal. -/
theorem Graded.orders (h : Graded items) : Sorting.Orders isLess (· ∈ items) where
  asymm {a b} _ _ hab := by
    rw [isLess, beq_iff_eq] at hab
    rw [isLess_eq_false_iff, hab]
    exact fun heq => absurd (Option.some_inj.mp heq) (by decide)
  trans ha hb hc hab hbc :=
    isLess_eq_false_iff.mpr
      (h _ ha _ hb _ hc (isLess_eq_false_iff.mp hab) (isLess_eq_false_iff.mp hbc))

/-! ### Extremes -/

/-- The first of the values of a list that none lies beyond. It lies beyond all values before it. -/
def IsFirst (o : Ordering) (items : List Value) (m : Value) : Prop :=
  ∃ before after, items = before ++ m :: after ∧ (∀ v ∈ before, isBeyond o m v) ∧
    ∀ v ∈ items, isBeyond o v m = false

theorem IsFirst.mem (h : IsFirst o items m) : m ∈ items := by
  obtain ⟨before, after, rfl, -, -⟩ := h
  exact List.mem_append_right _ List.mem_cons_self

/-- A value that the first one lies beyond may come before it. -/
theorem IsFirst.cons {v : Value} (hfirst : IsFirst o items m) (hbeyond : isBeyond o m v)
    (hnot : isBeyond o v m = false) : IsFirst o (v :: items) m := by
  obtain ⟨before, after, rfl, hbefore, hnone⟩ := hfirst
  exact ⟨v :: before, after, rfl, List.forall_mem_cons.mpr ⟨hbeyond, hbefore⟩,
    List.forall_mem_cons.mpr ⟨hnot, hnone⟩⟩

/-- A value that does not lie beyond the one in front may come behind that one. -/
theorem IsFirst.insert {v : Value} (h : Sorting.Orders (isBeyond o) P) (hv : P v) (hbest : P best)
    (hm : P m) (hfirst : IsFirst o (best :: items) m) (hnot : isBeyond o v best = false) :
    IsFirst o (best :: v :: items) m := by
  obtain ⟨before, after, hitems, hbefore, hnone⟩ := hfirst
  obtain ⟨hnone, hnone'⟩ := List.forall_mem_cons.mp hnone
  rcases before with _ | ⟨b, before⟩
  · obtain ⟨rfl, rfl⟩ := List.cons.inj hitems
    exact ⟨[], v :: items, rfl, List.forall_mem_nil _,
      List.forall_mem_cons.mpr ⟨hnone, List.forall_mem_cons.mpr ⟨hnot, hnone'⟩⟩⟩
  · obtain ⟨rfl, hrest⟩ := List.cons.inj hitems
    obtain ⟨hbeyond, hbefore'⟩ := List.forall_mem_cons.mp hbefore
    have hbeyond' := h.lt_of_lt_of_le hm hbest hv hbeyond hnot
    exact ⟨best :: v :: before, after, congrArg (best :: v :: ·) hrest,
      List.forall_mem_cons.mpr ⟨hbeyond, List.forall_mem_cons.mpr ⟨hbeyond', hbefore'⟩⟩,
      List.forall_mem_cons.mpr ⟨hnone, List.forall_mem_cons.mpr ⟨h.asymm hm hv hbeyond', hnone'⟩⟩⟩

/-- The walk through a list comes to the first value that none lies beyond. -/
theorem isFirst_extremeFrom (h : Sorting.Orders (isBeyond o) P)
    (hitems : ∀ v ∈ best :: items, P v) :
    IsFirst o (best :: items) (extremeFrom o best items) := by
  induction items generalizing best with
  | nil =>
    have hself := h.irrefl (hitems best List.mem_cons_self)
    exact ⟨[], [], rfl, List.forall_mem_nil _, List.forall_mem_singleton.mpr hself⟩
  | cons v vs ih =>
    obtain ⟨hbest, hvs⟩ := List.forall_mem_cons.mp hitems
    have hv := hvs v List.mem_cons_self
    rw [extremeFrom, ← isBeyond]
    split
    next hbeyond =>
      have hfirst := ih hvs
      have hm := hvs _ hfirst.mem
      obtain ⟨-, -, -, -, hnone⟩ := id hfirst
      have hbeyond' := h.lt_of_le_of_lt hm hv hbest (hnone v List.mem_cons_self) hbeyond
      exact hfirst.cons hbeyond' (h.asymm hm hbest hbeyond')
    next hnot =>
      have hrest : ∀ w ∈ best :: vs, P w :=
        List.forall_mem_cons.mpr ⟨hbest, fun w hw => hvs w (List.mem_cons_of_mem v hw)⟩
      have hfirst := ih hrest
      exact hfirst.insert h hv hbest (hrest _ hfirst.mem) (Bool.eq_false_iff.mpr hnot)

/-! ### Ties -/

/-- Whether neither of two values is less than the other. -/
def isTied (m v : Value) : Bool := !isLess v m && !isLess m v

theorem isTied_iff {v : Value} : isTied m v ↔ isLess v m = false ∧ isLess m v = false := by
  simp [isTied]

/-- The ties of one value are ties of each other. -/
theorem not_parted_of_isTied (h : Sorting.Orders isLess P) (hm : P m) {v w : Value} (hv : P v)
    (hw : P w) (hvm : isTied m v) (hwm : isTied m w) : ¬ Sorting.Parted isLess v w := by
  obtain ⟨hvm, hmv⟩ := isTied_iff.mp hvm
  obtain ⟨hwm, hmw⟩ := isTied_iff.mp hwm
  rintro (hlt | hlt)
  · exact Bool.false_ne_true ((h.trans hw hm hv hmw hvm).symm.trans hlt)
  · exact Bool.false_ne_true ((h.trans hv hm hw hmv hwm).symm.trans hlt)

/-- **The first of the least values stands in front after sorting.** -/
theorem head?_of_sorts (h : Sorting.Orders isLess (· ∈ items)) (hfirst : IsFirst .lt items m)
    (hsorts : Sorting.Sorts isLess items sorted) : sorted.head? = some m := by
  have hm := hfirst.mem
  obtain ⟨before, after, hitems, hbefore, hnone⟩ := hfirst
  have hkept : items.filter (isTied m) = sorted.filter (isTied m) :=
    hsorts.rearranged.filter_eq _ fun v hv w hw => not_parted_of_isTied h hm hv hw
  have hfront : items.filter (isTied m) = m :: after.filter (isTied m) := by
    have hpassed : before.filter (isTied m) = [] := List.filter_eq_nil_iff.mpr fun v hv hvm =>
      Bool.false_ne_true ((isTied_iff.mp hvm).2.symm.trans (hbefore v hv))
    have hself : isTied m m := isTied_iff.mpr ⟨h.irrefl hm, h.irrefl hm⟩
    rw [hitems, List.filter_append, hpassed, List.nil_append, List.filter_cons_of_pos hself]
  rcases sorted with _ | ⟨s, rest⟩
  · exact absurd (hsorts.mem_iff.mp hm) List.not_mem_nil
  have hs : isTied m s := by
    refine isTied_iff.mpr ⟨hnone s (hsorts.mem_iff.mpr List.mem_cons_self), ?_⟩
    rcases List.mem_cons.mp (hsorts.mem_iff.mp hm) with rfl | hrest
    · exact h.irrefl hm
    · exact (List.pairwise_cons.mp hsorts.ascending).1 m hrest
  rw [hfront, List.filter_cons_of_pos hs] at hkept
  exact congrArg some (List.cons.inj hkept).1.symm

/-! ### The filter and the two functions -/

/-- Values that are all equal are not parted. -/
theorem not_parted_of_pairwise (h : Sorting.Orders isLess (· ∈ items)) {p : Value → Bool}
    (hp : (items.filter p).Pairwise fun v w => v.compare? w = some .eq) :
    ∀ v ∈ items, ∀ w ∈ items, p v → p w → ¬ Sorting.Parted isLess v w := by
  have hapart : (items.filter p).Pairwise fun v w => ¬ Sorting.Parted isLess v w := by
    refine hp.imp fun {v w} heq hparted => ?_
    rw [Sorting.Parted, isLess, isLess, beq_iff_eq, beq_iff_eq, ← @compare?_eq_gt_iff v w,
      heq] at hparted
    exact hparted.elim (fun h => absurd (Option.some_inj.mp h) (by decide))
      fun h => absurd (Option.some_inj.mp h) (by decide)
  have hsymm : Std.Symm fun v w => ¬ Sorting.Parted isLess v w :=
    ⟨fun _ _ hnot hparted => hnot hparted.symm⟩
  intro v hv w hw hpv hpw
  refine hapart.forall_of_forall (fun u hu hparted => ?_) (List.mem_filter.mpr ⟨hv, hpv⟩)
    (List.mem_filter.mpr ⟨hw, hpw⟩)
  have hself := h.irrefl (List.mem_of_mem_filter hu)
  exact hparted.elim (fun h => Bool.false_ne_true (hself.symm.trans h))
    fun h => Bool.false_ne_true (hself.symm.trans h)

/-- **Sorting and the extremes of a list agree.** Values of one kind compare and are graded. A list of
values that are graded is sorted: the result holds the same values, none before one that is less, and
any values that are all equal are in it in their order. The least value is the one in front of the
sorted list, the greatest is the first of the list itself that none exceeds. Both are also those of
the values as arguments of their own, if there are two or more. -/
theorem sort_extremes (items : List Value) (args : List Value) (hne : items ≠ []) :
    Table.find? "sort" Filter.builtins = some Filter.sort ∧
    Table.find? "min" Function.builtins = some (Function.extreme .lt) ∧
    Table.find? "max" Function.builtins = some (Function.extreme .gt) ∧
    (OfOneKind items → Graded items ∧ ∀ u ∈ items, ∀ v ∈ items, (u.compare? v).isSome) ∧
    (Graded items → ∃ sorted least greatest,
      (Filter.sort (.list items) args = .ok (.list sorted) ∧ sorted.Perm items ∧
        sorted.Pairwise (fun v w => w.compare? v ≠ some .lt) ∧
        ∀ p : Value → Bool, (items.filter p).Pairwise (fun v w => v.compare? w = some .eq) →
          sorted.filter p = items.filter p) ∧
      (Function.extreme .lt [.list items] = .ok least ∧ sorted.head? = some least) ∧
      (Function.extreme .gt [.list items] = .ok greatest ∧
        ∃ before after, items = before ++ greatest :: after ∧
          (∀ v ∈ items, v.compare? greatest ≠ some .gt) ∧
          ∀ v ∈ before, ∃ w ∈ items, w.compare? v = some .gt) ∧
      (2 ≤ items.length →
        Function.extreme .lt items = .ok least ∧ Function.extreme .gt items = .ok greatest)) := by
  refine ⟨rfl, rfl, rfl, OfOneKind.graded, fun hgraded => ?_⟩
  have horders := hgraded.orders
  obtain ⟨sorted, hsort, hsorts⟩ := Sorting.sorts_sort horders fun v hv => hv
  obtain ⟨v, vs, rfl⟩ := List.exists_cons_of_ne_nil hne
  have hleast : IsFirst .lt (v :: vs) (extremeFrom .lt v vs) :=
    isFirst_extremeFrom (isBeyond_lt ▸ horders) fun w hw => hw
  obtain ⟨before, after, hitems, hbefore, hnone⟩ : IsFirst .gt (v :: vs) (extremeFrom .gt v vs) :=
    isFirst_extremeFrom (isBeyond_gt ▸ horders.flip) fun w hw => hw
  refine ⟨sorted, extremeFrom .lt v vs, extremeFrom .gt v vs, ⟨?_, ?_, ?_, fun p hp => ?_⟩,
    ⟨rfl, head?_of_sorts horders hleast hsorts⟩, ⟨rfl, before, after, hitems, fun w hw => ?_,
    fun w hw => ⟨extremeFrom .gt v vs, ?_, ?_⟩⟩, fun hlength => ?_⟩
  · have hsorted : sort? (v :: vs) = some sorted := hsort
    simp only [Filter.sort, hsorted]
  · exact hsorts.rearranged.perm.symm
  · exact hsorts.ascending.imp fun hle => beq_eq_false_iff_ne.mp hle
  · exact (hsorts.rearranged.filter_eq p (not_parted_of_pairwise horders hp)).symm
  · exact beq_eq_false_iff_ne.mp (hnone w hw)
  · exact hitems ▸ List.mem_append_right _ List.mem_cons_self
  · exact isBeyond_eq_true_iff.mp (hbefore w hw)
  · rcases vs with _ | ⟨w, ws⟩
    · exact absurd hlength (Nat.not_succ_le_self 1)
    · cases v <;> exact ⟨rfl, rfl⟩

/-- Two moments of one second, the later one in front. -/
def momentsApart : List DateTime :=
  let date : Date := ⟨2025, 10, 27, by decide, by decide, by decide⟩
  [⟨date, { hour := 8, minute := 45, second := 12, nanosecond := 750000000 }⟩,
    ⟨date, { hour := 8, minute := 45, second := 12, nanosecond := 250000000 }⟩]

/-- An integer, a text and a truth value that count as equal, and one that is less; and the two
moments, which do not stay as they are. -/
theorem sort_extremes_mixed :
    (Graded [.int 1, .str "1", .bool true, .null] ∧
      ∃ sorted, Filter.sort (.list [.int 1, .str "1", .bool true, .null]) [] = .ok (.list sorted) ∧
        sorted.head? = some .null ∧
        Function.extreme .lt [.int 1, .str "1", .bool true, .null] = .ok .null) ∧
      ∃ sorted, Filter.sort (.list (momentsApart.map .dateTime)) [] = .ok (.list sorted) ∧
        sorted.Pairwise (fun v w => w.compare? v ≠ some .lt) ∧
        sorted ≠ momentsApart.map .dateTime := by
  constructor
  · have hgraded : Graded [.int 1, .str "1", .bool true, .null] := by decide
    obtain ⟨-, -, -, -, hsorts⟩ :=
      sort_extremes [.int 1, .str "1", .bool true, .null] [] (List.cons_ne_nil _ _)
    obtain ⟨sorted, least, _, ⟨hsort, -⟩, ⟨hleast, hhead⟩, -, hapart⟩ := hsorts hgraded
    have hnull : Function.extreme .lt [.list [.int 1, .str "1", .bool true, .null]] = .ok .null :=
      rfl
    obtain rfl : least = .null := (Except.ok.inj (hnull.symm.trans hleast)).symm
    exact ⟨hgraded, sorted, hsort, hhead, (hapart (by decide)).1⟩
  · obtain ⟨-, -, -, hkind, hsorts⟩ :=
      sort_extremes (momentsApart.map .dateTime) [] (List.cons_ne_nil _ _)
    obtain ⟨sorted, _, _, ⟨hsort, -, hascending, -⟩, -⟩ := hsorts (hkind (.dateTimes momentsApart)).1
    refine ⟨sorted, hsort, hascending, ?_⟩
    rintro rfl
    -- the moment behind is less than the one in front
    exact (List.pairwise_cons.mp hascending).1 _ List.mem_cons_self (by decide)

end Stencil.Value
