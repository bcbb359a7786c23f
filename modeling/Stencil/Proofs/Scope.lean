import Mathlib.Data.List.Induction
import Stencil.Proofs.Render.Bookkeeping
import Stencil.Proofs.Source.Path

/-!
# Scopes as nested environments

What a loop or an include does to its scope is a sequence of **bindings** and a cut back to the mark
at which it began. A binding brings a new innermost local, or it gives a new value to an old one,
which may lie below the mark. Which of the two `Scope.set` does depends on what is there at that
moment.

Locals are told apart by their **height**, the number of locals under them. It stays as it is while
other locals come and are cut off, also if there are several locals of one name. Where a binding
puts its value is told by the names alone (`Scope.Binding.height`), and the names after some bindings
are told without their values (`Scope.namesAfter`). So the value at a height is the one that came
with the last binding that went there (`Scope.valueAt?_after`), and that is all that the main result
(`Scope.bindings_nest`) needs: below the mark no push goes to a height, and a `set` goes to the one
of the innermost local of its name.
-/

namespace Stencil.Scope

/-! ### Bindings -/

/-- What gives a value to a name: a new innermost local, or the innermost one that has the name. -/
inductive Binding where
  | push (name : String) (v : Value)
  | set (name : String) (v : Value)

namespace Binding

def name : Binding → String
  | push name _ | set name _ => name

def value : Binding → Value
  | push _ v | set _ v => v

end Binding

/-- A scope after a binding. -/
def next (s : Scope) : Binding → Scope
  | .push name v => s.push name v
  | .set name v => s.set name v

/-- A scope after bindings, the first one first. -/
def after (s : Scope) (bs : List Binding) : Scope :=
  bs.foldl next s

/-- The local that has so many locals under it. -/
def local? (s : Scope) (height : Nat) : Option (String × Value) :=
  s.locals.reverse[height]?

/-- The value of the local of a height. -/
def valueAt? (s : Scope) (height : Nat) : Option Value :=
  (s.local? height).map Prod.snd

/-! ### What the names tell -/

/-- The height of the innermost local of a name. The names are those of the locals, the innermost
first. -/
def height? (name : String) : List String → Option Nat
  | [] => none
  | other :: under => if other = name then some under.length else height? name under

namespace Binding

/-- The names after a binding. -/
def namesAfter (names : List String) : Binding → List String
  | push name _ => name :: names
  | set name _ => if name ∈ names then names else name :: names

/-- The height of the local that a binding gives its value to. -/
def height (names : List String) : Binding → Nat
  | push _ _ => names.length
  | set name _ => (height? name names).getD names.length

/-- Whether a binding is a `set` of a name while the innermost local of that name has this
height. -/
def resets (name : String) (height : Nat) (names : List String) : Binding → Bool
  | push _ _ => false
  | set other _ => other = name ∧ height? name names = some height

end Binding

/-- The names after bindings. -/
def namesAfter (names : List String) (bs : List Binding) : List String :=
  bs.foldl Binding.namesAfter names

/-- The bindings, each with the names at its moment. -/
def moments (names : List String) : List Binding → List (List String × Binding)
  | [] => []
  | b :: bs => (names, b) :: moments (b.namesAfter names) bs

/-- The value that came with the last of the bindings that meet a condition at their moments. -/
def last? (meets : List String → Binding → Bool) (names : List String) (bs : List Binding) :
    Option Value :=
  ((moments names bs).filter fun m => meets m.1 m.2).getLast?.map fun m => m.2.value

/-- The value that the local of a height was last given, if it was given one. -/
def lastAt? (height : Nat) (names : List String) (bs : List Binding) : Option Value :=
  last? (fun names b => b.height names = height) names bs

section Names

variable {name : String} {names : List String} {n : Nat}

theorem height?_eq_none_iff : height? name names = none ↔ name ∉ names := by
  induction names with
  | nil => simp [height?]
  | cons other under ih =>
    rw [height?]
    split
    next h => simp [h]
    next h => simp [ih, Ne.symm h]

/-- There is a local of that name at that height. -/
theorem getElem?_of_height? (h : height? name names = some n) : names.reverse[n]? = some name := by
  induction names with
  | nil => cases h
  | cons other under ih =>
    rw [height?] at h
    rw [List.reverse_cons]
    split at h
    next hname =>
      obtain rfl := Option.some.inj h
      simp [hname]
    next hname =>
      have hunder := ih h
      have hlt : n < under.reverse.length := (List.getElem?_eq_some_iff.mp hunder).1
      rw [List.getElem?_append_left hlt, hunder]

theorem height?_lt (h : height? name names = some n) : n < names.length := by
  simpa using (List.getElem?_eq_some_iff.mp (getElem?_of_height? h)).1

theorem Binding.suffix_namesAfter (names : List String) (b : Binding) :
    names <:+ b.namesAfter names := by
  cases b with
  | push name v => exact List.suffix_cons ..
  | set name v =>
    rw [Binding.namesAfter]
    split
    · exact List.suffix_rfl
    · exact List.suffix_cons ..

theorem namesAfter_concat (names : List String) (bs : List Binding) (b : Binding) :
    namesAfter names (bs ++ [b]) = b.namesAfter (namesAfter names bs) := by
  simp [namesAfter]

theorem suffix_namesAfter (names : List String) (bs : List Binding) :
    names <:+ namesAfter names bs := by
  induction bs using List.reverseRecOn with
  | nil => exact List.suffix_rfl
  | append_singleton bs b ih =>
    rw [namesAfter_concat]
    exact ih.trans (b.suffix_namesAfter _)

theorem moments_concat (names : List String) (bs : List Binding) (b : Binding) :
    moments names (bs ++ [b]) = moments names bs ++ [(namesAfter names bs, b)] := by
  induction bs generalizing names with
  | nil => rfl
  | cons c bs ih => simp [moments, namesAfter, ih]

/-- One binding more is the last one, or it does not count. -/
theorem last?_concat (meets : List String → Binding → Bool) (names : List String)
    (bs : List Binding) (b : Binding) :
    last? meets names (bs ++ [b]) =
      if meets (namesAfter names bs) b then some b.value else last? meets names bs := by
  rw [last?, moments_concat, List.filter_append, List.filter_singleton]
  split <;> simp [last?, *]

theorem Binding.name_of_resets {b : Binding} (h : b.resets name n names = true) :
    b.name = name := by
  cases b with
  | push other v => cases h
  | set other v => exact (of_decide_eq_true h).1

/-- **Below the mark, the bindings that go to a height are those that reset its local.** A push goes
above the mark, and so does a `set` of a name that no local has. -/
theorem resets_iff {names' : List String} (h : names <:+ names')
    (hn : names.reverse[n]? = some name) (b : Binding) :
    b.resets name n names' = true ↔ b.height names' = n := by
  have hlt : n < names.reverse.length := (List.getElem?_eq_some_iff.mp hn).1
  have hn' : names'.reverse[n]? = some name := by
    obtain ⟨above, rfl⟩ := h
    rw [List.reverse_append, List.getElem?_append_left hlt, hn]
  have hle : names.length ≤ names'.length := h.length_le
  rw [List.length_reverse] at hlt
  cases b with
  | push other v =>
    have hne : names'.length ≠ n := by omega
    simp [Binding.height, Binding.resets, hne]
  | set other v =>
    rw [Binding.resets, Binding.height, decide_eq_true_iff]
    rcases hother : height? other names' with _ | k
    · constructor
      · rintro ⟨rfl, hsome⟩
        cases hother.symm.trans hsome
      · intro hlength
        rw [Option.getD_none] at hlength
        omega
    · rw [Option.getD_some]
      constructor
      · rintro ⟨rfl, hsome⟩
        exact Option.some.inj (hother.symm.trans hsome)
      · rintro rfl
        obtain rfl : other = name :=
          Option.some.inj ((getElem?_of_height? hother).symm.trans hn')
        exact ⟨rfl, hother⟩

end Names

/-! ### What a binding does -/

section Binding

variable {s : Scope} {n : Nat}

theorem getElem?_reverse_names (s : Scope) (n : Nat) :
    s.names.reverse[n]? = (s.local? n).map Prod.fst := by
  rw [names, local?, ← List.map_reverse, List.getElem?_map]

/-- A name is given a new value at the height of its innermost local. -/
theorem rebind?_eq (key : String) (v : Value) (locals : List (String × Value)) :
    rebind? key v locals = (height? key (locals.map Prod.fst)).map fun n =>
      (locals.reverse.set n (key, v)).reverse := by
  induction locals with
  | nil => rfl
  | cons e under ih =>
    obtain ⟨k, w⟩ := e
    rw [rebind?, List.map_cons, height?, List.reverse_cons]
    split
    next hk =>
      subst hk
      simp [List.set_append]
    next hk =>
      rw [ih]
      rcases hheight : height? key (under.map Prod.fst) with _ | n
      · rfl
      · have hlt : n < under.reverse.length := by simpa using height?_lt hheight
        simp [List.set_append_left _ _ hlt]

theorem set_of_height?_eq_none {name : String} (h : height? name s.names = none) (v : Value) :
    s.set name v = s.push name v := by
  rw [names] at h
  rw [set, rebind?_eq, h]
  rfl

theorem set_of_height?_eq_some {name : String} (h : height? name s.names = some n) (v : Value) :
    s.set name v = { s with locals := (s.locals.reverse.set n (name, v)).reverse } := by
  rw [names] at h
  rw [set, rebind?_eq, h]
  rfl

theorem local?_push (s : Scope) (name : String) (v : Value) (n : Nat) :
    (s.push name v).local? n = if n = s.names.length then some (name, v) else s.local? n := by
  simp only [push, local?, List.reverse_cons, names, List.length_map]
  grind

/-- **A binding gives its value at one height**, and leaves all others as they are. -/
theorem local?_next (s : Scope) (b : Binding) (n : Nat) :
    (s.next b).local? n = if n = b.height s.names then some (b.name, b.value) else s.local? n := by
  cases b with
  | push name v => exact local?_push s name v n
  | set name v =>
    rw [next, Binding.height]
    rcases hheight : height? name s.names with _ | k
    · rw [set_of_height?_eq_none hheight]
      exact local?_push s name v n
    · have hlt : k < s.locals.reverse.length := by simpa [names] using height?_lt hheight
      rw [set_of_height?_eq_some hheight, local?, List.reverse_reverse, List.getElem?_set,
        if_pos hlt]
      simp only [Option.getD_some, eq_comm, Binding.name, Binding.value, local?]

theorem names_next (s : Scope) (b : Binding) : (s.next b).names = b.namesAfter s.names := by
  cases b with
  | push name v => rfl
  | set name v =>
    rw [Binding.namesAfter]
    rcases hheight : height? name s.names with _ | k
    · rw [next, set_of_height?_eq_none hheight, if_neg (height?_eq_none_iff.mp hheight), names_push]
    · have hname : s.names.reverse[k]? = some name := getElem?_of_height? hheight
      rw [if_pos (List.mem_reverse.mp (List.mem_of_getElem? hname))]
      -- the local that is given a value keeps its name
      refine List.reverse_injective (List.ext_getElem? fun i => ?_)
      rw [getElem?_reverse_names, local?_next]
      split
      next hi =>
        rw [Binding.height, hheight, Option.getD_some] at hi
        rw [hi, hname]
        rfl
      next => rw [getElem?_reverse_names]

theorem root_next (s : Scope) (b : Binding) : (s.next b).root = s.root := by
  cases b with
  | push name v => rfl
  | set name v => exact root_set name v s

end Binding

/-! ### What a name stands for -/

section Lookup

variable {s : Scope} {key : String}

/-- Of the locals of a name the innermost is found. -/
theorem lookup_locals (s : Scope) (key : String) :
    s.locals.lookup key = (height? key s.names).bind s.valueAt? := by
  have hlocals (locals : List (String × Value)) : locals.lookup key =
      (height? key (locals.map Prod.fst)).bind fun n => (locals.reverse[n]?).map Prod.snd := by
    induction locals with
    | nil => rfl
    | cons e under ih =>
      obtain ⟨k, w⟩ := e
      rw [List.lookup_cons, List.map_cons, height?, List.reverse_cons]
      by_cases hk : k = key
      · simp [hk]
      · have hne : (key == k) = false := by simpa using Ne.symm hk
        rw [hne, if_neg hk, ih]
        refine Option.bind_congr fun n hn => ?_
        have hlt : n < under.reverse.length := by simpa using height?_lt hn
        rw [List.getElem?_append_left hlt]
  exact hlocals s.locals

/-- There is a value at the height of a local. -/
theorem exists_valueAt? {n : Nat} (h : height? key s.names = some n) :
    ∃ v, s.valueAt? n = some v := by
  have hname := getElem?_of_height? h
  rw [getElem?_reverse_names, Option.map_eq_some_iff] at hname
  obtain ⟨e, he, -⟩ := hname
  exact ⟨e.2, by rw [valueAt?, he]; rfl⟩

/-- A name without a point is looked up as a whole. -/
theorem lookup?_eq_find? (hkey : '.' ∉ key.toList) (s : Scope) : s.lookup? key = s.find? key := by
  rw [lookup?, Text.splitAt_of_notMem hkey]
  cases s.find? key <;> rfl

theorem lookup?_of_height?_eq_some (hkey : '.' ∉ key.toList) {n : Nat}
    (h : height? key s.names = some n) : s.lookup? key = s.valueAt? n := by
  obtain ⟨v, hv⟩ := exists_valueAt? h
  rw [lookup?_eq_find? hkey, find?, lookup_locals, h, Option.bind_some, hv]

theorem lookup?_of_height?_eq_none (hkey : '.' ∉ key.toList) (h : height? key s.names = none) :
    s.lookup? key = Table.find? key s.root := by
  rw [lookup?_eq_find? hkey, find?, lookup_locals, h]
  rfl

end Lookup

/-! ### What bindings do -/

section Bindings

variable {s : Scope} {n : Nat}

theorem after_concat (s : Scope) (bs : List Binding) (b : Binding) :
    s.after (bs ++ [b]) = (s.after bs).next b := by
  simp [after]

theorem names_after (s : Scope) (bs : List Binding) :
    (s.after bs).names = namesAfter s.names bs := by
  induction bs using List.reverseRecOn with
  | nil => rfl
  | append_singleton bs b ih => rw [after_concat, names_next, ih, namesAfter_concat]

theorem root_after (s : Scope) (bs : List Binding) : (s.after bs).root = s.root := by
  induction bs using List.reverseRecOn with
  | nil => rfl
  | append_singleton bs b ih => rw [after_concat, root_next, ih]

/-- **The value at a height is the one that went there last**, or the old one if none did. -/
theorem valueAt?_after (s : Scope) (bs : List Binding) (n : Nat) :
    (s.after bs).valueAt? n = (lastAt? n s.names bs).or (s.valueAt? n) := by
  induction bs using List.reverseRecOn with
  | nil => rfl
  | append_singleton bs b ih =>
    rw [after_concat, valueAt?, local?_next, names_after, lastAt?, last?_concat, ← lastAt?]
    by_cases h : n = b.height (namesAfter s.names bs)
    · simp [← h]
    · rw [if_neg h, if_neg (by simpa using Ne.symm h), ← valueAt?, ih]

/-- **A local keeps its name**, and a value that is not the old one came with the last binding that
reset it. -/
theorem local?_after {name : String} {old : Value} (h : s.local? n = some (name, old))
    (bs : List Binding) :
    (s.after bs).local? n = some (name, (last? (Binding.resets name n) s.names bs).getD old) := by
  have hname : s.names.reverse[n]? = some name := by
    rw [getElem?_reverse_names, h]
    rfl
  induction bs using List.reverseRecOn with
  | nil => exact h
  | append_singleton bs b ih =>
    have hresets := resets_iff (suffix_namesAfter s.names bs) hname b
    rw [after_concat, local?_next, names_after, ih, last?_concat]
    by_cases hb : b.height (namesAfter s.names bs) = n
    · have hb' := hresets.mpr hb
      rw [if_pos hb.symm, if_pos hb', Binding.name_of_resets hb', Option.getD_some]
    · rw [if_neg (Ne.symm hb), if_neg (mt hresets.mp hb)]

theorem local?_truncate {m : Nat} (hm : m ≤ s.mark) (hn : n < m) :
    (s.truncate m).local? n = s.local? n := by
  rw [mark] at hm
  rw [truncate, local?, List.reverse_drop, Nat.sub_sub_self hm, List.getElem?_take, if_pos hn, local?]

end Bindings

/-- **Scopes are nested environments.** Whatever was bound since a mark, the cut back to it leaves the
names of that moment and the root, and each local has the value of the last `set` of its name that was
made while it was the innermost local of that name, or else its old value. Before the cut, a name
without a point stands for the value that its innermost local was given last, and for the entry of
the root if it has no local. -/
theorem bindings_nest (s : Scope) (bs : List Binding) :
    ((s.after bs).truncate s.mark).names = s.names ∧
    ((s.after bs).truncate s.mark).root = s.root ∧
    (∀ n name old, s.local? n = some (name, old) →
      ((s.after bs).truncate s.mark).local? n =
        some (name, (last? (Binding.resets name n) s.names bs).getD old)) ∧
    ∀ made, made <+: bs →
      (s.after made).names = namesAfter s.names made ∧
      ∀ key, '.' ∉ key.toList →
        (∀ n, height? key (namesAfter s.names made) = some n →
          ∃ v, (lastAt? n s.names made).or (s.valueAt? n) = some v ∧
            (s.after made).lookup? key = some v) ∧
        (height? key (namesAfter s.names made) = none →
          (s.after made).lookup? key = Table.find? key s.root) := by
  have hnames : s.names <:+ (s.after bs).names := by
    rw [names_after]
    exact suffix_namesAfter s.names bs
  refine ⟨names_truncate hnames, root_after s bs, ?_, ?_⟩
  · intro n name old h
    have hlt : n < s.mark := by
      simpa [local?, mark] using (List.getElem?_eq_some_iff.mp h).1
    have hle : s.mark ≤ (s.after bs).mark := by
      simpa [names, mark] using hnames.length_le
    rw [local?_truncate hle hlt, local?_after h]
  · intro made _
    refine ⟨names_after s made, fun key hkey => ⟨?_, ?_⟩⟩
    · intro n hn
      rw [← names_after] at hn
      obtain ⟨v, hv⟩ := exists_valueAt? hn
      exact ⟨v, by rw [← valueAt?_after, hv], by rw [lookup?_of_height?_eq_some hkey hn, hv]⟩
    · intro hnone
      rw [← names_after] at hnone
      rw [lookup?_of_height?_eq_none hkey hnone, root_after]

/-- Two locals of one name with another between them. -/
def shadowed : Scope where
  root := [("z", .int 9)]
  locals := [("x", .int 2), ("y", .int 5), ("x", .int 1)]

/-- The first `set` goes below the mark. Those behind it do not, since their names have new locals by
then or get them. -/
def rebindings : List Binding :=
  [.push "y" (.int 6), .set "x" (.int 3), .push "x" (.int 7), .set "x" (.int 8), .set "z" (.int 11),
    .set "y" (.int 10)]

/-- Only the inner one of the two locals changes, and the name of the root is covered for a while. -/
theorem bindings_nest_shadowed :
    (shadowed.local? 2 = some ("x", .int 2) ∧
      ((shadowed.after rebindings).truncate shadowed.mark).local? 2 = some ("x", .int 3)) ∧
    (shadowed.local? 0 = some ("x", .int 1) ∧
      ((shadowed.after rebindings).truncate shadowed.mark).local? 0 = some ("x", .int 1)) ∧
    (rebindings <+: rebindings ∧ (shadowed.after rebindings).lookup? "z" = some (.int 11)) ∧
    rebindings.take 2 <+: rebindings ∧
      (shadowed.after (rebindings.take 2)).lookup? "z" = some (.int 9) ∧
      (shadowed.after (rebindings.take 2)).lookup? "x" = some (.int 3) := by
  obtain ⟨-, -, hcut, hmade⟩ := bindings_nest shadowed rebindings
  have hinner : shadowed.local? 2 = some ("x", .int 2) := rfl
  have houter : shadowed.local? 0 = some ("x", .int 1) := rfl
  have hfront : rebindings.take 2 <+: rebindings := List.take_prefix ..
  have hz : '.' ∉ "z".toList := by decide
  have hx : '.' ∉ "x".toList := by decide
  obtain ⟨v, hlast, hfound⟩ := ((hmade rebindings List.prefix_rfl).2 "z" hz).1 5 rfl
  obtain ⟨w, hlast', hfound'⟩ := ((hmade _ hfront).2 "x" hx).1 2 rfl
  obtain rfl : .int 11 = v := Option.some.inj hlast
  obtain rfl : .int 3 = w := Option.some.inj hlast'
  exact ⟨⟨hinner, hcut 2 "x" _ hinner⟩, ⟨houter, hcut 0 "x" _ houter⟩,
    ⟨List.prefix_rfl, hfound⟩, hfront, ((hmade _ hfront).2 "z" hz).2 rfl, hfound'⟩

end Stencil.Scope
