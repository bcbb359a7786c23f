import Mathlib.Data.Nat.Digits.Defs
import Stencil.Number.Reading

/-!
# The value of digits

The digits up to radix sixteen are told by their order, and the value of digits is the sum over their
places (`Number.positional`). The reader of integers finds this value if all the digits are below the
radix (`Number.readDigits_of_lt`), and nothing if one of them is not (`Number.readDigits_eq_none`),
however many they are. The digits that a number is written with have the number as their value
(`Number.positional_toDigits`), and so it is read back from them (`Number.readNat?_toDigits`).
-/

namespace Stencil.Number

/-- The digits in their order. -/
def allDigits : List Char :=
  ['0', '1', '2', '3', '4', '5', '6', '7', '8', '9', 'a', 'b', 'c', 'd', 'e', 'f']

/-- The value of a digit, small or capital. What is no digit has the value sixteen. -/
def digitOf (c : Char) : Nat :=
  allDigits.idxOf c.toLower

/-- The value of digits by their places, the last of which counts one. -/
def positional (radix : Nat) (cs : List Char) : Nat :=
  Nat.ofDigits radix (cs.map digitOf).reverse

/-! ### One digit -/

theorem not_le_of_ascii {c d : Char} (hc : 123 ≤ c.toNat) (hd : d.toNat < 123) : ¬ c ≤ d := by
  intro hle
  have hle : c.toNat ≤ d.toNat := hle
  omega

/-- Behind the letters of ASCII there are no digits. -/
theorem digitOf_of_le {c : Char} (hc : 123 ≤ c.toNat) : digitOf c = 16 := by
  have hcapital : ¬ ('A' ≤ c ∧ c ≤ 'Z') := fun h => not_le_of_ascii hc (by decide) h.2
  have hlower : c.toLower = c := dif_neg hcapital
  have hmem : c ∉ allDigits := by
    have hall : allDigits.all (fun d => d.toNat < 123) = true := by decide
    intro hmem
    have hlt := of_decide_eq_true (List.all_eq_true.mp hall c hmem)
    omega
  rw [digitOf, hlower, List.idxOf_eq_length hmem]
  rfl

theorem digitValue?_sixteen (c : Char) :
    digitValue? 16 c = (some (digitOf c)).filter (· < 16) := by
  by_cases hc : c.toNat < 123
  · have hascii : ∀ n < 123, digitValue? 16 (Char.ofNat n) =
        (some (digitOf (Char.ofNat n))).filter (· < 16) := by decide +kernel
    have hc := hascii c.toNat hc
    rwa [Char.ofNat_toNat] at hc
  · have hc : 123 ≤ c.toNat := Nat.le_of_not_lt hc
    have hdigit : ¬ c.isDigit = true := fun h =>
      not_le_of_ascii hc (d := '9') (by decide) (Char.isDigit_iff_toNat.mp h).2
    have hsmall : ¬ c ≤ 'z' := not_le_of_ascii hc (by decide)
    have hcapital : ¬ c ≤ 'Z' := not_le_of_ascii hc (by decide)
    rw [digitOf_of_le hc]
    simp [digitValue?, hdigit, hsmall, hcapital, Option.filter_some]

variable {radix : Nat}

/-- **The reader knows the digits below its radix**, and no others. -/
theorem digitValue?_eq (hradix : radix ≤ 16) (c : Char) :
    digitValue? radix c = (some (digitOf c)).filter (· < radix) := by
  have hsmaller : digitValue? radix c = (digitValue? 16 c).filter (· < radix) := by
    rw [digitValue?, digitValue?, Option.filter_filter]
    congr 1
    funext v
    grind
  rw [hsmaller, digitValue?_sixteen, Option.filter_filter]
  congr 1
  funext v
  grind

/-! ### Digits in their places -/

theorem positional_cons (radix : Nat) (c : Char) (cs : List Char) :
    positional radix (c :: cs) = digitOf c * radix ^ cs.length + positional radix cs := by
  rw [positional, List.map_cons, Nat.ofDigits_reverse_cons, List.length_map, positional]
  ring

theorem positional_concat (radix : Nat) (cs : List Char) (c : Char) :
    positional radix (cs ++ [c]) = positional radix cs * radix + digitOf c := by
  rw [positional, List.map_append, List.map_singleton, List.reverse_concat, Nat.ofDigits_cons,
    positional]
  ring

/-- Digits below the radix are read as their value, behind digits of another value. -/
theorem readDigits_of_lt (hradix : radix ≤ 16) {cs : List Char} (hcs : ∀ c ∈ cs, digitOf c < radix)
    (before : Nat) :
    readDigits radix before cs = some (before * radix ^ cs.length + positional radix cs) := by
  induction cs generalizing before with
  | nil => simp [readDigits, positional]
  | cons c cs ih =>
    rw [List.forall_mem_cons] at hcs
    have hdigit : digitValue? radix c = some (digitOf c) := by
      rw [digitValue?_eq hradix, Option.filter_some, if_pos (by simpa using hcs.1)]
    have hrest := ih hcs.2 (before * radix + digitOf c)
    rw [readDigits, hdigit]
    refine hrest.trans (congrArg some ?_)
    rw [positional_cons, List.length_cons]
    ring

/-- One digit that the radix does not have is enough to read nothing. -/
theorem readDigits_eq_none (hradix : radix ≤ 16) {cs : List Char}
    (hcs : ∃ c ∈ cs, radix ≤ digitOf c) (before : Nat) : readDigits radix before cs = none := by
  obtain ⟨c, hc, hle⟩ := hcs
  induction cs generalizing before with
  | nil => cases hc
  | cons d cs ih =>
    rw [readDigits, digitValue?_eq hradix, Option.filter_some]
    rcases List.mem_cons.mp hc with rfl | hc
    · rw [if_neg (by simpa using hle)]
      rfl
    · split
      · exact ih _ hc
      · rfl

/-- **Digits are read as their value, or not at all**: there must be one, and the radix must have
each of them. -/
theorem readNat?_eq (hradix : radix ≤ 16) (cs : List Char) :
    readNat? radix cs =
      if cs ≠ [] ∧ cs.all (digitOf · < radix) then some (positional radix cs) else none := by
  rcases cs with _ | ⟨c, cs⟩
  · simp [readNat?]
  · rw [readNat?]
    split
    next h =>
      have hdigits : ∀ d ∈ c :: cs, digitOf d < radix := by simpa using h.2
      rw [readDigits_of_lt hradix hdigits, Nat.zero_mul, Nat.zero_add]
    next h =>
      refine readDigits_eq_none hradix ?_ 0
      by_contra hnone
      exact h ⟨by simp, by simpa using hnone⟩

/-! ### Writing a number -/

theorem digitOf_digitChar {d : Nat} (hd : d < 16) : digitOf d.digitChar = d := by
  have hdigits : ∀ d < 16, digitOf (Nat.digitChar d) = d := by decide
  exact hdigits d hd

section Writing

variable (hradix : 1 < radix) (n : Nat)

include hradix

/-- A number is written with digits of the radix. -/
theorem exists_digitChar {c : Char} (hc : c ∈ Nat.toDigits radix n) :
    ∃ d < radix, c = d.digitChar := by
  induction n using Nat.strongRecOn with
  | ind n ih =>
    by_cases hlt : n < radix
    · rw [Nat.toDigits_of_lt_base hlt, List.mem_singleton] at hc
      exact ⟨n, hlt, hc⟩
    · have hle : radix ≤ n := Nat.le_of_not_lt hlt
      rw [Nat.toDigits_of_base_le hradix hle, List.mem_append, List.mem_singleton] at hc
      rcases hc with hc | hc
      · exact ih (n / radix) (Nat.div_lt_self (by omega) hradix) hc
      · exact ⟨n % radix, Nat.mod_lt n (by omega), hc⟩

/-- **The digits that a number is written with have it as their value.** -/
theorem positional_toDigits (hle : radix ≤ 16) : positional radix (Nat.toDigits radix n) = n := by
  induction n using Nat.strongRecOn with
  | ind n ih =>
    have hlast : n % radix < 16 := Nat.lt_of_lt_of_le (Nat.mod_lt n (by omega)) hle
    by_cases hlt : n < radix
    · have hdigit := digitOf_digitChar (Nat.lt_of_lt_of_le hlt hle)
      rw [Nat.toDigits_of_lt_base hlt, positional, List.map_singleton, hdigit]
      simp
    · have hle : radix ≤ n := Nat.le_of_not_lt hlt
      rw [Nat.toDigits_of_base_le hradix hle, positional_concat, digitOf_digitChar hlast,
        ih (n / radix) (Nat.div_lt_self (by omega) hradix)]
      exact Nat.div_add_mod' n radix

variable (hle : radix ≤ 16)

include hle

theorem all_toDigits : (Nat.toDigits radix n).all (digitOf · < radix) = true := by
  rw [List.all_eq_true]
  intro c hc
  obtain ⟨d, hd, rfl⟩ := exists_digitChar hradix n hc
  rwa [decide_eq_true_eq, digitOf_digitChar (Nat.lt_of_lt_of_le hd hle)]

/-- A number is read back from its digits. -/
theorem readNat?_toDigits : readNat? radix (Nat.toDigits radix n) = some n := by
  rw [readNat?_eq hle, if_pos ⟨Nat.toDigits_ne_nil, all_toDigits hradix n hle⟩,
    positional_toDigits hradix n hle]

end Writing

end Stencil.Number
