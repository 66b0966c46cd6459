import Mathlib
import PostFilter.Json.Reader

/-!
# Counts are read back

The literal of a count is cut off where its digits end, provided that nothing comes next with which
a number could go on. It is then within the range of a double, as long as it has no more than two
hundred digits.
-/

namespace PostFilter.Json

/-! ## Range -/

theorem roundToDouble_le (n : Nat) : roundToDouble n ≤ 2 * n := by
  rcases Nat.eq_zero_or_pos n with rfl | hn
  · decide
  have hunit : Nat.pow 2 (n.log2 - 52) ≤ n := by
    calc 2 ^ (n.log2 - 52) ≤ 2 ^ n.log2 := Nat.pow_le_pow_right (by decide) (Nat.sub_le ..)
      _ ≤ n := Nat.log2_self_le (Nat.pos_iff_ne_zero.mp hn)
  have hbelow := Nat.div_mul_le_self n (Nat.pow 2 (n.log2 - 52))
  simp only [roundToDouble]
  split
  · rw [Nat.add_mul]
    omega
  · omega

theorem isSome_multiplyDoubles? {a b : Nat} (h : 2 * (a * b) < Nat.pow 2 1024) :
    (multiplyDoubles? a b).isSome = true := by
  have hlt : roundToDouble (a * b) < Nat.pow 2 1024 := (roundToDouble_le _).trans_lt h
  simp only [multiplyDoubles?]
  split
  · rfl
  · next hge => exact absurd hlt hge

namespace Scaled

theorem appendDigits_le {n : Nat} (hn : n ≤ maxSignificand) (ds : List Char) :
    (appendDigits n ds).1 ≤ maxSignificand ∧ (appendDigits n ds).2 ≤ ds.length := by
  induction ds generalizing n with
  | nil => simpa [appendDigits] using hn
  | cons d ds ih =>
    simp only [appendDigits]
    split
    · next h =>
      have := ih h
      exact ⟨this.1, by simp; omega⟩
    · simpa using hn

/-- The two factors stay below what a double can hold. -/
theorem isFinite_of_le {x : Scaled} (hs : x.significand ≤ maxSignificand) (he : x.exponent ≤ 200) :
    x.isFinite = true := by
  unfold isFinite
  split
  · rfl
  split
  · next h => simp [maxExponent] at h; omega
  have hexponent : 10 ^ x.exponent.toNat ≤ 10 ^ 200 :=
    Nat.pow_le_pow_right (by decide) (by omega)
  have hproduct : roundToDouble x.significand * roundToDouble (10 ^ x.exponent.toNat) ≤
      (2 * maxSignificand) * (2 * 10 ^ 200) :=
    Nat.mul_le_mul ((roundToDouble_le _).trans (by omega)) ((roundToDouble_le _).trans (by omega))
  refine isSome_multiplyDoubles? ?_
  calc _ ≤ 2 * ((2 * maxSignificand) * (2 * 10 ^ 200)) := Nat.mul_le_mul_left 2 hproduct
    _ < Nat.pow 2 1024 := by decide +kernel

/-- A whole number of up to two hundred digits is within the range of a double. -/
theorem isFinite_ofDecimal {ds : List Char} (h : ds.length ≤ 200) :
    (ofDecimal ⟨ds, [], 0⟩).isFinite = true := by
  obtain ⟨hs, hrest⟩ := appendDigits_le (Nat.zero_le maxSignificand) ds
  refine isFinite_of_le (by simpa [ofDecimal, appendDigits] using hs) ?_
  simp [ofDecimal, appendDigits]
  omega

end Scaled

/-! ## Literals -/

namespace Lexer

/-- A number in front of the text does not run on into it. -/
def EndsNumber (cs : List Char) : Prop :=
  ∀ c ∈ cs.head?, c.isDigit = false ∧ c ≠ '.' ∧ c ≠ 'e' ∧ c ≠ 'E'

section

variable {ds rest : List Char} {n : Nat}

theorem digits?_append (hds : ∀ d ∈ ds, d.isDigit = true) (hne : ds ≠ [])
    (hrest : EndsNumber rest) : digits? (ds ++ rest) = some (ds, rest) := by
  have htake : rest.takeWhile Char.isDigit = [] := by
    cases rest with
    | nil => rfl
    | cons c cs => simp [(hrest c rfl).1]
  have hdrop : rest.dropWhile Char.isDigit = rest := by
    cases rest with
    | nil => rfl
    | cons c cs => simp [(hrest c rfl).1]
  simp only [digits?, List.takeWhile_append_of_pos hds, List.dropWhile_append_of_pos hds, htake,
    hdrop, List.append_nil]

theorem exists_toDigits (n : Nat) :
    ∃ d ds, Nat.toDigits 10 n = d :: ds ∧ d.isDigit = true := by
  obtain ⟨d, ds, hds⟩ := List.exists_cons_of_ne_nil (Nat.toDigits_ne_nil (b := 10) (n := n))
  refine ⟨d, ds, hds, ?_⟩
  exact Nat.isDigit_of_mem_toDigits (b := 10) (n := n) (by decide) (by decide) (by simp [hds])

/-- Only zero begins with a zero. -/
theorem head?_toDigits (hn : n ≠ 0) : (Nat.toDigits 10 n).head? ≠ some '0' := by
  induction n using Nat.strongRecOn with
  | _ n ih =>
    rcases Nat.lt_or_ge n 10 with hlt | hge
    · rw [Nat.toDigits_of_lt_base hlt]
      revert hn
      clear ih
      decide +revert
    · -- The head is that of the number without its last digit, which is not zero either.
      rw [Nat.toDigits_of_base_le (by decide) hge,
        List.head?_append_of_ne_nil _ Nat.toDigits_ne_nil]
      exact ih (n / 10) (by omega) (by omega)

theorem whole?_toDigits (n : Nat) (hrest : EndsNumber rest) :
    whole? (Nat.toDigits 10 n ++ rest) = some (Nat.toDigits 10 n, rest) := by
  rcases eq_or_ne n 0 with rfl | hn
  · rfl
  have hdigit : ∀ d ∈ Nat.toDigits 10 n, d.isDigit = true := fun d hd =>
    Nat.isDigit_of_mem_toDigits (by decide) (by decide) hd
  rw [whole?, digits?_append hdigit Nat.toDigits_ne_nil hrest]
  intro cs hcs
  refine head?_toDigits hn ?_
  rw [← List.head?_append_of_ne_nil _ Nat.toDigits_ne_nil, hcs]
  rfl

theorem fraction?_of_endsNumber (hrest : EndsNumber rest) : fraction? rest = some ([], rest) := by
  rw [fraction?]
  rintro cs rfl
  exact (hrest '.' rfl).2.1 rfl

theorem exponent?_of_endsNumber (hrest : EndsNumber rest) : exponent? rest = some (0, rest) := by
  cases rest with
  | nil => rfl
  | cons c cs => simp [exponent?, hrest c rfl]

theorem number?_toDigits (h : n < 10 ^ 200) (hrest : EndsNumber rest) :
    number? (Nat.toDigits 10 n ++ rest) = some (.nat n, rest) := by
  have hfinite : (Scaled.ofDecimal ⟨Nat.toDigits 10 n, [], 0⟩).isFinite = true :=
    Scaled.isFinite_ofDecimal ((Nat.length_toDigits_le_iff (by decide) (by decide)).mpr h)
  have hunsigned : unsigned? (Nat.toDigits 10 n ++ rest) =
      some (⟨Nat.toDigits 10 n, [], 0⟩, rest) := by
    simp [unsigned?, whole?_toDigits n hrest, fraction?_of_endsNumber hrest,
      exponent?_of_endsNumber hrest]
  have hsign : ∀ cs, Nat.toDigits 10 n ++ rest ≠ '-' :: cs := by
    intro cs hcs
    obtain ⟨d, ds, hds, hd⟩ := exists_toDigits n
    obtain rfl : d = '-' := by simpa [hds] using congrArg List.head? hcs
    exact absurd hd (by decide)
  rw [number?]
  · simp [hunsigned, hfinite, nat, Nat.repr_eq_ofList_toDigits]
  · exact hsign

theorem token?_digit {d : Char} (hd : d.isDigit = true) (cs : List Char) :
    token? (d :: cs) = (number? (d :: cs)).map fun r => (.scalar r.1, r.2) := by
  unfold token?
  split
  case h_11 => rfl
  all_goals
    next heq =>
      obtain rfl := (List.cons.inj heq).1
      exact absurd hd (by decide)

theorem token?_nat (h : n < 10 ^ 200) (hrest : EndsNumber rest) :
    token? ((toString n).toList ++ rest) = some (.scalar (.nat n), rest) := by
  obtain ⟨d, ds, hds, hd⟩ := exists_toDigits n
  rw [Nat.toString_eq_repr, Nat.toList_repr]
  rw [hds, List.cons_append, token?_digit hd, ← List.cons_append, ← hds,
    number?_toDigits h hrest, Option.map_some]

end

end Lexer

end PostFilter.Json
