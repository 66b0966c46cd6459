import Mathlib
import PostFilter.Post.Id

/-!
# Identifiers

A text is read as an identifier exactly if it is twenty-four hexadecimal digits of either case.
Identifiers are in a linear order.
-/

namespace PostFilter

namespace Hex

def IsDigit (c : Char) : Prop :=
  '0' ≤ c ∧ c ≤ '9' ∨ 'a' ≤ c ∧ c ≤ 'f' ∨ 'A' ≤ c ∧ c ≤ 'F'

theorem exists_value?_iff {c : Char} : (∃ n, value? c = some n) ↔ IsDigit c := by
  unfold value? IsDigit
  split_ifs <;> simp [*]

/-- Every byte takes two digits. -/
theorem digits_of_bytes? {cs : List Char} {bs : List UInt8} (h : bytes? cs = some bs) :
    cs.length = 2 * bs.length ∧ ∀ c ∈ cs, IsDigit c := by
  fun_induction bytes? cs generalizing bs with
  | case1 =>
    cases h
    simp
  | case2 c => cases h
  | case3 a b cs x y bs' hcs hb ha ih =>
    cases h
    obtain ⟨hlength, hall⟩ := ih hcs
    refine ⟨by simp [hlength, Nat.mul_add], ?_⟩
    exact List.forall_mem_cons.mpr ⟨exists_value?_iff.mp ⟨_, ha⟩,
      List.forall_mem_cons.mpr ⟨exists_value?_iff.mp ⟨_, hb⟩, hall⟩⟩
  | case4 a b cs hnone => cases h

theorem digits_chars (bs : List UInt8) :
    (chars bs).length = 2 * bs.length ∧ ∀ c ∈ chars bs, IsDigit c :=
  digits_of_bytes? (bytes?_chars bs)

theorem exists_bytes? {cs : List Char} {n : Nat} (hlength : cs.length = 2 * n)
    (h : ∀ c ∈ cs, IsDigit c) : ∃ bs, bytes? cs = some bs := by
  fun_induction bytes? cs generalizing n with
  | case1 => exact ⟨[], rfl⟩
  | case2 c =>
    simp only [List.length_singleton] at hlength
    omega
  | case3 a b cs x y bs hcs hb ha ih => exact ⟨_, rfl⟩
  | case4 a b cs hnone ih =>
    simp only [List.forall_mem_cons] at h
    obtain ⟨x, hx⟩ := exists_value?_iff.mpr h.1
    obtain ⟨y, hy⟩ := exists_value?_iff.mpr h.2.1
    have hrest : cs.length = 2 * (n - 1) := by
      simp only [List.length_cons] at hlength
      omega
    obtain ⟨bs, hbs⟩ := ih hrest h.2.2
    exact absurd hbs (hnone x y bs hx hy)

end Hex

namespace PostId

/-- The text stands for an identifier. -/
def IsText (s : String) : Prop :=
  s.toList.length = 24 ∧ ∀ c ∈ s.toList, Hex.IsDigit c

theorem isText_iff {s : String} : IsText s ↔ ∃ x, ofHex? s = some x := by
  constructor
  · rintro ⟨hlength, hall⟩
    obtain ⟨bs, hbs⟩ := Hex.exists_bytes? (n := 12) hlength hall
    obtain ⟨hdigits, -⟩ := Hex.digits_of_bytes? hbs
    have hbytes : bs.length = 12 := by omega
    exact ⟨⟨bs, hbytes⟩, by simp [ofHex?, hbs, hbytes]⟩
  · rintro ⟨x, hx⟩
    unfold ofHex? at hx
    split at hx
    · cases hx
    · next bs hbs =>
      split at hx
      · next hbytes =>
        obtain ⟨hlength, hall⟩ := Hex.digits_of_bytes? hbs
        exact ⟨by omega, hall⟩
      · cases hx

/-! ## Order -/

instance : Std.Trichotomous (α := PostId) (· < ·) where
  trichotomous _ _ h h' := by_contra fun hne => h' (lt_of_not_lt h hne)

instance : IsStrictTotalOrder PostId (· < ·) where
  irrefl := lt_irrefl
  trans _ _ _ := lt_trans

instance : LinearOrder PostId := linearOrderOfSTO (· < ·)

end PostId

end PostFilter
