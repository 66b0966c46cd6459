import Mathlib
import PostFilter.Toml.Blank

/-!
# What TOML readers take

Each reader that takes something is followed back to what stood at the front of the text.
-/

namespace PostFilter.Toml.Reader

variable {α β : Type} {cs rest : List Char}

theorem bind_eq_some {r : Reader α} {f : α → Reader β} {b : β} :
    (r >>= f) cs = some (b, rest) ↔ ∃ a cs', r cs = some (a, cs') ∧ f a cs' = some (b, rest) := by
  change ((r cs).bind fun x => f x.1 x.2) = _ ↔ _
  rw [Option.bind_eq_some_iff, Prod.exists]

theorem orElse_eq_some {r r' : Reader α} {a : α} (h : (r <|> r') cs = some (a, rest)) :
    r cs = some (a, rest) ∨ r' cs = some (a, rest) := by
  change (r cs <|> r' cs) = _ at h
  cases hr : r cs with
  | none => exact .inr (by simpa [hr] using h)
  | some x => exact .inl (by simpa [hr] using h)

theorem one_eq_some {ok : Char → Bool} {c : Char} (h : one ok cs = some (c, rest)) :
    cs = c :: rest ∧ ok c = true := by
  unfold one at h
  split at h
  · cases h
  · split_ifs at h with hok
    cases h
    exact ⟨rfl, hok⟩

theorem discard_eq_some {r : Reader α} {u : Unit} (h : discard r cs = some (u, rest)) :
    ∃ a, r cs = some (a, rest) := by
  change ((r cs).bind fun x => some ((), x.2)) = _ at h
  obtain ⟨⟨a, rest'⟩, hr, hrest⟩ := Option.bind_eq_some_iff.mp h
  cases hrest
  exact ⟨a, hr⟩

theorem char_eq_some {c : Char} {u : Unit} (h : char c cs = some (u, rest)) : cs = c :: rest := by
  obtain ⟨d, hone⟩ := discard_eq_some h
  obtain ⟨rfl, hd⟩ := one_eq_some hone
  rw [beq_iff_eq.mp hd]

theorem next?_eq_some {o : Option Char} (h : next? cs = some (o, rest)) : rest = cs := by
  cases h
  rfl

theorem blanks_eq_some {u : Unit} (h : blanks cs = some (u, rest)) :
    rest = cs.dropWhile isBlank := by
  obtain ⟨ds, hrun⟩ := discard_eq_some h
  cases hrun
  rfl

theorem chars_cons_eq_some {c : Char} {ds : List Char} {u : Unit}
    (h : chars (c :: ds) cs = some (u, rest)) :
    ∃ cs', cs = c :: cs' ∧ chars ds cs' = some (u, rest) := by
  obtain ⟨v, cs', hc, h⟩ := bind_eq_some.mp h
  exact ⟨cs', char_eq_some hc, h⟩

theorem optional_eq_some {r : Reader α} {o : Option α} (h : optional r cs = some (o, rest)) :
    (∃ a, o = some a ∧ r cs = some (a, rest)) ∨ (o = none ∧ rest = cs) := by
  unfold optional at h
  split at h
  · next a cs' hr =>
    cases h
    exact .inl ⟨a, rfl, hr⟩
  · cases h
    exact .inr ⟨rfl, rfl⟩

theorem newline_eq_some {u : Unit} (h : newline cs = some (u, rest)) :
    cs = '\n' :: rest ∨ cs = '\r' :: '\n' :: rest := by
  rcases orElse_eq_some h with h | h
  · exact .inl (char_eq_some h)
  · obtain ⟨cs₁, rfl, h₁⟩ := chars_cons_eq_some h
    obtain ⟨cs₂, rfl, h₂⟩ := chars_cons_eq_some h₁
    cases h₂
    exact .inr rfl

theorem atEnd_eq_some {u : Unit} (h : atEnd cs = some (u, rest)) : cs = [] := by
  cases cs with
  | nil => rfl
  | cons c cs => cases h

end PostFilter.Toml.Reader
