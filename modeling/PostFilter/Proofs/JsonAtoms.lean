import PostFilter.Proofs.Documents
import PostFilter.Snapshot.Codec

/-!
# Atoms behind brackets

Where a JSON text begins with some brackets and then with a text, a number or a word, the value that
is read has this atom behind its first brackets, whatever comes next. No snapshot is such a value
with two brackets at most, since it holds lists of records.
-/

namespace PostFilter

namespace Json

/-! ## Values that are read -/

/-- Neither an array nor an object. -/
def IsAtom : Json → Prop
  | .array _ | .object _ => False
  | _ => True

/-- Behind its first `k` brackets the value has an atom. -/
def AtomBehind : Nat → Json → Prop
  | 0, j => j.IsAtom
  | k + 1, .array (x :: _) => AtomBehind k x
  | _ + 1, _ => False

namespace Reader

/-- One of the open arrays begins with a value that puts an atom behind `k` brackets, whatever is
read from now on. -/
inductive Settled : Nat → List Frame → Prop
  | first {n m : Nat} {done : List Json} {x : Json} : AtomBehind m x →
      Settled (n + m + 1) (.array (done ++ [x]) :: List.replicate n (.array []))
  | above {k : Nat} {stack : List Frame} (frame : Frame) : Settled k stack →
      Settled k (frame :: stack)

/-- What has been read puts an atom behind the first `k` brackets. -/
def Commits (k : Nat) : State → Prop
  | .value stack | .arrayStart stack | .objectStart stack | .key _ stack | .colon _ _ stack =>
    Settled k stack
  | .after v stack => Settled k stack ∨
    ∃ n m, n + m = k ∧ stack = List.replicate n (.array []) ∧ AtomBehind m v

variable {k : Nat} {s s' : State} {stack : List Frame} {t : Token} {ts : List Token}

theorem commits_of_value? (h : Settled k stack) (hvalue : value? stack t = some s') :
    Commits k s' := by
  unfold value? at hvalue
  split at hvalue <;> cases hvalue
  · exact .inl h
  · exact .inl h
  · exact .inl h
  · exact h
  · exact h

/-- The array at the top of the stack goes on with another value. -/
theorem settled_comma {v : Json} {done : List Json}
    (h : Commits k (.after v (.array done :: stack))) :
    Settled k (.array (v :: done) :: stack) := by
  rcases h with h | ⟨n, m, rfl, hstack, hv⟩
  · cases h with
    | @first n m done x hx => exact @Settled.first n m (v :: done) x hx
    | above _ h => exact h.above _
  · obtain ⟨n, rfl⟩ : ∃ n', n = n' + 1 := by cases n <;> simp_all
    obtain ⟨⟨⟩, rfl⟩ := List.cons_eq_cons.mp (hstack.trans List.replicate_succ)
    rw [Nat.add_right_comm]
    exact @Settled.first n m [] v hv

/-- The array at the top of the stack ends. -/
theorem commits_close {v : Json} {done : List Json}
    (h : Commits k (.after v (.array done :: stack))) :
    Commits k (.after (.array (v :: done).reverse) stack) := by
  generalize hitems : v :: done = items
  have hsettled : Settled k (.array items :: stack) := hitems ▸ settled_comma h
  cases hsettled with
  | @first n m before x hx =>
    refine .inr ⟨n, m + 1, by omega, rfl, ?_⟩
    rw [List.reverse_append]
    exact hx
  | above _ h => exact .inl h

theorem Settled.of_object {done : List (Option String × Json)} {key : Option String}
    (h : Settled k (.object done key :: stack)) : Settled k stack := by
  cases h with
  | above _ h => exact h

theorem Commits.of_object {v : Json} {done : List (Option String × Json)} {key : Option String}
    (h : Commits k (.after v (.object done key :: stack))) : Settled k stack := by
  rcases h with h | ⟨n, m, -, hstack, -⟩
  · exact h.of_object
  · cases n <;> simp [List.replicate_succ] at hstack

/-- No token takes the atom back: what is open stays open below it, or is closed around it. -/
theorem commits_step (h : Commits k s) (hstep : step? s t = some s') : Commits k s' := by
  revert hstep
  fun_cases step? s t with
  | case1 stack t => exact commits_of_value? h
  | case3 stack t ht => exact commits_of_value? (h.above _)
  | case2 | case4 =>
    rintro ⟨⟩
    exact .inl h
  | case5 | case7 =>
    rintro ⟨⟩
    exact h
  | case9 done key stack =>
    rintro ⟨⟩
    exact h.above _
  | case11 v done stack =>
    rintro ⟨⟩
    exact settled_comma h
  | case12 v done stack =>
    rintro ⟨⟩
    exact commits_close h
  | case13 v done key stack =>
    rintro ⟨⟩
    exact h.of_object
  | case14 v done key stack =>
    rintro ⟨⟩
    exact .inl h.of_object
  | _ => exact nofun

theorem commits_run (h : Commits k s) (hrun : run? s ts = some s') :
    Commits k s' := by
  induction ts generalizing s with
  | nil =>
    cases hrun
    exact h
  | cons t ts ih =>
    unfold run? at hrun
    split at hrun
    · next s₁ hstep => exact ih (commits_step h hstep) hrun
    · cases hrun

/-- As a value on its own, the token is an atom. -/
def IsAtomToken (t : Token) : Prop :=
  t ≠ .closeArray ∧ ∀ stack s, value? stack t = some s → ∃ v, v.IsAtom ∧ s = .after v stack

theorem run?_openArray (n j : Nat) (ts : List Token) :
    run? (.arrayStart (List.replicate n (.array []))) (List.replicate j .openArray ++ ts) =
      run? (.arrayStart (List.replicate (n + j) (.array []))) ts := by
  induction j generalizing n with
  | zero => rfl
  | succ j ih =>
    rw [List.replicate_succ, List.cons_append, run?]
    change run? (.arrayStart (List.replicate (n + 1) (.array []))) _ = _
    rw [ih, Nat.add_assoc, Nat.add_comm 1]

theorem commits_of_isAtomToken {n : Nat} (ht : IsAtomToken t)
    (hvalue : value? (List.replicate n (.array [])) t = some s) : Commits n s := by
  obtain ⟨v, hv, rfl⟩ := ht.2 _ _ hvalue
  exact .inr ⟨n, 0, rfl, rfl, hv⟩

theorem step?_arrayStart (ht : t ≠ .closeArray) :
    step? (.arrayStart stack) t = value? (.array [] :: stack) t := by
  unfold step?
  split <;> simp_all

/-- Behind `k` brackets an atom is read. -/
theorem exists_commits (ht : IsAtomToken t)
    (h : run? (.value []) (List.replicate k .openArray ++ t :: ts) = some s) :
    ∃ s₁, Commits k s₁ ∧ run? s₁ ts = some s := by
  cases k with
  | zero =>
    rw [List.replicate_zero, List.nil_append, run?] at h
    split at h
    · next s₁ hstep => exact ⟨s₁, commits_of_isAtomToken ht hstep, h⟩
    · cases h
  | succ k =>
    have hopen := run?_openArray 0 k (t :: ts)
    rw [Nat.zero_add, run?, step?_arrayStart ht.1] at hopen
    have hrun := hopen.symm.trans h
    split at hrun
    · next s₁ hstep => exact ⟨s₁, commits_of_isAtomToken (n := k + 1) ht hstep, hrun⟩
    · cases hrun

/-- An atom behind some brackets is there in the value that is read. -/
theorem atomBehind_of_read? {j : Json} (ht : IsAtomToken t)
    (h : read? (List.replicate k .openArray ++ t :: ts) = some j) : AtomBehind k j := by
  unfold read? at h
  split at h
  · next v hrun =>
    cases h
    obtain ⟨s₁, hs₁, hrest⟩ := exists_commits ht hrun
    rcases commits_run hs₁ hrest with hsettled | ⟨n, m, rfl, hstack, hv⟩
    · cases hsettled
    · cases n with
      | zero => simpa using hv
      | succ n => simp [List.replicate_succ] at hstack
  · cases h

end Reader

/-! ## Tokens -/

namespace Lexer

open Reader (IsAtomToken)

variable {c : Char} {cs rest : List Char} {t : Token}

theorem isAtomToken_scalar {v : Json} (h : v.IsAtom) : IsAtomToken (.scalar v) := by
  refine ⟨nofun, ?_⟩
  rintro stack _ ⟨⟩
  exact ⟨v, h, rfl⟩

theorem isAtomToken_text (s : Option String) : IsAtomToken (.text s) := by
  refine ⟨nofun, ?_⟩
  cases s <;> rintro stack _ ⟨⟩
  · exact ⟨.meaningless, trivial, rfl⟩
  · exact ⟨.string _, trivial, rfl⟩

theorem isAtom_of_number? {v : Json} (h : number? cs = some (v, rest)) : v.IsAtom := by
  obtain ⟨⟨d, cs'⟩, -, heq⟩ := Option.map_eq_some_iff.mp h
  obtain ⟨rfl, -⟩ := Prod.mk.inj heq
  split <;> trivial

theorem isAtomToken_of_token? (hc : c ∉ ['[', ']', '{', '}', ',', ':'])
    (h : token? (c :: cs) = some (t, rest)) : IsAtomToken t := by
  generalize htext : c :: cs = text at h
  unfold token? at h
  split at h
  case h_7 =>
    obtain ⟨⟨ps, cs'⟩, -, ⟨⟩⟩ := Option.map_eq_some_iff.mp h
    exact isAtomToken_text _
  case h_11 =>
    obtain ⟨⟨v, cs'⟩, hnumber, ⟨⟩⟩ := Option.map_eq_some_iff.mp h
    exact isAtomToken_scalar (isAtom_of_number? hnumber)
  case h_8 | h_9 | h_10 =>
    cases h
    exact isAtomToken_scalar trivial
  all_goals simp_all

theorem tokens?_cons (hblank : isBlank c = false) (cs : List Char) :
    tokens? (c :: cs) =
      (token? (c :: cs)).bind fun r => (tokens? r.2).map (r.1 :: ·) := by
  rw [tokens?_eq_bind, List.dropWhile_cons_of_neg (by simp [hblank])]
  rfl

theorem tokens?_brackets (k : Nat) (cs : List Char) : tokens? (List.replicate k '[' ++ cs) =
    (tokens? cs).map (List.replicate k .openArray ++ ·) := by
  induction k with
  | zero => simp
  | succ k ih =>
    rw [List.replicate_succ, List.cons_append, tokens?_eq rfl rfl, ih, Option.map_map]
    rfl

end Lexer

/-! ## Snapshots -/

theorem slots?_of_isAtom {j : Json} (h : j.IsAtom) (names : List String) :
    slots? names j = none := by
  cases j with
  | array xs => exact h.elim
  | object fs => exact h.elim
  | _ => rfl

theorem listOf?_of_isAtom {α : Type} (decode : Json → Option α) {j : Json} (h : j.IsAtom) :
    listOf? decode j = none := by
  cases j with
  | array xs => exact h.elim
  | object fs => exact h.elim
  | _ => rfl

theorem ofJson?_array {x : Json} (hx : listOf? User.ofJson? x = none) (xs : List Json) :
    Snapshot.ofJson? (.array (x :: xs)) = none := by
  rw [Snapshot.ofJson?, slots?]
  split_ifs
  · simp only [List.map_cons, List.cons_append, Option.bind_eq_bind, Option.bind_some]
    split
    · next users posts tags heq =>
      obtain ⟨rfl, -⟩ := List.cons_eq_cons.mp heq
      simp [optionalSlot?, hx]
    · rfl
  · rfl

/-- The lists in a snapshot are lists of records, and these are not atoms. -/
theorem ofJson?_of_atomBehind {j : Json} {k : Nat} (h : AtomBehind k j) (hk : k ≤ 2) :
    Snapshot.ofJson? j = none := by
  match k, j, h with
  | 0, j, h => simp [Snapshot.ofJson?, slots?_of_isAtom h]
  | 1, .array (x :: xs), h => exact ofJson?_array (listOf?_of_isAtom _ h) xs
  | 2, .array (.array (x :: xs) :: ys), h =>
    have hx : User.ofJson? x = none := by simp [User.ofJson?, slots?_of_isAtom h]
    exact ofJson?_array (by simp [listOf?, hx]) ys

end Json

end PostFilter
