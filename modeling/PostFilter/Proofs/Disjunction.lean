import PostFilter.Proofs.Algebra
import PostFilter.Proofs.Parsing

/-!
# Disjunctions of authors

Trees are joined with their neighbours level by level until one is left. What holds of a level as a
whole and is kept when neighbours are joined therefore holds of the tree at the end: it makes the
lookups of all trees in their order, and it matches what one of them matches. A level has half as
many trees as the one before it, so the depth grows with the logarithm of their number only, and the
filter text of the tree can be read back.
-/

namespace PostFilter

namespace Expr

variable {e : Expr} {es : List Expr} {us : List String}

/-! ## Levels -/

theorem length_pairUp (es : List Expr) : (pairUp es).length = (es.length + 1) / 2 := by
  fun_induction pairUp es with
  | case1 a b es ih =>
    simp only [List.length_cons, ih]
    omega
  | case2 es hshort =>
    rcases es with _ | ⟨a, _ | ⟨b, es⟩⟩
    · rfl
    · simp
    · exact absurd rfl (hshort a b es)

theorem exists_disjunction? (h : es ≠ []) : ∃ e, disjunction? es = some e := by
  fun_induction disjunction? es with
  | case1 => exact absurd rfl h
  | case2 e => exact ⟨e, rfl⟩
  | case3 a b es ih => exact ih (by simp)

/-- What joining neighbours preserves holds of the one tree that is left. -/
theorem disjunction?_invariant {P : List Expr → Prop} (hpair : ∀ es, P es → P (pairUp es))
    (h : disjunction? es = some e) (hes : P es) : P [e] := by
  fun_induction disjunction? es with
  | case1 => cases h
  | case2 e' =>
    cases h
    exact hes
  | case3 a b es ih => exact ih h (hpair (a :: b :: es) hes)

theorem flatMap_pairUp {α : Type} {f : Expr → List α} (hf : ∀ a b, f (or a b) = f a ++ f b)
    (es : List Expr) : (pairUp es).flatMap f = es.flatMap f := by
  fun_induction pairUp es with
  | case1 a b es ih => simp [hf, ih]
  | case2 es _ => rfl

/-- What is collected along a tree is collected along all trees of the first level. -/
theorem flatMap_disjunction? {α : Type} {f : Expr → List α}
    (hf : ∀ a b, f (or a b) = f a ++ f b) (h : disjunction? es = some e) : f e = es.flatMap f := by
  have hlevel := disjunction?_invariant (P := fun es' => es'.flatMap f = es.flatMap f)
    (fun es' h => (flatMap_pairUp hf es').trans h) h rfl
  simpa using hlevel

theorem matches_pairUp {brings : Lookup → Prop} (es : List Expr) :
    (∃ e ∈ pairUp es, e.Matches brings) ↔ ∃ e ∈ es, e.Matches brings := by
  fun_induction pairUp es with
  | case1 a b es ih => simp [Matches, ih, or_assoc]
  | case2 es _ => rfl

theorem matches_disjunction? {brings : Lookup → Prop} (h : disjunction? es = some e) :
    e.Matches brings ↔ ∃ a ∈ es, a.Matches brings := by
  have hlevel := disjunction?_invariant
    (P := fun es' => (∃ a ∈ es', a.Matches brings) ↔ ∃ a ∈ es, a.Matches brings)
    (fun es' h => (matches_pairUp es').trans h) h Iff.rfl
  simpa using hlevel

theorem namesValid_pairUp (es : List Expr) :
    (∀ a ∈ pairUp es, a.NamesValid) ↔ ∀ a ∈ es, a.NamesValid := by
  fun_induction pairUp es with
  | case1 a b es ih => simp [NamesValid, ih, and_assoc]
  | case2 es _ => rfl

theorem namesValid_disjunction? (h : disjunction? es = some e) :
    e.NamesValid ↔ ∀ a ∈ es, a.NamesValid := by
  have hlevel := disjunction?_invariant
    (P := fun es' => (∀ a ∈ es', a.NamesValid) ↔ ∀ a ∈ es, a.NamesValid)
    (fun es' h => (namesValid_pairUp es').trans h) h Iff.rfl
  simpa using hlevel

/-- Only authors are joined, and only by `or`. -/
def JoinsAuthors : Expr → Prop
  | author _ => True
  | or a b => a.JoinsAuthors ∧ b.JoinsAuthors
  | tag _ | not _ | and _ _ => False

theorem joinsAuthors_pairUp (h : ∀ a ∈ es, a.JoinsAuthors) : ∀ a ∈ pairUp es, a.JoinsAuthors := by
  fun_induction pairUp es with
  | case1 a b es ih =>
    simp only [List.forall_mem_cons] at h ⊢
    exact ⟨⟨h.1, h.2.1⟩, ih h.2.2⟩
  | case2 es _ => exact h

/-! ## Rounds -/

/-- Pairing up halves the number of rounds that are left. -/
theorem clog_pairUp (n : Nat) : Nat.clog 2 (n + 2) = Nat.clog 2 ((n + 1) / 2 + 1) + 1 := by
  rw [Nat.clog_of_two_le (by omega) (by omega)]
  congr 2
  omega

/-- There are as many rounds as the number of trees can be halved. Before the last of them more than
one tree is left, and after it exactly one. -/
theorem iterate_pairUp (h : disjunction? es = some e) :
    pairUp^[Nat.clog 2 es.length] es = [e] ∧
      ∀ k < Nat.clog 2 es.length, 1 < (pairUp^[k] es).length := by
  fun_induction disjunction? es with
  | case1 => cases h
  | case2 e' =>
    cases h
    simp
  | case3 a b es ih =>
    obtain ⟨hlast, hbefore⟩ := ih h
    have hround : Nat.clog 2 (a :: b :: es).length =
        Nat.clog 2 (or a b :: pairUp es).length + 1 := by
      simpa [length_pairUp] using clog_pairUp es.length
    rw [hround]
    refine ⟨hlast, fun k hk => ?_⟩
    cases k with
    | zero => simp
    | succ k => exact hbefore k (by omega)

/-! ## Depth -/

theorem depth_pairUp_le {d : Nat} (h : ∀ a ∈ es, a.depth ≤ d) :
    ∀ a ∈ pairUp es, a.depth ≤ d + 1 := by
  fun_induction pairUp es with
  | case1 a b es ih =>
    simp only [List.forall_mem_cons] at h ⊢
    exact ⟨Nat.succ_le_succ (Nat.max_le.mpr ⟨h.1, h.2.1⟩), ih h.2.2⟩
  | case2 es _ => exact fun a ha => Nat.le_succ_of_le (h a ha)

/-- The leftmost tree of a level is as deep as any. It gains one operator with each level, and there
are as many levels as the number of trees can be halved. -/
theorem depth_disjunction? {a : Expr} (h : disjunction? (a :: es) = some e)
    (hes : ∀ b ∈ es, b.depth ≤ a.depth) : e.depth = a.depth + Nat.clog 2 (es.length + 1) := by
  generalize hlevel : a :: es = level at h
  fun_induction disjunction? level generalizing a es with
  | case1 => cases h
  | case2 e' =>
    cases hlevel
    cases h
    simp
  | case3 b c level ih =>
    cases hlevel
    simp only [List.forall_mem_cons] at hes
    -- The first tree of a level is never less deep than the others, and stays so when paired up.
    have hor : (or b c).depth = b.depth + 1 := by simp [depth, hes.1]
    rw [ih (fun d hd => hor ▸ depth_pairUp_le hes.2 d hd) rfl h, hor, length_pairUp]
    rw [List.length_cons, clog_pairUp]
    omega

/-! ## Authors -/

theorem exists_anyAuthor? (h : us ≠ []) : ∃ e, anyAuthor? us = some e :=
  exists_disjunction? (by simpa using h)

theorem lookups_anyAuthor? (h : anyAuthor? us = some e) : e.lookups = us.map .author := by
  rw [flatMap_disjunction? (f := lookups) (fun _ _ => rfl) h, List.flatMap_map]
  simp [lookups, ← List.map_eq_flatMap]

theorem leaves_anyAuthor? (h : anyAuthor? us = some e) : e.leaves = us.map .author := by
  rw [flatMap_disjunction? (f := leaves) (fun _ _ => rfl) h, List.flatMap_map]
  simp [leaves, ← List.map_eq_flatMap]

theorem joinsAuthors_anyAuthor? (h : anyAuthor? us = some e) : e.JoinsAuthors := by
  have hlevel := disjunction?_invariant (P := fun es => ∀ a ∈ es, a.JoinsAuthors)
    (fun _ => joinsAuthors_pairUp) h (by simp [JoinsAuthors])
  simpa using hlevel

theorem matches_anyAuthor? {brings : Lookup → Prop} (h : anyAuthor? us = some e) :
    e.Matches brings ↔ ∃ u ∈ us, brings (.author u) := by
  rw [matches_disjunction? h]
  simp [Matches]

theorem namesValid_anyAuthor? (h : anyAuthor? us = some e) :
    e.NamesValid ↔ ∀ u ∈ us, isName u = true := by
  rw [namesValid_disjunction? h]
  simp [NamesValid]

theorem depth_anyAuthor? (h : anyAuthor? us = some e) : e.depth = Nat.clog 2 us.length := by
  cases us with
  | nil => simp [anyAuthor?, disjunction?] at h
  | cons u us =>
    have hdepth := depth_disjunction? h (by simp [depth])
    simpa [depth] using hdepth

end Expr

/-- The filter for the posts of any of some authors is read back, whatever its shape, as long as the
nesting allows for so many authors. -/
theorem parse_anyAuthor? {us : List String} {e : Expr} (he : Expr.anyAuthor? us = some e)
    (hus : ∀ u ∈ us, isName u = true) (hlength : us.length ≤ 2 ^ Parser.maxDepth) :
    parse e.filterText = .ok e := by
  refine parse_filterText ((Expr.namesValid_anyAuthor? he).mpr hus) ?_
  rw [Expr.depth_anyAuthor? he]
  exact Nat.clog_le_of_le_pow hlength

/-- Authors are joined to a balanced tree that loses none of them. Neighbours are paired up until
one tree is left, in as many rounds as the logarithm of the number of authors, and there is no tree
only for no authors. The tree keeps their order and repetitions, and each round makes it one
operator deeper, so its filter text is read back even for very many names. -/
theorem anyAuthor?_balanced (us : List String) :
    (Expr.anyAuthor? us = none ↔ us = []) ∧
    ∀ e, Expr.anyAuthor? us = some e →
      (Expr.pairUp^[Nat.clog 2 us.length] (us.map .author) = [e] ∧
        ∀ k < Nat.clog 2 us.length, 1 < (Expr.pairUp^[k] (us.map .author)).length) ∧
      e.JoinsAuthors ∧ e.leaves = us.map .author ∧ e.depth = Nat.clog 2 us.length ∧
      ((∀ u ∈ us, isName u = true) → us.length ≤ 2 ^ 128 → parse e.filterText = .ok e) := by
  refine ⟨⟨fun h => ?_, fun h => by simp [h, Expr.anyAuthor?, Expr.disjunction?]⟩, fun e he => ?_⟩
  · by_contra hne
    obtain ⟨e, he⟩ := Expr.exists_anyAuthor? hne
    cases h.symm.trans he
  · have hrounds := Expr.iterate_pairUp he
    rw [List.length_map] at hrounds
    exact ⟨hrounds, Expr.joinsAuthors_anyAuthor? he, Expr.leaves_anyAuthor? he,
      Expr.depth_anyAuthor? he, fun hus hlength => parse_anyAuthor? he hus hlength⟩

/-- An odd number of authors, one of them twice. -/
theorem anyAuthor?_balanced_odd :
    ∃ e, Expr.anyAuthor? ["alice", "bob", "alice"] = some e ∧
      e = .or (.or (.author "alice") (.author "bob")) (.author "alice") ∧
      e.depth = Nat.clog 2 3 ∧ parse e.filterText = .ok e := by
  have he : Expr.anyAuthor? ["alice", "bob", "alice"] =
      some (.or (.or (.author "alice") (.author "bob")) (.author "alice")) := by
    simp [Expr.anyAuthor?, Expr.disjunction?, Expr.pairUp]
  obtain ⟨-, -, -, hdepth, hparse⟩ := (anyAuthor?_balanced ["alice", "bob", "alice"]).2 _ he
  exact ⟨_, he, rfl, hdepth, hparse (by simp [isName, isWordChar]) (by simp)⟩

end PostFilter
