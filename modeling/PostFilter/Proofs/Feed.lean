import PostFilter.Proofs.Disjunction

/-!
# Feeds of several authors

A feed is evaluated as one balanced disjunction, whose shape depends on how many authors there are
and in which order they come. None of this shows in the result. Every author is looked up once for
each time the list has the name, in the order of the list, and the feed is the union of what these
lookups bring.
-/

namespace PostFilter

variable {source : Source} {us vs : List String} {u : String} {s t : IdSet} {x : PostId}
  {err : StoreError}

theorem evaluateFollowing_nil (source : Source) :
    evaluateFollowing source [] = ⟨.ok ∅, [], 0⟩ := by
  simp [evaluateFollowing, Expr.anyAuthor?, Expr.disjunction?, Evaluation.nothing]

theorem evaluateFollowing_eq {e : Expr} (h : Expr.anyAuthor? us = some e) :
    evaluateFollowing source us = e.evaluate source := by
  simp [evaluateFollowing, h]

theorem resolveFollowing_eq {e : Expr} (h : Expr.anyAuthor? us = some e) :
    resolveFollowing source us = e.resolve source := by
  rw [resolveFollowing, evaluateFollowing_eq h, Expr.resolve]

theorem Expr.answered_anyAuthor? {e : Expr} (h : anyAuthor? us = some e) :
    e.Answered source ↔ ∀ u ∈ us, source.Usable (.author u) := by
  simp [Answered, lookups_anyAuthor? h]

/-! ## The union -/

theorem exists_resolveFollowing_iff :
    (∃ s, resolveFollowing source us = .ok s) ↔ ∀ u ∈ us, source.Usable (.author u) := by
  rcases eq_or_ne us [] with rfl | hne
  · simp [resolveFollowing, evaluateFollowing_nil]
  · obtain ⟨e, he⟩ := Expr.exists_anyAuthor? hne
    rw [resolveFollowing_eq he, ← Expr.answered_anyAuthor? he]
    simp [Expr.resolve_eq_ok_iff]

theorem mem_resolveFollowing (h : resolveFollowing source us = .ok s) :
    x ∈ s ↔ ∃ u ∈ us, source.Brings (.author u) x := by
  rcases eq_or_ne us [] with rfl | hne
  · rw [resolveFollowing, evaluateFollowing_nil] at h
    cases h
    simp
  · obtain ⟨e, he⟩ := Expr.exists_anyAuthor? hne
    rw [resolveFollowing_eq he] at h
    rw [Expr.mem_of_resolve h, Expr.matches_anyAuthor? he]

theorem resolveFollowing_eq_ok_iff : resolveFollowing source us = .ok s ↔
    (∀ u ∈ us, source.Usable (.author u)) ∧
      ∀ x, x ∈ s ↔ ∃ u ∈ us, source.Brings (.author u) x := by
  constructor
  · intro h
    exact ⟨exists_resolveFollowing_iff.mp ⟨s, h⟩, fun x => mem_resolveFollowing h⟩
  · rintro ⟨husable, hmem⟩
    obtain ⟨t, ht⟩ := exists_resolveFollowing_iff.mpr husable
    rw [ht, IdSet.ext fun x => (mem_resolveFollowing ht).trans (hmem x).symm]

/-- The posts of a single author. -/
theorem exists_mem_resolve_author (h : source.Usable (.author u)) :
    (∃ t, (Expr.author u).resolve source = .ok t ∧ x ∈ t) ↔ source.Brings (.author u) x := by
  have hanswered : (Expr.author u).Answered source := by
    simpa [Expr.Answered, Expr.lookups] using h
  have hresolve := Expr.resolve_eq_ok_iff.mpr ⟨hanswered, rfl⟩
  have hmem := Expr.mem_of_resolve (x := x) hresolve
  simp only [Expr.Matches] at hmem
  simp [hresolve, hmem]

theorem resolveFollowing_congr (h : ∀ u, u ∈ vs ↔ u ∈ us) :
    resolveFollowing source vs = .ok s ↔ resolveFollowing source us = .ok s := by
  simp only [resolveFollowing_eq_ok_iff, h]

theorem resolveFollowing_append : resolveFollowing source (us ++ vs) = .ok s ↔
    ∃ t t', resolveFollowing source us = .ok t ∧ resolveFollowing source vs = .ok t' ∧
      s = t ∪ t' := by
  constructor
  · intro h
    obtain ⟨husable, hmem⟩ := resolveFollowing_eq_ok_iff.mp h
    obtain ⟨hus, hvs⟩ := List.forall_mem_append.mp husable
    obtain ⟨t, ht⟩ := exists_resolveFollowing_iff.mpr hus
    obtain ⟨t', ht'⟩ := exists_resolveFollowing_iff.mpr hvs
    refine ⟨t, t', ht, ht', IdSet.ext fun x => ?_⟩
    rw [hmem, IdSet.mem_union, mem_resolveFollowing ht, mem_resolveFollowing ht']
    simp only [List.mem_append, or_and_right, exists_or]
  · rintro ⟨t, t', ht, ht', rfl⟩
    obtain ⟨hus, htmem⟩ := resolveFollowing_eq_ok_iff.mp ht
    obtain ⟨hvs, htmem'⟩ := resolveFollowing_eq_ok_iff.mp ht'
    refine resolveFollowing_eq_ok_iff.mpr ⟨List.forall_mem_append.mpr ⟨hus, hvs⟩, fun x => ?_⟩
    rw [IdSet.mem_union, htmem, htmem']
    simp only [List.mem_append, or_and_right, exists_or]

/-! ## The lookups -/

theorem ends_evaluateFollowing (source : Source) (hne : us ≠ []) :
    ∃ s, (evaluateFollowing source us).Ends source (us.map .author) s := by
  obtain ⟨e, he⟩ := Expr.exists_anyAuthor? hne
  rw [evaluateFollowing_eq he, ← Expr.lookups_anyAuthor? he]
  exact ⟨_, e.ends_evaluate source⟩

/-- Each author is looked up once for each time the list has the name. -/
theorem calls_evaluateFollowing
    (h : ∀ u ∈ us, source.delay (.author u) = 0 → source.Usable (.author u)) :
    (evaluateFollowing source us).calls = us.map .author := by
  rcases eq_or_ne us [] with rfl | hne
  · simp [evaluateFollowing_nil]
  · obtain ⟨s, hends⟩ := ends_evaluateFollowing source hne
    generalize evaluateFollowing source us = v at hends ⊢
    cases hends with
    | success usable slowest => rfl
    | @failure before l err first =>
      obtain ⟨u, hu, rfl⟩ := List.mem_map.mp first.mem
      have hdelay : source.delay (.author u) ≠ 0 :=
        fun hdelay => (h u hu hdelay).not_fails first.fails
      simp [hdelay]

/-- The first author whose lookup fails without a delay is the last one that is looked up. -/
theorem calls_evaluateFollowing_append {before after : List String}
    (hdelay : source.delay (.author u) = 0) (hnot : ¬ source.Usable (.author u))
    (h : ∀ v ∈ before, source.delay (.author v) = 0 → source.Usable (.author v)) :
    (evaluateFollowing source (before ++ u :: after)).calls = (before ++ [u]).map .author := by
  obtain ⟨err, hfails⟩ : ∃ err, source.Fails (.author u) err := by
    simpa [Source.usable_iff_forall_not_fails] using hnot
  have hfirst : source.FailsFirst ((before ++ u :: after).map .author) (before.map .author)
      (.author u) err := by
    refine ⟨?_, hfails, fun m _ _ => hdelay ▸ Nat.zero_le _, fun _ => by simpa using h⟩
    simp [List.prefix_append_right_inj]
  have hne : before ++ u :: after ≠ [] := by simp
  obtain ⟨s, hends⟩ := ends_evaluateFollowing source hne
  generalize evaluateFollowing source (before ++ u :: after) = v at hends ⊢
  cases hends with
  | success usable slowest => exact absurd (usable _ (by simp)) hnot
  | failure first =>
    obtain ⟨rfl, rfl⟩ := hfirst.unique first hdelay
    simp [hdelay]

/-! ## Failure -/

/-- The error is that of a lookup that fails no later than any other. -/
theorem exists_fails_of_resolveFollowing (h : resolveFollowing source us = .error err) :
    ∃ u ∈ us, source.Fails (.author u) err ∧
      ∀ v ∈ us, ¬ source.Usable (.author v) →
        source.delay (.author u) ≤ source.delay (.author v) := by
  have hne : us ≠ [] := by
    rintro rfl
    simp [resolveFollowing, evaluateFollowing_nil] at h
  obtain ⟨s, hends⟩ := ends_evaluateFollowing source hne
  rw [resolveFollowing] at h
  generalize evaluateFollowing source us = v at hends h
  cases hends with
  | success usable slowest => cases h
  | @failure before l err' first =>
    cases h
    obtain ⟨u, hu, rfl⟩ := List.mem_map.mp first.mem
    exact ⟨u, hu, first.fails, fun v hv => first.earliest _ (List.mem_map_of_mem hv)⟩

/-- Only the error can depend on how the list is arranged, and only if two lookups fail at the same
time with different errors. -/
theorem resolveFollowing_eq_of_ties (h : ∀ u, u ∈ vs ↔ u ∈ us)
    (hties : ∀ u ∈ us, ∀ v ∈ us, source.delay (.author u) = source.delay (.author v) →
      ∀ err err', source.Fails (.author u) err → source.Fails (.author v) err' → err = err') :
    resolveFollowing source vs = resolveFollowing source us := by
  cases hus : resolveFollowing source us with
  | ok s => exact (resolveFollowing_congr h).mpr hus
  | error err =>
    cases hvs : resolveFollowing source vs with
    | ok s =>
      rw [(resolveFollowing_congr h).mp hvs] at hus
      cases hus
    | error err' =>
      obtain ⟨u, hu, hfails, hfirst⟩ := exists_fails_of_resolveFollowing hus
      obtain ⟨v, hv, hfails', hfirst'⟩ := exists_fails_of_resolveFollowing hvs
      have hdelay : source.delay (.author v) = source.delay (.author u) :=
        Nat.le_antisymm
          (hfirst' u ((h u).mpr hu) fun husable => husable.not_fails hfails)
          (hfirst v ((h v).mp hv) fun husable => husable.not_fails hfails')
      rw [hties v ((h v).mp hv) u hu hdelay _ _ hfails' hfails]

/-- The feed of a list of authors makes one lookup for each element of the list, in its order, and
no other; only a failure without a delay keeps it from starting the later ones. It succeeds exactly
if all of these lookups are usable, and is then the union of the posts of the authors. So neither
the order of the list nor repetitions in it make a difference, unless two lookups fail at the same
time for different reasons, and the feed of two lists is the union of their feeds. -/
theorem evaluateFollowing_union (source : Source) (us : List String) :
    evaluateFollowing source [] = ⟨.ok ∅, [], 0⟩ ∧
      ((∀ u ∈ us, source.delay (.author u) = 0 → source.Usable (.author u)) →
        (evaluateFollowing source us).calls = us.map .author) ∧
      (∀ before u after, us = before ++ u :: after → source.delay (.author u) = 0 →
        ¬ source.Usable (.author u) →
        (∀ v ∈ before, source.delay (.author v) = 0 → source.Usable (.author v)) →
        (evaluateFollowing source us).calls = (before ++ [u]).map .author) ∧
      ((∃ s, resolveFollowing source us = .ok s) ↔ ∀ u ∈ us, source.Usable (.author u)) ∧
      (∀ s, resolveFollowing source us = .ok s →
        ∀ x, x ∈ s ↔ ∃ u ∈ us, ∃ t, (Expr.author u).resolve source = .ok t ∧ x ∈ t) ∧
      (∀ vs, (∀ u, u ∈ vs ↔ u ∈ us) →
        (∀ s, resolveFollowing source vs = .ok s ↔ resolveFollowing source us = .ok s) ∧
        ((∀ u ∈ us, ∀ v ∈ us, source.delay (.author u) = source.delay (.author v) →
            ∀ err err', source.Fails (.author u) err → source.Fails (.author v) err' →
              err = err') →
          resolveFollowing source vs = resolveFollowing source us)) ∧
      ∀ vs s, resolveFollowing source (us ++ vs) = .ok s ↔
        ∃ t t', resolveFollowing source us = .ok t ∧ resolveFollowing source vs = .ok t' ∧
          s = t ∪ t' := by
  refine ⟨evaluateFollowing_nil source, calls_evaluateFollowing, ?_, exists_resolveFollowing_iff,
    ?_, ?_, fun vs s => resolveFollowing_append⟩
  · rintro before u after rfl
    exact calls_evaluateFollowing_append
  · intro s hs x
    rw [mem_resolveFollowing hs]
    refine exists_congr fun u => and_congr_right fun hu => ?_
    exact (exists_mem_resolve_author (exists_resolveFollowing_iff.mp ⟨s, hs⟩ u hu)).symm
  · intro vs h
    exact ⟨fun s => resolveFollowing_congr h, resolveFollowing_eq_of_ties h⟩

/-- One author has a slow lookup, and that of another one fails at once. -/
def Source.uneven : Source where
  everything := ⟨0, .ok []⟩
  author u :=
    if u = "slow" then ⟨2, .ok [.object (.ofByte 1)]⟩
    else if u = "bad" then ⟨0, .error .timeout⟩
    else ⟨0, .ok [.object (.ofByte 2)]⟩
  tag _ := ⟨0, .ok none⟩

theorem evaluateFollowing_union_uneven :
    (evaluateFollowing .uneven ["slow", "bad", "a"]).calls = [.author "slow", .author "bad"] ∧
      (evaluateFollowing .uneven ["a", "slow", "a"]).calls =
        [.author "a", .author "slow", .author "a"] ∧
      ∃ s, resolveFollowing .uneven ["a", "slow", "a"] = .ok s ∧
        resolveFollowing .uneven ["slow", "a"] = .ok s := by
  have hfails : Source.uneven.Fails (.author "bad") .timeout := .inl rfl
  have hbad : ¬ Source.uneven.Usable (.author "bad") := fun h => h.not_fails hfails
  have husable : ∀ u ∈ ["a", "slow", "a"], Source.uneven.Usable (.author u) := by
    simp [Source.Usable, Source.keys, Source.uneven, PostKey.Normalizes, PostKey.normalize]
  obtain ⟨-, -, hcalls, -⟩ := evaluateFollowing_union .uneven ["slow", "bad", "a"]
  obtain ⟨-, hcalls', -, hok, -, harranged, -⟩ :=
    evaluateFollowing_union .uneven ["a", "slow", "a"]
  obtain ⟨s, hs⟩ := hok.mpr husable
  refine ⟨hcalls ["slow"] "bad" ["a"] rfl rfl hbad ?_, hcalls' fun u hu _ => husable u hu, s, hs,
    ?_⟩
  · simp [Source.delay, Source.uneven]
  · exact ((harranged ["slow", "a"] (by simp)).1 s).mpr hs

end PostFilter
