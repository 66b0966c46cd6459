import PostFilter.Proofs.Evaluation
import PostFilter.Proofs.SnapshotLookups

/-!
# The algebra of filters

Whether a filter matches a post is a proposition made of the answers of its lookups about that post,
so filters with the same propositions give the same sets. Conjunction and disjunction obey the laws
of a distributive lattice, and negation obeys De Morgan's. It is a complement only relative to the
posts there are: two negations drop whatever is not among them. In a snapshot these are the posts
that a tag lists and the snapshot does not hold.
-/

namespace PostFilter

variable {source : Source} {a b c e e' : Expr} {s t everything : IdSet} {x : PostId}

instance : HasSubset IdSet := ⟨fun s t => ∀ x, x ∈ s → x ∈ t⟩

namespace Expr

/-! ## Results -/

/-- All lookups of the filter are usable. -/
def Answered (source : Source) (e : Expr) : Prop :=
  ∀ l ∈ e.lookups, source.Usable l

@[simp] theorem answered_not :
    (not e).Answered source ↔ source.Usable .everything ∧ e.Answered source := by
  simp [Answered, lookups]

@[simp] theorem answered_and :
    (and a b).Answered source ↔ a.Answered source ∧ b.Answered source := by
  simp only [Answered, lookups, List.forall_mem_append]

@[simp] theorem answered_or :
    (or a b).Answered source ↔ a.Answered source ∧ b.Answered source := by
  simp only [Answered, lookups, List.forall_mem_append]

theorem resolve_eq_ok_iff :
    e.resolve source = .ok s ↔ e.Answered source ∧ e.denote source.posts = s := by
  by_cases h : e.Answered source
  · obtain ⟨d, -, heval⟩ := evaluate_of_usable h
    simp [resolve, heval, h]
  · obtain ⟨before, l, err, -, heval⟩ := evaluate_of_not_usable h
    simp [resolve, heval, h]

theorem mem_of_resolve (h : e.resolve source = .ok s) :
    x ∈ s ↔ e.Matches fun l => source.Brings l x := by
  obtain ⟨hanswered, rfl⟩ := resolve_eq_ok_iff.mp h
  exact mem_denote_posts hanswered

theorem resolve_eq_error_iff_not_answered :
    (∃ err, e.resolve source = .error err) ↔ ¬ e.Answered source := by
  cases h : e.resolve source with
  | ok s => simp [(resolve_eq_ok_iff.mp h).1]
  | error err =>
    have hnot : ¬ e.Answered source := by
      intro hanswered
      rw [resolve_eq_ok_iff.mpr ⟨hanswered, rfl⟩] at h
      cases h
    simp [hnot]

/-- Both filters evaluate, and to the same set. -/
def Agree (source : Source) (e e' : Expr) : Prop :=
  ∃ s, e.resolve source = .ok s ∧ e'.resolve source = .ok s

theorem agree_of_matches (h : e.Answered source) (h' : e'.Answered source)
    (hmatches : ∀ brings, e.Matches brings ↔ e'.Matches brings) : Agree source e e' := by
  have hdenote : e'.denote source.posts = e.denote source.posts := by
    refine IdSet.ext fun x => ?_
    rw [mem_denote, mem_denote, hmatches]
  exact ⟨e.denote source.posts, resolve_eq_ok_iff.mpr ⟨h, rfl⟩,
    resolve_eq_ok_iff.mpr ⟨h', hdenote⟩⟩

/-! ## Laws -/

/-- What holds of conjunction, disjunction and negation without further conditions. -/
structure BooleanLaws (source : Source) (a b c : Expr) : Prop where
  and_comm : Agree source (and a b) (and b a)
  or_comm : Agree source (or a b) (or b a)
  and_assoc : Agree source (and (and a b) c) (and a (and b c))
  or_assoc : Agree source (or (or a b) c) (or a (or b c))
  and_self : Agree source (and a a) a
  or_self : Agree source (or a a) a
  and_or_self : Agree source (and a (or a b)) a
  or_and_self : Agree source (or a (and a b)) a
  and_or_distrib : Agree source (and a (or b c)) (or (and a b) (and a c))
  or_and_distrib : Agree source (or a (and b c)) (and (or a b) (or a c))
  not_and : Agree source (not (and a b)) (or (not a) (not b))
  not_or : Agree source (not (or a b)) (and (not a) (not b))

/-- At each post the laws are those of propositions. -/
theorem booleanLaws (hu : source.Usable .everything) (ha : a.Answered source)
    (hb : b.Answered source) (hc : c.Answered source) : BooleanLaws source a b c where
  and_comm := agree_of_matches (by simp [*]) (by simp [*]) fun _ => And.comm
  or_comm := agree_of_matches (by simp [*]) (by simp [*]) fun _ => Or.comm
  and_assoc := agree_of_matches (by simp [*]) (by simp [*]) fun _ => and_assoc
  or_assoc := agree_of_matches (by simp [*]) (by simp [*]) fun _ => or_assoc
  and_self := agree_of_matches (by simp [*]) ha fun _ => and_self_iff
  or_self := agree_of_matches (by simp [*]) ha fun _ => or_self_iff
  and_or_self := agree_of_matches (by simp [*]) ha fun _ => and_iff_left_of_imp .inl
  or_and_self := agree_of_matches (by simp [*]) ha fun _ => or_iff_left_of_imp And.left
  and_or_distrib := agree_of_matches (by simp [*]) (by simp [*]) fun _ => and_or_left
  or_and_distrib := agree_of_matches (by simp [*]) (by simp [*]) fun _ => or_and_left
  not_and := agree_of_matches (by simp [*]) (by simp [*]) fun _ =>
    (and_congr_right fun _ => not_and_or).trans and_or_left
  not_or := agree_of_matches (by simp [*]) (by simp [*]) fun _ =>
    (and_congr_right fun _ => not_or).trans and_and_left

/-! ## Repeated negation -/

theorem resolve_not (hu : source.found .everything = .ok everything)
    (he : e.resolve source = .ok s) : (not e).resolve source = .ok (everything \ s) := by
  obtain ⟨hanswered, rfl⟩ := resolve_eq_ok_iff.mp he
  refine resolve_eq_ok_iff.mpr ⟨answered_not.mpr ⟨Source.usable_of_found hu, hanswered⟩, ?_⟩
  rw [denote, Source.posts_of_found hu]

/-- After the first negation only posts that there are play a role. -/
theorem resolve_iterate_not (hu : source.found .everything = .ok everything)
    (he : e.resolve source = .ok s) (n : Nat) : (not^[n + 1] e).resolve source =
      .ok (if Odd (n + 1) then everything \ s else everything ∩ s) := by
  induction n with
  | zero => simpa using resolve_not hu he
  | succ n ih =>
    rw [Function.iterate_succ_apply', resolve_not hu ih]
    congr 1
    refine IdSet.ext fun x => ?_
    by_cases h : Odd (n + 1)
    · have h' : ¬ Odd (n + 1 + 1) := by grind
      simp only [h, h', if_true, if_false, IdSet.mem_sdiff, IdSet.mem_inter]
      tauto
    · have h' : Odd (n + 1 + 1) := by grind
      simp only [h, h', if_true, if_false, IdSet.mem_sdiff, IdSet.mem_inter]
      tauto

theorem resolve_not_not_iff (hu : source.found .everything = .ok everything)
    (he : e.resolve source = .ok s) :
    (not (not e)).resolve source = .ok s ↔ s ⊆ everything := by
  have htwice : (not (not e)).resolve source = .ok (everything ∩ s) :=
    resolve_iterate_not hu he 1
  rw [htwice, Except.ok.injEq]
  constructor
  · intro h x hx
    rw [← h, IdSet.mem_inter] at hx
    exact hx.1
  · intro h
    refine IdSet.ext fun x => ?_
    rw [IdSet.mem_inter]
    exact and_iff_right_of_imp (h x)

/-! ## Filters on the posts there are -/

/-- If the lookups bring only posts that there are, then so does the filter. -/
theorem denote_subset {sets : Lookup → IdSet}
    (h : ∀ l ∈ e.lookups, sets l ⊆ sets .everything) : e.denote sets ⊆ sets .everything := by
  induction e with
  | author u => exact h _ (by simp [lookups])
  | tag l => exact h _ (by simp [lookups])
  | not e _ => exact fun x hx => (IdSet.mem_sdiff.mp hx).1
  | and a b iha _ =>
    obtain ⟨ha, -⟩ := List.forall_mem_append.mp h
    exact fun x hx => iha ha x (IdSet.mem_inter.mp hx).1
  | or a b iha ihb =>
    obtain ⟨ha, hb⟩ := List.forall_mem_append.mp h
    exact fun x hx => (IdSet.mem_union.mp hx).elim (iha ha x) (ihb hb x)

/-- The lookup that a leaf makes. -/
def Leaf.lookup : Leaf → Lookup
  | author u => .author u
  | tag l => .tag l

/-- A leaf as a filter of its own. -/
def Leaf.toExpr : Leaf → Expr
  | author u => .author u
  | tag l => .tag l

theorem resolve_toExpr {l : Leaf} (h : source.found l.lookup = .ok s) :
    l.toExpr.resolve source = .ok s := by
  cases l with
  | author u | tag u =>
    refine resolve_eq_ok_iff.mpr ⟨?_, Source.posts_of_found h⟩
    simpa [Leaf.toExpr, Answered, lookups, Leaf.lookup] using Source.usable_of_found h

theorem lookup_mem_lookups {l : Leaf} : l.lookup ∈ e.lookups ↔ l ∈ e.leaves := by
  induction e with
  | author u => cases l <;> simp [lookups, leaves, Leaf.lookup]
  | tag m => cases l <;> simp [lookups, leaves, Leaf.lookup]
  | not e ih => cases l <;> simp [lookups, leaves, ← ih, Leaf.lookup]
  | and a b iha ihb => simp [lookups, leaves, iha, ihb]
  | or a b iha ihb => simp [lookups, leaves, iha, ihb]

end Expr

namespace Snapshot

open PostFilter.Expr

variable {snapshot : Snapshot}

/-- Each key of the tag stands for a post of the snapshot. -/
def HoldsAll (snapshot : Snapshot) (t : Tag) : Prop :=
  ∀ k ∈ t.keys, ∃ p ∈ snapshot.posts, k.normalize = .ok p.id

theorem usable_of_holdsAll {l : String}
    (h : ∀ t, snapshot.findTag? l = some t → snapshot.HoldsAll t) :
    snapshot.source.Usable (.tag l) ∧
      snapshot.source.posts (.tag l) ⊆ snapshot.source.posts .everything := by
  have hkeys : ∀ k ∈ snapshot.keysUnder l, ∃ p ∈ snapshot.posts, k.normalize = .ok p.id := by
    cases ht : snapshot.findTag? l with
    | none => simp [keysUnder, ht]
    | some t => rw [keysUnder_of_findTag? ht]; exact h t ht
  have husable : snapshot.source.Usable (.tag l) := by
    refine usable_tag_iff.mpr fun k hk => ?_
    obtain ⟨p, -, hp⟩ := hkeys k hk
    exact ⟨p.id, hp⟩
  refine ⟨husable, fun x hx => ?_⟩
  obtain ⟨k, hk, hx⟩ := brings_tag_iff.mp ((Source.mem_posts husable).mp hx)
  obtain ⟨p, hp, hid⟩ := hkeys k hk
  rw [Source.mem_posts snapshot.usable_everything, brings_everything_iff]
  exact ⟨p, hp, Except.ok.inj (hid.symm.trans hx)⟩

theorem posts_author_subset (u : String) :
    snapshot.source.posts (.author u) ⊆ snapshot.source.posts .everything := by
  intro x hx
  have husable := snapshot.usable_author u
  obtain ⟨v, -, p, hp, -, hid⟩ := brings_author_iff.mp ((Source.mem_posts husable).mp hx)
  rw [Source.mem_posts snapshot.usable_everything, brings_everything_iff]
  exact ⟨p, hp, hid⟩

theorem resolve_subset
    (h : ∀ l t, Leaf.tag l ∈ e.leaves → snapshot.findTag? l = some t → snapshot.HoldsAll t) :
    ∃ everything s, snapshot.source.found .everything = .ok everything ∧
      e.resolve snapshot.source = .ok s ∧ s ⊆ everything := by
  have hlookups : ∀ l ∈ e.lookups,
      snapshot.source.Usable l ∧ snapshot.source.posts l ⊆ snapshot.source.posts .everything := by
    intro l hl
    cases l with
    | everything => exact ⟨snapshot.usable_everything, fun x hx => hx⟩
    | author u => exact ⟨snapshot.usable_author u, posts_author_subset u⟩
    | tag l => exact usable_of_holdsAll fun t ht => h l t (lookup_mem_lookups.mp hl) ht
  obtain ⟨everything, hu⟩ := Source.usable_iff.mp snapshot.usable_everything
  have hsubset := denote_subset fun l hl => (hlookups l hl).2
  rw [Source.posts_of_found hu] at hsubset
  exact ⟨everything, _, hu, resolve_eq_ok_iff.mpr ⟨fun l hl => (hlookups l hl).1, rfl⟩, hsubset⟩

/-- A tag that lists a post which the snapshot does not hold loses it by two negations. -/
theorem resolve_not_not_tag {l : String} {t : Tag} {k : PostKey}
    (ht : snapshot.findTag? l = some t) (hkeys : ∀ k ∈ t.keys, k.Normalizes) (hk : k ∈ t.keys)
    (hx : k.normalize = .ok x) (hmissing : ∀ p ∈ snapshot.posts, p.id ≠ x) :
    ∃ s s', (tag l).resolve snapshot.source = .ok s ∧
      (not (not (tag l))).resolve snapshot.source = .ok s' ∧ s' ⊆ s ∧ ¬ s ⊆ s' := by
  rw [← keysUnder_of_findTag? ht] at hkeys hk
  have husable : snapshot.source.Usable (.tag l) := usable_tag_iff.mpr hkeys
  obtain ⟨s, hs⟩ := Source.usable_iff.mp husable
  obtain ⟨everything, hu⟩ := Source.usable_iff.mp snapshot.usable_everything
  have htag : (tag l).resolve snapshot.source = .ok s := resolve_toExpr (l := .tag l) hs
  refine ⟨s, everything ∩ s, htag, resolve_iterate_not hu htag 1, ?_, ?_⟩
  · exact fun y hy => (IdSet.mem_inter.mp hy).2
  · intro h
    have hxs : x ∈ s := (Source.mem_of_found hs).mpr (brings_tag_iff.mpr ⟨k, hk, hx⟩)
    have hxu := (Source.mem_of_found hu).mp (IdSet.mem_inter.mp (h x hxs)).1
    obtain ⟨p, hp, hid⟩ := brings_everything_iff.mp hxu
    exact hmissing p hp hid

end Snapshot

/-- Filters obey the laws of sets with a complement relative to the posts there are. An even number
of negations gives a filter back exactly if it matches only posts that there are. In a snapshot this
is so as long as its tags list only posts of the snapshot, and it fails for a tag that lists another
one. -/
theorem boolean_laws_relative :
    (∀ source a b c, source.Usable .everything → a.Answered source → b.Answered source →
      c.Answered source → Expr.BooleanLaws source a b c) ∧
    (∀ (source : Source) (a : Expr) everything s, source.found .everything = .ok everything →
      a.resolve source = .ok s →
        (∀ n, 1 ≤ n → (Expr.not^[n] a).resolve source =
          .ok (if Odd n then everything \ s else everything ∩ s)) ∧
        ((a.not.not).resolve source = a.resolve source ↔ s ⊆ everything)) ∧
    (∀ (snapshot : Snapshot) (a : Expr),
      ((∀ l t, .tag l ∈ a.leaves → snapshot.findTag? l = some t → snapshot.HoldsAll t) ∨
        (∀ l, .tag l ∉ a.leaves)) →
      ∃ everything s, snapshot.source.found .everything = .ok everything ∧
        a.resolve snapshot.source = .ok s ∧ s ⊆ everything ∧
        (a.not.not).resolve snapshot.source = .ok s) ∧
    ∀ (snapshot : Snapshot) l t, snapshot.findTag? l = some t → (∀ k ∈ t.keys, k.Normalizes) →
      (∃ k ∈ t.keys, ∃ x, k.normalize = .ok x ∧ ∀ p ∈ snapshot.posts, p.id ≠ x) →
      ∃ s s', (Expr.tag l).resolve snapshot.source = .ok s ∧
        (Expr.tag l).not.not.resolve snapshot.source = .ok s' ∧ s' ⊆ s ∧ ¬ s ⊆ s' := by
  refine ⟨fun source a b c => Expr.booleanLaws, ?_, ?_, ?_⟩
  · intro source a everything s hu ha
    refine ⟨fun n hn => ?_, ?_⟩
    · obtain ⟨m, rfl⟩ := Nat.exists_eq_add_of_le' hn
      exact Expr.resolve_iterate_not hu ha m
    · rw [ha]
      exact Expr.resolve_not_not_iff hu ha
  · intro snapshot a h
    have htags : ∀ l t, .tag l ∈ a.leaves → snapshot.findTag? l = some t → snapshot.HoldsAll t := by
      rcases h with h | h
      · exact h
      · exact fun l t hl => absurd hl (h l)
    obtain ⟨everything, s, hu, ha, hsubset⟩ := Snapshot.resolve_subset htags
    exact ⟨everything, s, hu, ha, hsubset, (Expr.resolve_not_not_iff hu ha).mpr hsubset⟩
  · rintro snapshot l t ht hkeys ⟨k, hk, x, hx, hmissing⟩
    exact Snapshot.resolve_not_not_tag ht hkeys hk hx hmissing

/-- One post, and a tag that lists it together with another one. -/
def Snapshot.dangling : Snapshot where
  users := []
  posts := [⟨⟨List.replicate 12 1, rfl⟩, "1", "first", none⟩]
  tags := [⟨"t", [.object ⟨List.replicate 12 1, rfl⟩, .text "0A0A0A0A0a0a0a0a0a0a0a0a"]⟩]

theorem boolean_laws_relative_dangling :
    (∃ s s', (Expr.tag "t").resolve Snapshot.dangling.source = .ok s ∧
      (Expr.tag "t").not.not.resolve Snapshot.dangling.source = .ok s' ∧ s' ⊆ s ∧ ¬ s ⊆ s') ∧
    Expr.Agree Snapshot.dangling.source (.not (.and (.tag "t") (.author "a")))
      (.or (.not (.tag "t")) (.not (.author "a"))) := by
  have hnormalize : PostKey.normalize (.text "0A0A0A0A0a0a0a0a0a0a0a0a") =
      .ok ⟨List.replicate 12 10, rfl⟩ := by cbv
  have hkeys : ∀ k ∈ Snapshot.dangling.keysUnder "t", k.Normalizes := by
    intro k hk
    have hk : k = .object ⟨List.replicate 12 1, rfl⟩ ∨ k = .text "0A0A0A0A0a0a0a0a0a0a0a0a" := by
      simpa [Snapshot.keysUnder, Snapshot.findTag?, Snapshot.dangling] using hk
    rcases hk with rfl | rfl
    · exact ⟨_, rfl⟩
    · exact ⟨_, hnormalize⟩
  have htag : (Expr.tag "t").Answered Snapshot.dangling.source := by
    simpa [Expr.Answered, Expr.lookups] using Snapshot.usable_tag_iff.mpr hkeys
  have hauthor : (Expr.author "a").Answered Snapshot.dangling.source := by
    simpa [Expr.Answered, Expr.lookups] using Snapshot.dangling.usable_author "a"
  obtain ⟨hlaws, -, -, hmissing⟩ := boolean_laws_relative
  refine ⟨hmissing _ "t" _ rfl hkeys ⟨_, by simp, _, hnormalize, ?_⟩, ?_⟩
  · decide
  · exact (hlaws _ _ _ _ Snapshot.dangling.usable_everything htag hauthor htag).not_and

end PostFilter
