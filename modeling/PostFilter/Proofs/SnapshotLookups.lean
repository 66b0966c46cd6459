import PostFilter.Proofs.Lookups
import PostFilter.Store.Memory

/-!
# Lookups in a snapshot

A snapshot knows its posts and those of each author by their identifiers, so these lookups are
always usable. A tag lists keys that need not stand for a post at all, nor for one of the snapshot.
-/

namespace PostFilter.Snapshot

variable {s : Snapshot} {u l : String} {k : PostKey} {x : PostId}

/-- The keys of the first tag with the label, or none if there is no such tag. -/
def keysUnder (s : Snapshot) (l : String) : List PostKey :=
  ((s.findTag? l).map (·.keys)).getD []

theorem findTag?_label {t : Tag} (h : s.findTag? l = some t) : t.label = l := by
  simpa using List.find?_some h

theorem findUser?_eq_none_iff : s.findUser? u = none ↔ u ∉ s.usernames := by
  simp [findUser?, usernames]

theorem findTag?_eq_none_iff : s.findTag? l = none ↔ l ∉ s.labels := by
  simp [findTag?, labels]

theorem findTag?_eq_ite (s : Snapshot) (l : String) :
    s.findTag? l = if l ∈ s.labels then some ⟨l, s.keysUnder l⟩ else none := by
  cases h : s.findTag? l with
  | none => simp [findTag?_eq_none_iff.mp h]
  | some t =>
    have hmem : l ∈ s.labels := by
      by_contra hnot
      simp [findTag?_eq_none_iff.mpr hnot] at h
    have ht : t = ⟨l, t.keys⟩ := by rw [← findTag?_label h]
    simpa [hmem, keysUnder, h] using ht

theorem keysUnder_of_findTag? {t : Tag} (h : s.findTag? l = some t) : s.keysUnder l = t.keys := by
  simp [keysUnder, h]

/-! ## The keys that lookups bring -/

theorem mem_allKeys : k ∈ s.allKeys ↔ ∃ p ∈ s.posts, .object p.id = k := by
  simp [allKeys]

theorem mem_authorKeys : k ∈ s.authorKeys u ↔
    ∃ v, s.findUser? u = some v ∧ ∃ p ∈ s.posts, p.authorId = v.id ∧ .object p.id = k := by
  unfold authorKeys
  split <;> simp [*, and_assoc]

theorem usable_everything (s : Snapshot) : s.source.Usable .everything := by
  refine ⟨s.allKeys, rfl, fun k hk => ?_⟩
  obtain ⟨p, -, rfl⟩ := mem_allKeys.mp hk
  exact ⟨p.id, rfl⟩

theorem usable_author (s : Snapshot) (u : String) : s.source.Usable (.author u) := by
  refine ⟨s.authorKeys u, rfl, fun k hk => ?_⟩
  obtain ⟨v, -, p, -, -, rfl⟩ := mem_authorKeys.mp hk
  exact ⟨p.id, rfl⟩

theorem usable_tag_iff : s.source.Usable (.tag l) ↔ ∀ k ∈ s.keysUnder l, k.Normalizes := by
  simp [Source.Usable, Source.keys, source, keysUnder, Except.map]

theorem brings_everything_iff : s.source.Brings .everything x ↔ ∃ p ∈ s.posts, p.id = x := by
  simp [Source.Brings, Source.keys, source, mem_allKeys, PostKey.normalize]

theorem brings_author_iff : s.source.Brings (.author u) x ↔
    ∃ v, s.findUser? u = some v ∧ ∃ p ∈ s.posts, p.authorId = v.id ∧ p.id = x := by
  simp [Source.Brings, Source.keys, source, mem_authorKeys, PostKey.normalize, and_assoc]

theorem brings_tag_iff :
    s.source.Brings (.tag l) x ↔ ∃ k ∈ s.keysUnder l, k.normalize = .ok x := by
  simp [Source.Brings, Source.keys, source, keysUnder, Except.map]

end PostFilter.Snapshot
