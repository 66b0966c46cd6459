import PostFilter.Proofs.Algebra
import PostFilter.Proofs.Pages

/-!
# Authorship

A filter by author goes from a username to a user and on to the posts with the identifier of this
user. A row goes the other way, from a post to its author. The two agree as long as no identifier
and no username is used twice: a post is found by the name that it is shown with, and by no other.
-/

namespace PostFilter

/-- In a list without repeated keys, what is found by a key is the element with this key. -/
theorem find?_eq_some_iff_of_nodup {α κ : Type} [BEq κ] [LawfulBEq κ] {key : α → κ} {l : List α}
    (h : (l.map key).Nodup) {k : κ} {a : α} :
    l.find? (key · == k) = some a ↔ a ∈ l ∧ key a = k := by
  constructor
  · intro hfind
    exact ⟨List.mem_of_find?_eq_some hfind, by simpa using List.find?_some hfind⟩
  · rintro ⟨ha, rfl⟩
    have hsome : (l.find? (key · == key a)).isSome = true :=
      List.find?_isSome.mpr ⟨a, ha, beq_self_eq_true (key a)⟩
    obtain ⟨b, hb⟩ := Option.isSome_iff_exists.mp hsome
    have hkey : key b = key a := by simpa using List.find?_some hb
    rw [hb, List.inj_on_of_nodup_map h (List.mem_of_find?_eq_some hb) ha hkey]

namespace Snapshot

/-- No two users have the same identifier or the same username, and no two posts have the same
identifier. -/
structure Distinct (s : Snapshot) : Prop where
  userIds : (s.users.map (·.id)).Nodup
  usernames : s.usernames.Nodup
  postIds : (s.posts.map (·.id)).Nodup

namespace Distinct

variable {s : Snapshot} (h : s.Distinct) {u : String} {v : User} {x : PostId} {p : Post}
include h

theorem findUser?_eq_some_iff : s.findUser? u = some v ↔ v ∈ s.users ∧ v.username = u :=
  find?_eq_some_iff_of_nodup h.usernames

theorem findPost?_eq_some_iff : s.findPost? x = some p ↔ p ∈ s.posts ∧ p.id = x :=
  find?_eq_some_iff_of_nodup h.postIds

theorem authorOf?_eq_some_iff :
    s.authorOf? p = some u ↔ ∃ v ∈ s.users, v.id = p.authorId ∧ v.username = u := by
  simp [authorOf?, find?_eq_some_iff_of_nodup h.userIds, and_assoc]

/-- The way from the name to the posts is the way from the post to the name, backwards. -/
theorem brings_author_iff_authorOf? : s.source.Brings (.author u) x ↔
    ∃ p, s.findPost? x = some p ∧ s.authorOf? p = some u := by
  simp only [brings_author_iff, h.findUser?_eq_some_iff, h.findPost?_eq_some_iff,
    h.authorOf?_eq_some_iff]
  constructor
  · rintro ⟨v, ⟨hv, rfl⟩, p, hp, hauthor, rfl⟩
    exact ⟨p, ⟨hp, rfl⟩, v, hv, hauthor.symm, rfl⟩
  · rintro ⟨p, ⟨hp, rfl⟩, v, hv, hauthor, rfl⟩
    exact ⟨v, ⟨hv, rfl⟩, p, hp, hauthor.symm, rfl⟩

end Distinct

end Snapshot

theorem PostRow.author_ofId_eq_some_iff {s : Snapshot} {x : PostId} {u : String} :
    (ofId s x).author = some u ↔ ∃ p, s.findPost? x = some p ∧ s.authorOf? p = some u := by
  unfold ofId
  split <;> simp [*]

open Snapshot PostRow PostPage

/-- The posts `posts u` that a filter by the author `u` matches are those that are shown with this
author. All rows of their page show `u`, and every row of any page that shows `u` is one of them. No
post is matched under two names, and all names together match the posts whose author is known. -/
theorem author_filter_agrees_with_rows (s : Snapshot) (h : s.Distinct) :
    ∃ posts : String → IdSet,
      (∀ u, (Expr.author u).resolve s.source = .ok (posts u)) ∧
      (∀ u x, x ∈ posts u ↔ ∃ p, s.findPost? x = some p ∧ s.authorOf? p = some u) ∧
      (∀ u limit, ∀ row ∈ (collect s (posts u) limit).rows, row.author = some u) ∧
      (∀ ids limit, ∀ row ∈ (collect s ids limit).rows, ∀ u,
        row.author = some u → row.id ∈ posts u) ∧
      (∀ u v x, x ∈ posts u → x ∈ posts v → u = v) ∧
      ∀ x, (∃ u ∈ s.usernames, x ∈ posts u) ↔
        ∃ p ∈ s.posts, p.id = x ∧ (s.authorOf? p).isSome = true := by
  have hmem : ∀ u x, x ∈ s.source.posts (.author u) ↔
      ∃ p, s.findPost? x = some p ∧ s.authorOf? p = some u := by
    intro u x
    rw [Source.mem_posts (s.usable_author u), h.brings_author_iff_authorOf?]
  refine ⟨fun u => s.source.posts (.author u), fun u => ?_, hmem, ?_, ?_, ?_, ?_⟩
  · obtain ⟨t, ht⟩ := Source.usable_iff.mp (s.usable_author u)
    have hresolve : (Expr.author u).resolve s.source = .ok t :=
      Expr.resolve_toExpr (l := .author u) ht
    simp [hresolve, Source.posts_of_found ht]
  · intro u limit row hrow
    obtain ⟨x, hx, rfl⟩ := exists_ofId_of_mem_collect hrow
    exact author_ofId_eq_some_iff.mpr ((hmem u x).mp hx)
  · intro ids limit row hrow u hauthor
    obtain ⟨x, -, rfl⟩ := exists_ofId_of_mem_collect hrow
    rw [id_ofId]
    exact (hmem u x).mpr (author_ofId_eq_some_iff.mp hauthor)
  · intro u v x hu hv
    obtain ⟨p, hp, hpu⟩ := (hmem u x).mp hu
    obtain ⟨q, hq, hqv⟩ := (hmem v x).mp hv
    obtain rfl : p = q := Option.some.inj (hp.symm.trans hq)
    exact Option.some.inj (hpu.symm.trans hqv)
  · intro x
    simp only [hmem, h.findPost?_eq_some_iff, Option.isSome_iff_exists]
    constructor
    · rintro ⟨u, -, p, ⟨hp, hx⟩, hauthor⟩
      exact ⟨p, hp, hx, u, hauthor⟩
    · rintro ⟨p, hp, hx, u, hauthor⟩
      obtain ⟨v, hv, -, rfl⟩ := h.authorOf?_eq_some_iff.mp hauthor
      exact ⟨v.username, List.mem_map_of_mem hv, p, ⟨hp, hx⟩, hauthor⟩

/-- Two authors, one of them without a post, and a post whose author is not known. -/
def bylines : Snapshot where
  users := [⟨"1", "alice"⟩, ⟨"2", "1"⟩]
  posts := [⟨.ofByte 1, "1", "one", none⟩, ⟨.ofByte 2, "3", "two", none⟩]
  tags := []

theorem author_filter_agrees_with_rows_bylines : bylines.Distinct ∧
    ∃ posts : String → IdSet, (Expr.author "alice").resolve bylines.source = .ok (posts "alice") ∧
      .ofByte 1 ∈ posts "alice" ∧ .ofByte 1 ∉ posts "1" ∧
      ¬ ∃ u ∈ bylines.usernames, .ofByte 2 ∈ posts u := by
  have h : bylines.Distinct := ⟨by decide, by decide, by decide⟩
  obtain ⟨posts, hresolve, hmem, -, -, hdisjoint, hunion⟩ :=
    author_filter_agrees_with_rows bylines h
  have hone : .ofByte 1 ∈ posts "alice" := (hmem _ _).mpr ⟨_, rfl, rfl⟩
  refine ⟨h, posts, hresolve "alice", hone, ?_, ?_⟩
  · exact fun hmem => absurd (hdisjoint _ _ _ hone hmem) (by decide)
  · rw [hunion]
    decide

end PostFilter
