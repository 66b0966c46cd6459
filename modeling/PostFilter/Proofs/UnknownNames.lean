import PostFilter.Hint.Unknown
import PostFilter.Proofs.Algebra
import PostFilter.Proofs.Suggestions

/-!
# Unknown names

The names that are reported for a filter are those of the leaves that a snapshot knows nothing
about, which are leaves that match no post. Each is reported once, at its first place, and what is
suggested in its stead is a name that the snapshot does know.
-/

namespace PostFilter

theorem eligible_of_similarName? {query : String} {candidates : List String} {name : String}
    (h : similarName? query candidates = some name) :
    name ≠ "" ∧ name ≠ query ∧ name ∈ candidates := by
  obtain ⟨hname, -⟩ := similarName?_eq_some_iff.mp h
  exact ⟨hname.eligible.1, hname.eligible.2, hname.mem⟩

/-! ## Unknown leaves -/

/-- The snapshot has no user or tag with the name of the leaf. -/
def Expr.Leaf.Unknown (s : Snapshot) : Expr.Leaf → Prop
  | author u => s.findUser? u = none
  | tag l => s.findTag? l = none

variable {s : Snapshot} {seen ls : List Expr.Leaf} {l : Expr.Leaf} {e : Expr}

theorem unknown_iff : l.Unknown s ↔ l.name ∉ l.candidates s := by
  cases l with
  | author u => exact Snapshot.findUser?_eq_none_iff
  | tag l => exact Snapshot.findTag?_eq_none_iff

/-- Nothing is found behind an unknown leaf. -/
theorem resolve_of_unknown (h : l.Unknown s) : l.toExpr.resolve s.source = .ok ∅ := by
  refine Expr.resolve_toExpr ?_
  cases l with
  | author u =>
    have hkeys : s.source.keys (.author u) = .ok [] := by
      simp only [Expr.Leaf.Unknown] at h
      simp [Source.keys, Snapshot.source, Snapshot.authorKeys, h]
    rw [Expr.Leaf.lookup, Source.found, hkeys]
    rfl
  | tag l =>
    have hkeys : s.source.keys (.tag l) = .ok [] := by
      simp only [Expr.Leaf.Unknown] at h
      simp [Source.keys, Snapshot.source, Except.map, h]
    rw [Expr.Leaf.lookup, Source.found, hkeys]
    rfl

theorem mem_unknownLeaves :
    l ∈ unknownLeaves s seen ls ↔ l ∈ ls ∧ l ∉ seen ∧ l.Unknown s := by
  fun_induction unknownLeaves s seen ls with
  | case1 seen => simp
  | case2 seen m ls hskip ih =>
    have hm : l = m → ¬ (l ∉ seen ∧ l.Unknown s) := by
      rintro rfl ⟨hseen, hunknown⟩
      exact hskip.elim (unknown_iff.mp hunknown) hseen
    rw [ih, List.mem_cons]
    tauto
  | case3 seen m ls hkeep ih =>
    obtain ⟨hknown, hseen⟩ := not_or.mp hkeep
    have hm : l = m → l ∉ seen ∧ l.Unknown s := by
      rintro rfl
      exact ⟨hseen, unknown_iff.mpr hknown⟩
    rw [List.mem_cons, ih, List.mem_cons, List.mem_cons]
    tauto

/-- One more element in front moves the places of all others. -/
theorem pairwise_idxOf_cons {as : List Expr.Leaf} (hne : ∀ a ∈ as, l ≠ a)
    (h : as.Pairwise fun a b => ls.idxOf a < ls.idxOf b) :
    as.Pairwise fun a b => (l :: ls).idxOf a < (l :: ls).idxOf b := by
  refine h.imp_of_mem fun {a b} ha hb hab => ?_
  rw [List.idxOf_cons_ne _ (hne a ha), List.idxOf_cons_ne _ (hne b hb)]
  exact Nat.succ_lt_succ hab

/-- The leaves come in the order of their first places, so no leaf comes twice. -/
theorem pairwise_unknownLeaves (s : Snapshot) (seen ls : List Expr.Leaf) :
    (unknownLeaves s seen ls).Pairwise fun a b => ls.idxOf a < ls.idxOf b := by
  fun_induction unknownLeaves s seen ls with
  | case1 seen => exact .nil
  | case2 seen l ls hskip ih =>
    refine pairwise_idxOf_cons ?_ ih
    rintro a ha rfl
    obtain ⟨-, hseen, hunknown⟩ := mem_unknownLeaves.mp ha
    exact hskip.elim (unknown_iff.mp hunknown) hseen
  | case3 seen l ls hkeep ih =>
    have hne : ∀ a ∈ unknownLeaves s (l :: seen) ls, l ≠ a := by
      rintro a ha rfl
      exact (mem_unknownLeaves.mp ha).2.1 List.mem_cons_self
    refine List.pairwise_cons.mpr ⟨fun a ha => ?_, pairwise_idxOf_cons hne ih⟩
    rw [List.idxOf_cons_self, List.idxOf_cons_ne _ (hne a ha)]
    exact Nat.succ_pos _

/-! ## Reports -/

/-- What kind of name is unknown, and the name. -/
def UnknownName.entry (n : UnknownName) : String × String :=
  (n.leaf.kind, n.leaf.name)

theorem leaf_eq_of_entry_eq {m n : UnknownName} (h : m.entry = n.entry) : m.leaf = n.leaf := by
  obtain ⟨hkind, hname⟩ := Prod.mk.inj h
  cases hm : m.leaf <;> cases hn : n.leaf <;>
    simp_all [Expr.Leaf.kind, Expr.Leaf.name]

theorem mem_unknownNames {n : UnknownName} : n ∈ unknownNames s e ↔
    n.leaf ∈ e.leaves ∧ n.leaf.Unknown s ∧
      n.suggestion = similarName? n.leaf.name (n.leaf.candidates s) := by
  obtain ⟨l, suggestion⟩ := n
  simp only [unknownNames, List.mem_map, mem_unknownLeaves, UnknownName.mk.injEq]
  constructor
  · rintro ⟨l, ⟨hl, -, hunknown⟩, rfl, rfl⟩
    exact ⟨hl, hunknown, rfl⟩
  · rintro ⟨hl, hunknown, rfl⟩
    exact ⟨l, ⟨hl, List.not_mem_nil, hunknown⟩, rfl, rfl⟩

theorem pairwise_unknownNames (s : Snapshot) (e : Expr) :
    (unknownNames s e).Pairwise fun m n => e.leaves.idxOf m.leaf < e.leaves.idxOf n.leaf :=
  List.pairwise_map.mpr (pairwise_unknownLeaves s [] e.leaves)

/-- A name is reported as one of a user or of a tag exactly if the filter has a leaf of this kind
with the name and the snapshot finds nothing by it. No report comes twice, and they come in the
order in which their leaves first stand in the filter. Each of these leaves matches no post. What is
suggested is a nonempty name of the same kind that the snapshot has, and not the one reported. -/
theorem unknownNames_exact (s : Snapshot) (e : Expr) :
    (∀ kind name, (kind, name) ∈ (unknownNames s e).map UnknownName.entry ↔
      kind = "user" ∧ .author name ∈ e.leaves ∧ s.findUser? name = none ∨
      kind = "tag" ∧ .tag name ∈ e.leaves ∧ s.findTag? name = none) ∧
    ((unknownNames s e).map UnknownName.entry).Nodup ∧
    ((unknownNames s e).Pairwise fun m n => e.leaves.idxOf m.leaf < e.leaves.idxOf n.leaf) ∧
    (∀ n ∈ unknownNames s e, n.leaf.toExpr.resolve s.source = .ok ∅) ∧
    (∀ u t, ⟨.author u, some t⟩ ∈ unknownNames s e → t ≠ "" ∧ t ≠ u ∧ t ∈ s.usernames) ∧
    ∀ l t, ⟨.tag l, some t⟩ ∈ unknownNames s e → t ≠ "" ∧ t ≠ l ∧ t ∈ s.labels := by
  refine ⟨fun kind name => ?_, ?_, pairwise_unknownNames s e, ?_, ?_, ?_⟩
  · rw [List.mem_map]
    constructor
    · rintro ⟨⟨l, suggestion⟩, hn, hentry⟩
      obtain ⟨hmem, hunknown, -⟩ := mem_unknownNames.mp hn
      obtain ⟨rfl, rfl⟩ := Prod.mk.inj hentry
      cases l with
      | author u => exact .inl ⟨rfl, hmem, hunknown⟩
      | tag l => exact .inr ⟨rfl, hmem, hunknown⟩
    · rintro (⟨rfl, hmem, hunknown⟩ | ⟨rfl, hmem, hunknown⟩)
      · exact ⟨⟨.author name, similarName? name s.usernames⟩,
          mem_unknownNames.mpr ⟨hmem, hunknown, rfl⟩, rfl⟩
      · exact ⟨⟨.tag name, similarName? name s.labels⟩,
          mem_unknownNames.mpr ⟨hmem, hunknown, rfl⟩, rfl⟩
  · refine List.pairwise_map.mpr ((pairwise_unknownNames s e).imp fun {m n} h heq => ?_)
    rw [leaf_eq_of_entry_eq heq] at h
    exact Nat.lt_irrefl _ h
  · exact fun n hn => resolve_of_unknown (mem_unknownNames.mp hn).2.1
  · exact fun u t h => eligible_of_similarName? (mem_unknownNames.mp h).2.2.symm
  · exact fun l t h => eligible_of_similarName? (mem_unknownNames.mp h).2.2.symm

/-- A user and a tag of one name, both unknown and the tag there twice, and a user that is known. -/
theorem unknownNames_exact_twice :
    let s : Snapshot := ⟨[⟨"1", "alice"⟩], [], [⟨"dog", []⟩]⟩
    let e : Expr :=
      .and (.or (.tag "dgo") (.author "dgo")) (.not (.or (.author "alice") (.tag "dgo")))
    unknownNames s e = [⟨.tag "dgo", some "dog"⟩, ⟨.author "dgo", none⟩] ∧
      ("user", "alice") ∉ (unknownNames s e).map UnknownName.entry ∧
      (Expr.tag "dgo").resolve s.source = .ok ∅ ∧ "dog" ∈ s.labels := by
  intro s e
  have h : unknownNames s e = [⟨.tag "dgo", some "dog"⟩, ⟨.author "dgo", none⟩] := by
    decide +kernel
  obtain ⟨hentries, -, -, hresolve, -, hlabels⟩ := unknownNames_exact s e
  have htag : ⟨.tag "dgo", some "dog"⟩ ∈ unknownNames s e := by simp [h]
  exact ⟨h, by simp [hentries, s, Snapshot.findUser?], hresolve _ htag, (hlabels _ _ htag).2.2⟩

end PostFilter
