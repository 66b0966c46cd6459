import PostFilter.Post.Key

/-!
# Sets of post identifiers

A set is the strictly ascending list of its members, so equal sets are equal lists. The main
statements say what is a member after each operation, and that sets with the same members are equal.
-/

namespace PostFilter

structure IdSet where
  toList : List PostId
  ascending : toList.Pairwise (· < ·)
  deriving DecidableEq, Repr

namespace IdSet

instance : Membership PostId IdSet := ⟨fun s x => x ∈ s.toList⟩

instance (x : PostId) (s : IdSet) : Decidable (x ∈ s) :=
  inferInstanceAs (Decidable (x ∈ s.toList))

theorem mem_def {x : PostId} {s : IdSet} : x ∈ s ↔ x ∈ s.toList := Iff.rfl

theorem nodup_toList (s : IdSet) : s.toList.Nodup := by
  refine s.ascending.imp ?_
  rintro x _ h rfl
  exact PostId.lt_irrefl x h

def empty : IdSet := ⟨[], .nil⟩

instance : EmptyCollection IdSet := ⟨empty⟩

def size (s : IdSet) : Nat := s.toList.length

def insertList (x : PostId) : List PostId → List PostId
  | [] => [x]
  | y :: ys => if x < y then x :: y :: ys else if x = y then y :: ys else y :: insertList x ys

theorem mem_insertList {x y : PostId} {l : List PostId} :
    y ∈ insertList x l ↔ y = x ∨ y ∈ l := by
  induction l with
  | nil => simp [insertList]
  | cons z zs ih =>
    unfold insertList
    split
    · simp
    · split
      · next h => subst h; simp
      · simp only [List.mem_cons, ih]
        grind

theorem pairwise_insertList {x : PostId} {l : List PostId} (h : l.Pairwise (· < ·)) :
    (insertList x l).Pairwise (· < ·) := by
  induction l with
  | nil => simp [insertList]
  | cons y ys ih =>
    rw [List.pairwise_cons] at h
    unfold insertList
    split
    · next hxy =>
      refine List.pairwise_cons.mpr ⟨?_, List.pairwise_cons.mpr h⟩
      intro z hz
      rcases List.mem_cons.mp hz with rfl | hz
      · exact hxy
      · exact PostId.lt_trans hxy (h.1 z hz)
    · split
      · exact List.pairwise_cons.mpr h
      · next hlt hne =>
        refine List.pairwise_cons.mpr ⟨?_, ih h.2⟩
        intro z hz
        rcases mem_insertList.mp hz with rfl | hz
        · exact PostId.lt_of_not_lt hlt hne
        · exact h.1 z hz

def insert (x : PostId) (s : IdSet) : IdSet :=
  ⟨insertList x s.toList, pairwise_insertList s.ascending⟩

def ofList (l : List PostId) : IdSet :=
  l.foldr insert empty

def union (s t : IdSet) : IdSet :=
  s.toList.foldr insert t

def inter (s t : IdSet) : IdSet :=
  ⟨s.toList.filter (· ∈ t), s.ascending.filter _⟩

def diff (s t : IdSet) : IdSet :=
  ⟨s.toList.filter (· ∉ t), s.ascending.filter _⟩

instance : Union IdSet := ⟨union⟩
instance : Inter IdSet := ⟨inter⟩
instance : SDiff IdSet := ⟨diff⟩

@[simp] theorem not_mem_empty (x : PostId) : ¬ x ∈ (∅ : IdSet) :=
  List.not_mem_nil

@[simp] theorem mem_insert {x y : PostId} {s : IdSet} : y ∈ insert x s ↔ y = x ∨ y ∈ s :=
  mem_insertList

theorem mem_foldr_insert {y : PostId} {l : List PostId} {s : IdSet} :
    y ∈ l.foldr insert s ↔ y ∈ l ∨ y ∈ s := by
  induction l with
  | nil => simp
  | cons x xs ih => simp [ih, or_assoc]

@[simp] theorem mem_ofList {y : PostId} {l : List PostId} : y ∈ ofList l ↔ y ∈ l := by
  have h : ¬ y ∈ empty := not_mem_empty y
  simp [ofList, mem_foldr_insert, h]

@[simp] theorem mem_union {y : PostId} {s t : IdSet} : y ∈ s ∪ t ↔ y ∈ s ∨ y ∈ t :=
  mem_foldr_insert

@[simp] theorem mem_inter {y : PostId} {s t : IdSet} : y ∈ s ∩ t ↔ y ∈ s ∧ y ∈ t := by
  change y ∈ s.toList.filter _ ↔ _
  simp [mem_def]

@[simp] theorem mem_sdiff {y : PostId} {s t : IdSet} : y ∈ s \ t ↔ y ∈ s ∧ ¬ y ∈ t := by
  change y ∈ s.toList.filter _ ↔ _
  simp [mem_def]

theorem pairwise_ext : ∀ {l₁ l₂ : List PostId}, l₁.Pairwise (· < ·) → l₂.Pairwise (· < ·) →
    (∀ x, x ∈ l₁ ↔ x ∈ l₂) → l₁ = l₂
  | [], [], _, _, _ => rfl
  | [], b :: _, _, _, h => absurd ((h b).mpr (by simp)) (by simp)
  | a :: _, [], _, _, h => absurd ((h a).mp (by simp)) (by simp)
  | a :: as, b :: bs, h₁, h₂, h => by
    rw [List.pairwise_cons] at h₁ h₂
    have hab : a = b := by
      rcases List.mem_cons.mp ((h a).mp (by simp)) with hab | hab
      · exact hab
      · rcases List.mem_cons.mp ((h b).mpr (by simp)) with hba | hba
        · exact hba.symm
        · exact absurd (h₁.1 b hba) (PostId.lt_asymm (h₂.1 a hab))
    subst hab
    congr 1
    refine pairwise_ext h₁.2 h₂.2 fun x => ?_
    have hx := h x
    simp only [List.mem_cons] at hx
    have ha₁ : a ∉ as := fun hm => PostId.lt_irrefl a (h₁.1 a hm)
    have ha₂ : a ∉ bs := fun hm => PostId.lt_irrefl a (h₂.1 a hm)
    by_cases hxa : x = a
    · subst hxa; simp [ha₁, ha₂]
    · simpa [hxa] using hx

theorem ext {s t : IdSet} (h : ∀ x, x ∈ s ↔ x ∈ t) : s = t := by
  cases s; cases t
  congr 1
  exact pairwise_ext ‹_› ‹_› h

/-- The identifiers that a list of keys stands for. The first key that is none decides the error. -/
def ofKeys (keys : List PostKey) : Except StoreError IdSet :=
  (keys.mapM PostKey.normalize).map ofList

end IdSet

end PostFilter
