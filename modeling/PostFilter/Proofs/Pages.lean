import PostFilter.Proofs.Lookups
import PostFilter.Proofs.PostIds
import PostFilter.Proofs.Timestamps
import PostFilter.Report.Page

/-!
# Pages

A page lists each matched post once, in an order that leaves no choice: by descending time, posts
without a time last, and by descending identifier where the times do not differ. A limit keeps the
beginning of this list. Each row shows what the snapshot knows about the first post with its
identifier.
-/

namespace PostFilter

/-! ## Chronology -/

/-- By year, then by month, then by day. -/
def Date.Before (d e : Date) : Prop :=
  d.year < e.year ∨ d.year = e.year ∧ (d.month < e.month ∨ d.month = e.month ∧ d.day < e.day)

theorem Date.eq_iff {d e : Date} :
    d = e ↔ d.year = e.year ∧ d.month = e.month ∧ d.day = e.day := by
  cases d
  cases e
  simp

namespace Instant

/-- By date, then by second of the day, then by nanosecond. So a leap second comes between the
second that it follows and the next one. -/
def Before (t u : Instant) : Prop :=
  t.date.Before u.date ∨ t.date = u.date ∧
    (t.second < u.second ∨ t.second = u.second ∧ t.nano < u.nano)

variable {t u : Instant}

theorem eq_iff : t = u ↔ t.date = u.date ∧ t.second = u.second ∧ t.nano = u.nano := by
  cases t
  cases u
  simp

/-- Each part of an instant stays below the factor that it has in the rank. -/
theorem parts_lt (t : Instant) :
    t.date.month < 13 ∧ t.date.day < 32 ∧ t.second < 86400 ∧ t.nano < 2000000000 :=
  ⟨Nat.lt_succ_of_le t.date.month_le,
    Nat.lt_succ_of_le (t.date.day_le.trans (daysInMonth_le _ _)), t.second_lt, t.nano_lt⟩

theorem rank_eq_iff : t.rank = u.rank ↔ t = u := by
  have ht := t.parts_lt
  have hu := u.parts_lt
  rw [eq_iff, Date.eq_iff, rank, rank]
  omega

theorem rank_lt_iff : t.rank < u.rank ↔ t.Before u := by
  have ht := t.parts_lt
  have hu := u.parts_lt
  rw [Before, Date.Before, Date.eq_iff, rank, rank]
  omega

end Instant

/-! ## The order of rows -/

namespace PostRow

/-- A row with a time comes before one without, a later time before an earlier one, and among rows
with the same time, or with none, the greater identifier comes first. -/
inductive ListedBefore (a b : PostRow) : Prop
  | timed {t : Instant} : a.createdAt = some t → b.createdAt = none → ListedBefore a b
  | later {t u : Instant} : a.createdAt = some t → b.createdAt = some u → u.Before t →
      ListedBefore a b
  | tied : a.createdAt = b.createdAt → b.id < a.id → ListedBefore a b

/-- What a row is listed by. Rows are listed by descending keys, so no time is the least. -/
def sortKey (row : PostRow) : WithBot Int ×ₗ PostId :=
  toLex (row.createdAt.elim ⊥ fun t => (t.rank : WithBot Int), row.id)

variable {a b : PostRow}

theorem precedes_iff_sortKey : a.precedes b = true ↔ b.sortKey < a.sortKey := by
  rw [sortKey, sortKey, Prod.Lex.toLex_lt_toLex]
  fun_cases precedes a b with
  | case1 t u ha hb h => simp [ha, hb, h]
  | case2 t u ha hb h h' => simp [ha, hb, h, h'.ne']
  | case3 t u ha hb h h' =>
    have heq : u.rank = t.rank := le_antisymm (not_lt.mp h') (not_lt.mp h)
    simp [ha, hb, heq]
  | case4 t ha hb => simp [ha, hb]
  | case5 t ha hb => simp [ha, hb]
  | case6 ha hb => simp [ha, hb]

theorem not_precedes_iff : (!b.precedes a) = true ↔ b.sortKey ≤ a.sortKey := by
  rw [Bool.not_eq_true', ← Bool.not_eq_true, precedes_iff_sortKey, not_lt]

theorem listedBefore_iff_sortKey : a.ListedBefore b ↔ b.sortKey < a.sortKey := by
  rw [sortKey, sortKey, Prod.Lex.toLex_lt_toLex]
  constructor
  · rintro (⟨ha, hb⟩ | ⟨ha, hb, h⟩ | ⟨heq, h⟩)
    · simp [ha, hb]
    · simp [ha, hb, Instant.rank_lt_iff.mpr h]
    · simp [heq, h]
  · cases ha : a.createdAt with
    | none =>
      cases hb : b.createdAt with
      | none => simpa using ListedBefore.tied (ha.trans hb.symm)
      | some u => simp
    | some t =>
      cases hb : b.createdAt with
      | none => exact fun _ => .timed ha hb
      | some u =>
        rintro (h | ⟨heq, h⟩)
        · exact .later ha hb (Instant.rank_lt_iff.mp (by simpa using h))
        · exact .tied (by simp_all [Instant.rank_eq_iff]) h

theorem precedes_iff : a.precedes b = true ↔ a.ListedBefore b :=
  precedes_iff_sortKey.trans listedBefore_iff_sortKey.symm

instance (a b : PostRow) : Decidable (a.ListedBefore b) :=
  decidable_of_iff _ precedes_iff

theorem ListedBefore.asymm (h : a.ListedBefore b) : ¬ b.ListedBefore a := by
  rw [listedBefore_iff_sortKey] at h ⊢
  exact h.asymm

@[simp] theorem id_ofId (s : Snapshot) (x : PostId) : (ofId s x).id = x := by
  unfold ofId
  split <;> rfl

/-- The name is that of the first user with the identifier, and none if there is no such user. -/
structure NamesUser (s : Snapshot) (id : String) (name : Option String) : Prop where
  first {before after : List User} {u : User} : s.users = before ++ u :: after → u.id = id →
    (∀ v ∈ before, v.id ≠ id) → name = some u.username
  absent : (∀ u ∈ s.users, u.id ≠ id) → name = none

theorem namesUser_authorOf? (s : Snapshot) (p : Post) :
    NamesUser s p.authorId (s.authorOf? p) where
  first {before after u} husers hu hbefore := by
    have hfind : s.users.find? (·.id == p.authorId) = some u :=
      List.find?_eq_some_iff_append.mpr ⟨by simpa using hu, before, after, husers, by simpa⟩
    simp [Snapshot.authorOf?, hfind]
  absent h := by
    have hfind : s.users.find? (·.id == p.authorId) = none := by simpa using h
    simp [Snapshot.authorOf?, hfind]

/-- The row has its author, content and time from the first post with its identifier, and none of
them if there is no such post. -/
structure Shows (s : Snapshot) (row : PostRow) : Prop where
  first {before after : List Post} {p : Post} : s.posts = before ++ p :: after → p.id = row.id →
    (∀ q ∈ before, q.id ≠ row.id) → NamesUser s p.authorId row.author ∧
      row.content = some p.content ∧ row.createdAt = p.createdAt
  absent : (∀ p ∈ s.posts, p.id ≠ row.id) →
    row.author = none ∧ row.content = none ∧ row.createdAt = none

theorem shows_ofId (s : Snapshot) (x : PostId) : (ofId s x).Shows s where
  first {before after p} hposts hp hbefore := by
    rw [id_ofId] at hp hbefore
    have hfind : s.findPost? x = some p :=
      List.find?_eq_some_iff_append.mpr ⟨by simpa using hp, before, after, hposts, by simpa⟩
    simp [ofId, hfind, namesUser_authorOf? s p]
  absent h := by
    have hfind : s.findPost? x = none := by simpa [Snapshot.findPost?] using h
    simp [ofId, hfind]

end PostRow

/-! ## Pages -/

namespace PostPage

open PostRow

variable (s : Snapshot) (ids : IdSet)

/-- The rows are those of the identifiers, in another order. -/
theorem perm_allRows : (allRows s ids).Perm (ids.toList.map (ofId s)) :=
  List.mergeSort_perm _ _

theorem perm_ids_allRows : ((allRows s ids).map (·.id)).Perm ids.toList := by
  simpa [Function.comp_def] using (perm_allRows s ids).map (·.id)

theorem length_allRows : (allRows s ids).length = ids.size := by
  simpa [IdSet.size] using (perm_allRows s ids).length_eq

theorem pairwise_allRows : (allRows s ids).Pairwise ListedBefore := by
  have hle : (allRows s ids).Pairwise fun a b => b.sortKey ≤ a.sortKey := by
    refine (List.pairwise_mergeSort ?_ ?_ (ids.toList.map (ofId s))).imp not_precedes_iff.mp
    · intro a b c
      simp only [not_precedes_iff]
      exact fun hab hbc => hbc.trans hab
    · intro a b
      rw [Bool.or_eq_true, not_precedes_iff, not_precedes_iff]
      exact le_total _ _
  have hne : (allRows s ids).Pairwise fun a b => a.id ≠ b.id :=
    List.pairwise_map.mp ((perm_ids_allRows s ids).nodup_iff.mpr ids.nodup_toList)
  refine (hle.and hne).imp ?_
  rintro a b ⟨h, hid⟩
  refine listedBefore_iff_sortKey.mpr (h.lt_of_ne fun heq => hid ?_)
  exact (congrArg (fun k => (ofLex k).2) heq).symm

variable {s ids} in
/-- There is only one way to list the rows in this order. -/
theorem allRows_eq {rows : List PostRow} (hperm : rows.Perm (ids.toList.map (ofId s)))
    (h : rows.Pairwise ListedBefore) : allRows s ids = rows :=
  List.Perm.eq_of_pairwise (fun _ _ _ _ hab hba => absurd hba hab.asymm) (pairwise_allRows s ids) h
    ((perm_allRows s ids).trans hperm.symm)

theorem rows_collect_some (k : Nat) :
    (collect s ids (some k)).rows = (allRows s ids).take (min k ids.size) := by
  rw [← length_allRows s ids, ← List.take_eq_take_min]
  rfl

/-- Every page is a beginning of the list of all rows. -/
theorem exists_rows_append (limit : Option Nat) :
    ∃ omitted, allRows s ids = (collect s ids limit).rows ++ omitted := by
  cases limit with
  | none => exact ⟨[], by simp [collect]⟩
  | some k => exact ⟨_, (List.take_append_drop k _).symm⟩

theorem truncated_collect_iff (limit : Option Nat) :
    (collect s ids limit).truncated = true ↔ ∃ k, limit = some k ∧ k < ids.size := by
  cases limit <;> simp [truncated, collect, length_allRows]

variable {s ids} in
theorem exists_ofId_of_mem_collect {limit : Option Nat} {row : PostRow}
    (h : row ∈ (collect s ids limit).rows) : ∃ x ∈ ids, ofId s x = row := by
  obtain ⟨omitted, heq⟩ := exists_rows_append s ids limit
  have hall : row ∈ allRows s ids := by simp [heq, h]
  exact List.mem_map.mp ((perm_allRows s ids).mem_iff.mp hall)

/-- Without a limit, a page lists each identifier of the set once, also those that the snapshot does
not hold, and its rows are in strict order. A limit `k` keeps the first `k` rows, if there are as
many, so that nothing it omits comes before anything it keeps. The total counts the whole set, and a
page is truncated if the limit is smaller than that. All rows show the first posts with their
identifiers. -/
theorem collect_sorts_then_cuts (s : Snapshot) (ids : IdSet) :
    ((collect s ids none).rows.map (·.id)).Perm ids.toList ∧ ids.toList.Nodup ∧
    (collect s ids none).rows.Pairwise ListedBefore ∧
    (∀ a b : PostRow, a.ListedBefore b → ¬ b.ListedBefore a) ∧
    (∀ k, (collect s ids (some k)).rows = (collect s ids none).rows.take (min k ids.size)) ∧
    ∀ limit,
      (∀ row ∈ (collect s ids limit).rows, ∀ other ∈ (collect s ids none).rows,
        other ∉ (collect s ids limit).rows →
          row.ListedBefore other ∧ ¬ other.ListedBefore row) ∧
      (collect s ids limit).total = ids.size ∧
      ((collect s ids limit).truncated = true ↔ ∃ k, limit = some k ∧ k < ids.size) ∧
      ∀ row ∈ (collect s ids limit).rows, row.Shows s := by
  refine ⟨perm_ids_allRows s ids, ids.nodup_toList, pairwise_allRows s ids,
    fun a b => ListedBefore.asymm, rows_collect_some s ids, fun limit => ⟨?_, rfl,
    truncated_collect_iff s ids limit, ?_⟩⟩
  · intro row hrow other hother hnot
    obtain ⟨omitted, heq⟩ := exists_rows_append s ids limit
    have homitted : other ∈ omitted := by
      have hmem : other ∈ (collect s ids limit).rows ++ omitted := heq ▸ hother
      exact (List.mem_append.mp hmem).resolve_left hnot
    have hpairwise := pairwise_allRows s ids
    rw [heq, List.pairwise_append] at hpairwise
    have hbefore := hpairwise.2.2 row hrow other homitted
    exact ⟨hbefore, hbefore.asymm⟩
  · intro row hrow
    obtain ⟨x, -, rfl⟩ := exists_ofId_of_mem_collect hrow
    exact shows_ofId s x

/-- Noon of the last day of 2016, or the leap second at its end. -/
def newYearsEve (leap : Bool) : Option Instant :=
  (Date.ofParts? 2016 12 31).bind fun d =>
    if leap then Instant.ofParts? d 86399 1000000000 else Instant.ofParts? d 43200 0

/-- Two posts of the same time, one of them recorded twice, a later one by an unknown author, and
one without a time. -/
def timeline : Snapshot where
  users := [⟨"1", "alice"⟩]
  posts := [⟨.ofByte 1, "1", "one", newYearsEve false⟩, ⟨.ofByte 2, "1", "two", newYearsEve false⟩,
    ⟨.ofByte 2, "2", "two again", none⟩, ⟨.ofByte 3, "2", "three", newYearsEve true⟩,
    ⟨.ofByte 4, "1", "four", none⟩]
  tags := []

def timelineIds : IdSet :=
  .ofList [.ofByte 1, .ofByte 2, .ofByte 3, .ofByte 4, .ofByte 5]

theorem allRows_timeline : allRows timeline timelineIds =
    [.ofByte 3, .ofByte 2, .ofByte 1, .ofByte 5, .ofByte 4].map (ofId timeline) :=
  allRows_eq (by decide +kernel) (by decide +kernel)

theorem collect_sorts_then_cuts_timeline :
    (collect timeline timelineIds (some 2)).rows.map (·.id) = [.ofByte 3, .ofByte 2] ∧
      (collect timeline timelineIds (some 2)).truncated = true ∧
      (ofId timeline (.ofByte 2)).ListedBefore (ofId timeline (.ofByte 1)) ∧
      (ofId timeline (.ofByte 2)).content = some "two" ∧
      (ofId timeline (.ofByte 2)).author = some "alice" := by
  obtain ⟨-, -, -, -, hcut, hlimit⟩ := collect_sorts_then_cuts timeline timelineIds
  obtain ⟨homitted, -, htruncated, hshows⟩ := hlimit (some 2)
  have hall : (collect timeline timelineIds none).rows = _ := allRows_timeline
  rw [hcut, hall] at homitted hshows
  have hposts : timeline.posts =
      [timeline.posts[0]] ++ timeline.posts[1] :: timeline.posts.drop 2 := rfl
  have husers : timeline.users = [] ++ ⟨"1", "alice"⟩ :: [] := rfl
  obtain ⟨hauthor, hcontent, -⟩ :=
    (hshows (ofId timeline (.ofByte 2)) (by decide +kernel)).first hposts rfl (by decide +kernel)
  refine ⟨by rw [hcut, hall]; decide +kernel, htruncated.mpr ⟨2, rfl, by decide +kernel⟩, ?_,
    hcontent, hauthor.first husers rfl (List.forall_mem_nil _)⟩
  exact (homitted _ (by decide +kernel) _ (by decide +kernel) (by decide +kernel)).1

end PostPage

end PostFilter
