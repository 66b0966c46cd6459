import PostFilter.Proofs.SnapshotLookups

/-!
# Stores under updates

A store is a log of what has been added to it. Whatever it answers is read off the snapshot it
started from and the updates since, in their order. Nothing is removed or shadowed later on, and
updates of one tag leave the other tags alone.
-/

namespace PostFilter

inductive Update where
  | user (u : User)
  | post (p : Post)
  | tag (label : String) (key : PostKey)
  deriving DecidableEq, Repr

namespace Update

def apply (s : Snapshot) : Update → Snapshot
  | user u => s.addUser u
  | post p => s.addPost p
  | tag l k => s.tagPost l k

def user? : Update → Option User
  | user u => some u
  | _ => none

def post? : Update → Option Post
  | post p => some p
  | _ => none

/-- The label that is used, whether there is such a tag already or not. -/
def label? : Update → Option String
  | tag l _ => some l
  | _ => none

/-- The key that is put under the label `l`. -/
def keyFor? (l : String) : Update → Option PostKey
  | tag m k => if m = l then some k else none
  | _ => none

theorem mem_filterMap_label? {l : String} {us : List Update} :
    l ∈ us.filterMap label? ↔ ∃ k, tag l k ∈ us := by
  rw [List.mem_filterMap]
  constructor
  · rintro ⟨u, hu, h⟩
    cases u with
    | tag m k =>
      cases h
      exact ⟨k, hu⟩
    | _ => cases h
  · rintro ⟨k, hk⟩
    exact ⟨_, hk, rfl⟩

end Update

namespace Snapshot

variable {s : Snapshot} {l m : String} {k : PostKey} {us : List Update}

/-- The store after some updates, the first of which comes first. -/
def after (s : Snapshot) (us : List Update) : Snapshot :=
  us.foldl Update.apply s

@[simp] theorem after_nil (s : Snapshot) : s.after [] = s := rfl

@[simp] theorem after_cons (s : Snapshot) (u : Update) (us : List Update) :
    s.after (u :: us) = (u.apply s).after us := rfl

theorem after_append (s : Snapshot) (us vs : List Update) :
    s.after (us ++ vs) = (s.after us).after vs :=
  List.foldl_append

/-! ## One update -/

theorem find?_tagIn (l m : String) (k : PostKey) (ts : List Tag) :
    (tagIn l k ts).find? (·.label == m) =
      if m = l then some ⟨l, ((ts.find? (·.label == l)).map (·.keys)).getD [] ++ [k]⟩
      else ts.find? (·.label == m) := by
  induction ts with
  | nil => simp [tagIn, List.find?_cons]; grind
  | cons t ts ih =>
    by_cases h : t.label = l
    · simp [tagIn, h, List.find?_cons]; grind
    · simp [tagIn, h, List.find?_cons, ih]; grind

/-- Tagging a post touches the first tag with the label, and no tag with another one. -/
theorem findTag?_tagPost (s : Snapshot) (l m : String) (k : PostKey) :
    (s.tagPost l k).findTag? m =
      if m = l then some ⟨l, s.keysUnder l ++ [k]⟩ else s.findTag? m :=
  find?_tagIn l m k s.tags

theorem keysUnder_tagPost (s : Snapshot) (l m : String) (k : PostKey) :
    (s.tagPost l k).keysUnder m = if m = l then s.keysUnder m ++ [k] else s.keysUnder m := by
  rw [keysUnder, findTag?_tagPost]
  split <;> simp [keysUnder, *]

theorem map_label_tagIn (l : String) (k : PostKey) (ts : List Tag) :
    (tagIn l k ts).map (·.label) =
      if l ∈ ts.map (·.label) then ts.map (·.label) else ts.map (·.label) ++ [l] := by
  induction ts with
  | nil => simp [tagIn]
  | cons t ts ih =>
    by_cases h : t.label = l
    · simp [tagIn, h]
    · simp [tagIn, h, ih]; grind

theorem labels_tagPost (s : Snapshot) (l : String) (k : PostKey) :
    (s.tagPost l k).labels = if l ∈ s.labels then s.labels else s.labels ++ [l] :=
  map_label_tagIn l k s.tags

/-! ## Runs of updates -/

theorem users_after (s : Snapshot) (us : List Update) :
    (s.after us).users = s.users ++ us.filterMap Update.user? := by
  induction us generalizing s with
  | nil => simp
  | cons u us ih =>
    rw [after_cons, ih]
    cases u <;> simp [Update.apply, Update.user?, addUser, addPost, tagPost, List.filterMap_cons]

theorem posts_after (s : Snapshot) (us : List Update) :
    (s.after us).posts = s.posts ++ us.filterMap Update.post? := by
  induction us generalizing s with
  | nil => simp
  | cons u us ih =>
    rw [after_cons, ih]
    cases u <;> simp [Update.apply, Update.post?, addUser, addPost, tagPost, List.filterMap_cons]

theorem labels_after (s : Snapshot) (us : List Update) : (s.after us).labels =
    s.labels ++ ((us.filterMap Update.label?).filter (· ∉ s.labels)).eraseDups := by
  induction us generalizing s with
  | nil => simp
  | cons u us ih =>
    rw [after_cons, ih]
    cases u with
    | user u => rfl
    | post p => rfl
    | tag l k =>
      have hused : (Update.tag l k :: us).filterMap Update.label? =
          l :: us.filterMap Update.label? := rfl
      rw [Update.apply, labels_tagPost, hused]
      by_cases h : l ∈ s.labels
      · simp [h]
      · have hfilter : (us.filterMap Update.label?).filter (· ∉ s.labels ++ [l]) =
            ((us.filterMap Update.label?).filter (· ∉ s.labels)).filter (!· == l) := by
          rw [List.filter_filter]
          refine List.filter_congr fun m _ => ?_
          grind
        simp only [h, if_false, hfilter, not_false_eq_true, decide_true, List.filter_cons_of_pos,
          List.eraseDups_cons, List.append_assoc, List.singleton_append]

theorem mem_labels_after {us : List Update} :
    l ∈ (s.after us).labels ↔ l ∈ s.labels ∨ l ∈ us.filterMap Update.label? := by
  by_cases h : l ∈ s.labels <;> simp [labels_after, h]

theorem nodup_labels_after (h : s.labels.Nodup) (us : List Update) :
    (s.after us).labels.Nodup := by
  induction us generalizing s with
  | nil => exact h
  | cons u us ih =>
    cases u with
    | user u => exact ih h
    | post p => exact ih h
    | tag l k =>
      refine ih ?_
      rw [Update.apply, labels_tagPost]
      split
      · exact h
      · next hnew => simpa using h.concat hnew

/-- A tag is there if it was there at first or has been used since, and its keys are the first ones
followed by those put under its label. -/
theorem findTag?_after (s : Snapshot) (us : List Update) (l : String) :
    (s.after us).findTag? l =
      if l ∈ s.labels ∨ l ∈ us.filterMap Update.label? then
        some ⟨l, s.keysUnder l ++ us.filterMap (Update.keyFor? l)⟩
      else none := by
  induction us generalizing s with
  | nil => simpa using findTag?_eq_ite s l
  | cons u us ih =>
    rw [after_cons, ih]
    cases u with
    | user u => rfl
    | post p => rfl
    | tag m k =>
      have hkeys := s.keysUnder_tagPost m l k
      by_cases h : m = l
      · subst h
        have hmem : m ∈ (s.tagPost m k).labels := by
          rw [labels_tagPost]
          split <;> simp [*]
        simp [Update.apply, Update.label?, Update.keyFor?, hkeys, hmem]
      · have hmem : l ∈ (s.tagPost m k).labels ↔ l ∈ s.labels := by
          rw [labels_tagPost]
          split <;> simp [Ne.symm h]
        simp [Update.apply, Update.label?, Update.keyFor?, hkeys, hmem, h, Ne.symm h]

/-! ## What is found stays found -/

theorem findUser?_after {n : String} {u : User} (h : s.findUser? n = some u) (us : List Update) :
    (s.after us).findUser? n = some u := by
  simp only [findUser?] at h
  simp [findUser?, users_after, List.find?_append, h]

theorem findPost?_after {x : PostId} {p : Post} (h : s.findPost? x = some p) (us : List Update) :
    (s.after us).findPost? x = some p := by
  simp only [findPost?] at h
  simp [findPost?, posts_after, List.find?_append, h]

theorem authorOf?_after {p : Post} {n : String} (h : s.authorOf? p = some n) (us : List Update) :
    (s.after us).authorOf? p = some n := by
  obtain ⟨u, hu, rfl⟩ := Option.map_eq_some_iff.mp h
  simp [authorOf?, users_after, List.find?_append, hu]

/-- A store answers with what the snapshot `s` held that it started from, followed by what the
updates `us` have added, in their order. A user, a post or an author that has been found stays the
same under further updates `vs`. -/
theorem answers_after (s : Snapshot) (us : List Update) :
    (s.after us).source.everything.answer =
        .ok ((s.posts ++ us.filterMap Update.post?).map fun p => .object p.id) ∧
      (s.after us).users = s.users ++ us.filterMap Update.user? ∧
      (∀ l, ((s.after us).source.tag l).answer = .ok none ↔
        (∀ t ∈ s.tags, t.label ≠ l) ∧ ∀ k, Update.tag l k ∉ us) ∧
      (∀ l, ((s.after us).source.tag l).answer ≠ .ok none → ((s.after us).source.tag l).answer =
        .ok (some ⟨l, s.keysUnder l ++ us.filterMap (Update.keyFor? l)⟩)) ∧
      (s.after us).labels =
        s.labels ++ ((us.filterMap Update.label?).filter (· ∉ s.labels)).eraseDups ∧
      (s.labels.Nodup → (s.after us).labels.Nodup) ∧
      ∀ vs, (∀ n u, (s.after us).findUser? n = some u →
          (s.after (us ++ vs)).findUser? n = some u) ∧
        (∀ x p, (s.after us).findPost? x = some p → (s.after (us ++ vs)).findPost? x = some p) ∧
        ∀ p n, (s.after us).authorOf? p = some n → (s.after (us ++ vs)).authorOf? p = some n := by
  refine ⟨?_, users_after s us, ?_, ?_, labels_after s us, fun h => nodup_labels_after h us, ?_⟩
  · simp [source, allKeys, posts_after]
  · intro l
    have habsent : l ∉ s.labels ↔ ∀ t ∈ s.tags, t.label ≠ l := by simp [labels]
    rw [source, Except.ok.injEq, findTag?_eq_none_iff, ← habsent, mem_labels_after, not_or,
      Update.mem_filterMap_label?, not_exists]
  · intro l h
    have hused : l ∈ s.labels ∨ l ∈ us.filterMap Update.label? := by
      by_contra hnot
      exact h (congrArg Except.ok (by rw [findTag?_after, if_neg hnot]))
    simp only [source, findTag?_after, if_pos hused]
  · intro vs
    simp only [after_append]
    exact ⟨fun n u h => findUser?_after h vs, fun x p h => findPost?_after h vs,
      fun p n h => authorOf?_after h vs⟩

/-- The second tag with the label `t` is never found. -/
theorem answers_after_shadowed_tag :
    let s : Snapshot :=
      ⟨[⟨"1", "alice"⟩], [], [⟨"t", [.text "a"]⟩, ⟨"t", [.text "b"]⟩, ⟨"u", []⟩]⟩
    let us : List Update := [.tag "v" (.text "c"), .tag "t" (.text "d"), .tag "v" (.text "c")]
    (s.after us).labels = ["t", "t", "u", "v"] ∧
      ((s.after us).source.tag "t").answer = .ok (some ⟨"t", [.text "a", .text "d"]⟩) ∧
      (s.after (us ++ [.user ⟨"2", "alice"⟩])).findUser? "alice" = some ⟨"1", "alice"⟩ := by
  intro s us
  obtain ⟨-, -, -, htag, hlabels, -, hfound⟩ := answers_after s us
  obtain ⟨huser, -⟩ := hfound [.user ⟨"2", "alice"⟩]
  exact ⟨hlabels, htag "t" (by decide), huser _ _ rfl⟩

end Snapshot

end PostFilter
