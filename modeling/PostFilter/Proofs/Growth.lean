import PostFilter.Proofs.Algebra
import PostFilter.Proofs.Updates

/-!
# Filters over growing stores

An update adds to what lookups bring and takes nothing away, and a key that stands for no post never
comes to stand for one. So a filter that fails goes on failing, and a filter without negations loses
no match. Moreover an update bears only on lookups of its own kind, and there on one post. Whatever
the filter, negations included, no other post enters or leaves its result.
-/

namespace PostFilter

variable {source source' : Source} {e : Expr} {t t' : IdSet} {x : PostId} {err : StoreError}

/-! ## Filters and their lookups -/

namespace Expr

def NegationFree : Expr → Prop
  | author _ | tag _ => True
  | not _ => False
  | and a b | or a b => a.NegationFree ∧ b.NegationFree

theorem NegationFree.matches_mono {p q : Lookup → Prop} (he : e.NegationFree)
    (h : ∀ l, p l → q l) : e.Matches p → e.Matches q := by
  induction e with
  | author u => exact h _
  | tag l => exact h _
  | not e _ => exact he.elim
  | and a b iha ihb => exact And.imp (iha he.1) (ihb he.2)
  | or a b iha ihb => exact Or.imp (iha he.1) (ihb he.2)

/-- If the lookups of a filter are as usable in one store as in the other and bring the same of the
posts in `P`, then so does the filter. -/
theorem resolve_agree_on {P : PostId → Prop}
    (husable : ∀ l ∈ e.lookups, source.Usable l → source'.Usable l)
    (hbrings : ∀ l ∈ e.lookups, ∀ x, P x → (source'.Brings l x ↔ source.Brings l x))
    (h : e.resolve source = .ok t) :
    ∃ t', e.resolve source' = .ok t' ∧ ∀ x, P x → (x ∈ t' ↔ x ∈ t) := by
  obtain ⟨hanswered, -⟩ := resolve_eq_ok_iff.mp h
  have h' : e.resolve source' = .ok (e.denote source'.posts) :=
    resolve_eq_ok_iff.mpr ⟨fun l hl => husable l hl (hanswered l hl), rfl⟩
  refine ⟨_, h', fun x hx => ?_⟩
  rw [mem_of_resolve h', mem_of_resolve h]
  exact matches_congr fun l hl => hbrings l hl x hx

end Expr

namespace Source

/-- Nothing that the first store brings is missing from the second, and nothing that fails in the
first is usable in the second. -/
structure Grows (source source' : Source) : Prop where
  brings : ∀ l x, source.Brings l x → source'.Brings l x
  usable : ∀ l, source'.Usable l → source.Usable l

theorem Grows.refl (source : Source) : source.Grows source :=
  ⟨fun _ _ => id, fun _ => id⟩

theorem Grows.trans {source'' : Source} (h : source.Grows source') (h' : source'.Grows source'') :
    source.Grows source'' :=
  ⟨fun l x hx => h'.brings l x (h.brings l x hx), fun l hl => h.usable l (h'.usable l hl)⟩

end Source

namespace Snapshot

variable {s s' : Snapshot} {u l m : String} {k : PostKey} {p : Post}

/-! ## Errors of filters -/

theorem delay_source (s : Snapshot) (l : Lookup) : s.source.delay l = 0 := by
  cases l <;> rfl

/-- As lookups take no time, the leftmost one that fails decides the error. -/
theorem resolve_eq_error_iff : e.resolve s.source = .error err ↔
    ∃ before l, before ++ [l] <+: e.lookups ∧ s.source.Fails l err ∧
      ∀ m ∈ before, s.source.Usable m := by
  constructor
  · intro h
    obtain ⟨before, l, err', hfirst, heval⟩ :=
      Expr.evaluate_of_not_usable (Expr.resolve_eq_error_iff_not_answered.mp ⟨err, h⟩)
    obtain rfl : err' = err := by simpa [Expr.resolve, heval] using h
    exact ⟨before, l, hfirst.among, hfirst.fails,
      fun m hm => hfirst.leftmost (s.delay_source l) m hm (s.delay_source m)⟩
  · rintro ⟨before, l, hamong, hfails, husable⟩
    have hfirst : s.source.FailsFirst e.lookups before l err := by
      refine ⟨hamong, hfails, fun m _ _ => ?_, fun _ m hm _ => husable m hm⟩
      rw [delay_source]
      exact Nat.zero_le _
    have hties : s.source.TiesAgree e.lookups := by
      intro l _ _ _ hpos
      simp [delay_source] at hpos
    simp [Expr.resolve, Expr.evaluate_of_failsFirst hfirst hties]

theorem resolve_eq_error_of_fails_iff
    (h : ∀ l ∈ e.lookups, ∀ err, s'.source.Fails l err ↔ s.source.Fails l err)
    (herr : e.resolve s.source = .error err) : e.resolve s'.source = .error err := by
  obtain ⟨before, l, hamong, hfails, husable⟩ := resolve_eq_error_iff.mp herr
  have hmem : ∀ m ∈ before ++ [l], m ∈ e.lookups := fun m hm => hamong.subset hm
  have hfails' := (h l (hmem l (by simp)) err).mpr hfails
  refine resolve_eq_error_iff.mpr ⟨before, l, hamong, hfails', ?_⟩
  intro m hm
  rw [Source.usable_iff_forall_not_fails]
  intro err' hm'
  exact (husable m hm).not_fails ((h m (hmem m (by simp [hm])) err').mp hm')

/-- A filter depends on nothing but what its own lookups find. -/
theorem resolve_congr_found (h : ∀ l ∈ e.lookups, s'.source.found l = s.source.found l) :
    e.resolve s'.source = e.resolve s.source := by
  cases hresult : e.resolve s.source with
  | error err =>
    refine resolve_eq_error_of_fails_iff (fun l hl err => ?_) hresult
    rw [← Source.found_eq_error, ← Source.found_eq_error, h l hl]
  | ok t =>
    obtain ⟨hanswered, rfl⟩ := Expr.resolve_eq_ok_iff.mp hresult
    refine Expr.resolve_eq_ok_iff.mpr ⟨fun l hl => ?_, Expr.denote_congr fun l hl => ?_⟩
    · rw [Source.usable_iff, h l hl]
      exact Source.usable_iff.mp (hanswered l hl)
    · rw [Source.posts, Source.posts, h l hl]

theorem resolve_congr (h : ∀ l ∈ e.lookups, s'.source.keys l = s.source.keys l) :
    e.resolve s'.source = e.resolve s.source :=
  resolve_congr_found fun l hl => by rw [Source.found, Source.found, h l hl]

/-! ## One update -/

theorem findUser?_addUser (s : Snapshot) (u : User) (n : String) :
    (s.addUser u).findUser? n = (s.findUser? n).or (if u.username = n then some u else none) := by
  simp [findUser?, addUser, List.find?_append, List.find?_cons]
  grind

theorem mem_usernames_iff {n : String} : n ∈ s.usernames ↔ ∃ u, s.findUser? n = some u := by
  simp [usernames, findUser?, ← Option.isSome_iff_exists]

/-- A user bears only on lookups by the username, and not even on them if there is a user with this
name already. -/
theorem keys_addUser {u : User} {l : Lookup}
    (h : l ≠ .author u.username ∨ u.username ∈ s.usernames) :
    (s.addUser u).source.keys l = s.source.keys l := by
  cases l with
  | everything => rfl
  | tag l => rfl
  | author n =>
    have hfind : (s.addUser u).findUser? n = s.findUser? n := by
      rw [findUser?_addUser]
      by_cases hn : u.username = n
      · subst hn
        obtain ⟨v, hv⟩ := mem_usernames_iff.mp (h.resolve_left (by simp))
        simp [hv]
      · simp [hn]
    have hkeys : (s.addUser u).authorKeys n = s.authorKeys n := by
      rw [authorKeys, hfind]
      rfl
    simp [Source.keys, source, hkeys]

theorem brings_addPost_everything :
    (s.addPost p).source.Brings .everything x ↔ s.source.Brings .everything x ∨ x = p.id := by
  simp [brings_everything_iff, addPost, or_and_right, exists_or, eq_comm]

theorem brings_addPost_author : (s.addPost p).source.Brings (.author u) x ↔
    s.source.Brings (.author u) x ∨
      x = p.id ∧ ∃ v, s.findUser? u = some v ∧ p.authorId = v.id := by
  have hfind : (s.addPost p).findUser? u = s.findUser? u := rfl
  rw [brings_author_iff, brings_author_iff, hfind]
  cases s.findUser? u with
  | none => simp
  | some v =>
    simp [addPost]
    grind

theorem keys_tagPost {l : String} {m : Lookup} (h : m ≠ .tag l) :
    (s.tagPost l k).source.keys m = s.source.keys m := by
  cases m with
  | everything => rfl
  | author u => rfl
  | tag m =>
    have hm : m ≠ l := by simpa using h
    simp [Source.keys, source, findTag?_tagPost, hm]

theorem usable_tagPost_tag_iff : (s.tagPost l k).source.Usable (.tag l) ↔
    s.source.Usable (.tag l) ∧ k.Normalizes := by
  simp only [usable_tag_iff, keysUnder_tagPost]
  grind

theorem brings_tagPost_tag_iff : (s.tagPost l k).source.Brings (.tag l) x ↔
    s.source.Brings (.tag l) x ∨ k.normalize = .ok x := by
  simp only [brings_tag_iff, keysUnder_tagPost]
  grind

/-! ## Growth -/

theorem grows_addUser (s : Snapshot) (u : User) : s.source.Grows (s.addUser u).source where
  brings l x hx := by
    by_cases h : l ≠ .author u.username ∨ u.username ∈ s.usernames
    · rwa [Source.Brings, keys_addUser h]
    · obtain ⟨rfl, hnew⟩ : l = .author u.username ∧ u.username ∉ s.usernames := by
        simpa using h
      obtain ⟨v, hv, -⟩ := brings_author_iff.mp hx
      exact absurd (mem_usernames_iff.mpr ⟨v, hv⟩) hnew
  usable l hl := by
    cases l with
    | everything => exact s.usable_everything
    | author n => exact s.usable_author n
    | tag m => exact hl

theorem grows_addPost (s : Snapshot) (p : Post) : s.source.Grows (s.addPost p).source where
  brings l x hx := by
    cases l with
    | everything => exact brings_addPost_everything.mpr (.inl hx)
    | author n => exact brings_addPost_author.mpr (.inl hx)
    | tag m => exact hx
  usable l hl := by
    cases l with
    | everything => exact s.usable_everything
    | author n => exact s.usable_author n
    | tag m => exact hl

theorem grows_tagPost (s : Snapshot) (l : String) (k : PostKey) :
    s.source.Grows (s.tagPost l k).source where
  brings m x hx := by
    by_cases h : m = .tag l
    · subst h
      exact brings_tagPost_tag_iff.mpr (.inl hx)
    · rwa [Source.Brings, keys_tagPost h]
  usable m hm := by
    by_cases h : m = .tag l
    · subst h
      exact (usable_tagPost_tag_iff.mp hm).1
    · rwa [Source.Usable, keys_tagPost h] at hm

theorem grows_apply (s : Snapshot) (u : Update) : s.source.Grows (u.apply s).source := by
  cases u with
  | user u => exact s.grows_addUser u
  | post p => exact s.grows_addPost p
  | tag l k => exact s.grows_tagPost l k

theorem grows_after (s : Snapshot) (us : List Update) : s.source.Grows (s.after us).source := by
  induction us generalizing s with
  | nil => exact .refl _
  | cons u us ih => exact (s.grows_apply u).trans (ih _)

/-! ## Filters under one update -/

theorem resolve_tagPost_of_not_mem (h : .tag l ∉ e.leaves) :
    e.resolve (s.tagPost l k).source = e.resolve s.source := by
  refine resolve_congr fun m hm => keys_tagPost ?_
  rintro rfl
  exact h (Expr.lookup_mem_lookups.mp hm)

theorem resolve_addUser_of_not_mem {u : User}
    (h : .author u.username ∉ e.leaves ∨ u.username ∈ s.usernames) :
    e.resolve (s.addUser u).source = e.resolve s.source := by
  refine resolve_congr fun l hl => keys_addUser (h.imp_left fun hnot => ?_)
  rintro rfl
  exact hnot (Expr.lookup_mem_lookups.mp hl)

theorem fails_addPost_iff {l : Lookup} :
    (s.addPost p).source.Fails l err ↔ s.source.Fails l err := by
  cases l with
  | everything => exact iff_of_false (usable_everything _).not_fails (usable_everything _).not_fails
  | author u => exact iff_of_false (usable_author _ u).not_fails (usable_author _ u).not_fails
  | tag l => exact Iff.rfl

theorem brings_addPost_iff_of_ne {l : Lookup} (hx : x ≠ p.id) :
    (s.addPost p).source.Brings l x ↔ s.source.Brings l x := by
  cases l with
  | everything => simp [brings_addPost_everything, hx]
  | author u => simp [brings_addPost_author, hx]
  | tag l => exact Iff.rfl

theorem resolve_addPost (p : Post) (h : e.resolve s.source = .ok t) :
    ∃ t', e.resolve (s.addPost p).source = .ok t' ∧ ∀ x, x ≠ p.id → (x ∈ t' ↔ x ∈ t) := by
  refine Expr.resolve_agree_on (fun l _ hl => ?_) (fun l _ x => brings_addPost_iff_of_ne) h
  simpa [Source.usable_iff_forall_not_fails, fails_addPost_iff] using hl

theorem resolve_tagPost (l : String) (hk : k.normalize = .ok x) (h : e.resolve s.source = .ok t) :
    ∃ t', e.resolve (s.tagPost l k).source = .ok t' ∧ ∀ y, y ≠ x → (y ∈ t' ↔ y ∈ t) := by
  refine Expr.resolve_agree_on (fun m _ hm => ?_) (fun m _ y hy => ?_) h
  · by_cases hml : m = .tag l
    · subst hml
      exact usable_tagPost_tag_iff.mpr ⟨hm, x, hk⟩
    · rwa [Source.Usable, keys_tagPost hml]
  · by_cases hml : m = .tag l
    · subst hml
      simp [brings_tagPost_tag_iff, hk, Ne.symm hy]
    · rw [Source.Brings, Source.Brings, keys_tagPost hml]

/-! ## Filters under updates -/

/-- No updates make a filter succeed that failed, and none take a match away from a filter without
negations. -/
theorem resolve_after_grows (s : Snapshot) (us : List Update) (e : Expr) :
    ((∃ err, e.resolve s.source = .error err) →
        ∃ err, e.resolve (s.after us).source = .error err) ∧
      (e.NegationFree → ∀ t t', e.resolve s.source = .ok t →
        e.resolve (s.after us).source = .ok t' → t ⊆ t') := by
  have hgrows := s.grows_after us
  refine ⟨?_, ?_⟩
  · rw [Expr.resolve_eq_error_iff_not_answered, Expr.resolve_eq_error_iff_not_answered]
    exact fun hnot h => hnot fun l hl => hgrows.usable l (h l hl)
  · intro he t t' ht ht' x hx
    rw [Expr.mem_of_resolve ht] at hx
    exact (Expr.mem_of_resolve ht').mpr (he.matches_mono (fun l => hgrows.brings l x) hx)

/-- Two users of one name with a post by the first, and two records of one label, of which the first
has a key that stands for no post. -/
def namesake : Snapshot where
  users := [⟨"1", "alice"⟩, ⟨"2", "alice"⟩]
  posts := [⟨.ofByte 1, "1", "first", none⟩]
  tags := [⟨"t", [.text "x"]⟩, ⟨"t", []⟩]

theorem resolve_after_grows_namesake :
    let us : List Update := [.user ⟨"3", "alice"⟩, .tag "t" (.object (.ofByte 1)),
      .post ⟨.ofByte 2, "3", "second", none⟩]
    (∃ err, (Expr.not (.tag "t")).resolve (namesake.after us).source = .error err) ∧
      ∃ t t', (Expr.author "alice").resolve namesake.source = .ok t ∧
        (Expr.author "alice").resolve (namesake.after us).source = .ok t' ∧ t ⊆ t' := by
  intro us
  obtain ⟨hfails, -⟩ := resolve_after_grows namesake us (.not (.tag "t"))
  obtain ⟨-, hgrows⟩ := resolve_after_grows namesake us (.author "alice")
  exact ⟨hfails ⟨.invalidPostId "x", by cbv⟩, _, _, rfl, rfl, hgrows trivial _ _ rfl rfl⟩

/-- Updates that concern none of a filter's names leave its result as it is, and so does a further
user of a name. A new post leaves an error as it is, and otherwise no other post enters or leaves
the result. The same holds of a key that is put under a tag where the filter succeeds. -/
theorem resolve_update_local (s : Snapshot) (e : Expr) :
    (∀ l k, .tag l ∉ e.leaves → e.resolve (s.tagPost l k).source = e.resolve s.source) ∧
      (∀ u : User, .author u.username ∉ e.leaves ∨ u.username ∈ s.usernames →
        e.resolve (s.addUser u).source = e.resolve s.source) ∧
      (∀ p : Post,
        (∀ err, e.resolve s.source = .error err →
          e.resolve (s.addPost p).source = .error err) ∧
        ∀ t, e.resolve s.source = .ok t →
          ∃ t', e.resolve (s.addPost p).source = .ok t' ∧ ∀ x, x ≠ p.id → (x ∈ t' ↔ x ∈ t)) ∧
      ∀ l k x t, PostKey.normalize k = .ok x → e.resolve s.source = .ok t →
        ∃ t', e.resolve (s.tagPost l k).source = .ok t' ∧
          ∀ y, y ≠ x → (y ∈ t' ↔ y ∈ t) := by
  refine ⟨fun l k => resolve_tagPost_of_not_mem, fun u => resolve_addUser_of_not_mem, ?_, ?_⟩
  · intro p
    exact ⟨fun err => resolve_eq_error_of_fails_iff fun l _ err => fails_addPost_iff,
      fun t => resolve_addPost p⟩
  · exact fun l k x t => resolve_tagPost l

theorem resolve_update_local_namesake :
    let e : Expr := .and (.not (.tag "u")) (.author "alice")
    let p : Post := ⟨.ofByte 2, "1", "second", none⟩
    e.resolve (namesake.tagPost "t" (.text "y")).source = e.resolve namesake.source ∧
      e.resolve (namesake.addUser ⟨"3", "alice"⟩).source = e.resolve namesake.source ∧
      (Expr.not (.tag "t")).resolve (namesake.addPost p).source = .error (.invalidPostId "x") ∧
      ∃ t t', e.resolve namesake.source = .ok t ∧
        e.resolve (namesake.tagPost "u" (.object p.id)).source = .ok t' ∧
        ∀ x, x ≠ p.id → (x ∈ t' ↔ x ∈ t) := by
  intro e p
  obtain ⟨htag, huser, -, hkey⟩ := resolve_update_local namesake e
  obtain ⟨-, -, hpost, -⟩ := resolve_update_local namesake (.not (.tag "t"))
  obtain ⟨t', ht'⟩ := hkey "u" (.object p.id) p.id _ rfl rfl
  exact ⟨htag _ _ (by decide), huser _ (by decide), (hpost p).1 _ (by cbv), _, t', rfl, ht'⟩

end Snapshot

end PostFilter
