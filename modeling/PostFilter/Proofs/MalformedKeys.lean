import PostFilter.Proofs.Growth
import PostFilter.Proofs.PostIds

/-!
# Keys that stand for no post

All posts and the posts of an author are found by identifiers, so these lookups cannot fail in a
snapshot. A tag fails if its record lists a text that is no identifier. The filters that break are
therefore those with such a tag, and the error names the first such text under the leftmost of them,
whatever the operators around it.
-/

namespace PostFilter

variable {e : Expr} {err : StoreError}

/-! ## Keys -/

namespace PostKey

variable {k : PostKey}

theorem normalizes_iff : k.Normalizes ↔ ∀ text, k = .text text → PostId.IsText text := by
  cases k with
  | object x => simp [Normalizes, normalize]
  | text s => cases h : PostId.ofHex? s <;> simp [Normalizes, normalize, PostId.isText_iff, h]

theorem normalize_eq_error_iff : k.normalize = .error err ↔
    ∃ text, k = .text text ∧ ¬ PostId.IsText text ∧ err = .invalidPostId text := by
  cases k with
  | object x => simp [normalize]
  | text s =>
    cases h : PostId.ofHex? s <;> simp [normalize, PostId.isText_iff, h, eq_comm]

end PostKey

/-- The first text that is no identifier decides the error. -/
theorem IdSet.ofKeys_eq_error_iff {keys : List PostKey} : ofKeys keys = .error err ↔
    ∃ good value rest, keys = good ++ .text value :: rest ∧
      (∀ text, .text text ∈ good → PostId.IsText text) ∧ ¬ PostId.IsText value ∧
      err = .invalidPostId value := by
  rw [ofKeys_eq_error]
  constructor
  · rintro ⟨good, k, rest, hkeys, hgood, hk⟩
    obtain ⟨value, rfl, hvalue, herr⟩ := PostKey.normalize_eq_error_iff.mp hk
    refine ⟨good, value, rest, hkeys, fun text hmem => ?_, hvalue, herr⟩
    exact PostKey.normalizes_iff.mp (hgood _ hmem) text rfl
  · rintro ⟨good, value, rest, hkeys, hgood, hvalue, herr⟩
    refine ⟨good, .text value, rest, hkeys, fun k hk => ?_, ?_⟩
    · refine PostKey.normalizes_iff.mpr ?_
      rintro text rfl
      exact hgood text hk
    · exact PostKey.normalize_eq_error_iff.mpr ⟨value, rfl, hvalue, herr⟩

theorem IdSet.exists_ofKeys_eq_error_iff {keys : List PostKey} :
    (∃ err, ofKeys keys = .error err) ↔ ∃ text, .text text ∈ keys ∧ ¬ PostId.IsText text := by
  constructor
  · rintro ⟨err, herr⟩
    obtain ⟨good, value, rest, rfl, -, hvalue, -⟩ := ofKeys_eq_error_iff.mp herr
    exact ⟨value, by simp, hvalue⟩
  · rintro ⟨text, hmem, htext⟩
    cases h : ofKeys keys with
    | ok s => exact absurd (PostKey.normalizes_iff.mp ((mem_of_ofKeys h).1 _ hmem) text rfl) htext
    | error err => exact ⟨err, rfl⟩

namespace Tag

variable {t : Tag}

/-- The first key of the record that stands for no post is this text. -/
def FirstMalformed (t : Tag) (value : String) : Prop :=
  ∃ good rest, t.keys = good ++ .text value :: rest ∧
    (∀ text, .text text ∈ good → PostId.IsText text) ∧ ¬ PostId.IsText value

theorem ofKeys_eq_error_iff_firstMalformed :
    IdSet.ofKeys t.keys = .error err ↔ ∃ value, t.FirstMalformed value ∧
      err = .invalidPostId value := by
  simp only [IdSet.ofKeys_eq_error_iff, FirstMalformed]
  grind

theorem exists_firstMalformed_iff :
    (∃ value, t.FirstMalformed value) ↔ ∃ text, .text text ∈ t.keys ∧ ¬ PostId.IsText text := by
  rw [← IdSet.exists_ofKeys_eq_error_iff]
  simp only [ofKeys_eq_error_iff_firstMalformed]
  grind

end Tag

/-! ## Leaves and their lookups -/

/-- The leaf that makes the lookup, unless it is one for all posts. -/
def Lookup.leaf? : Lookup → Option Expr.Leaf
  | everything => none
  | author u => some (.author u)
  | tag l => some (.tag l)

theorem Lookup.leaf?_eq_tag {m : Lookup} {l : String} (h : m.leaf? = some (.tag l)) :
    m = .tag l := by
  cases m <;> cases h
  rfl

theorem Expr.filterMap_leaf?_lookups (e : Expr) : e.lookups.filterMap Lookup.leaf? = e.leaves := by
  induction e with
  | author u => rfl
  | tag l => rfl
  | not e ih => rw [lookups, List.filterMap_cons_none rfl, ih, leaves]
  | and a b iha ihb => simp [lookups, leaves, iha, ihb]
  | or a b iha ihb => simp [lookups, leaves, iha, ihb]

namespace Snapshot

variable {s s' : Snapshot} {l : String}

/-- The record that the label selects has a key that stands for no post, and `value` is the first
of them. -/
def Spoils (s : Snapshot) (l value : String) : Prop :=
  ∃ t, s.findTag? l = some t ∧ t.FirstMalformed value

theorem keys_source_tag (s : Snapshot) (l : String) :
    s.source.keys (.tag l) = .ok (s.keysUnder l) := by
  simp [Source.keys, source, keysUnder, Except.map]

theorem found_source_tag (s : Snapshot) (l : String) :
    s.source.found (.tag l) = IdSet.ofKeys (s.keysUnder l) := by
  rw [Source.found, keys_source_tag]
  rfl

theorem fails_tag_iff : s.source.Fails (.tag l) err ↔
    ∃ value, s.Spoils l value ∧ err = .invalidPostId value := by
  rw [← Source.found_eq_error, found_source_tag]
  unfold Spoils
  cases ht : s.findTag? l with
  | none => simp [keysUnder, ht, IdSet.ofKeys, Except.map, pure, Except.pure]
  | some t => simp [keysUnder_of_findTag? ht, Tag.ofKeys_eq_error_iff_firstMalformed]

theorem usable_tag_iff_not_spoils : s.source.Usable (.tag l) ↔ ∀ value, ¬ s.Spoils l value := by
  rw [Source.usable_iff_forall_not_fails]
  constructor
  · exact fun h value hvalue => h _ (fails_tag_iff.mpr ⟨value, hvalue, rfl⟩)
  · rintro h err herr
    obtain ⟨value, hvalue, -⟩ := fails_tag_iff.mp herr
    exact h value hvalue

/-! ## Filters -/

/-- Only tags fail, so the first lookup that fails is that of the first leaf that does. -/
theorem resolve_eq_error_iff_spoils : e.resolve s.source = .error err ↔
    ∃ before l after value, e.leaves = before ++ .tag l :: after ∧
      (∀ m, .tag m ∈ before → ∀ text, ¬ s.Spoils m text) ∧ s.Spoils l value ∧
      err = .invalidPostId value := by
  rw [resolve_eq_error_iff]
  constructor
  · rintro ⟨before, m, ⟨after, hlookups⟩, hfails, husable⟩
    cases m with
    | everything => exact absurd hfails s.usable_everything.not_fails
    | author u => exact absurd hfails (s.usable_author u).not_fails
    | tag l =>
      obtain ⟨value, hvalue, rfl⟩ := fails_tag_iff.mp hfails
      refine ⟨before.filterMap Lookup.leaf?, l, after.filterMap Lookup.leaf?, value, ?_, ?_,
        hvalue, rfl⟩
      · rw [← e.filterMap_leaf?_lookups, ← hlookups]
        simp [Lookup.leaf?]
      · intro m hm
        obtain ⟨m', hm', hleaf⟩ := List.mem_filterMap.mp hm
        obtain rfl := Lookup.leaf?_eq_tag hleaf
        exact usable_tag_iff_not_spoils.mp (husable _ hm')
  · rintro ⟨before, l, after, value, hleaves, hbefore, hvalue, rfl⟩
    -- Of the lookups in front of the leaf, those that are no leaf are for all posts.
    rw [← e.filterMap_leaf?_lookups] at hleaves
    obtain ⟨front, back, hlookups, hfront, hback⟩ := List.filterMap_eq_append_iff.mp hleaves
    obtain ⟨skipped, m, back, rfl, hskipped, hm, -⟩ := List.filterMap_eq_cons_iff.mp hback
    obtain rfl := Lookup.leaf?_eq_tag hm
    refine ⟨front ++ skipped, .tag l, ⟨back, by simp [hlookups]⟩,
      fails_tag_iff.mpr ⟨value, hvalue, rfl⟩, ?_⟩
    intro m hm
    cases m with
    | everything => exact s.usable_everything
    | author u => exact s.usable_author u
    | tag m =>
      refine usable_tag_iff_not_spoils.mpr (hbefore m ?_)
      rcases List.mem_append.mp hm with hm | hm
      · rw [← hfront]
        exact List.mem_filterMap.mpr ⟨_, hm, rfl⟩
      · cases hskipped _ hm

theorem exists_spoils_iff : (∃ value, s.Spoils l value) ↔
    ∃ t text, s.findTag? l = some t ∧ .text text ∈ t.keys ∧ ¬ PostId.IsText text := by
  constructor
  · rintro ⟨value, t, ht, hvalue⟩
    obtain ⟨text, htext⟩ := Tag.exists_firstMalformed_iff.mp ⟨value, hvalue⟩
    exact ⟨t, text, ht, htext⟩
  · rintro ⟨t, text, ht, htext⟩
    obtain ⟨value, hvalue⟩ := Tag.exists_firstMalformed_iff.mpr ⟨text, htext⟩
    exact ⟨value, t, ht, hvalue⟩

/-- Snapshots that agree on users, posts and the records that a filter selects give it the same
result. -/
theorem resolve_eq_of_selected (husers : s'.users = s.users) (hposts : s'.posts = s.posts)
    (htags : ∀ l, .tag l ∈ e.leaves → s'.findTag? l = s.findTag? l) :
    e.resolve s'.source = e.resolve s.source := by
  refine resolve_congr fun m hm => ?_
  cases m with
  | everything => simp [Source.keys, source, allKeys, hposts]
  | author u => simp [Source.keys, source, authorKeys, findUser?, husers, hposts]
  | tag l =>
    have hl := htags l (Expr.lookup_mem_lookups.mp hm)
    rw [keys_source_tag, keys_source_tag, keysUnder, keysUnder, hl]

/-- A filter fails exactly if it has a tag whose record lists a text that is no identifier. The
error then carries the first such text of the leftmost such tag, whatever the operators. Authors
and the lookup of all posts never fail, and records that no leaf selects make no difference. -/
theorem resolve_fails_iff_malformed (s : Snapshot) (e : Expr) :
    ((∃ err, e.resolve s.source = .error err) ↔ ∃ l t text, .tag l ∈ e.leaves ∧
      s.findTag? l = some t ∧ .text text ∈ t.keys ∧ ¬ PostId.IsText text) ∧
    (∀ err, e.resolve s.source = .error err ↔
      ∃ before l after value, e.leaves = before ++ .tag l :: after ∧
        (∀ m, .tag m ∈ before → ∀ text, ¬ s.Spoils m text) ∧ s.Spoils l value ∧
        err = .invalidPostId value) ∧
    (∀ u, ∃ posts, (Expr.author u).resolve s.source = .ok posts) ∧
    (∃ everything, s.source.found .everything = .ok everything) ∧
    ∀ s' : Snapshot, s'.users = s.users → s'.posts = s.posts →
      (∀ l, .tag l ∈ e.leaves → s'.findTag? l = s.findTag? l) →
      e.resolve s'.source = e.resolve s.source := by
  refine ⟨⟨?_, ?_⟩, fun err => resolve_eq_error_iff_spoils, fun u => ?_, ?_,
    fun s' => resolve_eq_of_selected⟩
  · rintro ⟨err, h⟩
    obtain ⟨before, l, after, value, hleaves, -, hvalue, -⟩ := resolve_eq_error_iff_spoils.mp h
    obtain ⟨t, text, ht, htext⟩ := exists_spoils_iff.mp ⟨value, hvalue⟩
    exact ⟨l, t, text, by simp [hleaves], ht, htext⟩
  · rintro ⟨l, t, text, hl, ht, htext⟩
    obtain ⟨value, hvalue⟩ := exists_spoils_iff.mpr ⟨t, text, ht, htext⟩
    refine Expr.resolve_eq_error_iff_not_answered.mpr fun hanswered => ?_
    have husable := hanswered (.tag l) (Expr.lookup_mem_lookups.mpr hl)
    exact usable_tag_iff_not_spoils.mp husable value hvalue
  · refine ⟨_, Expr.resolve_eq_ok_iff.mpr ⟨?_, rfl⟩⟩
    simpa [Expr.Answered, Expr.lookups] using s.usable_author u
  · exact Source.usable_iff.mp s.usable_everything

/-- The record of one tag lists two texts that are no identifiers. The other tag has a second record
with such a text, which its label does not select. -/
def patchy : Snapshot where
  users := []
  posts := [⟨.ofByte 1, "1", "first", none⟩]
  tags := [⟨"t", [.text "0A0A0A0A0a0a0a0a0a0a0a0a", .text "x", .text "y"]⟩,
    ⟨"u", [.object (.ofByte 1)]⟩, ⟨"u", [.text "z"]⟩]

/-- The same without the records that the label `u` does not select. -/
def tidied : Snapshot :=
  { patchy with tags := [⟨"u", [.object (.ofByte 1)]⟩] }

theorem resolve_fails_iff_malformed_patchy :
    (Expr.or (.not (.tag "u")) (.and (.tag "t") (.author "a"))).resolve patchy.source =
        .error (.invalidPostId "x") ∧
      (Expr.not (.tag "u")).resolve patchy.source =
        (Expr.not (.tag "u")).resolve tidied.source := by
  obtain ⟨-, herror, -⟩ := resolve_fails_iff_malformed patchy
    (.or (.not (.tag "u")) (.and (.tag "t") (.author "a")))
  obtain ⟨-, -, -, -, hselected⟩ := resolve_fails_iff_malformed tidied (.not (.tag "u"))
  have hgood : PostId.IsText "0A0A0A0A0a0a0a0a0a0a0a0a" :=
    PostId.isText_iff.mpr ⟨.ofByte 10, by cbv⟩
  have hbad : ¬ PostId.IsText "x" := fun h => absurd h.1 (by decide)
  have hspoils : patchy.Spoils "t" "x" :=
    ⟨_, rfl, [.text "0A0A0A0A0a0a0a0a0a0a0a0a"], [.text "y"], rfl, by simpa using hgood, hbad⟩
  have hnot : ∀ text, ¬ patchy.Spoils "u" text := by
    rintro text ⟨t, ht, hfirst⟩
    obtain rfl : ⟨"u", [.object (.ofByte 1)]⟩ = t := Option.some.inj ht
    obtain ⟨text, hmem, -⟩ := Tag.exists_firstMalformed_iff.mp ⟨_, hfirst⟩
    simp at hmem
  refine ⟨(herror _).mpr ⟨[.tag "u"], "t", [.author "a"], "x", rfl, ?_, hspoils, rfl⟩, ?_⟩
  · simpa using hnot
  · exact hselected patchy rfl rfl (by simp [Expr.leaves, findTag?, patchy, tidied])

end Snapshot

end PostFilter
