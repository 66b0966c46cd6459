import Mathlib
import PostFilter.Fallible
import PostFilter.Store.Lookup

/-!
# What lookups bring

A lookup is usable if the store answers it with keys that all stand for posts, and then it brings
these posts. Otherwise it fails, either with the error of the store or with the one of its first key
that stands for no post.
-/

namespace PostFilter

/-- The identifier that repeats a byte. -/
def PostId.ofByte (b : UInt8) : PostId :=
  ⟨List.replicate 12 b, List.length_replicate⟩

/-- The key stands for a post. -/
def PostKey.Normalizes (k : PostKey) : Prop :=
  ∃ x, k.normalize = .ok x

namespace IdSet

theorem ofKeys_cons (k : PostKey) (keys : List PostKey) :
    ofKeys (k :: keys) = k.normalize >>= fun x => (ofKeys keys).map (insert x) := by
  cases hk : k.normalize <;> cases hkeys : keys.mapM PostKey.normalize <;>
    simp [ofKeys, hk, hkeys, bind, Except.bind, pure, Except.pure, Except.map, ofList]

theorem mem_of_ofKeys {keys : List PostKey} {s : IdSet} (h : ofKeys keys = .ok s) :
    (∀ k ∈ keys, k.Normalizes) ∧ ∀ x, x ∈ s ↔ ∃ k ∈ keys, k.normalize = .ok x := by
  induction keys generalizing s with
  | nil =>
    cases h
    exact ⟨by simp, fun x => by simp⟩
  | cons k keys ih =>
    rw [ofKeys_cons] at h
    obtain ⟨x, hk, h⟩ := Fallible.bind_eq_ok.mp h
    obtain ⟨t, ht, rfl⟩ := Fallible.map_eq_ok.mp h
    obtain ⟨hkeys, hmem⟩ := ih ht
    refine ⟨List.forall_mem_cons.mpr ⟨⟨x, hk⟩, hkeys⟩, ?_⟩
    intro y
    simp [hmem, hk, eq_comm]

/-- The first key that stands for no post decides the error. -/
theorem ofKeys_eq_error {keys : List PostKey} {err : StoreError} :
    ofKeys keys = .error err ↔ ∃ good k rest, keys = good ++ k :: rest ∧
      (∀ g ∈ good, g.Normalizes) ∧ k.normalize = .error err := by
  induction keys with
  | nil => simp [ofKeys, Except.map, pure, Except.pure]
  | cons k keys ih =>
    rw [ofKeys_cons, Fallible.bind_eq_error]
    constructor
    · rintro (hk | ⟨x, hk, h⟩)
      · exact ⟨[], k, keys, rfl, by simp, hk⟩
      · obtain ⟨good, bad, rest, rfl, hgood, hbad⟩ := ih.mp (Fallible.map_eq_error.mp h)
        exact ⟨k :: good, bad, rest, rfl, List.forall_mem_cons.mpr ⟨⟨x, hk⟩, hgood⟩, hbad⟩
    · rintro ⟨good, bad, rest, heq, hgood, hbad⟩
      cases good with
      | nil =>
        cases heq
        exact .inl hbad
      | cons g good =>
        cases heq
        obtain ⟨⟨x, hx⟩, hgood⟩ := List.forall_mem_cons.mp hgood
        exact .inr ⟨x, hx, Fallible.map_eq_error.mpr (ih.mpr ⟨good, bad, rest, rfl, hgood, hbad⟩)⟩

end IdSet

namespace Source

/-- The store answers the lookup, and all of the keys stand for posts. -/
def Usable (source : Source) (l : Lookup) : Prop :=
  ∃ keys, source.keys l = .ok keys ∧ ∀ k ∈ keys, k.Normalizes

/-- One of the keys that answer the lookup stands for `x`. -/
def Brings (source : Source) (l : Lookup) (x : PostId) : Prop :=
  ∃ keys, source.keys l = .ok keys ∧ ∃ k ∈ keys, k.normalize = .ok x

/-- The store refuses the lookup, or it answers with a key that stands for no post. -/
def Fails (source : Source) (l : Lookup) (err : StoreError) : Prop :=
  source.keys l = .error err ∨ ∃ good k rest, source.keys l = .ok (good ++ k :: rest) ∧
    (∀ g ∈ good, g.Normalizes) ∧ k.normalize = .error err

/-- The posts that a lookup brings, or none if it fails. -/
def posts (source : Source) (l : Lookup) : IdSet :=
  match source.found l with
  | .ok s => s
  | .error _ => ∅

variable {source : Source} {l : Lookup} {s : IdSet} {err err' : StoreError} {x : PostId}

theorem found_eq_error : source.found l = .error err ↔ source.Fails l err := by
  unfold found Fails
  cases h : source.keys l with
  | error e => simp [Except.bind]
  | ok keys => simp [Except.bind, IdSet.ofKeys_eq_error]

theorem usable_of_found (h : source.found l = .ok s) : source.Usable l := by
  obtain ⟨keys, hkeys, h⟩ := Fallible.bind_eq_ok.mp h
  exact ⟨keys, hkeys, (IdSet.mem_of_ofKeys h).1⟩

theorem mem_of_found (h : source.found l = .ok s) : x ∈ s ↔ source.Brings l x := by
  obtain ⟨keys, hkeys, h⟩ := Fallible.bind_eq_ok.mp h
  simp [(IdSet.mem_of_ofKeys h).2, Brings, hkeys]

theorem Usable.not_fails (h : source.Usable l) : ¬ source.Fails l err := by
  obtain ⟨keys, hkeys, hall⟩ := h
  rintro (hanswer | ⟨good, k, rest, hanswer, -, hk⟩)
  · simp [hanswer] at hkeys
  · cases hkeys.symm.trans hanswer
    obtain ⟨x, hx⟩ := hall k (by simp)
    simp [hx] at hk

theorem usable_iff : source.Usable l ↔ ∃ s, source.found l = .ok s := by
  constructor
  · intro h
    cases hfound : source.found l with
    | ok s => exact ⟨s, rfl⟩
    | error err => exact absurd (found_eq_error.mp hfound) h.not_fails
  · rintro ⟨s, hs⟩
    exact usable_of_found hs

theorem usable_iff_forall_not_fails :
    source.Usable l ↔ ∀ err, ¬ source.Fails l err := by
  refine ⟨fun h err => h.not_fails, fun h => ?_⟩
  cases hfound : source.found l with
  | ok s => exact usable_of_found hfound
  | error err => exact absurd (found_eq_error.mp hfound) (h err)

/-- A lookup that is not usable fails in exactly one way. -/
theorem Fails.unique (h : source.Fails l err) (h' : source.Fails l err') : err = err' := by
  have heq := (found_eq_error.mpr h).symm.trans (found_eq_error.mpr h')
  exact Except.error.inj heq

theorem posts_of_found (h : source.found l = .ok s) : source.posts l = s := by
  simp [posts, h]

theorem mem_posts (h : source.Usable l) : x ∈ source.posts l ↔ source.Brings l x := by
  obtain ⟨s, hs⟩ := usable_iff.mp h
  rw [posts_of_found hs, mem_of_found hs]

end Source

end PostFilter
