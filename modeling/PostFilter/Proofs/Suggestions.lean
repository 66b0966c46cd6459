import Mathlib
import PostFilter.Hint.Similar

/-!
# Suggestions

The distance of two texts is the least number of edits between them. What is suggested for a name is
the first of the nearest other names, unless even these are too far away, so further names can only
bring a nearer suggestion.
-/

namespace PostFilter

namespace Text

variable {x y : Char} {xs ys zs : List Char} {n : Nat}

/-! ## Rows -/

/-- The distances of all suffixes of `xs` from `ys`. -/
def row (xs ys : List Char) : List Nat :=
  ys.foldr (fun y row => nextRow y xs row) (firstRow xs)

theorem tail_row (x : Char) (xs ys : List Char) : (row (x :: xs) ys).tail = row xs ys := by
  induction ys with
  | nil => rfl
  | cons y ys ih =>
    have hrow : row (x :: xs) (y :: ys) = nextRow y (x :: xs) (row (x :: xs) ys) := rfl
    rw [hrow, nextRow, List.tail_cons, ih]
    rfl

@[simp] theorem editDistance_nil_right (xs : List Char) : editDistance xs [] = xs.length := by
  cases xs <;> rfl

@[simp] theorem editDistance_nil_left (ys : List Char) : editDistance [] ys = ys.length := by
  induction ys with
  | nil => rfl
  | cons y ys ih =>
    rw [List.length_cons, ← ih]
    rfl

/-- The first characters are either matched with each other, or one of them is with none. -/
theorem editDistance_cons_cons (x y : Char) (xs ys : List Char) :
    editDistance (x :: xs) (y :: ys) =
      min (editDistance xs (y :: ys) + 1)
        (min (editDistance (x :: xs) ys + 1) (editDistance xs ys + if x = y then 0 else 1)) := by
  have htail := tail_row x xs ys
  change (nextRow y (x :: xs) (row (x :: xs) ys)).headD 0 = _
  rw [nextRow, htail]
  rfl

/-! ## Edits -/

/-- A character is put in, taken out or exchanged, at the head of a text or further on. -/
inductive Edit : List Char → List Char → Prop
  | insert (x : Char) (xs : List Char) : Edit xs (x :: xs)
  | delete (x : Char) (xs : List Char) : Edit (x :: xs) xs
  | substitute (x y : Char) (xs : List Char) : Edit (x :: xs) (y :: xs)
  | later (x : Char) {xs ys : List Char} (h : Edit xs ys) : Edit (x :: xs) (x :: ys)

/-- The second text is made from the first by `n` edits. -/
inductive Edits : Nat → List Char → List Char → Prop
  | refl (xs : List Char) : Edits 0 xs xs
  | step {n : Nat} {xs ys zs : List Char} (h : Edit xs ys) (hs : Edits n ys zs) :
      Edits (n + 1) xs zs

theorem Edits.later (x : Char) (h : Edits n xs ys) : Edits n (x :: xs) (x :: ys) := by
  induction h with
  | refl xs => exact .refl _
  | step h _ ih => exact .step (.later x h) ih

theorem edits_nil_left (ys : List Char) : Edits ys.length [] ys := by
  induction ys with
  | nil => exact .refl []
  | cons y ys ih => exact .step (.insert y []) (ih.later y)

theorem edits_nil_right (xs : List Char) : Edits xs.length xs [] := by
  induction xs with
  | nil => exact .refl []
  | cons x xs ih => exact .step (.delete x xs) ih

/-- The distance is attained. -/
theorem edits_editDistance (xs ys : List Char) : Edits (editDistance xs ys) xs ys := by
  induction xs generalizing ys with
  | nil => simpa using edits_nil_left ys
  | cons x xs ihx =>
    induction ys with
    | nil => simpa using edits_nil_right (x :: xs)
    | cons y ys ihy =>
      have hdelete : Edits (editDistance xs (y :: ys) + 1) (x :: xs) (y :: ys) :=
        .step (.delete x xs) (ihx (y :: ys))
      have hinsert : Edits (editDistance (x :: xs) ys + 1) (x :: xs) (y :: ys) :=
        .step (.insert y (x :: xs)) (ihy.later y)
      have hmatch : Edits (editDistance xs ys + if x = y then 0 else 1) (x :: xs) (y :: ys) := by
        split
        · next h =>
          subst h
          exact (ihx ys).later x
        · exact .step (.substitute x y xs) ((ihx ys).later y)
      rw [editDistance_cons_cons]
      rcases min_choice (editDistance xs (y :: ys) + 1) _ with h | h
      · rwa [h]
      · rw [h]
        rcases min_choice (editDistance (x :: xs) ys + 1) _ with h | h
        · rwa [h]
        · rwa [h]

/-! ## No shorter way -/

theorem editDistance_cons_left_le (x : Char) (xs zs : List Char) :
    editDistance (x :: xs) zs ≤ editDistance xs zs + 1 := by
  cases zs with
  | nil => simp
  | cons z zs => simp [editDistance_cons_cons]

theorem editDistance_cons_right_le (xs : List Char) (z : Char) (zs : List Char) :
    editDistance xs (z :: zs) ≤ editDistance xs zs + 1 := by
  cases xs with
  | nil => simp
  | cons x xs => simp [editDistance_cons_cons]

theorem editDistance_cons_cons_le (x z : Char) (xs zs : List Char) :
    editDistance (x :: xs) (z :: zs) ≤ editDistance xs zs + 1 := by
  rw [editDistance_cons_cons]
  split <;> omega

theorem editDistance_le_cons_left (x : Char) (xs zs : List Char) :
    editDistance xs zs ≤ editDistance (x :: xs) zs + 1 := by
  induction zs with
  | nil => simp; omega
  | cons z zs ih =>
    have hright := editDistance_cons_right_le xs z zs
    rw [editDistance_cons_cons]
    omega

/-- One edit brings a text at most one step nearer to any other. -/
theorem Edit.editDistance_le (h : Edit xs ys) (zs : List Char) :
    editDistance xs zs ≤ editDistance ys zs + 1 := by
  induction h generalizing zs with
  | insert x xs => exact editDistance_le_cons_left x xs zs
  | delete x xs => exact editDistance_cons_left_le x xs zs
  | substitute x y xs =>
    induction zs with
    | nil => simp
    | cons z zs ih =>
      have hdelete := editDistance_cons_left_le x xs (z :: zs)
      have hmatch := editDistance_cons_cons_le x z xs zs
      have hinsert := editDistance_cons_right_le (x :: xs) z zs
      rw [editDistance_cons_cons y z]
      omega
  | @later x xs ys h ih =>
    induction zs with
    | nil => simpa using ih []
    | cons z zs ihz =>
      have hdelete := ih (z :: zs)
      have hmatch := ih zs
      rw [editDistance_cons_cons, editDistance_cons_cons]
      omega

@[simp] theorem editDistance_self (xs : List Char) : editDistance xs xs = 0 := by
  induction xs with
  | nil => rfl
  | cons x xs ih => simp [editDistance_cons_cons, ih]

theorem Edits.editDistance_le (h : Edits n xs ys) : editDistance xs ys ≤ n := by
  induction h with
  | refl xs => simp
  | step h _ ih => exact (h.editDistance_le _).trans (Nat.succ_le_succ ih)

theorem isLeast_editDistance (xs ys : List Char) :
    IsLeast {n | Edits n xs ys} (editDistance xs ys) :=
  ⟨edits_editDistance xs ys, fun _ h => h.editDistance_le⟩

end Text

/-! ## The first of the nearest -/

section

variable {α : Type} {weight : α → Nat} {as : List α} {a : α} {w : Nat}

theorem leastBy_eq_none_iff : leastBy weight as = none ↔ as = [] := by
  cases as with
  | nil => simp [leastBy]
  | cons a as =>
    rw [leastBy]
    split
    · simp
    · split <;> simp

/-- Of the least elements the first one is found. -/
theorem first_of_leastBy (h : leastBy weight as = some (a, w)) :
    w = weight a ∧ ∃ before after, as = before ++ a :: after ∧
      (∀ b ∈ before, weight a < weight b) ∧ ∀ b ∈ after, weight a ≤ weight b := by
  induction as generalizing a w with
  | nil => cases h
  | cons b as ih =>
    rw [leastBy] at h
    split at h
    · next hnone =>
      cases h
      exact ⟨rfl, [], as, rfl, by simp, by simp [leastBy_eq_none_iff.mp hnone]⟩
    · next c v hc =>
      obtain ⟨rfl, before, after, rfl, hbefore, hafter⟩ := ih hc
      split at h
      · next hle =>
        cases h
        refine ⟨rfl, [], _, rfl, by simp, fun d hd => ?_⟩
        rcases List.mem_append.mp hd with hd | hd
        · exact hle.trans (hbefore d hd).le
        · rcases List.mem_cons.mp hd with rfl | hd
          · exact hle
          · exact hle.trans (hafter d hd)
      · next hlt =>
        cases h
        refine ⟨rfl, b :: before, after, rfl, ?_, hafter⟩
        exact List.forall_mem_cons.mpr ⟨Nat.lt_of_not_le hlt, hbefore⟩

theorem leastBy_of_first {before after : List α} (hbefore : ∀ b ∈ before, weight a < weight b)
    (hafter : ∀ b ∈ after, weight a ≤ weight b) :
    leastBy weight (before ++ a :: after) = some (a, weight a) := by
  induction before with
  | nil =>
    rw [List.nil_append, leastBy]
    split
    · rfl
    · next c v hc =>
      obtain ⟨rfl, front, back, rfl, -⟩ := first_of_leastBy hc
      rw [if_pos (hafter c (by simp))]
  | cons b before ih =>
    obtain ⟨hb, hbefore⟩ := List.forall_mem_cons.mp hbefore
    rw [List.cons_append, leastBy, ih hbefore]
    exact if_neg (Nat.not_le_of_lt hb)

end

/-! ## Suggestions -/

/-- The candidate has characters and is not the name that is looked for. -/
def Eligible (query candidate : String) : Prop :=
  candidate ≠ "" ∧ candidate ≠ query

instance (query candidate : String) : Decidable (Eligible query candidate) :=
  inferInstanceAs (Decidable (_ ∧ _))

/-- No eligible candidate is nearer to the query than `name`, and none before it is as near. -/
def FirstNearest (query : String) (candidates : List String) (name : String) : Prop :=
  ∃ before after, candidates = before ++ name :: after ∧ Eligible query name ∧
    (∀ c ∈ before, Eligible query c → nameDistance query name < nameDistance query c) ∧
    ∀ c ∈ after, Eligible query c → nameDistance query name ≤ nameDistance query c

variable {query name c : String} {candidates more : List String}

theorem isEligible_iff : isEligible query c = true ↔ Eligible query c := by
  simp [isEligible, Eligible]

namespace FirstNearest

theorem mem (h : FirstNearest query candidates name) : name ∈ candidates := by
  obtain ⟨before, after, rfl, -⟩ := h
  simp

theorem eligible (h : FirstNearest query candidates name) : Eligible query name := by
  obtain ⟨-, -, -, heligible, -⟩ := h
  exact heligible

theorem le (h : FirstNearest query candidates name) (hc : c ∈ candidates)
    (heligible : Eligible query c) : nameDistance query name ≤ nameDistance query c := by
  obtain ⟨before, after, rfl, -, hbefore, hafter⟩ := h
  rcases List.mem_append.mp hc with hc | hc
  · exact (hbefore c hc heligible).le
  · rcases List.mem_cons.mp hc with rfl | hc
    · exact le_rfl
    · exact hafter c hc heligible

/-- Candidates at the end that are not nearer make no difference. -/
theorem append (h : FirstNearest query candidates name)
    (hmore : ∀ c ∈ more, Eligible query c → nameDistance query name ≤ nameDistance query c) :
    FirstNearest query (candidates ++ more) name := by
  obtain ⟨before, after, rfl, heligible, hbefore, hafter⟩ := h
  refine ⟨before, after ++ more, by simp, heligible, hbefore, fun c hc => ?_⟩
  exact (List.mem_append.mp hc).elim (hafter c) (hmore c)

end FirstNearest

/-- Candidates that are not eligible may stand anywhere between the others. -/
theorem leastBy_eligible_eq_some_iff {w : Nat} :
    leastBy (nameDistance query) (candidates.filter (isEligible query)) = some (name, w) ↔
      FirstNearest query candidates name ∧ w = nameDistance query name := by
  constructor
  · intro h
    obtain ⟨hw, front, back, hfilter, hfront, hback⟩ := first_of_leastBy h
    obtain ⟨before, rest, rfl, rfl, hrest⟩ := List.filter_eq_append_iff.mp hfilter
    obtain ⟨skipped, after, rfl, hskipped, heligible, rfl⟩ := List.filter_eq_cons_iff.mp hrest
    refine ⟨⟨before ++ skipped, after, by simp, isEligible_iff.mp heligible, ?_, ?_⟩, hw⟩
    · intro c hc hcand
      rcases List.mem_append.mp hc with hc | hc
      · exact hfront c (List.mem_filter.mpr ⟨hc, isEligible_iff.mpr hcand⟩)
      · exact absurd (isEligible_iff.mpr hcand) (hskipped c hc)
    · intro c hc hcand
      exact hback c (List.mem_filter.mpr ⟨hc, isEligible_iff.mpr hcand⟩)
  · rintro ⟨⟨before, after, rfl, heligible, hbefore, hafter⟩, rfl⟩
    rw [List.filter_append, List.filter_cons_of_pos (isEligible_iff.mpr heligible)]
    refine leastBy_of_first (fun c hc => ?_) fun c hc => ?_
    · obtain ⟨hc, hcand⟩ := List.mem_filter.mp hc
      exact hbefore c hc (isEligible_iff.mp hcand)
    · obtain ⟨hc, hcand⟩ := List.mem_filter.mp hc
      exact hafter c hc (isEligible_iff.mp hcand)

theorem exists_firstNearest (hc : c ∈ candidates) (heligible : Eligible query c) :
    ∃ name, FirstNearest query candidates name := by
  cases h : leastBy (nameDistance query) (candidates.filter (isEligible query)) with
  | none =>
    have hmem : c ∈ candidates.filter (isEligible query) :=
      List.mem_filter.mpr ⟨hc, isEligible_iff.mpr heligible⟩
    simp [leastBy_eq_none_iff.mp h] at hmem
  | some best => exact ⟨best.1, (leastBy_eligible_eq_some_iff.mp h).1⟩

theorem similarName?_eq_some_iff : similarName? query candidates = some name ↔
    FirstNearest query candidates name ∧ nameDistance query name ≤ maxSuggestionDistance := by
  constructor
  · intro h
    unfold similarName? at h
    split at h
    · next best w hbest =>
      obtain ⟨hnearest, rfl⟩ := leastBy_eligible_eq_some_iff.mp hbest
      obtain ⟨hle, rfl⟩ : nameDistance query best ≤ maxSuggestionDistance ∧ best = name := by
        simpa using h
      exact ⟨hnearest, hle⟩
    · cases h
  · rintro ⟨hname, hle⟩
    simp [similarName?, leastBy_eligible_eq_some_iff.mpr ⟨hname, rfl⟩, hle]

theorem similarName?_eq_none_iff : similarName? query candidates = none ↔
    ∀ c ∈ candidates, Eligible query c → maxSuggestionDistance < nameDistance query c := by
  constructor
  · intro h c hc heligible
    obtain ⟨name, hname⟩ := exists_firstNearest hc heligible
    refine Nat.lt_of_not_le fun hle => ?_
    have hsome := similarName?_eq_some_iff.mpr ⟨hname, (hname.le hc heligible).trans hle⟩
    simp [h] at hsome
  · intro h
    by_contra hne
    obtain ⟨name, hname⟩ := Option.ne_none_iff_exists'.mp hne
    obtain ⟨hnearest, hle⟩ := similarName?_eq_some_iff.mp hname
    exact Nat.not_lt_of_le hle (h name hnearest.mem hnearest.eligible)

/-- A suggestion stays, or a nearer one comes in its place. -/
theorem similarName?_append (h : similarName? query candidates = some name) (more : List String) :
    ∃ name', similarName? query (candidates ++ more) = some name' ∧
      (name' = name ∨ nameDistance query name' < nameDistance query name) := by
  obtain ⟨hname, hle⟩ := similarName?_eq_some_iff.mp h
  by_cases hmore :
      ∀ c ∈ more, Eligible query c → nameDistance query name ≤ nameDistance query c
  · exact ⟨name, similarName?_eq_some_iff.mpr ⟨hname.append hmore, hle⟩, .inl rfl⟩
  · push Not at hmore
    obtain ⟨c, hc, heligible, hlt⟩ := hmore
    have hmem : c ∈ candidates ++ more := List.mem_append_right _ hc
    obtain ⟨name', hname'⟩ := exists_firstNearest hmem heligible
    have hnearer := (hname'.le hmem heligible).trans_lt hlt
    exact ⟨name', similarName?_eq_some_iff.mpr ⟨hname', hnearer.le.trans hle⟩, .inr hnearer⟩

/-- Names are as far apart as the least number of edits between their lowercase forms. Nothing is
suggested exactly if all eligible candidates are more than three edits away. What is suggested is
the first of the nearest eligible candidates, in its own spelling. Further candidates never take a
suggestion away, unless for a nearer one. -/
theorem similarName?_nearest (query : String) (candidates : List String) :
    (∀ c : String,
      IsLeast {n | Text.Edits n (Text.lowercase query.toList) (Text.lowercase c.toList)}
        (nameDistance query c)) ∧
    (similarName? query candidates = none ↔
      ∀ c ∈ candidates, Eligible query c → 3 < nameDistance query c) ∧
    (∀ name, similarName? query candidates = some name ↔
      FirstNearest query candidates name ∧ nameDistance query name ≤ 3) ∧
    ∀ name, similarName? query candidates = some name → ∀ more,
      ∃ name', similarName? query (candidates ++ more) = some name' ∧
        (name' = name ∨ nameDistance query name' < nameDistance query name) :=
  ⟨fun _ => Text.isLeast_editDistance _ _, similarName?_eq_none_iff,
    fun _ => similarName?_eq_some_iff, fun _ h => similarName?_append h⟩

/-- Two candidates are as near as can be, the name itself and the empty one aside, until a nearer
one is added. -/
theorem similarName?_nearest_alice :
    FirstNearest "ALCIE" ["", "bob", "Alice", "ALCIE", "alcxx"] "Alice" ∧
      (∃ name, similarName? "ALCIE" (["", "bob", "Alice", "ALCIE", "alcxx"] ++ ["alcie"]) =
        some name ∧ (name = "Alice" ∨ nameDistance "ALCIE" name < 2)) ∧
      similarName? "ALCIE" ["", "ALCIE", "robert"] = none := by
  have hname : similarName? "ALCIE" ["", "bob", "Alice", "ALCIE", "alcxx"] = some "Alice" := by
    decide +kernel
  have hdistance : nameDistance "ALCIE" "Alice" = 2 := by decide +kernel
  obtain ⟨-, -, hsome, happend⟩ :=
    similarName?_nearest "ALCIE" ["", "bob", "Alice", "ALCIE", "alcxx"]
  obtain ⟨-, hnone, -⟩ := similarName?_nearest "ALCIE" ["", "ALCIE", "robert"]
  have hfar : ∀ c ∈ ["", "ALCIE", "robert"], Eligible "ALCIE" c → 3 < nameDistance "ALCIE" c := by
    decide +kernel
  exact ⟨((hsome _).mp hname).1, hdistance ▸ happend _ hname ["alcie"], hnone.mpr hfar⟩

end PostFilter
