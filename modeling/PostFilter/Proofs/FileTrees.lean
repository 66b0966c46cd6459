import Mathlib
import PostFilter.Fallible
import PostFilter.File.Tree

/-!
# Growing file trees

Making a directory or writing a file leaves everything else where it is, so a path that led
somewhere still leads there. A path without steps up cannot lead through new directories to
something old, since what is in a tree lies in directories that are there as well.
-/

namespace PostFilter

/-! ## Names -/

namespace Path

theorem splitAtSlashes_ne_nil (cs : List Char) : splitAtSlashes cs ≠ [] := by
  fun_induction splitAtSlashes cs <;> simp

/-- Nothing comes after the last slash only if the text ends there. -/
theorem of_getLast?_splitAtSlashes {cs : List Char}
    (h : (splitAtSlashes cs).getLast? = some []) : cs = [] ∨ cs.getLast? = some '/' := by
  fun_induction splitAtSlashes cs with
  | case1 => exact .inl rfl
  | case2 cs ih =>
    rw [List.getLast?_cons_of_ne_nil (splitAtSlashes_ne_nil cs)] at h
    rcases ih h with rfl | hlast
    · exact .inr rfl
    · exact .inr (by rw [List.getLast?_cons, hlast]; rfl)
  | case3 c cs hc hnil ih => exact absurd hnil (splitAtSlashes_ne_nil cs)
  | case4 c cs hc name names hsplit ih =>
    have hnames : names ≠ [] := by
      rintro rfl
      simp at h
    rw [List.getLast?_cons_of_ne_nil hnames] at h
    rw [hsplit, List.getLast?_cons_of_ne_nil hnames] at ih
    rcases ih h with rfl | hlast
    · obtain ⟨-, rfl⟩ := List.cons_eq_cons.mp hsplit
      exact absurd rfl hnames
    · exact .inr (by rw [List.getLast?_cons, hlast]; rfl)

/-- A path that does not end in a slash ends in a name. -/
theorem exists_reverse_names {path : String} (hne : path ≠ "")
    (hslash : path.toList.getLast? ≠ some '/') :
    ∃ name up, (names path).reverse = name :: up ∧ name ≠ "" := by
  obtain ⟨name, up, hup⟩ := List.exists_cons_of_ne_nil
    (mt List.reverse_eq_nil_iff.mp (splitAtSlashes_ne_nil path.toList))
  refine ⟨String.ofList name, up.map String.ofList, ?_, fun hname => ?_⟩
  · rw [names, ← List.map_reverse, hup, List.map_cons]
  · obtain rfl : name = [] := by simpa using hname
    have hlast : (splitAtSlashes path.toList).getLast? = some [] := by
      rw [List.getLast?_eq_head?_reverse, hup, List.head?_cons]
    rcases of_getLast?_splitAtSlashes hlast with hnil | hlast
    · exact hne (by simpa using hnil)
    · exact hslash hlast

end Path

namespace FileTree

variable {t t' t'' : FileTree} {p q dir : Place} {path name text : String} {names : List String}

/-! ## Well-formed trees -/

/-- The working directory is there, and what is in the tree lies in a directory. -/
structure WellFormed (t : FileTree) : Prop where
  here : t.find? t.here = some .directory
  parents : ∀ name p, (t.find? (name :: p)).isSome → t.find? p = some .directory

namespace WellFormed

theorem isSome_of_suffix (ht : t.WellFormed) (h : p <:+ q) (hq : (t.find? q).isSome) :
    (t.find? p).isSome := by
  induction q with
  | nil => simpa [List.suffix_nil.mp h] using hq
  | cons name q ih =>
    rcases List.suffix_cons_iff.mp h with rfl | h
    · exact hq
    · exact ih h (by simp [ht.parents name q hq])

theorem isSome_start (ht : t.WellFormed) (path : String) : (t.find? (t.start path)).isSome := by
  unfold start
  split
  · rfl
  · simp [ht.here]

/-- Something new in a directory leaves the tree well-formed. -/
theorem put (ht : t.WellFormed) {e : FileEntry} (hdir : t.find? dir = some .directory)
    (hnew : t.find? (name :: dir) ≠ some .directory) : (t.put (name :: dir) e).WellFormed := by
  have hkeep : ∀ q, t.find? q = some .directory →
      (t.put (name :: dir) e).find? q = some .directory := by
    intro q hq
    have hne : q ≠ name :: dir := by
      rintro rfl
      exact hnew hq
    rw [find?_put_of_ne hne, hq]
  refine ⟨hkeep _ ht.here, fun n q hq => hkeep q ?_⟩
  by_cases hplace : n :: q = name :: dir
  · obtain ⟨-, rfl⟩ := List.cons_eq_cons.mp hplace
    exact hdir
  · exact ht.parents n q (by rwa [find?_put_of_ne hplace] at hq)

end WellFormed

/-! ## Steps -/

/-- A step out of a directory stays there, leads up, or leads to something that is in it. -/
theorem step_eq_ok_iff : t.step p name = .ok q ↔ t.find? p = some .directory ∧
    ((name = "" ∨ name = ".") ∧ q = p ∨ name = ".." ∧ q = p.tail ∨
      ¬ (name = "" ∨ name = ".") ∧ name ≠ ".." ∧ name.utf8ByteSize ≤ maxNameSize ∧
        (t.find? (name :: p)).isSome ∧ q = name :: p) := by
  unfold step
  split
  · next hp => split_ifs <;> grind
  · next hp => simp [hp]
  · next hp => simp [hp]

/-- What is reached from something is there. -/
theorem WellFormed.isSome_of_foldlM (ht : t.WellFormed) (hp : (t.find? p).isSome)
    (hwalk : names.foldlM t.step p = .ok q) : (t.find? q).isSome := by
  induction names generalizing p with
  | nil =>
    obtain rfl : p = q := by simpa [pure, Except.pure] using hwalk
    exact hp
  | cons name names ih =>
    rw [List.foldlM_cons, Fallible.bind_eq_ok] at hwalk
    obtain ⟨p', hstep, hrest⟩ := hwalk
    refine ih ?_ hrest
    obtain ⟨-, ⟨-, rfl⟩ | ⟨-, rfl⟩ | ⟨-, -, -, hthere, rfl⟩⟩ := step_eq_ok_iff.mp hstep
    · exact hp
    · exact ht.isSome_of_suffix (List.tail_suffix p) hp
    · exact hthere

theorem isThere_iff : t.isThere path = true ↔ ∃ p, t.walk path = .ok p := by
  unfold isThere
  cases t.walk path <;> simp [Except.isOk, Except.toBool]

/-- Does the path step up out of something that is not there? -/
def StepsUpFromMissing (t : FileTree) (path : String) : Prop :=
  ∃ before after, Path.names path = before ++ ".." :: after ∧
    ∀ q, before.foldlM t.step (t.start path) ≠ .ok q

theorem not_stepsUpFromMissing (h : ".." ∉ Path.names path) : ¬ t.StepsUpFromMissing path := by
  rintro ⟨before, after, hnames, -⟩
  exact h (by simp [hnames])

/-! ## Growth -/

/-- What is there stays there, and directories stay directories. -/
structure Grows (t t' : FileTree) : Prop where
  here : t'.here = t.here
  directories : ∀ p, t.find? p = some .directory → t'.find? p = some .directory
  there : ∀ p, (t.find? p).isSome → (t'.find? p).isSome

/-- Only directories are new, each in another one, and everything else is as it was. -/
structure GainsDirectories (t t' : FileTree) : Prop where
  here : t'.here = t.here
  kept : ∀ p e, t.find? p = some e → t'.find? p = some e
  files : ∀ p content, t'.find? p = some (.file content) → t.find? p = some (.file content)
  wellFormed : t.WellFormed → t'.WellFormed

namespace Grows

theorem refl (t : FileTree) : t.Grows t :=
  ⟨rfl, fun _ h => h, fun _ h => h⟩

theorem trans (h : t.Grows t') (h' : t'.Grows t'') : t.Grows t'' where
  here := h'.here.trans h.here
  directories p hp := h'.directories p (h.directories p hp)
  there p hp := h'.there p (h.there p hp)

theorem step (h : t.Grows t') (hstep : t.step p name = .ok q) : t'.step p name = .ok q := by
  rw [step_eq_ok_iff] at hstep ⊢
  obtain ⟨hp, hstay | hup | ⟨hdot, hup, hsize, hthere, rfl⟩⟩ := hstep
  · exact ⟨h.directories p hp, .inl hstay⟩
  · exact ⟨h.directories p hp, .inr (.inl hup)⟩
  · exact ⟨h.directories p hp, .inr (.inr ⟨hdot, hup, hsize, h.there _ hthere, rfl⟩)⟩

theorem foldlM_step (h : t.Grows t') (hwalk : names.foldlM t.step p = .ok q) :
    names.foldlM t'.step p = .ok q := by
  induction names generalizing p with
  | nil => exact hwalk
  | cons name names ih =>
    rw [List.foldlM_cons, Fallible.bind_eq_ok] at hwalk ⊢
    obtain ⟨p', hstep, hrest⟩ := hwalk
    exact ⟨p', h.step hstep, ih hrest⟩

theorem start (h : t.Grows t') (path : String) : t'.start path = t.start path := by
  rw [FileTree.start, FileTree.start, h.here]

theorem walk (h : t.Grows t') (hwalk : t.walk path = .ok p) : t'.walk path = .ok p := by
  rw [FileTree.walk, Fallible.bind_eq_ok] at hwalk ⊢
  obtain ⟨u, hcheck, hsteps⟩ := hwalk
  exact ⟨u, hcheck, by rw [h.start]; exact h.foldlM_step hsteps⟩

theorem isThere (h : t.Grows t') (hthere : t.isThere path = true) : t'.isThere path = true := by
  obtain ⟨p, hwalk⟩ := isThere_iff.mp hthere
  exact isThere_iff.mpr ⟨p, h.walk hwalk⟩

theorem stepsUpFromMissing (h : t.Grows t') (hup : t'.StepsUpFromMissing path) :
    t.StepsUpFromMissing path := by
  obtain ⟨before, after, hnames, hmissing⟩ := hup
  refine ⟨before, after, hnames, fun q hq => hmissing q ?_⟩
  rw [h.start]
  exact h.foldlM_step hq

/-- A file is written where no directory is. -/
theorem put (hp : p ≠ []) (hnew : t.find? p ≠ some .directory) (e : FileEntry) :
    t.Grows (t.put p e) where
  here := rfl
  directories q hq := by
    have hne : q ≠ p := by
      rintro rfl
      exact hnew hq
    rwa [find?_put_of_ne hne]
  there q hq := by
    by_cases hne : q = p
    · rw [hne, find?_put hp]
      rfl
    · rwa [find?_put_of_ne hne]

end Grows

namespace GainsDirectories

theorem refl (t : FileTree) : t.GainsDirectories t :=
  ⟨rfl, fun _ _ h => h, fun _ _ h => h, fun h => h⟩

theorem trans (h : t.GainsDirectories t') (h' : t'.GainsDirectories t'') :
    t.GainsDirectories t'' where
  here := h'.here.trans h.here
  kept p e hp := h'.kept p e (h.kept p e hp)
  files p content hp := h.files p content (h'.files p content hp)
  wellFormed ht := h'.wellFormed (h.wellFormed ht)

theorem grows (h : t.GainsDirectories t') : t.Grows t' where
  here := h.here
  directories p hp := h.kept p _ hp
  there p hp := by
    obtain ⟨e, he⟩ := Option.isSome_iff_exists.mp hp
    rw [h.kept p e he]
    rfl

theorem put (hdir : t.find? dir = some .directory) (hnew : t.find? (name :: dir) = none) :
    t.GainsDirectories (t.put (name :: dir) .directory) where
  here := rfl
  kept q e hq := by
    have hne : q ≠ name :: dir := by
      rintro rfl
      simp [hnew] at hq
    rwa [find?_put_of_ne hne]
  files q content hq := by
    have hne : q ≠ name :: dir := by
      rintro rfl
      simp [find?_put (List.cons_ne_nil name dir)] at hq
    rwa [find?_put_of_ne hne] at hq
  wellFormed ht := ht.put hdir (by simp [hnew])

/-- A directory among what was there before was a directory already. -/
theorem directory (h : t.GainsDirectories t') (hp : (t.find? p).isSome)
    (hdir : t'.find? p = some .directory) : t.find? p = some .directory := by
  obtain ⟨e, he⟩ := Option.isSome_iff_exists.mp hp
  rwa [h.kept p e he, ← he] at hdir

/-- Without a step up, what was there before is reached through what was there before. -/
theorem foldlM_step (h : t.GainsDirectories t') (ht : t.WellFormed) (hnames : ".." ∉ names)
    (hwalk : names.foldlM t'.step p = .ok q) (hq : (t.find? q).isSome) :
    p <:+ q ∧ names.foldlM t.step p = .ok q := by
  induction names generalizing p with
  | nil =>
    obtain rfl : p = q := by simpa [pure, Except.pure] using hwalk
    exact ⟨List.suffix_refl p, rfl⟩
  | cons name names ih =>
    rw [List.mem_cons, not_or] at hnames
    rw [List.foldlM_cons, Fallible.bind_eq_ok] at hwalk ⊢
    obtain ⟨p', hstep, hrest⟩ := hwalk
    obtain ⟨hsuffix, hold⟩ := ih hnames.2 hrest
    have hp' : (t.find? p').isSome := ht.isSome_of_suffix hsuffix hq
    obtain ⟨hdir, hstay | hup | ⟨hdot, hup, hsize, hthere, rfl⟩⟩ := step_eq_ok_iff.mp hstep
    · obtain ⟨hdot, rfl⟩ := hstay
      exact ⟨hsuffix, p', step_eq_ok_iff.mpr ⟨h.directory hp' hdir, .inl ⟨hdot, rfl⟩⟩, hold⟩
    · exact absurd hup.1.symm hnames.1
    · refine ⟨(List.suffix_cons name p).trans hsuffix, name :: p, ?_, hold⟩
      exact step_eq_ok_iff.mpr ⟨ht.parents name p hp', .inr (.inr ⟨hdot, hup, hsize, hp', rfl⟩)⟩

/-- Something old is reached through what was there before, unless the path steps up out of what was
not. -/
theorem walk (h : t.GainsDirectories t') (ht : t.WellFormed) (hup : ¬ t.StepsUpFromMissing path)
    (hwalk : t'.walk path = .ok p) (hp : (t.find? p).isSome) : t.walk path = .ok p := by
  rw [FileTree.walk, Fallible.bind_eq_ok] at hwalk ⊢
  obtain ⟨u, hcheck, hsteps⟩ := hwalk
  rw [h.grows.start] at hsteps
  refine ⟨u, hcheck, ?_⟩
  by_cases hdots : ".." ∈ Path.names path
  · -- The names up to the last step up lead to something old, and no step up comes after them.
    obtain ⟨after, before, hnames, hafter⟩ :=
      List.eq_append_cons_of_mem (List.mem_reverse.mpr hdots)
    replace hnames : Path.names path = before.reverse ++ ".." :: after.reverse := by
      simpa using congrArg List.reverse hnames
    obtain ⟨q, hq⟩ : ∃ q, before.reverse.foldlM t.step (t.start path) = .ok q := by
      by_contra hmissing
      exact hup ⟨_, _, hnames, not_exists.mp hmissing⟩
    rw [hnames, List.foldlM_append, Fallible.bind_eq_ok] at hsteps ⊢
    obtain ⟨q', hq', hsteps⟩ := hsteps
    obtain rfl : q = q' := Except.ok.inj ((h.grows.foldlM_step hq).symm.trans hq')
    rw [List.foldlM_cons, Fallible.bind_eq_ok] at hsteps
    obtain ⟨r, hstep, hrest⟩ := hsteps
    obtain ⟨hdir, hr⟩ := step_eq_ok_iff.mp hstep
    obtain rfl : r = q.tail := by simpa using hr
    have hthere : (t.find? q).isSome := ht.isSome_of_foldlM (ht.isSome_start path) hq
    have hold : t.step q ".." = .ok q.tail :=
      step_eq_ok_iff.mpr ⟨h.directory hthere hdir, .inr (.inl ⟨rfl, rfl⟩)⟩
    refine ⟨q, hq, ?_⟩
    rw [List.foldlM_cons, hold]
    exact (h.foldlM_step ht (by simpa using hafter) hrest hp).2
  · exact (h.foldlM_step ht hdots hsteps hp).2

/-- Where a path leads only now there was nothing before, unless the path steps up out of something
that was not there. -/
theorem find?_eq_none (h : t.GainsDirectories t') (ht : t.WellFormed)
    (hup : ¬ t.StepsUpFromMissing path) (hmissing : t.isThere path = false)
    (hwalk : (t'.find? p).isSome → t'.walk path = .ok p) : t.find? p = none := by
  by_contra hne
  have hp : (t.find? p).isSome := Option.isSome_iff_ne_none.mpr hne
  have hold : t.walk path = .ok p := h.walk ht hup (hwalk (h.grows.there p hp)) hp
  have hthere : t.isThere path = true := isThere_iff.mpr ⟨p, hold⟩
  simp [hmissing] at hthere

end GainsDirectories

/-! ## Operations -/

/-- A path puts its last nonempty name in the directory that the names before it lead to. -/
theorem exists_of_target (h : t.target path = .ok (dir, name)) (hname : isDots name = false) :
    checkPath path = .ok () ∧ t.find? dir = some .directory ∧ ∃ up,
      (Path.names path).reverse.dropWhile (· == "") = name :: up ∧
      up.reverse.foldlM t.step (t.start path) = .ok dir := by
  rw [target, Fallible.bind_eq_ok] at h
  obtain ⟨⟨⟩, hcheck, h⟩ := h
  split at h
  · obtain ⟨-, rfl⟩ : [] = dir ∧ "." = name := by simpa [pure, Except.pure] using h
    cases hname
  · next last up hlast =>
    obtain ⟨p, hwalk, h⟩ := Fallible.bind_eq_ok.mp h
    obtain ⟨p', hstep, h⟩ := Fallible.bind_eq_ok.mp h
    obtain ⟨rfl, rfl⟩ : p' = dir ∧ last = name := by simpa [pure, Except.pure] using h
    obtain ⟨hdir, hstay⟩ := step_eq_ok_iff.mp hstep
    obtain rfl : p' = p := by simpa using hstay
    exact ⟨hcheck, hdir, up, hlast, hwalk⟩

/-- A path that does not end in a slash leads to what has its last name, also in a tree that has
grown. -/
theorem Grows.walk_target (h : t.Grows t') (htarget : t.target path = .ok (dir, name))
    (hname : isDots name = false) (hslash : path.toList.getLast? ≠ some '/')
    (hsize : name.utf8ByteSize ≤ maxNameSize) (hthere : (t'.find? (name :: dir)).isSome) :
    t'.walk path = .ok (name :: dir) := by
  obtain ⟨hcheck, hdir, up, hlast, hwalk⟩ := exists_of_target htarget hname
  have hne : path ≠ "" := by
    rintro rfl
    cases hcheck
  obtain ⟨last, before, hnames, hlast'⟩ := Path.exists_reverse_names hne hslash
  have hkept : (Path.names path).reverse.dropWhile (· == "") = last :: before := by
    rw [hnames, List.dropWhile_cons_of_neg (by simpa using hlast')]
  obtain ⟨rfl, rfl⟩ := List.cons_eq_cons.mp (hkept.symm.trans hlast)
  have hsplit : Path.names path = before.reverse ++ [last] := by
    rw [← List.reverse_cons, ← hnames, List.reverse_reverse]
  have hdots : ¬ (last = "" ∨ last = ".") ∧ last ≠ ".." := by
    simpa [isDots, hlast'] using hname
  have hstep : t'.step dir last = .ok (last :: dir) := step_eq_ok_iff.mpr
    ⟨h.directories dir hdir, .inr (.inr ⟨hdots.1, hdots.2, hsize, hthere, rfl⟩)⟩
  rw [FileTree.walk, hcheck, hsplit, h.start]
  change (before.reverse ++ [last]).foldlM t'.step (t.start path) = _
  rw [List.foldlM_append, h.foldlM_step hwalk]
  exact (bind_pure (t'.step dir last)).trans hstep

/-- A directory is made in another one, where there was nothing. -/
theorem exists_place_of_createDirectory (h : t.createDirectory path = .ok t') :
    ∃ name dir, t.find? dir = some .directory ∧ t.find? (name :: dir) = none ∧
      t' = t.put (name :: dir) .directory := by
  rw [createDirectory, Fallible.bind_eq_ok] at h
  obtain ⟨⟨dir, name⟩, htarget, h⟩ := h
  dsimp only at h
  split at h
  · cases h
  · next hname =>
    obtain ⟨-, hdir, -⟩ := exists_of_target htarget (by simpa using hname)
    split at h
    · cases h
    · split at h
      · cases h
      · next hnew =>
        cases h
        exact ⟨name, dir, hdir, hnew, rfl⟩

/-- A file is written where there is no directory, under a name that the path does not follow by a
slash. -/
theorem exists_target_of_write (h : t.write path text = .ok t') :
    ∃ name dir, t.target path = .ok (dir, name) ∧ isDots name = false ∧
      path.toList.getLast? ≠ some '/' ∧ name.utf8ByteSize ≤ maxNameSize ∧
      t.find? (name :: dir) ≠ some .directory ∧ t' = t.put (name :: dir) (.file text.toUTF8) := by
  rw [write, Fallible.bind_eq_ok] at h
  obtain ⟨⟨dir, name⟩, htarget, h⟩ := h
  dsimp only at h
  split at h
  · cases h
  · next hplain =>
    rw [Bool.or_eq_true, not_or, Bool.not_eq_true, beq_iff_eq] at hplain
    split at h
    · cases h
    · next hsize =>
      split at h
      · cases h
      · next hnew =>
        cases h
        exact ⟨name, dir, htarget, hplain.1, hplain.2, Nat.le_of_not_lt hsize, hnew, rfl⟩

/-- A file is written in a directory, where there is none, and the path leads there. If there was
something before, the path has led there before. -/
theorem exists_place_of_write (h : t.write path text = .ok t') :
    ∃ name dir, t.find? dir = some .directory ∧ t.find? (name :: dir) ≠ some .directory ∧
      t' = t.put (name :: dir) (.file text.toUTF8) ∧ t'.walk path = .ok (name :: dir) ∧
      ((t.find? (name :: dir)).isSome → t.walk path = .ok (name :: dir)) := by
  obtain ⟨name, dir, htarget, hname, hslash, hsize, hnew, rfl⟩ := exists_target_of_write h
  obtain ⟨-, hdir, -⟩ := exists_of_target htarget hname
  have hgrows : t.Grows (t.put (name :: dir) (.file text.toUTF8)) := .put (by simp) hnew _
  have hthere : ((t.put (name :: dir) (.file text.toUTF8)).find? (name :: dir)).isSome := by
    rw [find?_put (List.cons_ne_nil name dir)]
    rfl
  exact ⟨name, dir, hdir, hnew, rfl, hgrows.walk_target htarget hname hslash hsize hthere,
    (Grows.refl t).walk_target htarget hname hslash hsize⟩

end FileTree

end PostFilter
