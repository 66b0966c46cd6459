import PostFilter.Filter.Evaluation
import PostFilter.Proofs.Waiting

/-!
# Timing and failure of evaluations

However long its lookups take, an evaluation ends with the posts that the filter matches if all of
them are usable. It has then started each of them once and has waited for the slowest. If some
lookup fails, the evaluation ends with the failure that comes first in time.
-/

namespace PostFilter

variable {source : Source} {ls ms before before' : List Lookup} {l l' : Lookup} {s t : IdSet}
  {err err' : StoreError}

/-- How lookups `ls` begin that `s` is made of. Either none fails at once, and those with a delay
are awaited, or the leftmost that fails at once stops those to its right from being started. -/
inductive Launch.Starts (source : Source) (ls : List Lookup) (s : IdSet) : Launch → Prop where
  | going {p : Progress} (usable : ∀ l ∈ ls, source.delay l = 0 → source.Usable l)
      (outstanding : ∀ l due, (l, due) ∈ p.outstanding ↔ l ∈ ls ∧ due = source.delay l ∧ 0 < due)
      (value : p.value source.posts = s) : Starts source ls s ⟨ls, .ok p⟩
  | stopped {before : List Lookup} {l : Lookup} {err : StoreError} (started : before ++ [l] <+: ls)
      (usable : ∀ m ∈ before, source.delay m = 0 → source.Usable m)
      (immediate : source.delay l = 0) (fails : source.Fails l err) :
      Starts source ls s ⟨before ++ [l], .error err⟩

namespace Launch

open Waiting in
theorem starts_ofLookup (source : Source) (l : Lookup) :
    (ofLookup source l).Starts source [l] (source.posts l) := by
  unfold ofLookup
  cases h : (lookup l (source.delay l)).poll source 0 with
  | ok p =>
    have hpolls := polls_of_poll h
    refine .going ?_ ?_ hpolls.value
    · intro m hm hdelay
      obtain rfl := List.mem_singleton.mp hm
      exact hpolls.usable _ (List.mem_singleton_self _) (Nat.le_of_eq hdelay)
    · intro m due
      rw [hpolls.mem_outstanding, Waiting.outstanding]
      grind
  | error err =>
    obtain ⟨o, ho, hdue, hfails⟩ := fails_of_poll h
    obtain rfl := List.mem_singleton.mp ho
    have hpre : [] ++ [l] <+: [l] := List.prefix_refl _
    exact .stopped hpre (List.forall_mem_nil _) (Nat.le_zero.mp hdue) hfails

theorem Starts.beside {a b : Launch} (op : SetOp) (ha : a.Starts source ls s)
    (hb : b.Starts source ms t) : (beside op a b).Starts source (ls ++ ms) (op.apply s t) := by
  cases ha with
  | stopped started usable immediate fails =>
    exact .stopped (started.trans (List.prefix_append ls ms)) usable immediate fails
  | going usable outstanding value =>
    cases hb with
    | stopped started' usable' immediate fails =>
      rw [Launch.beside, ← List.append_assoc]
      refine .stopped ?_ (List.forall_mem_append.mpr ⟨usable, usable'⟩) immediate fails
      rwa [List.append_assoc, List.prefix_append_right_inj]
    | going usable' outstanding' value' =>
      refine .going (List.forall_mem_append.mpr ⟨usable, usable'⟩) ?_ ?_
      · intro l due
        rw [Progress.outstanding_join, List.mem_append, List.mem_append, outstanding, outstanding',
          ← or_and_right]
      · rw [Progress.value_join, value, value']

end Launch

theorem Expr.starts_launch (source : Source) (e : Expr) :
    (e.launch source).Starts source e.lookups (e.denote source.posts) := by
  induction e with
  | author u => exact Launch.starts_ofLookup source (.author u)
  | tag l => exact Launch.starts_ofLookup source (.tag l)
  | not e ih => exact (Launch.starts_ofLookup source .everything).beside .diff ih
  | and a b iha ihb => exact iha.beside .inter ihb
  | or a b iha ihb => exact iha.beside .union ihb

/-- Of the lookups `ls`, the one after `before` fails, and none fails earlier. Without a delay, none
to its left fails at the same time. -/
structure Source.FailsFirst (source : Source) (ls before : List Lookup) (l : Lookup)
    (err : StoreError) : Prop where
  among : before ++ [l] <+: ls
  fails : source.Fails l err
  earliest : ∀ m ∈ ls, ¬ source.Usable m → source.delay l ≤ source.delay m
  leftmost : source.delay l = 0 → ∀ m ∈ before, source.delay m = 0 → source.Usable m

theorem Source.FailsFirst.mem (h : source.FailsFirst ls before l err) : l ∈ ls :=
  h.among.subset (List.mem_append_right before (List.mem_singleton_self l))

theorem Source.FailsFirst.delay_eq (h : source.FailsFirst ls before l err)
    (h' : source.FailsFirst ls before' l' err') : source.delay l = source.delay l' :=
  Nat.le_antisymm (h.earliest l' h'.mem fun husable => husable.not_fails h'.fails)
    (h'.earliest l h.mem fun husable => husable.not_fails h.fails)

theorem Source.FailsFirst.eq_of_prefix (h : source.FailsFirst ls before l err)
    (h' : source.FailsFirst ls before' l' err') (hdelay : source.delay l = 0)
    (hpre : before ++ [l] <+: before' ++ [l']) : before = before' ∧ l = l' := by
  rcases List.prefix_concat_iff.mp hpre with heq | hpre
  · exact List.append_singleton_inj.mp heq
  · have hmem : l ∈ before' := hpre.subset (by simp)
    have husable := h'.leftmost (h.delay_eq h' ▸ hdelay) l hmem hdelay
    exact absurd h.fails husable.not_fails

/-- Without a delay there is only one lookup that fails first. -/
theorem Source.FailsFirst.unique (h : source.FailsFirst ls before l err)
    (h' : source.FailsFirst ls before' l' err') (hdelay : source.delay l = 0) :
    before = before' ∧ l = l' := by
  rcases List.prefix_or_prefix_of_prefix h.among h'.among with hpre | hpre
  · exact h.eq_of_prefix h' hdelay hpre
  · obtain ⟨rfl, rfl⟩ := h'.eq_of_prefix h (h.delay_eq h' ▸ hdelay) hpre
    exact ⟨rfl, rfl⟩

/-- Failures at the same time carry the same error, unless they come without a delay. -/
def Source.TiesAgree (source : Source) (ls : List Lookup) : Prop :=
  ∀ l ∈ ls, ∀ m ∈ ls, 0 < source.delay l → source.delay l = source.delay m →
    ∀ err err', source.Fails l err → source.Fails m err' → err = err'

/-- How an evaluation ends that looks up `ls` to obtain `s`. -/
inductive Evaluation.Ends (source : Source) (ls : List Lookup) (s : IdSet) :
    Evaluation StoreError → Prop where
  | success {t : Nat} (usable : ∀ l ∈ ls, source.Usable l)
      (slowest : (ls.map source.delay).max? = some t) : Ends source ls s ⟨.ok s, ls, t⟩
  | failure {before : List Lookup} {l : Lookup} {err : StoreError}
      (first : source.FailsFirst ls before l err) : Ends source ls s
        ⟨.error err, if source.delay l = 0 then before ++ [l] else ls, source.delay l⟩

theorem Source.max?_delay_eq_some {d : Nat} : (ls.map source.delay).max? = some d ↔
    (∃ l ∈ ls, source.delay l = d) ∧ ∀ l ∈ ls, source.delay l ≤ d := by
  simp [List.max?_eq_some_iff]

/-- Waiting for the lookups with a delay, when those without one have been usable. -/
theorem Evaluation.ends_await {w : Waiting}
    (usable : ∀ l ∈ ls, source.delay l = 0 → source.Usable l)
    (outstanding : ∀ l due, (l, due) ∈ w.outstanding ↔ l ∈ ls ∧ due = source.delay l ∧ 0 < due) :
    Ends source ls (w.value source.posts) ⟨(w.await source).1, ls, (w.await source).2⟩ := by
  have hover : ∀ l ∈ ls, source.delay l = 0 ∧ source.Usable l ∨
      (l, source.delay l) ∈ w.outstanding := by
    intro l hl
    rcases Nat.eq_zero_or_pos (source.delay l) with hdelay | hpos
    · exact .inl ⟨hdelay, usable l hl hdelay⟩
    · exact .inr ((outstanding l _).mpr ⟨hl, rfl, hpos⟩)
  rcases hawait : w.await source with ⟨err | s, d⟩
  · obtain ⟨⟨l, hl, hfails⟩, hearlier⟩ := Waiting.await_eq_error hawait
    obtain ⟨hmem, rfl, hpos⟩ := (outstanding l d).mp hl
    obtain ⟨before, after, rfl⟩ := List.append_of_mem hmem
    have hfirst : source.FailsFirst (before ++ l :: after) before l err := by
      refine ⟨⟨after, by simp⟩, hfails, ?_, fun hdelay => absurd hdelay (Nat.ne_of_gt hpos)⟩
      intro m hm hnot
      by_contra hlt
      rcases hover m hm with ⟨-, husable⟩ | hwaits
      · exact hnot husable
      · exact hnot (hearlier _ hwaits (Nat.lt_of_not_le hlt))
    simpa [Nat.ne_of_gt hpos] using Ends.failure hfirst
  · obtain ⟨rfl, husable, ⟨l, hl⟩, hlast⟩ := Waiting.await_eq_ok hawait
    obtain ⟨hmem, rfl, -⟩ := (outstanding l d).mp hl
    refine .success ?_ (Source.max?_delay_eq_some.mpr ⟨⟨l, hmem, rfl⟩, ?_⟩)
    · intro m hm
      rcases hover m hm with ⟨-, husable'⟩ | hwaits
      · exact husable'
      · exact husable _ hwaits
    · intro m hm
      rcases hover m hm with ⟨hdelay, -⟩ | hwaits
      · omega
      · exact hlast _ hwaits

theorem Launch.Starts.ends_finish {a : Launch} (ha : a.Starts source ls s) (hls : ls ≠ []) :
    (a.finish source).Ends source ls s := by
  cases ha with
  | stopped started usable immediate fails =>
    have hfirst : source.FailsFirst ls _ _ _ :=
      ⟨started, fails, fun m _ _ => immediate ▸ Nat.zero_le _, fun _ => usable⟩
    simpa [finish, immediate] using Evaluation.Ends.failure (s := s) hfirst
  | @going p usable outstanding value =>
    cases p with
    | done s' =>
      cases value
      have hdelay : ∀ l ∈ ls, source.delay l = 0 := by
        intro l hl
        by_contra hne
        have hwaits := (outstanding l _).mpr ⟨hl, rfl, Nat.pos_of_ne_zero hne⟩
        simp at hwaits
      refine .success (fun l hl => usable l hl (hdelay l hl)) (Source.max?_delay_eq_some.mpr ?_)
      obtain ⟨l, hl⟩ := List.exists_mem_of_ne_nil ls hls
      exact ⟨⟨l, hl, hdelay l hl⟩, fun l hl => Nat.le_of_eq (hdelay l hl)⟩
    | waiting w =>
      cases value
      exact Evaluation.ends_await usable outstanding

namespace Expr

theorem lookups_ne_nil (e : Expr) : e.lookups ≠ [] := by
  induction e with
  | author u => simp [lookups]
  | tag l => simp [lookups]
  | not e _ => simp [lookups]
  | and a b iha _ => simp [lookups, iha]
  | or a b iha _ => simp [lookups, iha]

theorem ends_evaluate (source : Source) (e : Expr) :
    (e.evaluate source).Ends source e.lookups (e.denote source.posts) :=
  (e.starts_launch source).ends_finish e.lookups_ne_nil

variable {e : Expr} {x : PostId}

/-- An evaluation of usable lookups. -/
theorem evaluate_of_usable (h : ∀ l ∈ e.lookups, source.Usable l) :
    ∃ d, (e.lookups.map source.delay).max? = some d ∧
      e.evaluate source = ⟨.ok (e.denote source.posts), e.lookups, d⟩ := by
  have hends := e.ends_evaluate source
  generalize e.evaluate source = v at hends ⊢
  cases hends with
  | success _ slowest => exact ⟨_, slowest, rfl⟩
  | failure first => exact absurd first.fails (h _ first.mem).not_fails

/-- An evaluation of lookups that are not all usable. -/
theorem evaluate_of_not_usable (h : ¬ ∀ l ∈ e.lookups, source.Usable l) :
    ∃ before l err, source.FailsFirst e.lookups before l err ∧ e.evaluate source =
      ⟨.error err, if source.delay l = 0 then before ++ [l] else e.lookups, source.delay l⟩ := by
  have hends := e.ends_evaluate source
  generalize e.evaluate source = v at hends ⊢
  cases hends with
  | success usable _ => exact absurd usable h
  | failure first => exact ⟨_, _, _, first, rfl⟩

/-- Which of the lookups that fail first decides makes no difference. -/
theorem evaluate_of_failsFirst (h : source.FailsFirst e.lookups before l err)
    (hties : source.TiesAgree e.lookups) : e.evaluate source =
      ⟨.error err, if source.delay l = 0 then before ++ [l] else e.lookups, source.delay l⟩ := by
  have hnot : ¬ ∀ m ∈ e.lookups, source.Usable m := by
    intro husable
    exact (husable l h.mem).not_fails h.fails
  obtain ⟨before', l', err', h', heval⟩ := evaluate_of_not_usable hnot
  have hdelay := h.delay_eq h'
  rw [heval, ← hdelay]
  by_cases himmediate : source.delay l = 0
  · obtain ⟨rfl, rfl⟩ := h.unique h' himmediate
    rw [h.fails.unique h'.fails]
  · have herr := hties l h.mem l' h'.mem (Nat.pos_of_ne_zero himmediate) hdelay _ _ h.fails h'.fails
    rw [if_neg himmediate, if_neg himmediate, herr]

/-- Does the filter match a post that exactly the lookups in `brings` bring? -/
def Matches (brings : Lookup → Prop) : Expr → Prop
  | author u => brings (.author u)
  | tag l => brings (.tag l)
  | not e => brings .everything ∧ ¬ e.Matches brings
  | and a b => a.Matches brings ∧ b.Matches brings
  | or a b => a.Matches brings ∨ b.Matches brings

theorem mem_denote {sets : Lookup → IdSet} :
    x ∈ e.denote sets ↔ e.Matches fun l => x ∈ sets l := by
  induction e with
  | author u => rfl
  | tag l => rfl
  | not e ih => simp [denote, Matches, ih]
  | and a b iha ihb => simp [denote, Matches, iha, ihb]
  | or a b iha ihb => simp [denote, Matches, iha, ihb]

theorem matches_congr {p q : Lookup → Prop} (h : ∀ l ∈ e.lookups, (p l ↔ q l)) :
    e.Matches p ↔ e.Matches q := by
  induction e with
  | author u => exact h _ (by simp [lookups])
  | tag l => exact h _ (by simp [lookups])
  | not e ih =>
    obtain ⟨heverything, he⟩ := List.forall_mem_cons.mp h
    exact and_congr heverything (not_congr (ih he))
  | and a b iha ihb =>
    obtain ⟨ha, hb⟩ := List.forall_mem_append.mp h
    exact and_congr (iha ha) (ihb hb)
  | or a b iha ihb =>
    obtain ⟨ha, hb⟩ := List.forall_mem_append.mp h
    exact or_congr (iha ha) (ihb hb)

theorem denote_congr {sets sets' : Lookup → IdSet} (h : ∀ l ∈ e.lookups, sets l = sets' l) :
    e.denote sets = e.denote sets' := by
  refine IdSet.ext fun x => ?_
  rw [mem_denote, mem_denote]
  exact matches_congr fun l hl => by rw [h l hl]

/-- The set that a filter denotes holds the posts that it matches, given what its lookups bring. -/
theorem mem_denote_posts (h : ∀ l ∈ e.lookups, source.Usable l) :
    x ∈ e.denote source.posts ↔ e.Matches fun l => source.Brings l x := by
  rw [mem_denote]
  exact matches_congr fun l hl => Source.mem_posts (h l hl)

/-- An evaluation succeeds exactly if all of its lookups are usable. It has then started each of
them once, from left to right, and has taken as long as the slowest. The result is the set that the
filter denotes, which holds the posts that it matches, so it depends on the answers alone and not on
their delays. -/
theorem evaluate_denotes (source : Source) (e : Expr) :
    ((∃ s, e.resolve source = .ok s) ↔ ∀ l ∈ e.lookups, source.Usable l) ∧
      ((∀ l ∈ e.lookups, source.Usable l) →
        (∀ l ∈ e.lookups, ∀ x, x ∈ source.posts l ↔ source.Brings l x) ∧
        (∀ x, x ∈ e.denote source.posts ↔ e.Matches fun l => source.Brings l x) ∧
        (∃ d, (e.lookups.map source.delay).max? = some d ∧
          e.evaluate source = ⟨.ok (e.denote source.posts), e.lookups, d⟩) ∧
        ∀ other : Source, (∀ l ∈ e.lookups, other.keys l = source.keys l) →
          e.resolve other = .ok (e.denote source.posts)) := by
  refine ⟨⟨?_, ?_⟩, fun h => ⟨?_, fun x => mem_denote_posts h, evaluate_of_usable h, ?_⟩⟩
  · rintro ⟨s, hs⟩
    by_contra h
    obtain ⟨before, l, err, -, heval⟩ := evaluate_of_not_usable h
    simp [resolve, heval] at hs
  · intro h
    obtain ⟨d, -, heval⟩ := evaluate_of_usable h
    exact ⟨e.denote source.posts, by simp [resolve, heval]⟩
  · intro l hl x
    exact Source.mem_posts (h l hl)
  · intro other hother
    have husable : ∀ l ∈ e.lookups, other.Usable l := by
      intro l hl
      simpa [Source.Usable, hother l hl] using h l hl
    have hposts : ∀ l ∈ e.lookups, other.posts l = source.posts l := by
      intro l hl
      simp [Source.posts, Source.found, hother l hl]
    obtain ⟨d, -, heval⟩ := evaluate_of_usable husable
    simp [resolve, heval, denote_congr hposts]

end Expr

/-- Tags are absent, and it takes long to find out which posts there are. -/
def Source.untagged : Source where
  everything := ⟨3, .ok [.object ⟨List.replicate 12 0, rfl⟩]⟩
  author _ := ⟨0, .ok []⟩
  tag _ := ⟨2, .ok none⟩

theorem Expr.evaluate_denotes_untagged :
    (Expr.not (.tag "t")).evaluate .untagged =
      ⟨.ok (IdSet.ofList [⟨List.replicate 12 0, rfl⟩]), [.everything, .tag "t"], 3⟩ := by
  obtain ⟨-, h⟩ := evaluate_denotes .untagged (.not (.tag "t"))
  obtain ⟨-, -, ⟨d, hd, heval⟩, -⟩ := h (by
    simp [lookups, Source.Usable, Source.untagged, Source.keys, PostKey.Normalizes,
      PostKey.normalize, Except.map])
  obtain rfl : 3 = d := Option.some.inj hd
  exact heval

/-- A text that is no filter is refused before any lookup. Otherwise, if some lookup fails, the
error, the time and the lookups started are those of the failure that comes first. -/
theorem evaluateFilter_first_failure (source : Source) (text : String) :
    (∀ err, parse text = .error err →
      evaluateFilter source text = ⟨.error (.malformed err), [], 0⟩) ∧
    ∀ e, parse text = .ok e → source.TiesAgree e.lookups → (∃ l ∈ e.lookups, ¬ source.Usable l) →
      (∃ before l err, source.FailsFirst e.lookups before l err) ∧
      ∀ before l err, source.FailsFirst e.lookups before l err → evaluateFilter source text =
        ⟨.error (.store err), if source.delay l = 0 then before ++ [l] else e.lookups,
          source.delay l⟩ := by
  constructor
  · intro err h
    simp [evaluateFilter, h]
  · intro e h hties hfails
    constructor
    · have hnot : ¬ ∀ l ∈ e.lookups, source.Usable l := by
        obtain ⟨l, hl, hl'⟩ := hfails
        exact fun husable => hl' (husable l hl)
      obtain ⟨before, l, err, hfirst, -⟩ := Expr.evaluate_of_not_usable hnot
      exact ⟨before, l, err, hfirst⟩
    · intro before l err hfirst
      simp [evaluateFilter, h, Expr.evaluate_of_failsFirst hfirst hties, Except.mapError]

/-- Authors are refused after a while, and no tag has a key that stands for a post. -/
def Source.faulty : Source where
  everything := ⟨0, .ok []⟩
  author _ := ⟨2, .error .timeout⟩
  tag l := ⟨0, .ok (some ⟨l, [.text "x"]⟩)⟩

theorem evaluateFilter_first_failure_faulty :
    evaluateFilter .faulty "|(@a,#t)" =
      ⟨.error (.store (.invalidPostId "x")), [.author "a", .tag "t"], 0⟩ := by
  have hparse : parse "|(@a,#t)" = .ok (.or (.author "a") (.tag "t")) := by cbv
  have hfails : Source.faulty.Fails (.tag "t") (.invalidPostId "x") :=
    .inr ⟨[], .text "x", [], rfl, by simp, rfl⟩
  have hties : Source.faulty.TiesAgree [.author "a", .tag "t"] := by
    intro l hl m hm hpos hdelay err err' hl' hm'
    have hlm : l = m := by
      have hl : l = .author "a" ∨ l = .tag "t" := by simpa using hl
      have hm : m = .author "a" ∨ m = .tag "t" := by simpa using hm
      rcases hl with rfl | rfl <;> rcases hm with rfl | rfl <;>
        simp_all [Source.delay, Source.faulty]
    exact hl'.unique (hlm ▸ hm')
  obtain ⟨-, h⟩ := evaluateFilter_first_failure .faulty "|(@a,#t)"
  obtain ⟨-, heval⟩ := h _ hparse hties
    ⟨.tag "t", by simp [Expr.lookups], fun husable => husable.not_fails hfails⟩
  refine heval [.author "a"] (.tag "t") _
    ⟨List.prefix_refl _, hfails, fun _ _ _ => Nat.zero_le _, fun _ => ?_⟩
  simp [Source.delay, Source.faulty]

end PostFilter
