import PostFilter.Filter.Progress
import PostFilter.Proofs.Lookups

/-!
# Waiting for replies

One poll takes in the replies that have come and keeps the set that the evaluation is heading for.
Waiting therefore ends with this set when the last reply has come, whatever the order of the
replies, unless some lookup fails. Then it ends with the first failure in time.
-/

namespace PostFilter

variable {source : Source} {now t : Nat} {err : StoreError} {s : IdSet}

/-- The set that the evaluation ends with if each outstanding lookup brings its set. -/
def Waiting.value (sets : Lookup → IdSet) : Waiting → IdSet
  | lookup l _ => sets l
  | left op a t => op.apply (a.value sets) t
  | right op s b => op.apply s (b.value sets)
  | both op a b _ => op.apply (a.value sets) (b.value sets)

namespace Progress

def value (sets : Lookup → IdSet) : Progress → IdSet
  | done s => s
  | waiting w => w.value sets

@[simp] theorem value_done (sets : Lookup → IdSet) (s : IdSet) : (done s).value sets = s := rfl

@[simp] theorem value_waiting (sets : Lookup → IdSet) (w : Waiting) :
    (waiting w).value sets = w.value sets := rfl

@[simp] theorem value_join (sets : Lookup → IdSet) (op : SetOp) (rightFirst : Bool)
    (p q : Progress) :
    (p.join op rightFirst q).value sets = op.apply (p.value sets) (q.value sets) := by
  cases p <;> cases q <;> simp [join, Waiting.value]

end Progress

namespace Waiting

variable {w : Waiting} {p : Progress}

theorem Polls.value (h : Polls source now w p) :
    p.value source.posts = w.value source.posts := by
  induction h with
  | due _ hs => simp [Waiting.value, Source.posts_of_found hs]
  | later _ => rfl
  | left _ ih => simp [Waiting.value, ih]
  | right _ ih => simp [Waiting.value, ih]
  | both _ _ iha ihb => simp [Waiting.value, iha, ihb]

theorem Polls.usable (h : Polls source now w p) :
    ∀ o ∈ w.outstanding, o.2 ≤ now → source.Usable o.1 := by
  induction h with
  | due _ hs =>
    intro o ho _
    obtain rfl := List.mem_singleton.mp ho
    exact Source.usable_of_found hs
  | later hlater =>
    intro o ho hdue
    obtain rfl := List.mem_singleton.mp ho
    exact absurd hdue (Nat.not_le_of_lt hlater)
  | left _ ih => exact ih
  | right _ ih => exact ih
  | both _ _ iha ihb =>
    intro o ho hdue
    rcases List.mem_append.mp ho with ho | ho
    · exact iha o ho hdue
    · exact ihb o ho hdue

theorem fails_of_poll (h : w.poll source now = .error err) :
    ∃ o ∈ w.outstanding, o.2 ≤ now ∧ source.Fails o.1 err := by
  fun_induction poll source now w with
  | case1 l due hdue =>
    have hfails := Source.found_eq_error.mp (Fallible.map_eq_error.mp h)
    exact ⟨(l, due), List.mem_singleton_self _, hdue, hfails⟩
  | case2 l due _ => cases h
  | case3 op a t ih =>
    rcases Fallible.bind_eq_error.mp h with ha | ⟨p, -, h⟩
    · exact ih ha
    · cases h
  | case4 op s b ih =>
    rcases Fallible.bind_eq_error.mp h with hb | ⟨q, -, h⟩
    · exact ih hb
    · cases h
  | case5 op a b iha ihb =>
    simp only [outstanding, List.mem_append]
    rcases Fallible.bind_eq_error.mp h with ha | ⟨p, -, h⟩
    · obtain ⟨o, ho, hfails⟩ := iha ha
      exact ⟨o, .inl ho, hfails⟩
    · rcases Fallible.bind_eq_error.mp h with hb | ⟨q, -, h⟩
      · obtain ⟨o, ho, hfails⟩ := ihb hb
        exact ⟨o, .inr ho, hfails⟩
      · cases h
  | case6 op a b ihb iha =>
    simp only [outstanding, List.mem_append]
    rcases Fallible.bind_eq_error.mp h with hb | ⟨q, -, h⟩
    · obtain ⟨o, ho, hfails⟩ := ihb hb
      exact ⟨o, .inr ho, hfails⟩
    · rcases Fallible.bind_eq_error.mp h with ha | ⟨p, -, h⟩
      · obtain ⟨o, ho, hfails⟩ := iha ha
        exact ⟨o, .inl ho, hfails⟩
      · cases h

theorem nextDue_le (w : Waiting) : ∀ o ∈ w.outstanding, w.nextDue ≤ o.2 := by
  induction w with
  | lookup l due => simp [nextDue, outstanding]
  | left op a t ih => exact ih
  | right op s b ih => exact ih
  | both op a b rightFirst iha ihb =>
    intro o ho
    rcases List.mem_append.mp ho with ho | ho
    · exact Nat.le_trans (Nat.min_le_left ..) (iha o ho)
    · exact Nat.le_trans (Nat.min_le_right ..) (ihb o ho)

/-- What is left after a poll. -/
theorem Polls.mem_outstanding (h : Polls source now w p) {o : Lookup × Nat} :
    o ∈ p.outstanding ↔ o ∈ w.outstanding ∧ now < o.2 := by
  simp [h.outstanding]

/-- Success comes with the last reply, and every lookup has brought its posts by then. -/
theorem await_eq_ok (h : w.await source = (.ok s, t)) :
    s = w.value source.posts ∧ (∀ o ∈ w.outstanding, source.Usable o.1) ∧
      (∃ l, (l, t) ∈ w.outstanding) ∧ ∀ o ∈ w.outstanding, o.2 ≤ t := by
  fun_induction await source w with
  | case1 w e hpoll => cases h
  | case2 w s' hpoll =>
    cases h
    have hpolls := polls_of_poll hpoll
    have hdue : ∀ o ∈ w.outstanding, o.2 ≤ w.nextDue := by
      intro o ho
      by_contra hlater
      have hleft := hpolls.mem_outstanding.mpr ⟨ho, Nat.lt_of_not_le hlater⟩
      simp at hleft
    exact ⟨hpolls.value, fun o ho => hpolls.usable o ho (hdue o ho), w.exists_nextDue, hdue⟩
  | case3 w w' hpoll ih =>
    have hpolls := polls_of_poll hpoll
    obtain ⟨hs, husable, ⟨l, hl⟩, hlast⟩ := ih h
    obtain ⟨hl, hlater⟩ := hpolls.mem_outstanding.mp hl
    refine ⟨hs.trans hpolls.value, ?_, ⟨l, hl⟩, ?_⟩
    · intro o ho
      by_cases hdue : o.2 ≤ w.nextDue
      · exact hpolls.usable o ho hdue
      · exact husable o (hpolls.mem_outstanding.mpr ⟨ho, Nat.lt_of_not_le hdue⟩)
    · intro o ho
      by_cases hdue : o.2 ≤ w.nextDue
      · omega
      · exact hlast o (hpolls.mem_outstanding.mpr ⟨ho, Nat.lt_of_not_le hdue⟩)

/-- Failure comes with the first reply that is one. -/
theorem await_eq_error (h : w.await source = (.error err, t)) :
    (∃ l, (l, t) ∈ w.outstanding ∧ source.Fails l err) ∧
      ∀ o ∈ w.outstanding, o.2 < t → source.Usable o.1 := by
  fun_induction await source w with
  | case1 w e hpoll =>
    cases h
    obtain ⟨⟨l, due⟩, ho, hdue, hfails⟩ := fails_of_poll hpoll
    obtain rfl : due = w.nextDue := Nat.le_antisymm hdue (w.nextDue_le _ ho)
    refine ⟨⟨l, ho, hfails⟩, ?_⟩
    intro o ho hlt
    have hle := w.nextDue_le o ho
    omega
  | case2 w s' hpoll => cases h
  | case3 w w' hpoll ih =>
    have hpolls := polls_of_poll hpoll
    obtain ⟨⟨l, hl, hfails⟩, hearlier⟩ := ih h
    refine ⟨⟨l, (hpolls.mem_outstanding.mp hl).1, hfails⟩, ?_⟩
    intro o ho hlt
    by_cases hdue : o.2 ≤ w.nextDue
    · exact hpolls.usable o ho hdue
    · exact hearlier o (hpolls.mem_outstanding.mpr ⟨ho, Nat.lt_of_not_le hdue⟩) hlt

end Waiting

end PostFilter
