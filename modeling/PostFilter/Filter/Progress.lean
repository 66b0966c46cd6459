import PostFilter.Fallible
import PostFilter.Store.Lookup

/-!
# Evaluations under way

An evaluation of several parts polls each of them in turn. A part is done, or it waits for the
replies to lookups. Whenever the time of a reply has come, the whole evaluation is polled again: it
ends with the first error that the poll meets, and a pair of parts is combined once both are done.
The part of a pair that is polled first changes from one poll to the next.
-/

namespace PostFilter

/-- How the sets of two parts are combined. -/
inductive SetOp where
  | diff
  | inter
  | union
  deriving DecidableEq, Repr

def SetOp.apply : SetOp → IdSet → IdSet → IdSet
  | diff, s, t => s \ t
  | inter, s, t => s ∩ t
  | union, s, t => s ∪ t

/-- An evaluation that waits for at least one reply. -/
inductive Waiting where
  | lookup (l : Lookup) (due : Nat)
  | left (op : SetOp) (a : Waiting) (t : IdSet)
  | right (op : SetOp) (s : IdSet) (b : Waiting)
  | both (op : SetOp) (a b : Waiting) (rightFirst : Bool)
  deriving DecidableEq, Repr

inductive Progress where
  | done (s : IdSet)
  | waiting (w : Waiting)
  deriving DecidableEq, Repr

/-- A pair of parts. `rightFirst` tells which one the next poll begins with. -/
def Progress.join (op : SetOp) (rightFirst : Bool) : Progress → Progress → Progress
  | done s, done t => done (op.apply s t)
  | waiting a, done t => waiting (.left op a t)
  | done s, waiting b => waiting (.right op s b)
  | waiting a, waiting b => waiting (.both op a b rightFirst)

namespace Waiting

/-- The lookups without a reply, from left to right, each with the time when the reply comes. -/
def outstanding : Waiting → List (Lookup × Nat)
  | lookup l due => [(l, due)]
  | left _ a _ => a.outstanding
  | right _ _ b => b.outstanding
  | both _ a b _ => a.outstanding ++ b.outstanding

/-- The time of the next reply. -/
def nextDue : Waiting → Nat
  | lookup _ due => due
  | left _ a _ => a.nextDue
  | right _ _ b => b.nextDue
  | both _ a b _ => min a.nextDue b.nextDue

/-- Take in the replies that have come by now. -/
def poll (source : Source) (now : Nat) : Waiting → Except StoreError Progress
  | lookup l due =>
    if due ≤ now then (source.found l).map .done else .ok (.waiting (.lookup l due))
  | left op a t => do
    let p ← a.poll source now
    pure (p.join op false (.done t))
  | right op s b => do
    let q ← b.poll source now
    pure (Progress.join op false (.done s) q)
  | both op a b false => do
    let p ← a.poll source now
    let q ← b.poll source now
    pure (p.join op true q)
  | both op a b true => do
    let q ← b.poll source now
    let p ← a.poll source now
    pure (p.join op false q)

end Waiting

namespace Progress

def outstanding : Progress → List (Lookup × Nat)
  | done _ => []
  | waiting w => w.outstanding

@[simp] theorem outstanding_done (s : IdSet) : (done s).outstanding = [] := rfl

@[simp] theorem outstanding_waiting (w : Waiting) : (waiting w).outstanding = w.outstanding := rfl

@[simp] theorem outstanding_join (op : SetOp) (rightFirst : Bool) (p q : Progress) :
    (p.join op rightFirst q).outstanding = p.outstanding ++ q.outstanding := by
  cases p <;> cases q <;> simp [join, Waiting.outstanding]

end Progress

namespace Waiting

theorem exists_nextDue (w : Waiting) : ∃ l, (l, w.nextDue) ∈ w.outstanding := by
  induction w with
  | lookup l due => exact ⟨l, by simp [nextDue, outstanding]⟩
  | left op a t ih => exact ih
  | right op s b ih => exact ih
  | both op a b rightFirst iha ihb =>
    obtain ⟨l, hl⟩ := iha
    obtain ⟨m, hm⟩ := ihb
    simp only [nextDue, outstanding, List.mem_append]
    rcases Nat.le_total a.nextDue b.nextDue with h | h
    · exact ⟨l, .inl (by rwa [Nat.min_eq_left h])⟩
    · exact ⟨m, .inr (by rwa [Nat.min_eq_right h])⟩

/-- What a poll makes of an evaluation if no reply is a failure. -/
inductive Polls (source : Source) (now : Nat) : Waiting → Progress → Prop where
  | due {l : Lookup} {due : Nat} {s : IdSet} : due ≤ now → source.found l = .ok s →
      Polls source now (lookup l due) (.done s)
  | later {l : Lookup} {due : Nat} : now < due →
      Polls source now (lookup l due) (.waiting (lookup l due))
  | left {op : SetOp} {a : Waiting} {t : IdSet} {p : Progress} : Polls source now a p →
      Polls source now (left op a t) (p.join op false (.done t))
  | right {op : SetOp} {s : IdSet} {b : Waiting} {q : Progress} : Polls source now b q →
      Polls source now (right op s b) (Progress.join op false (.done s) q)
  | both {op : SetOp} {a b : Waiting} {rightFirst : Bool} {p q : Progress} :
      Polls source now a p → Polls source now b q →
      Polls source now (both op a b rightFirst) (p.join op (!rightFirst) q)

theorem polls_of_poll {source : Source} {now : Nat} {w : Waiting} {p : Progress}
    (h : w.poll source now = .ok p) : Polls source now w p := by
  fun_induction poll source now w generalizing p with
  | case1 l due hdue =>
    obtain ⟨s, hs, rfl⟩ := Fallible.map_eq_ok.mp h
    exact .due hdue hs
  | case2 l due hdue =>
    cases h
    exact .later (Nat.lt_of_not_le hdue)
  | case3 op a t ih =>
    obtain ⟨pa, ha, h⟩ := Fallible.bind_eq_ok.mp h
    cases h
    exact .left (ih ha)
  | case4 op s b ih =>
    obtain ⟨pb, hb, h⟩ := Fallible.bind_eq_ok.mp h
    cases h
    exact .right (ih hb)
  | case5 op a b iha ihb =>
    obtain ⟨pa, ha, h⟩ := Fallible.bind_eq_ok.mp h
    obtain ⟨pb, hb, h⟩ := Fallible.bind_eq_ok.mp h
    cases h
    exact .both (iha ha) (ihb hb)
  | case6 op a b ihb iha =>
    obtain ⟨pb, hb, h⟩ := Fallible.bind_eq_ok.mp h
    obtain ⟨pa, ha, h⟩ := Fallible.bind_eq_ok.mp h
    cases h
    exact .both (iha ha) (ihb hb)

/-- A poll leaves exactly the lookups whose time has not come. -/
theorem Polls.outstanding {source : Source} {now : Nat} {w : Waiting} {p : Progress}
    (h : Polls source now w p) :
    p.outstanding = w.outstanding.filter fun o => now < o.2 := by
  induction h with
  | due hdue _ => simp [Waiting.outstanding, hdue]
  | later hlater => simp [Waiting.outstanding, hlater]
  | left _ ih => simp [Waiting.outstanding, ih]
  | right _ ih => simp [Waiting.outstanding, ih]
  | both _ _ iha ihb => simp [Waiting.outstanding, iha, ihb]

/-- The poll at the time of the next reply takes in at least that reply. -/
theorem length_outstanding_lt_of_poll {source : Source} {w w' : Waiting}
    (h : w.poll source w.nextDue = .ok (.waiting w')) :
    w'.outstanding.length < w.outstanding.length := by
  obtain ⟨l, hl⟩ := w.exists_nextDue
  have heq : w'.outstanding = w.outstanding.filter fun o => w.nextDue < o.2 :=
    (polls_of_poll h).outstanding
  rw [heq]
  exact List.length_filter_lt_length_iff_exists.mpr ⟨_, hl, by simp⟩

/-- Wait for one reply after the other until the evaluation ends, with the time when it does. -/
def await (source : Source) (w : Waiting) : Except StoreError IdSet × Nat :=
  match _h : w.poll source w.nextDue with
  | .error e => (.error e, w.nextDue)
  | .ok (.done s) => (.ok s, w.nextDue)
  | .ok (.waiting w') => w'.await source
termination_by w.outstanding.length
decreasing_by exact length_outstanding_lt_of_poll _h

end Waiting

end PostFilter
