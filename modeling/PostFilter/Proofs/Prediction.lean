import PostFilter.Proofs.Parsing

/-!
# Predictive parsing

At any point the parser has a list of goals, and the next token alone decides whether the first of
them can be pursued and which goals take its place. The recursive parser does what this machine
does. Every list of goals can be reached by tokens, so a parse that has not failed yet can still
succeed; and a goal that refuses a token refuses it whatever stands after it.
-/

namespace PostFilter

open Token Lexer

namespace Parser

/-- What the parser has to read next. At most `room` operators may be nested in an expression. -/
inductive Goal where
  | expression (room : Nat)
  | openParen
  | comma
  | closeParen
  | name
  deriving DecidableEq, Repr

/-- Why a goal refuses a token. -/
inductive Fault where
  | unexpected
  | tooDeep
  deriving DecidableEq, Repr

namespace Goal

def what : Goal → Expected
  | expression _ => .expression
  | openParen => .openParen
  | comma => .comma
  | closeParen => .closeParen
  | name => .name

/-- The goals that take the place of a goal after one token. -/
def step : Goal → Token → Except Fault (List Goal)
  | expression _, .atSign | expression _, .hash => .ok [name]
  | expression 0, .not | expression 0, .and | expression 0, .or => .error .tooDeep
  | expression (room + 1), .not => .ok [openParen, expression room, closeParen]
  | expression (room + 1), .and | expression (room + 1), .or =>
    .ok [openParen, expression room, comma, expression room, closeParen]
  | openParen, .openParen => .ok []
  | comma, .comma => .ok []
  | closeParen, .closeParen => .ok []
  | name, .word _ => .ok []
  | _, _ => .error .unexpected

def report (g : Goal) (i : Nat) (t : Token) : Fault → SyntaxError
  | .unexpected => .unexpectedToken i g.what t.text
  | .tooDeep => .tooDeep i

end Goal

/-- Pursue one goal after the other. The tokens that are left begin with index `i`. -/
def pursue (i : Nat) : List Goal → List Token → Except SyntaxError (Nat × List Token)
  | [], ts => .ok (i, ts)
  | _ :: _, [] => .error (.unexpectedEnd i)
  | g :: gs, t :: ts =>
    match g.step t with
    | .error f => .error (g.report i t f)
    | .ok goals => pursue (i + 1) (goals ++ gs) ts

/-! ## The recursive parser pursues goals -/

theorem pursue_expect {g : Goal} {t : Token} (hg : g.step t = .ok [])
    (hne : ∀ u, u ≠ t → g.step u = .error .unexpected) (i : Nat) (gs : List Goal)
    (ts : List Token) :
    pursue i (g :: gs) ts = expect t g.what i ts >>= fun rest => pursue (i + 1) gs rest := by
  cases ts with
  | nil => rfl
  | cons u ts =>
    by_cases h : u = t
    · subst h
      simp [pursue, hg, expect, bind, Except.bind]
    · simp [pursue, hne u h, expect, h, Goal.report, bind, Except.bind]

theorem pursue_openParen (i : Nat) (gs : List Goal) (ts : List Token) :
    pursue i (.openParen :: gs) ts =
      expect .openParen .openParen i ts >>= fun rest => pursue (i + 1) gs rest :=
  pursue_expect rfl (fun u hu => by cases u <;> first | rfl | exact absurd rfl hu) i gs ts

theorem pursue_comma (i : Nat) (gs : List Goal) (ts : List Token) :
    pursue i (.comma :: gs) ts = expect .comma .comma i ts >>= fun rest => pursue (i + 1) gs rest :=
  pursue_expect rfl (fun u hu => by cases u <;> first | rfl | exact absurd rfl hu) i gs ts

theorem pursue_closeParen (i : Nat) (gs : List Goal) (ts : List Token) :
    pursue i (.closeParen :: gs) ts =
      expect .closeParen .closeParen i ts >>= fun rest => pursue (i + 1) gs rest :=
  pursue_expect rfl (fun u hu => by cases u <;> first | rfl | exact absurd rfl hu) i gs ts

theorem pursue_name (make : String → Expr) (i : Nat) (gs : List Goal) (ts : List Token) :
    pursue i (.name :: gs) ts = leaf make i ts >>= fun p => pursue p.next gs p.rest := by
  fun_cases leaf make i ts with
  | case1 => rfl
  | case2 w ts => rfl
  | case3 u ts hword =>
    cases u with
    | word w => exact absurd rfl (hword w)
    | _ => rfl

theorem pursue_operands {operand : Nat → List Token → Except SyntaxError Parsed} {room : Nat}
    (hoperand : ∀ i gs ts, pursue i (.expression room :: gs) ts =
      operand i ts >>= fun p => pursue p.next gs p.rest)
    (make : Expr → Expr → Expr) (i : Nat) (gs : List Goal) (ts : List Token) :
    pursue i (.openParen :: .expression room :: .comma :: .expression room :: .closeParen :: gs)
      ts = operands operand make i ts >>= fun p => pursue p.next gs p.rest := by
  simp only [operands, pursue_openParen, hoperand, pursue_comma, pursue_closeParen, bind_assoc,
    pure_bind]

/-- Reading an expression fulfils the goal to read one, and fails like it. -/
theorem pursue_expression (room i : Nat) (gs : List Goal) (ts : List Token) :
    pursue i (.expression room :: gs) ts =
      expression room i ts >>= fun p => pursue p.next gs p.rest := by
  -- operands are read with less room, and through a partial application
  induction room using Nat.strongRecOn generalizing i gs ts with
  | ind room ih =>
  fun_cases expression room i ts with
  | case1 | case4 | case6 | case8 => rfl
  | case2 => exact pursue_name .author (i + 1) gs _
  | case3 => exact pursue_name .tag (i + 1) gs _
  | case5 ts room =>
    have he := ih room (Nat.lt_succ_self room)
    change pursue (i + 1) (.openParen :: .expression room :: .closeParen :: gs) ts = _
    simp only [pursue_openParen, he, pursue_closeParen, bind_assoc, pure_bind]
  | case7 ts room => exact pursue_operands (ih room (Nat.lt_succ_self room)) .and (i + 1) gs ts
  | case9 ts room => exact pursue_operands (ih room (Nat.lt_succ_self room)) .or (i + 1) gs ts
  | case10 _ u =>
    cases u with
    | openParen | closeParen | comma | word => cases room <;> rfl
    | _ => contradiction

/-- What is left of a list of goals after some tokens, none of which has been refused. -/
inductive Reaches : List Goal → List Token → List Goal → Prop
  | refl (gs : List Goal) : Reaches gs [] gs
  | step {g : Goal} {t : Token} {goals gs left : List Goal} {ts : List Token} :
      g.step t = .ok goals → Reaches (goals ++ gs) ts left → Reaches (g :: gs) (t :: ts) left

namespace Reaches

theorem pursue_append {gs left : List Goal} {ts : List Token} (h : Reaches gs ts left) (i : Nat)
    (us : List Token) : pursue i gs (ts ++ us) = pursue (i + ts.length) left us := by
  induction h generalizing i with
  | refl gs => rfl
  | @step g t goals gs left ts hg _ ih =>
    simp only [List.cons_append, pursue, hg, ih, List.length_cons]
    congr 1
    omega

theorem trans {gs mid left : List Goal} {ts us : List Token} (h : Reaches gs ts mid)
    (h' : Reaches mid us left) : Reaches gs (ts ++ us) left := by
  induction h with
  | refl gs => exact h'
  | step hg _ ih => exact .step hg (ih h')

end Reaches

/-- Tokens are taken until the goals or the tokens are used up, or a goal refuses a token. -/
theorem exists_reaches (gs : List Goal) (ts : List Token) :
    ∃ front back left, ts = front ++ back ∧ Reaches gs front left ∧
      (left = [] ∨ back = [] ∨ ∃ g gs' t ts' f, left = g :: gs' ∧ back = t :: ts' ∧
        g.step t = .error f) := by
  induction ts generalizing gs with
  | nil => exact ⟨[], [], gs, rfl, .refl gs, .inr (.inl rfl)⟩
  | cons t ts ih =>
    cases gs with
    | nil => exact ⟨[], t :: ts, [], rfl, .refl [], .inl rfl⟩
    | cons g gs =>
      cases hg : g.step t with
      | error f =>
        exact ⟨[], t :: ts, g :: gs, rfl, .refl _, .inr (.inr ⟨g, gs, t, ts, f, rfl, rfl, hg⟩)⟩
      | ok goals =>
        obtain ⟨front, back, left, hts, hreach, hend⟩ := ih (goals ++ gs)
        exact ⟨t :: front, back, left, by rw [hts, List.cons_append], .step hg hreach, hend⟩

/-! ## Where a parse fails -/

/-- The goal that a parse begins with. -/
def start : List Goal := [.expression maxDepth]

/-- How tokens are rejected: they end too early, the goal at hand refuses one of them, or some are
left when all goals are fulfilled. -/
inductive Rejects (ts : List Token) : SyntaxError → Prop
  | ended {g : Goal} {gs : List Goal} :
      Reaches start ts (g :: gs) → Rejects ts (.unexpectedEnd ts.length)
  | refused {front back : List Token} {t : Token} {g : Goal} {gs : List Goal} {f : Fault} :
      ts = front ++ t :: back → Reaches start front (g :: gs) → g.step t = .error f →
        Rejects ts (g.report front.length t f)
  | trailing {front back : List Token} {t : Token} :
      ts = front ++ t :: back → Reaches start front [] → Rejects ts (.trailingTokens front.length)

theorem tokens_eq_error_of_pursue {ts : List Token} {err : SyntaxError}
    (h : pursue 0 start ts = .error err) : tokens ts = .error err := by
  rw [start, pursue_expression] at h
  unfold tokens
  cases hp : expression maxDepth 0 ts with
  | error e => simpa [hp, bind, Except.bind] using h
  | ok p => simp [hp, bind, Except.bind, pursue] at h

theorem tokens_eq_trailing_of_pursue {ts back : List Token} {i : Nat} {t : Token}
    (h : pursue 0 start ts = .ok (i, t :: back)) : tokens ts = .error (.trailingTokens i) := by
  rw [start, pursue_expression] at h
  unfold tokens
  cases hp : expression maxDepth 0 ts with
  | error e => simp [hp, bind, Except.bind] at h
  | ok p =>
    obtain ⟨rfl, hrest⟩ : p.next = i ∧ p.rest = t :: back := by
      simpa [hp, bind, Except.bind, pursue] using h
    simp [hrest]

theorem exists_expr_of_reaches {room : Nat} {ts : List Token}
    (h : Reaches [.expression room] ts []) : ∃ e : Expr, ts = e.tokens ∧ e.depth ≤ room := by
  have hpursue := h.pursue_append 0 []
  rw [pursue_expression, List.append_nil] at hpursue
  obtain ⟨p, hp, hrest⟩ := Fallible.bind_eq_ok.mp hpursue
  have hreads := reads_of_expression hp
  obtain ⟨-, hrest⟩ : p.next = 0 + ts.length ∧ p.rest = [] := by simpa [pursue] using hrest
  exact ⟨p.expr, by simpa [hrest] using hreads.tokens, hreads.depth⟩

theorem rejects_of_tokens_eq_error {ts : List Token} {err : SyntaxError}
    (h : tokens ts = .error err) : Rejects ts err := by
  obtain ⟨front, back, left, rfl, hreach, hend⟩ := exists_reaches start ts
  have hpursue := hreach.pursue_append 0 back
  rw [Nat.zero_add] at hpursue
  cases left with
  | nil =>
    cases back with
    | nil =>
      obtain ⟨e, htokens, hdepth⟩ := exists_expr_of_reaches hreach
      rw [List.append_nil, tokens_eq_ok_iff.mpr ⟨htokens, hdepth⟩] at h
      cases h
    | cons t back =>
      rw [tokens_eq_trailing_of_pursue hpursue] at h
      cases h
      exact .trailing rfl hreach
  | cons g gs =>
    cases back with
    | nil =>
      rw [tokens_eq_error_of_pursue hpursue] at h
      cases h
      simpa using Rejects.ended (by simpa using hreach)
    | cons t back =>
      rcases hend with hend | hend | ⟨_, _, _, _, f, ⟨⟩, ⟨⟩, hf⟩
      · simp at hend
      · simp at hend
      · simp only [pursue, hf] at hpursue
        rw [tokens_eq_error_of_pursue hpursue] at h
        cases h
        exact .refused rfl hreach hf

/-! ## Completing what has been read -/

/-- The shortest tokens that fulfil a goal, up to the choice of a name. -/
def Goal.completion : Goal → List Token
  | expression _ => [.atSign, .word "a"]
  | openParen => [.openParen]
  | comma => [.comma]
  | closeParen => [.closeParen]
  | name => [.word "a"]

theorem reaches_completion (gs : List Goal) : Reaches gs (gs.flatMap Goal.completion) [] := by
  induction gs with
  | nil => exact .refl []
  | cons g gs ih =>
    cases g with
    | expression room =>
      have hleaf : (Goal.expression room).step .atSign = .ok [.name] := by simp [Goal.step]
      exact .step hleaf (.step rfl ih)
    | _ => exact .step rfl ih

theorem valid_of_mem_completion {gs : List Goal} {t : Token}
    (h : t ∈ gs.flatMap Goal.completion) : t.Valid := by
  obtain ⟨g, -, ht⟩ := List.mem_flatMap.mp h
  have hname : isName "a" = true := by decide
  cases g <;> simp only [Goal.completion, List.mem_cons, List.not_mem_nil, or_false] at ht
  case expression => rcases ht with rfl | rfl <;> trivial
  case name => exact ht ▸ hname
  all_goals exact ht ▸ trivial

/-- Give every expression among the goals more room. -/
def Goal.deepen (k : Nat) : Goal → Goal
  | expression room => expression (room + k)
  | g => g

theorem step_deepen {g : Goal} {t : Token} {goals : List Goal} (k : Nat)
    (h : g.step t = .ok goals) : (g.deepen k).step t = .ok (goals.map (Goal.deepen k)) := by
  cases g with
  | expression room =>
    cases t with
    | not | and | or =>
      cases room with
      | zero => cases h
      | succ room =>
        cases h
        rw [Goal.deepen, Nat.add_right_comm]
        rfl
    | atSign | hash =>
      obtain rfl : [.name] = goals := by simpa [Goal.step] using h
      simp [Goal.deepen, Goal.step]
    | _ => simp [Goal.step] at h
  | _ =>
    cases t <;> cases h
    rfl

theorem step_deepen_unexpected {g : Goal} {t : Token} (k : Nat)
    (h : g.step t = .error .unexpected) : (g.deepen k).step t = .error .unexpected := by
  cases g with
  | expression room =>
    cases t with
    | not | and | or => cases room <;> cases h
    | _ => simp_all [Goal.step, Goal.deepen]
  | _ => exact h

/-- With more room, an operator that was nested too deeply is no longer refused. -/
theorem exists_step_deepen_of_tooDeep {g : Goal} {t : Token}
    (h : g.step t = .error .tooDeep) : ∃ goals, (g.deepen 1).step t = .ok goals := by
  cases g with
  | expression room =>
    cases t with
    | not | and | or => exact ⟨_, rfl⟩
    | _ => simp [Goal.step] at h
  | _ => cases t <;> cases h

/-- A goal does not tell words apart. -/
theorem step_of_isWord {g : Goal} {t u : Token} (ht : t.isWord = true) (hu : u.isWord = true) :
    g.step u = g.step t := by
  cases t with
  | word =>
    cases u with
    | word => cases g <;> rfl
    | _ => cases hu
  | _ => cases ht

namespace Reaches

theorem deepen {gs left : List Goal} {ts : List Token} (h : Reaches gs ts left) (k : Nat) :
    Reaches (gs.map (Goal.deepen k)) ts (left.map (Goal.deepen k)) := by
  induction h with
  | refl gs => exact .refl _
  | step hg _ ih => exact .step (step_deepen k hg) (by simpa using ih)

end Reaches

/-- The goals cannot be pursued with the token `t`: there are none, or the first refuses it. -/
def Blocks (gs : List Goal) (t : Token) : Prop :=
  gs = [] ∨ ∃ g gs' f, gs = g :: gs' ∧ g.step t = .error f

theorem Blocks.pursue_ne {gs : List Goal} {t u : Token} (h : Blocks gs t)
    (hu : u = t ∨ (t.isWord = true ∧ u.isWord = true)) (i n : Nat) (us : List Token) :
    pursue i gs (u :: us) ≠ .ok (n, []) := by
  rcases h with rfl | ⟨g, gs, f, rfl, hf⟩
  · simp [pursue]
  · have hstep : g.step u = .error f := by
      rcases hu with rfl | ⟨ht, hu⟩
      · exact hf
      · rw [step_of_isWord ht hu, hf]
    simp [pursue, hstep]

end Parser

end PostFilter
