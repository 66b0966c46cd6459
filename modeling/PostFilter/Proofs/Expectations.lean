import PostFilter.Proofs.Prediction

/-!
# What was expected

The error about an unexpected token says what could have stood in its place. This is exact: the
tokens before it decide which tokens can go on, and the description in the error stands for these
and no others. Where an expression is expected, operators nested too deeply are the one exception,
and they get an error of their own.
-/

namespace PostFilter

open Token

/-- The tokens that a description stands for. -/
def Expected.Describes : Expected → Token → Prop
  | .expression, t => t ∈ [.or, .and, .not, .atSign, .hash]
  | .openParen, t => t = .openParen
  | .comma, t => t = .comma
  | .closeParen, t => t = .closeParen
  | .name, t => ∃ w, t = .word w

/-- The wording of a description quotes the symbols that it stands for. -/
theorem Expected.describes_iff_quoted (what : Expected) {t : Token} (h : t.isWord = false) :
    what.Describes t ↔ ("'" ++ t.text ++ "'").toList <:+: what.describe.toList := by
  cases t with
  | word w => cases h
  | _ => cases what <;> simp only [Describes, reduceCtorEq, exists_false] <;> decide

theorem Expected.describes_word_iff (what : Expected) (w : String) :
    what.Describes (.word w) ↔ what.describe = "a name" := by
  cases what <;> simp [Describes, describe]

def Token.isOperator : Token → Bool
  | .or | .and | .not => true
  | _ => false

namespace Parser

/-- How many operators enclose what comes after the tokens: they have begun and are not closed. -/
def openOperators (ts : List Token) : Nat :=
  ts.countP isOperator - ts.count .closeParen

variable {g : Goal} {t : Token} {goals gs left : List Goal} {front ts : List Token} {f : Fault}

namespace Goal

theorem step_eq_unexpected_iff : g.step t = .error .unexpected ↔ ¬ g.what.Describes t := by
  cases g with
  | expression room => cases t <;> cases room <;> simp [step, what, Expected.Describes]
  | _ => cases t <;> simp [step, what, Expected.Describes]

theorem step_eq_tooDeep_iff :
    g.step t = .error .tooDeep ↔ g = .expression 0 ∧ t.isOperator = true := by
  cases g with
  | expression room => cases t <;> cases room <;> simp [step, isOperator]
  | _ => cases t <;> simp [step]

/-- Operators can only be expected where an expression is. -/
theorem exists_room_of_describes (h : g.what.Describes t) (ht : t.isOperator = true) :
    ∃ room, g = .expression room := by
  cases g with
  | expression room => exact ⟨room, rfl⟩
  | _ => cases t <;> simp [what, Expected.Describes, isOperator] at h ht

end Goal

/-! ## Nesting -/

/-- An operator leaves a parenthesis to be closed, and this is how one gets closed. -/
theorem count_closeParen_step (h : g.step t = .ok goals) (gs : List Goal) :
    (goals ++ gs).count .closeParen + [t].count .closeParen =
      (g :: gs).count .closeParen + [t].countP isOperator := by
  cases g with
  | expression room => cases t <;> cases room <;> cases h <;> simp [isOperator]
  | _ =>
    cases t <;> cases h
    simp [isOperator]

/-- Every expression among the goals has as much room as is left of `n` by the operators that are
closed after it. -/
def Nested (n : Nat) : List Goal → Prop
  | [] => True
  | .expression room :: gs => room + gs.count .closeParen = n ∧ Nested n gs
  | _ :: gs => Nested n gs

theorem nested_step {n : Nat} (h : g.step t = .ok goals) (hn : Nested n (g :: gs)) :
    Nested n (goals ++ gs) := by
  cases g with
  | expression room =>
    obtain ⟨hroom, hgs⟩ := hn
    cases t <;> cases room <;> cases h <;> simp [Nested, hgs] <;> omega
  | _ =>
    cases t <;> cases h
    exact hn

namespace Reaches

theorem count_closeParen (h : Reaches gs ts left) :
    left.count .closeParen + ts.count .closeParen =
      gs.count .closeParen + ts.countP isOperator := by
  induction h with
  | refl gs => rfl
  | @step g t goals gs left ts hg _ ih =>
    have hstep := count_closeParen_step hg gs
    rw [← List.singleton_append, List.count_append, List.countP_append]
    omega

theorem nested {n : Nat} (h : Reaches gs ts left) (hn : Nested n gs) : Nested n left := by
  induction h with
  | refl gs => exact hn
  | step hg _ ih => exact ih (nested_step hg hn)

/-- Where an expression is due, the operators around it and the room for more make up the limit. -/
theorem room_add_openOperators {room : Nat} (h : Reaches start front (.expression room :: gs)) :
    room + openOperators front = maxDepth := by
  have hroom : room + gs.count .closeParen = maxDepth := (h.nested ⟨rfl, trivial⟩).1
  have hcount : gs.count .closeParen + front.count .closeParen = front.countP isOperator := by
    simpa [start] using h.count_closeParen
  unfold openOperators
  omega

end Reaches

/-! ## Another token in the place of one -/

theorem tokens_concat_of_refused (h : Reaches start front (g :: gs)) (hg : g.step t = .error f) :
    tokens (front ++ [t]) = .error (g.report front.length t f) := by
  refine tokens_eq_error_of_pursue ?_
  rw [h.pursue_append, Nat.zero_add]
  simp [pursue, hg]

theorem tokens_concat_of_taken (h : Reaches start front (g :: gs)) (hg : g.step t = .ok goals) :
    (∃ e, tokens (front ++ [t]) = .ok e) ∨
      tokens (front ++ [t]) = .error (.unexpectedEnd (front.length + 1)) := by
  have hreach : Reaches start (front ++ [t]) (goals ++ gs) := h.trans (.step hg (.refl _))
  cases hleft : goals ++ gs with
  | nil =>
    obtain ⟨e, htokens, hdepth⟩ := exists_expr_of_reaches (hleft ▸ hreach)
    exact .inl ⟨e, tokens_eq_ok_iff.mpr ⟨htokens, hdepth⟩⟩
  | cons g' gs' =>
    have hpursue := (hleft ▸ hreach).pursue_append 0 []
    refine .inr (tokens_eq_error_of_pursue ?_)
    simpa [pursue] using hpursue

/-- Which error a token gets there is up to the goal at hand. -/
theorem tokens_concat_eq_error_iff (h : Reaches start front (g :: gs)) (t : Token) (f : Fault) :
    tokens (front ++ [t]) = .error (g.report front.length t f) ↔ g.step t = .error f := by
  refine ⟨fun herr => ?_, tokens_concat_of_refused h⟩
  cases hg : g.step t with
  | error f' =>
    rw [tokens_concat_of_refused h hg] at herr
    cases f <;> cases f' <;> first | rfl | cases herr
  | ok goals =>
    rcases tokens_concat_of_taken h hg with ⟨e, he⟩ | hend
    · simp [he] at herr
    · cases f <;> simp [hend, Goal.report] at herr

theorem step_eq_tooDeep_iff_enclosed (h : Reaches start front (g :: gs))
    (ht : g.what.Describes t) :
    g.step t = .error .tooDeep ↔ t.isOperator = true ∧ openOperators front = maxDepth := by
  rw [Goal.step_eq_tooDeep_iff]
  constructor
  · rintro ⟨rfl, hop⟩
    exact ⟨hop, by simpa using h.room_add_openOperators⟩
  · rintro ⟨hop, hopen⟩
    obtain ⟨room, rfl⟩ := Goal.exists_room_of_describes ht hop
    have hroom := h.room_add_openOperators
    obtain rfl : room = 0 := by omega
    exact ⟨rfl, hop⟩

/-- Where a token is unexpected, the goal at hand refuses it. -/
theorem exists_reaches_of_unexpected {i : Nat} {what : Expected} {found : String}
    (h : tokens ts = .error (.unexpectedToken i what found)) :
    ∃ g gs u, what = g.what ∧ ts[i]? = some u ∧ found = u.text ∧ (ts.take i).length = i ∧
      Reaches start (ts.take i) (g :: gs) := by
  generalize herr : SyntaxError.unexpectedToken i what found = err at h
  cases rejects_of_tokens_eq_error h with
  | ended => cases herr
  | trailing => cases herr
  | @refused front back u g gs f hts hreach hg =>
    cases f with
    | tooDeep => cases herr
    | unexpected =>
      cases herr
      subst hts
      exact ⟨g, gs, u, rfl, by simp, rfl, by simp, by simpa using hreach⟩

/-- An unexpected token is reported with its text and with a description of what could have stood in
its place. Exactly the tokens that the description does not stand for are unexpected there in the
same way. With the others the tokens are complete, or they end too early; only an operator can be
nested too deeply, and this happens exactly if 128 operators enclose it already. -/
theorem unexpected_token_described (ts : List Token) (i : Nat) (what : Expected) (found : String)
    (h : tokens ts = .error (.unexpectedToken i what found)) :
    (∃ u, ts[i]? = some u ∧ found = u.text) ∧
    (∀ t, tokens (ts.take i ++ [t]) = .error (.unexpectedToken i what t.text) ↔
      ¬ what.Describes t) ∧
    (∀ t, what.Describes t →
      (∃ e, tokens (ts.take i ++ [t]) = .ok e) ∨
      tokens (ts.take i ++ [t]) = .error (.unexpectedEnd (i + 1)) ∨
      tokens (ts.take i ++ [t]) = .error (.tooDeep i)) ∧
    (∀ t, what.Describes t → (tokens (ts.take i ++ [t]) = .error (.tooDeep i) ↔
      t.isOperator = true ∧ openOperators (ts.take i) = 128)) ∧
    (∀ t, t.isWord = false →
      (what.Describes t ↔ ("'" ++ t.text ++ "'").toList <:+: what.describe.toList)) ∧
    ∀ w, what.Describes (.word w) ↔ what.describe = "a name" := by
  obtain ⟨g, gs, u, rfl, hu, rfl, hlength, hreach⟩ := exists_reaches_of_unexpected h
  have herror := tokens_concat_eq_error_iff hreach
  rw [hlength] at herror
  refine ⟨⟨u, hu, rfl⟩, fun t => (herror t .unexpected).trans Goal.step_eq_unexpected_iff, ?_, ?_,
    fun t => g.what.describes_iff_quoted, g.what.describes_word_iff⟩
  · intro t ht
    cases hg : g.step t with
    | ok goals =>
      rcases tokens_concat_of_taken hreach hg with hok | hend
      · exact .inl hok
      · exact .inr (.inl (by rw [hend, hlength]))
    | error f =>
      cases f with
      | unexpected => exact absurd ht (Goal.step_eq_unexpected_iff.mp hg)
      | tooDeep => exact .inr (.inr ((herror t .tooDeep).mpr hg))
  · exact fun t ht => (herror t .tooDeep).trans (step_eq_tooDeep_iff_enclosed hreach ht)

/-- Where an expression is due inside 128 negations, a parenthesis is as wrong as a comma, and one
more operator is too many. -/
theorem unexpected_token_described_deep :
    let front := (List.replicate 128 [Token.not, .openParen]).flatten
    tokens (front ++ [.closeParen, .comma]) = .error (.unexpectedToken 256 .expression ")") ∧
      tokens (front ++ [.comma]) = .error (.unexpectedToken 256 .expression ",") ∧
      tokens (front ++ [.and]) = .error (.tooDeep 256) := by
  intro front
  have h : tokens (front ++ [.closeParen, .comma]) =
      .error (.unexpectedToken 256 .expression ")") := by decide +kernel
  have hfront : (front ++ [Token.closeParen, .comma]).take 256 = front := by decide +kernel
  obtain ⟨-, hiff, -, hdeep, -⟩ := unexpected_token_described _ _ _ _ h
  rw [hfront] at hiff hdeep
  refine ⟨h, (hiff .comma).mpr (by simp [Expected.Describes]), ?_⟩
  exact (hdeep .and (by simp [Expected.Describes])).mpr ⟨rfl, by decide +kernel⟩

end Parser

end PostFilter
