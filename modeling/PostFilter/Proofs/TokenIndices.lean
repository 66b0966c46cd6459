import PostFilter.Proofs.Expectations

/-!
# Parsing by index

The parser can also be given all tokens, an index to begin at, and the number of operators around
that place. Wherever it succeeds there, it has read the tokens from its index up to the index that
it returns, and no others: in front of other tokens, behind other tokens and inside other operators
it reads them again as the same expression. If it misses a token, then all tokens have been read.
-/

namespace PostFilter

open Token

namespace Parser

/-! ## Reading at an index -/

/-- The index after one fixed token. -/
def expectAt (ts : List Token) (t : Token) (what : Expected) (i : Nat) : Except SyntaxError Nat :=
  match ts[i]? with
  | none => .error (.unexpectedEnd i)
  | some u => if u = t then .ok (i + 1) else .error (.unexpectedToken i what u.text)

/-- A word, and the index after it. -/
def wordAt (ts : List Token) (i : Nat) : Except SyntaxError (String × Nat) :=
  match ts[i]? with
  | none => .error (.unexpectedEnd i)
  | some (.word w) => .ok (w, i + 1)
  | some u => .error (.unexpectedToken i .name u.text)

/-- Two operands in parentheses, and the index after these. -/
def operandsAt (ts : List Token) (operand : Nat → Except SyntaxError (Expr × Nat)) (i : Nat) :
    Except SyntaxError (Expr × Expr × Nat) := do
  let i ← expectAt ts .openParen .openParen i
  let (a, i) ← operand i
  let i ← expectAt ts .comma .comma i
  let (b, i) ← operand i
  let i ← expectAt ts .closeParen .closeParen i
  pure (a, b, i)

/-- The expression that begins at the index `i` inside `d` operators, and the index after it. -/
def expressionAt (ts : List Token) (i d : Nat) : Except SyntaxError (Expr × Nat) :=
  match ts[i]? with
  | none => .error (.unexpectedEnd i)
  | some t =>
    if _h : t.isOperator = true ∧ maxDepth ≤ d then .error (.tooDeep i)
    else
      match _ht : t with
      | .or => do
        let (a, b, next) ← operandsAt ts (fun j => expressionAt ts j (d + 1)) (i + 1)
        pure (.or a b, next)
      | .and => do
        let (a, b, next) ← operandsAt ts (fun j => expressionAt ts j (d + 1)) (i + 1)
        pure (.and a b, next)
      | .not => do
        let next ← expectAt ts .openParen .openParen (i + 1)
        let (e, next) ← expressionAt ts next (d + 1)
        let next ← expectAt ts .closeParen .closeParen next
        pure (.not e, next)
      | .atSign => do
        let (u, next) ← wordAt ts (i + 1)
        pure (.author u, next)
      | .hash => do
        let (l, next) ← wordAt ts (i + 1)
        pure (.tag l, next)
      | u => .error (.unexpectedToken i .expression u.text)
termination_by maxDepth - d
decreasing_by
  all_goals
    have hd : ¬ maxDepth ≤ d := fun hle => _h ⟨rfl, hle⟩
    omega

/-- What has been read, and the tokens from the index after it on. -/
def Parsed.upTo (ts : List Token) (r : Expr × Nat) : Parsed :=
  ⟨r.1, r.2, ts.drop r.2⟩

section

variable {ts : List Token} {t : Token} {what : Expected} {i d : Nat} {α β : Type} {k : α → β}

theorem drop_of_getElem?_eq_none (h : ts[i]? = none) : ts.drop i = [] :=
  List.drop_eq_nil_of_le (List.getElem?_eq_none_iff.mp h)

theorem drop_of_getElem?_eq_some (h : ts[i]? = some t) : ts.drop i = t :: ts.drop (i + 1) := by
  simpa [h] using ts.drop_eq_getElem?_toList_append (i := i)

theorem expect_drop_bind {f : List Token → Except SyntaxError β} {g : Nat → Except SyntaxError α}
    (h : f (ts.drop (i + 1)) = k <$> g (i + 1)) :
    expect t what i (ts.drop i) >>= f = k <$> (expectAt ts t what i >>= g) := by
  unfold expectAt
  cases hi : ts[i]? with
  | none =>
    rw [drop_of_getElem?_eq_none hi]
    rfl
  | some u =>
    rw [drop_of_getElem?_eq_some hi]
    by_cases hu : u = t
    · simp only [expect, if_pos hu]
      exact h
    · simp only [expect, if_neg hu]
      rfl

theorem upTo_bind {x : Except SyntaxError Parsed} {y : Except SyntaxError (Expr × Nat)}
    {f : Parsed → Except SyntaxError β} {g : Expr × Nat → Except SyntaxError α}
    (hxy : x = Parsed.upTo ts <$> y) (h : ∀ e n, f ⟨e, n, ts.drop n⟩ = k <$> g (e, n)) :
    x >>= f = k <$> (y >>= g) := by
  rw [hxy]
  cases y with
  | error err => rfl
  | ok r => exact h r.1 r.2

theorem leaf_drop (make : String → Expr) (ts : List Token) (i : Nat) :
    leaf make i (ts.drop i) =
      Parsed.upTo ts <$> (wordAt ts i >>= fun r => pure (make r.1, r.2)) := by
  unfold wordAt
  cases hi : ts[i]? with
  | none =>
    rw [drop_of_getElem?_eq_none hi]
    rfl
  | some u =>
    rw [drop_of_getElem?_eq_some hi]
    cases u <;> rfl

theorem operands_drop {operand : Nat → List Token → Except SyntaxError Parsed}
    {operandAt : Nat → Except SyntaxError (Expr × Nat)}
    (h : ∀ i, operand i (ts.drop i) = Parsed.upTo ts <$> operandAt i) (make : Expr → Expr → Expr)
    (i : Nat) : operands operand make i (ts.drop i) =
      Parsed.upTo ts <$> (operandsAt ts operandAt i >>= fun r => pure (make r.1 r.2.1, r.2.2)) := by
  simp only [operands, operandsAt, bind_assoc]
  refine expect_drop_bind (upTo_bind (h _) fun a n => ?_)
  refine expect_drop_bind (upTo_bind (h _) fun b n' => ?_)
  exact expect_drop_bind rfl

/-- Reading what is left of the tokens comes to the same as reading at the index. -/
theorem expression_drop (ts : List Token) (i d : Nat) :
    expression (maxDepth - d) i (ts.drop i) = Parsed.upTo ts <$> expressionAt ts i d := by
  -- an operator is refused exactly where no room is left, and takes one level of it otherwise
  have hroom {d : Nat} {t : Token} (ht : t.isOperator = true)
      (h : ¬(t.isOperator = true ∧ maxDepth ≤ d)) : maxDepth - d = maxDepth - (d + 1) + 1 := by
    have hd : ¬ maxDepth ≤ d := fun hle => h ⟨ht, hle⟩
    omega
  fun_induction expressionAt ts i d with
  | case1 i d hi =>
    rw [drop_of_getElem?_eq_none hi, expression]
    rfl
  | case2 i d t hi h =>
    rw [drop_of_getElem?_eq_some hi, Nat.sub_eq_zero_of_le h.2]
    cases t with
    | or | and | not => rfl
    | _ => cases h.1
  | case3 i d h hi _ ih =>
    rw [drop_of_getElem?_eq_some hi, hroom rfl h]
    exact operands_drop ih .or (i + 1)
  | case4 i d h hi _ ih =>
    rw [drop_of_getElem?_eq_some hi, hroom rfl h]
    exact operands_drop ih .and (i + 1)
  | case5 i d h hi _ ih =>
    rw [drop_of_getElem?_eq_some hi, hroom rfl h]
    refine expect_drop_bind (upTo_bind (ih _) fun e n => ?_)
    exact expect_drop_bind rfl
  | case6 i d h hi _ =>
    rw [drop_of_getElem?_eq_some hi, expression]
    exact leaf_drop .author ts (i + 1)
  | case7 i d h hi _ =>
    rw [drop_of_getElem?_eq_some hi, expression]
    exact leaf_drop .tag ts (i + 1)
  | case8 i d u h hor hand hnot hat hhash hi _ =>
    rw [drop_of_getElem?_eq_some hi]
    cases u with
    | or => exact (hor h rfl .rfl).elim
    | and => exact (hand h rfl .rfl).elim
    | not => exact (hnot h rfl .rfl).elim
    | atSign => exact (hat h rfl .rfl).elim
    | hash => exact (hhash h rfl .rfl).elim
    | _ => cases maxDepth - d <;> rfl

/-! ## What has been read -/

variable {e : Expr} {next : Nat}

/-- An expression is read exactly where its tokens stand, if its operators have room there. -/
theorem expressionAt_eq_ok_iff : expressionAt ts i d = .ok (e, next) ↔
    ts.extract i next = e.tokens ∧ next = i + e.tokens.length ∧ e.depth ≤ maxDepth - d := by
  have hread : expressionAt ts i d = .ok (e, next) ↔
      Reads (maxDepth - d) i (ts.drop i) ⟨e, next, ts.drop next⟩ := by
    rw [← expression_eq_ok_iff, expression_drop]
    cases expressionAt ts i d with
    | error err => simp
    | ok r => simp +contextual [Parsed.upTo, Prod.ext_iff]
  rw [hread]
  constructor
  · intro h
    have htokens : ts.drop i = e.tokens ++ ts.drop next := h.tokens
    have hnext : next = i + e.tokens.length := h.next
    refine ⟨?_, hnext, h.depth⟩
    rw [List.extract, htokens, hnext, Nat.add_sub_cancel_left, List.take_left]
  · rintro ⟨hslice, hnext, hdepth⟩
    refine ⟨?_, hnext, hdepth⟩
    change ts.drop i = e.tokens ++ ts.drop next
    rw [← hslice, List.extract, hnext, Nat.add_sub_cancel_left, ← List.drop_drop,
      List.take_append_drop]

theorem lt_and_le_length_of_expressionAt (h : expressionAt ts i d = .ok (e, next)) :
    i < next ∧ next ≤ ts.length := by
  obtain ⟨hslice, hnext, -⟩ := expressionAt_eq_ok_iff.mp h
  have hpos := e.length_tokens_pos
  have hlength := congrArg List.length hslice
  rw [List.extract, List.length_take, List.length_drop] at hlength
  omega

/-- There is room for a leaf everywhere. -/
theorem depth_le_sub_iff : e.depth ≤ maxDepth - d ↔ e.depth = 0 ∨ d + e.depth ≤ 128 := by
  unfold maxDepth
  omega

/-! ## Where tokens are missing -/

theorem eq_add_length_of_pursue {gs : List Goal} {k : Nat}
    (h : pursue i gs ts = .error (.unexpectedEnd k)) : k = i + ts.length := by
  fun_induction pursue i gs ts with
  | case1 => cases h
  | case2 =>
    cases h
    rfl
  | case3 i g gs t ts f hf => cases f <;> cases h
  | case4 i g gs t ts goals hg ih =>
    rw [ih h, List.length_cons]
    omega

theorem eq_length_of_expressionAt {k : Nat} (hi : i ≤ ts.length)
    (h : expressionAt ts i d = .error (.unexpectedEnd k)) : k = ts.length := by
  have hpursue : pursue i [.expression (maxDepth - d)] (ts.drop i) = .error (.unexpectedEnd k) := by
    rw [pursue_expression, expression_drop, h]
    rfl
  have hlength := eq_add_length_of_pursue hpursue
  rw [List.length_drop] at hlength
  omega

end

/-- Reading at an index is what the parser does with the tokens from there on. It takes at least one
token and none that is not there, and those it takes spell the expression. They are read as the same
expression wherever they stand in other tokens, and inside as many operators as leave room for it.
If tokens are missing, the place of the error is behind the last one. -/
theorem expressionAt_local (ts : List Token) (i d : Nat) :
    expression (maxDepth - d) i (ts.drop i) =
      (fun r => ⟨r.1, r.2, ts.drop r.2⟩) <$> expressionAt ts i d ∧
    (∀ e next, expressionAt ts i d = .ok (e, next) →
      i < next ∧ next ≤ ts.length ∧ spelling (ts.extract i next) = e.filterText ∧
      (e.depth = 0 ∨ d + e.depth ≤ 128) ∧
      ∀ ts' j d', ts'.extract j (j + (next - i)) = ts.extract i next →
        (e.depth = 0 ∨ d' + e.depth ≤ 128) →
          expressionAt ts' j d' = .ok (e, j + (next - i))) ∧
    ∀ k, i ≤ ts.length → expressionAt ts i d = .error (.unexpectedEnd k) → k = ts.length := by
  refine ⟨expression_drop ts i d, fun e next h => ?_, fun k => eq_length_of_expressionAt⟩
  obtain ⟨hslice, hnext, hdepth⟩ := expressionAt_eq_ok_iff.mp h
  obtain ⟨hlt, hle⟩ := lt_and_le_length_of_expressionAt h
  refine ⟨hlt, hle, ?_, depth_le_sub_iff.mp hdepth, fun ts' j d' hslice' hdepth' => ?_⟩
  · rw [hslice, spelling, e.spell_tokens, Expr.filterText]
  · refine expressionAt_eq_ok_iff.mpr ⟨hslice'.trans hslice, ?_, depth_le_sub_iff.mpr hdepth'⟩
    omega

/-- A negation is read in the middle of other tokens where there is room for just one operator, and
so it is read alone. One operator further in there is none, and without the last two tokens
everything has been read. -/
theorem expressionAt_local_negation :
    let ts : List Token := [.comma, .not, .openParen, .hash, .word "b", .closeParen, .comma]
    expressionAt ts 1 127 = .ok (.not (.tag "b"), 6) ∧
      expressionAt ((ts.drop 1).take 5) 0 0 = .ok (.not (.tag "b"), 5) ∧
      expressionAt ts 1 128 = .error (.tooDeep 1) ∧
      expressionAt (ts.take 5) 1 127 = .error (.unexpectedEnd (ts.take 5).length) := by
  intro ts
  have hread : expressionAt ts 1 127 = .ok (.not (.tag "b"), 6) := by cbv
  have hends : expressionAt (ts.take 5) 1 127 = .error (.unexpectedEnd 5) := by cbv
  obtain ⟨-, hlocal, -⟩ := expressionAt_local ts 1 127
  obtain ⟨-, -, -, -, hagain⟩ := hlocal _ _ hread
  obtain ⟨-, -, hmissing⟩ := expressionAt_local (ts.take 5) 1 127
  refine ⟨hread, hagain _ 0 0 rfl (.inr (by decide)), by cbv, ?_⟩
  rw [← hmissing 5 (by decide) hends]
  exact hends

end Parser

end PostFilter
