import PostFilter.Fallible
import PostFilter.Filter.Parser
import PostFilter.Proofs.Printing

/-!
# Parsing and printing

The parser reads exactly the token lists that expressions are printed as, as long as operators are
not nested too deeply, and it reads each of them as the expression it is printed from. So parsing
and printing are inverse to each other on texts.
-/

namespace PostFilter

open Token Lexer

namespace Expr

/-- The tokens of the filter notation. -/
def tokens : Expr → List Token
  | author u => [.atSign, .word u]
  | tag l => [.hash, .word l]
  | not e => .not :: .openParen :: (e.tokens ++ [.closeParen])
  | and a b => .and :: .openParen :: (a.tokens ++ .comma :: (b.tokens ++ [.closeParen]))
  | or a b => .or :: .openParen :: (a.tokens ++ .comma :: (b.tokens ++ [.closeParen]))

theorem length_tokens_pos (e : Expr) : 0 < e.tokens.length := by
  cases e <;> simp [tokens]

theorem spell_tokens (e : Expr) : spell e.tokens = e.filterChars := by
  induction e with
  | author u => simp [tokens, filterChars, Token.chars]
  | tag l => simp [tokens, filterChars, Token.chars]
  | not e ih => simp [tokens, filterChars, Token.chars, ih]
  | and a b iha ihb => simp [tokens, filterChars, Token.chars, iha, ihb]
  | or a b iha ihb => simp [tokens, filterChars, Token.chars, iha, ihb]

theorem namesValid_iff (e : Expr) : e.NamesValid ↔ ∀ t ∈ e.tokens, t.Valid := by
  induction e with
  | author u => simp [tokens, NamesValid, Token.Valid]
  | tag l => simp [tokens, NamesValid, Token.Valid]
  | not e ih => simp [tokens, NamesValid, Token.Valid, ih, or_imp, forall_and]
  | and a b iha ihb => simp [tokens, NamesValid, Token.Valid, iha, ihb, or_imp, forall_and]
  | or a b iha ihb => simp [tokens, NamesValid, Token.Valid, iha, ihb, or_imp, forall_and]

/-- In a printed expression every word stands between symbols. -/
theorem canonical_tokens_append {e : Expr} (h : e.NamesValid) {ts : List Token}
    (hts : Canonical ts) (hnext : ∀ t, ts.head? = some t → t.isWord = false) :
    Canonical (e.tokens ++ ts) := by
  induction e generalizing ts with
  | author u => exact .symbol rfl (.word h hnext hts)
  | tag l => exact .symbol rfl (.word h hnext hts)
  | not e ih =>
    have hclose : Canonical (.closeParen :: ts) := .symbol rfl hts
    have he := ih h hclose (by simp [isWord])
    simpa [tokens] using Canonical.symbol (t := .not) rfl (.symbol (t := .openParen) rfl he)
  | and a b iha ihb =>
    have hclose : Canonical (.closeParen :: ts) := .symbol rfl hts
    have hb := ihb h.2 hclose (by simp [isWord])
    have ha := iha h.1 (.symbol (t := .comma) rfl hb) (by simp [isWord])
    simpa [tokens] using Canonical.symbol (t := .and) rfl (.symbol (t := .openParen) rfl ha)
  | or a b iha ihb =>
    have hclose : Canonical (.closeParen :: ts) := .symbol rfl hts
    have hb := ihb h.2 hclose (by simp [isWord])
    have ha := iha h.1 (.symbol (t := .comma) rfl hb) (by simp [isWord])
    simpa [tokens] using Canonical.symbol (t := .or) rfl (.symbol (t := .openParen) rfl ha)

theorem canonical_tokens {e : Expr} (h : e.NamesValid) : Canonical e.tokens := by
  simpa using canonical_tokens_append h .nil (by simp)

end Expr

namespace Parser

theorem expect_eq_ok {t : Token} {what : Expected} {i : Nat} {ts rest : List Token} :
    expect t what i ts = .ok rest ↔ ts = t :: rest := by
  cases ts with
  | nil => simp [expect]
  | cons u ts => by_cases h : u = t <;> simp [expect, h]

theorem leaf_eq_ok {make : String → Expr} {i : Nat} {ts : List Token} {p : Parsed} :
    leaf make i ts = .ok p ↔ ∃ w rest, ts = .word w :: rest ∧ p = ⟨make w, i + 1, rest⟩ := by
  fun_cases leaf make i ts with
  | case1 => simp
  | case2 w rest =>
    constructor
    · rintro ⟨⟩
      exact ⟨w, rest, rfl, rfl⟩
    · rintro ⟨_, _, ⟨⟩, rfl⟩
      rfl
  | case3 u rest hword => simpa using fun w hw => absurd hw (hword w)

/-- An expression is read off the front of some tokens: nothing but its own tokens are taken, and
its operators are nested no deeper than there is room. -/
structure Reads (room i : Nat) (ts : List Token) (p : Parsed) : Prop where
  tokens : ts = p.expr.tokens ++ p.rest
  next : p.next = i + p.expr.tokens.length
  depth : p.expr.depth ≤ room

section Operands

variable {operand : Nat → List Token → Except SyntaxError Parsed} {sign : Token}
  {make : Expr → Expr → Expr}
  (htokens : ∀ a b, (make a b).tokens =
    sign :: .openParen :: (a.tokens ++ .comma :: (b.tokens ++ [.closeParen])))
include htokens

/-- Reading two operands reads a binary operator whose sign stands before them. -/
theorem reads_of_operands {room : Nat} (hdepth : ∀ a b, (make a b).depth = max a.depth b.depth + 1)
    (hoperand : ∀ {i ts p}, operand i ts = .ok p → Reads room i ts p)
    {i : Nat} {ts : List Token} {p : Parsed} (h : operands operand make (i + 1) ts = .ok p) :
    Reads (room + 1) i (sign :: ts) p := by
  obtain ⟨ts₁, h₁, h⟩ := Fallible.bind_eq_ok.mp h
  obtain ⟨a, ha, h⟩ := Fallible.bind_eq_ok.mp h
  obtain ⟨ts₂, h₂, h⟩ := Fallible.bind_eq_ok.mp h
  obtain ⟨b, hb, h⟩ := Fallible.bind_eq_ok.mp h
  obtain ⟨ts₃, h₃, h⟩ := Fallible.bind_eq_ok.mp h
  cases h
  have ra := hoperand ha
  have rb := hoperand hb
  refine ⟨?_, ?_, ?_⟩
  · simp [htokens, expect_eq_ok.mp h₁, ra.tokens, expect_eq_ok.mp h₂, rb.tokens,
      expect_eq_ok.mp h₃]
  · simp [htokens, ra.next, rb.next]
    omega
  · rw [hdepth]
    exact Nat.succ_le_succ (Nat.max_le.mpr ⟨ra.depth, rb.depth⟩)

theorem operands_tokens {a b : Expr} {i : Nat} {rest : List Token}
    (ha : ∀ i ts, operand i (a.tokens ++ ts) = .ok ⟨a, i + a.tokens.length, ts⟩)
    (hb : ∀ i ts, operand i (b.tokens ++ ts) = .ok ⟨b, i + b.tokens.length, ts⟩) :
    operands operand make (i + 1) ((make a b).tokens.tail ++ rest) =
      .ok ⟨make a b, i + (make a b).tokens.length, rest⟩ := by
  simp [operands, htokens, expect, ha, hb, bind, Except.bind, pure, Except.pure]
  omega

end Operands

theorem reads_of_expression {room i : Nat} {ts : List Token} {p : Parsed}
    (h : expression room i ts = .ok p) : Reads room i ts p := by
  -- operands are read with less room, and through a partial application
  induction room using Nat.strongRecOn generalizing i ts p with
  | ind room ih =>
  revert h
  fun_cases expression room i ts with
  | case1 | case4 | case6 | case8 | case10 => simp
  | case2 ts =>
    intro h
    obtain ⟨w, rest, rfl, rfl⟩ := leaf_eq_ok.mp h
    exact ⟨rfl, rfl, Nat.zero_le _⟩
  | case3 ts =>
    intro h
    obtain ⟨w, rest, rfl, rfl⟩ := leaf_eq_ok.mp h
    exact ⟨rfl, rfl, Nat.zero_le _⟩
  | case5 ts room =>
    intro h
    obtain ⟨ts₁, h₁, h⟩ := Fallible.bind_eq_ok.mp h
    obtain ⟨e, he, h⟩ := Fallible.bind_eq_ok.mp h
    obtain ⟨ts₂, h₂, h⟩ := Fallible.bind_eq_ok.mp h
    cases h
    have re := ih room (Nat.lt_succ_self room) he
    refine ⟨?_, ?_, Nat.succ_le_succ re.depth⟩
    · simp [Expr.tokens, expect_eq_ok.mp h₁, re.tokens, expect_eq_ok.mp h₂]
    · simp [Expr.tokens, re.next]
      omega
  | case7 ts room =>
    exact reads_of_operands (fun _ _ => rfl) (fun _ _ => rfl) (ih room (Nat.lt_succ_self room))
  | case9 ts room =>
    exact reads_of_operands (fun _ _ => rfl) (fun _ _ => rfl) (ih room (Nat.lt_succ_self room))

/-- A printed expression is read back, whatever stands after it. -/
theorem expression_tokens {e : Expr} {room : Nat} (h : e.depth ≤ room) (i : Nat)
    (rest : List Token) :
    expression room i (e.tokens ++ rest) = .ok ⟨e, i + e.tokens.length, rest⟩ := by
  induction e generalizing room i rest with
  | author u => simp [Expr.tokens, expression, leaf]
  | tag l => simp [Expr.tokens, expression, leaf]
  | not e ih =>
    obtain ⟨room, rfl⟩ := Nat.exists_eq_add_one_of_ne_zero (Nat.ne_zero_of_lt h)
    have he := ih (Nat.le_of_succ_le_succ h)
    simp [Expr.tokens, expression, expect, he, bind, Except.bind, pure, Except.pure]
    omega
  | and a b iha ihb =>
    obtain ⟨room, rfl⟩ := Nat.exists_eq_add_one_of_ne_zero (Nat.ne_zero_of_lt h)
    obtain ⟨ha, hb⟩ := Nat.max_le.mp (Nat.le_of_succ_le_succ h)
    exact operands_tokens (fun _ _ => rfl) (iha ha) (ihb hb)
  | or a b iha ihb =>
    obtain ⟨room, rfl⟩ := Nat.exists_eq_add_one_of_ne_zero (Nat.ne_zero_of_lt h)
    obtain ⟨ha, hb⟩ := Nat.max_le.mp (Nat.le_of_succ_le_succ h)
    exact operands_tokens (fun _ _ => rfl) (iha ha) (ihb hb)

theorem expression_eq_ok_iff {room i : Nat} {ts : List Token} {p : Parsed} :
    expression room i ts = .ok p ↔ Reads room i ts p := by
  constructor
  · exact reads_of_expression
  · intro h
    obtain ⟨e, next, rest⟩ := p
    rw [h.tokens, expression_tokens h.depth, ← h.next]

theorem tokens_eq_ok_iff {ts : List Token} {e : Expr} :
    tokens ts = .ok e ↔ ts = e.tokens ∧ e.depth ≤ maxDepth := by
  unfold tokens
  constructor
  · intro h
    split at h
    · simp at h
    · next p hp =>
      have hreads := reads_of_expression hp
      split at h
      · next hrest =>
        cases h
        exact ⟨by simpa [List.isEmpty_iff.mp hrest] using hreads.tokens, hreads.depth⟩
      · simp at h
  · rintro ⟨rfl, h⟩
    have hread := expression_tokens h 0 []
    rw [List.append_nil] at hread
    simp [hread]

end Parser

/-! ## Texts -/

theorem parse_of_inAlphabet {s : String} (hne : s ≠ "") (h : ∀ c ∈ s.toList, inAlphabet c = true) :
    parse s = Parser.tokens (cut s.toList) := by
  simp [parse, hne, tokenize_of_inAlphabet h, cut]

theorem parse_of_not_inAlphabet {s : String} (h : ¬ ∀ c ∈ s.toList, inAlphabet c = true) :
    ∃ c p, parse s = .error (.invalidCharacter c p) := by
  have hne : s ≠ "" := by
    rintro rfl
    exact h (by simp)
  cases hf : firstInvalid? 0 s.toList with
  | none => exact absurd (firstInvalid?_eq_none_iff.mp hf) h
  | some cp => exact ⟨cp.1, cp.2, by simp [parse, hne, tokenize, hf]⟩

/-- A text is accepted if all of it can be cut into the tokens of an expression. -/
theorem parse_eq_ok_iff_tokens {s : String} {e : Expr} :
    parse s = .ok e ↔ (∀ c ∈ s.toList, inAlphabet c = true) ∧
      cut s.toList = e.tokens ∧ e.depth ≤ Parser.maxDepth := by
  rw [← Parser.tokens_eq_ok_iff]
  by_cases h : ∀ c ∈ s.toList, inAlphabet c = true
  · by_cases hne : s = ""
    · subst hne
      simp [parse, Parser.tokens, Parser.expression]
    · rw [parse_of_inAlphabet hne h]
      exact ⟨fun hp => ⟨h, hp⟩, And.right⟩
  · obtain ⟨c, p, hp⟩ := parse_of_not_inAlphabet h
    simp [hp, h]

theorem parse_filterText {e : Expr} (h : e.NamesValid) (hd : e.depth ≤ Parser.maxDepth) :
    parse e.filterText = .ok e := by
  rw [parse_eq_ok_iff_tokens, Expr.filterText, String.toList_ofList, ← e.spell_tokens]
  exact ⟨fun c => inAlphabet_of_mem_spell (e.namesValid_iff.mp h),
    cut_spell (Expr.canonical_tokens h), hd⟩

theorem eq_filterText_of_parse {s : String} {e : Expr} (h : parse s = .ok e) :
    s = e.filterText ∧ e.NamesValid ∧ e.depth ≤ Parser.maxDepth := by
  obtain ⟨halpha, hcut, hd⟩ := parse_eq_ok_iff_tokens.mp h
  refine ⟨?_, e.namesValid_iff.mpr (hcut ▸ (canonical_cut halpha).valid), hd⟩
  rw [Expr.filterText, ← e.spell_tokens, ← hcut, spell_cut, String.ofList_toList]

/-- Different trees are printed differently, however deep they are. -/
theorem Expr.filterText_injective {a b : Expr} (ha : a.NamesValid) (hb : b.NamesValid)
    (h : a.filterText = b.filterText) : a = b :=
  ha.wordNamed.eq_of_filterText hb.wordNamed h

/-- A text is accepted exactly if it is the filter text of an expression whose names can be written
and whose operators are nested at most 128 deep, and of these expressions there is only one: the
result. -/
theorem parse_eq_ok_iff_filterText (s : String) (e : Expr) :
    (parse s = .ok e ↔ s = e.filterText ∧ e.NamesValid ∧ e.depth ≤ 128) ∧
      (parse s = .ok e → ∀ e' : Expr, e'.NamesValid → s = e'.filterText → e' = e) := by
  refine ⟨⟨eq_filterText_of_parse, ?_⟩, ?_⟩
  · rintro ⟨rfl, hnames, hdepth⟩
    exact parse_filterText hnames hdepth
  · intro h e' hnames' hs'
    obtain ⟨hs, hnames, -⟩ := eq_filterText_of_parse h
    exact Expr.filterText_injective hnames' hnames (hs' ▸ hs)

end PostFilter
