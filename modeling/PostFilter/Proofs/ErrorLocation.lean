import PostFilter.Proofs.Prediction

/-!
# Where a rejected text goes wrong

A rejected text that is not empty and keeps to the alphabet is either the beginning of a filter, and
then the error is found at its end, or the error names the first token after which no text can make
a filter of it. Which error it is depends only on what the tokens up to there could become.
-/

namespace PostFilter

open Token Lexer

def Accepted (s : String) : Prop :=
  ∃ e, parse s = .ok e

def Completable (s : String) : Prop :=
  ∃ t, Accepted (s ++ t)

/-- The text is a filter but for the limit on nesting. -/
def InGrammar (s : String) : Prop :=
  ∃ e : Expr, e.NamesValid ∧ s = e.filterText

namespace Parser

/-- Tokens that no goal has refused can be completed, with names that can be written and without
nesting operators any deeper. -/
theorem exists_filterText_of_reaches {room : Nat} {front : List Token} {gs : List Goal}
    (hvalid : ∀ t ∈ front, t.Valid) (h : Reaches [.expression room] front gs) :
    ∃ (t : String) (e : Expr), e.NamesValid ∧ e.depth ≤ room ∧
      spelling front ++ t = e.filterText := by
  obtain ⟨e, htokens, hdepth⟩ := exists_expr_of_reaches (h.trans (reaches_completion gs))
  refine ⟨spelling (gs.flatMap Goal.completion), e, e.namesValid_iff.mpr ?_, hdepth, ?_⟩
  · intro t ht
    rcases List.mem_append.mp (htokens ▸ ht) with ht | ht
    · exact hvalid t ht
    · exact valid_of_mem_completion ht
  · rw [Expr.filterText, ← e.spell_tokens, ← htokens]
    exact (spelling_append front _).symm

theorem completable_of_reaches {front : List Token} {gs : List Goal}
    (hvalid : ∀ t ∈ front, t.Valid) (h : Reaches start front gs) :
    Completable (spelling front) := by
  obtain ⟨t, e, hnames, hdepth, he⟩ := exists_filterText_of_reaches hvalid h
  exact ⟨t, e, by rw [he, parse_filterText hnames hdepth]⟩

/-- After a token that the goals block on, the text is the beginning of no filter. -/
theorem spelling_append_ne_of_blocks {room : Nat} {front : List Token} {t : Token}
    {gs : List Goal} (hcanon : Canonical (front ++ [t])) (h : Reaches [.expression room] front gs)
    (hblocks : Blocks gs t) (x : String) {e : Expr} (hnames : e.NamesValid)
    (hdepth : e.depth ≤ room) : spelling (front ++ [t]) ++ x ≠ e.filterText := by
  intro heq
  obtain ⟨u, us, hcut, hu⟩ := exists_cut_spell_concat_append hcanon x.toList
  have htokens : e.tokens = front ++ u :: us := by
    have hchars : spell (front ++ [t]) ++ x.toList = spell e.tokens := by
      rw [e.spell_tokens]
      simpa [spelling, Expr.filterText] using congrArg String.toList heq
    rw [← hcut, hchars, cut_spell (Expr.canonical_tokens hnames)]
  have hpursue : pursue 0 [.expression room] e.tokens = .ok (0 + e.tokens.length, []) := by
    have hread := expression_tokens hdepth 0 []
    rw [List.append_nil] at hread
    simp [pursue_expression, hread, bind, Except.bind, pursue]
  rw [htokens, h.pursue_append] at hpursue
  exact hblocks.pursue_ne hu _ _ us hpursue

theorem not_completable_of_blocks {front : List Token} {t : Token} {gs : List Goal}
    (hcanon : Canonical (front ++ [t])) (h : Reaches start front gs) (hblocks : Blocks gs t) :
    ¬ Completable (spelling (front ++ [t])) := by
  rintro ⟨x, e, he⟩
  obtain ⟨htext, hnames, hdepth⟩ := eq_filterText_of_parse he
  exact spelling_append_ne_of_blocks hcanon h hblocks x hnames hdepth htext

/-- More room does not help where a token is out of place. -/
theorem not_inGrammar_of_blocks {front : List Token} {t : Token} {gs : List Goal}
    (hcanon : Canonical (front ++ [t])) (h : Reaches start front gs)
    (hblocks : ∀ k, Blocks (gs.map (Goal.deepen k)) t) (x : String) :
    ¬ InGrammar (spelling (front ++ [t]) ++ x) := by
  rintro ⟨e, hnames, he⟩
  exact spelling_append_ne_of_blocks hcanon (h.deepen e.depth) (hblocks e.depth) x hnames
    (Nat.le_add_left e.depth maxDepth) he

end Parser

/-! ## The blamed token -/

namespace SyntaxError

/-- The error lies in the token with this index. -/
def Blames : SyntaxError → Nat → Prop
  | unexpectedToken j _ _, i | tooDeep j, i | trailingTokens j, i => j = i
  | _, _ => False

theorem Blames.eq {err : SyntaxError} {i j : Nat} (hi : err.Blames i) (hj : err.Blames j) :
    i = j := by
  cases err <;> first | exact hi.elim | exact hi.symm.trans hj

/-- The error names the right token and the right reason, where `before` is the text up to the token
and `through` is the text that includes it. -/
structure Justified (err : SyntaxError) (i : Nat) (before through : String) : Prop where
  completable : Completable before
  stuck : ¬ Completable through
  trailing : err = .trailingTokens i ↔ Accepted before
  tooDeep : err = .tooDeep i ↔ ∃ t, InGrammar (through ++ t)
  unexpected : (∃ what found, err = .unexpectedToken i what found) ↔
    ¬ Accepted before ∧ ¬ ∃ t, InGrammar (through ++ t)

end SyntaxError

namespace Parser

theorem accepted_iff_of_reaches {front : List Token} {gs : List Goal} (hcanon : Canonical front)
    (h : Reaches start front gs) : Accepted (spelling front) ↔ gs = [] := by
  constructor
  · rintro ⟨e, he⟩
    obtain ⟨-, hcut, hdepth⟩ := parse_eq_ok_iff_tokens.mp he
    rw [spelling, String.toList_ofList, cut_spell hcanon] at hcut
    have hread := expression_tokens hdepth 0 []
    have hpursue := h.pursue_append 0 []
    rw [start, pursue_expression, hcut, hread] at hpursue
    cases gs with
    | nil => rfl
    | cons g gs => simp [bind, Except.bind, pursue] at hpursue
  · rintro rfl
    obtain ⟨e, rfl, hdepth⟩ := exists_expr_of_reaches h
    refine ⟨e, parse_eq_ok_iff_tokens.mpr ?_⟩
    rw [spelling, String.toList_ofList, cut_spell hcanon]
    exact ⟨fun c => inAlphabet_of_mem_spell hcanon.valid, rfl, hdepth⟩

/-- An operator that is nested too deeply begins a filter once more nesting is allowed. -/
theorem exists_inGrammar_of_tooDeep {front : List Token} {t : Token} {g : Goal} {gs : List Goal}
    (hvalid : ∀ u ∈ front ++ [t], u.Valid) (h : Reaches start front (g :: gs))
    (hg : g.step t = .error .tooDeep) : ∃ x, InGrammar (spelling (front ++ [t]) ++ x) := by
  obtain ⟨goals, hgoals⟩ := exists_step_deepen_of_tooDeep hg
  have hreach : Reaches [.expression (maxDepth + 1)] (front ++ [t])
      (goals ++ gs.map (Goal.deepen 1)) := (h.deepen 1).trans (.step hgoals (.refl _))
  obtain ⟨x, e, hnames, -, he⟩ := exists_filterText_of_reaches hvalid hreach
  exact ⟨x, e, hnames, he⟩

section Blamed

variable {front : List Token} {t : Token} {g : Goal} {gs : List Goal}
  (hcanon : Canonical (front ++ [t]))
include hcanon

theorem justified_trailing (h : Reaches start front []) :
    (SyntaxError.trailingTokens front.length).Justified front.length (spelling front)
      (spelling (front ++ [t])) where
  completable := completable_of_reaches hcanon.of_append_left.valid h
  stuck := not_completable_of_blocks hcanon h (.inl rfl)
  trailing := by simp [accepted_iff_of_reaches hcanon.of_append_left h]
  tooDeep := by simp [not_inGrammar_of_blocks hcanon h fun k => .inl rfl]
  unexpected := by simp [accepted_iff_of_reaches hcanon.of_append_left h]

theorem justified_unexpected (h : Reaches start front (g :: gs))
    (hg : g.step t = .error .unexpected) :
    (g.report front.length t .unexpected).Justified front.length (spelling front)
      (spelling (front ++ [t])) where
  completable := completable_of_reaches hcanon.of_append_left.valid h
  stuck := not_completable_of_blocks hcanon h (.inr ⟨g, gs, _, rfl, hg⟩)
  trailing := by simp [Goal.report, accepted_iff_of_reaches hcanon.of_append_left h]
  tooDeep := by
    have hblocks : ∀ k, Blocks ((g :: gs).map (Goal.deepen k)) t :=
      fun k => .inr ⟨_, _, _, rfl, step_deepen_unexpected k hg⟩
    simp [Goal.report, not_inGrammar_of_blocks hcanon h hblocks]
  unexpected := by
    have hblocks : ∀ k, Blocks ((g :: gs).map (Goal.deepen k)) t :=
      fun k => .inr ⟨_, _, _, rfl, step_deepen_unexpected k hg⟩
    simp [Goal.report, accepted_iff_of_reaches hcanon.of_append_left h,
      not_inGrammar_of_blocks hcanon h hblocks]

theorem justified_tooDeep (h : Reaches start front (g :: gs)) (hg : g.step t = .error .tooDeep) :
    (g.report front.length t .tooDeep).Justified front.length (spelling front)
      (spelling (front ++ [t])) where
  completable := completable_of_reaches hcanon.of_append_left.valid h
  stuck := not_completable_of_blocks hcanon h (.inr ⟨g, gs, _, rfl, hg⟩)
  trailing := by simp [Goal.report, accepted_iff_of_reaches hcanon.of_append_left h]
  tooDeep := by simp [Goal.report, exists_inGrammar_of_tooDeep hcanon.valid h hg]
  unexpected := by simp [Goal.report, exists_inGrammar_of_tooDeep hcanon.valid h hg]

end Blamed

/-- A rejection either runs into the end of the tokens or blames one of them. -/
theorem Rejects.ended_or_justified {ts : List Token} {err : SyntaxError} (hcanon : Canonical ts)
    (h : Rejects ts err) :
    (err = .unexpectedEnd ts.length ∧ Completable (spelling ts)) ∨
      ∃ front t back, ts = front ++ t :: back ∧ err.Blames front.length ∧
        err.Justified front.length (spelling front) (spelling (front ++ [t])) := by
  cases h with
  | ended hreach => exact .inl ⟨rfl, completable_of_reaches hcanon.valid hreach⟩
  | @refused front back t g gs f hts hreach hf =>
    have hthrough : Canonical (front ++ [t]) := (hts ▸ hcanon).through
    cases f with
    | unexpected =>
      exact .inr ⟨front, t, back, hts, rfl, justified_unexpected hthrough hreach hf⟩
    | tooDeep => exact .inr ⟨front, t, back, hts, rfl, justified_tooDeep hthrough hreach hf⟩
  | @trailing front back t hts hreach =>
    have hthrough : Canonical (front ++ [t]) := (hts ▸ hcanon).through
    exact .inr ⟨front, t, back, hts, rfl, justified_trailing hthrough hreach⟩

end Parser

theorem Completable.of_append {s t : String} (h : Completable (s ++ t)) : Completable s := by
  obtain ⟨x, hx⟩ := h
  exact ⟨t ++ x, by rwa [← String.append_assoc]⟩

theorem completable_empty : Completable "" := by
  have h : Completable (spelling []) :=
    Parser.completable_of_reaches (List.forall_mem_nil _) (.refl Parser.start)
  simpa [spelling] using h

theorem inAlphabet_of_completable {s : String} (h : Completable s) :
    ∀ c ∈ s.toList, inAlphabet c = true := by
  obtain ⟨x, e, he⟩ := h
  have halpha := (parse_eq_ok_iff_tokens.mp he).1
  intro c hc
  exact halpha c (by simp [hc])

/-- Why a text is rejected: it is empty, a character is outside the alphabet, the tokens end too
early, or one of them is to blame. -/
theorem parse_eq_error {s : String} {err : SyntaxError} (h : parse s = .error err) :
    (s = "" ∧ err = .emptyExpression) ∨
      (s ≠ "" ∧ (∃ c p, err = .invalidCharacter c p) ∧ ∃ c ∈ s.toList, inAlphabet c = false) ∨
      (s ≠ "" ∧ (∀ c ∈ s.toList, inAlphabet c = true) ∧
        ((err = .unexpectedEnd (cut s.toList).length ∧ Completable s) ∨
          ∃ front t back, cut s.toList = front ++ t :: back ∧ err.Blames front.length ∧
            err.Justified front.length (spelling front) (spelling (front ++ [t])))) := by
  by_cases hne : s = ""
  · subst hne
    cases h
    exact .inl ⟨rfl, rfl⟩
  by_cases halpha : ∀ c ∈ s.toList, inAlphabet c = true
  · rw [parse_of_inAlphabet hne halpha] at h
    have hrej := Parser.rejects_of_tokens_eq_error h
    refine .inr (.inr ⟨hne, halpha, ?_⟩)
    simpa using hrej.ended_or_justified (canonical_cut halpha)
  · obtain ⟨c, p, hp⟩ := parse_of_not_inAlphabet halpha
    rw [hp] at h
    cases h
    exact .inr (.inl ⟨hne, ⟨c, p, rfl⟩, by simpa using halpha⟩)

section Rejected

variable {s : String} {err : SyntaxError} (h : parse s = .error err)
include h

theorem emptyExpression_iff : err = .emptyExpression ↔ s = "" := by
  rcases parse_eq_error h with ⟨rfl, rfl⟩ | ⟨hne, ⟨c, p, rfl⟩, -⟩ |
    ⟨hne, -, ⟨rfl, -⟩ | ⟨front, t, back, -, hblames, -⟩⟩
  · simp
  · simp [hne]
  · simp [hne]
  · refine iff_of_false ?_ hne
    rintro rfl
    exact hblames

theorem invalidCharacter_iff :
    (∃ c p, err = .invalidCharacter c p) ↔ ∃ c ∈ s.toList, inAlphabet c = false := by
  rcases parse_eq_error h with ⟨rfl, rfl⟩ | ⟨-, hchar, hbad⟩ |
    ⟨-, halpha, ⟨rfl, -⟩ | ⟨front, t, back, -, hblames, -⟩⟩
  · simp
  · exact iff_of_true hchar hbad
  · exact iff_of_false (by simp) (by simpa using halpha)
  · refine iff_of_false ?_ (by simpa using halpha)
    rintro ⟨c, p, rfl⟩
    exact hblames

theorem completable_of_unexpectedEnd {i : Nat} (hi : err = .unexpectedEnd i) :
    i = (cut s.toList).length ∧ Completable s := by
  subst hi
  rcases parse_eq_error h with ⟨-, ⟨⟩⟩ | ⟨-, ⟨c, p, ⟨⟩⟩, -⟩ |
    ⟨-, -, ⟨heq, hs⟩ | ⟨front, t, back, -, hblames, -⟩⟩
  · exact ⟨SyntaxError.unexpectedEnd.inj heq, hs⟩
  · exact hblames.elim

theorem justified_of_blames {i : Nat} (hi : err.Blames i) :
    i < (cut s.toList).length ∧ err.Justified i (spelling ((cut s.toList).take i))
      (spelling ((cut s.toList).take (i + 1))) := by
  rcases parse_eq_error h with ⟨-, rfl⟩ | ⟨-, ⟨c, p, rfl⟩, -⟩ |
    ⟨-, -, ⟨rfl, -⟩ | ⟨front, t, back, hts, hblames, hjust⟩⟩
  · exact hi.elim
  · exact hi.elim
  · exact hi.elim
  · obtain rfl : front.length = i := hblames.eq hi
    have htake : (cut s.toList).take (front.length + 1) = front ++ [t] := by
      rw [hts, List.append_cons, List.take_left' (by simp)]
    rw [htake, hts, List.take_left]
    exact ⟨by simp, hjust⟩

/-- A text can go on to be a filter unless the parser objects to a part of it. -/
theorem completable_iff_of_parse_eq_error :
    Completable s ↔ err = .emptyExpression ∨ ∃ i, err = .unexpectedEnd i := by
  rcases parse_eq_error h with ⟨rfl, rfl⟩ | ⟨-, ⟨c, p, rfl⟩, d, hd, hbad⟩ |
    ⟨-, -, ⟨rfl, hs⟩ | ⟨front, t, back, hts, hblames, hjust⟩⟩
  · simp [completable_empty]
  · have hnot : ¬ Completable s := fun hs => by simp [inAlphabet_of_completable hs d hd] at hbad
    simp [hnot]
  · simp [hs]
  · have hs : s = spelling (front ++ [t]) ++ spelling back := by
      rw [← spelling_append, List.append_assoc, List.singleton_append, ← hts, spelling_cut]
    have hnot : ¬ Completable s := fun hc => hjust.stuck (hs ▸ hc).of_append
    refine iff_of_false hnot ?_
    rintro (rfl | ⟨i, rfl⟩) <;> exact hblames

end Rejected

/-- The error of a rejected text is found at its first token that no filter could go on with. An
empty text and a character outside the alphabet have errors of their own. Otherwise, either the
tokens end too early, and then the text can be completed, or the error blames one of them for the
right reason. So a rejected text can be completed exactly if it is empty or ends too early. -/
theorem parse_error_located (s : String) (err : SyntaxError) (h : parse s = .error err) :
    (err = .emptyExpression ↔ s = "") ∧
      ((∃ c p, err = .invalidCharacter c p) ↔ ∃ c ∈ s.toList, inAlphabet c = false) ∧
      (∀ placed, tokenize s = .ok placed →
        s = spelling (placed.map (·.token)) ∧
        (∀ i, err = .unexpectedEnd i → i = placed.length ∧ Completable s) ∧
        ∀ i, err.Blames i → i < placed.length ∧
          err.Justified i (spelling ((placed.map (·.token)).take i))
            (spelling ((placed.map (·.token)).take (i + 1)))) ∧
      (Completable s ↔ err = .emptyExpression ∨ ∃ i, err = .unexpectedEnd i) := by
  refine ⟨emptyExpression_iff h, invalidCharacter_iff h, ?_, completable_iff_of_parse_eq_error h⟩
  intro placed hplaced
  have htokens := map_token_of_tokenize hplaced
  have hlen : placed.length = (cut s.toList).length := by rw [← htokens, List.length_map]
  rw [htokens, hlen, spelling_cut]
  exact ⟨rfl, fun i => completable_of_unexpectedEnd h, fun i => justified_of_blames h⟩

theorem parse_error_located_missing_operand :
    parse "&(@a)" = .error (.unexpectedToken 4 .comma ")") ∧ ¬ Completable "&(@a)" ∧
      (SyntaxError.unexpectedToken 4 .comma ")").Justified 4 "&(@a" "&(@a)" := by
  have h : parse "&(@a)" = .error (.unexpectedToken 4 .comma ")") := by cbv
  have htokens : tokenize "&(@a)" =
      .ok [⟨.and, 0⟩, ⟨.openParen, 1⟩, ⟨.atSign, 2⟩, ⟨.word "a", 3⟩, ⟨.closeParen, 4⟩] := by cbv
  obtain ⟨-, -, hplaced, hcompletable⟩ := parse_error_located _ _ h
  obtain ⟨-, -, hblames⟩ := hplaced _ htokens
  exact ⟨h, by simp [hcompletable], (hblames 4 rfl).2⟩

end PostFilter
