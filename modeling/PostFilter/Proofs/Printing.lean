import PostFilter.Filter.Expr
import PostFilter.Proofs.Lexing

/-!
# Printed forms

The filter notation can be read from the left: a sign tells the construction, and a name ends where
its word characters end. So the text tells which tree it begins with, and where that tree ends,
however deep it is. The tree form tells as much, by the words in front of its parentheses. Names
with other characters can spell notation. Such names are found out by the two printed forms
together, since these put different numbers of parentheses around the same tree.
-/

namespace PostFilter

namespace Lexer

theorem takeWhile_append_of_stops {name rest : List Char} (h : ∀ c ∈ name, isWordChar c = true)
    (hrest : Stops rest) : (name ++ rest).takeWhile isWordChar = name := by
  rw [List.takeWhile_append_of_pos h]
  cases rest with
  | nil => simp
  | cons c cs => simp [hrest c rfl]

theorem name_append_inj {m n : String} {r r' : List Char}
    (hm : ∀ c ∈ m.toList, isWordChar c = true) (hn : ∀ c ∈ n.toList, isWordChar c = true)
    (hr : Stops r) (hr' : Stops r') (h : m.toList ++ r = n.toList ++ r') : m = n ∧ r = r' := by
  have hnames : m.toList = n.toList := by
    rw [← takeWhile_append_of_stops hm hr, h, takeWhile_append_of_stops hn hr']
  exact ⟨String.toList_inj.mp hnames, List.append_cancel_left (hnames ▸ h)⟩

end Lexer

namespace Expr

open Lexer

/-! ## Reading from the left -/

/-- There are only word characters in the names. A name may be empty. -/
def WordNamed : Expr → Prop
  | author n | tag n => ∀ c ∈ n.toList, isWordChar c = true
  | not e => e.WordNamed
  | and a b | or a b => a.WordNamed ∧ b.WordNamed

theorem NamesValid.wordNamed {e : Expr} (h : e.NamesValid) : e.WordNamed := by
  induction e with
  | author u => exact (isName_iff.mp h).2
  | tag l => exact (isName_iff.mp h).2
  | not e ih => exact ih h
  | and a b iha ihb => exact ⟨iha h.1, ihb h.2⟩
  | or a b iha ihb => exact ⟨iha h.1, ihb h.2⟩

/-- A text that begins with the tree `a` begins with no other tree, and goes on after it in one way
only. -/
def Delimited (a : Expr) : Prop :=
  ∀ (b : Expr) (r r' : List Char), b.WordNamed → Stops r → Stops r' →
    a.filterChars ++ r = b.filterChars ++ r' → a = b ∧ r = r'

/-- The operands of a binary operator are told apart by the comma between them. -/
theorem Delimited.operands_inj {a b a' b' : Expr} (ha : a.Delimited) (hb : b.Delimited)
    (ha' : a'.WordNamed) (hb' : b'.WordNamed) {r r' : List Char}
    (h : a.filterChars ++ ',' :: (b.filterChars ++ ')' :: r) =
      a'.filterChars ++ ',' :: (b'.filterChars ++ ')' :: r')) :
    a = a' ∧ b = b' ∧ r = r' := by
  have hcomma := stops_symbol (t := .comma) rfl
  have hclose := stops_symbol (t := .closeParen) rfl
  obtain ⟨haa', hrest⟩ := ha a' _ _ ha' (hcomma _) (hcomma _) h
  obtain ⟨hbb', hrest⟩ := hb b' _ _ hb' (hclose r) (hclose r') (List.cons.inj hrest).2
  exact ⟨haa', hbb', (List.cons.inj hrest).2⟩

theorem WordNamed.delimited {a : Expr} (ha : a.WordNamed) : a.Delimited := by
  -- the sign at the front leaves only one construction for the other tree
  induction a with
  | author u =>
    intro b r r' hb hr hr' h
    cases b with
    | author v =>
      obtain ⟨rfl, hrest⟩ := name_append_inj ha hb hr hr' (by simpa [filterChars] using h)
      exact ⟨rfl, hrest⟩
    | _ => simp [filterChars] at h
  | tag l =>
    intro b r r' hb hr hr' h
    cases b with
    | tag m =>
      obtain ⟨rfl, hrest⟩ := name_append_inj ha hb hr hr' (by simpa [filterChars] using h)
      exact ⟨rfl, hrest⟩
    | _ => simp [filterChars] at h
  | not e ih =>
    intro b r r' hb hr hr' h
    cases b with
    | not e' =>
      have hclose := stops_symbol (t := .closeParen) rfl
      obtain ⟨rfl, hrest⟩ := ih ha e' _ _ hb (hclose r) (hclose r')
        (by simpa [filterChars, Token.chars] using h)
      exact ⟨rfl, (List.cons.inj hrest).2⟩
    | _ => simp [filterChars] at h
  | and a₁ a₂ ih₁ ih₂ =>
    intro b r r' hb hr hr' h
    cases b with
    | and b₁ b₂ =>
      obtain ⟨rfl, rfl, hrest⟩ := Delimited.operands_inj (ih₁ ha.1) (ih₂ ha.2) hb.1 hb.2
        (by simpa [filterChars] using h)
      exact ⟨rfl, hrest⟩
    | _ => simp [filterChars] at h
  | or a₁ a₂ ih₁ ih₂ =>
    intro b r r' hb hr hr' h
    cases b with
    | or b₁ b₂ =>
      obtain ⟨rfl, rfl, hrest⟩ := Delimited.operands_inj (ih₁ ha.1) (ih₂ ha.2) hb.1 hb.2
        (by simpa [filterChars] using h)
      exact ⟨rfl, hrest⟩
    | _ => simp [filterChars] at h

theorem WordNamed.eq_of_filterText {a b : Expr} (ha : a.WordNamed) (hb : b.WordNamed)
    (h : a.filterText = b.filterText) : a = b := by
  have hchars : a.filterChars = b.filterChars := String.ofList_injective h
  have hstops : Stops [] := by simp [Stops]
  exact (ha.delimited b [] [] hb hstops hstops (by rw [hchars])).1

/-! ## Counting characters -/

/-- The characters of all names, from left to right. -/
def nameChars : Expr → List Char
  | author n | tag n => n.toList
  | not e => e.nameChars
  | and a b | or a b => a.nameChars ++ b.nameChars

theorem wordNamed_iff (e : Expr) : e.WordNamed ↔ ∀ c ∈ e.nameChars, isWordChar c = true := by
  induction e with
  | author u => rfl
  | tag l => rfl
  | not e ih => exact ih
  | and a b iha ihb => simp [WordNamed, nameChars, iha, ihb, or_imp, forall_and]
  | or a b iha ihb => simp [WordNamed, nameChars, iha, ihb, or_imp, forall_and]

/-- How many operators have two operands. -/
def pairs : Expr → Nat
  | author _ | tag _ => 0
  | not e => e.pairs
  | and a b | or a b => a.pairs + b.pairs + 1

/-- How many operators have one operand. -/
def negations : Expr → Nat
  | author _ | tag _ => 0
  | not e => e.negations + 1
  | and a b | or a b => a.negations + b.negations

/-- The filter notation has a pair of parentheses for each operator. -/
theorem count_openParen_filterChars (e : Expr) :
    e.filterChars.count '(' = e.nameChars.count '(' + e.pairs + e.negations := by
  induction e with
  | author u => simp [filterChars, nameChars, pairs, negations]
  | tag l => simp [filterChars, nameChars, pairs, negations]
  | not e ih => simp [filterChars, nameChars, pairs, negations, ih]; omega
  | and a b iha ihb => simp [filterChars, nameChars, pairs, negations, iha, ihb]; omega
  | or a b iha ihb => simp [filterChars, nameChars, pairs, negations, iha, ihb]; omega

theorem count_not_filterChars (e : Expr) :
    e.filterChars.count '!' = e.nameChars.count '!' + e.negations := by
  induction e with
  | author u => simp [filterChars, nameChars, negations]
  | tag l => simp [filterChars, nameChars, negations]
  | not e ih => simp [filterChars, nameChars, negations, ih]; omega
  | and a b iha ihb => simp [filterChars, nameChars, negations, iha, ihb]; omega
  | or a b iha ihb => simp [filterChars, nameChars, negations, iha, ihb]; omega

/-- What stands between the parentheses in the tree form. -/
def treeBody : Expr → List Char
  | author n | tag n => n.toList
  | not e => e.treeChars
  | and a b | or a b => a.treeChars ++ ',' :: b.treeChars

theorem treeChars_eq (e : Expr) : e.treeChars = e.kind.toList ++ '(' :: (e.treeBody ++ [')']) := by
  cases e <;> unfold treeChars <;> simp [kind, treeBody]

theorem isName_kind (e : Expr) : isName e.kind = true := by
  cases e <;> simp [kind, isName, isWordChar]

/-- The tree form has a pair of parentheses for each operator and for each leaf. -/
theorem count_treeChars {c : Char} (hc : isWordChar c = false) (e : Expr) :
    e.treeChars.count c = e.nameChars.count c +
      (2 * e.pairs + e.negations + 1) * ['(', ')'].count c + e.pairs * [','].count c := by
  have hkind (e : Expr) : e.kind.toList.count c = 0 := by
    refine List.count_eq_zero_of_not_mem fun hmem => ?_
    simp [(isName_iff.mp e.isName_kind).2 c hmem] at hc
  have hform (e : Expr) : e.treeChars.count c = e.treeBody.count c + ['(', ')'].count c := by
    simp only [treeChars_eq, List.count_append, hkind, List.count_cons, List.count_nil]
    omega
  have hcomma (cs : List Char) : (',' :: cs).count c = cs.count c + [','].count c := by
    simp only [List.count_cons, List.count_nil, Nat.zero_add]
  induction e with
  | author u => simp [hform, treeBody, nameChars, pairs, negations]
  | tag l => simp [hform, treeBody, nameChars, pairs, negations]
  | not e ih =>
    rw [hform, treeBody, ih, nameChars, pairs, negations]
    ring
  | and a b iha ihb =>
    rw [hform, treeBody, List.count_append, hcomma, iha, ihb, nameChars, List.count_append, pairs,
      negations]
    ring
  | or a b iha ihb =>
    rw [hform, treeBody, List.count_append, hcomma, iha, ihb, nameChars, List.count_append, pairs,
      negations]
    ring

theorem WordNamed.count_nameChars {e : Expr} (h : e.WordNamed) {c : Char}
    (hc : isWordChar c = false) : e.nameChars.count c = 0 := by
  refine List.count_eq_zero_of_not_mem fun hmem => ?_
  simp [e.wordNamed_iff.mp h c hmem] at hc

/-- Both printed forms together tell a tree from any other, if only word characters are in the names
of one of the two. -/
theorem eq_of_printed_alike {e e' : Expr} (he' : e'.WordNamed)
    (htext : e.filterText = e'.filterText) (htree : e.render = e'.render) : e = e' := by
  have hfilter : e.filterChars = e'.filterChars := String.ofList_injective htext
  have hrender : e.treeChars = e'.treeChars := String.ofList_injective htree
  have htreeCount {c : Char} (hc : isWordChar c = false) : e.nameChars.count c +
      (2 * e.pairs + e.negations + 1) * ['(', ')'].count c + e.pairs * [','].count c =
      (2 * e'.pairs + e'.negations + 1) * ['(', ')'].count c + e'.pairs * [','].count c := by
    rw [← count_treeChars hc, hrender, count_treeChars hc, he'.count_nameChars hc, Nat.zero_add]
  -- An exclamation mark is a negation in one form and belongs to a name in the other. An operator
  -- with two operands adds one parenthesis to the filter notation and two to the tree form.
  have hnot : e.negations = e'.negations := by
    have htree := htreeCount (c := '!') (by decide)
    have hfilter := congrArg (List.count '!') hfilter
    rw [count_not_filterChars, count_not_filterChars, he'.count_nameChars (by decide)] at hfilter
    simp at htree
    omega
  have hpairs : e.pairs = e'.pairs := by
    have htree := htreeCount (c := '(') (by decide)
    have hfilter := congrArg (List.count '(') hfilter
    rw [count_openParen_filterChars, count_openParen_filterChars,
      he'.count_nameChars (by decide)] at hfilter
    simp at htree
    omega
  have he : e.WordNamed := by
    refine e.wordNamed_iff.mpr fun c hmem => ?_
    by_contra hc
    have hcount := htreeCount (c := c) (by simpa using hc)
    rw [hnot, hpairs] at hcount
    have hpos := List.count_pos_iff.mpr hmem
    omega
  exact he.eq_of_filterText he' htext

/-! ## The tree form from the left -/

/-- A word stands in front of the first parenthesis, so this tells which construction it is. A name
comes after it, also if it is spelled like a construction. -/
theorem treeChars_append_eq {a b : Expr} {r r' : List Char}
    (h : a.treeChars ++ r = b.treeChars ++ r') :
    a.kind = b.kind ∧ a.treeBody ++ ')' :: r = b.treeBody ++ ')' :: r' := by
  have hopen := stops_symbol (t := .openParen) rfl
  have hword (e : Expr) := (isName_iff.mp e.isName_kind).2
  obtain ⟨hkind, hrest⟩ := name_append_inj (hword a) (hword b) (hopen _) (hopen _)
    (by simpa [treeChars_eq, Token.chars] using h)
  exact ⟨hkind, (List.cons.inj hrest).2⟩

/-- Since the form ends with a parenthesis of its own, it does not matter what comes after it. -/
theorem WordNamed.treeChars_append_inj {a b : Expr} (ha : a.WordNamed) (hb : b.WordNamed)
    {r r' : List Char} (h : a.treeChars ++ r = b.treeChars ++ r') : a = b ∧ r = r' := by
  have hclose := stops_symbol (t := .closeParen) rfl
  -- the word in front leaves only one construction for the other tree
  induction a generalizing b r r' with
  | author u =>
    obtain ⟨hkind, hbody⟩ := treeChars_append_eq h
    cases b with
    | author v =>
      obtain ⟨rfl, hrest⟩ := name_append_inj ha hb (hclose r) (hclose r') hbody
      exact ⟨rfl, (List.cons.inj hrest).2⟩
    | _ => simp [kind] at hkind
  | tag l =>
    obtain ⟨hkind, hbody⟩ := treeChars_append_eq h
    cases b with
    | tag m =>
      obtain ⟨rfl, hrest⟩ := name_append_inj ha hb (hclose r) (hclose r') hbody
      exact ⟨rfl, (List.cons.inj hrest).2⟩
    | _ => simp [kind] at hkind
  | not e ih =>
    obtain ⟨hkind, hbody⟩ := treeChars_append_eq h
    cases b with
    | not e' =>
      obtain ⟨rfl, hrest⟩ := ih (b := e') ha hb hbody
      exact ⟨rfl, (List.cons.inj hrest).2⟩
    | _ => simp [kind] at hkind
  | and a₁ a₂ ih₁ ih₂ =>
    obtain ⟨hkind, hbody⟩ := treeChars_append_eq h
    cases b with
    | and b₁ b₂ =>
      obtain ⟨rfl, hcomma⟩ := ih₁ ha.1 hb.1 (by simpa [treeBody] using hbody)
      obtain ⟨rfl, hrest⟩ := ih₂ ha.2 hb.2 (List.cons.inj hcomma).2
      exact ⟨rfl, (List.cons.inj hrest).2⟩
    | _ => simp [kind] at hkind
  | or a₁ a₂ ih₁ ih₂ =>
    obtain ⟨hkind, hbody⟩ := treeChars_append_eq h
    cases b with
    | or b₁ b₂ =>
      obtain ⟨rfl, hcomma⟩ := ih₁ ha.1 hb.1 (by simpa [treeBody] using hbody)
      obtain ⟨rfl, hrest⟩ := ih₂ ha.2 hb.2 (List.cons.inj hcomma).2
      exact ⟨rfl, (List.cons.inj hrest).2⟩
    | _ => simp [kind] at hkind

theorem WordNamed.eq_of_render {a b : Expr} (ha : a.WordNamed) (hb : b.WordNamed)
    (h : a.render = b.render) : a = b := by
  have hchars : a.treeChars = b.treeChars := String.ofList_injective h
  have happend : a.treeChars ++ [] = b.treeChars ++ [] := by rw [hchars]
  exact (ha.treeChars_append_inj hb happend).1

end Expr

end PostFilter
