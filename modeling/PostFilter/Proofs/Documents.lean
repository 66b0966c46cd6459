import Mathlib
import PostFilter.Json.Printer
import PostFilter.Proofs.Numbers

/-!
# Documents are read back

A value is printed as a text that is read as the same value again, whatever its strings hold,
however deep it is, and on one line or over several. Reading is followed in two layers: what is
printed is cut into the tokens of the value wherever it stands, and these tokens take the reader
over the value whatever is still open around it.
-/

namespace PostFilter.Json

/-- What is printed so that it can be read back. Numbers are counts here, and not too long to be
doubles. -/
inductive Printable : Json → Prop where
  | null : Printable .null
  | bool (b : Bool) : Printable (.bool b)
  | nat {n : Nat} (h : n < 10 ^ 200) : Printable (.nat n)
  | string (s : String) : Printable (.string s)
  | array {xs : List Json} : (∀ x ∈ xs, Printable x) → Printable (.array xs)
  | object {fs : List (String × Json)} : (∀ f ∈ fs, Printable f.2) → Printable (.object fs)

mutual

/-- The tokens that spell a value. -/
def tokens : Json → List Token
  | null => [.scalar null]
  | bool b => [.scalar (bool b)]
  | number l => [.scalar (number l)]
  | string s => [.text (some s)]
  | array xs => .openArray :: (itemTokens xs ++ [.closeArray])
  | object fs => .openObject :: (fieldTokens fs ++ [.closeObject])
  | meaningless => [.text none]

def itemTokens : List Json → List Token
  | [] => []
  | [x] => x.tokens
  | x :: xs => x.tokens ++ .comma :: itemTokens xs

def fieldTokens : List (String × Json) → List Token
  | [] => []
  | [(k, v)] => .text (some k) :: .colon :: v.tokens
  | (k, v) :: fs => .text (some k) :: .colon :: (v.tokens ++ .comma :: fieldTokens fs)

end

theorem mapM_map_eq_some {α β : Type} {encode : α → β} {decode : β → Option α}
    (h : ∀ x, decode (encode x) = some x) (xs : List α) :
    (xs.map encode).mapM decode = some xs := by
  induction xs with
  | nil => rfl
  | cons x xs ih => simp [h, ih]

/-! ## String literals -/

namespace Lexer

open Printer

theorem codeUnit?_control {n : Nat} (h : n < 0x20) :
    codeUnit? '0' '0' (Nat.digitChar (n / 16)) (Nat.digitChar (n % 16)) = some n := by
  decide +revert

/-- How a character is written: by a short escape, by its code if it is a control character, or as
it is. -/
theorem escape_cases (c : Char) :
    (∃ e, e ≠ 'u' ∧ shortEscape? e = some c ∧ escape c = ['\\', e]) ∨
      (c.toNat < 0x20 ∧ escape c =
        ['\\', 'u', '0', '0', Nat.digitChar (c.toNat / 16), Nat.digitChar (c.toNat % 16)]) ∨
      (0x20 ≤ c.toNat ∧ c ≠ '"' ∧ c ≠ '\\' ∧ escape c = [c]) := by
  unfold escape
  split
  case h_8 hquote hbackslash _ _ _ _ _ =>
    split
    · next h => exact .inr (.inl ⟨h, rfl⟩)
    · next h => exact .inr (.inr ⟨Nat.le_of_not_lt h, hquote, hbackslash, rfl⟩)
  all_goals exact .inl ⟨_, by decide, rfl, rfl⟩

theorem pieces?_short {e c : Char} (he : e ≠ 'u') (hc : shortEscape? e = some c)
    (cs : List Char) :
    pieces? ('\\' :: e :: cs) = (pieces? cs).map fun r => (.char c :: r.1, r.2) := by
  rw [pieces?]
  · rw [hc]
    cases pieces? cs <;> rfl
  · exact fun _ _ _ _ _ h _ => he h

theorem pieces?_unit {a b c d : Char} {n : Nat} (h : codeUnit? a b c d = some n)
    (cs : List Char) : pieces? ('\\' :: 'u' :: a :: b :: c :: d :: cs) =
      (pieces? cs).map fun r => (.unit n :: r.1, r.2) := by
  rw [pieces?, h]
  cases pieces? cs <;> rfl

theorem pieces?_char {c : Char} (hc : 0x20 ≤ c.toNat) (hquote : c ≠ '"') (hbackslash : c ≠ '\\')
    (cs : List Char) : pieces? (c :: cs) = (pieces? cs).map fun r => (.char c :: r.1, r.2) := by
  have hplain : ¬ (c.toNat < 0x20 ∨ c = '\\') := by simp [hbackslash]; omega
  rw [pieces?]
  · rw [if_neg hplain]
    cases pieces? cs <;> rfl
  all_goals simp [hquote, hbackslash]

theorem assemble?_unit {n : Nat} (h : n < 0xD800) (ps : List Piece) :
    assemble? (.unit n :: ps) = (assemble? ps).map (Char.ofNat n :: ·) := by
  have hhigh : isHighSurrogate n = false := by simp [isHighSurrogate]; omega
  have hlow : isLowSurrogate n = false := by simp [isLowSurrogate]; omega
  cases ps with
  | nil => simp [assemble?, hhigh, hlow]
  | cons p ps => cases p <;> simp [assemble?, hhigh, hlow]

/-- Up to the closing quote, an escaped text is read as pieces that make up the text again. -/
theorem exists_pieces (cs rest : List Char) :
    ∃ ps, pieces? (cs.flatMap escape ++ '"' :: rest) = some (ps, rest) ∧
      assemble? ps = some cs := by
  induction cs with
  | nil => exact ⟨[], by simp [pieces?], rfl⟩
  | cons c cs ih =>
    obtain ⟨ps, hps, hcs⟩ := ih
    rw [List.flatMap_cons, List.append_assoc]
    rcases escape_cases c with ⟨e, he, hshort, hc⟩ | ⟨hcontrol, hc⟩ | ⟨hle, hquote, hbackslash, hc⟩
    · refine ⟨.char c :: ps, ?_, by simp [assemble?, hcs]⟩
      simp [hc, pieces?_short he hshort, hps]
    · refine ⟨.unit c.toNat :: ps, ?_, ?_⟩
      · simp [hc, pieces?_unit (codeUnit?_control hcontrol), hps]
      · rw [assemble?_unit (by omega), hcs, Option.map_some, Char.ofNat_toNat]
    · refine ⟨.char c :: ps, ?_, by simp [assemble?, hcs]⟩
      simp [hc, pieces?_char hle hquote hbackslash, hps]

/-! ## Tokens -/

/-- In front of any text into which no number runs on, `cs` is cut into the tokens `ts`. -/
def Lexes (cs : List Char) (ts : List Token) : Prop :=
  ∀ rest, EndsNumber rest → tokens? (cs ++ rest) = (tokens? rest).map (ts ++ ·)

section

variable {c : Char} {cs ds rest : List Char} {t : Token} {ts us : List Token}

theorem endsNumber_cons (h : c.isDigit = false ∧ c ≠ '.' ∧ c ≠ 'e' ∧ c ≠ 'E') (cs : List Char) :
    EndsNumber (c :: cs) := by
  rintro _ ⟨⟩
  exact h

theorem EndsNumber.append (h : EndsNumber cs) (h' : EndsNumber ds) : EndsNumber (cs ++ ds) := by
  cases cs with
  | nil => exact h'
  | cons c cs => exact h

theorem endsNumber_newline (level : Nat) : EndsNumber (newline level) :=
  endsNumber_cons (by decide) _

/-- Blanks in front do not matter. -/
theorem tokens?_eq_bind (cs : List Char) :
    tokens? cs = if (cs.dropWhile isBlank).isEmpty then some []
      else (token? (cs.dropWhile isBlank)).bind fun r => (tokens? r.2).map (r.1 :: ·) := by
  rw [tokens?]
  split
  · next hnil => simp [hnil]
  · next c text hcons =>
    rw [hcons]
    split
    · next hnone => simp [hnone]
    · next hsome => simp [hsome]

theorem tokens?_eq (hblank : isBlank c = false) (h : token? (c :: cs) = some (t, rest)) :
    tokens? (c :: cs) = (tokens? rest).map (t :: ·) := by
  simp [tokens?_eq_bind (c :: cs), hblank, h]

theorem tokens?_blank (hblank : isBlank c = true) (cs : List Char) :
    tokens? (c :: cs) = tokens? cs := by
  rw [tokens?_eq_bind, tokens?_eq_bind cs, List.dropWhile_cons_of_pos hblank]

namespace Lexes

theorem nil : Lexes [] [] := fun rest _ => by simp

/-- A value may not run on into what comes next. -/
theorem append (h : Lexes cs ts) (hends : EndsNumber ds) (h' : Lexes ds us) :
    Lexes (cs ++ ds) (ts ++ us) := by
  intro rest hrest
  rw [List.append_assoc, h _ (hends.append hrest), h' rest hrest, Option.map_map]
  simp [Function.comp_def]

/-- A character that is a token on its own, whatever comes next. -/
theorem symbol (hblank : isBlank c = false) (h : ∀ cs, token? (c :: cs) = some (t, cs))
    (h' : Lexes cs ts) : Lexes (c :: cs) (t :: ts) := by
  intro rest hrest
  rw [List.cons_append, tokens?_eq hblank (h _), h' rest hrest, Option.map_map]
  simp [Function.comp_def]

theorem comma (h : Lexes cs ts) (h' : Lexes ds us) :
    Lexes (cs ++ ',' :: ds) (ts ++ .comma :: us) :=
  h.append (endsNumber_cons (by decide) _) (h'.symbol rfl fun _ => rfl)

theorem colon (h : Lexes cs ts) (h' : Lexes ds us) :
    Lexes (cs ++ ':' :: ds) (ts ++ .colon :: us) :=
  h.append (endsNumber_cons (by decide) _) (h'.symbol rfl fun _ => rfl)

theorem blank (hblank : isBlank c = true) (h : Lexes cs ts) : Lexes (c :: cs) ts := by
  intro rest hrest
  rw [List.cons_append, tokens?_blank hblank, h rest hrest]

theorem newline (level : Nat) (h : Lexes cs ts) : Lexes (newline level ++ cs) ts := by
  have hspaces : ∀ n, Lexes (List.replicate n ' ' ++ cs) ts := by
    intro n
    induction n with
    | zero => exact h
    | succ n ih => exact ih.blank rfl
  exact (hspaces _).blank rfl

end Lexes

end

theorem lexes_string (s : String) : Lexes (quoted s) [.text (some s)] := by
  intro rest _
  obtain ⟨ps, hps, hs⟩ := exists_pieces s.toList rest
  have htoken : token? ('"' :: (s.toList.flatMap escape ++ '"' :: rest)) =
      some (.text (some s), rest) := by
    simp [token?, hps, hs]
  simpa [quoted] using tokens?_eq rfl htoken

theorem lexes_scalar {c : Char} {cs : List Char} {v : Json} (hblank : isBlank c = false)
    (h : ∀ rest, token? (c :: cs ++ rest) = some (.scalar v, rest)) :
    Lexes (c :: cs) [.scalar v] :=
  fun rest _ => tokens?_eq hblank (h rest)

theorem lexes_nat {n : Nat} (h : n < 10 ^ 200) :
    Lexes (toString n).toList [.scalar (.nat n)] := by
  intro rest hrest
  have htoken := token?_nat h hrest
  obtain ⟨d, ds, hds, hd⟩ := exists_toDigits n
  rw [Nat.toString_eq_repr, Nat.toList_repr, hds] at htoken ⊢
  have hblank : isBlank d = false := by
    rw [← Bool.not_eq_true]
    intro hd'
    have : d = ' ' ∨ d = '\t' ∨ d = '\n' ∨ d = '\r' := by simpa [isBlank, or_assoc] using hd'
    rcases this with rfl | rfl | rfl | rfl <;> simp at hd
  simpa using tokens?_eq hblank htoken

end Lexer

/-! ## Printed values -/

section

open Json.Lexer Printer

theorem lexes_compactItems {xs : List Json} (h : ∀ x ∈ xs, Lexes (Printer.compact x) x.tokens) :
    Lexes (compactItems xs) (itemTokens xs) := by
  induction xs with
  | nil => exact .nil
  | cons x xs ih =>
    have hx := h x (by simp)
    cases xs with
    | nil => exact hx
    | cons y ys =>
      have hys := ih fun y hy => h y (by simp [hy])
      exact hx.comma hys

theorem lexes_compactFields {fs : List (String × Json)}
    (h : ∀ f ∈ fs, Lexes (Printer.compact f.2) f.2.tokens) :
    Lexes (compactFields fs) (fieldTokens fs) := by
  induction fs with
  | nil => exact .nil
  | cons f fs ih =>
    obtain ⟨k, v⟩ := f
    have hv := h (k, v) (by simp)
    have hfield {cs ts} (hcs : Lexes cs ts) :
        Lexes (quoted k ++ ':' :: cs) (.text (some k) :: .colon :: ts) :=
      (lexes_string k).colon hcs
    cases fs with
    | nil => exact hfield hv
    | cons g gs =>
      have hgs := ih fun g hg => h g (by simp [hg])
      exact hfield (hv.comma hgs)

theorem lexes_compact {j : Json} (h : j.Printable) : Lexes (Printer.compact j) j.tokens := by
  induction h with
  | null => exact lexes_scalar rfl fun _ => rfl
  | bool b => cases b <;> exact lexes_scalar rfl fun _ => rfl
  | nat h => exact lexes_nat h
  | string s => exact lexes_string s
  | array _ ih =>
    have hclose : Lexes [']'] [.closeArray] := Lexes.nil.symbol rfl fun _ => rfl
    have hitems := (lexes_compactItems ih).append (endsNumber_cons (by decide) _) hclose
    exact hitems.symbol rfl fun _ => rfl
  | object _ ih =>
    have hclose : Lexes ['}'] [.closeObject] := Lexes.nil.symbol rfl fun _ => rfl
    have hfields := (lexes_compactFields ih).append (endsNumber_cons (by decide) _) hclose
    exact hfields.symbol rfl fun _ => rfl

theorem lexes_prettyItems {level : Nat} {x : Json} {xs : List Json}
    (h : ∀ y ∈ x :: xs, Lexes (Printer.pretty level y) y.tokens) :
    Lexes (Printer.pretty level x ++ prettyItems level xs) (itemTokens (x :: xs)) := by
  have hx := h x (by simp)
  induction xs generalizing x with
  | nil => simpa [prettyItems, itemTokens] using hx
  | cons y ys ih =>
    have hys := ih (fun z hz => h z (by simp [hz])) (h y (by simp))
    have hall := hx.comma (hys.newline level)
    simpa [prettyItems, itemTokens] using hall

theorem lexes_prettyFields {level : Nat} {k : String} {v : Json} {fs : List (String × Json)}
    (h : ∀ f ∈ (k, v) :: fs, Lexes (Printer.pretty level f.2) f.2.tokens) :
    Lexes (quoted k ++ ':' :: ' ' :: Printer.pretty level v ++ prettyFields level fs)
      (fieldTokens ((k, v) :: fs)) := by
  have hv := h (k, v) (by simp)
  have hfield {k cs ts} (hcs : Lexes cs ts) :
      Lexes (quoted k ++ ':' :: ' ' :: cs) (.text (some k) :: .colon :: ts) :=
    (lexes_string k).colon (hcs.blank rfl)
  induction fs generalizing k v with
  | nil => simpa [prettyFields, fieldTokens] using hfield hv
  | cons g gs ih =>
    obtain ⟨k', v'⟩ := g
    have hgs := ih (fun f hf => h f (by simp [hf])) (h (k', v') (by simp))
    have hall := hfield (k := k) (hv.comma (hgs.newline level))
    simpa [prettyFields, fieldTokens] using hall

theorem lexes_pretty {j : Json} (h : j.Printable) (level : Nat) :
    Lexes (Printer.pretty level j) j.tokens := by
  induction h generalizing level with
  | null => exact lexes_scalar rfl fun _ => rfl
  | bool b => cases b <;> exact lexes_scalar rfl fun _ => rfl
  | nat h => exact lexes_nat h
  | string s => exact lexes_string s
  | @array xs _ ih =>
    have hclose : Lexes [']'] [.closeArray] := Lexes.nil.symbol rfl fun _ => rfl
    cases xs with
    | nil => exact hclose.symbol rfl fun _ => rfl
    | cons x xs =>
      have hitems := (lexes_prettyItems fun y hy => ih y hy (level + 1)).append
        ((endsNumber_newline level).append (endsNumber_cons (by decide) _)) (hclose.newline level)
      have hopen := (hitems.newline (level + 1)).symbol (c := '[') rfl fun _ => rfl
      simpa [Printer.pretty, tokens] using hopen
  | @object fs _ ih =>
    have hclose : Lexes ['}'] [.closeObject] := Lexes.nil.symbol rfl fun _ => rfl
    cases fs with
    | nil => exact hclose.symbol rfl fun _ => rfl
    | cons f fs =>
      obtain ⟨k, v⟩ := f
      have hfields := (lexes_prettyFields fun g hg => ih g hg (level + 1)).append
        ((endsNumber_newline level).append (endsNumber_cons (by decide) _)) (hclose.newline level)
      have hopen := (hfields.newline (level + 1)).symbol (c := '{') rfl fun _ => rfl
      simpa [Printer.pretty, tokens] using hopen

end

/-! ## Read values -/

namespace Reader

/-- The tokens take the reader over the value, after a comma or at the beginning of an array. -/
structure Reads (ts : List Token) (j : Json) : Prop where
  value : ∀ stack us, run? (.value stack) (ts ++ us) = run? (.after j stack) us
  first : ∀ stack us, run? (.arrayStart stack) (ts ++ us) =
    run? (.value (.array [] :: stack)) (ts ++ us)

/-- Over the items of an array, of which there is at least one, up to its end. -/
theorem run?_itemTokens {xs : List Json} (hne : xs ≠ []) (h : ∀ x ∈ xs, Reads x.tokens x)
    (done : List Json) (stack : List Frame) (us : List Token) :
    run? (.value (.array done :: stack)) (itemTokens xs ++ .closeArray :: us) =
      run? (.after (.array (done.reverse ++ xs)) stack) us := by
  induction xs generalizing done with
  | nil => exact absurd rfl hne
  | cons x xs ih =>
    have hx := (h x (by simp)).value (.array done :: stack)
    cases xs with
    | nil => simp [itemTokens, hx, run?, step?]
    | cons y ys =>
      have hys := ih (by simp) (fun y hy => h y (by simp [hy])) (x :: done)
      simp [itemTokens, hx, run?, step?, hys]

theorem reads_array {xs : List Json} (h : ∀ x ∈ xs, Reads x.tokens x) :
    Reads (tokens (.array xs)) (.array xs) := by
  refine ⟨fun stack us => ?_, fun _ _ => rfl⟩
  cases xs with
  | nil => rfl
  | cons x xs =>
    have hrun := run?_itemTokens (List.cons_ne_nil x xs) h [] stack us
    -- A value does not begin like the end of an array, so the first item is read like any other.
    have hfirst : run? (.arrayStart stack) (itemTokens (x :: xs) ++ .closeArray :: us) =
        run? (.value (.array [] :: stack)) (itemTokens (x :: xs) ++ .closeArray :: us) := by
      have hx := (h x (by simp)).first stack
      cases xs <;> simp [itemTokens, hx]
    rw [← hfirst] at hrun
    simpa [tokens, run?, step?, value?] using hrun

theorem close_some (fs : List (String × Json)) :
    close (fs.map fun f => (some f.1, f.2)) = .object fs := by
  rw [close, mapM_map_eq_some]
  exact fun _ => rfl

theorem run?_fieldTokens {fs : List (String × Json)} (hne : fs ≠ [])
    (h : ∀ f ∈ fs, Reads f.2.tokens f.2) (done : List (Option String × Json))
    (stack : List Frame) (us : List Token) :
    run? (.key done stack) (fieldTokens fs ++ .closeObject :: us) =
      run? (.after (close (done.reverse ++ fs.map fun f => (some f.1, f.2))) stack) us := by
  induction fs generalizing done with
  | nil => exact absurd rfl hne
  | cons f fs ih =>
    obtain ⟨k, v⟩ := f
    have hv := h (k, v) (by simp)
    have hrun : ∀ us, run? (.key done stack) (.text (some k) :: .colon :: (v.tokens ++ us)) =
        run? (.after v (.object done (some k) :: stack)) us :=
      fun us => hv.value (.object done (some k) :: stack) us
    cases fs with
    | nil => simp [fieldTokens, hrun, run?, step?]
    | cons g gs =>
      have hgs := ih (by simp) (fun g hg => h g (by simp [hg])) ((some k, v) :: done)
      simp [fieldTokens, hrun, run?, step?, hgs]

theorem reads_object {fs : List (String × Json)} (h : ∀ f ∈ fs, Reads f.2.tokens f.2) :
    Reads (tokens (.object fs)) (.object fs) := by
  refine ⟨fun stack us => ?_, fun _ _ => rfl⟩
  cases fs with
  | nil => rfl
  | cons f fs =>
    have hrun := run?_fieldTokens (List.cons_ne_nil f fs) h [] stack us
    have hfirst : run? (.objectStart stack) (fieldTokens (f :: fs) ++ .closeObject :: us) =
        run? (.key [] stack) (fieldTokens (f :: fs) ++ .closeObject :: us) := by
      cases fs <;> rfl
    rw [← hfirst, List.reverse_nil, List.nil_append, close_some] at hrun
    simpa [tokens, run?, step?, value?] using hrun

theorem reads_tokens {j : Json} (h : j.Printable) : Reads j.tokens j := by
  induction h with
  | null => exact ⟨fun _ _ => rfl, fun _ _ => rfl⟩
  | bool b => exact ⟨fun _ _ => rfl, fun _ _ => rfl⟩
  | nat h => exact ⟨fun _ _ => rfl, fun _ _ => rfl⟩
  | string s => exact ⟨fun _ _ => rfl, fun _ _ => rfl⟩
  | array _ ih => exact reads_array ih
  | object _ ih => exact reads_object ih

theorem read?_tokens {j : Json} (h : j.Printable) : read? j.tokens = some j := by
  have hvalue : run? (.value []) j.tokens = some (.after j []) := by
    simpa [run?] using (reads_tokens h).value [] []
  rw [read?, hvalue]

end Reader

theorem parse?_eq_some {j : Json} (h : j.Printable) {s : String}
    (hs : Lexer.Lexes s.toList j.tokens) : parse? s = some j := by
  have hnil : Lexer.tokens? [] = some [] := by simp [Lexer.tokens?]
  have htokens : Lexer.tokens? s.toList = some j.tokens := by
    simpa [hnil] using hs [] (fun _ => nofun)
  rw [parse?, htokens]
  exact Reader.read?_tokens h

/-- Reading is inverse to printing. -/
theorem parse?_compact {j : Json} (h : j.Printable) : parse? j.compact = some j :=
  parse?_eq_some h (by simpa [compact] using lexes_compact h)

/-- Also if it takes several lines. -/
theorem parse?_pretty {j : Json} (h : j.Printable) : parse? (j.pretty ++ "\n") = some j := by
  have hline : Lexer.Lexes ['\n'] [] := Lexer.Lexes.nil.blank rfl
  have hlexes := (lexes_pretty h 0).append (Lexer.endsNumber_cons (by decide) _) hline
  exact parse?_eq_some h (by simpa [pretty] using hlexes)

end PostFilter.Json
