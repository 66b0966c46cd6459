import PostFilter.Json.Basic
import PostFilter.Json.Number
import PostFilter.Text.Hex

/-!
# JSON tokens

The lexical part of JSON. Four characters are blank. A string literal is first read as a sequence
of characters and sixteen-bit code units, and then put together; surrogate escapes have to come in
pairs to denote a character.
-/

namespace PostFilter.Json

inductive Token where
  | openArray
  | closeArray
  | openObject
  | closeObject
  | comma
  | colon
  /-- A string literal, or none if a surrogate in it is unpaired. -/
  | text (s : Option String)
  /-- A literal that is no string. -/
  | scalar (value : Json)
  deriving BEq, Repr

namespace Lexer

def isBlank (c : Char) : Bool :=
  c == ' ' || c == '\t' || c == '\n' || c == '\r'

/-! ## String literals -/

/-- A part of a string literal: a character, or a code unit written as an escape. -/
inductive Piece where
  | char (c : Char)
  | unit (n : Nat)
  deriving DecidableEq, Repr

def codeUnit? (a b c d : Char) : Option Nat :=
  match Hex.value? a, Hex.value? b, Hex.value? c, Hex.value? d with
  | some a, some b, some c, some d => some (4096 * a + 256 * b + 16 * c + d)
  | _, _, _, _ => none

/-- What a backslash and one character stand for. -/
def shortEscape? : Char → Option Char
  | '"' => some '"'
  | '\\' => some '\\'
  | '/' => some '/'
  | 'b' => some '\x08'
  | 'f' => some '\x0c'
  | 'n' => some '\n'
  | 'r' => some '\r'
  | 't' => some '\t'
  | _ => none

/-- The pieces up to the closing quote, and the text after it. Control characters have to be
escaped. -/
def pieces? : List Char → Option (List Piece × List Char)
  | [] => none
  | '"' :: cs => some ([], cs)
  | '\\' :: 'u' :: a :: b :: c :: d :: cs =>
    match codeUnit? a b c d, pieces? cs with
    | some n, some (ps, rest) => some (.unit n :: ps, rest)
    | _, _ => none
  | '\\' :: e :: cs =>
    match shortEscape? e, pieces? cs with
    | some c, some (ps, rest) => some (.char c :: ps, rest)
    | _, _ => none
  | c :: cs =>
    if c.toNat < 0x20 ∨ c = '\\' then none
    else
      match pieces? cs with
      | some (ps, rest) => some (.char c :: ps, rest)
      | none => none

def isHighSurrogate (n : Nat) : Bool := 0xD800 ≤ n && n < 0xDC00

def isLowSurrogate (n : Nat) : Bool := 0xDC00 ≤ n && n < 0xE000

/-- The characters of a literal, or none if a surrogate is unpaired. -/
def assemble? : List Piece → Option (List Char)
  | [] => some []
  | .char c :: ps => (assemble? ps).map (c :: ·)
  | .unit n :: .unit m :: ps =>
    if isHighSurrogate n then
      if isLowSurrogate m then
        (assemble? ps).map (Char.ofNat (0x10000 + 0x400 * (n - 0xD800) + (m - 0xDC00)) :: ·)
      else none
    else if isLowSurrogate n then none
    else (assemble? (.unit m :: ps)).map (Char.ofNat n :: ·)
  | .unit n :: ps =>
    if isHighSurrogate n || isLowSurrogate n then none
    else (assemble? ps).map (Char.ofNat n :: ·)

theorem length_pieces? {cs rest : List Char} {ps : List Piece}
    (h : pieces? cs = some (ps, rest)) : rest.length < cs.length := by
  fun_induction pieces? cs generalizing ps rest with
  | case1 => simp at h
  | case2 cs => simp at h; simp [h]
  | case3 a b c d cs n ps' rest' hcs _ ih =>
    simp only [Option.some.injEq, Prod.mk.injEq] at h
    have := ih hcs
    simp only [List.length_cons]
    grind
  | case4 => simp at h
  | case5 e cs _ c ps' rest' hcs _ ih =>
    simp only [Option.some.injEq, Prod.mk.injEq] at h
    have := ih hcs
    simp only [List.length_cons]
    grind
  | case6 => simp at h
  | case7 => simp at h
  | case8 c cs _ _ _ _ ps' rest' hcs ih =>
    simp only [Option.some.injEq, Prod.mk.injEq] at h
    have := ih hcs
    simp only [List.length_cons]
    grind
  | case9 => simp at h

/-! ## Number literals -/

/-- Take the longest run of digits, which may not be empty. -/
def digits? (cs : List Char) : Option (List Char × List Char) :=
  match cs.takeWhile Char.isDigit with
  | [] => none
  | ds => some (ds, cs.dropWhile Char.isDigit)

/-- The digits before the point: a zero, or a run that does not begin with one. -/
def whole? : List Char → Option (List Char × List Char)
  | '0' :: cs => some (['0'], cs)
  | cs => digits? cs

/-- A point and at least one digit, or nothing. -/
def fraction? : List Char → Option (List Char × List Char)
  | '.' :: cs => digits? cs
  | cs => some ([], cs)

/-- An exponent mark with a signed run of digits, or nothing. -/
def exponent? : List Char → Option (Int × List Char)
  | c :: cs =>
    if c = 'e' ∨ c = 'E' then
      match cs with
      | '-' :: cs => (digits? cs).map fun (ds, rest) => (-(Decimal.natOfDigits ds : Int), rest)
      | '+' :: cs => (digits? cs).map fun (ds, rest) => ((Decimal.natOfDigits ds : Int), rest)
      | cs => (digits? cs).map fun (ds, rest) => ((Decimal.natOfDigits ds : Int), rest)
    else some (0, c :: cs)
  | [] => some (0, [])

def unsigned? (cs : List Char) : Option (Decimal × List Char) :=
  match whole? cs with
  | none => none
  | some (w, cs) =>
    match fraction? cs with
    | none => none
    | some (f, cs) => (exponent? cs).map fun (e, rest) => (⟨w, f, e⟩, rest)

/-- The number at the head of a text, and the text after it. -/
def number? (cs : List Char) : Option (Json × List Char) :=
  let afterSign := match cs with
    | '-' :: cs => cs
    | cs => cs
  (unsigned? afterSign).map fun (d, rest) =>
    let literal := String.ofList (cs.take (cs.length - rest.length))
    (if (Scaled.ofDecimal d).isFinite then .number literal else .meaningless, rest)

theorem length_digits? {cs ds rest : List Char} (h : digits? cs = some (ds, rest)) :
    rest.length < cs.length := by
  have happ := congrArg List.length (List.takeWhile_append_dropWhile (p := Char.isDigit) (l := cs))
  unfold digits? at h
  split at h
  · simp at h
  · next ds' hne =>
    simp only [Option.some.injEq, Prod.mk.injEq] at h
    obtain ⟨-, rfl⟩ := h
    have : 0 < (cs.takeWhile Char.isDigit).length :=
      List.length_pos_iff.mpr hne
    simp only [List.length_append] at happ
    omega

theorem length_whole? {cs ds rest : List Char} (h : whole? cs = some (ds, rest)) :
    rest.length < cs.length := by
  unfold whole? at h
  split at h
  · simp only [Option.some.injEq, Prod.mk.injEq] at h
    simp [h]
  · exact length_digits? h

theorem length_fraction? {cs ds rest : List Char} (h : fraction? cs = some (ds, rest)) :
    rest.length ≤ cs.length := by
  unfold fraction? at h
  split at h
  · have := length_digits? h
    simp only [List.length_cons]
    omega
  · simp only [Option.some.injEq, Prod.mk.injEq] at h
    simp [h]

theorem length_exponent? {cs rest : List Char} {e : Int} (h : exponent? cs = some (e, rest)) :
    rest.length ≤ cs.length := by
  unfold exponent? at h
  split at h
  · split at h
    · split at h <;>
      · simp only [Option.map_eq_some_iff, Prod.exists, Prod.mk.injEq] at h
        obtain ⟨ds, r, hd, -, rfl⟩ := h
        have := length_digits? hd
        simp only [List.length_cons] at *
        omega
    · simp only [Option.some.injEq, Prod.mk.injEq] at h
      simp [← h.2]
  · simp only [Option.some.injEq, Prod.mk.injEq] at h
    simp [← h.2]

theorem length_unsigned? {cs rest : List Char} {d : Decimal}
    (h : unsigned? cs = some (d, rest)) : rest.length < cs.length := by
  unfold unsigned? at h
  split at h
  · simp at h
  · next w r hw =>
    split at h
    · simp at h
    · next f r' hf =>
      simp only [Option.map_eq_some_iff, Prod.exists, Prod.mk.injEq] at h
      obtain ⟨e, r'', he, -, rfl⟩ := h
      have := length_whole? hw
      have := length_fraction? hf
      have := length_exponent? he
      omega

theorem length_number? {cs rest : List Char} {j : Json} (h : number? cs = some (j, rest)) :
    rest.length < cs.length := by
  unfold number? at h
  simp only [Option.map_eq_some_iff, Prod.exists, Prod.mk.injEq] at h
  obtain ⟨d, r, hu, -, rfl⟩ := h
  have := length_unsigned? hu
  split at this
  · simp only [List.length_cons]
    omega
  · exact this

/-! ## Tokens -/

/-- The token at the head of a text that does not begin with a blank, and the text after it. -/
def token? : List Char → Option (Token × List Char)
  | '[' :: cs => some (.openArray, cs)
  | ']' :: cs => some (.closeArray, cs)
  | '{' :: cs => some (.openObject, cs)
  | '}' :: cs => some (.closeObject, cs)
  | ',' :: cs => some (.comma, cs)
  | ':' :: cs => some (.colon, cs)
  | '"' :: cs =>
    (pieces? cs).map fun (ps, rest) => (.text ((assemble? ps).map String.ofList), rest)
  | 'n' :: 'u' :: 'l' :: 'l' :: cs => some (.scalar .null, cs)
  | 't' :: 'r' :: 'u' :: 'e' :: cs => some (.scalar (.bool true), cs)
  | 'f' :: 'a' :: 'l' :: 's' :: 'e' :: cs => some (.scalar (.bool false), cs)
  | cs => (number? cs).map fun (n, rest) => (.scalar n, rest)

theorem length_token? {cs rest : List Char} {t : Token} (h : token? cs = some (t, rest)) :
    rest.length < cs.length := by
  unfold token? at h
  split at h
  case h_7 cs =>
    simp only [Option.map_eq_some_iff, Prod.exists, Prod.mk.injEq] at h
    obtain ⟨ps, r, hp, -, rfl⟩ := h
    have := length_pieces? hp
    simp only [List.length_cons]
    omega
  case h_11 cs _ _ _ _ _ _ _ _ _ _ =>
    simp only [Option.map_eq_some_iff, Prod.exists, Prod.mk.injEq] at h
    obtain ⟨n, r, hn, -, rfl⟩ := h
    exact length_number? hn
  all_goals
    simp only [Option.some.injEq, Prod.mk.injEq] at h
    obtain ⟨-, rfl⟩ := h
    simp only [List.length_cons]
    omega

/-- The tokens of a text. -/
def tokens? (cs : List Char) : Option (List Token) :=
  match _hd : cs.dropWhile isBlank with
  | [] => some []
  | c :: text =>
    match _ht : token? (c :: text) with
    | none => none
    | some (t, rest) => (tokens? rest).map (t :: ·)
termination_by cs.length
decreasing_by
  have h₁ := length_token? _ht
  have h₂ := (List.dropWhile_sublist isBlank (l := cs)).length_le
  rw [_hd] at h₂
  omega

end Lexer

end PostFilter.Json
