import PostFilter.Post.IdSet
import PostFilter.Proofs.PostIds
import PostFilter.Proofs.Tokenization

/-!
# Identifiers as texts

An identifier has one text in lowercase, and the texts that are read as it differ from this one in
the case of their letters only. Identifiers and their texts are in the same order. Since digits take
one byte each, a text can also be read by positions, two bytes at a time.
-/

namespace PostFilter

namespace Hex

variable {c : Char} {n : Nat} {cs : List Char} {bs : List UInt8}

/-! ## Digits -/

instance (c : Char) : Decidable (IsDigit c) :=
  inferInstanceAs (Decidable (_ ∨ _))

theorem isDigit_iff_toNat : IsDigit c ↔ 48 ≤ c.toNat ∧ c.toNat ≤ 57 ∨
    97 ≤ c.toNat ∧ c.toNat ≤ 102 ∨ 65 ≤ c.toNat ∧ c.toNat ≤ 70 := by
  simp only [IsDigit, Char.le_def, UInt32.le_iff_toNat_le]
  rfl

/-- What holds of all digits among the first 128 characters holds of all digits. -/
theorem exists_ofNat_of_isDigit (h : IsDigit c) : ∃ m : Fin 128, Char.ofNat m = c := by
  have hlt : c.toNat < 128 := by
    rw [isDigit_iff_toNat] at h
    omega
  exact ⟨⟨c.toNat, hlt⟩, c.ofNat_toNat⟩

theorem isWordChar_of_isDigit (h : IsDigit c) : isWordChar c = true := by
  obtain ⟨m, rfl⟩ := exists_ofNat_of_isDigit h
  revert m
  decide +kernel

theorem digitChar_of_value? (h : value? c = some n) : n < 16 ∧ Nat.digitChar n = c.toLower := by
  obtain ⟨m, rfl⟩ := exists_ofNat_of_isDigit (exists_value?_iff.mp ⟨n, h⟩)
  have hall : ∀ m : Fin 128, ∀ n ∈ value? (Char.ofNat m),
      n < 16 ∧ Nat.digitChar n = (Char.ofNat m).toLower := by
    decide +kernel
  exact hall m n h

theorem isDigit_of_toLower (h : IsDigit c.toLower) : IsDigit c := by
  by_cases hascii : c.toNat < 128
  · have hall : ∀ m : Fin 128, IsDigit (Char.ofNat m).toLower → IsDigit (Char.ofNat m) := by
      decide +kernel
    have hc : Char.ofNat (⟨c.toNat, hascii⟩ : Fin 128) = c := c.ofNat_toNat
    rw [← hc] at h ⊢
    exact hall _ h
  · -- only ASCII letters have another form
    have hsame : c.toLower = c := by
      rw [Char.toLower, dif_neg]
      rintro ⟨-, hle⟩
      have : c.toNat ≤ 90 := UInt32.le_iff_toNat_le.mp hle
      omega
    rwa [hsame] at h

theorem digitChar_lt_iff {m n : Nat} (hm : m < 16) (hn : n < 16) :
    Nat.digitChar m < Nat.digitChar n ↔ m < n := by
  have hall : ∀ m < 16, ∀ n < 16, (Nat.digitChar m < Nat.digitChar n ↔ m < n) := by decide
  exact hall m hm n hn

theorem digitChar_inj {m n : Nat} (hm : m < 16) (hn : n < 16) :
    Nat.digitChar m = Nat.digitChar n ↔ m = n := by
  have hall : ∀ m < 16, ∀ n < 16, (Nat.digitChar m = Nat.digitChar n ↔ m = n) := by decide
  exact hall m hm n hn

/-! ## Digits in pairs -/

theorem chars_lt_iff (as bs : List UInt8) : chars as < chars bs ↔ as < bs := by
  induction as generalizing bs with
  | nil => cases bs <;> simp [chars, byteChars]
  | cons a as ih =>
    cases bs with
    | nil => simp [chars, byteChars]
    | cons b bs =>
      have ha : a.toNat < 256 := a.toNat_lt
      have hb : b.toNat < 256 := b.toNat_lt
      have hlt : a < b ↔ a.toNat / 16 < b.toNat / 16 ∨
          a.toNat / 16 = b.toNat / 16 ∧ a.toNat % 16 < b.toNat % 16 := by
        rw [UInt8.lt_iff_toNat_lt]
        omega
      have heq : a = b ↔ a.toNat / 16 = b.toNat / 16 ∧ a.toNat % 16 = b.toNat % 16 := by
        rw [← UInt8.toNat_inj]
        omega
      have hrest : as.flatMap byteChars < bs.flatMap byteChars ↔ as < bs := ih bs
      simp only [chars, List.flatMap_cons, byteChars, List.cons_append, List.nil_append,
        List.cons_lt_cons_iff, hrest, hlt, heq,
        digitChar_lt_iff (m := a.toNat / 16) (n := b.toNat / 16) (by omega) (by omega),
        digitChar_inj (m := a.toNat / 16) (n := b.toNat / 16) (by omega) (by omega),
        digitChar_lt_iff (m := a.toNat % 16) (n := b.toNat % 16) (by omega) (by omega),
        digitChar_inj (m := a.toNat % 16) (n := b.toNat % 16) (by omega) (by omega),
        and_or_left, or_assoc, and_assoc]

theorem chars_of_bytes? (h : bytes? cs = some bs) : chars bs = cs.map Char.toLower := by
  fun_induction bytes? cs generalizing bs with
  | case1 =>
    cases h
    rfl
  | case2 c => cases h
  | case3 a b cs x y bs' hcs hb ha ih =>
    cases h
    obtain ⟨hx, hx'⟩ := digitChar_of_value? ha
    obtain ⟨hy, hy'⟩ := digitChar_of_value? hb
    have hbyte : (UInt8.ofNat (16 * x + y)).toNat = 16 * x + y := by
      rw [UInt8.toNat_ofNat']
      omega
    have hhigh : (16 * x + y) / 16 = x := by omega
    have hlow : (16 * x + y) % 16 = y := by omega
    have hrest : bs'.flatMap byteChars = cs.map Char.toLower := ih hcs
    simp only [chars, List.flatMap_cons, byteChars, hbyte, hhigh, hlow, hx', hy', hrest,
      List.map_cons, List.cons_append, List.nil_append]
  | case4 a b cs hnone => cases h

/-! ## Reading by positions -/

/-- The byte is the code of a digit. -/
def IsDigitByte (b : UInt8) : Prop :=
  IsDigit (Char.ofNat b.toNat)

/-- The value of some digits after digits with the value `n`. -/
def valueAfter? (n : Nat) : List Char → Option Nat
  | [] => some n
  | c :: cs =>
    match value? c with
    | some d => valueAfter? (16 * n + d) cs
    | none => none

/-- Read a number below 256 in base sixteen. A plus sign may stand in front of its digits. -/
def number? (s : String) : Option UInt8 :=
  let digits := match s.toList with
    | '+' :: c :: cs => c :: cs
    | cs => cs
  match digits, valueAfter? 0 digits with
  | _ :: _, some n => if n < 256 then some (UInt8.ofNat n) else none
  | _, _ => none

theorem not_isDigitByte {b : UInt8} (h : 128 ≤ b.toNat) : ¬ IsDigitByte b := by
  have hvalid : b.toNat.isValidChar := .inl (b.toNat_lt.trans (by decide))
  rw [IsDigitByte, isDigit_iff_toNat, Char.toNat_ofNat, if_pos hvalid]
  omega

/-- The bytes of a character are codes of digits only if it is a digit itself. -/
theorem forall_isDigitByte_iff :
    (∀ b ∈ String.utf8EncodeChar c, IsDigitByte b) ↔ IsDigit c := by
  have hval : c.val.toNat = c.toNat := rfl
  by_cases hascii : c.toNat ≤ 127
  · have hbyte : (UInt8.ofNat c.toNat).toNat = c.toNat := by
      rw [UInt8.toNat_ofNat']
      omega
    simp [String.utf8EncodeChar, hval, hascii, IsDigitByte, hbyte, Char.ofNat_toNat]
  · refine iff_of_false (fun h => ?_) fun h => ?_
    · -- the first byte of a longer character is at least 192
      have hfirst : ∃ b ∈ String.utf8EncodeChar c, 128 ≤ b.toNat := by
        simp only [String.utf8EncodeChar, hval, if_neg hascii]
        split_ifs <;> refine ⟨_, List.mem_cons_self, ?_⟩ <;> rw [UInt8.toNat_ofNat'] <;> omega
      obtain ⟨b, hb, hge⟩ := hfirst
      exact not_isDigitByte hge (h b hb)
    · rw [isDigit_iff_toNat] at h
      omega

theorem utf8ByteSize_ofList (h : ∀ c ∈ cs, IsDigit c) :
    (String.ofList cs).utf8ByteSize = cs.length :=
  Lexer.utf8ByteSize_ofList_of_inAlphabet fun c hc => by
    simp [Lexer.inAlphabet, isWordChar_of_isDigit (h c hc)]

/-- Two digits are read as the byte that they stand for. -/
theorem number?_pair {x y : Char} {m n : Nat} (hx : value? x = some m) (hy : value? y = some n) :
    number? (String.ofList [x, y]) = some (UInt8.ofNat (16 * m + n)) := by
  obtain ⟨hm, -⟩ := digitChar_of_value? hx
  obtain ⟨hn, -⟩ := digitChar_of_value? hy
  have hplus : x ≠ '+' := by
    rintro rfl
    cases hx
  have hlt : 16 * m + n < 256 := by omega
  simp [number?, valueAfter?, hx, hy, hplus, hlt]

/-- Every byte is read from the two digits at its place. -/
theorem exists_pair_of_bytes? (h : bytes? cs = some bs) {i : Nat} (hi : i < bs.length) :
    ∃ before pair after, cs = before ++ pair ++ after ∧ before.length = 2 * i ∧
      pair.length = 2 ∧ number? (String.ofList pair) = bs[i]? := by
  fun_induction bytes? cs generalizing bs i with
  | case1 =>
    cases h
    simp at hi
  | case2 c => cases h
  | case3 a b cs x y bs' hcs hb ha ih =>
    cases h
    cases i with
    | zero => exact ⟨[], [a, b], cs, rfl, rfl, rfl, number?_pair ha hb⟩
    | succ i =>
      obtain ⟨before, pair, after, rfl, hbefore, hpair, hread⟩ :=
        ih hcs (Nat.lt_of_succ_lt_succ hi)
      exact ⟨a :: b :: before, pair, after, rfl, by simp [hbefore]; omega, hpair, hread⟩
  | case4 a b cs hnone => cases h

end Hex

namespace PostId

open Lexer (IsSlice)

variable {s : String} {x y : PostId}

/-! ## Texts -/

theorem ofHex?_eq_some_iff : ofHex? s = some x ↔ Hex.bytes? s.toList = some x.bytes := by
  unfold ofHex?
  split
  · next hnone => simp [hnone]
  · next bs hbs =>
    rw [hbs]
    constructor
    · intro h
      split at h
      · cases h
        rfl
      · cases h
    · rintro ⟨rfl⟩
      simp [x.length_bytes]

/-- The text of what is read is the text that was given, in lowercase. -/
theorem hex_of_ofHex? (h : ofHex? s = some x) : x.hex = s.map Char.toLower := by
  rw [← String.toList_inj, String.toList_map, hex, String.toList_ofList]
  exact Hex.chars_of_bytes? (ofHex?_eq_some_iff.mp h)

/-- A text can be checked byte by byte before it is read. -/
theorem isText_iff_bytes :
    IsText s ↔ s.utf8ByteSize = 24 ∧ ∀ b ∈ s.toUTF8.data, Hex.IsDigitByte b := by
  have hbytes : (∀ b ∈ s.toUTF8.data, Hex.IsDigitByte b) ↔ ∀ c ∈ s.toList, Hex.IsDigit c := by
    simp only [← Hex.forall_isDigitByte_iff]
    conv_lhs => rw [← String.ofList_toList (s := s)]
    rw [String.toUTF8_eq_toByteArray, String.toByteArray_ofList, List.utf8Encode,
      List.data_toByteArray]
    simp only [List.mem_toArray, List.mem_flatMap]
    grind
  rw [hbytes, IsText]
  refine and_congr_left fun h => ?_
  have hsize := Hex.utf8ByteSize_ofList h
  rw [String.ofList_toList] at hsize
  rw [hsize]

/-- No slice of two bytes cuts a character, and each is read as a number. -/
theorem exists_slice_of_ofHex? (h : ofHex? s = some x) {i : Nat} (hi : i < 12) :
    ∃ pair b, IsSlice s (2 * i) (2 * i + 2) pair ∧ Hex.number? pair = some b ∧
      x.bytes[i]? = some b := by
  have hbytes := ofHex?_eq_some_iff.mp h
  obtain ⟨-, hdigits⟩ := Hex.digits_of_bytes? hbytes
  have hlt : i < x.bytes.length := by rwa [x.length_bytes]
  obtain ⟨before, pair, after, hs, hbefore, hpair, hread⟩ := Hex.exists_pair_of_bytes? hbytes hlt
  rw [hs] at hdigits
  have hsize : (String.ofList before).utf8ByteSize = 2 * i := by
    rw [Hex.utf8ByteSize_ofList fun c hc => hdigits c (by simp [hc]), hbefore]
  have hsize' : (String.ofList pair).utf8ByteSize = 2 := by
    rw [Hex.utf8ByteSize_ofList fun c hc => hdigits c (by simp [hc]), hpair]
  have happend : s = String.ofList before ++ String.ofList pair ++ String.ofList after := by
    rw [← String.ofList_append, ← String.ofList_append, ← hs, String.ofList_toList]
  have hslice := Lexer.isSlice_of_eq_append happend
  rw [hsize, hsize'] at hslice
  have hget : x.bytes[i]? = some (x.bytes.get ⟨i, hlt⟩) := List.getElem?_eq_getElem hlt
  exact ⟨_, _, hslice, hread.trans hget, hget⟩

/-! ## Order -/

theorem hex_lt_hex_iff : x.hex < y.hex ↔ x < y := by
  rw [String.lt_iff_toList_lt, hex, hex, String.toList_ofList, String.toList_ofList]
  exact Hex.chars_lt_iff x.bytes y.bytes

/-! ## Reading -/

theorem parse_eq_ok_iff : parse s = .ok x ↔ ofHex? s = some x := by
  unfold parse
  split <;> simp [*]

theorem parse_eq_error_iff {e : MalformedId} :
    parse s = .error e ↔ ¬ IsText s ∧ e.value = s := by
  rw [isText_iff]
  cases e
  unfold parse
  split <;> simp [*, eq_comm]

/-- A text is read as an identifier exactly if it is twenty-four hexadecimal digits, which shows in
its bytes. Then every two bytes of it are the text of a byte, and in lowercase it is the text of the
identifier; otherwise it comes back with the error. Every identifier is read from its text, and the
texts of identifiers are ordered as these are, so that a set lists them in ascending order. -/
theorem parse_exact (s : String) :
    ((∃ x, parse s = .ok x) ↔ s.toList.length = 24 ∧ ∀ c ∈ s.toList, Hex.IsDigit c) ∧
    ((∃ x, parse s = .ok x) ↔
      s.utf8ByteSize = 24 ∧ ∀ b ∈ s.toUTF8.data, Hex.IsDigitByte b) ∧
    (∀ x, parse s = .ok x → x.hex = s.map Char.toLower ∧
      ∀ i < 12, ∃ pair b, IsSlice s (2 * i) (2 * i + 2) pair ∧ Hex.number? pair = some b ∧
        x.bytes[i]? = some b) ∧
    (∀ e, parse s = .error e → e.value = s) ∧
    (∀ x : PostId, parse x.hex = .ok x) ∧
    (∀ x y : PostId, x < y ↔ x.hex < y.hex) ∧
    ∀ ids : IdSet, (ids.toList.map hex).Pairwise (· < ·) := by
  have htext : (∃ x, parse s = .ok x) ↔ IsText s := by
    simp only [isText_iff, parse_eq_ok_iff]
  refine ⟨htext, htext.trans isText_iff_bytes, fun x hx => ?_, fun e he => ?_, fun x => ?_,
    fun x y => hex_lt_hex_iff.symm, fun ids => ?_⟩
  · have hx := parse_eq_ok_iff.mp hx
    exact ⟨hex_of_ofHex? hx, fun i hi => exists_slice_of_ofHex? hx hi⟩
  · exact (parse_eq_error_iff.mp he).2
  · exact parse_eq_ok_iff.mpr (ofHex?_hex x)
  · exact List.pairwise_map.mpr (ids.ascending.imp hex_lt_hex_iff.mpr)

/-- A text in both letter cases, one with signs that a number may have, and one whose characters
take two bytes each. -/
theorem parse_exact_mixed :
    (∃ x, parse "63F1a2b3C4d5E6f708192A3b" = .ok x ∧ x.hex = "63f1a2b3c4d5e6f708192a3b" ∧
      ∃ pair b, IsSlice "63F1a2b3C4d5E6f708192A3b" 2 4 pair ∧ Hex.number? pair = some b) ∧
    (Hex.number? "+a" = some 10 ∧ ¬ ∃ x, parse "+a+b+c+d+e+f+1+2+3+4+5+6" = .ok x) ∧
    ("éééééééééééé".utf8ByteSize = 24 ∧ ¬ ∃ x, parse "éééééééééééé" = .ok x) := by
  refine ⟨?_, ⟨by decide, fun h => ?_⟩, by decide, fun h => ?_⟩
  · have hlower : "63F1a2b3C4d5E6f708192A3b".map Char.toLower = "63f1a2b3c4d5e6f708192a3b" := by
      rw [← String.toList_inj, String.toList_map]
      decide
    have hdigits : "63F1a2b3C4d5E6f708192A3b".toList.all (Hex.IsDigit ·) = true := by decide
    obtain ⟨haccepts, -, hread, -⟩ := parse_exact "63F1a2b3C4d5E6f708192A3b"
    obtain ⟨x, hx⟩ := haccepts.mpr ⟨by decide, fun c hc =>
      decide_eq_true_eq.mp (List.all_eq_true.mp hdigits c hc)⟩
    obtain ⟨hhex, hslices⟩ := hread x hx
    obtain ⟨pair, b, hslice, hnumber, -⟩ := hslices 1 (by decide)
    exact ⟨x, hx, hhex.trans hlower, pair, b, hslice, hnumber⟩
  · obtain ⟨-, hdigits⟩ := (parse_exact _).1.mp h
    exact absurd (hdigits '+' (by simp)) (by decide)
  · obtain ⟨-, hdigits⟩ := (parse_exact _).1.mp h
    exact absurd (hdigits 'é' (by simp)) (by decide)

end PostId

end PostFilter
