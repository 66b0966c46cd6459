import PostFilter.Text.Hex

/-!
# Post identifiers

A post is identified by twelve bytes, written as twenty-four hexadecimal digits. Identifiers are
ordered byte by byte.
-/

namespace PostFilter

structure PostId where
  bytes : List UInt8
  length_bytes : bytes.length = 12
  deriving DecidableEq, Repr

/-- The text that was to be an identifier and is none. -/
structure MalformedId where
  value : String
  deriving DecidableEq, Repr

def MalformedId.message (e : MalformedId) : String :=
  "'" ++ e.value ++ "' is not a 24-digit hex post id"

namespace PostId

def hexChars (x : PostId) : List Char :=
  Hex.chars x.bytes

def hex (x : PostId) : String :=
  String.ofList x.hexChars

/-- Read exactly twenty-four hexadecimal digits of either case. -/
def ofHex? (s : String) : Option PostId :=
  match Hex.bytes? s.toList with
  | none => none
  | some bs => if h : bs.length = 12 then some ⟨bs, h⟩ else none

/-- Read an identifier. A text that is none comes back with the error. -/
def parse (s : String) : Except MalformedId PostId :=
  match ofHex? s with
  | some x => .ok x
  | none => .error ⟨s⟩

instance : LT PostId := ⟨fun a b => a.bytes < b.bytes⟩

instance (a b : PostId) : Decidable (a < b) :=
  inferInstanceAs (Decidable (a.bytes < b.bytes))

theorem lt_irrefl (a : PostId) : ¬ a < a :=
  List.lt_irrefl a.bytes

theorem lt_trans {a b c : PostId} (h₁ : a < b) (h₂ : b < c) : a < c :=
  List.lt_trans (α := UInt8) h₁ h₂

theorem lt_asymm {a b : PostId} (h : a < b) : ¬ b < a :=
  fun h' => lt_irrefl a (lt_trans h h')

theorem lt_of_not_lt {a b : PostId} (h₁ : ¬ a < b) (h₂ : a ≠ b) : b < a := by
  have hle : b.bytes ≤ a.bytes := List.not_lt.mp h₁
  by_cases h : b.bytes < a.bytes
  · exact h
  · have hle' : a.bytes ≤ b.bytes := List.not_lt.mp h
    have heq : a.bytes = b.bytes := List.le_antisymm hle' hle
    cases a; cases b
    exact absurd (by simpa using heq) h₂

theorem ofHex?_hex (x : PostId) : ofHex? x.hex = some x := by
  simp [ofHex?, hex, hexChars, Hex.bytes?_chars, x.length_bytes]

end PostId

end PostFilter
