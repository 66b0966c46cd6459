import PostFilter.Text.Hex

/-!
# Universally unique identifiers

Sixteen bytes, written as thirty-two lowercase digits in five groups. They are read in either case,
with all hyphens or with none, and in the hyphenated form also in braces or as a URN. Case does not
matter in the head of a URN either.
-/

namespace PostFilter

structure Uuid where
  bytes : List UInt8
  length_bytes : bytes.length = 16
  deriving DecidableEq, Repr

namespace Uuid

/-- Put hyphens between groups of eight, four, four, four and twelve digits. -/
def hyphenate (ds : List Char) : List Char :=
  ds.take 8 ++ '-' :: ((ds.drop 8).take 4 ++ '-' :: ((ds.drop 12).take 4 ++
    '-' :: ((ds.drop 16).take 4 ++ '-' :: ds.drop 20)))

def chars (u : Uuid) : List Char :=
  hyphenate (Hex.chars u.bytes)

def toString (u : Uuid) : String :=
  String.ofList u.chars

def ofDigits? (ds : List Char) : Option Uuid :=
  match Hex.bytes? ds with
  | none => none
  | some bs => if h : bs.length = 16 then some ⟨bs, h⟩ else none

/-- Thirty-six characters with hyphens in the four places. -/
def ofHyphenated? (cs : List Char) : Option Uuid :=
  let ds := cs.filter (· != '-')
  if hyphenate ds = cs then ofDigits? ds else none

def urnHead : List Char := "urn:uuid:".toList

def ofChars? (cs : List Char) : Option Uuid :=
  if cs.length = 32 then ofDigits? cs
  else if cs.length = 38 ∧ cs.head? = some '{' ∧ cs.getLast? = some '}' then
    ofHyphenated? (cs.drop 1).dropLast
  else if cs.length = 45 ∧ (cs.take 9).map Char.toLower = urnHead then ofHyphenated? (cs.drop 9)
  else ofHyphenated? cs

def ofString? (s : String) : Option Uuid :=
  ofChars? s.toList

end Uuid

end PostFilter
