/-!
# Hexadecimal text

Bytes are written as two lowercase digits each, high half first, and read in either case.
-/

namespace PostFilter.Hex

/-- The value of a hexadecimal digit of either case. -/
def value? (c : Char) : Option Nat :=
  if '0' ≤ c ∧ c ≤ '9' then some (c.toNat - '0'.toNat)
  else if 'a' ≤ c ∧ c ≤ 'f' then some (c.toNat - 'a'.toNat + 10)
  else if 'A' ≤ c ∧ c ≤ 'F' then some (c.toNat - 'A'.toNat + 10)
  else none

def byteChars (b : UInt8) : List Char :=
  [Nat.digitChar (b.toNat / 16), Nat.digitChar (b.toNat % 16)]

def chars (bytes : List UInt8) : List Char :=
  bytes.flatMap byteChars

/-- Read digits in pairs. An odd digit at the end is refused. -/
def bytes? : List Char → Option (List UInt8)
  | [] => some []
  | [_] => none
  | a :: b :: cs =>
    match value? a, value? b, bytes? cs with
    | some h, some l, some bs => some (UInt8.ofNat (16 * h + l) :: bs)
    | _, _, _ => none

theorem value?_digitChar {n : Nat} (h : n < 16) : value? (Nat.digitChar n) = some n := by
  decide +revert

theorem bytes?_chars (bytes : List UInt8) : bytes? (chars bytes) = some bytes := by
  induction bytes with
  | nil => rfl
  | cons b bs ih =>
    have hb : b.toNat < 256 := b.toNat_lt
    have hn : 16 * (b.toNat / 16) + b.toNat % 16 = b.toNat := by omega
    have ih : bytes? (List.flatMap byteChars bs) = some bs := ih
    simp [chars, byteChars, bytes?, value?_digitChar (n := b.toNat / 16) (by omega),
      value?_digitChar (n := b.toNat % 16) (by omega), ih, hn]

end PostFilter.Hex
