/-!
# Blank characters and short cells

Blank means the Unicode property White_Space. A text is brought onto one line by joining its words
with single spaces, and cut to a width by ending it with three dots.
-/

namespace PostFilter.Text

/-- The Unicode property White_Space. -/
def isBlank (c : Char) : Bool :=
  let n := c.toNat
  (0x9 ≤ n && n ≤ 0xD) || n == 0x20 || n == 0x85 || n == 0xA0 || n == 0x1680 ||
    (0x2000 ≤ n && n ≤ 0x200A) || n == 0x2028 || n == 0x2029 || n == 0x202F || n == 0x205F ||
    n == 0x3000

def trimStart (cs : List Char) : List Char :=
  cs.dropWhile isBlank

theorem length_dropWhile_le (p : Char → Bool) (cs : List Char) :
    (cs.dropWhile p).length ≤ cs.length :=
  (List.dropWhile_sublist p).length_le

/-- The maximal runs of characters that are not blank, in order. -/
def words (cs : List Char) : List (List Char) :=
  match _h : trimStart cs with
  | [] => []
  | c :: rest =>
    (c :: rest.takeWhile (!isBlank ·)) :: words (rest.dropWhile (!isBlank ·))
termination_by cs.length
decreasing_by
  have h₁ := length_dropWhile_le isBlank cs
  have h₂ := length_dropWhile_le (!isBlank ·) rest
  simp only [trimStart] at _h
  rw [_h, List.length_cons] at h₁
  omega

/-- The words of a text with one space between neighbours. -/
def singleLineChars (cs : List Char) : List Char :=
  List.intercalate [' '] (words cs)

def singleLine (s : String) : String :=
  String.ofList (singleLineChars s.toList)

/-- Cut to `width` characters. A text that is cut ends with three dots, which count. -/
def truncateChars (width : Nat) (cs : List Char) : List Char :=
  if width < cs.length then cs.take (width - 3) ++ ['.', '.', '.'] else cs

def truncate (width : Nat) (s : String) : String :=
  String.ofList (truncateChars width s.toList)

/-- The first eight characters, which is how much of an identifier a table shows. -/
def shortId (s : String) : String :=
  String.ofList (s.toList.take 8)

/-- Fill up with spaces on the right to `width` characters. A longer text stays as it is. -/
def padRight (width : Nat) (s : String) : String :=
  s ++ String.ofList (List.replicate (width - s.length) ' ')

end PostFilter.Text
