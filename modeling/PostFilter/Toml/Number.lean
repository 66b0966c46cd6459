import PostFilter.Text.Number
import PostFilter.Toml.Text
import PostFilter.Toml.Value

/-!
# TOML numbers

Integers have 64 bits. Between two digits one underscore may stand. A number with a fraction or an
exponent may not be so large that it would be rounded to positive infinity.
-/

namespace PostFilter.Toml

/-- The digits at the front of a text that continues a number, and the rest. -/
def moreDigits (ok : Char → Bool) : List Char → List Char × List Char
  | '_' :: c :: cs =>
    if ok c then (c :: (moreDigits ok cs).1, (moreDigits ok cs).2) else ([], '_' :: c :: cs)
  | c :: cs => if ok c then (c :: (moreDigits ok cs).1, (moreDigits ok cs).2) else ([], c :: cs)
  | [] => ([], [])

def isDecimalDigit (c : Char) : Bool := c.isDigit

def isOctalDigit (c : Char) : Bool := '0' ≤ c && c ≤ '7'

def isBinaryDigit (c : Char) : Bool := c == '0' || c == '1'

namespace Reader

def digits (ok : Char → Bool) : Reader (List Char) := do
  let c ← one ok
  let ds ← fun cs => some (moreDigits ok cs)
  pure (c :: ds)

def isSign (c : Char) : Bool := c == '+' || c == '-'

/-- Is there a minus sign? A plus sign may stand in its place. -/
def sign : Reader Bool := do
  pure ((← optional (one isSign)) == some '-')

/-- Digits without a needless zero in front. -/
def wholeDigits : Reader (List Char) := do
  match ← next? with
  | some '0' => do
    char '0'
    pure ['0']
  | _ => digits isDecimalDigit

def minInteger : Int := -9223372036854775808
def maxInteger : Int := 9223372036854775807

def bounded (n : Int) : Reader Value :=
  if minInteger ≤ n ∧ n ≤ maxInteger then pure (.integer n) else failure

def decimalInteger : Reader Value := do
  let negative ← sign
  let n : Int := natOfDigits 10 (← wholeDigits)
  bounded (if negative then -n else n)

/-- An integer in another base, which has no sign. -/
def basedInteger (mark : Char) (base : Nat) (ok : Char → Bool) : Reader Value := do
  chars ['0', mark]
  bounded (natOfDigits base (← digits ok))

def integer : Reader Value :=
  basedInteger 'x' 16 isHexDigit <|> basedInteger 'o' 8 isOctalDigit <|>
    basedInteger 'b' 2 isBinaryDigit <|> decimalInteger

def exponent : Reader Int := do
  discard (one fun c => c == 'e' || c == 'E')
  let negative ← sign
  let n : Int := natOfDigits 10 (← digits isDecimalDigit)
  pure (if negative then -n else n)

def fraction : Reader (List Char) := do
  char '.'
  digits isDecimalDigit

/-- The fraction and the exponent, not both of which may be missing. -/
def fractionAndExponent : Reader (List Char × Int) :=
  (do
    let f ← fraction
    let e ← optional exponent
    pure (f, e.getD 0)) <|>
  (do pure ([], ← exponent))

def finiteFloat : Reader Unit := do
  let negative ← sign
  let whole ← wholeDigits
  let (f, e) ← fractionAndExponent
  if negative || (⟨whole, f, e⟩ : Decimal).inRange then pure () else failure

def specialFloat : Reader Unit := do
  discard sign
  chars ['i', 'n', 'f'] <|> chars ['n', 'a', 'n']

def float : Reader Value := do
  pure (.float (String.ofList (← taken (finiteFloat <|> specialFloat))))

end Reader

end PostFilter.Toml
