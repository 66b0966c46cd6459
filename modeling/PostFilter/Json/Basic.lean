/-!
# JSON values

Objects keep their fields in the order of the text, repeated keys included; what a repeated key
means is left to whoever decodes the object.
-/

namespace PostFilter

inductive Json where
  | null
  | bool (b : Bool)
  /-- A number, by its literal. -/
  | number (literal : String)
  | string (s : String)
  | array (items : List Json)
  | object (fields : List (String × Json))
  /-- A value that is grammatical but denotes nothing: a string or key with an unpaired surrogate
  escape, or a number beyond the range of a double. It may stand where values are ignored. -/
  | meaningless
  deriving BEq, Repr

namespace Json

instance : Inhabited Json := ⟨null⟩

def nat (n : Nat) : Json :=
  number (toString n)

mutual

/-- How many arrays and objects are nested in a value. -/
def nesting : Json → Nat
  | array xs => nestingItems xs + 1
  | object fs => nestingFields fs + 1
  | _ => 0

def nestingItems : List Json → Nat
  | [] => 0
  | x :: xs => max x.nesting (nestingItems xs)

def nestingFields : List (String × Json) → Nat
  | [] => 0
  | (_, x) :: fs => max x.nesting (nestingFields fs)

end

mutual

/-- Does every part of the value denote something? -/
def isMeaningful : Json → Bool
  | array xs => meaningfulItems xs
  | object fs => meaningfulFields fs
  | meaningless => false
  | _ => true

def meaningfulItems : List Json → Bool
  | [] => true
  | x :: xs => x.isMeaningful && meaningfulItems xs

def meaningfulFields : List (String × Json) → Bool
  | [] => true
  | (_, x) :: fs => x.isMeaningful && meaningfulFields fs

end

end Json

end PostFilter
