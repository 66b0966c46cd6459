import PostFilter.File.Error

/-!
# Store errors

What can go wrong while a store answers a lookup or a snapshot is loaded. Errors of a lookup reach
the caller exactly as the store produced them.
-/

namespace PostFilter

inductive StoreError where
  | invalidPostId (value : String)
  | unavailable (message : String)
  | timeout
  | unreadable (path : String) (reason : FileError)
  | malformed (details : String)
  deriving DecidableEq, Repr

namespace StoreError

def message : StoreError → String
  | invalidPostId v => "invalid post id '" ++ v ++ "'"
  | unavailable m => "store unavailable: " ++ m
  | timeout => "store request timed out"
  | unreadable p r => "failed to read snapshot '" ++ p ++ "': " ++ r.message
  | malformed d => "JSON error: " ++ d

/-- Could the same lookup succeed if it were tried again? -/
def retryable : StoreError → Bool
  | unavailable _ | timeout => true
  | _ => false

end StoreError

end PostFilter
