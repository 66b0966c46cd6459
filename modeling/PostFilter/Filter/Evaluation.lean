import PostFilter.Filter.Parser
import PostFilter.Filter.Progress
import PostFilter.Store.Memory

/-!
# Evaluating filters

Leaves ask the store, inner nodes combine the answers with set algebra. An evaluation starts all of
its lookups at the same time, from left to right, and a negation asks for all posts before it asks
for its operand. The first failure in time ends the evaluation. A failure without delay happens
while lookups are being started, so those after it are never started.
-/

namespace PostFilter

/-- How an evaluation ends, the lookups it starts in their order, and the time it takes. -/
structure Evaluation (ε : Type) where
  result : Except ε IdSet
  calls : List Lookup
  elapsed : Nat

namespace Evaluation

/-- An evaluation that does nothing. -/
def nothing {ε : Type} : Evaluation ε := ⟨.ok ∅, [], 0⟩

end Evaluation

/-- The beginning of an evaluation: the lookups it starts in their order, and how far it gets before
any time has passed. -/
structure Launch where
  calls : List Lookup
  progress : Except StoreError Progress

namespace Launch

def ofLookup (source : Source) (l : Lookup) : Launch where
  calls := [l]
  progress := (Waiting.lookup l (source.delay l)).poll source 0

/-- Begin two parts that run side by side. The second is not begun if the first fails at once. -/
def beside (op : SetOp) (a b : Launch) : Launch :=
  match a.progress with
  | .error e => ⟨a.calls, .error e⟩
  | .ok p => ⟨a.calls ++ b.calls, b.progress.map (p.join op true)⟩

/-- Go on until the evaluation ends. -/
def finish (source : Source) (a : Launch) : Evaluation StoreError :=
  match a.progress with
  | .error e => ⟨.error e, a.calls, 0⟩
  | .ok (.done s) => ⟨.ok s, a.calls, 0⟩
  | .ok (.waiting w) =>
    let (result, elapsed) := w.await source
    ⟨result, a.calls, elapsed⟩

end Launch

namespace Expr

/-- The lookups of a filter in the order in which they start if none fails. -/
def lookups : Expr → List Lookup
  | author u => [.author u]
  | tag l => [.tag l]
  | not e => .everything :: e.lookups
  | and a b | or a b => a.lookups ++ b.lookups

/-- The set a filter denotes, given the set that each lookup stands for. -/
def denote (sets : Lookup → IdSet) : Expr → IdSet
  | author u => sets (.author u)
  | tag l => sets (.tag l)
  | not e => sets .everything \ e.denote sets
  | and a b => a.denote sets ∩ b.denote sets
  | or a b => a.denote sets ∪ b.denote sets

def launch (source : Source) : Expr → Launch
  | author u => .ofLookup source (.author u)
  | tag l => .ofLookup source (.tag l)
  | not e => .beside .diff (.ofLookup source .everything) (e.launch source)
  | and a b => .beside .inter (a.launch source) (b.launch source)
  | or a b => .beside .union (a.launch source) (b.launch source)

def evaluate (source : Source) (e : Expr) : Evaluation StoreError :=
  (e.launch source).finish source

/-- The posts that match a filter. -/
def resolve (source : Source) (e : Expr) : Except StoreError IdSet :=
  (e.evaluate source).result

end Expr

/-- Why a filter gave no set. -/
inductive FilterError where
  | malformed (e : SyntaxError)
  | store (e : StoreError)
  | invalidName (name : String)
  deriving DecidableEq, Repr

/-- Parse a filter and evaluate it. A text that does not parse causes no lookup. -/
def evaluateFilter (source : Source) (text : String) : Evaluation FilterError :=
  match parse text with
  | .error e => ⟨.error (.malformed e), [], 0⟩
  | .ok e =>
    let v := e.evaluate source
    ⟨v.result.mapError .store, v.calls, v.elapsed⟩

def resolveFilter (source : Source) (text : String) : Except FilterError IdSet :=
  (evaluateFilter source text).result

/-- The posts of any of the given authors. An empty list asks for nothing. -/
def evaluateFollowing (source : Source) (usernames : List String) : Evaluation StoreError :=
  match Expr.anyAuthor? usernames with
  | some e => e.evaluate source
  | none => .nothing

def resolveFollowing (source : Source) (usernames : List String) : Except StoreError IdSet :=
  (evaluateFollowing source usernames).result

end PostFilter
