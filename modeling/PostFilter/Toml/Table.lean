import PostFilter.Toml.Value

/-!
# Building TOML tables

Where an entry or a header may add to a table. No key is given twice, a header names a table once,
and a dotted key adds only to tables that dotted keys have made.
-/

namespace PostFilter.Toml.Entries

/-- Give a new value to a key that is present. -/
def put (key : String) (v : Value) (es : Entries) : Entries :=
  es.map fun e => if e.1 = key then (key, v) else e

def add? (key : String) (v : Value) (es : Entries) : Option Entries :=
  match es.lookup key with
  | some _ => none
  | none => some (es ++ [(key, v)])

/-- Change the table at the end of a path. A table that is missing on the way is made, and one that
is there has to be passable. The path goes through the newest of several tables. -/
def change? (made : Origin) (passable : Origin → Bool)
    (change : Origin → Entries → Option Entries) : List String → Origin → Entries → Option Entries
  | [], origin, es => change origin es
  | k :: ks, _, es =>
    match es.lookup k with
    | none =>
      (change? made passable change ks made []).map fun t => es ++ [(k, .table made t)]
    | some (.table origin t) =>
      if passable origin then
        (change? made passable change ks origin t).map fun t => put k (.table origin t) es
      else none
    | some (.tables (t :: ts)) =>
      (change? made passable change ks .named t).map fun t => put k (.tables (t :: ts)) es
    | some _ => none

/-- Add an entry with a dotted key. -/
def enter? (path : List String) (key : String) (v : Value) (es : Entries) : Option Entries :=
  if path.isEmpty then es.add? key v
  else
    change? .dotted (fun o => o == .dotted || o == .passed)
      (fun o t => if o = .dotted then add? key v t else none) path .named es

/-- Change the table that a header leads to. -/
def under? (header : List String) (change : Entries → Option Entries) (es : Entries) :
    Option Entries :=
  change? .passed (· != .braced) (fun _ t => change t) header .named es

/-- Name a table. It may be there already if only longer headers have passed through it. -/
def openTable? (path : List String) (key : String) (es : Entries) : Option Entries :=
  es.under? path fun t =>
    match t.lookup key with
    | none => some (t ++ [(key, .table .named [])])
    | some (.table .passed inner) => some (put key (.table .named inner) t)
    | some _ => none

/-- Begin the next of the tables under a repeated header. -/
def openItem? (path : List String) (key : String) (es : Entries) : Option Entries :=
  es.under? path fun t =>
    match t.lookup key with
    | none => some (t ++ [(key, .tables [[]])])
    | some (.tables ts) => some (put key (.tables ([] :: ts)) t)
    | some _ => none

end PostFilter.Toml.Entries
