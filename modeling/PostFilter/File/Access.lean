import PostFilter.File.Tree

/-!
# Access to files

The file operations that commands need, in any setting that can run them. A file tree is one such
setting.
-/

namespace PostFilter

class FileAccess (m : Type → Type) where
  isThere (path : String) : m Bool
  isDirectory (path : String) : m Bool
  read (path : String) : m (Except FileError String)
  write (path text : String) : m (Except FileError Unit)
  createDirectory (path : String) : m (Except FileError Unit)

namespace FileAccess

variable {m : Type → Type} [Monad m] [FileAccess m]

/-- A refusal to make a directory, which does not matter if there is one already. -/
def unlessDirectory (path : String) (e : FileError) : m (Except FileError Unit) := do
  if ← isDirectory path then pure (.ok ()) else pure (.error e)

/-- Make a directory, and those above it that are missing. They are given by their paths, the
directory itself first. -/
def createDirectories : List String → m (Except FileError Unit)
  | [] => pure (.ok ())
  | path :: up => do
    match ← createDirectory path with
    | .ok () => pure (.ok ())
    | .error .notFound =>
      match ← createDirectories up with
      | .error e => pure (.error e)
      | .ok () =>
        match ← createDirectory path with
        | .ok () => pure (.ok ())
        | .error e => unlessDirectory path e
    | .error e => unlessDirectory path e

/-- Make the directory that a path is to be put in. -/
def createParent (path : String) : m (Except FileError Unit) :=
  createDirectories (Path.parents path)

end FileAccess

namespace FileTree

/-- An operation that leaves the tree as it is if it fails. -/
def apply (change : FileTree → Except FileError FileTree) (t : FileTree) :
    Except FileError Unit × FileTree :=
  match change t with
  | .ok t' => (.ok (), t')
  | .error e => (.error e, t)

instance : FileAccess (StateM FileTree) where
  isThere path := fun t => (t.isThere path, t)
  isDirectory path := fun t => (t.isDirectory path, t)
  read path := fun t => (t.read path, t)
  write path text := apply (·.write path text)
  createDirectory path := apply (·.createDirectory path)

end FileTree

end PostFilter
