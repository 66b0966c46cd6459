import PostFilter.File.Error
import PostFilter.File.Path

/-!
# File trees

Files and directories without links. A file holds bytes, which need not be a text. A path is walked
name by name: what is walked through has to be a directory, and two dots lead to the directory
above.
-/

namespace PostFilter

/-- The names from a file or directory up to the root. -/
abbrev Place := List String

inductive FileEntry where
  | file (content : ByteArray)
  | directory

/-- The text that some bytes encode in UTF-8. -/
def decodeText (content : ByteArray) : Except FileError String :=
  match String.fromUTF8? content with
  | some text => .ok text
  | none => .error .notText

theorem decodeText_toUTF8 (text : String) : decodeText text.toUTF8 = .ok text := by
  have h : text.toUTF8.IsValidUTF8 := text.isValidUTF8
  rw [decodeText, String.fromUTF8?, dif_pos h]
  rfl

/-- The working directory, and all that the tree holds. The root is always there. -/
structure FileTree where
  here : Place
  entries : List (Place × FileEntry)

namespace FileTree

/-- A tree with nothing but an empty working directory, to which no absolute path leads. -/
def empty : FileTree := ⟨[""], [([""], .directory)]⟩

def find? (t : FileTree) (p : Place) : Option FileEntry :=
  if p.isEmpty then some .directory else t.entries.lookup p

def maxNameSize : Nat := 255

def maxPathSize : Nat := 4095

/-! ## Walking -/

/-- The place that a name leads to. -/
def step (t : FileTree) (p : Place) (name : String) : Except FileError Place :=
  match t.find? p with
  | some .directory =>
    if name = "" ∨ name = "." then .ok p
    else if name = ".." then .ok p.tail
    else if maxNameSize < name.utf8ByteSize then .error .nameTooLong
    else if (t.find? (name :: p)).isSome then .ok (name :: p)
    else .error .notFound
  | some (.file _) => .error .notDirectory
  | none => .error .notFound

def start (t : FileTree) (path : String) : Place :=
  if Path.isAbsolute path then [] else t.here

/-- Can the text be a path at all? -/
def checkPath (path : String) : Except FileError Unit :=
  if path.toList.contains '\x00' then .error .nulInName
  else if path.isEmpty then .error .notFound
  else if maxPathSize < path.utf8ByteSize then .error .nameTooLong
  else .ok ()

/-- The place that a path leads to. -/
def walk (t : FileTree) (path : String) : Except FileError Place := do
  checkPath path
  (Path.names path).foldlM t.step (t.start path)

/-- The directory in which a path puts its last name, and that name. The name is a dot if the path
leads to the root. -/
def target (t : FileTree) (path : String) : Except FileError (Place × String) := do
  checkPath path
  match (Path.names path).reverse.dropWhile (· == "") with
  | [] => pure ([], ".")
  | name :: up => do
    let p ← up.reverse.foldlM t.step (t.start path)
    pure (← t.step p ".", name)

def isDots (name : String) : Bool :=
  name == "." || name == ".."

/-! ## Operations -/

def isThere (t : FileTree) (path : String) : Bool :=
  (t.walk path).isOk

def isDirectory (t : FileTree) (path : String) : Bool :=
  match (t.walk path).toOption.bind t.find? with
  | some .directory => true
  | _ => false

def read (t : FileTree) (path : String) : Except FileError String := do
  match t.find? (← t.walk path) with
  | some (.file content) => decodeText content
  | _ => throw .isDirectory

theorem read_of_walk {t : FileTree} {path text : String} {p : Place} (hwalk : t.walk path = .ok p)
    (hp : t.find? p = some (.file text.toUTF8)) : t.read path = .ok text := by
  simp only [read, hwalk, bind, Except.bind, hp, decodeText_toUTF8]

def put (t : FileTree) (p : Place) (e : FileEntry) : FileTree :=
  { t with entries := (p, e) :: t.entries.filter (·.1 != p) }

theorem find?_put {t : FileTree} {p : Place} {e : FileEntry} (hp : p ≠ []) :
    (t.put p e).find? p = some e := by
  simp [find?, put, hp]

theorem lookup_filter_ne {p q : Place} (h : q ≠ p) (es : List (Place × FileEntry)) :
    (es.filter (·.1 != p)).lookup q = es.lookup q := by
  induction es with
  | nil => rfl
  | cons x xs ih => grind

theorem find?_put_of_ne {t : FileTree} {p q : Place} {e : FileEntry} (h : q ≠ p) :
    (t.put p e).find? q = t.find? q := by
  have hqp : (q == p) = false := by simp [h]
  simp [find?, put, List.lookup_cons, hqp, lookup_filter_ne h]

/-- Give a file a text as its content, and make the file if it is missing. -/
def write (t : FileTree) (path text : String) : Except FileError FileTree := do
  let (dir, name) ← t.target path
  if isDots name || path.toList.getLast? == some '/' then throw .isDirectory
  if maxNameSize < name.utf8ByteSize then throw .nameTooLong
  match t.find? (name :: dir) with
  | some .directory => throw .isDirectory
  | _ => pure (t.put (name :: dir) (.file text.toUTF8))

def createDirectory (t : FileTree) (path : String) : Except FileError FileTree := do
  let (dir, name) ← t.target path
  if isDots name then throw .alreadyExists
  if maxNameSize < name.utf8ByteSize then throw .nameTooLong
  match t.find? (name :: dir) with
  | some _ => throw .alreadyExists
  | none => pure (t.put (name :: dir) .directory)

end FileTree

end PostFilter
