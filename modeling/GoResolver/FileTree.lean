import GoResolver.Entries
import GoResolver.Path

/-!
# Directories and files

The part of a machine's disk that this library can see: a tree of named directories and files, and
the current directory.  A file's content is text or something that is no text.

A directory lists its entries in some order, and that order is data here: what must not depend on it
can be said by permuting the list.

Looking a path up walks its segments from the root or from the current directory.  Every segment, a
trivial one too, needs a directory to stand in; `..` leads to the directory above, and the root is
its own parent.  A lookup that fails says why with a `SystemError`, and the writing operations fail
for the same reasons.

Paths and names are limited in length, counted in bytes of UTF-8.  A path that is too long is
refused before the walk starts, a name that is too long when the walk comes to it.
-/

namespace GoResolver

/-! ## 1. Trees -/

/-- What a file holds. -/
inductive Content where
  | text (s : String)
  /-- Bytes that are not the UTF-8 form of any text. -/
  | bytes
  deriving Repr, DecidableEq, Inhabited

/-- The content that bytes make up. -/
def Content.ofBytes (bytes : ByteArray) : Content :=
  match String.fromUTF8? bytes with
  | some s => .text s
  | none => .bytes

/-- A file or a directory. -/
inductive Node where
  | file (content : Content)
  | dir (entries : List (String × Node))
  deriving Inhabited

namespace Node

/-- The entries of a directory; a file has none. -/
def entries : Node → List (String × Node)
  | .dir es => es
  | .file _ => []

/-- Whether the node is a directory. -/
def isDir : Node → Bool
  | .dir _ => true
  | .file _ => false

/-- The node at the end of a list of names. -/
def get? : Node → List String → Option Node
  | node, [] => some node
  | node, name :: names =>
    match node.entries.lookup name with
    | none => none
    | some child => child.get? names

/-- Puts a node at the end of a list of names, making the directories on the way. -/
def put (parent : Node) : List String → Node → Node
  | [], node => node
  | name :: names, node =>
    let child := (parent.entries.lookup name).getD (.dir [])
    .dir (setEntry name (child.put names node) parent.entries)

/-- What was put somewhere is found there. -/
@[simp] theorem get?_put_self (root node : Node) (place : List String) :
    (root.put place node).get? place = some node := by
  induction place generalizing root with
  | nil => rfl
  | cons name place ih =>
    rw [put, get?]
    simp only [Node.entries, lookup_setEntry_self]
    exact ih _

end Node

/-! ## 2. The disk as a process sees it -/

/-- A tree and the current directory in it, as names from the root. -/
structure FileTree where
  root : Node
  cwd : List String
  deriving Inhabited

/-- Why the system refuses an operation on files. -/
inductive SystemError where
  | notFound
  | exists
  | notDirectory
  | isDirectory
  | nameTooLong
  | notText
  | nullInPath
  deriving Repr, DecidableEq

/-- The system's text for an error. -/
def SystemError.message : SystemError → String
  | .notFound => "No such file or directory (os error 2)"
  | .exists => "File exists (os error 17)"
  | .notDirectory => "Not a directory (os error 20)"
  | .isDirectory => "Is a directory (os error 21)"
  | .nameTooLong => "File name too long (os error 36)"
  | .notText => "stream did not contain valid UTF-8"
  | .nullInPath => "file name contained an unexpected NUL byte"

/-- The most bytes that a name in a directory has. -/
def nameLimit : Nat := 255

/-- The most bytes that a path has. -/
def pathLimit : Nat := 4095

/-- Why a path is refused before anything is looked up. -/
def Path.refusal? (p : Path) : Option SystemError :=
  if p.text = "" then some .notFound
  else if p.text.toList.contains '\x00' then some .nullInPath
  else if pathLimit < p.text.utf8ByteSize then some .nameTooLong
  else none

namespace FileTree

/-- One step of a walk: the place a segment leads to from the directory at `place`. -/
def step (t : FileTree) (place : List String) (segment : String) :
    Except SystemError (List String) :=
  match t.root.get? place with
  | none => .error .notFound
  | some (.file _) => .error .notDirectory
  | some (.dir entries) =>
    if Path.isTrivial segment then .ok place
    else if segment = ".." then .ok place.dropLast
    else if nameLimit < segment.utf8ByteSize then .error .nameTooLong
    else if (entries.lookup segment).isSome then .ok (place ++ [segment])
    else .error .notFound

/-- Where a list of segments leads to. -/
def walk (t : FileTree) : List String → List String → Except SystemError (List String)
  | place, [] => .ok place
  | place, segment :: rest =>
    match t.step place segment with
    | .error e => .error e
    | .ok next => t.walk next rest

/-- The place where the walk of a path starts. -/
def start (t : FileTree) (p : Path) : List String := if p.isAbsolute then [] else t.cwd

/-- The place that a path leads to, as names from the root. -/
def place (t : FileTree) (p : Path) : Except SystemError (List String) :=
  match p.refusal? with
  | some e => .error e
  | none => t.walk (t.start p) p.segments

/-- The node that a path leads to. -/
def find (t : FileTree) (p : Path) : Except SystemError Node :=
  match t.place p with
  | .error e => .error e
  | .ok names =>
    match t.root.get? names with
    | some node => .ok node
    | none => .error .notFound

/-! ## 3. Reading -/

/-- Whether a path leads to a directory. -/
def isDir (t : FileTree) (p : Path) : Bool :=
  match t.find p with
  | .ok (.dir _) => true
  | _ => false

/-- Whether a path leads to a file. -/
def isFile (t : FileTree) (p : Path) : Bool :=
  match t.find p with
  | .ok (.file _) => true
  | _ => false

/-- Whether a path leads to anything. -/
def contains (t : FileTree) (p : Path) : Bool :=
  match t.find p with
  | .ok _ => true
  | .error _ => false

/-- The text of the file that a path leads to. -/
def readText (t : FileTree) (p : Path) : Except SystemError String :=
  match t.find p with
  | .error e => .error e
  | .ok (.dir _) => .error .isDirectory
  | .ok (.file .bytes) => .error .notText
  | .ok (.file (.text s)) => .ok s

/-- The names in the directory that a path leads to, in the directory's own order. -/
def list (t : FileTree) (p : Path) : Except SystemError (List (String × Node)) :=
  match t.find p with
  | .error e => .error e
  | .ok (.file _) => .error .notDirectory
  | .ok (.dir entries) => .ok entries

/-! ## 4. Writing -/

/-- The segments of a path without the trivial ones after the last slash, and the last of them. -/
def target (p : Path) : List String × Option String :=
  let segments := (p.segments.reverse.dropWhile (· == "")).reverse
  (segments.dropLast, segments.getLast?)

/-- Makes one directory. -/
def makeDir (t : FileTree) (p : Path) : Except SystemError FileTree :=
  match p.refusal?, target p with
  | some e, _ => .error e
  | none, (_, none) => .error .exists
  | none, (above, some name) => do
    let place ← t.walk (t.start p) above
    match t.step place name with
    | .ok _ => .error .exists
    | .error .notFound => .ok { t with root := t.root.put (place ++ [name]) (.dir []) }
    | .error e => .error e

/-- Makes a directory; one that is there already is as good. -/
def ensureDir (t : FileTree) (p : Path) : Except SystemError FileTree :=
  match t.makeDir p with
  | .ok t' => .ok t'
  | .error e => if t.isDir p then .ok t else .error e

/-- Makes a directory and those above it that are missing.  The chain of paths above `p` is walked
upwards until one can be made, and then downwards again. -/
def makeDirs (t : FileTree) (p : Path) : Except SystemError FileTree :=
  go t p.ancestors
where
  /-- Makes the first directory of the chain, after those that follow it. -/
  go (t : FileTree) : List Path → Except SystemError FileTree
  | [] => .ok t
  | p :: above =>
    if p.text = "" then .ok t
    else match t.makeDir p with
    | .ok t' => .ok t'
    | .error .notFound => do
      let t' ← go t above
      t'.ensureDir p
    | .error e => if t.isDir p then .ok t else .error e

/-- Writes a file, in place of what it held.  A path that ends in a slash asks for a directory, and
no directory can be written, whatever stands at the path. -/
def writeText (t : FileTree) (p : Path) (text : String) : Except SystemError FileTree :=
  match p.refusal?, target p with
  | some e, _ => .error e
  | none, (_, none) => .error .isDirectory
  | none, (above, some name) => do
    let place ← t.walk (t.start p) above
    match t.step place name with
    | .error .notDirectory => .error .notDirectory
    | result =>
      if p.text.toList.getLast? = some '/' then .error .isDirectory
      else match result with
      | .error .notFound => .ok { t with root := t.root.put (place ++ [name]) (.file (.text text)) }
      | .error e => .error e
      | .ok found =>
        match t.root.get? found with
        | some (.file _) => .ok { t with root := t.root.put found (.file (.text text)) }
        | _ => .error .isDirectory

end FileTree

end GoResolver
