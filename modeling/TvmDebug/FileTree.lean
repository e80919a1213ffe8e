/-!
# Files and directories

* `FileTree`: the files and directories that a program can see, and the directory in which its
  relative paths start.
* `FileTree.follow?`: the place to which a path leads. Every place on the way must be a directory.
* `FileTree.read`: the content of the file at a path.
* `FileTree.isWritable`: whether a file can be written at a path.
* `FileTree.insert`: puts a file or a directory at a path, with the directories on the way.
-/
set_option autoImplicit false

namespace TvmDebug

/-- The names that lead from the root to a place. -/
abbrev Place := List String

/-- The place to which a name leads from a place. An empty name and `.` lead nowhere else, and `..`
leads to the directory around; the root is around itself. -/
def Place.next (p : Place) (name : String) : Place :=
  if name = "" ∨ name = "." then p
  else if name = ".." then p.dropLast
  else p ++ [name]

inductive FileNode where
  | directory
  | file (content : ByteArray)

structure FileTree where
  /-- What is where; the first node of a place counts. -/
  nodes : List (Place × FileNode)
  /-- Where relative paths start. -/
  here : Place

namespace FileTree

/-! ## Places -/

/-- What is at a place. The root is always there. -/
def node? (t : FileTree) (p : Place) : Option FileNode :=
  if p.isEmpty then some .directory else t.nodes.lookup p

def isDirectory (t : FileTree) (p : Place) : Bool :=
  match t.node? p with
  | some .directory => true
  | _ => false

/-! ## Following paths -/

def longestPath : Nat := 4095

def longestName : Nat := 255

def namesOf (path : String) : List String := path.splitOn "/"

def startOf (t : FileTree) (path : String) : Place := if path.startsWith "/" then [] else t.here

/-- The place to which names lead one after the other. Whatever a name leads away from, be it to
itself, must be a directory. -/
def followNames? (t : FileTree) (p : Place) : List String → Option Place
  | [] => some p
  | name :: names => if t.isDirectory p then t.followNames? (p.next name) names else none

/-- The place to which a path leads; nothing has to be there. -/
def follow? (t : FileTree) (path : String) : Option Place :=
  if path.utf8ByteSize ≤ longestPath then t.followNames? (t.startOf path) (namesOf path) else none

def read (t : FileTree) (path : String) : Option ByteArray :=
  match (t.follow? path).bind t.node? with
  | some (.file content) => some content
  | _ => none

/-- Whether a file can be written at a path: its directory must be there, and the name must be that
of a file or a new one. -/
def isWritable (t : FileTree) (path : String) : Bool :=
  (t.follow? path).any fun p => !t.isDirectory p &&
    p.getLast?.any fun name => name.utf8ByteSize ≤ longestName && !name.contains '\x00'

/-! ## Adding files and directories -/

/-- Puts a node to where names lead. A place on the way becomes a directory if nothing is there. -/
def insertNames (t : FileTree) (node : FileNode) (p : Place) : List String → FileTree
  | [] => { t with nodes := (p, node) :: t.nodes }
  | name :: names =>
    let paved := if (t.node? p).isNone then { t with nodes := (p, .directory) :: t.nodes } else t
    paved.insertNames node (p.next name) names

def insert (t : FileTree) (path : String) (node : FileNode) : FileTree :=
  t.insertNames node (t.startOf path) (namesOf path)

/-- An empty directory, with the directories around it, in which relative paths start. -/
def startingAt (path : String) : FileTree :=
  { insert ⟨[], []⟩ path .directory with here := (namesOf path).foldl Place.next [] }

end FileTree

end TvmDebug
