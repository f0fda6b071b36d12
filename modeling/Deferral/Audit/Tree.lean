import Deferral.Audit.Source
import Deferral.Config.Path

/-!
# Auditing a tree of files

Finds the source files at or below a path, in the order of their paths, and scans them. Paths are
ordered name by name, and names by their bytes, so the order in which a directory lists its
entries does not show.
-/

namespace Deferral.Audit

/-- A file with its content, or a directory with its entries in the order in which it lists
them. -/
inductive Node
  | file (content : ByteArray)
  | directory (entries : List (String × Node))

namespace Node

/-- An empty directory. -/
def empty : Node := .directory []

mutual

/-- The files at or below a node, by the names that lead to them. -/
def files : Node → List (List String × ByteArray)
  | .file content => [([], content)]
  | .directory entries => filesOf entries

/-- The files at or below the entries of a directory. -/
def filesOf : List (String × Node) → List (List String × ByteArray)
  | [] => []
  | (name, node) :: rest => (files node).map (fun f => (name :: f.1, f.2)) ++ filesOf rest

end

/-- Put a node into the place that names lead to; directories on the way are made. -/
def put (new : Node) : List String → Node → Node
  | [], .directory entries =>
    match new with
    | .directory _ => .directory entries
    | .file content => .file content
  | [], .file _ => new
  | name :: names, .directory entries =>
    match entries.lookup name with
    | some node =>
      .directory (entries.map fun e => if e.1 = name then (name, put new names node) else e)
    | none => .directory (entries ++ [(name, put new names empty)])
  | _ :: _, .file content => .file content

/-- The node that names lead to, from a node and the ones above it. An empty name or a dot stays,
two dots go up, and all of them need a directory. -/
def walk : List String → List Node → Node → Option Node
  | [], _, node => some node
  | _ :: _, _, .file _ => none
  | name :: names, above, .directory entries =>
    if name = "" ∨ name = "." then walk names above (.directory entries)
    else if name = ".." then
      match above with
      | up :: above => walk names above up
      | [] => none
    else
      match entries.lookup name with
      | some node => walk names (.directory entries :: above) node
      | none => none

end Node

/-- The parts of a text between slashes. -/
def splitSlashes : List Char → List (List Char)
  | [] => [[]]
  | c :: rest =>
    match splitSlashes rest with
    | [] => [[c]]
    | name :: names => if c = '/' then [] :: name :: names else (c :: name) :: names

/-- The names in a path. -/
def namesOf (path : String) : List String :=
  (splitSlashes path.toList).map String.ofList

/-- The node at a relative path. -/
def Node.find? (path : String) (root : Node) : Option Node :=
  if path = "" then none else walk (namesOf path) [] root

/-- What follows the last point of a file name, unless the point is the first character. -/
def extension? (name : String) : Option (List Char) :=
  let reversed := name.toList.reverse
  let ext := reversed.takeWhile (· ≠ '.')
  match reversed.drop ext.length with
  | _ :: _ :: _ => some ext.reverse
  | _ => none

/-- Whether a file of this name is a source. -/
def isSourceName (name : String) : Bool :=
  extension? name == some ['r', 's']

/-- Whether a path, as a list of names, comes before another one or is the same. -/
def pathLe : List String → List String → Bool
  | [], _ => true
  | _ :: _, [] => false
  | a :: p, b :: q => a < b || (a = b && pathLe p q)

/-- The name that a path ends in. -/
def lastName (path : String) : String :=
  ((namesOf path).filter fun n => n ≠ "" ∧ n ≠ ".").getLast?.getD ""

/-- A path with further names behind it. -/
def extend (path : String) (names : List String) : String :=
  names.foldl joinPath path

/-- The source files at or below a path, in order, with their contents. -/
def sourceFiles (path : String) (root : Node) : List (String × ByteArray) :=
  match root.find? path with
  | none => []
  | some node =>
    let isSource (f : List String × ByteArray) : Bool :=
      isSourceName (f.1.getLast?.getD (lastName path))
    let files := (node.files.filter isSource).mergeSort fun a b => pathLe a.1 b.1
    files.map fun f => (extend path f.1, f.2)

/-- The paths of the source files at or below a path, in order. -/
def sources (path : String) (root : Node) : List String :=
  (sourceFiles path root).map (·.1)

/-- The violations of all source files at or below a path. Files that are no text are left
out. -/
def scan (path : String) (root : Node) (patterns : List (List Char)) : List Violation :=
  (sourceFiles path root).flatMap fun f =>
    match String.fromUTF8? f.2 with
    | some text => scanSource f.1 text.toList patterns
    | none => []

end Deferral.Audit
