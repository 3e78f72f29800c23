import Schemata.Text.Line

/-!
# Paths

Paths of files are texts with slashes between their parts. `Path.normalize` leaves out the parts
that say nothing: empty ones and single dots. Two slashes at the start are kept, as they may mean
something else than one. `Path.resolve` also takes the steps up.
-/

namespace Schemata.Path

/-- The parts of a path that say something. -/
def parts (path : List Char) : List (List Char) :=
  (Text.splitAt '/' path).filter fun part => part ≠ [] ∧ part ≠ ['.']

/-- The slashes with which a path starts: none, one or exactly two. -/
def root (path : List Char) : List Char :=
  match path.takeWhile (· == '/') with
  | [] => []
  | ['/', '/'] => ['/', '/']
  | _ => ['/']

/-- A path of parts behind a root; a dot if nothing is left. -/
def ofParts (root : List Char) (parts : List (List Char)) : String :=
  match root ++ ['/'].intercalate parts with
  | [] => "."
  | path => String.ofList path

/-- A path without the parts that say nothing; a dot if nothing is left. -/
def normalize (path : String) : String :=
  ofParts (root path.toList) (parts path.toList)

/-- The path of a name in a directory. A name that starts with a slash stands for itself. -/
def join (directory name : String) : String :=
  if root name.toList = [] then
    ofParts (root directory.toList) (parts directory.toList ++ parts name.toList)
  else normalize name

/-- The directory in which a file lies. -/
def parent (path : String) : String :=
  ofParts (root path.toList) (parts path.toList).dropLast

/-- The last part of a path. -/
def name (path : String) : String :=
  String.ofList ((parts path.toList).getLast?.getD [])

/-- The directories above a path, the nearest first, itself included. -/
def ancestry (path : String) : List String :=
  let all := parts path.toList
  (List.range (all.length + 1)).map fun n => ofParts (root path.toList) (all.take (all.length - n))

/-- Parts after the steps up have been taken; above the root there is nothing. -/
def stepUp (parts : List (List Char)) : List (List Char) :=
  parts.foldl
    (fun before part => if part = ['.', '.'] then before.dropLast else before ++ [part]) []

/-- A path after the steps up have been taken. -/
def resolve (path : String) : String :=
  ofParts (root path.toList) (stepUp (parts path.toList))

example : normalize "a//b/./c/" = "a/b/c" := by decide +kernel

example : resolve "/a/../b/c/.." = "/b" := by decide +kernel

end Schemata.Path
