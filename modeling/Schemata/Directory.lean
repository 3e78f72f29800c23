import Schemata.Path

/-!
# Making directories

The directories that lead to a file are made before the file is written. `Tree.make` goes along a
path from the outside in and makes each directory that is missing; it gives the directories made, or
the `Obstacle` that it ran into. Steps up are taken on the way, so that `a/../b` makes both `a` and
`b`.
-/

namespace Schemata

/-- What is there before directories are made. -/
structure Tree where
  /-- The directories. -/
  directories : List String
  /-- The files. -/
  files : List String

/-- What stands in the way of making a directory. -/
inductive Obstacle where
  /-- A file is in its place. -/
  | file
  /-- A file is in the place of a directory that leads to it. -/
  | fileAbove
  /-- The path or a name in it is too long. -/
  | overlong
  /-- The path holds the character with the number zero. -/
  | zero
deriving DecidableEq, Repr

/-- The number of bytes that a name in a path may have. -/
def Path.nameLimit : Nat := 255

/-- The number of bytes that a path may have. -/
def Path.limit : Nat := 4095

namespace Tree

variable (tree : Tree)

/-- Makes the missing ones of some directories, each of which leads to the next, `made` being those
that were made before. A file stops the making at the place where the last missing directory was
looked for. -/
def makeEach (made : List String) : List String → Except Obstacle (List String)
  | [] => .ok made
  | path :: below =>
    let place := Path.resolve path
    if tree.files.contains place then
      .error (if below.isEmpty || !made.isEmpty then .file else .fileAbove)
    else if tree.directories.contains place || made.contains place then makeEach made below
    else if Path.nameLimit < (Path.name path).utf8ByteSize then .error .overlong
    else makeEach (made ++ [place]) below

/-- Makes a directory, the path of which starts at another one, and those that lead to it. -/
def make (start path : String) : Except Obstacle (List String) :=
  if path.toList.contains '\x00' then .error .zero
  else if Path.limit < path.utf8ByteSize then .error .overlong
  else tree.makeEach [] (Path.ancestry (Path.join start path)).reverse

end Tree

example : ((Tree.mk ["."] ["x"]).make "." "a/../b").toOption = some ["a", "b"] := by decide +kernel

example : ((Tree.mk ["."] ["x"]).make "." "x/b").toOption = none := by decide +kernel

end Schemata
