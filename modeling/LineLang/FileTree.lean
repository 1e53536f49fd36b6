import LineLang.ReadError
import LineLang.Text.Lines

/-!
# Files

A small file system: a working directory with the files below it. There are no links, and nothing is
forbidden. A place in it is known by the names on the way to it from the root.
-/

namespace LineLang

/-- Files with their contents, and directories. Both are known by the names on the way to them from the
working directory, and this by the names on the way to it from the root. -/
structure FileTree where
  files : List (List String × ByteArray) := []
  directories : List (List String) := []
  home : List String := ["home"]

namespace FileTree

/-- The longest name of a file, in bytes. -/
def maxName : Nat := 255

/-- The longest path, in bytes. -/
def maxPath : Nat := 4095

/-- The names in a path. Behind a `/` at the end stands an empty one. -/
def names (path : String) : List String :=
  (linesBy (· == '/') (path.toList ++ ['/'])).map String.ofList

/-- The working directory, a directory that is listed, and what any of these or a file lies below. -/
def isDirectory (tree : FileTree) (place : List String) : Bool :=
  place.isPrefixOf tree.home ||
    tree.directories.any (fun directory => place.isPrefixOf (tree.home ++ directory)) ||
    tree.files.any fun file => place.isPrefixOf (tree.home ++ file.1) && place != tree.home ++ file.1

def file? (tree : FileTree) (place : List String) : Option ByteArray :=
  (tree.files.find? fun file => tree.home ++ file.1 == place).map Prod.snd

/-- Follows names from a place. Above the root is the root. -/
def follow (tree : FileTree) (place : List String) : List String → Except ReadError ByteArray
  | [] =>
    if tree.isDirectory place then .error .isDirectory
    else
      match tree.file? place with
      | some bytes => .ok bytes
      | none => .error .missing
  | name :: rest =>
    if tree.isDirectory place then
      if name = "" || name = "." then tree.follow place rest
      else if name = ".." then tree.follow place.dropLast rest
      else if maxName < name.utf8ByteSize then .error .nameTooLong
      else tree.follow (place ++ [name]) rest
    else if (tree.file? place).isSome then .error .notDirectory
    else .error .missing

def read (tree : FileTree) (path : String) : Except ReadError ByteArray :=
  if path = "" then .error .missing
  else if maxPath < path.utf8ByteSize then .error .nameTooLong
  else tree.follow (if path.toList.head? = some '/' then [] else tree.home) (names path)

end FileTree

end LineLang
