/-!
# Paths

A path is text: names between slashes. `clean` gives its shortest form without looking at any files:
empty names and `.` are dropped, and `..` takes away the name before it. A path that starts with a
slash is absolute; nothing lies above its root.
-/

namespace Smpl.Path

/-- The names between the slashes of a path, empty ones included. -/
def names : List Char → List (List Char)
  | [] => [[]]
  | c :: rest =>
    if c = '/' then [] :: names rest
    else
      match names rest with
      | [] => [[c]]
      | first :: more => (c :: first) :: more

/-- Names with slashes between them. -/
def joinNames : List (List Char) → List Char
  | [] => []
  | [name] => name
  | name :: rest => name ++ '/' :: joinNames rest

/-- Whether a path starts at the root. -/
def isAbsolute (path : String) : Bool := path.toList.head? = some '/'

/-- Goes along one name; `walked` are the names so far, last first. -/
def follow (absolute : Bool) (walked : List (List Char)) (name : List Char) : List (List Char) :=
  if name = [] ∨ name = ['.'] then walked
  else if name = ['.', '.'] then
    match walked with
    | [] => if absolute then [] else [name]
    | last :: before => if last = ['.', '.'] then name :: walked else before
  else name :: walked

/-- The names of a path in its shortest form. -/
def cleanNames (path : String) : List (List Char) :=
  ((names path.toList).foldl (follow (isAbsolute path)) []).reverse

/-- The path of some names in their shortest form. -/
def ofNames (absolute : Bool) (shortest : List (List Char)) : String :=
  if absolute then String.ofList ('/' :: joinNames shortest)
  else if shortest.isEmpty then "."
  else String.ofList (joinNames shortest)

/-- A path in its shortest form. -/
def clean (path : String) : String := ofNames (isAbsolute path) (cleanNames path)

/-- Paths one after the other, in the shortest form; empty ones at the beginning do not count. -/
def join (parts : List String) : String :=
  match parts.dropWhile (· = "") with
  | [] => ""
  | rest => clean ("/".intercalate rest)

/-- The part of a path behind its last slash. -/
def lastName (path : List Char) : List Char := (names path).getLastD []

/-- The directory that holds what a path leads to. -/
def dir (path : String) : String :=
  let cs := path.toList
  clean (String.ofList (cs.take (cs.length - (lastName cs).length)))

/-- A path without slashes at its end. -/
def dropEndSlashes (path : List Char) : List Char := (path.reverse.dropWhile (· = '/')).reverse

/-- The name of what a path leads to. -/
def base (path : String) : String :=
  if path = "" then "."
  else
    match lastName (dropEndSlashes path.toList) with
    | [] => "/"
    | name => String.ofList name

/-- The last dot of a name and what follows it; nothing without a dot. -/
def extensionOf (name : List Char) : List Char :=
  if name.contains '.' then '.' :: (name.reverse.takeWhile (· ≠ '.')).reverse else []

/-- The extension of a path, with its dot. -/
def ext (path : String) : String := String.ofList (extensionOf (lastName path.toList))

/-- A path from a working directory on, made absolute. -/
def absolute (cwd path : String) : String :=
  if isAbsolute path then clean path else join [cwd, path]

/-- The directories of some names, last first: from the innermost up to the root. -/
def upwardFrom : List (List Char) → List String
  | [] => ["/"]
  | name :: outer => ofNames true (name :: outer).reverse :: upwardFrom outer

/-- A directory of an absolute path and all directories around it, innermost first. -/
def upward (directory : String) : List String := upwardFrom (cleanNames directory).reverse

end Smpl.Path
