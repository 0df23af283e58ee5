/-
ShapeScript.Path — paths of files.

A path is a text of names with slashes between them. It is made absolute
by putting the working directory in front of a relative one and then
resolving `.` and `..` in the text alone, without a look at the disk. An
extension is what follows the last dot of the last name, unless only
dots stand before that dot.
-/
namespace ShapeScript.Path

/-- The names between the slashes of a path. -/
def splitSlashes : List Char → List (List Char)
  | [] => [[]]
  | c :: cs =>
    match c, splitSlashes cs with
    | '/', names => [] :: names
    | c, name :: names => (c :: name) :: names
    | c, [] => [[c]]

/-- The names of a path with slashes between them. -/
def joinSlashes : List (List Char) → List Char
  | [] => []
  | [name] => name
  | name :: names => name ++ '/' :: joinSlashes names

/-- The slashes that a path starts with, as far as they matter: exactly
two are kept, any other number counts as one. -/
def rootOf : List Char → List Char
  | '/' :: '/' :: '/' :: _ => ['/']
  | '/' :: '/' :: _ => ['/', '/']
  | '/' :: _ => ['/']
  | _ => []

/-- Resolves names in order onto those resolved before, which are kept in
reverse: `..` removes the name before it, and stays where there is
nothing to remove, which below a root means that it is dropped. -/
def resolveNames (rooted : Bool) : List (List Char) → List (List Char) → List (List Char)
  | [], done => done.reverse
  | name :: names, done =>
    if name = [] ∨ name = ['.'] then resolveNames rooted names done
    else if name = ['.', '.'] then
      match done with
      | [] => resolveNames rooted names (if rooted then [] else [name])
      | last :: before =>
        resolveNames rooted names (if last = ['.', '.'] then name :: done else before)
    else resolveNames rooted names (name :: done)

/-- The path without empty names, `.` and, as far as the text tells,
`..`; the empty path is `.`. -/
def normalize (path : List Char) : List Char :=
  let root := rootOf path
  match root ++ joinSlashes (resolveNames (!root.isEmpty) (splitSlashes path) []) with
  | [] => ['.']
  | path => path

/-- A path that does not depend on the working directory. -/
def isAbsolute : List Char → Bool
  | '/' :: _ => true
  | _ => false

/-- A path below a directory, unless it is absolute. -/
def join (directory path : List Char) : List Char :=
  if isAbsolute path then path
  else if directory.isEmpty ∨ directory.getLast? = some '/' then directory ++ path
  else directory ++ '/' :: path

/-- The absolute form of a path in a working directory. -/
def absolute (workingDirectory path : String) : String :=
  String.ofList (normalize (join workingDirectory.toList path.toList))

/-- The last name of a path. -/
def lastName (path : List Char) : List Char :=
  (path.reverse.takeWhile (· != '/')).reverse

/-- The number of characters from the last dot of a name on, if the name
has an extension. -/
def extensionLength (name : List Char) : Nat :=
  let after := name.reverse.takeWhile (· != '.')
  let before := name.take (name.length - after.length - 1)
  if after.length < name.length ∧ before.any (· != '.') then after.length + 1 else 0

/-- The path without its extension. -/
def withoutExtension (path : String) : String :=
  let cs := path.toList
  String.ofList (cs.take (cs.length - extensionLength (lastName cs)))

/-- The directory of a path: what stands before its last slash, without
the slashes at its end unless it is made of slashes only. -/
def directoryOf (path : String) : String :=
  let cs := path.toList
  let head := cs.take (cs.length - (lastName cs).length)
  if head.all (· == '/') then String.ofList head
  else String.ofList (head.reverse.dropWhile (· == '/')).reverse

end ShapeScript.Path
