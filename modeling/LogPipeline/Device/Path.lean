/-
Path texts. A path is a list of names between slashes; empty names and
single dots stand for the directory they are read in.
-/

namespace LogPipeline.Path

/-- The texts between the slashes. -/
def split : List Char → List (List Char)
  | [] => [[]]
  | c :: rest =>
    if c = '/' then [] :: split rest
    else match split rest with
      | [] => [[c]]
      | name :: names => (c :: name) :: names

/-- Drop what adds nothing to the end of a path, given backwards: slashes,
and dots that stand alone behind a slash. -/
def dropIdle : List Char → List Char
  | '/' :: c :: rest => dropIdle (c :: rest)
  | '.' :: '/' :: rest => dropIdle ('/' :: rest)
  | cs => cs

/-- The path of the directory that a path's last name stands in: empty for
a lone name, and nothing for a path without a name. -/
def parent? (path : List Char) : Option (List Char) :=
  match dropIdle path.reverse with
  | [] => none
  | ['/'] => none
  | cs => some (dropIdle (cs.dropWhile (· ≠ '/'))).reverse

end LogPipeline.Path
