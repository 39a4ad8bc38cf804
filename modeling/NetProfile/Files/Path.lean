/-!
# Paths

Texts that lead to files, as names with slashes between them.

## Main definitions

- `FilePath.join` — a path below a path
- `FilePath.names` — the names to follow one after the other
- `FilePath.parent?` — the path without its last name
-/

namespace NetProfile

namespace FilePath

/-- Whether a path starts at the top. -/
def isAbsolute (path : String) : Bool := path.toList.head? = some '/'

/-- The path `path` below `base`. An absolute path stays as it is. -/
def join (base path : String) : String :=
  if isAbsolute path || base = "" then path
  else if base.toList.getLast? = some '/' then base ++ path
  else base ++ "/" ++ path

/-- A text cut at its slashes. -/
def pieces : List Char → List (List Char)
  | [] => [[]]
  | c :: rest =>
    if c = '/' then [] :: pieces rest
    else
      match pieces rest with
      | [] => [[c]]
      | piece :: more => (c :: piece) :: more

/-- The names in a path. A slash at the end asks for a directory, which an empty
name behind the others says. -/
def names (path : String) : List String :=
  let found := ((pieces path.toList).filter (fun piece => !piece.isEmpty)).map String.ofList
  if path.toList.getLast? = some '/' then found ++ [""] else found

/-- The path without slashes at its end. -/
def trimSlashes (s : List Char) : List Char := (s.reverse.dropWhile (· == '/')).reverse

/-- The path without its last name and the slashes around it; nothing for a path
without names. -/
def parent? (path : String) : Option String :=
  let body := trimSlashes path.toList
  if body.isEmpty then none
  else
    let around := (body.reverse.dropWhile (· != '/')).reverse
    let trimmed := trimSlashes around
    some (String.ofList (if trimmed.isEmpty then around.take 1 else trimmed))

end FilePath

end NetProfile
