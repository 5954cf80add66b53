import SchemaStubs.Text.Join

/-!
Paths with slashes: the shortest equivalent path, its last element, its directory, its extension,
and putting paths together. A path is taken apart at slashes; `.` and empty elements stand for
nothing and `..` takes back the element before it.
-/

namespace SchemaStubs.Files.Path

def isRooted (path : String) : Bool :=
  Text.startsWith "/" path

/-- Adds one element to a path given by its elements in reverse. At the root `..` stays there; with
nothing to take back it is kept. -/
def enter (rooted : Bool) (done : List String) (element : String) : List String :=
  if element == "" || element == "." then done
  else if element == ".." then
    match done with
    | [] => if rooted then [] else [".."]
    | last :: rest => if last == ".." then ".." :: done else rest
  else element :: done

def elements (path : String) : List String :=
  ((Text.splitAt '/' path).foldl (enter (isRooted path)) []).reverse

def clean (path : String) : String :=
  let body := Text.joinWith "/" (elements path)
  if isRooted path then "/" ++ body
  else if body == "" then "." else body

def join (paths : List String) : String :=
  match paths.filter fun path => path != "" with
  | [] => ""
  | present => clean (Text.joinWith "/" present)

/-- The last element of a path; trailing slashes do not count. -/
def base (path : String) : String :=
  if path == "" then "."
  else
    let trimmed := (path.toList.reverse.dropWhile fun c => c == '/').takeWhile fun c => c != '/'
    if trimmed.isEmpty then "/" else String.ofList trimmed.reverse

def directory (path : String) : String :=
  clean (String.ofList (path.toList.reverse.dropWhile fun c => c != '/').reverse)

/-- The last element from its last point on; empty without a point. -/
def extension (path : String) : String :=
  let last := path.toList.reverse.takeWhile fun c => c != '/'
  if last.contains '.' then
    String.ofList ('.' :: (last.takeWhile fun c => c != '.').reverse)
  else ""

/-- The path seen from the root, for a path seen from a directory. -/
def absolute (workingDirectory path : String) : String :=
  if isRooted path then clean path else join [workingDirectory, path]

end SchemaStubs.Files.Path
