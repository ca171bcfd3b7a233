/-!
# Paths

Paths are texts with components between slashes. Nothing here looks at files.
-/

namespace CategoryAudit.Path

def splitChars : List Char → List (List Char)
  | [] => [[]]
  | c :: rest =>
    match splitChars rest with
    | part :: parts => if c == '/' then [] :: part :: parts else (c :: part) :: parts
    | [] => [[c]]

def components (path : String) : List String := (splitChars path.toList).map String.ofList

def isAbsolute (path : String) : Bool := path.toList.head? == some '/'

def endsInSlash (path : String) : Bool := path.toList.getLast? == some '/'

def join (directory name : String) : String :=
  if directory == "" || endsInSlash directory then directory ++ name
  else directory ++ "/" ++ name

def below (directory name : String) : String :=
  if directory == "" then name else directory ++ "/" ++ name

/-- The directory part of a path, without slashes at its end unless it has nothing else. -/
def parent (path : String) : String :=
  let head := (path.toList.reverse.dropWhile (· != '/')).reverse
  if head.all (· == '/') then String.ofList head
  else String.ofList (head.reverse.dropWhile (· == '/')).reverse

/-- The last suffix of a name with its point. Points in front of everything else begin none. -/
def suffix (name : String) : String :=
  let tail := name.toList.reverse.takeWhile (· != '.')
  let front := name.toList.reverse.dropWhile (· != '.')
  match front with
  | '.' :: before => if before.all (· == '.') then "" else String.ofList ('.' :: tail.reverse)
  | _ => ""

/-- Carries out `.` and `..` without looking at files; `done` is backwards. -/
def normalize (done : List String) : List String → List String
  | [] => done.reverse
  | c :: rest =>
    if c == "" || c == "." then normalize done rest
    else if c == ".." then normalize done.tail rest
    else normalize (c :: done) rest

def absolute (working : List String) (path : String) : String :=
  let start := if isAbsolute path then [] else working
  "/" ++ "/".intercalate (normalize [] (start ++ components path))

end CategoryAudit.Path
