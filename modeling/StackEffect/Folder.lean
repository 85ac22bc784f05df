import StackEffect.Files

/-!
A folder of files, kept as a value, and the little that is known of what lies around it. What is
written appears in place of an older text or at the end. Directories are those that the files lie
in, all that are above the folder, and those that every system has.
-/
namespace StackEffect

/-- Each file is known by the names on its way. A way out of the folder begins with a `..` for each
step up, and one that comes from the root begins with `/`. -/
structure Folder where
  files : List (List String × String) := []
deriving DecidableEq, Inhabited

inductive Obstacle
  | missing
  | notDirectory
  | isDirectory
  | tooLong
  | holdsNul
deriving DecidableEq

def Obstacle.message : Obstacle → String
  | missing => "No such file or directory (os error 2)"
  | notDirectory => "Not a directory (os error 20)"
  | isDirectory => "Is a directory (os error 21)"
  | tooLong => "File name too long (os error 36)"
  | holdsNul => "file name contained an unexpected NUL byte"

namespace Folder

def pathLimit : Nat := 4095

def nameLimit : Nat := 255

def nullDevice : List String := ["/", "dev", "null"]

def systemDirectories : List (List String) :=
  ["/"] :: ["bin", "boot", "dev", "etc", "home", "lib", "media", "mnt", "opt", "proc", "root", "run",
    "sbin", "srv", "sys", "tmp", "usr", "var"].map fun name => ["/", name]

def origin (path : String) : List String := if path.startsWith "/" then ["/"] else []

/-- The directory above a place. The root is above itself. -/
def above (place : List String) : List String :=
  if place.all (· = "..") then ".." :: place
  else if place = ["/"] then place
  else place.dropLast

def isInside (place : List String) : Bool := place.head? ≠ some "/" && place.head? ≠ some ".."

def text? (f : Folder) (place : List String) : Option String :=
  if place = nullDevice then some "" else f.files.lookup place

def isDirectory (f : Folder) (place : List String) : Bool :=
  place.all (· = "..") || systemDirectories.contains place ||
    f.files.any fun (p, _) => place.isPrefixOf p && place ≠ p

/-- Follows the names of a path, all but the last of which have to be directories. -/
def follow (f : Folder) (place : List String) : List String → Except Obstacle (List String)
  | [] => .ok place
  | name :: rest =>
    if name = "" ∨ name = "." then f.follow place rest
    else if name = ".." then f.follow (above place) rest
    else if nameLimit < name.utf8ByteSize then .error .tooLong
    else
      let next := place ++ [name]
      if rest.isEmpty ∨ f.isDirectory next then f.follow next rest
      else if (f.text? next).isSome then .error .notDirectory
      else .error .missing

/-- Refuses what is no path, wherever it might lead. -/
def check (path : String) : Except Obstacle Unit :=
  if '\x00' ∈ path.toList then .error .holdsNul
  else if path.isEmpty then .error .missing
  else if pathLimit < path.utf8ByteSize then .error .tooLong
  else .ok ()

def read (f : Folder) (path : String) : Except Obstacle String := do
  check path
  let place ← f.follow (origin path) (path.splitOn "/")
  if f.isDirectory place then throw .isDirectory
  match f.text? place with
  | some text => return text
  | none => throw .missing

def filesWith (place : List String) (text : String) :
    List (List String × String) → List (List String × String)
  | [] => [(place, text)]
  | (p, old) :: rest =>
    if p = place then (p, text) :: rest else (p, old) :: filesWith place text rest

def put (f : Folder) (place : List String) (text : String) : Folder :=
  if place = nullDevice then f else ⟨filesWith place text f.files⟩

theorem lookup_filesWith (place other : List String) (text : String)
    (files : List (List String × String)) :
    (filesWith place text files).lookup other =
      if other = place then some text else files.lookup other := by
  induction files with
  | nil => by_cases h : other = place <;> simp [filesWith, h]
  | cons file rest ih =>
    obtain ⟨p, old⟩ := file
    by_cases h : other = p
    · by_cases hp : p = place <;> simp [filesWith, hp, h]
    · have hb : (other == p) = false := by simpa using h
      by_cases hp : p = place
      · subst hp
        simp [filesWith, List.lookup_cons, hb, h]
      · simp [filesWith, List.lookup_cons, hp, hb, ih]

theorem text?_put (f : Folder) {place : List String} (h : place ≠ nullDevice)
    (other : List String) (text : String) :
    (f.put place text).text? other = if other = place then some text else f.text? other := by
  by_cases ho : other = place
  · subst ho
    simp [put, text?, h, lookup_filesWith]
  · simp [put, text?, h, lookup_filesWith, ho]

/-- A path that ends in a slash means a directory, whether there is one or not. -/
def write (f : Folder) (path text : String) : Except Obstacle Folder := do
  check path
  let bare := (path.dropEndWhile '/').toString
  if bare ≠ path then
    let _ ← f.follow (origin path) ((bare.splitOn "/").dropLast ++ ["."])
    throw .isDirectory
  let place ← f.follow (origin path) (path.splitOn "/")
  if f.isDirectory place then throw .isDirectory
  return f.put place text

def changesSince (f old : Folder) : List (List String × String) :=
  f.files.filter fun (place, text) => isInside place && old.text? place ≠ some text

def access : Files (StateM Folder) where
  read path := return ((← get).read path).mapError Obstacle.message
  write path text := do
    match (← get).write path text with
    | .ok f => set f; return .ok ()
    | .error obstacle => return .error obstacle.message

end Folder
end StackEffect
