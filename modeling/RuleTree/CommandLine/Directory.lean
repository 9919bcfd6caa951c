/-! The files of a working directory, and how a path leads to one of them. A path is a row of names
with slashes between them, followed step by step; a step can only be taken from a folder. -/
namespace RuleTree.CommandLine

/-- The names in a path. Slashes that meet, or end the path, have an empty name between them or
after them. -/
def pathNames : List Char → List (List Char)
  | [] => [[]]
  | c :: cs =>
    if c = '/' then [] :: pathNames cs
    else match pathNames cs with
      | [] => [[c]]
      | name :: names => (c :: name) :: names

/-- Whether a name leaves one where one is. -/
def isStay (name : List Char) : Bool := name == [] || name == ['.']

def isAscent (name : List Char) : Bool := name == ['.', '.']

/-- Where a path leads: the names below the directory, the last one first. -/
abbrev Place := List (List Char)

structure Directory where
  files : List (Place × String)

namespace Directory

/-- A directory with the given files. A slash in the name of a file puts it into a folder. -/
def ofList (files : List (String × String)) : Directory :=
  ⟨files.map fun f => (((pathNames f.1.toList).filter (!isStay ·)).reverse, f.2)⟩

def content? (d : Directory) (place : Place) : Option String := d.files.lookup place

/-- Whether a place is a folder: the directory itself, or what a file lies in. -/
def isFolder (d : Directory) (place : Place) : Bool :=
  place.isEmpty || d.files.any fun f => place.isSuffixOf f.1 && decide (place.length < f.1.length)

/-- Takes the step that a name stands for. Around the directory nothing is known. -/
def step (d : Directory) (place : Place) (name : List Char) : Option Place :=
  if !d.isFolder place then none
  else if isStay name then some place
  else if isAscent name then place.tail?
  else some (name :: place)

/-- What the file holds that a path from the directory leads to. -/
def follow (d : Directory) (path : List Char) : Option String :=
  ((pathNames path).foldlM d.step []).bind d.content?

/-- What lies outside of every working directory: the null device, which is always empty. -/
def outside : Directory := ofList [("dev/null", "")]

/-- What the file holds that a path leads to. A slash in front leads outside. -/
def read? (d : Directory) (path : String) : Option String :=
  match path.toList with
  | '/' :: cs => outside.follow cs
  | cs => d.follow cs

end Directory

end RuleTree.CommandLine
