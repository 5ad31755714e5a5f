set_option autoImplicit false

/-! Paths as the names of the folders passed on the way down. A closing dot is kept: such a path
can be opened but no file can be put in its place. -/

namespace BundleStore

abbrev FilePath := List String

namespace FilePath

def splitSlashes (chars : List Char) : List (List Char) :=
  chars.foldr (fun char parts =>
    match parts with
    | [] => [[char]]
    | first :: rest => if char = '/' then [] :: first :: rest else (char :: first) :: rest) [[]]

def segments (text : String) : List String := (splitSlashes text.toList).map String.ofList

/-- Takes one more segment; a step up leaves the folder. -/
def descend (path : FilePath) (segment : String) : FilePath :=
  let folder := path.filter (· ≠ ".")
  if segment = "" then path
  else if segment = ".." then folder.dropLast
  else folder ++ [segment]

/-- A text that starts with a slash starts from the top, any other from the given folder. -/
def resolve (base : FilePath) (text : String) : FilePath :=
  (segments text).foldl descend (if text.startsWith "/" then [] else base)

/-- The folder that holds the path. A closing dot does not count as a name. -/
def parent (path : FilePath) : FilePath := (path.filter (· ≠ ".")).dropLast

def below (folder path : FilePath) : Bool := folder.isPrefixOf path

end FilePath

/-- A path together with the text that messages show for it. -/
structure Location where
  shown : String
  path : FilePath
deriving DecidableEq

namespace Location

def ofText (base : FilePath) (text : String) : Location := ⟨text, FilePath.resolve base text⟩

def join (folder : Location) (name : String) : Location :=
  { shown :=
      if folder.shown = "" ∨ folder.shown.endsWith "/" then folder.shown ++ name
      else folder.shown ++ "/" ++ name
    path := FilePath.resolve folder.path name }

end Location

end BundleStore
