import BundleStore.Command.Run

set_option autoImplicit false

/-! The program. It takes the files that a command may look at into a tree, runs the command on
that tree, and then brings the disk to what the tree holds. No command removes a file. -/

namespace BundleStore.Program

open Command

def usage : String := "usage: bundlestore [-v] [--format text|json] path|show|check|index ..."

def version : String := "bundlestore 0.1.0"

def Refusal.text : Refusal → String
  | .help => usage
  | .version => version
  | .noArguments => usage
  | .noCommand => "a command is missing"
  | .unknownCommand => "no such command"
  | .unknownArgument => "unexpected argument"
  | .missingOperand => "a node identifier is missing"
  | .invalidValue => "an option has no value, or none that it takes"
  | .unwantedValue => "an option takes no value"
  | .repeated => "an option is given twice"

def Refusal.code : Refusal → UInt32
  | .help => 0
  | .version => 0
  | _ => 2

def onDisk (path : FilePath) : String := "/" ++ String.intercalate "/" path

/-- Takes what lies at the path into the tree, so many levels deep. -/
def gather : Nat → FilePath → FileTree → IO FileTree
  | 0, _, tree => return tree
  | depth + 1, path, tree => do
      let place := (← IO.currentDir) / onDisk path
      if ← place.isDir then
        (← place.readDir).foldlM (fun tree entry => gather depth (path ++ [entry.fileName]) tree)
          (tree.makeFolders path).2
      else if ← place.pathExists then
        return (tree.write path (← IO.FS.readBinFile place).data.toList).2
      else return tree

/-- Records lie four levels below the root; blobs are not expected to lie much deeper. -/
def depthLimit : Nat := 64

/-- Takes the path with all below it, and the folders above it. -/
def gatherAround (tree : FileTree) (path : FilePath) : IO FileTree := do
  let tree ← (List.range path.length).foldlM (fun tree count => gather 1 (path.take count) tree)
    tree
  gather depthLimit path tree

def placesOf : Request → List String
  | .path _ => []
  | .display options _ => options.root :: options.settings.toList
  | .check options _ _ _ => options.root :: options.settings.toList
  | .index options => options.root :: options.settings.toList

/-- A file takes its place at once. -/
def bring (before : FileTree) (path : FilePath) (node : FileNode) : IO Unit := do
  if before.nodes.find? path ≠ some node then
    match node with
    | .folder => IO.FS.createDirAll (onDisk path)
    | .file bytes =>
        IO.FS.writeBinFile (onDisk path ++ ".new") ⟨bytes.toArray⟩
        IO.FS.rename (onDisk path ++ ".new") (onDisk path)

def perform (invocation : Invocation) : IO UInt32 := do
  let folder := FilePath.resolve [] (← IO.currentDir).toString
  let places := (placesOf invocation.request).map (FilePath.resolve folder)
  let before ← places.foldlM gatherAround FileTree.empty
  let outcome := invocation.run Wording.plain folder before
  for (path, node) in outcome.tree.nodes.entries do bring before path node
  match outcome.result with
  | .ok lines =>
      for line in lines do IO.println line
      return 0
  | .error failure =>
      for line in failure.chain Wording.plain do IO.eprintln line
      return 1

def start (arguments : List String) : IO UInt32 := do
  match Invocation.ofArguments arguments with
  | .ok invocation => perform invocation
  | .error refusal =>
      if Refusal.code refusal = 0 then IO.println (Refusal.text refusal)
      else IO.eprintln (Refusal.text refusal)
      return Refusal.code refusal

end BundleStore.Program

def main (arguments : List String) : IO UInt32 := BundleStore.Program.start arguments
