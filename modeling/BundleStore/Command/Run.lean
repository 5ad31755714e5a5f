import BundleStore.Command.Arguments
import BundleStore.Command.Listing
import BundleStore.Repository.Store
import BundleStore.Session

set_option autoImplicit false

/-! Running a command on a tree of files. Identifiers are read before a repository is opened, and
nothing is written out before everything that it shows has been read. -/

namespace BundleStore.Command

inductive Failure where
  | identifier (text : String)
  | opening (root : String) (cause : RepositoryError)
  | repository (cause : RepositoryError)
deriving DecidableEq

/-- The message of the failure and of each cause below it, outermost first. -/
def Failure.chain (words : Wording) : Failure → List String
  | .identifier text =>
      ["invalid node id " ++ Text.quoted text, (IdentifierError.nodeId text).message words]
  | .opening root cause => ("opening repository at " ++ root) :: cause.chain words
  | .repository cause => cause.chain words

/-- What a command writes, or why it fails, and the tree of files as it leaves it. -/
structure Outcome where
  result : Except Failure (List String)
  tree : FileTree

def readId (text : String) : Except Failure NodeId :=
  match NodeId.ofText? text with
  | some id => .ok id
  | none => .error (.identifier text)

def readSettings (options : RepositoryOptions) (folder : FilePath) (tree : FileTree) :
    Except SettingsError Settings := do
  let settings ← match options.settings with
    | none => pure Settings.default
    | some file => Settings.load (Location.ofText folder file) tree
  match options.cacheSize with
  | none => return settings
  | some size => settings.setCacheSize size

/-- Opens the repository, runs a task on it and shows what comes of that. -/
def onRepository {α : Type} (options : RepositoryOptions) (folder : FilePath) (tree : FileTree)
    (task : Task RepositoryError α) (render : FileStorage → α → List String) : Outcome :=
  match readSettings options folder tree with
  | .error cause => ⟨.error (.repository (.settings cause)), tree⟩
  | .ok settings =>
      let root := Location.ofText folder options.root
      match FileStorage.openRoot root Interner.namespaces tree with
      | (.error cause, tree) => ⟨.error (.opening options.root cause), tree⟩
      | (.ok storage, tree) =>
          match Session.start settings (.files storage) with
          | .error cause => ⟨.error (.repository cause), tree⟩
          | .ok session =>
              let (result, session) := session.run task
              let storage := (session.storage.files?).getD storage
              ⟨(result.map (render storage)).mapError Failure.repository, storage.tree⟩

def loadWhole (id : NodeId) : Task RepositoryError (Node × List Property) := do
  let node ← Repository.loadNode id
  let properties ← (SortedSet.elements node.properties).mapM (fun name =>
    Repository.loadProperty ⟨id, name⟩)
  return (node, properties)

def missingOf : List NodeId → Task RepositoryError (List NodeId)
  | [] => return []
  | id :: rest => do
      let stored ← Repository.existsNode id
      let missing ← missingOf rest
      return if stored then missing else id :: missing

def inspect (ids : List NodeId) (recursive repair : Bool) :
    Task RepositoryError (List NodeId × List Problem) := do
  let missing ← missingOf ids
  let problems ← Repository.check ids recursive repair
  return (missing, problems)

def Invocation.run (words : Wording) (invocation : Invocation) (folder : FilePath)
    (tree : FileTree) : Outcome :=
  let asJson := invocation.format = .json
  match invocation.request with
  | .path text =>
      ⟨(readId text).map (fun id =>
        if asJson then [(pathJson id).compact] else pathLines id), tree⟩
  | .display options text =>
      match readId text with
      | .error failure => ⟨.error failure, tree⟩
      | .ok id =>
          onRepository options folder tree (loadWhole id) (fun _ (node, properties) =>
            if asJson then [(nodeJson node properties).pretty] else nodeLines node properties)
  | .check options texts recursive repair =>
      match texts.mapM readId with
      | .error failure => ⟨.error failure, tree⟩
      | .ok ids =>
          onRepository options folder tree (inspect ids recursive repair)
            (fun _ (missing, problems) =>
              let problems := problems.map (Problem.text words)
              if asJson then [(checkJson missing problems).compact]
              else checkLines missing problems repair)
  | .index options =>
      onRepository options folder tree (.done ()) (fun storage _ =>
        let namespaces := storage.blobs.paths.namespaces.interner.entries
        let names := storage.blobs.paths.names.interner.entries
        if asJson then [(indexJson namespaces names).compact] else indexLines namespaces names)

end BundleStore.Command
