import BundleStore.Proofs.Storage.Visits
import BundleStore.Session

set_option autoImplicit false

/-! Storage in files, opened where nothing lies yet, and empty storage in memory give the same answers
to whatever is asked of both, though the files be opened anew in between: no call on the files fails,
no file is in the way, and no warning is given. It is for bundles without blobs, and what the two
differ in is the size of a reference list alone, which in files has to fit into a record. -/

namespace BundleStore

/-! ### Asking a storage -/

inductive StorageStep where
  | call (call : StorageCall)
  | ids
  /-- Files are opened anew, with these namespaces numbered. -/
  | reopen (registry : Interner)

inductive StorageAnswer where
  | served (call : StorageCall) (result : Except StorageError call.Result)
      (warnings : List Warning)
  | listed (result : Except StorageError (List NodeId)) (warnings : List Warning)
  | reopened (result : Except RepositoryError Unit)

namespace StorageStep

/-- No blob is asked for, and no bundle has a value in one. -/
def Blobless : StorageStep → Prop
  | .call (.storeBundle bundle) => bundle.blobs = []
  | .call (.createBlobId _ _) => False
  | .call (.putBlob _ _) => False
  | .call (.getBlob _) => False
  | .call (.removeBlob _) => False
  | _ => True

/-- A reference list that no record can hold is refused. -/
def refused? : StorageStep → Option StorageAnswer
  | .call (.storeReferences references) =>
      match Record.encode Record.references references with
      | .error cause => some (.served (.storeReferences references) (.error cause) [])
      | .ok _ => none
  | _ => none

end StorageStep

namespace Storage

def attend : Storage → StorageStep → StorageAnswer × Storage
  | storage, .call call =>
      let (result, storage, warnings) := storage.serve call
      (.served call result warnings, storage)
  | storage, .ids => (.listed storage.ids.1 storage.ids.2, storage)
  | .files contents, .reopen registry =>
      match FileStorage.openRoot contents.root registry contents.tree with
      | (.ok again, _) => (.reopened (.ok ()), .files again)
      | (.error cause, tree) => (.reopened (.error cause), .files (contents.setTree tree))
  | storage, .reopen _ => (.reopened (.ok ()), storage)

def answers : Storage → List StorageStep → List StorageAnswer
  | _, [] => []
  | storage, step :: rest => (storage.attend step).1 :: answers (storage.attend step).2 rest

/-- The answers of a storage that refuses what no record can hold. -/
def answersWithin : Storage → List StorageStep → List StorageAnswer
  | _, [] => []
  | storage, step :: rest =>
      match step.refused? with
      | some answer => answer :: answersWithin storage rest
      | none => (storage.attend step).1 :: answersWithin (storage.attend step).2 rest

end Storage

/-! ### One step -/

namespace Counterparts

variable {files : FileStorage} {memory : MemoryStorage}

/-- Both answer alike, and stay alike. -/
def Agree (step : StorageStep) (files : FileStorage) (memory : MemoryStorage) : Prop :=
  ∃ after later, (Storage.files files).attend step =
      (((Storage.memory memory).attend step).1, .files after) ∧
    ((Storage.memory memory).attend step).2 = .memory later ∧ Counterparts after later

theorem served {call : StorageCall} {result : Except StorageError call.Result}
    {after : FileStorage} {later : MemoryStorage} (filed : files.serve call = (result, after, []))
    (kept : memory.serve call = (result, later)) (alike : Counterparts after later) :
    Agree (.call call) files memory := by
  refine ⟨after, later, ?_, ?_, alike⟩
  · simp only [Storage.attend, Storage.serve, filed, kept]
  · simp only [Storage.attend, Storage.serve, kept]

/-- One step for each thing that can be asked. -/
theorem attend (alike : Counterparts files memory) {step : StorageStep} (blobless : step.Blobless)
    (fits : step.refused? = none) : Agree step files memory := by
  cases step with
  | ids =>
      refine ⟨files, memory, ?_, rfl, alike⟩
      simp only [Storage.attend, Storage.ids, alike.ids]
  | reopen registry =>
      obtain ⟨again, opened, still⟩ := alike.reopened registry
      refine ⟨again, memory, ?_, rfl, still⟩
      simp only [Storage.attend, opened]
  | call call =>
      cases call with
      | loadBundle id => exact served (congrArg (·, files, []) (alike.loadBundle id)) rfl alike
      | storeBundle bundle =>
          obtain ⟨same, still⟩ := alike.storeBundle blobless
          exact served (congrArg (·, (files.storeBundle bundle).2, []) same) rfl still
      | destroyBundle id =>
          obtain ⟨done, still⟩ := alike.destroyBundle id
          exact served (congrArg (·, (files.removeRecord (files.bundlePath id)).2, []) done) rfl still
      | loadReferences target =>
          exact served (congrArg (·, files, []) (alike.loadReferences target)) rfl alike
      | storeReferences references =>
          rw [StorageStep.refused?] at fits
          split at fits
          · cases fits
          · rename_i bytes encoded
            obtain ⟨done, still⟩ := alike.storeReferences encoded
            exact served (congrArg (·, (files.storeReferences references).2, []) done) rfl still
      | destroyReferences target =>
          obtain ⟨done, still⟩ := alike.destroyReferences target
          exact served (congrArg (·, (files.removeRecord (files.referencesPath target)).2, []) done)
            rfl still
      | checkConsistency ids recursive repair =>
          obtain ⟨same, silent, still⟩ := alike.check ids recursive repair
          exact served (Prod.ext same (Prod.ext rfl silent)) rfl still
      | createBlobId property place => exact blobless.elim
      | putBlob blob bytes => exact blobless.elim
      | getBlob blob => exact blobless.elim
      | removeBlob blob => exact blobless.elim

/-- Files refuse what no record can hold, and are left as they were. -/
theorem refuse (files : FileStorage) {step : StorageStep} {answer : StorageAnswer}
    (refused : step.refused? = some answer) :
    (Storage.files files).attend step = (answer, .files files) := by
  unfold StorageStep.refused? at refused
  split at refused
  · rename_i references
    split at refused
    · rename_i cause encoded
      cases refused
      have same : files.storeReferences references = (.error cause, files) := by
        rw [FileStorage.storeReferences, encoded]
      simp only [Storage.attend, Storage.serve, FileStorage.serve, FileStorage.serve.quiet, same]
    · cases refused
  · cases refused

theorem answers (alike : Counterparts files memory) {steps : List StorageStep}
    (blobless : ∀ step ∈ steps, step.Blobless) :
    (Storage.files files).answers steps = (Storage.memory memory).answersWithin steps := by
  induction steps generalizing files memory with
  | nil => rfl
  | cons step rest ih =>
      have later := fun other member => blobless other (List.mem_cons_of_mem step member)
      rw [Storage.answers, Storage.answersWithin]
      cases refused : step.refused? with
      | some answer =>
          rw [refuse files refused]
          exact congrArg _ (ih alike later)
      | none =>
          obtain ⟨after, kept, filed, remembered, still⟩ :=
            alike.attend (blobless step List.mem_cons_self) refused
          rw [filed, remembered]
          exact congrArg _ (ih still later)

end Counterparts

namespace Shelves

def root : Location := Location.ofText [] "/shelves"

def lost : NodeId := ⟨List.replicate 16 1, rfl⟩

/-- A node with a child for which there is no bundle. -/
def holder : Bundle :=
  { Bundle.ofNode (Node.fresh NodeId.zero Name.unstructured none) with
    children := [⟨⟨"", "lost"⟩, lost, 1⟩] }

/-- The child is found missing and dropped, the files are opened anew in between, and what is left is
loaded and removed. -/
def steps : List StorageStep :=
  [.call (.storeBundle holder), .call (.storeReferences (.none lost)), .reopen Interner.namespaces,
    .call (.checkConsistency [] true true), .call (.loadBundle NodeId.zero), .ids,
    .call (.destroyBundle NodeId.zero), .call (.checkConsistency [NodeId.zero] false false)]

/-- What the checks have found. -/
def findings (answers : List StorageAnswer) : List Problem :=
  answers.flatMap (fun answer =>
    match answer with
    | .served (.checkConsistency _ _ _) (.ok problems) _ => problems
    | _ => [])

end Shelves

end BundleStore
