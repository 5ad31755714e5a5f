import BundleStore.Index.StoragePaths

set_option autoImplicit false

/-! Blobs as files below a folder, each under its identifier. An identifier with an empty segment,
or one that steps up, is refused before any file is touched. -/

namespace BundleStore

structure BlobFolder where
  folder : FilePath
  paths : StoragePaths
  tree : FileTree
deriving DecidableEq

namespace BlobFolder

def segmentAllowed (segment : String) : Bool := segment ≠ "" && segment ≠ ".."

def locate (store : BlobFolder) (blob : String) : Except StorageError FilePath :=
  if (FilePath.segments blob).all segmentAllowed then .ok (FilePath.resolve store.folder blob)
  else .error (.invalidBlobId blob)

def createId (store : BlobFolder) (property : PropertyId) (place : Nat) :
    Except StorageError String × BlobFolder :=
  let (result, paths, tree) := store.paths.blobPath property place store.tree
  (result.mapError StorageError.index, { store with paths, tree })

def put (store : BlobFolder) (blob : String) (bytes : List UInt8) :
    Except StorageError Unit × BlobFolder :=
  match store.locate blob with
  | .error cause => (.error cause, store)
  | .ok path =>
      let (result, tree) := store.tree.write path bytes
      (result.mapError StorageError.io, { store with tree })

def get (store : BlobFolder) (blob : String) : Except StorageError (List UInt8) :=
  match store.locate blob with
  | .error cause => .error cause
  | .ok path =>
      match store.tree.read path with
      | .ok bytes => .ok bytes
      | .error .notFound => .error (.blobNotFound blob)
      | .error cause => .error (.io cause)

def remove (store : BlobFolder) (blob : String) : Except StorageError Bool × BlobFolder :=
  match store.locate blob with
  | .error cause => (.error cause, store)
  | .ok path =>
      match store.tree.remove path with
      | .ok tree => (.ok true, { store with tree })
      | .error .notFound => (.ok false, store)
      | .error cause => (.error (.io cause), store)

end BlobFolder

end BundleStore
