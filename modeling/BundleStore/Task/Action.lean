import BundleStore.Bundle
import BundleStore.References
import BundleStore.Report

set_option autoImplicit false

/-! The single steps that reading and writing bundles is made of: calls to the storage, steps on
the bundle cache, and warnings. Other readers and writers may come in between any two of them. -/

namespace BundleStore

inductive StorageCall where
  | loadBundle (id : NodeId)
  | storeBundle (bundle : Bundle)
  | destroyBundle (id : NodeId)
  | loadReferences (target : NodeId)
  | storeReferences (references : References)
  | destroyReferences (target : NodeId)
  | checkConsistency (ids : List NodeId) (recursive repair : Bool)
  | createBlobId (property : PropertyId) (place : Nat)
  | putBlob (blob : String) (bytes : List UInt8)
  | getBlob (blob : String)
  | removeBlob (blob : String)

namespace StorageCall

/-- What a call that does not fail gives back. -/
abbrev Result : StorageCall → Type
  | .loadBundle _ => Option Bundle
  | .storeBundle _ => Unit
  | .destroyBundle _ => Unit
  | .loadReferences _ => Option References
  | .storeReferences _ => Unit
  | .destroyReferences _ => Unit
  | .checkConsistency _ _ _ => List Problem
  | .createBlobId _ _ => String
  | .putBlob _ _ => Unit
  | .getBlob _ => List UInt8
  | .removeBlob _ => Bool

def name : StorageCall → String
  | .loadBundle _ => "load_bundle"
  | .storeBundle _ => "store_bundle"
  | .destroyBundle _ => "destroy_bundle"
  | .loadReferences _ => "load_references"
  | .storeReferences _ => "store_references"
  | .destroyReferences _ => "destroy_references"
  | .checkConsistency _ _ _ => "check_consistency"
  | .createBlobId _ _ => "create_id"
  | .putBlob _ _ => "put"
  | .getBlob _ => "get"
  | .removeBlob _ => "remove"

def operands : StorageCall → List String
  | .loadBundle id => [id.text]
  | .storeBundle bundle => [bundle.id.text]
  | .destroyBundle id => [id.text]
  | .loadReferences target => [target.text]
  | .storeReferences references => [references.target.text]
  | .destroyReferences target => [target.text]
  | .checkConsistency ids _ _ => [toString ids.length]
  | .createBlobId property place => [property.text, toString place]
  | .putBlob blob bytes => [blob, toString bytes.length]
  | .getBlob blob => [blob]
  | .removeBlob blob => [blob]

def text (call : StorageCall) : String := String.intercalate " " (call.name :: call.operands)

end StorageCall

/-- What the cache knows about a node. -/
inductive Lookup where
  | unknown
  | missing
  | present (bundle : Bundle)
deriving DecidableEq

inductive CacheStep where
  | lookup (id : NodeId)
  | generation (id : NodeId)
  | fill (id : NodeId) (loaded : Option Bundle) (generation : Nat)
  | put (bundle : Bundle)
  | refresh (bundle : Bundle)
  | putMissing (id : NodeId)
  | invalidate (id : NodeId)
  | clear
  | keepComputed (id : NodeId) (before after : Bundle)

abbrev CacheStep.Result : CacheStep → Type
  | .lookup _ => Lookup
  | .generation _ => Nat
  | .fill _ _ _ => Bool
  | .put _ => Unit
  | .refresh _ => Bool
  | .putMissing _ => Unit
  | .invalidate _ => Unit
  | .clear => Unit
  | .keepComputed _ _ _ => Unit

inductive Action where
  | storage (call : StorageCall)
  | cache (step : CacheStep)
  | warn (warning : Warning)

abbrev Action.Result : Action → Type
  | .storage call => Except StorageError call.Result
  | .cache step => step.Result
  | .warn _ => Unit

end BundleStore
