import BundleStore.Task.Basic

set_option autoImplicit false

/-! Properties on their way into a bundle and out of it. Binary values above the threshold become
blobs when a property is stored, are fetched when it is read, and are released when it goes. -/

namespace BundleStore

variable {ε : Type}

namespace StoredProperty

def storeValue (id : PropertyId) (threshold : Nat) (value : Value) (place : Nat) :
    Task StorageError StoredValue :=
  match value with
  | .binary bytes =>
      if threshold < bytes.length then do
        let blob ← Task.call (.createBlobId id place)
        Task.call (.putBlob blob bytes)
        return .blob blob (UInt64.ofNat bytes.length)
      else return .inline (.binary bytes)
  | other => return .inline other

def storeValues (id : PropertyId) (threshold : Nat) :
    List Value → Nat → Task StorageError (List StoredValue)
  | [], _ => return []
  | value :: rest, place => do
      let stored ← storeValue id threshold value place
      return stored :: (← storeValues id threshold rest (place + 1))

def ofProperty (state : Property) (threshold : Nat) : Task StorageError StoredProperty := do
  let values ← storeValues state.id threshold state.values 0
  return ⟨state.id, state.type, state.multiple, state.modCount, values⟩

def fetchValue : StoredValue → Task StorageError Value
  | .inline value => return value
  | .blob blob _ => return .binary (← Task.call (.getBlob blob))

def toProperty (property : StoredProperty) : Task StorageError Property := do
  let values ← property.values.mapM fetchValue
  return ⟨property.id, property.type, property.multiple, values, .existing, property.modCount⟩

def releaseBlob (id : PropertyId) (blob : String) : Task ε Unit := do
  match ← Task.attempt (.removeBlob blob) with
  | .ok _ => return ()
  | .error _ => Task.warn (.blobKept id blob)

/-- A blob that cannot be released is reported and left behind. -/
def release (property : StoredProperty) : Task ε Unit :=
  property.blobs.forM (releaseBlob property.id)

end StoredProperty

namespace Bundle

def removeProperty (bundle : Bundle) (name : Name) :
    Task ε (Option StoredProperty × Bundle) := do
  match bundle.properties.find? name with
  | none => return (none, bundle)
  | some property =>
      property.release
      return (some property, { bundle with properties := bundle.properties.erase name })

/-- The record that the property replaces is released first, and is gone even if the property
then cannot be stored. Identity properties are passed over. -/
def addProperty (bundle : Bundle) (state : Property) (threshold : Nat) :
    Task ε (Except StorageError Unit × Bundle) := do
  if state.id.name.isIdentity then return (.ok (), bundle)
  else
    let (_, cleared) ← bundle.removeProperty state.id.name
    ((StoredProperty.ofProperty state threshold).bind (fun stored =>
      Task.done (.ok (), { cleared with
        properties := cleared.properties.insert state.id.name stored }))).orElse
      (fun error => Task.done (.error error, cleared))

/-- Ends with the first property that cannot be stored. -/
def addProperties (bundle : Bundle) : List Property → Nat → Task StorageError Bundle
  | [], _ => return bundle
  | state :: rest, threshold => do
      let (result, bundle) ← bundle.addProperty state threshold
      Task.ofExcept result
      bundle.addProperties rest threshold

def removeAllProperties (bundle : Bundle) : Task ε Bundle := do
  bundle.properties.values.forM StoredProperty.release
  return { bundle with properties := SortedMap.empty, computed := SortedMap.empty }

/-- The records stay: the whole bundle is on its way out. -/
def releaseBlobs (bundle : Bundle) : Task ε Unit :=
  bundle.properties.values.forM StoredProperty.release

/-- A property that is stored, or was computed before. -/
def property? (bundle : Bundle) (name : Name) : Task StorageError (Option Property) := do
  match bundle.properties.find? name with
  | some stored => return some (← stored.toProperty)
  | none => return bundle.computed.find? name

end Bundle

end BundleStore
