import BundleStore.ItemId
import BundleStore.Text.Hex
import BundleStore.Text.Quoted

set_option autoImplicit false

/-! What can go wrong, by cause, and how each cause reads in a message. The words for causes that
lie outside the repository, such as what a file system reports, are kept apart in `Wording`. -/

namespace BundleStore

/-- Why an operation on files failed. -/
inductive IoError where
  | notFound
  | notAFolder
  | isAFolder
  | exists
  | nameTooLong
  | invalidName
  | notText
deriving DecidableEq, Inhabited

def IoError.text : IoError → String
  | .notFound => "no such file or folder"
  | .notAFolder => "not a folder"
  | .isAFolder => "is a folder"
  | .exists => "already exists"
  | .nameTooLong => "file name too long"
  | .invalidName => "file name holds a NUL character"
  | .notText => "not valid UTF-8"

/-- Words for what a message only passes on. -/
structure Wording where
  io : IoError → String
  identifier : String
  payload : String
  mapping : String
  settings : String

def Wording.plain : Wording :=
  { io := IoError.text
    identifier := "not a node identifier"
    payload := "the payload is no such record"
    mapping := "not a mapping of strings to indices"
    settings := "not a table of settings" }

def IdentifierError.message (words : Wording) : IdentifierError → String
  | .nodeId text => "invalid node identifier: " ++ text ++ ": " ++ words.identifier
  | .name text => "invalid qualified name: " ++ text
  | .propertyId text => "invalid property identifier: " ++ text

/-- What is wrong with the contents of an index file. -/
inductive MappingFault where
  | unreadable
  | outOfSequence (index expected : Nat)
  | repeated (text : String)
deriving DecidableEq

def MappingFault.message (words : Wording) : MappingFault → String
  | .unreadable => words.mapping
  | .outOfSequence index expected =>
      "index " ++ toString index ++ " out of sequence, expected " ++ toString expected
  | .repeated text => "string " ++ Text.quoted text ++ " mapped twice"

inductive IndexError where
  | io (cause : IoError)
  | corrupt (path : String) (fault : MappingFault)
deriving DecidableEq

def IndexError.message (words : Wording) : IndexError → String
  | .io cause => "io error: " ++ words.io cause
  | .corrupt path fault => "corrupt index " ++ path ++ ": " ++ fault.message words

/-- What is wrong with the bytes of a record. -/
inductive RecordFault where
  | shortHeader (length : Nat)
  | wrongLength (declared found : Nat)
  | wrongChecksum (declared found : UInt32)
  | payload
deriving DecidableEq

def RecordFault.message (words : Wording) : RecordFault → String
  | .shortHeader length => "truncated header (" ++ toString length ++ " bytes)"
  | .wrongLength declared found =>
      "length mismatch: header says " ++ toString declared ++ ", found " ++ toString found
  | .wrongChecksum declared found =>
      "checksum mismatch: expected " ++ Text.Hex.word declared ++ ", got " ++
        Text.Hex.word found
  | .payload => words.payload

inductive StorageError where
  | io (cause : IoError)
  | recordTooLarge (length : Nat)
  | corrupt (record : String) (fault : RecordFault)
  | blobNotFound (blob : String)
  | index (cause : IndexError)
  | invalidBlobId (blob : String)
  | injected (call : String)
deriving DecidableEq

def StorageError.message (words : Wording) : StorageError → String
  | .io cause => "I/O error: " ++ words.io cause
  | .recordTooLarge length =>
      "serialization error: record too large: " ++ toString length ++ " bytes"
  | .corrupt record fault => "corrupt record " ++ record ++ ": " ++ fault.message words
  | .blobNotFound blob => "blob not found: " ++ blob
  | .index cause => "string index error: " ++ cause.message words
  | .invalidBlobId blob => "backend error: invalid blob id: " ++ Text.quoted blob
  | .injected call => "backend error: injected " ++ call ++ " failure"

inductive SettingsError where
  | emptySize
  | zeroSize
  | invalidSize (text : String)
  | zeroShards
  | malformed
  | unreadable (path : String) (cause : IoError)
  | index (cause : IndexError)
deriving DecidableEq

def SettingsError.message (words : Wording) : SettingsError → String
  | .emptySize => "bundle cache size must not be empty"
  | .zeroSize => "bundle cache size must be positive"
  | .invalidSize text => "invalid bundle cache size: " ++ Text.quoted text
  | .zeroShards => "cache shard count must be positive"
  | .malformed => words.settings
  | .unreadable path cause => path ++ ": " ++ words.io cause
  | .index cause => cause.message words

inductive RepositoryError where
  | notFound (item : ItemId)
  | storage (cause : StorageError)
  | settings (cause : SettingsError)
deriving DecidableEq

def RepositoryError.message (words : Wording) : RepositoryError → String
  | .notFound item => "item not found: " ++ item.text
  | .storage cause => "storage failure: " ++ cause.message words
  | .settings cause => "configuration error: " ++ cause.message words

/-- The message of the error and of each cause below it, outermost first. -/
def IndexError.chain (words : Wording) (error : IndexError) : List String :=
  error.message words :: match error with
    | .io cause => [words.io cause]
    | .corrupt _ _ => []

def StorageError.chain (words : Wording) (error : StorageError) : List String :=
  error.message words :: match error with
    | .io cause => [words.io cause]
    | .index cause => cause.chain words
    | _ => []

def RepositoryError.chain (words : Wording) (error : RepositoryError) : List String :=
  error.message words :: match error with
    | .storage cause => cause.chain words
    | _ => []

end BundleStore
