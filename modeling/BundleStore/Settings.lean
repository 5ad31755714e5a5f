import BundleStore.Files.Tree
import BundleStore.Toml.Document

set_option autoImplicit false

/-! What a repository is tuned by. Numbers fit into sixty-four bits. -/

namespace BundleStore

structure Settings where
  cacheMegabytes : Nat
  /-- Binary values longer than this become blobs. -/
  blobThreshold : Nat
  cacheShards : Nat
deriving DecidableEq

namespace Settings

def default : Settings := ⟨8, 4096, 16⟩

def validate (settings : Settings) : Except SettingsError Unit :=
  if settings.cacheMegabytes = 0 then .error .zeroSize
  else if settings.cacheShards = 0 then .error .zeroShards
  else .ok ()

def wordLimit : Nat := 0x10000000000000000

/-- The budget of the cache in bytes, or the largest there is. -/
def cacheBytes (settings : Settings) : Nat :=
  min (settings.cacheMegabytes * 1048576) (wordLimit - 1)

/-- The characters of Unicode that count as white space. -/
def isSpace (char : Char) : Bool :=
  let point := char.toNat
  (9 ≤ point && point ≤ 13) || point = 0x20 || point = 0x85 || point = 0xA0 ||
    point = 0x1680 || (0x2000 ≤ point && point ≤ 0x200A) || point = 0x2028 || point = 0x2029 ||
    point = 0x202F || point = 0x205F || point = 0x3000

def trimmed (chars : List Char) : List Char :=
  ((chars.dropWhile isSpace).reverse.dropWhile isSpace).reverse

/-- Decimal digits, after a plus sign if there is one, for a number that fits into a word. -/
def readWord? (chars : List Char) : Option Nat :=
  let digits := match chars with
    | '+' :: rest => rest
    | other => other
  let value := digits.foldl (fun value digit => value * 10 + (digit.toNat - '0'.toNat)) 0
  if digits.isEmpty || !digits.all Char.isDigit || wordLimit ≤ value then none else some value

/-- Takes the size of the cache from its text, in megabytes. -/
def setCacheSize (settings : Settings) (text : String) : Except SettingsError Settings :=
  let chars := trimmed text.toList
  if chars.isEmpty then .error .emptySize
  else match readWord? chars with
    | none => .error (.invalidSize text)
    | some 0 => .error .zeroSize
    | some megabytes => .ok { settings with cacheMegabytes := megabytes }

/-- A setting that is there must be a whole number, not below zero. -/
def field? (document : Toml.Document) (key : String) (otherwise : Nat) : Option Nat :=
  match document.outline.kind? [⟨key, 0⟩] with
  | none => some otherwise
  | some .value =>
      match document.settings.lookup key with
      | some (.integer value) => if 0 ≤ value then some value.toNat else none
      | _ => none
  | some _ => none

def ofDocument? (document : Toml.Document) : Option Settings := do
  let cacheMegabytes ← field? document "bundle_cache_size_mb" default.cacheMegabytes
  let blobThreshold ← field? document "min_blob_size" default.blobThreshold
  let cacheShards ← field? document "cache_shards" default.cacheShards
  return { cacheMegabytes, blobThreshold, cacheShards }

/-- Settings that are not given keep their defaults; keys of other names are passed over. -/
def parse (text : String) : Except SettingsError Settings :=
  match (Toml.Document.ofChars? text.toList).bind ofDocument? with
  | none => .error .malformed
  | some settings => settings.validate.map (fun _ => settings)

def load (location : Location) (tree : FileTree) : Except SettingsError Settings :=
  match tree.read location.path with
  | .error cause => .error (.unreadable location.shown cause)
  | .ok bytes =>
      match String.fromUTF8? ⟨bytes.toArray⟩ with
      | none => .error (.unreadable location.shown .notText)
      | some text => parse text

end Settings

end BundleStore
