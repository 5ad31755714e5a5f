import BundleStore.Decimal.Layout
import BundleStore.ItemId

set_option autoImplicit false

/-! Property values. A double is kept as its binary64 pattern, so that equal values are the same
pattern; a date counts milliseconds. -/

namespace BundleStore

inductive ValueType where
  | string
  | binary
  | long
  | double
  | date
  | boolean
  | name
  | path
  | reference
deriving DecidableEq, Inhabited

inductive Value where
  | string (text : String)
  | binary (bytes : List UInt8)
  | long (value : Int64)
  | double (bits : UInt64)
  | date (milliseconds : Int64)
  | boolean (value : Bool)
  | name (name : Name)
  | path (text : String)
  | reference (target : NodeId)
deriving DecidableEq, Inhabited

/-- The types in the order in which records number them. -/
def ValueType.all : List ValueType :=
  [.string, .binary, .long, .double, .date, .boolean, .name, .path, .reference]

def ValueType.text : ValueType → String
  | .string => "String"
  | .binary => "Binary"
  | .long => "Long"
  | .double => "Double"
  | .date => "Date"
  | .boolean => "Boolean"
  | .name => "Name"
  | .path => "Path"
  | .reference => "Reference"

namespace Value

def type : Value → ValueType
  | .string _ => .string
  | .binary _ => .binary
  | .long _ => .long
  | .double _ => .double
  | .date _ => .date
  | .boolean _ => .boolean
  | .name _ => .name
  | .path _ => .path
  | .reference _ => .reference

def payloadSize : Value → Nat
  | .string text => text.utf8ByteSize
  | .binary bytes => bytes.length
  | .long _ => 0
  | .double _ => 0
  | .date _ => 0
  | .boolean _ => 0
  | .name qualified => qualified.memorySize
  | .path text => text.utf8ByteSize
  | .reference _ => 16

/-- Bytes that the value is counted as holding in memory. -/
def memorySize (value : Value) : Nat := 48 + value.payloadSize

def binaryLength? : Value → Option Nat
  | .binary bytes => some bytes.length
  | _ => none

def text : Value → String
  | .string text => text
  | .binary bytes => "<" ++ toString bytes.length ++ " bytes>"
  | .long value => toString value.toInt
  | .double bits => Decimal.Layout.plain.write bits
  | .date milliseconds => "@" ++ toString milliseconds.toInt
  | .boolean value => if value then "true" else "false"
  | .name qualified => qualified.text
  | .path text => text
  | .reference target => target.text

end Value

end BundleStore
