import BundleStore.Index.StoragePaths
import BundleStore.Item
import BundleStore.Json.Printer

set_option autoImplicit false

/-! Nodes and properties as the command line shows them, as lines of text and as JSON. -/

namespace BundleStore

namespace Json

def ofId (id : NodeId) : Json := .string id.text

def ofName (name : Name) : Json :=
  .object [("local_name", .string name.localName), ("namespace_uri", .string name.namespaceUri)]

def ofChild (child : Child) : Json :=
  .object [("id", ofId child.id), ("index", natural child.index.toNat),
    ("name", ofName child.name)]

def ofNames (names : SortedSet Name) : Json := .array ((SortedSet.elements names).map ofName)

def ofNode (node : Node) : Json :=
  .object [
    ("child_node_entries", .array (node.children.map ofChild)),
    ("id", ofId node.id),
    ("mixin_type_names", ofNames node.mixins),
    ("node_type_name", ofName node.nodeType),
    ("parent_id", (node.parent.map ofId).getD .null),
    ("property_names", ofNames node.properties),
    ("status", .string node.status.text)]

def ofPayload : Value → Json
  | .string text => .string text
  | .binary bytes => .array (bytes.map (fun byte => natural byte.toNat))
  | .long value => .number (toString value.toInt)
  | .double bits => .number (Decimal.Layout.json.write bits)
  | .date milliseconds => .number (toString milliseconds.toInt)
  | .boolean value => .boolean value
  | .name name => ofName name
  | .path text => .string text
  | .reference target => ofId target

def ofValue (value : Value) : Json := .object [(value.type.text, ofPayload value)]

def ofProperty (state : Property) : Json :=
  .object [
    ("id", .object [("name", ofName state.id.name), ("parent", ofId state.id.node)]),
    ("mod_count", natural state.modCount.toNat),
    ("multi_valued", .boolean state.multiple),
    ("property_type", .string state.type.text),
    ("status", .string state.status.text),
    ("values", .array (state.values.map ofValue))]

end Json

namespace Command

/-- How many leading bytes of a binary value are shown. -/
def previewLength : Nat := 16

def valueText : Value → String
  | .binary bytes =>
      "<" ++ toString bytes.length ++ " bytes> " ++ Text.Hex.text (bytes.take previewLength) ++
        (if previewLength < bytes.length then "…" else "")
  | other => other.text

def valuesText (state : Property) : String :=
  let texts := String.intercalate ", " (state.values.map valueText)
  if state.multiple then "[" ++ texts ++ "]" else texts

def propertyLine (state : Property) : String :=
  "    " ++ state.id.name.text ++ " (" ++ state.type.text ++ ") = " ++ valuesText state

def childLine (child : Child) : String :=
  "    " ++ child.name.text ++ "[" ++ toString child.index.toNat ++ "] " ++ child.id.text

def nodeLines (node : Node) (properties : List Property) : List String :=
  ["Node " ++ node.id.text,
    "  type:   " ++ node.nodeType.text,
    "  parent: " ++ ((node.parent.map NodeId.text).getD "(root)")] ++
    (SortedSet.elements node.mixins).map (fun mixin => "  mixin:  " ++ mixin.text) ++
    (if node.children.isEmpty then [] else "  children:" :: node.children.map childLine) ++
    "  properties:" :: properties.map propertyLine

def nodeJson (node : Node) (properties : List Property) : Json :=
  .object [("node", Json.ofNode node), ("properties", .array (properties.map Json.ofProperty))]

/-- Numbers are set flush right in a column of four. -/
def column (number : Nat) : String :=
  let digits := toString number
  String.ofList (List.replicate (4 - digits.length) ' ') ++ digits

def numberedLine (entry : String × Nat) : String := "  " ++ column entry.2 ++ "  " ++ entry.1

def namespaceLine (entry : String × Nat) : String :=
  numberedLine (if entry.1 = "" then "(default)" else entry.1, entry.2)

def indexLines (namespaces names : List (String × Nat)) : List String :=
  ("Namespaces (" ++ toString namespaces.length ++ ")") :: namespaces.map namespaceLine ++
    ("Local names (" ++ toString names.length ++ ")") :: names.map numberedLine

def ofEntry (entry : String × Nat) : Json :=
  .array [.string entry.1, Json.natural entry.2]

def indexJson (namespaces names : List (String × Nat)) : Json :=
  .object [("names", .array (names.map ofEntry)), ("namespaces", .array (namespaces.map ofEntry))]

def issuesLine (count : Nat) (repaired : Bool) : String :=
  if count = 0 then "✓ No issues."
  else if repaired then "! " ++ toString count ++ " issue(s) found, repairs attempted."
  else "✗ " ++ toString count ++ " issue(s) found."

def checkLines (missing : List NodeId) (problems : List String) (repaired : Bool) :
    List String :=
  missing.map (fun id => "  missing: " ++ id.text) ++
    problems.map (fun problem => "  problem: " ++ problem) ++
    [issuesLine (missing.length + problems.length) repaired]

def checkJson (missing : List NodeId) (problems : List String) : Json :=
  .object [("missing", .array (missing.map Json.ofId)),
    ("problems", .array (problems.map Json.string))]

def pathLines (id : NodeId) : List String :=
  ["Node " ++ id.text, "  folder:     " ++ id.folder, "  bundle:     " ++ id.bundleFile,
    "  references: " ++ id.referencesFile]

def pathJson (id : NodeId) : Json :=
  .object [("bundle", .string id.bundleFile), ("folder", .string id.folder),
    ("id", Json.ofId id), ("references", .string id.referencesFile)]

end Command

end BundleStore
