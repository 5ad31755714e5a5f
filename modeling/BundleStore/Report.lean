import BundleStore.Error

set_option autoImplicit false

/-! What a consistency check finds, and what the repository reports without failing. -/

namespace BundleStore

inductive Problem where
  | missing (id : NodeId)
  | unreadable (id : NodeId) (cause : StorageError)
  | child (id : NodeId) (name : Name) (target : NodeId)
  | blob (id : NodeId) (blob : String) (cause : StorageError)
deriving DecidableEq

def Problem.text (words : Wording) : Problem → String
  | .missing id => id.text ++ ": bundle missing"
  | .unreadable id cause => id.text ++ ": unreadable bundle: " ++ cause.message words
  | .child id name target =>
      id.text ++ ": child " ++ name.text ++ " (" ++ target.text ++ ") missing"
  | .blob id stored cause => id.text ++ ": blob " ++ stored ++ ": " ++ cause.message words

inductive Warning where
  | storeFailed
  | deletedWithoutOwner (property : PropertyId)
  | addedWithoutOwner (property : PropertyId)
  | parentUntouched (node parent : NodeId)
  | inconsistent (problem : Problem)
  | blobKept (property : PropertyId) (blob : String)
  | strayFile (path : String)
deriving DecidableEq

namespace Warning

def message : Warning → String
  | .storeFailed => "store failed, bundle cache cleared"
  | .deletedWithoutOwner _ => "deleted property's owner not in change log"
  | .addedWithoutOwner _ => "added property's owner not in change log"
  | .parentUntouched _ _ => "deleted node's parent not modified"
  | .inconsistent _ => "consistency check"
  | .blobKept _ _ => "failed to release blob"
  | .strayFile _ => "stray bundle file"

/-- What the warning is about, each part under its label. -/
def details (words : Wording) : Warning → List (String × String)
  | .storeFailed => []
  | .deletedWithoutOwner property => [("property", property.text), ("node", property.node.text)]
  | .addedWithoutOwner property => [("property", property.text), ("node", property.node.text)]
  | .parentUntouched node parent => [("node", node.text), ("parent", parent.text)]
  | .inconsistent problem => [("problem", problem.text words)]
  | .blobKept property blob => [("property", property.text), ("blob", blob)]
  | .strayFile path => [("path", path)]

end Warning

end BundleStore
