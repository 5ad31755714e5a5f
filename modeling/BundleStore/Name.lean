set_option autoImplicit false

/-! Qualified names: a namespace URI and a local name. The text of a name puts a URI that is not
empty between braces in front of the local name. Names are ordered by URI, then by local name,
each by its code points. -/

namespace BundleStore

structure Name where
  namespaceUri : String
  localName : String
deriving DecidableEq, Inhabited

namespace Name

def order (left right : Name) : Ordering :=
  compareLex (compareOn namespaceUri) (compareOn localName) left right

instance : Ord Name := ⟨order⟩

instance : Std.TransOrd Name :=
  inferInstanceAs (Std.TransCmp (compareLex (compareOn namespaceUri) (compareOn localName)))

instance : Std.LawfulEqOrd Name where
  eq_of_compare {left right} same := by
    have both : compare left.namespaceUri right.namespaceUri = .eq ∧
        compare left.localName right.localName = .eq := Ordering.then_eq_eq.mp same
    cases left
    cases right
    simp only [Std.LawfulEqCmp.compare_eq_iff_eq] at both
    rw [mk.injEq]
    exact both

def chars (name : Name) : List Char :=
  if name.namespaceUri = "" then name.localName.toList
  else '\x7b' :: name.namespaceUri.toList ++ '\x7d' :: name.localName.toList

def text (name : Name) : String := String.ofList name.chars

def reserved (char : Char) : Bool := char = '\x7b' || char = '\x7d' || char = '/'

/-- A leading brace opens the URI, which ends at the first closing brace; the local name is what
follows. Without one the whole text is the local name, and may hold no reserved character. -/
def ofChars? : List Char → Option Name
  | '\x7b' :: rest =>
      match rest.span (· ≠ '\x7d') with
      | (uri, _ :: tail) =>
          if tail.isEmpty then none else some ⟨String.ofList uri, String.ofList tail⟩
      | (_, []) => none
  | chars =>
      if chars.isEmpty || chars.any reserved then none else some ⟨"", String.ofList chars⟩

def ofText? (text : String) : Option Name := ofChars? text.toList

/-- Bytes that the name is counted as holding in memory. -/
def memorySize (name : Name) : Nat :=
  name.namespaceUri.utf8ByteSize + name.localName.utf8ByteSize + 48

def jcrUri : String := "http://www.jcp.org/jcr/1.0"
def nodeTypeUri : String := "http://www.jcp.org/jcr/nt/1.0"
def mixinUri : String := "http://www.jcp.org/jcr/mix/1.0"

/-- The namespaces that every repository knows, each with its usual short form. -/
def builtinNamespaces : List (String × String) :=
  [("", ""), ("jcr", jcrUri), ("nt", nodeTypeUri), ("mix", mixinUri)]

def uuid : Name := ⟨jcrUri, "uuid"⟩
def primaryType : Name := ⟨jcrUri, "primaryType"⟩
def mixinTypes : Name := ⟨jcrUri, "mixinTypes"⟩
def unstructured : Name := ⟨nodeTypeUri, "unstructured"⟩
def referenceable : Name := ⟨mixinUri, "referenceable"⟩

/-- Properties that state the identity of their node: they follow from its header and are never
stored. -/
def isIdentity (name : Name) : Bool := name = uuid || name = primaryType || name = mixinTypes

end Name

end BundleStore
