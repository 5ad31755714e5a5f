import BundleStore.ItemId
import BundleStore.Proofs.Text.Hex
import Mathlib.Data.List.TakeDrop
import Mathlib.Data.List.TakeWhile

set_option autoImplicit false

/-! Names and identifiers as text. A text that is accepted as a name has one of two forms, and stands
for one name in it; a property's identifier is a node's identifier and a name, parted by the first
slash. So it can be said exactly which names are read back from their own text, and which texts are
accepted for a name that is not. -/

namespace BundleStore

/-! ### The first separator -/

section

variable {separator : Char} {before after chars : List Char}

theorem span_at (absent : separator ∉ before) (after : List Char) :
    (before ++ separator :: after).span (· ≠ separator) = (before, separator :: after) := by
  have passed : ∀ char ∈ before, decide (char ≠ separator) = true := by
    intro char member
    exact decide_eq_true (fun same => absent (same ▸ member))
  rw [List.span_eq_takeWhile_dropWhile, List.takeWhile_append_of_pos passed,
    List.dropWhile_append_of_pos passed, List.takeWhile_cons_of_neg (by simp),
    List.dropWhile_cons_of_neg (by simp), List.append_nil]

theorem eq_of_span {found : Char}
    (parted : chars.span (· ≠ separator) = (before, found :: after)) :
    chars = before ++ separator :: after ∧ separator ∉ before := by
  rw [List.span_eq_takeWhile_dropWhile, Prod.mk.injEq] at parted
  obtain ⟨front, back⟩ := parted
  have stops := List.head?_dropWhile_not (fun char => decide (char ≠ separator)) chars
  rw [back] at stops
  obtain rfl : found = separator := by simpa using stops
  constructor
  · rw [← front, ← back, List.takeWhile_append_dropWhile]
  · intro member
    rw [← front] at member
    simpa using List.mem_takeWhile_imp member

theorem eq_of_parted {other further : List Char} (absent : separator ∉ before)
    (alsoAbsent : separator ∉ other)
    (same : before ++ separator :: after = other ++ separator :: further) :
    before = other ∧ after = further := by
  have parts := congrArg (List.span (· ≠ separator)) same
  rw [span_at absent, span_at alsoAbsent] at parts
  simpa using parts

end

/-! ### Names -/

namespace Name

/-- The forms in which a name may be written. What follows the braces is not looked at. -/
inductive Spells : List Char → Name → Prop where
  | braced {uri tail : List Char} (closes : '\x7d' ∉ uri) (some : tail ≠ []) :
      Spells ('\x7b' :: (uri ++ '\x7d' :: tail)) ⟨String.ofList uri, String.ofList tail⟩
  | bare {chars : List Char} (some : chars ≠ []) (plain : chars.any reserved = false) :
      Spells chars ⟨"", String.ofList chars⟩

theorem ofChars?_braced {uri tail : List Char} (closes : '\x7d' ∉ uri) (some : tail ≠ []) :
    ofChars? ('\x7b' :: (uri ++ '\x7d' :: tail)) =
      Option.some ⟨String.ofList uri, String.ofList tail⟩ := by
  rw [ofChars?, span_at closes]
  simp [some]

theorem ofChars?_bare {chars : List Char} (some : chars ≠ [])
    (plain : chars.any reserved = false) : ofChars? chars = Option.some ⟨"", String.ofList chars⟩ := by
  unfold ofChars?
  split
  · rename_i rest
    cases plain
  · rw [plain]
    simp [some]

theorem ofChars?_eq_some {chars : List Char} {name : Name} :
    ofChars? chars = some name ↔ Spells chars name := by
  constructor
  · intro given
    unfold ofChars? at given
    split at given
    · rename_i rest
      split at given
      · rename_i uri found tail parted
        obtain ⟨rfl, closes⟩ := eq_of_span parted
        split at given
        · cases given
        · rename_i more
          cases given
          exact .braced closes (by simpa using more)
      · cases given
    · split at given
      · cases given
      · rename_i accepted
        cases given
        rw [Bool.or_eq_true, not_or, Bool.not_eq_true, Bool.not_eq_true] at accepted
        exact .bare (by simpa using accepted.1) accepted.2
  · intro spells
    cases spells with
    | braced closes some => exact ofChars?_braced closes some
    | bare some plain => exact ofChars?_bare some plain

theorem read_eq_ok {text : String} {name : Name} :
    Name.read text = .ok name ↔ Spells text.toList name := by
  rw [← ofChars?_eq_some, Name.read, Name.ofText?]
  cases ofChars? text.toList <;> simp

/-- The names that are read back from their own text. -/
def Legible (name : Name) : Prop :=
  name.localName ≠ "" ∧
    ((name.namespaceUri = "" ∧
        ∀ char ∈ name.localName.toList, char ≠ '\x7b' ∧ char ≠ '\x7d' ∧ char ≠ '/') ∨
      (name.namespaceUri ≠ "" ∧ '\x7d' ∉ name.namespaceUri.toList))

/-- Empty braces stand in front of a local name that could not stand alone. -/
def Shielded (chars : List Char) : Prop :=
  ∃ tail, chars = '\x7b' :: '\x7d' :: tail ∧ tail.any reserved = true

theorem any_reserved_eq_false {chars : List Char} : chars.any reserved = false ↔
    ∀ char ∈ chars, char ≠ '\x7b' ∧ char ≠ '\x7d' ∧ char ≠ '/' := by
  simp [reserved, and_assoc]

/-- Of what is accepted, a local name without a URI has to do without the braces. -/
theorem legible_iff {uri tail : List Char} (closes : '\x7d' ∉ uri) (some : tail ≠ []) :
    Legible ⟨String.ofList uri, String.ofList tail⟩ ↔ (uri = [] → tail.any reserved = false) := by
  have named : String.ofList tail ≠ "" := by simpa using some
  rw [Legible, String.toList_ofList, String.toList_ofList, any_reserved_eq_false]
  by_cases none : uri = []
  · simp [none, named]
  · simp [none, named, closes]

theorem legible_of_plain {chars : List Char} (some : chars ≠ [])
    (plain : chars.any reserved = false) : Legible ⟨"", String.ofList chars⟩ :=
  (@legible_iff [] chars (by simp) some).mpr (fun _none => plain)

theorem spells_chars_iff (name : Name) : Spells name.chars name ↔ name.Legible := by
  constructor
  · intro spells
    generalize written : name.chars = chars at spells
    cases spells with
    | @braced uri tail closes some =>
        refine (legible_iff closes some).mpr (fun none => ?_)
        -- Such a name is written without the braces that were read.
        rw [chars, none, if_pos rfl, String.toList_ofList] at written
        have longer := congrArg List.length written
        simp only [List.length_cons, List.nil_append] at longer
        omega
    | bare some plain => exact legible_of_plain some plain
  · obtain ⟨uri, localName⟩ := name
    rintro ⟨named, ⟨none, plain⟩ | ⟨filled, closes⟩⟩
    · have spells := @Spells.bare localName.toList (by simpa using named)
        (any_reserved_eq_false.mpr plain)
      rw [String.ofList_toList] at spells
      obtain rfl : uri = "" := none
      rw [chars, if_pos rfl]
      exact spells
    · have spells := @Spells.braced uri.toList localName.toList closes (by simpa using named)
      rw [String.ofList_toList, String.ofList_toList] at spells
      rw [chars, if_neg filled]
      exact spells

theorem read_text_eq_ok (name : Name) : Name.read name.text = .ok name ↔ name.Legible := by
  rw [read_eq_ok, text, String.toList_ofList, spells_chars_iff]

/-- An accepted name can be read back unless its text was shielded. -/
theorem Spells.legible_iff {chars : List Char} {name : Name} (spells : Spells chars name) :
    name.Legible ↔ ¬ Shielded chars := by
  cases spells with
  | @braced uri tail closes some =>
      have shielded : Shielded ('\x7b' :: (uri ++ '\x7d' :: tail)) ↔
          uri = [] ∧ tail.any reserved = true := by
        constructor
        · rintro ⟨rest, same, held⟩
          cases uri with
          | nil =>
              cases same
              exact ⟨rfl, held⟩
          | cons first later =>
              have brace : first = '\x7d' := (List.cons.inj (List.cons.inj same).2).1
              exact absurd (brace ▸ List.mem_cons_self) closes
        · rintro ⟨rfl, held⟩
          exact ⟨tail, rfl, held⟩
      rw [Name.legible_iff closes some, shielded, not_and, Bool.not_eq_true]
  | bare some plain =>
      refine iff_of_true (legible_of_plain some plain) ?_
      rintro ⟨rest, rfl, _held⟩
      cases plain

end Name

/-! ### Identifiers of nodes -/

namespace NodeId

/-- The digits between the hyphens. -/
def groups (id : NodeId) : List (List Char) :=
  [id.digits.take 8, (id.digits.drop 8).take 4, (id.digits.drop 12).take 4,
    (id.digits.drop 16).take 4, id.digits.drop 20]

theorem length_groups (id : NodeId) : id.groups.map List.length = [8, 4, 4, 4, 12] := by
  simp [groups, id.length_digits]

theorem intercalate_groups (id : NodeId) : ['-'].intercalate id.groups = id.chars := by
  simp [groups, chars]

theorem flatten_groups (id : NodeId) : id.groups.flatten = id.digits := by
  have joined (place width : Nat) : (id.digits.drop place).take width ++
      id.digits.drop (place + width) = id.digits.drop place := by
    rw [← List.drop_drop, List.take_append_drop]
  simp only [groups, List.flatten_cons, List.flatten_nil, List.append_nil]
  rw [joined 16 4, joined 12 4, joined 8 4, List.take_append_drop]

theorem ofGroups?_intercalate {first second third fourth last : List Char}
    (one : first.length = 8) (two : second.length = 4) (three : third.length = 4)
    (four : fourth.length = 4) (five : last.length = 12) :
    ofGroups? (['-'].intercalate [first, second, third, fourth, last]) =
      ofDigits? [first, second, third, fourth, last].flatten := by
  rw [ofGroups?, if_pos]
  · simp [List.intercalate, List.drop_append, List.drop_of_length_le, one, two, three, four]
  · simp [hyphenPlaces, List.getElem?_append, one, two, three, four, five]

theorem ofGroups?_chars (id : NodeId) : ofGroups? id.chars = some id := by
  have parted : ofGroups? (['-'].intercalate id.groups) = ofDigits? id.groups.flatten := by
    apply ofGroups?_intercalate <;> simp [id.length_digits]
  rw [← intercalate_groups, parted, flatten_groups, ofDigits?_digits]

theorem ofChars?_chars (id : NodeId) : ofChars? id.chars = some id := by
  have length : id.chars.length = 36 := by
    simp [chars, id.length_digits]
  rw [ofChars?, length]
  exact id.ofGroups?_chars

theorem read_eq_ok {text : String} {id : NodeId} :
    NodeId.read text = .ok id ↔ NodeId.ofChars? text.toList = some id := by
  rw [NodeId.read, NodeId.ofText?]
  cases NodeId.ofChars? text.toList <;> simp

theorem absent_of_groups {id : NodeId} {char : Char} (other : char ∉ Text.Hex.smallDigits)
    {group : List Char} (member : group ∈ id.groups) : char ∉ group := by
  intro there
  have digit : char ∈ id.digits := by
    rw [← flatten_groups]
    exact List.mem_flatten.mpr ⟨group, member, there⟩
  exact other (Text.Hex.mem_smallDigits digit)

theorem slashless (id : NodeId) : '/' ∉ id.chars := by
  have absent : ∀ group ∈ id.groups, '/' ∉ group :=
    fun _group member => absent_of_groups (by decide) member
  rw [← intercalate_groups]
  simp only [groups, List.forall_mem_cons] at absent
  simp [groups, absent]

/-- Thirty-two small digits in groups of eight, four, four, four and twelve. -/
structure Canonical (id : NodeId) (text : String) : Prop where
  lengths : (text.toList.splitOn '-').map List.length = [8, 4, 4, 4, 12]
  digits : (text.toList.splitOn '-').flatten = id.digits
  small : ∀ digit ∈ id.digits, digit ∈ Text.Hex.smallDigits

theorem text_canonical (id : NodeId) : id.Canonical id.text := by
  have parts : id.text.toList.splitOn '-' = id.groups := by
    rw [text, String.toList_ofList, ← intercalate_groups]
    exact List.splitOn_intercalate '-' (fun group member => absent_of_groups (by decide) member)
      (by simp [groups])
  refine ⟨?_, ?_, fun digit member => Text.Hex.mem_smallDigits member⟩
  · rw [parts, length_groups]
  · rw [parts, flatten_groups]

end NodeId

/-! ### Identifiers of properties -/

namespace PropertyId

/-- The first slash ends the node. -/
inductive Spells : List Char → PropertyId → Prop where
  | parted {front rest : List Char} {node : NodeId} {name : Name} (first : '/' ∉ front)
      (owner : NodeId.ofChars? front = some node) (named : Name.Spells rest name) :
      Spells (front ++ '/' :: rest) ⟨node, name⟩

/-- The name's part of the text is shielded. -/
def Shielded (chars : List Char) : Prop :=
  ∃ front rest, chars = front ++ '/' :: rest ∧ '/' ∉ front ∧ Name.Shielded rest

theorem read_eq_ok {text : String} {id : PropertyId} :
    PropertyId.read text = .ok id ↔ Spells text.toList id := by
  constructor
  · intro given
    rw [PropertyId.read] at given
    split at given
    · cases given
    · rename_i front slash rest parted
      obtain ⟨whole, first⟩ := eq_of_span parted
      cases owner : NodeId.read (String.ofList front) with
      | error cause =>
          rw [owner] at given
          cases given
      | ok node =>
          cases named : Name.read (String.ofList rest) with
          | error cause =>
              rw [owner, named] at given
              cases given
          | ok name =>
              rw [owner, named] at given
              cases given
              rw [NodeId.read_eq_ok, String.toList_ofList] at owner
              rw [Name.read_eq_ok, String.toList_ofList] at named
              rw [whole]
              exact .parted first owner named
  · intro spells
    generalize written : text.toList = chars at spells
    cases spells with
    | @parted front rest node name first owner named =>
        have ownerRead : NodeId.read (String.ofList front) = .ok node := by
          rwa [NodeId.read_eq_ok, String.toList_ofList]
        have nameRead : Name.read (String.ofList rest) = .ok name := by
          rwa [Name.read_eq_ok, String.toList_ofList]
        rw [PropertyId.read, written, span_at first]
        dsimp only
        rw [ownerRead, nameRead]
        rfl

theorem spells_chars_iff (id : PropertyId) : Spells id.chars id ↔ id.name.Legible := by
  rw [← Name.spells_chars_iff]
  constructor
  · intro spells
    generalize written : id.chars = chars at spells
    cases spells with
    | @parted front rest node name first owner named =>
        obtain ⟨_node, names⟩ := eq_of_parted node.slashless first written
        rw [names]
        exact named
  · intro spells
    exact .parted id.node.slashless id.node.ofChars?_chars spells

theorem read_text_eq_ok (id : PropertyId) :
    PropertyId.read id.text = .ok id ↔ id.name.Legible := by
  rw [read_eq_ok, text, String.toList_ofList, spells_chars_iff]

/-- An accepted identifier can be read back unless the text of its name was shielded. -/
theorem Spells.legible_iff {chars : List Char} {id : PropertyId} (spells : Spells chars id) :
    id.name.Legible ↔ ¬ Shielded chars := by
  cases spells with
  | @parted front rest node name first owner named =>
      have shielded : Shielded (front ++ '/' :: rest) ↔ Name.Shielded rest := by
        constructor
        · rintro ⟨before, after, same, alsoFirst, held⟩
          rw [(eq_of_parted first alsoFirst same).2]
          exact held
        · intro held
          exact ⟨front, rest, rfl, first, held⟩
      rw [shielded]
      exact named.legible_iff

end PropertyId

/-! ### Reading what was written -/

/-- Exactly the legible names are read back from their text, alone and in the identifier of a
property, whose node is always read back. -/
theorem read_text_iff (name : Name) (id : PropertyId) :
    (Name.read name.text = .ok name ↔ name.Legible) ∧
      (PropertyId.read id.text = .ok id ↔ id.name.Legible) ∧ id.node.Canonical id.node.text :=
  ⟨name.read_text_eq_ok, id.read_text_eq_ok, id.node.text_canonical⟩

/-- A name or an identifier that is accepted is read again from the text that it is given, unless
empty braces shielded its local name. -/
theorem read_again_iff (text : String) :
    (∀ name, Name.read text = .ok name →
      (Name.read name.text = .ok name ↔ ¬ Name.Shielded text.toList)) ∧
    ∀ id, PropertyId.read text = .ok id →
      (PropertyId.read id.text = .ok id ↔ ¬ PropertyId.Shielded text.toList) := by
  constructor
  · intro name accepted
    exact name.read_text_eq_ok.trans (Name.read_eq_ok.mp accepted).legible_iff
  · intro id accepted
    exact id.read_text_eq_ok.trans (PropertyId.read_eq_ok.mp accepted).legible_iff

namespace Letterhead

def node : NodeId := ⟨List.replicate 15 0 ++ [10], rfl⟩

def letter : Name := ⟨"urn:a/b", "letter"⟩

/-- The node in capital letters between braces. -/
def spelled : String :=
  "\x7b00000000-0000-0000-0000-00000000000A\x7d/\x7burn:a/b\x7dletter"

theorem letter_read_again :
    Name.read "\x7burn:a/b\x7dletter" = .ok letter ∧ Name.read letter.text = .ok letter ∧
      PropertyId.read spelled = .ok ⟨node, letter⟩ ∧
      PropertyId.read (PropertyId.text ⟨node, letter⟩) = .ok ⟨node, letter⟩ := by
  have accepted : Name.read "\x7burn:a/b\x7dletter" = .ok letter := by decide
  have alsoAccepted : PropertyId.read spelled = .ok ⟨node, letter⟩ := by decide +kernel
  refine ⟨accepted, ((read_again_iff _).1 letter accepted).mpr ?_, alsoAccepted,
    ((read_again_iff spelled).2 ⟨node, letter⟩ alsoAccepted).mpr ?_⟩
  · rintro ⟨tail, same, _held⟩
    cases same
  · rintro ⟨front, rest, same, first, tail, rfl, _held⟩
    have parts : "\x7b00000000-0000-0000-0000-00000000000A\x7d".toList ++
        '/' :: "\x7burn:a/b\x7dletter".toList = front ++ '/' :: '\x7b' :: '\x7d' :: tail := same
    cases (eq_of_parted (by decide) first parts).2

/-- The local name has a slash, and only the empty braces let it pass. -/
theorem shielded_lost :
    ¬ ∀ text, (∀ name, Name.read text = .ok name → Name.read name.text = .ok name) ∧
      ∀ id, PropertyId.read text = .ok id → PropertyId.read id.text = .ok id := by
  intro claimed
  have again := (claimed "\x7b\x7da/b").1 ⟨"", "a/b"⟩ (by decide)
  exact absurd again (by decide)

end Letterhead

end BundleStore
