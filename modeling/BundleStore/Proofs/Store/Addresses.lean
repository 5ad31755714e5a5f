import BundleStore.Proofs.Coherence.Regularity
import BundleStore.Proofs.Store.Tables
import BundleStore.Proofs.Store.Thresholds

set_option autoImplicit false

/-! Where the values of properties lie in memory. The identifier of a blob tells the node, the text of
the name and the place of the value. The text of a name does not always tell the name: a bare local
name may spell the braces of a URI itself, and a URI may hold the brace that is to end it. These are
the only names with one text. Properties whose names have different texts leave each other's values
alone, whatever is done with one of them. -/

namespace BundleStore

/-! ### Names with one text -/

namespace Name

/-- What the one name has in its local name the other has in its URI, and both have the same text. -/
inductive Mistaken : Name → Name → Prop where
  | bare {uri localName : String} (named : uri ≠ "") :
      Mistaken ⟨"", "\x7b" ++ uri ++ "\x7d" ++ localName⟩ ⟨uri, localName⟩
  | early {uri middle localName : String} (named : uri ≠ "") :
      Mistaken ⟨uri, middle ++ "\x7d" ++ localName⟩ ⟨uri ++ "\x7d" ++ middle, localName⟩

/-- One text stands for both. -/
def Alike (left right : Name) : Prop := left = right ∨ left.Mistaken right ∨ right.Mistaken left

variable {left right : Name}

theorem Mistaken.chars_eq (mistaken : left.Mistaken right) : left.chars = right.chars := by
  cases mistaken with
  | bare named => simp [chars, named]
  | early named => simp [chars, named]

/-- Two texts are the same that are put together at a separator: at the same one, or one of them at
an earlier one. -/
theorem parted_at {separator : Char} {before after other further : List Char}
    (same : before ++ separator :: after = other ++ separator :: further) :
    (before = other ∧ after = further) ∨
      (∃ middle, other = before ++ separator :: middle ∧ after = middle ++ separator :: further) ∨
      ∃ middle, before = other ++ separator :: middle ∧ further = middle ++ separator :: after := by
  rcases List.append_eq_append_iff.mp same with ⟨more, rfl, rest⟩ | ⟨more, rfl, rest⟩
  · cases more with
    | nil => exact Or.inl ⟨(List.append_nil before).symm, (List.cons.inj rest).2⟩
    | cons first middle =>
        obtain ⟨rfl, tail⟩ := List.cons.inj rest
        exact Or.inr (Or.inl ⟨middle, rfl, tail⟩)
  · cases more with
    | nil => exact Or.inl ⟨List.append_nil other, (List.cons.inj rest).2.symm⟩
    | cons first middle =>
        obtain ⟨rfl, tail⟩ := List.cons.inj rest
        exact Or.inr (Or.inr ⟨middle, rfl, tail⟩)

/-- A text is the characters before a brace and those after it. -/
theorem text_of_parts {whole : String} {before after : List Char} {brace : Char}
    (parts : whole.toList = before ++ brace :: after) :
    whole = String.ofList before ++ String.singleton brace ++ String.ofList after := by
  apply String.toList_injective
  rw [parts]
  simp

theorem alike_of_uri (named : left.namespaceUri ≠ "") (alsoNamed : right.namespaceUri ≠ "")
    (same : left.namespaceUri.toList ++ '\x7d' :: left.localName.toList =
      right.namespaceUri.toList ++ '\x7d' :: right.localName.toList) : left.Alike right := by
  obtain ⟨leftUri, leftLocal⟩ := left
  obtain ⟨rightUri, rightLocal⟩ := right
  rcases parted_at same with ⟨uris, locals⟩ | ⟨middle, uri, localName⟩ | ⟨middle, uri, localName⟩
  · left
    exact congrArg₂ Name.mk (String.toList_injective uris) (String.toList_injective locals)
  · right; left
    rw [show rightUri = _ from text_of_parts uri, show leftLocal = _ from text_of_parts localName,
      String.ofList_toList, String.ofList_toList]
    exact .early named
  · right; right
    rw [show leftUri = _ from text_of_parts uri, show rightLocal = _ from text_of_parts localName,
      String.ofList_toList, String.ofList_toList]
    exact .early alsoNamed

theorem mistaken_of_bare (bare : left.namespaceUri = "") (named : right.namespaceUri ≠ "")
    (same : left.localName.toList =
      '\x7b' :: right.namespaceUri.toList ++ '\x7d' :: right.localName.toList) :
    left.Mistaken right := by
  obtain ⟨leftUri, leftLocal⟩ := left
  obtain ⟨rightUri, rightLocal⟩ := right
  obtain rfl : leftUri = "" := bare
  have spelled : leftLocal = "\x7b" ++ rightUri ++ "\x7d" ++ rightLocal := by
    apply String.toList_injective
    rw [same]
    simp
  rw [spelled]
  exact .bare named

theorem chars_eq_iff : left.chars = right.chars ↔ left.Alike right := by
  constructor
  · intro same
    rw [chars, chars] at same
    split at same <;> split at same
    · rename_i bare alsoBare
      left
      obtain ⟨leftUri, leftLocal⟩ := left
      obtain ⟨rightUri, rightLocal⟩ := right
      obtain rfl : leftUri = "" := bare
      obtain rfl : rightUri = "" := alsoBare
      exact congrArg (Name.mk "") (String.toList_injective same)
    · rename_i bare named
      exact Or.inr (Or.inl (mistaken_of_bare bare named same))
    · rename_i named bare
      exact Or.inr (Or.inr (mistaken_of_bare bare named same.symm))
    · rename_i named alsoNamed
      exact alike_of_uri named alsoNamed (List.cons.inj same).2
  · rintro (rfl | mistaken | mistaken)
    · rfl
    · exact mistaken.chars_eq
    · exact mistaken.chars_eq.symm

/-- The URI does not hold the brace that ends it, and a bare local name does not start as if it had a
URI. -/
structure Clear (name : Name) : Prop where
  uri : '\x7d' ∉ name.namespaceUri.toList
  bare : name.namespaceUri = "" → name.localName.toList.head? ≠ some '\x7b'

theorem Mistaken.not_clear (mistaken : left.Mistaken right) (clear : left.Clear) : ¬ right.Clear := by
  intro alsoClear
  cases mistaken with
  | bare named => exact clear.bare rfl (by simp)
  | early named => exact alsoClear.uri (by simp)

/-- The texts of clear names tell them apart. -/
theorem Alike.eq_of_clear (alike : left.Alike right) (clear : left.Clear) (alsoClear : right.Clear) :
    left = right := by
  rcases alike with same | mistaken | mistaken
  · exact same
  · exact absurd alsoClear (mistaken.not_clear clear)
  · exact absurd clear (mistaken.not_clear alsoClear)

end Name

/-! ### Identifiers of blobs -/

namespace MemoryStorage

variable {left right : PropertyId} {leftPlace rightPlace : Nat}

theorem blobId_eq_iff :
    blobId left leftPlace = blobId right rightPlace ↔
      left.node = right.node ∧ left.name.Alike right.name ∧ leftPlace = rightPlace := by
  have moved (place : Nat) (node : left.node = right.node)
      (chars : left.name.chars = right.name.chars) : blobId left place = blobId right place := by
    rw [blobId, blobId, blobIdChars, blobIdChars, node, chars]
  constructor
  · intro same
    have node := blobId_node same
    have chars := blobId_name same
    refine ⟨node, Name.chars_eq_iff.mp chars, ?_⟩
    rw [moved leftPlace node chars] at same
    exact blobId_place same
  · rintro ⟨node, alike, rfl⟩
    exact moved leftPlace node (Name.chars_eq_iff.mpr alike)

/-- Properties with clear names have blobs of their own for all their values. -/
theorem blobId_injective_of_clear (clear : left.name.Clear) (alsoClear : right.name.Clear)
    (same : blobId left leftPlace = blobId right rightPlace) :
    left = right ∧ leftPlace = rightPlace := by
  obtain ⟨node, alike, places⟩ := blobId_eq_iff.mp same
  have name := alike.eq_of_clear clear alsoClear
  obtain ⟨leftNode, leftName⟩ := left
  obtain ⟨rightNode, rightName⟩ := right
  cases node
  cases name
  exact ⟨rfl, places⟩

end MemoryStorage

/-! ### Blobs of a bundle in memory -/

namespace StoredValue

variable {view : BlobView} {threshold first place : Nat} {property : PropertyId} {values : List Value}
  {rest : List StoredValue}

/-- A blob has the name of its place. -/
theorem StandForAll.at_place (all : StandForAll view threshold property first values rest)
    {blob : String} {length : UInt64} (held : rest[place]? = some (.blob blob length)) :
    view.names property (first + place) blob := by
  induction all generalizing place with
  | nil => cases held
  | @cons first value values stored rest head tail ih =>
      cases place with
      | zero =>
          cases head with
          | inline small => cases held
          | blob large named there =>
              cases held
              exact named
      | succ place =>
          have named := ih held
          rw [Nat.add_assoc, Nat.add_comm 1 place] at named
          exact named

end StoredValue

namespace Bundle

variable {id : NodeId} {bundle changed : Bundle} {name other : Name} {stored : StoredProperty}

theorem Regular.blob_named (regular : bundle.Regular id)
    (found : bundle.properties.find? name = some stored) {blob : String}
    (member : blob ∈ stored.blobs) : ∃ place, blob = MemoryStorage.blobId ⟨id, name⟩ place := by
  obtain ⟨value, inValues, holds⟩ := List.mem_filterMap.mp member
  obtain ⟨place, placed⟩ := List.getElem?_of_mem inValues
  cases value with
  | inline value => cases holds
  | blob own length =>
      obtain rfl := Option.some.inj holds
      exact ⟨place, regular.entries found ▸ regular.blobs found placed⟩

theorem Regular.blobsOf_named (regular : bundle.Regular id) {blob : String}
    (member : blob ∈ bundle.blobsOf name) : ∃ place, blob = MemoryStorage.blobId ⟨id, name⟩ place := by
  rw [blobsOf] at member
  split at member
  · rename_i stored found
    exact regular.blob_named found member
  · cases member

theorem Regular.withoutProperty (regular : bundle.Regular id) (name : Name) :
    (bundle.withoutProperty name).Regular id := by
  have kept {other : Name} {stored : StoredProperty}
      (found : (bundle.withoutProperty name).properties.find? other = some stored) :
      bundle.properties.find? other = some stored := by
    by_cases same : other = name
    · rw [same, Bundle.withoutProperty, SortedMap.find?_erase_self] at found
      cases found
    · rwa [Bundle.withoutProperty, SortedMap.find?_erase_of_ne _ same] at found
  refine ⟨regular.named, fun other member => ?_, fun found => regular.entries (kept found),
    fun found => regular.blobs (kept found)⟩
  rw [Option.eq_none_iff_forall_ne_some]
  intro stored found
  have before := kept found
  rw [regular.plain other member] at before
  cases before

theorem Regular.withProperty (regular : bundle.Regular id) (plain : name.isIdentity = false)
    (own : stored.id = ⟨id, name⟩)
    (placed : ∀ {place blob length}, stored.values[place]? = some (.blob blob length) →
      blob = MemoryStorage.blobId stored.id place) : (bundle.withProperty name stored).Regular id := by
  have cleared := regular.withoutProperty name
  have either {other : Name} {entry : StoredProperty}
      (found : (bundle.withProperty name stored).properties.find? other = some entry) :
      (other = name ∧ entry = stored) ∨
        (bundle.withoutProperty name).properties.find? other = some entry := by
    by_cases same : other = name
    · rw [same, Bundle.withProperty, SortedMap.find?_insert_self] at found
      exact Or.inl ⟨same, (Option.some.inj found).symm⟩
    · rw [Bundle.withProperty, SortedMap.find?_insert_of_ne _ same] at found
      exact Or.inr found
  refine ⟨regular.named, fun other member => ?_, fun found => ?_, fun found => ?_⟩
  · rw [Option.eq_none_iff_forall_ne_some]
    intro entry found
    rcases either found with ⟨rfl, _same⟩ | kept
    · rw [isIdentity_of_mem member] at plain
      cases plain
    · rw [cleared.plain other member] at kept
      cases kept
  · rcases either found with ⟨rfl, rfl⟩ | kept
    · exact own
    · exact cleared.entries kept
  · rcases either found with ⟨rfl, rfl⟩ | kept
    · exact placed
    · exact cleared.blobs kept

end Bundle

/-! ### One property beside another -/

namespace Storage

theorem serve_memory {storage : Storage} (memory : storage.files? = none) (call : StorageCall) :
    (storage.serve call).2.1.files? = none := by
  cases storage with
  | files contents => cases memory
  | memory contents => rfl
  | unchecked contents => cases call <;> rfl

/-- In memory a blob has the identifier of its place, and no other leads to it. -/
theorem blobView_of_memory {storage : Storage} (memory : storage.files? = none) :
    storage.blobView.meet = Eq ∧ ∀ property place blob,
      storage.blobView.names property place blob ↔ blob = MemoryStorage.blobId property place := by
  cases storage with
  | files contents => cases memory
  | memory contents => exact ⟨rfl, fun _property _place _blob => Iff.rfl⟩
  | unchecked contents => exact ⟨rfl, fun _property _place _blob => Iff.rfl⟩

end Storage

namespace Session

/-- The storage is one in memory, and no call is made to fail. -/
structure InMemory (session : Session) : Prop where
  healthy : session.faults = SortedMap.empty
  memory : session.storage.files? = none

variable {ε α : Type} {session after : Session} {id : NodeId} {bundle changed : Bundle}
  {name other : Name}

theorem InMemory.keepsBlobs (inMemory : session.InMemory) : session.KeepsBlobs := by
  refine ⟨inMemory.healthy, fun contents files => ?_⟩
  rw [inMemory.memory] at files
  cases files

theorem run_memory (memory : session.storage.files? = none) (task : Task ε α) :
    (session.run task).2.storage.files? = none := by
  have kept (action : Action) (session : Session) (memory : session.storage.files? = none) :
      (session.serve action).2.storage.files? = none := by
    cases action with
    | cache step => exact memory
    | warn warning => exact memory
    | storage call =>
        rw [Session.serve, recorded]
        split
        · exact memory
        · exact Storage.serve_memory memory call
        · exact Storage.serve_memory memory call
  exact Task.run_keeps kept task memory

/-- The other property is read as before, and the bundle is in order. -/
structure Spares (session after : Session) (bundle changed : Bundle) (other : Name) : Prop where
  inMemory : after.InMemory
  regular : changed.Regular bundle.id
  read : changed.read after.storage.blobView other = bundle.read session.storage.blobView other

theorem InMemory.addProperty (inMemory : session.InMemory) (regular : bundle.Regular bundle.id)
    {state : Property} (threshold : Nat) (own : state.id.node = bundle.id)
    (apart : ¬ state.id.name.Alike other) :
    ∃ changed after, session.run (bundle.addProperty state threshold : Task StorageError _) =
      (.ok (.ok (), changed), after) ∧ session.Spares after bundle changed other := by
  cases plain : state.id.name.isIdentity with
  | true =>
      refine ⟨bundle, session, ?_, inMemory, regular, rfl⟩
      rw [Bundle.addProperty, plain]
      rfl
  | false =>
      have keeps := inMemory.keepsBlobs
      have only := keeps.failsOnly_of_memory inMemory.memory
        (bundle.addProperty_handling (ε := StorageError) threshold plain session.storage.blobView)
      obtain ⟨result, changed, after, ran, still, outcome⟩ := keeps.addProperty plain threshold only
      have memory := run_memory inMemory.memory
        (bundle.addProperty state threshold : Task StorageError _)
      rw [ran] at memory
      cases result with
      | error error =>
          obtain ⟨call, stores, blob, rfl⟩ := outcome
          exact stores.elim
      | ok _unit =>
          obtain ⟨stored, puts⟩ := outcome
          obtain ⟨meet, _names⟩ := Storage.blobView_of_memory inMemory.memory
          obtain ⟨_meet, names⟩ := Storage.blobView_of_memory memory
          have property : state.id = ⟨bundle.id, state.id.name⟩ := by rw [← own]
          refine ⟨changed, after, ran, ⟨still.healthy, memory⟩, ?_, ?_⟩
          · rw [puts.changed]
            refine regular.withProperty plain (puts.stands.id.trans property) (fun placed => ?_)
            have named := (names _ _ _).mp (puts.stands.values.at_place placed)
            rw [named, puts.stands.id, Nat.zero_add]
          · refine puts.others (fun same => apart (Or.inl same.symm))
              (fun entry found blob member near reached meets => ?_)
            obtain ⟨place, rfl⟩ := regular.blob_named found member
            have there : ∃ later, near = MemoryStorage.blobId ⟨bundle.id, state.id.name⟩ later := by
              rcases reached with old | new
              · exact regular.blobsOf_named old
              · obtain ⟨later, _after, named⟩ := puts.stands.values.named new
                exact ⟨later, property ▸ (names _ _ _).mp named⟩
            obtain ⟨later, rfl⟩ := there
            rw [meet] at meets
            exact apart (MemoryStorage.blobId_eq_iff.mp meets).2.1

theorem InMemory.removeProperty (inMemory : session.InMemory) (regular : bundle.Regular bundle.id)
    (apart : ¬ name.Alike other) :
    ∃ old changed after, session.run (bundle.removeProperty name : Task StorageError _) =
      (.ok (old, changed), after) ∧ session.Spares after bundle changed other := by
  have keeps := inMemory.keepsBlobs
  obtain ⟨still, outcome⟩ := run_handling keeps
    (bundle.removeProperty_handling (ε := StorageError) name session.storage.blobView)
    (session.failsOnly_any _)
  have memory := run_memory inMemory.memory (bundle.removeProperty name : Task StorageError _)
  cases ran : session.run (bundle.removeProperty name : Task StorageError _) with
  | mk result after =>
      rw [ran] at still outcome memory
      cases result with
      | error error => exact outcome.elim
      | ok removed =>
          obtain ⟨old, changed⟩ := removed
          obtain ⟨rfl, spares⟩ := outcome
          obtain ⟨meet, _names⟩ := Storage.blobView_of_memory inMemory.memory
          have kept : (bundle.withoutProperty name).properties.find? other =
              bundle.properties.find? other :=
            SortedMap.find?_erase_of_ne _ (fun same => apart (Or.inl same.symm))
          refine ⟨old, _, after, rfl, ⟨still.healthy, memory⟩, regular.withoutProperty name, ?_⟩
          rw [Bundle.read, Bundle.read, kept]
          cases found : bundle.properties.find? other with
          | none => rfl
          | some entry =>
              refine congrArg (Option.map some) (BlobView.state_congr (fun blob member => ?_))
              refine spares.bytes (fun near reached meets => ?_)
              obtain ⟨place, rfl⟩ := regular.blob_named found member
              obtain ⟨later, rfl⟩ := regular.blobsOf_named reached
              rw [meet] at meets
              exact apart (MemoryStorage.blobId_eq_iff.mp meets).2.1

end Session

/-! ### Any number of changes -/

namespace Bundle

/-- Puts in, replaces or takes out a property of the node whose name has another text. -/
def Use.Apart (id : NodeId) (other : Name) : Use → Prop
  | .addProperty state _ => state.id.node = id ∧ ¬ state.id.name.Alike other
  | .removeProperty name => ¬ name.Alike other
  | _ => False

end Bundle

namespace Session

variable {session : Session} {id : NodeId} {bundle : Bundle} {other : Name}

theorem Spares.trans {first second third : Session} {start middle last : Bundle}
    (early : first.Spares second start middle other)
    (late : second.Spares third middle last other) : first.Spares third start last other :=
  ⟨late.inMemory, early.regular.named ▸ late.regular, late.read.trans early.read⟩

theorem InMemory.use (inMemory : session.InMemory) (regular : bundle.Regular bundle.id)
    {use : Bundle.Use} (apart : use.Apart bundle.id other) :
    ∃ changed after, session.run (use.task bundle) = (.ok changed, after) ∧
      session.Spares after bundle changed other := by
  cases use with
  | addProperty state threshold =>
      obtain ⟨changed, after, ran, spares⟩ :=
        inMemory.addProperty regular threshold apart.1 apart.2
      refine ⟨changed, after, ?_, spares⟩
      change Task.run _ (bundle.addProperty state threshold >>= _) session = _
      rw [Task.run_bind, show Task.run _ _ session = _ from ran]
      rfl
  | removeProperty name =>
      obtain ⟨old, changed, after, ran, spares⟩ := inMemory.removeProperty regular apart
      refine ⟨changed, after, ?_, spares⟩
      change Task.run _ (bundle.removeProperty name >>= _) session = _
      rw [Task.run_bind, show Task.run _ _ session = _ from ran]
      rfl
  | _ => exact apart.elim

theorem InMemory.useAll (inMemory : session.InMemory) (regular : bundle.Regular bundle.id)
    {uses : List Bundle.Use} (apart : ∀ use ∈ uses, use.Apart bundle.id other) :
    ∃ changed after, session.run (Bundle.useAll uses bundle) = (.ok changed, after) ∧
      session.Spares after bundle changed other := by
  induction uses generalizing session bundle with
  | nil => exact ⟨bundle, session, rfl, inMemory, regular, rfl⟩
  | cons use rest ih =>
      obtain ⟨middle, between, first, early⟩ := inMemory.use regular (apart use List.mem_cons_self)
      have named : middle.id = bundle.id := early.regular.named
      obtain ⟨last, after, others, late⟩ := ih early.inMemory (named ▸ early.regular)
        (fun later member => named ▸ apart later (List.mem_cons_of_mem _ member))
      refine ⟨last, after, ?_, early.trans late⟩
      change Task.run _ (List.foldlM _ bundle (use :: rest)) session = _
      rw [List.foldlM_cons, Task.run_bind, show Task.run _ (use.task bundle) session = _ from first]
      exact others

/-- Two places have one blob in memory only if they are the same place of properties of one node
whose names have one text. So whatever is put in, replaced or taken out of the other properties of a
node, a property with a text of its own is read as before. -/
theorem places_have_own_blobs (left right : PropertyId) (leftPlace rightPlace : Nat) :
    (MemoryStorage.blobId left leftPlace = MemoryStorage.blobId right rightPlace ↔
      left.node = right.node ∧ leftPlace = rightPlace ∧
        (left.name = right.name ∨ left.name.Mistaken right.name ∨
          right.name.Mistaken left.name)) ∧
    ∀ (session : Session) (bundle : Bundle) (other : Name) (uses : List Bundle.Use),
      session.InMemory → bundle.Regular bundle.id → (∀ use ∈ uses, use.Apart bundle.id other) →
      ∃ changed after, session.run (Bundle.useAll uses bundle) = (.ok changed, after) ∧
        (after.run (changed.property? other)).1.toOption =
          (session.run (bundle.property? other)).1.toOption := by
  constructor
  · rw [MemoryStorage.blobId_eq_iff, and_comm (b := leftPlace = rightPlace), Name.Alike]
  · intro session bundle other uses inMemory regular apart
    obtain ⟨changed, after, ran, spares⟩ := inMemory.useAll regular apart
    refine ⟨changed, after, ran, ?_⟩
    rw [spares.inMemory.keepsBlobs.read, inMemory.keepsBlobs.read, spares.read]

end Session

/-! ### Two letters with one text -/

namespace Twins

def bare : PropertyId := ⟨NodeId.zero, ⟨"", "\x7burn:a\x7dletter"⟩⟩

def spaced : PropertyId := ⟨NodeId.zero, ⟨"urn:a", "letter"⟩⟩

def note : PropertyId := ⟨NodeId.zero, ⟨"", "note"⟩⟩

def session : Session :=
  { storage := .memory { MemoryStorage.empty with
      blobs := SortedMap.ofList [(MemoryStorage.blobId bare 0, [1, 2, 3])] }
    cache := BundleCache.new 1000 1 Session.spread
    blobThreshold := 2
    faults := SortedMap.empty
    calls := []
    warnings := [] }

def letter : StoredProperty :=
  ⟨bare, .binary, false, 0, [.blob (MemoryStorage.blobId bare 0) 3]⟩

def bundle : Bundle :=
  { Bundle.ofNode (Node.fresh NodeId.zero Name.unstructured none) with
    properties := SortedMap.ofList [(bare.name, letter)] }

/-- What is read of the letter after some uses of the bundle. -/
def letterAfter (uses : List Bundle.Use) : Option (Option Property) :=
  match session.run (Bundle.useAll uses bundle) with
  | (.ok changed, after) => (after.run (changed.property? bare.name)).1.toOption
  | (.error _, _) => none

def putSpaced : List Bundle.Use := [.addProperty (Property.single spaced (.binary [4, 5, 6])) 2]

def putNote : List Bundle.Use :=
  [.addProperty (Property.single note (.binary [4, 5, 6])) 2,
    .addProperty (Property.single note (.binary [7, 8])) 1, .removeProperty note.name]

/-- Two properties of one node have one blob, and what is put into the one is read from the other. -/
theorem twins_share_blob :
    bare ≠ spaced ∧ MemoryStorage.blobId bare 0 = MemoryStorage.blobId spaced 0 ∧
      letterAfter [] =
        some (some { Property.single bare (.binary [1, 2, 3]) with status := .existing }) ∧
      letterAfter putSpaced =
        some (some { Property.single bare (.binary [4, 5, 6]) with status := .existing }) := by
  decide +kernel

theorem session_inMemory : session.InMemory := ⟨rfl, rfl⟩

theorem bundle_regular : bundle.Regular bundle.id := by
  have only {name : Name} {stored : StoredProperty}
      (found : bundle.properties.find? name = some stored) : name = bare.name ∧ stored = letter := by
    have listed : bundle.properties.entries = [(bare.name, letter)] := by decide +kernel
    have member := SortedMap.find?_eq_some.mp found
    rw [listed, List.mem_singleton] at member
    exact Prod.mk.inj member
  refine ⟨rfl, fun name member => ?_, fun found => ?_, fun found => ?_⟩
  · have none' : ∀ name ∈ Bundle.identityNames, bundle.properties.find? name = none := by
      decide +kernel
    exact none' name member
  · obtain ⟨rfl, rfl⟩ := only found
    rfl
  · obtain ⟨rfl, rfl⟩ := only found
    intro place blob length held
    cases place with
    | zero =>
        cases held
        rfl
    | succ place => cases held

theorem note_not_alike : ¬ note.name.Alike bare.name := by
  rw [← Name.chars_eq_iff]
  decide

theorem note_apart : ∀ use ∈ putNote, use.Apart bundle.id bare.name := by
  intro use member
  simp only [putNote, List.mem_cons, List.not_mem_nil, or_false] at member
  rcases member with rfl | rfl | rfl
  · exact ⟨rfl, note_not_alike⟩
  · exact ⟨rfl, note_not_alike⟩
  · exact note_not_alike

theorem letter_beside_note :
    MemoryStorage.blobId note 0 ≠ MemoryStorage.blobId bare 0 ∧
      session.InMemory ∧ bundle.Regular bundle.id ∧
      (∀ use ∈ putNote, use.Apart bundle.id bare.name) ∧
      ∃ changed after, session.run (Bundle.useAll putNote bundle) = (.ok changed, after) ∧
        (after.run (changed.property? bare.name)).1.toOption =
          some (some { Property.single bare (.binary [1, 2, 3]) with status := .existing }) := by
  obtain ⟨places, others⟩ := Session.places_have_own_blobs note bare 0 0
  obtain ⟨changed, after, ran, same⟩ := others session bundle bare.name putNote session_inMemory
    bundle_regular note_apart
  refine ⟨fun one => note_not_alike (places.mp one).2.2, session_inMemory, bundle_regular, note_apart,
    changed, after, ran, same.trans ?_⟩
  decide +kernel

end Twins

end BundleStore
