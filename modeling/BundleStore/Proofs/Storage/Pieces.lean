import BundleStore.Proofs.Files.Pieces
import BundleStore.Proofs.Record.Formats

set_option autoImplicit false

/-! What the pieces of a repository in files say: the records, the reference lists and the blobs, as
far as they can be read. Each of the three depends on pieces of its own kind. -/

namespace BundleStore

abbrev Pieces := Piece → Option (List UInt8)

namespace Pieces

variable {pieces : Pieces} {piece : Piece} {bytes : Option (List UInt8)} {id : NodeId}

def bundle? (pieces : Pieces) (id : NodeId) : Option Bundle :=
  (pieces (.bundle id)).bind (fun bytes =>
    (Record.decode Record.bundle bytes ("bundle " ++ id.text)).toOption)

def references? (pieces : Pieces) (target : NodeId) : Option References :=
  (pieces (.references target)).bind (fun bytes =>
    (Record.decode Record.references bytes ("references " ++ target.text)).toOption)

def blob? (pieces : Pieces) (blob : String) : Option (List UInt8) :=
  if plain : FilePath.Plain blob then pieces (.blob ⟨blob, plain⟩) else none

/-- Every record can be read, and is the one of its node. -/
def Recorded (pieces : Pieces) : Prop :=
  ∀ id bytes, pieces (.bundle id) = some bytes → ∃ bundle : Bundle,
    bundle.id = id ∧ bundle.record = bundle ∧ Record.encode Record.bundle bundle = .ok bytes

theorem Recorded.bundle? (recorded : pieces.Recorded) {bundle : Bundle}
    (held : pieces.bundle? id = some bundle) : bundle.id = id ∧ bundle.record = bundle := by
  obtain ⟨bytes, there, decoded⟩ := Option.bind_eq_some_iff.mp held
  obtain ⟨written, named, whole, encoded⟩ := recorded id bytes there
  rw [Record.decode_encode (Record.bundle_yields written) encoded, whole] at decoded
  cases decoded
  exact ⟨named, whole⟩

theorem Recorded.update (recorded : pieces.Recorded) (other : ∀ id, piece ≠ .bundle id) :
    Recorded (Function.update pieces piece bytes) := by
  intro id held there
  rw [Function.update_of_ne (other id).symm] at there
  exact recorded id held there

theorem Recorded.insert (recorded : pieces.Recorded) {bundle : Bundle} {bytes : List UInt8}
    (encoded : Record.encode Record.bundle bundle = .ok bytes) :
    Recorded (Function.update pieces (.bundle bundle.id) (some bytes)) := by
  intro id held there
  by_cases same : id = bundle.id
  · rw [same, Function.update_self] at there
    rw [← Option.some.inj there, same]
    exact ⟨bundle.record, rfl, rfl, encoded⟩
  · rw [Function.update_of_ne (by simpa using same)] at there
    exact recorded id held there

theorem Recorded.erase (recorded : pieces.Recorded) (id : NodeId) :
    Recorded (Function.update pieces (.bundle id) none) := by
  intro other held there
  by_cases same : other = id
  · rw [same, Function.update_self] at there
    cases there
  · rw [Function.update_of_ne (by simpa using same)] at there
    exact recorded other held there

theorem bundle?_insert {bundle : Bundle} {bytes : List UInt8}
    (encoded : Record.encode Record.bundle bundle = .ok bytes) :
    bundle? (Function.update pieces (.bundle bundle.id) (some bytes)) =
      Function.update pieces.bundle? bundle.id (some bundle.record) := by
  funext id
  unfold bundle?
  by_cases same : id = bundle.id
  · rw [same, Function.update_self, Function.update_self, Option.bind_some,
      Record.decode_encode (Record.bundle_yields bundle) encoded]
    rfl
  · rw [Function.update_of_ne (by simpa using same), Function.update_of_ne same]

theorem bundle?_erase :
    bundle? (Function.update pieces (.bundle id) none) =
      Function.update pieces.bundle? id none := by
  funext other
  unfold bundle?
  by_cases same : other = id
  · rw [same, Function.update_self, Function.update_self, Option.bind_none]
  · rw [Function.update_of_ne (by simpa using same), Function.update_of_ne same]

theorem bundle?_congr {other : Pieces} (same : ∀ id, other (.bundle id) = pieces (.bundle id)) :
    other.bundle? = pieces.bundle? :=
  funext (fun id => by rw [bundle?, bundle?, same])

theorem bundle?_update (other : ∀ id, piece ≠ .bundle id) :
    bundle? (Function.update pieces piece bytes) = pieces.bundle? :=
  bundle?_congr (fun id => Function.update_of_ne (other id).symm ..)

theorem references?_insert {references : References} {bytes : List UInt8}
    (encoded : Record.encode Record.references references = .ok bytes) :
    references? (Function.update pieces (.references references.target) (some bytes)) =
      Function.update pieces.references? references.target (some references) := by
  funext target
  unfold references?
  by_cases same : target = references.target
  · rw [same, Function.update_self, Function.update_self, Option.bind_some,
      Record.decode_encode (Record.references_lawful.yields references) encoded]
    rfl
  · rw [Function.update_of_ne (by simpa using same), Function.update_of_ne same]

theorem references?_erase :
    references? (Function.update pieces (.references id) none) =
      Function.update pieces.references? id none := by
  funext target
  unfold references?
  by_cases same : target = id
  · rw [same, Function.update_self, Function.update_self, Option.bind_none]
  · rw [Function.update_of_ne (by simpa using same), Function.update_of_ne same]

theorem references?_congr {other : Pieces}
    (same : ∀ target, other (.references target) = pieces (.references target)) :
    other.references? = pieces.references? :=
  funext (fun target => by rw [references?, references?, same])

theorem references?_update (other : ∀ target, piece ≠ .references target) :
    references? (Function.update pieces piece bytes) = pieces.references? :=
  references?_congr (fun target => Function.update_of_ne (other target).symm ..)

theorem blob?_plain {blob : String} (plain : FilePath.Plain blob) :
    pieces.blob? blob = pieces (.blob ⟨blob, plain⟩) := dif_pos plain

theorem blob?_set {blob : String} (plain : FilePath.Plain blob) :
    blob? (Function.update pieces (.blob ⟨blob, plain⟩) bytes) =
      Function.update pieces.blob? blob bytes := by
  funext other
  by_cases same : other = blob
  · rw [same, Function.update_self, blob?_plain plain, Function.update_self]
  · rw [Function.update_of_ne same, blob?, blob?]
    split
    · rw [Function.update_of_ne (by simpa using same)]
    · rfl

theorem blob?_congr {other : Pieces} (same : ∀ blob, other (.blob blob) = pieces (.blob blob)) :
    other.blob? = pieces.blob? :=
  funext (fun blob => by unfold blob?; split <;> simp [same])

theorem blob?_update (other : ∀ blob, piece ≠ .blob blob) :
    blob? (Function.update pieces piece bytes) = pieces.blob? :=
  blob?_congr (fun blob => Function.update_of_ne (other blob).symm ..)

end Pieces

end BundleStore
