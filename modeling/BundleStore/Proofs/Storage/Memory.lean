import BundleStore.Proofs.Index.Folders
import BundleStore.Proofs.Record.Formats
import BundleStore.Proofs.Storage.Inspections
import BundleStore.Storage.Memory
import Mathlib.Data.List.Flatten

set_option autoImplicit false

/-! Storage in memory is a backend: it holds only records that can be read, each under its node, and
its calls do what they say. No call fails but the reading of a blob that is not there, and the
writing of a bundle too large for a record. -/

namespace BundleStore

/-! ### Blob identifiers -/

namespace MemoryStorage

theorem blobId_node {left right : PropertyId} {leftPlace rightPlace : Nat}
    (same : blobId left leftPlace = blobId right rightPlace) : left.node = right.node := by
  have chars : blobIdChars left leftPlace = blobIdChars right rightPlace :=
    String.ofList_injective same
  rw [blobIdChars, blobIdChars, List.append_assoc, List.append_assoc] at chars
  refine NodeId.folderChars_inj (List.append_inj_left chars ?_)
  rw [NodeId.folderChars_length, NodeId.folderChars_length]

theorem blobId_place {property : PropertyId} {left right : Nat}
    (same : blobId property left = blobId property right) : left = right := by
  have chars : blobIdChars property left = blobIdChars property right :=
    String.ofList_injective same
  have digits : '.' :: Nat.toDigits 10 left = '.' :: Nat.toDigits 10 right :=
    List.append_cancel_left chars
  have read : Nat.ofDigitChars 10 (Nat.toDigits 10 left) 0 =
      Nat.ofDigitChars 10 (Nat.toDigits 10 right) 0 := by rw [(List.cons.inj digits).2]
  rw [Nat.ofDigitChars_ten_toDigits, Nat.ofDigitChars_ten_toDigits] at read
  exact read

/-- The text before the last separator is told by where that stands. -/
theorem before_last {separator : Char} {before after other further : List Char}
    (last : separator ∉ after) (alsoLast : separator ∉ further)
    (same : before ++ separator :: after = other ++ separator :: further) : before = other := by
  rcases List.append_eq_append_iff.mp same with ⟨more, rfl, rest⟩ | ⟨more, rfl, rest⟩
  · cases more with
    | nil => exact (List.append_nil before).symm
    | cons first more =>
        rw [(List.cons.inj rest).2] at last
        exact absurd (List.mem_append_right _ List.mem_cons_self) last
  · cases more with
    | nil => exact List.append_nil other
    | cons first more =>
        rw [(List.cons.inj rest).2] at alsoLast
        exact absurd (List.mem_append_right _ List.mem_cons_self) alsoLast

theorem blobId_name {left right : PropertyId} {leftPlace rightPlace : Nat}
    (same : blobId left leftPlace = blobId right rightPlace) :
    left.name.chars = right.name.chars := by
  have chars : blobIdChars left leftPlace = blobIdChars right rightPlace :=
    String.ofList_injective same
  rw [blobIdChars, blobIdChars, blobId_node same, List.append_assoc, List.append_assoc] at chars
  have undotted (number : Nat) : '.' ∉ Nat.toDigits 10 number := by
    intro member
    exact absurd (Nat.isDigit_of_mem_toDigits (by decide) (by decide) member) (by decide)
  exact before_last (undotted _) (undotted _) (List.cons.inj (List.append_cancel_left chars)).2

/-! ### Contents -/

/-- Every record can be read, and is the one of its node. -/
def Sound (storage : MemoryStorage) : Prop :=
  ∀ id bytes, storage.bundles.find? id = some bytes → ∃ bundle : Bundle,
    bundle.id = id ∧ bundle.record = bundle ∧ Record.encode Record.bundle bundle = .ok bytes

theorem empty_sound : empty.Sound := fun id bytes found => by cases found

theorem loadBundle_absent {storage : MemoryStorage} {id : NodeId}
    (absent : storage.bundles.find? id = none) : storage.loadBundle id = .ok none := by
  rw [loadBundle, absent]

theorem loadBundle_record {storage : MemoryStorage} {id : NodeId} {bytes : List UInt8}
    (found : storage.bundles.find? id = some bytes) {bundle : Bundle}
    (encoded : Record.encode Record.bundle bundle = .ok bytes) :
    storage.loadBundle id = .ok (some bundle.record) := by
  rw [loadBundle, found]
  change (Record.decode Record.bundle bytes id.text).map some = _
  rw [Record.decode_encode (Record.bundle_yields bundle) encoded]
  rfl

theorem Sound.loads {storage : MemoryStorage} (sound : storage.Sound) (id : NodeId) :
    storage.loadBundle id = .ok none ∨ ∃ bundle : Bundle, bundle.id = id ∧
      bundle.record = bundle ∧ storage.loadBundle id = .ok (some bundle) ∧
      ∃ bytes, Record.encode Record.bundle bundle = .ok bytes := by
  cases found : storage.bundles.find? id with
  | none => exact Or.inl (loadBundle_absent found)
  | some bytes =>
      obtain ⟨bundle, named, recorded, encoded⟩ := sound id bytes found
      have loaded := loadBundle_record found encoded
      rw [recorded] at loaded
      exact Or.inr ⟨bundle, named, recorded, loaded, bytes, encoded⟩

def bundle? (storage : MemoryStorage) (id : NodeId) : Option Bundle :=
  (storage.loadBundle id).toOption.join

theorem Sound.bundle? {storage : MemoryStorage} (sound : storage.Sound) {id : NodeId}
    {bundle : Bundle} (held : storage.bundle? id = some bundle) :
    bundle.id = id ∧ bundle.record = bundle := by
  rw [MemoryStorage.bundle?] at held
  rcases sound.loads id with absent | ⟨loaded, named, recorded, present, _encoded⟩
  · rw [absent] at held
    cases held
  · rw [present] at held
    cases held
    exact ⟨named, recorded⟩

def contents (storage : { storage : MemoryStorage // storage.Sound }) : Contents :=
  { bundles := storage.1.bundle?
    references := storage.1.references.find?
    blobs := storage.1.blobs.find?
    slots := fun property place => some (blobId property place)
    filed := fun held => (storage.2.bundle? held).1
    recorded := fun held => (storage.2.bundle? held).2
    oneNode := fun left right =>
      blobId_node ((Option.some.inj left).trans (Option.some.inj right).symm)
    onePlace := fun left right =>
      blobId_place ((Option.some.inj left).trans (Option.some.inj right).symm) }

/-- The bytes of a record are those that its bundle is encoded as. -/
theorem Sound.find?_bundles {storage : MemoryStorage} (sound : storage.Sound) (id : NodeId) :
    storage.bundles.find? id =
      (storage.bundle? id).bind (fun bundle => (Record.encode Record.bundle bundle).toOption) := by
  rw [MemoryStorage.bundle?]
  cases found : storage.bundles.find? id with
  | none =>
      rw [loadBundle_absent found]
      rfl
  | some bytes =>
      obtain ⟨bundle, _named, recorded, encoded⟩ := sound id bytes found
      rw [loadBundle_record found encoded, recorded]
      change _ = (Record.encode Record.bundle bundle).toOption
      rw [encoded]
      rfl

/-- What is a record fits into a record. -/
theorem Sound.encodes {storage : MemoryStorage} (sound : storage.Sound) {bundle : Bundle}
    (held : storage.bundle? bundle.id = some bundle.record) (cause : StorageError) :
    Record.encode Record.bundle bundle ≠ .error cause := by
  intro failed
  rw [MemoryStorage.bundle?] at held
  rcases sound.loads bundle.id with absent | ⟨stored, _named, _recorded, loaded, bytes, encoded⟩
  · rw [absent] at held
    cases held
  · rw [loaded] at held
    obtain rfl : stored = bundle.record := Option.some.inj held
    cases encoded.symm.trans failed

/-- Storage in memory is no more than what it holds. -/
theorem contents_injective : Function.Injective contents := by
  intro left right same
  have bundles : left.1.bundle? = right.1.bundle? := congrArg Contents.bundles same
  have references : left.1.references.find? = right.1.references.find? :=
    congrArg Contents.references same
  have blobs : left.1.blobs.find? = right.1.blobs.find? := congrArg Contents.blobs same
  apply Subtype.ext
  rw [MemoryStorage.mk.injEq]
  refine ⟨SortedMap.ext_find? (funext fun id => ?_), SortedMap.ext_find? references,
    SortedMap.ext_find? blobs⟩
  rw [left.2.find?_bundles, right.2.find?_bundles, bundles]

/-! ### Bundles -/

theorem loadBundle_congr {left right : MemoryStorage} {id : NodeId}
    (same : left.bundles.find? id = right.bundles.find? id) :
    left.loadBundle id = right.loadBundle id := by
  rw [loadBundle, loadBundle, same]

theorem storeBundle_fits {storage : MemoryStorage} {bundle : Bundle} {bytes : List UInt8}
    (encoded : Record.encode Record.bundle bundle = .ok bytes) :
    storage.storeBundle bundle =
      (.ok (), { storage with bundles := storage.bundles.insert bundle.id bytes }) := by
  rw [storeBundle, encoded]

theorem storeBundle_exceeds {storage : MemoryStorage} {bundle : Bundle} {cause : StorageError}
    (exceeds : Record.encode Record.bundle bundle = .error cause) :
    storage.storeBundle bundle = (.error cause, storage) := by
  rw [storeBundle, exceeds]

theorem sound_of_bundles {before after : MemoryStorage} (sound : before.Sound)
    (same : after.bundles = before.bundles) : after.Sound := by
  rw [Sound, same]
  exact sound

theorem Sound.insert {storage : MemoryStorage} (sound : storage.Sound) {bundle : Bundle}
    {bytes : List UInt8} (encoded : Record.encode Record.bundle bundle = .ok bytes) :
    Sound { storage with bundles := storage.bundles.insert bundle.id bytes } := by
  intro id held found
  by_cases same : id = bundle.id
  · rw [same, SortedMap.find?_insert_self] at found
    rw [← Option.some.inj found, same]
    exact ⟨bundle.record, rfl, rfl, encoded⟩
  · rw [SortedMap.find?_insert_of_ne _ same] at found
    exact sound id held found

theorem bundle?_insert (storage : MemoryStorage) {bundle : Bundle} {bytes : List UInt8}
    (encoded : Record.encode Record.bundle bundle = .ok bytes) :
    bundle? { storage with bundles := storage.bundles.insert bundle.id bytes } =
      Function.update storage.bundle? bundle.id (some bundle.record) := by
  funext id
  by_cases same : id = bundle.id
  · rw [same, Function.update_self, bundle?,
      loadBundle_record (SortedMap.find?_insert_self ..) encoded]
    rfl
  · rw [Function.update_of_ne same, bundle?,
      loadBundle_congr (SortedMap.find?_insert_of_ne storage.bundles same bytes)]
    rfl

theorem Sound.erase {storage : MemoryStorage} (sound : storage.Sound) (id : NodeId) :
    Sound { storage with bundles := storage.bundles.erase id } := by
  intro other held found
  by_cases same : other = id
  · rw [same, SortedMap.find?_erase_self] at found
    cases found
  · rw [SortedMap.find?_erase_of_ne _ same] at found
    exact sound other held found

theorem bundle?_erase (storage : MemoryStorage) (id : NodeId) :
    bundle? { storage with bundles := storage.bundles.erase id } =
      Function.update storage.bundle? id none := by
  funext other
  by_cases same : other = id
  · rw [same, Function.update_self, bundle?, loadBundle, SortedMap.find?_erase_self]
    rfl
  · rw [Function.update_of_ne same, bundle?,
      loadBundle_congr (SortedMap.find?_erase_of_ne storage.bundles same)]
    rfl

/-! ### Checks -/

/-- Records have lost child entries, and nothing else has changed. -/
structure Mended (before after : MemoryStorage) : Prop where
  references : after.references = before.references
  blobs : after.blobs = before.blobs
  absent : ∀ {id}, before.bundle? id = none → after.bundle? id = none
  present : ∀ {id bundle}, before.bundle? id = some bundle → ∃ children,
    children.Sublist bundle.children ∧ after.bundle? id = some { bundle with children }

theorem Mended.refl (storage : MemoryStorage) : Mended storage storage :=
  ⟨rfl, rfl, fun held => held, fun {_id bundle} held => ⟨bundle.children, .refl _, held⟩⟩

theorem Mended.trans {first second third : MemoryStorage} (early : Mended first second)
    (late : Mended second third) : Mended first third := by
  refine ⟨late.references.trans early.references, late.blobs.trans early.blobs,
    fun held => late.absent (early.absent held), fun {id bundle} held => ?_⟩
  obtain ⟨kept, fewer, then_⟩ := early.present held
  obtain ⟨last, still, finally_⟩ := late.present then_
  exact ⟨last, still.trans fewer, finally_⟩

/-- A record with fewer child entries fits wherever the whole one does. -/
theorem encode_fewer {bundle : Bundle} {children : List Child}
    (fewer : children.Sublist bundle.children) {bytes : List UInt8}
    (encoded : Record.encode Record.bundle bundle = .ok bytes) :
    ∃ shorter, Record.encode Record.bundle { bundle with children } = .ok shorter := by
  have listed : (Record.child.list.write children).length ≤
      (Record.child.list.write bundle.children).length := by
    change (Record.littleEndian 8 _ ++ children.flatMap Record.child.write).length ≤
      (Record.littleEndian 8 _ ++ bundle.children.flatMap Record.child.write).length
    rw [List.length_append, List.length_append, Record.length_littleEndian,
      Record.length_littleEndian]
    have sublist := (fewer.flatMap Record.child.write).length_le
    omega
  have whole := (Record.unframe_frame encoded).2
  have small : (Record.bundle.write { bundle with children }).length < Record.lengthLimit := by
    refine Nat.lt_of_le_of_lt ?_ whole
    simp only [Record.bundle, Record.Codec.refine, Record.Codec.pair, List.length_append]
    omega
  exact ⟨_, if_pos small⟩

theorem mended_insert {storage : MemoryStorage} {bundle : Bundle} {children : List Child}
    (recorded : bundle.record = bundle) (held : storage.bundle? bundle.id = some bundle)
    (fewer : children.Sublist bundle.children) {bytes : List UInt8}
    (encoded : Record.encode Record.bundle { bundle with children } = .ok bytes) :
    Mended storage { storage with bundles := storage.bundles.insert bundle.id bytes } := by
  have after := bundle?_insert storage encoded
  have written : ({ bundle with children } : Bundle).record = { bundle with children } := by
    rw [← recorded]
    rfl
  rw [written] at after
  refine ⟨rfl, rfl, fun {id} absent => ?_, fun {id other} present => ?_⟩
  · have differs : id ≠ bundle.id := by
      intro same
      rw [same, held] at absent
      cases absent
    exact (congrFun after id).trans ((Function.update_of_ne differs ..).trans absent)
  · by_cases same : id = bundle.id
    · rw [same, held] at present
      cases present
      refine ⟨children, fewer, (congrFun after id).trans ?_⟩
      rw [same]
      exact Function.update_self ..
    · refine ⟨other.children, .refl _, (congrFun after id).trans ?_⟩
      exact (Function.update_of_ne same ..).trans present

/-! ### Checking -/

/-- A check of storage in memory looks at no blobs. -/
def inspection : Inspection MemoryStorage where
  load := loadBundle
  stored storage id := storage.bundles.contains id
  tolerant := false
  blobFault? _ _ := none
  store := storeBundle

theorem blobProblems_eq (storage : MemoryStorage) (id : NodeId) (bundle : Bundle) :
    inspection.blobProblems storage id bundle = [] := List.filterMap_none bundle.blobs

/-- A check of storage in memory inspects nodes as long as it can read them. -/
theorem visit_follows (recursive mend : Bool) :
    inspection.Follows recursive mend (visit recursive mend) where
  done _bound _seen _problems _now := rfl
  again bound {id} pending {seen} problems now visited := by
    rw [visit]
    dsimp only
    rw [if_pos visited]
  first bound {id} pending {seen} problems {now further found later} unseen inspects := by
    rw [visit]
    dsimp only
    rw [if_neg (Bool.eq_false_iff.mp unseen)]
    cases inspects with
    | missing absent =>
        have loaded : now.loadBundle id = .ok none := absent
        simp only [loaded, List.nil_append]
    | unreadable failed bearable => cases bearable
    | @present bundle _ loaded written =>
        have found : now.loadBundle id = .ok (some bundle) := loaded
        have passed : Pass.entries now.bundles.contains recursive mend id bundle pending problems = _ :=
          @Inspection.entries_eq_pass _ inspection now id bundle recursive mend pending problems
        have stored : (if (inspection.pass recursive mend now id bundle).dirty = true then
            now.storeBundle (inspection.pass recursive mend now id bundle).repaired
            else (.ok (), now)) = (.ok (), later) := written
        simp only [found, passed, stored, blobProblems_eq, List.append_nil]

theorem repair_mended {storage : MemoryStorage} (sound : storage.Sound) {bundle : Bundle}
    (recorded : bundle.record = bundle) (held : storage.bundle? bundle.id = some bundle)
    {bytes : List UInt8} (encoded : Record.encode Record.bundle bundle = .ok bytes) :
    (inspection.storePruned storage bundle).1 = .ok () ∧
      Sound (inspection.storePruned storage bundle).2 ∧
      Mended storage (inspection.storePruned storage bundle).2 := by
  rw [Inspection.storePruned]
  split
  · exact ⟨rfl, sound, Mended.refl storage⟩
  · have fewer : (inspection.storedChildren storage bundle).Sublist bundle.children :=
      List.filter_sublist
    obtain ⟨shorter, fits⟩ := encode_fewer fewer encoded
    have stored : inspection.store storage
        { bundle with children := inspection.storedChildren storage bundle } =
        (.ok (), { storage with bundles := storage.bundles.insert bundle.id shorter }) :=
      storeBundle_fits fits
    have stays := sound.insert fits
    rw [stored]
    exact ⟨rfl, stays, mended_insert recorded held fewer fits⟩

/-- A check goes on from every node. It repairs nothing unless it is told to, and takes nothing but
child entries away. -/
theorem Sound.inspects {storage : MemoryStorage} (sound : storage.Sound) (recursive mend : Bool)
    (id : NodeId) :
    ∃ further found after, inspection.Inspects recursive mend storage id further found after ∧
      Sound after ∧ Mended storage after ∧ (mend = false → after = storage) := by
  rcases sound.loads id with absent | ⟨bundle, named, recorded, loaded, bytes, encoded⟩
  · exact ⟨_, _, storage, .missing absent, sound, Mended.refl storage, fun _ => rfl⟩
  · cases mend with
    | false =>
        exact ⟨_, _, storage, .mends loaded rfl, sound, Mended.refl storage, fun _ => rfl⟩
    | true =>
        have held : storage.bundle? bundle.id = some bundle := by
          rw [named, MemoryStorage.bundle?, loaded]
          rfl
        obtain ⟨done, stays, mended⟩ := repair_mended sound recorded held encoded
        exact ⟨_, _, _, .mends loaded (Prod.ext done rfl), stays, mended,
          fun impossible => by cases impossible⟩

/-- A visit goes through to its end, repairs nothing unless it is told to, and takes nothing but
child entries away. -/
theorem visit_mended (recursive mend : Bool) (bound : Nat) (visited : Visit)
    {storage : MemoryStorage} (sound : storage.Sound) :
    (∃ problems, (visit recursive mend bound visited storage).1 = .ok problems) ∧
      Sound (visit recursive mend bound visited storage).2 ∧
      Mended storage (visit recursive mend bound visited storage).2 ∧
      (mend = false → (visit recursive mend bound visited storage).2 = storage) := by
  induction bound generalizing visited storage with
  | zero => exact ⟨⟨_, rfl⟩, sound, Mended.refl storage, fun _ => rfl⟩
  | succ bound ih =>
      obtain ⟨pending, seen, problems⟩ := visited
      cases pending with
      | nil => exact ⟨⟨_, rfl⟩, sound, Mended.refl storage, fun _ => rfl⟩
      | cons id pending =>
          cases known : SortedMap.contains seen id with
          | true =>
              rw [(visit_follows recursive mend).again _ _ _ _ known]
              exact ih _ sound
          | false =>
              obtain ⟨further, found, after, inspects, stays, mended, kept⟩ :=
                sound.inspects recursive mend id
              rw [(visit_follows recursive mend).first _ _ _ known inspects]
              obtain ⟨ends, still, later, same⟩ :=
                ih ⟨further ++ pending, SortedSet.add seen id, problems ++ found⟩ stays
              exact ⟨ends, still, mended.trans later, fun off => (same off).trans (kept off)⟩

/-! ### The backend -/

theorem serve_sound {storage : MemoryStorage} (sound : storage.Sound) (call : StorageCall) :
    Sound (storage.serve call).2 := by
  cases call with
  | storeBundle bundle =>
      change Sound (storage.storeBundle bundle).2
      cases encoded : Record.encode Record.bundle bundle with
      | error cause =>
          rw [storeBundle_exceeds encoded]
          exact sound
      | ok bytes =>
          rw [storeBundle_fits encoded]
          exact sound.insert encoded
  | destroyBundle id => exact sound.erase id
  | checkConsistency ids recursive repair => exact (visit_mended recursive repair _ _ sound).2.1
  | _ => exact sound_of_bundles sound rfl

theorem find?_insert_update {κ α : Type} [Ord κ] [Std.TransOrd κ] [Std.LawfulEqOrd κ]
    [DecidableEq κ] (map : SortedMap κ α) (key : κ) (value : α) :
    (map.insert key value).find? = Function.update map.find? key (some value) := by
  funext other
  by_cases same : other = key
  · rw [same, SortedMap.find?_insert_self, Function.update_self]
  · rw [SortedMap.find?_insert_of_ne _ same, Function.update_of_ne same]

theorem find?_erase_update {κ α : Type} [Ord κ] [Std.TransOrd κ] [Std.LawfulEqOrd κ]
    [DecidableEq κ] (map : SortedMap κ α) (key : κ) :
    (map.erase key).find? = Function.update map.find? key none := by
  funext other
  by_cases same : other = key
  · rw [same, SortedMap.find?_erase_self, Function.update_self]
  · rw [SortedMap.find?_erase_of_ne _ same, Function.update_of_ne same]

/-- The states of storage in memory that its calls lead to. -/
abbrev Kept := { storage : MemoryStorage // storage.Sound }

def serveKept (call : StorageCall) (storage : Kept) : Except StorageError call.Result × Kept :=
  ((storage.1.serve call).1, ⟨(storage.1.serve call).2, serve_sound storage.2 call⟩)

theorem check_answers (storage : Kept) (ids : List NodeId) (recursive repair : Bool) :
    (∃ problems, (serveKept (.checkConsistency ids recursive repair) storage).1 = .ok problems) ∧
      StorageCall.Does (.checkConsistency ids recursive repair) [] (contents storage)
        (contents (serveKept (.checkConsistency ids recursive repair) storage).2) := by
  obtain ⟨ends, _sound, mended, unrepaired⟩ := visit_mended recursive repair
    (storage.1.visitBound (if ids.isEmpty then storage.1.ids else ids))
    ⟨(if ids.isEmpty then storage.1.ids else ids).reverse, SortedMap.empty, []⟩ storage.2
  refine ⟨ends, ?_⟩
  cases repair with
  | false => exact congrArg contents (Subtype.ext (unrepaired rfl))
  | true =>
      exact ⟨congrArg SortedMap.find? mended.references, congrArg SortedMap.find? mended.blobs, rfl,
        mended.absent, mended.present⟩

theorem answered {call : StorageCall} {storage : Kept} {result : call.Result}
    (ok : (serveKept call storage).1 = .ok result) :
    call.Does result (contents storage) (contents (serveKept call storage).2) := by
  cases call with
  | loadBundle id =>
      constructor
      · rfl
      · change storage.1.loadBundle id = .ok result at ok
        change result = (storage.1.loadBundle id).toOption.join
        rw [ok]
        rfl
  | storeBundle bundle =>
      change (storage.1.storeBundle bundle).1 = .ok result at ok
      cases encoded : Record.encode Record.bundle bundle with
      | error cause =>
          rw [storeBundle_exceeds encoded] at ok
          cases ok
      | ok bytes =>
          have stored : (storage.1.storeBundle bundle).2 =
              { storage.1 with bundles := storage.1.bundles.insert bundle.id bytes } :=
            congrArg Prod.snd (storeBundle_fits encoded)
          refine Contents.ext ?_ ?_ ?_ rfl
          · change bundle? (storage.1.storeBundle bundle).2 = _
            rw [stored, bundle?_insert storage.1 encoded]
            rfl
          · change (storage.1.storeBundle bundle).2.references.find? = _
            rw [stored]
            rfl
          · change (storage.1.storeBundle bundle).2.blobs.find? = _
            rw [stored]
            rfl
  | destroyBundle id => exact Contents.ext (bundle?_erase storage.1 id) rfl rfl rfl
  | loadReferences target => exact ⟨rfl, (Except.ok.inj ok).symm⟩
  | storeReferences references =>
      exact Contents.ext rfl (find?_insert_update storage.1.references ..) rfl rfl
  | destroyReferences target =>
      exact Contents.ext rfl (find?_erase_update storage.1.references ..) rfl rfl
  | checkConsistency ids recursive repair => exact (check_answers storage ids recursive repair).2
  | createBlobId property place =>
      exact ⟨⟨rfl, rfl, rfl, fun given => given⟩, congrArg some (Except.ok.inj ok)⟩
  | putBlob blob bytes => exact Contents.ext rfl rfl (find?_insert_update storage.1.blobs ..) rfl
  | getBlob blob =>
      constructor
      · rfl
      · change storage.1.getBlob blob = .ok result at ok
        change storage.1.blobs.find? blob = some result
        rw [getBlob] at ok
        cases found : storage.1.blobs.find? blob with
        | none =>
            rw [found] at ok
            cases ok
        | some bytes =>
            rw [found] at ok
            exact congrArg some (Except.ok.inj ok)
  | removeBlob blob =>
      exact ⟨Contents.ext rfl rfl (find?_erase_update storage.1.blobs blob) rfl,
        (Except.ok.inj ok).symm⟩

/-- A blob that is not there cannot be read, and a bundle that does not fit into a record cannot be
written. -/
def faults : Faults
  | .getBlob blob, error, contents => contents.blobs blob = none ∧ error = .blobNotFound blob
  | .storeBundle bundle, error, _ => Record.encode Record.bundle bundle = .error error
  | _, _, _ => False

theorem faults_none {call : StorageCall} {error : StorageError} {contents : Contents}
    (fault : faults call error contents) : Faults.none call error contents := by
  cases call with
  | getBlob blob => exact fault
  | storeBundle bundle => exact trivial
  | _ => exact fault.elim

theorem refused {call : StorageCall} {storage : Kept} {error : StorageError}
    (failed : (serveKept call storage).1 = .error error) :
    contents (serveKept call storage).2 = contents storage ∧
      faults call error (contents storage) := by
  cases call with
  | loadBundle id =>
      change storage.1.loadBundle id = .error error at failed
      rcases storage.2.loads id with absent | ⟨bundle, _named, _recorded, loaded, _encoded⟩
      · rw [absent] at failed
        cases failed
      · rw [loaded] at failed
        cases failed
  | storeBundle bundle =>
      change (storage.1.storeBundle bundle).1 = .error error at failed
      cases encoded : Record.encode Record.bundle bundle with
      | error cause =>
          have same : (storage.1.storeBundle bundle).2 = storage.1 :=
            congrArg Prod.snd (storeBundle_exceeds encoded)
          rw [storeBundle_exceeds encoded] at failed
          obtain rfl := Except.error.inj failed
          exact ⟨congrArg contents (Subtype.ext same), encoded⟩
      | ok bytes =>
          rw [storeBundle_fits encoded] at failed
          cases failed
  | checkConsistency ids recursive repair =>
      obtain ⟨problems, ends⟩ := (check_answers storage ids recursive repair).1
      rw [ends] at failed
      cases failed
  | getBlob blob =>
      constructor
      · rfl
      · change storage.1.getBlob blob = .error error at failed
        change storage.1.blobs.find? blob = none ∧ error = .blobNotFound blob
        rw [getBlob] at failed
        cases found : storage.1.blobs.find? blob with
        | none =>
            rw [found] at failed
            exact ⟨rfl, (Except.error.inj failed).symm⟩
        | some bytes =>
            rw [found] at failed
            cases failed
  | _ => cases failed

def backend : Backend where
  State := Kept
  serve := serveKept
  contents := contents
  answered := answered
  failed := fun failed => Or.inl (refused failed).1

theorem backend_faults : backend.FailsOnly faults := fun failed => (refused failed).2

theorem backend_failsOnly : backend.FailsOnly Faults.none :=
  fun failed => faults_none (backend_faults failed)

end MemoryStorage

end BundleStore
