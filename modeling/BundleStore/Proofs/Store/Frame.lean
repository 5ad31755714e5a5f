import BundleStore.Proofs.Coherence.Regularity
import BundleStore.Proofs.Storage.Files
import BundleStore.Proofs.Store.Aftermath
import BundleStore.Proofs.Store.Between

set_option autoImplicit false

/-! What a store leaves alone, however it ends. A blob lies in the folder of its node: whatever the
name of the property is, the identifier begins with the path of the folder, and no path begins with
another one. So the nodes that no item of the log belongs to keep their records and all blobs of
these, in memory and in files, and the targets that the log has no list for keep theirs. -/

namespace BundleStore

/-! ### Whose blobs they are -/

/-- The blob lies in the folder of the node. -/
def NodeId.Houses (id : NodeId) (blob : String) : Prop := id.folderChars <+: blob.toList

theorem NodeId.Houses.unique {left right : NodeId} {blob : String} (mine : left.Houses blob)
    (theirs : right.Houses blob) : left = right := by
  have lengths : left.folderChars.length = right.folderChars.length := by
    rw [NodeId.folderChars_length, NodeId.folderChars_length]
  have within := List.prefix_of_prefix_length_le mine theirs (Nat.le_of_eq lengths)
  exact NodeId.folderChars_inj (within.eq_of_length lengths)

/-- Blob identifiers have been given in the folders of their nodes. -/
def Contents.Housed (contents : Contents) : Prop :=
  ∀ {property place blob}, contents.slots property place = some blob → property.node.Houses blob

/-- A backend that never gives a blob identifier but in the folder of the node. -/
def Backend.Housed (backend : Backend) : Prop := ∀ state, (backend.contents state).Housed

theorem MemoryStorage.backend_housed : MemoryStorage.backend.Housed := by
  rintro storage property place blob given
  obtain rfl : MemoryStorage.blobId property place = blob := Option.some.inj given
  rw [NodeId.Houses, MemoryStorage.blobId, String.toList_ofList, MemoryStorage.blobIdChars,
    List.append_assoc]
  exact List.prefix_append ..

theorem FileStorage.backend_housed : FileStorage.backend.Housed := by
  rintro kept property place blob given
  obtain ⟨namespaceNumber, nameNumber, _space, _name, rfl⟩ := kept.sound.given property place blob given
  rw [NodeId.Houses, String.toList_ofList]
  exact List.prefix_append ..

theorem Backend.Housed.faltering {backend : Backend} (housed : backend.Housed) :
    backend.faltering.Housed := fun state => housed state.1

/-- Every blob that an entry refers to lies in the folder of the entry's node. -/
def EntriesHoused (records : Records) : Prop :=
  ∀ property stored, entryOf records property = some stored →
    ∀ blob ∈ stored.blobs, property.node.Houses blob

theorem EntriesHoused.record {records : Records} (housed : EntriesHoused records) {id : NodeId}
    {bundle : Bundle} (held : records id = some bundle) {blob : String}
    (member : blob ∈ bundle.blobs) : id.Houses blob := by
  obtain ⟨property, stored, rfl, found, own⟩ := Contents.mem_blobs_of_record held member
  exact housed property stored found blob own

theorem EntriesHoused.fewer {records later : Records} (housed : EntriesHoused records)
    (fewer : ∀ property stored, entryOf later property = some stored →
      entryOf records property = some stored) : EntriesHoused later :=
  fun property stored found => housed property stored (fewer property stored found)

theorem Contents.Empty.entriesHoused {contents : Contents} (empty : contents.Empty) :
    EntriesHoused contents.bundles :=
  fun property _stored found => absurd (empty.bundles property.node) (held_of_entry found)

namespace Contents

/-! ### What is left as it was -/

/-- Records are as they were, and so are the blobs in their folders, but for those of nodes that are
concerned; reference lists are but for those of targets that are listed. -/
structure Frame (concerned listed : NodeId → Prop) (before after : Contents) : Prop where
  records : ∀ {id}, ¬ concerned id → after.bundles id = before.bundles id
  blobs : ∀ {id blob}, ¬ concerned id → id.Houses blob → after.blobs blob = before.blobs blob
  references : ∀ {target}, ¬ listed target → after.references target = before.references target

variable {concerned listed : NodeId → Prop} {before after : Contents}

theorem Frame.refl (concerned listed : NodeId → Prop) (contents : Contents) :
    Frame concerned listed contents contents :=
  ⟨fun _aside => rfl, fun _aside _houses => rfl, fun _aside => rfl⟩

theorem Frame.trans {last : Contents} (early : Frame concerned listed before after)
    (late : Frame concerned listed after last) : Frame concerned listed before last :=
  ⟨fun aside => (late.records aside).trans (early.records aside),
    fun aside houses => (late.blobs aside houses).trans (early.blobs aside houses),
    fun aside => (late.references aside).trans (early.references aside)⟩

/-- Blobs that are touched in the folders of nodes that are concerned. -/
theorem Touched.frame {reach : String → Prop} (touched : Touched reach before after)
    (near : ∀ blob, reach blob → ∃ id, concerned id ∧ id.Houses blob) :
    Frame concerned listed before after := by
  refine ⟨fun _aside => congrFun touched.bundles _, fun {id blob} aside houses => ?_,
    fun _aside => congrFun touched.references _⟩
  apply touched.blobs
  intro reached
  obtain ⟨other, within, theirs⟩ := near blob reached
  exact aside (houses.unique theirs ▸ within)

theorem without_frame (contents : Contents) {id : NodeId} (within : concerned id) :
    Frame concerned listed contents (contents.without id) := by
  refine ⟨fun {other} aside => Function.update_of_ne ?_ .., fun _aside _houses => rfl,
    fun _aside => rfl⟩
  rintro rfl
  exact aside within

theorem withReferences_frame (contents : Contents) {target : NodeId}
    (references : Option References) (within : listed target) :
    Frame concerned listed contents (contents.withReferences target references) := by
  refine ⟨fun _aside => rfl, fun _aside _houses => rfl,
    fun {other} aside => Function.update_of_ne ?_ ..⟩
  rintro rfl
  exact aside within

/-- What held of the records before holds of them after, and the rest is left as it was. Blob
identifiers once given stay, so it is enough that those given in the end lie in the folders of
their nodes. -/
structure Keeps (concerned listed : NodeId → Prop) (early : Prop) (before : Contents) (late : Prop)
    (after : Contents) : Prop where
  slots : ∀ {property place blob}, before.slots property place = some blob →
    after.slots property place = some blob
  records : early → after.Housed → late
  frame : early → after.Housed → Frame concerned listed before after

variable {early middle late : Prop}

theorem Keeps.refl (concerned listed : NodeId → Prop) (contents : Contents) :
    Keeps concerned listed early contents early contents :=
  ⟨fun given => given, fun held _housed => held, fun _held _housed => Frame.refl ..⟩

theorem Keeps.trans {now : Contents} (first : Keeps concerned listed early before middle now)
    (last : Keeps concerned listed middle now late after) :
    Keeps concerned listed early before late after := by
  have midway (housed : after.Housed) : now.Housed := by
    intro property place blob given
    exact housed (last.slots given)
  refine ⟨fun given => last.slots (first.slots given), fun held housed => ?_,
    fun held housed => ?_⟩
  · exact last.records (first.records held (midway housed)) housed
  · exact (first.frame held (midway housed)).trans
      (last.frame (first.records held (midway housed)) housed)

/-! ### Deleting -/

section

variable {faults : Faults} {nodes : List Node}

theorem without_entries {now : Contents} {id : NodeId} (housed : EntriesHoused before.bundles)
    (bundles : now.bundles = (before.without id).bundles) : EntriesHoused now.bundles := by
  refine housed.fewer (fun property stored found => ?_)
  rw [bundles] at found
  exact (without_cleared before id).entry found

theorem Deletes.keeps {node : Node} (deletes : Deletes faults node before after)
    (within : concerned node.id) :
    Keeps concerned listed (EntriesHoused before.bundles) before (EntriesHoused after.bundles)
      after := by
  obtain ⟨bundle, held, released⟩ := deletes
  refine ⟨fun given => released.slots given, fun housed _given => ?_, fun housed _given => ?_⟩
  · exact without_entries housed released.bundles
  · refine (without_frame before within).trans (released.toTouched.frame (fun blob member => ?_))
    exact ⟨node.id, within, housed.record held member⟩

theorem DeletesHalf.keeps {node : Node} (half : DeletesHalf node before after)
    (within : concerned node.id) :
    Keeps concerned listed (EntriesHoused before.bundles) before (EntriesHoused after.bundles)
      after := by
  rcases half with rfl | rfl
  · exact Keeps.refl ..
  · exact ⟨fun given => given, fun housed _given => without_entries housed rfl,
      fun _housed _given => without_frame before within⟩

theorem keeps_of_deletes (chain : Chain (Deletes faults) nodes before after)
    (within : ∀ node ∈ nodes, concerned node.id) :
    Keeps concerned listed (EntriesHoused before.bundles) before (EntriesHoused after.bundles)
      after :=
  chain.preserves (fun now => Keeps concerned listed (EntriesHoused before.bundles) before
      (EntriesHoused now.bundles) now)
    (fun node member _now _next deletes keeps => keeps.trans (deletes.keeps (within node member)))
    (Keeps.refl ..)

theorem keeps_of_deletesHalf (breaks : Breaks (Deletes faults) DeletesHalf nodes before after)
    (within : ∀ node ∈ nodes, concerned node.id) :
    Keeps concerned listed (EntriesHoused before.bundles) before (EntriesHoused after.bundles)
      after := by
  obtain ⟨node, member, _now, keeps, half⟩ := breaks.broken_after
    (fun now => Keeps concerned listed (EntriesHoused before.bundles) before
      (EntriesHoused now.bundles) now)
    (fun node member _now _next deletes keeps => keeps.trans (deletes.keeps (within node member)))
    (Keeps.refl ..)
  exact keeps.trans (half.keeps (within node member))

end

end Contents

/-! ### Staging -/

/-- So it is of the records that are stored, and of those that are staged over them. -/
structure Draft.EntriesHoused (draft : Draft) : Prop where
  staged : BundleStore.EntriesHoused draft.bundle?
  stored : BundleStore.EntriesHoused draft.contents.bundles

section

variable {faults : Faults} {threshold : Nat} {gone concerned listed : NodeId → Prop}
  {change : Change} {list : List Change} {before after first last : Draft} {left : Contents}
  {property : PropertyId}

theorem Draft.start_keeps (nodes : List Node) (contents : Contents) :
    Contents.Keeps concerned listed (BundleStore.EntriesHoused contents.bundles) contents
      (Draft.start nodes contents).EntriesHoused contents :=
  ⟨fun given => given,
    fun housed _given =>
      ⟨housed.fewer (fun _property _stored found => Draft.start_entry nodes found), housed⟩,
    fun _housed _given => Contents.Frame.refl ..⟩

namespace Change

/-- The blobs of the old entry lie in the folder of the node. -/
theorem released_frame {bundle : Bundle} {released : Contents} (housed : before.EntriesHoused)
    (held : before.bundle? property.node = some bundle)
    (releases : Released faults (bundle.blobsOf property.name) before.contents released)
    (within : concerned property.node) :
    Contents.Frame concerned listed before.contents released := by
  refine releases.toTouched.frame (fun blob member => ⟨property.node, within, ?_⟩)
  obtain ⟨stored, found, own⟩ := Bundle.mem_blobsOf held member
  exact housed.staged property stored found blob own

theorem Makes.housed (makes : change.Makes faults threshold gone before after)
    (housed : before.EntriesHoused) (given : after.contents.Housed) : after.EntriesHoused := by
  refine ⟨fun _property _stored found => makes.entries housed.staged ?_ found, ?_⟩
  · intro state stored plain keeps blob member
    obtain ⟨_place, slot⟩ := (keeps.own plain).slotOf member
    exact given slot
  · rw [makes.aside.1]
    exact housed.stored

theorem Makes.keeps (makes : change.Makes faults threshold gone before after)
    (within : concerned change.node) :
    Contents.Keeps concerned listed before.EntriesHoused before.contents after.EntriesHoused
      after.contents := by
  have housed := makes.housed
  cases change with
  | update node =>
      obtain ⟨_bundle, _held, rfl⟩ := makes
      exact ⟨fun given => given, housed, fun _housed _given => Contents.Frame.refl ..⟩
  | put state =>
      rcases makes with ⟨_identity, rfl⟩ | ⟨plain, bundle, _released, stored, held, releases,
        stores, keeps, _staged⟩
      · exact Contents.Keeps.refl ..
      · refine ⟨fun given => stores.slots (releases.slots given), housed, fun old given => ?_⟩
        refine (released_frame old held releases within).trans
          (stores.frame (fun blob member => ⟨state.id.node, within, ?_⟩))
        obtain ⟨_place, slot⟩ := (keeps.own plain).slotOf member
        exact given slot
  | drop state =>
      rcases makes with ⟨_gone, rfl⟩ | ⟨_stays, _bundle, held, releases, _staged⟩
      · exact Contents.Keeps.refl ..
      · exact ⟨fun given => releases.slots given, housed,
          fun old _given => released_frame old held releases within⟩

theorem Spoils.keeps (spoils : change.Spoils faults before left) (within : concerned change.node) :
    Contents.Keeps concerned listed before.EntriesHoused before.contents
      (BundleStore.EntriesHoused left.bundles) left := by
  have same : before.EntriesHoused → left.Housed → BundleStore.EntriesHoused left.bundles := by
    intro housed _given
    rw [spoils.bundles]
    exact housed.stored
  cases change with
  | update node =>
      obtain rfl := spoils
      exact ⟨fun given => given, same, fun _housed _given => Contents.Frame.refl ..⟩
  | put state =>
      rcases spoils with rfl | ⟨_plain, _bundle, _released, held, releases, stores⟩
      · exact ⟨fun given => given, same, fun _housed _given => Contents.Frame.refl ..⟩
      · refine ⟨fun given => stores.slots (releases.slots given), same, fun old given => ?_⟩
        refine (released_frame old held releases within).trans
          (stores.frame (fun blob reached => ⟨state.id.node, within, ?_⟩))
        obtain ⟨_place, slot⟩ := reached
        exact given slot
  | drop state =>
      obtain rfl := spoils
      exact ⟨fun given => given, same, fun _housed _given => Contents.Frame.refl ..⟩

theorem keeps_of_chain (chain : Chain (Makes faults threshold gone) list first last)
    (within : ∀ change ∈ list, concerned change.node) :
    Contents.Keeps concerned listed first.EntriesHoused first.contents last.EntriesHoused
      last.contents :=
  chain.preserves (fun draft => Contents.Keeps concerned listed first.EntriesHoused first.contents
      draft.EntriesHoused draft.contents)
    (fun change member _before _after makes keeps =>
      keeps.trans (makes.keeps (within change member)))
    (Contents.Keeps.refl ..)

theorem keeps_of_breaks
    (breaks : Breaks (Makes faults threshold gone) (Spoils faults) list first left)
    (within : ∀ change ∈ list, concerned change.node) :
    Contents.Keeps concerned listed first.EntriesHoused first.contents
      (BundleStore.EntriesHoused left.bundles) left := by
  obtain ⟨change, member, _before, keeps, spoils⟩ := breaks.broken_after
    (fun draft => Contents.Keeps concerned listed first.EntriesHoused first.contents
      draft.EntriesHoused draft.contents)
    (fun change member _before _after makes keeps =>
      keeps.trans (makes.keeps (within change member)))
    (Contents.Keeps.refl ..)
  exact keeps.trans (spoils.keeps (within change member))

end Change

/-! ### Writing -/

/-- Writing leaves a record as it was that is staged as it was, or not at all. -/
theorem Draft.Written.keeps {draft : Draft} {after : Contents} (written : draft.Written after)
    (aside : ∀ {id}, ¬ concerned id → draft.bundle? id = draft.contents.bundles id) :
    Contents.Keeps concerned listed draft.EntriesHoused draft.contents
      (BundleStore.EntriesHoused after.bundles) after := by
  refine ⟨fun given => ?_, fun housed _given property stored found => ?_,
    fun _housed _given => ⟨fun {id} out => ?_, fun _out _houses => congrFun written.blobs _,
      fun _out => congrFun written.references _⟩⟩
  · rw [written.slots]
    exact given
  · rcases written.records property.node with same | staged
    · exact housed.stored property stored ((entryOf_congr same).symm.trans found)
    · exact housed.staged property stored ((entryOf_congr staged).symm.trans found)
  · rcases written.records id with same | staged
    · exact same
    · exact staged.trans (aside out)

namespace Contents

variable {lists : List References} {before after : Contents}

theorem Lists.keeps {references : References} (listing : Lists references before after)
    (within : listed references.target) :
    Keeps concerned listed (EntriesHoused before.bundles) before (EntriesHoused after.bundles)
      after := by
  obtain rfl := listing
  exact ⟨fun given => given, fun housed _given => housed,
    fun _housed _given => withReferences_frame before _ within⟩

theorem keeps_of_lists (chain : Chain Lists lists before after)
    (within : ∀ references ∈ lists, listed references.target) :
    Keeps concerned listed (EntriesHoused before.bundles) before (EntriesHoused after.bundles)
      after :=
  chain.preserves (fun now => Keeps concerned listed (EntriesHoused before.bundles) before
      (EntriesHoused now.bundles) now)
    (fun references member _now _next listing keeps =>
      keeps.trans (listing.keeps (within references member)))
    (Keeps.refl ..)

theorem keeps_of_listsHalf (breaks : Breaks Lists ListsHalf lists before after)
    (within : ∀ references ∈ lists, listed references.target) :
    Keeps concerned listed (EntriesHoused before.bundles) before (EntriesHoused after.bundles)
      after := by
  obtain ⟨references, member, _now, keeps, half⟩ := breaks.broken_after
    (fun now => Keeps concerned listed (EntriesHoused before.bundles) before
      (EntriesHoused now.bundles) now)
    (fun references member _now _next listing keeps =>
      keeps.trans (listing.keeps (within references member)))
    (Keeps.refl ..)
  rcases half with rfl | listing
  · exact keeps
  · exact keeps.trans (listing.keeps (within references member))

end Contents

end

/-! ### The whole store -/

namespace ChangeLog

variable {log : ChangeLog}

/-- Some item of the log belongs to the bundle of the node. -/
def Concerns (log : ChangeLog) (id : NodeId) : Prop := ∃ item ∈ log.items, item.bundleId = id

instance (log : ChangeLog) (id : NodeId) : Decidable (log.Concerns id) :=
  inferInstanceAs (Decidable (∃ item ∈ log.items, item.bundleId = id))

/-- The log has a list of references to the node. -/
def Lists (log : ChangeLog) (target : NodeId) : Prop :=
  ∃ references ∈ log.references, references.target = target

theorem concerns_of_added {node : Node} (added : node ∈ log.addedNodes) : log.Concerns node.id :=
  ⟨.node node, mem_items.mpr (Or.inl (mem_nodes.mp added)), rfl⟩

theorem concerns_of_deleted {node : Node} (deleted : node ∈ log.deletedNodes) :
    log.Concerns node.id :=
  ⟨.node node, mem_items.mpr (Or.inr (Or.inr (mem_nodes.mp deleted))), rfl⟩

/-- What a store of the log keeps, and what it leaves as it was. -/
abbrev Keeps (log : ChangeLog) (before after : Contents) : Prop :=
  Contents.Keeps log.Concerns log.Lists (EntriesHoused before.bundles) before
    (EntriesHoused after.bundles) after

end ChangeLog

variable {faults : Faults} {threshold : Nat} {log : ChangeLog} {before cleared after : Contents}
  {draft : Draft}

theorem Draft.Written.keeps_log (written : draft.Written after)
    (deleted : Chain (Contents.Deletes faults) log.deletedNodes before cleared)
    (made : Chain (Change.Makes faults threshold log.Deletes) log.changes
      (Draft.start log.addedNodes cleared) draft) : log.Keeps before after := by
  have bundles : draft.contents.bundles = cleared.bundles := (Change.aside_of_chain made).1
  have aside {id : NodeId} (out : ¬ log.Concerns id) :
      draft.bundle? id = draft.contents.bundles id := by
    rw [Change.bundle_of_chain made, Draft.start_of_not_added, bundles]
    · rintro node member rfl
      exact out (ChangeLog.concerns_of_added member)
    · rintro change member rfl
      exact out (ChangeLog.node_of_changes member)
  exact ((Contents.keeps_of_deletes deleted
    (fun _node member => ChangeLog.concerns_of_deleted member)).trans
      (Draft.start_keeps log.addedNodes cleared)).trans
        ((Change.keeps_of_chain made (fun _change member => ChangeLog.node_of_changes member)).trans
          (written.keeps aside))

theorem Applied.keeps (applied : Applied faults threshold log before after) :
    log.Keeps before after := by
  obtain ⟨cleared, draft, bundles, written, deleted, made, gives, wrote, listed⟩ := applied
  exact ((Draft.written_of_chain gives wrote).keeps_log deleted made).trans
    (Contents.keeps_of_lists listed (fun references member => ⟨references, member, rfl⟩))

theorem Abandoned.keeps (abandoned : Abandoned faults threshold log before after) :
    log.Keeps before after := by
  have deletes (node : Node) (member : node ∈ log.deletedNodes) : log.Concerns node.id :=
    ChangeLog.concerns_of_deleted member
  cases abandoned with
  | deleting cut => exact Contents.keeps_of_deletesHalf cut deletes
  | staging cleared deleted cut =>
      exact ((Contents.keeps_of_deletes deleted deletes).trans
        (Draft.start_keeps log.addedNodes cleared)).trans
          (Change.keeps_of_breaks cut (fun _change member => ChangeLog.node_of_changes member))
  | writing cleared draft bundles deleted made gives cut =>
      exact (Draft.written_of_breaks gives cut).keeps_log deleted made
  | listing cleared draft bundles written deleted made gives wrote cut =>
      exact ((Draft.written_of_chain gives wrote).keeps_log deleted made).trans
        (Contents.keeps_of_listsHalf cut (fun references member => ⟨references, member, rfl⟩))

/-! ### From session to session -/

namespace System

variable {backend : Backend} {system : System backend}

/-- What comes about from an empty storage by traffic, in one session after another. A session may
begin with less than the one before has left, and need not know which blob identifiers were given
in it. -/
inductive Lived : System backend → Prop where
  | empty {storage : backend.State} (empty : (backend.contents storage).Empty) (budget : UInt64)
      (shards : Nat) (spread : NodeId → Nat) : Lived (fresh storage budget shards spread)
  | traffic {start : System backend} (lived : Lived start) {threshold : Nat}
      {traffic : Traffic backend}
      (reaches : Traffic.Reaches threshold (Traffic.idle start) traffic)
      (quiet : traffic.writer = none) : Lived traffic.system
  | opened {system : System backend} (lived : Lived system) {storage : backend.State}
      (fewer : ∀ property stored,
        entryOf (backend.contents storage).bundles property = some stored →
        entryOf system.contents.bundles property = some stored) (budget : UInt64) (shards : Nat)
      (spread : NodeId → Nat) : Lived (fresh storage budget shards spread)

theorem Reachable.lived (reachable : system.Reachable) : system.Lived := by
  induction reachable with
  | empty empty budget shards spread => exact .empty empty budget shards spread
  | traffic _reachable reaches quiet ih => exact .traffic ih reaches quiet
  | opened _reachable budget shards spread ih =>
      exact .opened ih (fun _property _stored found => found) budget shards spread

theorem writes_housed (faults : Faults) (threshold : Nat) (write : Write) :
    Writes faults (fun contents => contents.Housed → EntriesHoused contents.bundles)
      (write.task threshold) := by
  have kept {log : ChangeLog} {before after : Contents} (keeps : log.Keeps before after)
      (held : before.Housed → EntriesHoused before.bundles) (housed : after.Housed) :
      EntriesHoused after.bundles := by
    refine keeps.records (held ?_) housed
    intro property place blob given
    exact housed (keeps.slots given)
  cases write with
  | store log =>
      exact Writes.store threshold log (fun _before _after held applied => kept applied.keeps held)
        (fun _before _after held abandoned => kept abandoned.keeps held)
  | externalUpdate log => exact Writes.externalUpdate log
  | check ids recursive repair =>
      refine Writes.check ids recursive repair (fun before after held mended housed => ?_)
      have earlier : before.Housed := by
        intro property place blob given
        apply housed
        rw [mended.slots]
        exact given
      exact (held earlier).fewer (fun _property _stored found => mended.entry found)

theorem Lived.atRest (lived : system.Lived) (housed : backend.Housed) :
    system.AtRest ∧ EntriesHoused system.contents.bundles := by
  induction lived with
  | empty empty budget shards spread =>
      exact ⟨fresh_atRest _ budget shards spread, empty.entriesHoused⟩
  | opened _lived fewer budget shards spread ih =>
      exact ⟨fresh_atRest _ budget shards spread, ih.2.fewer fewer⟩
  | @traffic start _lived threshold traffic reaches quiet ih =>
      obtain ⟨now, sound, _valid, writing, _reading⟩ := Traffic.reaches_kept backend.failsOnly_any
        (writes_housed Faults.any threshold) reaches
        (Traffic.idle_kept ih.1 rfl (fun _housed => ih.2))
      rw [quiet] at writing
      constructor
      · exact sound.atRest writing.1
      · rw [sound.contents]
        apply writing.2
        rw [← sound.contents]
        exact housed _

/-- What can be read of a node is as it was if its record is, with the blobs of the record. -/
theorem AtRest.reads_same {mended : Backend} (reliable : mended.FailsOnly Faults.none)
    {first last : System mended} (early : first.AtRest) (late : last.AtRest) {id : NodeId}
    (record : last.contents.bundles id = first.contents.bundles id)
    (blobs : ∀ bundle, first.contents.bundles id = some bundle → ∀ blob ∈ bundle.blobs,
      last.contents.blobs blob = first.contents.blobs blob) :
    last.node id = first.node id ∧ ∀ name, last.property ⟨id, name⟩ = first.property ⟨id, name⟩ := by
  constructor
  · rw [late.node reliable, early.node reliable, Contents.node, Contents.node, record]
  · intro name
    rw [late.property reliable, early.property reliable]
    refine Contents.property_congr record (fun stored found blob own => ?_)
    cases held : first.contents.bundles id with
    | none => exact absurd held (held_of_entry found)
    | some bundle =>
        rw [entryOf_of_some held] at found
        exact blobs bundle held blob
          (List.mem_flatMap.mpr ⟨stored, SortedMap.mem_values.mpr ⟨name, found⟩, own⟩)

/-- However a store ends, the nodes that no item of the log belongs to have the record they had, and
every blob of the record has the bytes it had, so that through the cache they are read as before by
a storage that answers; and the targets without a list in the log have the references they had. In
memory and in files, blob identifiers begin with the path of the folder of their node. -/
theorem frame_of_store (backend : Backend) (housed : backend.Housed) (system : System backend)
    (lived : system.Lived) (threshold : Nat) (log : ChangeLog)
    (result : Except RepositoryError Unit) (after : System backend)
    (stored : (Repository.store threshold log).run serve system = (result, after)) :
    (∀ id, ¬ log.Concerns id →
      after.contents.bundles id = system.contents.bundles id ∧
      (∀ bundle, system.contents.bundles id = some bundle → ∀ blob ∈ bundle.blobs,
        after.contents.blobs blob = system.contents.blobs blob) ∧
      ∀ (mended : Backend), mended.FailsOnly Faults.none → ∀ first last : mended.State,
        mended.contents first = system.contents → mended.contents last = after.contents →
        (⟨last, after.cache⟩ : System mended).node id =
            (⟨first, system.cache⟩ : System mended).node id ∧
          ∀ name, (⟨last, after.cache⟩ : System mended).property ⟨id, name⟩ =
            (⟨first, system.cache⟩ : System mended).property ⟨id, name⟩) ∧
    (∀ target, ¬ log.Lists target →
      after.contents.references target = system.contents.references target) ∧
    MemoryStorage.backend.Housed ∧ FileStorage.backend.Housed := by
  obtain ⟨rest, entries⟩ := lived.atRest housed
  obtain ⟨restAfter, outcome⟩ := rest.store backend.failsOnly_any threshold log stored
  have keeps : log.Keeps system.contents after.contents := by
    cases result with
    | ok _unit => exact Applied.keeps outcome
    | error error => exact Abandoned.keeps outcome
  have frame := keeps.frame entries (housed after.storage)
  refine ⟨fun id aside => ?_, fun target unlisted => frame.references unlisted,
    MemoryStorage.backend_housed, FileStorage.backend_housed⟩
  have blobs (bundle : Bundle) (held : system.contents.bundles id = some bundle) (blob : String)
      (member : blob ∈ bundle.blobs) :
      after.contents.blobs blob = system.contents.blobs blob :=
    frame.blobs aside (entries.record held member)
  refine ⟨frame.records aside, blobs, fun mended reliable first last before now => ?_⟩
  have early : (⟨first, system.cache⟩ : System mended).contents = system.contents := before
  have late : (⟨last, after.cache⟩ : System mended).contents = after.contents := now
  refine AtRest.reads_same reliable (rest.moved before) (restAfter.moved now) ?_ ?_
  · rw [early, late]
    exact frame.records aside
  · rw [early, late]
    exact blobs

set_option maxRecDepth 2500 in
/-- A store that fails for another node leaves the letter where it was. -/
theorem letter_framed : ¬ strayLog.Concerns NodeId.zero ∧
    afterStray.contents.bundles NodeId.zero = afterLetter.contents.bundles NodeId.zero ∧
    afterStray.property letter = afterLetter.property letter ∧
    afterLetter.contents.property letter =
      .ok { Property.single letter (.binary [1, 2, 3]) with status := .existing } := by
  have aside : ¬ strayLog.Concerns NodeId.zero := by decide +kernel
  obtain ⟨record, _blobs, reads⟩ := (frame_of_store MemoryStorage.backend
    MemoryStorage.backend_housed afterLetter afterLetter_reachable.lived 2 strayLog _ afterStray
    stray_fails).1 NodeId.zero aside
  obtain ⟨_node, properties⟩ := reads MemoryStorage.backend MemoryStorage.backend_failsOnly
    afterLetter.storage afterStray.storage rfl rfl
  exact ⟨aside, record, properties letter.name, by decide +kernel⟩

end System

end BundleStore
