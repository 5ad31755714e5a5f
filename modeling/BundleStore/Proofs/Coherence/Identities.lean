import BundleStore.Proofs.Coherence.Courses
import BundleStore.Proofs.Coherence.Written
import BundleStore.Proofs.Store.Tables
import BundleStore.Proofs.Store.Views

set_option autoImplicit false

/-! Identity properties as they are read. What a bundle has computed is what its header gives, in the
hands of one who holds it and in the cache, at any moment; so what is read of an identity property
follows from the header that is stored, and who has read it before makes no difference. -/

namespace BundleStore

/-! ### Bundles -/

namespace Bundle

/-- A bundle as it comes about: for a new node, or from a record. -/
inductive Origin : Bundle → Prop where
  | fresh (node : Node) : Origin (ofNode node)
  | decoded {bytes : List UInt8} {what : String} {found : Bundle}
      (decoded : Record.decode Record.bundle bytes what = .ok found) : Origin found

/-- Each computed state is the one that would be computed from the header as it is. -/
def Current (bundle : Bundle) : Prop :=
  ∀ name state, bundle.computed.find? name = some state →
    (bundle.computeProperty name).map Prod.fst = some state

variable {bundle : Bundle}

theorem Origin.computed (origin : bundle.Origin) : bundle.Computed := by
  cases origin with
  | fresh node => exact ofNode_computed node
  | decoded decoded => exact (ready_of_record (Record.decode_recorded decoded)).computed

theorem Computed.current (computed : bundle.Computed) : bundle.Current := by
  intro name state found
  rw [computeProperty, Option.map_map, computed name state found]
  rfl

end Bundle

/-! ### What is stored -/

namespace Contents

/-- The identity property as the header of the node gives it. -/
def identity (contents : Contents) (property : PropertyId) : Except RepositoryError Property :=
  match (contents.bundles property.node).bind (·.identityState? property.name) with
  | some state => .ok state
  | none => .error (.notFound (.property property))

variable {left right : Contents} {id : NodeId}

theorem identity_absent (absent : left.bundles id = none) (name : Name) :
    left.identity ⟨id, name⟩ = .error (.notFound (.property ⟨id, name⟩)) := by
  rw [identity, absent]
  rfl

theorem identity_stored {bundle : Bundle} (stored : left.bundles id = some bundle) {name : Name}
    {state : Property} (given : bundle.identityState? name = some state) :
    left.identity ⟨id, name⟩ = .ok state := by
  rw [identity, stored, Option.bind_some, given]

/-- Where headers are the same, identity properties are. -/
theorem identity_congr (same : headerOf left.bundles id = headerOf right.bundles id)
    (name : Name) : left.identity ⟨id, name⟩ = right.identity ⟨id, name⟩ := by
  unfold headerOf at same
  cases stored : left.bundles id with
  | none =>
      rw [stored] at same
      rw [identity_absent stored, identity_absent (Option.map_eq_none_iff.mp same.symm)]
  | some bundle =>
      rw [stored] at same
      obtain ⟨other, there, header⟩ := Option.map_eq_some_iff.mp same.symm
      have named : bundle.id = other.id := (left.filed stored).trans (right.filed there).symm
      rw [identity, identity, stored, there, Option.bind_some, Option.bind_some,
        Bundle.identityState?_congr named header.symm]

end Contents

/-! ### At rest -/

/-- No identity property is stored. -/
def StoredProperty.Plainly (property : PropertyId) (_stored : StoredProperty) : Prop :=
  property.name.isIdentity = false

namespace Repository

variable {faults : Faults} {contents : Contents} {id : NodeId}

theorem loadProperty_absent (absent : contents.bundles id = none) (name : Name) :
    (loadProperty ⟨id, name⟩).Meets (writing faults) (fun _ _ => False)
      (fun error _ => error = .notFound (.property ⟨id, name⟩) ∨
        ∃ cause, faults (.loadBundle id) cause contents ∧ error = .storage cause)
      ⟨.free, contents⟩ := by
  rw [loadProperty_eq, Task.meets_bind]
  refine (fetch_writing id).mono writing_monotone ?_ ?_
  · intro found next met
    obtain ⟨rfl, record, _ready⟩ := met
    obtain rfl := Option.map_eq_none_iff.mp (record.trans absent)
    exact Or.inl rfl
  · intro error next failed
    obtain ⟨_same, cause, rfl, fault⟩ := failed
    exact Or.inr ⟨cause, fault, rfl⟩

end Repository

namespace System

variable {backend : Backend} {system : System backend} {faults : Faults}

theorem AtRest.property_absent (only : backend.FailsOnly faults) (rest : system.AtRest)
    {id : NodeId} (absent : system.contents.bundles id = none) (name : Name) :
    system.property ⟨id, name⟩ = .error (.notFound (.property ⟨id, name⟩)) ∨
      Unread faults system.contents id (system.property ⟨id, name⟩) := by
  obtain ⟨_next, _sound, outcome⟩ :=
    (Repository.loadProperty_absent absent name).run only rest trivial
  unfold System.property
  cases given : ((Repository.loadProperty ⟨id, name⟩).run serve system).1 with
  | ok state =>
      rw [given] at outcome
      exact outcome.elim
  | error error =>
      rw [given] at outcome
      rcases outcome with rfl | ⟨cause, fault, rfl⟩
      · exact Or.inl rfl
      · exact Or.inr ⟨cause, fault, rfl⟩

theorem Lived.plainly (lived : system.Lived) :
    system.AtRest ∧ Records.Each StoredProperty.Plainly system.contents.bundles :=
  lived.each (fun plain _keeps => plain)

/-- An identity property is read as the stored header gives it, unless the record cannot be
loaded. -/
theorem Lived.identity (only : backend.FailsOnly faults) (lived : system.Lived) (id : NodeId)
    {name : Name} (identity : name ∈ Bundle.identityNames) :
    system.property ⟨id, name⟩ = system.contents.identity ⟨id, name⟩ ∨
      Unread faults system.contents id (system.property ⟨id, name⟩) := by
  obtain ⟨rest, filed⟩ := lived.filed
  obtain ⟨_rest, plain⟩ := lived.plainly
  cases stored : system.contents.bundles id with
  | none =>
      rw [Contents.identity_absent stored]
      exact rest.property_absent only stored name
  | some bundle =>
      have unstored : bundle.properties.find? name = none := by
        cases found : bundle.properties.find? name with
        | none => rfl
        | some entry =>
            have there : system.contents.bundles (PropertyId.node ⟨id, name⟩) = some bundle := stored
            have never := plain ⟨id, name⟩ entry ((entryOf_of_some there).trans found)
            rw [StoredProperty.Plainly, Bundle.mem_identityNames.mp identity] at never
            cases never
      rcases rest.property_stored only stored filed name with
        ⟨state, loads, loaded⟩ | ⟨error, failed, missed⟩
      · cases loaded with
        | stored found own => cases unstored.symm.trans found
        | identity absent given =>
            exact Or.inl (loads.trans (Contents.identity_stored stored given).symm)
      · cases missed with
        | unknown unknown => exact absurd (Or.inr identity) unknown
        | unread fault => exact Or.inr ⟨_, fault, failed⟩
        | unfetched there =>
            rw [SortedMap.contains, show bundle.properties.find? _ = none from unstored] at there
            cases there

/-- Whatever is under way, what a cached bundle has computed is right. -/
theorem Lived.cached_current (lived : system.Lived) {threshold : Nat} {traffic : Traffic backend}
    (reaches : Traffic.Reaches threshold (Traffic.idle system) traffic) {id : NodeId}
    {bundle : Bundle} (cached : traffic.system.cache.held? id = some (.present bundle)) :
    bundle.Current := by
  obtain ⟨rest, plain⟩ := lived.plainly
  have writes (write : Write) : Writes Faults.any
      (fun contents => Records.Each StoredProperty.Plainly contents.bundles)
      (write.task threshold) :=
    writes_each (fun plain _keeps => plain) Faults.any threshold write
  obtain ⟨now, kept⟩ := Traffic.reaches_kept backend.failsOnly_any writes reaches
    (Traffic.idle_kept rest rfl plain)
  exact (kept.sound.filed cached).2.computed.current

end System

/-! ### One run of stores and another -/

namespace Traffic

variable {backend : Backend} {faults : Faults}

/-- After the same stores an identity property is read the same, whatever has been read meanwhile,
unless a record cannot be loaded. -/
theorem identity_of_courses (only : backend.FailsOnly faults) {start other : System backend}
    (lived : start.Lived) (livedToo : other.Lived)
    (same : headerOf start.contents.bundles = headerOf other.contents.bundles)
    {threshold : Nat} {logs : List ChangeLog} {left right : Traffic backend}
    (onLeft : Course threshold start logs none left)
    (onRight : Course threshold other logs none right) (id : NodeId) {name : Name}
    (identity : name ∈ Bundle.identityNames) :
    left.system.property ⟨id, name⟩ = right.system.property ⟨id, name⟩ ∨
      Unread faults left.system.contents id (left.system.property ⟨id, name⟩) ∨
      Unread faults right.system.contents id (right.system.property ⟨id, name⟩) := by
  have heads : headerOf left.system.contents.bundles = headerOf right.system.contents.bundles := by
    rw [onLeft.heads only lived.plainly.1,
      onRight.heads only livedToo.plainly.1, same]
  have given := Contents.identity_congr (congrFun heads id) name
  rcases (System.Lived.traffic lived onLeft.reaches onLeft.quiet).identity only id identity with
    leftGives | unread
  · rcases (System.Lived.traffic livedToo onRight.reaches onRight.quiet).identity only id identity
      with rightGives | unread
    · exact Or.inl (leftGives.trans (given.trans rightGives.symm))
    · exact Or.inr (Or.inr unread)
  · exact Or.inr (Or.inl unread)

end Traffic

/-! ### All of it -/

/-- Whatever is done with a new bundle or one that was read, what it has computed is what would be
computed from its header. In every repository the same is so of every cached bundle at any moment
of any traffic, and an identity property is read as the stored header gives it; after the same
stores it is read the same, whatever has been read before. In a session in memory that is so
whatever has failed or been evicted, checked and mended meanwhile. -/
theorem identities_are_current :
    (∀ start : Bundle, start.Origin → ∀ (σ : Type) (serve : Task.Serve σ) (state : σ)
      (uses : List Bundle.Use), ∃ last after,
        (Bundle.useAll uses start).run serve state = (.ok last, after) ∧ last.Current) ∧
    (∀ (backend : Backend) (faults : Faults), backend.FailsOnly faults →
      ∀ start : System backend, start.Lived →
        (∀ threshold traffic, Traffic.Reaches threshold (Traffic.idle start) traffic →
          ∀ id bundle, traffic.system.cache.held? id = some (.present bundle) → bundle.Current) ∧
        ∀ id, ∀ name ∈ Bundle.identityNames,
          (start.property ⟨id, name⟩ = start.contents.identity ⟨id, name⟩ ∨
            Unread faults start.contents id (start.property ⟨id, name⟩)) ∧
          ∀ other : System backend, other.Lived →
            headerOf start.contents.bundles = headerOf other.contents.bundles →
            ∀ threshold logs left right, Traffic.Course threshold start logs none left →
              Traffic.Course threshold other logs none right →
              left.system.property ⟨id, name⟩ = right.system.property ⟨id, name⟩ ∨
                Unread faults left.system.contents id (left.system.property ⟨id, name⟩) ∨
                Unread faults right.system.contents id (right.system.property ⟨id, name⟩)) ∧
    ∀ (settings others : Settings) (session other : Session),
      Session.start settings (.memory MemoryStorage.empty) = .ok session →
      Session.start others (.memory MemoryStorage.empty) = .ok other →
      settings.blobThreshold = others.blobThreshold → ∀ (spread spreadToo : NodeId → Nat)
        (events otherEvents : List Event), Event.writes events = Event.writes otherEvents →
          ∀ property, (((session.spreading spread).attend events).2.run
              (Repository.loadProperty property)).1 =
            (((other.spreading spreadToo).attend otherEvents).2.run
              (Repository.loadProperty property)).1 := by
  refine ⟨fun start origin σ serve state uses => ?_, fun backend faults only start lived => ?_,
    fun settings others session other started startedToo threshold spread spreadToo events
      otherEvents same property => ?_⟩
  · obtain ⟨last, after, ends, computed⟩ :=
      Bundle.computed_after origin.computed serve state uses
    exact ⟨last, after, ends, computed.current⟩
  · refine ⟨fun threshold traffic reaches id bundle cached => lived.cached_current reaches cached,
      fun id name identity => ⟨lived.identity only id identity, ?_⟩⟩
    intro other livedToo same threshold logs left right onLeft onRight
    exact Traffic.identity_of_courses only lived livedToo same onLeft onRight id identity
  · exact Session.property_of_writes started startedToo threshold spread spreadToo same property

namespace System

/-- The node of the letter, retyped. -/
def retyped : Node := { Node.fresh NodeId.zero ⟨"", "drawer"⟩ none with status := .existing }

def typeOfLetter : PropertyId := ⟨NodeId.zero, Name.primaryType⟩

/-- The type is computed, and the node is retyped; the bundle is copied, written and read. -/
def retypings : List Bundle.Use :=
  [.compute Name.primaryType, .update retyped, .copy, .compute Name.primaryType, .markOld,
    .reread "bundle", .compute Name.primaryType]

def retypedLog : ChangeLog := { ChangeLog.empty with modified := [.node retyped] }

/-- The type is read before the node is retyped. -/
def afterAsking : System MemoryStorage.backend :=
  ((Request.loadProperty typeOfLetter).task.run serve afterLetter).2

def retype (system : System MemoryStorage.backend) : System MemoryStorage.backend :=
  ((Repository.store 2 retypedLog).run serve system).2

def askingEvents : List Event :=
  [.ask (.store letterLog), .ask (.loadProperty typeOfLetter), .ask (.store retypedLog)]

def quietEvents : List Event :=
  [.ask (.store letterLog), .evict NodeId.zero, .ask (.store retypedLog)]

set_option maxRecDepth 2500 in
theorem retyped_well : ((Repository.store 2 retypedLog).run serve afterLetter).1 = .ok () ∧
    ((Repository.store 2 retypedLog).run serve afterAsking).1 = .ok () := by
  constructor <;> decide +kernel

set_option maxRecDepth 2500 in
/-- With the type read in between or not, the new type is read in the end. -/
theorem type_read_anew :
    (∃ last after, (Bundle.useAll retypings (Bundle.ofNode retyped)).run serve afterLetter =
      (.ok last, after) ∧ last.Current) ∧
    (retype afterAsking).property typeOfLetter = (retype afterLetter).property typeOfLetter ∧
    (retype afterAsking).property typeOfLetter =
      .ok (Property.single typeOfLetter (.name ⟨"", "drawer"⟩)) ∧
    (((visitSession.spreading (fun _ => 2)).attend askingEvents).2.run
        (Repository.loadProperty typeOfLetter)).1 =
      (((visitSession.spreading (fun _ => 0)).attend quietEvents).2.run
        (Repository.loadProperty typeOfLetter)).1 := by
  obtain ⟨bundles, repositories, sessions⟩ := identities_are_current
  obtain ⟨_cached, read⟩ := repositories MemoryStorage.backend Faults.none
    MemoryStorage.backend_failsOnly afterLetter afterLetter_reachable.lived
  have alike (left right : System MemoryStorage.backend) (readers : List (Task RepositoryError Unit))
      (onLeft : Traffic.Course 2 afterLetter [retypedLog] none ⟨left, readers, none⟩)
      (onRight : Traffic.Course 2 afterLetter [retypedLog] none ⟨right, [], none⟩) :
      left.property typeOfLetter = right.property typeOfLetter := by
    obtain ⟨_stored, same⟩ := read NodeId.zero Name.primaryType List.mem_cons_self
    rcases same afterLetter afterLetter_reachable.lived rfl 2 [retypedLog] _ _ onLeft onRight with
      given | ⟨_cause, fault, _failed⟩ | ⟨_cause, fault, _failed⟩
    · exact given
    · exact fault.elim
    · exact fault.elim
  obtain ⟨well, wellAsked⟩ := retyped_well
  have start : Traffic.Course 2 afterLetter [] none ⟨afterLetter, [], none⟩ := .idle
  obtain ⟨_ended, asked⟩ := start.ask (.loadProperty typeOfLetter)
  exact ⟨bundles _ (.fresh retyped) _ serve afterLetter retypings,
    alike _ _ _ (asked.store wellAsked) (start.store well), by decide +kernel,
    sessions visitSettings visitSettings visitSession visitSession rfl rfl rfl _ _ askingEvents
      quietEvents rfl typeOfLetter⟩

end System

end BundleStore
