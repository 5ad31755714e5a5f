import BundleStore.Proofs.SortedMap
import BundleStore.Proofs.Store.Effects
import BundleStore.Proofs.Store.Handling

set_option autoImplicit false

/-! A property that is put into a bundle is what is read of it again, whatever the threshold: each
value is kept in the bundle or as a blob, place by place, and the blobs of the property that it
replaces are released before under identifiers that the new ones may have. -/

namespace BundleStore

variable {ε : Type} {faulty : StorageCall → Prop}

/-! ### Storing -/

namespace StoredValue

/-- The stored value stands for the value at this place of the property: it is kept in the entry, or
its bytes are too many and lie in a blob of that place. -/
inductive StandsFor (view : BlobView) (threshold : Nat) (property : PropertyId) (place : Nat) :
    Value → StoredValue → Prop where
  | inline {value : Value} (small : ∀ bytes, value = .binary bytes → bytes.length ≤ threshold) :
      StandsFor view threshold property place value (.inline value)
  | blob {bytes : List UInt8} {blob : String} (large : threshold < bytes.length)
      (named : view.names property place blob) (held : view.bytes? blob = some bytes) :
      StandsFor view threshold property place (.binary bytes)
        (.blob blob (UInt64.ofNat bytes.length))

/-- The same of values and stored values one by one, the first ones at the given place. -/
inductive StandForAll (view : BlobView) (threshold : Nat) (property : PropertyId) :
    Nat → List Value → List StoredValue → Prop where
  | nil {place : Nat} : StandForAll view threshold property place [] []
  | cons {place : Nat} {value : Value} {values : List Value} {stored : StoredValue}
      {rest : List StoredValue} (head : StandsFor view threshold property place value stored)
      (tail : StandForAll view threshold property (place + 1) values rest) :
      StandForAll view threshold property place (value :: values) (stored :: rest)

variable {view after : BlobView} {threshold place : Nat} {property : PropertyId} {value : Value}
  {stored : StoredValue} {values : List Value} {rest : List StoredValue}

theorem StandForAll.named (all : StandForAll view threshold property place values rest)
    {blob : String} (member : blob ∈ rest.filterMap StoredValue.blob?) :
    ∃ later, place ≤ later ∧ view.names property later blob := by
  induction all with
  | nil => cases member
  | @cons place value values stored rest head tail ih =>
      rw [List.filterMap_cons] at member
      cases head with
      | inline small =>
          obtain ⟨later, after, named⟩ := ih member
          exact ⟨later, Nat.le_of_succ_le after, named⟩
      | blob large named held =>
          rcases List.mem_cons.mp member with rfl | further
          · exact ⟨place, Nat.le_refl place, named⟩
          · obtain ⟨later, after, named⟩ := ih further
            exact ⟨later, Nat.le_of_succ_le after, named⟩

/-- Blobs of later places leave it as it is, for none of them is the same blob. -/
theorem StandsFor.later (stands : StandsFor view threshold property place value stored)
    (spares : view.Spares (fun blob => blob ∈ rest.filterMap StoredValue.blob?) after)
    (all : StandForAll after threshold property (place + 1) values rest) :
    StandsFor after threshold property place value stored := by
  cases stands with
  | inline small => exact .inline small
  | @blob bytes held large named there =>
      refine .blob large (spares.names named) ?_
      rw [spares.bytes]
      · exact there
      · intro near member meet
        obtain ⟨later, further, taken⟩ := all.named member
        rw [← spares.meet] at meet
        have same := after.onePlace taken (spares.names named) meet
        omega

theorem StandsFor.reads (stands : StandsFor view threshold property place value stored) :
    view.value stored = some value := by
  cases stands with
  | inline small => rfl
  | blob large named held =>
      rw [BlobView.value, held]
      rfl

theorem StandForAll.read (all : StandForAll view threshold property place values rest) :
    rest.mapM view.value = some values := by
  induction all with
  | nil => rfl
  | cons head tail ih =>
      rw [List.mapM_cons, head.reads, ih]
      rfl

end StoredValue

/-- The entry stands for the property. -/
structure StoredProperty.StandsFor (view : BlobView) (threshold : Nat) (state : Property)
    (stored : StoredProperty) : Prop where
  id : stored.id = state.id
  type : stored.type = state.type
  multiple : stored.multiple = state.multiple
  modCount : stored.modCount = state.modCount
  values : StoredValue.StandForAll view threshold state.id 0 state.values stored.values

/-- The call is one that storing makes. -/
def StorageCall.Stores : StorageCall → Prop
  | .createBlobId _ _ => True
  | .putBlob _ _ => True
  | _ => False

namespace StoredProperty

theorem StandsFor.state {view : BlobView} {threshold : Nat} {state : Property}
    {stored : StoredProperty} (stands : stored.StandsFor view threshold state) :
    view.state stored = some { state with status := .existing } := by
  rw [BlobView.state, stands.values.read, stands.id, stands.type, stands.multiple, stands.modCount]
  rfl

theorem storeValue_handling (property : PropertyId) (threshold : Nat) (value : Value) (place : Nat)
    (now : BlobView) :
    (storeValue property threshold value place).Meets (handling faulty)
      (fun stored next => now.Spares (fun blob => stored.blob? = some blob) next ∧
        stored.StandsFor next threshold property place value)
      (fun _ _ => ∃ call : StorageCall, call.Stores ∧ faulty call) now := by
  cases value with
  | binary bytes =>
      rw [storeValue]
      split
      · rename_i large
        rw [Task.meets_bind]
        refine handling_call trivial (fun blob next spares named => ?_)
          (fun error next excused _spares _lacks =>
            ⟨.createBlobId property place, trivial, excused⟩)
        rw [Task.meets_bind]
        refine handling_call ⟨property, place, named⟩ (fun _unit last further held => ?_)
          (fun error last excused _spares _lacks => ⟨.putBlob blob bytes, trivial, excused⟩)
        refine ⟨(spares.wider (fun _blob none => none.elim)).trans
          (further.wider (fun _blob same => congrArg some same.symm)), ?_⟩
        exact .blob large (further.names named) held
      · rename_i small
        refine ⟨BlobView.Spares.refl .., .inline (fun held same => ?_)⟩
        cases same
        exact Nat.le_of_not_lt small
  | _ => exact ⟨BlobView.Spares.refl .., .inline (fun held same => by cases same)⟩

theorem storeValues_handling (property : PropertyId) (threshold : Nat) (values : List Value)
    (place : Nat) (now : BlobView) :
    (storeValues property threshold values place).Meets (handling faulty)
      (fun stored next =>
        now.Spares (fun blob => blob ∈ stored.filterMap StoredValue.blob?) next ∧
        StoredValue.StandForAll next threshold property place values stored)
      (fun _ _ => ∃ call : StorageCall, call.Stores ∧ faulty call) now := by
  induction values generalizing place now with
  | nil => exact ⟨BlobView.Spares.refl .., .nil⟩
  | cons value rest ih =>
      rw [storeValues, Task.meets_bind]
      refine (storeValue_handling property threshold value place now).mono handling_monotone ?_
        (fun _error _next failed => failed)
      intro stored next met
      obtain ⟨spares, stands⟩ := met
      rw [Task.meets_bind]
      refine (ih (place + 1) next).mono handling_monotone ?_ (fun _error _next failed => failed)
      intro others last met
      obtain ⟨further, all⟩ := met
      refine ⟨(spares.wider (fun blob own => ?_)).trans (further.wider (fun blob own => ?_)),
        .cons (stands.later further all) all⟩
      · exact List.mem_filterMap.mpr ⟨stored, List.mem_cons_self, own⟩
      · obtain ⟨other, member, held⟩ := List.mem_filterMap.mp own
        exact List.mem_filterMap.mpr ⟨other, List.mem_cons_of_mem _ member, held⟩

theorem ofProperty_handling (state : Property) (threshold : Nat) (now : BlobView) :
    (ofProperty state threshold).Meets (handling faulty)
      (fun stored next => now.Spares (fun blob => blob ∈ stored.blobs) next ∧
        stored.StandsFor next threshold state)
      (fun _ _ => ∃ call : StorageCall, call.Stores ∧ faulty call) now := by
  rw [ofProperty, Task.meets_bind]
  refine (storeValues_handling state.id threshold state.values 0 now).mono handling_monotone ?_
    (fun _error _next failed => failed)
  intro values next met
  exact ⟨met.1, rfl, rfl, rfl, rfl, met.2⟩

theorem release_handling (property : StoredProperty) (now : BlobView) :
    (property.release : Task ε Unit).Meets (handling faulty)
      (fun _ next => now.Spares (fun blob => blob ∈ property.blobs) next) (fun _ _ => False) now := by
  have each (blob : String) (now : BlobView) :
      (releaseBlob property.id blob : Task ε Unit).Meets (handling faulty)
        (fun _ next => now.Spares (fun other => other = blob) next) (fun _ _ => False) now := by
    refine ⟨trivial, fun answer after _excused handles => ?_⟩
    cases answer with
    | ok there => exact handles.spares
    | error error => exact handles.spares
  rw [release]
  refine Task.keeps_forM handling_monotone (fun blob member next spares => ?_)
    (BlobView.Spares.refl ..)
  refine (each blob next).mono handling_monotone ?_ (fun _error _last never => never)
  intro _unit last further
  exact spares.trans (further.wider (fun _other same => same ▸ member))

end StoredProperty

namespace Bundle

theorem removeProperty_handling (bundle : Bundle) (name : Name) (now : BlobView) :
    (bundle.removeProperty name : Task ε _).Meets (handling faulty)
      (fun result next => result.2 = bundle.withoutProperty name ∧
        now.Spares (fun blob => blob ∈ bundle.blobsOf name) next)
      (fun _ _ => False) now := by
  rw [removeProperty, withoutProperty, blobsOf]
  cases found : bundle.properties.find? name with
  | none =>
      rw [SortedMap.erase_of_absent found]
      exact ⟨rfl, BlobView.Spares.refl ..⟩
  | some stored =>
      rw [Task.meets_bind]
      refine (stored.release_handling now).mono handling_monotone ?_ (fun _error _next never => never)
      intro _unit next spares
      exact ⟨rfl, spares⟩

/-- The entry that a property gets, and what became of the blobs on the way to it. -/
structure Puts (bundle : Bundle) (state : Property) (threshold : Nat) (before : BlobView)
    (changed : Bundle) (after : BlobView) (stored : StoredProperty) : Prop where
  changed : changed = bundle.withProperty state.id.name stored
  stands : stored.StandsFor after threshold state
  spares : before.Spares (fun blob => blob ∈ bundle.blobsOf state.id.name ∨ blob ∈ stored.blobs) after

theorem addProperty_handling (bundle : Bundle) {state : Property} (threshold : Nat)
    (plain : state.id.name.isIdentity = false) (now : BlobView) :
    (bundle.addProperty state threshold : Task ε _).Meets (handling faulty)
      (fun result next =>
        match result.1 with
        | .ok () => ∃ stored, bundle.Puts state threshold now result.2 next stored
        | .error _ => ∃ call : StorageCall, call.Stores ∧ faulty call)
      (fun _ _ => False) now := by
  rw [addProperty, plain]
  simp only [Bool.false_eq_true, if_false]
  rw [Task.meets_bind]
  refine (bundle.removeProperty_handling state.id.name now).mono handling_monotone ?_
    (fun _error _next never => never)
  intro met released other
  obtain ⟨_old, cleared⟩ := met
  obtain ⟨rfl, spares⟩ := other
  rw [Task.meets_orElse]
  change Task.Meets _ _ _ (StoredProperty.ofProperty state threshold >>= _) _
  rw [Task.meets_bind]
  refine (StoredProperty.ofProperty_handling state threshold released).mono handling_monotone ?_
    (fun _error _next failed => failed)
  intro stored next met
  obtain ⟨further, stands⟩ := met
  exact ⟨stored, rfl, stands, (spares.wider (fun _blob => Or.inl)).trans
    (further.wider (fun _blob => Or.inr))⟩

namespace Puts

variable {bundle changed : Bundle} {state : Property} {threshold : Nat} {before after : BlobView}
  {stored : StoredProperty}

theorem found (puts : bundle.Puts state threshold before changed after stored) :
    changed.properties.find? state.id.name = some stored := by
  rw [puts.changed]
  exact SortedMap.find?_insert_self ..

theorem read (puts : bundle.Puts state threshold before changed after stored) :
    changed.read after state.id.name = some (some { state with status := .existing }) := by
  rw [Bundle.read, puts.found]
  change (after.state stored).map some = _
  rw [puts.stands.state]
  rfl

/-- Another property is read as before, if none of its blobs is one that is released or put. -/
theorem others (puts : bundle.Puts state threshold before changed after stored) {name : Name}
    (differs : name ≠ state.id.name)
    (apart : ∀ entry, bundle.properties.find? name = some entry → ∀ blob ∈ entry.blobs,
      ∀ near, near ∈ bundle.blobsOf state.id.name ∨ near ∈ stored.blobs → ¬ before.meet near blob) :
    changed.read after name = bundle.read before name := by
  have same : changed.properties.find? name = bundle.properties.find? name := by
    rw [puts.changed, withProperty, SortedMap.find?_insert_of_ne _ differs,
      SortedMap.find?_erase_of_ne _ differs]
  have computed : changed.computed = bundle.computed := by
    rw [puts.changed]
    rfl
  rw [Bundle.read, Bundle.read, same, computed]
  cases found : bundle.properties.find? name with
  | none => rfl
  | some entry =>
      exact congrArg (Option.map some) (BlobView.state_congr (fun blob own =>
        puts.spares.bytes (apart entry found blob own)))

end Puts

end Bundle

/-! ### Whatever the threshold -/

namespace Session

variable {session : Session} {bundle : Bundle} {state : Property}

/-- Putting a property into a bundle ends, and if it ends well there is an entry for it. -/
theorem KeepsBlobs.addProperty (keeps : session.KeepsBlobs)
    (plain : state.id.name.isIdentity = false) (threshold : Nat)
    (only : session.FailsOnly faulty (bundle.addProperty state threshold : Task StorageError _)) :
    ∃ result changed after,
      session.run (bundle.addProperty state threshold : Task StorageError _) =
        (.ok (result, changed), after) ∧ after.KeepsBlobs ∧
      match result with
      | .ok () => ∃ stored, bundle.Puts state threshold session.storage.blobView changed
          after.storage.blobView stored
      | .error _ => ∃ call : StorageCall, call.Stores ∧ faulty call := by
  obtain ⟨still, outcome⟩ := run_handling keeps
    (bundle.addProperty_handling threshold plain session.storage.blobView) only
  cases ran : session.run (bundle.addProperty state threshold : Task StorageError _) with
  | mk result after =>
      rw [ran] at still outcome
      cases result with
      | error error => exact outcome.elim
      | ok found => exact ⟨found.1, found.2, after, rfl, still, outcome⟩

theorem KeepsBlobs.addProperty_ok (keeps : session.KeepsBlobs)
    (plain : state.id.name.isIdentity = false) (threshold : Nat)
    (only : session.FailsOnly faulty (bundle.addProperty state threshold : Task StorageError _))
    (stores : ∀ call : StorageCall, call.Stores → ¬ faulty call) :
    ∃ found, (session.run (bundle.addProperty state threshold : Task StorageError _)).1 =
      .ok (.ok (), found) := by
  obtain ⟨result, changed, after, ran, _still, outcome⟩ := keeps.addProperty plain threshold only
  rw [ran]
  cases result with
  | ok _unit => exact ⟨changed, rfl⟩
  | error error =>
      obtain ⟨call, asked, failed⟩ := outcome
      exact absurd failed (stores call asked)

/-- What has been put into a bundle is read as it was given. -/
theorem KeepsBlobs.read_put (keeps : session.KeepsBlobs) {before : BlobView} {changed : Bundle}
    {threshold : Nat} {stored : StoredProperty}
    (puts : bundle.Puts state threshold before changed session.storage.blobView stored) :
    (session.run (changed.property? state.id.name)).1 =
      .ok (some { state with status := .existing }) := by
  have read := (keeps.read changed state.id.name).trans puts.read
  cases found : (session.run (changed.property? state.id.name)).1 with
  | ok value =>
      rw [found] at read
      exact congrArg Except.ok (Option.some.inj read)
  | error error =>
      rw [found] at read
      cases read

/-- A property is put into a bundle, with any threshold, in memory or in files. This ends well if no
call fails, so always in memory. Then the property is read as it was given, and would be with any
other threshold; its entry refers to blobs for the longer binary values only; and each other property
is read as before, or still cannot be read, if none of its blobs is one that has been released or
put. -/
theorem threshold_is_invisible (session : Session) (keeps : session.KeepsBlobs) (bundle : Bundle)
    (state : Property) (plain : state.id.name.isIdentity = false) (threshold : Nat) :
    ∃ result changed after,
      session.run (bundle.addProperty state threshold : Task StorageError _) =
        (.ok (result, changed), after) ∧ after.KeepsBlobs ∧
      (session.FailsOnly (fun _ => False)
        (bundle.addProperty state threshold : Task StorageError _) → result = .ok ()) ∧
      (session.storage.files? = none → result = .ok ()) ∧
      (result = .ok () →
        (after.run (changed.property? state.id.name)).1 =
          .ok (some { state with status := .existing }) ∧
        (∀ other further last,
          session.run (bundle.addProperty state other : Task StorageError _) =
            (.ok (.ok (), further), last) →
          (last.run (further.property? state.id.name)).1 =
            (after.run (changed.property? state.id.name)).1) ∧
        ∃ stored, changed.properties.find? state.id.name = some stored ∧
          stored.StandsFor after.storage.blobView threshold state ∧
          ∀ name, name ≠ state.id.name →
            (∀ entry, bundle.properties.find? name = some entry → ∀ blob ∈ entry.blobs,
              ∀ near, near ∈ bundle.blobsOf state.id.name ∨ near ∈ stored.blobs →
                ¬ session.storage.blobView.meet near blob) →
            (after.run (changed.property? name)).1.toOption =
              (session.run (bundle.property? name)).1.toOption) := by
  have any (other : Nat) := keeps.addProperty plain other
    (session.failsOnly_any (bundle.addProperty state other : Task StorageError _))
  obtain ⟨result, changed, after, ran, still, outcome⟩ := any threshold
  refine ⟨result, changed, after, ran, still, fun never => ?_, fun memory => ?_, fun well => ?_⟩
  · obtain ⟨_found, ended⟩ := keeps.addProperty_ok plain threshold never (fun _call _stores => id)
    rw [ran] at ended
    cases ended
    rfl
  · have reading : session.FailsOnly _ (bundle.addProperty state threshold : Task StorageError _) :=
      keeps.failsOnly_of_memory memory
        (bundle.addProperty_handling threshold plain session.storage.blobView)
    obtain ⟨_found, ended⟩ := keeps.addProperty_ok plain threshold reading
      (fun call stores read => by
        obtain ⟨blob, rfl⟩ := read
        exact stores.elim)
    rw [ran] at ended
    cases ended
    rfl
  · subst well
    obtain ⟨stored, puts⟩ := outcome
    refine ⟨still.read_put puts, fun other further last ranToo => ?_, stored, puts.found, puts.stands,
      fun name differs apart => ?_⟩
    · obtain ⟨_result, _further, _last, ranOther, stillToo, ends⟩ := any other
      cases ranToo.symm.trans ranOther
      obtain ⟨_stored, putsToo⟩ := ends
      exact (stillToo.read_put putsToo).trans (still.read_put puts).symm
    · rw [still.read, keeps.read]
      exact puts.others differs apart

end Session

/-! ### A picture in the place of two -/

namespace Album

def cover : PropertyId := ⟨NodeId.zero, ⟨"", "cover"⟩⟩

def title : PropertyId := ⟨NodeId.zero, ⟨"", "title"⟩⟩

def coverBlob (place : Nat) : String := MemoryStorage.blobId cover place

def titleBlob : String := MemoryStorage.blobId title 0

def bundle : Bundle :=
  { Bundle.ofNode (Node.fresh NodeId.zero Name.unstructured none) with
    properties := SortedMap.ofList
      [(cover.name, ⟨cover, .binary, true, 0, [.blob (coverBlob 0) 3, .blob (coverBlob 1) 4]⟩),
        (title.name, ⟨title, .binary, false, 0, [.blob titleBlob 3]⟩)] }

def session : Session :=
  { storage := .memory { MemoryStorage.empty with
      blobs := SortedMap.ofList [(coverBlob 0, [1, 2, 3]), (coverBlob 1, [4, 5, 6, 7]),
        (titleBlob, [8, 8, 8])] }
    cache := BundleCache.new 1000 1 Session.spread
    blobThreshold := 2
    faults := SortedMap.empty
    calls := []
    warnings := [] }

/-- One value is large, the other one is not. -/
def newCover : Property := Property.multi cover .binary [.binary [9, 9, 9], .binary [1]]

theorem session_keepsBlobs : session.KeepsBlobs := ⟨rfl, fun _files impossible => by cases impossible⟩

theorem title_apart {place : Nat} : coverBlob place ≠ titleBlob :=
  fun same => absurd (MemoryStorage.blobId_name same) (by decide)

theorem cover_replaced : ∃ changed after,
    session.run (bundle.addProperty newCover 2 : Task StorageError _) =
      (.ok (.ok (), changed), after) ∧
    (after.run (changed.property? cover.name)).1 =
      .ok (some { newCover with status := .existing }) ∧
    (after.run (changed.property? title.name)).1.toOption =
      some (some { Property.single title (.binary [8, 8, 8]) with status := .existing }) := by
  obtain ⟨result, changed, after, ran, _still, _never, memory, outcome⟩ :=
    Session.threshold_is_invisible session session_keepsBlobs bundle newCover (by decide) 2
  obtain rfl := memory rfl
  obtain ⟨read, _again, stored, found, _stands, others⟩ := outcome rfl
  refine ⟨changed, after, ran, read, ?_⟩
  rw [others title.name (by decide)]
  · decide +kernel
  · intro entry there blob own near reached same
    have entryBlobs : (bundle.properties.find? title.name).map StoredProperty.blobs =
        some [titleBlob] := by decide +kernel
    have released : bundle.blobsOf cover.name = [coverBlob 0, coverBlob 1] := by decide +kernel
    have put : (session.run (bundle.addProperty newCover 2 : Task StorageError _)).1.toOption.map
        (fun answer => (answer.2.properties.find? cover.name).map StoredProperty.blobs) =
          some (some [coverBlob 0]) := by decide +kernel
    rw [there] at entryBlobs
    rw [ran] at put
    have holds : (changed.properties.find? newCover.id.name).map StoredProperty.blobs =
        some [coverBlob 0] := Option.some.inj put
    rw [found] at holds
    rw [Option.some.inj entryBlobs, List.mem_singleton] at own
    rw [show bundle.blobsOf newCover.id.name = _ from released, Option.some.inj holds] at reached
    have nearCover : ∃ place, near = coverBlob place := by
      simp only [List.mem_cons, List.not_mem_nil, or_false] at reached
      rcases reached with (first | second) | new
      · exact ⟨0, first⟩
      · exact ⟨1, second⟩
      · exact ⟨0, new⟩
    obtain ⟨place, rfl⟩ := nearCover
    exact title_apart ((same : coverBlob place = blob).trans own)

end Album

end BundleStore
