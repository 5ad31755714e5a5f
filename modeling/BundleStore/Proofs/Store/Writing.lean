import BundleStore.Proofs.SortedMap
import BundleStore.Proofs.Store.Effects
import BundleStore.Proofs.Store.Fetching

set_option autoImplicit false

/-! What releasing blobs and storing values comes to, for a writer that nobody else writes beside:
it keeps to the writer's order of actions, and touches only blobs that are its own. -/

namespace BundleStore

variable {ε : Type} {faults : Faults} {contents : Contents} {stage : Stage}

/-! ### Releasing blobs -/

theorem Released.nil (contents : Contents) : Released faults [] contents contents :=
  { Contents.Touched.refl _ contents with
    fewer := fun _blob => Or.inr rfl
    gone := fun _release blob member => by cases member }

theorem Released.append {first second third : Contents} {left right : List String}
    (early : Released faults left first second) (late : Released faults right second third) :
    Released faults (left ++ right) first third := by
  refine { (early.wider (fun blob => List.mem_append_left right)).trans
    (late.wider (fun blob => List.mem_append_right left)) with fewer := ?_, gone := ?_ }
  · intro blob
    rcases late.fewer blob with gone | same
    · exact Or.inl gone
    · rw [same]
      exact early.fewer blob
  · intro release blob member
    rcases List.mem_append.mp member with inLeft | inRight
    · rcases late.fewer blob with gone | same
      · exact gone
      · exact same.trans (early.gone release blob inLeft)
    · exact late.gone release blob inRight

theorem released_of_chain {β : Type} (blobs : β → List String) {list : List β}
    {first last : Contents}
    (chain : Chain (fun element => Released faults (blobs element)) list first last) :
    Released faults (list.flatMap blobs) first last := by
  induction chain with
  | nil contents => exact Released.nil contents
  | cons head tail ih => exact head.append ih

theorem released_withBlob (contents : Contents) (blob : String) :
    Released faults [blob] contents (contents.withBlob blob none) := by
  refine { (contents.withBlob_touched blob none).wider
    (fun other same => List.mem_singleton.mpr same) with fewer := fun other => ?_, gone := ?_ }
  · by_cases same : other = blob
    · rw [same]
      exact Or.inl (Function.update_self ..)
    · exact Or.inr (Function.update_of_ne same ..)
  · intro _release other member
    rw [List.mem_singleton.mp member]
    exact Function.update_self ..

theorem never_broken {β τ υ : Type} {pass : β → τ → τ → Prop} {list : List β} {first : τ} {last : υ}
    (breaks : Breaks pass (fun _ _ _ => False) list first last) : False := by
  induction breaks with
  | here head => exact head
  | later head tail ih => exact ih

/-- A loop whose passes only release blobs releases those of all its elements. -/
theorem releases_forM {β : Type} {blobs : β → List String} {body : β → Task ε PUnit}
    {list : List β}
    (each : ∀ element ∈ list, ∀ contents,
      (body element).Meets (writing faults)
        (fun _ next => next.stage = stage ∧
          Released faults (blobs element) contents next.contents)
        (fun _ _ => False) ⟨stage, contents⟩) :
    (list.forM body).Meets (writing faults)
      (fun _ next => next.stage = stage ∧
        Released faults (list.flatMap blobs) contents next.contents)
      (fun _ _ => False) ⟨stage, contents⟩ := by
  refine (writing_forM (fun _ _ _ => False) each contents).mono writing_monotone ?_
    (fun _error _next broken => never_broken broken)
  intro _unit next met
  obtain ⟨kept, chain⟩ := met
  exact ⟨kept, released_of_chain blobs chain⟩

namespace StoredProperty

theorem releaseBlob_writing (id : PropertyId) (blob : String) :
    (releaseBlob id blob : Task ε Unit).Meets (writing faults)
      (fun _ next => next.stage = stage ∧ Released faults [blob] contents next.contents)
      (fun _ _ => False) ⟨stage, contents⟩ := by
  rw [releaseBlob, Task.meets_bind]
  refine writing_attempt trivial (fun there after does => ?_) (fun error after fault fails => ?_)
  · obtain ⟨rfl, _there⟩ := does
    exact ⟨rfl, released_withBlob contents blob⟩
  · refine writing_warn ⟨rfl, ?_⟩
    have kept (same : after = contents) : Released faults [blob] contents after := by
      rw [same]
      exact { Contents.Touched.refl _ contents with
        fewer := fun _other => Or.inr rfl
        gone := fun release _other _member => absurd fault (release blob error contents) }
    rcases fails with same | ⟨_unchecked, there, rfl, _there⟩
    · exact kept same
    · exact released_withBlob contents blob

theorem release_writing (property : StoredProperty) :
    (property.release : Task ε Unit).Meets (writing faults)
      (fun _ next => next.stage = stage ∧ Released faults property.blobs contents next.contents)
      (fun _ _ => False) ⟨stage, contents⟩ := by
  have loop : (property.blobs.forM (releaseBlob property.id) : Task ε Unit).Meets (writing faults)
      (fun _ next => next.stage = stage ∧
        Released faults (property.blobs.flatMap (fun blob => [blob])) contents next.contents)
      (fun _ _ => False) ⟨stage, contents⟩ :=
    releases_forM (fun blob _member _held => releaseBlob_writing property.id blob)
  rw [List.flatMap_singleton'] at loop
  exact loop

end StoredProperty

namespace Bundle

theorem releaseBlobs_writing (bundle : Bundle) :
    (bundle.releaseBlobs : Task ε Unit).Meets (writing faults)
      (fun _ next => next.stage = stage ∧ Released faults bundle.blobs contents next.contents)
      (fun _ _ => False) ⟨stage, contents⟩ :=
  releases_forM (fun stored _member _contents => stored.release_writing)

theorem removeProperty_writing (bundle : Bundle) (name : Name) :
    (bundle.removeProperty name : Task ε _).Meets (writing faults)
      (fun result next => next.stage = stage ∧ result.2 = bundle.withoutProperty name ∧
        Released faults (bundle.blobsOf name) contents next.contents)
      (fun _ _ => False) ⟨stage, contents⟩ := by
  rw [removeProperty, withoutProperty, blobsOf]
  cases found : bundle.properties.find? name with
  | none =>
      rw [SortedMap.erase_of_absent found]
      exact ⟨rfl, rfl, Released.nil contents⟩
  | some stored =>
      rw [Task.meets_bind]
      refine stored.release_writing.mono writing_monotone ?_ (fun _error _next never => never)
      intro _unit next released
      exact ⟨released.1, rfl, released.2⟩

end Bundle

/-! ### Storing values -/

/-- Places of the property from this one on may have been given blobs. -/
def Contents.Filled (property : PropertyId) (place : Nat) (before after : Contents) : Prop :=
  Contents.Touched (fun blob => ∃ later, place ≤ later ∧ after.slots property later = some blob)
    before after

namespace Contents

theorem Filled.refl (property : PropertyId) (place : Nat) (contents : Contents) :
    Filled property place contents contents := Touched.refl _ contents

theorem Filled.earlier {property : PropertyId} {place : Nat} {before after : Contents}
    (filled : Filled property (place + 1) before after) : Filled property place before after :=
  filled.wider (fun _blob ⟨later, after, given⟩ => ⟨later, by omega, given⟩)

theorem Filled.trans {property : PropertyId} {place : Nat} {first second third : Contents}
    (early : Filled property place first second) (late : Filled property place second third) :
    Filled property place first third :=
  (early.wider (fun _blob ⟨later, after, given⟩ => ⟨later, after, late.slots given⟩)).trans late

theorem Filled.slotOf {property : PropertyId} {place : Nat} {before after : Contents}
    (filled : Filled property place before after) :
    Touched (after.SlotOf property) before after :=
  filled.wider (fun _blob ⟨later, _after, given⟩ => ⟨later, given⟩)

end Contents

theorem StoredValue.Keeps.filled {threshold place : Nat} {property : PropertyId} {value : Value}
    {stored : StoredValue} {before after : Contents}
    (keeps : stored.Keeps before threshold property place value)
    (filled : Contents.Filled property (place + 1) before after) :
    stored.Keeps after threshold property place value := by
  cases stored with
  | inline kept => exact keeps
  | blob held length =>
      obtain ⟨bytes, isBinary, large, counted, given, bytesHeld⟩ := keeps
      refine ⟨bytes, isBinary, large, counted, filled.slots given, ?_⟩
      rw [filled.blobs]
      · exact bytesHeld
      · intro met
        obtain ⟨later, after, taken⟩ := met
        have same := Contents.onePlace _ (filled.slots given) taken
        omega

namespace StoredProperty

theorem storeValue_writing (property : PropertyId) (threshold : Nat) (value : Value)
    (place : Nat) :
    (storeValue property threshold value place).Meets (writing faults)
      (fun stored next => next.stage = stage ∧
        Contents.Filled property place contents next.contents ∧
        Contents.Touched (fun blob => stored.blob? = some blob) contents next.contents ∧
        stored.Keeps next.contents threshold property place value)
      (fun error next => Contents.Filled property place contents next.contents ∧
        faults.InDraft error)
      ⟨stage, contents⟩ := by
  have filling {named : Contents} {blob : String} (bytes : List UInt8)
      (given : contents.Named named) (slot : named.slots property place = some blob) :
      Contents.Filled property place contents (named.withBlob blob (some bytes)) :=
    (given.touched _).trans ((named.withBlob_touched blob (some bytes)).wider
      (fun other same => ⟨place, Nat.le_refl place, same ▸ slot⟩))
  cases value with
  | binary bytes =>
      rw [storeValue]
      split
      · rename_i large
        rw [Task.meets_bind]
        refine writing_call trivial (fun blob named does => ?_) (fun error named fault fails => ?_)
        · obtain ⟨given, slot⟩ := does
          rw [Task.meets_bind]
          refine writing_call trivial (fun _unit after does => ?_) (fun error after fault fails => ?_)
          · obtain rfl := does
            refine ⟨rfl, filling bytes given slot, ?_, bytes, rfl, large, rfl, slot, ?_⟩
            · exact (given.touched _).trans ((named.withBlob_touched blob (some bytes)).wider
                (fun _other same => congrArg some same.symm))
            · exact Function.update_self ..
          · refine ⟨?_, _, _, rfl, fault⟩
            rcases fails with rfl | ⟨_unchecked, _unit, rfl⟩
            · exact given.touched _
            · exact filling bytes given slot
        · refine ⟨?_, _, _, rfl, fault⟩
          rcases fails with rfl | ⟨_unchecked, blob, does⟩
          · exact Contents.Filled.refl ..
          · exact does.1.touched _
      · rename_i small
        refine ⟨rfl, Contents.Filled.refl .., Contents.Touched.refl .., rfl, fun held same => ?_⟩
        cases same
        omega
  | _ =>
      exact ⟨rfl, Contents.Filled.refl .., Contents.Touched.refl .., rfl,
        fun held same => by cases same⟩

theorem storeValues_writing (property : PropertyId) (threshold : Nat) (values : List Value)
    (place : Nat) (contents : Contents) :
    (storeValues property threshold values place).Meets (writing faults)
      (fun stored next => next.stage = stage ∧
        Contents.Filled property place contents next.contents ∧
        Contents.Touched (fun blob => blob ∈ stored.filterMap StoredValue.blob?) contents
          next.contents ∧
        StoredValue.KeepAll next.contents threshold property place values stored)
      (fun error next => Contents.Filled property place contents next.contents ∧
        faults.InDraft error)
      ⟨stage, contents⟩ := by
  induction values generalizing place contents with
  | nil => exact ⟨rfl, Contents.Filled.refl .., Contents.Touched.refl .., trivial⟩
  | cons value rest ih =>
      rw [storeValues, Task.meets_bind]
      refine (storeValue_writing property threshold value place).mono writing_monotone ?_
        (fun _error _next failed => failed)
      intro stored reached met
      obtain ⟨_stage, next⟩ := reached
      obtain ⟨rfl, filled, touched, keeps⟩ := met
      rw [Task.meets_bind]
      refine (ih (place + 1) next).mono writing_monotone ?_ ?_
      · intro others reached met
        obtain ⟨_stage, last⟩ := reached
        obtain ⟨rfl, further, alsoTouched, keepAll⟩ := met
        refine ⟨rfl, filled.trans further.earlier, ?_, keeps.filled further, keepAll⟩
        refine (touched.wider (fun blob own => ?_)).trans (alsoTouched.wider (fun blob own => ?_))
        · exact List.mem_filterMap.mpr ⟨stored, List.mem_cons_self, own⟩
        · obtain ⟨other, member, held⟩ := List.mem_filterMap.mp own
          exact List.mem_filterMap.mpr ⟨other, List.mem_cons_of_mem _ member, held⟩
      · intro error last failed
        exact ⟨filled.trans failed.1.earlier, failed.2⟩

theorem ofProperty_writing (state : Property) (threshold : Nat) :
    (ofProperty state threshold).Meets (writing faults)
      (fun stored next => next.stage = stage ∧
        Contents.Touched (fun blob => blob ∈ stored.blobs) contents next.contents ∧
        stored.Keeps next.contents threshold state)
      (fun error next => Contents.Touched (next.contents.SlotOf state.id) contents next.contents ∧
        faults.InDraft error)
      ⟨stage, contents⟩ := by
  rw [ofProperty, Task.meets_bind]
  refine (storeValues_writing state.id threshold state.values 0 contents).mono writing_monotone ?_
    (fun _error _next failed => ⟨failed.1.slotOf, failed.2⟩)
  intro values next met
  obtain ⟨kept, _filled, touched, keepAll⟩ := met
  exact ⟨kept, touched, ⟨rfl, rfl, rfl, rfl, keepAll⟩⟩

end StoredProperty

/-- Putting a property into a bundle never fails as such; that its values could not be stored is
part of the result, and its old values are then gone all the same. -/
theorem Bundle.addProperty_writing (bundle : Bundle) {state : Property} (threshold : Nat)
    (plain : state.id.name.isIdentity = false) :
    (bundle.addProperty state threshold : Task ε _).Meets (writing faults)
      (fun result next => ∃ released,
        Released faults (bundle.blobsOf state.id.name) contents released ∧
        match result.1 with
        | .ok () => next.stage = stage ∧ ∃ stored,
            Contents.Touched (fun blob => blob ∈ stored.blobs) released next.contents ∧
            stored.Keeps next.contents threshold state ∧
            result.2 = bundle.withProperty state.id.name stored
        | .error error =>
            Contents.Touched (next.contents.SlotOf state.id) released next.contents ∧
              faults.InDraft error)
      (fun _ _ => False) ⟨stage, contents⟩ := by
  rw [addProperty, plain]
  simp only [Bool.false_eq_true, if_false]
  rw [Task.meets_bind]
  refine (bundle.removeProperty_writing state.id.name).mono writing_monotone ?_
    (fun _error _next never => never)
  intro met reached other
  obtain ⟨_old, cleared⟩ := met
  obtain ⟨_stage, released⟩ := reached
  obtain ⟨rfl, rfl, releasedBlobs⟩ := other
  rw [Task.meets_orElse]
  change Task.Meets _ _ _ (StoredProperty.ofProperty state threshold >>= _) _
  rw [Task.meets_bind]
  refine (StoredProperty.ofProperty_writing state threshold).mono writing_monotone ?_ ?_
  · intro stored next met
    obtain ⟨kept, touched, keeps⟩ := met
    exact ⟨released, releasedBlobs, kept, stored, touched, keeps, rfl⟩
  · intro error next touched
    exact ⟨released, releasedBlobs, touched⟩

end BundleStore
