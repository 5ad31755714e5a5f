import BundleStore.Proofs.Record.Formats

set_option autoImplicit false

/-! Whatever the bytes are, what can be read from them is no longer than they are: a reader takes a
piece off the front of its input, and of a list it takes as much for each element. So a record has no
more children than bytes. -/

namespace BundleStore.Record

namespace Codec

variable {α β : Type} {codec : Codec α} {least other : Nat}

/-- Every value takes at least so many bytes off the input. -/
def Takes (codec : Codec α) (least : Nat) : Prop :=
  ∀ input value rest, codec.read input = some (value, rest) → least + rest.length ≤ input.length

theorem Takes.refine (takes : codec.Takes least) (write : β → α) (read : α → Option β) :
    (codec.refine write read).Takes least := by
  intro input value rest found
  obtain ⟨⟨raw, left⟩, first, found⟩ := Option.bind_eq_some_iff.mp found
  obtain ⟨refined, _accepted, found⟩ := Option.bind_eq_some_iff.mp found
  cases found
  exact takes input raw rest first

theorem Takes.pair (takes : codec.Takes least) {next : Codec β} (also : next.Takes other) :
    (codec.pair next).Takes (least + other) := by
  intro input value rest found
  obtain ⟨⟨left, between⟩, first, found⟩ := Option.bind_eq_some_iff.mp found
  obtain ⟨⟨right, last⟩, second, found⟩ := Option.bind_eq_some_iff.mp found
  cases found
  have front := takes input left between first
  have back := also between right rest second
  omega

theorem takeBytes_some {count : Nat} {input taken rest : List UInt8}
    (found : takeBytes count input = some (taken, rest)) :
    count + rest.length = input.length := by
  rw [takeBytes, List.splitAt_eq] at found
  dsimp only at found
  split at found
  · rename_i whole
    cases found
    rw [List.length_take] at whole
    rw [List.length_drop]
    omega
  · cases found

theorem number_takes (width : Nat) : (number width).Takes width := by
  intro input value rest found
  obtain ⟨⟨taken, left⟩, first, found⟩ := Option.bind_eq_some_iff.mp found
  cases found
  exact Nat.le_of_eq (takeBytes_some first)

theorem bytes_takes : bytes.Takes 8 := by
  intro input value rest found
  obtain ⟨⟨length, between⟩, first, found⟩ := Option.bind_eq_some_iff.mp found
  have front := number_takes 8 input length between first
  have back := takeBytes_some found
  omega

theorem text_takes : text.Takes 8 := bytes_takes.refine _ _

theorem Takes.optional (takes : codec.Takes least) : codec.optional.Takes 1 := by
  intro input value rest found
  rw [Codec.optional] at found
  dsimp only at found
  split at found
  · cases found
    rw [List.length_cons]
    omega
  · rename_i tail
    obtain ⟨⟨inner, left⟩, first, found⟩ := Option.map_eq_some_iff.mp found
    cases found
    have taken := takes tail inner left first
    rw [List.length_cons]
    dsimp only
    omega
  · cases found

theorem readMany_some (takes : codec.Takes least) {count : Nat} {input rest : List UInt8}
    {values : List α} (found : readMany codec.read count input = some (values, rest)) :
    least * values.length + rest.length ≤ input.length := by
  induction count generalizing input values with
  | zero =>
      cases found
      simp
  | succ count ih =>
      obtain ⟨⟨value, between⟩, first, found⟩ := Option.bind_eq_some_iff.mp found
      obtain ⟨⟨more, last⟩, later, found⟩ := Option.bind_eq_some_iff.mp found
      cases found
      have front := takes input value between first
      have back := ih later
      rw [List.length_cons, Nat.mul_succ]
      omega

theorem list_some (takes : codec.Takes least) {input rest : List UInt8} {values : List α}
    (found : codec.list.read input = some (values, rest)) :
    least * values.length + rest.length ≤ input.length := by
  obtain ⟨⟨count, between⟩, first, found⟩ := Option.bind_eq_some_iff.mp found
  have front := number_takes 8 input count between first
  have back := readMany_some takes found
  omega

theorem Takes.list (takes : codec.Takes least) : codec.list.Takes 0 := by
  intro input values rest found
  have taken := list_some takes found
  omega

theorem pair_first {next : Codec β} {input rest : List UInt8} {value : α × β}
    (found : (codec.pair next).read input = some (value, rest)) :
    ∃ between, codec.read input = some (value.1, between) := by
  obtain ⟨⟨left, between⟩, first, found⟩ := Option.bind_eq_some_iff.mp found
  obtain ⟨⟨right, last⟩, _second, found⟩ := Option.bind_eq_some_iff.mp found
  cases found
  exact ⟨between, first⟩

/-- What bounds the second value bounds it in the whole input. -/
theorem pair_second (takes : codec.Takes least) {next : Codec β} {input rest : List UInt8}
    {value : α × β} {size : Nat} (bounded : ∀ between, next.read between = some (value.2, rest) →
      size ≤ between.length)
    (found : (codec.pair next).read input = some (value, rest)) : size ≤ input.length := by
  obtain ⟨⟨left, between⟩, first, found⟩ := Option.bind_eq_some_iff.mp found
  obtain ⟨⟨right, last⟩, second, found⟩ := Option.bind_eq_some_iff.mp found
  cases found
  have front := takes input left between first
  have back := bounded between second
  omega

end Codec

open Codec

theorem nodeId_takes : nodeId.Takes 8 := bytes_takes.refine _ _

theorem name_takes : name.Takes 16 := (text_takes.pair text_takes).refine _ _

theorem child_takes : child.Takes 28 :=
  (name_takes.pair (nodeId_takes.pair ((number_takes 4).refine _ _))).refine _ _

theorem unframe_length {bytes payload : List UInt8} (unframed : unframe bytes = .ok payload) :
    payload.length ≤ bytes.length := by
  rw [unframe] at unframed
  split at unframed
  · cases unframed
  · dsimp only at unframed
    split at unframed
    · cases unframed
    · split at unframed
      · cases unframed
      · cases unframed
        rw [List.length_drop]
        omega

theorem decode_ok {α : Type} {codec : Codec α} {bytes : List UInt8} {record : String} {found : α}
    (decoded : decode codec bytes record = .ok found) :
    ∃ payload rest, unframe bytes = .ok payload ∧ codec.read payload = some (found, rest) := by
  rw [decode] at decoded
  cases unframed : unframe bytes with
  | error fault =>
      rw [unframed] at decoded
      cases decoded
  | ok payload =>
      rw [unframed] at decoded
      change (readPayload codec payload).mapError _ = .ok found at decoded
      rw [readPayload] at decoded
      split at decoded
      · rename_i value rest read
        cases decoded
        exact ⟨payload, rest, rfl, read⟩
      · cases decoded

/-- A record has more bytes than children, whatever else they are. -/
theorem children_length_le {bytes : List UInt8} {record : String} {found : Bundle}
    (decoded : decode bundle bytes record = .ok found) : found.children.length ≤ bytes.length := by
  obtain ⟨payload, rest, unframed, read⟩ := decode_ok decoded
  refine Nat.le_trans ?_ (unframe_length unframed)
  obtain ⟨⟨fields, left⟩, first, accepted⟩ := Option.bind_eq_some_iff.mp read
  cases accepted
  refine pair_second nodeId_takes (fun header => ?_) first
  refine pair_second nodeId_takes.optional (fun parent => ?_)
  refine pair_second name_takes (fun type => ?_)
  refine pair_second (name_takes.list.refine _ _) (fun mixins read => ?_)
  obtain ⟨between, listed⟩ := pair_first read
  have bound := list_some child_takes listed
  change fields.2.2.2.2.1.length ≤ mixins.length
  omega

theorem children_length_le_of_encode {written : Bundle} {bytes : List UInt8}
    (encoded : encode bundle written = .ok bytes) : written.children.length ≤ bytes.length := by
  have decoded := decode_encode (bundle_yields written) encoded ""
  have bound : written.record.children.length ≤ bytes.length := children_length_le decoded
  exact bound

end BundleStore.Record
