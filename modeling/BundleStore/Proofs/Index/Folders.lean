import BundleStore.Index.StoragePaths
import BundleStore.Proofs.Text.Identifiers

set_option autoImplicit false

/-! The folder of a node. Its text without the hyphens is its digits; counted off, they fall into
three names, and joined again they give back the node. -/

namespace BundleStore.NodeId

theorem parted_plain {counted : Char × Nat} (second : counted.2 ≠ 2) (fourth : counted.2 ≠ 4) :
    parted counted = [counted.1] :=
  if_neg (not_or.mpr ⟨second, fourth⟩)

theorem flatMap_parted_far {start : Nat} (far : 4 < start) (chars : List Char) :
    (chars.zipIdx start).flatMap parted = chars := by
  induction chars generalizing start with
  | nil => rfl
  | cons char rest ih =>
      have plain : parted (char, start) = [char] :=
        parted_plain (show start ≠ 2 by omega) (show start ≠ 4 by omega)
      rw [List.zipIdx_cons, List.flatMap_cons, ih (Nat.lt_succ_of_lt far), plain]
      rfl

/-- The separators stand after two characters and after four. -/
theorem flatMap_parted {chars : List Char} (long : 4 < chars.length) :
    chars.zipIdx.flatMap parted =
      chars.take 2 ++ '/' :: (chars.drop 2).take 2 ++ '/' :: chars.drop 4 := by
  match chars, long with
  | first :: second :: third :: fourth :: fifth :: rest, _long =>
      have far : (rest.zipIdx 5).flatMap parted = rest := flatMap_parted_far (by decide) rest
      simp only [List.zipIdx_cons, List.flatMap_cons, far]
      rfl

theorem filter_intercalate {separator : Char} {parts : List (List Char)}
    (absent : ∀ part ∈ parts, separator ∉ part) :
    ([separator].intercalate parts).filter (· ≠ separator) = parts.flatten := by
  have kept {part : List Char} (member : part ∈ parts) : part.filter (· ≠ separator) = part :=
    List.filter_eq_self.mpr (fun char there =>
      decide_eq_true (fun same => absent part member (same ▸ there)))
  induction parts with
  | nil => rfl
  | cons first rest ih =>
      have later := ih (fun part member => absent part (List.mem_cons_of_mem _ member))
        (fun member => kept (List.mem_cons_of_mem _ member))
      cases rest with
      | nil => simpa using kept List.mem_cons_self
      | cons second rest =>
          rw [List.intercalate_cons_cons, List.filter_append, List.filter_append, later,
            kept List.mem_cons_self]
          simp

theorem filter_chars (id : NodeId) : id.chars.filter (· ≠ '-') = id.digits := by
  rw [← intercalate_groups, filter_intercalate (fun _group => absent_of_groups (by decide)),
    flatten_groups]

/-- Two digits, two more, and the rest. -/
theorem folderChars_eq (id : NodeId) : id.folderChars = ['/'].intercalate id.folderNames := by
  rw [folderChars, filter_chars, flatMap_parted (by rw [length_digits]; decide)]
  simp [folderNames]

theorem flatten_folderNames (id : NodeId) : id.folderNames.flatten = id.digits := by
  simp only [folderNames, List.flatten_cons, List.flatten_nil, List.append_nil]
  have last : id.digits.drop 4 = (id.digits.drop 2).drop 2 := by rw [List.drop_drop]
  rw [last, List.take_append_drop, List.take_append_drop]

theorem alphanum_of_folderNames {id : NodeId} {name : List Char} (listed : name ∈ id.folderNames) :
    ∀ char ∈ name, char.isAlphanum = true := by
  intro char member
  have digit : char ∈ id.digits := by
    rw [← flatten_folderNames]
    exact List.mem_flatten.mpr ⟨name, listed, member⟩
  exact Text.Hex.alphanum_of_mem_smallDigits (Text.Hex.mem_smallDigits digit)

theorem slashless_folderNames {id : NodeId} {name : List Char} (listed : name ∈ id.folderNames) :
    '/' ∉ name :=
  fun there => absurd (alphanum_of_folderNames listed _ there) (by decide)

theorem folderChars_length (id : NodeId) : id.folderChars.length = 34 := by
  simp [folderChars_eq, folderNames, length_digits]

theorem folderChars_inj {left right : NodeId} (same : left.folderChars = right.folderChars) :
    left = right := by
  have read (id : NodeId) : ofDigits? (id.folderChars.filter (· ≠ '/')) = some id := by
    rw [folderChars_eq, filter_intercalate (fun _name => slashless_folderNames),
      flatten_folderNames, ofDigits?_digits]
  have both := read left
  rw [same, read right] at both
  exact (Option.some.inj both).symm

end BundleStore.NodeId
