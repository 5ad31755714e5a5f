import BundleStore.Index.StringIndex
import BundleStore.Proofs.Index.Rebuilding
import BundleStore.Proofs.Record.Formats
import Mathlib.Data.List.TakeDrop

set_option autoImplicit false

/-! The file of an index gives back the index: the printed mapping is read as it was printed, and
its entries, put in the order of their numbers, are the strings in the order in which they came. An
index too large for the numbers of the file cannot be read back at all. -/

namespace BundleStore

namespace Json.Mapping

/-! ### Keys -/

/-- How the escape of a character is read. -/
def pieceOf (char : Char) : Piece :=
  if char.toNat < 32 ∧ char ∉ ['\x08', '\t', '\n', '\x0c', '\r'] then .unit char.toNat
  else .char char

theorem fourDigits?_small {value : Nat} (small : value < 32) :
    fourDigits? '0' '0' (Nat.digitChar (value / 16)) (Nat.digitChar (value % 16)) = some value := by
  have high : Text.Hex.digitValue? (Nat.digitChar (value / 16)) = some (value / 16) :=
    Text.Hex.digitValue?_digitChar (by omega)
  have low : Text.Hex.digitValue? (Nat.digitChar (value % 16)) = some (value % 16) :=
    Text.Hex.digitValue?_digitChar (by omega)
  have zero : Text.Hex.digitValue? '0' = some 0 := by decide
  simp only [fourDigits?, zero, high, low, Option.bind_eq_bind, Option.bind_some, Option.pure_def]
  congr 1
  omega

/-- A character that needs no escape stands for itself. -/
theorem pieces_plain {char : Char} (quote : char ≠ '"') (slash : char ≠ '\\')
    (large : ¬ char.toNat < 32) (rest : List Char) :
    pieces (char :: rest) = (pieces rest).map (fun (later, rest) => (.char char :: later, rest)) := by
  rw [pieces]
  · rw [if_neg (not_or.mpr ⟨large, slash⟩)]
  · exact quote
  · intro first second third fourth later same
    exact absurd same slash
  · intro other later same
    exact absurd same slash

theorem pieces_escaped (char : Char) (rest : List Char) :
    pieces (escaped char ++ rest) =
      (pieces rest).map (fun (later, rest) => (pieceOf char :: later, rest)) := by
  unfold escaped
  split
  case h_8 quote slash back tab line feed ret =>
    split
    · rename_i small
      have special : char ∉ ['\x08', '\t', '\n', '\x0c', '\r'] := by simp_all
      have meant : pieceOf char = .unit char.toNat := if_pos ⟨small, special⟩
      cases read : pieces rest <;> simp [pieces, fourDigits?_small small, meant, read]
    · rename_i large
      have meant : pieceOf char = .char char := if_neg (fun both => large both.1)
      rw [List.singleton_append, meant]
      exact pieces_plain quote slash large rest
  all_goals cases read : pieces rest <;> simp [pieces, simpleEscape?, pieceOf, read]

theorem pieces_text (chars rest : List Char) :
    pieces (chars.flatMap escaped ++ '"' :: rest) = some (chars.map pieceOf, rest) := by
  induction chars with
  | nil => rfl
  | cons char later ih =>
      rw [List.flatMap_cons, List.append_assoc, pieces_escaped, ih]
      rfl

theorem join_control {unit : Nat} (small : unit < 32) (rest : List Piece) :
    join (.unit unit :: rest) = (join rest).map (Char.ofNat unit :: ·) := by
  have high : isHigh unit = false := by simp [isHigh]; omega
  have low : isLow unit = false := by simp [isLow]; omega
  cases rest with
  | nil => simp [join, high, low]
  | cons next later => cases next <;> simp [join, high, low]

theorem join_pieces (chars : List Char) : join (chars.map pieceOf) = some chars := by
  induction chars with
  | nil => rfl
  | cons char later ih =>
      rw [List.map_cons]
      by_cases control : char.toNat < 32 ∧ char ∉ ['\x08', '\t', '\n', '\x0c', '\r']
      · rw [show pieceOf char = .unit char.toNat from if_pos control, join_control control.1, ih,
          Char.ofNat_toNat]
        rfl
      · rw [show pieceOf char = .char char from if_neg control, join, ih]
        rfl

theorem readKey_text (text : String) (rest : List Char) :
    readKey ('"' :: text.toList.flatMap escaped ++ '"' :: rest) = some (text, rest) := by
  rw [List.cons_append, readKey, pieces_text]
  simp [join_pieces]

/-! ### Indices -/

theorem digitsValue_toDigits (number : Nat) : digitsValue (Nat.toDigits 10 number) = number := by
  have same :
      digitsValue (Nat.toDigits 10 number) = Nat.ofDigitChars 10 (Nat.toDigits 10 number) 0 := by
    rw [digitsValue, Nat.ofDigitChars_eq_foldl]
    simp only [Nat.mul_comm]
  rw [same, Nat.ofDigitChars_ten_toDigits]

theorem head_toDigits {number : Nat} (some : 0 < number) :
    (Nat.toDigits 10 number).head? ≠ Option.some '0' := by
  induction number using Nat.strongRecOn with
  | ind number ih =>
      rw [Nat.toDigits_eq_if (by decide)]
      split
      · rename_i small
        have all : ∀ index : Fin 10, 0 < index.val → Nat.digitChar index.val ≠ '0' := by decide
        simpa using all ⟨number, small⟩ some
      · have front := ih (number / 10) (by omega) (by omega)
        obtain ⟨first, rest, digits⟩ := List.exists_cons_of_ne_nil
          (Nat.toDigits_ne_nil (n := number / 10) (b := 10))
        rw [digits] at front ⊢
        exact front

/-- An index is read as it was printed, unless it does not fit. -/
theorem readIndex_toDigits {number : Nat} {rest : List Char}
    (ends : ∀ char ∈ rest.head?, char.isDigit = false) :
    readIndex (Nat.toDigits 10 number ++ rest) =
      if number < indexLimit then some (number, rest) else none := by
  rcases Nat.eq_zero_or_pos number with rfl | some
  · rfl
  · have digits : ∀ char ∈ Nat.toDigits 10 number, char.isDigit = true :=
      fun char member => Nat.isDigit_of_mem_toDigits (by decide) (by decide) member
    have leads : ∀ later, Nat.toDigits 10 number ++ rest ≠ '0' :: later := by
      intro later same
      obtain ⟨first, others, shape⟩ := List.exists_cons_of_ne_nil
        (Nat.toDigits_ne_nil (n := number) (b := 10))
      apply head_toDigits some
      rw [shape] at same ⊢
      exact congrArg Option.some (List.cons.inj same).1
    have split : (Nat.toDigits 10 number ++ rest).span Char.isDigit =
        (Nat.toDigits 10 number, rest) := by
      rw [List.span_eq_takeWhile_dropWhile, List.takeWhile_append_of_pos digits,
        List.dropWhile_append_of_pos digits]
      cases rest with
      | nil => simp
      | cons char later => simp [ends char rfl]
    have written : (Nat.toDigits 10 number).isEmpty = false :=
      List.isEmpty_eq_false_iff.mpr Nat.toDigits_ne_nil
    rw [readIndex.eq_def]
    split
    · rename_i later same
      exact absurd same (leads later)
    · simp only [split, digitsValue_toDigits, written, Bool.false_eq_true, false_or]
      by_cases fits : number < indexLimit
      · rw [if_neg (Nat.not_le.mpr fits), if_pos fits]
      · rw [if_pos (Nat.not_lt.mp fits), if_neg fits]

/-! ### Members -/

def entryChars (entry : String × Nat) : List Char :=
  '"' :: entry.1.toList.flatMap escaped ++ '"' :: ':' :: ' ' :: Nat.toDigits 10 entry.2

/-- The entries, one to a line, up to the closing brace. -/
def entriesChars : List (String × Nat) → List Char
  | [] => ['\n', '\x7d']
  | [entry] => entryChars entry ++ ['\n', '\x7d']
  | entry :: rest => entryChars entry ++ ',' :: '\n' :: ' ' :: ' ' :: entriesChars rest

theorem skipBlanks_digits (index : Nat) (tail : List Char) :
    skipBlanks (' ' :: (Nat.toDigits 10 index ++ tail)) = Nat.toDigits 10 index ++ tail := by
  obtain ⟨digit, digits, shape⟩ := List.exists_cons_of_ne_nil
    (Nat.toDigits_ne_nil (n := index) (b := 10))
  have numeral : digit.isDigit = true :=
    Nat.isDigit_of_mem_toDigits (by decide) (by decide) (shape ▸ List.mem_cons_self)
  have visible : isBlank digit = false := by
    rw [Bool.eq_false_iff]
    intro blank
    simp only [isBlank, Bool.or_eq_true, decide_eq_true_eq] at blank
    rcases blank with ((rfl | rfl) | rfl) | rfl <;> cases numeral
  rw [shape, skipBlanks, List.dropWhile_cons_of_pos (by decide), List.cons_append,
    List.dropWhile_cons_of_neg (by simp [visible])]

/-- An entry whose index fits is read as it was printed; then it depends on what follows. -/
theorem readMembers_entry {bound : Nat} {entry : String × Nat} {chars tail : List Char}
    (start : skipBlanks chars = entryChars entry ++ tail)
    (ends : ∀ char ∈ tail.head?, char.isDigit = false) :
    readMembers (bound + 1) chars =
      if entry.2 < indexLimit then
        match skipBlanks tail with
        | ',' :: more =>
            (readMembers bound more).map (fun (others, rest) => (entry :: others, rest))
        | '\x7d' :: more => some ([entry], more)
        | _ => none
      else none := by
  obtain ⟨key, index⟩ := entry
  have named : readKey (skipBlanks chars) =
      some (key, ':' :: ' ' :: (Nat.toDigits 10 index ++ tail)) := by
    rw [start, entryChars, List.append_assoc]
    exact readKey_text key _
  have colon : skipBlanks (':' :: ' ' :: (Nat.toDigits 10 index ++ tail)) =
      ':' :: ' ' :: (Nat.toDigits 10 index ++ tail) := List.dropWhile_cons_of_neg (by decide)
  simp only [readMembers, named, Option.bind_eq_bind, Option.bind_some, colon, skipBlanks_digits,
    readIndex_toDigits ends]
  by_cases fits : index < indexLimit
  · simp only [if_pos fits, Option.bind_some]
    cases skipBlanks tail with
    | nil => rfl
    | cons first more =>
        by_cases comma : first = ','
        · subst comma
          exact Option.map_eq_bind.symm
        · by_cases brace : first = '\x7d'
          · subst brace
            simp
          · simp [comma, brace]
  · simp only [if_neg fits, Option.bind_none]

theorem readMembers_entries {bound : Nat} {entries : List (String × Nat)} {chars : List Char}
    (some : entries ≠ []) (start : skipBlanks chars = entriesChars entries)
    (enough : entries.length ≤ bound) :
    readMembers bound chars =
      if ∀ entry ∈ entries, entry.2 < indexLimit then Option.some (entries, []) else none := by
  induction entries generalizing bound chars with
  | nil => exact absurd rfl some
  | cons entry later ih =>
      cases bound with
      | zero => cases enough
      | succ bound =>
          cases later with
          | nil =>
              rw [readMembers_entry start (by simp)]
              simp only [List.forall_mem_singleton]
              rfl
          | cons next others =>
              have resumed : skipBlanks ('\n' :: ' ' :: ' ' :: entriesChars (next :: others)) =
                  entriesChars (next :: others) := by cases others <;> rfl
              have further := ih (List.cons_ne_nil next others) resumed
                (Nat.le_of_succ_le_succ enough)
              have comma : skipBlanks (',' :: '\n' :: ' ' :: ' ' :: entriesChars (next :: others)) =
                  ',' :: '\n' :: ' ' :: ' ' :: entriesChars (next :: others) :=
                List.dropWhile_cons_of_neg (by decide)
              rw [readMembers_entry start (by simp), comma]
              simp only [further, List.forall_mem_cons (a := entry)]
              by_cases fits : entry.2 < indexLimit
              · simp only [fits, if_true, true_and, apply_ite (Option.map _), Option.map_some,
                  Option.map_none]
              · simp only [fits, false_and, if_false]

/-! ### Whole files -/

theorem intercalate_entries {first : String × Nat} (rest : List (String × Nat)) :
    [',', '\n', ' ', ' '].intercalate ((first :: rest).map entryChars) ++ ['\n', '\x7d'] =
      entriesChars (first :: rest) := by
  induction rest generalizing first with
  | nil => simp [entriesChars]
  | cons next others ih =>
      have shape : entriesChars (first :: next :: others) =
          entryChars first ++ ',' :: '\n' :: ' ' :: ' ' :: entriesChars (next :: others) := rfl
      rw [shape, ← ih, List.map_cons, List.map_cons, List.intercalate_cons_cons]
      simp

def line (entry : String × Nat) : String := stringText entry.1 ++ ": " ++ toString entry.2

theorem spreadMembers_eq (level : Nat) (entries : List (String × Nat)) :
    spreadMembers level (entries.map (fun (key, index) => (key, natural index))) =
      entries.map line := by
  induction entries with
  | nil => rfl
  | cons entry rest ih =>
      rw [List.map_cons, spreadMembers, ih]
      rfl

theorem line_toList (entry : String × Nat) : (line entry).toList = entryChars entry := by
  rw [line, stringText, Nat.toString_eq_ofList_toDigits]
  simp [entryChars]

theorem text_toList (mapping : SortedMap String Nat) :
    (text mapping).toList = '\x7b' ::
      match mapping.entries with
      | [] => ['\x7d']
      | first :: rest => '\n' :: ' ' :: ' ' :: entriesChars (first :: rest) := by
  rw [text, pretty, spread, spreadMembers_eq, block]
  cases mapping.entries with
  | nil => rfl
  | cons first rest =>
      have lines : String.toList ∘ line = entryChars := funext line_toList
      simp only
      rw [← intercalate_entries]
      simp [String.toList_intercalate, indentation, line_toList, lines]

/-- Every entry takes at least a character. -/
theorem length_le_entriesChars {first : String × Nat} (rest : List (String × Nat)) :
    (first :: rest).length ≤ (entriesChars (first :: rest)).length := by
  induction rest generalizing first with
  | nil => simp [entriesChars]
  | cons next others ih =>
      have later : (next :: others).length ≤ (entriesChars (next :: others)).length := ih
      simp only [entriesChars, List.length_append, List.length_cons] at later ⊢
      omega

/-- Every index of the mapping fits into the numbers of the file. -/
def Fits (mapping : SortedMap String Nat) : Prop := ∀ entry ∈ mapping.entries, entry.2 < indexLimit

instance (mapping : SortedMap String Nat) : Decidable (Fits mapping) :=
  inferInstanceAs (Decidable (∀ _ ∈ _, _))

theorem readObject_text (mapping : SortedMap String Nat) :
    readObject (text mapping).toList = if Fits mapping then some (mapping.entries, []) else none := by
  rw [text_toList]
  cases shape : mapping.entries with
  | nil =>
      have fits : Fits mapping := by simp [Fits, shape]
      rw [if_pos fits]
      rfl
  | cons first later =>
      have visible : skipBlanks (entriesChars (first :: later)) = entriesChars (first :: later) := by
        cases later <;> rfl
      have members := readMembers_entries (List.cons_ne_nil first later) visible
        (length_le_entriesChars later)
      have fits : Fits mapping ↔ ∀ entry ∈ first :: later, entry.2 < indexLimit := by
        rw [Fits, shape]
      rw [if_congr fits rfl rfl, ← members]
      cases later <;> rfl

theorem ofChars?_text (mapping : SortedMap String Nat) :
    ofChars? (text mapping).toList = if Fits mapping then some mapping else none := by
  rw [ofChars?, readObject_text]
  by_cases fits : Fits mapping
  · rw [if_pos fits, if_pos fits]
    exact congrArg some (SortedMap.ofList_entries mapping)
  · rw [if_neg fits, if_neg fits]
    rfl

theorem ofBytes?_text (mapping : SortedMap String Nat) :
    ofBytes? (text mapping).toUTF8.data.toList = if Fits mapping then some mapping else none := by
  have decoded : String.fromUTF8? (text mapping).toUTF8 = some (text mapping) :=
    dif_pos (text mapping).isValidUTF8
  rw [ofBytes?, Array.toArray_toList]
  rw [show (⟨(text mapping).toUTF8.data⟩ : ByteArray) = (text mapping).toUTF8 from rfl, decoded]
  exact ofChars?_text mapping

end Json.Mapping

/-! ### Interners -/

namespace SortedMap

variable {κ α : Type} [Ord κ] [Std.TransOrd κ] [Std.LawfulEqOrd κ]

/-- Entries with keys of their own are all there. -/
theorem mem_foldl_insert (front : SortedMap κ α) {list : List (κ × α)}
    (distinct : (list.map Prod.fst).Nodup) (new : ∀ entry ∈ list, front.find? entry.1 = none)
    {entry : κ × α} :
    entry ∈ (list.foldl (fun map entry => map.insert entry.1 entry.2) front).entries ↔
      entry ∈ front.entries ∨ entry ∈ list := by
  induction list generalizing front with
  | nil => simp
  | cons head rest ih =>
      rw [List.map_cons, List.nodup_cons] at distinct
      have differs : ∀ other ∈ rest, other.1 ≠ head.1 :=
        fun other member same => distinct.1 (same ▸ List.mem_map_of_mem member)
      have placed : ∀ other, other ∈ (front.insert head.1 head.2).entries ↔
          other ∈ front.entries ∨ other = head := by
        intro other
        rw [← find?_eq_some, ← find?_eq_some]
        by_cases same : other.1 = head.1
        · have absent := new head List.mem_cons_self
          rw [same, find?_insert_self, absent, Prod.ext_iff]
          simp [same, eq_comm]
        · rw [find?_insert_of_ne _ same, Prod.ext_iff]
          simp [same]
      rw [List.foldl_cons, ih (front.insert head.1 head.2) distinct.2, placed, List.mem_cons,
        or_assoc]
      intro other member
      rw [find?_insert_of_ne _ (differs other member)]
      exact new other (List.mem_cons_of_mem _ member)

theorem mem_ofList {list : List (κ × α)} (distinct : (list.map Prod.fst).Nodup)
    {entry : κ × α} : entry ∈ (ofList list).entries ↔ entry ∈ list := by
  rw [ofList, mem_foldl_insert empty distinct (fun _entry _member => rfl)]
  simp [empty]

end SortedMap

namespace Interner

variable {interner : Interner}

theorem Agrees.ofPairs_entries (agrees : interner.Agrees) :
    ofPairs (SortedMap.ofList interner.entries).entries = .ok interner := by
  have keys : (interner.entries.map Prod.fst).Nodup := by
    rw [entries_keys]
    exact agrees.distinct
  have apart := (SortedMap.ofList interner.entries).entries_nodup
  have listed : interner.entries.Nodup :=
    (List.pairwise_map.mp keys).imp (fun differs same => differs (congrArg Prod.fst same))
  exact ofPairs_eq_ok.mpr ⟨agrees,
    (List.perm_ext_iff_of_nodup listed apart).mpr (fun _entry => (SortedMap.mem_ofList keys).symm)⟩

end Interner

namespace StringIndex

variable {interner found : Interner}

theorem fileBytes_visible : (fileBytes interner).all isBlank = false := by
  obtain ⟨later, shape⟩ : ∃ later, (Json.Mapping.text (SortedMap.ofList interner.entries)).toList =
      ['\x7b'] ++ later := ⟨_, Json.Mapping.text_toList _⟩
  have text : Json.Mapping.text (SortedMap.ofList interner.entries) =
      String.ofList ['\x7b'] ++ String.ofList later := by
    rw [← String.ofList_append, ← shape, String.ofList_toList]
  have first : (String.ofList ['\x7b']).toByteArray.data.toList = [0x7B] := by decide
  rw [fileBytes, text, String.toUTF8_eq_toByteArray, String.toByteArray_append,
    ByteArray.data_append, Array.toList_append, first, List.singleton_append, List.all_cons]
  rfl

theorem fits_iff (agrees : interner.Agrees) :
    Json.Mapping.Fits (SortedMap.ofList interner.entries) ↔
      interner.size ≤ Json.Mapping.indexLimit := by
  have keys : (interner.entries.map Prod.fst).Nodup := by
    rw [Interner.entries_keys]
    exact agrees.distinct
  have listed : ∀ entry, entry ∈ (SortedMap.ofList interner.entries).entries ↔
      interner.byIndex[entry.2]? = some entry.1 := fun entry =>
    (SortedMap.mem_ofList keys).trans List.mem_zipIdx_iff_getElem?
  constructor
  · intro fits
    rcases Nat.eq_zero_or_pos interner.size with none | some
    · omega
    · have last : interner.size - 1 < interner.byIndex.length := Nat.sub_one_lt_of_lt some
      have bound := fits (interner.byIndex[interner.size - 1], interner.size - 1)
        ((listed _).mpr (List.getElem?_eq_getElem last))
      dsimp only at bound
      omega
  · intro small entry member
    obtain ⟨inside, _here⟩ := List.getElem?_eq_some_iff.mp ((listed entry).mp member)
    exact Nat.lt_of_lt_of_le inside small

/-- The file gives back the index with both its tables, unless that is too large for its numbers. -/
theorem parse_fileBytes (agrees : interner.Agrees) :
    parse (fileBytes interner) =
      if interner.size ≤ Json.Mapping.indexLimit then .ok interner else .error .unreadable := by
  rw [parse, if_neg (by rw [fileBytes_visible]; exact Bool.false_ne_true), fileBytes,
    Json.Mapping.ofBytes?_text]
  by_cases small : interner.size ≤ Json.Mapping.indexLimit
  · rw [if_pos ((fits_iff agrees).mpr small), if_pos small]
    exact agrees.ofPairs_entries
  · rw [if_neg (fun fits => small ((fits_iff agrees).mp fits)), if_neg small]

theorem parse_fileBytes_ok (agrees : interner.Agrees)
    (read : parse (fileBytes interner) = .ok found) : found = interner := by
  rw [parse_fileBytes agrees] at read
  split at read
  · exact (Except.ok.inj read).symm
  · cases read

end StringIndex

end BundleStore
