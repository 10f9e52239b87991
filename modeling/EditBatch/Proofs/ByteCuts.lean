import EditBatch.Proofs.Indistinguishable
set_option autoImplicit false

/-!
# Changes are exact, down to the bytes

A replacement that lies inside a document takes out the characters it names and puts its text in
their place; any other is refused and changes nothing. A flat text makes the change at bytes of its
UTF-8 form. Each of these bytes starts a character or is the end of the text, also the one that is
looked up again when characters have been taken out, so that no step of the change is refused.

## Main definitions

* `EditBatch.FlatText.replaceAtBytes?` — a change as it is made at bytes, with its steps refused
  where they would cut a character in two.
* `EditBatch.FlatText.CutsBetweenCharacters` — changes that cut no character in two.
* `EditBatch.Document.ReplacesExactly` — what it means that a document replaces characters exactly.

## Main results

* `EditBatch.isSome_insertAtByte?_iff`, `EditBatch.isSome_removeBytes?_iff` — bytes at which a text
  can be changed are those that are valid places of the string.
* `EditBatch.Document.replace_exact` — the changes of both stores are exact, and those of a flat
  text cut between characters.
-/

namespace EditBatch

/-! ## Cuts -/

/-- The bytes of a string are those of its characters. -/
lemma utf8ByteSize_eq_byteLength (text : String) : text.utf8ByteSize = byteLength text.toList := by
  obtain ⟨chars, rfl⟩ : ∃ chars, String.ofList chars = text := ⟨text.toList, String.ofList_toList⟩
  rw [String.toList_ofList]
  induction chars with
  | nil => rfl
  | cons c rest ih =>
    have hcons : String.ofList (c :: rest) = String.singleton c ++ String.ofList rest := by
      rw [← String.toList_inj]
      simp
    rw [hcons, String.utf8ByteSize_append, String.utf8ByteSize_singleton, ih, byteLength]

/-- A cut leaves all characters, and in front as many bytes as it was made at. -/
lemma append_eq_of_splitAtByte? {text front behind : List Char} {byte : ℕ}
    (h : splitAtByte? text byte = some (front, behind)) :
    front ++ behind = text ∧ byteLength front = byte := by
  induction text generalizing byte front with
  | nil =>
    rw [splitAtByte?] at h
    split_ifs at h with hzero
    cases h
    exact ⟨rfl, hzero.symm⟩
  | cons c rest ih =>
    rw [splitAtByte?] at h
    split_ifs at h with hzero hfits
    · cases h
      exact ⟨rfl, hzero.symm⟩
    · obtain ⟨⟨before, after⟩, hrest, heq⟩ := Option.map_eq_some_iff.mp h
      cases heq
      obtain ⟨happend, hlength⟩ := ih hrest
      refine ⟨by rw [List.cons_append, happend], ?_⟩
      rw [byteLength, hlength]
      omega

/-- **A text can be cut at the valid places of the string**, and at no other bytes. -/
lemma isSome_splitAtByte?_iff (text : String) (byte : ℕ) :
    (splitAtByte? text.toList byte).isSome ↔ (⟨byte⟩ : String.Pos.Raw).IsValid text := by
  rw [String.Pos.Raw.isValid_iff_exists_append, Option.isSome_iff_exists]
  constructor
  · rintro ⟨⟨front, behind⟩, hcut⟩
    obtain ⟨happend, hlength⟩ := append_eq_of_splitAtByte? hcut
    refine ⟨String.ofList front, String.ofList behind, ?_, ?_⟩
    · rw [← String.ofList_append, happend, String.ofList_toList]
    · rw [String.rawEndPos, utf8ByteSize_eq_byteLength, String.toList_ofList, hlength]
  · rintro ⟨front, behind, rfl, hbyte⟩
    have hoffset : byte = byteOffset (front ++ behind).toList front.toList.length := by
      rw [byteOffset, String.toList_append, List.take_left, ← utf8ByteSize_eq_byteLength]
      exact congrArg String.Pos.Raw.byteIdx hbyte
    exact ⟨_, hoffset ▸ splitAtByte?_byteOffset _ _⟩

/-- Characters can be put in at the valid places of a string. -/
lemma isSome_insertAtByte?_iff (text : String) (byte : ℕ) (added : List Char) :
    (insertAtByte? text.toList byte added).isSome ↔ (⟨byte⟩ : String.Pos.Raw).IsValid text := by
  rw [insertAtByte?, Option.isSome_map, isSome_splitAtByte?_iff]

/-- Characters can be taken out between two valid places of a string in order. -/
lemma isSome_removeBytes?_iff (text : String) (start stop : ℕ) :
    (removeBytes? text.toList start stop).isSome ↔
      start ≤ stop ∧ (⟨start⟩ : String.Pos.Raw).IsValid text ∧
        (⟨stop⟩ : String.Pos.Raw).IsValid text := by
  rw [← isSome_splitAtByte?_iff, ← isSome_splitAtByte?_iff, removeBytes?]
  split_ifs with horder
  · rcases splitAtByte? text.toList start with _ | ⟨front, _⟩
    · simp
    · rcases splitAtByte? text.toList stop with _ | ⟨_, behind⟩ <;> simp [horder]
  · simp [horder]

namespace FlatText

/-! ## Changes at bytes -/

/-- The characters of a flat text without a range, which is taken out at bytes: refused if a byte
lies inside a character or beyond the text. An empty range is left alone. -/
def shortenAtBytes? (document : FlatText) (offset count : ℕ) : Option (List Char) :=
  if 0 < count then
    removeBytes? document.chars (byteOffset document.chars offset)
      (byteOffset document.chars (offset + count))
  else some document.chars

/-- The characters of a flat text after a change, which is made at bytes. The byte at which the text
is put in is looked up in the characters that are left. -/
def replaceAtBytes? (document : FlatText) (offset count : ℕ) (text : String) :
    Option (List Char) := do
  let shortened ← document.shortenAtBytes? offset count
  if text.isEmpty then return shortened
  else insertAtByte? shortened (byteOffset shortened offset) text.toList

/-- Whether a change cuts no character in two, and is made as it is at bytes. -/
structure CutsBetweenCharacters (document : FlatText) (offset count : ℕ) (text : String) :
    Prop where
  /-- What is taken out starts between two characters, or at an end of the text. -/
  start : (⟨byteOffset document.chars offset⟩ : String.Pos.Raw).IsValid document.text
  /-- So it stops. -/
  stop : (⟨byteOffset document.chars (offset + count)⟩ : String.Pos.Raw).IsValid document.text
  /-- It does not stop in front of its start. -/
  order : byteOffset document.chars offset ≤ byteOffset document.chars (offset + count)
  /-- The text is put in between two characters of those that are left. -/
  place : ∀ shortened, document.remove? offset (offset + count) = some shortened →
    (⟨byteOffset shortened.chars offset⟩ : String.Pos.Raw).IsValid shortened.text
  /-- No step is refused, and what is left in the end is the text after the change. -/
  made : ∀ changed, Document.replace document offset count text = .ok changed →
    document.replaceAtBytes? offset count text = some changed.chars

variable (document : FlatText) {offset count : ℕ}

lemma shortenAtBytes?_eq (offset count : ℕ) :
    document.shortenAtBytes? offset count =
      some (document.chars.take offset ++ document.chars.drop (offset + count)) := by
  rw [shortenAtBytes?]
  split_ifs with hcount
  · exact removeBytes?_byteOffset document.chars (Nat.le_add_right offset count)
  · obtain rfl : count = 0 := by omega
    rw [Nat.add_zero, List.take_append_drop]

/-- Inside a text no step of a change is refused. -/
lemma replaceAtBytes?_eq (text : String) (inside : offset + count ≤ document.chars.length) :
    document.replaceAtBytes? offset count text = some (document.chars.take offset ++ text.toList ++
      document.chars.drop (offset + count)) := by
  have hlength : (document.chars.take offset).length = offset :=
    List.length_take_of_le (by omega)
  rw [replaceAtBytes?, shortenAtBytes?_eq, Option.bind_eq_bind, Option.bind_some]
  split_ifs with htext
  · rw [String.isEmpty_iff.mp htext, String.toList_empty, List.append_nil]
    rfl
  · rw [insertAtByte?_byteOffset, List.take_left' hlength, List.drop_left' hlength]

/-- **A change of a flat text cuts between characters**, wherever it is asked for. -/
lemma cutsBetweenCharacters (offset count : ℕ) (text : String) :
    document.CutsBetweenCharacters offset count text := by
  have horder : offset ≤ offset + count := Nat.le_add_right offset count
  obtain ⟨order, start, stop⟩ := (isSome_removeBytes?_iff document.text _ _).mp
    (Option.isSome_iff_exists.mpr ⟨_, removeBytes?_byteOffset document.chars horder⟩)
  refine ⟨start, stop, order, fun shortened _ => ?_, fun changed h => ?_⟩
  · exact (isSome_insertAtByte?_iff shortened.text _ []).mp
      (Option.isSome_iff_exists.mpr ⟨_, insertAtByte?_byteOffset shortened.chars [] offset⟩)
  · obtain ⟨inside, hchars⟩ := Document.chars_of_replace h
    exact (document.replaceAtBytes?_eq text inside).trans (congrArg some hchars.symm)

end FlatText

namespace Document

/-! ## Documents -/

/-- What it means that a document replaces characters exactly. -/
structure ReplacesExactly {D : Type} [Document D] (document : D) : Prop where
  /-- The length of the document is the number of its characters. -/
  length_content : length document = (content document).length
  /-- A change is made exactly if its range lies inside the document. The sum is that of natural
  numbers: a range that would end beyond the greatest offset is not cut short. -/
  made_iff : ∀ offset count text,
    (∃ changed, replace document offset count text = .ok changed) ↔
      offset + count ≤ length document
  /-- The characters of the range give way to the text, and all others stay. -/
  spliced : ∀ offset count text changed, replace document offset count text = .ok changed →
    chars changed = (chars document).take offset ++ text.toList ++
      (chars document).drop (offset + count)
  /-- Any other change is refused, with its range and the length for a reason, and leaves the
  document as it is. -/
  refused : ∀ offset count text, length document < offset + count →
    perform document (.replace offset count text) =
      (document, .error (.invalidOffset offset count (length document)))

/-- Every store whose operations act on the characters as named replaces them exactly. -/
lemma replacesExactly {D : Type} [Document D] [LawfulDocument D] (document : D) :
    ReplacesExactly document where
  length_content := LawfulDocument.length_eq document
  made_iff offset count text := by
    refine ⟨fun ⟨changed, hchanged⟩ => (chars_of_replace hchanged).1, fun inside => ?_⟩
    obtain ⟨changed, hchanged, -⟩ := exists_replace_eq_ok document offset count text inside
    exact ⟨changed, hchanged⟩
  spliced offset count text changed h := (chars_of_replace h).2
  refused offset count text hbeyond := by
    simp only [perform, replace_eq_error document text hbeyond]

/-- **Changes are exact.** A change of a flat text or of a rope is made if and only if the range
lies inside the document; then the characters of the range give way to the text and all others stay,
and otherwise the change is refused and the document stays as it is. A flat text is changed at
bytes, each of which starts a character or ends the text, so that it is never refused to cut there.

**Proof sketch.** Both stores insert and remove characters as named (`replacesExactly`). The byte
offsets of characters are places at which a text can be changed (`insertAtByte?_byteOffset`,
`removeBytes?_byteOffset`), and these are the valid places of the string
(`isSome_splitAtByte?_iff`). -/
theorem replace_exact (flat : FlatText) (rope : Rope) :
    ReplacesExactly flat ∧ ReplacesExactly rope ∧
      ∀ offset count text, flat.CutsBetweenCharacters offset count text :=
  ⟨replacesExactly flat, replacesExactly rope, flat.cutsBetweenCharacters⟩

example : let document : FlatText := ⟨"aéb€"⟩
    byteOffset document.chars 2 = 3 ∧ splitAtByte? document.chars 2 = none ∧
      document.replaceAtBytes? 1 2 "ü" = some "aü€".toList := by decide

end Document

end EditBatch
