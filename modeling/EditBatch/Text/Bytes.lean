set_option autoImplicit false

/-!
# Texts in bytes

The bytes of a text in UTF-8, counted character by character.

## Main definitions

* `EditBatch.byteLength` — the bytes of a text.
* `EditBatch.byteOffset` — where a character starts.
* `EditBatch.splitAtByte?` — the cut at a byte, refused inside a character.
* `EditBatch.insertAtByte?`, `EditBatch.removeBytes?` — changes at bytes.

## Main results

* `EditBatch.splitAtByte?_byteOffset` — the byte offset of a character is a place to cut.
* `EditBatch.removeBytes?_byteOffset` — so a range of characters in order can be taken out.
-/

namespace EditBatch

/-- The number of bytes a text takes in UTF-8. -/
def byteLength : List Char → Nat
  | [] => 0
  | c :: rest => c.utf8Size + byteLength rest

@[simp] theorem byteLength_append (front back : List Char) :
    byteLength (front ++ back) = byteLength front + byteLength back := by
  induction front with
  | nil => simp [byteLength]
  | cons c front ih => simp [byteLength, ih, Nat.add_assoc]

/-- The byte at which the character with a given number starts, or the end of the text. -/
def byteOffset (text : List Char) (offset : Nat) : Nat := byteLength (text.take offset)

/-- Cuts a text at a byte. A byte beyond the text or inside a character is refused. -/
def splitAtByte? (text : List Char) (byte : Nat) : Option (List Char × List Char) :=
  if byte = 0 then some ([], text)
  else match text with
    | [] => none
    | c :: rest =>
      if c.utf8Size ≤ byte then
        (splitAtByte? rest (byte - c.utf8Size)).map fun (front, back) => (c :: front, back)
      else none

/-- The start of a character is a place to cut, and the cut leaves the characters before it in
front. -/
theorem splitAtByte?_byteOffset (text : List Char) (offset : Nat) :
    splitAtByte? text (byteOffset text offset) =
      some (text.take offset, text.drop offset) := by
  induction text generalizing offset with
  | nil => simp [byteOffset, byteLength, splitAtByte?]
  | cons c rest ih =>
    cases offset with
    | zero => simp [byteOffset, byteLength, splitAtByte?]
    | succ offset =>
      have hsize : byteOffset (c :: rest) (offset + 1) = c.utf8Size + byteOffset rest offset := by
        simp [byteOffset, byteLength]
      have hpos : 0 < c.utf8Size := c.utf8Size_pos
      rw [hsize, splitAtByte?]
      simp [ih]
      omega

/-- Puts characters in at a byte. -/
def insertAtByte? (text : List Char) (byte : Nat) (added : List Char) : Option (List Char) :=
  (splitAtByte? text byte).map fun (front, back) => front ++ added ++ back

/-- Takes out the characters between two bytes. A range whose start lies after its end is
refused. -/
def removeBytes? (text : List Char) (start stop : Nat) : Option (List Char) :=
  if start ≤ stop then do
    let (front, _) ← splitAtByte? text start
    let (_, back) ← splitAtByte? text stop
    return front ++ back
  else none

/-- A later character does not start at an earlier byte. -/
theorem byteOffset_mono (text : List Char) {start stop : Nat} (h : start ≤ stop) :
    byteOffset text start ≤ byteOffset text stop := by
  have hsplit : text.take stop = text.take start ++ (text.drop start).take (stop - start) := by
    rw [← List.take_add]
    congr 1
    omega
  simp [byteOffset, hsplit]

theorem insertAtByte?_byteOffset (text added : List Char) (offset : Nat) :
    insertAtByte? text (byteOffset text offset) added =
      some (text.take offset ++ added ++ text.drop offset) := by
  simp [insertAtByte?, splitAtByte?_byteOffset]

theorem removeBytes?_byteOffset (text : List Char) {start stop : Nat} (h : start ≤ stop) :
    removeBytes? text (byteOffset text start) (byteOffset text stop) =
      some (text.take start ++ text.drop stop) := by
  simp [removeBytes?, byteOffset_mono text h, splitAtByte?_byteOffset]

end EditBatch
