import EditBatch.Proofs.Provenance
import Mathlib.Data.List.DropRight
set_option autoImplicit false

/-!
# Edits by anchors instead of offsets

An anchored text shows between its characters an anchor for each offset of the unedited
document. Edits of it need no arithmetic: a text is put in at an anchor, and a deletion removes
the characters between two anchors. Anchors are never moved or removed. Applying a batch comes to
the same.

## Main definitions

* `EditBatch.Token`, `EditBatch.Anchored` — characters and anchors.
* `EditBatch.Anchored.insert`, `EditBatch.Anchored.delete` — the edits.
* `EditBatch.Anchored.text`, `EditBatch.Anchored.place` — the characters, and how many of them
  stand in front of an anchor.

## Main results

* `EditBatch.Anchored.insert_ofLayout`, `EditBatch.Anchored.delete_ofLayout` — an anchored text is
  edited as its layout is.
* `EditBatch.Batch.apply_anchored` — text, offset map and caret of a batch are those of the
  anchored text.
-/

namespace EditBatch

open Document

/-- A character of an edited text, or the anchor of an offset of the unedited text. -/
inductive Token where
  | char (c : Char)
  | anchor (offset : ℕ)
  deriving DecidableEq, Repr

/-- Whether a token is an anchor. -/
def Token.isAnchor : Token → Bool
  | char _ => false
  | anchor _ => true

/-- The character of a token that is none. -/
def Token.char? : Token → Option Char
  | char c => some c
  | anchor _ => none

/-- A text with anchors between its characters. -/
abbrev Anchored := List Token

namespace Anchored

/-- An unedited text: an anchor in front, and one behind each character. -/
def ofText (text : List Char) : Anchored :=
  .anchor 0 :: (text.zipIdx 1).flatMap fun (c, offset) => [.char c, .anchor offset]

/-- The characters. -/
def text (tokens : Anchored) : List Char := tokens.filterMap Token.char?

/-- The tokens in front of an anchor. -/
def before (tokens : Anchored) (offset : ℕ) : Anchored := tokens.takeWhile (· ≠ .anchor offset)

/-- An anchor and the tokens behind it. -/
def since (tokens : Anchored) (offset : ℕ) : Anchored := tokens.dropWhile (· ≠ .anchor offset)

/-- The number of characters in front of an anchor. -/
def place (tokens : Anchored) (offset : ℕ) : ℕ := (text (tokens.before offset)).length

/-- Puts a text right behind the last character in front of an anchor, and so in front of all
anchors that stand next to it. -/
def insert (tokens : Anchored) (offset : ℕ) (added : List Char) : Anchored :=
  (tokens.before offset).rdropWhile Token.isAnchor ++ added.map .char ++
    (tokens.before offset).rtakeWhile Token.isAnchor ++ tokens.since offset

/-- Removes the characters between two anchors. All anchors stay. -/
def delete (tokens : Anchored) (start stop : ℕ) : Anchored :=
  tokens.before start ++ ((tokens.since start).before stop).filter Token.isAnchor ++
    (tokens.since start).since stop

/-- The anchored text after an edit. -/
def edit (tokens : Anchored) : Edit → Anchored
  | .insertion offset added => tokens.insert offset.toNat added.toList
  | .deletion start stop => tokens.delete start.toNat stop.toNat

@[simp] lemma text_append (xs ys : Anchored) : text (xs ++ ys) = text xs ++ text ys :=
  List.filterMap_append

@[simp] lemma text_anchor (offset : ℕ) (tokens : Anchored) :
    text (.anchor offset :: tokens) = text tokens := rfl

@[simp] lemma text_map_char (chars : List Char) : text (chars.map .char) = chars := by
  induction chars with
  | nil => rfl
  | cons c chars ih => rw [List.map_cons, text, List.filterMap_cons, ← text, ih]; rfl

section Cut

variable {front : Anchored} {offset : ℕ} (h : ∀ token ∈ front, token ≠ .anchor offset)
  (behind : Anchored)

include h

/-- The tokens in front of an anchor that comes only once. -/
lemma before_append : before (front ++ .anchor offset :: behind) offset = front := by
  rw [before, List.takeWhile_append_of_pos (by simpa using h), List.takeWhile_cons_of_neg (by simp),
    List.append_nil]

/-- The tokens from an anchor on that comes only once. -/
lemma since_append :
    since (front ++ .anchor offset :: behind) offset = .anchor offset :: behind := by
  rw [since, List.dropWhile_append_of_pos (by simpa using h), List.dropWhile_cons_of_neg (by simp)]

end Cut

/-! ## Anchored texts of layouts -/

/-- The tokens of a layout in front of an anchor. -/
def upTo (layout : Layout Char) : ℕ → Anchored
  | 0 => (layout 0).map .char
  | offset + 1 => upTo layout offset ++ .anchor offset :: (layout (offset + 1)).map .char

/-- The tokens of a layout up to the anchor at the end of the document. -/
def ofLayout (layout : Layout Char) (size : ℕ) : Anchored := upTo layout size ++ [.anchor size]

variable (layout : Layout Char)

@[simp] lemma text_upTo (offset : ℕ) : text (upTo layout offset) = layout.front offset := by
  induction offset with
  | zero => simp [upTo, Layout.front]
  | succ offset ih => simp [upTo, Layout.front, ih]

@[simp] lemma text_ofLayout (size : ℕ) : text (ofLayout layout size) = layout.front size := by
  rw [ofLayout, text_append, text_upTo, text_anchor]
  exact List.append_nil _

/-- Only earlier anchors stand in front of an anchor. -/
lemma ne_of_mem_upTo {offset other : ℕ} (h : offset ≤ other) :
    ∀ token ∈ upTo layout offset, token ≠ .anchor other := by
  induction offset with
  | zero =>
    intro token htoken heq
    simp [upTo, heq] at htoken
  | succ offset ih =>
    intro token htoken heq
    rw [upTo, List.mem_append, List.mem_cons] at htoken
    rcases htoken with hfront | hanchor | hchar
    · exact ih (by omega) token hfront heq
    · rw [heq, Token.anchor.injEq] at hanchor
      omega
    · simp [heq] at hchar

/-- What stands in front of an anchor depends on the gaps up to it. -/
lemma upTo_congr {other : Layout Char} {offset : ℕ}
    (h : ∀ gap ≤ offset, layout gap = other gap) : upTo layout offset = upTo other offset := by
  induction offset with
  | zero => rw [upTo, upTo, h 0 le_rfl]
  | succ offset ih =>
    rw [upTo, upTo, ih fun gap hgap => h gap (by omega), h (offset + 1) le_rfl]

lemma ofLayout_succ (size : ℕ) :
    ofLayout layout (size + 1) =
      ofLayout layout size ++ (layout (size + 1)).map .char ++ [.anchor (size + 1)] := by
  simp [ofLayout, upTo]

/-- What stands behind an anchor depends on the gaps behind it. -/
lemma exists_ofLayout_eq {offset size : ℕ} (h : offset ≤ size) :
    ∃ behind, ∀ other : Layout Char, (∀ gap, offset < gap → layout gap = other gap) →
      ofLayout other size = upTo other offset ++ .anchor offset :: behind := by
  induction size, h using Nat.le_induction with
  | base => exact ⟨[], fun other _ => rfl⟩
  | succ size hle ih =>
    obtain ⟨behind, hbehind⟩ := ih
    refine ⟨behind ++ (layout (size + 1)).map .char ++ [.anchor (size + 1)],
      fun other hother => ?_⟩
    rw [ofLayout_succ, hbehind other hother, hother (size + 1) (by omega)]
    simp

/-- **The place of an anchor** is that of its offset in the layout. -/
lemma place_ofLayout {offset size : ℕ} (h : offset ≤ size) :
    place (ofLayout layout size) offset = layout.place offset := by
  obtain ⟨behind, hbehind⟩ := exists_ofLayout_eq layout h
  rw [hbehind layout fun _ _ => rfl, place,
    before_append (ne_of_mem_upTo layout le_rfl), text_upTo, Layout.place]

/-! ## Edits of anchored texts -/

/-- Tokens that end in characters do not end in anchors. -/
lemma rtakeWhile_append_chars (tokens : Anchored) {chars : List Char} (h : chars ≠ []) :
    (tokens ++ chars.map Token.char).rtakeWhile Token.isAnchor = [] := by
  obtain ⟨init, last, rfl⟩ := (List.eq_nil_or_concat' chars).resolve_left h
  rw [List.map_append, ← List.append_assoc]
  exact List.rtakeWhile_concat_neg _ _ _ (by simp [Token.isAnchor])

/-- Without anchors at the end, there are none to drop. -/
lemma rdropWhile_eq_self {tokens : Anchored} (h : tokens.rtakeWhile Token.isAnchor = []) :
    tokens.rdropWhile Token.isAnchor = tokens := by
  have := List.rdropWhile_append_rtakeWhile (p := Token.isAnchor) (l := tokens)
  rwa [h, List.append_nil] at this

/-- The tokens in front of an anchor after an insertion at it.

**Proof sketch.** Induction on the offset. An empty gap adds one anchor to those at the end, and
has the seat of the gap before. At a gap with characters no anchors are at the end, and the gap is
the seat. -/
lemma upTo_insert (offset : ℕ) (added : List Char) :
    upTo (layout.insert offset added) offset =
      (upTo layout offset).rdropWhile Token.isAnchor ++ added.map .char ++
        (upTo layout offset).rtakeWhile Token.isAnchor := by
  induction offset with
  | zero =>
    have hnone : (upTo layout 0).rtakeWhile Token.isAnchor = [] := by
      rw [upTo, List.rtakeWhile_eq_nil_iff]
      intro hne
      simp [Token.isAnchor]
    rw [rdropWhile_eq_self hnone, hnone]
    simp [upTo, Layout.insert, Layout.seat]
  | succ offset ih =>
    rcases hgap : layout (offset + 1) with _ | ⟨c, rest⟩
    · have hseat : layout.seat (offset + 1) = layout.seat offset := by
        simp [Layout.seat, hgap]
      have hinsert : layout.insert (offset + 1) added = layout.insert offset added := by
        funext gap
        simp only [Layout.insert, hseat]
      have hle := layout.seat_le offset
      have hempty : layout.insert offset added (offset + 1) = [] := by
        rw [Layout.insert, if_neg (by omega), hgap]
      have hfront : upTo layout (offset + 1) = upTo layout offset ++ [.anchor offset] := by
        rw [upTo, hgap, List.map_nil]
      rw [hinsert, upTo, ih, hempty, hfront,
        List.rdropWhile_concat_pos _ _ _ (by simp [Token.isAnchor]),
        List.rtakeWhile_concat_pos _ _ _ (by simp [Token.isAnchor])]
      simp
    · have hseat : layout.seat (offset + 1) = offset + 1 := by simp [Layout.seat, hgap]
      have hnone : (upTo layout (offset + 1)).rtakeWhile Token.isAnchor = [] := by
        rw [upTo, hgap, List.append_cons]
        exact rtakeWhile_append_chars _ (by simp)
      have hfront : upTo (layout.insert (offset + 1) added) offset = upTo layout offset := by
        apply upTo_congr
        intro gap hle
        rw [Layout.insert, if_neg (by omega)]
      rw [rdropWhile_eq_self hnone, hnone, upTo, hfront, Layout.insert, if_pos hseat.symm, upTo]
      simp

/-- **An insertion** into an anchored text is one into its layout. -/
lemma insert_ofLayout {offset size : ℕ} (h : offset ≤ size) (added : List Char) :
    insert (ofLayout layout size) offset added =
      ofLayout (layout.insert offset added) size := by
  obtain ⟨behind, hbehind⟩ := exists_ofLayout_eq layout h
  have hkept : ∀ gap, offset < gap → layout gap = layout.insert offset added gap := by
    intro gap hgap
    have hle := layout.seat_le offset
    rw [Layout.insert, if_neg (by omega)]
  rw [insert, hbehind layout fun _ _ => rfl, before_append (ne_of_mem_upTo layout le_rfl),
    since_append (ne_of_mem_upTo layout le_rfl), hbehind _ hkept, upTo_insert]

/-- Inside a range, what stands in front of an anchor goes on from what stands in front of the
range, starts there with the anchor of the range, and keeps only anchors if the range is
emptied. -/
lemma exists_upTo_eq {start stop offset : ℕ} (hstart : start ≤ offset) (hstop : offset ≤ stop) :
    ∃ inside, upTo layout offset = upTo layout start ++ inside ∧
      (∃ behind, inside ++ [.anchor offset] = .anchor start :: behind) ∧
      upTo (layout.delete start stop) offset =
        upTo layout start ++ inside.filter Token.isAnchor := by
  induction offset, hstart using Nat.le_induction with
  | base =>
    refine ⟨[], by simp, ⟨[], rfl⟩, ?_⟩
    rw [List.filter_nil, List.append_nil]
    apply upTo_congr
    intro gap hgap
    rw [Layout.delete, if_neg (by omega)]
  | succ offset hle ih =>
    obtain ⟨inside, hinside, ⟨behind, hbehind⟩, hdelete⟩ := ih (by omega)
    have hempty : layout.delete start stop (offset + 1) = [] := by
      rw [Layout.delete, if_pos (by omega)]
    refine ⟨inside ++ .anchor offset :: (layout (offset + 1)).map .char, ?_, ?_, ?_⟩
    · rw [upTo, hinside, List.append_assoc]
    · refine ⟨behind ++ (layout (offset + 1)).map .char ++ [.anchor (offset + 1)], ?_⟩
      rw [List.append_cons inside, hbehind]
      simp
    · have hchars : ((layout (offset + 1)).map Token.char).filter Token.isAnchor = [] := by
        simp [List.filter_eq_nil_iff, Token.isAnchor]
      rw [upTo, hdelete, hempty, List.filter_append, List.filter_cons_of_pos (by rfl), hchars]
      simp

/-- **A deletion** from an anchored text is one from its layout. -/
lemma delete_ofLayout {start stop size : ℕ} (hrange : start ≤ stop) (hsize : stop ≤ size) :
    delete (ofLayout layout size) start stop = ofLayout (layout.delete start stop) size := by
  obtain ⟨behind, hbehind⟩ := exists_ofLayout_eq layout hsize
  obtain ⟨inside, hinside, ⟨rest, hrest⟩, hdelete⟩ := exists_upTo_eq layout hrange le_rfl
  have hkept : ∀ gap, stop < gap → layout gap = layout.delete start stop gap := by
    intro gap hgap
    rw [Layout.delete, if_neg (by omega)]
  have htokens : ofLayout layout size = upTo layout start ++ .anchor start :: (rest ++ behind) := by
    rw [hbehind layout fun _ _ => rfl, hinside, List.append_assoc, ← List.cons_append, ← hrest]
    simp
  have hsince : since (ofLayout layout size) start = inside ++ .anchor stop :: behind := by
    rw [htokens, since_append (ne_of_mem_upTo layout le_rfl), ← List.cons_append, ← hrest]
    simp
  have hnone : ∀ token ∈ inside, token ≠ .anchor stop := by
    intro token htoken
    apply ne_of_mem_upTo layout le_rfl token
    rw [hinside]
    exact List.mem_append_right _ htoken
  rw [delete, hsince, before_append hnone, since_append hnone, htokens,
    before_append (ne_of_mem_upTo layout le_rfl), hbehind _ hkept, hdelete]

/-- The unedited anchored text is that of its characters, each in its own gap. -/
lemma ofText_eq (text : List Char) {layout : Layout Char} (hzero : layout 0 = [])
    (hsucc : ∀ offset (h : offset < text.length), layout (offset + 1) = [text[offset]]) :
    ofText text = ofLayout layout text.length := by
  induction text using List.reverseRecOn with
  | nil => simp [ofText, ofLayout, upTo, hzero]
  | append_singleton text c ih =>
    have hlast : layout (text.length + 1) = [c] := by
      rw [hsucc text.length (by simp)]
      simp
    have hinit := ih fun offset h => by
      rw [hsucc offset (by simp; omega), List.getElem_append_left h]
    rw [List.length_append, List.length_singleton, ofLayout_succ, ← hinit, hlast]
    simp [ofText, List.zipIdx_append, Nat.add_comm]

end Anchored

namespace Batch

variable (batch : Batch)

/-- The character of an origin, in a document with a given text. -/
def read (text : List Char) (origin : Origin) : Char := (batch.source? text origin).getD default

/-- Characters that are looked up are read. -/
lemma map_read {text : List Char} {origins : List Origin} {chars : List Char}
    (h : chars.map some = origins.map (batch.source? text)) :
    chars = origins.map (batch.read text) := by
  have hread := congrArg (List.map fun source => source.getD default) h
  rw [List.map_map, List.map_map] at hread
  calc chars = chars.map ((fun source => source.getD default) ∘ some) := (List.map_id' chars).symm
    _ = origins.map (batch.read text) := hread

/-- The anchored text just before an edit. -/
def anchored (text : List Char) (number : ℕ) : Anchored :=
  (batch.first number).edits.foldl Anchored.edit (Anchored.ofText text)

/-- **The anchored text follows the layout** of the batch. -/
lemma anchored_eq (text : List Char) (ordered : ∀ edit ∈ batch.edits, edit.Ordered)
    (within : ∀ edit ∈ batch.edits, edit.Within text.length) {number : ℕ}
    (hnumber : number ≤ batch.edits.length) :
    batch.anchored text number =
      Anchored.ofLayout ((batch.layout number).map (batch.read text)) text.length := by
  induction number with
  | zero =>
    apply Anchored.ofText_eq text (by rfl)
    intro offset h
    simp [layout, Layout.map, Layout.unedited, read, source?, h]
  | succ number ih =>
    obtain ⟨edit, h⟩ := batch.exists_edit hnumber
    have horder := ordered edit (List.mem_of_getElem? h)
    have hwithin := within edit (List.mem_of_getElem? h)
    have hlast : batch.anchored text (number + 1) = (batch.anchored text number).edit edit := by
      rw [anchored, first_succ batch h, List.foldl_append]
      rfl
    rw [hlast, ih (by omega), layout_succ batch h]
    cases edit with
    | insertion place added =>
      have hplace : place.toNat ≤ text.length := hwithin
      have hread : added.toList = (Origin.ofText number added.length).map (batch.read text) :=
        batch.map_read (batch.map_source?_ofText text h).symm
      rw [Anchored.edit, Anchored.insert_ofLayout _ hplace, hread, Layout.edit, Layout.insert_map]
    | deletion start stop =>
      have hrange : start.toNat ≤ stop.toNat := UInt64.le_iff_toNat_le.mp horder
      have hstop : stop.toNat ≤ text.length := hwithin
      rw [Anchored.edit, Anchored.delete_ofLayout _ hrange hstop, Layout.edit, Layout.delete_map]

variable {D : Type} [Document D] [LawfulDocument D]

/-- **A batch does to a document what its edits do to the anchored text**, if they lie inside the
document and all inserted characters have room: it is made, the document shows the characters of
the anchored text, the offset map takes each offset to the place of its anchor, after every edit,
and the caret is at the anchor at which the last edit starts.

**Proof sketch.** Document, offset map and caret follow the layout of the batch
(`exists_apply`, `toNat_apply_before`, `toNat_caret_before`), and so does the anchored text
(`anchored_eq`). -/
theorem apply_anchored (document : D) (ordered : ∀ edit ∈ batch.edits, edit.Ordered)
    (within : ∀ edit ∈ batch.edits, edit.Within (length document))
    (room : length document + insertedLength batch.edits ≤ Offset.greatest.toNat) :
    ∃ final caret, batch.apply document = (final, .ok caret) ∧
      chars final = (batch.anchored (chars document) batch.edits.length).text ∧
      caret.map UInt64.toNat = batch.edits.getLast?.map (fun edit =>
        (batch.anchored (chars document) batch.edits.length).place edit.start.toNat) ∧
      ∀ number ≤ batch.edits.length, ∀ offset : Offset, offset.toNat ≤ length document →
        ((batch.before number).map.apply offset).toNat =
          (batch.anchored (chars document) number).place offset.toNat := by
  have hfits : ∀ edit ∈ batch.edits, edit.Fits (insertedLength batch.edits) :=
    fun edit hmem => (within edit hmem).fits (ordered edit hmem) room
  obtain ⟨final, happly, htext, hlayout⟩ := batch.exists_apply document ordered within room
  rw [hlayout] at htext
  rw [LawfulDocument.length_eq] at within htext
  have hanchored : ∀ number ≤ batch.edits.length, batch.anchored (chars document) number =
      Anchored.ofLayout ((batch.layout number).map (batch.read (chars document)))
        (chars document).length :=
    fun number hnumber => batch.anchored_eq (chars document) ordered within hnumber
  refine ⟨final, _, happly, ?_, ?_, ?_⟩
  · rw [hanchored _ le_rfl, Anchored.text_ofLayout, Layout.front_map]
    exact batch.map_read htext
  · rcases hlast : batch.edits.getLast? with _ | edit
    · simp [List.getLast?_eq_none_iff.mp hlast]
    · obtain ⟨front, hedits⟩ := List.getLast?_eq_some_iff.mp hlast
      have hlength : batch.edits.length = front.length + 1 := by simp [hedits]
      have hedit : batch.edits[front.length]? = some edit := by simp [hedits]
      have hstart := (within edit (List.mem_of_getElem? hedit)).start_le
        (ordered edit (List.mem_of_getElem? hedit))
      rw [hanchored _ le_rfl, Option.map_some, Anchored.place_ofLayout _ hstart, Layout.place_map,
        hlength, batch.toNat_caret_before hfits hedit]
  · intro number hnumber offset hoffset
    rw [LawfulDocument.length_eq] at hoffset room
    rw [hanchored number hnumber, Anchored.place_ofLayout _ hoffset,
      Layout.place_map, batch.toNat_apply_before hfits hnumber offset (by omega)]

/-- A text inside a range that is then removed, and another at an anchor that lay in it. -/
theorem apply_anchored_overlapping :
    let batch : Batch := ⟨[.insertion 2 "XY", .deletion 1 4, .insertion 3 "!"]⟩
    let document : FlatText := ⟨"abcdef"⟩
    (∀ edit ∈ batch.edits, edit.Ordered) ∧
    (∀ edit ∈ batch.edits, edit.Within (length document)) ∧
    length document + insertedLength batch.edits ≤ Offset.greatest.toNat ∧
    ∃ final caret, batch.apply document = (final, .ok caret) ∧
      chars final = ['a', '!', 'e', 'f'] ∧ caret.map UInt64.toNat = some 2 := by
  intro batch document
  have ordered : ∀ edit ∈ batch.edits, edit.Ordered := by decide
  have within : ∀ edit ∈ batch.edits, edit.Within (length document) := by decide
  have room : length document + insertedLength batch.edits ≤ Offset.greatest.toNat := by decide
  obtain ⟨final, caret, happly, htext, hcaret, -⟩ :=
    apply_anchored batch document ordered within room
  refine ⟨ordered, within, room, final, caret, happly, ?_, ?_⟩
  · rw [htext]
    decide
  · rw [hcaret]
    decide

end Batch

end EditBatch
