import EditBatch.Proofs.Replacement
import EditBatch.Proofs.Stretches
import Mathlib.Data.List.FinRange
set_option autoImplicit false

/-!
# Replacements recorded in any order

Replacements of ranges that do not overlap act as one splice of the document, in whatever order
they are recorded. Only two ranges that touch have to be recorded in the order in which they
stand: otherwise the range in front would take the text behind for its own.

## Main definitions

* `EditBatch.spliced` — a text after several replacements at once.
* `EditBatch.Replacements` — replacements of ranges that do not overlap.
* `EditBatch.Replacements.Made` — what holds when some of them have been made.

## Main results

* `EditBatch.Replacements.Made.exists_run` — one more replacement.
* `EditBatch.Replacements.idxOf_lt_idxOf` — ranges without a gap between them are in order.
* `EditBatch.Replacements.apply_spliced` — all replacements together are a splice.
-/

namespace EditBatch

open Document

/-- A text from an offset on, with all replacements made at once: what stands in front of the first
range, its new text, and so on behind the range. -/
def spliced (text : List Char) : ℕ → List Replacement → List Char
  | offset, [] => text.drop offset
  | offset, replacement :: rest =>
    (text.take replacement.start.toNat).drop offset ++ replacement.text.toList ++
      spliced text replacement.stop.toNat rest

/-- The last replacement cuts what is spliced into three. -/
lemma spliced_concat (text : List Char) (offset : ℕ) (front : List Replacement)
    (last : Replacement) (h : ∀ earlier ∈ front, earlier.start ≤ last.start) :
    spliced text offset (front ++ [last]) =
      spliced (text.take last.start.toNat) offset front ++ last.text.toList ++
        text.drop last.stop.toNat := by
  induction front generalizing offset with
  | nil => rfl
  | cons earlier rest ih =>
    have hle := UInt64.le_iff_toNat_le.mp (h earlier List.mem_cons_self)
    rw [List.cons_append, spliced, spliced, List.take_take, Nat.min_eq_left hle,
      ih _ fun other hmem => h other (List.mem_cons_of_mem _ hmem)]
    simp only [List.append_assoc]

/-! ## The ranges of replacements -/

/-- Replacements of ranges of a text, in the order in which the ranges stand there. They do not
overlap. -/
structure Replacements (text : List Char) where
  list : List Replacement
  start_le_stop : ∀ replacement ∈ list, replacement.start ≤ replacement.stop
  stop_le_length : ∀ replacement ∈ list, replacement.stop.toNat ≤ text.length
  stop_le_start : list.IsChain fun replacement next => replacement.stop ≤ next.start

namespace Replacements

variable {text : List Char} (replacements : Replacements text)

/-- The ranges as stretches of the text. -/
def stretches : Stretches where
  text := text
  count := replacements.list.length
  start number := if h : number < replacements.list.length then
    replacements.list[number].start.toNat else text.length
  stop number := if h : number < replacements.list.length then
    replacements.list[number].stop.toNat else text.length
  start_le_stop h := by
    rw [dif_pos h, dif_pos h, ← UInt64.le_iff_toNat_le]
    exact replacements.start_le_stop _ (List.getElem_mem h)
  stop_le_start {number} h := by
    rw [dif_pos h]
    split_ifs with hnext
    · rw [← UInt64.le_iff_toNat_le]
      exact List.isChain_iff_getElem.mp replacements.stop_le_start number hnext
    · exact replacements.stop_le_length _ (List.getElem_mem h)
  start_count := dif_neg (Nat.lt_irrefl _)

lemma stretches_start (number : Fin replacements.list.length) :
    replacements.stretches.start number = (replacements.list.get number).start.toNat :=
  dif_pos number.isLt

lemma stretches_stop (number : Fin replacements.list.length) :
    replacements.stretches.stop number = (replacements.list.get number).stop.toNat :=
  dif_pos number.isLt

/-- What is in the ranges when some of the replacements have been made. -/
def contents (made : List (Fin replacements.list.length)) (number : ℕ) : List Char :=
  if h : number < replacements.list.length then
    if ⟨number, h⟩ ∈ made then replacements.list[number].text.toList
    else replacements.stretches.kept number
  else []

/-- The text up to a range, when some of the replacements have been made. -/
def woven (made : List (Fin replacements.list.length)) (number : ℕ) : List Char :=
  replacements.stretches.woven (replacements.contents made) number

lemma contents_append (made : List (Fin replacements.list.length))
    (last : Fin replacements.list.length) :
    replacements.contents (made ++ [last]) =
      Function.update (replacements.contents made) last
        (replacements.list.get last).text.toList := by
  funext number
  rcases eq_or_ne number last with rfl | hne
  · simp [contents]
  · rw [Function.update_of_ne hne, contents, contents]
    by_cases h : number < replacements.list.length
    · have hmem : ⟨number, h⟩ ∈ made ++ [last] ↔ ⟨number, h⟩ ∈ made := by
        rw [List.mem_append, List.mem_singleton, or_iff_left]
        rintro rfl
        exact hne rfl
      simp only [dif_pos h, hmem]
    · rw [dif_neg h, dif_neg h]

/-- As long as no replacement has been made, the text is as it was. -/
lemma woven_nil {number : ℕ} (h : number ≤ replacements.list.length) :
    replacements.woven [] number = text.take (replacements.stretches.start number) := by
  have hkept : replacements.woven [] number =
      replacements.stretches.woven replacements.stretches.kept number := by
    apply Stretches.woven_congr
    intro earlier hlt
    rw [contents, dif_pos (by omega), if_neg List.not_mem_nil]
  rw [hkept]
  exact replacements.stretches.woven_kept h

/-- A replacement leaves what is woven in front of it. -/
lemma woven_append_of_le (made : List (Fin replacements.list.length))
    {last : Fin replacements.list.length} {number : ℕ} (h : number ≤ last) :
    replacements.woven (made ++ [last]) number = replacements.woven made number := by
  rw [woven, contents_append]
  apply Stretches.woven_congr
  intro earlier hlt
  exact Function.update_of_ne (by omega) _ _

/-- What is woven behind a replacement that is still to be made has the content of the range in the
middle, and then the new text in its place. -/
lemma exists_woven_append_eq (made : List (Fin replacements.list.length))
    {last : Fin replacements.list.length} {number : ℕ} (h : last < number) :
    ∃ rest, replacements.woven made number =
        replacements.woven made last ++ replacements.contents made last ++ rest ∧
      replacements.woven (made ++ [last]) number =
        replacements.woven made last ++ (replacements.list.get last).text.toList ++ rest := by
  obtain ⟨rest, hrest⟩ := replacements.stretches.exists_woven_eq (replacements.contents made) h
  refine ⟨rest, ?_, ?_⟩
  · have := hrest (replacements.contents made last)
    rwa [Function.update_eq_self] at this
  · rw [woven, contents_append]
    exact hrest _

/-- What holds when some replacements have been made: the document shows their texts, the caret is
behind the last one, and the ranges of all others are where they now stand in the document. -/
structure Made {D : Type} [Document D] (made : List (Fin replacements.list.length))
    (document : D) (progress : Progress) : Prop where
  chars_eq : chars document = replacements.woven made replacements.list.length
  caret_eq : progress.caret.map UInt64.toNat = made.getLast?.map fun last : Fin _ =>
    (replacements.woven made last ++ (replacements.list.get last).text.toList).length
  start_eq (number : Fin replacements.list.length) (h : number ∉ made) :
    (progress.map.apply (replacements.list.get number).start).toNat =
      (replacements.woven made number).length
  stop_eq (number : Fin replacements.list.length) (h : number ∉ made) :
    (progress.map.apply (replacements.list.get number).stop).toNat =
      (replacements.woven made number ++ replacements.contents made number).length

/-- At first no replacement has been made. -/
lemma made_nil {D : Type} [Document D] (document : D) (h : chars document = text) :
    replacements.Made [] document {} := by
  have hstop := fun number => replacements.stop_le_length _ (List.get_mem replacements.list number)
  have horder := fun number => UInt64.le_iff_toNat_le.mp
    (replacements.start_le_stop _ (List.get_mem replacements.list number))
  refine ⟨?_, rfl, fun number _ => ?_, fun number _ => ?_⟩
  · rw [replacements.woven_nil le_rfl, h]
    exact (List.take_of_length_le replacements.stretches.start_count.ge).symm
  · rw [replacements.woven_nil number.isLt.le, stretches_start,
      List.length_take_of_le ((horder number).trans (hstop number))]
    rfl
  · have hcontents : replacements.contents [] number =
        (text.take (replacements.list.get number).stop.toNat).drop
          (replacements.list.get number).start.toNat := by
      rw [contents, dif_pos number.isLt, if_neg List.not_mem_nil, Stretches.kept, stretches_start,
        stretches_stop]
      rfl
    rw [replacements.woven_nil number.isLt.le, stretches_start, hcontents, List.length_append,
      List.length_drop, List.length_take_of_le ((horder number).trans (hstop number)),
      List.length_take_of_le (hstop number), Nat.add_sub_cancel' (horder number)]
    rfl

variable {replacements} {D : Type} [Document D] [LawfulDocument D]

section Step

variable {made : List (Fin replacements.list.length)} {document : D} {progress : Progress}
  (h : replacements.Made made document progress)

include h

omit [LawfulDocument D] in
lemma Made.apply_start_le_apply_stop {number : Fin replacements.list.length}
    (hnumber : number ∉ made) :
    progress.map.apply (replacements.list.get number).start ≤
      progress.map.apply (replacements.list.get number).stop := by
  rw [UInt64.le_iff_toNat_le, h.start_eq number hnumber, h.stop_eq number hnumber,
    List.length_append]
  exact Nat.le_add_right _ _

variable {last : Fin replacements.list.length} (hlast : last ∉ made)
  (gaps : ∀ number ∉ made, number < last → ∃ gap : ℕ, number ≤ gap ∧ gap < last ∧
    replacements.stretches.stop gap < replacements.stretches.start (gap + 1))
  (room : (chars document).length + (replacements.list.get last).text.length ≤
    Offset.greatest.toNat)

include hlast gaps room

omit [LawfulDocument D] in
/-- **The ranges that are still to be replaced** go where their surroundings go.

**Proof sketch.** A range in front is followed by a gap, and this keeps its end in front of the new
text, so that the range stays. What stands behind the replacement moves along with it. -/
lemma Made.toNat_apply_replaced {number : Fin replacements.list.length}
    (hnumber : number ∉ made ++ [last]) (offset : Offset)
    (above : (replacements.woven made number).length ≤ (progress.map.apply offset).toNat)
    (below : (progress.map.apply offset).toNat ≤
      (replacements.woven made number ++ replacements.contents made number).length) :
    ((progress.replaced (replacements.list.get last)).map.apply offset).toNat +
        (replacements.woven made number).length =
      (progress.map.apply offset).toNat +
        (replacements.woven (made ++ [last]) number).length := by
  rw [List.mem_append, List.mem_singleton, not_or] at hnumber
  obtain ⟨hmade, hne⟩ := hnumber
  have hstart := h.start_eq last hlast
  have hstop := h.stop_eq last hlast
  have hinside := replacements.stretches.length_le_of_lt (replacements.contents made) number.isLt
  rw [← woven, ← woven, ← h.chars_eq] at hinside
  obtain ⟨hfront, hback⟩ := progress.toNat_apply_replaced
    (replacements.start_le_stop _ (List.get_mem _ _)) (h.apply_start_le_apply_stop hlast) offset
    (by omega)
  rcases lt_or_gt_of_ne hne with hlt | hgt
  · obtain ⟨gap, hge, hgap, hapart⟩ := gaps number hmade hlt
    have hfar := replacements.stretches.length_lt_of_gap (replacements.contents made) hge hgap
      last.isLt.le hapart
    rw [← woven, ← woven] at hfar
    rw [replacements.woven_append_of_le made (Nat.le_of_lt hlt), hfront (by omega)]
  · obtain ⟨rest, hrest, hrest'⟩ := replacements.exists_woven_append_eq made hgt
    have hlong := congrArg List.length hrest
    have hlong' := congrArg List.length hrest'
    simp only [List.length_append, String.length_toList] at hlong hlong' hstop
    have hmoved := hback (by omega)
    omega

/-- **One more replacement** can be made if in front of it there is a gap behind each range that
is still to be replaced. -/
lemma Made.exists_run :
    ∃ changed reached,
      progress.run document (replacements.list.get last).edits = (changed, .ok reached) ∧
      replacements.Made (made ++ [last]) changed reached ∧
      (chars changed).length ≤
        (chars document).length + (replacements.list.get last).text.length := by
  obtain ⟨behind, hbehind, hbehind'⟩ := replacements.exists_woven_append_eq made last.isLt
  have hchars := h.chars_eq.trans hbehind
  have hstart := h.start_eq last hlast
  have horder := replacements.start_le_stop _ (List.get_mem replacements.list last)
  have hmono := h.apply_start_le_apply_stop hlast
  obtain ⟨changed, hrun, hchanged⟩ :=
    progress.exists_run_edits horder hmono document hchars hstart (h.stop_eq last hlast)
  have hlength := congrArg List.length hchars
  simp only [List.length_append] at hlength
  have hcontents : ∀ number ∉ made ++ [last], replacements.contents (made ++ [last]) number =
      replacements.contents made number := by
    intro number hnumber
    rw [contents_append, Function.update_of_ne]
    exact fun heq => hnumber (List.mem_append_right _ (List.mem_singleton.mpr (Fin.ext heq)))
  refine ⟨changed, _, hrun, ⟨?_, ?_, ?_, ?_⟩, ?_⟩
  · rw [hchanged, hbehind']
  · rw [progress.toNat_caret_replaced horder hmono (by omega), List.getLast?_concat,
      Option.map_some, replacements.woven_append_of_le made le_rfl, hstart, List.length_append,
      String.length_toList]
  · intro number hnumber
    have hold := h.start_eq number fun hmem => hnumber (List.mem_append_left _ hmem)
    have hnew := h.toNat_apply_replaced hlast gaps room hnumber _ hold.ge
      (by rw [hold, List.length_append]; omega)
    omega
  · intro number hnumber
    have hold := h.stop_eq number fun hmem => hnumber (List.mem_append_left _ hmem)
    have hnew := h.toNat_apply_replaced hlast gaps room hnumber _
      (by rw [hold, List.length_append]; omega) hold.le
    rw [hcontents number hnumber]
    simp only [List.length_append] at hold hnew ⊢
    omega
  · rw [hchanged, hchars]
    simp only [List.length_append, String.length_toList]
    omega

end Step

/-- **Two ranges without a gap between them** are linked by ranges that touch, so that the one in
front is recorded first. -/
lemma idxOf_lt_idxOf (replacements : Replacements text)
    {order : List (Fin replacements.list.length)}
    (touching : ∀ i j, i < j → (replacements.list.get i).stop = (replacements.list.get j).start →
      order.idxOf i < order.idxOf j)
    {front behind : Fin replacements.list.length} (hlt : front < behind)
    (nogap : ∀ gap : ℕ, front ≤ gap → gap < behind →
      replacements.stretches.start (gap + 1) ≤ replacements.stretches.stop gap) :
    order.idxOf front < order.idxOf behind := by
  have htouch : ∀ (i j : Fin replacements.list.length), front ≤ i → j ≤ behind →
      (j : ℕ) = i + 1 → order.idxOf i < order.idxOf j := by
    intro i j hi hj hnext
    have hij : i < j := by omega
    apply touching i j hij
    have hle := replacements.stretches.stop_le_start i.isLt
    have hge := nogap i (by omega) (by omega)
    rw [← hnext, stretches_start, stretches_stop] at hle hge
    exact UInt64.toNat_inj.mp (Nat.le_antisymm hle hge)
  have hall : ∀ number : ℕ, (front : ℕ) + 1 ≤ number → ∀ h : number < replacements.list.length,
      number ≤ behind → order.idxOf front < order.idxOf ⟨number, h⟩ := by
    intro number hnumber
    induction number, hnumber using Nat.le_induction with
    | base => exact fun h hbehind => htouch front ⟨front + 1, h⟩ le_rfl hbehind rfl
    | succ number hle ih =>
      intro h hbehind
      refine (ih (by omega) (by omega)).trans ?_
      exact htouch ⟨number, by omega⟩ ⟨number + 1, h⟩ (show (front : ℕ) ≤ number by omega)
        hbehind rfl
  exact hall behind hlt behind.isLt le_rfl

/-- **All replacements can be made in any order** in which touching ranges are in order. -/
lemma exists_run_take (replacements : Replacements text) (document : D) (h : chars document = text)
    {order : List (Fin replacements.list.length)}
    (perm : order.Perm (List.finRange replacements.list.length))
    (touching : ∀ i j, i < j → (replacements.list.get i).stop = (replacements.list.get j).start →
      order.idxOf i < order.idxOf j)
    (room : text.length + Replacement.textLength (order.map replacements.list.get) ≤
      Offset.greatest.toNat)
    {count : ℕ} (hcount : count ≤ order.length) :
    ∃ left reached,
      Progress.run {} document
        (((order.take count).map replacements.list.get).flatMap Replacement.edits) =
          (left, .ok reached) ∧
      replacements.Made (order.take count) left reached ∧
      (chars left).length ≤
        text.length + Replacement.textLength ((order.take count).map replacements.list.get) := by
  induction count with
  | zero =>
    refine ⟨document, {}, rfl, replacements.made_nil document h, ?_⟩
    rw [h]
    exact Nat.le_add_right _ _
  | succ count ih =>
    obtain ⟨left, reached, hrun, hmade, hlength⟩ := ih (by omega)
    have hmem : ∀ number, number ∈ order := fun number =>
      perm.mem_iff.mpr (List.mem_finRange number)
    have hindex : order.idxOf order[count] = count :=
      (perm.nodup_iff.mpr (List.nodup_finRange _)).idxOf_getElem count hcount
    have htake : order.take (count + 1) = order.take count ++ [order[count]] :=
      (List.take_append_getElem hcount).symm
    have hroom : Replacement.textLength ((order.take (count + 1)).map replacements.list.get) ≤
        Replacement.textLength (order.map replacements.list.get) := by
      conv_rhs => rw [← List.take_append_drop (count + 1) order, List.map_append,
        Replacement.textLength_append]
      exact Nat.le_add_right _ _
    rw [htake, List.map_append, Replacement.textLength_append, List.map_singleton,
      Replacement.textLength_singleton] at hroom
    have hnew : order[count] ∉ order.take count := by
      rw [List.mem_take_iff_idxOf_lt (hmem _), hindex]
      exact Nat.lt_irrefl _
    have hgaps : ∀ number ∉ order.take count, number < order[count] →
        ∃ gap : ℕ, number ≤ gap ∧ gap < order[count] ∧
          replacements.stretches.stop gap < replacements.stretches.start (gap + 1) := by
      intro number hnumber hlt
      by_contra hnone
      apply hnumber
      rw [List.mem_take_iff_idxOf_lt (hmem _), ← hindex]
      apply replacements.idxOf_lt_idxOf touching hlt
      intro gap hge hgap
      by_contra hapart
      exact hnone ⟨gap, hge, hgap, Nat.lt_of_not_le hapart⟩
    obtain ⟨changed, final, hlast, hmade', hlength'⟩ :=
      hmade.exists_run hnew hgaps (by omega)
    refine ⟨changed, final, ?_, ?_, ?_⟩
    · rw [htake, List.map_append, List.flatMap_append, Progress.run_append, hrun,
        List.map_singleton, List.flatMap_singleton]
      exact hlast
    · rw [htake]
      exact hmade'
    · rw [htake, List.map_append, Replacement.textLength_append, List.map_singleton,
        Replacement.textLength_singleton]
      omega

omit [Document D] [LawfulDocument D] in
/-- When all replacements have been made, what is woven is what is spliced. -/
lemma woven_eq_spliced (replacements : Replacements text)
    {made : List (Fin replacements.list.length)} (hall : ∀ number, number ∈ made) {number : ℕ}
    (hnumber : number ≤ replacements.list.length) :
    replacements.woven made number =
      spliced (text.take (replacements.stretches.start number)) 0
        (replacements.list.take number) := by
  induction number with
  | zero => rfl
  | succ number ih =>
    have hlt : number < replacements.list.length := hnumber
    have hstart := replacements.stretches_start ⟨number, hlt⟩
    have hstop := replacements.stretches_stop ⟨number, hlt⟩
    have hle := replacements.stretches.start_le_start (Nat.le_succ number) hnumber
    have hcontents : replacements.contents made number =
        (replacements.list.get ⟨number, hlt⟩).text.toList := by
      rw [contents, dif_pos hlt, if_pos (hall _)]
      rfl
    have hearlier : ∀ earlier ∈ replacements.list.take number,
        earlier.start ≤ (replacements.list.get ⟨number, hlt⟩).start := by
      intro earlier hmem
      obtain ⟨index, hindex, rfl⟩ := List.mem_iff_getElem.mp hmem
      rw [List.length_take] at hindex
      have hmono := replacements.stretches.start_le_start (show index ≤ number by omega) hlt.le
      rw [hstart, replacements.stretches_start ⟨index, by omega⟩] at hmono
      rw [List.getElem_take, UInt64.le_iff_toNat_le]
      exact hmono
    have htake : replacements.list.take (number + 1) =
        replacements.list.take number ++ [replacements.list.get ⟨number, hlt⟩] :=
      (List.take_append_getElem hlt).symm
    rw [htake, spliced_concat _ _ _ _ hearlier, List.take_take, ← hstart, ← hstop,
      Nat.min_eq_left hle, ← ih hlt.le, ← hcontents]
    rfl

/-- **Replacements that do not overlap act as one splice**, in whatever order they are recorded, as
long as of two ranges that touch the one in front is recorded first, and all new characters have
room: the calls are accepted, the batch is made, and the caret is behind the text of the last
replacement recorded.

**Proof sketch.** One replacement after the other is made (`exists_run_take`). In front of it every
range that is still to be replaced is followed by a gap (`idxOf_lt_idxOf`), so that it stays where
it is (`Made.exists_run`). -/
theorem apply_spliced (document : D) (replacements : Replacements (chars document))
    (order : List (Fin replacements.list.length))
    (perm : order.Perm (List.finRange replacements.list.length))
    (touching : ∀ i j, i < j → (replacements.list.get i).stop = (replacements.list.get j).start →
      order.idxOf i < order.idxOf j)
    (room : length document + Replacement.textLength replacements.list ≤
      Offset.greatest.toNat) :
    ∃ batch final caret,
      ((order.map replacements.list.get).forM Replacement.record).run.run {} = (.ok (), batch) ∧
      batch.apply document = (final, .ok caret) ∧
      chars final = spliced (chars document) 0 replacements.list ∧
      caret.map UInt64.toNat = order.getLast?.map fun last : Fin _ =>
        (spliced ((chars document).take (replacements.list.get last).start.toNat) 0
            (replacements.list.take last) ++
          (replacements.list.get last).text.toList).length := by
  have hall : ∀ number, number ∈ order := fun number =>
    perm.mem_iff.mpr (List.mem_finRange number)
  have hroom : Replacement.textLength (order.map replacements.list.get) =
      Replacement.textLength replacements.list := by
    have hperm := perm.map replacements.list.get
    rw [List.map_get_finRange] at hperm
    exact (hperm.map _).sum_nat
  rw [LawfulDocument.length_eq, ← hroom] at room
  obtain ⟨final, reached, hrun, hmade, -⟩ :=
    replacements.exists_run_take document rfl perm touching room le_rfl
  rw [List.take_length] at hrun hmade
  have hranges : ∀ replacement ∈ order.map replacements.list.get,
      replacement.start ≤ replacement.stop := by
    intro replacement hmem
    obtain ⟨number, -, rfl⟩ := List.mem_map.mp hmem
    exact replacements.start_le_stop _ (List.get_mem _ _)
  have hrecord := Replacement.run_forM_record (order.map replacements.list.get) hranges {}
  refine ⟨_, final, reached.caret, hrecord, ?_, ?_, ?_⟩
  · rw [Batch.apply, List.nil_append, hrun]
    rfl
  · rw [hmade.chars_eq, replacements.woven_eq_spliced hall le_rfl, List.take_length]
    congr 1
    exact List.take_of_length_le replacements.stretches.start_count.ge
  · rw [hmade.caret_eq]
    congr 1
    funext last
    rw [replacements.woven_eq_spliced hall last.isLt.le, stretches_start]

/-- Two replacements that touch, and one apart from them that is recorded first. -/
theorem apply_spliced_touching :
    let document : FlatText := ⟨"abcdefgh"⟩
    let replacements : Replacements (chars document) :=
      ⟨[⟨1, 2, "X"⟩, ⟨2, 2, "Y"⟩, ⟨5, 7, ""⟩], by decide, by decide, by decide⟩
    let order : List (Fin replacements.list.length) :=
      [⟨2, by decide⟩, ⟨0, by decide⟩, ⟨1, by decide⟩]
    order.Perm (List.finRange replacements.list.length) ∧
    (∀ i j, i < j → (replacements.list.get i).stop = (replacements.list.get j).start →
      order.idxOf i < order.idxOf j) ∧
    length document + Replacement.textLength replacements.list ≤ Offset.greatest.toNat ∧
    ∃ batch final caret,
      ((order.map replacements.list.get).forM Replacement.record).run.run {} = (.ok (), batch) ∧
      batch.apply document = (final, .ok caret) ∧
      chars final = ['a', 'X', 'Y', 'c', 'd', 'e', 'h'] ∧ caret.map UInt64.toNat = some 3 := by
  intro document replacements order
  have perm : order.Perm (List.finRange replacements.list.length) := by decide
  have touching : ∀ i j, i < j →
      (replacements.list.get i).stop = (replacements.list.get j).start →
      order.idxOf i < order.idxOf j := by decide
  have room : length document + Replacement.textLength replacements.list ≤
      Offset.greatest.toNat := by decide
  obtain ⟨batch, final, caret, hrecord, happly, htext, hcaret⟩ :=
    apply_spliced document replacements order perm touching room
  refine ⟨perm, touching, room, batch, final, caret, hrecord, happly, ?_, ?_⟩
  · rw [htext]
    decide
  · rw [hcaret]
    decide

end Replacements

end EditBatch
