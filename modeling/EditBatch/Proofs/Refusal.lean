import EditBatch.Proofs.Provenance
set_option autoImplicit false

/-!
# When a batch is refused

A batch is refused exactly when one of its edits overruns the document as it was before any
edit. Earlier edits do not change this: they take the end of the document to its end, and the
offsets behind it as far behind.

## Main results

* `EditBatch.Batch.exists_apply_first` — the edits in front of the first that overruns are made.
* `EditBatch.Batch.perform_eq_error` — the first edit that overruns is refused.
* `EditBatch.Batch.apply_refused` — exactly when, where and how a batch is refused.
-/

namespace EditBatch

open Document

namespace Batch

variable (batch : Batch) {D : Type} [Document D] [LawfulDocument D]

/-- The edits in front of the first that overruns are made, and the caret after them does not
depend on the document. -/
lemma exists_apply_first (document : D)
    (fits : ∀ edit ∈ batch.edits, edit.Fits (insertedLength batch.edits))
    {number : ℕ} (hnumber : number ≤ batch.edits.length)
    (inside : ∀ edit ∈ (batch.first number).edits, ¬ edit.Overruns (length document)) :
    ∃ left, (batch.first number).apply document = (left, .ok (batch.before number).caret) ∧
      Progress.run {} document (batch.first number).edits =
        (left, .ok (batch.before number)) ∧
      length left = (batch.layout number).place (length document) := by
  obtain ⟨left, hrun, htext, hlayout⟩ := batch.exists_run_first document fits hnumber inside
  refine ⟨left, ?_, hrun, ?_⟩
  · rw [apply, hrun]
    rfl
  · rw [length_eq_of_map_eq htext, hlayout, Layout.place]

/-- If some edit overruns, there is a first one that does. -/
lemma exists_first_overrun {size : ℕ} (h : ∃ edit ∈ batch.edits, edit.Overruns size) :
    ∃ number edit, batch.edits[number]? = some edit ∧ edit.Overruns size ∧
      ∀ earlier ∈ (batch.first number).edits, ¬ earlier.Overruns size := by
  obtain ⟨edit, hmem, hover⟩ := h
  obtain ⟨culprit, hculprit⟩ :
      ∃ culprit, batch.edits.find? (fun edit => edit.Overruns size) = some culprit :=
    Option.isSome_iff_exists.mp (List.find?_isSome.mpr ⟨edit, hmem, by simpa using hover⟩)
  obtain ⟨hover, front, behind, hsplit, hfront⟩ := List.find?_eq_some_iff_append.mp hculprit
  refine ⟨front.length, culprit, by simp [hsplit], by simpa using hover, fun earlier hearlier => ?_⟩
  rw [first, hsplit, List.take_left' rfl] at hearlier
  simpa using hfront earlier hearlier

omit [LawfulDocument D] in
/-- **The first edit that overruns is refused**, for the place that it has by then.

**Proof sketch.** The offset behind the document at which the edit ends is as far behind the
document as it is now. So the change that the edit asks for is not empty, and it is not inside. -/
lemma perform_eq_error (document left : D)
    (fits : ∀ edit ∈ batch.edits, edit.Fits (insertedLength batch.edits))
    {number : ℕ} {edit : Edit} (h : batch.edits[number]? = some edit)
    (overruns : edit.Overruns (length document))
    (inside : ∀ earlier ∈ (batch.first number).edits, ¬ earlier.Overruns (length document))
    (hleft : length left = (batch.layout number).place (length document)) :
    (batch.before number).perform left edit =
      .error (.invalidOffset ((batch.before number).map.apply edit.start).toNat
        (((batch.before number).map.apply edit.stop).toNat -
          ((batch.before number).map.apply edit.start).toNat) (length left)) := by
  have hnumber : number ≤ batch.edits.length := (List.getElem?_eq_some_iff.mp h).1.le
  obtain ⟨hstart, hstop⟩ := fits edit (List.mem_of_getElem? h)
  have hbeyond : ∀ offset : Offset, length document < offset.toNat →
      (batch.layout number).place offset.toNat =
        length left + (offset.toNat - length document) := by
    intro offset hoffset
    have := batch.place_layout_add hnumber inside (offset.toNat - length document)
    rwa [Nat.add_sub_cancel' hoffset.le, ← hleft] at this
  have hmap := batch.toNat_apply_before fits hnumber
  cases edit with
  | insertion place text =>
    obtain ⟨htext, hplace⟩ := overruns
    have hfar := hbeyond place hplace
    rw [← hmap place hstart] at hfar
    simp only [Progress.perform, Progress.change?, String.isEmpty_iff, htext, if_false]
    rw [replace_eq_error _ _ (by omega)]
    simp [Edit.start, Edit.stop]
  | deletion start stop =>
    obtain ⟨hrange, hplace⟩ := overruns
    have hfar := hbeyond stop hplace
    rw [UInt64.lt_iff_toNat_lt] at hrange
    -- the character in front of `stop` lies behind the document, so that no edit has removed it
    have hless :
        (batch.layout number).place start.toNat < (batch.layout number).place stop.toNat := by
      obtain ⟨offset, hoffset⟩ : ∃ offset, stop.toNat = offset + 1 := ⟨stop.toNat - 1, by omega⟩
      have hmono := (batch.layout number).place_mono (show start.toNat ≤ offset by omega)
      rw [hoffset, Layout.place_succ,
        batch.layout_of_le hnumber (show length document ≤ offset by omega) inside]
      simp only [List.length_singleton]
      omega
    rw [← hmap start hstart, ← hmap stop hstop] at hless
    rw [← hmap stop hstop] at hfar
    have hwidth : ((batch.before number).map.apply stop -
        (batch.before number).map.apply start).toNat =
          ((batch.before number).map.apply stop).toNat -
            ((batch.before number).map.apply start).toNat :=
      UInt64.toNat_sub_of_le _ _ (UInt64.le_iff_toNat_le.mpr hless.le)
    simp only [Progress.perform, Progress.change?, UInt64.lt_iff_toNat_lt, hrange, hless, and_self,
      if_true, hwidth]
    rw [replace_eq_error _ _ (by omega)]
    rfl

/-- At the first edit that overruns the run stops, whatever follows. -/
lemma exists_apply_eq_error (document : D)
    (fits : ∀ edit ∈ batch.edits, edit.Fits (insertedLength batch.edits))
    {number : ℕ} {edit : Edit} (h : batch.edits[number]? = some edit)
    (overruns : edit.Overruns (length document))
    (inside : ∀ earlier ∈ (batch.first number).edits, ¬ earlier.Overruns (length document)) :
    ∃ left, (batch.first number).apply document = (left, .ok (batch.before number).caret) ∧
      length left = (batch.layout number).place (length document) ∧
      ∀ rest, (Batch.mk ((batch.first number).edits ++ edit :: rest)).apply document =
        (left, .error (.invalidOffset ((batch.before number).map.apply edit.start).toNat
          (((batch.before number).map.apply edit.stop).toNat -
            ((batch.before number).map.apply edit.start).toNat) (length left))) := by
  have hnumber : number ≤ batch.edits.length := (List.getElem?_eq_some_iff.mp h).1.le
  obtain ⟨left, happly, hrun, hleft⟩ := batch.exists_apply_first document fits hnumber inside
  refine ⟨left, happly, hleft, fun rest => ?_⟩
  have herror := batch.perform_eq_error document left fits h overruns inside hleft
  rw [apply, Progress.run_append, hrun]
  simp only [Progress.run, herror]
  rfl

/-- If no edit overruns, the whole batch is made. -/
lemma apply_of_inside (document : D)
    (fits : ∀ edit ∈ batch.edits, edit.Fits (insertedLength batch.edits))
    (inside : ∀ edit ∈ batch.edits, ¬ edit.Overruns (length document)) :
    (batch.apply document).2 = .ok (batch.before batch.edits.length).caret := by
  obtain ⟨left, happly, -⟩ := batch.exists_apply_first document fits le_rfl
    (by rwa [first_length])
  rw [first_length] at happly
  rw [happly]

/-- A batch is refused if and only if some edit overruns the document. -/
lemma exists_error_iff (document : D)
    (fits : ∀ edit ∈ batch.edits, edit.Fits (insertedLength batch.edits)) :
    (∃ cause, (batch.apply document).2 = .error cause) ↔
      ∃ edit ∈ batch.edits, edit.Overruns (length document) := by
  constructor
  · rintro ⟨cause, hcause⟩
    by_contra hinside
    rw [batch.apply_of_inside document fits fun edit hmem hover => hinside ⟨edit, hmem, hover⟩]
      at hcause
    cases hcause
  · intro hover
    obtain ⟨number, edit, h, hover, hinside⟩ := batch.exists_first_overrun hover
    obtain ⟨left, -, -, hstop⟩ := batch.exists_apply_eq_error document fits h hover hinside
    exact ⟨_, by rw [batch.eq_first_append h, hstop]⟩

/-- **Exactly when, where and how a batch is refused**, if no offset comes to the greatest one
when it moves by all inserted characters. A batch is refused if and only if some edit has
something to do beyond the document. The first such edit is refused for the place that it has by
then, and the document stays as the edits in front of it leave it; those behind it make no
difference. All this depends on the document only through its length, and the end of the document
is always taken to its end.

**Proof sketch.** The edits in front of the first that overruns are made (`exists_apply_first`)
and with that edit the run stops (`exists_apply_eq_error`). Both speak of the layout and of the
length of the document alone. -/
theorem apply_refused (document : D)
    (fits : ∀ edit ∈ batch.edits, edit.Fits (insertedLength batch.edits)) :
    ((∃ cause, (batch.apply document).2 = .error cause) ↔
      ∃ edit ∈ batch.edits, edit.Overruns (length document)) ∧
    (∀ number edit, batch.edits[number]? = some edit → edit.Overruns (length document) →
      (∀ earlier ∈ (batch.first number).edits, ¬ earlier.Overruns (length document)) →
      ∃ left caret, (batch.first number).apply document = (left, .ok caret) ∧
        batch.apply document =
          (left, .error (.invalidOffset ((batch.before number).map.apply edit.start).toNat
            (((batch.before number).map.apply edit.stop).toNat -
              ((batch.before number).map.apply edit.start).toNat) (length left))) ∧
        (batch.first (number + 1)).apply document = batch.apply document) ∧
    (∀ (E : Type) [Document E] [LawfulDocument E] (other : E), length other = length document →
      (batch.apply other).2 = (batch.apply document).2) ∧
    ∀ number ≤ batch.edits.length, ∀ left caret,
      (batch.first number).apply document = (left, .ok caret) →
      ∀ distance, length document + distance + insertedLength batch.edits ≤
          Offset.greatest.toNat →
        ((batch.before number).map.apply (.ofNat (length document + distance))).toNat =
          length left + distance := by
  refine ⟨batch.exists_error_iff document fits, ?_, ?_, ?_⟩
  · intro number edit h hover hinside
    obtain ⟨left, hfirst, -, hstop⟩ := batch.exists_apply_eq_error document fits h hover hinside
    have happly := hstop (batch.edits.drop (number + 1))
    rw [← batch.eq_first_append h] at happly
    refine ⟨left, _, hfirst, happly, ?_⟩
    rw [happly, ← hstop [], ← first_succ batch h]
  · intro E _ _ other hlength
    by_cases hover : ∃ edit ∈ batch.edits, edit.Overruns (length document)
    · obtain ⟨number, edit, h, hover, hinside⟩ := batch.exists_first_overrun hover
      obtain ⟨left, -, hleft, hstop⟩ := batch.exists_apply_eq_error document fits h hover hinside
      obtain ⟨left', -, hleft', hstop'⟩ := batch.exists_apply_eq_error other fits h
        (by rwa [hlength]) (by rwa [hlength])
      rw [batch.eq_first_append h, hstop, hstop', hleft, hleft', hlength]
    · have hinside : ∀ edit ∈ batch.edits, ¬ edit.Overruns (length document) :=
        fun edit hmem hover' => hover ⟨edit, hmem, hover'⟩
      rw [batch.apply_of_inside document fits hinside,
        batch.apply_of_inside other fits (by rwa [hlength])]
  · intro number hnumber left caret happly distance hroom
    have hfits : ∀ edit ∈ (batch.first number).edits,
        edit.Fits (insertedLength (batch.first number).edits) := fun edit hmem =>
      (fits edit (List.mem_of_mem_take hmem)).mono (batch.insertedLength_first_le number)
    have hinside : ∀ edit ∈ (batch.first number).edits, ¬ edit.Overruns (length document) := by
      intro edit hmem hover
      obtain ⟨cause, hcause⟩ :=
        ((batch.first number).exists_error_iff document hfits).mpr ⟨edit, hmem, hover⟩
      rw [happly] at hcause
      cases hcause
    obtain ⟨left', happly', -, hleft⟩ := batch.exists_apply_first document fits hnumber hinside
    obtain rfl : left' = left := congrArg Prod.fst (happly'.symm.trans happly)
    have hoffset : (Offset.ofNat (length document + distance)).toNat =
        length document + distance := by
      rw [Offset.toNat_ofNat]
      omega
    rw [batch.toNat_apply_before fits hnumber _ (by omega), hoffset,
      batch.place_layout_add hnumber hinside, hleft]

/-- The second edit overruns. The first has been made by then, and the third never is. -/
theorem apply_refused_overrun :
    let batch : Batch := ⟨[.insertion 0 ">", .deletion 3 20, .insertion 1 "never"]⟩
    let document : FlatText := ⟨"short"⟩
    (∀ edit ∈ batch.edits, edit.Fits (insertedLength batch.edits)) ∧
    ∃ left caret, (batch.first 1).apply document = (left, .ok caret) ∧
      batch.apply document = (left, .error (.invalidOffset 4 17 (length left))) := by
  intro batch document
  have fits : ∀ edit ∈ batch.edits, edit.Fits (insertedLength batch.edits) := by decide
  obtain ⟨left, caret, hfirst, happly, -⟩ :=
    (apply_refused batch document fits).2.1 1 (.deletion 3 20) rfl (by decide) (by decide)
  exact ⟨fits, left, caret, hfirst, happly⟩

end Batch

end EditBatch
