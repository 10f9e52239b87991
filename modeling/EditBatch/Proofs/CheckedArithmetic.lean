import EditBatch.Proofs.Monotone
import EditBatch.Proofs.Preview
set_option autoImplicit false

/-!
# Offsets are never computed out of range

Differences of offsets wrap around below zero, and so they are only taken where the order of offsets
allows it. Here every number that is computed on the way of an offset is computed once more without
bounds and has to fit an offset, or else there is no result. For the maps that changes leave, and
for the edits of any batch, there always is one, and it is the same.

## Main definitions

* `EditBatch.Offset.ofInt?` — the offset with a given value, which has to be in range.
* `EditBatch.OffsetMap.Update`, `EditBatch.OffsetMap.ofUpdates` — maps as changes leave them.
* `EditBatch.Step.checked?`, `EditBatch.OffsetMap.checked?` — offsets followed with checks.
* `EditBatch.Progress.checked?` — an edit made ready with checks.
* `EditBatch.Batch.checkedPreview?`, `EditBatch.Batch.checkedApply?` — a whole batch with checks.

## Main results

* `EditBatch.OffsetMap.Proper.checked?_eq` — no map of proper steps computes a number out of range.
* `EditBatch.Progress.checked?_eq` — neither does an edit.
* `EditBatch.Batch.computes_in_range` — what all maps and all batches compute.
-/

namespace EditBatch

/-! ## Numbers in range -/

/-- The offset with a given value. There is none below zero or beyond the greatest offset. -/
def Offset.ofInt? (value : ℤ) : Option Offset :=
  if 0 ≤ value ∧ value ≤ greatest.toNat then some (ofNat value.toNat) else none

lemma Offset.ofInt?_eq_some_iff {value : ℤ} {offset : Offset} :
    ofInt? value = some offset ↔ (offset.toNat : ℤ) = value := by
  have hoffset := toNat_le_greatest offset
  rw [ofInt?]
  split_ifs with hrange
  · have hvalue := @toNat_ofNat_of_le value.toNat (by omega)
    rw [Option.some.injEq, ← UInt64.toNat_inj, hvalue]
    omega
  · exact iff_of_false nofun (by omega)

/-- The difference of two offsets in order is in range, and is the one that words have. -/
lemma Offset.ofInt?_sub {offset later : Offset} (order : offset ≤ later) :
    ofInt? (later.toNat - offset.toNat) = some (later - offset) := by
  have hle := UInt64.le_iff_toNat_le.mp order
  rw [ofInt?_eq_some_iff, UInt64.toNat_sub_of_le _ _ order]
  omega

/-- A move that stops at the greatest offset is in range. -/
lemma Offset.ofInt?_min (offset : Offset) (count : ℕ) :
    ofInt? (min (offset.toNat + count) greatest.toNat) = some (offset.advance count) := by
  rw [ofInt?_eq_some_iff, toNat_advance]
  omega

/-! ## Following offsets -/

/-- Where an offset is after a change, each number on the way being computed without bounds and
checked. -/
def Step.checked? : Step → Offset → Option Offset
  | .shift place count, offset =>
    if offset < place then some offset
    else Offset.ofInt? (min (offset.toNat + count) Offset.greatest.toNat)
  | .collapse start stop, offset =>
    if offset ≤ start then some offset
    else if stop ≤ offset then do
      let width ← Offset.ofInt? (stop.toNat - start.toNat)
      Offset.ofInt? (offset.toNat - width.toNat)
    else some start

/-- **A proper step computes no number out of range.** A range that ends in front of its start would
have a width below zero. -/
lemma Step.checked?_eq {step : Step} (proper : step.Proper) (offset : Offset) :
    step.checked? offset = some (step.apply offset) := by
  cases step with
  | shift place count =>
    simp only [checked?, apply, Offset.ofInt?_min]
    split_ifs <;> rfl
  | collapse start stop =>
    have order : start ≤ stop := UInt64.le_of_lt proper
    simp only [checked?, apply]
    split_ifs with hbefore hafter
    · rfl
    · have hwidth : stop - start ≤ offset := by
        rw [UInt64.le_iff_toNat_le] at hafter ⊢
        rw [UInt64.toNat_sub_of_le _ _ order]
        omega
      rw [Offset.ofInt?_sub order, Option.bind_eq_bind, Option.bind_some, Offset.ofInt?_sub hwidth]
    · rfl

example : (Step.collapse 5 2).checked? 7 = none := by decide

namespace OffsetMap

/-- What an offset map is told of: that characters were put in or taken out. The offsets are those
that the caller gives, whatever they are. -/
inductive Update where
  | insertion (place : Offset) (count : ℕ)
  | removal (start stop : Offset)
  deriving DecidableEq, Repr

/-- The map after one more change. -/
def update (map : OffsetMap) : Update → OffsetMap
  | .insertion place count => map.afterInsertion place count
  | .removal start stop => map.afterRemoval start stop

/-- The map after several changes. -/
def ofUpdates (updates : List Update) : OffsetMap := updates.foldl update identity

/-- Where an offset is after all changes, with each step checked. -/
def checked? (map : OffsetMap) (offset : Offset) : Option Offset :=
  map.steps.foldlM (fun current step => step.checked? current) offset

lemma Proper.update {map : OffsetMap} (proper : map.Proper) (change : Update) :
    (map.update change).Proper := by
  cases change with
  | insertion place count => exact proper.afterInsertion place count
  | removal start stop => exact proper.afterRemoval start stop

/-- Whatever a map is told of, its steps are proper. -/
lemma proper_ofUpdates (updates : List Update) : (ofUpdates updates).Proper :=
  List.foldlRecOn updates OffsetMap.update proper_identity fun _ proper change _ =>
    proper.update change

/-- **A map of proper steps computes no number out of range.** -/
lemma Proper.checked?_eq {map : OffsetMap} (proper : map.Proper) (offset : Offset) :
    map.checked? offset = some (map.apply offset) := by
  obtain ⟨steps⟩ := map
  simp only [checked?, apply]
  induction steps generalizing offset with
  | nil => rfl
  | cons step rest ih =>
    obtain ⟨hstep, hrest⟩ := List.forall_mem_cons.mp proper
    rw [List.foldlM_cons, Step.checked?_eq hstep, Option.bind_eq_bind, Option.bind_some]
    exact ih _ hrest

end OffsetMap

/-! ## Edits -/

namespace Progress

/-- What an edit still has to do to the document, and the progress after it, with each number
checked. -/
def checked? (progress : Progress) : Edit → Option (Option Change × Progress)
  | .insertion offset text => do
    let place ← progress.map.checked? offset
    let caret ← Offset.ofInt? (min (place.toNat + text.length) Offset.greatest.toNat)
    return (if text.isEmpty then none else some ⟨place, 0, text⟩,
      ⟨progress.map.afterInsertion place text.length, some caret⟩)
  | .deletion start stop => do
    let first ← progress.map.checked? start
    if start < stop then
      let last ← progress.map.checked? stop
      if first < last then
        let count ← Offset.ofInt? (last.toNat - first.toNat)
        return (some ⟨first, count.toNat, ""⟩, ⟨progress.map.afterRemoval first last, some first⟩)
    return (none, ⟨progress.map, some first⟩)

variable {progress : Progress}

/-- **An edit computes no number out of range.** -/
lemma checked?_eq (proper : progress.map.Proper) (edit : Edit) :
    progress.checked? edit = some (progress.change? edit, progress.next edit) := by
  cases edit with
  | insertion offset text =>
    simp only [checked?, proper.checked?_eq, Offset.ofInt?_min, Option.bind_eq_bind,
      Option.bind_some]
    rfl
  | deletion start stop =>
    simp only [checked?, change?, next, proper.checked?_eq, Option.bind_eq_bind, Option.bind_some]
    by_cases hrange : start < stop
    · by_cases hleft : progress.map.apply start < progress.map.apply stop
      · simp [hrange, hleft, Offset.ofInt?_sub (UInt64.le_of_lt hleft)]
      · simp [hrange, hleft, OffsetMap.afterRemoval]
    · simp [hrange]

/-- The document with a change made, if there is one to make. -/
def made {D : Type} [Document D] (document : D) : Option Change → Except EditError D
  | none => .ok document
  | some change => Document.replace document change.offset.toNat change.count change.text

/-- Makes edits in order, with each number checked. -/
def checkedRun? {D : Type} [Document D] (progress : Progress) (document : D) :
    List Edit → Option (D × Except EditError Progress)
  | [] => some (document, .ok progress)
  | edit :: rest => do
    let (change, next) ← progress.checked? edit
    match made document change with
    | .error cause => return (document, .error cause)
    | .ok changed => checkedRun? next changed rest

/-- **A run computes no number out of range**, up to the edit that is refused. -/
lemma checkedRun?_eq {D : Type} [Document D] (proper : progress.map.Proper) (document : D)
    (edits : List Edit) :
    progress.checkedRun? document edits = some (progress.run document edits) := by
  induction edits generalizing progress document with
  | nil => rfl
  | cons edit rest ih =>
    have hperform : progress.perform document edit = made document (progress.change? edit) := rfl
    rw [checkedRun?, checked?_eq proper, run, hperform, Option.bind_eq_bind, Option.bind_some]
    dsimp only
    cases made document (progress.change? edit) with
    | error cause => rfl
    | ok changed => exact ih (proper_next proper edit) changed

end Progress

namespace Batch

/-- Where the caret is after the batch, with each number checked. -/
def checkedPreview? (batch : Batch) : Option (Option Offset) := do
  let reached ← batch.edits.foldlM (fun progress edit => Prod.snd <$> progress.checked? edit)
    ({} : Progress)
  return reached.caret

/-- Makes all edits in a document, with each number checked. -/
def checkedApply? {D : Type} [Document D] (batch : Batch) (document : D) :
    Option (D × Except EditError (Option Offset)) := do
  let (changed, outcome) ← Progress.checkedRun? {} document batch.edits
  return (changed, outcome.map Progress.caret)

variable (batch : Batch)

lemma checkedPreview?_eq : batch.checkedPreview? = some batch.preview := by
  have hfold : ∀ (edits : List Edit) (progress : Progress), progress.map.Proper →
      edits.foldlM (fun progress edit => Prod.snd <$> progress.checked? edit) progress =
        some (edits.foldl Progress.next progress) := by
    intro edits
    induction edits with
    | nil => exact fun _ _ => rfl
    | cons edit rest ih =>
      intro progress proper
      rw [List.foldlM_cons, Progress.checked?_eq proper]
      exact ih _ (Progress.proper_next proper edit)
  rw [checkedPreview?, hfold _ _ OffsetMap.proper_identity]
  rfl

lemma checkedApply?_eq {D : Type} [Document D] (document : D) :
    batch.checkedApply? document = some (batch.apply document) := by
  rw [checkedApply?, Progress.checkedRun?_eq OffsetMap.proper_identity]
  rfl

/-- **No map and no batch computes a number out of range**, whatever the offsets. A map that was
told of any changes has only proper steps, keeps the order of offsets, and takes an offset where it
would take it if every number were checked. So does every batch, in any document and without one:
its caret and its outcome are those with checks, no deletion in order is mapped to a range out of
order, and where there is an edit there is a preview.

**Proof sketch.** Changes leave proper steps or none, whatever they are told
(`OffsetMap.proper_ofUpdates`, `Progress.proper_foldl`). A proper step subtracts only what is not
greater (`Step.checked?_eq`) and keeps the order (`Step.apply_mono`). The length of a deletion is
only taken where something is left of its range. -/
theorem computes_in_range :
    (∀ updates : List OffsetMap.Update,
      (∀ step ∈ (OffsetMap.ofUpdates updates).steps, step.Proper) ∧
      (∀ offset later : Offset, offset ≤ later →
        (OffsetMap.ofUpdates updates).apply offset ≤ (OffsetMap.ofUpdates updates).apply later) ∧
      ∀ offset, (OffsetMap.ofUpdates updates).checked? offset =
        some ((OffsetMap.ofUpdates updates).apply offset)) ∧
    (∀ batch : Batch,
      batch.checkedPreview? = some batch.preview ∧
      (batch.edits ≠ [] → ∃ caret, batch.preview = some caret) ∧
      (∀ (D : Type) [Document D] (document : D),
        batch.checkedApply? document = some (batch.apply document)) ∧
      ∀ (number : ℕ) (start stop : Offset), batch.edits[number]? = some (.deletion start stop) →
        start ≤ stop →
          (batch.before number).map.apply start ≤ (batch.before number).map.apply stop) := by
  refine ⟨fun updates => ?_, fun batch => ?_⟩
  · have proper := OffsetMap.proper_ofUpdates updates
    exact ⟨proper, fun _ _ order => proper.apply_mono order, proper.checked?_eq⟩
  · refine ⟨batch.checkedPreview?_eq, fun hedits => ?_, fun D _ document =>
      batch.checkedApply?_eq document, fun number start stop _ order => ?_⟩
    · rw [← Option.ne_none_iff_exists']
      exact fun hnone => hedits (batch.preview_eq_none_iff.mp hnone)
    · exact (Progress.proper_foldl OffsetMap.proper_identity _).apply_mono order

/-- A text and two ranges at the end of all offsets, and a map that is also told of a range out of
order. -/
theorem computes_in_range_greatest :
    let map := OffsetMap.ofUpdates
      [.insertion 18446744073709551614 5, .removal 3 18446744073709551615, .removal 7 2]
    let batch : Batch := ⟨[.insertion 18446744073709551615 "abc",
      .deletion 18446744073709551613 18446744073709551615, .deletion 2 18446744073709551614]⟩
    (4 : Offset) ≤ 18446744073709551614 ∧ map.apply 4 ≤ map.apply 18446744073709551614 ∧
    map.checked? 18446744073709551614 = some 3 ∧
    batch.edits ≠ [] ∧ (∃ caret, batch.preview = some caret) ∧
    batch.edits[1]? = some (.deletion 18446744073709551613 18446744073709551615) ∧
    (18446744073709551613 : Offset) ≤ 18446744073709551615 ∧
    (batch.before 1).map.apply 18446744073709551613 ≤
      (batch.before 1).map.apply 18446744073709551615 := by
  intro map batch
  have order : (4 : Offset) ≤ 18446744073709551614 := by decide
  have hedits : batch.edits ≠ [] := List.cons_ne_nil _ _
  have hrange : (18446744073709551613 : Offset) ≤ 18446744073709551615 := by decide
  obtain ⟨hmaps, hbatches⟩ := computes_in_range
  obtain ⟨-, hmono, hchecked⟩ := hmaps
    [.insertion 18446744073709551614 5, .removal 3 18446744073709551615, .removal 7 2]
  obtain ⟨-, hpreview, -, hdeletions⟩ := hbatches batch
  exact ⟨order, hmono _ _ order, hchecked _, hedits, hpreview hedits, rfl, hrange,
    hdeletions 1 _ _ rfl hrange⟩

end Batch

end EditBatch
