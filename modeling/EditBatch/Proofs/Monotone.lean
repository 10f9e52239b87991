import EditBatch.Proofs.Progress
set_option autoImplicit false

/-!
# Offset maps keep the order of offsets

Every step that a change leaves in an offset map puts something in or takes something out. Such a
step takes no offset past another, and so no map does, whatever the offsets: not when moves stop at
the greatest offset, and not when ranges lie far outside of any document.

## Main definitions

* `EditBatch.Step.Proper`, `EditBatch.OffsetMap.Proper` — steps that change something, and maps of
  such steps.

## Main results

* `EditBatch.Step.apply_mono`, `EditBatch.OffsetMap.Proper.apply_mono` — one step, and all steps of
  a map.
* `EditBatch.Progress.proper_foldl` — every batch makes a map of proper steps.
-/

namespace EditBatch

/-- Whether a step changes something: what it puts in is not empty, and neither is what it takes
out. -/
def Step.Proper : Step → Prop
  | .shift _ count => 0 < count
  | .collapse start stop => start < stop

/-- **A proper step takes no offset past another.** -/
lemma Step.apply_mono {step : Step} (proper : step.Proper) {offset later : Offset}
    (h : offset ≤ later) : step.apply offset ≤ step.apply later := by
  rw [UInt64.le_iff_toNat_le] at h ⊢
  cases step with
  | shift place count =>
    rw [toNat_apply_shift, toNat_apply_shift]
    have := Offset.toNat_le_greatest offset
    split_ifs <;> omega
  | collapse start stop =>
    have order : start.toNat ≤ stop.toNat := Nat.le_of_lt (UInt64.lt_iff_toNat_lt.mp proper)
    rw [toNat_apply_collapse order, toNat_apply_collapse order]
    omega

namespace OffsetMap

/-- Whether every step of a map changes something. -/
def Proper (map : OffsetMap) : Prop := ∀ step ∈ map.steps, step.Proper

variable {map : OffsetMap}

lemma proper_identity : identity.Proper := fun _ hmem => nomatch hmem

/-- An insertion leaves a proper step or none. -/
lemma Proper.afterInsertion (proper : map.Proper) (place : Offset) (count : ℕ) :
    (map.afterInsertion place count).Proper := by
  rw [OffsetMap.afterInsertion]
  split_ifs with hcount
  · intro step hmem
    rcases List.mem_append.mp hmem with hold | hnew
    · exact proper step hold
    · rw [List.mem_singleton.mp hnew]
      exact hcount
  · exact proper

/-- A removal leaves a proper step or none. -/
lemma Proper.afterRemoval (proper : map.Proper) (start stop : Offset) :
    (map.afterRemoval start stop).Proper := by
  rw [OffsetMap.afterRemoval]
  split_ifs with hrange
  · intro step hmem
    rcases List.mem_append.mp hmem with hold | hnew
    · exact proper step hold
    · rw [List.mem_singleton.mp hnew]
      exact hrange
  · exact proper

/-- **A map of proper steps takes no offset past another.** -/
lemma Proper.apply_mono (proper : map.Proper) {offset later : Offset} (h : offset ≤ later) :
    map.apply offset ≤ map.apply later := by
  obtain ⟨steps⟩ := map
  simp only [apply]
  induction steps generalizing offset later with
  | nil => exact h
  | cons step rest ih =>
    obtain ⟨hstep, hrest⟩ := List.forall_mem_cons.mp proper
    exact ih (Step.apply_mono hstep h) hrest

/-- Offsets that a map of proper steps takes to different places were in the same order. -/
lemma Proper.lt_of_apply_lt_apply (proper : map.Proper) {offset later : Offset}
    (h : map.apply offset < map.apply later) : offset < later := by
  by_contra hle
  exact UInt64.not_lt.mpr (proper.apply_mono (UInt64.not_lt.mp hle)) h

end OffsetMap

namespace Progress

variable {progress : Progress}

/-- One more edit adds a proper step or none. -/
lemma proper_next (proper : progress.map.Proper) (edit : Edit) :
    (progress.next edit).map.Proper := by
  cases edit with
  | insertion place text => exact proper.afterInsertion _ _
  | deletion start stop =>
    simp only [next]
    split_ifs
    · exact proper.afterRemoval _ _
    · exact proper

/-- **Every batch makes a map of proper steps**, with or without a document. -/
lemma proper_foldl (proper : progress.map.Proper) (edits : List Edit) :
    (edits.foldl next progress).map.Proper := by
  induction edits generalizing progress with
  | nil => exact proper
  | cons edit rest ih => exact ih (proper_next proper edit)

end Progress

end EditBatch
