import EditBatch.Proofs.Recording
import EditBatch.Script
import Mathlib.Data.List.Forall2
set_option autoImplicit false

/-!
# What a script records

An operation of a script either records the same edits, at least one, whatever was recorded before,
or it is refused and records nothing. So the batch of a script consists of what its operations
record, one after the other.

## Main definitions

* `EditBatch.Recording.Refuses` — recordings that are refused.
* `EditBatch.Recording.Settled` — recordings whose outcome does not depend on the batch.

## Main results

* `EditBatch.Op.settled_record` — the outcome of an operation does not depend on the batch.
* `EditBatch.Script.compile_eq_ok_iff` — the batch of a script, operation by operation.
* `EditBatch.Script.edits_eq_nil_iff` — only the empty script has an empty batch.
-/

namespace EditBatch

namespace Recording

/-- Whether a recording is refused for the given cause and leaves every batch as it is. -/
def Refuses (recording : Recording Unit) (cause : EditError) : Prop :=
  ∀ batch : Batch, recording.run.run batch = (.error cause, batch)

/-- Whether a recording adds the same edits, at least one, to every batch, or is refused for every
batch. -/
def Settled (recording : Recording Unit) : Prop :=
  (∃ edits ≠ [], Records recording edits) ∨ ∃ cause, Refuses recording cause

/-- A recording adds edits in one way only. -/
lemma Records.unique {recording : Recording Unit} {edits other : List Edit}
    (h : Records recording edits) (hother : Records recording other) : edits = other := by
  have hrun := (h {}).symm.trans (hother {})
  cases hrun
  rfl

/-- A recording is refused for one cause only. -/
lemma Refuses.unique {recording : Recording Unit} {cause other : EditError}
    (h : Refuses recording cause) (hother : Refuses recording other) : cause = other := by
  have hrun := (h {}).symm.trans (hother {})
  cases hrun
  rfl

/-- A recording is not both accepted and refused. -/
lemma Records.not_refuses {recording : Recording Unit} {edits : List Edit} {cause : EditError}
    (h : Records recording edits) : ¬ Refuses recording cause := by
  intro hrefused
  have hrun := (h {}).symm.trans (hrefused {})
  cases hrun

/-- A settled recording that is accepted adds at least one edit. -/
lemma Settled.ne_nil {recording : Recording Unit} (settled : Settled recording)
    {edits : List Edit} (h : Records recording edits) : edits ≠ [] := by
  rcases settled with ⟨other, hne, hother⟩ | ⟨cause, hrefused⟩
  · rwa [h.unique hother]
  · exact absurd hrefused h.not_refuses

/-- A question to the document comes in front without a change to what is recorded. -/
lemma settled_require_bind {α : Type} (value : Except EditError α) {next : α → Recording Unit}
    (h : ∀ answer, Settled (next answer)) : Settled (require value >>= next) := by
  cases value with
  | error cause => exact .inr ⟨cause, fun _ => rfl⟩
  | ok answer => exact h answer

lemma settled_insert (offset : Offset) (text : String) : Settled (insert offset text) :=
  .inl ⟨_, List.cons_ne_nil _ _, records_insert offset text⟩

/-- The deletion of a range that is not in order is refused. -/
lemma refuses_delete {start stop : Offset} (h : ¬ start ≤ stop) :
    Refuses (delete start stop) (.invalidRange start.toNat stop.toNat) := by
  have hrange : Edit.ofRange start stop = .error (.invalidRange start.toNat stop.toNat) := if_neg h
  intro batch
  rw [delete, hrange]
  rfl

lemma settled_delete (start stop : Offset) : Settled (delete start stop) := by
  by_cases order : start ≤ stop
  · exact .inl ⟨_, List.cons_ne_nil _ _, records_delete order⟩
  · exact .inr ⟨_, refuses_delete order⟩

/-- A replacement whose range is not in order is refused as its deletion is. -/
lemma refuses_replace {start stop : Offset} (h : ¬ start ≤ stop) (text : String) :
    Refuses (replace start stop text) (.invalidRange start.toNat stop.toNat) := by
  intro batch
  rw [replace, ExceptT.run_bind, StateT.run_bind, refuses_delete h batch]
  rfl

lemma settled_replace (start stop : Offset) (text : String) :
    Settled (replace start stop text) := by
  by_cases order : start ≤ stop
  · exact .inl ⟨_, List.cons_ne_nil _ _, records_replace order text⟩
  · exact .inr ⟨_, refuses_replace order text⟩

/-- The deletion of a text that would end beyond the greatest offset is refused. -/
lemma refuses_deleteText {offset : Offset} {text : String}
    (h : Offset.greatest.toNat < offset.toNat + text.length) :
    Refuses (deleteText offset text)
      (.invalidRange offset.toNat Offset.greatest.toNat) := by
  intro batch
  rw [deleteText, if_neg (by omega)]
  rfl

lemma settled_deleteText (offset : Offset) (text : String) : Settled (deleteText offset text) := by
  rcases Nat.lt_or_ge Offset.greatest.toNat (offset.toNat + text.length) with hbeyond | inside
  · exact .inr ⟨_, refuses_deleteText hbeyond⟩
  · exact .inl ⟨_, List.cons_ne_nil _ _, records_deleteText inside⟩

variable {D : Type} [Document D] (snapshot : D)

lemma settled_deleteLine (line : ℕ) : Settled (deleteLine snapshot line) := by
  refine settled_require_bind _ fun target => ?_
  split_ifs
  · exact settled_require_bind _ fun _ => settled_delete _ _
  · exact settled_require_bind _ fun _ => settled_delete _ _
  · exact settled_delete _ _

lemma settled_deleteLineAt (offset : ℕ) : Settled (deleteLineAt snapshot offset) :=
  settled_require_bind _ fun line => settled_deleteLine snapshot line

end Recording

variable {D : Type} [Document D] (snapshot : D)

/-- **The outcome of an operation does not depend on the batch** that it is recorded into. -/
lemma Op.settled_record (op : Op) : Recording.Settled (op.record snapshot) := by
  cases op with
  | insert offset text => exact Recording.settled_insert offset text
  | delete start stop => exact Recording.settled_delete start stop
  | deleteText offset text => exact Recording.settled_deleteText offset text
  | replace start stop text => exact Recording.settled_replace start stop text
  | moveCaret offset => exact Recording.settled_insert offset ""
  | deleteLine line => exact Recording.settled_deleteLine snapshot line.toNat
  | deleteLineAt offset => exact Recording.settled_deleteLineAt snapshot offset.toNat

namespace Script

/-- Operations are recorded if each is accepted, and then the batch grows by what each adds. -/
lemma recordAll_eq_ok_iff (ops : List Op) (index : ℕ) (batch recorded : Batch) :
    recordAll snapshot index batch ops = .ok recorded ↔
      ∃ pieces, List.Forall₂ (fun op edits => Recording.Records (op.record snapshot) edits)
        ops pieces ∧ recorded = ⟨batch.edits ++ pieces.flatten⟩ := by
  induction ops generalizing index batch with
  | nil => simp [recordAll, eq_comm]
  | cons op rest ih =>
    simp only [recordAll, List.forall₂_cons_left_iff]
    rcases op.settled_record snapshot with ⟨edits, -, hrecords⟩ | ⟨cause, hrefused⟩
    · rw [hrecords batch]
      simp only [ih]
      constructor
      · rintro ⟨pieces, hrest, rfl⟩
        exact ⟨edits :: pieces, ⟨edits, pieces, hrecords, hrest, rfl⟩, by simp⟩
      · rintro ⟨_, ⟨other, pieces, hother, hrest, rfl⟩, rfl⟩
        obtain rfl := hrecords.unique hother
        exact ⟨pieces, hrest, by simp⟩
    · rw [hrefused batch]
      constructor
      · rintro ⟨⟩
      · rintro ⟨_, ⟨other, _, hother, -, -⟩, -⟩
        exact absurd hrefused hother.not_refuses

/-- **The batch of a script** consists of what its operations record, in order. -/
lemma compile_eq_ok_iff (script : Script) (batch : Batch) :
    script.compile snapshot = .ok batch ↔
      ∃ pieces, List.Forall₂ (fun op edits => Recording.Records (op.record snapshot) edits)
        script.ops pieces ∧ batch = ⟨pieces.flatten⟩ := by
  rw [compile, recordAll_eq_ok_iff]
  rfl

variable {snapshot}

/-- **Only the empty script has an empty batch.** -/
lemma edits_eq_nil_iff {script : Script} {batch : Batch}
    (h : script.compile snapshot = .ok batch) : batch.edits = [] ↔ script.ops = [] := by
  obtain ⟨pieces, hpieces, rfl⟩ := (compile_eq_ok_iff snapshot script batch).mp h
  rcases hops : script.ops with _ | ⟨op, rest⟩ <;> rw [hops] at hpieces
  · rw [List.forall₂_nil_left_iff.mp hpieces]
    simp
  · obtain ⟨edits, others, hrecords, -, rfl⟩ := List.forall₂_cons_left_iff.mp hpieces
    simp [(op.settled_record snapshot).ne_nil hrecords]

end Script

end EditBatch
