import EditBatch.Proofs.Compilation
import EditBatch.Proofs.Provenance
set_option autoImplicit false

/-!
# Histories of recordings

A batch is recorded by calls, some of which are refused. A refused call leaves the batch as it is,
also if it was to record two edits, and an accepted one only adds edits at the end. So what has been
recorded stays, and every deletion of the batch starts before it stops.

## Main definitions

* `EditBatch.Recording.Call` — a call that records, with the document in which it looks up lines.
* `EditBatch.Recording.batchAfter` — the batch after several calls.
* `EditBatch.Recording.KeptAtomic` — what calls keep, whichever were made.

## Main results

* `EditBatch.Recording.records_delete_iff` and its like — what each kind of call records, and when.
* `EditBatch.Op.of_records` — how many edits an operation adds, and that they are in order.
* `EditBatch.Recording.kept_after_calls` — what any calls keep.
-/

namespace EditBatch

namespace Recording

/-! ## What is recorded -/

variable {edits : List Edit}

lemma records_insert_iff {offset : Offset} {text : String} :
    Records (insert offset text) edits ↔ edits = [.insertion offset text] := by
  refine ⟨fun h => h.unique (records_insert offset text), ?_⟩
  rintro rfl
  exact records_insert offset text

/-- A recording that is accepted under a condition, and refused otherwise, is recorded exactly under
the condition. -/
lemma records_iff_of_refuses {recording : Recording Unit} {condition : Prop} {added : List Edit}
    {cause : EditError} (accepted : condition → Records recording added)
    (refused : ¬ condition → Refuses recording cause) :
    Records recording edits ↔ condition ∧ edits = added := by
  constructor
  · intro h
    have hcondition : condition := by
      by_contra hnot
      exact h.not_refuses (refused hnot)
    exact ⟨hcondition, h.unique (accepted hcondition)⟩
  · rintro ⟨hcondition, rfl⟩
    exact accepted hcondition

/-- **A deletion is recorded exactly if its range is in order**, as one edit. -/
lemma records_delete_iff {start stop : Offset} :
    Records (delete start stop) edits ↔ start ≤ stop ∧ edits = [.deletion start stop] :=
  records_iff_of_refuses records_delete refuses_delete

/-- **A replacement is recorded exactly if its range is in order**, as two edits. -/
lemma records_replace_iff {start stop : Offset} {text : String} :
    Records (replace start stop text) edits ↔
      start ≤ stop ∧ edits = [.deletion start stop, .insertion start text] :=
  records_iff_of_refuses (fun order => records_replace order text)
    (fun hnot => refuses_replace hnot text)

/-- **The deletion of a text is recorded exactly if the text ends at an offset**, as one edit. -/
lemma records_deleteText_iff {offset : Offset} {text : String} :
    Records (deleteText offset text) edits ↔
      offset.toNat + text.length ≤ Offset.greatest.toNat ∧
        edits = [.deletion offset (offset.advance text.length)] :=
  records_iff_of_refuses records_deleteText (fun hnot => refuses_deleteText (not_le.mp hnot))

/-- What is recorded behind a question is what is recorded behind its answer. -/
lemma records_require_bind_iff {α : Type} {value : Except EditError α} {next : α → Recording Unit} :
    Records (require value >>= next) edits ↔
      ∃ answer, value = .ok answer ∧ Records (next answer) edits := by
  cases value with
  | error cause =>
    have hrefused : Refuses (require (.error cause) >>= next) cause := fun _ => rfl
    exact ⟨fun h => absurd hrefused h.not_refuses, fun ⟨_, hcause, _⟩ => by cases hcause⟩
  | ok answer =>
    refine ⟨fun h => ⟨answer, rfl, h⟩, ?_⟩
    rintro ⟨_, ⟨⟩, h⟩
    exact h

section Lines

variable {D : Type} [Document D] {snapshot : D}

/-- The deletion of a line records the deletion of one range in order, if it records anything. -/
lemma exists_of_records_deleteLine {line : ℕ} (h : Records (deleteLine snapshot line) edits) :
    ∃ start stop, start ≤ stop ∧ edits = [.deletion start stop] := by
  obtain ⟨target, -, htarget⟩ := records_require_bind_iff.mp h
  split_ifs at htarget with hbehind hnext
  · obtain ⟨previous, -, hprevious⟩ := records_require_bind_iff.mp htarget
    exact ⟨_, _, records_delete_iff.mp hprevious⟩
  · obtain ⟨next, -, hnext⟩ := records_require_bind_iff.mp htarget
    exact ⟨_, _, records_delete_iff.mp hnext⟩
  · exact ⟨_, _, records_delete_iff.mp htarget⟩

lemma exists_of_records_deleteLineAt {offset : ℕ}
    (h : Records (deleteLineAt snapshot offset) edits) :
    ∃ start stop, start ≤ stop ∧ edits = [.deletion start stop] := by
  obtain ⟨line, -, hline⟩ := records_require_bind_iff.mp h
  exact exists_of_records_deleteLine hline

end Lines

end Recording

namespace Op

/-- How many edits an operation of a kind records. -/
def Kind.editCount : Kind → ℕ
  | replace => 2
  | _ => 1

/-- **What an operation records**: two edits for a replacement and one otherwise, with every range
in order. -/
lemma of_records {D : Type} [Document D] {snapshot : D} {op : Op} {edits : List Edit}
    (h : Recording.Records (op.record snapshot) edits) :
    edits.length = op.kind.editCount ∧ ∀ edit ∈ edits, edit.Ordered := by
  have insertion_ordered : ∀ offset text, (Edit.insertion offset text).Ordered :=
    fun offset _ => UInt64.le_refl offset
  have one_deletion : ∀ start stop : Offset, start ≤ stop → edits = [.deletion start stop] →
      edits.length = 1 ∧ ∀ edit ∈ edits, edit.Ordered := by
    rintro start stop order rfl
    exact ⟨rfl, List.forall_mem_singleton.mpr order⟩
  cases op with
  | insert offset text | moveCaret offset =>
    rw [Recording.records_insert_iff.mp h]
    exact ⟨rfl, List.forall_mem_singleton.mpr (insertion_ordered _ _)⟩
  | delete start stop =>
    obtain ⟨order, hedits⟩ := Recording.records_delete_iff.mp h
    exact one_deletion _ _ order hedits
  | deleteText offset text =>
    exact one_deletion _ _ (Offset.le_advance _ _) (Recording.records_deleteText_iff.mp h).2
  | replace start stop text =>
    obtain ⟨order, rfl⟩ := Recording.records_replace_iff.mp h
    exact ⟨rfl, List.forall_mem_cons.mpr
      ⟨order, List.forall_mem_singleton.mpr (insertion_ordered start text)⟩⟩
  | deleteLine line =>
    obtain ⟨start, stop, order, hedits⟩ := Recording.exists_of_records_deleteLine h
    exact one_deletion _ _ order hedits
  | deleteLineAt offset =>
    obtain ⟨start, stop, order, hedits⟩ := Recording.exists_of_records_deleteLineAt h
    exact one_deletion _ _ order hedits

end Op

namespace Recording

/-! ## Calls -/

/-- A call that records: an operation, and the document in which its lines are looked up. Each call
may bring another document, of another store. -/
structure Call where
  {D : Type}
  [store : Document D]
  snapshot : D
  op : Op

instance (call : Call) : Document call.D := call.store

/-- The answer of a call on a batch, and the batch after it. -/
def Call.run (call : Call) (batch : Batch) : Except EditError Unit × Batch :=
  (call.op.record call.snapshot).run.run batch

/-- A batch after several calls. A call that is refused does not keep the next from being made. -/
def runAll (calls : List Call) (batch : Batch) : Batch :=
  calls.foldl (fun batch call => (call.run batch).2) batch

/-- The batch that several calls record, the first of them into the empty batch. -/
def batchAfter (calls : List Call) : Batch := runAll calls {}

/-- **One call** adds its edits at the end of a batch, or is refused and leaves the batch as it
is. -/
lemma Call.run_eq (call : Call) (batch : Batch) :
    (∃ cause, call.run batch = (.error cause, batch)) ∨
      ∃ added, call.run batch = (.ok (), ⟨batch.edits ++ added⟩) ∧
        added.length = call.op.kind.editCount ∧ ∀ edit ∈ added, edit.Ordered := by
  rcases call.op.settled_record call.snapshot with ⟨added, -, hrecords⟩ | ⟨cause, hrefused⟩
  · exact .inr ⟨added, hrecords batch, Op.of_records hrecords⟩
  · exact .inl ⟨cause, hrefused batch⟩

/-- **Several calls** add edits at the end of a batch, every range in order, and change none that
were there. -/
lemma exists_runAll_eq (calls : List Call) (batch : Batch) :
    ∃ added, (runAll calls batch).edits = batch.edits ++ added ∧
      ∀ edit ∈ added, edit.Ordered := by
  induction calls generalizing batch with
  | nil => exact ⟨[], (List.append_nil _).symm, List.forall_mem_nil _⟩
  | cons call calls ih =>
    obtain ⟨later, hlater, hordered⟩ := ih (call.run batch).2
    rw [runAll, List.foldl_cons, ← runAll, hlater]
    rcases call.run_eq batch with ⟨cause, hrun⟩ | ⟨added, hrun, -, hadded⟩ <;> rw [hrun]
    · exact ⟨later, rfl, hordered⟩
    · exact ⟨added ++ later, List.append_assoc _ _ _,
        List.forall_mem_append.mpr ⟨hadded, hordered⟩⟩

/-- What the calls that record a batch keep, and what any further call does to it. -/
structure KeptAtomic (calls : List Call) : Prop where
  /-- No deletion starts behind its stop. -/
  ordered : ∀ start stop, .deletion start stop ∈ (batchAfter calls).edits → start ≤ stop
  /-- What has been recorded stays, whatever is called then. -/
  kept : ∀ later, (batchAfter calls).edits <+: (batchAfter (calls ++ later)).edits
  /-- A call adds all its edits at the end, or is refused and leaves the batch as it is. -/
  atomic : ∀ call : Call,
    (∃ cause, call.run (batchAfter calls) = (.error cause, batchAfter calls)) ∨
      ∃ added, call.run (batchAfter calls) = (.ok (), ⟨(batchAfter calls).edits ++ added⟩) ∧
        added.length = call.op.kind.editCount
  /-- The deletion of a text that would end beyond the greatest offset is refused, and any other is
  recorded for as many characters as the text has. -/
  deletedText : ∀ offset text,
    (Offset.greatest.toNat < offset.toNat + text.length →
      (deleteText offset text).run.run (batchAfter calls) =
        (.error (.invalidRange offset.toNat Offset.greatest.toNat), batchAfter calls)) ∧
    (offset.toNat + text.length ≤ Offset.greatest.toNat →
      ∃ stop : Offset, stop.toNat = offset.toNat + text.length ∧
        (deleteText offset text).run.run (batchAfter calls) =
          (.ok (), ⟨(batchAfter calls).edits ++ [.deletion offset stop]⟩))

/-- **Recording is atomic and keeps ranges in order.** Whatever calls were made, refused and
accepted ones in any order and with any documents, the batch has no deletion that starts behind its
stop, and what has been recorded stays through all further calls. Each call either adds all its
edits at the end, two for a replacement and one otherwise, or is refused and leaves the batch as it
is. The deletion of a text is refused exactly if the text would end beyond the greatest offset.

**Proof sketch.** What an operation records does not depend on the batch (`Op.settled_record`) and
has its ranges in order (`Op.of_records`). So it is with each call (`Call.run_eq`), and by induction
with all of them (`exists_runAll_eq`). -/
theorem kept_after_calls (calls : List Call) : KeptAtomic calls where
  ordered start stop hmem := by
    obtain ⟨added, hadded, hordered⟩ := exists_runAll_eq calls {}
    rw [batchAfter, hadded, List.nil_append] at hmem
    exact hordered _ hmem
  kept later := by
    obtain ⟨added, hadded, -⟩ := exists_runAll_eq later (batchAfter calls)
    have hafter : batchAfter (calls ++ later) = runAll later (batchAfter calls) :=
      List.foldl_append
    rw [hafter, hadded]
    exact List.prefix_append _ _
  atomic call := by
    rcases call.run_eq (batchAfter calls) with hrefused | ⟨added, hrun, hlength, -⟩
    · exact .inl hrefused
    · exact .inr ⟨added, hrun, hlength⟩
  deletedText offset text := by
    refine ⟨fun hbeyond => refuses_deleteText hbeyond _, fun inside => ?_⟩
    refine ⟨offset.advance text.length, ?_, records_deleteText inside _⟩
    rw [Offset.toNat_advance, Nat.min_eq_left inside]

example : let document : FlatText := ⟨"a\nb"⟩
    batchAfter [⟨document, .insert 1 "x"⟩, ⟨document, .replace 4 2 "y"⟩,
      ⟨document, .deleteLine 1⟩] = ⟨[.insertion 1 "x", .deletion 1 3]⟩ := by decide

end Recording

end EditBatch
