import EditBatch.Proofs.LawfulLines
import EditBatch.Proofs.Progress
import EditBatch.Script
set_option autoImplicit false

/-!
# Stores that cannot be told apart

Two documents with the same characters give the same answer to every question, and after every
change they have the same characters again. So nothing that is built from questions and changes
tells two stores apart: neither a history of changes, nor the compilation of a script, nor a batch.

## Main definitions

* `EditBatch.Document.Call` — the changes that can be asked for.
* `EditBatch.Document.performAll` — a history of changes, with the answers.
* `EditBatch.Document.SameAnswers` — documents that answer every question alike.

## Main results

* `EditBatch.Document.sameAnswers_of_chars_eq` — the answers are a matter of the characters.
* `EditBatch.Document.perform_eq`, `EditBatch.Document.performAll_eq` — what one change keeps, and
  what a history keeps.
* `EditBatch.Document.Indistinguishable` — what two documents have in common as long as they have
  the same characters.
* `EditBatch.Document.indistinguishable_after_calls` — the two stores after any history.
-/

namespace EditBatch

namespace Document

/-! ## Changes -/

/-- A change that a document can be asked for. A removal is asked for with its range in order. -/
inductive Call where
  | insert (offset : ℕ) (text : String)
  | remove (start stop : ℕ) (order : start ≤ stop)
  | replace (offset count : ℕ) (text : String)

section Perform

variable {D : Type} [Document D]

/-- The document after a call, and its answer. Only a replacement can be refused, and then the
document stays as it is. -/
def perform (document : D) : Call → D × Except EditError Unit
  | .insert offset text => (Document.insert document offset text, .ok ())
  | .remove start stop order =>
    ((remove? document start stop).get (remove?_isSome document start stop order), .ok ())
  | .replace offset count text =>
    match Document.replace document offset count text with
    | .ok changed => (changed, .ok ())
    | .error cause => (document, .error cause)

/-- The document after several calls, and their answers in order. -/
def performAll (document : D) : List Call → D × List (Except EditError Unit)
  | [] => (document, [])
  | call :: rest =>
    let (changed, answer) := perform document call
    let (final, answers) := performAll changed rest
    (final, answer :: answers)

end Perform

variable {D E : Type} [Document D] [Document E]

/-! ## Questions -/

/-- Whether two documents answer every question alike, whatever is asked for. -/
structure SameAnswers (document : D) (other : E) : Prop where
  content : content document = content other
  length : length document = length other
  lineCount : lineCount document = lineCount other
  lineSpan (line : ℕ) : lineSpan document line = lineSpan other line
  lineAt (offset : ℕ) : lineAt document offset = lineAt other offset
  lineLength (line : ℕ) : lineLength document line = lineLength other line
  line? (line : ℕ) : line? document line = line? other line
  slice (start stop : ℕ) : slice document start stop = slice other start stop
  positionToOffset (position : Position) :
    positionToOffset document position = positionToOffset other position
  offsetToPosition (offset : ℕ) : offsetToPosition document offset = offsetToPosition other offset

/-- **The answers are a matter of the characters**, whatever the store. -/
lemma sameAnswers_of_chars_eq [LawfulDocument D] [LawfulLines D] [LawfulDocument E] [LawfulLines E]
    {document : D} {other : E} (h : chars document = chars other) : SameAnswers document other := by
  have hlength : length document = length other := by
    rw [LawfulDocument.length_eq, LawfulDocument.length_eq, h]
  have hspan : ∀ line, lineSpan document line = lineSpan other line := fun line => by
    rw [LawfulLines.lineSpan_eq, LawfulLines.lineSpan_eq, h]
  have hline : ∀ offset, lineAt document offset = lineAt other offset := fun offset => by
    rw [LawfulLines.lineAt_eq, LawfulLines.lineAt_eq, h]
  have hslice : ∀ start stop, slice document start stop = slice other start stop :=
    fun start stop => by rw [LawfulLines.slice_eq, LawfulLines.slice_eq, h]
  exact {
    content := String.toList_injective h
    length := hlength
    lineCount := by rw [LawfulLines.lineCount_eq, LawfulLines.lineCount_eq, h]
    lineSpan := hspan
    lineAt := hline
    lineLength := fun line => by rw [lineLength, lineLength, hspan]
    line? := fun line => by simp only [line?, hspan, hslice]
    slice := hslice
    positionToOffset := fun position => by
      rw [positionToOffset, positionToOffset, hspan, hlength]
    offsetToPosition := fun offset => by
      simp only [offsetToPosition, hlength, hline, hspan] }

/-! ## What changes keep -/

section Lawful

variable [LawfulDocument D] [LawfulDocument E] {document : D} {other : E}

/-- A replacement is made in both of two documents with the same characters, and these are the same
again, or it is refused in both for the same cause. -/
lemma replace_eq (h : chars document = chars other) (offset count : ℕ) (text : String) :
    (∃ changed changed', replace document offset count text = .ok changed ∧
      replace other offset count text = .ok changed' ∧ chars changed = chars changed') ∨
    ∃ cause, replace document offset count text = .error cause ∧
      replace other offset count text = .error cause := by
  have hlength : length document = length other := by
    rw [LawfulDocument.length_eq, LawfulDocument.length_eq, h]
  rcases Nat.lt_or_ge (length document) (offset + count) with hbeyond | hinside
  · right
    refine ⟨_, replace_eq_error document text hbeyond, ?_⟩
    rw [replace_eq_error other text (by omega), hlength]
  · left
    obtain ⟨changed, hok, hchars⟩ := exists_replace_eq_ok document offset count text hinside
    obtain ⟨changed', hok', hchars'⟩ :=
      exists_replace_eq_ok other offset count text (by omega)
    exact ⟨changed, changed', hok, hok', by rw [hchars, hchars', h]⟩

/-- **One call** is answered alike by two documents with the same characters, and leaves them with
the same characters. -/
lemma perform_eq (h : chars document = chars other) (call : Call) :
    (perform document call).2 = (perform other call).2 ∧
      chars (perform document call).1 = chars (perform other call).1 := by
  cases call with
  | insert offset text =>
    refine ⟨rfl, ?_⟩
    simp only [perform, LawfulDocument.chars_insert, h]
  | remove start stop order =>
    refine ⟨rfl, ?_⟩
    simp only [perform]
    rw [LawfulDocument.chars_remove document _ start stop order (Option.some_get _).symm,
      LawfulDocument.chars_remove other _ start stop order (Option.some_get _).symm, h]
  | replace offset count text =>
    rcases replace_eq h offset count text with ⟨_, _, hok, hok', hchars⟩ | ⟨cause, herr, herr'⟩
    · simp only [perform, hok, hok']
      exact ⟨trivial, hchars⟩
    · simp only [perform, herr, herr']
      exact ⟨trivial, h⟩

/-- **A history of calls** is answered alike by two documents with the same characters, and leaves
them with the same characters. -/
lemma performAll_eq (h : chars document = chars other) (calls : List Call) :
    (performAll document calls).2 = (performAll other calls).2 ∧
      chars (performAll document calls).1 = chars (performAll other calls).1 := by
  induction calls generalizing document other with
  | nil => exact ⟨rfl, h⟩
  | cons call rest ih =>
    obtain ⟨hanswer, hchars⟩ := perform_eq h call
    obtain ⟨hanswers, hfinal⟩ := ih hchars
    simp only [performAll, hanswer, hanswers]
    exact ⟨trivial, hfinal⟩

/-- Edits are made or refused alike in two documents with the same characters, and leave them with
the same characters. -/
lemma run_eq (h : chars document = chars other) (progress : Progress) (edits : List Edit) :
    (progress.run document edits).2 = (progress.run other edits).2 ∧
      chars (progress.run document edits).1 = chars (progress.run other edits).1 := by
  induction edits generalizing progress document other with
  | nil => exact ⟨rfl, h⟩
  | cons edit rest ih =>
    rw [Progress.run, Progress.run, Progress.perform, Progress.perform]
    rcases progress.change? edit with _ | change
    · exact ih h (progress.next edit)
    · rcases replace_eq h change.offset.toNat change.count change.text with
        ⟨_, _, hok, hok', hchars⟩ | ⟨cause, herr, herr'⟩
      · simp only [hok, hok']
        exact ih hchars (progress.next edit)
      · simp only [herr, herr']
        exact ⟨trivial, h⟩

end Lawful

/-! ## Scripts -/

namespace SameAnswers

variable {document : D} {other : E}

/-- An operation is recorded alike for two documents that answer alike. -/
lemma record_eq (h : SameAnswers document other) (op : Op) :
    op.record document = op.record other := by
  cases op with
  | deleteLine line => simp only [Op.record, Recording.deleteLine, h.lineSpan, h.lineCount]
  | deleteLineAt offset =>
    simp only [Op.record, Recording.deleteLineAt, Recording.deleteLine, h.lineAt, h.lineSpan,
      h.lineCount]
  | _ => rfl

/-- A script is compiled alike for two documents that answer alike. -/
lemma compile_eq (h : SameAnswers document other) (script : Script) :
    script.compile document = script.compile other := by
  have hall : ∀ ops index batch,
      Script.recordAll document index batch ops = Script.recordAll other index batch ops := by
    intro ops
    induction ops with
    | nil => exact fun _ _ => rfl
    | cons op rest ih =>
      intro index batch
      rw [Script.recordAll, Script.recordAll, h.record_eq op]
      rcases (op.record other).run.run batch with ⟨_ | _, recorded⟩
      · rfl
      · exact ih (index + 1) recorded
  exact hall script.ops 0 {}

end SameAnswers

/-- What two documents have in common that cannot be told apart: they answer every question alike,
every script compiles alike against them, and every batch is made or refused alike in them, with
documents left behind that answer alike. -/
structure Indistinguishable (document : D) (other : E) : Prop where
  answers : SameAnswers document other
  compile (script : Script) : script.compile document = script.compile other
  outcome (batch : Batch) : (batch.apply document).2 = (batch.apply other).2
  left (batch : Batch) : SameAnswers (batch.apply document).1 (batch.apply other).1

/-- Documents with the same characters cannot be told apart, whatever their stores. -/
lemma indistinguishable_of_chars_eq [LawfulDocument D] [LawfulLines D] [LawfulDocument E]
    [LawfulLines E] {document : D} {other : E} (h : chars document = chars other) :
    Indistinguishable document other where
  answers := sameAnswers_of_chars_eq h
  compile script := (sameAnswers_of_chars_eq h).compile_eq script
  outcome batch := by
    rw [Batch.apply_eq, Batch.apply_eq, (run_eq h {} batch.edits).1]
  left batch := sameAnswers_of_chars_eq (run_eq h {} batch.edits).2

/-- **The two stores cannot be told apart.** Made of the same text and changed by the same calls, a
flat text and a rope give the same answers to the calls. After any calls they have the same content,
answer every question alike, whether its arguments lie inside the document or not, and serve alike
as snapshots of scripts and as documents of batches.

**Proof sketch.** The stores start with the same characters (`LawfulLines.chars_ofText`), every call
keeps them the same (`perform_eq`, `performAll_eq`), and what documents answer is a matter of their
characters (`indistinguishable_of_chars_eq`). -/
theorem indistinguishable_after_calls (text : String) (calls : List Call) :
    (performAll (ofText text : FlatText) calls).2 = (performAll (ofText text : Rope) calls).2 ∧
      Indistinguishable (performAll (ofText text : FlatText) calls).1
        (performAll (ofText text : Rope) calls).1 := by
  have htext : chars (ofText text : FlatText) = chars (ofText text : Rope) := by
    rw [LawfulLines.chars_ofText, LawfulLines.chars_ofText]
  obtain ⟨hanswers, hchars⟩ := performAll_eq htext calls
  exact ⟨hanswers, indistinguishable_of_chars_eq hchars⟩

end Document

end EditBatch
