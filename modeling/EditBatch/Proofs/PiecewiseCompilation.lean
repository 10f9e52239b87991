import EditBatch.Proofs.LineRecording
import EditBatch.Proofs.Rebasing
import EditBatch.Proofs.RecordingHistory
import EditBatch.Yaml.Writer
set_option autoImplicit false

/-!
# Scripts are compiled piece by piece

What an operation records, and why it is refused, does not depend on the operations in front of it.
So a script is compiled by compiling its operations one by one: the batch of two scripts is that of
the first and then that of the second, and a script is rejected for the first of its operations that
is refused alone, at the place where that one stands.

## Main definitions

* `EditBatch.Rejection.behind` — the rejection of a script that stands behind other operations.
* `EditBatch.Script.CompilesPiecewise` — what it means that a script is compiled piece by piece.

## Main results

* `EditBatch.Script.compile_append` — the batch of two scripts, or the rejection of one of them.
* `EditBatch.Script.compile_eq_ok_iff_pieces` — the batch of a script from those of its operations.
* `EditBatch.Script.recordAll_eq_error_iff` — which operation a script is rejected for.
* `EditBatch.Recording.within_of_records_deleteLine` — the deletion of a line stays inside the
  snapshot.
* `EditBatch.Script.compilesPiecewise` — every script is compiled piece by piece.
-/

namespace EditBatch

/-- The rejection of a script that stands behind a number of other operations. -/
def Rejection.behind (count : ℕ) (rejection : Rejection) : Rejection :=
  { rejection with index := count + rejection.index }

namespace Recording

section Lines

variable {D : Type} [Document D] [LawfulDocument D] [LawfulLines D] {snapshot : D}
  {edits : List Edit}

/-- **The deletion of a line stays inside the snapshot**: one range in order is recorded. -/
lemma within_of_records_deleteLine {line : ℕ} (h : Records (deleteLine snapshot line) edits) :
    ∃ start stop, edits = [.deletion start stop] ∧ start ≤ stop ∧
      stop.toNat ≤ Document.length snapshot := by
  have hline : line < Document.lineCount snapshot := by
    by_contra! hbehind
    exact h.not_refuses (refuses_deleteLine hbehind)
  refine ⟨_, _, h.unique (records_deleteLine hline), ?_, ?_⟩ <;>
    rw [LawfulLines.lineCount_eq] at hline
  · exact Offset.ofNat_le_ofNat (deletedRange_le hline).1
  · rw [Offset.toNat_ofNat, LawfulDocument.length_eq]
    exact (Nat.min_le_left _ _).trans (deletedRange_le hline).2

lemma within_of_records_deleteLineAt {offset : ℕ}
    (h : Records (deleteLineAt snapshot offset) edits) :
    ∃ start stop, edits = [.deletion start stop] ∧ start ≤ stop ∧
      stop.toNat ≤ Document.length snapshot := by
  obtain ⟨line, -, hline⟩ := records_require_bind_iff.mp h
  exact within_of_records_deleteLine hline

end Lines

end Recording

/-- A list is related to some other list if each of its members is related to something. -/
lemma exists_forall₂_iff {α β : Type} {R : α → β → Prop} {xs : List α} :
    (∃ ys, List.Forall₂ R xs ys) ↔ ∀ x ∈ xs, ∃ y, R x y := by
  induction xs with
  | nil => simp
  | cons x xs ih =>
    rw [List.forall_mem_cons, ← ih]
    constructor
    · rintro ⟨_, _ | ⟨hy, hys⟩⟩
      exact ⟨⟨_, hy⟩, _, hys⟩
    · rintro ⟨⟨_, hy⟩, _, hys⟩
      exact ⟨_, .cons hy hys⟩

namespace Script

section Compile

variable {D : Type} [Document D] (snapshot : D)

/-! ## One operation after the other -/

/-- Operations in two parts are recorded one part after the other. -/
lemma recordAll_append (front behind : List Op) (index : ℕ) (batch : Batch) :
    recordAll snapshot index batch (front ++ behind) =
      recordAll snapshot index batch front >>= fun recorded =>
        recordAll snapshot (index + front.length) recorded behind := by
  induction front generalizing index batch with
  | nil => rfl
  | cons op front ih =>
    rw [List.cons_append, recordAll, recordAll]
    rcases (op.record snapshot).run.run batch with ⟨cause | _, recorded⟩
    · rfl
    · simp only [ih, List.length_cons, Nat.add_assoc, Nat.add_comm 1]

/-- Operations record the same behind a batch as alone, and are rejected for the same, further on in
the script. -/
lemma recordAll_eq (ops : List Op) (index : ℕ) (batch : Batch) :
    recordAll snapshot index batch ops =
      ((recordAll snapshot 0 {} ops).mapError (Rejection.behind index)).map (batch ++ ·) := by
  induction ops generalizing index batch with
  | nil => exact congrArg (fun edits => Except.ok (Batch.mk edits)) (List.append_nil _).symm
  | cons op ops ih =>
    rw [recordAll, recordAll]
    rcases op.settled_record snapshot with ⟨edits, -, hrecords⟩ | ⟨cause, hrefused⟩
    · have hbehind := ih (index + 1) ⟨batch.edits ++ edits⟩
      have halone := ih (0 + 1) ⟨[] ++ edits⟩
      simp only [hrecords batch, hrecords {}, hbehind, halone]
      rcases recordAll snapshot 0 {} ops with ⟨further, kind, cause⟩ | later
      · simp [Except.mapError, Except.map, Rejection.behind, Nat.add_assoc]
      · exact congrArg (fun edits => Except.ok (Batch.mk edits)) (List.append_assoc _ _ _)
    · rw [hrefused batch, hrefused {}]
      rfl

/-- **The batch of two scripts** is that of the first and then that of the second. They are rejected
as the first is, or else as the second, further on. -/
lemma compile_append (front behind : List Op) :
    compile ⟨front ++ behind⟩ snapshot = (do
      let first ← compile ⟨front⟩ snapshot
      let second ← (compile ⟨behind⟩ snapshot).mapError (Rejection.behind front.length)
      return first ++ second) := by
  rw [compile, recordAll_append, Nat.zero_add]
  refine congrArg (recordAll snapshot 0 {} front >>= ·) (funext fun first => ?_)
  rw [recordAll_eq]
  rfl

/-- Operations are rejected for the first one that is refused, which those in front of it are
not. -/
lemma recordAll_eq_error_iff (ops : List Op) (index : ℕ) (batch : Batch) (rejection : Rejection) :
    recordAll snapshot index batch ops = .error rejection ↔
      ∃ front op behind cause, ops = front ++ op :: behind ∧
        (∀ earlier ∈ front, ∃ edits, Recording.Records (earlier.record snapshot) edits) ∧
        Recording.Refuses (op.record snapshot) cause ∧
        rejection = ⟨index + front.length, op.kind, cause⟩ := by
  induction ops generalizing index batch with
  | nil => simp [recordAll]
  | cons first ops ih =>
    rw [recordAll]
    rcases first.settled_record snapshot with ⟨edits, -, hrecords⟩ | ⟨cause, hrefused⟩
    · -- the first one is recorded, so it stands in front of the one refused
      simp only [hrecords batch, ih]
      constructor
      · rintro ⟨front, op, behind, cause, rfl, hfront, hop, rfl⟩
        refine ⟨first :: front, op, behind, cause, rfl,
          List.forall_mem_cons.mpr ⟨⟨edits, hrecords⟩, hfront⟩, hop, ?_⟩
        rw [List.length_cons, Nat.add_assoc, Nat.add_comm 1]
      · rintro ⟨_ | ⟨_, front⟩, op, behind, cause, heq, hfront, hop, rfl⟩
        · obtain ⟨rfl, -⟩ := List.cons.inj heq
          exact absurd hop hrecords.not_refuses
        · obtain ⟨rfl, rfl⟩ := List.cons.inj heq
          refine ⟨front, op, behind, cause, rfl, (List.forall_mem_cons.mp hfront).2, hop, ?_⟩
          rw [List.length_cons, Nat.add_assoc, Nat.add_comm 1]
    · -- the first one is refused, so nothing stands in front of it
      simp only [hrefused batch, Except.error.injEq]
      constructor
      · rintro rfl
        exact ⟨[], first, ops, cause, rfl, List.forall_mem_nil _, hrefused, rfl⟩
      · rintro ⟨_ | ⟨_, front⟩, op, behind, other, heq, hfront, hop, rfl⟩
        · obtain ⟨rfl, -⟩ := List.cons.inj heq
          rw [hrefused.unique hop]
          rfl
        · obtain ⟨rfl, -⟩ := List.cons.inj heq
          obtain ⟨edits, hrecords⟩ := (List.forall_mem_cons.mp hfront).1
          exact absurd hrefused hrecords.not_refuses

/-- The script of one operation has the batch that the operation records. -/
lemma compile_singleton_eq_ok_iff {op : Op} {piece : Batch} :
    compile ⟨[op]⟩ snapshot = .ok piece ↔ Recording.Records (op.record snapshot) piece.edits := by
  rw [compile_eq_ok_iff]
  constructor
  · rintro ⟨pieces, hpieces, rfl⟩
    obtain ⟨edits, _, hrecords, hnil, rfl⟩ := List.forall₂_cons_left_iff.mp hpieces
    obtain rfl := List.forall₂_nil_left_iff.mp hnil
    simpa using hrecords
  · intro hrecords
    exact ⟨[piece.edits], .cons hrecords .nil, by simp⟩

/-- The script of one operation is rejected for the cause that the operation is refused for. -/
lemma compile_singleton_eq_error_iff {op : Op} {cause : EditError} :
    compile ⟨[op]⟩ snapshot = .error ⟨0, op.kind, cause⟩ ↔
      Recording.Refuses (op.record snapshot) cause := by
  rw [compile, recordAll_eq_error_iff]
  constructor
  · rintro ⟨front, other, behind, _, heq, -, hrefused, hrejection⟩
    rcases List.singleton_eq_append_iff.mp heq with ⟨rfl, hother⟩ | ⟨-, hnil⟩
    · obtain ⟨rfl, -⟩ := List.cons.inj hother
      obtain ⟨-, -, rfl⟩ := Rejection.mk.inj hrejection
      exact hrefused
    · exact absurd hnil (List.cons_ne_nil _ _)
  · intro hrefused
    exact ⟨[], op, [], cause, rfl, List.forall_mem_nil _, hrefused, rfl⟩

variable {snapshot}

/-- Every edit of the batch of a script is recorded by one of its operations. -/
lemma exists_records_of_mem {script : Script} {batch : Batch} {edit : Edit}
    (h : script.compile snapshot = .ok batch) (hmem : edit ∈ batch.edits) :
    ∃ op ∈ script.ops, ∃ edits, Recording.Records (op.record snapshot) edits ∧ edit ∈ edits := by
  obtain ⟨pieces, hpieces, rfl⟩ := (compile_eq_ok_iff snapshot script batch).mp h
  obtain ⟨edits, hedits, hedit⟩ := List.mem_flatten.mp hmem
  obtain ⟨index, hindex, rfl⟩ := List.getElem_of_mem hedits
  have hop : index < script.ops.length := hpieces.length_eq ▸ hindex
  exact ⟨script.ops[index], List.getElem_mem hop, _, hpieces.get hop hindex, hedit⟩

/-- A script has a batch exactly if each of its operations is recorded. -/
lemma exists_compile_iff {script : Script} :
    (∃ batch, script.compile snapshot = .ok batch) ↔
      ∀ op ∈ script.ops, ∃ edits, Recording.Records (op.record snapshot) edits := by
  simp only [compile_eq_ok_iff, ← exists_forall₂_iff]
  constructor
  · rintro ⟨_, pieces, hpieces, -⟩
    exact ⟨pieces, hpieces⟩
  · rintro ⟨pieces, hpieces⟩
    exact ⟨_, pieces, hpieces, rfl⟩

/-- **The batch of a script** holds the edits of the batches of its operations in order. -/
lemma compile_eq_ok_iff_pieces {script : Script} {batch : Batch} :
    script.compile snapshot = .ok batch ↔
      ∃ pieces, List.Forall₂ (fun op piece => compile ⟨[op]⟩ snapshot = .ok piece)
        script.ops pieces ∧ batch.edits = pieces.flatMap Batch.edits := by
  simp only [compile_eq_ok_iff snapshot script, compile_singleton_eq_ok_iff]
  constructor
  · rintro ⟨pieces, hpieces, rfl⟩
    refine ⟨pieces.map Batch.mk, List.forall₂_map_right_iff.mpr hpieces, ?_⟩
    rw [List.flatMap_map, List.flatMap_id']
  · rintro ⟨pieces, hpieces, hbatch⟩
    refine ⟨pieces.map Batch.edits, List.forall₂_map_right_iff.mpr hpieces, ?_⟩
    rw [← List.flatMap_def, ← hbatch]

/-- The script of one operation has a batch exactly if the operation is recorded. -/
lemma exists_compile_singleton_iff {op : Op} :
    (∃ piece, compile ⟨[op]⟩ snapshot = .ok piece) ↔
      ∃ edits, Recording.Records (op.record snapshot) edits :=
  exists_compile_iff.trans List.forall_mem_singleton

end Compile

/-! ## Piece by piece -/

section Piecewise

variable {D : Type} [Document D]

/-- What it means that a script is compiled piece by piece: how its batch and its rejection come
from the scripts of its single operations. -/
structure CompilesPiecewise (script : Script) (snapshot : D) : Prop where
  /-- An operation records the same edits into every batch as alone, or is refused for the same
  cause and leaves every batch as it is. -/
  independent : ∀ op : Op,
    (∃ piece, compile ⟨[op]⟩ snapshot = .ok piece ∧
      ∀ batch, (op.record snapshot).run.run batch = (.ok (), batch ++ piece)) ∨
    ∃ cause, compile ⟨[op]⟩ snapshot = .error ⟨0, op.kind, cause⟩ ∧
      ∀ batch, (op.record snapshot).run.run batch = (.error cause, batch)
  /-- The script has a batch if each operation has one alone. -/
  compiled_iff : (∃ batch, script.compile snapshot = .ok batch) ↔
    ∀ op ∈ script.ops, ∃ piece, compile ⟨[op]⟩ snapshot = .ok piece
  /-- The batch holds the edits of the single operations in order. -/
  concatenated : ∀ batch, script.compile snapshot = .ok batch ↔
    ∃ pieces, List.Forall₂ (fun op piece => compile ⟨[op]⟩ snapshot = .ok piece)
      script.ops pieces ∧ batch.edits = pieces.flatMap Batch.edits
  /-- Another script behind this one adds its batch, or is rejected further on. -/
  append : ∀ other : Script, compile ⟨script.ops ++ other.ops⟩ snapshot = (do
    let first ← script.compile snapshot
    let second ← (other.compile snapshot).mapError (Rejection.behind script.ops.length)
    return first ++ second)
  /-- The script is rejected for the first operation that is rejected alone, and for its cause. -/
  rejected_iff : ∀ rejection, script.compile snapshot = .error rejection ↔
    ∃ front op behind cause, script.ops = front ++ op :: behind ∧
      (∀ earlier ∈ front, ∃ piece, compile ⟨[earlier]⟩ snapshot = .ok piece) ∧
      compile ⟨[op]⟩ snapshot = .error ⟨0, op.kind, cause⟩ ∧
      rejection = ⟨front.length, op.kind, cause⟩
  /-- The name of an operation in a rejection is the one that it is written and read under. -/
  named : ∀ op : Op, op.kind.name = op.kind.tag ∧ Op.Kind.ofTag? op.kind.name = some op.kind ∧
    ∃ arguments, Script.toYaml ⟨[op]⟩ = "edits:\n- op: " ++ op.kind.name ++ "\n" ++ arguments
  /-- No deletion of the batch starts behind its stop. -/
  ordered : ∀ batch, script.compile snapshot = .ok batch →
    ∀ start stop, .deletion start stop ∈ batch.edits → start ≤ stop
  /-- What is recorded for a line is one deletion inside the snapshot. -/
  within : ∀ op ∈ script.ops, op.kind = .deleteLine ∨ op.kind = .deleteLineAt →
    ∀ piece, compile ⟨[op]⟩ snapshot = .ok piece →
      ∃ start stop, piece.edits = [.deletion start stop] ∧ start ≤ stop ∧
        stop.toNat ≤ Document.length snapshot

/-- An operation is written with its name in front. -/
lemma exists_toYaml_singleton (op : Op) :
    ∃ arguments, Script.toYaml ⟨[op]⟩ = "edits:\n- op: " ++ op.kind.tag ++ "\n" ++ arguments := by
  refine ⟨String.ofList (op.arguments.flatMap fun argument =>
    Yaml.spaces Yaml.indentWidth ++ Yaml.writeArgument Yaml.indentWidth argument), ?_⟩
  apply String.toList_injective
  simp [Script.toYaml, Yaml.writeOp, Yaml.writeWordEntry, opsKey, opKey]

/-- **Scripts are compiled piece by piece.** Whether an operation is refused, for what cause, and
what it records depend on the operation and the snapshot, and not on the operations in front of it.
So a script has a batch if each of its operations has one alone, and the batch holds those of the
single operations in order; the batch of two scripts is that of the first and then that of the
second. Otherwise the script is rejected for the first operation that is rejected alone, at its
place, under the name that it is written with and for the same cause. In a batch no deletion starts
behind its stop, and what is recorded for a line stays inside the snapshot.

**Proof sketch.** The outcome of an operation does not depend on the batch (`Op.settled_record`), so
operations record the same behind a batch as alone (`recordAll_eq`) and are rejected for the first
one that is refused (`recordAll_eq_error_iff`), both by induction on the operations. -/
theorem compilesPiecewise [LawfulDocument D] [LawfulLines D] (script : Script) (snapshot : D) :
    script.CompilesPiecewise snapshot where
  independent op := by
    rcases op.settled_record snapshot with ⟨edits, -, hrecords⟩ | ⟨cause, hrefused⟩
    · exact .inl ⟨⟨edits⟩, (compile_singleton_eq_ok_iff snapshot).mpr hrecords, hrecords⟩
    · exact .inr ⟨cause, (compile_singleton_eq_error_iff snapshot).mpr hrefused, hrefused⟩
  compiled_iff := by
    rw [exists_compile_iff]
    exact forall₂_congr fun op _ => exists_compile_singleton_iff.symm
  concatenated batch := compile_eq_ok_iff_pieces
  append other := compile_append snapshot script.ops other.ops
  rejected_iff rejection := by
    rw [compile, recordAll_eq_error_iff]
    simp only [exists_compile_singleton_iff, compile_singleton_eq_error_iff, Nat.zero_add]
  named op := by
    -- A rejection takes the name from a table of its own; what is written and read is the tag.
    rw [← op.kind.tag_eq_name]
    exact ⟨rfl, op.kind.ofTag?_tag, exists_toYaml_singleton op⟩
  ordered batch h start stop hmem := by
    obtain ⟨op, -, edits, hrecords, hedit⟩ := exists_records_of_mem h hmem
    exact (Op.of_records hrecords).2 _ hedit
  within op _ hline piece hpiece := by
    have hrecords := (compile_singleton_eq_ok_iff snapshot).mp hpiece
    cases op with
    | deleteLine line => exact Recording.within_of_records_deleteLine hrecords
    | deleteLineAt offset => exact Recording.within_of_records_deleteLineAt hrecords
    | _ => simp [Op.kind] at hline

/-- A script is rejected for the third of its four operations. The first two alone have a batch of
three edits. -/
theorem compilesPiecewise_mixed :
    let snapshot : FlatText := ⟨"a\nb"⟩
    let accepted : List Op := [.replace 0 1 "x", .deleteLine 1]
    compile ⟨accepted⟩ snapshot =
      .ok ⟨[.deletion 0 1, .insertion 0 "x", .deletion 1 3]⟩ ∧
    compile ⟨accepted ++ [.delete 4 2, .deleteLine 7]⟩ snapshot =
      .error ⟨2, .delete, .invalidRange 4 2⟩ := by
  intro snapshot accepted
  have first : compile ⟨[.replace 0 1 "x"]⟩ snapshot =
      .ok ⟨[.deletion 0 1, .insertion 0 "x"]⟩ := by decide
  have second : compile ⟨[.deleteLine 1]⟩ snapshot = .ok ⟨[.deletion 1 3]⟩ := by decide
  constructor
  · exact ((compilesPiecewise ⟨accepted⟩ snapshot).concatenated _).mpr
      ⟨_, .cons first (.cons second .nil), rfl⟩
  · refine ((compilesPiecewise _ snapshot).rejected_iff _).mpr
      ⟨accepted, .delete 4 2, [.deleteLine 7], .invalidRange 4 2, rfl, ?_, by decide, rfl⟩
    exact List.forall_mem_cons.mpr ⟨⟨_, first⟩, List.forall_mem_singleton.mpr ⟨_, second⟩⟩

end Piecewise

end Script

end EditBatch
