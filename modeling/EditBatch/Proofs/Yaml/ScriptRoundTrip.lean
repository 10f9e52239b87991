import EditBatch.Proofs.Yaml.Documents
import EditBatch.Proofs.Yaml.Numerals
import EditBatch.Proofs.Yaml.Origins
set_option autoImplicit false

/-!
# Scripts read back from what is written

A script is written as a document with a sequence of mappings, one for each operation, whose values
are words, numbers and texts. All of them are read as they are written, and stand for what they were
written for.

## Main definitions

* `EditBatch.Yaml.itemOf` — an operation as an item of the sequence.

## Main results

* `EditBatch.Yaml.readOp_node_itemOf` — the item of an operation is decoded to the operation.
* `EditBatch.Script.ofYaml?_toYaml` — every script is read back, and nothing that is read is made
  out of something else.
-/

namespace EditBatch.Yaml

/-! ## Operations as items -/

/-- The name of an operation as an entry. -/
def nameEntry (kind : Op.Kind) : Entry indentWidth where
  name := opKey
  value := kind.tag.toList ++ ['\n']
  node := .scalar none .plain kind.tag
  isWordChar_name := List.all_eq_true.mp (by decide)
  name_ne_nil := by decide
  length_name_le := by decide
  readsAs := by
    cases kind <;>
      exact readsAs_word indentWidth (List.all_eq_true.mp (by decide)) (by decide)

/-- The digits of a number are a word. -/
lemma readsAs_number (column : ℕ) (number : UInt64) :
    ReadsAs column ((toString number.toNat).toList ++ ['\n'])
      (.scalar none .plain (toString number.toNat)) := by
  refine readsAs_word column (fun c hmem => ?_) fun hempty => ?_
  · have hdigit := isDigit_of_mem_toString hmem
    simp [isWordChar, Char.isAlphanum, hdigit]
  · rw [Nat.toString_eq_repr, Nat.toList_repr] at hempty
    exact Nat.toDigits_ne_nil hempty

/-- An argument of an operation as an entry. -/
def argumentEntry (argument : Op.Field × Op.Argument) : Entry indentWidth where
  name := argument.1.name
  value := match argument.2 with
    | .number number => (toString number.toNat).toList ++ ['\n']
    | .text text => writeText (indentWidth + indentWidth) text
  node := match argument.2 with
    | .number number => .scalar none .plain (toString number.toNat)
    | .text text => .scalar none (styleFor text) text
  isWordChar_name := by cases argument.1 <;> exact List.all_eq_true.mp (by decide)
  name_ne_nil := by cases argument.1 <;> decide
  length_name_le := by cases argument.1 <;> decide
  readsAs := by
    split
    · exact readsAs_number indentWidth _
    · exact readsAs_writeText indentWidth _

/-- An operation as an item of the sequence. -/
def itemOf (op : Op) : Item := ⟨nameEntry op.kind, op.arguments.map argumentEntry⟩

lemma written_argumentEntry (argument : Op.Field × Op.Argument) :
    (argumentEntry argument).written = writeArgument indentWidth argument := by
  obtain ⟨field, number | text⟩ := argument
  · simp [argumentEntry, Entry.written, writeArgument, writeWordEntry]
  · rfl

/-- **An item is written as its operation is.** -/
lemma written_itemOf (op : Op) : (itemOf op).written = writeOp op := by
  have hname : (nameEntry op.kind).written = writeWordEntry opKey op.kind.tag := by
    simp [nameEntry, Entry.written, writeWordEntry]
  simp only [itemOf, Item.written, Entry.lines, hname, List.flatMap_map, written_argumentEntry]
  rfl

/-! ## Items as operations -/

variable {anchored : Anchored}

lemma readValue_scalar {tag : Option String} {style : Style} {text : String} {value : Value}
    (depth : ℕ) (h : scalarValue? tag style text = some value) :
    readValue anchored depth (.scalar tag style text) = pure value := by
  have hread : readValue anchored depth (.scalar tag style text) =
      liftM (scalarValue? tag style text) := by
    cases depth <;> rfl
  rw [hread, h]
  rfl

lemma scalarValue?_plain {text : String} {found : Meaning} (h : meaning text = found) :
    scalarValue? none .plain text = found.value? text := by
  rw [← h]
  rfl

/-- In the style a text is written in, it stands for itself. -/
lemma scalarValue?_styleFor (text : String) :
    scalarValue? none (styleFor text) text = some (.text text) := by
  rcases styleFor_cases text with ⟨hstyle, -⟩ | ⟨hstyle, hambiguous, -⟩ | ⟨hstyle, -⟩ | hstyle
  case inr.inl =>
    have hmeaning : meaning text = .text := by
      simp only [isAmbiguous, Bool.or_eq_false_iff, bne_eq_false_iff_eq] at hambiguous
      exact hambiguous.1
    rw [hstyle, scalarValue?_plain hmeaning]
    rfl
  all_goals
    rw [hstyle]
    rfl

/-- What an argument is written as stands for the argument. -/
lemma readValue_argumentEntry (depth : ℕ) (argument : Op.Field × Op.Argument) :
    readValue anchored depth (argumentEntry argument).node = pure argument.2.toValue := by
  obtain ⟨field, number | text⟩ := argument
  · exact readValue_scalar depth (scalarValue?_plain (meaning_toString number))
  · exact readValue_scalar depth (scalarValue?_styleFor text)

/-- Entries of arguments are decoded to the arguments under their names. -/
lemma readOpEntries_arguments (kind : Op.Kind) (read : List (Value × Value))
    (arguments : List (Op.Field × Op.Argument)) :
    readOpEntries anchored (some kind) read (arguments.map fun argument =>
        (argumentEntry argument).nodes) =
      wellShaped (Op.ofMap kind (read ++ arguments.map fun argument =>
        (.text argument.1.name, argument.2.toValue))) := by
  induction arguments generalizing read with
  | nil => simp [readOpEntries]
  | cons argument arguments ih =>
    obtain ⟨hmeaning, hname⟩ :
        meaning argument.1.name = .text ∧ (argument.1.name == opKey) = false := by
      cases argument.1 <;> decide
    have hkey : readValue anchored nestingLimit (.scalar none .plain argument.1.name) =
        pure (.text argument.1.name) := readValue_scalar _ (scalarValue?_plain hmeaning)
    have hvalue := @readValue_argumentEntry anchored nestingLimit argument
    rw [List.map_cons, Entry.nodes, readOpEntries]
    change (readValue anchored nestingLimit (.scalar none .plain argument.1.name) >>= _) = _
    simp only [hkey, pure_bind, hname, hvalue, ih]
    simp

/-- **The item of an operation is decoded to the operation.** -/
lemma readOp_node_itemOf (op : Op) : readOp anchored (itemOf op).node = pure op := by
  have hmeaning : meaning opKey = .text := by decide
  have hkey : readValue anchored nestingLimit (.scalar none .plain opKey) = pure (.text opKey) :=
    readValue_scalar _ (scalarValue?_plain hmeaning)
  have hkind : Op.kindOfName op.kind.tag = .ok op.kind := by
    rw [Op.kindOfName, Op.Kind.ofTag?_tag]
  have htag : scalarText anchored (.scalar none .plain op.kind.tag) = pure op.kind.tag := rfl
  have harguments := @readOpEntries_arguments anchored op.kind [] op.arguments
  rw [List.nil_append, Op.ofMap_arguments] at harguments
  calc readOp anchored (itemOf op).node
    _ = readOpEntries anchored none [] ((nameEntry op.kind).nodes ::
          op.arguments.map fun argument => (argumentEntry argument).nodes) := by
        rw [Item.node, itemOf, List.map_cons, List.map_map]
        rfl
    _ = readOpEntries anchored (some op.kind) [] (op.arguments.map fun argument =>
          (argumentEntry argument).nodes) := by
        rw [Entry.nodes, readOpEntries]
        change (readValue anchored nestingLimit (.scalar none .plain opKey) >>= _) = _
        simp only [hkey, pure_bind, nameEntry, beq_self_eq_true, htag, hkind]
        rfl
    _ = pure op := harguments

/-- The document of a script is decoded to the script. -/
lemma readScript_items (ops : List Op) :
    readScript anchored (.mapping none [(.scalar none .plain opsKey,
      .sequence none ((ops.map itemOf).map Item.node))]) = pure ⟨ops⟩ := by
  have hops : ((ops.map itemOf).map Item.node).mapM (readOp anchored) = pure ops := by
    rw [List.map_map, List.mapM_map]
    have heach : readOp anchored ∘ (Item.node ∘ itemOf) = fun op => pure (id op) :=
      funext readOp_node_itemOf
    rw [heach, List.mapM_pure, List.map_id]
  calc readScript anchored _
    _ = ((ops.map itemOf).map Item.node).mapM (readOp anchored) >>= fun ops => pure ⟨ops⟩ := rfl
    _ = pure ⟨ops⟩ := by rw [hops, pure_bind]

lemma toYaml_cons (op : Op) (ops : List Op) :
    Script.toYaml ⟨op :: ops⟩ = String.ofList
      (opsKey.toList ++ ':' :: '\n' :: ((op :: ops).map itemOf).flatMap Item.written) := by
  rw [List.flatMap_map, funext written_itemOf, ← String.toList_inj]
  simp [Script.toYaml]

example : Script.toYaml ⟨[.insert 3 "null"]⟩ =
    "edits:\n- op: insert\n  offset: 3\n  text: 'null'\n" := by decide +kernel

end EditBatch.Yaml

namespace EditBatch

open Yaml

/-- **Every script is read back from what is written**, and numbers and texts are never made out of
each other: whatever document a script is read from, each operation is given its arguments by
scalars that stand for them. -/
theorem Script.ofYaml?_toYaml (script : Script) :
    Script.ofYaml? script.toYaml = some script ∧
      ∀ text read, Script.ofYaml? text = some read → ∀ op ∈ read.ops,
        ∃ contents root, readDocument text = some contents ∧ contents.root = some root ∧
          OpWithin contents.anchored op root := by
  refine ⟨?_, fun text read h op hop => exists_opWithin_of_ofYaml? h hop⟩
  obtain ⟨_ | ⟨op, ops⟩⟩ := script
  · decide +kernel
  · obtain ⟨anchored, hread⟩ := @exists_readDocument_items opsKey (List.all_eq_true.mp (by decide))
      (by decide) (by decide) (itemOf op) (ops.map itemOf)
    rw [toYaml_cons, ofYaml?, List.map_cons, hread]
    simp only [Option.bind_eq_bind, Option.bind_some, Decoder.decode?]
    rw [← List.map_cons, readScript_items]
    rfl

/-- The same digits are a number without quotes and a text between them. -/
theorem Script.ofYaml?_quoted :
    Script.ofYaml? "edits: [[insert, 3, '3']]" = some ⟨[.insert 3 "3"]⟩ ∧
      ∃ contents root, readDocument "edits: [[insert, 3, '3']]" = some contents ∧
        contents.root = some root ∧ OpWithin contents.anchored (.insert 3 "3") root := by
  have hread : Script.ofYaml? "edits: [[insert, 3, '3']]" = some ⟨[.insert 3 "3"]⟩ := by
    decide +kernel
  exact ⟨hread, (Script.ofYaml?_toYaml {}).2 _ _ hread _ (List.mem_singleton.mpr rfl)⟩

end EditBatch
