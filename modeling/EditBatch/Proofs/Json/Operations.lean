import EditBatch.Json.Script
import EditBatch.Proofs.Json.Values
set_option autoImplicit false

/-!
# Operations as trees

A tree describes an operation if it is a map with the name and each argument of the operation once,
in any order and among any other entries, or the list of the name and the arguments in the order of
writing. What a tree gives for an argument has to be written as such: a text as a text, an offset as
plain digits.

## Main definitions

* `EditBatch.Json.Tree.Gives` — what a tree is written for as an argument.
* `EditBatch.Json.Describes` — which trees are operations.
* `EditBatch.Json.Faulty` — what can be wrong with a tree that should be one.

## Main results

* `EditBatch.Json.argument?_value?_iff` — values stand for the arguments that their trees give.
* `EditBatch.Json.ofMap_keyed_iff_gives`, `EditBatch.Json.ofList_iff_gives` — the values of a map or
  a list are an operation if their trees give its arguments.
* `EditBatch.Json.Faulty.not_describes` — with a fault a tree describes nothing.
-/

namespace EditBatch.Json

open Op (Argument Field Kind)

/-! ## What trees give -/

/-- Whether a number is written as plain digits: without a sign, a point or an exponent. -/
structure Numeral.IsPlain (numeral : Numeral) (number : ℕ) : Prop where
  negative : numeral.negative = false
  fraction : numeral.fraction = []
  exponent : numeral.exponent = none
  whole : ofDigits numeral.whole = number

/-- What a tree gives as an argument: a text, or a number that fits 64 bits. -/
inductive Tree.Gives : Tree → Argument → Prop where
  | text (value : String) : Gives (.text value) (.text value)
  | number {numeral : Numeral} {value : UInt64} (plain : numeral.IsPlain value.toNat) :
      Gives (.number numeral) (.number value)

/-! ## What trees describe -/

/-- Which trees are operations. -/
inductive Describes : Tree → Op → Prop where
  /-- A map has the name once and each argument once. What stands under other keys does not
  matter. -/
  | map {entries : List (String × Tree)} {op : Op}
      (name : valuesUnder opKey entries = [.text op.kind.tag])
      (arguments : ∀ argument ∈ op.arguments, ∃ tree : Tree,
        valuesUnder argument.1.name entries = [tree] ∧ tree.Gives argument.2) :
      Describes (.map entries) op
  /-- A list has the name and behind it the arguments in the order of writing. -/
  | list {items : List Tree} {op : Op}
      (arguments : List.Forall₂ (fun argument item => item.Gives argument.2) op.arguments items) :
      Describes (.list (.text op.kind.tag :: items)) op

/-- Whether a tree is not what a field takes: of another type, or a number that is not in the range
of offsets or not written in plain digits. -/
def Misfits (field : Field) (tree : Tree) : Prop :=
  ∀ argument, field.Takes argument → ¬ tree.Gives argument

/-- Whether a tree is not the name of an operation. -/
def Misnames (tree : Tree) : Prop := ∀ kind : Kind, tree ≠ .text kind.tag

/-- What can be wrong with a tree that should be an operation. -/
inductive Faulty : Tree → Prop where
  | scalar {tree : Tree} (scalar : tree.IsScalar) : Faulty tree
  /-- The name is missing or stands twice. -/
  | nameCount {entries : List (String × Tree)} (count : (valuesUnder opKey entries).length ≠ 1) :
      Faulty (.map entries)
  | name {entries : List (String × Tree)} {tree : Tree} (stands : tree ∈ valuesUnder opKey entries)
      (misnames : Misnames tree) : Faulty (.map entries)
  /-- An argument is missing or stands twice. -/
  | argumentCount {entries : List (String × Tree)} {kind : Kind} {field : Field}
      (name : .text kind.tag ∈ valuesUnder opKey entries) (own : field ∈ kind.fields)
      (count : (valuesUnder field.name entries).length ≠ 1) : Faulty (.map entries)
  | argument {entries : List (String × Tree)} {kind : Kind} {field : Field} {tree : Tree}
      (name : .text kind.tag ∈ valuesUnder opKey entries) (own : field ∈ kind.fields)
      (stands : tree ∈ valuesUnder field.name entries) (misfits : Misfits field tree) :
      Faulty (.map entries)
  | nameItemMissing : Faulty (.list [])
  | nameItem {tree : Tree} {items : List Tree} (misnames : Misnames tree) :
      Faulty (.list (tree :: items))
  /-- An argument is missing, or there is something behind the last one. -/
  | itemCount {items : List Tree} {kind : Kind} (count : items.length ≠ kind.fields.length) :
      Faulty (.list (.text kind.tag :: items))
  | item {items : List Tree} {kind : Kind} {field : Field} {tree : Tree} {place : ℕ}
      (own : kind.fields[place]? = some field) (stands : items[place]? = some tree)
      (misfits : Misfits field tree) : Faulty (.list (.text kind.tag :: items))

/-- **With a fault a tree describes no operation.** -/
theorem Faulty.not_describes {tree : Tree} (h : Faulty tree) (op : Op) : ¬ Describes tree op := by
  rintro (@⟨entries, _, name, arguments⟩ | @⟨items, _, arguments⟩)
  · -- The kind of the operation is the one that the map names.
    have hkind : ∀ {kind : Kind}, Tree.text kind.tag ∈ valuesUnder opKey entries →
        kind = op.kind := by
      intro kind hmem
      rw [name, List.mem_singleton, Tree.text.injEq] at hmem
      exact Op.Kind.tag_injective hmem
    have hfield : ∀ {field : Field}, field ∈ op.kind.fields → ∃ argument ∈ op.arguments,
        argument.1 = field := fun hmem => List.mem_map.mp (Op.map_fst_arguments op ▸ hmem)
    cases h with
    | scalar scalar => exact scalar
    | nameCount count => exact count (by rw [name]; rfl)
    | name stands misnames =>
      rw [name, List.mem_singleton] at stands
      exact misnames _ stands
    | argumentCount named own count =>
      obtain rfl := hkind named
      obtain ⟨argument, hmem, rfl⟩ := hfield own
      obtain ⟨tree, htree, -⟩ := arguments argument hmem
      exact count (by rw [htree]; rfl)
    | argument named own stands misfits =>
      obtain rfl := hkind named
      obtain ⟨argument, hmem, rfl⟩ := hfield own
      obtain ⟨tree, htree, gives⟩ := arguments argument hmem
      rw [htree, List.mem_singleton] at stands
      exact misfits _ (Op.takes_of_mem hmem) (stands ▸ gives)
  · generalize hname : op.kind.tag = name at h
    cases h with
    | scalar scalar => exact scalar
    | nameItem misnames => exact misnames op.kind (congrArg Tree.text hname.symm)
    | itemCount count =>
      obtain rfl := Op.Kind.tag_injective hname
      rw [← Op.map_fst_arguments, List.length_map, arguments.length_eq] at count
      exact count rfl
    | @item _ _ _ _ place own stands misfits =>
      obtain rfl := Op.Kind.tag_injective hname
      rw [← Op.map_fst_arguments, List.getElem?_map] at own
      obtain ⟨argument, hargument, rfl⟩ := Option.map_eq_some_iff.mp own
      have hmem : (argument, _) ∈ op.arguments.zip items :=
        List.mem_of_getElem? (List.getElem?_zip_eq_some.mpr ⟨hargument, stands⟩)
      exact misfits _ (Op.takes_of_mem (List.mem_of_getElem? hargument))
        ((List.forall₂_iff_zip.mp arguments).2 hmem)

/-! ## Plain numbers -/

lemma le_foldl_digits (number : ℕ) (digits : List ℕ) :
    number ≤ digits.foldl (fun number digit => number * 10 + digit) number := by
  induction digits generalizing number with
  | nil => exact Nat.le_refl _
  | cons digit digits ih => exact Nat.le_trans (by omega) (ih (number * 10 + digit))

/-- No digit is left exactly if all of them together fit 64 bits. -/
lemma appendDigits_eq_iff {number total : ℕ} {digits : List ℕ} (h : number < UInt64.size) :
    appendDigits number digits = (total, 0) ↔
      digits.foldl (fun number digit => number * 10 + digit) number = total ∧
        total < UInt64.size := by
  induction digits generalizing number with
  | nil =>
    rw [appendDigits, List.foldl_nil, Prod.mk.injEq, and_iff_left rfl]
    exact ⟨fun heq => ⟨heq, heq ▸ h⟩, And.left⟩
  | cons digit digits ih =>
    rw [appendDigits, List.foldl_cons]
    split_ifs with hfits
    · exact ih hfits
    · have hle := le_foldl_digits (number * 10 + digit) digits
      constructor
      · intro heq
        cases heq
      · rintro ⟨rfl, htotal⟩
        omega

lemma Numeral.IsPlain.value?_eq {numeral : Numeral} {number : UInt64}
    (h : numeral.IsPlain number.toNat) : numeral.value? = some (.unsigned number) := by
  have hdigits : appendDigits 0 numeral.whole = (number.toNat, 0) :=
    (appendDigits_eq_iff (by decide)).mpr ⟨h.whole, number.toNat_lt⟩
  rw [Numeral.value?, hdigits]
  simp [h.fraction, h.exponent, h.negative, wholeValue]

/-- **A number that is not written in plain digits is negative or no whole number.** -/
lemma Numeral.value?_cases {numeral : Numeral} {value : Value} (h : numeral.value? = some value) :
    (∃ number, value = .unsigned number ∧ numeral.IsPlain number.toNat) ∨
      (∃ number < 0, value = .signed number) ∨ ∃ number, value = .decimal number := by
  rw [Numeral.value?] at h
  cases hdigits : appendDigits 0 numeral.whole with
  | mk whole skipped =>
    rw [hdigits] at h
    dsimp only at h
    split at h
    · rename_i hplain
      obtain ⟨rfl, hfraction, hexponent⟩ := hplain
      obtain ⟨hwhole, hfits⟩ := (appendDigits_eq_iff (by decide)).mp hdigits
      cases hsign : numeral.negative with
      | false =>
        rw [wholeValue, hsign] at h
        cases h
        refine .inl ⟨_, rfl, hsign, hfraction, hexponent, ?_⟩
        rw [UInt64.toNat_ofNat_of_lt' hfits]
        exact hwhole
      | true =>
        rw [wholeValue, hsign, if_neg (by decide)] at h
        split at h
        · obtain ⟨scaled, -, rfl⟩ := Option.map_eq_some_iff.mp h
          exact .inr (.inr ⟨scaled, rfl⟩)
        · cases h
          exact .inr (.inl ⟨_, by omega, rfl⟩)
    · obtain ⟨scaled, -, rfl⟩ := Option.map_eq_some_iff.mp h
      exact .inr (.inr ⟨scaled, rfl⟩)

/-- **Values stand for the arguments that their trees give.** -/
lemma argument?_value?_iff {tree : Tree} {value : Value} {depth : ℕ} {argument : Argument}
    (h : tree.value? depth = some value) :
    value.argument? = some argument ↔ tree.Gives argument := by
  cases tree with
  | null | bool =>
    obtain rfl := Option.some.inj h
    constructor <;> rintro ⟨⟩
  | number numeral =>
    constructor
    · intro hvalue
      obtain ⟨number, rfl, plain⟩ | ⟨number, negative, rfl⟩ | ⟨number, rfl⟩ :=
        numeral.value?_cases h
      · cases hvalue
        exact .number plain
      · rw [Value.argument?, if_neg (Int.not_le.mpr negative)] at hvalue
        cases hvalue
      · cases hvalue
    · rintro (_ | plain)
      obtain rfl := Option.some.inj (plain.value?_eq.symm.trans h)
      rfl
  | text text =>
    obtain rfl := Option.some.inj h
    constructor
    · rintro ⟨⟩
      exact .text text
    · rintro ⟨⟩
      rfl
  | list | map =>
    rw [Tree.value?, Option.ite_none_left_eq_some] at h
    obtain ⟨read, -, rfl⟩ := Option.map_eq_some_iff.mp h.2
    constructor <;> rintro ⟨⟩

/-! ## Trees and their values -/

lemma valuesOf?_eq_some_iff {items : List Tree} {values : List Value} {depth : ℕ} :
    valuesOf? items depth = some values ↔
      List.Forall₂ (fun item value => item.value? depth = some value) items values := by
  induction items generalizing values with
  | nil => simp [valuesOf?, eq_comm]
  | cons item items ih =>
    simp [valuesOf?, List.forall₂_cons_left_iff, ih, Option.bind_eq_some_iff, @eq_comm _ values]

lemma entriesOf?_eq_some_iff {entries : List (String × Tree)} {values : List (String × Value)}
    {depth : ℕ} :
    entriesOf? entries depth = some values ↔
      List.Forall₂ (fun entry value => entry.1 = value.1 ∧ entry.2.value? depth = some value.2)
        entries values := by
  induction entries generalizing values with
  | nil => simp [entriesOf?, eq_comm]
  | cons entry entries ih =>
    obtain ⟨key, tree⟩ := entry
    simp [entriesOf?, List.forall₂_cons_left_iff, ih, Option.bind_eq_some_iff, @eq_comm _ values]

/-- The entries of a map without the name of the operation. -/
def unnamed (entries : List (String × Tree)) : List (String × Tree) :=
  entries.filter fun entry => entry.1 != opKey

lemma valuesUnder_unnamed (entries : List (String × Tree)) (field : Field) :
    valuesUnder field.name (unnamed entries) = valuesUnder field.name entries := by
  rw [valuesUnder, valuesUnder, unnamed, List.filter_filter]
  refine congrArg _ (List.filter_congr fun entry _ => ?_)
  by_cases hentry : entry.1 = field.name <;> simp [hentry, field.name_ne_opKey]

lemma isSome_entriesOf?_iff_forall {entries : List (String × Tree)} {depth : ℕ} :
    (entriesOf? entries depth).isSome ↔ ∀ entry ∈ entries, (entry.2.value? depth).isSome := by
  induction entries with
  | nil => simp [entriesOf?]
  | cons entry entries ih => rw [isSome_entriesOf?_cons, ih, List.forall_mem_cons]

/-- The name of an operation nests nothing and is no number. -/
lemma isSome_entriesOf?_unnamed {entries : List (String × Tree)} {name : String} {depth : ℕ}
    (h : valuesUnder opKey entries = [.text name]) :
    (entriesOf? (unnamed entries) depth).isSome ↔ (entriesOf? entries depth).isSome := by
  rw [isSome_entriesOf?_iff_forall, isSome_entriesOf?_iff_forall]
  constructor
  · intro hunnamed entry hmem
    by_cases hkey : entry.1 = opKey
    · have hvalue : entry.2 ∈ valuesUnder opKey entries :=
        List.mem_map_of_mem (List.mem_filter.mpr ⟨hmem, beq_iff_eq.mpr hkey⟩)
      rw [h, List.mem_singleton] at hvalue
      rw [hvalue]
      rfl
    · exact hunnamed entry (List.mem_filter.mpr ⟨hmem, bne_iff_ne.mpr hkey⟩)
  · exact fun hall entry hmem => hall entry (List.mem_filter.mp hmem).1

/-- The value of a tree stands for an argument of an operation if the tree gives it. -/
lemma argument?_iff_gives {op : Op} {argument : Field × Argument} {tree : Tree} {value : Value}
    {depth : ℕ} (hmem : argument ∈ op.arguments) (h : tree.value? depth = some value) :
    argument.1.argument? value = some argument.2 ↔ tree.Gives argument.2 := by
  rw [Field.argument?_eq_some_iff, argument?_value?_iff h, and_iff_right (Op.takes_of_mem hmem)]

/-- **The values of a map are an operation** if each of its arguments is given once. -/
lemma ofMap_keyed_iff_gives {entries : List (String × Tree)} {values : List (String × Value)}
    {depth : ℕ} (h : entriesOf? (unnamed entries) depth = some values) (kind : Kind) (op : Op) :
    Op.ofMap kind (keyed values) = .ok op ↔ op.kind = kind ∧ ∀ argument ∈ op.arguments,
      ∃ tree : Tree, valuesUnder argument.1.name entries = [tree] ∧ tree.Gives argument.2 := by
  rw [Op.ofMap_keyed_iff]
  refine and_congr_right fun _ => forall₂_congr fun argument hmem => ?_
  have hunder := forall₂_valuesUnder (fun (tree : Tree) value => tree.value? depth = some value)
    (entriesOf?_eq_some_iff.mp h) argument.1.name
  rw [valuesUnder_unnamed] at hunder
  rw [Op.argumentsUnder]
  generalize valuesUnder argument.1.name entries = trees,
    valuesUnder argument.1.name values = read at hunder ⊢
  cases hunder with
  | nil => simp
  | cons hread hmore =>
    cases hmore with
    | nil => simp [argument?_iff_gives hmem hread]
    | cons => simp

/-- What relates to one list relates to another if their items match. -/
lemma forall₂_congr_of_forall₂ {α β γ : Type} {P : α → β → Prop} {Q : α → γ → Prop}
    {R : β → γ → Prop} {as : List α} {bs : List β} {cs : List γ} (h : List.Forall₂ R bs cs)
    (hiff : ∀ a ∈ as, ∀ b c, R b c → (P a b ↔ Q a c)) :
    List.Forall₂ P as bs ↔ List.Forall₂ Q as cs := by
  induction h generalizing as with
  | nil => simp
  | @cons b c _ _ hbc _ ih =>
    cases as with
    | nil => simp
    | cons a as =>
      rw [List.forall_mem_cons] at hiff
      rw [List.forall₂_cons, List.forall₂_cons, hiff.1 b c hbc, ih hiff.2]

/-- **The values of a list are an operation** if its items give the arguments in the order of
writing. -/
lemma ofList_iff_gives {items : List Tree} {values : List Value} {depth : ℕ}
    (h : valuesOf? items depth = some values) (kind : Kind) (op : Op) :
    Op.ofList kind values = .ok op ↔ op.kind = kind ∧
      List.Forall₂ (fun argument item => item.Gives argument.2) op.arguments items := by
  rw [Op.ofList_eq_ok_iff, forall₂_congr_of_forall₂ (valuesOf?_eq_some_iff.mp h)]
  exact fun argument hmem item value hread => (argument?_iff_gives hmem hread).symm

end EditBatch.Json
