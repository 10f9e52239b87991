import EditBatch.Proofs.Provenance
set_option autoImplicit false

/-!
# What the gaps hold

A character never leaves the gap that it was put into, and only a deletion whose range covers the
gap takes it out. So what a gap holds at any time is what has been put into it and was not taken
out since, oldest first.

## Main definitions

* `EditBatch.Batch.cleared` — whether a gap has been emptied since a given time.
* `EditBatch.Batch.share`, `EditBatch.Batch.held` — what is put into a gap at a given time, and
  what is left of all that.
* `EditBatch.Batch.Precedes` — the order in which characters stand.

## Main results

* `EditBatch.Batch.layout_eq_held` — what a gap holds.
* `EditBatch.Batch.mem_front` — which characters are there.
* `EditBatch.Batch.pairwise_precedes` — they stand in order.
-/

namespace EditBatch

/-- Whether an edit empties a gap. -/
def Edit.clears (gap : ℕ) : Edit → Bool
  | insertion _ _ => false
  | deletion start stop => start.toNat < gap && gap ≤ stop.toNat

namespace Origin

/-- How many edits have come and gone once the character is there. -/
def age : Origin → ℕ
  | original _ => 0
  | inserted number _ => number + 1

/-- The place of a character in the text that it was put in with. -/
def index : Origin → ℕ
  | original _ => 0
  | inserted _ index => index

lemma mem_ofText {number length : ℕ} {origin : Origin} :
    origin ∈ ofText number length ↔ ∃ index < length, origin = .inserted number index := by
  rw [ofText, List.mem_map]
  constructor
  · rintro ⟨index, hindex, rfl⟩
    exact ⟨index, List.mem_range.mp hindex, rfl⟩
  · rintro ⟨index, hindex, rfl⟩
    exact ⟨index, List.mem_range.mpr hindex, rfl⟩

end Origin

namespace Batch

variable (batch : Batch)

/-! ## What a gap holds -/

/-- Whether a gap has been emptied, after `now` edits, by one of those from number `age` on. -/
def cleared (age now gap : ℕ) : Bool :=
  ((batch.edits.take now).drop age).any (Edit.clears gap)

/-- What is put into a gap, by the document itself or by the edit with number `age - 1`. -/
def share (gap : ℕ) : ℕ → List Origin
  | 0 => Layout.unedited gap
  | number + 1 =>
    match batch.edits[number]? with
    | some edit =>
      if gap = (batch.layout number).seat edit.start.toNat then
        Origin.ofText number edit.text.length
      else []
    | none => []

lemma cleared_self (now gap : ℕ) : batch.cleared now now gap = false := by
  rw [cleared, List.drop_take_self]
  rfl

lemma cleared_succ {number : ℕ} {edit : Edit} (h : batch.edits[number]? = some edit) {age : ℕ}
    (hage : age ≤ number) (gap : ℕ) :
    batch.cleared age (number + 1) gap = (batch.cleared age number gap || edit.clears gap) := by
  have hlt : number < batch.edits.length := (List.getElem?_eq_some_iff.mp h).1
  have hlength : (batch.edits.take number).length = number := List.length_take_of_le hlt.le
  rw [cleared, List.take_add_one, h, List.drop_append_of_le_length (by omega), List.any_append,
    ← cleared]
  simp

/-- What has been taken out stays so. -/
lemma cleared_mono {age now later gap : ℕ} (hle : now ≤ later)
    (h : batch.cleared age later gap = false) : batch.cleared age now gap = false := by
  rw [cleared, List.any_eq_false] at h ⊢
  intro edit hmem
  rw [← List.take_append_drop now (batch.edits.take later), List.take_take, Nat.min_eq_left hle,
    List.drop_append] at h
  exact h edit (List.mem_append_left _ hmem)

/-- The deletions that clear a gap. -/
lemma cleared_eq_true {age gap : ℕ} :
    batch.cleared age batch.edits.length gap = true ↔
      ∃ number start stop, age ≤ number ∧ batch.edits[number]? = some (.deletion start stop) ∧
        start.toNat < gap ∧ gap ≤ stop.toNat := by
  rw [cleared, List.take_length, List.any_eq_true]
  constructor
  · rintro ⟨edit, hmem, hclears⟩
    obtain ⟨number, h⟩ := List.mem_iff_getElem?.mp hmem
    rw [List.getElem?_drop] at h
    cases edit with
    | insertion place text => simp [Edit.clears] at hclears
    | deletion start stop =>
      simp only [Edit.clears, Bool.and_eq_true, decide_eq_true_eq] at hclears
      exact ⟨age + number, start, stop, Nat.le_add_right age number, h, hclears⟩
  · rintro ⟨number, start, stop, hage, h, hclears⟩
    refine ⟨.deletion start stop, ?_, by simpa [Edit.clears] using hclears⟩
    apply List.mem_of_getElem? (i := number - age)
    rw [List.getElem?_drop, Nat.add_sub_cancel' hage, h]

/-- What was put into a gap and not taken out since, oldest first. -/
def held (now gap : ℕ) : List Origin :=
  (List.range (now + 1)).flatMap fun age =>
    if batch.cleared age now gap then [] else batch.share gap age

lemma held_zero (gap : ℕ) : batch.held 0 gap = Layout.unedited gap := by
  simp [held, List.range_succ, cleared_self, share]

/-- An edit may empty a gap, and then puts its own share into it. -/
lemma held_succ {number : ℕ} {edit : Edit} (h : batch.edits[number]? = some edit) (gap : ℕ) :
    batch.held (number + 1) gap =
      (if edit.clears gap then [] else batch.held number gap) ++ batch.share gap (number + 1) := by
  have hearlier : ∀ age ∈ List.range (number + 1),
      (if batch.cleared age (number + 1) gap then [] else batch.share gap age) =
        if edit.clears gap then []
        else if batch.cleared age number gap then [] else batch.share gap age := by
    intro age hage
    rw [List.mem_range] at hage
    rw [batch.cleared_succ h (by omega)]
    cases edit.clears gap <;> simp
  rw [held, List.range_succ, List.flatMap_append, List.flatMap_singleton, cleared_self,
    List.flatMap_congr hearlier, held]
  cases edit.clears gap <;> simp

/-- **A layout holds** in each gap what was put into it and not taken out since. -/
lemma layout_eq_held {now : ℕ} (hnow : now ≤ batch.edits.length) (gap : ℕ) :
    batch.layout now gap = batch.held now gap := by
  induction now with
  | zero => rw [held_zero, layout]
  | succ number ih =>
    obtain ⟨edit, h⟩ := batch.exists_edit hnow
    rw [batch.held_succ h, layout_succ batch h, share, h, ← ih (by omega)]
    cases edit with
    | insertion place text =>
      simp only [Edit.clears, Layout.edit, Layout.insert, Edit.start, Edit.text]
      split_ifs <;> simp_all
    | deletion start stop =>
      have hnone : Origin.ofText number (Edit.deletion start stop).text.length = [] := rfl
      simp only [Edit.clears, Layout.edit, Layout.delete, hnone, ite_self, List.append_nil,
        Bool.and_eq_true, decide_eq_true_eq]

/-- The gap that a character is put into. -/
def gap : Origin → ℕ
  | .original offset => offset + 1
  | .inserted number _ =>
    match batch.edits[number]? with
    | some edit => (batch.layout number).seat edit.start.toNat
    | none => 0

/-- Whether there is such a character. -/
def Has : Origin → Prop
  | .original _ => True
  | .inserted number index => ∃ edit, batch.edits[number]? = some edit ∧ index < edit.text.length

lemma mem_share {gap age : ℕ} {origin : Origin} :
    origin ∈ batch.share gap age ↔
      origin.age = age ∧ batch.gap origin = gap ∧ batch.Has origin := by
  cases age with
  | zero =>
    cases gap <;> cases origin <;>
      simp [share, Layout.unedited, Origin.age, Batch.gap, Has, eq_comm]
  | succ number =>
    rw [share]
    constructor
    · intro hmem
      rcases h : batch.edits[number]? with _ | edit
      · simp [h] at hmem
      · simp only [h] at hmem
        split_ifs at hmem with hgap
        · obtain ⟨index, hindex, rfl⟩ := Origin.mem_ofText.mp hmem
          refine ⟨rfl, ?_, edit, h, hindex⟩
          rw [Batch.gap, h, hgap]
        · simp at hmem
    · rintro ⟨hage, hgap, hhas⟩
      cases origin with
      | original offset => simp [Origin.age] at hage
      | inserted other index =>
        obtain rfl : other = number := by simpa [Origin.age] using hage
        obtain ⟨edit, h, hindex⟩ := hhas
        rw [Batch.gap, h] at hgap
        simp only [h, ← hgap, if_true]
        exact Origin.mem_ofText.mpr ⟨index, hindex, rfl⟩

lemma mem_held {now gap : ℕ} {origin : Origin} :
    origin ∈ batch.held now gap ↔ batch.gap origin = gap ∧ origin.age ≤ now ∧ batch.Has origin ∧
      batch.cleared origin.age now gap = false := by
  rw [held, List.mem_flatMap]
  constructor
  · rintro ⟨age, hage, hmem⟩
    split_ifs at hmem with hcleared
    · simp at hmem
    · obtain ⟨rfl, hgap, hhas⟩ := batch.mem_share.mp hmem
      rw [List.mem_range] at hage
      exact ⟨hgap, by omega, hhas, by simpa using hcleared⟩
  · rintro ⟨hgap, hage, hhas, hcleared⟩
    refine ⟨origin.age, List.mem_range.mpr (by omega), ?_⟩
    rw [hcleared]
    exact batch.mem_share.mpr ⟨rfl, hgap, hhas⟩

/-- **What stands in front of an offset** is what was put into the gaps in front of it and not
taken out since. -/
lemma mem_front {now offset : ℕ} (hnow : now ≤ batch.edits.length) {origin : Origin} :
    origin ∈ (batch.layout now).front offset ↔ batch.gap origin ≤ offset ∧ origin.age ≤ now ∧
      batch.Has origin ∧ batch.cleared origin.age now (batch.gap origin) = false := by
  rw [Layout.front_eq_flatMap, List.mem_flatMap]
  constructor
  · rintro ⟨gap, hgap, hmem⟩
    rw [batch.layout_eq_held hnow] at hmem
    obtain ⟨rfl, hmem⟩ := batch.mem_held.mp hmem
    exact ⟨by rw [List.mem_range] at hgap; omega, hmem⟩
  · rintro ⟨hgap, hmem⟩
    refine ⟨batch.gap origin, List.mem_range.mpr (by omega), ?_⟩
    rw [batch.layout_eq_held hnow]
    exact batch.mem_held.mpr ⟨rfl, hmem⟩

/-- The gap of a character that survives is not empty from the time on that the character is
there. -/
lemma layout_gap_ne_nil {now size : ℕ} (hnow : now ≤ batch.edits.length) {origin : Origin}
    (hmem : origin ∈ (batch.layout batch.edits.length).front size) (hage : origin.age ≤ now) :
    batch.layout now (batch.gap origin) ≠ [] := by
  obtain ⟨-, -, hhas, hcleared⟩ := (batch.mem_front le_rfl).mp hmem
  rw [batch.layout_eq_held hnow]
  exact List.ne_nil_of_mem (batch.mem_held.mpr ⟨rfl, hage, hhas, batch.cleared_mono hnow hcleared⟩)

lemma gap_inserted {number : ℕ} {edit : Edit} (h : batch.edits[number]? = some edit)
    (index : ℕ) :
    batch.gap (.inserted number index) = (batch.layout number).seat edit.start.toNat := by
  rw [Batch.gap, h]

/-- A text whose gap is not emptied later is kept in one piece. -/
lemma ofText_infix_front {number size : ℕ} {place : Offset} {text : String}
    (h : batch.edits[number]? = some (.insertion place text))
    (hseat : (batch.layout number).seat place.toNat ≤ size)
    (hcleared : batch.cleared (number + 1) batch.edits.length
      ((batch.layout number).seat place.toNat) = false) :
    Origin.ofText number text.length <:+: (batch.layout batch.edits.length).front size := by
  have hnumber : number < batch.edits.length := (List.getElem?_eq_some_iff.mp h).1
  have hshare : batch.share ((batch.layout number).seat place.toNat) (number + 1) =
      Origin.ofText number text.length := by
    simp [share, h, Edit.start, Edit.text]
  have hheld : Origin.ofText number text.length <:+:
      batch.held batch.edits.length ((batch.layout number).seat place.toNat) := by
    rw [held, List.flatMap_def]
    apply List.infix_of_mem_flatten
    rw [List.mem_map]
    refine ⟨number + 1, List.mem_range.mpr (by omega), ?_⟩
    rw [hcleared, hshare]
    rfl
  rw [← batch.layout_eq_held le_rfl] at hheld
  refine hheld.trans ?_
  rw [Layout.front_eq_flatMap]
  exact List.infix_of_mem_flatten (List.mem_map_of_mem (List.mem_range.mpr (by omega)))

/-! ## The order of characters -/

/-- The order in which characters stand: by their gaps, in a gap the older first, and those of a
text as in the text. -/
def Precedes (a b : Origin) : Prop :=
  batch.gap a < batch.gap b ∨
    batch.gap a = batch.gap b ∧ (a.age < b.age ∨ a.age = b.age ∧ a.index < b.index)

variable {batch} in
lemma Precedes.asymm {a b : Origin} (h : batch.Precedes a b) : ¬ batch.Precedes b a := by
  unfold Precedes at h ⊢
  omega

lemma pairwise_share (gap age : ℕ) : (batch.share gap age).Pairwise batch.Precedes := by
  have hindex : (batch.share gap age).Pairwise fun a b => a.index < b.index := by
    unfold share
    cases age with
    | zero => cases gap <;> simp [Layout.unedited]
    | succ number =>
      simp only
      split
      · split_ifs
        · rw [Origin.ofText, List.pairwise_map]
          exact List.pairwise_lt_range
        · exact List.Pairwise.nil
      · exact List.Pairwise.nil
  apply hindex.imp_of_mem
  intro a b ha hb hlt
  obtain ⟨hage, hgap, -⟩ := batch.mem_share.mp ha
  obtain ⟨hage', hgap', -⟩ := batch.mem_share.mp hb
  exact .inr ⟨hgap.trans hgap'.symm, .inr ⟨hage.trans hage'.symm, hlt⟩⟩

lemma pairwise_held (now gap : ℕ) : (batch.held now gap).Pairwise batch.Precedes := by
  rw [held, List.pairwise_flatMap]
  constructor
  · intro age _
    split_ifs
    · exact List.Pairwise.nil
    · exact batch.pairwise_share gap age
  · have hshare : ∀ age, ∀ origin ∈ if batch.cleared age now gap then [] else batch.share gap age,
        origin.age = age ∧ batch.gap origin = gap := by
      intro age origin hmem
      split_ifs at hmem
      · simp at hmem
      · obtain ⟨hage, hgap, -⟩ := batch.mem_share.mp hmem
        exact ⟨hage, hgap⟩
    refine List.pairwise_lt_range.imp fun hlt a ha b hb => ?_
    obtain ⟨rfl, hgap⟩ := hshare _ a ha
    obtain ⟨rfl, hgap'⟩ := hshare _ b hb
    exact .inr ⟨hgap.trans hgap'.symm, .inl hlt⟩

/-- **The characters stand in order.** -/
lemma pairwise_precedes {now : ℕ} (hnow : now ≤ batch.edits.length) (offset : ℕ) :
    ((batch.layout now).front offset).Pairwise batch.Precedes := by
  rw [Layout.front_eq_flatMap, List.pairwise_flatMap]
  constructor
  · intro gap _
    rw [batch.layout_eq_held hnow]
    exact batch.pairwise_held now gap
  · refine List.pairwise_lt_range.imp fun hlt a ha b hb => ?_
    rw [batch.layout_eq_held hnow] at ha hb
    obtain ⟨rfl, -⟩ := batch.mem_held.mp ha
    obtain ⟨rfl, -⟩ := batch.mem_held.mp hb
    exact .inl hlt

variable {batch} in
/-- Which of two characters stands first. -/
lemma lt_iff_precedes {origins : List Origin} (h : origins.Pairwise batch.Precedes) {p q : ℕ}
    {a b : Origin} (hp : origins[p]? = some a) (hq : origins[q]? = some b) :
    p < q ↔ batch.Precedes a b := by
  obtain ⟨hp', rfl⟩ := List.getElem?_eq_some_iff.mp hp
  obtain ⟨hq', rfl⟩ := List.getElem?_eq_some_iff.mp hq
  rw [List.pairwise_iff_getElem] at h
  constructor
  · exact h p q hp' hq'
  · intro hprecedes
    rcases Nat.lt_trichotomy p q with hlt | rfl | hgt
    · exact hlt
    · exact absurd hprecedes hprecedes.asymm
    · exact absurd hprecedes (h q p hq' hp' hgt).asymm

end Batch

end EditBatch
