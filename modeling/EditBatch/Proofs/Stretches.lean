import Mathlib.Data.Nat.Basic
import Mathlib.Logic.Function.Basic
import Mathlib.Order.Basic
import Mathlib.Tactic.Common
set_option autoImplicit false

/-!
# Stretches of a text

Some stretches of a text that do not overlap can be given other contents, each without regard to
the others. The text between them stays, and so a gap between two stretches keeps them apart
whatever they contain.

## Main definitions

* `EditBatch.Stretches` — stretches of a text, from the front to the end.
* `EditBatch.Stretches.woven` — the text with other contents in its stretches.

## Main results

* `EditBatch.Stretches.exists_woven_eq` — a stretch cuts the text into three.
* `EditBatch.Stretches.length_lt_of_gap` — what a gap between two stretches means for their places.
-/

namespace EditBatch

/-- Some stretches of a text, numbered from the front, that do not overlap. -/
structure Stretches where
  text : List Char
  /-- How many stretches there are. -/
  count : ℕ
  /-- Where a stretch starts. The end of the text counts as the start of one more. -/
  start : ℕ → ℕ
  /-- Where a stretch stops. -/
  stop : ℕ → ℕ
  start_le_stop {number : ℕ} (h : number < count) : start number ≤ stop number
  stop_le_start {number : ℕ} (h : number < count) : stop number ≤ start (number + 1)
  start_count : start count = text.length

namespace Stretches

variable (stretches : Stretches) (content : ℕ → List Char)

/-- What a stretch contains in the text. -/
def kept (number : ℕ) : List Char :=
  (stretches.text.take (stretches.stop number)).drop (stretches.start number)

/-- The text up to the start of a stretch, with other contents in the stretches in front of it. -/
def woven : ℕ → List Char
  | 0 => stretches.text.take (stretches.start 0)
  | number + 1 =>
    woven number ++ content number ++
      (stretches.text.take (stretches.start (number + 1))).drop (stretches.stop number)

lemma start_le_start {number later : ℕ} (h : number ≤ later) (hcount : later ≤ stretches.count) :
    stretches.start number ≤ stretches.start later := by
  induction later, h using Nat.le_induction with
  | base => exact le_rfl
  | succ later hle ih =>
    exact (ih (by omega)).trans
      ((stretches.start_le_stop hcount).trans (stretches.stop_le_start hcount))

lemma start_le_length {number : ℕ} (h : number ≤ stretches.count) :
    stretches.start number ≤ stretches.text.length :=
  (stretches.start_le_start h le_rfl).trans stretches.start_count.le

/-- The front of the text goes on with what is cut out behind it. -/
lemma take_append_drop_take {front behind : ℕ} (h : front ≤ behind) :
    stretches.text.take front ++ (stretches.text.take behind).drop front =
      stretches.text.take behind := by
  have hcut := List.take_append_drop front (stretches.text.take behind)
  rwa [List.take_take, Nat.min_eq_left h] at hcut

/-- What is woven depends on the contents in front. -/
lemma woven_congr {other : ℕ → List Char} {number : ℕ}
    (h : ∀ earlier < number, content earlier = other earlier) :
    stretches.woven content number = stretches.woven other number := by
  induction number with
  | zero => rfl
  | succ number ih =>
    rw [woven, woven, ih fun earlier hlt => h earlier (by omega), h number (by omega)]

/-- With its own contents in the stretches, the text stays as it is. -/
lemma woven_kept {number : ℕ} (h : number ≤ stretches.count) :
    stretches.woven stretches.kept number = stretches.text.take (stretches.start number) := by
  induction number with
  | zero => rfl
  | succ number ih =>
    have hlt : number < stretches.count := h
    rw [woven, ih (by omega), kept, stretches.take_append_drop_take (stretches.start_le_stop hlt),
      stretches.take_append_drop_take (stretches.stop_le_start hlt)]

/-- A stretch cuts what is woven behind it into three. -/
lemma exists_woven_eq {number later : ℕ} (h : number < later) :
    ∃ rest, ∀ added, stretches.woven (Function.update content number added) later =
      stretches.woven content number ++ added ++ rest := by
  induction later, h using Nat.le_induction with
  | base =>
    refine ⟨(stretches.text.take (stretches.start (number + 1))).drop (stretches.stop number),
      fun added => ?_⟩
    have hcongr : stretches.woven (Function.update content number added) number =
        stretches.woven content number :=
      stretches.woven_congr _ fun earlier hlt => Function.update_of_ne (by omega) _ _
    rw [woven, hcongr, Function.update_self]
  | succ later hle ih =>
    obtain ⟨rest, hrest⟩ := ih
    refine ⟨rest ++ content later ++
      (stretches.text.take (stretches.start (later + 1))).drop (stretches.stop later),
      fun added => ?_⟩
    rw [woven, hrest, Function.update_of_ne (by omega)]
    simp

/-- A stretch ends in front of all that is woven behind it. -/
lemma length_le_of_lt {number later : ℕ} (h : number < later) :
    (stretches.woven content number ++ content number).length ≤
      (stretches.woven content later).length := by
  obtain ⟨rest, hrest⟩ := stretches.exists_woven_eq content h
  have hlength := congrArg List.length (hrest (content number))
  rw [Function.update_eq_self, List.length_append] at hlength
  omega

lemma length_le_of_le {number later : ℕ} (h : number ≤ later) :
    (stretches.woven content number).length ≤ (stretches.woven content later).length := by
  rcases Nat.lt_or_ge number later with hlt | hge
  · have hle := stretches.length_le_of_lt content hlt
    rw [List.length_append] at hle
    omega
  · rw [Nat.le_antisymm h hge]

/-- **A gap between two stretches** keeps the end of one and the start of the other apart. -/
lemma length_lt_of_gap {number gap later : ℕ} (hnumber : number ≤ gap) (hlater : gap < later)
    (hcount : later ≤ stretches.count) (hgap : stretches.stop gap < stretches.start (gap + 1)) :
    (stretches.woven content number ++ content number).length <
      (stretches.woven content later).length := by
  have hfront : (stretches.woven content number ++ content number).length ≤
      (stretches.woven content gap ++ content gap).length := by
    rcases Nat.lt_or_ge number gap with hlt | hge
    · have hle := stretches.length_le_of_lt content hlt
      refine hle.trans ?_
      rw [List.length_append]
      exact Nat.le_add_right _ _
    · rw [Nat.le_antisymm hnumber hge]
  have hbehind := stretches.length_le_of_le content hlater
  have hlength := stretches.start_le_length (show gap + 1 ≤ stretches.count by omega)
  rw [Nat.succ_eq_add_one, woven, List.length_append, List.length_drop,
    List.length_take_of_le hlength] at hbehind
  omega

end Stretches

end EditBatch
