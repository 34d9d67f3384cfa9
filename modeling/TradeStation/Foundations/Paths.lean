import Mathlib.Data.List.Basic
import Mathlib.Data.Nat.Notation

/-!
# Paths of segments

A path is a list of segments, each with a separator in front. Segments that stand for "here" and "up"
are removed, which is how two paths to one place are made one.

* `segmentsOf_joinSegments`: segments without a separator are read off the path again.
* `dropDots`: the removal. It leaves alone a path without such segments (`dropDots_eq_self`),
  leaves none of them (`mem_dropDots`), and makes the path shorter where there is one
  (`length_dropDots`).
-/

namespace TradeStation.Foundations

variable {α : Type} (slash : α) (here up : List α)

/-- A path of some segments, with something behind it. -/
def joinSegments : List (List α) → List α → List α
  | [], behind => behind
  | segment :: segments, behind => slash :: (segment ++ joinSegments segments behind)

theorem joinSegments_append (segments : List (List α)) (behind : List α) :
    joinSegments slash segments behind = joinSegments slash segments [] ++ behind := by
  induction segments with
  | nil => rfl
  | cons segment segments ih =>
    rw [joinSegments, joinSegments, ih, List.cons_append, List.append_assoc]

theorem mem_joinSegments {segments : List (List α)} {a : α}
    (h : a ∈ joinSegments slash segments []) : a = slash ∨ ∃ segment ∈ segments, a ∈ segment := by
  induction segments with
  | nil => cases h
  | cons segment segments ih =>
    rcases List.mem_cons.1 h with rfl | hrest
    · exact .inl rfl
    rcases List.mem_append.1 hrest with hsegment | hsegments
    · exact .inr ⟨segment, List.mem_cons_self, hsegment⟩
    · rcases ih hsegments with hslash | ⟨other, hother, hmem⟩
      · exact .inl hslash
      · exact .inr ⟨other, List.mem_cons_of_mem _ hother, hmem⟩

theorem joinSegments_cons (segment : List α) (segments : List (List α)) :
    joinSegments slash (segment :: segments) [] =
      slash :: [slash].intercalate (segment :: segments) := by
  induction segments generalizing segment with
  | nil => simp [joinSegments, List.intercalate]
  | cons next segments ih =>
    rw [joinSegments, ih]
    simp [List.intercalate]

variable [DecidableEq α]

/-- The segments of a path. -/
def segmentsOf (path : List α) : List (List α) := (path.drop 1).splitOn slash

/-- **Segments without a separator are read off the path again.** -/
theorem segmentsOf_joinSegments {segments : List (List α)} (hne : segments ≠ [])
    (h : ∀ segment ∈ segments, slash ∉ segment) :
    segmentsOf slash (joinSegments slash segments []) = segments := by
  obtain ⟨segment, rest, rfl⟩ := List.exists_cons_of_ne_nil hne
  rw [segmentsOf, joinSegments_cons]
  exact List.splitOn_intercalate slash h hne

/-- What has been passed, and a blank segment for the separator in front of the end. -/
def closing (last : Bool) (passed : List (List α)) : List (List α) :=
  if last then [] :: passed else passed

/-- Removing the segments that say `here` and `up`, behind those already passed, the last first. With
`keep`, the separator in front of one of them at the end of the path stays. -/
def dropDots (keep : Bool) : List (List α) → List (List α) → List (List α)
  | passed, [] => passed.reverse
  | passed, segment :: segments =>
    if segment = here then dropDots keep (closing (keep && segments.isEmpty) passed) segments
    else if segment = up then
      dropDots keep (closing (keep && segments.isEmpty) passed.tail) segments
    else dropDots keep (segment :: passed) segments

section
variable {here up} {keep : Bool} {segments : List (List α)}

/-- **A path without such segments is left alone.** -/
theorem dropDots_eq_self (h : ∀ segment ∈ segments, segment ≠ here ∧ segment ≠ up)
    (passed : List (List α)) :
    dropDots here up keep passed segments = passed.reverse ++ segments := by
  induction segments generalizing passed with
  | nil => simp [dropDots]
  | cons segment segments ih =>
    obtain ⟨hhere, hup⟩ := h segment List.mem_cons_self
    rw [dropDots, if_neg hhere, if_neg hup, ih fun s hs => h s (List.mem_cons_of_mem _ hs)]
    simp

omit [DecidableEq α] in
theorem mem_closing {last : Bool} {passed : List (List α)} {segment : List α}
    (h : segment ∈ closing last passed) : segment = [] ∨ segment ∈ passed := by
  cases last with
  | true => exact List.mem_cons.1 h
  | false => exact .inr h

/-- Removing segments leaves fewer, unless a blank one takes the place of the last. -/
theorem length_dropDots (passed : List (List α)) :
    (dropDots here up keep passed segments).length ≤ passed.length + segments.length ∧
      ((here ∈ segments ∨ up ∈ segments) →
        (dropDots here up keep passed segments).length < passed.length + segments.length ∨
          [] ∈ dropDots here up keep passed segments) := by
  induction segments generalizing passed with
  | nil => simp [dropDots]
  | cons segment segments ih =>
    have hremoved : ∀ passed' : List (List α), passed'.length ≤ passed.length →
        (dropDots here up keep (closing (keep && segments.isEmpty) passed') segments).length ≤
            passed.length + (segment :: segments).length ∧
          ((dropDots here up keep (closing (keep && segments.isEmpty) passed') segments).length <
              passed.length + (segment :: segments).length ∨
            [] ∈ dropDots here up keep (closing (keep && segments.isEmpty) passed') segments) := by
      intro passed' hpassed
      rw [List.length_cons]
      cases hlast : keep && segments.isEmpty with
      | true =>
        have hnil : segments = [] := by simp_all
        subst hnil
        simp only [closing, if_true, dropDots, List.length_reverse, List.length_cons,
          List.length_nil, List.mem_reverse, List.mem_cons, true_or, or_true, and_true]
        omega
      | false =>
        have hlength := (ih passed').1
        simp only [closing, Bool.false_eq_true, if_false]
        exact ⟨by omega, .inl (by omega)⟩
    rw [dropDots]
    by_cases hhere : segment = here
    · rw [if_pos hhere]
      exact (hremoved passed (Nat.le_refl _)).imp_right fun h _ => h
    rw [if_neg hhere]
    by_cases hup : segment = up
    · rw [if_pos hup]
      exact (hremoved passed.tail (by simp)).imp_right fun h _ => h
    rw [if_neg hup]
    obtain ⟨hle, hlt⟩ := ih (segment :: passed)
    rw [List.length_cons] at hle hlt
    have hrest : here ∈ segment :: segments ∨ up ∈ segment :: segments →
        here ∈ segments ∨ up ∈ segments := by
      simp [Ne.symm hhere, Ne.symm hup]
    rw [List.length_cons]
    refine ⟨by omega, fun h => (hlt (hrest h)).imp_left fun h => by omega⟩

/-- What is left was passed, or is another segment, or is the blank one at the end. -/
theorem mem_dropDots {passed : List (List α)} {segment : List α}
    (h : segment ∈ dropDots here up keep passed segments) :
    segment = [] ∨ segment ∈ passed ∨ segment ∈ segments ∧ segment ≠ here ∧ segment ≠ up := by
  induction segments generalizing passed with
  | nil => exact .inr (.inl (List.mem_reverse.1 h))
  | cons next segments ih =>
    rw [dropDots] at h
    by_cases hhere : next = here
    · rw [if_pos hhere] at h
      rcases ih h with hblank | hpassed | ⟨hsegments, hne⟩
      · exact .inl hblank
      · exact (mem_closing hpassed).imp_right .inl
      · exact .inr (.inr ⟨List.mem_cons_of_mem _ hsegments, hne⟩)
    rw [if_neg hhere] at h
    by_cases hup : next = up
    · rw [if_pos hup] at h
      rcases ih h with hblank | hpassed | ⟨hsegments, hne⟩
      · exact .inl hblank
      · exact (mem_closing hpassed).imp_right fun htail => .inl (List.mem_of_mem_tail htail)
      · exact .inr (.inr ⟨List.mem_cons_of_mem _ hsegments, hne⟩)
    rw [if_neg hup] at h
    rcases ih h with hblank | hpassed | ⟨hsegments, hne⟩
    · exact .inl hblank
    · rcases List.mem_cons.1 hpassed with rfl | hpassed'
      · exact .inr (.inr ⟨List.mem_cons_self, hhere, hup⟩)
      · exact .inr (.inl hpassed')
    · exact .inr (.inr ⟨List.mem_cons_of_mem _ hsegments, hne⟩)

end

end TradeStation.Foundations
