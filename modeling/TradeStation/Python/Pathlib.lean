import Mathlib.Data.List.Basic
import TradeStation.Python.Text

/-!
# Paths of the file system

`pathlib.Path` on POSIX, as its text: the empty components and those that are a dot are dropped, and so
are all but one of the slashes in front, unless there are two.

* `pathText_pathText`: the text of a path is the one of the path that it reads as.
-/

namespace TradeStation.Python

/-- `posixpath.splitroot`, less the drive. -/
def splitRoot (path : PyStr) : PyStr × PyStr :=
  match path with
  | 0x2f :: 0x2f :: rest =>
    if rest.head? = some 0x2f then (str "/", 0x2f :: rest) else (str "//", rest)
  | 0x2f :: rest => (str "/", rest)
  | rest => ([], rest)

/-- The components of a path. -/
def components (path : PyStr) : List PyStr :=
  (path.splitOn 0x2f).filter fun part => part ≠ [] ∧ part ≠ str "."

/-- Components with slashes in between. -/
def joinComponents (parts : List PyStr) : PyStr := (str "/").intercalate parts

/-- `str(Path(text))`. -/
def pathText (text : PyStr) : PyStr :=
  let shown := (splitRoot text).1 ++ joinComponents (components (splitRoot text).2)
  if shown = [] then str "." else shown

/-- Texts that are components of a path. -/
def AreComponents (parts : List PyStr) : Prop :=
  ∀ part ∈ parts, part ≠ [] ∧ part ≠ str "." ∧ 0x2f ∉ part

/-- What is between two slashes has none. -/
theorem slash_not_mem {path part : PyStr} (h : part ∈ path.splitOn 0x2f) : 0x2f ∉ part := by
  induction path generalizing part with
  | nil =>
    rw [List.splitOn_nil, List.mem_singleton] at h
    simp [h]
  | cons c path ih =>
    obtain ⟨first, rest, hsplit⟩ := List.exists_cons_of_ne_nil (List.splitOn_ne_nil 0x2f path)
    rw [List.splitOn_cons_eq_if_modifyHead] at h
    split_ifs at h with hc
    · rcases List.mem_cons.1 h with rfl | h
      · exact List.not_mem_nil
      · exact ih h
    · rw [hsplit] at h ih
      rcases List.mem_cons.1 h with rfl | h
      · have hne : 0x2f ≠ c := fun heq => hc (by simp [heq])
        exact List.not_mem_cons_of_ne_of_not_mem hne (ih List.mem_cons_self)
      · exact ih (List.mem_cons_of_mem _ h)

theorem areComponents_components (path : PyStr) : AreComponents (components path) := by
  intro part hpart
  obtain ⟨hmem, hkept⟩ := List.mem_filter.1 hpart
  obtain ⟨hne, hdot⟩ := of_decide_eq_true hkept
  exact ⟨hne, hdot, slash_not_mem hmem⟩

/-- Components are read back. -/
theorem components_joinComponents {parts : List PyStr} (h : AreComponents parts) :
    components (joinComponents parts) = parts := by
  cases parts with
  | nil => rfl
  | cons part parts =>
    have hslash : ∀ part' ∈ part :: parts, 0x2f ∉ part' := fun part' hpart => (h part' hpart).2.2
    rw [components, joinComponents]
    change ((List.intercalate [0x2f] (part :: parts)).splitOn 0x2f).filter _ = _
    rw [List.splitOn_intercalate 0x2f hslash (by simp), List.filter_eq_self]
    exact fun part' hpart => decide_eq_true ⟨(h part' hpart).1, (h part' hpart).2.1⟩

/-- What starts with a component starts with no slash. -/
theorem head_joinComponents {parts : List PyStr} (h : AreComponents parts) :
    (joinComponents parts).head? ≠ some 0x2f := by
  cases parts with
  | nil => simp [joinComponents, List.intercalate]
  | cons part parts =>
    obtain ⟨hne, -, hslash⟩ := h part List.mem_cons_self
    obtain ⟨c, rest, rfl⟩ := List.exists_cons_of_ne_nil hne
    have hc : c ≠ 0x2f := fun hc => hslash (hc ▸ List.mem_cons_self)
    cases parts <;> simpa [joinComponents, List.intercalate] using hc

/-- The root is read back. -/
theorem splitRoot_append {root rel : PyStr} (hroot : root = [] ∨ root = str "/" ∨ root = str "//")
    (hrel : rel.head? ≠ some 0x2f) : splitRoot (root ++ rel) = (root, rel) := by
  rcases hroot with rfl | rfl | rfl
  · cases rel with
    | nil => rfl
    | cons c rel =>
      have hc : c ≠ 0x2f := by simpa using hrel
      rw [List.nil_append]
      unfold splitRoot
      split <;> simp_all
  · cases rel with
    | nil => rfl
    | cons c rel =>
      have hc : c ≠ 0x2f := by simpa using hrel
      change splitRoot (0x2f :: c :: rel) = _
      unfold splitRoot
      split <;> simp_all
  · change splitRoot (0x2f :: 0x2f :: rel) = _
    rw [splitRoot, if_neg hrel]

theorem root_splitRoot (path : PyStr) :
    (splitRoot path).1 = [] ∨ (splitRoot path).1 = str "/" ∨ (splitRoot path).1 = str "//" := by
  unfold splitRoot
  split
  · split_ifs <;> simp
  · simp
  · simp

/-- **The text of a path is in normal form.** -/
theorem pathText_pathText (text : PyStr) : pathText (pathText text) = pathText text := by
  have hparts := areComponents_components (splitRoot text).2
  have hroot := root_splitRoot text
  have htext : pathText text = if (splitRoot text).1 ++ joinComponents (components (splitRoot text).2) = []
      then str "." else (splitRoot text).1 ++ joinComponents (components (splitRoot text).2) := rfl
  rw [htext]
  generalize (splitRoot text).1 = root at hroot ⊢
  generalize components (splitRoot text).2 = parts at hparts ⊢
  by_cases hnone : root ++ joinComponents parts = []
  · rw [if_pos hnone]
    rfl
  · rw [if_neg hnone, pathText, splitRoot_append hroot (head_joinComponents hparts),
      components_joinComponents hparts]
    exact if_neg hnone

example : pathText (str ".//a/./b/") = str "a/b" := by decide

end TradeStation.Python
