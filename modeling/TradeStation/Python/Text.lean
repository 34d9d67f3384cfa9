import Mathlib.Data.List.DropRight

/-!
# Python strings

A Python `str` is a sequence of code points, and a code point may be a lone surrogate, which no
Lean `Char` is. `PyStr` is therefore a list of natural numbers; `str` reads a literal.

Text that was decoded from UTF-8 has no surrogates and is a `List Char`.
-/

namespace TradeStation.Python

/-- A Python `str`, by its code points. -/
abbrev PyStr := List ℕ

instance : LawfulBEq PyStr := inferInstance

/-- The Python string with the characters of a literal. -/
def str (s : String) : PyStr := s.toList.map Char.toNat

theorem str_inj {s t : String} : str s = str t ↔ s = t := by
  constructor
  · intro h
    have hlist : s.toList = t.toList := by
      apply List.map_injective_iff.2 _ h
      intro c d hcd
      exact Char.ext (UInt32.toNat_inj.1 hcd)
    exact String.toList_inj.1 hlist
  · exact congrArg str

/-- None of the code points is a surrogate: the text has an encoding in UTF-8. -/
def NoSurrogate (s : PyStr) : Prop := ∀ c ∈ s, ¬(0xd800 ≤ c ∧ c ≤ 0xdfff)

instance : DecidablePred NoSurrogate := fun s =>
  inferInstanceAs (Decidable (∀ c ∈ s, ¬(0xd800 ≤ c ∧ c ≤ 0xdfff)))

/-- `str.isspace` on one code point. -/
def isSpace (c : ℕ) : Bool :=
  (0x09 ≤ c && c ≤ 0x0d) || (0x1c ≤ c && c ≤ 0x20) || c == 0x85 || c == 0xa0 || c == 0x1680 ||
    (0x2000 ≤ c && c ≤ 0x200a) || c == 0x2028 || c == 0x2029 || c == 0x202f || c == 0x205f ||
    c == 0x3000

/-- `str.strip()`. -/
def strip (s : PyStr) : PyStr := (s.dropWhile isSpace).rdropWhile isSpace

theorem strip_strip (s : PyStr) : strip (strip s) = strip s := by
  have hdrop : (strip s).dropWhile isSpace = strip s := by
    rw [List.dropWhile_eq_self_iff]
    intro hpos
    obtain ⟨rest, hrest⟩ : strip s <+: s.dropWhile isSpace := List.rdropWhile_prefix _ _
    have hne : s.dropWhile isSpace ≠ [] := by
      intro hnil
      rw [hnil] at hrest
      simp_all
    have hhead := List.head_dropWhile_not isSpace hne
    simp only [← hrest] at hhead
    rw [List.head_append_of_ne_nil (List.ne_nil_of_length_pos hpos)] at hhead
    rw [← List.head_eq_getElem (List.ne_nil_of_length_pos hpos)]
    simpa using hhead
  rw [strip, hdrop, strip, List.rdropWhile_idempotent]

theorem mem_of_mem_strip {s : PyStr} {c : ℕ} (h : c ∈ strip s) : c ∈ s :=
  List.dropWhile_subset _ ((List.rdropWhile_prefix _ _).subset h)

/-- `str.lstrip()` on decoded text. -/
def lstrip (s : List Char) : List Char := s.dropWhile fun c => isSpace c.toNat

/-- `str.startswith`. -/
def startsWith (s : PyStr) (start : PyStr) : Bool := start.isPrefixOf s

/-- `sep.join(parts)`. -/
def join (sep : PyStr) (parts : List PyStr) : PyStr := List.flatten (parts.intersperse sep)

/-- `str.upper` on one code point, exact as far as the result has ASCII letters; the other letters
are left as they are. -/
def upperChar (c : ℕ) : PyStr :=
  if 0x61 ≤ c ∧ c ≤ 0x7a then [c - 0x20]
  else match c with
    | 0xdf => str "SS"
    | 0x131 => str "I"
    | 0x149 => [0x2bc, 0x4e]
    | 0x17f => str "S"
    | 0x1f0 => [0x4a, 0x30c]
    | 0x1e96 => [0x48, 0x331]
    | 0x1e97 => [0x54, 0x308]
    | 0x1e98 => [0x57, 0x30a]
    | 0x1e99 => [0x59, 0x30a]
    | 0x1e9a => [0x41, 0x2be]
    | 0xfb00 => str "FF"
    | 0xfb01 => str "FI"
    | 0xfb02 => str "FL"
    | 0xfb03 => str "FFI"
    | 0xfb04 => str "FFL"
    | 0xfb05 | 0xfb06 => str "ST"
    | c => [c]

/-- `str.upper`. -/
def upper (s : PyStr) : PyStr := s.flatMap upperChar

/-- `s.replace(c, "")` for one character. -/
def without (s : PyStr) (c : ℕ) : PyStr := s.filter (· ≠ c)

end TradeStation.Python
