import Mathlib.Data.List.Lex
import Mathlib.Data.List.Sort
import TradeStation.Python.Json

/-!
# Dicts and their order

How the lookup in a `dict` goes with its updates, and `sorted` on strings, which compares code point
by code point.
-/

namespace TradeStation.Python

/-- `sorted(strings)`. -/
def sorted (strings : List PyStr) : List PyStr := strings.insertionSort (· ≤ ·)

theorem mem_sorted {strings : List PyStr} {s : PyStr} : s ∈ sorted strings ↔ s ∈ strings :=
  (List.perm_insertionSort _ _).mem_iff

theorem nodup_sorted {strings : List PyStr} (h : strings.Nodup) : (sorted strings).Nodup :=
  (List.perm_insertionSort _ _).nodup_iff.2 h

/-- The order in which strings come does not matter. -/
theorem sorted_congr {strings strings' : List PyStr} (h : strings.Perm strings') :
    sorted strings = sorted strings' := by
  apply List.Perm.eq_of_pairwise' (r := (· ≤ ·))
  · exact List.pairwise_insertionSort _ _
  · exact List.pairwise_insertionSort _ _
  · exact ((List.perm_insertionSort _ _).trans h).trans (List.perm_insertionSort _ _).symm

namespace Json

/-- The keys of a `dict`. -/
def keys (d : Dict) : List PyStr := d.map Prod.fst

variable {d : Dict} {key key' : PyStr} {value : Json}

@[simp] theorem get_nil : get [] key = none := rfl

theorem get_cons : get ((key', value) :: d) key = if key' = key then some value else get d key := by
  rw [get, List.find?_cons]
  by_cases h : key' = key <;> simp [h, get]

theorem mem_of_get (h : get d key = some value) : (key, value) ∈ d := by
  obtain ⟨⟨k, v⟩, hfound, rfl⟩ := Option.map_eq_some_iff.1 h
  obtain rfl : k = key := by simpa using List.find?_some hfound
  exact List.mem_of_find?_eq_some hfound

theorem mem_keys_iff : key ∈ keys d ↔ (get d key).isSome := by
  simp [keys, get]

theorem get_eq_none_iff : get d key = none ↔ key ∉ keys d := by
  rw [mem_keys_iff]
  simp

@[simp] theorem get_insert_self : get (insert d key value) key = some value := by
  induction d with
  | nil => simp [insert, get_cons]
  | cons p d ih =>
    obtain ⟨k, v⟩ := p
    simp only [insert]
    split_ifs with h
    · simp [get_cons, h]
    · rw [get_cons, if_neg h, ih]

theorem get_insert_ne (h : key' ≠ key) : get (insert d key value) key' = get d key' := by
  induction d with
  | nil => simp [insert, get_cons, h.symm]
  | cons p d ih =>
    obtain ⟨k, v⟩ := p
    simp only [insert]
    split_ifs with hk
    · subst hk
      simp [get_cons, h.symm]
    · rw [get_cons, get_cons, ih]

/-- To set what is there changes nothing. -/
theorem insert_get (h : get d key = some value) : insert d key value = d := by
  induction d with
  | nil => simp at h
  | cons p d ih =>
    obtain ⟨k, v⟩ := p
    rw [get_cons] at h
    simp only [insert]
    split_ifs at h ⊢ with hk
    · rw [Option.some.inj h]
    · rw [ih h]

/-- A new key comes last. -/
theorem insert_new (h : key ∉ keys d) : insert d key value = d ++ [(key, value)] := by
  induction d with
  | nil => rfl
  | cons p d ih =>
    obtain ⟨hne, h⟩ := not_or.1 fun hmem => h (List.mem_cons.2 hmem)
    rw [insert, if_neg (Ne.symm hne), ih h, List.cons_append]

theorem foldl_insert {pairs : Dict} (h : (keys (d ++ pairs)).Nodup) :
    pairs.foldl (fun d p => insert d p.1 p.2) d = d ++ pairs := by
  induction pairs generalizing d with
  | nil => exact (List.append_nil d).symm
  | cons p pairs ih =>
    have hp : p.1 ∉ keys d := by
      intro hmem
      rw [keys, List.map_append, List.nodup_append] at h
      exact h.2.2 _ hmem _ List.mem_cons_self rfl
    rw [List.foldl_cons, insert_new hp, ih (by simpa using h), List.append_assoc]
    rfl

/-- Pairs without a repeated key are the entries of the `dict` that is made of them. -/
theorem dict_eq {pairs : Dict} (h : (keys pairs).Nodup) : dict pairs = pairs := foldl_insert h

/-- The entries of an updated `dict`. -/
theorem mem_insert_iff {entry : PyStr × Json} :
    entry ∈ insert d key value ↔ entry ∈ d.eraseP (·.1 = key) ∨ entry = (key, value) := by
  induction d with
  | nil => simp [insert]
  | cons p d ih =>
    obtain ⟨k, v⟩ := p
    simp only [insert, List.eraseP_cons]
    by_cases hk : k = key
    · subst hk
      simp [or_comm]
    · simp [hk, ih, or_assoc]

theorem get_eraseP_ne (h : key' ≠ key) : get (d.eraseP (·.1 = key)) key' = get d key' := by
  induction d with
  | nil => rfl
  | cons p d ih =>
    obtain ⟨k, v⟩ := p
    rw [List.eraseP_cons]
    by_cases hk : k = key
    · subst hk
      simp [get_cons, h.symm]
    · simp only [hk, decide_false, cond_false, get_cons, ih]

/-- In a `dict` no key occurs twice. -/
theorem get_of_mem (hd : (keys d).Nodup) (h : (key, value) ∈ d) : get d key = some value := by
  induction d with
  | nil => simp at h
  | cons p d ih =>
    obtain ⟨k, v⟩ := p
    obtain ⟨hk, hd⟩ := List.nodup_cons.1 hd
    rw [get_cons]
    rcases List.mem_cons.1 h with heq | h
    · cases heq
      exact if_pos rfl
    · have hne : k ≠ key := by
        rintro rfl
        exact hk (List.mem_map.2 ⟨_, h, rfl⟩)
      rw [if_neg hne, ih hd h]

end Json

end TradeStation.Python
