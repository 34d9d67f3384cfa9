import TradeStation.Python.Dicts
import TradeStation.Python.FixedPoint
import TradeStation.Python.JsonGrammar
import TradeStation.Python.Urls

/-!
# The JSON writer

`json.dumps` with `sort_keys`, compact separators, and everything beyond ASCII escaped: a character
beyond the first plane is written as its two surrogates. What it writes is a text, by the grammar of the
decoder, of the value with its keys in order (`value_dumps`), unless a string holds two surrogates that
the decoder takes for one character.

`dumps_eq_iff`: so two values are written alike exactly when they differ in the order of keys only.

`dumpsInOrder` is the writer without `sort_keys`, and `loads_dumpsInOrder` says that the decoder reads
back the very value.
-/

namespace TradeStation.Python.Json

/-! ## Writing -/

/-- The surrogates of a character beyond the first plane, or the character. -/
def utf16 (n : ℕ) : List ℕ :=
  if n < 0x10000 then [n] else [0xd800 + (n - 0x10000) / 0x400, 0xdc00 + (n - 0x10000) % 0x400]

/-- A hexadecimal digit. -/
def lowerHexDigit (n : ℕ) : Char := if n < 10 then Char.ofNat (0x30 + n) else Char.ofNat (0x61 + (n - 10))

/-- `ESCAPE_DCT`. -/
def shortEscape (n : ℕ) : Option Char :=
  if n = 0x22 then some '"'
  else if n = 0x5c then some '\\'
  else if n = 0x08 then some 'b'
  else if n = 0x0c then some 'f'
  else if n = 0x0a then some 'n'
  else if n = 0x0d then some 'r'
  else if n = 0x09 then some 't'
  else none

/-- A unit of a string: a short escape, itself if it is printable ASCII, or four digits. -/
def escapeUnit (n : ℕ) : List Char :=
  match shortEscape n with
  | some c => ['\\', c]
  | none =>
    if 0x20 ≤ n ∧ n ≤ 0x7e then [Char.ofNat n]
    else
      ['\\', 'u', lowerHexDigit (n / 0x1000), lowerHexDigit (n / 0x100 % 16),
        lowerHexDigit (n / 0x10 % 16), lowerHexDigit (n % 16)]

/-- `py_encode_basestring_ascii`. -/
def quoteString (s : PyStr) : List Char := '"' :: ((s.flatMap utf16).flatMap escapeUnit ++ ['"'])

/-- `int.__repr__`. -/
def intText (n : ℤ) : List Char :=
  if n < 0 then '-' :: Nat.toDigits 10 n.natAbs else Nat.toDigits 10 n.natAbs

/-- Texts with commas between them. -/
def commas : List (List Char) → List Char
  | [] => []
  | [text] => text
  | text :: texts => text ++ ',' :: commas texts

/-- `sorted(dct.items())`, where no two keys are the same. -/
def sortItems {α : Type} (fields : List (PyStr × α)) : List (PyStr × α) :=
  fields.insertionSort fun p q => p.1 ≤ q.1

/-- A key and the text of its value. -/
def memberText (field : PyStr × List Char) : List Char := quoteString field.1 ++ ':' :: field.2

section
variable (floatRepr : PyFloat → List Char)

mutual

/-- `json.dumps(value, sort_keys=True, separators=(",", ":"))`. -/
def dumps : Json → List Char
  | .null => chars "null"
  | .bool true => chars "true"
  | .bool false => chars "false"
  | .int n => intText n
  | .float x => floatRepr x
  | .str s => quoteString s
  | .arr items => '[' :: (commas (dumpsItems items) ++ [']'])
  | .obj fields => '{' :: (commas ((sortItems (dumpsFields fields)).map memberText) ++ ['}'])

/-- The texts of some values. -/
def dumpsItems : List Json → List (List Char)
  | [] => []
  | item :: items => dumps item :: dumpsItems items

/-- Keys with the texts of their values. -/
def dumpsFields : List (PyStr × Json) → List (PyStr × List Char)
  | [] => []
  | (key, value) :: fields => (key, dumps value) :: dumpsFields fields

end

end

mutual

/-- The value with its keys in order, at every depth. -/
def canonical : Json → Json
  | .arr items => .arr (canonicalItems items)
  | .obj fields => .obj (sortItems (canonicalFields fields))
  | value => value

def canonicalItems : List Json → List Json
  | [] => []
  | item :: items => canonical item :: canonicalItems items

def canonicalFields : List (PyStr × Json) → List (PyStr × Json)
  | [] => []
  | (key, value) :: fields => (key, canonical value) :: canonicalFields fields

end

/-- A field with something else under its key. -/
def withValue {α : Type} (f : Json → α) (field : PyStr × Json) : PyStr × α := (field.1, f field.2)

theorem dumpsItems_eq (floatRepr : PyFloat → List Char) (items : List Json) :
    dumpsItems floatRepr items = items.map (dumps floatRepr) := by
  induction items with
  | nil => rfl
  | cons item items ih => rw [dumpsItems, ih, List.map_cons]

theorem dumpsFields_eq (floatRepr : PyFloat → List Char) (fields : List (PyStr × Json)) :
    dumpsFields floatRepr fields = fields.map (withValue (dumps floatRepr)) := by
  induction fields with
  | nil => rfl
  | cons field fields ih => rw [dumpsFields, ih, List.map_cons, withValue]

theorem canonicalItems_eq (items : List Json) : canonicalItems items = items.map canonical := by
  induction items with
  | nil => rfl
  | cons item items ih => rw [canonicalItems, ih, List.map_cons]

theorem canonicalFields_eq (fields : List (PyStr × Json)) :
    canonicalFields fields = fields.map (withValue canonical) := by
  induction fields with
  | nil => rfl
  | cons field fields ih => rw [canonicalFields, ih, List.map_cons, withValue]

/-! ## Payload trees -/

/-- A tree of objects, arrays, strings, booleans, integers and nulls, in whose objects no key occurs
twice. `ok` is what is asked of its strings. -/
inductive IsTree (ok : PyStr → Prop) : Json → Prop
  | null : IsTree ok .null
  | bool (b : Bool) : IsTree ok (.bool b)
  | int (n : ℤ) : IsTree ok (.int n)
  | str {s : PyStr} (hs : ok s) : IsTree ok (.str s)
  | arr {items : List Json} (hitems : ∀ item ∈ items, IsTree ok item) : IsTree ok (.arr items)
  | obj {fields : List (PyStr × Json)} (hnodup : (keys fields).Nodup)
    (hkeys : ∀ field ∈ fields, ok field.1) (hvalues : ∀ field ∈ fields, IsTree ok field.2) :
    IsTree ok (.obj fields)

theorem IsTree.mono {ok ok' : PyStr → Prop} (hok : ∀ s, ok s → ok' s) {v : Json}
    (h : IsTree ok v) : IsTree ok' v := by
  induction h with
  | null => exact .null
  | bool b => exact .bool b
  | int n => exact .int n
  | str hs => exact .str (hok _ hs)
  | arr _ ih => exact .arr ih
  | obj hnodup hkeys _ ih => exact .obj hnodup (fun field hfield => hok _ (hkeys field hfield)) ih

/-- One value becomes the other as the keys of objects change places, at any depth. -/
inductive Reordered : Json → Json → Prop
  | refl (v : Json) : Reordered v v
  | perm {fields fields' : List (PyStr × Json)} (h : fields.Perm fields') :
    Reordered (.obj fields) (.obj fields')
  | item (before : List Json) {v v' : Json} (after : List Json) (h : Reordered v v') :
    Reordered (.arr (before ++ v :: after)) (.arr (before ++ v' :: after))
  | field (before : List (PyStr × Json)) (key : PyStr) {v v' : Json} (after : List (PyStr × Json))
    (h : Reordered v v') :
    Reordered (.obj (before ++ (key, v) :: after)) (.obj (before ++ (key, v') :: after))
  | trans {v v' v'' : Json} (h : Reordered v v') (h' : Reordered v' v'') : Reordered v v''

theorem Reordered.symm {v v' : Json} (h : Reordered v v') : Reordered v' v := by
  induction h with
  | refl v => exact .refl v
  | perm h => exact .perm h.symm
  | item before after _ ih => exact .item before after ih
  | field before key after _ ih => exact .field before key after ih
  | trans _ _ ih ih' => exact .trans ih' ih

/-- Items may be reordered one after the other. -/
theorem reordered_arr {f : Json → Json} (items : List Json)
    (h : ∀ item ∈ items, Reordered item (f item)) (before : List Json) :
    Reordered (.arr (before ++ items)) (.arr (before ++ items.map f)) := by
  induction items generalizing before with
  | nil => exact .refl _
  | cons item items ih =>
    have hfirst := Reordered.item before items (h item List.mem_cons_self)
    have hrest := ih (fun item hitem => h item (List.mem_cons_of_mem _ hitem)) (before ++ [f item])
    rw [List.append_assoc, List.append_assoc] at hrest
    exact hfirst.trans hrest

/-- And so may the values of fields. -/
theorem reordered_obj {f : Json → Json} (fields : List (PyStr × Json))
    (h : ∀ field ∈ fields, Reordered field.2 (f field.2)) (before : List (PyStr × Json)) :
    Reordered (.obj (before ++ fields)) (.obj (before ++ fields.map (withValue f))) := by
  induction fields generalizing before with
  | nil => exact .refl _
  | cons field fields ih =>
    have hfirst := Reordered.field before field.1 fields (h field List.mem_cons_self)
    have hrest := ih (fun field hfield => h field (List.mem_cons_of_mem _ hfield))
      (before ++ [withValue f field])
    rw [List.append_assoc, List.append_assoc] at hrest
    exact hfirst.trans hrest

/-- **A value and its canonical form differ in the order of keys only.** -/
theorem reordered_canonical {ok : PyStr → Prop} {v : Json} (h : IsTree ok v) :
    Reordered v (canonical v) := by
  induction h with
  | null => exact .refl _
  | bool => exact .refl _
  | int => exact .refl _
  | str => exact .refl _
  | @arr items _ ih =>
    rw [canonical, canonicalItems_eq]
    exact reordered_arr items ih []
  | @obj fields _ _ _ ih =>
    rw [canonical, canonicalFields_eq]
    exact (reordered_obj fields ih []).trans (.perm (List.perm_insertionSort _ _).symm)

/-! ## Reordering does not show -/

/-- Sorted by distinct keys, fields are what they are in any order. -/
theorem sortItems_congr {α : Type} {fields fields' : List (PyStr × α)} (h : fields.Perm fields')
    (hnodup : (fields.map Prod.fst).Nodup) : sortItems fields = sortItems fields' := by
  have hsort : (sortItems fields).Perm (sortItems fields') :=
    ((List.perm_insertionSort _ _).trans h).trans (List.perm_insertionSort _ _).symm
  have hsorted : ∀ fields : List (PyStr × α), (sortItems fields).Pairwise fun p q => p.1 ≤ q.1 :=
    fun fields => List.pairwise_insertionSort _ _
  refine List.Perm.eq_of_pairwise ?_ (hsorted fields) (hsorted fields') hsort
  intro p q hp hq hle hge
  have hp' : p ∈ fields := (List.perm_insertionSort _ _).mem_iff.1 hp
  have hq' : q ∈ fields := h.mem_iff.2 ((List.perm_insertionSort _ _).mem_iff.1 hq)
  exact List.inj_on_of_nodup_map hnodup hp' hq' (le_antisymm hle hge)

theorem map_fst_withValue {α : Type} (f : Json → α) (fields : List (PyStr × Json)) :
    (fields.map (withValue f)).map Prod.fst = keys fields := by
  rw [List.map_map]
  rfl

/-- What holds of a list still does where an element makes way for one of which it holds. -/
theorem forall_mem_replace {α : Type} {P : α → Prop} {before after : List α} {a b : α}
    (h : ∀ x ∈ before ++ a :: after, P x) (hb : P b) : ∀ x ∈ before ++ b :: after, P x := by
  intro x hx
  rcases List.mem_append.1 hx with hx | hx
  · exact h x (List.mem_append_left _ hx)
  rcases List.mem_cons.1 hx with rfl | hx
  · exact hb
  · exact h x (List.mem_append_right _ (List.mem_cons_of_mem _ hx))

/-- Reordering leads to a tree, and does not change what goes by the sorted keys. -/
theorem reordered_same {ok : PyStr → Prop} {v v' : Json} (h : Reordered v v') (hv : IsTree ok v) :
    IsTree ok v' ∧ canonical v = canonical v' ∧ ∀ floatRepr, dumps floatRepr v = dumps floatRepr v' := by
  induction h with
  | refl v => exact ⟨hv, rfl, fun _ => rfl⟩
  | perm h =>
    cases hv with
    | obj hnodup hkeys hvalues =>
      have hsort : ∀ {α : Type} (f : Json → α), _ := fun f => sortItems_congr (h.map (withValue f))
        (by rw [map_fst_withValue]; exact hnodup)
      refine ⟨.obj ((h.map Prod.fst).nodup_iff.1 hnodup) ?_ ?_, ?_, fun floatRepr => ?_⟩
      · exact fun field hfield => hkeys field (h.mem_iff.2 hfield)
      · exact fun field hfield => hvalues field (h.mem_iff.2 hfield)
      · rw [canonical, canonical, canonicalFields_eq, canonicalFields_eq, hsort]
      · rw [dumps, dumps, dumpsFields_eq, dumpsFields_eq, hsort]
  | item before after h ih =>
    cases hv with
    | arr hitems =>
      obtain ⟨htree, hcanonical, hdumps⟩ := ih (hitems _ (by simp))
      refine ⟨.arr (forall_mem_replace hitems htree), ?_, fun floatRepr => ?_⟩
      · simp [canonical, canonicalItems_eq, hcanonical]
      · simp [dumps, dumpsItems_eq, hdumps]
  | @field before key v v' after h ih =>
    cases hv with
    | obj hnodup hkeys hvalues =>
      obtain ⟨htree, hcanonical, hdumps⟩ := ih (hvalues (key, v) (by simp))
      have hkeys' := forall_mem_replace (b := (key, v')) hkeys (hkeys (key, v) (by simp))
      have hvalues' := forall_mem_replace (b := (key, v')) hvalues htree
      refine ⟨.obj (by simpa [keys] using hnodup) hkeys' hvalues', ?_, fun floatRepr => ?_⟩
      · simp [canonical, canonicalFields_eq, withValue, hcanonical]
      · simp [dumps, dumpsFields_eq, withValue, hdumps]
  | trans _ _ ih ih' =>
    obtain ⟨htree, hcanonical, hdumps⟩ := ih hv
    obtain ⟨htree', hcanonical', hdumps'⟩ := ih' htree
    exact ⟨htree', hcanonical.trans hcanonical', fun floatRepr =>
      (hdumps floatRepr).trans (hdumps' floatRepr)⟩

/-! ## What is written is read back -/

/-- A high surrogate has no low one behind it: the decoder joins no two of these code points. -/
def Unpaired (s : PyStr) : Prop :=
  s.IsChain fun h l => ¬(0xd800 ≤ h ∧ h ≤ 0xdbff ∧ 0xdc00 ≤ l ∧ l ≤ 0xdfff)

/-- A text that JSON can hold. -/
def Written (s : PyStr) : Prop := IsText s ∧ Unpaired s

theorem hexDigit_lowerHexDigit : ∀ n < 16, hexDigit (lowerHexDigit n) = some n := by decide

theorem hex4_lowerHexDigit {n : ℕ} (hn : n < 0x10000) :
    hex4 (lowerHexDigit (n / 0x1000)) (lowerHexDigit (n / 0x100 % 16))
      (lowerHexDigit (n / 0x10 % 16)) (lowerHexDigit (n % 16)) = some n := by
  rw [hex4, hexDigit_lowerHexDigit _ (by omega), hexDigit_lowerHexDigit _ (by omega),
    hexDigit_lowerHexDigit _ (by omega), hexDigit_lowerHexDigit _ (by omega)]
  simp only [Option.bind_eq_bind, Option.bind_some, Option.pure_def, Option.some.injEq]
  omega

/-- A unit is written as a text of it. -/
theorem character_escapeUnit {n : ℕ} (hn : n < 0x10000) : Character (escapeUnit n) n := by
  have hshort : ∀ {c : Char}, shortEscape n = some c → c ≠ 'u' ∧ escape c = some n := by
    intro c hc
    unfold shortEscape at hc
    split_ifs at hc with h h h h h h h <;> cases hc <;> subst h <;> decide
  unfold escapeUnit
  cases hescape : shortEscape n with
  | some c =>
    obtain ⟨hu, hc⟩ := hshort hescape
    exact .escape c n hu hc
  | none =>
    simp only
    split_ifs with hprintable
    · have hnat : (Char.ofNat n).toNat = n := toNat_charOfNat (by omega)
      have hplain : ∀ c : Char, shortEscape c.toNat ≠ none → Char.ofNat n ≠ c := by
        rintro c hc rfl
        rw [hnat] at hc
        exact hc hescape
      have hcharacter := Character.plain (Char.ofNat n) (by omega) (hplain '"' (by decide))
        (hplain '\\' (by decide))
      rwa [hnat] at hcharacter
    · exact .unicode _ _ _ _ n (hex4_lowerHexDigit hn)

theorem stringBody_escapeUnits {units : PyStr} (h : ∀ n ∈ units, n < 0x10000) :
    StringBody (units.flatMap escapeUnit) units := by
  induction units with
  | nil => exact .nil
  | cons n units ih =>
    rw [List.flatMap_cons]
    exact .cons (character_escapeUnit (h n List.mem_cons_self))
      (ih fun n hn => h n (List.mem_cons_of_mem _ hn))

theorem utf16_lt {n : ℕ} (hn : n ≤ 0x10ffff) : ∀ unit ∈ utf16 n, unit < 0x10000 := by
  intro unit hunit
  unfold utf16 at hunit
  split_ifs at hunit
  · rw [List.mem_singleton.1 hunit]
    assumption
  · simp only [List.mem_cons, List.not_mem_nil, or_false] at hunit
    omega

theorem joinSurrogates_pair {h l : ℕ} {s : PyStr}
    (hpair : 0xd800 ≤ h ∧ h ≤ 0xdbff ∧ 0xdc00 ≤ l ∧ l ≤ 0xdfff) :
    joinSurrogates (h :: l :: s) =
      (0x10000 + (h - 0xd800) * 0x400 + (l - 0xdc00)) :: joinSurrogates s := by
  rw [joinSurrogates]
  exact if_pos hpair

theorem joinSurrogates_skip {h l : ℕ} {s : PyStr}
    (hpair : ¬(0xd800 ≤ h ∧ h ≤ 0xdbff ∧ 0xdc00 ≤ l ∧ l ≤ 0xdfff)) :
    joinSurrogates (h :: l :: s) = h :: joinSurrogates (l :: s) := by
  rw [joinSurrogates]
  exact if_neg hpair

theorem utf16_plane {n : ℕ} (hn : n < 0x10000) : utf16 n = [n] := if_pos hn

/-- Beyond the first plane the units are surrogates, of which the character is made. -/
theorem utf16_surrogates {n : ℕ} (hn : ¬n < 0x10000) (htext : n ≤ 0x10ffff) :
    ∃ h l, utf16 n = [h, l] ∧ (0xd800 ≤ h ∧ h ≤ 0xdbff ∧ 0xdc00 ≤ l ∧ l ≤ 0xdfff) ∧
      0x10000 + (h - 0xd800) * 0x400 + (l - 0xdc00) = n := by
  refine ⟨0xd800 + (n - 0x10000) / 0x400, 0xdc00 + (n - 0x10000) % 0x400, if_neg hn, ?_, ?_⟩
  · omega
  · omega

/-- The first unit is a low surrogate only if the character is one. -/
theorem utf16_head {n : ℕ} (htext : n ≤ 0x10ffff) :
    ∃ l units, utf16 n = l :: units ∧ (0xdc00 ≤ l ∧ l ≤ 0xdfff → l = n) := by
  by_cases hn : n < 0x10000
  · exact ⟨n, [], utf16_plane hn, fun _ => rfl⟩
  · obtain ⟨h, l, hunits, hpair, -⟩ := utf16_surrogates hn htext
    exact ⟨h, [l], hunits, fun hlow => by omega⟩

/-- The surrogates of a character are joined to it. -/
theorem joinSurrogates_utf16 {s : PyStr} (hs : Written s) : joinSurrogates (s.flatMap utf16) = s := by
  obtain ⟨htext, hunpaired⟩ := hs
  induction s with
  | nil => rfl
  | cons c s ih =>
    have hc : c ≤ 0x10ffff := htext c List.mem_cons_self
    have hrest := ih (fun c hc => htext c (List.mem_cons_of_mem _ hc)) hunpaired.tail
    rw [List.flatMap_cons]
    by_cases hplane : c < 0x10000
    · rw [utf16_plane hplane, List.cons_append, List.nil_append]
      cases s with
      | nil => rfl
      | cons d s =>
        have hpair := (List.isChain_cons_cons.1 hunpaired).1
        obtain ⟨l, units, hunits, hlow⟩ := utf16_head (htext d (by simp))
        rw [List.flatMap_cons, hunits, List.cons_append] at hrest ⊢
        rw [joinSurrogates_skip, hrest]
        rintro ⟨hge, hle, hl⟩
        rw [hlow hl] at hl
        exact hpair ⟨hge, hle, hl⟩
    · obtain ⟨h, l, hunits, hpair, hjoined⟩ := utf16_surrogates hplane hc
      rw [hunits, List.cons_append, List.cons_append, List.nil_append, joinSurrogates_pair hpair,
        hrest, hjoined]

/-- A string is written as a text of it. -/
theorem stringBody_quoteString {s : PyStr} (hs : Written s) :
    ∃ units, StringBody ((s.flatMap utf16).flatMap escapeUnit) units ∧ joinSurrogates units = s := by
  refine ⟨_, stringBody_escapeUnits ?_, joinSurrogates_utf16 hs⟩
  intro unit hunit
  obtain ⟨c, hc, hunit⟩ := List.mem_flatMap.1 hunit
  exact utf16_lt (hs.1 c hc) unit hunit

/-! ### Integers -/

theorem ofDigits_concat (ds : List Char) (c : Char) :
    ofDigits (ds ++ [c]) = 10 * ofDigits ds + (c.toNat - 0x30) := by
  rw [ofDigits, List.reverse_concat, List.map_cons, Nat.ofDigits_cons, ofDigits, Nat.add_comm]

theorem digitChar_spec : ∀ d < 10, isDigit d.digitChar = true ∧ d.digitChar.toNat - 0x30 = d := by
  decide

/-- The digits of a number write it, and the first is a zero only of zero itself. -/
theorem toDigits_spec (n : ℕ) :
    ofDigits (Nat.toDigits 10 n) = n ∧ (∀ c ∈ Nat.toDigits 10 n, isDigit c = true) ∧
      (n ≠ 0 → (Nat.toDigits 10 n).head? ≠ some '0') := by
  induction n using Nat.base_induction 10 (by omega) with
  | single d hd =>
    obtain ⟨hdigit, hvalue⟩ := digitChar_spec d hd
    rw [Nat.toDigits_of_lt_base hd]
    refine ⟨?_, fun c hc => List.mem_singleton.1 hc ▸ hdigit, fun hne => ?_⟩
    · simpa [ofDigits] using hvalue
    · simpa using hne
  | digit m d hd hm ih =>
    obtain ⟨hvalue, hdigits, hhead⟩ := ih
    obtain ⟨hdigit, hlast⟩ := digitChar_spec d hd
    rw [← Nat.toDigits_append_toDigits (by omega) hm hd, Nat.toDigits_of_lt_base hd]
    refine ⟨?_, fun c hc => ?_, fun _ => ?_⟩
    · rw [ofDigits_concat, hvalue, hlast]
    · rcases List.mem_append.1 hc with hc | hc
      · exact hdigits c hc
      · exact List.mem_singleton.1 hc ▸ hdigit
    · rw [List.head?_append_of_ne_nil _ Nat.toDigits_ne_nil]
      exact hhead (by omega)

theorem integer_toDigits (n : ℕ) : Integer (Nat.toDigits 10 n) := by
  obtain ⟨-, hdigits, hhead⟩ := toDigits_spec n
  obtain ⟨c, ds, hds⟩ := List.exists_cons_of_ne_nil (Nat.toDigits_ne_nil (n := n) (b := 10))
  by_cases hn : n = 0
  · subst hn
    exact .zero
  · rw [hds] at hdigits hhead ⊢
    exact .digits c ds (by simpa using hhead hn) hdigits

/-- An integer is written as a text of it. -/
theorem value_intText (n : ℤ) : Value (intText n) (.int n) := by
  obtain ⟨hvalue, -⟩ := toDigits_spec n.natAbs
  have hunsigned : ∀ neg, Unsigned neg (Nat.toDigits 10 n.natAbs)
      (.int (if neg then -(n.natAbs : ℤ) else n.natAbs)) := by
    intro neg
    have hmk : Unsigned neg _ _ := .mk (integer_toDigits n.natAbs) .none .none
    simpa [numberValue, hvalue] using hmk
  unfold intText
  split_ifs with hneg
  · have hn : n = -(n.natAbs : ℤ) := by omega
    have hvalue := Value.negative (hunsigned true)
    rwa [if_pos rfl, ← hn] at hvalue
  · have hn : (n.natAbs : ℤ) = n := by omega
    have hvalue := Value.positive (hunsigned false)
    rwa [if_neg (by decide), hn] at hvalue

/-! ### Arrays and objects -/

theorem ws_nil : Ws [] := fun _ h => absurd h List.not_mem_nil

section
variable {α β : Type} {P : List Char → α → Prop} {text : β → List Char} {read : β → α}

/-- Texts with commas between them are a sequence of what they are texts of. -/
theorem sequence_commas {item : β} {items : List β}
    (h : ∀ item' ∈ item :: items, P (text item') (read item')) :
    Sequence P (commas ((item :: items).map text)) ((item :: items).map read) := by
  induction items generalizing item with
  | nil =>
    have hlast := Sequence.last (h item List.mem_cons_self) ws_nil
    rwa [List.append_nil] at hlast
  | cons item' items ih =>
    have hrest := ih fun item hitem => h item (List.mem_cons_of_mem _ hitem)
    exact .cons (h item List.mem_cons_self) ws_nil ws_nil hrest

theorem bracketed_commas {items : List β} (h : ∀ item ∈ items, P (text item) (read item)) :
    Bracketed P (commas (items.map text)) (items.map read) := by
  cases items with
  | nil => exact .empty ws_nil
  | cons item items => exact .items ws_nil (sequence_commas h)

end

/-- A key and a text of its value. -/
theorem member_memberText {P : List Char → Json → Prop} {key : PyStr} {t : List Char} {v : Json}
    (hkey : Written key) (hv : P t v) : Member P (memberText (key, t)) (key, v) := by
  obtain ⟨units, hbody, hjoined⟩ := stringBody_quoteString hkey
  have hmember := Member.mk hbody ws_nil ws_nil hv
  rw [hjoined] at hmember
  simpa [memberText, quoteString] using hmember

/-- Sorting looks at the keys only. -/
theorem sortItems_withValue {α : Type} (f : Json → α) (fields : List (PyStr × Json)) :
    sortItems (fields.map (withValue f)) = (sortItems fields).map (withValue f) := by
  symm
  apply List.map_insertionSort
  exact fun _ _ _ _ => Iff.rfl

theorem mem_sortItems {α : Type} {fields : List (PyStr × α)} {field : PyStr × α} :
    field ∈ sortItems fields ↔ field ∈ fields := (List.perm_insertionSort _ _).mem_iff

/-- **What is written is a text of the value with its keys in order.** -/
theorem value_dumps (floatRepr : PyFloat → List Char) {v : Json} (h : IsTree Written v) :
    Value (dumps floatRepr v) (canonical v) := by
  induction h with
  | null => exact .word (w := (chars "null", .null)) (by simp [words])
  | bool b =>
    cases b with
    | false => exact .word (w := (chars "false", .bool false)) (by simp [words])
    | true => exact .word (w := (chars "true", .bool true)) (by simp [words])
  | int n => exact value_intText n
  | str hs =>
    obtain ⟨units, hbody, hjoined⟩ := stringBody_quoteString hs
    have hvalue := Value.string hbody
    rwa [hjoined] at hvalue
  | arr _ ih =>
    rw [dumps, canonical, dumpsItems_eq, canonicalItems_eq]
    exact .array (fun _ _ => id) (bracketed_commas ih)
  | @obj fields hnodup hkeys _ ih =>
    have hsorted : ∀ field ∈ sortItems fields,
        Member Value (memberText (withValue (dumps floatRepr) field)) (withValue canonical field) :=
      fun field hfield => member_memberText (hkeys field (mem_sortItems.1 hfield))
        (ih field (mem_sortItems.1 hfield))
    have hdict : (keys ((sortItems fields).map (withValue canonical))).Nodup := by
      rw [keys, map_fst_withValue]
      exact ((List.perm_insertionSort _ _).map Prod.fst).nodup_iff.2 hnodup
    have hvalue := Value.object (fun _ _ => id) (bracketed_commas hsorted)
    rw [dict_eq hdict] at hvalue
    rw [dumps, canonical, dumpsFields_eq, canonicalFields_eq, sortItems_withValue,
      sortItems_withValue, List.map_map]
    exact hvalue

/-- A text is of one value only. -/
theorem value_unique {t : List Char} {v v' : Json} (h : Value t v) (h' : Value t v') : v = v' := by
  have hends : NumberEnds [] := fun _ hc => by simp at hc
  have hread := value_complete h le_rfl (.inl hends)
  have hread' := value_complete h' le_rfl (.inl hends)
  rw [hread] at hread'
  cases hread'
  rfl

/-- **Two values are written alike exactly if they differ in the order of keys only.** -/
theorem dumps_eq_iff {floatRepr : PyFloat → List Char} {v v' : Json} (hv : IsTree Written v)
    (hv' : IsTree Written v') : dumps floatRepr v = dumps floatRepr v' ↔ Reordered v v' := by
  constructor
  · intro h
    have htext := value_dumps floatRepr hv
    rw [h] at htext
    have hcanonical := value_unique htext (value_dumps floatRepr hv')
    have hreordered := reordered_canonical hv
    rw [hcanonical] at hreordered
    exact hreordered.trans (reordered_canonical hv').symm
  · intro h
    exact (reordered_same h hv).2.2 floatRepr

/-! ## In the order of insertion -/

section
variable (floatRepr : PyFloat → List Char)

mutual

/-- `json.dumps(value, separators=(",", ":"))`. -/
def dumpsInOrder : Json → List Char
  | .arr items => '[' :: (commas (dumpsItemsInOrder items) ++ [']'])
  | .obj fields => '{' :: (commas (dumpsMembersInOrder fields) ++ ['}'])
  | value => dumps floatRepr value

/-- The texts of some values. -/
def dumpsItemsInOrder : List Json → List (List Char)
  | [] => []
  | item :: items => dumpsInOrder item :: dumpsItemsInOrder items

/-- The texts of some fields. -/
def dumpsMembersInOrder : List (PyStr × Json) → List (List Char)
  | [] => []
  | (key, value) :: fields => memberText (key, dumpsInOrder value) :: dumpsMembersInOrder fields

end

theorem dumpsItemsInOrder_eq (items : List Json) :
    dumpsItemsInOrder floatRepr items = items.map (dumpsInOrder floatRepr) := by
  induction items with
  | nil => rfl
  | cons item items ih => rw [dumpsItemsInOrder, ih, List.map_cons]

theorem dumpsMembersInOrder_eq (fields : List (PyStr × Json)) :
    dumpsMembersInOrder floatRepr fields =
      fields.map fun field => memberText (withValue (dumpsInOrder floatRepr) field) := by
  induction fields with
  | nil => rfl
  | cons field fields ih => rw [dumpsMembersInOrder, ih, List.map_cons, withValue]

/-- **What is written in order is a text of the value.** -/
theorem value_dumpsInOrder {v : Json} (h : IsTree Written v) :
    Value (dumpsInOrder floatRepr v) v := by
  induction h with
  | null => exact value_dumps floatRepr .null
  | bool b => exact value_dumps floatRepr (.bool b)
  | int n => exact value_dumps floatRepr (.int n)
  | str hs => exact value_dumps floatRepr (.str hs)
  | @arr items _ ih =>
    have hitems : Bracketed Value (commas (items.map (dumpsInOrder floatRepr))) (items.map id) :=
      bracketed_commas ih
    rw [List.map_id] at hitems
    rw [dumpsInOrder, dumpsItemsInOrder_eq]
    exact .array (fun _ _ => id) hitems
  | @obj fields hnodup hkeys _ ih =>
    have hmembers : Bracketed (Member Value) (commas (fields.map fun field =>
        memberText (withValue (dumpsInOrder floatRepr) field))) (fields.map id) :=
      bracketed_commas fun field hfield => member_memberText (hkeys field hfield) (ih field hfield)
    have hvalue := Value.object (fun _ _ => id) hmembers
    rw [List.map_id, dict_eq hnodup] at hvalue
    rw [dumpsInOrder, dumpsMembersInOrder_eq]
    exact hvalue

end

/-- A text of an object is decoded to it. -/
theorem loads_objectText {t : List Char} {d : Dict} (h : ObjectText t d) : loads t = some (.obj d) := by
  have hread := rawDecode_object h []
  obtain ⟨c, t, rfl⟩ := List.exists_cons_of_ne_nil (l := t) (by rintro rfl; simp [ObjectText] at h)
  obtain rfl : c = '{' := by simpa using h.1
  rw [List.append_nil] at hread
  have hskip : skip ('{' :: t) = '{' :: t := List.dropWhile_cons_of_neg (by decide)
  have hmark : ¬('{' :: t).head? = some (Char.ofNat 0xfeff) := by
    rw [List.head?_cons]
    decide
  rw [loads, if_neg hmark, hskip, hread]
  rfl

/-- **An object that is written in order is read back as it was.** -/
theorem loads_dumpsInOrder (floatRepr : PyFloat → List Char) {d : Dict}
    (h : IsTree Written (.obj d)) : loads (dumpsInOrder floatRepr (.obj d)) = some (.obj d) :=
  loads_objectText (objectText_of_value (value_dumpsInOrder floatRepr h))

end TradeStation.Python.Json
