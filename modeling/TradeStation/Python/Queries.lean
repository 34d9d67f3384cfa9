import Mathlib.Data.List.DropRight
import Mathlib.Data.List.SplitBy
import TradeStation.Python.Urls

/-!
# Queries

`urllib.parse.urlparse` and `parse_qs`: the parts of a URL, and the values that its query gives to each
name. A pair without a value is left out, and what is not UTF-8 is replaced, so a value is never empty
(`parseQsl_ne_nil`).
-/

namespace TradeStation.Python

/-! ## The parts of a URL -/

/-- The text in front of the first `c`, and what is behind it if there is one. -/
def partitionAt (c : ℕ) (text : PyStr) : PyStr × Option PyStr :=
  match text.dropWhile (· ≠ c) with
  | [] => (text, none)
  | _ :: behind => (text.takeWhile (· ≠ c), some behind)

/-- A letter of ASCII. -/
def isAsciiLetter (c : ℕ) : Bool := (0x41 ≤ c && c ≤ 0x5a) || (0x61 ≤ c && c ≤ 0x7a)

/-- `scheme_chars`. -/
def isSchemeChar (c : ℕ) : Bool :=
  isAsciiLetter c || (0x30 ≤ c && c ≤ 0x39) || c = 0x2b || c = 0x2d || c = 0x2e

/-- `lower()` of ASCII. -/
def lowerAscii (c : ℕ) : ℕ := if 0x41 ≤ c ∧ c ≤ 0x5a then c + 0x20 else c

/-- The scheme in front of a URL, and the rest. -/
def splitScheme (url : PyStr) : PyStr × PyStr :=
  match partitionAt 0x3a url with
  | (c :: scheme, some rest) =>
    if isAsciiLetter c ∧ scheme.all isSchemeChar then ((c :: scheme).map lowerAscii, rest)
    else ([], url)
  | _ => ([], url)

/-- `_splitnetloc`, where there is one. -/
def splitNetloc (url : PyStr) : PyStr × PyStr :=
  let inNetloc := fun c => c ≠ 0x2f ∧ c ≠ 0x3f ∧ c ≠ 0x23
  match url with
  | 0x2f :: 0x2f :: rest => (rest.takeWhile (inNetloc ·), rest.dropWhile (inNetloc ·))
  | _ => ([], url)

/-- `uses_params`. -/
def usesParams : List PyStr :=
  ["", "ftp", "hdl", "prospero", "http", "https", "shttp", "rtsp", "rtsps", "sip", "sips", "mms",
    "sftp", "tel"].map str

/-- `_splitparams`: a semicolon of the last segment. -/
def splitParams (path : PyStr) : PyStr × PyStr :=
  let segment := path.rtakeWhile (· ≠ 0x2f)
  let (name, params) := partitionAt 0x3b segment
  (path.rdropWhile (· ≠ 0x2f) ++ name, params.getD [])

/-- `ParseResult`. -/
structure ParseResult where
  scheme : PyStr
  netloc : PyStr
  path : PyStr
  params : PyStr
  query : PyStr
  fragment : PyStr

/-- `urlparse`; `none` where it raises `ValueError`. The host in brackets and the normal form of a host
beyond ASCII are checked by `_check_bracketed_netloc` and `_checknetloc`. -/
def urlparse (checkNetloc : PyStr → Bool) (url : PyStr) : Option ParseResult :=
  let url := (url.dropWhile (· ≤ 0x20)).filter (· ∉ [0x09, 0x0d, 0x0a])
  let (scheme, url) := splitScheme url
  let (netloc, url) := splitNetloc url
  if ¬(0x5b ∈ netloc ↔ 0x5d ∈ netloc) ∨ checkNetloc netloc = false then none
  else
    let (url, fragment) := partitionAt 0x23 url
    let (path, query) := partitionAt 0x3f url
    let (path, params) := if scheme ∈ usesParams then splitParams path else (path, [])
    some ⟨scheme, netloc, path, params, query.getD [], fragment.getD []⟩

/-! ## Percent decoding with replacements -/

/-- `unquote_to_bytes` of ASCII; a percent sign without two digits behind it stays. -/
def unquoteToBytes : PyStr → List UInt8
  | [] => []
  | 0x25 :: high :: low :: rest =>
    match hexValue high, hexValue low with
    | some h, some l => UInt8.ofNat (h * 16 + l) :: unquoteToBytes rest
    | _, _ => 0x25 :: unquoteToBytes (high :: low :: rest)
  | c :: rest => UInt8.ofNat c :: unquoteToBytes rest

/-- One part of `_generate_unquoted_parts`: a run of ASCII is decoded, and a run beyond it stays. -/
def unquotePart (part : PyStr) : PyStr :=
  if part.all (· < 0x80) then (utf8Replace [] (unquoteToBytes part)).map Char.toNat else part

/-- `unquote_plus(text, errors="replace")`. -/
def unquotePlus (text : PyStr) : PyStr :=
  let text := text.map fun c => if c = 0x2b then 0x20 else c
  if 0x25 ∉ text then text
  else (text.splitBy fun a b => decide (a < 0x80) == decide (b < 0x80)).flatMap unquotePart

/-- `parse_qsl`. -/
def parseQsl (qs : PyStr) : List (PyStr × PyStr) :=
  if qs = [] then []
  else (qs.splitOn 0x26).filterMap fun nameValue =>
    match partitionAt 0x3d nameValue with
    | (name, some (c :: value)) => some (unquotePlus name, unquotePlus (c :: value))
    | _ => none

/-- The result of `parse_qs`. -/
abbrev Query := List (PyStr × List PyStr)

/-- `parsed_result[name].append(value)`, or a new list. -/
def Query.append : Query → PyStr → PyStr → Query
  | [], name, value => [(name, [value])]
  | (name', values) :: rest, name, value =>
    if name' = name then (name', values ++ [value]) :: rest
    else (name', values) :: Query.append rest name value

/-- `parse_qs`. -/
def parseQs (qs : PyStr) : Query :=
  (parseQsl qs).foldl (fun query pair => query.append pair.1 pair.2) []

/-- `query.get(key)`. -/
def Query.get (query : Query) (key : PyStr) : Option (List PyStr) :=
  (query.find? fun entry => entry.1 = key).map Prod.snd

/-! ## The values of a name -/

theorem utf8Replace_ne_nil {pending bs : List UInt8} (h : pending ≠ [] ∨ bs ≠ []) :
    utf8Replace pending bs ≠ [] := by
  induction bs generalizing pending with
  | nil =>
    cases pending with
    | nil => simp at h
    | cons b pending => simp [utf8Replace]
  | cons b bs ih =>
    rw [utf8Replace]
    cases hstep : utf8Step pending b with
    | char c => simp
    | more pending' => exact ih (.inl (utf8Step_more_ne_nil hstep))
    | invalid =>
      simp only
      split_ifs
      · simp
      · cases utf8Step [] b <;> simp

theorem unquoteToBytes_ne_nil {text : PyStr} (h : text ≠ []) : unquoteToBytes text ≠ [] := by
  unfold unquoteToBytes
  split
  · exact absurd rfl h
  · split <;> simp
  · simp

theorem unquotePart_ne_nil {part : PyStr} (h : part ≠ []) : unquotePart part ≠ [] := by
  unfold unquotePart
  split_ifs
  · have hbytes : utf8Replace [] (unquoteToBytes part) ≠ [] :=
      utf8Replace_ne_nil (.inr (unquoteToBytes_ne_nil h))
    simpa using hbytes
  · exact h

/-- What is decoded with replacements does not vanish. -/
theorem unquotePlus_ne_nil {text : PyStr} (h : text ≠ []) : unquotePlus text ≠ [] := by
  unfold unquotePlus
  simp only
  generalize htext : (text.map fun c => if c = 0x2b then 0x20 else c) = text'
  have hne : text' ≠ [] := by
    rw [← htext]
    simpa using h
  split_ifs with hpercent
  · obtain ⟨part, hpart⟩ := List.exists_mem_of_ne_nil _
      (List.splitBy_ne_nil (r := fun a b => decide (a < 0x80) == decide (b < 0x80)).2 hne)
    intro hnil
    have hempty := List.flatMap_eq_nil_iff.1 hnil part hpart
    exact unquotePart_ne_nil (List.ne_nil_of_mem_splitBy hpart) hempty
  · exact hne

/-- **No value of a query is empty.** -/
theorem parseQsl_ne_nil {qs name value : PyStr} (h : (name, value) ∈ parseQsl qs) : value ≠ [] := by
  unfold parseQsl at h
  split_ifs at h
  · simp at h
  · obtain ⟨nameValue, -, hpair⟩ := List.mem_filterMap.1 h
    split at hpair
    · cases hpair
      exact unquotePlus_ne_nil (by simp)
    · cases hpair

theorem Query.get_append (query : Query) (name value key : PyStr) :
    (query.append name value).get key =
      if name = key then some ((query.get key).getD [] ++ [value]) else query.get key := by
  induction query with
  | nil => by_cases h : name = key <;> simp [append, get, h]
  | cons entry rest ih =>
    obtain ⟨name', values⟩ := entry
    rw [append]
    by_cases hname : name' = name
    · subst hname
      by_cases hkey : name' = key <;> simp [get, hkey]
    · rw [if_neg hname]
      by_cases hkey : name' = key
      · have hother : ¬name = key := fun h => hname (hkey.trans h.symm)
        simp [get, hkey, hother]
      · simpa [get, hkey] using ih

/-- The values of a name, in order. -/
def valuesOf (pairs : List (PyStr × PyStr)) (key : PyStr) : List PyStr :=
  (pairs.filter fun pair => pair.1 = key).map Prod.snd

theorem valuesOf_ne_nil {qs key value : PyStr} (h : value ∈ valuesOf (parseQsl qs) key) :
    value ≠ [] := by
  obtain ⟨⟨name, value'⟩, hpair, rfl⟩ := List.mem_map.1 h
  exact parseQsl_ne_nil (List.mem_filter.1 hpair).1

theorem get_foldl_append (pairs : List (PyStr × PyStr)) (query : Query) (key : PyStr) :
    (pairs.foldl (fun query pair => query.append pair.1 pair.2) query).get key =
      if valuesOf pairs key = [] then query.get key
      else some ((query.get key).getD [] ++ valuesOf pairs key) := by
  induction pairs generalizing query with
  | nil => rfl
  | cons pair pairs ih =>
    rw [List.foldl_cons, ih, Query.get_append]
    by_cases hkey : pair.1 = key
    · have hvalues : valuesOf (pair :: pairs) key = pair.2 :: valuesOf pairs key := by
        simp [valuesOf, hkey]
      by_cases hnone : valuesOf pairs key = [] <;> simp [hkey, hvalues, hnone]
    · have hvalues : valuesOf (pair :: pairs) key = valuesOf pairs key := by simp [valuesOf, hkey]
      simp [hkey, hvalues]

/-- **`parse_qs` collects the values of each name**, and has no entry for a name without one. -/
theorem get_parseQs (qs key : PyStr) :
    (parseQs qs).get key =
      if valuesOf (parseQsl qs) key = [] then none else some (valuesOf (parseQsl qs) key) := by
  rw [parseQs, get_foldl_append]
  rfl

example : (parseQs (str "code=a%2Bb+c&state=&state=s&code=d")).get (str "code") =
    some [str "a+b c", str "d"] := by
  decide

end TradeStation.Python
