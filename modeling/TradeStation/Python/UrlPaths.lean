import TradeStation.Foundations.Paths
import TradeStation.Python.Urls

/-!
# The paths of URLs

A URL, taken apart as far as its path: what stands in front of the path, the path's segments, and what
stands behind it. Where a URL is sent, its dot segments are removed first; `normalise` is that removal,
which the standard and the HTTP library do alike but for a dot segment at the end of a path.

`normalise_eq_self` and `dotless_of_length` are what a path relies on: it keeps its segments exactly if
none of them is a dot segment.
-/

namespace TradeStation.Python

open Foundations

/-- A character that may stand in an authority. -/
def inAuthority (c : ℕ) : Bool := c ≠ 0x2f ∧ c ≠ 0x3f ∧ c ≠ 0x23

/-- A character that may stand in a path. -/
def inPath (c : ℕ) : Bool := c ≠ 0x3f ∧ c ≠ 0x23

/-- The scheme and the authority of a URL, and what is behind them. -/
def splitAuthority (url : PyStr) : PyStr × PyStr :=
  let scheme := url.takeWhile (· ≠ 0x3a)
  let behind := url.drop (scheme.length + 3)
  (scheme ++ (url.drop scheme.length).take 3 ++ behind.takeWhile inAuthority,
    behind.dropWhile inAuthority)

/-- Where a URL is sent. -/
def authorityOf (url : PyStr) : PyStr := (splitAuthority url).1

/-- The path of a URL. -/
def pathOf (url : PyStr) : PyStr := (splitAuthority url).2.takeWhile inPath

/-- The segments of the path of a URL. -/
def pathSegments (url : PyStr) : List PyStr := segmentsOf 0x2f (pathOf url)

/-- A URL without dot segments. With `keep`, the slash in front of a dot segment at the end stays, as the
standard has it. -/
def normalise (keep : Bool) (url : PyStr) : PyStr :=
  authorityOf url ++
    joinSegments 0x2f (dropDots (str ".") (str "..") keep [] (pathSegments url)) [] ++
    (splitAuthority url).2.dropWhile inPath

/-- A scheme and an authority. -/
structure IsOrigin (origin : PyStr) : Prop where
  split : ∃ scheme host, origin = scheme ++ str "://" ++ host ∧ (∀ c ∈ scheme, c ≠ 0x3a) ∧
    ∀ c ∈ host, inAuthority c = true

/-- What may stand behind a path: nothing, or a query. -/
def IsQuery (query : PyStr) : Prop := query = [] ∨ ∃ rest, query = 0x3f :: rest

section
variable {origin query : PyStr} {segments : List PyStr}

/-- What is taken up to a character that ends it, and what is left. -/
theorem takeWhile_exact {p : ℕ → Bool} {body rest : PyStr} (hbody : ∀ c ∈ body, p c = true)
    (hrest : ∀ c ∈ rest.head?, p c = false) :
    (body ++ rest).takeWhile p = body ∧ (body ++ rest).dropWhile p = rest := by
  rw [List.takeWhile_append_of_pos hbody, List.dropWhile_append_of_pos hbody]
  cases rest with
  | nil => simp
  | cons c rest => simp [hrest c rfl]

theorem splitAuthority_append (horigin : IsOrigin origin) {rest : PyStr}
    (hrest : ∀ c ∈ rest.head?, inAuthority c = false) :
    splitAuthority (origin ++ rest) = (origin, rest) := by
  obtain ⟨scheme, host, rfl, hscheme, hhost⟩ := horigin.split
  have hurl : scheme ++ str "://" ++ host ++ rest = scheme ++ (str "://" ++ (host ++ rest)) := by
    simp only [List.append_assoc]
  have htake : (scheme ++ (str "://" ++ (host ++ rest))).takeWhile (· ≠ 0x3a) = scheme := by
    refine (takeWhile_exact (by simpa using hscheme) fun c hc => ?_).1
    cases hc
    rfl
  have hdrop : (scheme ++ (str "://" ++ (host ++ rest))).drop (scheme.length + 3) = host ++ rest := by
    rw [List.drop_append, List.drop_eq_nil_of_le (by omega), Nat.add_sub_cancel_left]
    rfl
  obtain ⟨htaken, hleft⟩ := takeWhile_exact hhost hrest
  rw [hurl, splitAuthority]
  simp only [htake]
  rw [hdrop, htaken, hleft, List.drop_left]
  rfl

theorem IsQuery.inAuthority {c : ℕ} (h : IsQuery query) (hc : c ∈ query.head?) :
    inAuthority c = false := by
  rcases h with rfl | ⟨rest, rfl⟩
  · cases hc
  · cases hc
    rfl

theorem splitAuthority_joinSegments (horigin : IsOrigin origin) (hquery : IsQuery query) :
    splitAuthority (origin ++ joinSegments 0x2f segments query) =
      (origin, joinSegments 0x2f segments query) := by
  apply splitAuthority_append horigin
  intro c hc
  cases segments with
  | nil => exact hquery.inAuthority hc
  | cons segment segments =>
    cases hc
    rfl

/-- The segments have no character that ends them. -/
def AreSegments (segments : List PyStr) : Prop :=
  ∀ segment ∈ segments, ∀ c ∈ segment, c ≠ 0x2f ∧ inPath c = true

theorem AreSegments.noSlash (h : AreSegments segments) : ∀ segment ∈ segments, 0x2f ∉ segment :=
  fun segment hsegment hmem => (h segment hsegment _ hmem).1 rfl

theorem split_joinSegments (h : AreSegments segments) (hquery : IsQuery query) :
    (joinSegments 0x2f segments query).takeWhile inPath = joinSegments 0x2f segments [] ∧
      (joinSegments 0x2f segments query).dropWhile inPath = query := by
  have hpath : ∀ c ∈ joinSegments 0x2f segments [], inPath c = true := by
    intro c hc
    rcases mem_joinSegments 0x2f hc with rfl | ⟨segment, hsegment, hmem⟩
    · rfl
    · exact (h segment hsegment c hmem).2
  have hstop : ∀ c ∈ query.head?, inPath c = false := by
    intro c hc
    rcases hquery with rfl | ⟨rest, rfl⟩
    · cases hc
    · cases hc
      rfl
  rw [joinSegments_append]
  exact takeWhile_exact hpath hstop

theorem pathOf_joinSegments (horigin : IsOrigin origin) (h : AreSegments segments)
    (hquery : IsQuery query) :
    pathOf (origin ++ joinSegments 0x2f segments query) = joinSegments 0x2f segments [] := by
  rw [pathOf, splitAuthority_joinSegments horigin hquery, (split_joinSegments h hquery).1]

/-- **The segments of a path are read off the URL again.** -/
theorem pathSegments_joinSegments (horigin : IsOrigin origin) (h : AreSegments segments)
    (hquery : IsQuery query) (hne : segments ≠ []) :
    pathSegments (origin ++ joinSegments 0x2f segments query) = segments := by
  rw [pathSegments, pathOf_joinSegments horigin h hquery]
  exact segmentsOf_joinSegments 0x2f hne h.noSlash

theorem normalise_joinSegments (horigin : IsOrigin origin) (h : AreSegments segments)
    (hquery : IsQuery query) (hne : segments ≠ []) (keep : Bool) :
    normalise keep (origin ++ joinSegments 0x2f segments query) =
      origin ++ joinSegments 0x2f (dropDots (str ".") (str "..") keep [] segments) query := by
  have hbehind := joinSegments_append 0x2f (dropDots (str ".") (str "..") keep [] segments) query
  rw [normalise, authorityOf, pathSegments_joinSegments horigin h hquery hne,
    splitAuthority_joinSegments horigin hquery]
  dsimp only
  rw [(split_joinSegments h hquery).2, hbehind, List.append_assoc]

theorem AreSegments.dropDots (h : AreSegments segments) (keep : Bool) :
    AreSegments (dropDots (str ".") (str "..") keep [] segments) := by
  intro segment hsegment c hc
  rcases mem_dropDots hsegment with rfl | hpassed | ⟨hmem, -, -⟩
  · cases hc
  · cases hpassed
  · exact h segment hmem c hc

/-- **A URL is normalised to where it was sent**, whatever its segments are. -/
theorem authorityOf_normalise (horigin : IsOrigin origin) (h : AreSegments segments)
    (hquery : IsQuery query) (hne : segments ≠ []) (keep : Bool) :
    authorityOf (normalise keep (origin ++ joinSegments 0x2f segments query)) = origin := by
  rw [normalise_joinSegments horigin h hquery hne, authorityOf,
    splitAuthority_joinSegments horigin hquery]

/-- **A URL without dot segments is left alone.** -/
theorem normalise_eq_self (horigin : IsOrigin origin) (h : AreSegments segments)
    (hquery : IsQuery query) (hne : segments ≠ [])
    (hdots : ∀ segment ∈ segments, segment ≠ str "." ∧ segment ≠ str "..") (keep : Bool) :
    normalise keep (origin ++ joinSegments 0x2f segments query) =
      origin ++ joinSegments 0x2f segments query := by
  rw [normalise_joinSegments horigin h hquery hne, dropDots_eq_self hdots]
  rfl

/-- The segments that are left of a path. -/
theorem pathSegments_normalise (horigin : IsOrigin origin) (h : AreSegments segments)
    (hquery : IsQuery query) (hne : segments ≠ []) (keep : Bool) :
    pathSegments (normalise keep (origin ++ joinSegments 0x2f segments query)) =
      segmentsOf 0x2f
        (joinSegments 0x2f (dropDots (str ".") (str "..") keep [] segments) []) := by
  rw [normalise_joinSegments horigin h hquery hne, pathSegments,
    pathOf_joinSegments horigin (h.dropDots keep) hquery]

/-- **A path that keeps its length had no dot segments**, if no blank one stands in for them. -/
theorem dotless_of_length (horigin : IsOrigin origin) (h : AreSegments segments)
    (hquery : IsQuery query) (hne : segments ≠ []) {keep : Bool} {left : List PyStr}
    (hleft : pathSegments (normalise keep (origin ++ joinSegments 0x2f segments query)) = left)
    (hlength : left.length = segments.length) (hblank : [] ∉ left) :
    ∀ segment ∈ segments, segment ≠ str "." ∧ segment ≠ str ".." := by
  rw [pathSegments_normalise horigin h hquery hne] at hleft
  have hdropped : dropDots (str ".") (str "..") keep [] segments = left := by
    by_cases hnil : dropDots (str ".") (str "..") keep [] segments = []
    · rw [hnil] at hleft
      subst hleft
      exact absurd (List.mem_singleton.2 rfl) hblank
    · rw [segmentsOf_joinSegments 0x2f hnil (h.dropDots keep).noSlash] at hleft
      exact hleft
  have hshorter : str "." ∈ segments ∨ str ".." ∈ segments →
      left.length < 0 + segments.length ∨ [] ∈ left := by
    rw [← hdropped]
    exact (length_dropDots []).2
  rw [hlength, Nat.zero_add] at hshorter
  intro segment hsegment
  constructor <;> rintro rfl
  · exact (hshorter (.inl hsegment)).elim (Nat.lt_irrefl _) hblank
  · exact (hshorter (.inr hsegment)).elim (Nat.lt_irrefl _) hblank

/-- **No other path of its length is normalised** to a path without blank segments. -/
theorem segments_eq_of_normalise (horigin : IsOrigin origin) (h : AreSegments segments)
    (hquery : IsQuery query) (hblank : [] ∉ segments) (hne : segments ≠ [])
    {segments' : List PyStr} {query' : PyStr} (h' : AreSegments segments') (hquery' : IsQuery query')
    (hlength : segments'.length = segments.length) {keep : Bool}
    (hsame : normalise keep (origin ++ joinSegments 0x2f segments' query') =
      origin ++ joinSegments 0x2f segments query) :
    segments' = segments := by
  have hread := pathSegments_joinSegments horigin h hquery hne
  have hne' : segments' ≠ [] := by
    rintro rfl
    exact hne (List.length_eq_zero_iff.1 hlength.symm)
  have hdotless := dotless_of_length horigin h' hquery' hne' ((congrArg pathSegments hsame).trans hread)
    hlength.symm hblank
  rw [normalise_eq_self horigin h' hquery' hne' hdotless] at hsame
  have hsegments := congrArg pathSegments hsame
  rwa [pathSegments_joinSegments horigin h' hquery' hne', hread] at hsegments

end

end TradeStation.Python
