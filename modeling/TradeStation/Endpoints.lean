import Mathlib.Data.List.Forall2
import TradeStation.Config
import TradeStation.Python.UrlPaths

/-!
# Endpoints

The paths that the client asks for have literal words, and slots that hold the identifiers it was called
with. A URL confines an endpoint if it is sent to the host of the environment and every identifier is read
off it in its own slot, also when the dot segments of the path have been removed.

`confined_iff` says when a URL that the client forms does: quoting keeps every character of an identifier
in its slot but the dot, so it is confined exactly if no slot has the text of a dot segment.
-/

namespace TradeStation

open Python Foundations

/-- The literal words of the paths. -/
inductive Word
  | v3 | brokerage | stream | accounts | balances | bodbalances | positions | orders
  | historicalorders | orderexecution | orderconfirm | ordergroups | ordergroupconfirm | routes
  | activationtriggers | marketdata | symbollists | cryptopairs | symbolnames | quotes | symbols
  | options | expirations | spreadtypes | strikes | riskreward | barcharts | marketdepth
  | aggregates | chains
  deriving DecidableEq

/-- A word, as it is written. -/
def Word.text : Word → PyStr
  | v3 => str "v3"
  | brokerage => str "brokerage"
  | stream => str "stream"
  | accounts => str "accounts"
  | balances => str "balances"
  | bodbalances => str "bodbalances"
  | positions => str "positions"
  | orders => str "orders"
  | historicalorders => str "historicalorders"
  | orderexecution => str "orderexecution"
  | orderconfirm => str "orderconfirm"
  | ordergroups => str "ordergroups"
  | ordergroupconfirm => str "ordergroupconfirm"
  | routes => str "routes"
  | activationtriggers => str "activationtriggers"
  | marketdata => str "marketdata"
  | symbollists => str "symbollists"
  | cryptopairs => str "cryptopairs"
  | symbolnames => str "symbolnames"
  | quotes => str "quotes"
  | symbols => str "symbols"
  | options => str "options"
  | expirations => str "expirations"
  | spreadtypes => str "spreadtypes"
  | strikes => str "strikes"
  | riskreward => str "riskreward"
  | barcharts => str "barcharts"
  | marketdepth => str "marketdepth"
  | aggregates => str "aggregates"
  | chains => str "chains"

/-- A word needs no quoting. -/
theorem Word.plain (word : Word) : quote word.text = some word.text := by
  cases word <;> decide

/-- A word is no dot segment. -/
theorem Word.solid (word : Word) : word.text ≠ [] ∧ word.text ≠ str "." ∧ word.text ≠ str ".." := by
  cases word <;> decide

/-- A segment of an endpoint. -/
inductive Segment
  | literal (word : Word)
  | slot (identifiers : List PyStr)

/-- The path of an endpoint, with the identifiers that it is asked for. -/
abbrev Endpoint := List Segment

namespace Segment

/-- The literal word of a segment. -/
def word : Segment → Option Word
  | literal word => some word
  | slot _ => none

/-- The identifiers in a slot are code points. -/
def AreTexts : Segment → Prop
  | literal _ => True
  | slot identifiers => ∀ identifier ∈ identifiers, IsText identifier

instance : DecidablePred AreTexts
  | literal _ => isTrue trivial
  | slot identifiers =>
    inferInstanceAs (Decidable (∀ identifier ∈ identifiers, IsText identifier))

/-- A slot has the text of a dot segment. -/
def Dotted : Segment → Prop
  | literal _ => False
  | slot identifiers => identifiers = [str "."] ∨ identifiers = [str ".."]

/-- How a segment is written: the identifiers of a slot are quoted, and joined with commas. -/
inductive Written : Segment → PyStr → Prop
  | literal (word : Word) : Written (.literal word) word.text
  | slot {identifiers paths : List PyStr} (hne : identifiers ≠ []) (hblank : [] ∉ identifiers)
      (hpaths : identifiers.mapM quote = some paths) :
      Written (.slot identifiers) (join (str ",") paths)

/-- How a segment is read: a slot is split at the commas, and decoded. -/
def Reads : Segment → PyStr → Prop
  | literal word, text => text = word.text
  | slot identifiers, text => (text.splitOn 0x2c).mapM unquote = some identifiers

theorem reads_slot {identifiers : List PyStr} {text : PyStr} :
    (slot identifiers).Reads text ↔ (text.splitOn 0x2c).mapM unquote = some identifiers := Iff.rfl

section
variable {segment : Segment} {text : PyStr}

/-- **What is written is read again.** -/
theorem Written.reads (h : segment.Written text) (htexts : segment.AreTexts) :
    segment.Reads text := by
  cases h with
  | literal word => rfl
  | slot hne hblank hpaths => exact mapM_unquote_splitOn htexts hne hpaths

theorem Written.chars (h : segment.Written text) :
    ∀ c ∈ text, c ≠ 0x2f ∧ inPath c = true := by
  have hquoted : ∀ {text path : PyStr}, quote text = some path → ∀ c ∈ path,
      c ≠ 0x2f ∧ inPath c = true := by
    intro text path hquote c hc
    obtain ⟨hslash, -, hquery⟩ := quote_reserved hquote c hc
    have hfragment : c ≠ 0x23 := by
      rintro rfl
      exact notMem_quote hquote (r := 0x23) (by decide) (by decide) hc
    exact ⟨hslash, decide_eq_true ⟨hquery, hfragment⟩⟩
  cases h with
  | literal word => exact hquoted word.plain
  | slot hne hblank hpaths =>
    intro c hc
    rcases mem_join hc with rfl | ⟨path, hpath, hmem⟩
    · exact ⟨by decide, rfl⟩
    · obtain ⟨identifier, -, hquote⟩ := (mapM_quote_some hpaths).2 path hpath
      exact hquoted hquote c hmem

/-- A segment that can be written is not read off a blank text. -/
theorem Written.ne_nil {text' : PyStr} (h : segment.Written text) (hreads : segment.Reads text') :
    text' ≠ [] := by
  rintro rfl
  cases h with
  | literal word => exact word.solid.1 hreads.symm
  | slot hne hblank hpaths =>
    have hnil : ([] : PyStr).splitOn 0x2c = [[]] := rfl
    rw [reads_slot, hnil] at hreads
    cases hreads
    exact hblank List.mem_cons_self

/-- Where the words agree, a text is written of one segment only. -/
theorem Written.unique {other : Segment} (h : segment.Written text) (hother : other.Written text)
    (htexts : segment.AreTexts) (htexts' : other.AreTexts) (hword : other.word = segment.word) :
    other = segment := by
  have hreads := h.reads htexts
  have hreads' := hother.reads htexts'
  cases segment with
  | literal word =>
    cases other with
    | literal word' =>
      cases hword
      rfl
    | slot identifiers' => cases hword
  | slot identifiers =>
    cases other with
    | literal word' => cases hword
    | slot identifiers' =>
      rw [reads_slot] at hreads hreads'
      rw [hreads] at hreads'
      cases hreads'
      rfl

/-- **A slot with the text of a dot segment** holds that text as its one identifier. -/
theorem Written.dotted_iff (h : segment.Written text) (htexts : segment.AreTexts) :
    segment.Dotted ↔ text = str "." ∨ text = str ".." := by
  have hone : ((str ".").splitOn 0x2c).mapM unquote = some [str "."] := by decide
  have htwo : ((str "..").splitOn 0x2c).mapM unquote = some [str ".."] := by decide
  have hreads := h.reads htexts
  cases h with
  | literal word => exact ⟨False.elim, fun h => h.elim word.solid.2.1 word.solid.2.2⟩
  | slot hne hblank hpaths =>
    rw [reads_slot] at hreads
    constructor
    · rintro (rfl | rfl)
      · cases hpaths
        exact .inl rfl
      · cases hpaths
        exact .inr rfl
    · rintro (htext | htext)
      · rw [htext, hone] at hreads
        cases hreads
        exact .inl rfl
      · rw [htext, htwo] at hreads
        cases hreads
        exact .inr rfl

end

end Segment

/-! ## Written endpoints -/

section
variable {endpoint other : Endpoint} {texts : List PyStr}

theorem areSegments_of_written (h : List.Forall₂ Segment.Written endpoint texts) :
    AreSegments texts := by
  induction h with
  | nil => simp [AreSegments]
  | cons hsegment _ ih =>
    intro text htext
    rcases List.mem_cons.1 htext with rfl | htext'
    · exact hsegment.chars
    · exact ih text htext'

/-- No text that an endpoint is read off is blank. -/
theorem notBlank_of_reads {texts' : List PyStr} (h : List.Forall₂ Segment.Written endpoint texts)
    (hreads : List.Forall₂ Segment.Reads endpoint texts') : [] ∉ texts' := by
  induction h generalizing texts' with
  | nil =>
    cases hreads
    simp
  | cons hsegment _ ih =>
    cases hreads with
    | cons hread hrest =>
      intro hmem
      rcases List.mem_cons.1 hmem with hnil | hmem'
      · exact hsegment.ne_nil hread hnil.symm
      · exact ih hrest hmem'

theorem reads_of_written (h : List.Forall₂ Segment.Written endpoint texts)
    (htexts : ∀ segment ∈ endpoint, segment.AreTexts) :
    List.Forall₂ Segment.Reads endpoint texts := by
  induction h with
  | nil => exact .nil
  | cons hsegment _ ih =>
    refine .cons (hsegment.reads (htexts _ List.mem_cons_self)) (ih fun segment hmem => ?_)
    exact htexts segment (List.mem_cons_of_mem _ hmem)

theorem undotted_iff (h : List.Forall₂ Segment.Written endpoint texts)
    (htexts : ∀ segment ∈ endpoint, segment.AreTexts) :
    (∀ segment ∈ endpoint, ¬segment.Dotted) ↔ ∀ text ∈ texts, text ≠ str "." ∧ text ≠ str ".." := by
  induction h with
  | nil => simp
  | cons hsegment _ ih =>
    have hrest := ih fun segment hmem => htexts segment (List.mem_cons_of_mem _ hmem)
    rw [List.forall_mem_cons, List.forall_mem_cons, hrest,
      hsegment.dotted_iff (htexts _ List.mem_cons_self), not_or]

/-- Where the templates agree, texts are written of one endpoint only. -/
theorem endpoint_unique (h : List.Forall₂ Segment.Written endpoint texts)
    (hother : List.Forall₂ Segment.Written other texts)
    (htexts : ∀ segment ∈ endpoint, segment.AreTexts)
    (htexts' : ∀ segment ∈ other, segment.AreTexts)
    (htemplate : other.map Segment.word = endpoint.map Segment.word) : other = endpoint := by
  induction h generalizing other with
  | nil =>
    cases hother
    rfl
  | cons hsegment _ ih =>
    cases hother with
    | cons hsegment' hrest' =>
      obtain ⟨hword, htemplate'⟩ := List.cons.inj htemplate
      rw [List.forall_mem_cons] at htexts htexts'
      rw [hsegment.unique hsegment' htexts.1 htexts'.1 hword,
        ih hrest' htexts.2 htexts'.2 htemplate']

end

/-! ## Confinement -/

/-- The scheme and the host of an environment. -/
def Environment.origin : Environment → PyStr
  | .sim => str "https://sim-api.tradestation.com"
  | .live => str "https://api.tradestation.com"

/-- The base URL of an environment. -/
def Environment.baseUrl : Environment → PyStr
  | .sim => simBaseUrl
  | .live => liveBaseUrl

/-- A URL of the configuration that is formed for an endpoint. -/
def Addresses (config : TradeStationConfig) (endpoint : Endpoint) (url : PyStr) : Prop :=
  ∃ texts query, List.Forall₂ Segment.Written endpoint texts ∧ IsQuery query ∧
    url = config.baseUrl ++ joinSegments 0x2f texts query

/-- The URL has each identifier of the endpoint in its slot, also without its dot segments. -/
structure Confined (config : TradeStationConfig) (keep : Bool) (endpoint : Endpoint) (url : PyStr) :
    Prop where
  /-- It begins with the base URL of the environment. -/
  base : config.environment.baseUrl <+: normalise keep url
  /-- It has the words of the endpoint and no segments but these, and the identifiers are read off it. -/
  slots : List.Forall₂ Segment.Reads (.literal .v3 :: endpoint)
    (pathSegments (normalise keep url))
  /-- Other identifiers have another URL. -/
  distinct : ∀ other otherUrl, Addresses config other otherUrl →
    (∀ segment ∈ other, segment.AreTexts) → other.map Segment.word = endpoint.map Segment.word →
    normalise keep otherUrl = normalise keep url → other = endpoint
  /-- In the simulator, it is not sent to the live host. -/
  simulated : config.environment = .sim → authorityOf (normalise keep url) ≠ authorityOf liveBaseUrl

theorem baseUrl_eq (config : TradeStationConfig) :
    config.baseUrl = config.environment.baseUrl := by
  cases henvironment : config.environment with
  | sim => exact config.sim_url henvironment
  | live => exact config.live_url henvironment

theorem isOrigin_origin (environment : Environment) : IsOrigin environment.origin := by
  cases environment with
  | sim => exact ⟨str "https", str "sim-api.tradestation.com", rfl, by decide, by decide⟩
  | live => exact ⟨str "https", str "api.tradestation.com", rfl, by decide, by decide⟩

theorem baseUrl_joinSegments (config : TradeStationConfig) (texts : List PyStr) (query : PyStr) :
    config.baseUrl ++ joinSegments 0x2f texts query =
      config.environment.origin ++ joinSegments 0x2f (Word.v3.text :: texts) query := by
  have hbase : ∀ environment : Environment,
      environment.baseUrl = environment.origin ++ 0x2f :: Word.v3.text := by
    intro environment
    cases environment <;> decide
  rw [baseUrl_eq, hbase, List.append_assoc]
  rfl

section
variable {config : TradeStationConfig} {endpoint : Endpoint} {url : PyStr}

/-- **A URL is sent to the host of the environment**, whatever the identifiers are. -/
theorem authorityOf_addressed (h : Addresses config endpoint url) (keep : Bool) :
    authorityOf (normalise keep url) = config.environment.origin := by
  obtain ⟨texts, query, hwritten, hquery, rfl⟩ := h
  have hclean := areSegments_of_written (.cons (Segment.Written.literal .v3) hwritten)
  rw [baseUrl_joinSegments]
  exact authorityOf_normalise (isOrigin_origin _) hclean hquery (List.cons_ne_nil _ _) keep

/-- **A URL is confined exactly if no slot has the text of a dot segment.** -/
theorem confined_iff (h : Addresses config endpoint url)
    (htexts : ∀ segment ∈ endpoint, segment.AreTexts) (keep : Bool) :
    Confined config keep endpoint url ↔ ∀ segment ∈ endpoint, ¬segment.Dotted := by
  have hhost := authorityOf_addressed h keep
  obtain ⟨texts, query, hwritten, hquery, rfl⟩ := h
  have horigin := isOrigin_origin config.environment
  have hversion := List.Forall₂.cons (Segment.Written.literal .v3) hwritten
  have hclean := areSegments_of_written hversion
  have hne : Word.v3.text :: texts ≠ [] := List.cons_ne_nil _ _
  have hlength := hversion.length_eq
  rw [baseUrl_joinSegments] at hhost
  rw [undotted_iff hwritten htexts, baseUrl_joinSegments]
  constructor
  · intro hconfined text htext
    have hslots := hconfined.slots
    have hdotless := dotless_of_length horigin hclean hquery hne rfl
      (hslots.length_eq.symm.trans hlength) (notBlank_of_reads hversion hslots)
    exact hdotless text (List.mem_cons_of_mem _ htext)
  · intro hdots
    have hdotless : ∀ text ∈ Word.v3.text :: texts, text ≠ str "." ∧ text ≠ str ".." :=
      List.forall_mem_cons.2 ⟨Word.v3.solid.2, hdots⟩
    have hself := normalise_eq_self horigin hclean hquery hne hdotless keep
    have hread := pathSegments_joinSegments horigin hclean hquery hne
    have hreads := reads_of_written hversion (List.forall_mem_cons.2 ⟨trivial, htexts⟩)
    refine ⟨?_, ?_, ?_, ?_⟩
    · rw [hself, ← baseUrl_joinSegments, baseUrl_eq]
      exact List.prefix_append _ _
    · rw [hself, hread]
      exact hreads
    · intro other otherUrl hother htexts' htemplate hsame
      obtain ⟨texts', query', hwritten', hquery', rfl⟩ := hother
      have hversion' := List.Forall₂.cons (Segment.Written.literal .v3) hwritten'
      have hlengths : (Word.v3.text :: texts').length = (Word.v3.text :: texts).length := by
        have hmapped := congrArg List.length htemplate
        rw [List.length_map, List.length_map] at hmapped
        have hlength' := hversion'.length_eq
        simp only [List.length_cons] at hlength hlength' ⊢
        omega
      rw [baseUrl_joinSegments, hself] at hsame
      have hsegments := segments_eq_of_normalise horigin hclean hquery
        (notBlank_of_reads hversion hreads) hne (areSegments_of_written hversion') hquery' hlengths
        hsame
      cases hsegments
      exact endpoint_unique hwritten hwritten' htexts htexts' htemplate
    · intro hsim
      rw [hhost, hsim]
      decide

end

end TradeStation
