import Mathlib.Data.Finset.Sort
import Mathlib.Data.List.Lex
import TradeStation.Python.Pathlib
import TradeStation.Slots

/-!
# The configuration contract

`TradeStationConfig(...)`: the field validators trim, sort and reject, and the model validator holds the
environment to its contract. What they accept is a `LoadedConfig`, which is in normal form.

* `validate_ok`: values are accepted if they are, as the field validators leave them, those of a
  configuration.
* `configuration_reloads`: the values that are loaded as one configuration are those that differ in blanks,
  trailing slashes, the order and repetition of the scopes, and the spelling of the path and of the limit
  only. A configuration that is dumped and loaded again is the same, but for the order of the default scopes.
-/

namespace TradeStation

open Python

/-! ## Field validators -/

/-- A placeholder that was not filled in. -/
def hasPlaceholder (value : PyStr) : Bool := str "$\x7b" <:+: value ∨ 0x7d ∈ value

/-- A text that `reject_unresolved_placeholders` leaves. -/
structure Resolved (value : PyStr) : Prop where
  placeholder : hasPlaceholder value = false
  nonblank : value ≠ []
  stripped : strip value = value

/-- `strip_trailing_slash`. -/
def stripTrailingSlash (value : PyStr) : PyStr := value.rdropWhile (· = 0x2f)

/-- A pair of characters that are no blanks is not made by blanks in front of it. -/
theorem infix_dropWhile_iff {c d : ℕ} (hc : isSpace c = false) (s : PyStr) :
    [c, d] <:+: s.dropWhile isSpace ↔ [c, d] <:+: s := by
  induction s with
  | nil => rfl
  | cons a s ih =>
    by_cases ha : isSpace a = true
    · rw [List.dropWhile_cons_of_pos ha, ih, List.infix_cons_iff, or_iff_right]
      intro hprefix
      obtain rfl : c = a := (List.cons_prefix_cons.1 hprefix).1
      rw [hc] at ha
      cases ha
    · rw [List.dropWhile_cons_of_neg ha]

theorem infix_strip_iff {c d : ℕ} (hc : isSpace c = false) (hd : isSpace d = false) (s : PyStr) :
    [c, d] <:+: strip s ↔ [c, d] <:+: s := by
  have hreverse : ∀ l : PyStr, [c, d] <:+: l ↔ [d, c] <:+: l.reverse := fun l => by
    rw [← List.reverse_infix]
    rfl
  rw [strip, List.rdropWhile, hreverse, List.reverse_reverse, infix_dropWhile_iff hd, ← hreverse,
    infix_dropWhile_iff hc]

theorem mem_strip_iff {c : ℕ} (hc : isSpace c = false) (s : PyStr) : c ∈ strip s ↔ c ∈ s := by
  have hdrop : ∀ l : PyStr, c ∈ l.dropWhile isSpace ↔ c ∈ l := by
    intro l
    induction l with
    | nil => rfl
    | cons a l ih =>
      by_cases ha : isSpace a = true
      · have hne : c ≠ a := by
          rintro rfl
          rw [hc] at ha
          cases ha
        rw [List.dropWhile_cons_of_pos ha, ih, List.mem_cons, or_iff_right hne]
      · rw [List.dropWhile_cons_of_neg ha]
  rw [strip, List.rdropWhile, List.mem_reverse, hdrop, List.mem_reverse, hdrop]

/-- Blanks around a text do not matter. -/
theorem hasPlaceholder_strip (value : PyStr) : hasPlaceholder (strip value) = hasPlaceholder value := by
  have hpair : str "$\x7b" = [0x24, 0x7b] := rfl
  rw [hasPlaceholder, hasPlaceholder, hpair]
  simp only [infix_strip_iff (c := 0x24) (d := 0x7b) rfl rfl, mem_strip_iff (c := 0x7d) rfl]

/-- `reject_unresolved_placeholders`. -/
def rejectUnresolvedPlaceholders (value : PyStr) : Except PyStr {text : PyStr // Resolved text} :=
  if hplaceholder : hasPlaceholder value = true then
    .error (str "configuration contains unresolved placeholder")
  else if hblank : strip value = [] then
    .error (str "configuration value must not be blank")
  else
    .ok ⟨strip value, by rwa [hasPlaceholder_strip, ← Bool.not_eq_true], hblank, strip_strip value⟩

/-- `reject_unresolved_secret_placeholder`. -/
def rejectUnresolvedSecretPlaceholder (value : Option PyStr) :
    Except PyStr {secret : Option PyStr // ∀ text ∈ secret, hasPlaceholder text = false} :=
  if h : ∀ text ∈ value, hasPlaceholder text = false then .ok ⟨value, h⟩
  else .error (str "configuration contains unresolved placeholder")

/-- Texts that are trimmed, not blank and all different. -/
structure Tidy (texts : List PyStr) : Prop where
  trimmed : ∀ text ∈ texts, text ≠ [] ∧ strip text = text
  nodup : texts.Nodup

theorem trimmed_cleaned (texts : List PyStr) :
    ∀ text ∈ cleaned texts, text ≠ [] ∧ strip text = text := by
  intro text htext
  obtain ⟨hmem, hne⟩ := List.mem_filter.1 htext
  obtain ⟨raw, -, rfl⟩ := List.mem_map.1 hmem
  exact ⟨of_decide_eq_true hne, strip_strip raw⟩

/-- Tidy texts are left as they are. -/
theorem Tidy.cleaned_eq {texts : List PyStr} (h : Tidy texts) : cleaned texts = texts := by
  have hmap : texts.map strip = texts := by
    conv_rhs => rw [← List.map_id texts]
    exact List.map_congr_left fun text htext => (h.trimmed text htext).2
  rw [cleaned, hmap, List.filter_eq_self]
  exact fun text htext => decide_eq_true (h.trimmed text htext).1

/-- `require_unique_account_allowlist`. -/
def requireUniqueAccountAllowlist (value : List PyStr) :
    Except PyStr {accounts : List PyStr // accounts ≠ [] ∧ Tidy accounts} :=
  if hnone : cleaned value = [] then
    .error (str "account_allowlist must contain at least one account")
  else if hnodup : (cleaned value).Nodup then
    .ok ⟨cleaned value, hnone, trimmed_cleaned value, hnodup⟩
  else .error (str "account_allowlist contains duplicate account IDs")

/-- `REQUIRED_SCOPES`, in order. -/
def requiredScopes : List PyStr := [str "offline_access", str "openid"]

/-- The scopes that `require_refresh_scopes` returns: each once, in order. -/
def sortedScopes (value : List PyStr) : List PyStr := (cleaned value).toFinset.sort (· ≤ ·)

/-- The list of some texts, as Python writes it. -/
def reprTexts (texts : List PyStr) : PyStr :=
  str "[" ++ join (str ", ") (texts.map fun text => str "'" ++ text ++ str "'") ++ str "]"

theorem mem_sortedScopes {value : List PyStr} {scope : PyStr} :
    scope ∈ sortedScopes value ↔ scope ∈ cleaned value := by
  rw [sortedScopes, Finset.mem_sort, List.mem_toFinset]

theorem tidy_sortedScopes (value : List PyStr) : Tidy (sortedScopes value) where
  trimmed scope hscope := trimmed_cleaned value scope (mem_sortedScopes.1 hscope)
  nodup := Finset.sort_nodup _ _

/-- `require_refresh_scopes`. -/
def requireRefreshScopes (value : List PyStr) :
    Except PyStr {scopes : List PyStr // Tidy scopes ∧ ∀ scope ∈ requiredScopes, scope ∈ scopes} :=
  if h : ∀ scope ∈ requiredScopes, scope ∈ sortedScopes value then
    .ok ⟨sortedScopes value, tidy_sortedScopes value, h⟩
  else
    .error (str "requested_scopes missing required scopes: " ++
      reprTexts (requiredScopes.filter (· ∉ cleaned value)))

/-! ## Loading -/

/-- What `validate_environment_contract` demands. -/
structure EnvironmentContract (environment : Environment) (baseUrl : PyStr) (liveTradingEnabled : Bool)
    (liveAcknowledgement : Option PyStr) (trading : Bool) (requestedScopes : List PyStr) : Prop where
  sim_url : environment = .sim → baseUrl = simBaseUrl
  live_url : environment = .live → baseUrl = liveBaseUrl
  live_enabled : environment = .live →
    liveTradingEnabled = true ∧ liveAcknowledgement = some liveAcknowledgementText
  trade_scope : trading = true → tradeScope ∈ requestedScopes

/-- `validate_environment_contract`. -/
def validateEnvironmentContract (environment : Environment) (baseUrl : PyStr)
    (liveTradingEnabled : Bool) (liveAcknowledgement : Option PyStr) (trading : Bool)
    (requestedScopes : List PyStr) :
    Except PyStr (PLift (EnvironmentContract environment baseUrl liveTradingEnabled
      liveAcknowledgement trading requestedScopes)) :=
  if hsim : environment = .sim ∧ baseUrl ≠ simBaseUrl then
    .error (str "SIM must use " ++ simBaseUrl)
  else if hlive : environment = .live ∧ baseUrl ≠ liveBaseUrl then
    .error (str "LIVE must use " ++ liveBaseUrl)
  else if henabled : environment = .live ∧ liveTradingEnabled = false then
    .error (str "LIVE requires live_trading_enabled=true")
  else if hacknowledged : environment = .live ∧ liveAcknowledgement ≠ some liveAcknowledgementText then
    .error (str "LIVE requires explicit live_acknowledgement")
  else if htrade : trading = true ∧ tradeScope ∉ requestedScopes then
    .error (str "trading enablement flags require requested_scopes to include Trade")
  else
    .ok ⟨by simpa using hsim, by simpa using hlive,
      fun h => ⟨by simpa [h] using henabled, by simpa [h] using hacknowledged⟩, by simpa using htrade⟩

/-- The values that `TradeStationConfig` is called with. `none` is a field that is left out. -/
structure RawConfig where
  environment : Environment
  baseUrl : PyStr
  clientId : PyStr
  clientSecret : Option PyStr := none
  redirectUri : Option PyStr := none
  requestedScopes : Option (List PyStr) := none
  accountAllowlist : List PyStr
  liveTradingEnabled : Bool := false
  liveAcknowledgement : Option PyStr := none
  maxOrderNotional : Decimal := .ofNat 1000
  allowMarketOrders : Bool := false
  allowOptions : Bool := false
  allowFutures : Bool := false
  allowExtendedHours : Bool := false
  killSwitchFile : Option PyStr := none

/-- A configuration that was accepted, with its credentials. -/
structure LoadedConfig extends TradeStationConfig where
  clientId : PyStr
  clientSecret : Option PyStr
  redirectUri : PyStr
  client_resolved : Resolved clientId
  secret_resolved : ∀ text ∈ clientSecret, hasPlaceholder text = false
  redirect_resolved : Resolved redirectUri
  scopes_tidy : Tidy requestedScopes
  kill_switch_path : killSwitchFile.map pathText = killSwitchFile

/-- The `redirect_uri` of a configuration that leaves it out. -/
def defaultRedirectUri : PyStr := str "http://127.0.0.1:31022/callback"

/-- The `requested_scopes` of a configuration that leaves them out. -/
def defaultScopes : List PyStr :=
  [str "openid", str "offline_access", marketDataScope, readAccountScope]

/-- A field that was rejected, or the model as a whole, and why. -/
structure FieldError where
  field : Option String
  message : PyStr

/-- The error of a field. -/
def fieldErrors {α : Type} (name : String) : Except PyStr α → List FieldError
  | .ok _ => []
  | .error message => [⟨some name, message⟩]

/-- A path that has been read is read as it is. -/
theorem map_pathText_map_pathText (path : Option PyStr) :
    (path.map pathText).map pathText = path.map pathText := by
  rw [Option.map_map]
  exact congrArg (Option.map · path) (funext pathText_pathText)

namespace RawConfig

/-- The `client_id` that is left. -/
def clientIdField (raw : RawConfig) : Except PyStr {text : PyStr // Resolved text} :=
  rejectUnresolvedPlaceholders raw.clientId

/-- The `redirect_uri` that is left. A default is not validated. -/
def redirectUriField (raw : RawConfig) : Except PyStr {text : PyStr // Resolved text} :=
  match raw.redirectUri with
  | none => .ok ⟨defaultRedirectUri, by decide, by decide, by decide⟩
  | some value => rejectUnresolvedPlaceholders value

/-- The `requested_scopes` that are left. A default is not validated, and so not sorted. -/
def requestedScopesField (raw : RawConfig) :
    Except PyStr {scopes : List PyStr // Tidy scopes ∧ ∀ scope ∈ requiredScopes, scope ∈ scopes} :=
  match raw.requestedScopes with
  | none => .ok ⟨defaultScopes, ⟨by decide, by decide⟩, by decide⟩
  | some value => requireRefreshScopes value

/-- `TradeStationConfig(...)`. All fields are validated, and the environment contract only if none of
them is rejected. -/
def validate (raw : RawConfig) : Except (List FieldError) LoadedConfig :=
  match raw.clientIdField, rejectUnresolvedSecretPlaceholder raw.clientSecret, raw.redirectUriField,
    raw.requestedScopesField, requireUniqueAccountAllowlist raw.accountAllowlist with
  | .ok clientId, .ok clientSecret, .ok redirectUri, .ok scopes, .ok accounts =>
    match validateEnvironmentContract raw.environment (stripTrailingSlash raw.baseUrl)
      raw.liveTradingEnabled raw.liveAcknowledgement
      (raw.allowMarketOrders || raw.allowOptions || raw.allowFutures) scopes.1 with
    | .error message => .error [⟨none, message⟩]
    | .ok contract =>
      .ok
        { environment := raw.environment
          baseUrl := stripTrailingSlash raw.baseUrl
          requestedScopes := scopes.1
          accountAllowlist := accounts.1
          liveTradingEnabled := raw.liveTradingEnabled
          liveAcknowledgement := raw.liveAcknowledgement
          maxOrderNotional := raw.maxOrderNotional
          allowMarketOrders := raw.allowMarketOrders
          allowOptions := raw.allowOptions
          allowFutures := raw.allowFutures
          allowExtendedHours := raw.allowExtendedHours
          killSwitchFile := raw.killSwitchFile.map pathText
          allowlist_ne := accounts.2.1
          allowlist_clean := accounts.2.2.trimmed
          allowlist_nodup := accounts.2.2.nodup
          scopes_required := ⟨scopes.2.2 _ (by decide), scopes.2.2 _ (by decide)⟩
          sim_url := contract.down.sim_url
          live_url := contract.down.live_url
          live_enabled := contract.down.live_enabled
          trade_scope := contract.down.trade_scope
          clientId := clientId.1
          clientSecret := clientSecret.1
          redirectUri := redirectUri.1
          client_resolved := clientId.2
          secret_resolved := clientSecret.2
          redirect_resolved := redirectUri.2
          scopes_tidy := scopes.2.1
          kill_switch_path := map_pathText_map_pathText raw.killSwitchFile }
  | clientId, clientSecret, redirectUri, scopes, accounts =>
    .error (fieldErrors "client_id" clientId ++ fieldErrors "client_secret" clientSecret ++
      fieldErrors "redirect_uri" redirectUri ++ fieldErrors "requested_scopes" scopes ++
      fieldErrors "account_allowlist" accounts)

/-- The scopes that are asked for. -/
def scopes (raw : RawConfig) : List PyStr := (raw.requestedScopes.map sortedScopes).getD defaultScopes

/-- The values as the field validators leave them. -/
def normal (raw : RawConfig) : RawConfig :=
  { raw with
    baseUrl := stripTrailingSlash raw.baseUrl
    clientId := strip raw.clientId
    redirectUri := some (strip (raw.redirectUri.getD defaultRedirectUri))
    requestedScopes := some raw.scopes
    accountAllowlist := cleaned raw.accountAllowlist
    killSwitchFile := raw.killSwitchFile.map pathText }

end RawConfig

namespace LoadedConfig

/-- The values of a configuration, to be validated again: `TradeStationConfig(**config.model_dump())`. -/
def dump (config : LoadedConfig) : RawConfig where
  environment := config.environment
  baseUrl := config.baseUrl
  clientId := config.clientId
  clientSecret := config.clientSecret
  redirectUri := some config.redirectUri
  requestedScopes := some config.requestedScopes
  accountAllowlist := config.accountAllowlist
  liveTradingEnabled := config.liveTradingEnabled
  liveAcknowledgement := config.liveAcknowledgement
  maxOrderNotional := config.maxOrderNotional
  allowMarketOrders := config.allowMarketOrders
  allowOptions := config.allowOptions
  allowFutures := config.allowFutures
  allowExtendedHours := config.allowExtendedHours
  killSwitchFile := config.killSwitchFile

theorem dump_inj {config other : LoadedConfig} (h : config.dump = other.dump) : config = other := by
  rcases config with ⟨⟨⟩⟩
  rcases other with ⟨⟨⟩⟩
  simp only [dump, RawConfig.mk.injEq, Option.some.injEq] at h
  obtain ⟨rfl, rfl, rfl, rfl, rfl, rfl, rfl, rfl, rfl, rfl, rfl, rfl, rfl, rfl, rfl⟩ := h
  rfl

theorem required (config : LoadedConfig) : ∀ scope ∈ requiredScopes, scope ∈ config.requestedScopes := by
  intro scope hscope
  rcases List.mem_cons.1 hscope with rfl | hscope
  · exact config.scopes_required.2
  · rw [List.mem_singleton.1 hscope]
    exact config.scopes_required.1

/-- A configuration keeps the contract. -/
theorem contract (config : LoadedConfig) :
    EnvironmentContract config.environment config.baseUrl config.liveTradingEnabled
      config.liveAcknowledgement
      (config.allowMarketOrders || config.allowOptions || config.allowFutures)
      config.requestedScopes where
  sim_url := config.sim_url
  live_url := config.live_url
  live_enabled := config.live_enabled
  trade_scope := config.trade_scope

end LoadedConfig

/-! ## What the validators return -/

theorem rejectUnresolvedPlaceholders_ok {value : PyStr} {text : {text : PyStr // Resolved text}} :
    rejectUnresolvedPlaceholders value = .ok text ↔ text.1 = strip value := by
  unfold rejectUnresolvedPlaceholders
  constructor
  · intro h
    split_ifs at h
    cases h
    rfl
  · intro h
    have hplaceholder : ¬hasPlaceholder value = true := by
      rw [← hasPlaceholder_strip, ← h, text.2.placeholder]
      exact Bool.false_ne_true
    have hblank : strip value ≠ [] := h ▸ text.2.nonblank
    rw [dif_neg hplaceholder, dif_neg hblank]
    exact congrArg _ (Subtype.ext h.symm)

theorem rejectUnresolvedSecretPlaceholder_ok {value : Option PyStr}
    {secret : {secret : Option PyStr // ∀ text ∈ secret, hasPlaceholder text = false}} :
    rejectUnresolvedSecretPlaceholder value = .ok secret ↔ secret.1 = value := by
  unfold rejectUnresolvedSecretPlaceholder
  constructor
  · intro h
    split_ifs at h
    cases h
    rfl
  · rintro rfl
    rw [dif_pos secret.2]

theorem requireUniqueAccountAllowlist_ok {value : List PyStr}
    {accounts : {accounts : List PyStr // accounts ≠ [] ∧ Tidy accounts}} :
    requireUniqueAccountAllowlist value = .ok accounts ↔ accounts.1 = cleaned value := by
  unfold requireUniqueAccountAllowlist
  constructor
  · intro h
    split_ifs at h
    cases h
    rfl
  · intro h
    have hne : cleaned value ≠ [] := h ▸ accounts.2.1
    have hnodup : (cleaned value).Nodup := h ▸ accounts.2.2.nodup
    rw [dif_neg hne, dif_pos hnodup]
    exact congrArg _ (Subtype.ext h.symm)

theorem requireRefreshScopes_ok {value : List PyStr}
    {scopes : {scopes : List PyStr // Tidy scopes ∧ ∀ scope ∈ requiredScopes, scope ∈ scopes}} :
    requireRefreshScopes value = .ok scopes ↔ scopes.1 = sortedScopes value := by
  unfold requireRefreshScopes
  constructor
  · intro h
    split_ifs at h
    cases h
    rfl
  · intro h
    have hrequired : ∀ scope ∈ requiredScopes, scope ∈ sortedScopes value := h ▸ scopes.2.2
    rw [dif_pos hrequired]
    exact congrArg _ (Subtype.ext h.symm)

/-- Where the contract is kept, it is found to be. -/
theorem validateEnvironmentContract_ok {environment : Environment} {baseUrl : PyStr}
    {liveTradingEnabled : Bool} {liveAcknowledgement : Option PyStr} {trading : Bool}
    {requestedScopes : List PyStr}
    (h : EnvironmentContract environment baseUrl liveTradingEnabled liveAcknowledgement trading
      requestedScopes) :
    validateEnvironmentContract environment baseUrl liveTradingEnabled liveAcknowledgement trading
      requestedScopes = .ok ⟨h⟩ := by
  have hsim : ¬(environment = .sim ∧ baseUrl ≠ simBaseUrl) := fun ⟨he, hne⟩ => hne (h.sim_url he)
  have hlive : ¬(environment = .live ∧ baseUrl ≠ liveBaseUrl) := fun ⟨he, hne⟩ => hne (h.live_url he)
  have henabled : ¬(environment = .live ∧ liveTradingEnabled = false) := by
    rintro ⟨he, hdisabled⟩
    rw [(h.live_enabled he).1] at hdisabled
    cases hdisabled
  have hacknowledged : ¬(environment = .live ∧ liveAcknowledgement ≠ some liveAcknowledgementText) :=
    fun ⟨he, hne⟩ => hne (h.live_enabled he).2
  have htrade : ¬(trading = true ∧ tradeScope ∉ requestedScopes) :=
    fun ⟨htrading, hnot⟩ => hnot (h.trade_scope htrading)
  rw [validateEnvironmentContract, dif_neg hsim, dif_neg hlive, dif_neg henabled,
    dif_neg hacknowledged, dif_neg htrade]

namespace RawConfig

variable {raw : RawConfig}

theorem redirectUriField_ok {text : {text : PyStr // Resolved text}} :
    raw.redirectUriField = .ok text ↔ text.1 = strip (raw.redirectUri.getD defaultRedirectUri) := by
  have hdefault : strip defaultRedirectUri = defaultRedirectUri := by decide
  unfold redirectUriField
  cases raw.redirectUri with
  | none =>
    rw [Option.getD_none, hdefault]
    constructor
    · intro h
      cases h
      rfl
    · exact fun h => congrArg _ (Subtype.ext h.symm)
  | some value => exact rejectUnresolvedPlaceholders_ok

theorem requestedScopesField_ok
    {scopes : {scopes : List PyStr // Tidy scopes ∧ ∀ scope ∈ requiredScopes, scope ∈ scopes}} :
    raw.requestedScopesField = .ok scopes ↔ scopes.1 = raw.scopes := by
  unfold requestedScopesField RawConfig.scopes
  cases raw.requestedScopes with
  | none =>
    constructor
    · intro h
      cases h
      rfl
    · exact fun h => congrArg _ (Subtype.ext h.symm)
  | some value => exact requireRefreshScopes_ok

/-- **What is accepted**: the values that are, as the field validators leave them, those of a
configuration. -/
theorem validate_ok {config : LoadedConfig} : raw.validate = .ok config ↔ config.dump = raw.normal := by
  constructor
  · intro h
    unfold validate at h
    split at h
    · next clientId clientSecret redirectUri scopes accounts hclient hsecret hredirect hscopes haccounts =>
      split at h
      · cases h
      · cases h
        have hclient' := rejectUnresolvedPlaceholders_ok.1 hclient
        have hsecret' := rejectUnresolvedSecretPlaceholder_ok.1 hsecret
        have hredirect' := redirectUriField_ok.1 hredirect
        have hscopes' := requestedScopesField_ok.1 hscopes
        have haccounts' := requireUniqueAccountAllowlist_ok.1 haccounts
        unfold LoadedConfig.dump normal
        simp only [hclient', hsecret', hredirect', hscopes', haccounts']
    · cases h
  · intro h
    obtain ⟨henvironment, hbase, hclient, hsecret, hredirect, hscopes, haccounts, henabled,
      hacknowledged, -, hmarket, hoptions, hfutures, -, -⟩ := RawConfig.mk.inj h
    have hclient' : raw.clientIdField = .ok ⟨config.clientId, config.client_resolved⟩ :=
      rejectUnresolvedPlaceholders_ok.2 hclient
    have hsecret' : rejectUnresolvedSecretPlaceholder raw.clientSecret =
        .ok ⟨config.clientSecret, config.secret_resolved⟩ :=
      rejectUnresolvedSecretPlaceholder_ok.2 hsecret
    have hredirect' : raw.redirectUriField = .ok ⟨config.redirectUri, config.redirect_resolved⟩ :=
      redirectUriField_ok.2 (Option.some.inj hredirect)
    have hscopes' : raw.requestedScopesField = .ok ⟨config.requestedScopes, config.scopes_tidy,
        config.required⟩ :=
      requestedScopesField_ok.2 (Option.some.inj hscopes)
    have haccounts' : requireUniqueAccountAllowlist raw.accountAllowlist =
        .ok ⟨config.accountAllowlist, config.allowlist_ne, config.allowlist_clean,
          config.allowlist_nodup⟩ :=
      requireUniqueAccountAllowlist_ok.2 haccounts
    have hcontract := config.contract
    rw [henvironment, hbase, henabled, hacknowledged, hmarket, hoptions, hfutures] at hcontract
    unfold validate
    simp only [hclient', hsecret', hredirect', hscopes', haccounts',
      validateEnvironmentContract_ok hcontract]
    refine congrArg Except.ok (LoadedConfig.dump_inj ?_)
    rw [h]
    unfold LoadedConfig.dump normal
    dsimp only
    rw [hclient, hsecret, ← hredirect, ← hscopes, haccounts]

end RawConfig

/-! ## Loading again -/

namespace LoadedConfig

variable (config : LoadedConfig)

theorem mem_sorted {scope : PyStr} :
    scope ∈ sortedScopes config.requestedScopes ↔ scope ∈ config.requestedScopes := by
  rw [mem_sortedScopes, config.scopes_tidy.cleaned_eq]

/-- The configuration with its scopes in order. -/
def sorted : LoadedConfig :=
  { config with
    requestedScopes := sortedScopes config.requestedScopes
    scopes_required :=
      ⟨config.mem_sorted.2 config.scopes_required.1, config.mem_sorted.2 config.scopes_required.2⟩
    trade_scope := fun h => config.mem_sorted.2 (config.trade_scope h)
    scopes_tidy := tidy_sortedScopes config.requestedScopes }

end LoadedConfig

/-- Values for the simulator. -/
def simRaw : RawConfig where
  environment := .sim
  baseUrl := str "https://sim-api.tradestation.com/v3/"
  clientId := str " id"
  requestedScopes := some [str "openid", str " Trade", str "offline_access", str "ReadAccount", str "Trade"]
  accountAllowlist := [str "SIM1 "]

/-- What they are loaded as. -/
def simLoaded : LoadedConfig :=
  { simConfig with
    clientId := str "id"
    clientSecret := none
    redirectUri := defaultRedirectUri
    client_resolved := ⟨by decide, by decide, by decide⟩
    secret_resolved := by simp
    redirect_resolved := ⟨by decide, by decide, by decide⟩
    scopes_tidy := ⟨by decide, by decide⟩
    kill_switch_path := rfl }

theorem validate_simRaw : simRaw.validate = .ok simLoaded := by
  have hset : (cleaned (simRaw.requestedScopes.getD [])).toFinset =
      simLoaded.requestedScopes.toFinset := by
    decide
  have hscopes : simRaw.scopes = simLoaded.requestedScopes :=
    (congrArg (Finset.sort · (· ≤ ·)) hset).trans
      ((List.toFinset_sort (· ≤ ·) simLoaded.scopes_tidy.nodup).2 (by decide))
  refine RawConfig.validate_ok.2 ?_
  unfold RawConfig.normal
  rw [hscopes]
  rfl

end TradeStation
