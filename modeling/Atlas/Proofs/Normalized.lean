import Atlas.Proofs.ConnectorAgreement

/-!
# What normalization leaves, it leaves again

A name that is kept as a header is a token in lower case, and one that is kept as a query name has
no space at an end; on both, trimming and folding do nothing more. So every part of what is left is
settled: it has passed each check as it stands, and passes it once more.
-/

namespace Atlas.SourceGateway.Config

variable {lib : NameLibrary}

section Names

/-- A header name in lower case. -/
structure LowerToken (name : GoString) : Prop where
  ne_nil : name ≠ []
  tokens : ∀ c ∈ name, Cli.isToken c = true
  lower : ∀ c ∈ name, c.isUpper = false

theorem LowerToken.trimSpace_eq {name : GoString} (h : LowerToken name) : trimSpace name = name :=
  trimmed_of_all _ fun c hc => isToken_not_space (h.tokens c hc)

theorem LowerToken.map_toLower {name : GoString} (h : LowerToken name) :
    name.map Char.toLower = name :=
  (List.map_congr_left fun c hc => Char.toLower_eq_of_not_isUpper (by simp [h.lower c hc])).trans
    (List.map_id _)

theorem LowerToken.toLower_eq {name : GoString} (h : LowerToken name) (lib : Library) :
    lib.toLower name = name := by
  rw [lib.toLower_ascii name fun c hc => isToken_lt (h.tokens c hc), h.map_toLower]

theorem LowerToken.validHeaderName_eq {name : GoString} (h : LowerToken name) (lib : Library) :
    validHeaderName lib name = true := by
  simp only [validHeaderName, ne_eq, h.ne_nil, not_false_eq_true, decide_true, Bool.true_and]
  exact lib.validHeaderFieldName_token name h.ne_nil (List.all_eq_true.2 h.tokens)

/-- What is valid after folding is a token in lower case. -/
theorem lowerToken_of_valid {value : GoString}
    (h : validHeaderName lib.toLibrary (lib.toLower value) = true) :
    LowerToken (lib.toLower value) := by
  unfold validHeaderName at h
  rw [Bool.and_eq_true, decide_eq_true_eq] at h
  obtain ⟨hne, htokens⟩ := lib.token_of_validHeaderFieldName _ h.2
  exact ⟨hne, List.all_eq_true.1 htokens, lib.no_capital value⟩

theorem trimSpace_trimSpace (value : GoString) : trimSpace (trimSpace value) = trimSpace value :=
  (trimmed_eq_self _).2 (trimmed_ends _ value)

/-- A name that is kept is not changed any more. -/
theorem normalizedName_kept {header : Bool} {value : GoString}
    (h : header = true → LowerToken (normalizedName lib.toLibrary header value)) :
    normalizedName lib.toLibrary header (normalizedName lib.toLibrary header value) =
      normalizedName lib.toLibrary header value := by
  cases header with
  | false => exact trimSpace_trimSpace value
  | true =>
    have hname := h rfl
    simp only [normalizedName, if_true] at hname ⊢
    rw [hname.trimSpace_eq, hname.toLower_eq]

theorem normalizeNames_ok {header : Bool} : ∀ {names seen result : List GoString},
    normalizeNames lib.toLibrary header names seen = .ok result →
    (∀ v ∈ result, normalizedName lib.toLibrary header v = v ∧ v ≠ []
        ∧ (header = true → LowerToken v))
      ∧ result.Nodup ∧ ∀ v ∈ result, v ∉ seen
  | [], seen, result, h => by
    simp only [normalizeNames, pure_ok] at h
    subst h
    exact ⟨List.forall_mem_nil _, List.nodup_nil, List.forall_mem_nil _⟩
  | value :: rest, seen, result, h => by
    simp only [normalizeNames, bind_ok, check_ok, pure_ok, exists_const] at h
    obtain ⟨hvalid, hseen, names, hrest, rfl⟩ := h
    obtain ⟨hall, hnodup, hout⟩ := normalizeNames_ok hrest
    simp only [ne_eq, Bool.and_eq_true, decide_eq_true_eq] at hvalid hseen
    have htoken : header = true → LowerToken (normalizedName lib.toLibrary header value) := by
      rintro rfl
      exact lowerToken_of_valid (by simpa [normalizedName] using hvalid.2)
    refine ⟨?_, ?_, ?_⟩
    · rw [List.forall_mem_cons]
      exact ⟨⟨normalizedName_kept htoken, hvalid.1, htoken⟩, hall⟩
    · rw [List.nodup_cons]
      exact ⟨fun hmem => hout _ hmem List.mem_cons_self, hnodup⟩
    · rw [List.forall_mem_cons]
      exact ⟨hseen, fun v hv hmem => hout v hv (List.mem_cons_of_mem _ hmem)⟩

end Names

section Routes

theorem passes_iff {p : Prop} [Decidable p] {readOnly : Bool} :
    (!(decide p && !readOnly)) = true ↔ ¬ (p ∧ readOnly = false) := by
  cases readOnly <;> simp

theorem passes_and_iff {p q : Prop} [Decidable p] [Decidable q] {readOnly : Bool} :
    (!(decide p && !readOnly && decide q)) = true ↔ ¬ (p ∧ readOnly = false ∧ q) := by
  cases readOnly <;> simp [imp_iff_not_or]

theorem normalizeFailures_ok : ∀ {values seen result : List GoString},
    normalizeFailures values seen = .ok result →
    (∀ v ∈ result, v ∈ failures) ∧ result.Nodup ∧ ∀ v ∈ result, v ∉ seen
  | [], seen, result, h => by
    simp only [normalizeFailures, pure_ok] at h
    subst h
    exact ⟨List.forall_mem_nil _, List.nodup_nil, List.forall_mem_nil _⟩
  | value :: rest, seen, result, h => by
    simp only [normalizeFailures, bind_ok, check_ok, pure_ok, exists_const, decide_eq_true_eq] at h
    obtain ⟨hfailure, hseen, names, hrest, rfl⟩ := h
    obtain ⟨hall, hnodup, hout⟩ := normalizeFailures_ok hrest
    refine ⟨?_, ?_, ?_⟩
    · rw [List.forall_mem_cons]
      exact ⟨hfailure, hall⟩
    · rw [List.nodup_cons]
      exact ⟨fun hmem => hout _ hmem List.mem_cons_self, hnodup⟩
    · rw [List.forall_mem_cons]
      exact ⟨hseen, fun v hv hmem => hout v hv (List.mem_cons_of_mem _ hmem)⟩

/-- What a retry rule has passed. -/
structure RetryRule.Settled (readOnly : Bool) (retry : RetryRule) : Prop where
  maxRetries : 0 ≤ retry.maxRetries ∧ retry.maxRetries ≤ 3
  statuses : ∀ status ∈ retry.statuses, 100 ≤ status ∧ status ≤ 599
  statuses_nodup : retry.statuses.Nodup
  failures : ∀ v ∈ retry.failures, v ∈ Config.failures
  failures_nodup : retry.failures.Nodup
  header : retry.idempotencyHeader = [] ∨ LowerToken retry.idempotencyHeader
  required : ¬ (0 < retry.maxRetries ∧ readOnly = false ∧ retry.idempotencyHeader = [])

theorem settled_of_normalizeRetry {readOnly : Bool} {retry n : RetryRule}
    (h : normalizeRetry lib.toLibrary readOnly retry = .ok n) : n.Settled readOnly := by
  simp only [normalizeRetry, bind_ok, check_ok, pure_ok, exists_const] at h
  obtain ⟨hmax, _, hstatuses, hheader, hrequired, values, hvalues, rfl⟩ := h
  obtain ⟨hbounds, hnodup, -⟩ := checkStatuses_ok.1 hstatuses
  obtain ⟨hfailures, hfailuresNodup, -⟩ := normalizeFailures_ok hvalues
  simp only [Bool.and_eq_true, decide_eq_true_eq] at hmax
  rw [Bool.or_eq_true, decide_eq_true_eq] at hheader
  exact {
    maxRetries := hmax
    statuses := hbounds
    statuses_nodup := hnodup
    failures := hfailures
    failures_nodup := hfailuresNodup
    header := hheader.imp_right lowerToken_of_valid
    required := passes_and_iff.1 hrequired }

theorem RetryRule.Settled.normalize_eq {readOnly : Bool} {n : RetryRule}
    (h : n.Settled readOnly) (lib : Library) : normalizeRetry lib readOnly n = .ok n := by
  have hheader : lib.toLower (trimSpace n.idempotencyHeader) = n.idempotencyHeader
      ∧ (n.idempotencyHeader = [] ∨ validHeaderName lib n.idempotencyHeader = true) := by
    rcases h.header with hnil | htoken
    · rw [hnil]
      exact ⟨lib.toLower_ascii [] (by simp), .inl rfl⟩
    · rw [htoken.trimSpace_eq, htoken.toLower_eq]
      exact ⟨rfl, .inr (htoken.validHeaderName_eq lib)⟩
  simp only [normalizeRetry, bind_ok, check_ok, pure_ok, hheader.1, exists_const]
  refine ⟨?_, (), checkStatuses_ok.2 ⟨h.statuses, h.statuses_nodup, by simp⟩, ?_,
    passes_and_iff.2 h.required, n.failures,
    normalizeFailures_eq_self h.failures h.failures_nodup (by simp), rfl⟩
  · simpa using h.maxRetries
  · simpa using hheader.2

/-- What a route has passed. -/
structure RouteRule.Settled (r : RouteRule) : Prop where
  method : r.method ∈ methods
  path : validateDecodedPath r.pathPrefix = .ok ()
  queryNames : ∀ v ∈ r.allowedQueryNames, trimSpace v = v ∧ v ≠ []
  queryNames_nodup : r.allowedQueryNames.Nodup
  requestHeaders : ∀ v ∈ r.allowedRequestHeaders, LowerToken v
  requestHeaders_nodup : r.allowedRequestHeaders.Nodup
  requestHeaders_allowed : ∀ v ∈ r.allowedRequestHeaders, v ∉ fixedForbiddenRequestHeaders
  responseHeaders : ∀ v ∈ r.allowedResponseHeaders, LowerToken v
  responseHeaders_nodup : r.allowedResponseHeaders.Nodup
  responseHeaders_allowed : ∀ v ∈ r.allowedResponseHeaders, v ∉ fixedForbiddenResponseHeaders
  cacheTTLMS : 0 ≤ r.cacheTTLMS ∧ r.cacheTTLMS ≤ 3600000
  cached : ¬ (0 < r.cacheTTLMS ∧ r.readOnly = false)
  retry : r.retry.Settled r.readOnly

theorem none_mem_iff {names forbidden : List GoString} :
    (!names.any (· ∈ forbidden)) = true ↔ ∀ v ∈ names, v ∉ forbidden := by
  simp

theorem settled_of_normalizeRoute {r n : RouteRule} (h : r.normalize lib.toLibrary = .ok n) :
    n.Settled := by
  simp only [RouteRule.normalize, bind_ok, check_ok, pure_ok, within_ok, exists_const] at h
  obtain ⟨hmethod, _, hpath, queryNames, hquery, requestHeaders, hrequest, hrequestAllowed,
    responseHeaders, hresponse, hresponseAllowed, httl, hcached, retry, hretry, rfl⟩ := h
  obtain ⟨hqueryNames, hqueryNodup, -⟩ := normalizeNames_ok hquery
  obtain ⟨hrequestNames, hrequestNodup, -⟩ := normalizeNames_ok hrequest
  obtain ⟨hresponseNames, hresponseNodup, -⟩ := normalizeNames_ok hresponse
  exact {
    method := by simpa using hmethod
    path := hpath
    queryNames := fun v hv => ⟨(hqueryNames v hv).1, (hqueryNames v hv).2.1⟩
    queryNames_nodup := hqueryNodup
    requestHeaders := fun v hv => (hrequestNames v hv).2.2 rfl
    requestHeaders_nodup := hrequestNodup
    requestHeaders_allowed := none_mem_iff.1 hrequestAllowed
    responseHeaders := fun v hv => (hresponseNames v hv).2.2 rfl
    responseHeaders_nodup := hresponseNodup
    responseHeaders_allowed := none_mem_iff.1 hresponseAllowed
    cacheTTLMS := by simpa using httl
    cached := passes_iff.1 hcached
    retry := settled_of_normalizeRetry hretry }

theorem normalizeNames_settled {names : List GoString} (h : ∀ v ∈ names, LowerToken v)
    (hnodup : names.Nodup) (lib : Library) : normalizeNames lib true names [] = .ok names := by
  refine (normalizeNames_eq_self lib).2 ⟨fun v hv => ?_, hnodup, by simp⟩
  have hname := h v hv
  refine ⟨?_, hname.ne_nil, fun _ => hname.validHeaderName_eq lib⟩
  simp only [normalizedName, if_true]
  rw [hname.trimSpace_eq, hname.toLower_eq]

theorem RouteRule.Settled.normalize_eq {n : RouteRule} (h : n.Settled) (lib : Library) :
    n.normalize lib = .ok n := by
  have hmethods : ∀ v ∈ methods, trimSpace v = v ∧ v.all Cli.isToken = true
      ∧ v.map Char.toUpper = v := by decide +kernel
  obtain ⟨htrim, htokens, hupper⟩ := hmethods n.method h.method
  have hmethod : lib.toUpper (trimSpace n.method) = n.method := by
    rw [htrim, lib.toUpper_ascii _ fun c hc => isToken_lt (List.all_eq_true.1 htokens c hc), hupper]
  have hquery : normalizeNames lib false n.allowedQueryNames [] = .ok n.allowedQueryNames :=
    (normalizeNames_eq_self lib).2
      ⟨fun v hv => ⟨(h.queryNames v hv).1, (h.queryNames v hv).2, nofun⟩, h.queryNames_nodup,
        by simp⟩
  have hrequest := normalizeNames_settled h.requestHeaders h.requestHeaders_nodup lib
  have hresponse := normalizeNames_settled h.responseHeaders h.responseHeaders_nodup lib
  simp only [RouteRule.normalize, bind_ok, check_ok, pure_ok, within_ok, hmethod, h.path, hquery,
    hrequest, hresponse, h.retry.normalize_eq lib, Except.ok.injEq, exists_eq_left', exists_const,
    and_true, true_and]
  exact ⟨by simpa using h.method, none_mem_iff.2 h.requestHeaders_allowed,
    none_mem_iff.2 h.responseHeaders_allowed, by simpa using h.cacheTTLMS,
    passes_iff.2 h.cached⟩

theorem settled_of_normalizeRoutes : ∀ {routes result : List RouteRule} {index : ℕ}
    {seen : List GoString}, normalizeRoutes lib.toLibrary routes index seen = .ok result →
    (∀ r ∈ result, r.Settled) ∧ (result.map RouteRule.key).Nodup ∧ (∀ r ∈ result, r.key ∉ seen)
      ∧ result.length = routes.length
  | [], result, index, seen, h => by
    simp only [normalizeRoutes, pure_ok] at h
    subst h
    exact ⟨List.forall_mem_nil _, List.nodup_nil, List.forall_mem_nil _, rfl⟩
  | route :: rest, result, index, seen, h => by
    simp only [normalizeRoutes, bind_ok, check_ok, pure_ok, within_ok, exists_const,
      decide_eq_true_eq] at h
    obtain ⟨r, hr, hseen, routes, hrest, rfl⟩ := h
    obtain ⟨hall, hnodup, hout, hlength⟩ := settled_of_normalizeRoutes hrest
    refine ⟨?_, ?_, ?_, congrArg (· + 1) hlength⟩
    · rw [List.forall_mem_cons]
      exact ⟨settled_of_normalizeRoute hr, hall⟩
    · rw [List.map_cons, List.nodup_cons]
      refine ⟨fun hmem => ?_, hnodup⟩
      obtain ⟨other, hother, hkey⟩ := List.mem_map.1 hmem
      exact hout other hother (hkey ▸ List.mem_cons_self)
    · rw [List.forall_mem_cons]
      exact ⟨hseen, fun other hother hmem => hout other hother (List.mem_cons_of_mem _ hmem)⟩

end Routes

section Secrets

/-- What a secret header has passed. -/
structure SettledSecret (header : GoString × SecretRef) : Prop where
  name : LowerToken header.1
  allowed : header.1 ∉ fixedForbiddenRequestHeaders
  environment : trimSpace header.2.environment = header.2.environment
  file : trimSpace header.2.file = header.2.file
  one : (decide (header.2.environment = []) != decide (header.2.file = [])) = true

theorem settled_of_normalizeSecrets : ∀ {headers normalized result : List (GoString × SecretRef)},
    normalizeSecrets lib.toLibrary headers normalized = .ok result →
    (∀ header ∈ normalized, SettledSecret header) → (normalized.map Prod.fst).Nodup →
    (∀ header ∈ result, SettledSecret header) ∧ (result.map Prod.fst).Nodup
  | [], normalized, result, h, hsettled, hnodup => by
    simp only [normalizeSecrets, pure_ok] at h
    subst h
    exact ⟨hsettled, hnodup⟩
  | (name, reference) :: rest, normalized, result, h, hsettled, hnodup => by
    simp only [normalizeSecrets, bind_ok, check_ok, exists_const, Bool.and_eq_true,
      decide_eq_true_eq] at h
    obtain ⟨⟨hvalid, hallowed⟩, hone, hnew, hrest⟩ := h
    refine settled_of_normalizeSecrets hrest ?_ ?_
    · intro header hheader
      rcases List.mem_append.1 hheader with hold | hlast
      · exact hsettled header hold
      · obtain rfl := List.mem_singleton.1 hlast
        exact ⟨lowerToken_of_valid hvalid, hallowed, trimSpace_trimSpace _, trimSpace_trimSpace _,
          hone⟩
    · rw [List.map_append, List.nodup_append]
      refine ⟨hnodup, List.nodup_singleton _, ?_⟩
      rintro a ha b hb rfl
      rw [List.map_singleton, List.mem_singleton] at hb
      rw [hb] at ha
      exact hnew ha

theorem normalizeSecrets_settled (lib : Library) :
    ∀ {headers normalized : List (GoString × SecretRef)},
    (∀ header ∈ headers, SettledSecret header) →
    ((normalized ++ headers).map Prod.fst).Nodup →
    normalizeSecrets lib headers normalized = .ok (normalized ++ headers)
  | [], normalized, _, _ => by simp [normalizeSecrets]
  | (name, reference) :: rest, normalized, h, hnodup => by
    rw [List.forall_mem_cons] at h
    obtain ⟨hheader, hrest⟩ := h
    have hname : lib.toLower (trimSpace name) = name := by
      rw [hheader.name.trimSpace_eq, hheader.name.toLower_eq]
    have hreference : { reference with
        environment := trimSpace reference.environment, file := trimSpace reference.file } =
        reference := by
      rw [hheader.environment, hheader.file]
    have hnew : name ∉ normalized.map Prod.fst := by
      rw [List.map_append, List.nodup_append] at hnodup
      exact fun hmem => hnodup.2.2 name hmem name List.mem_cons_self rfl
    have hall : normalizeSecrets lib rest (normalized ++ [(name, reference)]) =
        .ok (normalized ++ [(name, reference)] ++ rest) :=
      normalizeSecrets_settled lib hrest (by simpa using hnodup)
    rw [List.append_assoc, List.singleton_append] at hall
    simp only [normalizeSecrets, bind_ok, check_ok, exists_const, hname, hreference]
    exact ⟨by simpa using ⟨hheader.name.validHeaderName_eq lib, hheader.allowed⟩,
      by simpa [hheader.environment, hheader.file] using hheader.one, by simpa using hnew, hall⟩

end Secrets

section Connector

theorem bounds_of_bounded {value fallback maximum n : ℤ} {name : String}
    (h : bounded value fallback maximum name = .ok n) : 1 ≤ n ∧ n ≤ maximum := by
  simp only [bounded, bind_ok, check_ok, pure_ok, exists_const, Bool.and_eq_true,
    decide_eq_true_eq] at h
  obtain ⟨hbounds, rfl⟩ := h
  exact hbounds

/-- A timeout that passes: its duration is only compared with the longest one. -/
def TimeoutPasses (timeoutMS : ℤ) : Prop :=
  1 ≤ timeoutMS ∧ durationOfMilliseconds timeoutMS ≤ hardMaxTimeout

theorem normalizeTimeout_iff {value n : ℤ} :
    normalizeTimeout value = .ok n ↔ n = orDefault value 10000 ∧ TimeoutPasses n := by
  simp only [normalizeTimeout, bind_ok, check_ok, pure_ok, exists_const, Bool.and_eq_true,
    decide_eq_true_eq]
  constructor
  · rintro ⟨hpasses, rfl⟩
    exact ⟨rfl, hpasses⟩
  · rintro ⟨rfl, hpasses⟩
    exact ⟨hpasses, rfl⟩

theorem TimeoutPasses.normalize_eq {n : ℤ} (h : TimeoutPasses n) : normalizeTimeout n = .ok n := by
  have hne : n ≠ 0 := by
    have := h.1
    omega
  exact normalizeTimeout_iff.2 ⟨(if_neg hne).symm, h⟩

structure ConnectorLimits.Settled (limits : ConnectorLimits) : Prop where
  timeoutMS : TimeoutPasses limits.timeoutMS
  maxRequestBytes : 1 ≤ limits.maxRequestBytes ∧ limits.maxRequestBytes ≤ 4 * 2 ^ 20
  maxResponseBytes : 1 ≤ limits.maxResponseBytes ∧ limits.maxResponseBytes ≤ 16 * 2 ^ 20
  maxConcurrency : 1 ≤ limits.maxConcurrency ∧ limits.maxConcurrency ≤ 64
  maxHeaderCount : 1 ≤ limits.maxHeaderCount ∧ limits.maxHeaderCount ≤ 128
  maxHeaderBytes : 1 ≤ limits.maxHeaderBytes ∧ limits.maxHeaderBytes ≤ 256 * 2 ^ 10

theorem settled_of_normalizeLimits {limits n : ConnectorLimits}
    (h : normalizeLimits limits = .ok n) :
    n.Settled ∧ n.timeoutMS = orDefault limits.timeoutMS 10000 := by
  simp only [normalizeLimits, bind_ok, pure_ok] at h
  obtain ⟨timeout, htimeout, request, hrequest, response, hresponse, concurrency, hconcurrency,
    count, hcount, bytes, hbytes, rfl⟩ := h
  obtain ⟨hvalue, hpasses⟩ := normalizeTimeout_iff.1 htimeout
  exact ⟨⟨hpasses, bounds_of_bounded hrequest, bounds_of_bounded hresponse,
    bounds_of_bounded hconcurrency, bounds_of_bounded hcount, bounds_of_bounded hbytes⟩, hvalue⟩

theorem ConnectorLimits.Settled.normalize_eq {limits : ConnectorLimits} (h : limits.Settled) :
    normalizeLimits limits = .ok limits := by
  simp only [normalizeLimits, h.timeoutMS.normalize_eq, bounded_ok h.maxRequestBytes,
    bounded_ok h.maxResponseBytes, bounded_ok h.maxConcurrency, bounded_ok h.maxHeaderCount,
    bounded_ok h.maxHeaderBytes]
  rfl

structure BreakerConfig.Settled (breaker : BreakerConfig) : Prop where
  failures : 1 ≤ breaker.failures ∧ breaker.failures ≤ 100
  openMS : 1 ≤ breaker.openMS ∧ breaker.openMS ≤ 3600000

theorem settled_of_normalizeBreaker {breaker n : BreakerConfig}
    (h : normalizeBreaker breaker = .ok n) : n.Settled := by
  simp only [normalizeBreaker, bind_ok, pure_ok] at h
  obtain ⟨failures, hfailures, openMS, hopen, rfl⟩ := h
  exact ⟨bounds_of_bounded hfailures, bounds_of_bounded hopen⟩

theorem BreakerConfig.Settled.normalize_eq {breaker : BreakerConfig} (h : breaker.Settled) :
    normalizeBreaker breaker = .ok breaker := by
  simp only [normalizeBreaker, bounded_ok h.failures, bounded_ok h.openMS]
  rfl

/-- What a route has passed beside the secret headers. -/
def SecretFree (secretHeaders : List (GoString × SecretRef)) (r : RouteRule) : Prop :=
  (∀ v ∈ r.allowedRequestHeaders, v ∉ secretHeaders.map Prod.fst)
    ∧ ¬ (0 < r.retry.maxRetries ∧ r.readOnly = false
      ∧ r.retry.idempotencyHeader ∉ r.allowedRequestHeaders)

theorem checkRoutes_iff {secretHeaders : List (GoString × SecretRef)} :
    ∀ {routes : List RouteRule} {index : ℕ},
    checkRoutes secretHeaders routes index = .ok () ↔ ∀ r ∈ routes, SecretFree secretHeaders r
  | [], index => by simp [checkRoutes]
  | route :: rest, index => by
    have hcontains : (!(decide (0 < route.retry.maxRetries) && !route.readOnly
        && !route.allowedRequestHeaders.contains route.retry.idempotencyHeader)) = true ↔
        ¬ (0 < route.retry.maxRetries ∧ route.readOnly = false
          ∧ route.retry.idempotencyHeader ∉ route.allowedRequestHeaders) := by
      rw [← passes_and_iff]
      simp
    simp only [checkRoutes, bind_ok, check_ok, exists_const, List.forall_mem_cons]
    rw [checkRoutes_iff, none_mem_iff, hcontains]
    simp only [SecretFree, and_assoc]

/-- What a connector has passed. -/
structure ConnectorConfig.Settled (lib : Library) (c : ConnectorConfig) : Prop where
  id : trimSpace c.id = c.id ∧ validPluginID c.id = true
  origin : (lib.parseURL c.origin).any acceptsOrigin = true
  routes_ne_nil : c.routes ≠ []
  routes : ∀ r ∈ c.routes, r.Settled
  routes_nodup : (c.routes.map RouteRule.key).Nodup
  secretHeaders : ∀ header ∈ c.secretHeaders, SettledSecret header
  secretHeaders_nodup : (c.secretHeaders.map Prod.fst).Nodup
  limits : c.limits.Settled
  requestsPerSecond : 0 ≤ c.requestsPerSecond ∧ c.requestsPerSecond ≤ 1000
  circuitBreaker : c.circuitBreaker.Settled
  secretFree : ∀ r ∈ c.routes, SecretFree c.secretHeaders r

theorem settled_of_normalize {c n : ConnectorConfig} (h : c.normalize lib.toLibrary = .ok n) :
    n.Settled lib.toLibrary ∧ n.origin = trimRightSlash (trimSpace c.origin)
      ∧ n.limits.timeoutMS = orDefault c.limits.timeoutMS 10000 := by
  simp only [ConnectorConfig.normalize, bind_ok, check_ok, pure_ok, exists_const] at h
  obtain ⟨hid, horigin, hroutesNil, routes, hroutes, secrets, hsecrets, limits, hlimits, hrate,
    breaker, hbreaker, _, hcheck, rfl⟩ := h
  obtain ⟨hroutesAll, hroutesNodup, -, hlength⟩ := settled_of_normalizeRoutes hroutes
  obtain ⟨hsecretsAll, hsecretsNodup⟩ :=
    settled_of_normalizeSecrets hsecrets (List.forall_mem_nil _) List.nodup_nil
  obtain ⟨hlimitsAll, htimeout⟩ := settled_of_normalizeLimits hlimits
  refine ⟨?_, rfl, htimeout⟩
  exact {
    id := ⟨trimSpace_trimSpace c.id, hid⟩
    origin := horigin
    routes_ne_nil := by
      rintro rfl
      rw [eq_comm, List.length_nil, List.length_eq_zero_iff] at hlength
      simp [hlength] at hroutesNil
    routes := hroutesAll
    routes_nodup := hroutesNodup
    secretHeaders := hsecretsAll
    secretHeaders_nodup := hsecretsNodup
    limits := hlimitsAll
    requestsPerSecond := by simpa using hrate
    circuitBreaker := settled_of_normalizeBreaker hbreaker
    secretFree := checkRoutes_iff.1 hcheck }

/-- Only the origin may still change. -/
theorem ConnectorConfig.Settled.normalize_iff {lib : Library} {c : ConnectorConfig}
    (h : c.Settled lib) :
    c.normalize lib = .ok c ↔ trimRightSlash (trimSpace c.origin) = c.origin := by
  constructor
  · intro hnormalize
    simp only [ConnectorConfig.normalize, bind_ok, check_ok, pure_ok, exists_const] at hnormalize
    obtain ⟨-, -, -, _, -, _, -, _, -, -, _, -, _, -, heq⟩ := hnormalize
    exact congrArg ConnectorConfig.origin heq
  · intro horigin
    have hroutes : normalizeRoutes lib c.routes 0 [] = .ok c.routes :=
      (normalizeRoutes_eq_self lib).2
        ⟨fun r hr => (h.routes r hr).normalize_eq lib, h.routes_nodup, by simp⟩
    have hsecrets : normalizeSecrets lib c.secretHeaders [] = .ok c.secretHeaders :=
      normalizeSecrets_settled lib h.secretHeaders (by simpa using h.secretHeaders_nodup)
    simp only [ConnectorConfig.normalize, bind_ok, check_ok, pure_ok, exists_const, h.id.1, h.id.2,
      horigin, h.origin, hroutes, hsecrets, h.limits.normalize_eq, h.circuitBreaker.normalize_eq,
      Except.ok.injEq, exists_eq_left', and_true, true_and]
    exact ⟨by simpa using h.routes_ne_nil, by simpa using h.requestsPerSecond, (),
      checkRoutes_iff.2 h.secretFree⟩

end Connector

end Atlas.SourceGateway.Config
