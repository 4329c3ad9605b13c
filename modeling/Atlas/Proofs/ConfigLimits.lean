import Atlas.Proofs.ConnectorAgreement
import Atlas.Proofs.Normalized

/-!
# Accepted configurations within their limits

A timeout is compared with the longest one only as a duration. One that overflows comes out below a
millisecond, and passes. An origin loses its space first and then its slashes, so that one with
space before its slashes ends in space, and loses more the next time. But for these two, what is
accepted is within its limits, and settled.
-/

namespace Atlas.SourceGateway.Config

variable {lib : NameLibrary}

section Timeouts

/-- However often it wraps around, the timeout does not come out below a millisecond. -/
def TimeoutFits (timeoutMS : ℤ) : Prop :=
  ∀ wraps : ℤ, 0 < wraps → ¬ (-2 ^ 63 ≤ timeoutMS * 1000000 - wraps * 2 ^ 64
    ∧ timeoutMS * 1000000 - wraps * 2 ^ 64 < 1000000)

theorem duration_of_lt {ms : ℤ} (hlow : 0 ≤ ms) (hhigh : ms ≤ 3600000) :
    durationOfMilliseconds ms = ms * 1000000 := by
  unfold durationOfMilliseconds
  rw [Int.bmod_eq_of_le] <;> omega

/-- A duration is what is left in range after some wraps. -/
theorem duration_wraps (ms : ℤ) : ∃ wraps : ℤ,
    durationOfMilliseconds ms = ms * 1000000 - wraps * 2 ^ 64
      ∧ -2 ^ 63 ≤ durationOfMilliseconds ms ∧ durationOfMilliseconds ms < 2 ^ 63 := by
  have hsplit := Int.bmod_eq_self_sub_bdiv_mul (ms * 1000000) (2 ^ 64)
  have hlow := Int.le_bmod (x := ms * 1000000) (m := 2 ^ 64) (by decide)
  have hhigh := Int.bmod_lt (x := ms * 1000000) (m := 2 ^ 64) (by decide)
  exact ⟨(ms * 1000000).bdiv (2 ^ 64), hsplit, le_trans (by norm_num) hlow,
    lt_of_lt_of_le hhigh (by norm_num)⟩

theorem timeoutFits_iff {timeoutMS : ℤ} (h : TimeoutPasses (orDefault timeoutMS 10000)) :
    TimeoutFits timeoutMS ↔ 1000000 ≤ durationOfMilliseconds (orDefault timeoutMS 10000) := by
  unfold orDefault at h ⊢
  split_ifs at h ⊢ with hzero
  · subst hzero
    rw [duration_of_lt (by decide) (by decide)]
    refine iff_of_true (fun wraps hwraps hrange => ?_) (by decide)
    omega
  · obtain ⟨wraps, hvalue, hlow, hhigh⟩ := duration_wraps timeoutMS
    have hpos := h.1
    constructor
    · intro hfits
      by_contra hshort
      exact hfits wraps (by omega) (by omega)
    · rintro hlong other hother ⟨hbelow, habove⟩
      -- both are in range, and they differ by whole wraps
      have hmore : 0 < (other - wraps) * 2 ^ 64 := by linarith
      have hless : (other - wraps) * 2 ^ 64 < 2 ^ 64 := by linarith
      omega

end Timeouts

section Origins

/-- The origin has no space before the slashes it ends in. -/
def OriginFits (origin : GoString) : Prop :=
  ¬ ∃ start space slashes, Core.isSpace space = true ∧ (∀ c ∈ slashes, c = '/')
    ∧ trimSpace origin = start ++ space :: slashes

theorem trimRightSlash_append {s slashes : GoString} (h : ∀ c ∈ slashes, c = '/')
    (hlast : ∀ c, s.getLast? = some c → c ≠ '/') : trimRightSlash (s ++ slashes) = s := by
  have hreverse : ∀ c ∈ slashes.reverse, decide (c = '/') = true := fun c hc =>
    decide_eq_true (h c (List.mem_reverse.1 hc))
  have hstop : s.reverse.dropWhile (· = '/') = s.reverse := by
    refine (dropWhile_eq_self _).2 fun c hc => ?_
    rw [List.head?_reverse] at hc
    exact decide_eq_false (hlast c hc)
  unfold trimRightSlash
  rw [List.reverse_append, List.dropWhile_append_of_pos hreverse, hstop, List.reverse_reverse]

theorem trimRightSlash_spec (s : GoString) : ∃ slashes, (∀ c ∈ slashes, c = '/')
    ∧ s = trimRightSlash s ++ slashes ∧ ∀ c, (trimRightSlash s).getLast? = some c → c ≠ '/' := by
  refine ⟨(s.reverse.takeWhile (· = '/')).reverse, fun c hc => ?_, ?_, fun c hc => ?_⟩
  · have hmem := List.mem_takeWhile_imp (List.mem_reverse.1 hc)
    exact of_decide_eq_true hmem
  · unfold trimRightSlash
    rw [← List.reverse_append, List.takeWhile_append_dropWhile, List.reverse_reverse]
  · unfold trimRightSlash at hc
    rw [List.getLast?_reverse] at hc
    exact of_decide_eq_false (head?_dropWhile (fun c => decide (c = '/')) hc)

theorem trimSpace_sublist (s : GoString) : (trimSpace s).Sublist s := by
  unfold trimSpace
  rw [← List.reverse_sublist, List.reverse_reverse]
  exact (List.dropWhile_sublist _).trans (List.reverse_sublist.2 (List.dropWhile_sublist _))

theorem trimRightSlash_sublist (s : GoString) : (trimRightSlash s).Sublist s := by
  unfold trimRightSlash
  rw [← List.reverse_sublist, List.reverse_reverse]
  exact List.dropWhile_sublist _

theorem originFits_iff (origin : GoString) :
    OriginFits origin ↔ trimRightSlash (trimSpace (trimRightSlash (trimSpace origin))) =
      trimRightSlash (trimSpace origin) := by
  obtain ⟨slashes, hslashes, hsplit, hlast⟩ := trimRightSlash_spec (trimSpace origin)
  have hends : Trimmed Core.isSpace (trimSpace origin) := trimmed_ends _ origin
  generalize trimRightSlash (trimSpace origin) = left at hsplit hlast ⊢
  constructor
  · intro hfits
    have htrimmed : trimSpace left = left := by
      refine (trimmed_eq_self _).2 ⟨fun c hc => hends.1 c ?_, fun c hc => ?_⟩
      · rw [hsplit, List.head?_append, hc]
        rfl
      · by_contra hspace
        rw [Bool.not_eq_false] at hspace
        refine hfits ⟨left.dropLast, c, slashes, hspace, hslashes, ?_⟩
        rw [hsplit, ← List.dropLast_append_getLast? c hc, List.append_assoc,
          List.singleton_append, List.dropLast_concat]
    rw [htrimmed]
    have hnone := @trimRightSlash_append left [] nofun hlast
    rwa [List.append_nil] at hnone
  · rintro hsame ⟨start, space, rest, hspace, hrest, heq⟩
    have hne : space ≠ '/' := by
      rintro rfl
      exact absurd hspace (by decide)
    -- what is left ends in the space, so that trimming it takes something away
    have hleft : left = start ++ [space] := by
      have hone := trimRightSlash_append hslashes hlast
      have hother := trimRightSlash_append (s := start ++ [space]) hrest (by simpa using hne)
      rw [← hsplit, heq] at hone
      rw [List.append_assoc, List.singleton_append] at hother
      rw [← hone, hother]
    have hback : left.Sublist (trimSpace left) := by
      have hsub := trimRightSlash_sublist (trimSpace left)
      rwa [hsame] at hsub
    have htrimmed : trimSpace left = left := (trimSpace_sublist left).antisymm hback
    have hlast' := ((trimmed_eq_self Core.isSpace).1 htrimmed).2 space (by simp [hleft])
    rw [hspace] at hlast'
    exact Bool.noConfusion hlast'

end Origins

section Gateway

/-- What is read as milliseconds is a duration between two others. -/
def DurationWithin (ms minimum maximum : ℤ) : Prop :=
  minimum ≤ durationOfMilliseconds ms ∧ durationOfMilliseconds ms ≤ maximum

/-- Every number of a connector is in its documented range, the durations as they wrap around. -/
structure ConnectorConfig.WithinLimits (c : ConnectorConfig) : Prop where
  timeout : DurationWithin c.limits.timeoutMS 1000000 hardMaxTimeout
  maxRequestBytes : 1 ≤ c.limits.maxRequestBytes ∧ c.limits.maxRequestBytes ≤ 4 * 2 ^ 20
  maxResponseBytes : 1 ≤ c.limits.maxResponseBytes ∧ c.limits.maxResponseBytes ≤ 16 * 2 ^ 20
  maxConcurrency : 1 ≤ c.limits.maxConcurrency ∧ c.limits.maxConcurrency ≤ 64
  maxHeaderCount : 1 ≤ c.limits.maxHeaderCount ∧ c.limits.maxHeaderCount ≤ 128
  maxHeaderBytes : 1 ≤ c.limits.maxHeaderBytes ∧ c.limits.maxHeaderBytes ≤ 256 * 2 ^ 10
  requestsPerSecond : 0 ≤ c.requestsPerSecond ∧ c.requestsPerSecond ≤ 1000
  failures : 1 ≤ c.circuitBreaker.failures ∧ c.circuitBreaker.failures ≤ 100
  openMS : DurationWithin c.circuitBreaker.openMS 1000000 (3600 * 1000000000)
  cache : ∀ r ∈ c.routes, DurationWithin r.cacheTTLMS 0 (3600 * 1000000000)
  maxRetries : ∀ r ∈ c.routes, 0 ≤ r.retry.maxRetries ∧ r.retry.maxRetries ≤ 3
  statuses : ∀ r ∈ c.routes, ∀ status ∈ r.retry.statuses, 100 ≤ status ∧ status ≤ 599

/-- Nothing of a connector is there twice, and no plugin supplies a secret header. -/
structure ConnectorConfig.Distinct (c : ConnectorConfig) : Prop where
  routes : (c.routes.map RouteRule.key).Nodup
  queryNames : ∀ r ∈ c.routes, r.allowedQueryNames.Nodup
  requestHeaders : ∀ r ∈ c.routes, r.allowedRequestHeaders.Nodup
  responseHeaders : ∀ r ∈ c.routes, r.allowedResponseHeaders.Nodup
  statuses : ∀ r ∈ c.routes, r.retry.statuses.Nodup
  failures : ∀ r ∈ c.routes, r.retry.failures.Nodup
  secretHeaders : (c.secretHeaders.map Prod.fst).Nodup
  secretFree : ∀ r ∈ c.routes, ∀ v ∈ r.allowedRequestHeaders, v ∉ c.secretHeaders.map Prod.fst

structure GatewayConfig.Stable (lib : Library) (c : GatewayConfig) : Prop where
  cacheMaxEntries : 1 ≤ c.cacheMaxEntries ∧ c.cacheMaxEntries ≤ 100000
  cacheMaxBytes : 1 ≤ c.cacheMaxBytes ∧ c.cacheMaxBytes ≤ 256 * 2 ^ 20
  withinLimits : ∀ connector ∈ c.connectors, connector.WithinLimits
  distinct : ∀ connector ∈ c.connectors, connector.Distinct
  ids : (c.connectors.map ConnectorConfig.id).Nodup
  again : c.normalize lib = .ok c

theorem ConnectorConfig.Settled.distinct {lib : Library} {c : ConnectorConfig}
    (h : c.Settled lib) : c.Distinct where
  routes := h.routes_nodup
  queryNames r hr := (h.routes r hr).queryNames_nodup
  requestHeaders r hr := (h.routes r hr).requestHeaders_nodup
  responseHeaders r hr := (h.routes r hr).responseHeaders_nodup
  statuses r hr := (h.routes r hr).retry.statuses_nodup
  failures r hr := (h.routes r hr).retry.failures_nodup
  secretHeaders := h.secretHeaders_nodup
  secretFree r hr := (h.secretFree r hr).1

/-- Only the timeout may be out of its range. -/
theorem ConnectorConfig.Settled.withinLimits_iff {lib : Library} {c : ConnectorConfig}
    (h : c.Settled lib) :
    c.WithinLimits ↔ 1000000 ≤ durationOfMilliseconds c.limits.timeoutMS := by
  refine ⟨fun hlimits => hlimits.timeout.1, fun htimeout => ?_⟩
  exact {
    timeout := ⟨htimeout, h.limits.timeoutMS.2⟩
    maxRequestBytes := h.limits.maxRequestBytes
    maxResponseBytes := h.limits.maxResponseBytes
    maxConcurrency := h.limits.maxConcurrency
    maxHeaderCount := h.limits.maxHeaderCount
    maxHeaderBytes := h.limits.maxHeaderBytes
    requestsPerSecond := h.requestsPerSecond
    failures := h.circuitBreaker.failures
    openMS := by
      have hopen := h.circuitBreaker.openMS
      unfold DurationWithin
      rw [duration_of_lt (by omega) hopen.2]
      omega
    cache := fun r hr => by
      have httl := (h.routes r hr).cacheTTLMS
      unfold DurationWithin
      rw [duration_of_lt httl.1 httl.2]
      omega
    maxRetries := fun r hr => (h.routes r hr).retry.maxRetries
    statuses := fun r hr => (h.routes r hr).retry.statuses }

theorem connectors_of_normalize : ∀ {connectors result : List ConnectorConfig} {index : ℕ}
    {seen : List GoString}, normalizeConnectors lib.toLibrary connectors index seen = .ok result →
    List.Forall₂ (fun c n => c.normalize lib.toLibrary = .ok n) connectors result
      ∧ (∀ n ∈ result, n.Settled lib.toLibrary) ∧ (result.map ConnectorConfig.id).Nodup
      ∧ ∀ n ∈ result, n.id ∉ seen
  | [], result, index, seen, h => by
    simp only [normalizeConnectors, pure_ok] at h
    subst h
    exact ⟨.nil, List.forall_mem_nil _, List.nodup_nil, List.forall_mem_nil _⟩
  | connector :: rest, result, index, seen, h => by
    simp only [normalizeConnectors, bind_ok, check_ok, pure_ok, within_ok, exists_const,
      decide_eq_true_eq] at h
    obtain ⟨n, hn, hseen, others, hrest, rfl⟩ := h
    obtain ⟨hall, hsettled, hnodup, hout⟩ := connectors_of_normalize hrest
    refine ⟨.cons hn hall, ?_, ?_, ?_⟩
    · rw [List.forall_mem_cons]
      exact ⟨(settled_of_normalize hn).1, hsettled⟩
    · rw [List.map_cons, List.nodup_cons]
      refine ⟨fun hmem => ?_, hnodup⟩
      obtain ⟨other, hother, hid⟩ := List.mem_map.1 hmem
      exact hout other hother (hid ▸ List.mem_cons_self)
    · rw [List.forall_mem_cons]
      exact ⟨hseen, fun other hother hmem => hout other hother (List.mem_cons_of_mem _ hmem)⟩

theorem normalizeConnectors_eq_self {lib : Library} :
    ∀ {connectors : List ConnectorConfig} {index : ℕ} {seen : List GoString},
    (connectors.map ConnectorConfig.id).Nodup → (∀ n ∈ connectors, n.id ∉ seen) →
    (normalizeConnectors lib connectors index seen = .ok connectors ↔
      ∀ n ∈ connectors, n.normalize lib = .ok n)
  | [], index, seen, _, _ => by simp [normalizeConnectors]
  | connector :: rest, index, seen, hnodup, hout => by
    rw [List.map_cons, List.nodup_cons] at hnodup
    rw [List.forall_mem_cons] at hout
    have hrest : ∀ n ∈ rest, n.id ∉ connector.id :: seen := by
      intro n hn hmem
      rcases List.mem_cons.1 hmem with heq | hmem
      · exact hnodup.1 (heq ▸ List.mem_map_of_mem hn)
      · exact hout.2 n hn hmem
    simp only [normalizeConnectors, bind_ok, check_ok, pure_ok, within_ok, exists_const,
      decide_eq_true_eq, List.cons.injEq, List.forall_mem_cons]
    constructor
    · rintro ⟨n, hn, -, others, hothers, rfl, rfl⟩
      exact ⟨hn, (normalizeConnectors_eq_self hnodup.2 hrest).1 hothers⟩
    · rintro ⟨hconnector, hall⟩
      exact ⟨connector, hconnector, hout.1, rest,
        (normalizeConnectors_eq_self hnodup.2 hrest).2 hall, rfl, rfl⟩

theorem listenAddress_kept (address : GoString) :
    let kept := if trimSpace address = [] then ":8080".toList else trimSpace address
    trimSpace kept = kept ∧ kept ≠ [] := by
  intro kept
  by_cases hnil : trimSpace address = []
  · have hkept : kept = ":8080".toList := if_pos hnil
    rw [hkept]
    exact ⟨by decide +kernel, by decide⟩
  · have hkept : kept = trimSpace address := if_neg hnil
    rw [hkept]
    exact ⟨trimSpace_trimSpace address, hnil⟩

/-- Besides the connectors, nothing changes any more. -/
theorem normalizeGateway_iff (lib : Library) (c : GatewayConfig)
    (hlisten : trimSpace c.listenAddress = c.listenAddress ∧ c.listenAddress ≠ [])
    (hentries : 1 ≤ c.cacheMaxEntries ∧ c.cacheMaxEntries ≤ 100000)
    (hbytes : 1 ≤ c.cacheMaxBytes ∧ c.cacheMaxBytes ≤ 256 * 2 ^ 20)
    (hnodup : (c.connectors.map ConnectorConfig.id).Nodup) :
    c.normalize lib = .ok c ↔ ∀ n ∈ c.connectors, n.normalize lib = .ok n := by
  have hself : normalizeConnectors lib c.connectors 0 [] = .ok c.connectors ↔
      ∀ n ∈ c.connectors, n.normalize lib = .ok n := normalizeConnectors_eq_self hnodup (by simp)
  rw [← hself]
  unfold GatewayConfig.normalize
  simp only [bind_ok, pure_ok, bounded_ok hentries, bounded_ok hbytes, Except.ok.injEq,
    exists_eq_left', hlisten.1, if_neg hlisten.2]
  constructor
  · rintro ⟨connectors, hconnectors, heq⟩
    rw [hconnectors, ← congrArg GatewayConfig.connectors heq]
  · intro hconnectors
    exact ⟨c.connectors, hconnectors, rfl⟩

/-- What has been accepted is within its limits and stays as it is exactly when no timeout overflows
to less than a millisecond and no origin has space before its slashes. -/
theorem config_stable_iff (lib : NameLibrary) {c n : GatewayConfig}
    (h : c.normalize lib.toLibrary = .ok n) :
    n.Stable lib.toLibrary ↔
      ∀ connector ∈ c.connectors,
        TimeoutFits connector.limits.timeoutMS ∧ OriginFits connector.origin := by
  simp only [GatewayConfig.normalize, bind_ok, pure_ok] at h
  obtain ⟨entries, hentries, bytes, hbytes, connectors, hconnectors, rfl⟩ := h
  have hentriesBounds := bounds_of_bounded hentries
  have hbytesBounds := bounds_of_bounded hbytes
  obtain ⟨hall, hsettled, hnodup, -⟩ := connectors_of_normalize hconnectors
  -- each connector on its own
  have heach : (∀ connector ∈ c.connectors,
        TimeoutFits connector.limits.timeoutMS ∧ OriginFits connector.origin) ↔
      ∀ n ∈ connectors, n.WithinLimits ∧ n.normalize lib.toLibrary = .ok n := by
    clear hconnectors hsettled hnodup
    generalize c.connectors = raw at hall
    induction hall with
    | nil => simp
    | cons hn _ ih =>
      obtain ⟨hsettled, horigin, htimeout⟩ := settled_of_normalize hn
      have hpasses := hsettled.limits.timeoutMS
      rw [htimeout] at hpasses
      rw [List.forall_mem_cons, List.forall_mem_cons, ih, hsettled.withinLimits_iff,
        hsettled.normalize_iff, htimeout, timeoutFits_iff hpasses, originFits_iff, horigin]
  have hagain := normalizeGateway_iff lib.toLibrary ⟨_, entries, bytes, connectors⟩
    (listenAddress_kept c.listenAddress) hentriesBounds hbytesBounds hnodup
  rw [heach]
  constructor
  · intro hstable n hn
    exact ⟨hstable.withinLimits n hn, hagain.1 hstable.again n hn⟩
  · intro hconnector
    exact {
      cacheMaxEntries := hentriesBounds
      cacheMaxBytes := hbytesBounds
      withinLimits := fun n hn => (hconnector n hn).1
      distinct := fun n hn => (hsettled n hn).distinct
      ids := hnodup
      again := hagain.2 fun n hn => (hconnector n hn).2 }

end Gateway

section Samples

/-- Case mappings that leave what is not ASCII, and a parser of what has nothing after its host. -/
def sampleLibrary : NameLibrary where
  toLibrary := { plainGoLibrary with
    parseURL := fun s =>
      if "https://".toList.isPrefixOf s && !((s.drop 8).any (· ∈ ['/', '?', '#', '@'])) then
        some ⟨"https".toList, s.drop 8, none, [], [], []⟩
      else none }
  token_of_validHeaderFieldName s h := by
    unfold plainGoLibrary at h
    rw [Bool.and_eq_true, decide_eq_true_eq] at h
    exact h
  no_capital s c hc := by
    obtain ⟨d, -, rfl⟩ := List.mem_map.1 hc
    exact Char.isUpper_toLower_eq_false d

/-- One connector with one route, with defaults but for its timeout and origin. -/
def sampleConfig (timeoutMS : ℤ) (origin : String) : GatewayConfig :=
  ⟨[], 0, 0, [⟨"weather".toList, origin.toList,
    [⟨"GET".toList, "/v1".toList, [], [], [], true, 0, ⟨0, [], [], []⟩⟩], [],
    ⟨false, false, false⟩, ⟨timeoutMS, 0, 0, 0, 0, 0⟩, 1, ⟨0, 0⟩⟩]⟩

/-- What normalization leaves of it. -/
def sampleNormalized (timeoutMS : ℤ) (origin : String) : GatewayConfig :=
  ⟨":8080".toList, 1024, 33554432, [⟨"weather".toList, origin.toList,
    [⟨"GET".toList, "/v1".toList, [], [], [], true, 0, ⟨0, [], [], []⟩⟩], [],
    ⟨false, false, false⟩, ⟨timeoutMS, 262144, 4194304, 4, 64, 65536⟩, 1, ⟨3, 30000⟩⟩]⟩

theorem config_stable_iff_defaults :
    (sampleNormalized 10000 "https://source.test").Stable sampleLibrary.toLibrary ↔
      ∀ connector ∈ (sampleConfig 0 "https://source.test/").connectors,
        TimeoutFits connector.limits.timeoutMS ∧ OriginFits connector.origin :=
  config_stable_iff sampleLibrary (by decide +kernel)

/-- A timeout of 9223372036855 ms is a negative duration. -/
theorem config_overflows :
    ¬ ∀ (lib : NameLibrary) (c n : GatewayConfig), c.normalize lib.toLibrary = .ok n →
      n.Stable lib.toLibrary := by
  intro h
  have hstable := h sampleLibrary (sampleConfig 9223372036855 "https://source.test")
    (sampleNormalized 9223372036855 "https://source.test") (by decide +kernel)
  have htimeout := (hstable.withinLimits _ List.mem_cons_self).timeout.1
  exact absurd htimeout (by decide +kernel)

/-- An origin that keeps a space is left otherwise by the next normalization. -/
example :
    (sampleConfig 0 "https://source.test\u3000/").normalize sampleLibrary.toLibrary =
        .ok (sampleNormalized 10000 "https://source.test\u3000")
      ∧ (sampleNormalized 10000 "https://source.test\u3000").normalize sampleLibrary.toLibrary =
        .ok (sampleNormalized 10000 "https://source.test") :=
  ⟨by decide +kernel, by decide +kernel⟩

end Samples

end Atlas.SourceGateway.Config
