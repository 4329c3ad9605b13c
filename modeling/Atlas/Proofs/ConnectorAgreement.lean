import Atlas.SourceGateway.Config

/-!
# The command line and the gateway on source connectors

What the command line accepts, the gateway accepts and keeps as it is, unless a query name begins
or ends with U+0085, which only the gateway takes for a space, or two names or routes differ in
nothing but surrogates that stand alone, which the gateway reads as one character.
-/

namespace Atlas.SourceGateway.Config

open Cli (JsString CodePoint decoded PluginSourceRoute PluginSourceConnector)

section Results

variable {α β : Type}

theorem bind_ok {x : Except String α} {f : α → Except String β} {r : β} :
    (x >>= f) = .ok r ↔ ∃ a, x = .ok a ∧ f a = .ok r := by
  cases x <;> simp [bind, Except.bind]

@[simp]
theorem pure_ok {a r : α} : (pure a : Except String α) = .ok r ↔ a = r := by
  simp [pure, Except.pure]

@[simp]
theorem check_ok {passes : Bool} {message : String} {u : Unit} :
    check passes message = .ok u ↔ passes = true := by
  cases passes <;> simp [check]

@[simp]
theorem cliCheck_ok {passes : Bool} {message : String} {u : Unit} :
    Cli.check passes message = .ok u ↔ passes = true := by
  cases passes <;> simp [Cli.check]

@[simp]
theorem within_ok {part : String} {x : Except String α} {a : α} :
    within part x = .ok a ↔ x = .ok a := by
  cases x <;> simp [within, Except.mapError]

theorem mem_of_mapM {f : α → Except String β} {xs : List α} {ys : List β}
    (h : xs.mapM f = .ok ys) : ∀ y ∈ ys, ∃ x ∈ xs, f x = .ok y := by
  induction xs generalizing ys with
  | nil =>
    simp only [List.mapM_nil, pure_ok] at h
    simp [← h]
  | cons x xs ih =>
    simp only [List.mapM_cons, bind_ok, pure_ok] at h
    obtain ⟨y, hy, rest, hrest, rfl⟩ := h
    intro z hz
    rcases List.mem_cons.1 hz with rfl | hz
    · exact ⟨x, List.mem_cons_self, hy⟩
    · obtain ⟨x', hx', hfx'⟩ := ih hrest z hz
      exact ⟨x', List.mem_cons_of_mem _ hx', hfx'⟩

end Results

section Trimming

variable {α : Type} (p : α → Bool)

/-- A string both of whose ends fail the test. -/
def Trimmed (s : List α) : Prop :=
  (∀ c, s.head? = some c → p c = false) ∧ ∀ c, s.getLast? = some c → p c = false

def trimmed (s : List α) : List α := ((s.dropWhile p).reverse.dropWhile p).reverse

theorem dropWhile_eq_self {s : List α} :
    s.dropWhile p = s ↔ ∀ c, s.head? = some c → p c = false := by
  cases s with
  | nil => simp
  | cons c s =>
    rcases hc : p c with _ | _
    · simp [hc]
    · simp only [List.dropWhile_cons, hc, if_true, List.head?_cons, Option.some.injEq]
      constructor
      · intro h
        have hle := (List.dropWhile_suffix p (l := s)).length_le
        rw [h] at hle
        simp at hle
      · intro h
        have := h c rfl
        simp [hc] at this

theorem head?_dropWhile {s : List α} {c : α} (h : (s.dropWhile p).head? = some c) :
    p c = false := by
  have hnot := List.head?_dropWhile_not p s
  rw [h] at hnot
  exact hnot

theorem trimmed_ends (s : List α) : Trimmed p (trimmed p s) := by
  constructor
  · intro c hc
    have hpre : trimmed p s <+: s.dropWhile p := by
      rw [← List.reverse_suffix]
      unfold trimmed
      rw [List.reverse_reverse]
      exact List.dropWhile_suffix p
    obtain ⟨t, ht⟩ := hpre
    apply head?_dropWhile p (s := s)
    rw [← ht, List.head?_append, hc]
    rfl
  · intro c hc
    unfold trimmed at hc
    rw [List.getLast?_reverse] at hc
    exact head?_dropWhile p hc

theorem trimmed_eq_self {s : List α} : trimmed p s = s ↔ Trimmed p s := by
  constructor
  · intro h
    have := trimmed_ends p s
    rwa [h] at this
  · rintro ⟨hhead, hlast⟩
    unfold trimmed
    rw [(dropWhile_eq_self p).2 hhead, (dropWhile_eq_self p).2, List.reverse_reverse]
    intro c hc
    rw [List.head?_reverse] at hc
    exact hlast c hc

theorem trimmed_of_all {s : List α} (h : ∀ c ∈ s, p c = false) : trimmed p s = s :=
  (trimmed_eq_self p).2 ⟨fun c hc => h c (List.mem_of_head? hc),
    fun c hc => h c (List.mem_of_getLast? hc)⟩

end Trimming

section Characters

/-- U+0085. -/
def nextLine : CodePoint := .scalar '\u0085'

def decodedPoint : CodePoint → Char
  | .scalar c => c
  | .lone _ => '\ufffd'

theorem decoded_eq (s : JsString) : decoded s = s.map decodedPoint := rfl

/-- The two notions of a space differ, of what the command line leaves, in U+0085. -/
theorem isSpace_decodedPoint {c : CodePoint} (h : c.isSpace = false) :
    Core.isSpace (decodedPoint c) = true ↔ c = nextLine := by
  cases c with
  | lone u =>
    simp only [decodedPoint, nextLine, reduceCtorEq, iff_false, Bool.not_eq_true]
    decide
  | scalar c =>
    simp only [decodedPoint, nextLine, CodePoint.scalar.injEq]
    constructor
    · intro hs
      simp only [CodePoint.isSpace, Link.isSpace, Bool.or_eq_false_iff, decide_eq_false_iff_not,
        List.mem_cons, List.not_mem_nil, or_false, not_or, Bool.and_eq_false_iff, not_le] at h
      simp only [Core.isSpace, Bool.or_eq_true, decide_eq_true_eq, Bool.and_eq_true] at hs
      simp only [Char.ext_iff, Char.lt_def, ← UInt32.toNat_inj, UInt32.lt_iff_toNat_lt,
        UInt32.le_iff_toNat_le] at h hs ⊢
      simp at h hs ⊢
      omega
    · rintro rfl
      decide

/-- Neither the first nor the last character is U+0085. -/
def NoEdge (name : JsString) : Prop :=
  name.head? ≠ some nextLine ∧ name.getLast? ≠ some nextLine

theorem trim_ends (s : JsString) : Trimmed CodePoint.isSpace (Cli.trim s) := trimmed_ends _ s

/-- Where the gateway leaves a name that the command line has trimmed. -/
theorem trimSpace_decoded {s : JsString} (h : Trimmed CodePoint.isSpace s) :
    trimSpace (decoded s) = decoded s ↔ NoEdge s := by
  refine (trimmed_eq_self Core.isSpace).trans ?_
  have hend : ∀ o : Option CodePoint, (∀ c, o = some c → c.isSpace = false) →
      ((∀ c, o.map decodedPoint = some c → Core.isSpace c = false) ↔ o ≠ some nextLine) := by
    intro o ho
    cases o with
    | none => simp
    | some d =>
      simp only [Option.map_some, Option.some.injEq, forall_eq', ne_eq]
      rw [← isSpace_decodedPoint (ho d rfl), Bool.not_eq_true]
  unfold Trimmed NoEdge
  rw [decoded_eq, List.head?_map, List.getLast?_map, hend _ h.1, hend _ h.2]

theorem isToken_lt {c : Char} (h : Cli.isToken c = true) : c.val < 128 := by
  simp only [Cli.isToken, Bool.or_eq_true, Bool.and_eq_true, decide_eq_true_eq, List.mem_cons,
    List.not_mem_nil, or_false] at h
  simp only [Char.ext_iff, Char.le_def, ← UInt32.toNat_inj, UInt32.lt_iff_toNat_lt,
    UInt32.le_iff_toNat_le] at h ⊢
  simp at h ⊢
  omega

theorem isToken_not_space {c : Char} (h : Cli.isToken c = true) : Core.isSpace c = false := by
  by_contra hs
  simp only [Cli.isToken, Bool.or_eq_true, Bool.and_eq_true, decide_eq_true_eq, List.mem_cons,
    List.not_mem_nil, or_false] at h
  simp only [Bool.not_eq_false, Core.isSpace, Bool.or_eq_true, decide_eq_true_eq,
    Bool.and_eq_true] at hs
  simp only [Char.ext_iff, Char.le_def, ← UInt32.toNat_inj,
    UInt32.le_iff_toNat_le] at h hs
  simp at h hs
  omega

/-- A header name in lower case, as the command line returns it. -/
structure HeaderName (s : JsString) : Prop where
  ne_nil : s ≠ []
  tokens : ∀ c ∈ s, c.satisfies Cli.isToken = true
  lower : ∀ c : Char, .scalar c ∈ s → c.isUpper = false

namespace HeaderName

variable {s : JsString} (h : HeaderName s)

include h

theorem token_of_mem {c : Char} (hc : c ∈ decoded s) : Cli.isToken c = true ∧ .scalar c ∈ s := by
  rw [decoded_eq, List.mem_map] at hc
  obtain ⟨d, hd, rfl⟩ := hc
  have htoken := h.tokens d hd
  cases d with
  | lone u => simp [CodePoint.satisfies] at htoken
  | scalar c => exact ⟨htoken, hd⟩

theorem trimSpace_eq : trimSpace (decoded s) = decoded s :=
  trimmed_of_all _ fun _ hc => isToken_not_space (h.token_of_mem hc).1

theorem toLower_eq (lib : Library) : lib.toLower (decoded s) = decoded s := by
  rw [lib.toLower_ascii _ fun c hc => isToken_lt (h.token_of_mem hc).1]
  exact (List.map_congr_left fun c hc =>
    Char.toLower_eq_of_not_isUpper (by simp [h.lower c (h.token_of_mem hc).2])).trans
      (List.map_id _)

theorem validHeaderName_eq (lib : Library) : validHeaderName lib (decoded s) = true := by
  have hne : decoded s ≠ [] := by
    rw [decoded_eq, Ne, List.map_eq_nil_iff]
    exact h.ne_nil
  simp only [validHeaderName, ne_eq, hne, not_false_eq_true, decide_true, Bool.true_and]
  exact lib.validHeaderFieldName_token _ hne
    (List.all_eq_true.2 fun c hc => (h.token_of_mem hc).1)

end HeaderName

theorem decoded_injective {s t : JsString} (hs : HeaderName s) (ht : HeaderName t)
    (h : decoded s = decoded t) : s = t := by
  have hmap : ∀ u : JsString, HeaderName u → (decoded u).map CodePoint.scalar = u := by
    intro u hu
    rw [decoded_eq, List.map_map]
    refine (List.map_congr_left fun c hc => ?_).trans (List.map_id _)
    have htoken := hu.tokens c hc
    cases c with
    | lone u => simp [CodePoint.satisfies] at htoken
    | scalar c => rfl
  rw [← hmap s hs, ← hmap t ht, h]

end Characters

section Parsing

variable {lib : Cli.Library}

theorem boundedInteger_bounds {value : Cli.Json} {name : String} {minimum maximum z : ℤ}
    (h : Cli.boundedInteger value name minimum maximum = .ok z) : minimum ≤ z ∧ z ≤ maximum := by
  unfold Cli.boundedInteger at h
  split at h
  · simp only [bind_ok, cliCheck_ok, pure_ok, Bool.and_eq_true, decide_eq_true_eq] at h
    obtain ⟨_, ⟨⟨_, hmin⟩, hmax⟩, rfl⟩ := h
    exact ⟨hmin, hmax⟩
  · simp at h

theorem headerName_of {s : JsString} (h : Cli.headerName (lib.toLowerCase s) = true) :
    HeaderName (lib.toLowerCase s) := by
  simp only [Cli.headerName, ne_eq, Bool.and_eq_true, decide_eq_true_eq, List.all_eq_true] at h
  exact ⟨h.1, h.2, fun c => lib.no_capital s c⟩

/-- What the command line leaves in a list of query names. -/
theorem namesValue_query {value : Cli.Json} {field : String} {names : List JsString}
    (h : Cli.namesValue lib value false field = .ok names) :
    (∀ s ∈ names, Trimmed CodePoint.isSpace s ∧ s ≠ []) ∧ names.Nodup := by
  simp only [Cli.namesValue, bind_ok, cliCheck_ok, pure_ok, decide_eq_true_eq] at h
  obtain ⟨_, _, result, hresult, _, hnodup, rfl⟩ := h
  refine ⟨fun s hs => ?_, hnodup⟩
  obtain ⟨entry, _, hentry⟩ := mem_of_mapM hresult s hs
  simp only [Cli.nameValue, bind_ok, cliCheck_ok, pure_ok] at hentry
  obtain ⟨raw, _, _, hvalid, rfl⟩ := hentry
  simp only [Bool.false_eq_true, if_false, Bool.false_and, Bool.not_false, Bool.and_true, ne_eq,
    decide_eq_true_eq] at hvalid ⊢
  exact ⟨trim_ends raw, hvalid⟩

theorem namesValue_headers {value : Cli.Json} {field : String} {names : List JsString}
    (h : Cli.namesValue lib value true field = .ok names) :
    (∀ s ∈ names, HeaderName s) ∧ names.Nodup := by
  simp only [Cli.namesValue, bind_ok, cliCheck_ok, pure_ok, decide_eq_true_eq] at h
  obtain ⟨_, _, result, hresult, _, hnodup, rfl⟩ := h
  refine ⟨fun s hs => ?_, hnodup⟩
  obtain ⟨entry, _, hentry⟩ := mem_of_mapM hresult s hs
  simp only [Cli.nameValue, bind_ok, cliCheck_ok, pure_ok] at hentry
  obtain ⟨raw, _, _, hvalid, rfl⟩ := hentry
  simp only [if_true, Bool.true_and, Bool.not_not, Bool.and_eq_true] at hvalid ⊢
  exact headerName_of hvalid.2

structure ParsedRetry (retry : Cli.RouteRetry) : Prop where
  maxRetries : 0 ≤ retry.maxRetries ∧ retry.maxRetries ≤ 3
  statuses : ∀ status ∈ retry.statuses, 100 ≤ status ∧ status ≤ 599
  statuses_nodup : retry.statuses.Nodup
  failures : ∀ failure ∈ retry.failures, failure ∈ Cli.retryFailures
  failures_nodup : retry.failures.Nodup
  header : retry.idempotencyHeader = [] ∨ HeaderName retry.idempotencyHeader

theorem parsedRetry {value : Cli.Json} {retry : Cli.RouteRetry}
    (h : Cli.retryValue lib value = .ok retry) : ParsedRetry retry := by
  simp only [Cli.retryValue, bind_ok, cliCheck_ok, pure_ok, decide_eq_true_eq, Bool.and_eq_true,
    Bool.or_eq_true, List.all_eq_true] at h
  obtain ⟨object, _, maxRetries, hmax, _, _, statuses, hstatuses, _, hsnodup, _, _, failures,
    hfailures, _, ⟨hfmem, hfnodup⟩, raw, _, _, hheader, rfl⟩ := h
  refine ⟨boundedInteger_bounds hmax, fun status hs => ?_, hsnodup, hfmem, hfnodup,
    hheader.imp id headerName_of⟩
  obtain ⟨x, _, hx⟩ := mem_of_mapM hstatuses status hs
  exact boundedInteger_bounds hx

/-- What a route is that the command line returns. -/
structure ParsedRoute (r : PluginSourceRoute) : Prop where
  method : r.method ∈ Cli.methods
  path : Cli.validPathPrefix r.pathPrefix = true
  queryNames : ∀ s ∈ r.allowedQueryNames, Trimmed CodePoint.isSpace s ∧ s ≠ []
  requestHeaders : ∀ s ∈ r.allowedRequestHeaders, HeaderName s
  requestHeaders_nodup : r.allowedRequestHeaders.Nodup
  requestHeaders_allowed : ∀ s ∈ r.allowedRequestHeaders, s ∉ Cli.forbiddenRequestHeaders
  responseHeaders : ∀ s ∈ r.allowedResponseHeaders, HeaderName s
  responseHeaders_nodup : r.allowedResponseHeaders.Nodup
  responseHeaders_allowed : ∀ s ∈ r.allowedResponseHeaders, s ∉ Cli.forbiddenResponseHeaders
  readOnly : r.readOnly = true
  ttl : 0 ≤ r.cacheTtlMs ∧ r.cacheTtlMs ≤ 3600000
  retry : ParsedRetry r.retry

theorem parsedRoute {value : Cli.Json} {index : ℕ} {seen : List JsString} {r : PluginSourceRoute}
    (h : Cli.routeValue lib value index seen = .ok r) : ParsedRoute r := by
  simp only [Cli.routeValue, bind_ok, cliCheck_ok, pure_ok, decide_eq_true_eq,
    Bool.not_eq_true', List.any_eq_false] at h
  obtain ⟨object, _, rawMethod, _, _, hmethod, path, _, _, hpath, queryNames, hquery,
    requestHeaders, hrequest, responseHeaders, hresponse, _, _, _, hrequestAllowed, _,
    hresponseAllowed, _, _, cache, _, ttl, httl, retry, hretry, rfl⟩ := h
  exact ⟨hmethod, hpath, (namesValue_query hquery).1, (namesValue_headers hrequest).1,
    (namesValue_headers hrequest).2, hrequestAllowed, (namesValue_headers hresponse).1,
    (namesValue_headers hresponse).2, hresponseAllowed, rfl, boundedInteger_bounds httl,
    parsedRetry hretry⟩

theorem parsedRoutes {values : List Cli.Json} {index : ℕ} {seen : List JsString}
    {routes : List PluginSourceRoute} (h : Cli.routeValues lib values index seen = .ok routes) :
    (∀ r ∈ routes, ParsedRoute r) ∧ routes.length = values.length := by
  induction values generalizing index seen routes with
  | nil =>
    simp only [Cli.routeValues, pure_ok] at h
    simp [← h]
  | cons value values ih =>
    simp only [Cli.routeValues, bind_ok, pure_ok] at h
    obtain ⟨route, hroute, rest, hrest, rfl⟩ := h
    obtain ⟨hall, hlen⟩ := ih hrest
    refine ⟨fun r hr => ?_, by simp [hlen]⟩
    rcases List.mem_cons.1 hr with rfl | hr
    · exact parsedRoute hroute
    · exact hall r hr

end Parsing

section Normalizing

variable (lib : Library)

/-- When the loop over a list of names gives the list back. -/
theorem normalizeNames_eq_self {header : Bool} {names seen : List GoString} :
    normalizeNames lib header names seen = .ok names ↔
      (∀ v ∈ names, normalizedName lib header v = v ∧ v ≠ []
          ∧ (header = true → validHeaderName lib v = true))
        ∧ names.Nodup ∧ ∀ v ∈ names, v ∉ seen := by
  induction names generalizing seen with
  | nil => simp [normalizeNames]
  | cons v names ih =>
    simp only [normalizeNames, bind_ok, check_ok, pure_ok, List.cons.injEq, exists_eq_right_right,
      exists_const, List.forall_mem_cons, List.nodup_cons]
    constructor
    · rintro ⟨hvalid, hseen, hrest, heq⟩
      rw [heq] at hvalid hseen hrest
      obtain ⟨hall, hnodup, hout⟩ := ih.1 hrest
      simp only [ne_eq, Bool.and_eq_true, decide_eq_true_eq, Bool.not_eq_true',
        Bool.and_eq_false_iff, Bool.not_eq_false'] at hvalid hseen
      refine ⟨⟨⟨heq, hvalid.1, fun h => ?_⟩, hall⟩, ⟨fun hmem => ?_, hnodup⟩, hseen, fun w hw => ?_⟩
      · simpa [h] using hvalid.2
      · exact hout v hmem List.mem_cons_self
      · exact fun hmem => hout w hw (List.mem_cons_of_mem _ hmem)
    · rintro ⟨⟨⟨heq, hne, hvalid⟩, hall⟩, ⟨hmem, hnodup⟩, hseen, hout⟩
      rw [heq]
      refine ⟨?_, by simpa using hseen, ih.2 ⟨hall, hnodup, fun w hw => ?_⟩, rfl⟩
      · cases header
        · simpa using hne
        · simpa [hne] using hvalid rfl
      · simp only [List.mem_cons, not_or]
        exact ⟨fun h => hmem (h ▸ hw), hout w hw⟩

theorem checkStatuses_ok {statuses seen : List ℤ} :
    checkStatuses statuses seen = .ok () ↔
      (∀ status ∈ statuses, 100 ≤ status ∧ status ≤ 599) ∧ statuses.Nodup
        ∧ ∀ status ∈ statuses, status ∉ seen := by
  induction statuses generalizing seen with
  | nil => simp [checkStatuses]
  | cons status statuses ih =>
    simp only [checkStatuses, bind_ok, check_ok, ih, Bool.and_eq_true, decide_eq_true_eq,
      List.forall_mem_cons, List.nodup_cons, exists_const]
    constructor
    · rintro ⟨hbounds, hseen, hall, hnodup, hout⟩
      exact ⟨⟨hbounds, hall⟩, ⟨fun hmem => hout status hmem List.mem_cons_self, hnodup⟩, hseen,
        fun w hw hmem => hout w hw (List.mem_cons_of_mem _ hmem)⟩
    · rintro ⟨⟨hbounds, hall⟩, ⟨hmem, hnodup⟩, hseen, hout⟩
      refine ⟨hbounds, hseen, hall, hnodup, fun w hw => ?_⟩
      simp only [List.mem_cons, not_or]
      exact ⟨fun h => hmem (h ▸ hw), hout w hw⟩

theorem normalizeFailures_eq_self {values seen : List GoString}
    (hall : ∀ v ∈ values, v ∈ failures) (hnodup : values.Nodup) (hout : ∀ v ∈ values, v ∉ seen) :
    normalizeFailures values seen = .ok values := by
  have htrim : ∀ v ∈ failures, trimSpace v = v := by decide
  induction values generalizing seen with
  | nil => rfl
  | cons v values ih =>
    rw [List.forall_mem_cons] at hall hout
    rw [List.nodup_cons] at hnodup
    simp only [normalizeFailures, bind_ok, check_ok, pure_ok, htrim v hall.1]
    refine ⟨(), by simpa using hall.1, (), by simpa using hout.1, values,
      ih hall.2 hnodup.2 fun w hw => ?_, rfl⟩
    simp only [List.mem_cons, not_or]
    exact ⟨fun h => hnodup.1 (h ▸ hw), hout.2 w hw⟩

theorem normalizeHeaders {names : List JsString} (hall : ∀ s ∈ names, HeaderName s)
    (hnodup : names.Nodup) :
    normalizeNames lib true (names.map decoded) [] = .ok (names.map decoded) := by
  refine (normalizeNames_eq_self lib).2 ⟨?_, ?_, by simp⟩
  · intro v hv
    obtain ⟨s, hs, rfl⟩ := List.mem_map.1 hv
    have h := hall s hs
    refine ⟨?_, ?_, fun _ => h.validHeaderName_eq lib⟩
    · simp only [normalizedName, if_true]
      rw [h.trimSpace_eq, h.toLower_eq]
    · rw [decoded_eq, Ne, List.map_eq_nil_iff]
      exact h.ne_nil
  · refine hnodup.map_on ?_
    intro s hs t ht h
    exact decoded_injective (hall s hs) (hall t ht) h

/-- What the gateway asks of query names beyond what the command line does. -/
def SameNames (names : List JsString) : Prop :=
  (∀ s ∈ names, NoEdge s) ∧ (names.map decoded).Nodup

theorem normalizeQueries {names : List JsString}
    (hall : ∀ s ∈ names, Trimmed CodePoint.isSpace s ∧ s ≠ []) :
    normalizeNames lib false (names.map decoded) [] = .ok (names.map decoded) ↔
      SameNames names := by
  rw [normalizeNames_eq_self]
  simp only [List.mem_map, forall_exists_index, and_imp, forall_apply_eq_imp_iff₂, normalizedName,
    Bool.false_eq_true, if_false, IsEmpty.forall_iff, and_true, List.not_mem_nil, not_false_eq_true,
    implies_true, SameNames]
  refine and_congr_left fun _ => forall₂_congr fun s hs => ?_
  rw [trimSpace_decoded (hall s hs).1, decoded_eq, Ne, List.map_eq_nil_iff]
  exact and_iff_left (hall s hs).2

theorem mem_methods {s : JsString} (h : s ∈ Cli.methods) : decoded s ∈ methods ∧
    trimSpace (decoded s) = decoded s ∧ lib.toUpper (decoded s) = decoded s := by
  have hall : decoded s ∈ methods ∧ trimSpace (decoded s) = decoded s
      ∧ (decoded s).all Cli.isToken = true ∧ (decoded s).map Char.toUpper = decoded s := by
    simp only [Cli.methods, List.map_cons, List.map_nil, List.mem_cons, List.not_mem_nil,
      or_false] at h
    rcases h with rfl | rfl | rfl | rfl | rfl | rfl <;> decide +kernel
  obtain ⟨hmem, htrim, htoken, hupper⟩ := hall
  rw [List.all_eq_true] at htoken
  exact ⟨hmem, htrim, (lib.toUpper_ascii _ fun c hc => isToken_lt (htoken c hc)).trans hupper⟩

theorem decodedPoint_eq {d : Char} (hd : d ≠ '\ufffd') {c : CodePoint} :
    decodedPoint c = d ↔ c = .scalar d := by
  cases c with
  | scalar c => simp [decodedPoint]
  | lone u => simpa [decodedPoint] using hd.symm

theorem splitOn_decoded {s : JsString} :
    (decoded s).splitOn '/' = (s.splitOn (.scalar '/')).map decoded := by
  simp only [List.splitOn_eq_splitOnP, decoded_eq]
  induction s with
  | nil => rfl
  | cons c s ih =>
    rw [List.map_cons, List.splitOnP_cons_eq_if_modifyHead, List.splitOnP_cons_eq_if_modifyHead, ih]
    have hslash : (decodedPoint c == '/') = (c == CodePoint.scalar '/') := by
      rw [Bool.eq_iff_iff, beq_iff_eq, beq_iff_eq, decodedPoint_eq (by decide)]
    rw [hslash]
    split
    · rfl
    · cases s.splitOnP (· == CodePoint.scalar '/') <;> rfl

theorem decoded_eq_text {s : JsString} {t : List Char} (ht : '\ufffd' ∉ t) :
    decoded s = t ↔ s = t.map .scalar := by
  rw [decoded_eq]
  induction s generalizing t with
  | nil => cases t <;> simp
  | cons c s ih =>
    cases t with
    | nil => simp
    | cons d t =>
      rw [List.mem_cons, not_or] at ht
      simp only [List.map_cons, List.cons.injEq, decodedPoint_eq (Ne.symm ht.1), ih ht.2]

theorem isPrefixOf_decoded {s : JsString} {t : List Char} (ht : '\ufffd' ∉ t) :
    t.isPrefixOf (decoded s) = (t.map CodePoint.scalar).isPrefixOf s := by
  rw [decoded_eq]
  induction t generalizing s with
  | nil => rfl
  | cons d t ih =>
    rw [List.mem_cons, not_or] at ht
    cases s with
    | nil => rfl
    | cons c s =>
      simp only [List.map_cons, List.isPrefixOf, ih ht.2]
      congr 1
      rw [Bool.eq_iff_iff, beq_iff_eq, beq_iff_eq, eq_comm, decodedPoint_eq (Ne.symm ht.1),
        eq_comm]

theorem validateDecodedPath_ok {path : JsString} (h : Cli.validPathPrefix path = true) :
    validateDecodedPath (decoded path) = .ok () := by
  simp only [Cli.validPathPrefix, Bool.and_eq_true, Bool.not_eq_true', List.all_eq_true, ne_eq,
    decide_eq_true_eq] at h
  obtain ⟨⟨⟨hslash, hdouble⟩, hchars⟩, hparts⟩ := h
  simp only [validateDecodedPath, bind_ok, check_ok, Bool.and_eq_true, Bool.not_eq_true',
    List.any_eq_false, List.all_eq_true]
  refine ⟨(), ?_, (), ⟨fun c hc => ?_, ?_⟩, fun part hpart => ?_⟩
  · rw [isPrefixOf_decoded (by decide)]
    exact hslash
  · rw [decoded_eq, List.mem_map] at hc
    obtain ⟨d, hd, rfl⟩ := hc
    have hd' := hchars d hd
    cases d with
    | lone u => simp [decodedPoint]
    | scalar c =>
      simp only [Cli.isPathCharacter, Bool.and_eq_true, decide_eq_true_eq, ne_eq] at hd'
      simp [decodedPoint, hd']
  · rw [isPrefixOf_decoded (by decide)]
    exact hdouble
  · rw [splitOn_decoded, List.mem_map] at hpart
    obtain ⟨part, hmem, rfl⟩ := hpart
    obtain ⟨hdot, hdots⟩ := hparts part hmem
    simp only [decide_eq_true_eq, ne_eq]
    exact ⟨fun h => hdot ((decoded_eq_text (by decide)).1 h),
      fun h => hdots ((decoded_eq_text (by decide)).1 h)⟩

theorem normalizeRetry_ok {retry : Cli.RouteRetry} (h : ParsedRetry retry) :
    normalizeRetry lib true ⟨retry.maxRetries, retry.statuses, retry.failures.map decoded,
        decoded retry.idempotencyHeader⟩ =
      .ok ⟨retry.maxRetries, retry.statuses, retry.failures.map decoded,
        decoded retry.idempotencyHeader⟩ := by
  have hfailures : ∀ s ∈ Cli.retryFailures, decoded s ∈ failures := by decide
  have hinjective : ∀ s ∈ Cli.retryFailures, ∀ t ∈ Cli.retryFailures, decoded s = decoded t →
      s = t := by decide
  have hlist : normalizeFailures (retry.failures.map decoded) [] =
      .ok (retry.failures.map decoded) := by
    refine normalizeFailures_eq_self ?_ ?_ (by simp)
    · intro v hv
      obtain ⟨s, hs, rfl⟩ := List.mem_map.1 hv
      exact hfailures s (h.failures s hs)
    · exact h.failures_nodup.map_on fun s hs t ht =>
        hinjective s (h.failures s hs) t (h.failures t ht)
  have hheader : lib.toLower (trimSpace (decoded retry.idempotencyHeader)) =
      decoded retry.idempotencyHeader
      ∧ (decoded retry.idempotencyHeader = []
        ∨ validHeaderName lib (decoded retry.idempotencyHeader) = true) := by
    rcases h.header with hnil | hname
    · rw [hnil]
      exact ⟨lib.toLower_ascii [] (by simp), .inl rfl⟩
    · rw [hname.trimSpace_eq, hname.toLower_eq]
      exact ⟨rfl, .inr (hname.validHeaderName_eq lib)⟩
  simp only [normalizeRetry, bind_ok, check_ok, pure_ok, hlist, hheader.1]
  refine ⟨(), ?_, (), (checkStatuses_ok).2 ⟨h.statuses, h.statuses_nodup, by simp⟩, (), ?_, (), ?_,
    _, rfl, rfl⟩
  · simpa using h.maxRetries
  · simpa using hheader.2
  · simp

/-- No list of the gateway's forbids what the command line allows. -/
theorem not_forbidden {names forbidden : List JsString} {list : List GoString}
    (hlist : list = forbidden.map decoded) (hplain : ∀ s ∈ forbidden, HeaderName s)
    (hall : ∀ s ∈ names, HeaderName s) (hallowed : ∀ s ∈ names, s ∉ forbidden) :
    (!(names.map decoded).any (· ∈ list)) = true := by
  simp only [Bool.not_eq_true', List.any_eq_false, List.mem_map, decide_eq_true_eq, hlist]
  rintro v ⟨s, hs, rfl⟩ ⟨t, ht, heq⟩
  exact hallowed s hs (decoded_injective (hplain t ht) (hall s hs) heq ▸ ht)

theorem headerName_literal {list : List JsString}
    (h : list.all fun s => Cli.headerName s && s.all fun c => c.satisfies fun c => !c.isUpper) :
    ∀ s ∈ list, HeaderName s := by
  intro s hs
  simp only [List.all_eq_true, Bool.and_eq_true, Cli.headerName, ne_eq, decide_eq_true_eq] at h
  obtain ⟨⟨hne, htokens⟩, hlower⟩ := h s hs
  refine ⟨hne, htokens, fun c hc => ?_⟩
  simpa [CodePoint.satisfies] using hlower _ hc

theorem forbiddenRequest_names : ∀ s ∈ Cli.forbiddenRequestHeaders, HeaderName s :=
  headerName_literal (by decide +kernel)

theorem forbiddenResponse_names : ∀ s ∈ Cli.forbiddenResponseHeaders, HeaderName s :=
  headerName_literal (by decide +kernel)

/-- A route the command line returns is kept exactly when its query names are. -/
theorem normalize_decodeRoute {r : PluginSourceRoute} (h : ParsedRoute r) :
    (decodeRoute r).normalize lib = .ok (decodeRoute r) ↔ SameNames r.allowedQueryNames := by
  rw [← normalizeQueries lib h.queryNames]
  obtain ⟨hmember, htrim, hupper⟩ := mem_methods lib h.method
  have hrequest := normalizeHeaders lib h.requestHeaders h.requestHeaders_nodup
  have hresponse := normalizeHeaders lib h.responseHeaders h.responseHeaders_nodup
  have hrequestAllowed : (!(r.allowedRequestHeaders.map decoded).any
      (· ∈ fixedForbiddenRequestHeaders)) = true :=
    not_forbidden (by decide +kernel) forbiddenRequest_names h.requestHeaders
      h.requestHeaders_allowed
  have hresponseAllowed : (!(r.allowedResponseHeaders.map decoded).any
      (· ∈ fixedForbiddenResponseHeaders)) = true :=
    not_forbidden (by decide +kernel) forbiddenResponse_names h.responseHeaders
      h.responseHeaders_allowed
  simp only [RouteRule.normalize, bind_ok, check_ok, pure_ok, within_ok, decodeRoute, htrim, hupper,
    hrequest, hresponse, h.readOnly, validateDecodedPath_ok h.path, normalizeRetry_ok lib h.retry,
    Except.ok.injEq, RouteRule.mk.injEq, exists_eq_left', exists_const, true_and, and_true]
  constructor
  · rintro ⟨-, names, hnames, -, -, -, -, rfl⟩
    exact hnames
  · intro hnames
    exact ⟨by simpa using hmember, _, hnames, hrequestAllowed, hresponseAllowed,
      by simpa using h.ttl, by simp, rfl⟩

theorem normalizeRoutes_eq_self {routes : List RouteRule} {index : ℕ} {seen : List GoString} :
    normalizeRoutes lib routes index seen = .ok routes ↔
      (∀ r ∈ routes, r.normalize lib = .ok r) ∧ (routes.map RouteRule.key).Nodup
        ∧ ∀ r ∈ routes, r.key ∉ seen := by
  induction routes generalizing index seen with
  | nil => simp [normalizeRoutes]
  | cons r routes ih =>
    simp only [normalizeRoutes, bind_ok, check_ok, pure_ok, within_ok, List.cons.injEq,
      List.forall_mem_cons, List.map_cons, List.nodup_cons, exists_const]
    constructor
    · rintro ⟨r', hr, hseen, rest, hrest, rfl, rfl⟩
      obtain ⟨hall, hnodup, hout⟩ := ih.1 hrest
      refine ⟨⟨hr, hall⟩, ⟨fun hmem => ?_, hnodup⟩, by simpa using hseen,
        fun w hw hmem => hout w hw (List.mem_cons_of_mem _ hmem)⟩
      obtain ⟨w, hw, hkey⟩ := List.mem_map.1 hmem
      exact hout w hw (hkey ▸ List.mem_cons_self)
    · rintro ⟨⟨hr, hall⟩, ⟨hmem, hnodup⟩, hseen, hout⟩
      refine ⟨r, hr, by simpa using hseen, routes, ih.2 ⟨hall, hnodup, fun w hw => ?_⟩, rfl, rfl⟩
      simp only [List.mem_cons, not_or]
      exact ⟨fun h => hmem (h ▸ List.mem_map_of_mem hw), hout w hw⟩

theorem key_decodeRoute (r : PluginSourceRoute) : (decodeRoute r).key = decoded r.key := by
  simp only [RouteRule.key, decodeRoute, PluginSourceRoute.key, decoded_eq, List.map_append]
  rfl

/-- What the gateway asks of a connector beyond what the command line does. -/
def SameReading (c : PluginSourceConnector) : Prop :=
  (∀ r ∈ c.routes, SameNames r.allowedQueryNames) ∧ (c.routes.map (decoded ·.key)).Nodup

theorem normalizeRoutes_decoded {routes : List PluginSourceRoute}
    (h : ∀ r ∈ routes, ParsedRoute r) :
    normalizeRoutes lib (routes.map decodeRoute) 0 [] = .ok (routes.map decodeRoute) ↔
      (∀ r ∈ routes, SameNames r.allowedQueryNames) ∧ (routes.map (decoded ·.key)).Nodup := by
  rw [normalizeRoutes_eq_self]
  simp only [List.mem_map, forall_exists_index, and_imp, forall_apply_eq_imp_iff₂, List.map_map,
    List.not_mem_nil, not_false_eq_true, implies_true, and_true]
  refine and_congr (forall₂_congr fun r hr => normalize_decodeRoute lib (h r hr)) ?_
  rw [show RouteRule.key ∘ decodeRoute = (decoded ·.key) from funext key_decodeRoute]

end Normalizing

section Connector

variable (lib : Library) {js : Cli.Library}

theorem mem_pluginIdTail {s : List Char} (h : Cli.pluginIdTail s = true) :
    ∀ c ∈ s, c = '_' ∨ Cli.isLowerAlnum c = true := by
  fun_induction Cli.pluginIdTail s with
  | case1 => simp
  | case2 c rest ih =>
    simp only [Bool.and_eq_true] at h
    simp only [List.forall_mem_cons, true_or, h.1, or_true, true_and]
    exact ih h.2
  | case3 c rest _ ih =>
    simp only [Bool.and_eq_true] at h
    simp only [List.forall_mem_cons, h.1, or_true, true_and]
    exact ih h.2

theorem isToken_of_id {c : Char} (h : c = '_' ∨ Cli.isLowerAlnum c = true) :
    Cli.isToken c = true := by
  rcases h with rfl | h
  · decide
  · simp only [Cli.isLowerAlnum, Bool.or_eq_true] at h
    simp only [Cli.isToken, Bool.or_eq_true]
    tauto

theorem mem_pluginIdPattern {s : List Char} (h : Cli.pluginIdPattern s = true) :
    ∀ c ∈ s, Cli.isToken c = true := by
  cases s with
  | nil => simp
  | cons c rest =>
    simp only [Cli.pluginIdPattern, Bool.and_eq_true] at h
    rw [List.forall_mem_cons]
    refine ⟨isToken_of_id (.inr ?_), fun d hd => isToken_of_id (mem_pluginIdTail h.2 d hd)⟩
    simp only [Cli.isLowerAlnum, Bool.or_eq_true, Bool.and_eq_true]
    exact .inl h.1

theorem chars_eq {s : JsString} {t : List Char} (h : Cli.chars s = some t) :
    s = t.map .scalar := by
  induction s generalizing t with
  | nil =>
    simp only [Cli.chars, Option.some.injEq] at h
    simp [← h]
  | cons c s ih =>
    cases c with
    | lone u => simp [Cli.chars] at h
    | scalar c =>
      simp only [Cli.chars, Option.map_eq_some_iff] at h
      obtain ⟨t', ht', rfl⟩ := h
      rw [ih ht', List.map_cons]

theorem bytes_of_ascii {t : List Char} (h : ∀ c ∈ t, c.val < 128) :
    (t.map Char.utf8Size).sum = ((t.map CodePoint.scalar).map CodePoint.units).sum := by
  induction t with
  | nil => rfl
  | cons c t ih =>
    rw [List.forall_mem_cons] at h
    have hc : c.val < 65536 := by
      have := h.1
      rw [UInt32.lt_iff_toNat_lt] at this ⊢
      simp at this ⊢
      omega
    have hsize : c.utf8Size = 1 := by
      rw [Char.utf8Size_eq_one_iff, UInt32.le_iff_toNat_le]
      have := h.1
      rw [UInt32.lt_iff_toNat_lt] at this
      simp at this ⊢
      omega
    simp only [List.map_cons, List.sum_cons, ih h.2, CodePoint.units, hc, if_true, hsize]

/-- A plugin's id is the same on both sides. -/
theorem validPluginID_decoded {value : Cli.Json} {name : String} {id : JsString}
    (h : Cli.pluginIdValue value name 50 = .ok id) :
    trimSpace (decoded id) = decoded id ∧ validPluginID (decoded id) = true := by
  simp only [Cli.pluginIdValue, bind_ok, cliCheck_ok, pure_ok, Bool.and_eq_true,
    decide_eq_true_eq] at h
  obtain ⟨_, _, _, ⟨hlength, hpattern⟩, rfl⟩ := h
  rename_i id _ _
  obtain ⟨t, ht, hpattern⟩ := (Option.any_eq_true _ _).1 hpattern
  have hid := chars_eq ht
  have hdecoded : decoded id = t := by
    rw [hid, decoded_eq, List.map_map]
    exact List.map_id _
  have htoken := mem_pluginIdPattern hpattern
  rw [hdecoded]
  refine ⟨trimmed_of_all _ fun c hc => isToken_not_space (htoken c hc), ?_⟩
  rw [hid, ← bytes_of_ascii fun c hc => isToken_lt (htoken c hc)] at hlength
  unfold validPluginID
  rw [Bool.and_eq_true, decide_eq_true_eq, maxPluginIDLength]
  exact ⟨by omega, hpattern⟩

/-- What is known of a connector that the command line returns. -/
structure ParsedConnector (js : Cli.Library) (c : PluginSourceConnector) : Prop where
  id : trimSpace (decoded c.id) = decoded c.id ∧ validPluginID (decoded c.id) = true
  origin : ∃ url, js.parseURL c.origin = some url ∧ Cli.acceptsOrigin url = true
  routes_ne_nil : c.routes ≠ []
  routes : ∀ r ∈ c.routes, ParsedRoute r
  secretHeaders : c.secretHeaders = []
  timeoutMs : 1 ≤ c.limits.timeoutMs ∧ c.limits.timeoutMs ≤ 30000
  maxRequestBytes : 1 ≤ c.limits.maxRequestBytes ∧ c.limits.maxRequestBytes ≤ 4 * 2 ^ 20
  maxResponseBytes : 1 ≤ c.limits.maxResponseBytes ∧ c.limits.maxResponseBytes ≤ 16 * 2 ^ 20
  maxConcurrency : 1 ≤ c.limits.maxConcurrency ∧ c.limits.maxConcurrency ≤ 64
  maxHeaderCount : 1 ≤ c.limits.maxHeaderCount ∧ c.limits.maxHeaderCount ≤ 128
  maxHeaderBytes : 1 ≤ c.limits.maxHeaderBytes ∧ c.limits.maxHeaderBytes ≤ 256 * 2 ^ 10
  requestsPerSecond : 0 ≤ c.requestsPerSecond ∧ c.requestsPerSecond ≤ 1000
  failures : 1 ≤ c.circuitBreaker.failures ∧ c.circuitBreaker.failures ≤ 100
  openMs : 1 ≤ c.circuitBreaker.openMs ∧ c.circuitBreaker.openMs ≤ 3600000

theorem originValue_ok {value : Cli.Json} {origin : JsString}
    (h : Cli.originValue js value = .ok origin) :
    ∃ url, js.parseURL origin = some url ∧ Cli.acceptsOrigin url = true := by
  simp only [Cli.originValue, bind_ok] at h
  obtain ⟨raw, _, h⟩ := h
  split at h
  · simp at h
  · rename_i url hurl
    simp only [bind_ok, cliCheck_ok, pure_ok] at h
    obtain ⟨_, haccepts, rfl⟩ := h
    exact ⟨url, hurl, haccepts⟩

theorem parsedConnector {value : Cli.Json} {pluginId : JsString} {c : PluginSourceConnector}
    (h : Cli.sourceConnectorValue js value pluginId = .ok c) : ParsedConnector js c := by
  simp only [Cli.sourceConnectorValue, bind_ok, cliCheck_ok, pure_ok] at h
  obtain ⟨object, _, id, hid, _, _, origin, horigin, _, _, values, _, _, hne, routes, hroutes,
    egress, _, limits, hlimits, rate, hrate, breaker, hbreaker, rfl⟩ := h
  simp only [Cli.limitsValue, bind_ok, pure_ok] at hlimits
  obtain ⟨_, _, timeout, htimeout, request, hrequest, response, hresponse, concurrency,
    hconcurrency, count, hcount, bytes, hbytes, rfl⟩ := hlimits
  simp only [Cli.rateValue, bind_ok, cliCheck_ok, pure_ok, Bool.and_eq_true,
    decide_eq_true_eq] at hrate
  obtain ⟨_, _, q, _, _, hq, rfl⟩ := hrate
  simp only [Cli.circuitBreakerValue, bind_ok, pure_ok] at hbreaker
  obtain ⟨_, _, failures, hfailures, openMs, hopen, rfl⟩ := hbreaker
  obtain ⟨hparsed, hlength⟩ := parsedRoutes hroutes
  refine ⟨validPluginID_decoded hid, originValue_ok horigin, fun hnil => ?_, hparsed, rfl,
    boundedInteger_bounds htimeout, boundedInteger_bounds hrequest,
    boundedInteger_bounds hresponse, boundedInteger_bounds hconcurrency,
    boundedInteger_bounds hcount, boundedInteger_bounds hbytes, hq,
    boundedInteger_bounds hfailures, boundedInteger_bounds hopen⟩
  have hroutesNil : routes = [] := hnil
  rw [hroutesNil, List.length_nil] at hlength
  rw [List.eq_nil_of_length_eq_zero hlength.symm] at hne
  simp at hne

/-- An origin both parsers read in the same way: the command line the string, the gateway the
string without the spaces around it and the slashes behind it. -/
def ReadAlike (js : Cli.Library) (lib : Library) (origin : JsString) : Prop :=
  ∃ url goURL, js.parseURL origin = some url
    ∧ lib.parseURL (trimRightSlash (trimSpace (decoded origin))) = some goURL
    ∧ decoded url.protocol = goURL.scheme ++ ":".toList
    ∧ (url.hostname = [] ↔ goURL.host = [])
    ∧ (url.username = [] ∧ url.password = [] ↔ goURL.user = none)
    ∧ (url.pathname = Cli.text "/" ∨ url.pathname = [] ↔ goURL.path = [])
    ∧ (url.search = [] ↔ goURL.rawQuery = [])
    ∧ (url.hash = [] ↔ goURL.fragment = [])

theorem ReadAlike.accepts {origin : JsString} (h : ReadAlike js lib origin)
    (haccepts : ∃ url, js.parseURL origin = some url ∧ Cli.acceptsOrigin url = true) :
    (lib.parseURL (trimRightSlash (trimSpace (decoded origin)))).any acceptsOrigin = true := by
  obtain ⟨url, goURL, hurl, hgo, hscheme, hhost, huser, hpath, hquery, hfragment⟩ := h
  obtain ⟨url', hurl', haccepts⟩ := haccepts
  obtain rfl : url = url' := Option.some.inj (hurl.symm.trans hurl')
  simp only [Cli.acceptsOrigin, Bool.and_eq_true, Bool.or_eq_true, decide_eq_true_eq,
    ne_eq] at haccepts
  obtain ⟨⟨⟨⟨⟨⟨hprotocol, hne⟩, huname⟩, hpassword⟩, hpathname⟩, hsearch⟩, hhash⟩ := haccepts
  rw [hgo, Option.any_some]
  simp only [acceptsOrigin, Bool.and_eq_true, Bool.or_eq_true, decide_eq_true_eq, ne_eq]
  refine ⟨⟨⟨⟨⟨?_, mt hhost.2 hne⟩, huser.1 ⟨huname, hpassword⟩⟩, hpath.1 hpathname⟩,
    hquery.1 hsearch⟩, hfragment.1 hhash⟩
  refine hprotocol.imp (fun h => ?_) fun h => ?_
  all_goals
    rw [h] at hscheme
    exact List.append_cancel_right (hscheme.symm.trans (by decide +kernel))

theorem bounded_ok {value fallback maximum : ℤ} {name : String}
    (h : 1 ≤ value ∧ value ≤ maximum) : bounded value fallback maximum name = .ok value := by
  have hvalue : orDefault value fallback = value := if_neg (by omega)
  simp only [bounded, hvalue, bind_ok, check_ok, pure_ok, Bool.and_eq_true, decide_eq_true_eq,
    exists_const, and_true]
  exact h

theorem normalizeTimeout_ok {value : ℤ} (h : 1 ≤ value ∧ value ≤ 30000) :
    normalizeTimeout value = .ok value := by
  have hvalue : orDefault value 10000 = value := if_neg (by omega)
  simp only [normalizeTimeout, hvalue, bind_ok, check_ok, pure_ok, Bool.and_eq_true,
    decide_eq_true_eq, exists_const, and_true]
  refine ⟨h.1, ?_⟩
  have hms : durationOfMilliseconds value = value * 1000000 := by
    unfold durationOfMilliseconds
    rw [Int.bmod_eq_of_le] <;> omega
  rw [hms, hardMaxTimeout]
  omega

theorem checkRoutes_ok {routes : List RouteRule} {index : ℕ}
    (h : ∀ r ∈ routes, r.readOnly = true) : checkRoutes [] routes index = .ok () := by
  induction routes generalizing index with
  | nil => rfl
  | cons r routes ih =>
    rw [List.forall_mem_cons] at h
    simp only [checkRoutes, bind_ok, check_ok]
    exact ⟨(), by simp, (), by simp [h.1], ih h.2⟩

/-- Of what the command line accepts the gateway checks the routes anew, everything else passes. -/
theorem normalize_decodeConnector {c : PluginSourceConnector} (h : ParsedConnector js c)
    (hread : ReadAlike js lib c.origin) :
    (∃ n, (decodeConnector c).normalize lib = .ok n
        ∧ n = { decodeConnector c with origin := n.origin }) ↔ SameReading c := by
  have hne : (!(decodeConnector c).routes.isEmpty) = true := by
    simpa [decodeConnector] using h.routes_ne_nil
  have hlimits : normalizeLimits (decodeConnector c).limits = .ok (decodeConnector c).limits := by
    simp only [normalizeLimits, decodeConnector, normalizeTimeout_ok h.timeoutMs,
      bounded_ok h.maxRequestBytes, bounded_ok h.maxResponseBytes, bounded_ok h.maxConcurrency,
      bounded_ok h.maxHeaderCount, bounded_ok h.maxHeaderBytes]
    rfl
  have hbreaker : normalizeBreaker (decodeConnector c).circuitBreaker =
      .ok (decodeConnector c).circuitBreaker := by
    simp only [normalizeBreaker, decodeConnector, bounded_ok h.failures, bounded_ok h.openMs]
    rfl
  have hsecrets : (decodeConnector c).secretHeaders = [] := by
    simp [decodeConnector, h.secretHeaders]
  have hid : trimSpace (decodeConnector c).id = (decodeConnector c).id := h.id.1
  have hvalid : validPluginID (decodeConnector c).id = true := h.id.2
  have horigin : (lib.parseURL (trimRightSlash (trimSpace (decodeConnector c).origin))).any
      acceptsOrigin = true := hread.accepts lib h.origin
  have hrate : (decide (0 ≤ (decodeConnector c).requestsPerSecond)
      && decide ((decodeConnector c).requestsPerSecond ≤ 1000)) = true := by
    rw [Bool.and_eq_true]
    exact ⟨decide_eq_true h.requestsPerSecond.1, decide_eq_true h.requestsPerSecond.2⟩
  rw [SameReading, ← normalizeRoutes_decoded lib h.routes]
  simp only [ConnectorConfig.normalize, bind_ok, check_ok, pure_ok, hid, hvalid, horigin, hne,
    hsecrets, hlimits, hrate, hbreaker, normalizeSecrets, Except.ok.injEq, exists_eq_left',
    exists_const, true_and]
  constructor
  · rintro ⟨n, ⟨routes, hroutes, _, -, rfl⟩, heq⟩
    have hsame : routes = (decodeConnector c).routes := congrArg ConnectorConfig.routes heq
    rw [hsame] at hroutes
    exact hroutes
  · intro hroutes
    refine ⟨_, ⟨_, hroutes, (), checkRoutes_ok fun r hr => ?_, rfl⟩, ?_⟩
    · obtain ⟨route, hroute, rfl⟩ := List.mem_map.1 hr
      exact (h.routes route hroute).readOnly
    · rw [← hsecrets]
      rfl

end Connector

section Agreement

variable (js : Cli.Library) (lib : Library)

/-- A connector that the command line has accepted is accepted by the gateway and kept as it is
exactly when its query names have no U+0085 at an end and neither names nor routes fall together
where surrogates stand alone. -/
theorem connector_kept_iff (value : Cli.Json) (pluginId : JsString) (c : PluginSourceConnector)
    (hparse : Cli.sourceConnectorValue js value pluginId = .ok c)
    (horigin : ReadAlike js lib c.origin) :
    (∃ n, (decodeConnector c).normalize lib = .ok n
        ∧ n = { decodeConnector c with origin := n.origin }) ↔ SameReading c :=
  normalize_decodeConnector lib (parsedConnector hparse) horigin

/-- Case mappings that leave what is not ASCII, and a parser that knows one origin. -/
def plainLibrary : Cli.Library where
  toLowerCase s := s.map fun
    | .scalar c => .scalar c.toLower
    | .lone u => .lone u
  toUpperCase s := s.map fun
    | .scalar c => .scalar c.toUpper
    | .lone u => .lone u
  parseURL s := if s = Cli.text "https://source.test" then
    some ⟨Cli.text "https:", Cli.text "source.test", [], [], Cli.text "/", [], []⟩ else none
  no_capital s c hc := by
    obtain ⟨d, -, hd⟩ := List.mem_map.1 hc
    cases d with
    | lone u => simp at hd
    | scalar d =>
      obtain rfl : d.toLower = c := by simpa using hd
      exact Char.isUpper_toLower_eq_false d

def plainGoLibrary : Library where
  toLower := List.map Char.toLower
  toUpper := List.map Char.toUpper
  parseURL s := if s = "https://source.test".toList then
    some ⟨"https".toList, "source.test".toList, none, [], [], []⟩ else none
  validHeaderFieldName s := s ≠ [] && s.all Cli.isToken
  toLower_ascii _ _ := rfl
  toUpper_ascii _ _ := rfl
  validHeaderFieldName_token s hne hall := by
    rw [Bool.and_eq_true, decide_eq_true_eq]
    exact ⟨hne, hall⟩

/-- The connector of a release with one route that allows the given query names. -/
def connectorValue (names : List JsString) : Cli.Json :=
  let integer (n : ℤ) : Cli.Json := .num (.finite n)
  let literal (s : String) : Cli.Json := .str (Cli.text s)
  let object (fields : List (String × Cli.Json)) : Cli.Json :=
    .obj (fields.map fun entry => (Cli.text entry.1, entry.2))
  object
    [("id", literal "weather"), ("origin", literal "https://source.test"),
      ("routes", .arr [object
        [("method", literal "GET"), ("path_prefix", literal "/v1"),
          ("allowed_query_names", .arr (names.map .str)), ("allowed_request_headers", .arr []),
          ("allowed_response_headers", .arr [literal "ETag"]), ("read_only", .bool true),
          ("cache", object [("ttl_ms", integer 0)]),
          ("retry", object [("max_retries", integer 0), ("statuses", .arr []),
            ("failures", .arr []), ("idempotency_header", literal "")])]]),
      ("secret_headers", object []),
      ("egress", object [("allow_private", .bool false), ("allow_loopback", .bool false),
        ("allow_link_local", .bool false)]),
      ("limits", object [("timeout_ms", integer 1000), ("max_request_bytes", integer 1024),
        ("max_response_bytes", integer 1024), ("max_concurrency", integer 1),
        ("max_header_count", integer 16), ("max_header_bytes", integer 1024)]),
      ("rate", object [("requests_per_second", integer 1)]),
      ("circuit_breaker", object [("failures", integer 3), ("open_ms", integer 1000)])]

def connectorOf (names : List JsString) : PluginSourceConnector where
  id := Cli.text "weather"
  origin := Cli.text "https://source.test"
  routes := [⟨Cli.text "GET", Cli.text "/v1", names, [], [Cli.text "etag"], true, 0,
    ⟨0, [], [], []⟩⟩]
  secretHeaders := []
  egress := ⟨false, false, false⟩
  limits := ⟨1000, 1024, 1024, 1, 16, 1024⟩
  requestsPerSecond := 1
  circuitBreaker := ⟨3, 1000⟩

theorem readAlike_plain (names : List JsString) :
    ReadAlike plainLibrary plainGoLibrary (connectorOf names).origin := by
  change ReadAlike plainLibrary plainGoLibrary (Cli.text "https://source.test")
  refine ⟨⟨Cli.text "https:", Cli.text "source.test", [], [], Cli.text "/", [], []⟩,
    ⟨"https".toList, "source.test".toList, none, [], [], []⟩, ?_⟩
  decide +kernel

theorem connector_kept_query :
    (∃ n, (decodeConnector (connectorOf [Cli.text "q"])).normalize plainGoLibrary = .ok n
        ∧ n = { decodeConnector (connectorOf [Cli.text "q"]) with origin := n.origin }) ↔
      SameReading (connectorOf [Cli.text "q"]) :=
  connector_kept_iff plainLibrary plainGoLibrary (connectorValue [Cli.text "q"])
    (Cli.text "weather") (connectorOf [Cli.text "q"]) (by decide +kernel) (readAlike_plain _)

/-- A query name that is nothing but U+0085 passes the command line, and the gateway refuses the
whole connector for it. -/
theorem connector_refused :
    ¬ ∀ (js : Cli.Library) (lib : Library) (value : Cli.Json) (pluginId : JsString)
      (c : PluginSourceConnector), Cli.sourceConnectorValue js value pluginId = .ok c →
      ReadAlike js lib c.origin → ∃ n, (decodeConnector c).normalize lib = .ok n
        ∧ n = { decodeConnector c with origin := n.origin } := by
  intro h
  obtain ⟨n, hn, -⟩ := h plainLibrary plainGoLibrary (connectorValue [[nextLine]])
    (Cli.text "weather") (connectorOf [[nextLine]]) (by decide +kernel) (readAlike_plain _)
  have herror : (decodeConnector (connectorOf [[nextLine]])).normalize plainGoLibrary =
      .error "routes[0]: allowed_query_names: name \"\" is invalid" := by decide +kernel
  rw [herror] at hn
  simp at hn

end Agreement

end Atlas.SourceGateway.Config
