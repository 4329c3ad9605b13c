import Atlas.Proofs.ConfigLimits
import Atlas.SourceGateway.Filter

/-!
# What plugins send and see

The names on the lists of a rule and those of the secret headers are tokens in lower case, and so
are the names a request is left with; the canonical form of such a name determines it. So no header
of a plugin meets a secret one in the map that is sent, and none of the upstream's that falls
together with an excluded name comes back. Only the user agent is written last: a secret header of
that name is lost, since no plugin can supply it.
-/

namespace Atlas.SourceGateway

open Config

section Names

theorem toLower_eq_hyphen {c : Char} : c.toLower = '-' ↔ c = '-' := by
  constructor
  · intro h
    have halpha : c.isAlpha = false := by
      rw [← Char.isAlpha_toLower_eq_isAlpha, h]
      rfl
    have hupper : ¬ c.isUpper = true := fun hc => by simp [Char.isAlpha, hc] at halpha
    rwa [Char.toLower_eq_of_not_isUpper hupper] at h
  · rintro rfl
    rfl

theorem map_toLower_canonicalize : ∀ (upper : Bool) (name : GoString),
    (canonicalize upper name).map Char.toLower = name.map Char.toLower
  | _, [] => rfl
  | upper, c :: rest => by
    simp only [canonicalize, List.map_cons, map_toLower_canonicalize]
    cases upper <;> simp

theorem canonicalize_map_toLower : ∀ (upper : Bool) (name : GoString),
    canonicalize upper (name.map Char.toLower) = canonicalize upper name
  | _, [] => rfl
  | upper, c :: rest => by
    simp only [canonicalize, List.map_cons, toLower_eq_hyphen, canonicalize_map_toLower]
    cases upper <;> simp

theorem canonicalHeaderKey_of_tokens {name : GoString} (h : ∀ c ∈ name, Cli.isToken c = true) :
    canonicalHeaderKey name = canonicalize true name :=
  if_pos (List.all_eq_true.2 h)

theorem isToken_of_toLower {c : Char} (h : Cli.isToken c.toLower = true) :
    Cli.isToken c = true := by
  by_cases hupper : c.isUpper = true
  · unfold Cli.isToken
    simp only [Char.isUpper, decide_eq_true_eq] at hupper
    simp only [Bool.or_eq_true, Bool.and_eq_true, decide_eq_true_eq]
    exact .inl (.inr hupper)
  · rwa [Char.toLower_eq_of_not_isUpper hupper] at h

theorem ascii_of_canonicalize {name : GoString} (h : LowerToken name) :
    ∀ c ∈ canonicalHeaderKey name, c.val < 128 := by
  intro c hc
  rw [canonicalHeaderKey_of_tokens h.tokens] at hc
  have hlower : c.toLower ∈ name := by
    have hmem := List.mem_map_of_mem (f := Char.toLower) hc
    rwa [map_toLower_canonicalize, h.map_toLower] at hmem
  exact isToken_lt (isToken_of_toLower (h.tokens _ hlower))

/-- A canonical name in ASCII that folds to a token is its canonical form. -/
theorem toLower_eq_iff (lib : Library) {name key : GoString} (h : LowerToken name)
    (hascii : ∀ c ∈ key, c.val < 128) (hcanonical : canonicalHeaderKey key = key) :
    lib.toLower key = name ↔ key = canonicalHeaderKey name := by
  rw [lib.toLower_ascii key hascii, canonicalHeaderKey_of_tokens h.tokens]
  constructor
  · intro hlower
    have htokens : ∀ c ∈ key, Cli.isToken c = true := fun c hc =>
      isToken_of_toLower (h.tokens _ (hlower ▸ List.mem_map_of_mem hc))
    rw [canonicalHeaderKey_of_tokens htokens] at hcanonical
    rw [← hlower, canonicalize_map_toLower, hcanonical]
  · rintro rfl
    rw [map_toLower_canonicalize, h.map_toLower]

theorem toLower_canonicalHeaderKey (lib : Library) {name : GoString} (h : LowerToken name) :
    lib.toLower (canonicalHeaderKey name) = name := by
  rw [lib.toLower_ascii _ (ascii_of_canonicalize h), canonicalHeaderKey_of_tokens h.tokens,
    map_toLower_canonicalize, h.map_toLower]

theorem canonicalHeaderKey_inj {name other : GoString} (h : LowerToken name)
    (hother : LowerToken other) (heq : canonicalHeaderKey name = canonicalHeaderKey other) :
    name = other := by
  have hlower := congrArg (List.map Char.toLower) heq
  rwa [canonicalHeaderKey_of_tokens h.tokens, canonicalHeaderKey_of_tokens hother.tokens,
    map_toLower_canonicalize, map_toLower_canonicalize, h.map_toLower, hother.map_toLower] at hlower

end Names

section Routes

variable {method path : GoString}

/-- A rule that a request may be for. -/
def Matches (method path : GoString) (rule : RouteRule) : Prop :=
  rule.method = method ∧ rule.pathPrefix.isPrefixOf path = true

def prefixLength (rule : RouteRule) : ℕ := (GoJson.utf8 rule.pathPrefix).length

theorem selectRoute_some : ∀ {rules : List RouteRule} {selected : Option RouteRule}
    {rule : RouteRule}, (∀ s ∈ selected, Matches method path s) →
    selectRoute method path rules selected = some rule →
    (rule ∈ rules ∨ selected = some rule) ∧ Matches method path rule
      ∧ (∀ other ∈ rules, Matches method path other → prefixLength other ≤ prefixLength rule)
      ∧ ∀ s ∈ selected, prefixLength s ≤ prefixLength rule
  | [], selected, rule, hselected, h => by
    simp only [selectRoute] at h
    subst h
    exact ⟨.inr rfl, hselected rule rfl, nofun, fun s hs => by
      obtain rfl := Option.some.inj hs
      exact le_rfl⟩
  | first :: rest, selected, rule, hselected, h => by
    simp only [selectRoute] at h
    split_ifs at h with htaken
    · obtain ⟨hmethod, hprefix, hlonger⟩ := htaken
      have hfirst : ∀ s ∈ some first, Matches method path s := by
        rintro s ⟨⟩
        exact ⟨hmethod, hprefix⟩
      obtain ⟨hmem, hmatches, hall, hle⟩ := selectRoute_some hfirst h
      refine ⟨.inl ?_, hmatches, ?_, fun s hs => (hlonger s hs).le.trans (hle first rfl)⟩
      · rcases hmem with hmem | heq
        · exact List.mem_cons_of_mem _ hmem
        · exact (Option.some.inj heq) ▸ List.mem_cons_self
      · rw [List.forall_mem_cons]
        exact ⟨fun _ => hle first rfl, hall⟩
    · obtain ⟨hmem, hmatches, hall, hle⟩ := selectRoute_some hselected h
      refine ⟨hmem.imp_left (List.mem_cons_of_mem _), hmatches, ?_, hle⟩
      rw [List.forall_mem_cons]
      refine ⟨fun hfirst => ?_, hall⟩
      -- not taken, so the one selected before is at least as long
      have hother : ∃ s ∈ selected, prefixLength first ≤ prefixLength s := by
        by_contra hnone
        push Not at hnone
        exact htaken ⟨hfirst.1, hfirst.2, hnone⟩
      obtain ⟨s, hs, hlength⟩ := hother
      exact hlength.trans (hle s hs)

theorem utf8_append (s t : GoString) : GoJson.utf8 (s ++ t) = GoJson.utf8 s ++ GoJson.utf8 t := by
  unfold GoJson.utf8
  rw [List.flatMap_append]

theorem eq_nil_of_utf8 {s : GoString} (h : GoJson.utf8 s = []) : s = [] := by
  rw [← GoJson.runes_utf8 s, h]
  rfl

/-- Of two prefixes of a path, the one that is no longer begins the other. -/
theorem prefix_eq_of_length {s t : GoString} (hs : s <+: path) (ht : t <+: path)
    (hlength : (GoJson.utf8 s).length = (GoJson.utf8 t).length) : s = t := by
  have hone : ∀ {a b : GoString}, a <+: b → (GoJson.utf8 a).length = (GoJson.utf8 b).length →
      a = b := by
    rintro a _ ⟨rest, rfl⟩ heq
    rw [utf8_append, List.length_append] at heq
    have hrest : GoJson.utf8 rest = [] := List.eq_nil_of_length_eq_zero (by omega)
    rw [eq_nil_of_utf8 hrest, List.append_nil]
  rcases List.prefix_or_prefix_of_prefix hs ht with h | h
  · exact hone h hlength
  · exact (hone h hlength.symm).symm

end Routes

section Connectors

variable {lib : WireLibrary} {deployment : Deployment}

theorem resolveSecret_ne_nil {header : GoString} {reference : SecretRef} {value : GoString}
    (h : resolveSecret deployment header reference = .ok value) : value ≠ [] := by
  unfold resolveSecret at h
  split_ifs at h
  · simp only [bind_ok, check_ok, pure_ok, exists_const, decide_eq_true_eq] at h
    obtain ⟨hne, rfl⟩ := h
    exact hne
  · split at h
    · simp only [bind_ok, check_ok, pure_ok, exists_const, decide_eq_true_eq] at h
      obtain ⟨hne, rfl⟩ := h
      exact hne
    · cases h

/-- The secrets are those of the configuration, and none is blank. -/
theorem resolved_spec : ∀ {references : List (GoString × SecretRef)}
    {secrets : List (GoString × Bytes)},
    resolveSecretHeaders lib deployment references = .ok secrets →
    secrets.map Prod.fst = references.map Prod.fst ∧ ∀ secret ∈ secrets, secret.2 ≠ []
  | [], secrets, h => by
    simp only [resolveSecretHeaders, pure_ok] at h
    subst h
    exact ⟨rfl, List.forall_mem_nil _⟩
  | (header, reference) :: rest, secrets, h => by
    simp only [resolveSecretHeaders, bind_ok, check_ok, pure_ok, exists_const] at h
    obtain ⟨value, hvalue, -, others, hothers, rfl⟩ := h
    obtain ⟨hnames, hall⟩ := resolved_spec hothers
    refine ⟨by rw [List.map_cons, List.map_cons, hnames], ?_⟩
    rw [List.forall_mem_cons]
    refine ⟨fun hnil => resolveSecret_ne_nil hvalue ?_, hall⟩
    exact (List.append_eq_nil_iff.1 (eq_nil_of_utf8 hnil)).2

namespace GatewayConnector

variable (c : GatewayConnector lib deployment)

theorem settled : c.config.Settled lib.toLibrary := by
  obtain ⟨raw, hraw⟩ := c.normalized
  exact (settled_of_normalize hraw).1

theorem secretNames : c.secretHeaders.map Prod.fst = c.config.secretHeaders.map Prod.fst :=
  (resolved_spec c.resolved).1

theorem secret_ne_nil {secret : GoString × Bytes} (h : secret ∈ c.secretHeaders) :
    secret.2 ≠ [] :=
  (resolved_spec c.resolved).2 secret h

theorem secret_lowerToken {secret : GoString × Bytes} (h : secret ∈ c.secretHeaders) :
    LowerToken secret.1 := by
  have hname : secret.1 ∈ c.config.secretHeaders.map Prod.fst :=
    c.secretNames ▸ List.mem_map_of_mem h
  obtain ⟨reference, hreference, heq⟩ := List.mem_map.1 hname
  exact heq ▸ (c.settled.secretHeaders reference hreference).name

theorem secrets_nodup : (c.secretHeaders.map Prod.fst).Nodup :=
  c.secretNames ▸ c.settled.secretHeaders_nodup

/-- The rule of a request is the one that fits it best. -/
theorem route_spec {method path : GoString} {rule : RouteRule}
    (h : c.route method path = some rule) :
    rule ∈ c.config.routes ∧ Matches method path rule ∧ ∀ other ∈ c.config.routes,
      Matches method path other → other = rule ∨ prefixLength other < prefixLength rule := by
  obtain ⟨hmem, hmatches, hall, -⟩ := selectRoute_some (by simp) h
  have hrule : rule ∈ c.config.routes := hmem.resolve_right nofun
  refine ⟨hrule, hmatches, fun other hother hfits => ?_⟩
  rcases (hall other hother hfits).lt_or_eq with hlt | hlength
  · exact .inr hlt
  · have hprefix : other.pathPrefix = rule.pathPrefix :=
      prefix_eq_of_length (List.isPrefixOf_iff_prefix.1 hfits.2)
        (List.isPrefixOf_iff_prefix.1 hmatches.2) hlength
    have hkey : other.key = rule.key := by
      unfold RouteRule.key
      rw [hfits.1, hmatches.1, hprefix]
    exact .inl (List.inj_on_of_nodup_map c.settled.routes_nodup hother hrule hkey)

/-- What is known of a header that is left in a request. -/
structure Passed (rule : RouteRule) (name : GoString) : Prop where
  lowerToken : LowerToken name
  allowed : name ∈ rule.allowedRequestHeaders
  not_forbidden : name ∉ fixedForbiddenRequestHeaders
  not_secret : name ∉ c.secretHeaders.map Prod.fst

theorem prepareHeaders_passed {rule : RouteRule} : ∀ {headers result : List HeaderTuple},
    c.prepareHeaders rule headers = .ok result → ∀ tuple ∈ result, c.Passed rule tuple.1
  | [], result, h => by
    simp only [prepareHeaders, pure_ok] at h
    subst h
    exact List.forall_mem_nil _
  | (name, value) :: rest, result, h => by
    simp only [prepareHeaders, bind_ok, check_ok, pure_ok, exists_const, Bool.and_eq_true,
      decide_eq_true_eq] at h
    obtain ⟨⟨⟨hvalid, hforbidden⟩, hallowed⟩, hsecret, others, hothers, rfl⟩ := h
    rw [List.forall_mem_cons]
    exact ⟨⟨lowerToken_of_valid hvalid, hallowed, hforbidden, hsecret⟩,
      prepareHeaders_passed hothers⟩

theorem prepare_spec {input : ConnectorRequest} {prepared : PreparedRequest} {rule : RouteRule}
    (h : c.prepare input = .ok (prepared, rule)) :
    c.route input.method input.path = some rule
      ∧ (∀ tuple ∈ prepared.query, tuple.1 ∈ rule.allowedQueryNames)
      ∧ ∀ tuple ∈ prepared.headers, c.Passed rule tuple.1 := by
  simp only [prepare, bind_ok, check_ok, exists_const] at h
  obtain ⟨-, -, _, -, h⟩ := h
  split at h
  · rename_i selected hroute
    simp only [bind_ok, check_ok, pure_ok, exists_const, Prod.mk.injEq] at h
    obtain ⟨hquery, _, -, headers, hheaders, body, -, -, -, rfl, rfl⟩ := h
    refine ⟨hroute, fun tuple htuple => ?_, c.prepareHeaders_passed hheaders⟩
    exact of_decide_eq_true (List.all_eq_true.1 hquery tuple htuple)
  · cases h

end GatewayConnector

end Connectors

section Requests

theorem get_addHeader {header : OrderedMap GoString (List Bytes)} {name key : GoString}
    {value : Bytes} {values : List Bytes}
    (h : (addHeader header name value).get key = some values) :
    key = canonicalHeaderKey name ∨ header.get key = some values := by
  unfold addHeader at h
  rw [OrderedMap.get_set] at h
  split_ifs at h with hkey
  · exact .inl hkey
  · exact .inr h

theorem get_setHeader {header : OrderedMap GoString (List Bytes)} {name key : GoString}
    {value : Bytes} :
    (setHeader header name value).get key =
      if key = canonicalHeaderKey name then some [value] else header.get key :=
  OrderedMap.get_set

/-- What is in the map has been there before or is the name of a header that is added. -/
theorem get_added : ∀ {headers : List HeaderTuple} {header : OrderedMap GoString (List Bytes)}
    {key : GoString} {values : List Bytes},
    (headers.foldl (fun header tuple => addHeader header tuple.1 (GoJson.utf8 tuple.2)) header).get
      key = some values →
    (∃ tuple ∈ headers, key = canonicalHeaderKey tuple.1) ∨ header.get key = some values
  | [], _, _, _, h => .inr h
  | tuple :: rest, header, key, values, h => by
    have hrest : (rest.foldl (fun header tuple => addHeader header tuple.1 (GoJson.utf8 tuple.2))
        (addHeader header tuple.1 (GoJson.utf8 tuple.2))).get key = some values := h
    rcases get_added hrest with ⟨other, hother, hkey⟩ | h
    · exact .inl ⟨other, List.mem_cons_of_mem _ hother, hkey⟩
    · rcases get_addHeader h with hkey | h
      · exact .inl ⟨tuple, List.mem_cons_self, hkey⟩
      · exact .inr h

def setSecrets (secrets : List (GoString × Bytes)) (header : OrderedMap GoString (List Bytes)) :
    OrderedMap GoString (List Bytes) :=
  secrets.foldl (fun header secret => setHeader header secret.1 secret.2) header

theorem get_setSecrets_of_not : ∀ {secrets : List (GoString × Bytes)}
    {header : OrderedMap GoString (List Bytes)} {key : GoString},
    (∀ secret ∈ secrets, key ≠ canonicalHeaderKey secret.1) →
    (setSecrets secrets header).get key = header.get key
  | [], _, _, _ => rfl
  | secret :: rest, header, key, h => by
    rw [List.forall_mem_cons] at h
    show (setSecrets rest (setHeader header secret.1 secret.2)).get key = header.get key
    rw [get_setSecrets_of_not h.2, get_setHeader, if_neg h.1]

/-- Of secrets with different names, each has its value. -/
theorem get_setSecrets : ∀ {secrets : List (GoString × Bytes)}
    {header : OrderedMap GoString (List Bytes)},
    (secrets.map fun secret => canonicalHeaderKey secret.1).Nodup →
    ∀ secret ∈ secrets,
      (setSecrets secrets header).get (canonicalHeaderKey secret.1) = some [secret.2]
  | [], _, _ => nofun
  | first :: rest, header, hnodup => by
    rw [List.map_cons, List.nodup_cons] at hnodup
    rw [List.forall_mem_cons]
    refine ⟨?_, fun secret hsecret => get_setSecrets hnodup.2 secret hsecret⟩
    show (setSecrets rest (setHeader header first.1 first.2)).get _ = _
    rw [get_setSecrets_of_not, get_setHeader, if_pos rfl]
    intro secret hsecret heq
    exact hnodup.1 (List.mem_map.2 ⟨secret, hsecret, heq.symm⟩)

theorem get_sentHeader {header : OrderedMap GoString (List Bytes)} {key : GoString}
    {values : List Bytes} : (sentHeader header).get key = some values ↔
      header.get key = some values ∧ ¬ (key = "User-Agent".toList ∧ values.head? = some []) := by
  unfold sentHeader
  rw [OrderedMap.mem_filter, Bool.not_eq_true', ← Bool.not_eq_true, Bool.and_eq_true,
    decide_eq_true_eq, decide_eq_true_eq]

theorem userAgent_token : LowerToken "user-agent".toList :=
  ⟨by decide, List.all_eq_true.1 (by decide), fun c hc => by
    simpa using List.all_eq_true.1 (show "user-agent".toList.all (!·.isUpper) = true by decide) c
      hc⟩

theorem canonicalHeaderKey_userAgent :
    canonicalHeaderKey "user-agent".toList = "User-Agent".toList := by decide

variable {lib : WireLibrary} {deployment : Deployment}

namespace GatewayConnector

variable (c : GatewayConnector lib deployment)

/-- The headers of a request are allowed ones and the secret ones, each of which has its value. -/
structure SentAsAllowed (rule : RouteRule) (prepared : PreparedRequest) : Prop where
  listed : ∀ key values, (sentHeader (c.requestHeader prepared)).get key = some values →
    lib.toLower key ∈ c.secretHeaders.map Prod.fst
      ∨ lib.toLower key ∈ rule.allowedRequestHeaders
        ∧ lib.toLower key ∉ fixedForbiddenRequestHeaders
  secrets : ∀ secret ∈ c.secretHeaders,
    (sentHeader (c.requestHeader prepared)).get (canonicalHeaderKey secret.1) = some [secret.2]

theorem canonical_nodup :
    (c.secretHeaders.map fun secret => canonicalHeaderKey secret.1).Nodup := by
  have hmap : (c.secretHeaders.map fun secret => canonicalHeaderKey secret.1) =
      (c.secretHeaders.map Prod.fst).map canonicalHeaderKey := by
    rw [List.map_map]
    rfl
  rw [hmap]
  refine c.secrets_nodup.map_on fun name hname other hother heq => ?_
  obtain ⟨secret, hsecret, rfl⟩ := List.mem_map.1 hname
  obtain ⟨another, hanother, rfl⟩ := List.mem_map.1 hother
  exact canonicalHeaderKey_inj (c.secret_lowerToken hsecret) (c.secret_lowerToken hanother) heq

variable {rule : RouteRule} {prepared : PreparedRequest}

/-- The map before the user agent is looked at. -/
def withSecrets (prepared : PreparedRequest) : OrderedMap GoString (List Bytes) :=
  setSecrets c.secretHeaders (prepared.headers.foldl
    (fun header tuple => addHeader header tuple.1 (GoJson.utf8 tuple.2)) OrderedMap.empty)

theorem withSecrets_listed (h : ∀ tuple ∈ prepared.headers, c.Passed rule tuple.1)
    {key : GoString} {values : List Bytes} (hget : (c.withSecrets prepared).get key = some values) :
    lib.toLower key ∈ c.secretHeaders.map Prod.fst
      ∨ lib.toLower key ∈ rule.allowedRequestHeaders
        ∧ lib.toLower key ∉ fixedForbiddenRequestHeaders := by
  by_cases hsecret : ∃ secret ∈ c.secretHeaders, key = canonicalHeaderKey secret.1
  · obtain ⟨secret, hsecret, rfl⟩ := hsecret
    rw [toLower_canonicalHeaderKey _ (c.secret_lowerToken hsecret)]
    exact .inl (List.mem_map_of_mem hsecret)
  · push Not at hsecret
    unfold withSecrets at hget
    rw [get_setSecrets_of_not hsecret] at hget
    rcases get_added hget with ⟨tuple, htuple, rfl⟩ | hnone
    · have hpassed := h tuple htuple
      rw [toLower_canonicalHeaderKey _ hpassed.lowerToken]
      exact .inr ⟨hpassed.allowed, hpassed.not_forbidden⟩
    · rw [OrderedMap.get_empty] at hnone
      cases hnone

/-- The blank user agent is not sent, and everything else is as it was. -/
theorem get_requestHeader {key : GoString} {values : List Bytes}
    (h : (sentHeader (c.requestHeader prepared)).get key = some values) :
    (c.withSecrets prepared).get key = some values := by
  rw [get_sentHeader] at h
  obtain ⟨hget, hblank⟩ := h
  unfold requestHeader at hget
  simp only [] at hget
  split_ifs at hget
  · exact hget
  · rw [get_setHeader] at hget
    split_ifs at hget with hkey
    · obtain rfl := Option.some.inj hget
      exact absurd ⟨hkey, rfl⟩ hblank
    · exact hget

/-- Nobody supplies a user agent where it is a secret header. -/
theorem not_containsHeader (h : ∀ tuple ∈ prepared.headers, c.Passed rule tuple.1)
    (hsecret : "user-agent".toList ∈ c.secretHeaders.map Prod.fst) :
    containsHeader lib.toLibrary prepared.headers "user-agent".toList = false := by
  unfold containsHeader
  rw [List.any_eq_false]
  intro tuple htuple hmatch
  have hpassed := h tuple htuple
  rw [Bool.and_eq_true, equalFold, decide_eq_true_eq, hpassed.lowerToken.toLower_eq,
    userAgent_token.toLower_eq] at hmatch
  exact hpassed.not_secret (hmatch.1 ▸ hsecret)

theorem sentAsAllowed_iff (h : ∀ tuple ∈ prepared.headers, c.Passed rule tuple.1) :
    c.SentAsAllowed rule prepared ↔ "user-agent".toList ∉ c.secretHeaders.map Prod.fst := by
  constructor
  · intro hsent hmem
    obtain ⟨secret, hsecret, hname⟩ := List.mem_map.1 hmem
    have hget := hsent.secrets secret hsecret
    rw [hname, get_sentHeader] at hget
    obtain ⟨hget, -⟩ := hget
    unfold requestHeader at hget
    simp only [c.not_containsHeader h hmem, Bool.false_eq_true, if_false] at hget
    rw [canonicalHeaderKey_userAgent, get_setHeader, if_pos (by decide), Option.some.injEq,
      List.cons.injEq] at hget
    exact c.secret_ne_nil hsecret hget.1.symm
  · intro hmem
    refine ⟨fun key values hget => c.withSecrets_listed h (c.get_requestHeader hget),
      fun secret hsecret => ?_⟩
    have hne : canonicalHeaderKey secret.1 ≠ "User-Agent".toList := by
      rw [← canonicalHeaderKey_userAgent]
      intro heq
      exact hmem (canonicalHeaderKey_inj (c.secret_lowerToken hsecret) userAgent_token heq ▸
        List.mem_map_of_mem hsecret)
    rw [get_sentHeader]
    refine ⟨?_, fun hblank => hne hblank.1⟩
    have hvalue : (c.withSecrets prepared).get (canonicalHeaderKey secret.1) = some [secret.2] :=
      get_setSecrets c.canonical_nodup secret hsecret
    unfold requestHeader
    simp only []
    split_ifs
    · exact hvalue
    · rw [get_setHeader, if_neg (by rwa [show canonicalHeaderKey "User-Agent".toList =
        "User-Agent".toList by decide])]
      exact hvalue

end GatewayConnector

end Requests

section Responses

theorem headerSize_eq {lib : WireLibrary} : ∀ {tuples : List (Bytes × Bytes)} {start size : ℤ},
    headerSize lib tuples start = .ok size →
    size = start + ((tuples.map fun tuple => tuple.1.length + tuple.2.length).sum : ℕ)
  | [], start, size, h => by
    simp only [headerSize, pure_ok] at h
    simp [h]
  | tuple :: rest, start, size, h => by
    simp only [headerSize, bind_ok, check_ok, exists_const] at h
    rw [headerSize_eq h.2, List.map_cons, List.sum_cons]
    push_cast
    ring

/-- The tuples keep to both limits. -/
theorem requireHeaderBudget_ok {lib : WireLibrary} {tuples : List (Bytes × Bytes)}
    {maxCount maxBytes : ℤ} {u : Unit}
    (h : requireHeaderBudget lib tuples maxCount maxBytes = .ok u) :
    tuples.length ≤ maxCount
      ∧ ((tuples.map fun tuple => tuple.1.length + tuple.2.length).sum : ℕ) ≤ maxBytes := by
  simp only [requireHeaderBudget, bind_ok, check_ok, exists_const, decide_eq_true_eq] at h
  obtain ⟨hcount, size, hsize, hbytes⟩ := h
  refine ⟨hcount, ?_⟩
  rwa [headerSize_eq hsize, zero_add] at hbytes

/-- A name is collected once, with all its values. -/
theorem filter_collectHeaders (headers : Header) (kept : GoString → Bool) (name : GoString) :
    ∀ names seen : List GoString,
    (collectHeaders headers kept names seen).filter (fun tuple => tuple.1 = name) =
      if name ∈ names ∧ name ∉ seen ∧ kept name = true then (headers.values name).map (name, ·)
      else []
  | [], seen => by simp [collectHeaders]
  | first :: rest, seen => by
    simp only [collectHeaders]
    by_cases hname : name = first
    · subst hname
      split_ifs with hskip hkept hkept
      · exact absurd hskip (by simp [hkept.2.1, hkept.2.2])
      · rw [filter_collectHeaders, if_neg (by tauto)]
      · rw [List.filter_append, filter_collectHeaders, if_neg (by simp), List.append_nil,
          List.filter_eq_self.2]
        intro tuple htuple
        obtain ⟨value, -, rfl⟩ := List.mem_map.1 htuple
        exact decide_eq_true rfl
      · exact absurd ⟨List.mem_cons_self, by simpa using hskip⟩ hkept
    · have hother : ((headers.values first).map (first, ·)).filter
          (fun tuple => tuple.1 = name) = [] := by
        rw [List.filter_eq_nil_iff]
        intro tuple htuple
        obtain ⟨value, -, rfl⟩ := List.mem_map.1 htuple
        simpa using Ne.symm hname
      split_ifs with hskip hkept hkept
      · rw [filter_collectHeaders, if_pos (by simpa [hname] using hkept)]
      · rw [filter_collectHeaders, if_neg (by simpa [hname] using hkept)]
      · rw [List.filter_append, hother, filter_collectHeaders,
          if_pos (by simpa [hname] using hkept)]
        rfl
      · rw [List.filter_append, hother, filter_collectHeaders,
          if_neg (by simpa [hname] using hkept)]
        rfl

theorem mem_collectHeaders {headers : Header} {kept : GoString → Bool} {names seen : List GoString}
    {tuple : GoString × Bytes} (h : tuple ∈ collectHeaders headers kept names seen) :
    kept tuple.1 = true := by
  have hmem : tuple ∈ (collectHeaders headers kept names seen).filter
      (fun other => other.1 = tuple.1) := List.mem_filter.2 ⟨h, decide_eq_true rfl⟩
  rw [filter_collectHeaders] at hmem
  split_ifs at hmem with hkept
  · exact hkept.2.2
  · exact absurd hmem List.not_mem_nil

/-- The values of the fields that a name folds together with are those at its canonical form. -/
theorem values_eq (lib : Library) (headers : Header) {name : GoString} (h : LowerToken name) :
    headers.values name =
      (headers.fields.entries.filter fun field => lib.toLower field.1 = name).flatMap Prod.snd := by
  have hfilter : (headers.fields.entries.filter fun field => lib.toLower field.1 = name) =
      headers.fields.entries.filter fun field => field.1 = canonicalHeaderKey name := by
    refine List.filter_congr fun field hfield => ?_
    have hkey : field.1 ∈ headers.fields.keys := List.mem_map_of_mem hfield
    rw [decide_eq_decide]
    exact toLower_eq_iff lib h (headers.ascii _ hkey) (headers.canonical _ hkey)
  rw [hfilter, OrderedMap.filter_key]
  unfold Header.values
  cases headers.fields.get (canonicalHeaderKey name) <;> simp

variable {lib : WireLibrary} {deployment : Deployment}

namespace GatewayConnector

variable (c : GatewayConnector lib deployment)

/-- What a plugin may not see. -/
def Excluded (headers : Header) (name : GoString) : Prop :=
  name ∈ fixedForbiddenResponseHeaders ∨ name ∈ connectionNames lib.toLibrary headers
    ∨ name ∈ c.secretHeaders.map Prod.fst

/-- What comes back of the headers of a response. -/
structure ReturnedAsAllowed (rule : RouteRule) (headers : Header)
    (result : List (GoString × Bytes)) : Prop where
  names : ∀ tuple ∈ result, tuple.1 ∈ rule.allowedResponseHeaders ∧ ¬ c.Excluded headers tuple.1
  values : ∀ name ∈ rule.allowedResponseHeaders, ¬ c.Excluded headers name →
    (result.filter fun tuple => tuple.1 = name).map Prod.snd =
      (headers.fields.entries.filter fun field => lib.toLower field.1 = name).flatMap Prod.snd
  count : result.length ≤ c.config.limits.maxHeaderCount
  bytes : ((result.map fun tuple => (GoJson.utf8 tuple.1).length + tuple.2.length).sum : ℕ) ≤
    c.config.limits.maxHeaderBytes

theorem responseHeaders_returned {rule : RouteRule} (hrule : rule ∈ c.config.routes)
    {headers : Header} {result : List (GoString × Bytes)}
    (h : c.responseHeaders headers rule.allowedResponseHeaders c.config.limits = .ok result) :
    c.ReturnedAsAllowed rule headers result := by
  simp only [responseHeaders, bind_ok, pure_ok] at h
  obtain ⟨_, hbudget, rfl⟩ := h
  obtain ⟨hcount, hbytes⟩ := requireHeaderBudget_ok hbudget
  rw [List.length_map] at hcount
  rw [List.map_map] at hbytes
  have hkept : ∀ name, (decide (name ∉ fixedForbiddenResponseHeaders
        ++ connectionNames lib.toLibrary headers ++ c.secretHeaders.map Prod.fst)
      && decide (name ∈ rule.allowedResponseHeaders)) = true ↔
      name ∈ rule.allowedResponseHeaders ∧ ¬ c.Excluded headers name := by
    intro name
    unfold Excluded
    rw [Bool.and_eq_true, decide_eq_true_eq, decide_eq_true_eq, List.mem_append, List.mem_append,
      or_assoc]
    exact and_comm
  refine ⟨fun tuple htuple => (hkept _).1 (mem_collectHeaders htuple), ?_, hcount, hbytes⟩
  intro name hallowed hexcluded
  have htoken := (c.settled.routes rule hrule).responseHeaders name hallowed
  rw [filter_collectHeaders, ← values_eq lib.toLibrary headers htoken]
  split_ifs with hcollected
  · rw [List.map_map]
    exact List.map_id _
  · -- no field folds together with the name
    rw [values_eq lib.toLibrary headers htoken, List.filter_eq_nil_iff.2]
    · rfl
    · intro field hfield hfold
      refine hcollected ⟨?_, List.not_mem_nil, (hkept name).2 ⟨hallowed, hexcluded⟩⟩
      rw [(List.perm_insertionSort _ _).mem_iff, List.mem_map]
      exact ⟨field.1, List.mem_map_of_mem hfield, of_decide_eq_true hfold⟩

variable {deployment' : Deployment} {c' : GatewayConnector lib deployment'}

theorem names_eq (hconfig : c'.config = c.config) :
    c'.secretHeaders.map Prod.fst = c.secretHeaders.map Prod.fst := by
  rw [c'.secretNames, c.secretNames, hconfig]

theorem prepareHeaders_eq (hconfig : c'.config = c.config) (rule : RouteRule) :
    ∀ headers : List HeaderTuple, c'.prepareHeaders rule headers = c.prepareHeaders rule headers
  | [] => rfl
  | (name, value) :: rest => by
    simp only [prepareHeaders, c.names_eq hconfig, prepareHeaders_eq hconfig rule rest]

/-- Preparing does not look at the values of secrets. -/
theorem prepare_eq (hconfig : c'.config = c.config) (input : ConnectorRequest) :
    c'.prepare input = c.prepare input := by
  simp only [prepare, route, hconfig, c.prepareHeaders_eq hconfig]

/-- Nor does what comes back. -/
theorem attempt_eq (hconfig : c'.config = c.config) (rule : RouteRule) (answer : UpstreamAnswer) :
    c'.attempt rule answer = c.attempt rule answer := by
  rcases answer with _ | _ | ⟨status, header, _ | body⟩
  · rfl
  · rfl
  · rfl
  · simp only [attempt, responseHeaders, hconfig, c.names_eq hconfig]

end GatewayConnector

end Responses

section Filtering

variable {lib : WireLibrary} {deployment : Deployment}

/-- What the gateway lets through for a request: what it sends, what may come back for it, and
nothing in either that depends on the values of the secrets. -/
structure GatewayConnector.Filters (c : GatewayConnector lib deployment) (input : ConnectorRequest)
    (prepared : PreparedRequest) (rule : RouteRule) : Prop where
  rule_mem : rule ∈ c.config.routes
  rule_matches : Matches input.method input.path rule
  rule_longest : ∀ other ∈ c.config.routes, Matches input.method input.path other →
    other = rule ∨ prefixLength other < prefixLength rule
  query : ∀ tuple ∈ prepared.query, tuple.1 ∈ rule.allowedQueryNames
  sent : c.SentAsAllowed rule prepared
  returned : ∀ headers result,
    c.responseHeaders headers rule.allowedResponseHeaders c.config.limits = .ok result →
    c.ReturnedAsAllowed rule headers result
  secretless : ∀ (deployment' : Deployment) (c' : GatewayConnector lib deployment'),
    c'.config = c.config → c'.prepare input = c.prepare input
      ∧ ∀ answer, c'.attempt rule answer = c.attempt rule answer

/-- Whatever request is accepted, the gateway filters it, and the answer to it, exactly when no
secret header is the user agent. -/
theorem filters_iff (c : GatewayConnector lib deployment) {input : ConnectorRequest}
    {prepared : PreparedRequest} {rule : RouteRule} (h : c.prepare input = .ok (prepared, rule)) :
    c.Filters input prepared rule ↔
      "user-agent".toList ∉ c.config.secretHeaders.map Prod.fst := by
  obtain ⟨hroute, hquery, hheaders⟩ := c.prepare_spec h
  obtain ⟨hrule, hmatches, hlongest⟩ := c.route_spec hroute
  rw [← c.secretNames, ← c.sentAsAllowed_iff hheaders]
  constructor
  · exact fun hfilters => hfilters.sent
  · intro hsent
    exact {
      rule_mem := hrule
      rule_matches := hmatches
      rule_longest := hlongest
      query := hquery
      sent := hsent
      returned := fun headers result hresult => c.responseHeaders_returned hrule hresult
      secretless := fun deployment' c' hconfig =>
        ⟨c.prepare_eq hconfig input, c.attempt_eq hconfig rule⟩ }

/-- Header values without control characters. -/
def sampleWire : WireLibrary :=
  { sampleLibrary with
    validHeaderFieldValue := fun value => value.all fun b => b = 9 || (32 ≤ b && b ≠ 127) }

def sampleDeployment : Deployment := ⟨fun _ => "k1 ".toList, fun _ => none⟩

def sampleReference : SecretRef := ⟨"KEY".toList, [], "Bearer ".toList⟩

/-- A connector with one route and one secret header. -/
def sampleRaw (secret : String) : ConnectorConfig :=
  ⟨"weather".toList, "https://source.test".toList,
    [⟨"GET".toList, "/v1".toList, ["q".toList], ["accept".toList], ["etag".toList], true, 0,
      ⟨0, [], [], []⟩⟩],
    [(secret.toList, sampleReference)], ⟨false, false, false⟩, ⟨0, 0, 0, 0, 0, 0⟩, 1, ⟨0, 0⟩⟩

def sampleOf (secret : String) : ConnectorConfig :=
  { sampleRaw secret with
    limits := ⟨10000, 262144, 4194304, 4, 64, 65536⟩
    circuitBreaker := ⟨3, 30000⟩ }

def keyedConnector : GatewayConnector sampleWire sampleDeployment where
  config := sampleOf "x-api-key"
  secretHeaders := [("x-api-key".toList, GoJson.utf8 "Bearer k1".toList)]
  normalized := ⟨sampleRaw "X-API-Key", by decide +kernel⟩
  resolved := by decide +kernel

def agentConnector : GatewayConnector sampleWire sampleDeployment where
  config := sampleOf "user-agent"
  secretHeaders := [("user-agent".toList, GoJson.utf8 "Bearer k1".toList)]
  normalized := ⟨sampleRaw "User-Agent", by decide +kernel⟩
  resolved := by decide +kernel

def sampleRequest : ConnectorRequest :=
  ⟨1, "GET".toList, "/v1/points".toList, [("q".toList, "1".toList)],
    [("Accept".toList, "text/plain".toList)], none⟩

def samplePrepared : PreparedRequest :=
  ⟨"GET".toList, "/v1/points".toList, [("q".toList, "1".toList)],
    [("accept".toList, "text/plain".toList)], []⟩

def sampleRule : RouteRule :=
  ⟨"GET".toList, "/v1".toList, ["q".toList], ["accept".toList], ["etag".toList], true, 0,
    ⟨0, [], [], []⟩⟩

theorem filters_iff_keyed :
    keyedConnector.Filters sampleRequest samplePrepared sampleRule ↔
      "user-agent".toList ∉ keyedConnector.config.secretHeaders.map Prod.fst :=
  filters_iff keyedConnector (by decide +kernel)

/-- The user agent of a connector is not sent. -/
theorem filters_not_agent :
    ¬ ∀ (lib : WireLibrary) (deployment : Deployment) (c : GatewayConnector lib deployment)
      (input : ConnectorRequest) (prepared : PreparedRequest) (rule : RouteRule),
      c.prepare input = .ok (prepared, rule) → c.Filters input prepared rule := by
  intro h
  have hfilters := h sampleWire sampleDeployment agentConnector sampleRequest samplePrepared
    sampleRule (by decide +kernel)
  have hvalue := hfilters.sent.secrets _ List.mem_cons_self
  exact absurd hvalue (by decide +kernel)

end Filtering

end Atlas.SourceGateway
