import Atlas.Cli.PluginCatalog
import Atlas.Lib.Highest
import Atlas.Lib.Results
import Atlas.Proofs.ConnectorAgreement

/-!
# The short list of candidates and the complete one

An update is planned from a list that stops at the first compatible release. It is the one that is
planned from all the releases: the highest of those that are compatible and not revoked, above the
release in use or, when that one is revoked, other than it.
-/

namespace Atlas.Cli

open Highest Results

section Order

theorem digit_lt {c : CodePoint} (hc : isDigit c = true) : digit c < 10 := by
  cases c with
  | scalar c =>
    simp only [isDigit, CodePoint.satisfies, Char.isDigit, Bool.and_eq_true,
      decide_eq_true_eq] at hc
    have h := UInt32.le_iff_toNat_le.1 hc.2
    show c.toNat - 48 < 10
    change c.toNat ≤ 57 at h
    omega
  | lone s => simp [isDigit, CodePoint.satisfies] at hc

theorem digit_injective {c d : CodePoint} (hc : isDigit c = true) (hd : isDigit d = true)
    (h : digit c = digit d) : c = d := by
  cases c with
  | lone s => simp [isDigit, CodePoint.satisfies] at hc
  | scalar c =>
    cases d with
    | lone s => simp [isDigit, CodePoint.satisfies] at hd
    | scalar d =>
      simp only [isDigit, CodePoint.satisfies, Char.isDigit, Bool.and_eq_true,
        decide_eq_true_eq] at hc hd
      have hc' := UInt32.le_iff_toNat_le.1 hc.1
      have hd' := UInt32.le_iff_toNat_le.1 hd.1
      change 48 ≤ c.toNat at hc'
      change 48 ≤ d.toNat at hd'
      change c.toNat - 48 = d.toNat - 48 at h
      exact congrArg _ (Char.toNat_inj.1 (by omega))

theorem versionPart_digits {part : JsString} (h : versionPart part = true) :
    ∀ c ∈ part, isDigit c = true := by
  simp only [versionPart, Bool.or_eq_true, decide_eq_true_eq, Bool.and_eq_true,
    List.all_eq_true] at h
  rcases h with rfl | ⟨-, hall⟩
  · decide
  · exact hall

/-- A part other than `0` has no zero in front. -/
theorem versionPart_cases {part : JsString} (h : versionPart part = true) :
    part = text "0" ∨ part ≠ [] ∧ Decimals.Leading digit part := by
  have hdigits := versionPart_digits h
  simp only [versionPart, Bool.or_eq_true, decide_eq_true_eq, Bool.and_eq_true] at h
  rcases h with rfl | ⟨hhead, -⟩
  · exact .inl rfl
  · refine .inr ⟨?_, fun c hc => digit_lt (hdigits c hc), fun c hc hzero => ?_⟩
    · rintro rfl
      simp at hhead
    · rw [Option.mem_def] at hc
      rw [hc] at hhead
      simp only [Option.any_some, Bool.and_eq_true, decide_eq_true_eq] at hhead
      exact hhead.2 (digit_injective hhead.1 (by decide) (by rw [hzero]; rfl))

theorem value_ne_zero {part : JsString} (hne : part ≠ [])
    (h : Decimals.Leading digit part) : Decimals.value digit part ≠ 0 := by
  intro hzero
  have := h.digits_value
  rw [hzero, Nat.digits_zero, eq_comm, List.map_eq_nil_iff, List.reverse_eq_nil_iff] at this
  exact hne this

theorem value_part_injective {p q : JsString} (hp : versionPart p = true)
    (hq : versionPart q = true) (h : Decimals.value digit p = Decimals.value digit q) : p = q := by
  have hzero : Decimals.value digit (text "0") = 0 := rfl
  have hdp := versionPart_digits hp
  have hdq := versionPart_digits hq
  rcases versionPart_cases hp with rfl | ⟨hpne, hpl⟩
  · rcases versionPart_cases hq with rfl | ⟨hqne, hql⟩
    · rfl
    · exact absurd (h.symm.trans hzero) (value_ne_zero hqne hql)
  · rcases versionPart_cases hq with rfl | ⟨hqne, hql⟩
    · exact absurd (h.trans hzero) (value_ne_zero hpne hpl)
    · exact Decimals.value_injective hpl hql
        (fun a ha b hb => digit_injective (hdp a ha) (hdq b hb)) h

theorem Version.split (v : Version) : ∃ major minor patch,
    v.val.splitOn (.scalar '.') = [major, minor, patch] ∧ versionPart major = true
      ∧ versionPart minor = true ∧ versionPart patch = true := by
  have h := v.accepted.2
  unfold versionPattern at h
  split at h
  · rename_i major minor patch hsplit
    simp only [Bool.and_eq_true] at h
    exact ⟨major, minor, patch, hsplit, h.1.1, h.1.2, h.2⟩
  · cases h

theorem Version.length_parts (v : Version) : v.parts.length = 3 := by
  obtain ⟨major, minor, patch, hsplit, -⟩ := v.split
  simp [Version.parts, hsplit]

theorem Version.parts_injective : Function.Injective Version.parts := by
  intro v w h
  obtain ⟨a, b, c, hv, ha, hb, hc⟩ := v.split
  obtain ⟨a', b', c', hw, ha', hb', hc'⟩ := w.split
  unfold Version.parts at h
  rw [hv, hw] at h
  simp only [List.map_cons, List.map_nil, List.cons.injEq, and_true] at h
  have hsplit : v.val.splitOn (.scalar '.') = w.val.splitOn (.scalar '.') := by
    rw [hv, hw, value_part_injective ha ha' h.1, value_part_injective hb hb' h.2.1,
      value_part_injective hc hc' h.2.2]
  apply Version.ext
  calc v.val = [CodePoint.scalar '.'].intercalate (v.val.splitOn (.scalar '.')) :=
        (List.intercalate_splitOn _).symm
    _ = w.val := by rw [hsplit, List.intercalate_splitOn]

/-- The order of semantic versions. -/
instance : PartialOrder Version := PartialOrder.lift Version.parts Version.parts_injective

theorem Version.le_or_lt (v w : Version) : v ≤ w ∨ w < v := le_or_gt v.parts w.parts

theorem compareParts_pos : ∀ {s t : List ℕ}, s.length = t.length → (0 < compareParts s t ↔ t < s)
  | [], [], _ => by simp [compareParts]
  | a :: as, b :: bs, h => by
    have ih := compareParts_pos (Nat.succ.inj h)
    unfold compareParts
    rw [List.cons_lt_cons_iff]
    split_ifs with hne hlt
    · exact ⟨fun _ => .inl hlt, fun _ => by norm_num⟩
    · refine ⟨fun h => absurd h (by norm_num), ?_⟩
      rintro (hba | ⟨heq, -⟩)
      · exact absurd hba hlt
      · exact absurd heq.symm hne
    · have heq : a = b := not_not.1 hne
      rw [ih]
      exact ⟨fun h => .inr ⟨heq.symm, h⟩, fun h => (h.resolve_left (by omega)).2⟩

@[simp]
theorem compareSemver_pos {v w : Version} : 0 < compareSemver v w ↔ w < v :=
  compareParts_pos (v.length_parts.trans w.length_parts.symm)

@[simp]
theorem compareSemver_nonpos {v w : Version} : compareSemver v w ≤ 0 ↔ v ≤ w := by
  rw [← not_lt, compareSemver_pos]
  exact ⟨fun h => (v.le_or_lt w).resolve_right h,
    fun h hlt => absurd (hlt.trans_le h) (lt_irrefl w)⟩

end Order

section Accepted

@[simp]
theorem check_eq_ok {passes : Bool} {message : String} {u : Unit} :
    check passes message = .ok u ↔ passes = true := by
  cases passes <;> simp [check]

/-- A catalog that was accepted: no plugin and no version of one is in it twice. -/
structure AcceptedPlugin (plugin : PluginCatalogPlugin) : Prop where
  owned : ∀ release ∈ plugin.releases, release.pluginId = plugin.pluginId
  distinct : (plugin.releases.map PluginCatalogRelease.version).Nodup

theorem catalogReleaseValue_ok {raw : Json} {pluginId : JsString} {i : ℕ} {seen : List Version}
    {release : PluginCatalogRelease}
    (h : catalogReleaseValue raw pluginId i seen = .ok release) :
    release.pluginId = pluginId ∧ release.version ∉ seen := by
  simp only [catalogReleaseValue, bind_eq_ok, check_eq_ok, pure_eq_ok, decide_eq_true_eq,
    exists_const] at h
  obtain ⟨-, -, version, -, hseen, -, -, -, -, -, -, -, -, -, -, -, -, rfl⟩ := h
  exact ⟨rfl, hseen⟩

theorem catalogReleaseValues_ok {pluginId : JsString} : ∀ {raws : List Json} {i : ℕ}
    {seen : List Version} {releases : List PluginCatalogRelease},
    catalogReleaseValues pluginId raws i seen = .ok releases →
      (∀ release ∈ releases, release.pluginId = pluginId ∧ release.version ∉ seen)
        ∧ (releases.map PluginCatalogRelease.version).Nodup
  | [], i, seen, releases, h => by
    simp only [catalogReleaseValues, pure_eq_ok] at h
    subst h
    simp
  | raw :: raws, i, seen, releases, h => by
    simp only [catalogReleaseValues, bind_eq_ok, pure_eq_ok] at h
    obtain ⟨release, hrelease, rest, hrest, rfl⟩ := h
    obtain ⟨howned, hfresh⟩ := catalogReleaseValue_ok hrelease
    obtain ⟨hall, hnodup⟩ := catalogReleaseValues_ok hrest
    constructor
    · intro r hr
      rcases List.mem_cons.1 hr with rfl | hr
      · exact ⟨howned, hfresh⟩
      · exact ⟨(hall r hr).1, fun hmem => (hall r hr).2 (List.mem_cons_of_mem _ hmem)⟩
    · refine List.nodup_cons.2 ⟨fun hmem => ?_, hnodup⟩
      obtain ⟨r, hr, heq⟩ := List.mem_map.1 hmem
      exact (hall r hr).2 (heq ▸ List.mem_cons_self)

theorem catalogPluginValue_ok {entry : Json} {i : ℕ} {seen : List JsString}
    {plugin : PluginCatalogPlugin} (h : catalogPluginValue entry i seen = .ok plugin) :
    plugin.pluginId ∉ seen ∧ AcceptedPlugin plugin := by
  simp only [catalogPluginValue, bind_eq_ok, check_eq_ok, pure_eq_ok, decide_eq_true_eq,
    exists_const] at h
  obtain ⟨item, -, pluginId, -, hseen, values, -, -, releases, hreleases, rfl⟩ := h
  obtain ⟨hall, hnodup⟩ := catalogReleaseValues_ok hreleases
  exact ⟨hseen, fun r hr => (hall r hr).1, hnodup⟩

theorem catalogPluginValues_ok : ∀ {entries : List Json} {i : ℕ} {seen : List JsString}
    {plugins : List PluginCatalogPlugin}, catalogPluginValues entries i seen = .ok plugins →
      (∀ plugin ∈ plugins, plugin.pluginId ∉ seen ∧ AcceptedPlugin plugin)
        ∧ (plugins.map PluginCatalogPlugin.pluginId).Nodup
  | [], i, seen, plugins, h => by
    simp only [catalogPluginValues, pure_eq_ok] at h
    subst h
    simp
  | entry :: entries, i, seen, plugins, h => by
    simp only [catalogPluginValues, bind_eq_ok, pure_eq_ok] at h
    obtain ⟨plugin, hplugin, rest, hrest, rfl⟩ := h
    obtain ⟨hfresh, hok⟩ := catalogPluginValue_ok hplugin
    obtain ⟨hall, hnodup⟩ := catalogPluginValues_ok hrest
    constructor
    · intro p hp
      rcases List.mem_cons.1 hp with rfl | hp
      · exact ⟨hfresh, hok⟩
      · exact ⟨fun hmem => (hall p hp).1 (List.mem_cons_of_mem _ hmem), (hall p hp).2⟩
    · refine List.nodup_cons.2 ⟨fun hmem => ?_, hnodup⟩
      obtain ⟨p, hp, heq⟩ := List.mem_map.1 hmem
      exact (hall p hp).1 (heq ▸ List.mem_cons_self)

theorem catalogPlugins_ok {value : Json} {catalog : List PluginCatalogPlugin}
    (h : catalogPlugins value = .ok catalog) :
    (∀ plugin ∈ catalog, AcceptedPlugin plugin)
      ∧ (catalog.map PluginCatalogPlugin.pluginId).Nodup := by
  simp only [catalogPlugins, bind_eq_ok, check_eq_ok, exists_const] at h
  obtain ⟨entries, -, -, hentries⟩ := h
  obtain ⟨hall, hnodup⟩ := catalogPluginValues_ok hentries
  exact ⟨fun p hp => (hall p hp).2, hnodup⟩

end Accepted

section Listing

variable (services : Services) (catalog : List PluginCatalogPlugin) (pluginId : JsString)

/-- The release is one of the plugin in the catalog. -/
def Listed (release : PluginCatalogRelease) : Prop :=
  ∃ plugin ∈ catalog, plugin.pluginId = pluginId ∧ release ∈ plugin.releases

/-- The release in use is revoked. -/
def Revoked (current : Version) : Prop :=
  ∃ release, Listed catalog pluginId release ∧ release.version = current ∧ release.revoked = true

open scoped Classical in
/-- What an update may be to: a release of the catalog with its document, compatible, not revoked,
and newer, or other than a release in use that is revoked. -/
structure Eligible (contracts : PluginContracts) (current : Version)
    (candidate : PluginReleaseCandidate) : Prop where
  listed : Listed catalog pluginId candidate.catalog
  document : downloadCandidate services pluginId candidate.catalog = .ok candidate
  compatible : isCompatible candidate.release contracts = true
  notRevoked : candidate.catalog.revoked = false
  wanted : if Revoked catalog pluginId current then candidate.catalog.version ≠ current
    else current < candidate.catalog.version

/-- The version a candidate would be an update to. -/
def updateVersion (candidate : PluginReleaseCandidate) : Version := candidate.catalog.version

/-- A candidate of the list: its release is one of the catalog and is what the catalog says. -/
structure Offered (candidate : PluginReleaseCandidate) : Prop where
  listed : Listed catalog pluginId candidate.catalog
  describes : candidate.catalog.describes pluginId candidate.release = true

variable {services catalog pluginId}

theorem Offered.pluginId_eq {c : PluginReleaseCandidate} (h : Offered catalog pluginId c) :
    c.release.pluginId = pluginId := by
  have := h.describes
  simp only [PluginCatalogRelease.describes, Bool.and_eq_true, decide_eq_true_eq] at this
  exact this.1.1

theorem Offered.version_eq {c : PluginReleaseCandidate} (h : Offered catalog pluginId c) :
    c.release.version = c.catalog.version := by
  have := h.describes
  simp only [PluginCatalogRelease.describes, Bool.and_eq_true, decide_eq_true_eq] at this
  exact this.1.2

theorem downloadCandidate_ok {release : PluginCatalogRelease} {c : PluginReleaseCandidate}
    (h : downloadCandidate services pluginId release = .ok c) :
    c.catalog = release ∧ release.describes pluginId c.release = true := by
  simp only [downloadCandidate, bind_eq_ok, check_eq_ok, pure_eq_ok, exists_const] at h
  obtain ⟨bytes, -, -, document, -, hdescribes, rfl⟩ := h
  exact ⟨rfl, hdescribes⟩

theorem candidateFromRelease_ok {release : PluginCatalogRelease} {retained : PluginRelease}
    {c : PluginReleaseCandidate}
    (h : candidateFromRelease services pluginId release retained = .ok c) :
    c.catalog = release ∧ release.describes pluginId c.release = true := by
  simp only [candidateFromRelease, bind_eq_ok, check_eq_ok, pure_eq_ok, exists_const,
    Bool.and_eq_true] at h
  obtain ⟨document, -, ⟨hdescribes, -⟩, rfl⟩ := h
  exact ⟨rfl, hdescribes⟩

theorem offered_of_download {release : PluginCatalogRelease} {c : PluginReleaseCandidate}
    (hlisted : Listed catalog pluginId release)
    (h : downloadCandidate services pluginId release = .ok c) : Offered catalog pluginId c := by
  obtain ⟨rfl, hdescribes⟩ := downloadCandidate_ok h
  exact ⟨hlisted, hdescribes⟩

variable {value : Json} (hcatalog : catalogPlugins value = .ok catalog)
include hcatalog

theorem Listed.owned {release : PluginCatalogRelease} (h : Listed catalog pluginId release) :
    release.pluginId = pluginId := by
  obtain ⟨plugin, hplugin, rfl, hrelease⟩ := h
  exact ((catalogPlugins_ok hcatalog).1 plugin hplugin).owned release hrelease

theorem Listed.eq_of_version {a b : PluginCatalogRelease} (ha : Listed catalog pluginId a)
    (hb : Listed catalog pluginId b) (h : a.version = b.version) : a = b := by
  obtain ⟨p, hp, rfl, hap⟩ := ha
  obtain ⟨q, hq, hpq, hbq⟩ := hb
  obtain ⟨hall, hnodup⟩ := catalogPlugins_ok hcatalog
  obtain rfl := List.inj_on_of_nodup_map hnodup hq hp hpq
  exact List.inj_on_of_nodup_map (hall q hq).distinct hap hbq h

theorem find?_listed {plugin : PluginCatalogPlugin}
    (h : catalog.find? (·.pluginId = pluginId) = some plugin) (release : PluginCatalogRelease) :
    Listed catalog pluginId release ↔ release ∈ plugin.releases := by
  have hid : plugin.pluginId = pluginId := by simpa using List.find?_some h
  have hmem := List.mem_of_find?_eq_some h
  constructor
  · rintro ⟨other, hother, hotherId, hrelease⟩
    obtain rfl := List.inj_on_of_nodup_map (catalogPlugins_ok hcatalog).2 hother hmem
      (hotherId.trans hid.symm)
    exact hrelease
  · exact fun hrelease => ⟨plugin, hmem, hid, hrelease⟩

end Listing

section Selection

variable {services : Services} {catalog : List PluginCatalogPlugin} {pluginId : JsString}
  {contracts : PluginContracts}

/-- A list from which the update can be chosen: a revoked release in use is in it, and its
compatible releases reach as high as those of the catalog. -/
structure Covers (services : Services) (catalog : List PluginCatalogPlugin) (pluginId : JsString)
    (contracts : PluginContracts) (current : Version) (cs : List PluginReleaseCandidate) :
    Prop where
  offered : ∀ c ∈ cs, Offered catalog pluginId c
  documents : ∀ c ∈ cs, c.catalog.revoked = false →
    downloadCandidate services pluginId c.catalog = .ok c
  sentinel : Revoked catalog pluginId current →
    ∃ c ∈ cs, c.catalog.version = current ∧ c.catalog.revoked = true
  reaches : ∀ c, Listed catalog pluginId c.catalog →
    downloadCandidate services pluginId c.catalog = .ok c →
    isCompatible c.release contracts = true → c.catalog.revoked = false →
    ∃ b ∈ cs, b.catalog.revoked = false ∧ isCompatible b.release contracts = true
      ∧ updateVersion c ≤ updateVersion b

theorem mem_byVersion {c : PluginReleaseCandidate} {cs : List PluginReleaseCandidate} :
    c ∈ byVersion cs ↔ c ∈ cs := (List.mergeSort_perm _ _).mem_iff

theorem pairwise_byVersion (cs : List PluginReleaseCandidate) :
    (byVersion cs).Pairwise fun a b => b.release.version ≤ a.release.version := by
  have h : (byVersion cs).Pairwise fun left right =>
      decide (compareSemver right.release.version left.release.version ≤ 0) = true :=
    List.pairwise_mergeSort
      (fun a b c hab hbc => by
        simp only [compareSemver_nonpos, decide_eq_true_eq] at hab hbc ⊢
        exact hbc.trans hab)
      (fun a b => by
        simp only [compareSemver_nonpos, Bool.or_eq_true, decide_eq_true_eq]
        exact (b.release.version.le_or_lt a.release.version).imp_right le_of_lt) cs
  exact h.imp fun hab => by simpa using hab

/-- Whether the selection may go below the release in use. -/
def remediation (cs : List PluginReleaseCandidate) (current : Version) (remediateRevoked : Bool) :
    Bool :=
  remediateRevoked
    && ((byVersion cs).find? fun c => decide (c.release.version = current)).any (·.catalog.revoked)

def selectable (current : Version) (remediation : Bool) (c : PluginReleaseCandidate) : Bool :=
  !c.catalog.revoked &&
    if remediation then c.release.version ≠ current
    else 0 < compareSemver c.release.version current

theorem selectPluginRelease_ok {cs : List PluginReleaseCandidate} (current : Version)
    (remediateRevoked : Bool) (hcs : ∀ c ∈ cs, c.matchesCatalog = true) :
    selectPluginRelease cs (some current) remediateRevoked
      = .ok ((byVersion cs).find?
        (selectable current (remediation cs current remediateRevoked))) := by
  unfold selectPluginRelease
  split_ifs with hnil
  · subst hnil
    simp [byVersion]
  · rw [List.all_eq_true.2 hcs]
    rfl

/-- What is left of the candidates before one is selected. -/
def considered (contracts : PluginContracts) (current : PluginRelease)
    (cs : List PluginReleaseCandidate) : List PluginReleaseCandidate :=
  ((cs.filter (·.release.pluginId = current.pluginId)).filter fun c =>
    c.release.version = current.version || isCompatible c.release contracts).filter fun c =>
      !c.catalog.revoked || c.release.version = current.version

theorem mem_considered {current : PluginRelease} {c : PluginReleaseCandidate}
    {cs : List PluginReleaseCandidate} :
    c ∈ considered contracts current cs ↔ c ∈ cs ∧ c.release.pluginId = current.pluginId
      ∧ (c.release.version = current.version ∨ isCompatible c.release contracts = true)
      ∧ (c.catalog.revoked = false ∨ c.release.version = current.version) := by
  simp only [considered, List.mem_filter, decide_eq_true_eq, Bool.or_eq_true, Bool.not_eq_true',
    and_assoc]

variable {value : Json} (hcatalog : catalogPlugins value = .ok catalog)
  {current : PluginRelease} (hcurrent : current.pluginId = pluginId)
  {cs : List PluginReleaseCandidate}
  (h : Covers services catalog pluginId contracts current.version cs)
include h

theorem Covers.revoked_any :
    (cs.any fun c => c.release.pluginId = pluginId && c.release.version = current.version
      && c.catalog.revoked) = true ↔ Revoked catalog pluginId current.version := by
  simp only [List.any_eq_true, Bool.and_eq_true, decide_eq_true_eq]
  constructor
  · rintro ⟨c, hc, ⟨-, hversion⟩, hrevoked⟩
    have hoffered := h.offered c hc
    exact ⟨c.catalog, hoffered.listed, hoffered.version_eq.symm.trans hversion, hrevoked⟩
  · intro hrevoked
    obtain ⟨c, hc, hversion, hrev⟩ := h.sentinel hrevoked
    have hoffered := h.offered c hc
    exact ⟨c, hc, ⟨hoffered.pluginId_eq, hoffered.version_eq.trans hversion⟩, hrev⟩

include hcatalog

theorem Covers.matchesCatalog {c : PluginReleaseCandidate} (hc : c ∈ cs) :
    c.matchesCatalog = true := by
  have hoffered := h.offered c hc
  unfold PluginReleaseCandidate.matchesCatalog
  rw [hoffered.listed.owned hcatalog]
  exact hoffered.describes

include hcurrent

/-- The remediation is what the catalog says of the release in use. -/
theorem Covers.remediation {remediateRevoked : Bool}
    (hrem : remediateRevoked = true ↔ Revoked catalog pluginId current.version) :
    remediation (considered contracts current cs) current.version remediateRevoked = true
      ↔ Revoked catalog pluginId current.version := by
  unfold Cli.remediation
  rw [Bool.and_eq_true, hrem, and_iff_left_iff_imp]
  rintro ⟨release, hlisted, hversion, hrevoked⟩
  obtain ⟨c, hc, hcversion, hcrevoked⟩ := h.sentinel ⟨release, hlisted, hversion, hrevoked⟩
  have hcurrentVersion := (h.offered c hc).version_eq.trans hcversion
  have hconsidered : c ∈ byVersion (considered contracts current cs) :=
    mem_byVersion.2 (mem_considered.2 ⟨hc, (h.offered c hc).pluginId_eq.trans hcurrent.symm,
      .inl hcurrentVersion, .inr hcurrentVersion⟩)
  -- whichever of that version is found first, it is of the one release
  cases hfind : (byVersion (considered contracts current cs)).find? fun c =>
      decide (c.release.version = current.version) with
  | none => simpa [hcurrentVersion] using List.find?_eq_none.1 hfind c hconsidered
  | some d =>
    have hd := (mem_considered.1 (mem_byVersion.1 (List.mem_of_find?_eq_some hfind))).1
    have hdversion : d.release.version = current.version := by simpa using List.find?_some hfind
    have hsame : d.catalog = release := (h.offered d hd).listed.eq_of_version hcatalog hlisted
      ((h.offered d hd).version_eq.symm.trans (hdversion.trans hversion.symm))
    rw [Option.any_some, hsame, hrevoked]

/-- From a list that covers the catalog the highest eligible release is chosen. -/
theorem Covers.pickUpdate {remediateRevoked : Bool}
    (hrem : remediateRevoked = true ↔ Revoked catalog pluginId current.version) :
    ∃ chosen, pickUpdate contracts current cs remediateRevoked = .ok chosen
      ∧ IsHighest updateVersion {c | Eligible services catalog pluginId contracts current.version c}
        chosen := by
  have hsub : ∀ c ∈ considered contracts current cs, c ∈ cs := fun c hc =>
    (mem_considered.1 hc).1
  have hremediation := h.remediation hcatalog hcurrent hrem
  refine ⟨_, selectPluginRelease_ok current.version remediateRevoked
    fun c hc => h.matchesCatalog hcatalog (hsub c hc), ?_⟩
  -- a candidate is selectable when the catalog says that it is wanted
  have hselectable : ∀ c ∈ cs,
      selectable current.version
          (Cli.remediation (considered contracts current cs) current.version remediateRevoked) c
          = true
        ↔ c.catalog.revoked = false
          ∧ (open scoped Classical in if Revoked catalog pluginId current.version then
              c.catalog.version ≠ current.version else current.version < c.catalog.version) := by
    intro c hc
    unfold selectable
    rw [Bool.and_eq_true, Bool.not_eq_true', (h.offered c hc).version_eq]
    by_cases hrevoked : Revoked catalog pluginId current.version
    · simp [hremediation.2 hrevoked, hrevoked]
    · simp [mt hremediation.1 hrevoked, hrevoked]
  have hpairwise : (byVersion (considered contracts current cs)).Pairwise fun a b =>
      updateVersion b ≤ updateVersion a :=
    (pairwise_byVersion _).imp_of_mem fun ha hb hle => by
      have ha := h.offered _ (hsub _ (mem_byVersion.1 ha))
      have hb := h.offered _ (hsub _ (mem_byVersion.1 hb))
      unfold updateVersion
      rwa [← ha.version_eq, ← hb.version_eq]
  refine (isHighest_find? hpairwise).of_subset ?_ ?_
  · rintro c ⟨hmem, hselect⟩
    obtain ⟨hc, -, hcompatible, -⟩ := mem_considered.1 (mem_byVersion.1 hmem)
    obtain ⟨hnot, hwanted⟩ := (hselectable c hc).1 hselect
    refine ⟨(h.offered c hc).listed, h.documents c hc hnot, hcompatible.resolve_left ?_, hnot,
      hwanted⟩
    -- the release in use is not wanted
    rw [(h.offered c hc).version_eq]
    intro heq
    split_ifs at hwanted
    · exact hwanted heq
    · exact lt_irrefl _ (heq ▸ hwanted)
  · intro c hc
    obtain ⟨b, hb, hbnot, hbcompatible, hle⟩ :=
      h.reaches c hc.listed hc.document hc.compatible hc.notRevoked
    refine ⟨b, ⟨mem_byVersion.2 (mem_considered.2 ⟨hb,
      (h.offered b hb).pluginId_eq.trans hcurrent.symm, .inr hbcompatible, .inl hbnot⟩),
      (hselectable b hb).2 ⟨hbnot, ?_⟩⟩, hle⟩
    have hwanted := hc.wanted
    split_ifs at hwanted ⊢ with hrevoked
    · obtain ⟨release, hlisted, hversion, hrev⟩ := hrevoked
      intro heq
      -- the release in use is revoked, and the one that was found is not
      rw [(h.offered b hb).listed.eq_of_version hcatalog hlisted (heq.trans hversion.symm),
        hrev] at hbnot
      cases hbnot
    · exact hwanted.trans_le hle

end Selection

section Lists

variable (services : Services) {catalog : List PluginCatalogPlugin} (pluginId : JsString)
  (contracts : PluginContracts)

/-- Without options every release is a candidate. -/
theorem releaseCandidates_all : ∀ {releases : List PluginCatalogRelease},
    (∀ r ∈ releases, ∃ c, downloadCandidate services pluginId r = .ok c) →
      ∃ cs, releaseCandidates services pluginId none none none none releases = .ok cs
        ∧ ∀ c, c ∈ cs ↔ ∃ r ∈ releases, downloadCandidate services pluginId r = .ok c
  | [], _ => ⟨[], rfl, by simp⟩
  | r :: releases, h => by
    obtain ⟨c, hc⟩ := h r List.mem_cons_self
    obtain ⟨cs, hcs, hmem⟩ := releaseCandidates_all fun r hr => h r (List.mem_cons_of_mem _ hr)
    refine ⟨c :: cs, ?_, fun d => ?_⟩
    · simp [releaseCandidates, hc, hcs, bind, Except.bind, pure, Except.pure]
    · rw [List.mem_cons, hmem, List.exists_mem_cons_iff, hc, Except.ok.injEq, eq_comm]

/-- With contracts the loop stops at the first release that is compatible and not revoked. -/
theorem releaseCandidates_first (currentVersion : Version)
    {currentRevoked : Option PluginCatalogRelease}
    (hrevoked : ∀ r ∈ currentRevoked, r.revoked = true) :
    ∀ {releases : List PluginCatalogRelease},
      releases.Pairwise (fun a b => b.version ≤ a.version) →
      (∀ r ∈ releases, ∃ c, downloadCandidate services pluginId r = .ok c) →
        ∃ cs, releaseCandidates services pluginId none (some currentVersion) (some contracts)
            currentRevoked releases = .ok cs
          ∧ (∀ c ∈ cs, ∃ r ∈ releases, r.revoked = false
            ∧ downloadCandidate services pluginId r = .ok c)
          ∧ ∀ r ∈ releases, r.revoked = false → ∀ c,
            downloadCandidate services pluginId r = .ok c →
            isCompatible c.release contracts = true →
            ∃ b ∈ cs, isCompatible b.release contracts = true ∧ r.version ≤ updateVersion b
  | [], _, _ => ⟨[], rfl, by simp, by simp⟩
  | r :: releases, hsorted, hdownload => by
    obtain ⟨hr, hsorted⟩ := List.pairwise_cons.1 hsorted
    obtain ⟨cs, hcs, hfrom, hreach⟩ := releaseCandidates_first currentVersion hrevoked hsorted
      fun r hr => hdownload r (List.mem_cons_of_mem _ hr)
    -- when the release is passed over, the rest of the list does
    have hskip : (r.revoked = false → ∀ c, downloadCandidate services pluginId r = .ok c →
        isCompatible c.release contracts = false) →
        (∀ c ∈ cs, ∃ r' ∈ r :: releases, r'.revoked = false
            ∧ downloadCandidate services pluginId r' = .ok c)
          ∧ ∀ r' ∈ r :: releases, r'.revoked = false → ∀ c,
            downloadCandidate services pluginId r' = .ok c →
            isCompatible c.release contracts = true →
            ∃ b ∈ cs, isCompatible b.release contracts = true ∧ r'.version ≤ updateVersion b := by
      intro hno
      constructor
      · intro c hc
        obtain ⟨r', hr', hfrom⟩ := hfrom c hc
        exact ⟨r', List.mem_cons_of_mem _ hr', hfrom⟩
      · intro r' hr' hnot c hc hcompatible
        rcases List.mem_cons.1 hr' with rfl | hr'
        · rw [hno hnot c hc] at hcompatible
          cases hcompatible
        · exact hreach r' hr' hnot c hc hcompatible
    unfold releaseCandidates
    simp only [Option.any_none, Bool.false_eq_true, if_false, Option.isSome_some,
      Option.isSome_none, Bool.true_or, Bool.or_true, Bool.and_true, Option.any_some, if_true]
    split_ifs with hcurrent hrev
    · exact ⟨cs, hcs, hskip fun hnot => absurd (hrevoked r hcurrent) (by simp [hnot])⟩
    · exact ⟨cs, hcs, hskip fun hnot => absurd hrev (by simp [hnot])⟩
    · obtain ⟨c, hc⟩ := hdownload r List.mem_cons_self
      have hcatalog := (downloadCandidate_ok hc).1
      rw [hc]
      simp only [bind, Except.bind]
      split_ifs with hcompatible
      · refine ⟨cs, hcs, hskip fun _ d hd => ?_⟩
        rw [hc] at hd
        obtain rfl := Except.ok.inj hd
        simpa using hcompatible
      · have hcompatible : isCompatible c.release contracts = true := by simpa using hcompatible
        have hnot : r.revoked = false := by simpa using hrev
        refine ⟨[c], rfl, ?_, fun r' hr' _ _ _ _ => ⟨c, List.mem_singleton_self c, hcompatible, ?_⟩⟩
        · intro d hd
          rw [List.mem_singleton.1 hd]
          exact ⟨r, List.mem_cons_self, hnot, hc⟩
        · unfold updateVersion
          rw [hcatalog]
          rcases List.mem_cons.1 hr' with rfl | hr'
          · exact le_rfl
          · exact hr r' hr'

theorem validateVersion_val (v : Version) (name : String) : validateVersion v.val name = .ok v := by
  unfold validateVersion semverValue stringValue
  simp only [check, decide_eq_true v.accepted.1, if_true]
  exact dif_pos v.accepted

/-- The releases of a plugin, the highest version first. -/
def sortedReleases (releases : List PluginCatalogRelease) : List PluginCatalogRelease :=
  releases.mergeSort fun left right => comparePluginVersions right.version left.version ≤ 0

theorem mem_sortedReleases {r : PluginCatalogRelease} {releases : List PluginCatalogRelease} :
    r ∈ sortedReleases releases ↔ r ∈ releases := (List.mergeSort_perm _ _).mem_iff

theorem pairwise_sortedReleases (releases : List PluginCatalogRelease) :
    (sortedReleases releases).Pairwise fun a b => b.version ≤ a.version := by
  have h : (sortedReleases releases).Pairwise fun left right =>
      decide (comparePluginVersions right.version left.version ≤ 0) = true :=
    List.pairwise_mergeSort
      (fun a b c hab hbc => by
        simp only [comparePluginVersions, compareSemver_nonpos, decide_eq_true_eq] at hab hbc ⊢
        exact hbc.trans hab)
      (fun a b => by
        simp only [comparePluginVersions, compareSemver_nonpos, Bool.or_eq_true, decide_eq_true_eq]
        exact (b.version.le_or_lt a.version).imp_right le_of_lt) releases
  exact h.imp fun hab => by simpa [comparePluginVersions] using hab

variable {value : Json} (hcatalog : catalogPlugins value = .ok catalog)
  (hdownload : ∀ r, Listed catalog pluginId r →
    ∃ c, downloadCandidate services pluginId r = .ok c)
include hcatalog hdownload

theorem candidates_complete : ∃ full, candidates services catalog pluginId {} = .ok full
    ∧ ∀ current, Covers services catalog pluginId contracts current full := by
  unfold candidates
  cases hfind : catalog.find? (·.pluginId = pluginId) with
  | none =>
    have hnone : ∀ r, ¬Listed catalog pluginId r := by
      rintro r ⟨plugin, hplugin, hid, -⟩
      simpa [hid] using List.find?_eq_none.1 hfind plugin hplugin
    refine ⟨[], rfl, fun current => ⟨by simp, by simp, ?_, ?_⟩⟩
    · rintro ⟨r, hr, -⟩
      exact absurd hr (hnone r)
    · exact fun c hc => absurd hc (hnone _)
  | some plugin =>
    have hlisted := find?_listed hcatalog hfind
    obtain ⟨cs, hcs, hmem⟩ := releaseCandidates_all services pluginId
      fun r (hr : r ∈ sortedReleases plugin.releases) =>
        hdownload r ((hlisted r).2 (mem_sortedReleases.1 hr))
    have hfrom : ∀ c ∈ cs, Listed catalog pluginId c.catalog
        ∧ downloadCandidate services pluginId c.catalog = .ok c := by
      intro c hc
      obtain ⟨r, hr, hok⟩ := (hmem c).1 hc
      rw [(downloadCandidate_ok hok).1]
      exact ⟨(hlisted r).2 (mem_sortedReleases.1 hr), hok⟩
    have hto : ∀ r c, Listed catalog pluginId r → downloadCandidate services pluginId r = .ok c →
        c ∈ cs := fun r c hr hok =>
      (hmem c).2 ⟨r, mem_sortedReleases.2 ((hlisted r).1 hr), hok⟩
    refine ⟨cs, ?_, fun current => ⟨fun c hc => ?_, fun c hc _ => (hfrom c hc).2, ?_, ?_⟩⟩
    · show (releaseCandidates services pluginId none none none none
        (sortedReleases plugin.releases) >>= fun rest => pure ([] ++ rest)) = _
      rw [hcs]
      rfl
    · exact offered_of_download (hfrom c hc).1 (hfrom c hc).2
    · rintro ⟨r, hr, hversion, hrevoked⟩
      obtain ⟨c, hc⟩ := hdownload r hr
      refine ⟨c, hto r c hr hc, ?_⟩
      rw [(downloadCandidate_ok hc).1]
      exact ⟨hversion, hrevoked⟩
    · exact fun c hc hok hcompatible hnot =>
        ⟨c, hto _ c hc hok, hnot, hcompatible, le_rfl⟩

theorem candidates_short (current : Version) {currentRelease : Option PluginRelease}
    (hretained : ∀ retained ∈ currentRelease, ∀ r, Listed catalog pluginId r →
      r.version = current → r.revoked = true →
      ∃ c, candidateFromRelease services pluginId r retained = .ok c) :
    ∃ short, candidates services catalog pluginId ⟨none, some current.val, some contracts,
        currentRelease⟩ = .ok short
      ∧ Covers services catalog pluginId contracts current short := by
  unfold candidates
  cases hfind : catalog.find? (·.pluginId = pluginId) with
  | none =>
    have hnone : ∀ r, ¬Listed catalog pluginId r := by
      rintro r ⟨plugin, hplugin, hid, -⟩
      simpa [hid] using List.find?_eq_none.1 hfind plugin hplugin
    refine ⟨[], rfl, by simp, by simp, ?_, ?_⟩
    · rintro ⟨r, hr, -⟩
      exact absurd hr (hnone r)
    · exact fun c hc => absurd hc (hnone _)
  | some plugin =>
    have hlisted := find?_listed hcatalog hfind
    have hsorted : ∀ r, r ∈ sortedReleases plugin.releases ↔ Listed catalog pluginId r :=
      fun r => mem_sortedReleases.trans (hlisted r).symm
    -- what is found for the release in use
    obtain ⟨currentRevoked, hcurrentRevoked⟩ : ∃ x, (sortedReleases plugin.releases).find?
        (fun release => release.version = current && release.revoked) = x := ⟨_, rfl⟩
    have hrevoked : ∀ r ∈ currentRevoked, Listed catalog pluginId r ∧ r.version = current
        ∧ r.revoked = true := by
      intro r hr
      rw [Option.mem_def] at hr
      rw [hr] at hcurrentRevoked
      have := List.find?_some hcurrentRevoked
      rw [Bool.and_eq_true, decide_eq_true_eq] at this
      exact ⟨(hsorted r).1 (List.mem_of_find?_eq_some hcurrentRevoked), this⟩
    obtain ⟨sentinel, hsentinel, hsent, hsome⟩ : ∃ sentinel,
        currentCandidates services pluginId none currentRevoked currentRelease = .ok sentinel
          ∧ (∀ c ∈ sentinel, c.catalog ∈ currentRevoked
            ∧ c.catalog.describes pluginId c.release = true)
          ∧ ∀ r ∈ currentRevoked, ∃ c ∈ sentinel, c.catalog = r := by
      cases currentRevoked with
      | none => exact ⟨[], rfl, by simp, by simp⟩
      | some r =>
        obtain ⟨hr, hversion, hrev⟩ := hrevoked r rfl
        have hone : ∀ c : PluginReleaseCandidate, c.catalog = r →
            r.describes pluginId c.release = true →
            (∀ d ∈ [c], d.catalog ∈ some r ∧ d.catalog.describes pluginId d.release = true)
              ∧ ∀ r' ∈ some r, ∃ d ∈ [c], d.catalog = r' := by
          rintro c rfl hdescribes
          simp [hdescribes]
        cases currentRelease with
        | none =>
          obtain ⟨c, hc⟩ := hdownload r hr
          obtain ⟨hcatalogue, hdescribes⟩ := downloadCandidate_ok hc
          refine ⟨[c], ?_, hone c hcatalogue hdescribes⟩
          simp [currentCandidates, hc, bind, Except.bind, pure, Except.pure]
        | some retained =>
          obtain ⟨c, hc⟩ := hretained retained rfl r hr hversion hrev
          obtain ⟨hcatalogue, hdescribes⟩ := candidateFromRelease_ok hc
          refine ⟨[c], ?_, hone c hcatalogue hdescribes⟩
          simp [currentCandidates, hc, bind, Except.bind, pure, Except.pure]
    obtain ⟨cs, hcs, hfrom, hreach⟩ := releaseCandidates_first services pluginId contracts current
      (fun r hr => (hrevoked r hr).2.2) (pairwise_sortedReleases plugin.releases)
      fun r hr => hdownload r ((hsorted r).1 hr)
    have hfirst : ∀ c ∈ cs, Listed catalog pluginId c.catalog ∧ c.catalog.revoked = false
        ∧ downloadCandidate services pluginId c.catalog = .ok c := by
      intro c hc
      obtain ⟨r, hr, hnot, hok⟩ := hfrom c hc
      rw [(downloadCandidate_ok hok).1]
      exact ⟨(hsorted r).1 hr, hnot, hok⟩
    refine ⟨sentinel ++ cs, ?_, ⟨fun c hc => ?_, fun c hc hnot => ?_, ?_, ?_⟩⟩
    · simp only [Option.mapM_none, Option.mapM_some, validateVersion_val, pure_bind]
      show (currentCandidates services pluginId none
        ((sortedReleases plugin.releases).find? fun release =>
          decide (release.version = current) && release.revoked) currentRelease >>= fun sentinel =>
        releaseCandidates services pluginId none (some current) (some contracts)
          ((sortedReleases plugin.releases).find? fun release =>
            decide (release.version = current) && release.revoked)
          (sortedReleases plugin.releases) >>= fun rest => pure (sentinel ++ rest)) = _
      rw [hcurrentRevoked, hsentinel, hcs]
      rfl
    · rcases List.mem_append.1 hc with hc | hc
      · obtain ⟨hmem, hdescribes⟩ := hsent c hc
        exact ⟨(hrevoked _ hmem).1, hdescribes⟩
      · exact offered_of_download (hfirst c hc).1 (hfirst c hc).2.2
    · rcases List.mem_append.1 hc with hc | hc
      · rw [(hrevoked _ (hsent c hc).1).2.2] at hnot
        cases hnot
      · exact (hfirst c hc).2.2
    · rintro ⟨r, hr, hversion, hrev⟩
      cases hnone : currentRevoked with
      | none =>
        rw [hnone] at hcurrentRevoked
        simpa [hversion, hrev] using List.find?_eq_none.1 hcurrentRevoked r ((hsorted r).2 hr)
      | some r' =>
        obtain ⟨c, hc, rfl⟩ := hsome r' hnone
        exact ⟨c, List.mem_append_left _ hc, (hrevoked c.catalog hnone).2⟩
    · intro c hc hok hcompatible hnot
      obtain ⟨b, hb, hbcompatible, hle⟩ :=
        hreach c.catalog ((hsorted _).2 hc) hnot c hok hcompatible
      exact ⟨b, List.mem_append_right _ hb, (hfirst b hb).2.1, hbcompatible, hle⟩

end Lists

section Agreement

theorem readSelectedRelease_ok {services : Services} {pluginId : JsString}
    {selected : SelectedReceipt} {bytes : List UInt8} {current : PluginRelease}
    (h : readSelectedRelease services pluginId selected bytes = .ok current) :
    current.pluginId = pluginId := by
  simp only [readSelectedRelease, readRelease, bind_eq_ok, check_eq_ok, pure_eq_ok, exists_const,
    Bool.and_eq_true, decide_eq_true_eq] at h
  obtain ⟨release, ⟨parsed, -, ⟨hid, -⟩, rfl⟩, -, -, rfl⟩ := h
  exact hid

open scoped Classical in
theorem Covers.planUpdate {services : Services} {catalog : List PluginCatalogPlugin}
    {pluginId : JsString} {contracts : PluginContracts} {value : Json}
    (hcatalog : catalogPlugins value = .ok catalog) {selected : SelectedReceipt}
    {bytes : List UInt8} {current : PluginRelease}
    (hcurrent : readSelectedRelease services pluginId selected bytes = .ok current)
    {cs : List PluginReleaseCandidate}
    (h : Covers services catalog pluginId contracts current.version cs) :
    ∃ chosen, planUpdate services contracts pluginId selected bytes cs
        = .ok ⟨current, decide (Revoked catalog pluginId current.version), chosen⟩
      ∧ IsHighest updateVersion {c | Eligible services catalog pluginId contracts current.version c}
        chosen := by
  obtain ⟨chosen, hchosen, hhighest⟩ :=
    h.pickUpdate hcatalog (readSelectedRelease_ok hcurrent) h.revoked_any
  refine ⟨chosen, ?_, hhighest⟩
  unfold Cli.planUpdate
  rw [hcurrent, ← Bool.eq_iff_iff.2 (h.revoked_any.trans decide_eq_true_iff.symm)]
  show (Cli.pickUpdate contracts current cs _ >>= fun candidate => _) = _
  rw [hchosen]
  rfl

/-- Whatever the catalog, the release in use and the contracts, the list that stops at the first
compatible release leads to the update that all the releases lead to. -/
theorem short_list_selects {value : Json} {catalog : List PluginCatalogPlugin}
    (hcatalog : catalogPlugins value = .ok catalog) (services : Services) (pluginId : JsString)
    (hdownload : ∀ r, Listed catalog pluginId r →
      ∃ c, downloadCandidate services pluginId r = .ok c)
    (contracts : PluginContracts) {selected : SelectedReceipt} {bytes : List UInt8}
    {current : PluginRelease}
    (hcurrent : readSelectedRelease services pluginId selected bytes = .ok current)
    (currentRelease : Option PluginRelease)
    (hretained : ∀ retained ∈ currentRelease, ∀ r, Listed catalog pluginId r →
      r.version = current.version → r.revoked = true →
      ∃ c, candidateFromRelease services pluginId r retained = .ok c) :
    ∃ short full plan,
      candidates services catalog pluginId
          ⟨none, some current.version.val, some contracts, currentRelease⟩ = .ok short
        ∧ candidates services catalog pluginId {} = .ok full
        ∧ planUpdate services contracts pluginId selected bytes short = .ok plan
        ∧ planUpdate services contracts pluginId selected bytes full = .ok plan
        ∧ IsHighest updateVersion
          {c | Eligible services catalog pluginId contracts current.version c} plan.candidate := by
  obtain ⟨full, hfull, hcovers⟩ :=
    candidates_complete services pluginId contracts hcatalog hdownload
  obtain ⟨short, hshort, hcoversShort⟩ :=
    candidates_short services pluginId contracts hcatalog hdownload current.version hretained
  obtain ⟨chosenFull, hchosenFull, hhighestFull⟩ :=
    (hcovers current.version).planUpdate hcatalog hcurrent
  obtain ⟨chosen, hchosen, hhighest⟩ := hcoversShort.planUpdate hcatalog hcurrent
  -- one version is one release of the catalog, and one release has one document
  have hinj : Set.InjOn updateVersion
      {c | Eligible services catalog pluginId contracts current.version c} := by
    intro a ha b hb hab
    have hsame := ha.listed.eq_of_version hcatalog hb.listed hab
    have hdocument := ha.document
    rw [hsame, hb.document] at hdocument
    exact (Except.ok.inj hdocument).symm
  rw [hhighestFull.unique hinj hhighest] at hchosenFull
  exact ⟨short, full, _, hshort, hfull, hchosen, hchosenFull, hhighest⟩

end Agreement

section Weather

open SourceGateway.Config (plainLibrary)

def joined (parts : List String) : JsString := parts.flatMap text

def objectOf (fields : List (String × Json)) : Json :=
  .obj (fields.map fun entry => (text entry.1, entry.2))

def stringOf (parts : List String) : Json := .str (joined parts)

/-- A release of the weather plugin, with the digest of its document. -/
structure WeatherRelease where
  version : String
  major : ℕ
  revoked : Bool
  digest : List String

namespace WeatherRelease

variable (r : WeatherRelease)

def image : List String :=
  ["ghcr.io/", "the-drunken-coder/", "atlas-weather@", "sha256:"] ++ List.replicate 8 "00000000"

def document : List String :=
  ["\x7b\"schema\":1,", "\"plugin_id\":\"weather\",", "\"version\":\"", r.version, "\",",
    "\"display_name\":\"Weather\",", "\"lifecycle\":\"query_only\",", "\"image\":\""] ++ image
    ++ ["\",", "\"core_to_plugin_protocol_major\":", toString r.major, ",",
      "\"plugin_to_source_gateway_protocol_major\":1,", "\"atlas_protocol_revision\":null,",
      "\"interactions\":[],", "\"source_connector\":null\x7d"]

def bytes : List UInt8 :=
  (document r).flatMap fun part => part.toList.map fun c => UInt8.ofNat c.toNat

def value : Json :=
  objectOf [("schema", .num (.finite 1)), ("plugin_id", stringOf ["weather"]),
    ("version", stringOf [r.version]), ("display_name", stringOf ["Weather"]),
    ("lifecycle", stringOf ["query_only"]), ("image", stringOf image),
    ("core_to_plugin_protocol_major", .num (.finite r.major)),
    ("plugin_to_source_gateway_protocol_major", .num (.finite 1)),
    ("atlas_protocol_revision", .null), ("interactions", .arr []), ("source_connector", .null)]

def url : List String :=
  ["https://github.com/", "the-Drunken-coder/", "Atlas-Modernization/", "releases/download/",
    "atlas-plugin-weather-v", r.version, "/weather-", r.version, ".atlas-plugin"]

def entry : Json :=
  objectOf [("version", stringOf [r.version]), ("display_name", stringOf ["Weather"]),
    ("document_url", stringOf r.url), ("document_sha256", stringOf ("sha256:" :: r.digest)),
    ("revoked", .bool r.revoked),
    ("revocation_reason", if r.revoked then stringOf ["leaks"] else .null)]

end WeatherRelease

def weatherReleases : List WeatherRelease :=
  [⟨"1.0.0", 1, true,
      ["31dad914b076faab", "e8156cbd56147a96", "048d7449a34a4f18", "49ae0fc26b01ecac"]⟩,
    ⟨"1.1.0", 1, false,
      ["1e56c6a2ae220c8b", "d39454fae0a3739c", "5f286954906bf690", "b9e8061c94e9279f"]⟩]

def weatherCatalog : Json :=
  .arr [objectOf [("plugin_id", stringOf ["weather"]),
    ("releases", .arr (weatherReleases.map WeatherRelease.entry))]]

def weatherServices : Services where
  lib := plainLibrary
  parseStrictJson bytes name :=
    match weatherReleases.find? fun r => r.bytes = bytes with
    | some r => .ok r.value
    | none => .error (name ++ " contains invalid JSON")
  sha256 bytes :=
    match weatherReleases.find? fun r => r.bytes = bytes with
    | some r => joined ("sha256:" :: r.digest)
    | none => []
  fetchBounded url :=
    match weatherReleases.find? fun r => joined r.url = url with
    | some r => .ok r.bytes
    | none => .error "download failed with status 404"

def weatherContracts : PluginContracts := ⟨[1], [1], none, some [1], some [.mapArea]⟩

def weatherReceipt : SelectedReceipt where
  version := ⟨text "1.0.0", by decide +kernel⟩
  releaseDocumentSha256 :=
    joined ["sha256:", "31dad914b076faab", "e8156cbd56147a96", "048d7449a34a4f18",
      "49ae0fc26b01ecac"]
  imageIndex := joined WeatherRelease.image

def weatherBytes : List UInt8 := (weatherReleases.map WeatherRelease.bytes).headD []

theorem weather_downloads : ((catalogPlugins weatherCatalog).map fun catalog =>
    catalog.all fun plugin => plugin.releases.all fun r =>
      (downloadCandidate weatherServices plugin.pluginId r).toBool) = .ok true := by
  decide +kernel

theorem weather_read : (readSelectedRelease weatherServices (text "weather") weatherReceipt
    weatherBytes).toBool = true := by
  decide +kernel

/-- The release in use is revoked, and there is one above it. -/
theorem short_list_selects_weather : ∃ catalog current short full plan,
    catalogPlugins weatherCatalog = .ok catalog
      ∧ readSelectedRelease weatherServices (text "weather") weatherReceipt weatherBytes
        = .ok current
      ∧ candidates weatherServices catalog (text "weather")
        ⟨none, some current.version.val, some weatherContracts, none⟩ = .ok short
      ∧ candidates weatherServices catalog (text "weather") {} = .ok full
      ∧ planUpdate weatherServices weatherContracts (text "weather") weatherReceipt weatherBytes
        short = .ok plan
      ∧ planUpdate weatherServices weatherContracts (text "weather") weatherReceipt weatherBytes
        full = .ok plan := by
  obtain ⟨catalog, hcatalog, hdownloads⟩ := map_eq_ok.1 weather_downloads
  obtain ⟨current, hcurrent⟩ := toBool_eq_true.1 weather_read
  have hdownload : ∀ r, Listed catalog (text "weather") r →
      ∃ c, downloadCandidate weatherServices (text "weather") r = .ok c := by
    rintro r ⟨plugin, hplugin, hid, hr⟩
    have hreleases := List.all_eq_true.1 hdownloads plugin hplugin
    have hbool := List.all_eq_true.1 hreleases r hr
    rw [hid] at hbool
    exact toBool_eq_true.1 hbool
  obtain ⟨short, full, plan, hshort, hfull, hplan, hplanFull, -⟩ :=
    short_list_selects hcatalog weatherServices (text "weather") hdownload weatherContracts
      hcurrent none (by simp)
  exact ⟨catalog, current, short, full, plan, hcatalog, hcurrent, hshort, hfull, hplan, hplanFull⟩

end Weather

end Atlas.Cli
