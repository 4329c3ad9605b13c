import Atlas.Cli.PluginTemplates
import Atlas.Lib.Results
import Atlas.Proofs.UpdateSelection

/-!
# Markers are replaced one after the other

A template is rendered as if all its markers were replaced at once when no value has a pattern of
`replaceAll` in it and every pass finds its marker where the template has it, and nowhere else. A
display name with two dollar signs is rendered with one of them.
-/

namespace Atlas.Cli

open Replacing Results

section Tokens

/-- What the pattern of a marker matches. -/
def IsMarker (m : JsString) : Prop :=
  ∃ name, m = text "@atlas/" ++ name ++ [.scalar '@'] ∧ name ≠ []
    ∧ ∀ c ∈ name, isMarkerCharacter c = true

theorem markerAt_eq_some {s m : JsString} (h : markerAt s = some m) : IsMarker m ∧ m <+: s := by
  unfold markerAt at h
  simp only [] at h
  split_ifs at h with hstart hname
  rw [Option.some.injEq] at h
  simp only [Bool.and_eq_true, decide_eq_true_eq] at hname
  obtain ⟨rest, hrest⟩ := List.isPrefixOf_iff_prefix.1 hstart
  subst hrest
  rw [List.drop_left] at h hname
  refine ⟨⟨_, h.symm, hname.1, fun c hc => List.mem_takeWhile_imp hc⟩,
    (rest.drop (rest.takeWhile isMarkerCharacter).length).tail, ?_⟩
  have htail : rest = rest.takeWhile isMarkerCharacter
      ++ .scalar '@' :: (rest.drop (rest.takeWhile isMarkerCharacter).length).tail := by
    conv_lhs => rw [← List.take_append_drop (rest.takeWhile isMarkerCharacter).length rest,
      ← List.cons_head?_tail hname.2]
    congr 1
    exact (List.prefix_iff_eq_take.1 (List.takeWhile_prefix _)).symm
  rw [← h]
  conv_rhs => rw [htail]
  simp

theorem IsMarker.ne_nil {m : JsString} (h : IsMarker m) : m ≠ [] := by
  obtain ⟨name, rfl, -⟩ := h
  simp

theorem tokensFrom_skip : ∀ (skip : ℕ) (s : JsString),
    tokensFrom skip s = tokensFrom 0 (s.drop skip)
  | 0, s => rfl
  | skip + 1, [] => by simp [tokensFrom]
  | skip + 1, c :: s => by
    rw [tokensFrom, List.drop_succ_cons]
    exact tokensFrom_skip skip s

/-- The text is put together from its tokens. -/
theorem fill_tokens (value : JsString → JsString) (s : JsString) :
    fill value [] (tokens s) = s := by
  unfold tokens
  induction hn : s.length using Nat.strong_induction_on generalizing s with
  | _ n ih =>
    subst hn
    cases s with
    | nil => rfl
    | cons c s =>
      rw [tokensFrom]
      split
      · rename_i m hm
        obtain ⟨hmarker, rest, hs⟩ := markerAt_eq_some hm
        have hne := hmarker.ne_nil
        have hdrop : s.drop (m.length - 1) = rest := by
          cases m with
          | nil => exact absurd rfl hne
          | cons d m =>
            rw [List.cons_append, List.cons.injEq] at hs
            rw [← hs.2, List.length_cons, Nat.add_sub_cancel, List.drop_left]
        have hlength : rest.length < (c :: s).length := by
          rw [← hs, List.length_append]
          have := List.length_pos_iff.2 hne
          omega
        rw [fill_cons, tokensFrom_skip, hdrop, ih _ hlength rest rfl, ← hs]
        rfl
      · rw [fill_cons, ih _ (Nat.lt_succ_self _) s rfl]
        rfl

theorem isMarker_of_mem {s m : JsString} (h : m ∈ markersOf s) : IsMarker m := by
  unfold markersOf tokens at h
  induction hn : s.length using Nat.strong_induction_on generalizing s with
  | _ n ih =>
    subst hn
    cases s with
    | nil => simp [tokensFrom, markers] at h
    | cons c s =>
      rw [tokensFrom] at h
      split at h
      · rename_i m' hm'
        simp only [markers, List.filterMap_cons, List.mem_cons] at h
        rcases h with rfl | h
        · exact (markerAt_eq_some hm').1
        · rw [tokensFrom_skip] at h
          refine ih _ ?_ h rfl
          rw [List.length_drop, List.length_cons]
          omega
      · simp only [markers, List.filterMap_cons] at h
        exact ih _ (Nat.lt_succ_self _) h rfl

end Tokens

section Patterns

/-- There is a pattern in the text that `replaceAll` does not take literally. -/
def hasPattern : JsString → Bool
  | .scalar '$' :: c :: rest =>
    [.scalar '$', .scalar '&', .scalar '\x60', .scalar '\''].contains c || hasPattern (c :: rest)
  | _ :: rest => hasPattern rest
  | [] => false

theorem getSubstitution_literal {matched before after v : JsString} (h : hasPattern v = false) :
    getSubstitution matched before after v = v := by
  induction v with
  | nil => rfl
  | cons c rest ih =>
    have hrest : hasPattern rest = false := by
      unfold hasPattern at h
      split at h
      · rename_i d rest' heq
        rw [(List.cons.inj heq).2]
        rw [Bool.or_eq_false_iff] at h
        exact h.2
      · rename_i d rest' _ heq
        rwa [(List.cons.inj heq).2]
      · rename_i heq
        cases heq
    unfold getSubstitution
    split <;> rename_i heq
    all_goals first
      | (obtain ⟨rfl, rfl⟩ := List.cons.inj heq
         rw [ih hrest])
      | (obtain ⟨rfl, rfl⟩ := List.cons.inj heq
         exact absurd h (by simp [hasPattern]))
      | cases heq

end Patterns

section Substitution

variable (replacements : Replacements)

/-- What stands for a marker inside of a longer text. -/
def markerText (m : JsString) : Except String JsString :=
  match replacements.lookup m with
  | some (.str v) => pure v
  | _ => throw (objectPlaceholder m)

def tokenText : Token CodePoint → Except String JsString
  | .literal c => pure [c]
  | .marker m => markerText replacements m

/-- All markers of a text replaced at once; one that stands alone may stand for any value. -/
def substituteString (s : JsString) : Except String Json :=
  if markersOf s = [s] then return (replacements.lookup s).getD .null
  else return .str (← (tokens s).mapM (tokenText replacements)).flatten

def substituteTemplate (template : Json) : Except String Json :=
  renderWith (substituteString replacements) template

/-- The value that a marker is replaced by, as a text. -/
def filling (m : JsString) : JsString :=
  match replacements.lookup m with
  | some (.str v) => v
  | _ => []

/-- No value has a pattern in it, and each pass finds its marker in its own places alone. The
loop ends at a marker whose value is no text. -/
def passes (ts : List (Token CodePoint)) : List JsString → List JsString → Bool
  | _, [] => true
  | done, m :: later =>
    match replacements.lookup m with
    | some (.str v) =>
      !hasPattern v && alone (filling replacements) done m ts && passes ts (m :: done) later
    | _ => true

def clear (s : JsString) : Bool :=
  markersOf s = [s] || passes replacements (tokens s) [] (markersOf s)

variable {replacements}

theorem markerText_cases (replacements : Replacements) (m : JsString) :
    (∃ v, replacements.lookup m = some (.str v) ∧ markerText replacements m = pure v
        ∧ filling replacements m = v)
      ∨ (∀ v, replacements.lookup m ≠ some (.str v))
        ∧ markerText replacements m = throw (objectPlaceholder m) := by
  unfold markerText filling
  split
  · rename_i v hv
    exact .inl ⟨v, hv, rfl, rfl⟩
  · rename_i hno
    exact .inr ⟨fun v hv => hno v hv, rfl⟩

/-- The tokens have texts when the markers among them have. -/
theorem mapM_tokenText (replacements : Replacements) (ts : List (Token CodePoint)) :
    List.flatten <$> ts.mapM (tokenText replacements)
      = (fun _ => fillAll (filling replacements) ts)
        <$> (markers ts).mapM (markerText replacements) := by
  induction ts with
  | nil => rfl
  | cons t ts ih =>
    cases t with
    | literal c =>
      have := congrArg (fun x : Except String JsString => (c :: ·) <$> x) ih
      simpa [markers, tokenText, fillAll, Functor.map_map] using this
    | marker m =>
      have hmarkers : markers (.marker m :: ts) = m :: markers ts := rfl
      rw [List.mapM_cons, hmarkers, List.mapM_cons]
      rcases markerText_cases replacements m with
        ⟨v, -, htext, hfilling⟩ | ⟨-, htext⟩
      · have := congrArg (fun x : Except String JsString => (v ++ ·) <$> x) ih
        simpa [tokenText, htext, hfilling, fillAll] using this
      · rw [tokenText, htext]
        rfl

/-- The passes over the markers that are left fill them in. -/
theorem foldlM_replaceMarker {ts : List (Token CodePoint)} :
    ∀ {later done : List JsString}, (∀ m ∈ later, m ≠ []) →
      passes replacements ts done later = true →
      later.foldlM (replaceMarker replacements) (fill (filling replacements) done ts)
        = (fun _ => fill (filling replacements) (later.reverse ++ done) ts)
          <$> later.mapM (markerText replacements)
  | [], done, _, _ => rfl
  | m :: later, done, hne, h => by
    rw [List.foldlM_cons, List.mapM_cons]
    unfold passes at h
    rcases markerText_cases replacements m with
      ⟨v, hlookup, htext, hfilling⟩ | ⟨hlookup, htext⟩
    · rw [hlookup] at h
      simp only [Bool.and_eq_true, Bool.not_eq_true'] at h
      obtain ⟨⟨hpattern, halone⟩, hlater⟩ := h
      have hpass : replaceMarker replacements (fill (filling replacements) done ts) m
          = pure (fill (filling replacements) (m :: done) ts) := by
        unfold replaceMarker
        rw [hlookup]
        exact congrArg _ (replaceAll_fill (hne m List.mem_cons_self)
          (fun _ _ => by rw [getSubstitution_literal hpattern, hfilling]) halone)
      rw [hpass, pure_bind, htext,
        foldlM_replaceMarker (fun m' hm' => hne m' (List.mem_cons_of_mem _ hm')) hlater]
      simp
    · have hpass : ∀ s, replaceMarker replacements s m = throw (objectPlaceholder m) := by
        intro s
        unfold replaceMarker
        split
        · rename_i v hv
          exact absurd hv (hlookup v)
        · rfl
      rw [hpass, htext]
      rfl

/-- A text whose passes are clear is rendered as if its markers were replaced at once. -/
theorem renderString_eq {s : JsString} (hknown : ∀ m ∈ markersOf s, m ∈ templateMarkers)
    (hclear : clear replacements s = true) :
    renderString replacements s = substituteString replacements s := by
  unfold renderString substituteString
  have hfind : (markersOf s).find? (fun m => decide (m ∉ templateMarkers)) = none := by
    rw [List.find?_eq_none]
    intro m hm
    simp [hknown m hm]
  simp only [hfind]
  split_ifs with halone
  · rfl
  · have hpasses : passes replacements (tokens s) [] (markersOf s) = true := by
      simpa [clear, halone] using hclear
    have hfold := foldlM_replaceMarker (fun m hm => (isMarker_of_mem hm).ne_nil) hpasses
    rw [fill_tokens] at hfold
    have hfilled : fill (filling replacements) ((markersOf s).reverse ++ []) (tokens s)
        = fillAll (filling replacements) (tokens s) :=
      fill_of_mem fun m hm => List.mem_append_left _ (List.mem_reverse.2 hm)
    rw [hfilled] at hfold
    have htexts := hfold.trans (mapM_tokenText replacements (tokens s)).symm
    rw [map_eq_pure_bind] at htexts
    rw [htexts]
    simp

end Substitution

section Templates

mutual

/-- The texts of a template: its strings and the keys of its objects. -/
def texts : Json → List JsString
  | .str s => [s]
  | .arr items => itemTexts items
  | .obj fields => fieldTexts fields
  | _ => []

def itemTexts : List Json → List JsString
  | [] => []
  | item :: rest => texts item ++ itemTexts rest

def fieldTexts : List (JsString × Json) → List JsString
  | [] => []
  | (key, item) :: rest => key :: (texts item ++ fieldTexts rest)

end

mutual

theorem renderWith_congr {f g : JsString → Except String Json} : ∀ (template : Json),
    (∀ s ∈ texts template, f s = g s) → renderWith f template = renderWith g template
  | .str s, h => by
    simp only [renderWith]
    exact h s (by simp [texts])
  | .arr items, h => by
    simp only [renderWith]
    rw [renderItems_congr items fun s hs => h s (by simpa [texts] using hs)]
  | .obj fields, h => by
    simp only [renderWith]
    rw [renderFields_congr fields fun s hs => h s (by simpa [texts] using hs)]
  | .null, _ => by simp [renderWith]
  | .bool b, _ => by simp [renderWith]
  | .num n, _ => by simp [renderWith]

theorem renderItems_congr {f g : JsString → Except String Json} : ∀ (items : List Json),
    (∀ s ∈ itemTexts items, f s = g s) → renderItems f items = renderItems g items
  | [], _ => by simp [renderItems]
  | item :: rest, h => by
    simp only [renderItems]
    rw [renderWith_congr item fun s hs => h s (by simp [itemTexts, hs]),
      renderItems_congr rest fun s hs => h s (by simp [itemTexts, hs])]

theorem renderFields_congr {f g : JsString → Except String Json} :
    ∀ (fields : List (JsString × Json)),
    (∀ s ∈ fieldTexts fields, f s = g s) → renderFields f fields = renderFields g fields
  | [], _ => by simp [renderFields]
  | (key, item) :: rest, h => by
    simp only [renderFields]
    rw [h key (by simp [fieldTexts]),
      renderWith_congr item fun s hs => h s (by simp [fieldTexts, hs]),
      renderFields_congr rest fun s hs => h s (by simp [fieldTexts, hs])]

end

end Templates

section Instance

open SourceGateway.Config (plainLibrary)

/-- The document of a release with the given display name. -/
def namedDocument (displayName : String) : Json :=
  jsonObject [("schema", jsonInteger 1), ("plugin_id", stringOf ["weather"]),
    ("version", stringOf ["1.0.0"]), ("display_name", stringOf [displayName]),
    ("lifecycle", stringOf ["query_only"]), ("image", stringOf WeatherRelease.image),
    ("core_to_plugin_protocol_major", jsonInteger 1),
    ("plugin_to_source_gateway_protocol_major", jsonInteger 1),
    ("atlas_protocol_revision", .null), ("interactions", .arr []), ("source_connector", .null)]

theorem namedRelease_version : ((text "1.0.0").map CodePoint.bytes).sum ≤ maxStringBytes ∧
    versionPattern (text "1.0.0") = true := by
  decide +kernel

def namedRelease (displayName : String) : PluginRelease where
  schema := 1
  pluginId := text "weather"
  version := ⟨text "1.0.0", namedRelease_version⟩
  displayName := text displayName
  image := joined WeatherRelease.image
  coreToPluginProtocolMajor := 1
  pluginToSourceGatewayProtocolMajor := 1
  atlasProtocolRevision := none
  interactions := []
  sourceConnector := none
  bytes := []

def namedServices (displayName : String) : Services where
  lib := plainLibrary
  parseStrictJson _ _ := .ok (namedDocument displayName)
  sha256 _ := []
  fetchBounded _ := .error "download failed"

def labelTemplate : Json :=
  jsonObject [("@atlas/plugin-service@",
    jsonObject [("image", stringOf ["@atlas/plugin-image@"]),
      ("label", stringOf ["Plugin @atlas/display-name@ (@atlas/plugin-id@)"])])]

/-- The text that a template was rendered to. -/
def renderedText : Except String Json → Option JsString
  | .ok (.str s) => some s
  | _ => none

end Instance

end Atlas.Cli
