import SubagentsLab.Config.Values
import SubagentsLab.Machinery.Checks

/-!
# Config/Layers — the layers of the configuration

`config.toml`, the env file and the environment are merged in this order (`applyLayers`): a key takes the
value of the highest layer that has it, except that an effectively empty model or effort of a role counts as
absent (`get?_applyLayers`).  For these keys the merge also notes the layer: of an effort the highest one that
sets it, of a model the highest one that changed it (`layer_le_iff`).
-/

namespace SubagentsLab

open Machinery

namespace ServerConfig

/-- A role with a model and a reasoning effort of its own. -/
inductive Role
  | router
  | worker
  deriving DecidableEq, Repr

namespace Role

def modelKey : Role → PyStr
  | router => .ofString "WEBSEARCH_ROUTER_MODEL"
  | worker => .ofString "WEBSEARCH_WORKER_MODEL"

def effortKey : Role → PyStr
  | router => .ofString "WEBSEARCH_ROUTER_REASONING_EFFORT"
  | worker => .ofString "WEBSEARCH_WORKER_REASONING_EFFORT"

end Role

/-- `_ROLE_MODEL_EFFORT_KEYS`. -/
def roleModelEffortKeys : List (PyStr × PyStr) := [Role.router, .worker].map fun r => (r.modelKey, r.effortKey)

/-- `_PROVENANCE_KEYS`. -/
def provenanceKeys : List PyStr := roleModelEffortKeys.flatMap fun p => [p.1, p.2]

/-- `_EMPTY_MEANS_ABSENT_KEYS`. -/
def emptyMeansAbsentKeys : List PyStr := roleModelEffortKeys.flatMap fun p => [p.1, p.2]

/-- `_ROLE_MODEL_KEYS`. -/
def roleModelKeys : List PyStr := roleModelEffortKeys.map Prod.fst

/-- `==` of the value of a layer and the value before it.  Only the lowest layer has other values than
strings, and before it there is none. -/
def sameValue : Value → Option Value → Bool
  | .str s, some (.str s') => s = s'
  | _, _ => false

/-- The merged values, and the layers the provenance keys come from. -/
structure Merge where
  values : Mapping
  layers : Dict PyStr ℤ
  deriving DecidableEq

/-- `layers.get(key, -1)`. -/
def layerOf (layers : Dict PyStr ℤ) (key : PyStr) : ℤ := (layers.get? key).getD (-1)

section

variable (rt : Runtime)

/-- `_effectively_set`. -/
def effectivelySet (value : Value) : Except Failure Bool :=
  if value.truthy then (value.text rt).map fun text => !text.isBlank else .ok false

/-- The body of the loop of `_record_layer`. -/
def recordKey (layerValues : Mapping) (layer : ℤ) (incumbentModels : PyStr → Option Value) (layers : Dict PyStr ℤ)
    (key : PyStr) : Except Failure (Dict PyStr ℤ) :=
  match layerValues.get? key with
  | none => .ok layers
  | some value =>
    (effectivelySet rt value).map fun set =>
      if !set then layers
      else if key ∈ roleModelKeys ∧ sameValue value (incumbentModels key) then layers
      else layers.set key layer

/-- `_record_layer`. -/
def recordLayer (layerValues : Mapping) (layers : Dict PyStr ℤ) (layer : ℤ) (incumbentModels : PyStr → Option Value) :
    Except Failure (Dict PyStr ℤ) :=
  provenanceKeys.foldlM (recordKey rt layerValues layer incumbentModels) layers

/-- The body of the loop of `_apply_layer`. -/
def mergeEntry (values : Mapping) (e : PyStr × Value) : Except Failure Mapping :=
  if e.1 ∈ emptyMeansAbsentKeys then
    (effectivelySet rt e.2).map fun set => if set then values.set e.1 e.2 else values
  else .ok (values.set e.1 e.2)

/-- `_apply_layer`. -/
def applyLayer (m : Merge) (e : ℤ × Mapping) : Except Failure Merge := do
  let incumbentModels := fun key => m.values.get? key
  let values ← e.2.entries.foldlM (mergeEntry rt) m.values
  let layers ← recordLayer rt e.2 m.layers e.1 incumbentModels
  pure ⟨values, layers⟩

/-- The calls of `_apply_layer` in `load_config`. -/
def applyLayers (layerMaps : List (ℤ × Mapping)) : Except Failure Merge :=
  layerMaps.foldlM (applyLayer rt) ⟨∅, ∅⟩

end

/-! ## What the layers say -/

section

variable (rt : Runtime)

/-- The value counts as set. -/
def isSet (value : Value) : Bool := effectivelySet rt value = .ok true

/-- What a layer says of a key. -/
def said (key : PyStr) (layerValues : Mapping) : Option Value :=
  if key ∈ emptyMeansAbsentKeys then (layerValues.get? key).filter (isSet rt) else layerValues.get? key

/-- The value of the highest layer that says anything of the key. -/
def merged (key : PyStr) (layerMaps : List (ℤ × Mapping)) : Option Value :=
  layerMaps.foldl (fun old e => (said rt key e.2).or old) none

/-- The highest layer that says anything of the key, or `-1`. -/
def highest (key : PyStr) (layerMaps : List (ℤ × Mapping)) : ℤ :=
  layerMaps.foldl (fun old e => if (said rt key e.2).isSome then e.1 else old) (-1)

/-- The layers no higher than one of them. -/
def upTo (layer : ℤ) (layerMaps : List (ℤ × Mapping)) : List (ℤ × Mapping) := layerMaps.filter (·.1 ≤ layer)

end

variable {rt : Runtime}

theorem isSet_eq {value : Value} {set : Bool} (h : effectivelySet rt value = .ok set) : isSet rt value = set := by
  rw [isSet, h]
  cases set <;> simp

theorem merged_concat (key : PyStr) (layerMaps : List (ℤ × Mapping)) (e : ℤ × Mapping) :
    merged rt key (layerMaps ++ [e]) = (said rt key e.2).or (merged rt key layerMaps) := by
  rw [merged, List.foldl_concat]
  rfl

theorem highest_concat (key : PyStr) (layerMaps : List (ℤ × Mapping)) (e : ℤ × Mapping) :
    highest rt key (layerMaps ++ [e]) = if (said rt key e.2).isSome then e.1 else highest rt key layerMaps := by
  rw [highest, List.foldl_concat]
  rfl

/-! ## One layer -/

theorem mergeEntry_ok {values values' : Mapping} {e : PyStr × Value} (h : mergeEntry rt values e = .ok values')
    (key : PyStr) : values'.get? key =
      if key = e.1 ∧ (e.1 ∈ emptyMeansAbsentKeys → isSet rt e.2 = true) then some e.2 else values.get? key := by
  rw [mergeEntry] at h
  split_ifs at h with hkey
  · obtain ⟨set, hset, rfl⟩ := Checks.map_eq_ok_iff.mp h
    rw [isSet_eq hset]
    cases set <;> simp [hkey]
  · cases h
    simp [hkey]

theorem foldlM_mergeEntry_ok {es : List (PyStr × Value)} (hnodup : (es.map Prod.fst).Nodup) {values values' : Mapping}
    (h : es.foldlM (mergeEntry rt) values = .ok values') (key : PyStr) :
    values'.get? key =
      (if key ∈ emptyMeansAbsentKeys then (Dict.find key es).filter (isSet rt) else Dict.find key es).or
        (values.get? key) := by
  induction es generalizing values with
  | nil =>
    cases h
    simp [Dict.find]
  | cons e es ih =>
    rw [List.map_cons, List.nodup_cons] at hnodup
    rw [List.foldlM_cons] at h
    obtain ⟨values₁, h₁, hrest⟩ := Checks.bind_eq_ok_iff.mp h
    rw [ih hnodup.2 hrest, mergeEntry_ok h₁, Dict.find]
    by_cases hkey : e.1 = key
    · subst hkey
      rw [Dict.find_eq_none hnodup.1]
      by_cases habsent : e.1 ∈ emptyMeansAbsentKeys <;> by_cases hset : isSet rt e.2 = true <;>
        simp [habsent, hset, Option.filter]
    · have hkey' : ¬(key = e.1 ∧ (e.1 ∈ emptyMeansAbsentKeys → isSet rt e.2 = true)) := fun hc => hkey hc.1.symm
      rw [if_neg hkey, if_neg hkey']

/-- The layer of a provenance key that a layer sets is noted, if it is none of a model that stays the same. -/
def advances (rt : Runtime) (layerValues : Mapping) (incumbentModels : PyStr → Option Value) (key : PyStr) : Bool :=
  ((layerValues.get? key).filter (isSet rt)).any fun value =>
    !decide (key ∈ roleModelKeys ∧ sameValue value (incumbentModels key))

theorem recordKey_ok {layerValues : Mapping} {layer : ℤ} {incumbentModels : PyStr → Option Value}
    {layers layers' : Dict PyStr ℤ} {key : PyStr}
    (h : recordKey rt layerValues layer incumbentModels layers key = .ok layers') (key' : PyStr) :
    layers'.get? key' =
      if key' = key ∧ advances rt layerValues incumbentModels key then some layer else layers.get? key' := by
  rw [recordKey] at h
  rcases hvalue : layerValues.get? key with _ | value
  · rw [hvalue] at h
    cases h
    simp [advances, hvalue]
  · rw [hvalue] at h
    obtain ⟨set, hset, rfl⟩ := Checks.map_eq_ok_iff.mp h
    cases set
    · simp [advances, hvalue, isSet_eq hset, Option.filter]
    · have hadvances : advances rt layerValues incumbentModels key =
          !decide (key ∈ roleModelKeys ∧ sameValue value (incumbentModels key) = true) := by
        simp only [advances, hvalue, Option.filter, isSet_eq hset, if_true, Option.any_some]
      rw [hadvances]
      by_cases hsame : key ∈ roleModelKeys ∧ sameValue value (incumbentModels key) = true
      · rw [decide_eq_true hsame]
        simp [hsame]
      · rw [decide_eq_false hsame]
        simp [hsame]

theorem foldlM_recordKey_ok {layerValues : Mapping} {layer : ℤ} {incumbentModels : PyStr → Option Value}
    {keys : List PyStr} {layers layers' : Dict PyStr ℤ}
    (h : keys.foldlM (recordKey rt layerValues layer incumbentModels) layers = .ok layers') (key : PyStr) :
    layers'.get? key =
      if key ∈ keys ∧ advances rt layerValues incumbentModels key then some layer else layers.get? key := by
  induction keys generalizing layers with
  | nil =>
    cases h
    simp
  | cons k keys ih =>
    rw [List.foldlM_cons] at h
    obtain ⟨layers₁, h₁, hrest⟩ := Checks.bind_eq_ok_iff.mp h
    rw [ih hrest, recordKey_ok h₁]
    by_cases hkey : key = k
    · subst hkey
      by_cases hadvances : advances rt layerValues incumbentModels key = true <;> simp [hadvances]
    · simp [hkey]

/-- What a layer does. -/
theorem applyLayer_ok {m m' : Merge} {e : ℤ × Mapping} (h : applyLayer rt m e = .ok m') (key : PyStr) :
    m'.values.get? key = (said rt key e.2).or (m.values.get? key) ∧
      m'.layers.get? key = if key ∈ provenanceKeys ∧ advances rt e.2 m.values.get? key then some e.1
        else m.layers.get? key := by
  obtain ⟨values, hvalues, hrest⟩ := Checks.bind_eq_ok_iff.mp h
  obtain ⟨layers, hlayers, hm⟩ := Checks.bind_eq_ok_iff.mp hrest
  cases hm
  exact ⟨foldlM_mergeEntry_ok e.2.nodup_keys hvalues key, foldlM_recordKey_ok hlayers key⟩

/-! ## The keys of a role -/

namespace Role

theorem modelKey_mem (r : Role) : r.modelKey ∈ roleModelKeys ∧ r.modelKey ∈ provenanceKeys ∧
    r.modelKey ∈ emptyMeansAbsentKeys := by
  cases r <;> decide +kernel

theorem effortKey_mem (r : Role) : r.effortKey ∉ roleModelKeys ∧ r.effortKey ∈ provenanceKeys ∧
    r.effortKey ∈ emptyMeansAbsentKeys := by
  cases r <;> decide +kernel

end Role

theorem advances_effortKey (r : Role) (layerValues : Mapping) (incumbentModels : PyStr → Option Value) :
    advances rt layerValues incumbentModels r.effortKey = (said rt r.effortKey layerValues).isSome := by
  rw [said, if_pos r.effortKey_mem.2.2, advances]
  rcases (layerValues.get? r.effortKey).filter (isSet rt) with _ | value
  · rfl
  · simp [r.effortKey_mem.1]

/-- A model is noted exactly where the merged one changes, if it is a string or the first one. -/
theorem advances_modelKey (r : Role) {layerValues values : Mapping}
    (htext : values.get? r.modelKey = none ∨ ∀ v, layerValues.get? r.modelKey = some v → ∃ s, v = .str s) :
    advances rt layerValues values.get? r.modelKey = true ↔
      (said rt r.modelKey layerValues).or (values.get? r.modelKey) ≠ values.get? r.modelKey := by
  rw [said, if_pos r.modelKey_mem.2.2, advances]
  rcases hfilter : (layerValues.get? r.modelKey).filter (isSet rt) with _ | value
  · simp
  · simp only [Option.any_some, r.modelKey_mem.1, true_and, Option.some_or, ne_eq, Bool.not_eq_true',
      decide_eq_false_iff_not]
    rcases htext with hnone | htext
    · rw [hnone]
      simp [sameValue]
    · obtain ⟨s, rfl⟩ := htext value (Option.filter_eq_some_iff.mp hfilter).1
      rcases hold : values.get? r.modelKey with _ | old
      · simp [sameValue]
      · cases old <;> simp [sameValue]

/-! ## All layers -/

/-- Layers, the lowest first; only the lowest has other values than strings. -/
structure Layered (layerMaps : List (ℤ × Mapping)) : Prop where
  increasing : layerMaps.Pairwise (·.1 < ·.1)
  nonneg : ∀ e ∈ layerMaps, 0 ≤ e.1
  text : ∀ e ∈ layerMaps.tail, ∀ key v, e.2.get? key = some v → ∃ s, v = .str s

theorem applyLayers_concat {layerMaps : List (ℤ × Mapping)} {e : ℤ × Mapping} {m' : Merge} :
    applyLayers rt (layerMaps ++ [e]) = .ok m' ↔ ∃ m, applyLayers rt layerMaps = .ok m ∧ applyLayer rt m e = .ok m' := by
  rw [applyLayers, List.foldlM_append, Checks.bind_eq_ok_iff]
  simp only [List.foldlM_cons, List.foldlM_nil, bind_pure]
  rfl

/-- **The merged values.** -/
theorem get?_applyLayers {layerMaps : List (ℤ × Mapping)} {m : Merge} (h : applyLayers rt layerMaps = .ok m)
    (key : PyStr) : m.values.get? key = merged rt key layerMaps := by
  induction layerMaps using List.reverseRecOn generalizing m with
  | nil =>
    cases h
    rfl
  | append_singleton layerMaps e ih =>
    obtain ⟨m₀, h₀, hm⟩ := applyLayers_concat.mp h
    rw [(applyLayer_ok hm key).1, ih h₀, merged_concat]

/-- The layer that is noted of an effort is the highest one that sets it. -/
theorem layerOf_effortKey {layerMaps : List (ℤ × Mapping)} {m : Merge} (h : applyLayers rt layerMaps = .ok m)
    (r : Role) : layerOf m.layers r.effortKey = highest rt r.effortKey layerMaps := by
  induction layerMaps using List.reverseRecOn generalizing m with
  | nil =>
    cases h
    rfl
  | append_singleton layerMaps e ih =>
    obtain ⟨m₀, h₀, hm⟩ := applyLayers_concat.mp h
    rw [layerOf, (applyLayer_ok hm _).2, advances_effortKey, highest_concat, ← ih h₀]
    by_cases hset : (said rt r.effortKey e.2).isSome = true <;> simp [hset, r.effortKey_mem.2.1, layerOf]

theorem Layered.of_concat {layerMaps : List (ℤ × Mapping)} {e : ℤ × Mapping} (h : Layered (layerMaps ++ [e])) :
    Layered layerMaps ∧ (∀ d ∈ layerMaps, d.1 < e.1) ∧ 0 ≤ e.1 ∧
      (layerMaps = [] ∨ ∀ key v, e.2.get? key = some v → ∃ s, v = .str s) := by
  have hincreasing := List.pairwise_append.mp h.increasing
  refine ⟨⟨hincreasing.1, fun d hd => h.nonneg d (List.mem_append_left _ hd), fun d hd => h.text d ?_⟩,
    fun d hd => hincreasing.2.2 d hd e (List.mem_singleton_self e), h.nonneg e (List.mem_append_right _ (List.mem_singleton_self e)),
    ?_⟩
  · cases layerMaps with
    | nil => cases hd
    | cons d' layerMaps => exact List.mem_append_left _ hd
  · cases layerMaps with
    | nil => exact .inl rfl
    | cons d' layerMaps => exact .inr (h.text e (List.mem_append_right _ (List.mem_singleton_self e)))

theorem upTo_concat {layerMaps : List (ℤ × Mapping)} {e : ℤ × Mapping} {layer : ℤ} :
    upTo layer (layerMaps ++ [e]) = if e.1 ≤ layer then upTo layer layerMaps ++ [e] else upTo layer layerMaps := by
  by_cases he : e.1 ≤ layer <;> simp [upTo, he]

theorem upTo_eq_self {layerMaps : List (ℤ × Mapping)} {layer : ℤ} (h : ∀ d ∈ layerMaps, d.1 ≤ layer) :
    upTo layer layerMaps = layerMaps :=
  List.filter_eq_self.mpr fun d hd => decide_eq_true (h d hd)

/-- **The layer that is noted of a model.**  It is no higher than a layer exactly if no higher layer changes
the merged model. -/
theorem layerOf_modelKey_le_iff {layerMaps : List (ℤ × Mapping)} (hlayered : Layered layerMaps) {m : Merge}
    (h : applyLayers rt layerMaps = .ok m) (r : Role) {layer : ℤ} (hlayer : -1 ≤ layer) :
    layerOf m.layers r.modelKey ≤ layer ↔
      ∀ layer' ≥ layer, merged rt r.modelKey (upTo layer' layerMaps) = merged rt r.modelKey (upTo layer layerMaps) := by
  induction layerMaps using List.reverseRecOn generalizing m with
  | nil =>
    cases h
    exact ⟨fun _ _ _ => rfl, fun _ => hlayer⟩
  | append_singleton layerMaps e ih =>
    obtain ⟨m₀, h₀, hm⟩ := applyLayers_concat.mp h
    obtain ⟨hbelow, hlt, hnonneg, htext⟩ := hlayered.of_concat
    have hincumbent := get?_applyLayers h₀ r.modelKey
    have hadvances : advances rt e.2 m₀.values.get? r.modelKey = true ↔
        merged rt r.modelKey (layerMaps ++ [e]) ≠ merged rt r.modelKey layerMaps := by
      rw [advances_modelKey r, hincumbent, merged_concat]
      rcases htext with rfl | htext
      · exact .inl hincumbent
      · exact .inr (htext r.modelKey)
    by_cases hchanged : advances rt e.2 m₀.values.get? r.modelKey = true
    · -- the layer changes the model: only from it on is the model the last one
      have hnoted : layerOf m.layers r.modelKey = e.1 := by
        rw [layerOf, (applyLayer_ok hm _).2, if_pos ⟨r.modelKey_mem.2.1, hchanged⟩, Option.getD_some]
      rw [hnoted]
      refine ⟨fun hle layer' hlayer' => ?_, fun hsame => not_lt.mp fun hgt => hadvances.mp hchanged ?_⟩
      · have hall : ∀ n ≥ e.1, ∀ d ∈ layerMaps, d.1 ≤ n := fun n hn d hd => (hlt d hd).le.trans hn
        rw [upTo_concat, upTo_concat, if_pos hle, if_pos (hle.trans hlayer'), upTo_eq_self (hall _ hle),
          upTo_eq_self (hall _ (hle.trans hlayer'))]
      · have hbefore : ∀ d ∈ layerMaps, d.1 ≤ e.1 - 1 := fun d hd => by have := hlt d hd; omega
        have hat := (hsame e.1 hgt.le).trans (hsame (e.1 - 1) (by omega)).symm
        rwa [upTo_concat, upTo_concat, if_pos le_rfl, if_neg (by omega), upTo_eq_self hbefore,
          upTo_eq_self fun d hd => (hlt d hd).le] at hat
    · -- the layer leaves the model as it is
      have hnoted : layerOf m.layers r.modelKey = layerOf m₀.layers r.modelKey := by
        rw [layerOf, (applyLayer_ok hm _).2, if_neg fun hc => hchanged hc.2, layerOf]
      have hkept : merged rt r.modelKey (layerMaps ++ [e]) = merged rt r.modelKey layerMaps :=
        not_not.mp fun hc => hchanged (hadvances.mpr hc)
      have hupTo : ∀ n, merged rt r.modelKey (upTo n (layerMaps ++ [e])) = merged rt r.modelKey (upTo n layerMaps) := by
        intro n
        rw [upTo_concat]
        split_ifs with hn
        · rw [upTo_eq_self fun d hd => (hlt d hd).le.trans hn, hkept]
        · rfl
      rw [hnoted, ih hbelow h₀]
      simp only [hupTo]

/-! ## The inherited efforts -/

/-- The body of the loop of `_clear_inherited_reasoning_effort`. -/
def clearEffort (layers : Dict PyStr ℤ) (values : Mapping) (p : PyStr × PyStr) : Mapping :=
  if layerOf layers p.1 > layerOf layers p.2 then values.pop p.2 else values

/-- `_clear_inherited_reasoning_effort`. -/
def clearInheritedReasoningEffort (m : Merge) : Mapping := roleModelEffortKeys.foldl (clearEffort m.layers) m.values

theorem get?_foldl_clearEffort (layers : Dict PyStr ℤ) (ps : List (PyStr × PyStr)) (values : Mapping) (key : PyStr) :
    (ps.foldl (clearEffort layers) values).get? key =
      if ∃ p ∈ ps, key = p.2 ∧ layerOf layers p.1 > layerOf layers p.2 then none else values.get? key := by
  induction ps generalizing values with
  | nil => simp
  | cons p ps ih =>
    rw [List.foldl_cons, ih, clearEffort]
    simp only [List.exists_mem_cons_iff]
    by_cases hlater : ∃ p ∈ ps, key = p.2 ∧ layerOf layers p.1 > layerOf layers p.2
    · rw [if_pos hlater, if_pos (.inr hlater)]
    · by_cases hclear : layerOf layers p.1 > layerOf layers p.2
      · simp only [hlater, or_false, hclear, and_true, if_true, if_false, Dict.get?_pop]
      · simp only [hlater, or_false, hclear, and_false, if_false]

theorem Role.effortKey_injective : Function.Injective Role.effortKey := by
  intro r r' h
  cases r <;> cases r' <;> first | rfl | exact absurd h (by decide +kernel)

/-- **The efforts that are left.** -/
theorem get?_clearInheritedReasoningEffort {m : Merge} (r : Role) :
    (clearInheritedReasoningEffort m).get? r.effortKey =
      if layerOf m.layers r.modelKey ≤ layerOf m.layers r.effortKey then m.values.get? r.effortKey else none := by
  have hrow : (∃ p ∈ roleModelEffortKeys, r.effortKey = p.2 ∧ layerOf m.layers p.1 > layerOf m.layers p.2) ↔
      layerOf m.layers r.modelKey > layerOf m.layers r.effortKey := by
    simp only [roleModelEffortKeys, List.mem_map]
    constructor
    · rintro ⟨p, ⟨r', -, rfl⟩, heq, hgt⟩
      rwa [Role.effortKey_injective heq]
    · exact fun hgt => ⟨_, ⟨r, by cases r <;> simp, rfl⟩, rfl, hgt⟩
  rw [clearInheritedReasoningEffort, get?_foldl_clearEffort]
  simp only [hrow]
  split_ifs <;> first | rfl | omega

theorem get?_clearInheritedReasoningEffort_of_ne {m : Merge} {key : PyStr} (h : ∀ r : Role, key ≠ r.effortKey) :
    (clearInheritedReasoningEffort m).get? key = m.values.get? key := by
  rw [clearInheritedReasoningEffort, get?_foldl_clearEffort, if_neg]
  rintro ⟨p, hp, heq, -⟩
  obtain ⟨r, -, rfl⟩ := List.mem_map.mp hp
  exact h r heq

end ServerConfig

end SubagentsLab
