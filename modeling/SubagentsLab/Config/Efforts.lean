import SubagentsLab.Config.Load

/-!
# Config/Efforts — which reasoning effort is used

A role's effort is used where no layer above the one that set it changes the role's merged model
(`effort_used_iff`), and cleared otherwise.  A layer that gives the model it finds drops no effort; a higher
layer that gives another model drops it for good, even if a layer above gives the first model again.
-/

namespace SubagentsLab

open Machinery

namespace ServerConfig

/-- No layer above the highest one that sets the role's effort changes the role's merged model. -/
def ModelKept (rt : Runtime) (layers : List (ℤ × Mapping)) (r : Role) : Prop :=
  ∀ layer ≥ highest rt r.effortKey layers,
    merged rt r.modelKey (upTo layer layers) = merged rt r.modelKey (upTo (highest rt r.effortKey layers) layers)

variable {rt : Runtime} {layers : List (ℤ × Mapping)}

/-- An effort that a layer sets is no empty one. -/
theorem effort_of_merged {r : Role} {effort : Value} (h : merged rt r.effortKey layers = some effort) :
    effort.truthy = true ∧ ∃ text, effort.text rt = .ok text ∧ text.isBlank = false := by
  have hset : isSet rt effort = true := by
    induction layers using List.reverseRecOn with
    | nil => cases h
    | append_singleton layers e ih =>
      rw [merged_concat, Option.or_eq_some_iff, said, if_pos r.effortKey_mem.2.2] at h
      rcases h with h | ⟨-, h⟩
      · exact (Option.filter_eq_some_iff.mp h).2
      · exact ih h
  rw [isSet, decide_eq_true_eq, effectivelySet] at hset
  split_ifs at hset with htruthy
  · obtain ⟨text, htext, hblank⟩ := Checks.map_eq_ok_iff.mp hset
    exact ⟨htruthy, text, htext, by simpa using hblank⟩
  · cases hset

theorem neg_one_le_highest {key : PyStr} (h : ∀ e ∈ layers, 0 ≤ e.1) : -1 ≤ highest rt key layers := by
  induction layers using List.reverseRecOn with
  | nil => exact le_rfl
  | append_singleton layers e ih =>
    rw [highest_concat]
    split_ifs
    · exact (by decide : (-1 : ℤ) ≤ 0).trans (h e (by simp))
    · exact ih fun e' he' => h e' (List.mem_append_left _ he')

/-- Some layer is above all. -/
theorem exists_upTo_eq_self (n : ℤ) (layers : List (ℤ × Mapping)) : ∃ layer ≥ n, upTo layer layers = layers := by
  have hbound : ∃ layer ≥ n, ∀ e ∈ layers, e.1 ≤ layer := by
    induction layers with
    | nil => exact ⟨n, le_rfl, fun e he => (nomatch he)⟩
    | cons e layers ih =>
      obtain ⟨layer, hn, hall⟩ := ih
      refine ⟨max layer e.1, hn.trans (le_max_left _ _), ?_⟩
      rintro e' (_ | ⟨_, he'⟩)
      · exact le_max_right _ _
      · exact (hall e' he').trans (le_max_left _ _)
  obtain ⟨layer, hn, hall⟩ := hbound
  exact ⟨layer, hn, upTo_eq_self hall⟩

/-- The model policy of a role has a label. -/
theorem readModelPolicy_ne_nil {values : Mapping} {r : Role} {label default : String} {policy : Dict PyStr PyStr}
    (h : readModelPolicy rt values r label default = .ok policy) : policy.entries ≠ [] := by
  rw [readModelPolicy] at h
  split at h
  · cases h
    exact List.cons_ne_nil _ _
  · obtain ⟨model, -, rfl⟩ := Checks.map_eq_ok_iff.mp h
    exact List.cons_ne_nil _ _

/-- The efforts of a configuration, by role. -/
theorem reasoningEffortPolicy_ok {inp : Inputs} (hlayers : layerMaps inp = .ok layers) {cfg : ServerConfig}
    (h : loadConfig rt inp = .ok cfg) (r : Role) :
    (cfg.modelPolicy r).entries ≠ [] ∧ ∃ values : Mapping,
      readReasoningEffortPolicy rt values r (cfg.modelPolicy r) = .ok (cfg.reasoningEffortPolicy r) ∧
        (ModelKept rt layers r → values.get? r.effortKey = merged rt r.effortKey layers) ∧
          (¬ModelKept rt layers r → values.get? r.effortKey = none) := by
  obtain ⟨s, endpoints, hs, -, rfl, -⟩ := loadConfig_ok h
  obtain ⟨hvalues, -, -, -, -, hpolicies⟩ := loadSettings_ok hs
  obtain ⟨hmaps, m, hm, hclear, -⟩ := loadValues_ok hvalues
  obtain rfl : layers = s.layerMaps := by
    rw [hlayers] at hmaps
    exact Except.ok.inj hmaps
  obtain ⟨hrouterModel, hworkerModel, hrouter, hworker⟩ := loadPolicies_ok hpolicies
  have hlayered := layered_layerMaps hmaps
  have hkept : layerOf m.layers r.modelKey ≤ layerOf m.layers r.effortKey ↔ ModelKept rt s.layerMaps r := by
    rw [layerOf_effortKey hm]
    exact layerOf_modelKey_le_iff hlayered hm r (neg_one_le_highest hlayered.nonneg)
  have hget : s.values.get? r.effortKey =
      if layerOf m.layers r.modelKey ≤ layerOf m.layers r.effortKey then merged rt r.effortKey s.layerMaps else none := by
    rw [hclear, get?_clearInheritedReasoningEffort, get?_applyLayers hm]
  refine ⟨?_, s.values, ?_, fun hc => by rw [hget, if_pos (hkept.mpr hc)], fun hc => by
    rw [hget, if_neg fun hle => hc (hkept.mp hle)]⟩
  · cases r
    · exact readModelPolicy_ne_nil hrouterModel
    · exact readModelPolicy_ne_nil hworkerModel
  · cases r
    · exact hrouter
    · exact hworker

/-- **Which reasoning effort is used.**  Of an effort that some layer sets: the configuration has it, for the
labels of the role, exactly if no higher layer changes the role's merged model; otherwise it has none.  In
particular it has none where the merged model is another one than up to the layer of the effort. -/
theorem effort_used_iff (rt : Runtime) (inp : Inputs) (layers : List (ℤ × Mapping)) (cfg : ServerConfig) (r : Role)
    (effort : Value) (hlayers : layerMaps inp = .ok layers) (hload : loadConfig rt inp = .ok cfg)
    (heffort : merged rt r.effortKey layers = some effort) :
    ∃ text, effort.text rt = .ok text ∧
      (cfg.reasoningEffortPolicy r = (cfg.modelPolicy r).mapValues (fun _ => text) ↔ ModelKept rt layers r) ∧
      (cfg.reasoningEffortPolicy r = ∅ ↔ ¬ModelKept rt layers r) ∧
      (merged rt r.modelKey layers ≠ merged rt r.modelKey (upTo (highest rt r.effortKey layers) layers) →
        cfg.reasoningEffortPolicy r = ∅) := by
  obtain ⟨htruthy, text, htext, -⟩ := effort_of_merged heffort
  obtain ⟨hlabels, values, hread, hkept, hcleared⟩ := reasoningEffortPolicy_ok hlayers hload r
  have hused : ModelKept rt layers r → cfg.reasoningEffortPolicy r = (cfg.modelPolicy r).mapValues fun _ => text := by
    intro hc
    rw [readReasoningEffortPolicy, hkept hc, heffort, Option.filter_some_pos htruthy] at hread
    dsimp only at hread
    rw [htext] at hread
    exact (Except.ok.inj hread).symm
  have hempty : ¬ModelKept rt layers r → cfg.reasoningEffortPolicy r = ∅ := by
    intro hc
    rw [readReasoningEffortPolicy, hcleared hc] at hread
    exact (Except.ok.inj hread).symm
  have hne : (cfg.modelPolicy r).mapValues (fun _ => text) ≠ ∅ := by
    intro hc
    have hentries := congrArg Dict.entries hc
    exact hlabels (List.map_eq_nil_iff.mp hentries)
  refine ⟨text, htext, ⟨fun heq => ?_, hused⟩, ⟨fun heq hc => hne ((hused hc).symm.trans heq), hempty⟩, fun hchanged => ?_⟩
  · by_contra hc
    exact hne (heq.symm.trans (hempty hc))
  · obtain ⟨layer, hlayer, hall⟩ := exists_upTo_eq_self (highest rt r.effortKey layers) layers
    exact hempty fun hc => hchanged ((congrArg (merged rt r.modelKey) hall).symm.trans (hc layer hlayer))

/-- The worker's model in three layers, and its effort in the lowest. -/
def workerModels (toml envFile env : String) : Inputs where
  configFile := .document (mappingOf [("models", .table (mappingOf
    [("worker_model", .str (.ofString toml)), ("worker_reasoning_effort", .str (.ofString "medium"))]))])
  envFile := .mapping (mappingOf [("WEBSEARCH_WORKER_MODEL", .ofString envFile)])
  env := mappingOf [("WEBSEARCH_WORKER_MODEL", .ofString env)]

/-- What is evaluated of three layers that name the worker's model. -/
theorem workerModels_spec :
    ((layerMaps (workerModels "gpt-5" "gpt-5" "gpt-5")).map (merged .sample Role.worker.effortKey) =
        .ok (some (.str (.ofString "medium"))) ∧
      (loadConfig .sample (workerModels "gpt-5" "gpt-5" "gpt-5")).map
          (fun cfg => (modelPolicy cfg .worker, reasoningEffortPolicy cfg .worker)) =
        .ok (mappingOf [("deep", .ofString "gpt-5")], mappingOf [("deep", .ofString "medium")])) ∧
    (layerMaps (workerModels "gpt-5" "gpt-4.1" "gpt-5")).map (fun layers =>
        decide (merged .sample Role.worker.effortKey layers = some (.str (.ofString "medium")) ∧
          merged .sample Role.worker.modelKey layers =
            merged .sample Role.worker.modelKey (upTo (highest .sample Role.worker.effortKey layers) layers))) =
      .ok true ∧
    (loadConfig .sample (workerModels "gpt-5" "gpt-4.1" "gpt-5")).map (reasoningEffortPolicy · .worker) = .ok ∅ := by
  decide +kernel

/-- The model of `config.toml` is given again, in both layers above it. -/
theorem effort_used_iff_again : ∃ layers cfg, layerMaps (workerModels "gpt-5" "gpt-5" "gpt-5") = .ok layers ∧
    loadConfig .sample (workerModels "gpt-5" "gpt-5" "gpt-5") = .ok cfg ∧ ModelKept .sample layers .worker ∧
      reasoningEffortPolicy cfg .worker = mappingOf [("deep", .ofString "medium")] := by
  obtain ⟨⟨hlayers, hload⟩, -⟩ := workerModels_spec
  obtain ⟨layers, hlayers, heffort⟩ := Checks.map_eq_ok_iff.mp hlayers
  obtain ⟨cfg, hload, hpolicies⟩ := Checks.map_eq_ok_iff.mp hload
  obtain ⟨hmodels, hefforts⟩ := Prod.mk.inj hpolicies
  obtain ⟨text, htext, hused, -, -⟩ := effort_used_iff .sample _ layers cfg .worker _ hlayers hload heffort
  cases htext
  refine ⟨layers, cfg, hlayers, hload, hused.mp ?_, hefforts⟩
  rw [hmodels, hefforts]
  decide +kernel

/-- The env file gives another model, and the environment the model of `config.toml` again: the merged model
is the one that the effort was set with, and the effort is not used. -/
theorem effort_cleared_of_same_model : ∃ layers cfg, layerMaps (workerModels "gpt-5" "gpt-4.1" "gpt-5") = .ok layers ∧
    loadConfig .sample (workerModels "gpt-5" "gpt-4.1" "gpt-5") = .ok cfg ∧
      merged .sample Role.worker.effortKey layers = some (.str (.ofString "medium")) ∧
      merged .sample Role.worker.modelKey layers =
        merged .sample Role.worker.modelKey (upTo (highest .sample Role.worker.effortKey layers) layers) ∧
      reasoningEffortPolicy cfg .worker = ∅ := by
  obtain ⟨-, hlayers, hload⟩ := workerModels_spec
  obtain ⟨layers, hlayers, hsame⟩ := Checks.map_eq_ok_iff.mp hlayers
  obtain ⟨cfg, hload, hefforts⟩ := Checks.map_eq_ok_iff.mp hload
  obtain ⟨heffort, hmodel⟩ := of_decide_eq_true hsame
  exact ⟨layers, cfg, hlayers, hload, heffort, hmodel, hefforts⟩

end ServerConfig

end SubagentsLab
