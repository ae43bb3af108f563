import SubagentsLab.Machinery.Json
import SubagentsLab.Routing.Registry

/-!
# Routing/Router — whatever the provider answers

The provider's payload goes through three hands: fields a new worker must have are completed where the
registry leaves no choice, the result is parsed and validated as an envelope, and its decision is checked
against the catalogue.  What comes out selects only what the catalogue allows (`route_envelope_selects`).
-/

namespace SubagentsLab

open Machinery

/-- `RouterEnvelope`. -/
structure RouterEnvelope where
  decision : RoutingDecision
  prose : Option String := none
  deriving DecidableEq

/-- What the provider answers. -/
inductive RouterPayload
  | json (payload : Json)
  | decision (d : RoutingDecision)
  | envelope (e : RouterEnvelope)

/-! ## Completion -/

/-- `_complete_unambiguous_new_worker_fields`, on the dictionary of a decision. -/
def completeDecision (transcript : String) (c : WorkerCatalogue) (decision : Json) : Json :=
  let decision :=
    if decision.lacks "worker_type" ∧ c.workerTypes.card = 1 then
      decision.set "worker_type" (.str (c.workerTypes.sort.headD ""))
    else decision
  let decision :=
    if decision.lacks "model_policy" ∧ c.modelPolicies.length = 1 then
      decision.set "model_policy" (.str (c.modelPolicies.headD ""))
    else decision
  let decision :=
    if decision.lacks "capability" ∧ (decision.get? "worker_type").any (·.isStr "web_search") ∧
        "public_web" ∈ c.capabilityLabels then
      decision.set "capability" (.str "public_web")
    else decision
  let topic := Text.strip (" ".intercalate (Text.split transcript))
  if decision.lacks "topic" ∧ topic ≠ "" then decision.set "topic" (.str (Text.take topic 200)) else decision

/-- Whether a value is the dictionary of a new-worker decision. -/
def isNewWorker (container : Json) : Bool :=
  container.isObj && (container.get? "action").any (·.isStr "new_worker")

/-- `_complete_unambiguous_new_worker_fields`. -/
def completeUnambiguousNewWorkerFields (payload : Json) (transcript : String) (c : WorkerCatalogue) : Json :=
  let container := (payload.get? "decision").getD payload
  if !isNewWorker container then payload
  else
    let decision := completeDecision transcript c container
    if (payload.get? "decision").isSome then payload.set "decision" decision else decision

/-! ## Parsing -/

/-- How the model library reads a truth value and a whole number. -/
structure Coercions where
  bool : Json → Option Bool
  int : Json → Option ℤ

/-- A field of type `str | None`, with default `None`. -/
def optionalStr (v : Json) (field : String) : Option (Option String) :=
  match v.get? field with
  | none | some .null => some none
  | some w => w.asStr.map some

/-- The actions by their names. -/
def RouteAction.named : String → Option RouteAction
  | "direct" => some .direct
  | "unsupported" => some .unsupported
  | "clarify" => some .clarify
  | "existing_worker" => some .existingWorker
  | "new_worker" => some .newWorker
  | _ => none

/-- The fields of a `RoutingDecision`, by name. -/
def routingFieldNames : List String :=
  ["action", "worker_id", "worker_type", "topic", "capability", "capability_available", "model_policy",
    "catalogue_version", "catalogue_worker_ids", "origin_epoch"]

/-- Whether a value is a dictionary of these fields only. -/
def onlyFields (fields : List String) : Json → Bool
  | .obj members => members.all fun m => m.1 ∈ fields
  | _ => false

/-- `catalogue_worker_ids`: a tuple of strings, empty by default. -/
def workerIdsField (v : Json) : Option (List String) :=
  match v.get? "catalogue_worker_ids" with
  | none => some []
  | some (.arr items) => items.mapM Json.asStr
  | some _ => none

/-- `origin_epoch`: a whole number that is not negative, or `None`. -/
def originEpochField (coercions : Coercions) (v : Json) : Option (Option ℕ) :=
  match v.get? "origin_epoch" with
  | none | some .null => some none
  | some w => (coercions.int w).bind fun n => if n < 0 then none else some (some n.toNat)

/-- The fields of a dictionary, each of its type and no other. -/
def RoutingFields.ofJson (coercions : Coercions) (v : Json) : Option RoutingFields := do
  guard (onlyFields routingFieldNames v)
  let action ← ((v.get? "action").bind Json.asStr).bind RouteAction.named
  let workerId ← optionalStr v "worker_id"
  let workerType ← optionalStr v "worker_type"
  let topic ← optionalStr v "topic"
  let capability ← optionalStr v "capability"
  let capabilityAvailable ←
    match v.get? "capability_available" with
    | none => some true
    | some w => coercions.bool w
  let modelPolicy ← optionalStr v "model_policy"
  let catalogueVersion ← (v.get? "catalogue_version").bind Json.asStr
  let catalogueWorkerIds ← workerIdsField v
  let originEpoch ← originEpochField coercions v
  return { action, workerId, workerType, topic, capability, capabilityAvailable, modelPolicy, catalogueVersion,
           catalogueWorkerIds, originEpoch }

/-- `RoutingDecision.model_validate`. -/
def RoutingDecision.ofJson (coercions : Coercions) (v : Json) : Option RoutingDecision :=
  (RoutingFields.ofJson coercions v).bind fun fields =>
    if h : fields.validateSelection = .ok () then some ⟨fields, h⟩ else none

/-- `RouterEnvelope.model_validate`. -/
def RouterEnvelope.ofJson (coercions : Coercions) (v : Json) : Option RouterEnvelope := do
  guard (onlyFields ["decision", "prose"] v)
  let decision ← (v.get? "decision").bind (RoutingDecision.ofJson coercions)
  let prose ← optionalStr v "prose"
  return { decision, prose }

/-- The action's name. -/
def RouteAction.name : RouteAction → String
  | direct => "direct"
  | unsupported => "unsupported"
  | clarify => "clarify"
  | existingWorker => "existing_worker"
  | newWorker => "new_worker"

/-- `RoutingDecision.model_dump`. -/
def RoutingFields.modelDump (d : RoutingFields) : Json :=
  let text (o : Option String) : Json := o.elim .null .str
  .obj
    [("action", .str d.action.name), ("worker_id", text d.workerId), ("worker_type", text d.workerType),
      ("topic", text d.topic), ("capability", text d.capability),
      ("capability_available", .bool d.capabilityAvailable), ("model_policy", text d.modelPolicy),
      ("catalogue_version", .str d.catalogueVersion),
      ("catalogue_worker_ids", .arr (d.catalogueWorkerIds.map .str)),
      ("origin_epoch", d.originEpoch.elim .null fun n => .int n)]

/-- The envelope of a payload, before the catalogue is asked. -/
def parsePayload (coercions : Coercions) (payload : RouterPayload) (transcript : String) (c : WorkerCatalogue) :
    Option RouterEnvelope :=
  let parse (payload : Json) : Option RouterEnvelope :=
    let payload := completeUnambiguousNewWorkerFields payload transcript c
    RouterEnvelope.ofJson coercions
      (if (payload.get? "decision").isSome then payload else .obj [("decision", payload)])
  match payload with
  | .envelope e => some e
  | .decision d => parse d.modelDump
  | .json v => parse v

/-- `Router.route_envelope`. -/
def routeEnvelope (coercions : Coercions) (payload : RouterPayload) (transcript : String) (c : WorkerCatalogue) :
    Except String RouterEnvelope :=
  match parsePayload coercions payload transcript c with
  | none => .error "router returned an invalid routing decision"
  | some e =>
    match validateDecision e.decision.toRoutingFields c with
    | .error text => .error text
    | .ok () => .ok e

/-! ## What completion leaves alone -/

/-- The fields that may be completed. -/
def completable : List String := ["worker_type", "model_policy", "capability", "topic"]

/-- Nothing is changed but completable fields that were missing. -/
def Completes (v w : Json) : Prop :=
  w.isObj = v.isObj ∧ ∀ k, w.get? k = v.get? k ∨ (k ∈ completable ∧ v.lacks k = true)

theorem Completes.refl (v : Json) : Completes v v := ⟨rfl, fun _ => Or.inl rfl⟩

theorem Completes.set {v w : Json} (h : Completes v w) {field : String} (hfield : field ∈ completable)
    (hobj : v.isObj = true) (hlacks : w.lacks field = true) (value : Json) :
    Completes v (w.set field value) := by
  refine ⟨(w.isObj_set value field).trans h.1, fun k => ?_⟩
  rw [Json.get?_set (h.1.trans hobj)]
  split_ifs with hk
  · subst hk
    refine Or.inr ⟨hfield, ?_⟩
    rcases h.2 k with hsame | ⟨-, hv⟩
    · rw [Json.lacks, ← hsame]
      exact hlacks
    · exact hv
  · exact h.2 k

theorem completes_completeDecision (transcript : String) (c : WorkerCatalogue) {v : Json} (hobj : v.isObj = true) :
    Completes v (completeDecision transcript c v) := by
  have hset : ∀ {w : Json} {field : String} {p : Prop} [Decidable p] (value : Json), field ∈ completable →
      Completes v w → Completes v (if w.lacks field ∧ p then w.set field value else w) := by
    intro w field p _ value hfield hw
    split_ifs with hlacks
    · exact hw.set hfield hobj hlacks.1 value
    · exact hw
  exact hset _ (by decide) (hset _ (by decide) (hset _ (by decide) (hset _ (by decide) (.refl v))))

/-- Any payload but that of a new worker is left as it is, and in that one everything but missing fields of
the decision. -/
def CompletesOnly (payload completed : Json) : Prop :=
  (isNewWorker ((payload.get? "decision").getD payload) = false → completed = payload) ∧
    (isNewWorker ((payload.get? "decision").getD payload) = true →
      (payload.get? "decision" = none → Completes payload completed) ∧
      ∀ decision, payload.get? "decision" = some decision →
        (∃ decision', Completes decision decision' ∧ completed.get? "decision" = some decision') ∧
        ∀ k, k ≠ "decision" → completed.get? k = payload.get? k)

/-- **Completion touches missing fields of a new worker only.** -/
theorem completesOnly_payload (payload : Json) (transcript : String) (c : WorkerCatalogue) :
    CompletesOnly payload (completeUnambiguousNewWorkerFields payload transcript c) := by
  refine ⟨fun hnot => by rw [completeUnambiguousNewWorkerFields, hnot]; rfl, fun hnew => ⟨fun hnone => ?_,
    fun decision hsome => ?_⟩⟩
  · have hcomplete : completeUnambiguousNewWorkerFields payload transcript c =
        completeDecision transcript c payload := by
      rw [hnone, Option.getD_none] at hnew
      simp [completeUnambiguousNewWorkerFields, hnone, hnew]
    rw [hcomplete]
    refine completes_completeDecision transcript c ?_
    rw [hnone, Option.getD_none, isNewWorker, Bool.and_eq_true] at hnew
    exact hnew.1
  · rw [hsome, Option.getD_some] at hnew
    have hcomplete : completeUnambiguousNewWorkerFields payload transcript c =
        payload.set "decision" (completeDecision transcript c decision) := by
      simp [completeUnambiguousNewWorkerFields, hsome, hnew]
    have hobj : payload.isObj = true := by
      cases payload with
      | obj members => rfl
      | _ => cases hsome
    rw [isNewWorker, Bool.and_eq_true] at hnew
    rw [hcomplete]
    refine ⟨⟨_, completes_completeDecision transcript c hnew.1, ?_⟩, fun k hk => ?_⟩
    · rw [Json.get?_set hobj, if_pos rfl]
    · rw [Json.get?_set hobj, if_neg hk]

/-! ## The guarantee -/

/-- **The router fails closed**: whatever the provider answered, an envelope that comes out is of the
catalogue's snapshot and selects only what the catalogue allows. -/
theorem route_envelope_selects (coercions : Coercions) (r : WorkerRegistry) (payload : RouterPayload)
    (transcript : String) :
    (∀ e, routeEnvelope coercions payload transcript r.catalogue = .ok e →
      e.decision.catalogueVersion = r.catalogue.version ∧
      e.decision.catalogueWorkerIds = r.catalogue.workerIds ∧ Selects e.decision.toRoutingFields r.catalogue) ∧
    ∀ v, CompletesOnly v (completeUnambiguousNewWorkerFields v transcript r.catalogue) := by
  refine ⟨fun e hroute => ?_, fun v => completesOnly_payload v transcript r.catalogue⟩
  have hvalid : validateDecision e.decision.toRoutingFields r.catalogue = .ok () := by
    rw [routeEnvelope] at hroute
    split at hroute
    · cases hroute
    · split at hroute
      · cases hroute
      · rename_i hvalid
        cases hroute
        exact hvalid
  obtain ⟨hversion, hids⟩ := snapshot_of_validateDecision hvalid
  exact ⟨hversion, hids, selects_of_validateDecision r.modelPolicies_ne_nil r.capabilityLabels_ne_nil hvalid⟩

/-- Truth values and whole numbers, read as what they are. -/
def Coercions.plain : Coercions where
  bool
    | .bool b => some b
    | _ => none
  int
    | .int n => some n
    | _ => none

/-- A provider that leaves all that can be completed. -/
abbrev sparse : RouterPayload :=
  .json (.obj [("action", .str "new_worker"), ("worker_type", .null), ("catalogue_version", .str "catalogue-0")])

/-- The decision that is completed for it. -/
def pasta : RoutingDecision where
  action := .newWorker
  workerType := "web_search"
  topic := "cook pasta"
  capability := "public_web"
  modelPolicy := "deep"
  catalogueVersion := "catalogue-0"
  selection := by rfl

theorem route_envelope_selects_sparse :
    routeEnvelope .plain sparse " cook  pasta" (WorkerRegistry.after .default []).catalogue = .ok ⟨pasta, none⟩ ∧
      Selects pasta.toRoutingFields (WorkerRegistry.after .default []).catalogue := by
  have hroute : routeEnvelope .plain sparse " cook  pasta" (WorkerRegistry.after .default []).catalogue =
      .ok ⟨pasta, none⟩ := by decide +kernel
  exact ⟨hroute, ((route_envelope_selects .plain (WorkerRegistry.after .default []) sparse " cook  pasta").1 _ hroute).2.2⟩

end SubagentsLab
