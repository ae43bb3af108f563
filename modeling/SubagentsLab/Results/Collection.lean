import SubagentsLab.Machinery.CodePoints
import SubagentsLab.Machinery.Search

/-!
# Results/Collection — the citations in a provider response

`_response_citations` walks a response breadth first.  A response is a graph of objects: mappings, sequences, and
other objects with attributes; it may share, be cyclic or never end.  The walk remembers an object by what `id`
gives for it, and that only tells apart objects which are alive together: an attribute that builds its object on
access builds one that is gone when the walk has passed it, and the next one built may have its id.  Strings,
numbers and `None` are not remembered at all: they are visited as often as they are met, and one of a class with
attributes of its own is cited as often.

Three limits bound the walk, whatever the graph.  Short of them it cites what the walk by ids holds, in
breadth-first order, and if no id is given twice that is every object up to the depth limit
(`response_citations_bounded_complete`).  A sequence passes the depth limit on: what it holds is enqueued one
level too deep, and dropped when it is visited.
-/

namespace SubagentsLab

open Machinery

/-- What an object is to `_response_citations`; `ν` are the objects there are, or that will be built on access. -/
inductive ResponseNode (ν : Type*)
  | none
  /-- A string, with the attributes its class may have. -/
  | text (s : PyStr) (attr : String → Option ν)
  /-- `bytes`, `int`, `float` and `bool`. -/
  | scalar (attr : String → Option ν)
  /-- A mapping, by its `get` and its `values`. -/
  | mapping (get : String → Option ν) (values : List ν)
  /-- A list or a tuple. -/
  | sequence (items : List ν)
  /-- Any other object, by its attributes. -/
  | object (attr : String → Option ν)

/-- The objects of a response, what `id` gives for each as it is visited, and what `bool`, `str` and `lower` make of
them. -/
structure ResponseGraph (ν : Type*) where
  node : ν → ResponseNode ν
  identity : ν → ℕ
  truthy : ν → Bool
  str : ν → PyStr
  lower : PyStr → PyStr

/-- A citation as it is collected: `{"title": ..., "url": ...}`. -/
structure SourceLink where
  title : PyStr
  url : PyStr
  deriving DecidableEq, Repr

namespace ResponseNode

variable {ν : Type*}

/-- The object is remembered. -/
def tracked : ResponseNode ν → Bool
  | mapping _ _ | sequence _ | object _ => true
  | _ => false

/-- `value is None`. -/
def isNone : ResponseNode ν → Bool
  | none => true
  | _ => false

/-- `_value(value, name)`, where there is one. -/
def value? : ResponseNode ν → String → Option ν
  | mapping get _, name => get name
  | object attr, name | text _ attr, name | scalar attr, name => attr name
  | _, _ => Option.none

/-- The object takes the last branch: no mapping and no sequence.  `None` has none of the attributes. -/
def attributes? : ResponseNode ν → Option (String → Option ν)
  | object attr | text _ attr | scalar attr => some attr
  | _ => Option.none

end ResponseNode

namespace ResponseGraph

variable {ν : Type*} (g : ResponseGraph ν)

/-- The string the object is. -/
def asText (v : ν) : Option PyStr :=
  match g.node v with
  | .text s _ => some s
  | _ => none

/-- What the object is remembered by. -/
def key (v : ν) : Option ℕ := if (g.node v).tracked then some (g.identity v) else none

/-- `str(title or "")`. -/
def titleText (title : Option ν) : PyStr := title.elim [] fun t => if g.truthy t then g.str t else []

/-- `"citation" in str(value.get("type", "")).lower()`. -/
def namesCitation (type : Option ν) : Bool := (g.lower (type.elim [] g.str)).contains (.ofString "citation")

/-- The citation of an object, by the rules for mappings and for other objects. -/
def citation? (v : ν) : Option SourceLink :=
  match g.node v with
  | .mapping get _ =>
    ((get "url").bind g.asText).bind fun url =>
      if g.namesCitation (get "type") || (get "title").isSome then some ⟨g.titleText (get "title"), url⟩ else none
  | .sequence _ => none
  | node =>
    node.attributes?.bind fun attr => ((attr "url").bind g.asText).map fun url => ⟨g.titleText (attr "title"), url⟩

/-- The attributes that are followed. -/
def childNames : List String := ["output", "content", "annotations", "results", "action", "sources"]

/-- What the enqueuing loops go over; an attribute that is not there, or is `None`, is passed by. -/
def children (v : ν) : List (Option ν) :=
  match g.node v with
  | .mapping _ values => values.map some
  | .sequence items => items.map some
  | node =>
    node.attributes?.elim [] fun attr =>
      childNames.map fun name => (attr name).filter fun child => !(g.node child).isNone

/-- The objects an object leads to. -/
def successors (v : ν) : List ν := (g.children v).filterMap id

/-- Whether the children are enqueued at this depth. -/
def expands (maxDepth : ℕ) (v : ν) (depth : ℕ) : Bool :=
  match g.node v with
  | .sequence _ => true
  | _ => depth < maxDepth

end ResponseGraph

/-- The locals of `_response_citations`. -/
structure Collector (ν : Type*) where
  citations : List SourceLink := []
  pending : List (ν × ℕ)
  seen : List ℕ := []
  visitedNodes : ℕ := 0

/-- The limits `_response_citations` is given. -/
structure CollectionLimits where
  maxCandidates : ℕ
  maxDepth : ℕ := 64
  maxNodes : ℕ := 10000

namespace Collector

variable {ν : Type*} (g : ResponseGraph ν) (limits : CollectionLimits)

/-- The loop condition; the break at the end of the body asks part of it again. -/
def running (s : Collector ν) : Bool :=
  decide (s.pending ≠ []) && decide (s.visitedNodes < limits.maxNodes) &&
    decide (s.citations.length < limits.maxCandidates)

/-- The enqueuing loop: it breaks when what is visited and pending fills the budget. -/
def enqueue (visitedNodes depth : ℕ) : List (Option ν) → List (ν × ℕ) → List (ν × ℕ)
  | [], pending => pending
  | child :: rest, pending =>
    if limits.maxNodes ≤ visitedNodes + pending.length then pending
    else enqueue visitedNodes depth rest (pending ++ (child.map fun c => (c, depth)).toList)

/-- The body of the loop for an object that is not skipped. -/
def visit (s : Collector ν) (v : ν) (depth : ℕ) : Collector ν :=
  { s with
    citations := s.citations ++ (g.citation? v).toList
    pending :=
      if g.expands limits.maxDepth v depth then enqueue limits s.visitedNodes (depth + 1) (g.children v) s.pending
      else s.pending }

/-- The body of the loop. -/
def step (s : Collector ν) : Collector ν :=
  match s.pending with
  | [] => s
  | (v, depth) :: pending =>
    let s := { s with pending, visitedNodes := s.visitedNodes + 1 }
    if limits.maxDepth < depth then s
    else if (g.node v).tracked then
      if g.identity v ∈ s.seen then s else visit g limits { s with seen := g.identity v :: s.seen } v depth
    else visit g limits s v depth

/-- So many rounds of the loop at most. -/
def collect : ℕ → Collector ν → Collector ν
  | 0, s => s
  | n + 1, s => if s.running limits then collect n (s.step g limits) else s

/-- The locals as the loop begins. -/
def start (response : ν) : Collector ν := { pending := [(response, 0)] }

end Collector

/-- The locals of `_response_citations` at its end; every round visits a node (`collected_halts`). -/
def collected {ν : Type*} (g : ResponseGraph ν) (limits : CollectionLimits) (response : ν) :
    Collector ν :=
  (Collector.start response).collect g limits limits.maxNodes

/-- `_response_citations`. -/
def responseCitations {ν : Type*} (g : ResponseGraph ν) (limits : CollectionLimits) (response : ν) :
    List SourceLink :=
  (collected g limits response).citations

namespace Collector

variable {ν : Type*} {g : ResponseGraph ν} {limits : CollectionLimits} {s : Collector ν}

/-! ## What a round does -/

theorem length_le_enqueue (visitedNodes depth : ℕ) (cs : List (Option ν)) (pending : List (ν × ℕ)) :
    pending.length ≤ (enqueue limits visitedNodes depth cs pending).length := by
  induction cs generalizing pending with
  | nil => exact le_rfl
  | cons c cs ih =>
    rw [enqueue]
    split_ifs
    · exact le_rfl
    · refine le_trans ?_ (ih _)
      rw [List.length_append]
      omega

/-- The loop enqueues everything, or the budget is filled. -/
theorem enqueue_spec (visitedNodes depth : ℕ) (cs : List (Option ν)) (pending : List (ν × ℕ)) :
    limits.maxNodes ≤ visitedNodes + (enqueue limits visitedNodes depth cs pending).length ∨
      enqueue limits visitedNodes depth cs pending = pending ++ (cs.filterMap id).map fun c => (c, depth) := by
  induction cs generalizing pending with
  | nil => exact .inr (List.append_nil _).symm
  | cons c cs ih =>
    rw [enqueue]
    split_ifs with hfull
    · exact .inl hfull
    · refine (ih _).imp_right fun h => ?_
      rw [h, List.append_assoc]
      cases c <;> rfl

/-- What is enqueued of a node at a depth. -/
def enqueued (g : ResponseGraph ν) (limits : CollectionLimits) (depth : ℕ) (v : ν) : List ν :=
  if g.expands limits.maxDepth v depth then g.successors v else []

theorem length_le_visit (v : ν) (depth : ℕ) : s.pending.length ≤ (visit g limits s v depth).pending.length := by
  rw [visit]
  dsimp only
  split_ifs
  · exact length_le_enqueue _ _ _ _
  · exact le_rfl

theorem visit_spec (v : ν) (depth : ℕ) :
    limits.maxNodes ≤ (visit g limits s v depth).visitedNodes + (visit g limits s v depth).pending.length ∨
      (visit g limits s v depth).pending
        = s.pending ++ (enqueued g limits depth v).map fun c => (c, depth + 1) := by
  rw [visit, enqueued]
  dsimp only
  split_ifs
  · exact enqueue_spec _ _ _ _
  · exact .inr (List.append_nil _).symm

variable (g limits) in
/-- **A round**: the first pending object is skipped, or visited. -/
theorem step_cases {v : ν} {depth : ℕ} {pending : List (ν × ℕ)} (hp : s.pending = (v, depth) :: pending) :
    ((limits.maxDepth < depth ∨ ∃ k ∈ s.seen, g.key v = some k) ∧
        s.step g limits = { s with pending, visitedNodes := s.visitedNodes + 1 }) ∨
      ((depth ≤ limits.maxDepth ∧ ¬∃ k ∈ s.seen, g.key v = some k) ∧
        s.step g limits = visit g limits
          { s with
            pending
            visitedNodes := s.visitedNodes + 1
            seen := (g.key v).toList ++ s.seen } v depth) := by
  rw [step, hp, ResponseGraph.key]
  dsimp only
  by_cases hdeep : limits.maxDepth < depth
  · exact .inl ⟨.inl hdeep, if_pos hdeep⟩
  · rw [if_neg hdeep]
    by_cases htracked : (g.node v).tracked = true
    · rw [if_pos htracked, if_pos htracked]
      by_cases hseen : g.identity v ∈ s.seen
      · exact .inl ⟨.inr ⟨_, hseen, rfl⟩, by rw [if_pos hseen]⟩
      · refine .inr ⟨⟨Nat.le_of_not_lt hdeep, ?_⟩, by rw [if_neg hseen]; rfl⟩
        rintro ⟨k, hk, heq⟩
        exact hseen (Option.some.inj heq ▸ hk)
    · rw [if_neg htracked, if_neg htracked]
      refine .inr ⟨⟨Nat.le_of_not_lt hdeep, ?_⟩, rfl⟩
      rintro ⟨k, -, heq⟩
      cases heq

variable (g limits) in
/-- A round visits one node and cites it at most once; what is visited and pending never shrinks. -/
theorem step_counts (hpending : s.pending ≠ []) :
    (s.step g limits).visitedNodes = s.visitedNodes + 1 ∧
      (s.step g limits).citations.length ≤ s.citations.length + 1 ∧
      s.visitedNodes + s.pending.length ≤ (s.step g limits).visitedNodes + (s.step g limits).pending.length := by
  obtain ⟨⟨v, depth⟩, pending, hp⟩ := List.exists_cons_of_ne_nil hpending
  have hlength : s.pending.length = pending.length + 1 := by rw [hp, List.length_cons]
  rcases step_cases g limits hp with ⟨-, hstep⟩ | ⟨-, hstep⟩
  · rw [hstep]
    dsimp only
    omega
  · rw [hstep]
    refine ⟨rfl, ?_, ?_⟩
    · rw [visit, List.length_append]
      exact Nat.add_le_add_left (Option.length_toList_le) _
    · refine le_trans ?_ (Nat.add_le_add_left (length_le_visit v depth) _)
      change s.visitedNodes + s.pending.length ≤ s.visitedNodes + 1 + pending.length
      omega

/-! ## Limits -/

variable (g limits) in
/-- What the rounds keep of the limits. -/
theorem collect_within (n : ℕ) (hvisited : s.visitedNodes + n ≤ limits.maxNodes)
    (hcited : s.citations.length ≤ limits.maxCandidates) :
    (s.collect g limits n).visitedNodes ≤ s.visitedNodes + n ∧
      (s.collect g limits n).citations.length ≤ limits.maxCandidates := by
  induction n generalizing s with
  | zero => exact ⟨le_rfl, hcited⟩
  | succ n ih =>
    rw [collect]
    split_ifs with hrun
    · simp only [running, Bool.and_eq_true, decide_eq_true_eq] at hrun
      obtain ⟨h1, h2, -⟩ := step_counts g limits hrun.1.1
      obtain ⟨hv, hc⟩ := ih (s := s.step g limits) (by omega) (by omega)
      exact ⟨by omega, hc⟩
    · exact ⟨Nat.le_add_right _ _, hcited⟩

variable (g) in
/-- So many rounds as the budget has left are enough. -/
theorem collect_halts (n : ℕ) (hbudget : limits.maxNodes ≤ s.visitedNodes + n) :
    (s.collect g limits n).running limits = false := by
  induction n generalizing s with
  | zero =>
    have hfull : ¬s.visitedNodes < limits.maxNodes := by omega
    simp [collect, running, hfull]
  | succ n ih =>
    rw [collect]
    split_ifs with hrun
    · simp only [running, Bool.and_eq_true, decide_eq_true_eq] at hrun
      have h1 := (step_counts g limits hrun.1.1).1
      exact ih (by omega)
    · exact Bool.eq_false_iff.mpr hrun

/-! ## Breadth-first order -/

variable (g limits) in
/-- The walk on a level: of what the level before leads to, `done` has been visited and `rest` is pending,
with what `done` leads to behind it. -/
structure AtLevel (response : ν) (depth : ℕ) (done rest : List ν) (s : Collector ν) : Prop where
  depth_le : depth ≤ limits.maxDepth
  met_eq : done ++ rest = met g.key g.successors response depth
  pending_eq : s.pending = rest.map (fun v => (v, depth)) ++
    ((fresh g.key ((before g.key g.successors response depth).filterMap g.key) done).flatMap
      (enqueued g limits depth)).map fun v => (v, depth + 1)
  mem_seen : ∀ k, k ∈ s.seen ↔ k ∈ (before g.key g.successors response depth).filterMap g.key ++
    (fresh g.key ((before g.key g.successors response depth).filterMap g.key) done).filterMap g.key
  cited_eq : s.citations = (before g.key g.successors response depth ++
    fresh g.key ((before g.key g.successors response depth).filterMap g.key) done).filterMap g.citation?

variable (g limits) in
/-- Every level has been visited; what is pending is too deep. -/
structure Beyond (response : ν) (s : Collector ν) : Prop where
  deep : ∀ p ∈ s.pending, limits.maxDepth < p.2
  cited_eq : s.citations = (breadthFirst g.key g.successors response limits.maxDepth).filterMap g.citation?

variable (g limits) in
/-- The walk is in breadth-first order. -/
def InOrder (response : ν) (s : Collector ν) : Prop :=
  Beyond g limits response s ∨ ∃ depth done v rest, AtLevel g limits response depth done (v :: rest) s

theorem enqueued_of_lt {depth : ℕ} (h : depth < limits.maxDepth) (v : ν) :
    enqueued g limits depth v = g.successors v := by
  rw [enqueued, ResponseGraph.expands]
  cases g.node v <;> simp [h]

theorem atLevel_start (response : ν) : AtLevel g limits response 0 [] [response] (start response) where
  depth_le := Nat.zero_le _
  met_eq := rfl
  pending_eq := rfl
  mem_seen := fun _ => Iff.rfl
  cited_eq := rfl

variable {response v : ν} {depth : ℕ} {done rest : List ν}

/-- A level that has been visited gives way to the next. -/
theorem AtLevel.inOrder (h : AtLevel g limits response depth done rest s) : InOrder g limits response s := by
  rcases rest with _ | ⟨v, rest⟩
  · have hdone : done = met g.key g.successors response depth := by rw [← h.met_eq, List.append_nil]
    obtain ⟨hdepth, -, hpending, hseen, hcited⟩ := h
    rw [hdone, ← level_eq_fresh] at hpending hcited
    rw [← breadthFirst_eq_append] at hcited
    simp only [hdone, ← level_eq_fresh, ← List.filterMap_append, ← breadthFirst_eq_append] at hseen
    rcases Nat.lt_or_eq_of_le hdepth with hlt | rfl
    · rw [List.flatMap_congr fun v _ => enqueued_of_lt hlt v] at hpending
      rcases hmet : met g.key g.successors response (depth + 1) with _ | ⟨v, rest⟩
      · have hnil : level g.key g.successors response (depth + 1) = [] := by rw [level_eq_fresh, hmet, fresh]
        rw [met] at hmet
        refine .inl ⟨fun p hp => ?_, by rw [hcited, breadthFirst_eq hdepth hnil]⟩
        rw [hpending, hmet] at hp
        exact absurd hp List.not_mem_nil
      · refine .inr ⟨depth + 1, [], v, rest, hlt, hmet.symm, ?_, ?_, ?_⟩
        · rw [hpending, ← hmet, met, fresh, List.flatMap_nil]
          exact (List.append_nil _).symm
        · rw [fresh, List.filterMap_nil, List.append_nil]
          exact hseen
        · rw [fresh, List.append_nil]
          exact hcited
    · refine .inl ⟨fun p hp => ?_, hcited⟩
      rw [hpending, List.map_nil, List.nil_append] at hp
      obtain ⟨v, -, rfl⟩ := List.mem_map.mp hp
      exact Nat.lt_succ_self limits.maxDepth
  · exact .inr ⟨depth, done, v, rest, h⟩

/-- One more of the level has been met. -/
theorem AtLevel.fresh_snoc (h : AtLevel g limits response depth done (v :: rest) s) :
    fresh g.key ((before g.key g.successors response depth).filterMap g.key) (done ++ [v])
      = fresh g.key ((before g.key g.successors response depth).filterMap g.key) done ++
        if ∃ k ∈ s.seen, g.key v = some k then [] else [v] := by
  rw [fresh_append, fresh_singleton]
  simp only [h.mem_seen]

/-- A skipped node has a key that was met before. -/
theorem AtLevel.skip (h : AtLevel g limits response depth done (v :: rest) s) (hseen : ∃ k ∈ s.seen, g.key v = some k)
    {pending : List (ν × ℕ)} (hp : s.pending = (v, depth) :: pending) :
    AtLevel g limits response depth (done ++ [v]) rest
      { s with pending, visitedNodes := s.visitedNodes + 1 } := by
  have hfresh := h.fresh_snoc
  rw [if_pos hseen, List.append_nil] at hfresh
  refine ⟨h.depth_le, ?_, ?_, ?_, ?_⟩
  · rw [List.append_assoc, List.singleton_append, h.met_eq]
  · have hpending := h.pending_eq
    rw [hp, List.map_cons, List.cons_append, List.cons.injEq] at hpending
    rw [hfresh]
    exact hpending.2
  · rw [hfresh]
    exact h.mem_seen
  · rw [hfresh]
    exact h.cited_eq

/-- A visited node has a new key, or none. -/
theorem AtLevel.visit (h : AtLevel g limits response depth done (v :: rest) s)
    (hnew : ¬∃ k ∈ s.seen, g.key v = some k) {t : Collector ν} {pending : List (ν × ℕ)}
    (hp : s.pending = (v, depth) :: pending)
    (hcited : t.citations = s.citations ++ (g.citation? v).toList)
    (hpending : t.pending = pending ++ (enqueued g limits depth v).map fun c => (c, depth + 1))
    (hseen : t.seen = (g.key v).toList ++ s.seen) :
    AtLevel g limits response depth (done ++ [v]) rest t := by
  have hold := h.pending_eq
  rw [hp, List.map_cons, List.cons_append, List.cons.injEq] at hold
  have hfresh := h.fresh_snoc
  rw [if_neg hnew] at hfresh
  refine ⟨h.depth_le, by rw [List.append_assoc, List.singleton_append, h.met_eq], ?_, fun k => ?_, ?_⟩
  · rw [hpending, hold.2, hfresh, List.flatMap_append, List.flatMap_singleton, List.map_append, List.append_assoc]
  · rw [hfresh, List.filterMap_append, ← List.append_assoc, List.mem_append, ← h.mem_seen k, hseen, List.mem_append,
      or_comm, List.filterMap_cons, List.filterMap_nil]
    rcases g.key v with _ | k' <;> rfl
  · rw [hcited, h.cited_eq, hfresh, ← List.append_assoc, List.filterMap_append (l := _ ++ _), List.filterMap_cons,
      List.filterMap_nil]
    rcases g.citation? v with _ | c <;> rfl

/-- A round moves on within its level, unless it fills the budget. -/
theorem AtLevel.step (h : AtLevel g limits response depth done (v :: rest) s) :
    limits.maxNodes ≤ (s.step g limits).visitedNodes + (s.step g limits).pending.length ∨
      AtLevel g limits response depth (done ++ [v]) rest (s.step g limits) := by
  obtain ⟨pending, hp⟩ : ∃ pending, s.pending = (v, depth) :: pending := ⟨_, h.pending_eq⟩
  rcases step_cases g limits hp with ⟨hskip, hstep⟩ | ⟨⟨-, hnew⟩, hstep⟩
  · rw [hstep]
    rcases hskip with hdeep | hseen
    · exact absurd h.depth_le (Nat.not_le_of_lt hdeep)
    · exact .inr (h.skip hseen hp)
  · rw [hstep]
    exact (visit_spec v depth).imp id fun hpending => h.visit hnew hp rfl hpending rfl

/-- **A round keeps the order**, unless it fills the budget. -/
theorem InOrder.step (h : InOrder g limits response s) (hpending : s.pending ≠ []) :
    limits.maxNodes ≤ (s.step g limits).visitedNodes + (s.step g limits).pending.length ∨
      InOrder g limits response (s.step g limits) := by
  rcases h with ⟨hdeep, hcited⟩ | ⟨depth, done, v, rest, hlevel⟩
  · obtain ⟨⟨v, depth⟩, pending, hp⟩ := List.exists_cons_of_ne_nil hpending
    rw [hp, List.forall_mem_cons] at hdeep
    rcases step_cases g limits hp with ⟨-, hstep⟩ | ⟨⟨hle, -⟩, -⟩
    · rw [hstep]
      exact .inr (.inl ⟨hdeep.2, hcited⟩)
    · exact absurd hdeep.1 (Nat.not_lt_of_le hle)
  · exact hlevel.step.imp_right AtLevel.inOrder

/-- What the rounds keep: the order, or a filled budget. -/
theorem InOrder.collect (n : ℕ)
    (h : limits.maxNodes ≤ s.visitedNodes + s.pending.length ∨ InOrder g limits response s) :
    limits.maxNodes ≤ (s.collect g limits n).visitedNodes + (s.collect g limits n).pending.length ∨
      InOrder g limits response (s.collect g limits n) := by
  induction n generalizing s with
  | zero => exact h
  | succ n ih =>
    rw [Collector.collect]
    split_ifs with hrun
    · simp only [running, Bool.and_eq_true, decide_eq_true_eq] at hrun
      refine ih (h.elim (fun hfull => .inl ?_) fun horder => horder.step hrun.1.1)
      exact le_trans hfull (step_counts g limits hrun.1.1).2.2
    · exact h

/-- What a walk in order has collected when nothing is pending. -/
theorem InOrder.citations_eq (h : InOrder g limits response s) (hpending : s.pending = []) :
    s.citations = (breadthFirst g.key g.successors response limits.maxDepth).filterMap g.citation? := by
  rcases h with hbeyond | ⟨depth, done, v, rest, hlevel⟩
  · exact hbeyond.cited_eq
  · have hp := hlevel.pending_eq
    rw [hpending] at hp
    cases hp

end Collector

open Collector

/-! ## What is asked of it -/

section

variable {ν : Type*} (g : ResponseGraph ν) (limits : CollectionLimits) (response : ν)

/-- The walk ends within its limits. -/
def Bounded : Prop :=
  (collected g limits response).running limits = false ∧ (collected g limits response).visitedNodes ≤ limits.maxNodes ∧
    (responseCitations g limits response).length ≤ limits.maxCandidates

/-- Neither limit ended the walk. -/
def Unlimited : Prop :=
  (collected g limits response).visitedNodes < limits.maxNodes ∧
    (responseCitations g limits response).length < limits.maxCandidates

instance : Decidable (Unlimited g limits response) := inferInstanceAs (Decidable (_ ∧ _))

/-- Some walk of at most `maxDepth` steps leads to the object. -/
def ResponseGraph.Within (v : ν) : Prop := ∃ n ≤ limits.maxDepth, Reaches g.successors response n v

/-- No two objects that the walk can come to are remembered by one id: a response that holds its objects. -/
def ResponseGraph.IdsDistinct : Prop := KeysDistinct g.key g.successors response limits.maxDepth

/-- Strings and numbers that the walk can come to have no attributes that it reads. -/
def ResponseGraph.LeavesPlain : Prop :=
  ∀ v, g.Within limits response v → (g.node v).tracked = false → g.citation? v = none ∧ g.successors v = []

/-- **Bounded and complete collection, object by object**: the walk ends within its limits; and if neither ended it, its
result is the citations of the objects within `maxDepth`, each object once, level by level. -/
def BoundedComplete [DecidableEq ν] : Prop :=
  Bounded g limits response ∧ (Unlimited g limits response → ∃ order : List ν,
    responseCitations g limits response = order.filterMap g.citation? ∧ order.Nodup ∧
      (∀ v, v ∈ order ↔ g.Within limits response v) ∧
      order = (List.range (limits.maxDepth + 1)).flatMap (level some g.successors response) ∧
      ∀ n v, v ∈ level some g.successors response n ↔
        Reaches g.successors response n v ∧ ∀ m < n, ¬Reaches g.successors response m v)

/-- **The walk comes to an end**: the loop condition fails after the rounds the model allows it. -/
theorem collected_halts : (collected g limits response).running limits = false :=
  collect_halts g _ (Nat.le_add_left _ _)

theorem bounded : Bounded g limits response := by
  obtain ⟨hvisited, hcited⟩ := collect_within g limits (s := start response) limits.maxNodes
    (le_of_eq (Nat.zero_add _)) (Nat.zero_le _)
  exact ⟨collected_halts g limits response, le_of_le_of_eq hvisited (Nat.zero_add _), hcited⟩

/-- **What is collected short of the limits**: the citations of what the walk by ids holds. -/
theorem responseCitations_eq (h : Unlimited g limits response) : responseCitations g limits response
    = (breadthFirst g.key g.successors response limits.maxDepth).filterMap g.citation? := by
  obtain ⟨hnodes, hcandidates⟩ := h
  -- neither limit ended the loop, so nothing is pending and nothing was left out
  have hpending : (collected g limits response).pending = [] := by
    by_contra hne
    have hrunning : (collected g limits response).running limits = true := by
      simp only [running, Bool.and_eq_true, decide_eq_true_eq]
      exact ⟨⟨hne, hnodes⟩, hcandidates⟩
    rw [collected_halts] at hrunning
    cases hrunning
  have horder : InOrder g limits response (collected g limits response) := by
    refine (InOrder.collect limits.maxNodes (.inr (atLevel_start response).inOrder)).resolve_left fun hfull => ?_
    rw [← collected, hpending, List.length_nil] at hfull
    omega
  exact horder.citations_eq hpending

variable {g limits response}

theorem ResponseGraph.key_eq_none_iff {v : ν} : g.key v = none ↔ (g.node v).tracked = false := by
  rw [key]
  cases (g.node v).tracked <;> simp

/-- **Where ids tell the objects apart, and leaves are plain, collection is complete.** -/
theorem ResponseGraph.IdsDistinct.boundedComplete [DecidableEq ν] (hids : g.IdsDistinct limits response)
    (hleaves : g.LeavesPlain limits response) : BoundedComplete g limits response := by
  refine ⟨bounded g limits response, fun h => ⟨breadthFirst some g.successors response limits.maxDepth, ?_,
    ?_, fun _ => mem_breadthFirst_iff (keysDistinct_some _ _ _), breadthFirst_eq_flatMap _ _ _ _,
    fun _ _ => mem_level_iff (keysDistinct_some _ _ _) rfl⟩⟩
  · -- a leaf is cited in neither order
    have hcited : ∀ xs : List ν, (∀ v ∈ xs, g.Within limits response v) →
        (keyed g.key xs).filterMap g.citation? = xs.filterMap g.citation? := by
      intro xs hxs
      induction xs with
      | nil => rfl
      | cons v xs ih =>
        rw [List.forall_mem_cons] at hxs
        rcases hkey : g.key v with _ | k
        · rw [keyed_cons_of_none hkey, ih hxs.2,
            List.filterMap_cons_none (hleaves v hxs.1 (key_eq_none_iff.mp hkey)).1]
        · rw [keyed_cons_of_some hkey, List.filterMap_cons, List.filterMap_cons, ih hxs.2]
    rw [responseCitations_eq g limits response h, ← hcited _ fun v => reaches_of_mem_breadthFirst,
      keyed_breadthFirst hids fun v hv hkey => (hleaves v hv (key_eq_none_iff.mp hkey)).2,
      hcited _ fun v => reaches_of_mem_breadthFirst]
  · have hnodup : ((breadthFirst some g.successors response limits.maxDepth).filterMap some).Nodup :=
      nodup_keys_breadthFirst limits.maxDepth
    rwa [List.filterMap_some] at hnodup

end

/-- A mapping with a title and a list that holds an object twice, and the mapping again. -/
def sharedResponse : ResponseGraph ℕ where
  node
    | 0 => .mapping (fun name => if name = "url" then some 3 else if name = "title" then some 4 else none) [1, 3, 4]
    | 1 => .sequence [2, 0, 2]
    | 2 => .object fun name => if name = "url" then some 4 else if name = "output" then some 0 else none
    | 3 => .text (.ofString "https://a.example") fun _ => none
    | 4 => .text (.ofString "b") fun _ => none
    | _ => .none
  identity := id
  truthy _ := true
  str _ := .ofString "b"
  lower := id

/-- An object whose `output` is built on access, and so on: the third that is built is given the id of the first, which
is gone by then. -/
def builtOnAccess : ResponseGraph ℕ where
  node
    | 0 => .object fun name => if name = "url" then some 4 else if name = "output" then some 1 else none
    | 1 => .object fun name => if name = "url" then some 5 else if name = "output" then some 2 else none
    | 2 => .object fun name => if name = "url" then some 6 else if name = "output" then some 3 else none
    | 3 => .object fun name => if name = "url" then some 7 else none
    | 4 => .text (.ofString "https://example.com/0") fun _ => none
    | 5 => .text (.ofString "https://example.com/1") fun _ => none
    | 6 => .text (.ofString "https://example.com/2") fun _ => none
    | 7 => .text (.ofString "https://example.com/3") fun _ => none
    | _ => .none
  identity
    | 3 => 1
    | v => v
  truthy _ := true
  str _ := []
  lower := id

/-- A mapping that holds a string twice, of a class of strings with a `url`. -/
def sharedLeaf : ResponseGraph ℕ where
  node
    | 0 => .mapping (fun name => if name = "first" ∨ name = "second" then some 1 else none) [1, 1]
    | 1 => .text (.ofString "see") fun name => if name = "url" then some 2 else none
    | 2 => .text (.ofString "https://example.com") fun _ => none
    | _ => .none
  identity := id
  truthy _ := true
  str _ := []
  lower := id

end SubagentsLab
