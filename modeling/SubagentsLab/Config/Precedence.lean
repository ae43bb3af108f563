import SubagentsLab.Config.Load

/-!
# Config/Precedence — which spelling of an endpoint is taken

What the layers say of a family (`Selects`): of the spellings that are complete in the merged values, the one
that was set at the highest layer, and of several there the one declared first.  `resolveFamily` finds it,
unless a value has no text; and half a host/port pair is refused exactly if its layer is higher.
-/

namespace SubagentsLab

open Machinery

namespace ServerConfig

/-! ## What the layers say -/

section

variable (rt : Runtime)

/-- There is a value, and it is not blank. -/
def KeySet (value : Option Value) : Prop := ∃ v text, value = some v ∧ v.text rt = .ok text ∧ text.isBlank = false

variable (values : PyStr → Option Value) (layerMaps : List (ℤ × Mapping))

/-- The layers that a key counts at: those that set it, where it is set in the merged values. -/
def SetAt (key : PyStr) : Set ℤ :=
  {layer | KeySet rt (values key) ∧ ∃ layerValues, (layer, layerValues) ∈ layerMaps ∧ KeySet rt (layerValues.get? key)}

/-- The highest layer that some of the keys count at, or `-1`. -/
def IsLayerOf (keys : List PyStr) (layer : ℤ) : Prop :=
  IsGreatest (insert (-1) {n | ∃ key ∈ keys, n ∈ SetAt rt values layerMaps key}) layer

/-- Every key of the member is set in the merged values. -/
def Complete (member : Spelling × List PyStr) : Prop := ∀ key ∈ member.2, KeySet rt (values key)

/-- The member that the documented precedence selects: it is complete, complete members declared before it
are set at lower layers only, and those after it at no higher ones; or there is none that is complete. -/
def Selects (members : Members) : Option Spelling → Prop
  | none => ∀ m ∈ members, ¬Complete rt values m
  | some name => ∃ before keys after, members = before ++ (name, keys) :: after ∧ Complete rt values (name, keys) ∧
      ∀ layer, IsLayerOf rt values layerMaps keys layer →
        (∀ m ∈ before, Complete rt values m → ∀ n, IsLayerOf rt values layerMaps m.2 n → n < layer) ∧
          ∀ m ∈ after, Complete rt values m → ∀ n, IsLayerOf rt values layerMaps m.2 n → n ≤ layer

/-- The layer of the selected member; where none is selected it is `-1`. -/
def SelectedAt (members : Members) (layer : ℤ) : Prop :=
  (Selects rt values layerMaps members none ∧ layer = -1) ∨
    ∃ name keys, (name, keys) ∈ members ∧ Selects rt values layerMaps members (some name) ∧
      IsLayerOf rt values layerMaps keys layer

/-- `str` returns for the values of the key that are looked at. -/
def Legible (key : PyStr) : Prop :=
  (∀ v, values key = some v → ∃ text, v.text rt = .ok text) ∧
    (KeySet rt (values key) → ∀ e ∈ layerMaps, ∀ v, e.2.get? key = some v → ∃ text, v.text rt = .ok text)

end

variable {rt : Runtime}

/-! ## Keys -/

theorem familyKeySet_eq_ok {value : Option Value} {set : Bool} (h : familyKeySet rt value = .ok set) :
    set = true ↔ KeySet rt value := by
  rcases value with _ | v
  · cases h
    simp [KeySet]
  · rw [familyKeySet] at h
    obtain ⟨text, htext, rfl⟩ := Checks.map_eq_ok_iff.mp h
    simp [KeySet, htext]

theorem exists_familyKeySet_iff {value : Option Value} :
    (∃ set, familyKeySet rt value = .ok set) ↔ ∀ v, value = some v → ∃ text, v.text rt = .ok text := by
  rcases value with _ | v
  · exact ⟨fun _ _ hv => (nomatch hv), fun _ => ⟨false, rfl⟩⟩
  · constructor
    · rintro ⟨set, hset⟩ v' hv'
      obtain ⟨text, htext, -⟩ := Checks.map_eq_ok_iff.mp hset
      cases hv'
      exact ⟨text, htext⟩
    · intro h
      obtain ⟨text, htext⟩ := h v rfl
      exact ⟨!text.isBlank, by rw [familyKeySet, htext]; rfl⟩

theorem familyKeySet_eq_ok_true {value : Option Value} : familyKeySet rt value = .ok true ↔ KeySet rt value := by
  refine ⟨fun h => (familyKeySet_eq_ok h).mp rfl, ?_⟩
  rintro ⟨v, text, rfl, htext, hblank⟩
  simp [familyKeySet, htext, hblank, Except.map]

open Classical in
theorem familyKeySet_eq_ok_decide {value : Option Value} {set : Bool} (h : familyKeySet rt value = .ok set) :
    set = decide (KeySet rt value) := by
  rw [Bool.eq_iff_iff, decide_eq_true_eq]
  exact familyKeySet_eq_ok h

variable {values : Mapping} {layerMaps : List (ℤ × Mapping)}

/-- The layer of a key. -/
theorem familyLayer_ok (hnonneg : ∀ e ∈ layerMaps, 0 ≤ e.1) {key : PyStr} {layer : ℤ}
    (h : familyLayer rt values layerMaps key = .ok layer) : IsLayerOf rt values.get? layerMaps [key] layer := by
  classical
  obtain ⟨set, hset, hrest⟩ := Checks.bind_eq_ok_iff.mp h
  cases set with
  | false =>
    cases hrest
    have hnot : ¬KeySet rt (values.get? key) := fun hc => Bool.false_ne_true ((familyKeySet_eq_ok hset).mpr hc)
    simp [IsLayerOf, SetAt, hnot]
  | true =>
    obtain ⟨flagged, hflagged, heq⟩ := Checks.bind_eq_ok_iff.mp hrest
    cases heq
    have hflags : flagged = layerMaps.map fun e => (e.1, decide (KeySet rt (e.2.get? key))) :=
      Checks.eq_map_of_mapM (fun e p hp => by
        obtain ⟨set, hset, rfl⟩ := Checks.map_eq_ok_iff.mp hp
        rw [familyKeySet_eq_ok_decide hset]) hflagged
    have hmem : ∀ n, n ∈ (flagged.filter Prod.snd).map Prod.fst ↔ n ∈ SetAt rt values.get? layerMaps key := by
      intro n
      simp only [hflags, SetAt, (familyKeySet_eq_ok hset).mp rfl, List.mem_map, List.mem_filter, Set.mem_ofPred_eq]
      constructor
      · rintro ⟨p, ⟨⟨e, he, rfl⟩, hkey⟩, rfl⟩
        exact ⟨trivial, e.2, he, of_decide_eq_true hkey⟩
      · rintro ⟨-, layerValues, he, hkey⟩
        exact ⟨_, ⟨⟨_, he, rfl⟩, decide_eq_true hkey⟩, rfl⟩
    have hlow : ∀ n ∈ (flagged.filter Prod.snd).map Prod.fst, -1 ≤ n := by
      intro n hn
      obtain ⟨-, layerValues, he, -⟩ := (hmem n).mp hn
      exact (by decide : (-1 : ℤ) ≤ 0).trans (hnonneg _ he)
    have hgreatest := Priority.isGreatest_max? hlow
    simpa only [IsLayerOf, List.mem_singleton, exists_eq_left, hmem] using hgreatest

theorem exists_familyLayer_iff {key : PyStr} :
    (∃ layer, familyLayer rt values layerMaps key = .ok layer) ↔ Legible rt values.get? layerMaps key := by
  rw [Legible, ← exists_familyKeySet_iff]
  constructor
  · rintro ⟨layer, h⟩
    obtain ⟨set, hset, hrest⟩ := Checks.bind_eq_ok_iff.mp h
    refine ⟨⟨set, hset⟩, fun hkey e he => ?_⟩
    rw [(familyKeySet_eq_ok hset).mpr hkey] at hrest
    obtain ⟨flagged, hflagged, -⟩ := Checks.bind_eq_ok_iff.mp hrest
    obtain ⟨p, hp⟩ := Checks.exists_mapM_eq_ok_iff.mp ⟨flagged, hflagged⟩ e he
    obtain ⟨set', hset', -⟩ := Checks.map_eq_ok_iff.mp hp
    exact exists_familyKeySet_iff.mp ⟨set', hset'⟩
  · rintro ⟨⟨set, hset⟩, hlayers⟩
    cases set with
    | false => exact ⟨-1, by rw [familyLayer, hset]; rfl⟩
    | true =>
      have hall : ∀ e ∈ layerMaps, ∃ p, ((familyKeySet rt (e.2.get? key)).map fun set => (e.1, set)) = .ok p := by
        intro e he
        obtain ⟨set', hset'⟩ := exists_familyKeySet_iff.mpr (hlayers ((familyKeySet_eq_ok hset).mp rfl) e he)
        exact ⟨_, by rw [hset']; rfl⟩
      obtain ⟨flagged, hflagged⟩ := Checks.exists_mapM_eq_ok_iff.mpr hall
      refine ⟨((flagged.filter Prod.snd).map Prod.fst).max?.getD (-1), ?_⟩
      rw [familyLayer, hset]
      simp only [bind, Except.bind, if_true] at hflagged ⊢
      rw [hflagged]
      rfl

/-! ## Members -/

theorem familyLayers_ok {keys : List PyStr} {layers : List (PyStr × ℤ)}
    (h : familyLayers rt values layerMaps keys = .ok layers) {key : PyStr} (hkey : key ∈ keys) :
    familyLayer rt values layerMaps key = .ok (layerIn layers key) := by
  induction keys generalizing layers with
  | nil => cases hkey
  | cons k keys ih =>
    rw [familyLayers, List.mapM_cons] at h
    obtain ⟨p, hp, hrest⟩ := Checks.bind_eq_ok_iff.mp h
    obtain ⟨n, hn, rfl⟩ := Checks.map_eq_ok_iff.mp hp
    obtain ⟨layers', hlayers', heq⟩ := Checks.bind_eq_ok_iff.mp hrest
    cases heq
    by_cases hk : k = key
    · rw [← hk, layerIn, Dict.find, if_pos rfl, Option.getD_some, hn]
    · rw [layerIn, Dict.find, if_neg hk]
      exact ih hlayers' ((List.mem_cons.mp hkey).resolve_left (Ne.symm hk))

theorem exists_familyLayers_iff {keys : List PyStr} :
    (∃ layers, familyLayers rt values layerMaps keys = .ok layers) ↔
      ∀ key ∈ keys, Legible rt values.get? layerMaps key := by
  rw [familyLayers, Checks.exists_mapM_eq_ok_iff]
  refine forall₂_congr fun key _ => ?_
  rw [← exists_familyLayer_iff]
  constructor
  · rintro ⟨p, hp⟩
    obtain ⟨n, hn, -⟩ := Checks.map_eq_ok_iff.mp hp
    exact ⟨n, hn⟩
  · rintro ⟨n, hn⟩
    exact ⟨(key, n), by rw [hn]; rfl⟩

/-- The layer of some keys is the highest of their layers. -/
theorem isLayerOf_memberLayer {keys : List PyStr} {layers : List (PyStr × ℤ)}
    (h : ∀ key ∈ keys, IsLayerOf rt values.get? layerMaps [key] (layerIn layers key)) :
    IsLayerOf rt values.get? layerMaps keys (memberLayer layers keys) := by
  have hkey : ∀ key ∈ keys, IsGreatest (insert (-1) (SetAt rt values.get? layerMaps key)) (layerIn layers key) := by
    simpa [IsLayerOf] using h
  have hlow : ∀ n ∈ keys.map (layerIn layers), -1 ≤ n := by
    intro n hn
    obtain ⟨key, hmem, rfl⟩ := List.mem_map.mp hn
    exact (hkey key hmem).2 (.inl rfl)
  obtain ⟨hin, hupper⟩ := Priority.isGreatest_max? hlow
  refine ⟨?_, ?_⟩
  · rcases hin with hbottom | hmem
    · exact .inl hbottom
    · obtain ⟨key, hk, heq⟩ := List.mem_map.mp hmem
      rw [memberLayer, ← heq]
      exact (hkey key hk).1.imp id fun hset => ⟨key, hk, hset⟩
  · rintro n (rfl | ⟨key, hk, hset⟩)
    · exact hupper (.inl rfl)
    · exact ((hkey key hk).2 (.inr hset)).trans (hupper (.inr (List.mem_map_of_mem hk)))

/-- **The member that wins is the one that is selected.** -/
theorem winningFamilyMember_ok {layers : List (PyStr × ℤ)} {members : Members} {winner : Option Spelling}
    (hlayers : ∀ m ∈ members, IsLayerOf rt values.get? layerMaps m.2 (memberLayer layers m.2))
    (h : winningFamilyMember rt values layers members = .ok winner) :
    Selects rt values.get? layerMaps members winner := by
  classical
  obtain ⟨flagged, hflagged, heq⟩ := Checks.bind_eq_ok_iff.mp h
  cases heq
  have hflags : flagged = members.map fun m => (m, decide (Complete rt values.get? m)) :=
    Checks.eq_map_of_mapM (fun m p hp => by
      obtain ⟨complete, hcomplete, rfl⟩ := Checks.map_eq_ok_iff.mp hp
      rw [Prod.mk.injEq, Bool.eq_iff_iff, Checks.allM_eq_ok hcomplete, decide_eq_true_eq, Complete]
      exact ⟨rfl, forall₂_congr fun key _ => familyKeySet_eq_ok_true⟩) hflagged
  have hmembers : flagged.map Prod.fst = members := by
    rw [hflags, List.map_map]
    exact List.map_id members
  have hcomplete : ∀ p ∈ flagged, p.2 = true ↔ Complete rt values.get? p.1 := by
    intro p hp
    rw [hflags] at hp
    obtain ⟨m, -, rfl⟩ := List.mem_map.mp hp
    exact decide_eq_true_iff
  rcases hmax : Priority.firstMax (fun p => memberLayer layers p.1.2) (flagged.filter Prod.snd) with
    _ | ⟨⟨name, keys⟩, complete⟩
  · rw [hmax]
    intro m hm hc
    rw [← hmembers] at hm
    obtain ⟨p, hp, rfl⟩ := List.mem_map.mp hm
    have hnot := Priority.firstMax_filter_eq_none.mp hmax p hp
    rw [(hcomplete p hp).mpr hc] at hnot
    cases hnot
  · rw [hmax]
    obtain ⟨before, after, hsplit, hfirst⟩ := Priority.firstHighest_firstMax hmax
    have hof : ∀ p ∈ flagged, ∀ n, IsLayerOf rt values.get? layerMaps p.1.2 n → n = memberLayer layers p.1.2 :=
      fun p hp n hn => hn.unique (hlayers p.1 (hmembers ▸ List.mem_map_of_mem hp))
    have hin : ∀ p ∈ before ++ ((name, keys), complete) :: after, p ∈ flagged := fun p hp => hsplit ▸ hp
    refine ⟨before.map Prod.fst, keys, after.map Prod.fst, ?_, ?_, fun layer hlayer => ⟨?_, ?_⟩⟩
    · rw [← hmembers, hsplit, List.map_append, List.map_cons]
    · exact (hcomplete _ (hin _ (by simp))).mp hfirst.isEligible
    · intro m hm hc n hn
      obtain ⟨p, hp, rfl⟩ := List.mem_map.mp hm
      have hp' := hin p (List.mem_append_left _ hp)
      rw [hof p hp' n hn, hof ((name, keys), complete) (hin _ (by simp)) layer hlayer]
      exact hfirst.before_lt p hp ((hcomplete p hp').mpr hc)
    · intro m hm hc n hn
      obtain ⟨p, hp, rfl⟩ := List.mem_map.mp hm
      have hp' := hin p (List.mem_append_right _ (List.mem_cons_of_mem _ hp))
      rw [hof p hp' n hn, hof ((name, keys), complete) (hin _ (by simp)) layer hlayer]
      exact hfirst.after_le p hp ((hcomplete p hp').mpr hc)

/-! ## A family -/

/-- **What resolving a family finds.** -/
theorem resolveFamily_ok (hnonneg : ∀ e ∈ layerMaps, 0 ≤ e.1) {family : Family} {r : Resolution}
    (h : resolveFamily rt values layerMaps family = .ok r) :
    Selects rt values.get? layerMaps family.members r.winner ∧
      ∀ keys ⊆ familyKeys family.members, IsLayerOf rt values.get? layerMaps keys (memberLayer r.layers keys) := by
  obtain ⟨layers, hlayers, hrest⟩ := Checks.bind_eq_ok_iff.mp h
  obtain ⟨winner, hwinner, heq⟩ := Checks.bind_eq_ok_iff.mp hrest
  cases heq
  have hmember : ∀ keys ⊆ familyKeys family.members, IsLayerOf rt values.get? layerMaps keys (memberLayer layers keys) :=
    fun keys hkeys => isLayerOf_memberLayer fun key hkey =>
      familyLayer_ok hnonneg (familyLayers_ok hlayers (hkeys hkey))
  refine ⟨winningFamilyMember_ok (fun m hm => hmember m.2 fun key hkey => ?_) hwinner, hmember⟩
  exact List.mem_flatMap.mpr ⟨m, hm, hkey⟩

theorem exists_resolveFamily_iff {family : Family} :
    (∃ r, resolveFamily rt values layerMaps family = .ok r) ↔
      ∀ key ∈ familyKeys family.members, Legible rt values.get? layerMaps key := by
  rw [← exists_familyLayers_iff]
  constructor
  · rintro ⟨r, h⟩
    obtain ⟨layers, hlayers, -⟩ := Checks.bind_eq_ok_iff.mp h
    exact ⟨layers, hlayers⟩
  · rintro ⟨layers, hlayers⟩
    have hkeys := exists_familyLayers_iff.mp ⟨layers, hlayers⟩
    have hflags : ∀ m ∈ family.members,
        ∃ p, ((m.2.allM fun key => familyKeySet rt (values.get? key)).map fun complete => (m, complete)) = .ok p := by
      intro m hm
      obtain ⟨complete, hcomplete⟩ := Checks.exists_allM_eq_ok (p := fun key => familyKeySet rt (values.get? key)) fun key hkey =>
        exists_familyKeySet_iff.mpr (hkeys key (List.mem_flatMap.mpr ⟨m, hm, hkey⟩)).1
      exact ⟨_, Checks.map_eq_ok_iff.mpr ⟨complete, hcomplete, rfl⟩⟩
    obtain ⟨flagged, hflagged⟩ := Checks.exists_mapM_eq_ok_iff.mpr hflags
    exact ⟨_, Checks.bind_eq_ok_iff.mpr ⟨layers, hlayers, Checks.bind_eq_ok_iff.mpr
      ⟨_, Checks.bind_eq_ok_iff.mpr ⟨flagged, hflagged, rfl⟩, rfl⟩⟩⟩

/-! ## Half a pair -/

theorem Family.nodup_names (family : Family) : (family.members.map Prod.fst).Nodup := by
  cases family <;> decide

theorem keys_unique {members : Members} (hnodup : (members.map Prod.fst).Nodup) {name : Spelling}
    {keys keys' : List PyStr} (h : (name, keys) ∈ members) (h' : (name, keys') ∈ members) : keys = keys' := by
  have := List.inj_on_of_nodup_map hnodup h h' rfl
  cases this
  rfl

/-- A selected member is complete, and every complete member is at no higher layer. -/
theorem Selects.spec {members : Members} (hnodup : (members.map Prod.fst).Nodup) {name : Spelling}
    (h : Selects rt values.get? layerMaps members (some name)) {keys : List PyStr} (hmem : (name, keys) ∈ members)
    {layer : ℤ} (hlayer : IsLayerOf rt values.get? layerMaps keys layer) :
    Complete rt values.get? (name, keys) ∧
      ∀ m ∈ members, Complete rt values.get? m → ∀ n, IsLayerOf rt values.get? layerMaps m.2 n → n ≤ layer := by
  obtain ⟨before, keys', after, rfl, hcomplete, hfirst⟩ := h
  obtain rfl : keys = keys' := keys_unique hnodup hmem (by simp)
  obtain ⟨hbefore, hafter⟩ := hfirst layer hlayer
  refine ⟨hcomplete, fun m hm hc n hn => ?_⟩
  rcases List.mem_append.mp hm with hm | hm
  · exact (hbefore m hm hc n hn).le
  · rcases List.mem_cons.mp hm with rfl | hm
    · exact (hn.unique hlayer).le
    · exact hafter m hm hc n hn

/-- No other member is selected. -/
theorem Selects.unique {members : Members} (hlayers : ∀ m ∈ members, ∃ n, IsLayerOf rt values.get? layerMaps m.2 n)
    {winner winner' : Option Spelling} (h : Selects rt values.get? layerMaps members winner)
    (h' : Selects rt values.get? layerMaps members winner') : winner = winner' := by
  rcases winner with _ | name <;> rcases winner' with _ | name'
  · rfl
  · obtain ⟨before, keys, after, hmembers, hcomplete, -⟩ := h'
    exact absurd hcomplete (h _ (by simp [hmembers]))
  · obtain ⟨before, keys, after, hmembers, hcomplete, -⟩ := h
    exact absurd hcomplete (h' _ (by simp [hmembers]))
  · obtain ⟨before, keys, after, hmembers, hcomplete, hfirst⟩ := h
    obtain ⟨before', keys', after', hmembers', hcomplete', hfirst'⟩ := h'
    obtain ⟨n, hn⟩ := hlayers (name, keys) (by simp [hmembers])
    obtain ⟨n', hn'⟩ := hlayers (name', keys') (by simp [hmembers'])
    -- the one of them that is declared first is at no lower layer, and the other one at a higher
    rcases List.append_eq_append_iff.mp (hmembers.symm.trans hmembers') with ⟨between, hbefore, hafter⟩ | ⟨between, hbefore, hafter⟩
    · cases between with
      | nil =>
        cases hafter
        rfl
      | cons m between =>
        obtain ⟨rfl, rfl⟩ := List.cons.inj hafter
        have hlt := (hfirst' n' hn').1 (name, keys) (by simp [hbefore]) hcomplete n hn
        have hle := (hfirst n hn).2 (name', keys') (by simp) hcomplete' n' hn'
        omega
    · cases between with
      | nil =>
        cases hafter
        rfl
      | cons m between =>
        obtain ⟨rfl, rfl⟩ := List.cons.inj hafter
        have hlt := (hfirst n hn).1 (name', keys') (by simp [hbefore]) hcomplete' n' hn'
        have hle := (hfirst' n' hn').2 (name, keys) (by simp) hcomplete n hn
        omega

theorem SelectedAt.unique {members : Members} (hnodup : (members.map Prod.fst).Nodup) {layer layer' : ℤ}
    (h : SelectedAt rt values.get? layerMaps members layer)
    (h' : SelectedAt rt values.get? layerMaps members layer') : layer = layer' := by
  rcases h with ⟨hnone, rfl⟩ | ⟨name, keys, hmem, hselects, hlayer⟩
  · rcases h' with ⟨-, rfl⟩ | ⟨name', keys', hmem', hselects', hlayer'⟩
    · rfl
    · exact absurd (hselects'.spec hnodup hmem' hlayer').1 (hnone _ hmem')
  · have hspec := hselects.spec hnodup hmem hlayer
    rcases h' with ⟨hnone, -⟩ | ⟨name', keys', hmem', hselects', hlayer'⟩
    · exact absurd hspec.1 (hnone _ hmem)
    · have hspec' := hselects'.spec hnodup hmem' hlayer'
      exact le_antisymm (hspec'.2 _ hmem hspec.1 _ hlayer) (hspec.2 _ hmem' hspec'.1 _ hlayer')

/-- The layer that the guard compares with is that of the selected member. -/
theorem selectedAt_winningFamilyLayer {family : Family} {r : Resolution} (hnonneg : ∀ e ∈ layerMaps, 0 ≤ e.1)
    (h : resolveFamily rt values layerMaps family = .ok r) :
    SelectedAt rt values.get? layerMaps family.members (winningFamilyLayer r.layers family.members r.winner) := by
  obtain ⟨hselects, hlayers⟩ := resolveFamily_ok hnonneg h
  rcases hwinner : r.winner with _ | name
  · rw [hwinner] at hselects
    exact .inl ⟨hselects, rfl⟩
  · rw [hwinner] at hselects
    obtain ⟨before, keys, after, hmembers, -⟩ := id hselects
    have hmem : (name, keys) ∈ family.members := by simp [hmembers]
    have hfound : family.members.find? (·.1 = name) = some (name, keys) := by
      rw [List.find?_eq_some_iff_append]
      refine ⟨decide_eq_true rfl, before, after, hmembers, fun m hm => ?_⟩
      have hnodup := family.nodup_names
      rw [hmembers, List.map_append, List.nodup_append] at hnodup
      simpa using hnodup.2.2 m.1 (List.mem_map_of_mem hm) name (by simp)
    have hkeys : keys ⊆ familyKeys family.members := fun key hkey => List.mem_flatMap.mpr ⟨_, hmem, hkey⟩
    refine .inr ⟨name, keys, hmem, hselects, ?_⟩
    rw [winningFamilyLayer, hfound]
    exact hlayers keys hkeys

section

variable (rt : Runtime) (values : PyStr → Option Value) (layerMaps : List (ℤ × Mapping))

/-- One key of the pair is set and the other is not. -/
def HalfSet : Prop := ¬(KeySet rt (values ttsHostKey) ↔ KeySet rt (values ttsPortKey))

/-- The pair is at a higher layer than the selected member. -/
def PairHigher : Prop :=
  ∃ pairLayer winnerLayer, IsLayerOf rt values layerMaps [ttsHostKey, ttsPortKey] pairLayer ∧
    SelectedAt rt values layerMaps ttsEndpointMembers winnerLayer ∧ winnerLayer < pairLayer

end

theorem memberLayer_pair (layers : List (PyStr × ℤ)) (key key' : PyStr) :
    memberLayer layers [key, key'] = max (layerIn layers key) (layerIn layers key') := rfl

open Classical in
/-- **The guard against half a pair.** -/
theorem guardHalfPair_eq (hnonneg : ∀ e ∈ layerMaps, 0 ≤ e.1) {r : Resolution}
    (h : resolveFamily rt values layerMaps .ttsEndpoint = .ok r) :
    guardHalfPair rt values r =
      if HalfSet rt values.get? ∧ PairHigher rt values.get? layerMaps then .error halfPairError else .ok () := by
  have hlegible := exists_resolveFamily_iff.mp ⟨r, h⟩
  have hpair : [ttsHostKey, ttsPortKey] ⊆ familyKeys Family.ttsEndpoint.members := by
    simp [Family.members, ttsEndpointMembers, familyKeys]
  obtain ⟨hostSet, hhost⟩ := exists_familyKeySet_iff.mpr (hlegible ttsHostKey (hpair (by simp))).1
  obtain ⟨portSet, hport⟩ := exists_familyKeySet_iff.mpr (hlegible ttsPortKey (hpair (by simp))).1
  have hhalf : hostSet ≠ portSet ↔ HalfSet rt values.get? := by
    rw [HalfSet, ← familyKeySet_eq_ok hhost, ← familyKeySet_eq_ok hport, ne_eq, Bool.eq_iff_iff]
  have hpairLayer := (resolveFamily_ok hnonneg h).2 _ hpair
  have hwinnerLayer := selectedAt_winningFamilyLayer hnonneg h
  have hhigher : max (layerIn r.layers ttsHostKey) (layerIn r.layers ttsPortKey) >
      winningFamilyLayer r.layers ttsEndpointMembers r.winner ↔ PairHigher rt values.get? layerMaps := by
    rw [← memberLayer_pair]
    constructor
    · exact fun hgt => ⟨_, _, hpairLayer, hwinnerLayer, hgt⟩
    · rintro ⟨pairLayer, winnerLayer, hp, hw, hlt⟩
      rwa [hp.unique hpairLayer, hw.unique (Family.nodup_names .ttsEndpoint) hwinnerLayer] at hlt
  simp only [guardHalfPair, hhost, hport, bind, Except.bind, hhalf, hhigher]

/-! ## What else is raised -/

/-- The step raises no half pair. -/
theorem bind_ne {α β : Type} {x : Except Failure α} {f : α → Except Failure β} {e : Failure} (hx : x ≠ .error e)
    (hf : ∀ a, x = .ok a → f a ≠ .error e) : (x >>= f) ≠ .error e := by
  intro h
  rcases Checks.bind_eq_error_iff.mp h with h | ⟨a, ha, h⟩
  · exact hx h
  · exact hf a ha h

theorem map_ne {α β : Type} {x : Except Failure α} {f : α → β} {e : Failure} (hx : x ≠ .error e) :
    x.map f ≠ .error e := by
  cases x with
  | error e' => exact fun h => hx (congrArg Except.error (Except.error.inj h))
  | ok a => exact nofun

theorem halfPairError_eq :
    halfPairError = refused "WEBSEARCH_TTS_WS_HOST and WEBSEARCH_TTS_WS_PORT must be set together" := by
  decide +kernel

theorem refused_ne {message : String}
    (h : message ≠ "WEBSEARCH_TTS_WS_HOST and WEBSEARCH_TTS_WS_PORT must be set together") :
    refused message ≠ halfPairError := by
  rw [halfPairError_eq]
  exact fun hc => h (PyStr.ofString_injective (Failure.configError.inj hc))

theorem error_refused_ne {α : Type} {message : String}
    (h : message ≠ "WEBSEARCH_TTS_WS_HOST and WEBSEARCH_TTS_WS_PORT must be set together") :
    (.error (refused message) : Except Failure α) ≠ .error halfPairError :=
  fun hc => refused_ne h (Except.error.inj hc)

theorem orRaise_ne {α : Type} {failure : Failure} {x : Option α} (h : failure ≠ halfPairError) :
    orRaise failure x ≠ .error halfPairError :=
  fun hc => h (orRaise_eq_error_iff.mp hc).2

theorem text_ne (v : Value) : v.text rt ≠ .error halfPairError :=
  fun hc => nomatch (Value.text_eq_error rt hc).1

theorem textOrNone_ne (v : Option Value) : textOrNone rt v ≠ .error halfPairError := by
  cases v with
  | none => exact nofun
  | some v => exact text_ne v

theorem expandSocket_ne (value : PyStr) : expandSocket rt value ≠ .error halfPairError := by
  refine bind_ne (orRaise_ne nofun) fun address _ => ?_
  dsimp only
  split_ifs
  · exact error_refused_ne (by decide)
  · exact nofun

theorem parseEndpoint_ne (value : PyStr) : parseEndpoint rt value ≠ .error halfPairError := by
  rw [parseEndpoint]
  split
  · exact error_refused_ne (by decide)
  · split_ifs
    · exact error_refused_ne (by decide)
    · exact map_ne (expandSocket_ne _)
    · exact nofun

theorem buildParsed_ne (key : String) (values : Mapping) : buildParsed rt key values ≠ .error halfPairError :=
  bind_ne (orRaise_ne nofun) fun v _ => bind_ne (text_ne v) fun text _ => parseEndpoint_ne text

theorem buildSocket_ne (key : String) (values : Mapping) : buildSocket rt key values ≠ .error halfPairError :=
  bind_ne (orRaise_ne nofun) fun v _ => bind_ne (text_ne v) fun text _ => map_ne (expandSocket_ne text)

theorem wrapValueError_ne {α : Type} {message : String} {x : Except Failure α} (hx : x ≠ .error halfPairError)
    (h : message ≠ "WEBSEARCH_TTS_WS_HOST and WEBSEARCH_TTS_WS_PORT must be set together") :
    wrapValueError message x ≠ .error halfPairError := by
  unfold wrapValueError
  split
  · exact error_refused_ne h
  · exact hx

theorem buildHostPort_ne (values : Mapping) : buildHostPort rt values ≠ .error halfPairError := by
  refine bind_ne (wrapValueError_ne (bind_ne (textOrNone_ne _) fun text _ => orRaise_ne nofun) (by decide))
    fun port _ => ?_
  split_ifs
  · exact bind_ne (textOrNone_ne _) fun host _ => bind_ne (text_ne _) fun port _ => nofun
  · exact error_refused_ne (by decide)

theorem Family.build_ne (family : Family) (winner : Option Spelling) (values : Mapping) :
    family.build rt winner values ≠ .error halfPairError := by
  cases family
  · rcases winner with _ | _ | _ | _ | _
    · exact nofun
    · exact map_ne (buildParsed_ne _ _)
    · exact nofun
    · exact map_ne (buildSocket_ne _ _)
    · exact nofun
  · rcases winner with _ | _ | _ | _ | _
    · exact nofun
    · exact map_ne (buildParsed_ne _ _)
    · exact map_ne (buildParsed_ne _ _)
    · exact map_ne (buildSocket_ne _ _)
    · exact map_ne (buildHostPort_ne _)

theorem refuseIf_ne {p : Prop} [Decidable p] {message : String}
    (h : message ≠ "WEBSEARCH_TTS_WS_HOST and WEBSEARCH_TTS_WS_PORT must be set together") :
    refuseIf p message ≠ .error halfPairError := by
  rw [refuseIf]
  split_ifs
  · exact error_refused_ne h
  · exact nofun

theorem asStr_ne (v : Value) : v.asStr ≠ .error halfPairError := by
  cases v <;> exact nofun

/-- A message that begins otherwise is another one. -/
theorem configError_append_ne {start : String} {rest : PyStr} (h : start.toList.head?.any (· ≠ 'W') = true) :
    (.configError (.ofString start ++ rest) : Failure) ≠ halfPairError := by
  rw [halfPairError_eq]
  intro hc
  have hhead := congrArg List.head? (Failure.configError.inj hc)
  rcases hstart : start.toList with _ | ⟨c, cs⟩
  · rw [hstart] at h
    cases h
  · rw [hstart] at h
    have hc' : CodePoint.ofChar c = CodePoint.ofChar 'W' := by
      rw [PyStr.ofString, hstart] at hhead
      exact Option.some.inj hhead
    simp [CodePoint.ofChar_injective hc'] at h

theorem checkEffort_ne (e : PyStr × PyStr) : checkEffort rt e ≠ .error halfPairError := by
  rw [checkEffort]
  split_ifs
  · exact error_refused_ne (by decide)
  · exact nofun
  · exact fun hc => configError_append_ne (by decide) (Except.error.inj hc)

theorem checkEfforts_ne (es : List (PyStr × PyStr)) :
    Checks.runAll (es.map (checkEffort rt)) ≠ .error halfPairError := by
  intro hc
  obtain ⟨e, -, he⟩ := List.mem_map.mp (Checks.mem_of_runAll_eq_error hc)
  exact checkEffort_ne e he

theorem checkLabels_ne {role : String} (h : (role ++ "_reasoning_effort_policy has labels not present in " ++ role ++
    "_model_policy: [").toList.head?.any (· ≠ 'W') = true) (efforts models : Dict PyStr PyStr) :
    checkLabels rt role efforts models ≠ .error halfPairError := by
  rw [checkLabels]
  split_ifs
  · exact nofun
  · rw [List.append_assoc]
    exact fun hc => configError_append_ne h (Except.error.inj hc)

theorem parseUtcTimestamp_ne (value : PyStr) : parseUtcTimestamp rt value ≠ .error halfPairError := by
  rw [parseUtcTimestamp]
  split
  · exact nofun
  · rename_i raised _
    cases raised <;> exact nofun

/-- No check of a configuration raises half a pair. -/
theorem checks_ne (cfg : ServerConfig) : ∀ c ∈ cfg.checks rt, c ≠ .error halfPairError := by
  have hstatic : ∀ {p : Prop} [Decidable p] {message : String},
      message ≠ "WEBSEARCH_TTS_WS_HOST and WEBSEARCH_TTS_WS_PORT must be set together" →
      refuseIf p message ≠ .error halfPairError := refuseIf_ne
  simp only [checks, checkFinitePositive, checkModels, List.forall_mem_cons, List.not_mem_nil, false_implies, implies_true,
    and_true]
  refine ⟨?_, ?_, ?_, ?_, ?_, ?_, ?_, ?_, ?_, ?_, ?_, ?_, ?_, ?_, ?_, ?_, ?_, ?_, ?_, ?_, ?_, ?_, ?_, ?_, ?_, ?_, ?_, ?_,
    ?_, ?_, ?_, checkEfforts_ne _, checkEfforts_ne _, checkLabels_ne (by decide +kernel) _ _,
    checkLabels_ne (by decide +kernel) _ _⟩
  case refine_13 | refine_14 | refine_17 => exact bind_ne (asStr_ne _) fun _ _ => hstatic (by decide)
  case refine_16 =>
    exact bind_ne (asStr_ne _) fun _ _ => bind_ne (orRaise_ne (by rintro ⟨⟩)) fun _ _ => hstatic (by decide)
  case refine_29 =>
    -- the time of the deployment
    split
    · rintro ⟨⟩
    · exact wrapValueError_ne (parseUtcTimestamp_ne _) (by decide)
  all_goals exact hstatic (by decide)

/-! ## The endpoints of a configuration -/

/-- The field of a family. -/
def endpoint (cfg : ServerConfig) : Family → Option Endpoint
  | .sttEndpoint => cfg.sttEndpoint
  | .ttsEndpoint => cfg.ttsEndpoint

theorem family_keys_ne (family : Family) {key : PyStr} (h : key ∈ familyKeys family.members) (r : Role) :
    key ≠ r.effortKey := by
  have hne : ∀ (family : Family) (r : Role), r.effortKey ∉ familyKeys family.members := by
    intro family r
    cases family <;> cases r <;>
      simp [familyKeys, Family.members, sttEndpointMembers, ttsEndpointMembers, ttsHostKey, ttsPortKey, Role.effortKey,
        PyStr.ofString_injective.eq_iff]
  exact fun hc => hne family r (hc ▸ h)

/-- The merged values of the keys of a family. -/
theorem get?_of_mem_familyKeys {inp : Inputs} {s : Settings} (hs : loadSettings rt inp = .ok s) (family : Family) {key : PyStr}
    (hkey : key ∈ familyKeys family.members) : s.values.get? key = merged rt key s.layerMaps := by
  obtain ⟨-, m, -, -, hget⟩ := loadValues_ok (loadSettings_ok hs).1
  exact hget key (family_keys_ne family hkey)

/-- What the layers say of some members depends on their keys only. -/
theorem isLayerOf_congr {f g : PyStr → Option Value} {keys : List PyStr} (h : ∀ key ∈ keys, f key = g key) {n : ℤ} :
    IsLayerOf rt f layerMaps keys n ↔ IsLayerOf rt g layerMaps keys n := by
  have hset : {n | ∃ key ∈ keys, n ∈ SetAt rt f layerMaps key} = {n | ∃ key ∈ keys, n ∈ SetAt rt g layerMaps key} := by
    ext n
    refine exists_congr fun key => and_congr_right fun hkey => ?_
    rw [SetAt, SetAt, h key hkey]
  rw [IsLayerOf, IsLayerOf, hset]

theorem complete_congr {f g : PyStr → Option Value} {m : Spelling × List PyStr} (h : ∀ key ∈ m.2, f key = g key) :
    Complete rt f m ↔ Complete rt g m :=
  forall₂_congr fun key hkey => by rw [h key hkey]

theorem Selects.congr {f g : PyStr → Option Value} {members : Members}
    (h : ∀ key ∈ familyKeys members, f key = g key) {winner : Option Spelling}
    (hselects : Selects rt f layerMaps members winner) : Selects rt g layerMaps members winner := by
  have hkeys : ∀ m ∈ members, ∀ key ∈ m.2, f key = g key := fun m hm key hkey =>
    h key (List.mem_flatMap.mpr ⟨m, hm, hkey⟩)
  rcases winner with _ | name
  · exact fun m hm hc => hselects m hm ((complete_congr (hkeys m hm)).mpr hc)
  · obtain ⟨before, keys, after, rfl, hcomplete, hfirst⟩ := hselects
    have hwinner := hkeys (name, keys) (by simp)
    refine ⟨before, keys, after, rfl, (complete_congr hwinner).mp hcomplete, fun layer hlayer => ?_⟩
    obtain ⟨hbefore, hafter⟩ := hfirst layer ((isLayerOf_congr hwinner).mpr hlayer)
    refine ⟨fun m hm hc n hn => ?_, fun m hm hc n hn => ?_⟩
    · have hm' := hkeys m (List.mem_append_left _ hm)
      exact hbefore m hm ((complete_congr hm').mpr hc) n ((isLayerOf_congr hm').mpr hn)
    · have hm' := hkeys m (List.mem_append_right _ (List.mem_cons_of_mem _ hm))
      exact hafter m hm ((complete_congr hm').mpr hc) n ((isLayerOf_congr hm').mpr hn)

theorem SelectedAt.congr {f g : PyStr → Option Value} {members : Members}
    (h : ∀ key ∈ familyKeys members, f key = g key) {layer : ℤ}
    (hselected : SelectedAt rt f layerMaps members layer) : SelectedAt rt g layerMaps members layer := by
  rcases hselected with ⟨hnone, hlayer⟩ | ⟨name, keys, hmem, hselects, hlayer⟩
  · exact .inl ⟨hnone.congr h, hlayer⟩
  · have hkeys : ∀ key ∈ keys, f key = g key := fun key hkey => h key (List.mem_flatMap.mpr ⟨_, hmem, hkey⟩)
    exact .inr ⟨name, keys, hmem, hselects.congr h, (isLayerOf_congr hkeys).mp hlayer⟩

theorem ttsPair_subset : [ttsHostKey, ttsPortKey] ⊆ familyKeys Family.ttsEndpoint.members := by
  simp [Family.members, ttsEndpointMembers, familyKeys]

theorem PairHigher.congr {f g : PyStr → Option Value} (h : ∀ key ∈ familyKeys ttsEndpointMembers, f key = g key)
    (hhigher : PairHigher rt f layerMaps) : PairHigher rt g layerMaps := by
  obtain ⟨pairLayer, winnerLayer, hpair, hwinner, hlt⟩ := hhigher
  exact ⟨pairLayer, winnerLayer, (isLayerOf_congr fun key hkey => h key (ttsPair_subset hkey)).mp hpair,
    hwinner.congr h, hlt⟩

/-- What the endpoints went through. -/
theorem loadEndpoints_ok {endpoints : Endpoints} (h : loadEndpoints rt values layerMaps = .ok endpoints) :
    ∃ stt tts, resolveFamily rt values layerMaps .sttEndpoint = .ok stt ∧
      resolveFamily rt values layerMaps .ttsEndpoint = .ok tts ∧ guardHalfPair rt values tts = .ok () ∧
      Family.sttEndpoint.build rt stt.winner values = .ok endpoints.sttEndpoint ∧
      Family.ttsEndpoint.build rt tts.winner values = .ok endpoints.ttsEndpoint := by
  obtain ⟨stt, hstt, h⟩ := Checks.bind_eq_ok_iff.mp h
  obtain ⟨tts, htts, h⟩ := Checks.bind_eq_ok_iff.mp h
  obtain ⟨⟨⟩, hguard, h⟩ := Checks.bind_eq_ok_iff.mp h
  obtain ⟨sttEndpoint, hsttBuild, h⟩ := Checks.bind_eq_ok_iff.mp h
  obtain ⟨ttsEndpoint, httsBuild, heq⟩ := Checks.bind_eq_ok_iff.mp h
  cases heq
  exact ⟨stt, tts, hstt, htts, hguard, hsttBuild, httsBuild⟩

/-- Where the families can be resolved, half a pair is raised exactly of one at a higher layer. -/
theorem loadEndpoints_eq_halfPair_iff (hnonneg : ∀ e ∈ layerMaps, 0 ≤ e.1)
    (hlegible : ∀ family : Family, ∀ key ∈ familyKeys family.members, Legible rt values.get? layerMaps key) :
    loadEndpoints rt values layerMaps = .error halfPairError ↔
      HalfSet rt values.get? ∧ PairHigher rt values.get? layerMaps := by
  obtain ⟨stt, hstt⟩ := exists_resolveFamily_iff.mpr (hlegible .sttEndpoint)
  obtain ⟨tts, htts⟩ := exists_resolveFamily_iff.mpr (hlegible .ttsEndpoint)
  have hguard := guardHalfPair_eq hnonneg htts
  rw [loadEndpoints, hstt, htts]
  simp only [bind, Except.bind, hguard]
  by_cases hhalf : HalfSet rt values.get? ∧ PairHigher rt values.get? layerMaps
  · rw [if_pos hhalf]
    exact iff_of_true rfl hhalf
  · rw [if_neg hhalf]
    exact iff_of_false (bind_ne (Family.build_ne _ _ _) fun _ _ => bind_ne (Family.build_ne _ _ _) fun _ _ => nofun) hhalf

/-- A family without a selected member has no endpoint, and only such a one. -/
theorem build_eq_none_iff {f : PyStr → Option Value} {family : Family} {winner : Option Spelling}
    (hselects : Selects rt f layerMaps family.members winner) {endpoint : Option Endpoint}
    (h : family.build rt winner values = .ok endpoint) : endpoint = none ↔ winner = none := by
  have hsome : ∀ {x : Except Failure Endpoint}, x.map some = .ok endpoint → endpoint ≠ none := by
    intro x hx
    obtain ⟨e, -, rfl⟩ := Checks.map_eq_ok_iff.mp hx
    exact Option.some_ne_none e
  rcases winner with _ | name
  · cases family <;> cases h <;> exact iff_of_true rfl rfl
  · obtain ⟨before, keys, after, hmembers, -⟩ := hselects
    have hname : name ∈ family.members.map Prod.fst := by simp [hmembers]
    refine iff_of_false ?_ (Option.some_ne_none name)
    cases family
    · cases name
      · exact hsome h
      · exact absurd hname (by decide)
      · exact hsome h
      · exact absurd hname (by decide)
    · cases name <;> exact hsome h

/-- **The precedence of the endpoint spellings.**  Every endpoint of a configuration is built from the member of
its family that the layers select, and there is none where they select none; a key that is not set in the
merged values counts at no layer, and no member with it is complete; and where the other settings are loaded
and the values of the families have a text, half a pair is raised exactly if one of its keys is set and its
layer is higher than that of the selected member. -/
theorem endpoint_precedence (rt : Runtime) (inp : Inputs) (layers : List (ℤ × Mapping))
    (hlayers : ServerConfig.layerMaps inp = .ok layers) :
    (∀ cfg, loadConfig rt inp = .ok cfg → ∀ family : Family, ∃ (winner : Option Spelling) (values : Mapping),
      Selects rt (merged rt · layers) layers family.members winner ∧
        (∀ key ∈ familyKeys family.members, values.get? key = merged rt key layers) ∧
        family.build rt winner values = .ok (cfg.endpoint family) ∧
        (cfg.endpoint family = none ↔ winner = none)) ∧
      (∀ key, ¬KeySet rt (merged rt key layers) → IsLayerOf rt (merged rt · layers) layers [key] (-1) ∧
        ∀ m : Spelling × List PyStr, key ∈ m.2 → ¬Complete rt (merged rt · layers) m) ∧
      ∀ s, loadSettings rt inp = .ok s →
        (∀ family : Family, ∀ key ∈ familyKeys family.members, Legible rt (merged rt · layers) layers key) →
        (loadConfig rt inp = .error halfPairError ↔
          HalfSet rt (merged rt · layers) ∧ PairHigher rt (merged rt · layers) layers) := by
  have hnonneg := (layered_layerMaps hlayers).nonneg
  have hsame : ∀ s, loadSettings rt inp = .ok s → s.layerMaps = layers := by
    intro s hs
    have hmaps := (loadValues_ok (loadSettings_ok hs).1).1
    rw [hlayers] at hmaps
    exact (Except.ok.inj hmaps).symm
  refine ⟨fun cfg hcfg family => ?_, fun key hkey => ⟨?_, fun m hm hc => hkey (hc key hm)⟩, fun s hs hlegible => ?_⟩
  · obtain ⟨s, endpoints, hs, hendpoints, rfl, -⟩ := loadConfig_ok hcfg
    obtain rfl := hsame s hs
    have hget : ∀ key ∈ familyKeys family.members, s.values.get? key = merged rt key s.layerMaps :=
      fun _ => get?_of_mem_familyKeys hs family
    obtain ⟨stt, tts, hstt, htts, -, hsttBuild, httsBuild⟩ := loadEndpoints_ok hendpoints
    cases family
    · have hselects := (resolveFamily_ok hnonneg hstt).1.congr hget
      exact ⟨stt.winner, s.values, hselects, hget, hsttBuild, build_eq_none_iff hselects hsttBuild⟩
    · have hselects := (resolveFamily_ok hnonneg htts).1.congr hget
      exact ⟨tts.winner, s.values, hselects, hget, httsBuild, build_eq_none_iff hselects httsBuild⟩
  · simp [IsLayerOf, SetAt, hkey]
  · obtain rfl := hsame s hs
    have hget : ∀ family : Family, ∀ key ∈ familyKeys family.members, s.values.get? key = merged rt key s.layerMaps :=
      fun family _ => get?_of_mem_familyKeys hs family
    have hlegible' : ∀ family : Family, ∀ key ∈ familyKeys family.members, Legible rt s.values.get? s.layerMaps key := by
      intro family key hkey
      rw [Legible, hget family key hkey]
      exact hlegible family key hkey
    have hhalf : HalfSet rt s.values.get? ↔ HalfSet rt (merged rt · s.layerMaps) := by
      rw [HalfSet, HalfSet, hget .ttsEndpoint _ (ttsPair_subset (by simp)), hget .ttsEndpoint _ (ttsPair_subset (by simp))]
    have hhigher : PairHigher rt s.values.get? s.layerMaps ↔ PairHigher rt (merged rt · s.layerMaps) s.layerMaps :=
      ⟨fun h => h.congr (hget .ttsEndpoint), fun h => h.congr fun key hkey => (hget .ttsEndpoint key hkey).symm⟩
    rw [← hhalf, ← hhigher, ← loadEndpoints_eq_halfPair_iff hnonneg hlegible']
    constructor
    · intro h
      rcases Checks.bind_eq_error_iff.mp h with h | ⟨s', hs', h⟩
      · rw [hs] at h
        cases h
      · obtain rfl : s = s' := Except.ok.inj (hs.symm.trans hs')
        rcases Checks.bind_eq_error_iff.mp h with h | ⟨endpoints, -, h⟩
        · exact h
        · rcases Checks.bind_eq_error_iff.mp h with h | ⟨_, -, h⟩
          · exact absurd rfl (checks_ne _ _ (Checks.mem_of_runAll_eq_error h))
          · cases h
    · intro h
      exact Checks.bind_eq_error_iff.mpr (.inr ⟨s, hs, Checks.bind_eq_error_iff.mpr (.inl h)⟩)

/-- A URI and half a pair in `config.toml`, and a socket in the environment. -/
def uriBelowSocket : Inputs where
  configFile := .document (mappingOf [("tts", .table (mappingOf
    [("tts_ws_uri", .str (.ofString "ws://localhost:8000/tts")), ("tts_ws_host", .str (.ofString "localhost"))]))])
  envFile := .absent
  env := mappingOf [("WEBSEARCH_TTS_WS_SOCKET", .ofString "/tmp/tts.sock")]

theorem endpoint_precedence_socket : ∃ layers cfg winner, ServerConfig.layerMaps uriBelowSocket = .ok layers ∧
    loadConfig .sample uriBelowSocket = .ok cfg ∧
      Selects .sample (merged .sample · layers) layers ttsEndpointMembers winner ∧ winner ≠ none ∧
      cfg.ttsEndpoint = some (.ofString "uds", .ofString "/tmp/tts.sock") := by
  have hload : (loadConfig .sample uriBelowSocket).map (·.ttsEndpoint) =
      .ok (some (.ofString "uds", .ofString "/tmp/tts.sock")) := by decide +kernel
  obtain ⟨cfg, hload, hendpoint⟩ := Checks.map_eq_ok_iff.mp hload
  obtain ⟨s, endpoints, hs, -⟩ := loadConfig_ok hload
  have hlayers := (loadValues_ok (loadSettings_ok hs).1).1
  obtain ⟨winner, values, hselects, -, -, hnone⟩ :=
    (endpoint_precedence .sample uriBelowSocket s.layerMaps hlayers).1 cfg hload .ttsEndpoint
  refine ⟨s.layerMaps, cfg, winner, hlayers, hload, hselects, fun hc => ?_, hendpoint⟩
  rw [endpoint, hendpoint] at hnone
  exact Option.some_ne_none _ (hnone.mpr hc)

end ServerConfig

end SubagentsLab
