import SubagentsLab.Host.Books

/-!
# Host/ResultReady — a ready status speaks for a committed result

Every step keeps the books (`Booked.step`), so along every run a `result_ready` names a result of the log and
no result is logged twice.  A commit that finds its work item marked leaves the session alone and closes the
child to `result_ready` for good — in a turn with one child because the epilogue then derives `cancelled`, in
a fan-out because the loop does.  A fan-out that retained the child holds no status back: the loop says
nothing when the notice is suppressed, and the marker is gone when the late result comes
(`suppressed_notice_ready`).
-/

namespace SubagentsLab

open Machinery

namespace Session

namespace CommitHost

open WorkStatusLedger

variable {cfg : RetentionConfig} {h h' : CommitHost} {r : GroundedResult}

/-- The results an event brings. -/
def Event.results : Event → List GroundedResult
  | .respond r _ _ _ _ => [r]
  | .settle _ _ _ r _ _ _ _ _ => [r]
  | .join _ _ d _ => d.result.toList
  | .late _ l _ _ _ => l.result.toList
  | _ => []

/-- The results an event brings carry an epoch. -/
def Event.Stamped (e : Event) : Prop := ∀ r ∈ e.results, r.originEpoch.isSome = true

instance : DecidablePred Event.Stamped := fun e => inferInstanceAs (Decidable (∀ r ∈ e.results, _))

/-- The item the loop of a fan-out is about to commit. -/
def upcoming (h : CommitHost) (turnId : String) : Option (FanOut × ℕ × GroundedResult × SpeechRole) :=
  (h.fanOuts.get? turnId).bind fun fan => if fan.current = none then fan.next.map fun item => (fan, item) else none

/-- The result whose foreground commit an event attempts. -/
def attempted (h : CommitHost) : Event → Option GroundedResult
  | .respond r _ _ _ _ => if (h.children.get? (workItemId r.turnId)).isSome then none else some r
  | .settle turnId _ outcome r origin _ _ _ _ =>
    if (h.searching (workItemId turnId) none turnId).isSome ∧ r.turnId = turnId ∧
        ¬(outcome = .retained ∧ h.replacesLegacyResultFor origin = true) then
      some r
    else none
  | .commit turnId _ _ _ => (h.upcoming turnId).map fun item => item.2.2.1
  | _ => none

/-- The fan-out whose loop an event advances. -/
def Event.loop : Event → Option String
  | .commit turnId _ _ _ => some turnId
  | _ => none

/-- **The loop holds a status back for every marked item it comes to**, or the child's record says already
that it failed or was cancelled. -/
def Event.Answered (h : CommitHost) (e : Event) : Prop :=
  ∀ turnId ∈ e.loop, ∀ item ∈ h.upcoming turnId, workItemId item.2.2.1.turnId ∈ h.cancelledIds →
    item.1.deferred.get? item.2.1 = none → h.enableBackgroundStatus = true →
    ∀ c ∈ h.children.get? (workItemId item.2.2.1.turnId),
      Shut h.state.ledger (c.key (workItemId item.2.2.1.turnId)) (workItemId item.2.2.1.turnId)

instance (h : CommitHost) : DecidablePred (Event.Answered h) := fun e =>
  inferInstanceAs (Decidable (∀ turnId ∈ e.loop, ∀ item ∈ h.upcoming turnId, _ → _ → _ → ∀ c ∈ _, _))

/-! ## Every step keeps the books -/

theorem plain_apart (ht : Tidy h) {c : SessionState.Call} (hc : plain c = true) :
    Apart h { h with state := (h.state.step cfg c).1 } := by
  suffices hsame : (h.state.step cfg c).1.results = h.state.results ∧ (h.state.step cfg c).1.ledger = h.state.ledger from
    ht.apart_of_eq rfl hsame.1 hsame.2 rfl rfl
  cases c with
  | setWorker worker => exact results_setWorker h.state worker
  | setRouting routing =>
    rw [SessionState.step, SessionState.setRouting]
    split_ifs <;> exact ⟨rfl, rfl⟩
  | appendTranscript t => exact results_appendTranscript h.state t
  | appendResult _ _ _ => cases hc
  | speechProgress p allowStaleReconnect =>
    rw [SessionState.step]
    rcases h.state.speechProgress_cases p allowStaleReconnect with hout | ⟨-, hout⟩ <;> rw [hout] <;> exact ⟨rfl, rfl⟩
  | setChildWorkStatus _ _ => cases hc

theorem searching_eq_some {w turnId : String} {parent : Option String} {c : Child}
    (hsearching : h.searching w parent turnId = some c) :
    h.children.get? w = some c ∧ c.stage = .searching ∧ c.parentWorkItemId = parent ∧ c.turnId = turnId := by
  rw [searching, Option.filter_eq_some_iff, decide_eq_true_eq] at hsearching
  exact hsearching

theorem upcoming_eq_some {turnId : String} {fan : FanOut} {index : ℕ} {role : SpeechRole}
    (hnext : h.upcoming turnId = some (fan, index, r, role)) :
    h.fanOuts.get? turnId = some fan ∧ fan.current = none ∧ fan.next = some (index, r, role) := by
  rw [upcoming] at hnext
  obtain ⟨fan', hfan, hitem⟩ := Option.bind_eq_some_iff.mp hnext
  split_ifs at hitem with hcurrent
  obtain ⟨item, hitem', heq⟩ := Option.map_eq_some_iff.mp hitem
  cases heq
  exact ⟨hfan, hcurrent, hitem'⟩

theorem booked_fresh (enableBackgroundStatus : Bool) (sessionId : String) :
    Booked (fresh enableBackgroundStatus sessionId) where
  authored := authored_empty
  nodup := List.nodup_nil
  silent _ k w := rfl
  earned k w hready := by cases hready
  child w c hc := by cases hc
  fan turnId fan hfan := by cases hfan

theorem Booked.keeps_emit_idle (hb : Booked h) (rep : ChildReport) (now : ℚ) (hidle : rep.state ≠ .resultReady) :
    Keeps h (h.emitWorkStatus cfg rep none now) := by
  have hg : Grows ∅ h (h.emitWorkStatus cfg rep none now).1 := hb.toTidy.grows_emit_idle rep none now hidle
  exact ⟨hb.apart ⟨hg, children_emitWorkStatus _ _ _, fanOuts_emitWorkStatus _ _ _⟩,
    honest_emit fun hready => absurd hready hidle, hg.widen⟩

theorem Booked.stepFanOut (hb : Booked h) (turnId : String) (origin : Origin) :
    Keeps h (step cfg h (.fanOut turnId origin)) := by
  rw [step]
  split_ifs
  · exact hb.keeps_refl
  · exact hb.rewrite_fan turnId { origin } ⟨nofun, nofun, nofun, nofun⟩

theorem Booked.stepJoin (hb : Booked h) (turnId : String) (index : ℕ) {d : Disposition} (now : ℚ)
    (hdated : ∀ r, d.result = some r → r.originEpoch.isSome = true) : Keeps h (step cfg h (.join turnId index d now)) := by
  rw [step]
  rcases hfan : h.fanOuts.get? turnId with _ | fan
  · exact hb.keeps_refl
  dsimp only
  by_cases hbusy : fan.looping ∨ (fan.results.get? index).isSome ∨ (fan.deferred.get? index).isSome ∨
    d.result.any (·.turnId ≠ itemTurnId turnId index)
  · rw [if_pos hbusy]
    exact hb.keeps_refl
  rw [if_neg hbusy]
  obtain ⟨-, -, hdeferred, hown⟩ : _ ∧ _ ∧ _ ∧ _ := by simpa only [not_or] using hbusy
  have hnone : fan.deferred.get? index = none := by simpa using hdeferred
  have hitem : ∀ r, d.result = some r → workItemId r.turnId = workItemId (itemTurnId turnId index) := by
    intro r hr
    rw [hr, Option.any_some, decide_eq_true_eq, not_not] at hown
    rw [hown]
  by_cases hmain : ∃ r, d = .main r
  · obtain ⟨r, rfl⟩ := hmain
    dsimp only
    split_ifs
    · exact hb.keeps_refl
    · exact hb.answerItem hfan hnone (hdated r rfl)
  · rcases hsearching : h.searching (workItemId (itemTurnId turnId index)) (some (workItemId turnId)) turnId with _ | c
    · cases d with
      | main r => exact absurd ⟨r, rfl⟩ hmain
      | completed outcome r => exact hb.keeps_refl
      | pending notice => exact hb.keeps_refl
      | failed outcome r => exact hb.keeps_refl
      | missing => exact hb.keeps_refl
    · obtain ⟨hc, hstage, hparent, hturn⟩ := searching_eq_some hsearching
      have hjoined : ∀ d', d' = d → Keeps h (if c.originEpoch = fan.origin.epoch then
          h.joinItem cfg turnId fan index (workItemId (itemTurnId turnId index)) c now d' else (h, [])) := by
        rintro d' rfl
        split_ifs with hepoch
        · exact hb.joinItem hfan hnone hc hstage hturn hparent hepoch (fun r hr => ⟨hitem r hr, hdated r hr⟩) now
        · exact hb.keeps_refl
      cases d with
      | main r => exact absurd ⟨r, rfl⟩ hmain
      | completed outcome r => exact hjoined _ rfl
      | pending notice => exact hjoined _ rfl
      | failed outcome r => exact hjoined _ rfl
      | missing => exact hjoined _ rfl

theorem Booked.stepCommit (hb : Booked h) (turnId stamp : String) (fault : Option Fault) (now : ℚ) :
    Keeps h (step cfg h (.commit turnId stamp fault now)) := by
  rw [step]
  rcases hfan : h.fanOuts.get? turnId with _ | fan
  · exact hb.keeps_refl
  rcases hcurrent : fan.current with _ | current
  · rcases hnext : fan.next with _ | ⟨index, r, role⟩
    · simp only [hcurrent, hnext]
      exact hb.keeps_refl
    · simp only [hcurrent, hnext]
      have hget := FanOut.next_eq_some hnext
      exact hb.commitItem hfan hcurrent hget ((hb.fan turnId fan hfan).dated index (r, role) hget) stamp fault now
  · simp only [hcurrent]
    exact hb.keeps_refl

theorem Booked.stepLate (hb : Booked h) (w : String) {l : LateResult} (stamp : String) (fault : Option Fault) (now : ℚ)
    (hdated : ∀ r, l.result = some r → r.originEpoch.isSome = true) : Keeps h (step cfg h (.late w l stamp fault now)) := by
  rw [step]
  rcases hc : h.children.get? w with _ | c
  · exact hb.keeps_refl
  dsimp only
  split_ifs with hretained
  · have hk := hb.child w c hc
    have hsettled : c.settled = true := hk.retained hretained
    set c₀ : Child := { c with retained := false }
    have hg : Grows ∅ h (h.note w c₀) := hb.toTidy.grows_of_eq rfl rfl rfl
    have hb₀ : Booked (h.note w c₀) := by
      refine hb.rewrite_child hg w c₀ rfl rfl (fun w' hw' => absurd hw' (Set.notMem_empty w')) (fun c' hc' => ?_)
        ⟨hk.known, by rintro ⟨⟩, hk.spoken⟩
      rw [hc] at hc'
      cases hc'
      refine ⟨fun turnId index hdeferred => ?_, fun _ => hsettled⟩
      rw [Child.settled, hdeferred] at hsettled
      cases hsettled
    have hlate : Keeps (h.note w c₀) ((h.note w c₀).commitLateResultOnce cfg w c l stamp fault now) :=
      hb₀.commitLateResultOnce ((Dict.get?_set _ _ _ _).trans (if_pos rfl)) hsettled hdated stamp fault now
    exact ⟨hlate.booked, hlate.honest, hg.widen.trans hlate.grows⟩
  · exact hb.keeps_refl

/-- **Every step keeps the books.** -/
theorem Booked.step (hb : Booked h) {e : Event} (he : e.Stamped) : Keeps h (step cfg h e) := by
  cases e with
  | delegate turnId item workerId originEpoch now =>
    rw [CommitHost.step]
    split_ifs with hturn hold
    · exact hb.keeps_refl
    · exact hb.keeps_refl
    · exact hb.delegate (Option.not_isSome_iff_eq_none.mp hold) rfl rfl now
  | report rep now =>
    rw [CommitHost.step]
    split_ifs with hready
    · exact hb.keeps_refl
    · exact hb.keeps_emit_idle rep now hready
  | prune now =>
    have hg : Grows ∅ h { h with state := { h.state with ledger := h.state.ledger.pruneExpiredWorkStatus cfg now } } :=
      hb.toTidy.grows_of_sheds rfl rfl (hb.authored.sheds_prune cfg now)
    exact hb.keeps_apart ⟨hg, rfl, rfl⟩
  | call c =>
    rw [CommitHost.step]
    split_ifs with hplain
    · exact hb.keeps_apart (plain_apart hb.toTidy hplain)
    · exact hb.keeps_refl
  | cancel target exclude localIds coordinatorIds => exact hb.keeps_apart (hb.toTidy.apart_of_eq rfl rfl rfl rfl rfl)
  | turnDone w => exact hb.keeps_apart (hb.toTidy.apart_of_eq rfl rfl rfl rfl rfl)
  | reconnect arbiter connection active closing activeEpoch =>
    exact hb.keeps_apart (hb.toTidy.apart_of_eq rfl rfl rfl rfl rfl)
  | respond r origin requireTts stamp fault =>
    rw [CommitHost.step]
    split_ifs
    · exact hb.keeps_refl
    · obtain ⟨hapart, hmute, -, -⟩ := hb.toTidy.commitAndSpeak r origin .result requireTts stamp fault
      exact ⟨hb.apart hapart, hmute.honest, hapart.grows.widen⟩
  | settle turnId handler outcome r origin stamp fault backgroundAt settledAt =>
    rw [CommitHost.step]
    rcases hsearching : h.searching (workItemId turnId) none turnId with _ | c
    · exact hb.keeps_refl
    · obtain ⟨hc, hstage, -, -⟩ := searching_eq_some hsearching
      dsimp only
      split_ifs with hown
      · exact hb.settleChild hc hstage (he r (List.mem_singleton_self r)) (congrArg workItemId hown) handler outcome origin
          stamp fault backgroundAt settledAt
      · exact hb.keeps_refl
  | finish turnId how now =>
    rw [CommitHost.step]
    rcases hc : h.children.get? (workItemId turnId) with _ | c
    · exact hb.keeps_refl
    · dsimp only
      rcases hstage : c.stage with _ | ⟨r, derived⟩ | ⟨t, index⟩ | _
      · exact hb.keeps_refl
      · exact hb.finishChild hc hstage how now
      · exact hb.keeps_refl
      · exact hb.keeps_refl
  | fanOut turnId origin => exact hb.stepFanOut turnId origin
  | join turnId index d now => exact hb.stepJoin turnId index now fun r hr => he r (Option.mem_toList.mpr hr)
  | commit turnId stamp fault now => exact hb.stepCommit turnId stamp fault now
  | finishItem turnId how now =>
    rw [CommitHost.step]
    rcases hfan : h.fanOuts.get? turnId with _ | fan
    · exact hb.keeps_refl
    · dsimp only
      rcases hcurrent : fan.current with _ | ⟨index, r⟩
      · exact hb.keeps_refl
      · exact hb.finishItem hfan hcurrent how now
  | sweep turnId index now =>
    rw [CommitHost.step]
    rcases hfan : h.fanOuts.get? turnId with _ | fan
    · exact hb.keeps_refl
    · dsimp only
      split_ifs with hidle
      · rw [hb.sweepItem hfan hidle.2.1 hidle.2.2]
        exact hb.keeps_refl
      · exact hb.keeps_refl
  | late w l stamp fault now => exact hb.stepLate w stamp fault now fun r hr => he r (Option.mem_toList.mpr hr)

/-! ## A marked commit -/

/-- Nothing is filed and nothing is spoken. -/
structure Withheld (h : CommitHost) (out : CommitHost × List Effect) : Prop where
  results : out.1.state.results = h.state.results
  transcript : out.1.state.transcript = h.state.transcript
  speech : ∀ item, Effect.speech item ∉ out.2

theorem Withheld.trans {out out' : CommitHost × List Effect} (hw : Withheld h out) (hw' : Withheld out.1 out') :
    Withheld h (out'.1, out.2 ++ out'.2) where
  results := hw'.results.trans hw.results
  transcript := hw'.transcript.trans hw.transcript
  speech item hmem := (List.mem_append.mp hmem).elim (hw.speech item) (hw'.speech item)

theorem withheld_of_eq (hstate : h'.state = h.state) : Withheld h (h', []) :=
  ⟨hstate ▸ rfl, hstate ▸ rfl, fun _ => List.not_mem_nil⟩

theorem withheld_emit (rep : ChildReport) (canonical : Option String) (now : ℚ) :
    Withheld h (h.emitWorkStatus cfg rep canonical now) := by
  rw [emitWorkStatus]
  split_ifs
  · refine ⟨results_setChildWorkStatus _ _ _, ?_, fun item hmem => ?_⟩
    · dsimp only
      rw [SessionState.setChildWorkStatus]
      split <;> rfl
    · cases List.mem_singleton.mp hmem
  · exact withheld_of_eq rfl

/-- The child is shut, where statuses are on. -/
def Closed (h : CommitHost) (w : String) (c : Child) : Prop :=
  h.enableBackgroundStatus = true → Shut h.state.ledger (c.key w) w

/-- **A child whose turn has not settled it is shut by `cancelled`**, whatever its entry says meanwhile. -/
theorem Booked.closed_cancelled (hb : Booked h) {w : String} {c : Child} (hc : h.children.get? w = some c)
    (hpending : c.settled = false) {rep : ChildReport} (hvalid : rep.Valid) (hkey : rep.key = c.key w)
    (hitem : rep.workItemId = w) (hstatus : rep.state = .cancelled) (h' : CommitHost)
    (henabled : h'.enableBackgroundStatus = h.enableBackgroundStatus) (hstate : h'.state = h.state)
    (canonical : Option String) (now : ℚ) : Closed (h'.emitWorkStatus cfg rep canonical now).1 w c := by
  rw [emitWorkStatus]
  split_ifs with hon
  · intro _
    dsimp only
    rw [hstate, ledger_setChildWorkStatus, ← hkey, ← hitem]
    refine (hb.authored.filing cfg rep now).shut_of_cancelled hvalid hstatus ?_ fun hready => ?_
    · rw [hkey, hitem]
      exact (hb.child w c hc).known (henabled ▸ hon)
    · rw [hitem] at hready
      obtain ⟨c', hc', hsettled⟩ := hb.earned _ _ hready
      rw [hc] at hc'
      cases hc'
      rw [hpending] at hsettled
      cases hsettled
  · exact fun hon' => absurd hon' hon

/-- **A turn with one child whose work item is marked** publishes `cancelled`, and nothing else comes of it. -/
theorem Booked.settleChild_marked (hb : Booked h) {w : String} {c : Child} (hc : h.children.get? w = some c)
    (hstage : c.stage = .searching) (hw : workItemId r.turnId = w) (hmarked : w ∈ h.cancelledIds) (handler : Handler)
    (outcome : WorkOutcome) (origin : Origin) (hshown : ¬(outcome = .retained ∧ h.replacesLegacyResultFor origin = true))
    (stamp : String) (fault : Option Fault) (backgroundAt settledAt : ℚ) :
    Withheld h (h.settleChild cfg w c handler outcome r origin stamp fault backgroundAt settledAt) ∧
      Closed (h.settleChild cfg w c handler outcome r origin stamp fault backgroundAt settledAt).1 w c := by
  rw [CommitHost.settleChild]
  dsimp only
  rw [if_neg hshown, decide_eq_true hmarked, deriveStatus_cancelled]
  set c' : Child := { c with retained := outcome = .retained }
  obtain ⟨hapart, -, hmarks, -⟩ := hb.background cfg w c' outcome backgroundAt
  have hquiet : Withheld h (if outcome = .retained then
      h.emitWorkStatus cfg (c'.report w (some c'.workerId) (.background, none)) none backgroundAt else (h, [])) := by
    split_ifs
    · exact withheld_emit _ _ _
    · exact withheld_of_eq rfl
  generalize (if outcome = .retained then
    h.emitWorkStatus cfg (c'.report w (some c'.workerId) (.background, none)) none backgroundAt else (h, []))
    = background at *
  obtain ⟨h₁, out⟩ := background
  dsimp only at hapart hmarks hquiet ⊢
  have hb₁ := hb.apart hapart
  obtain ⟨hapart₂, -, hsuppressed, -⟩ :=
    hb₁.toTidy.commitAndSpeak r origin (speechRoleForChildOutcome outcome) true stamp fault
  rw [hw, hmarks] at hsuppressed
  obtain ⟨hstate, hout⟩ := hsuppressed hmarked
  rw [CommitHost.finalizeSingleChildTurn]
  generalize h₁.commitAndSpeak r origin (speechRoleForChildOutcome outcome) true stamp fault = attempted at *
  obtain ⟨h₂, attempt, out₂⟩ := attempted
  dsimp only at hapart₂ hstate hout
  cases hout
  dsimp only
  rw [CommitHost.publish]
  have hb₂ := hb₁.apart hapart₂
  set rep : ChildReport := c'.report w (some c'.workerId) (.cancelled, none)
  set h₃ : CommitHost := h₂.note w { c' with stage := .closed }
  have hsecond : Withheld h₁ (h₃, []) := withheld_of_eq hstate
  have hc₂ : h₂.children.get? w = some c := hapart₂.children ▸ hapart.children ▸ hc
  have hpending : c.settled = false := by rw [Child.settled, hstage]
  have hvalid : rep.Valid := c'.valid_report w _ (by rintro ⟨⟩)
  have hclosed : Closed (h₃.emitWorkStatus cfg rep (some r.resultId) settledAt).1 w c :=
    hb₂.closed_cancelled hc₂ hpending hvalid rfl rfl rfl h₃ rfl rfl _ _
  exact ⟨hquiet.trans (hsecond.trans (withheld_emit rep (some r.resultId) settledAt)), hclosed⟩

/-- **A marked item of a fan-out**: the status the loop held back becomes `cancelled`. -/
theorem Booked.commitItem_marked (hb : Booked h) {turnId : String} {fan : FanOut}
    (hfan : h.fanOuts.get? turnId = some fan) (hcurrent : fan.current = none) {index : ℕ} {role : SpeechRole}
    (hget : fan.results.get? index = some (r, role)) (hmarked : workItemId r.turnId ∈ h.cancelledIds)
    (hanswered : fan.deferred.get? index = none → ∀ c, h.children.get? (workItemId r.turnId) = some c →
      Closed h (workItemId r.turnId) c)
    (stamp : String) (fault : Option Fault) (now : ℚ) :
    Withheld h (h.commitItem cfg turnId fan index r role stamp fault now) ∧
      ∀ c, h.children.get? (workItemId r.turnId) = some c →
        Closed (h.commitItem cfg turnId fan index r role stamp fault now).1 (workItemId r.turnId) c := by
  obtain ⟨hapart, -, hsuppressed, -⟩ := hb.toTidy.commitAndSpeak r fan.origin role true stamp fault
  obtain ⟨hstate, hout⟩ := hsuppressed hmarked
  rw [CommitHost.commitItem]
  dsimp only
  generalize h.commitAndSpeak r fan.origin role true stamp fault = attempted at *
  obtain ⟨h₁, attempt, out⟩ := attempted
  dsimp only at hapart hstate hout
  cases hout
  dsimp only
  rw [CommitHost.concludeItem]
  dsimp only
  rcases hd : fan.deferred.get? index with _ | d
  · refine ⟨withheld_of_eq hstate, fun c hc hon => ?_⟩
    dsimp only at hon ⊢
    rw [hapart.grows.enabled] at hon
    rw [hstate]
    exact hanswered hd c hc hon
  · obtain ⟨c, hc, hdefers⟩ := (hb.fan turnId fan hfan).held index d hd
    have hitem : d.workItemId = workItemId r.turnId := hb.item_eq hfan hcurrent hd hget
    have hc₁ : h₁.children.get? d.workItemId = some c := hapart.children ▸ hc
    dsimp only
    rw [hc₁, itemStatus, if_pos hitem]
    dsimp only
    set rep : ChildReport := FanOut.report _ turnId d (.cancelled, none)
    set h₂ : CommitHost := CommitHost.note _ d.workItemId { c with stage := .closed }
    have hsecond : Withheld h (h₂, []) := withheld_of_eq hstate
    refine ⟨hsecond.trans (withheld_emit rep (some r.resultId) now), fun c' hc' => ?_⟩
    rw [← hitem, hc] at hc'
    cases hc'
    have hpending : c.settled = false := by rw [Child.settled, hdefers.stage]
    rw [← hitem]
    have hturn : turnId ≠ "" := hdefers.turn ▸ c.turnId_ne
    have hvalid : rep.Valid :=
      ⟨hturn, fun _ he => Option.some.inj he ▸ Int.natCast_nonneg _, by rintro ⟨⟩⟩
    have hkey : rep.key = c.key d.workItemId := by
      rw [Child.key, Child.report, ChildReport.key, ChildReport.key]
      simp only [rep, FanOut.report, hdefers.turn, hdefers.parent, hdefers.epoch]
    exact hb.closed_cancelled hc hpending hvalid hkey rfl rfl h₂ hapart.grows.enabled hstate _ _

variable (cfg) in
/-- **A marked commit comes to nothing**, and its child is shut, where every marked item is answered. -/
theorem Booked.marked (hb : Booked h) {e : Event} (hanswered : e.Answered h) (hattempt : h.attempted e = some r)
    (hmarked : workItemId r.turnId ∈ h.cancelledIds) :
    Withheld h (CommitHost.step cfg h e) ∧ ∀ c, h.children.get? (workItemId r.turnId) = some c →
      Closed (CommitHost.step cfg h e).1 (workItemId r.turnId) c := by
  cases e with
  | respond r' origin requireTts stamp fault =>
    rw [attempted] at hattempt
    rw [CommitHost.step]
    split_ifs at hattempt with hchild
    cases hattempt
    rw [if_neg hchild]
    obtain ⟨-, -, hsuppressed, -⟩ := hb.toTidy.commitAndSpeak r origin .result requireTts stamp fault
    obtain ⟨hstate, hout⟩ := hsuppressed hmarked
    dsimp only
    rw [hout]
    refine ⟨withheld_of_eq hstate, fun c hc => ?_⟩
    rw [hc] at hchild
    exact absurd rfl hchild
  | settle turnId handler outcome r' origin stamp fault backgroundAt settledAt =>
    rw [attempted] at hattempt
    rw [CommitHost.step]
    split_ifs at hattempt with hsettles
    cases hattempt
    obtain ⟨hsome, hown, hshown⟩ := hsettles
    obtain ⟨c, hsearching⟩ := Option.isSome_iff_exists.mp hsome
    obtain ⟨hc, hstage, -, -⟩ := searching_eq_some hsearching
    rw [hsearching]
    dsimp only
    rw [if_pos hown]
    have hw : workItemId r.turnId = workItemId turnId := congrArg workItemId hown
    rw [hw] at hmarked ⊢
    obtain ⟨hwithheld, hclosed⟩ := hb.settleChild_marked hc hstage hw hmarked handler outcome origin hshown stamp fault
      backgroundAt settledAt
    refine ⟨hwithheld, fun c' hc' => ?_⟩
    rw [hc] at hc'
    cases hc'
    exact hclosed
  | commit turnId stamp fault now =>
    rw [attempted] at hattempt
    obtain ⟨⟨fan, index, r', role⟩, hnext, hr⟩ := Option.map_eq_some_iff.mp hattempt
    cases hr
    obtain ⟨hfan, hcurrent, hitem⟩ := upcoming_eq_some hnext
    rw [CommitHost.step, hfan]
    simp only [hcurrent, hitem]
    refine hb.commitItem_marked hfan hcurrent (FanOut.next_eq_some hitem) hmarked (fun hnone c hc hon => ?_) stamp fault now
    exact hanswered turnId rfl _ hnext hmarked hnone hon c hc
  | _ => cases hattempt

/-! ## Whole runs -/

/-- A run keeps the books, and what it emits is honest. -/
theorem Booked.after (hb : Booked h) {es : List Event} (hes : ∀ e ∈ es, e.Stamped) :
    Keeps h (after cfg h es, outputs (CommitHost.step cfg) h es) := by
  induction es generalizing h with
  | nil => exact hb.keeps_refl
  | cons e es ih =>
    have hfirst : Keeps h (CommitHost.step cfg h e) := hb.step (hes e List.mem_cons_self)
    exact hfirst.trans (ih hfirst.booked fun x hx => hes x (List.mem_cons_of_mem e hx))

theorem Booked.booked_after (hb : Booked h) {es : List Event} (hes : ∀ e ∈ es, e.Stamped) :
    Booked (CommitHost.after cfg h es) := by
  have hrun : Keeps h (CommitHost.after cfg h es, outputs (CommitHost.step cfg) h es) := hb.after hes
  exact hrun.booked

theorem after_append (h : CommitHost) (es fs : List Event) :
    after cfg h (es ++ fs) = after cfg (after cfg h es) fs := run_append h es fs

/-- **A child that is shut is never ready.** -/
theorem Booked.never_ready (hb : Booked h) {w : String} {c : Child} (hclosed : Closed h w c) {es : List Event}
    (hes : ∀ e ∈ es, e.Stamped) : (CommitHost.after cfg h es).state.ledger.childState (c.key w) w ≠ some .resultReady := by
  have hrun : Keeps h (CommitHost.after cfg h es, outputs (CommitHost.step cfg) h es) := hb.after hes
  rcases hon : h.enableBackgroundStatus with _ | _
  · have hsilent := hrun.booked.silent (hrun.grows.enabled.trans hon) (c.key w) w
    dsimp only at hsilent
    rw [hsilent]
    exact nofun
  · exact (hrun.grows.shut _ _ (hclosed hon)).not_ready hrun.booked.authored

theorem step_late_speechless (ht : Tidy h) (w : String) {l : LateResult} (stamp : String) (fault : Option Fault) (now : ℚ)
    (hdated : ∀ r, l.result = some r → r.originEpoch.isSome = true) (item : Enqueue) :
    Effect.speech item ∉ (step cfg h (.late w l stamp fault now)).2 := by
  rw [step]
  rcases h.children.get? w with _ | c
  · exact List.not_mem_nil
  · dsimp only
    split_ifs
    · have hg : Grows ∅ h (h.note w { c with retained := false }) := ht.grows_of_eq rfl rfl rfl
      exact hg.tidy.commitLateResultOnce_speechless w c hdated stamp fault now item
    · exact List.not_mem_nil

/-- **What a run of the host owes**: a ready status speaks for a result of the log, no result is logged
twice, a marked commit comes to nothing and its child is never ready afterwards, and a late commit speaks
nothing. -/
structure ReadyIsCommitted (cfg : RetentionConfig) (h : CommitHost) (es : List Event) : Prop where
  honest : Honest (outputs (step cfg) h es)
  once : (after cfg h es).log.Nodup
  marked : ∀ pre e mid post, es = pre ++ e :: (mid ++ post) → ∀ r, (after cfg h pre).attempted e = some r →
    workItemId r.turnId ∈ (after cfg h pre).cancelledIds →
      Withheld (after cfg h pre) (step cfg (after cfg h pre) e) ∧
      ∀ c, (after cfg h pre).children.get? (workItemId r.turnId) = some c →
        (after cfg h (pre ++ e :: mid)).state.ledger.childState (c.key (workItemId r.turnId)) (workItemId r.turnId)
          ≠ some .resultReady
  speechless : ∀ pre w l stamp fault now post, es = pre ++ .late w l stamp fault now :: post →
    ∀ item, Effect.speech item ∉ (step cfg (after cfg h pre) (.late w l stamp fault now)).2

variable (cfg) in
/-- **Ready means committed**, in every run whose fan-outs answer for the marked items they come to. -/
theorem result_ready_is_committed (enableBackgroundStatus : Bool) (sessionId : String) {es : List Event}
    (hstamped : ∀ e ∈ es, e.Stamped)
    (hanswered : Guarded (fun h e => (step cfg h e).1) (fun h e => e.Answered h) (fresh enableBackgroundStatus sessionId) es) :
    ReadyIsCommitted cfg (fresh enableBackgroundStatus sessionId) es := by
  set h₀ := fresh enableBackgroundStatus sessionId
  have hb₀ : Booked h₀ := booked_fresh enableBackgroundStatus sessionId
  have hrun : Keeps h₀ (after cfg h₀ es, outputs (step cfg) h₀ es) := hb₀.after hstamped
  refine ⟨hrun.honest, hrun.booked.nodup, ?_, ?_⟩
  · rintro pre e mid post rfl r hattempt hmarked
    have hpre : Booked (after cfg h₀ pre) := hb₀.booked_after fun x hx => hstamped x (List.mem_append_left _ hx)
    have he : e.Answered (after cfg h₀ pre) := ((guarded_append h₀ pre (e :: (mid ++ post))).mp hanswered).2.1
    obtain ⟨hwithheld, hclosed⟩ := hpre.marked cfg he hattempt hmarked
    refine ⟨hwithheld, fun c hc => ?_⟩
    have hstep : Keeps (after cfg h₀ pre) (step cfg (after cfg h₀ pre) e) := hpre.step (hstamped e (by simp))
    rw [after_append]
    exact hstep.booked.never_ready (hclosed c hc) fun x hx => hstamped x (by simp [hx])
  · rintro pre w l stamp fault now post rfl item
    have hpre : Booked (after cfg h₀ pre) := hb₀.booked_after fun x hx => hstamped x (List.mem_append_left _ hx)
    refine step_late_speechless hpre.toTidy w stamp fault now (fun r hr => ?_) item
    exact hstamped (.late w l stamp fault now) (by simp) r (Option.mem_toList.mpr hr)

/-- A result of item `index` of a turn, for the runs below. -/
def itemResult (turnId : String) (index : ℕ) (resultId : String) (hid : resultId ≠ "")
    (hturn : itemTurnId turnId index ≠ "") : GroundedResult where
  resultId := resultId
  workerId := "flight_search"
  turnId := itemTurnId turnId index
  timestamp := "2026-01-01T00:00:00Z"
  text := "Two flights."
  spokenText := "Two flights."
  originEpoch := some 1
  identified := ⟨hid, by decide, hturn, by decide⟩
  projected := by decide

/-- A client that knows no work status. -/
def legacyOrigin : Origin := ⟨0, 1, true, false⟩

/-- A fan-out of two items, whose second is cancelled while the first is being spoken. -/
def overtaken (second : Disposition) : List Event :=
  [.reconnect ⟨1, some 1⟩ (some legacyOrigin) {0} false (some 1),
    .delegate "turn-1" (some 0) "flight_search" 1 0,
    .delegate "turn-1" (some 1) "flight_search" 1 0,
    .report ⟨"turn-1", "work-turn-1-0", some "work-turn-1", some "flight_search", .searching, some 1, none⟩ 0,
    .report ⟨"turn-1", "work-turn-1-1", some "work-turn-1", some "flight_search", .searching, some 1, none⟩ 0,
    .fanOut "turn-1" legacyOrigin,
    .join "turn-1" 0 (.completed .completed (itemResult "turn-1" 0 "r0" (by decide) (by decide))) 0,
    .join "turn-1" 1 second 0,
    .commit "turn-1" "t" none 0,
    .cancel (some "work-turn-1-1") none [] ["work-turn-1-1"],
    .finishItem "turn-1" .returned 0,
    .commit "turn-1" "t" none 0,
    .late "work-turn-1-1"
      { result := some (itemResult "turn-1" 1 "r1" (by decide) (by decide)), terminalKind := some .completed } "t" none 0]

/-- The second item has its result: the loop answers for it with `cancelled`. -/
theorem result_ready_is_committed_overtaken :
    ReadyIsCommitted retentionConfig (fresh true "session")
      (overtaken (.completed .completed (itemResult "turn-1" 1 "r1" (by decide) (by decide)))) :=
  result_ready_is_committed retentionConfig true "session" (by decide +kernel) (by decide +kernel)

/-- **A suppressed notice leaves the way free**: the second item is retained, its notice is suppressed and
takes the marker with it, and the late result is committed as if nobody had cancelled. -/
theorem suppressed_notice_ready :
    (∀ e ∈ overtaken (.pending (itemResult "turn-1" 1 "n1" (by decide) (by decide))), e.Stamped) ∧
    ¬ReadyIsCommitted retentionConfig (fresh true "session")
      (overtaken (.pending (itemResult "turn-1" 1 "n1" (by decide) (by decide)))) := by
  refine ⟨by decide +kernel, fun hrun => ?_⟩
  set notice := itemResult "turn-1" 1 "n1" (by decide) (by decide)
  set es := overtaken (.pending notice)
  have hmarked := hrun.marked (es.take 11) (.commit "turn-1" "t" none 0) (es.drop 12) [] rfl notice
    (by decide +kernel) (by decide +kernel)
  have hready := hmarked.2 ⟨"turn-1", some "work-turn-1", "flight_search", 1, by decide, .closed, true⟩ (by decide +kernel)
  exact hready (by decide +kernel)

end CommitHost

end Session

end SubagentsLab
