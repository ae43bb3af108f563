import Mathlib.Logic.Equiv.List
import SubagentsLab.Session.Tenure

/-!
# Session/Delivered — the delivery records of a session

Of a session's state the speech side keeps the fence and the delivery records, its utterances numbered.  Whatever is
called on the session, these two move as the speech side moves them on the reports and fence moves among the calls
(`delivers_acted`).  So what is known there of a record is known of the session's: once terminal, it stays
(`speech_acted_of_terminal`).
-/

namespace SubagentsLab

open Machinery

namespace Session

variable {cfg : RetentionConfig} {number : String → UtteranceId} {d : SubagentsLab.SessionState} {s : SessionState}

/-! ## Both sides of a record -/

/-- The record as the speech side keeps it, under the number of its utterance. -/
def SpeechProgress.delivery (number : String → UtteranceId) (p : SpeechProgress) : SubagentsLab.SpeechProgress where
  resultId := some p.resultId
  workItemId := p.workItemId
  runId := p.runId
  utteranceId := number p.utteranceId
  state := p.state
  originEpoch := p.originEpoch.map Nat.cast

theorem delivery_injective (hnumber : Function.Injective number) :
    Function.Injective (SpeechProgress.delivery number) := by
  rintro ⟨resultId, workItemId, runId, utteranceId, state, originEpoch⟩ ⟨_, _, _, _, _, originEpoch'⟩ heq
  simp only [SpeechProgress.delivery, SubagentsLab.SpeechProgress.mk.injEq, Option.some.injEq] at heq
  obtain ⟨rfl, rfl, rfl, hutterance, rfl, hepoch⟩ := heq
  rw [hnumber hutterance, Option.map_injective Nat.cast_injective hepoch]

/-- What is done to the records of the speech side. -/
inductive Delivery
  | report (p : SubagentsLab.SpeechProgress) (allowStaleReconnect : Bool)
  | activate (originEpoch : Option ℤ)

/-- One of those. -/
def Delivery.apply (d : SubagentsLab.SessionState) : Delivery → SubagentsLab.SessionState
  | report p allowStaleReconnect => d.speechProgress p allowStaleReconnect
  | activate originEpoch => { d with activeEpoch := originEpoch }

/-- What a call on the session asks of them. -/
def Act.delivery? (number : String → UtteranceId) : Act → Option Delivery
  | .move (.call (.speechProgress p allowStaleReconnect)) => some (.report (p.delivery number) allowStaleReconnect)
  | .move (.activate originEpoch) => some (.activate (originEpoch.map Nat.cast))
  | _ => none

/-- **The speech side keeps the records of the session.** -/
structure Delivers (number : String → UtteranceId) (d : SubagentsLab.SessionState) (s : SessionState) : Prop where
  activeEpoch : d.activeEpoch = s.activeEpoch.map Nat.cast
  speech : ∀ utteranceId, d.speech (number utteranceId) = (s.speech.get? utteranceId).map (·.delivery number)

/-! ## One call -/

/-- Both fences refuse the same reports. -/
theorem Delivers.fenced (h : Delivers number d s) (p : SpeechProgress) :
    (d.activeEpoch.isSome = true ∧ (p.delivery number).originEpoch ≠ d.activeEpoch) ↔ s.fenced p.originEpoch = true := by
  have hcast : Function.Injective (Option.map (Nat.cast : ℕ → ℤ)) := Option.map_injective Nat.cast_injective
  rw [SessionState.fenced, h.activeEpoch, SpeechProgress.delivery, Bool.and_eq_true, Option.isSome_map, decide_eq_true_eq,
    hcast.ne_iff]

/-- **A report does the same on both sides.** -/
theorem Delivers.report (hnumber : Function.Injective number) (h : Delivers number d s) (p : SpeechProgress)
    (allowStaleReconnect : Bool) :
    Delivers number (d.speechProgress (p.delivery number) allowStaleReconnect)
      (s.speechProgress p allowStaleReconnect).1 := by
  have hwritten : Delivers number
      { d with speech := Function.update d.speech (p.delivery number).utteranceId (some (p.delivery number)) }
      (SessionState.emit { s with speech := s.speech.set p.utteranceId p } (.speechProgress p)).1 := by
    refine ⟨h.activeEpoch, fun utteranceId => ?_⟩
    rw [SessionState.emit, Dict.get?_set]
    split_ifs with hself
    · rw [hself]
      exact Function.update_self _ _ _
    · have hother : number utteranceId ≠ (p.delivery number).utteranceId := hnumber.ne hself
      rw [← h.speech]
      exact Function.update_of_ne hother _ _
  have hfence : (d.activeEpoch.isSome && !allowStaleReconnect && (p.delivery number).originEpoch ≠ d.activeEpoch) = true ↔
      (s.fenced p.originEpoch && !allowStaleReconnect) = true := by
    rw [Bool.and_eq_true (s.fenced _), ← h.fenced p, Bool.and_eq_true, Bool.and_eq_true, decide_eq_true_eq, and_right_comm]
  have hrecord : d.speech (p.delivery number).utteranceId = _ := h.speech p.utteranceId
  rw [SubagentsLab.SessionState.speechProgress, SessionState.speechProgress]
  by_cases hrefused : (s.fenced p.originEpoch && !allowStaleReconnect) = true
  · rwa [if_pos (hfence.mpr hrefused), if_pos hrefused]
  · rw [if_neg (mt hfence.mp hrefused), if_neg hrefused, hrecord]
    rcases s.speech.get? p.utteranceId with _ | previous
    · exact hwritten
    · by_cases hlast : (previous.state.terminal || p.state.rank < previous.state.rank) = true
      · rw [Option.any_some, if_pos hlast]
        exact (congrArg (Delivers number · s) (if_pos hlast)).mpr h
      · rw [Option.any_some, if_neg hlast]
        exact (congrArg (Delivers number · _) (if_neg hlast)).mpr hwritten

/-- **One call does to the records what it asks of them.** -/
theorem Delivers.apply (cfg : RetentionConfig) (hnumber : Function.Injective number) (h : Delivers number d s) (a : Act) :
    Delivers number ((a.delivery? number).elim d (Delivery.apply d)) (a.apply cfg s).1 := by
  have haside : ∀ s' : SessionState, s'.activeEpoch = s.activeEpoch →
      (∀ utteranceId, s'.speech.get? utteranceId = s.speech.get? utteranceId) → Delivers number d s' :=
    fun s' hepoch hspeech => ⟨h.activeEpoch.trans (congrArg _ hepoch.symm), fun utteranceId =>
      (h.speech utteranceId).trans (congrArg _ (hspeech utteranceId).symm)⟩
  cases a with
  | prune now => exact haside _ rfl fun _ => rfl
  | move m =>
    cases m with
    | activate originEpoch => exact ⟨rfl, h.speech⟩
    | call c =>
      by_cases hreport : ∃ p allowStaleReconnect, c = .speechProgress p allowStaleReconnect
      · obtain ⟨p, allowStaleReconnect, rfl⟩ := hreport
        exact h.report hnumber p allowStaleReconnect
      · have hnone : (Act.move (.call c)).delivery? number = none := by
          cases c with
          | speechProgress p allowStaleReconnect => exact absurd ⟨p, _, rfl⟩ hreport
          | _ => rfl
        rw [hnone]
        refine haside _ (s.activeEpoch_step cfg c) fun utteranceId => ?_
        rcases s.speech_step cfg c utteranceId with hsame | ⟨p, allowStaleReconnect, hcall, -⟩
        · exact hsame
        · exact absurd ⟨p, _, hcall⟩ hreport

/-! ## Runs of calls -/

/-- **The speech side keeps up with the session**: after any calls its fence and its records are the session's. -/
theorem delivers_acted (cfg : RetentionConfig) (hnumber : Function.Injective number) (h : Delivers number d s)
    (as : List Act) :
    Delivers number (run Delivery.apply d (as.filterMap (Act.delivery? number))) (acted cfg s as) := by
  induction as generalizing d s with
  | nil => exact h
  | cons a as ih =>
    have hfirst := h.apply cfg hnumber a
    rw [List.filterMap_cons]
    rcases ha : a.delivery? number with _ | e
    · rw [ha] at hfirst
      exact ih hfirst
    · rw [ha] at hfirst
      exact ih hfirst

/-- Any state has its records numbered. -/
theorem exists_delivers (hnumber : Function.Injective number) (s : SessionState) :
    ∃ d, Delivers number d s := by
  let record utteranceId := (s.speech.get? utteranceId).map (·.delivery number)
  exact ⟨⟨s.activeEpoch.map Nat.cast, Function.extend number record fun _ => none⟩, rfl,
    fun utteranceId => hnumber.extend_apply record (fun _ => none) utteranceId⟩

/-- Utterance ids can be numbered. -/
theorem exists_number : ∃ number : String → UtteranceId, Function.Injective number := by
  have hchar : Countable Char := Function.Injective.countable fun _ _ => Char.toNat_inj.mp
  have hstring : Countable String := Function.Injective.countable fun _ _ => String.toList_inj.mp
  exact Countable.exists_injective_nat String

/-- A terminal record of the speech side stays. -/
theorem speech_run_of_terminal {u : UtteranceId} {q : SubagentsLab.SpeechProgress} (hq : d.speech u = some q)
    (hterm : q.state.terminal = true) (es : List Delivery) : (run Delivery.apply d es).speech u = some q := by
  induction es generalizing d with
  | nil => exact hq
  | cons e es ih =>
    refine ih ?_
    cases e with
    | report p allowStaleReconnect => exact SessionState.speechProgress_of_terminal hq hterm
    | activate originEpoch => exact hq

/-- **A terminal record of a session stays**, whatever is called on it. -/
theorem speech_acted_of_terminal (cfg : RetentionConfig) {utteranceId : String} {p : SpeechProgress}
    (hp : s.speech.get? utteranceId = some p) (hterm : p.state.terminal = true) (as : List Act) :
    (acted cfg s as).speech.get? utteranceId = some p := by
  obtain ⟨number, hnumber⟩ := exists_number
  obtain ⟨d, hd⟩ := exists_delivers hnumber s
  have hrecord : d.speech (number utteranceId) = some (p.delivery number) := by rw [hd.speech, hp, Option.map_some]
  have hlast := (delivers_acted cfg hnumber hd as).speech utteranceId
  rw [speech_run_of_terminal hrecord hterm, eq_comm, Option.map_eq_some_iff] at hlast
  obtain ⟨p', hp', heq⟩ := hlast
  rw [hp', delivery_injective hnumber heq]

end Session

end SubagentsLab
