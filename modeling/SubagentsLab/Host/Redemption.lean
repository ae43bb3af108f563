import SubagentsLab.Host.Handshake

/-!
# Host/Redemption — handshake safety

Every entry of the gate's store goes back to one issued token, and says whether that token was redeemed
(`Accounted`); the arbiter's epoch is that of the last promotion.  From these, whatever the order of
requests: a token is redeemed at most once, in its lifetime and for its own epoch, a candidate is
accepted only after its offer, and promoted epochs increase (`handshake_safe`).
-/

namespace SubagentsLab

open Machinery

/-! ## The store -/

namespace HandshakeGate

variable {tokens tokens' : Dict Uuid HandshakeToken} {token : Uuid}

/-- Entries are dropped, and none is changed. -/
structure Drops (tokens tokens' : Dict Uuid HandshakeToken) : Prop where
  kept : ∀ token entry, tokens'.get? token = some entry → tokens.get? token = some entry
  length : tokens'.keys.length ≤ tokens.keys.length

theorem Drops.refl (tokens : Dict Uuid HandshakeToken) : Drops tokens tokens := ⟨fun _ _ h => h, le_refl _⟩

theorem Drops.pop (h : Drops tokens tokens') (token : Uuid) : Drops tokens (tokens'.pop token) := by
  refine ⟨fun t entry hget => h.kept t entry ?_, le_trans ?_ h.length⟩
  · rw [Dict.get?_pop] at hget
    split_ifs at hget
    exact hget
  · exact Nat.le.intro (tokens'.length_keys_pop token)

theorem drops_prune (now : ℚ) (tokens : Dict Uuid HandshakeToken) : Drops tokens (prune now tokens) := by
  have hpop : ∀ (tokens' : Dict Uuid HandshakeToken) (token : Uuid), Drops tokens tokens' →
      Drops tokens (tokens'.pop token) := fun _ token h => h.pop token
  exact run_invariant_of_step hpop (.refl tokens) _

theorem drops_evict (rounds : ℕ) (tokens : Dict Uuid HandshakeToken) :
    Drops tokens (evict rounds tokens) := by
  induction rounds generalizing tokens with
  | zero => exact .refl tokens
  | succ rounds ih =>
    rw [evict]
    split_ifs
    · split
      · exact .refl tokens
      · rename_i token _
        have hdropped := (Drops.refl tokens).pop token
        have hrest := ih (tokens.pop token)
        exact ⟨fun t entry hget => hdropped.kept t entry (hrest.kept t entry hget),
          hrest.length.trans hdropped.length⟩
    · exact .refl tokens

/-- A store that holds anything has an oldest token, which it holds. -/
theorem oldest_spec (tokens : Dict Uuid HandshakeToken) (h : 0 < tokens.keys.length) :
    ∃ token entry, oldest tokens = some token ∧ tokens.get? token = some entry := by
  rcases hmin : tokens.entries.argmin (fun entry => entry.2.expiresAt) with _ | ⟨token, entry⟩
  · rw [List.argmin_eq_none] at hmin
    simp [Dict.keys, hmin] at h
  · exact ⟨token, entry, by rw [oldest, hmin]; rfl, Dict.get?_eq_some_iff.mpr (List.argmin_mem hmin)⟩

/-- **Eviction brings the store down to its cap.** -/
theorem length_evict (rounds : ℕ) (tokens : Dict Uuid HandshakeToken)
    (h : tokens.keys.length ≤ maxHandshakeTokens + rounds) :
    (evict rounds tokens).keys.length ≤ maxHandshakeTokens := by
  induction rounds generalizing tokens with
  | zero => exact h
  | succ rounds ih =>
    rw [evict]
    split_ifs with hover
    · obtain ⟨token, entry, hold, hget⟩ := oldest_spec tokens (Nat.zero_lt_of_lt hover)
      have hpop := tokens.length_keys_pop token
      rw [hget, Option.toList_some, List.length_singleton] at hpop
      rw [hold]
      exact ih _ (by omega)
    · exact Nat.le_of_not_lt hover

end HandshakeGate

/-! ## The host -/

/-- The token that is redeemed. -/
def HandshakeOutcome.redemption : HandshakeOutcome → Option Uuid
  | .redeemed token _ => some token
  | _ => none

/-- The epoch that is promoted. -/
def HandshakeOutcome.promotion : HandshakeOutcome → Option ℕ
  | .promoted epoch => some epoch
  | _ => none

namespace HandshakeHost

open HandshakeGate

variable {h h' : HandshakeHost} {L : List HandshakeOutcome}

/-- **The store against the log**: every entry is an issued token, and says whether it was redeemed. -/
structure Accounted (h : HandshakeHost) (L : List HandshakeOutcome) : Prop where
  length : h.gate.tokens.keys.length ≤ maxHandshakeTokens
  issued : ∀ token entry, h.gate.tokens.get? token = some entry →
    ∃ t, .issued token entry.epoch t ∈ L ∧ entry.expiresAt = t + tokenLifetime ∧ t ≤ h.clock
  redeemed : ∀ token entry, h.gate.tokens.get? token = some entry → entry.redeemed = true →
    .redeemed token entry.epoch ∈ L
  marked : ∀ token entry, h.gate.tokens.get? token = some entry →
    token ∈ L.filterMap HandshakeOutcome.redemption → entry.redeemed = true
  once : (L.filterMap HandshakeOutcome.redemption).Nodup
  drawn : ∀ token ∈ L.filterMap HandshakeOutcome.redemption, token < h.nextUuid
  stored : ∀ token entry, h.gate.tokens.get? token = some entry → token < h.nextUuid

/-- The arbiter's epoch is that of the last promotion. -/
structure Promoted (a : ConnectionArbiter) (L : List HandshakeOutcome) : Prop where
  active : a.active = (L.filterMap HandshakeOutcome.promotion).getLast?
  epoch : ∀ epoch, a.active = some epoch → a.epoch = epoch
  increasing : (L.filterMap HandshakeOutcome.promotion).Pairwise (· < ·)
  last : ∀ epoch ∈ L.filterMap HandshakeOutcome.promotion, epoch ≤ a.epoch

/-- Entries are dropped, time passes, and something is noted that is no redemption. -/
theorem Accounted.drop {o : List HandshakeOutcome} (ha : Accounted h L)
    (hdrops : Drops h.gate.tokens h'.gate.tokens) (hclock : h.clock ≤ h'.clock)
    (hnext : h'.nextUuid = h.nextUuid) (ho : o.filterMap HandshakeOutcome.redemption = []) :
    Accounted h' (L ++ o) := by
  have hsame : (L ++ o).filterMap HandshakeOutcome.redemption = L.filterMap HandshakeOutcome.redemption := by
    rw [List.filterMap_append, ho, List.append_nil]
  refine ⟨hdrops.length.trans ha.length, fun token entry hget => ?_, fun token entry hget hred => ?_,
    fun token entry hget hmem => ?_, by rw [hsame]; exact ha.once, ?_, fun token entry hget => ?_⟩
  · obtain ⟨t, ht, hexp, hle⟩ := ha.issued token entry (hdrops.kept token entry hget)
    exact ⟨t, List.mem_append_left o ht, hexp, hle.trans hclock⟩
  · exact List.mem_append_left o (ha.redeemed token entry (hdrops.kept token entry hget) hred)
  · exact ha.marked token entry (hdrops.kept token entry hget) (hsame ▸ hmem)
  · rw [hsame, hnext]
    exact ha.drawn
  · rw [hnext]
    exact ha.stored token entry (hdrops.kept token entry hget)

/-- `session_handshake` stores a token that was never drawn. -/
theorem Accounted.sessionHandshake (ha : Accounted h L) {pruneAt issueAt : ℚ} (hclock : h.clock ≤ issueAt) :
    Accounted { (h.sessionHandshake pruneAt issueAt).1 with clock := issueAt }
      (L ++ [(h.sessionHandshake pruneAt issueAt).2]) := by
  set tokens := prune pruneAt h.gate.tokens with htokens
  set entry : HandshakeToken := ⟨h.arbiter.epoch + 1, issueAt + tokenLifetime, false⟩ with hentry
  have hpruned := drops_prune pruneAt h.gate.tokens
  have hevicted := drops_evict (tokens.set h.nextUuid entry).keys.length (tokens.set h.nextUuid entry)
  have hfrom : ∀ token e, (evict (tokens.set h.nextUuid entry).keys.length
      (tokens.set h.nextUuid entry)).get? token = some e →
        (token = h.nextUuid ∧ e = entry) ∨ h.gate.tokens.get? token = some e := by
    intro token e hget
    have hset := hevicted.kept token e hget
    rw [Dict.get?_set] at hset
    split_ifs at hset with htoken
    · cases hset
      exact Or.inl ⟨htoken, rfl⟩
    · exact Or.inr (hpruned.kept token e hset)
  have hsame : (L ++ [(h.sessionHandshake pruneAt issueAt).2]).filterMap HandshakeOutcome.redemption
      = L.filterMap HandshakeOutcome.redemption := by
    rw [List.filterMap_append]
    exact List.append_nil _
  refine ⟨?_, fun token e hget => ?_, fun token e hget hred => ?_, fun token e hget hmem => ?_,
    by rw [hsame]; exact ha.once, ?_, fun token e hget => ?_⟩
  · refine length_evict _ _ ?_
    have hset := tokens.length_keys_set h.nextUuid entry
    have hle := hpruned.length.trans ha.length
    omega
  · rcases hfrom token e hget with ⟨rfl, rfl⟩ | hold
    · exact ⟨issueAt, List.mem_append_right L (List.mem_singleton_self _), rfl, le_refl _⟩
    · obtain ⟨t, ht, hexp, hle⟩ := ha.issued token e hold
      exact ⟨t, List.mem_append_left _ ht, hexp, hle.trans hclock⟩
  · rcases hfrom token e hget with ⟨rfl, rfl⟩ | hold
    · cases hred
    · exact List.mem_append_left _ (ha.redeemed token e hold hred)
  · rw [hsame] at hmem
    rcases hfrom token e hget with ⟨rfl, rfl⟩ | hold
    · exact absurd (ha.drawn _ hmem) (lt_irrefl _)
    · exact ha.marked token e hold hmem
  · rw [hsame]
    exact fun token hmem => (ha.drawn token hmem).trans (Nat.lt_succ_self _)
  · rcases hfrom token e hget with ⟨rfl, rfl⟩ | hold
    · exact Nat.lt_succ_self _
    · exact (ha.stored token e hold).trans (Nat.lt_succ_self _)

/-- **What `validate_handshake_token` answers**: it drops entries, and says yes only of one it holds,
which is unexpired and of the epoch asked for, not redeemed before an offer and redeemed before a
candidate. -/
theorem validateHandshakeToken_cases (gate : HandshakeGate) (token : Uuid) (proposedEpoch : ℕ)
    (redeem : Bool) (pruneAt readAt : ℚ) :
    ((gate.validateHandshakeToken token proposedEpoch redeem pruneAt readAt).2 = false ∧
      Drops gate.tokens (gate.validateHandshakeToken token proposedEpoch redeem pruneAt readAt).1.tokens) ∨
    ∃ entry, (prune pruneAt gate.tokens).get? token = some entry ∧ readAt < entry.expiresAt ∧
      entry.epoch = proposedEpoch ∧
      (gate.validateHandshakeToken token proposedEpoch redeem pruneAt readAt).2 = true ∧
      entry.redeemed = !redeem ∧
      (gate.validateHandshakeToken token proposedEpoch redeem pruneAt readAt).1.tokens =
        if redeem then (prune pruneAt gate.tokens).set token { entry with redeemed := true }
        else prune pruneAt gate.tokens := by
  have hpruned := drops_prune pruneAt gate.tokens
  rw [validateHandshakeToken]
  rcases hget : (prune pruneAt gate.tokens).get? token with _ | entry
  · exact Or.inl ⟨rfl, hpruned⟩
  dsimp only
  by_cases hbad : entry.expiresAt ≤ readAt ∨ entry.epoch ≠ proposedEpoch
  · rw [if_pos hbad]
    exact Or.inl ⟨rfl, hpruned.pop token⟩
  rw [if_neg hbad]
  push Not at hbad
  rcases redeem with _ | _ <;> rcases hred : entry.redeemed with _ | _ <;>
    simp only [Bool.false_eq_true, if_false, if_true]
  · exact Or.inl ⟨trivial, hpruned⟩
  · exact Or.inr ⟨entry, rfl, hbad.1, hbad.2, trivial, hred, trivial⟩
  · exact Or.inr ⟨entry, rfl, hbad.1, hbad.2, trivial, hred, rfl⟩
  · exact Or.inl ⟨trivial, hpruned⟩

/-- **A query that gets through** carries a token of the store, unexpired and for its own epoch. -/
theorem handshakeFromQuery_cases (h : HandshakeHost) (q : HandshakeQuery) (redeem : Bool)
    (pruneAt readAt : ℚ) :
    ((∃ status, (h.handshakeFromQuery q redeem pruneAt readAt).2 = .inl status) ∧
      ∃ gate, (h.handshakeFromQuery q redeem pruneAt readAt).1 = { h with gate } ∧
        Drops h.gate.tokens gate.tokens) ∨
    ∃ value token entry, (h.handshakeFromQuery q redeem pruneAt readAt).2 = .inr value ∧
      q.resumeToken = some token ∧ q.proposedEpoch = some (value.proposedEpoch : ℤ) ∧
      value.capabilities = q.capabilities.getD [] ∧ value.capabilitiesPresent = q.capabilities.isSome ∧
      (prune pruneAt h.gate.tokens).get? token = some entry ∧ readAt < entry.expiresAt ∧
      entry.epoch = value.proposedEpoch ∧
      entry.redeemed = !redeem ∧
      (h.handshakeFromQuery q redeem pruneAt readAt).1 = { h with gate := ⟨
        if redeem then (prune pruneAt h.gate.tokens).set token { entry with redeemed := true }
        else prune pruneAt h.gate.tokens⟩ } := by
  rw [handshakeFromQuery]
  rcases hparse : parse q with _ | value
  · exact Or.inl ⟨⟨400, rfl⟩, h.gate, rfl, .refl _⟩
  dsimp only
  by_cases hsession : value.sessionId ≠ h.sessionId
  · rw [if_pos hsession]
    exact Or.inl ⟨⟨401, rfl⟩, h.gate, rfl, .refl _⟩
  rw [if_neg hsession]
  obtain ⟨htoken, hepoch, hcaps, hpresent⟩ : q.resumeToken = some value.resumeToken ∧
      q.proposedEpoch = some (value.proposedEpoch : ℤ) ∧ value.capabilities = q.capabilities.getD [] ∧
      value.capabilitiesPresent = q.capabilities.isSome := by
    rw [parse] at hparse
    split at hparse
    · rename_i _ sessionId token epoch sequence _ _ htoken hepoch _
      split_ifs at hparse with hbad
      cases hparse
      push Not at hbad
      refine ⟨htoken, ?_, rfl, rfl⟩
      rw [hepoch, Int.toNat_of_nonneg hbad.1]
    · cases hparse
  rcases validateHandshakeToken_cases h.gate value.resumeToken value.proposedEpoch redeem pruneAt readAt with
    ⟨hno, hdrops⟩ | ⟨entry, hget, hexp, hep, hyes, hred, htokens⟩
  · rw [hno]
    exact Or.inl ⟨⟨401, rfl⟩, _, rfl, hdrops⟩
  · rw [hyes]
    refine Or.inr ⟨_, value.resumeToken, entry, rfl, htoken, hepoch, hcaps, hpresent, hget, hexp, hep, hred, ?_⟩
    rw [← htokens]
    rfl

/-- **An offer is accepted once**, for a token in its lifetime and for its own epoch. -/
theorem Accounted.of_offer (ha : Accounted h L) {q : HandshakeQuery} {pruneAt readAt : ℚ}
    (hclock : h.clock ≤ readAt) {token : Uuid} {epoch : ℕ}
    (hout : (h.offer q pruneAt readAt).2 = .redeemed token epoch) :
    q.resumeToken = some token ∧ q.proposedEpoch = some (epoch : ℤ) ∧
      (∃ t, .issued token epoch t ∈ L ∧ t ≤ readAt ∧ readAt < t + tokenLifetime) ∧
      token ∉ L.filterMap HandshakeOutcome.redemption := by
  rw [offer] at hout
  rcases handshakeFromQuery_cases h q true pruneAt readAt with ⟨⟨status, hst⟩, -⟩ |
    ⟨value, token', entry, hval, htoken, hepoch, -, -, hheld, hexp, hep, hred, -⟩
  · rcases hr : h.handshakeFromQuery q true pruneAt readAt with ⟨h', r⟩
    rw [hr] at hst hout
    rw [show r = .inl status from hst] at hout
    cases hout
  · rcases hr : h.handshakeFromQuery q true pruneAt readAt with ⟨h', r⟩
    rw [hr] at hval hout
    rw [show r = .inr value from hval, htoken] at hout
    obtain ⟨rfl, rfl⟩ : token' = token ∧ value.proposedEpoch = epoch := by simpa using hout
    have hget := (drops_prune pruneAt h.gate.tokens).kept token' entry hheld
    obtain ⟨t, ht, hexpires, hle⟩ := ha.issued token' entry hget
    refine ⟨htoken, hepoch, ⟨t, hep ▸ ht, hle.trans hclock, hexpires ▸ hexp⟩, fun hmem => ?_⟩
    rw [ha.marked token' entry hget hmem] at hred
    cases hred

theorem Accounted.offer (ha : Accounted h L) {q : HandshakeQuery} {pruneAt readAt : ℚ}
    (hclock : h.clock ≤ readAt) :
    Accounted { (h.offer q pruneAt readAt).1 with clock := readAt } (L ++ [(h.offer q pruneAt readAt).2]) := by
  rcases handshakeFromQuery_cases h q true pruneAt readAt with ⟨⟨status, hst⟩, gate, hgate, hdrops⟩ |
    ⟨value, token, entry, hval, htoken, hepoch, -, -, hheld, hexp, hep, hred, hhost⟩
  · rcases hr : h.handshakeFromQuery q true pruneAt readAt with ⟨h', r⟩
    rw [hr] at hst hgate
    simp only [HandshakeHost.offer, hr, show r = .inl status from hst]
    obtain rfl : h' = { h with gate } := hgate
    exact ha.drop hdrops hclock rfl rfl
  · have hout : (h.offer q pruneAt readAt).2 = .redeemed token value.proposedEpoch := by
      rcases hr : h.handshakeFromQuery q true pruneAt readAt with ⟨h', r⟩
      rw [hr] at hval
      simp only [HandshakeHost.offer, hr, show r = .inr value from hval, htoken]
      rfl
    have hnew := (ha.of_offer hclock hout).2.2.2
    have hhost' : (h.offer q pruneAt readAt).1 = (h.handshakeFromQuery q true pruneAt readAt).1 := by
      rcases hr : h.handshakeFromQuery q true pruneAt readAt with ⟨h', _ | _⟩ <;>
        simp only [HandshakeHost.offer, hr]
    rw [hout, hhost', hhost]
    have hpruned := drops_prune pruneAt h.gate.tokens
    have hget := hpruned.kept token entry hheld
    have hlog : (L ++ [HandshakeOutcome.redeemed token value.proposedEpoch]).filterMap HandshakeOutcome.redemption
        = L.filterMap HandshakeOutcome.redemption ++ [token] := by
      rw [List.filterMap_append]
      rfl
    have hset : ∀ t e, ((prune pruneAt h.gate.tokens).set token { entry with redeemed := true }).get? t = some e →
        (t = token ∧ e = { entry with redeemed := true }) ∨ (t ≠ token ∧ h.gate.tokens.get? t = some e) := by
      intro t e hget'
      rw [Dict.get?_set] at hget'
      split_ifs at hget' with heq
      · cases hget'
        exact Or.inl ⟨heq, rfl⟩
      · exact Or.inr ⟨heq, hpruned.kept t e hget'⟩
    refine ⟨?_, fun t e hget' => ?_, fun t e hget' hred' => ?_, fun t e hget' hmem => ?_, ?_, ?_,
      fun t e hget' => ?_⟩
    · have hlength := (prune pruneAt h.gate.tokens).length_keys_set token { entry with redeemed := true }
      rw [hheld, Option.toList_some, List.length_singleton] at hlength
      have hle := hpruned.length.trans ha.length
      change ((prune pruneAt h.gate.tokens).set token { entry with redeemed := true }).keys.length ≤ _
      omega
    · rcases hset t e hget' with ⟨rfl, rfl⟩ | ⟨-, hold⟩
      · obtain ⟨at', hmem, hexpires, hle⟩ := ha.issued t entry hget
        exact ⟨at', List.mem_append_left _ hmem, hexpires, hle.trans hclock⟩
      · obtain ⟨at', hmem, hexpires, hle⟩ := ha.issued t e hold
        exact ⟨at', List.mem_append_left _ hmem, hexpires, hle.trans hclock⟩
    · rcases hset t e hget' with ⟨rfl, rfl⟩ | ⟨-, hold⟩
      · exact List.mem_append_right L (by simp [hep])
      · exact List.mem_append_left _ (ha.redeemed t e hold hred')
    · rcases hset t e hget' with ⟨rfl, rfl⟩ | ⟨hne, hold⟩
      · rfl
      · rw [hlog, List.mem_append, List.mem_singleton] at hmem
        exact ha.marked t e hold (hmem.resolve_right hne)
    · rw [hlog]
      exact List.nodup_append_comm.mp (List.nodup_cons.mpr ⟨hnew, ha.once⟩)
    · rw [hlog]
      intro t hmem
      rcases List.mem_append.mp hmem with hold | hnew
      · exact ha.drawn t hold
      · rw [List.mem_singleton.mp hnew]
        exact ha.stored token entry hget
    · rcases hset t e hget' with ⟨rfl, rfl⟩ | ⟨-, hold⟩
      · exact ha.stored t entry hget
      · exact ha.stored t e hold

@[simp] theorem accepts_gate (gate : HandshakeGate) (epoch : ℕ) :
    accepts { h with gate } epoch = h.accepts epoch := rfl

@[simp] theorem validatePatchHandshake_gate (gate : HandshakeGate) (value : SnapshotHandshake) :
    validatePatchHandshake { h with gate } value = h.validatePatchHandshake value := rfl

/-- **A candidate is accepted after its offer**, while its token lives and for its own epoch, with the
capabilities of the host's connection if it presents any. -/
theorem Accounted.of_iceCandidate (ha : Accounted h L) {q : HandshakeQuery} {pruneAt readAt : ℚ}
    {token : Uuid} {epoch : ℕ} (hout : (h.iceCandidate q pruneAt readAt).2 = .patched token epoch) :
    q.resumeToken = some token ∧ q.proposedEpoch = some (epoch : ℤ) ∧ .redeemed token epoch ∈ L ∧
      (∃ t, .issued token epoch t ∈ L ∧ readAt < t + tokenLifetime) ∧
      ∀ capabilities, q.capabilities = some capabilities →
        ∃ c, h.connection = some c ∧ c.capabilities = capabilities.toFinset := by
  rw [iceCandidate] at hout
  rcases handshakeFromQuery_cases h q false pruneAt readAt with ⟨⟨status, hst⟩, -⟩ |
    ⟨value, token', entry, hval, htoken, hepoch, hcaps, hpresent, hheld, hexp, hep, hred, hhost⟩
  · rcases hr : h.handshakeFromQuery q false pruneAt readAt with ⟨h', r⟩
    rw [hr] at hst hout
    rw [show r = .inl status from hst] at hout
    cases hout
  · rcases hr : h.handshakeFromQuery q false pruneAt readAt with ⟨h', r⟩
    rw [hr] at hval hout hhost
    rw [show r = .inr value from hval, htoken] at hout
    obtain rfl : h' = _ := hhost
    simp only [accepts_gate, validatePatchHandshake_gate, Bool.not_eq_true', Bool.false_eq_true, if_false] at hout
    split_ifs at hout with hclosed hinvalid
    obtain ⟨rfl, rfl⟩ : token' = token ∧ value.proposedEpoch = epoch := by simpa using hout
    have hget := (drops_prune pruneAt h.gate.tokens).kept token' entry hheld
    obtain ⟨t, ht, hexpires, -⟩ := ha.issued token' entry hget
    refine ⟨htoken, hepoch, hep ▸ ha.redeemed token' entry hget hred, ⟨t, hep ▸ ht, hexpires ▸ hexp⟩,
      fun capabilities heq => ?_⟩
    obtain ⟨c, hc⟩ : ∃ c, h.connection = some c := by
      rcases hc : h.connection with _ | c
      · simp [accepts, hc] at hclosed
      · exact ⟨c, rfl⟩
    refine ⟨c, hc, ?_⟩
    simp only [validatePatchHandshake, hpresent, hcaps, heq, hc] at hinvalid
    simpa [eq_comm] using hinvalid

theorem drops_iceCandidate (h : HandshakeHost) (q : HandshakeQuery) (pruneAt readAt : ℚ) :
    ∃ gate, (h.iceCandidate q pruneAt readAt).1 = { h with gate } ∧ Drops h.gate.tokens gate.tokens := by
  have hhost : (h.iceCandidate q pruneAt readAt).1 = (h.handshakeFromQuery q false pruneAt readAt).1 := by
    rcases hr : h.handshakeFromQuery q false pruneAt readAt with ⟨h', _ | _⟩ <;>
      simp only [iceCandidate, hr]
    split_ifs <;> rfl
  rw [hhost]
  rcases handshakeFromQuery_cases h q false pruneAt readAt with ⟨-, gate, hgate, hdrops⟩ |
    ⟨_, _, _, _, _, _, _, _, _, _, _, _, hgate⟩
  · exact ⟨gate, hgate, hdrops⟩
  · exact ⟨_, hgate, drops_prune pruneAt h.gate.tokens⟩

/-! ## Promotion -/

theorem Promoted.note {a : ConnectionArbiter} (hp : Promoted a L) {o : List HandshakeOutcome}
    (ho : o.filterMap HandshakeOutcome.promotion = []) : Promoted a (L ++ o) := by
  have hsame : (L ++ o).filterMap HandshakeOutcome.promotion = L.filterMap HandshakeOutcome.promotion := by
    rw [List.filterMap_append, ho, List.append_nil]
  exact ⟨by rw [hsame]; exact hp.active, hp.epoch, by rw [hsame]; exact hp.increasing,
    by rw [hsame]; exact hp.last⟩

/-- **A promoted epoch is above all earlier ones.** -/
theorem Promoted.promote {a a' : ConnectionArbiter} (hp : Promoted a L) {sessionId : String}
    {resumeToken : Uuid} {value : SnapshotHandshake}
    (hpromote : a.promote sessionId resumeToken value = some a') :
    Promoted a' (L ++ [.promoted value.proposedEpoch]) := by
  rw [ConnectionArbiter.promote] at hpromote
  split_ifs at hpromote with _ _ hstale
  cases hpromote
  have hlog : (L ++ [HandshakeOutcome.promoted value.proposedEpoch]).filterMap HandshakeOutcome.promotion
      = L.filterMap HandshakeOutcome.promotion ++ [value.proposedEpoch] := by
    rw [List.filterMap_append]
    rfl
  have habove : ∀ epoch ∈ L.filterMap HandshakeOutcome.promotion, epoch < value.proposedEpoch := by
    intro epoch hmem
    have hsome : a.active.isSome = true := by
      rw [hp.active, List.getLast?_isSome]
      rintro hnil
      rw [hnil] at hmem
      cases hmem
    push Not at hstale
    exact lt_of_le_of_lt (hp.last epoch hmem) (hstale hsome)
  refine ⟨by rw [hlog, List.getLast?_concat], fun epoch heq => by simpa using heq, ?_, ?_⟩
  · rw [hlog, List.pairwise_append]
    exact ⟨hp.increasing, List.pairwise_singleton _ _, fun x hx y hy => by
      rw [List.mem_singleton.mp hy]
      exact habove x hx⟩
  · rw [hlog]
    intro epoch hmem
    rcases List.mem_append.mp hmem with hold | hnew
    · exact (habove epoch hold).le
    · rw [List.mem_singleton.mp hnew]

theorem Promoted.connect (hp : Promoted h.arbiter L) (value : SnapshotHandshake) :
    Promoted (h.connect value).1.arbiter (L ++ [(h.connect value).2]) := by
  rw [HandshakeHost.connect]
  split_ifs
  · exact hp.note rfl
  · rcases hpromote : h.arbiter.promote h.sessionId h.resumeToken value with _ | arbiter
    · exact hp.note rfl
    · exact hp.promote hpromote

/-! ## Runs -/

/-- A request whose two readings are in order leaves the store accounted for. -/
theorem Accounted.step (ha : Accounted h L) {e : Event} (hclock : h.timely e = true) :
    Accounted (h.step e).1 (L ++ (h.step e).2) := by
  have hread : ∀ first last, e.readings = some (first, last) → h.clock ≤ last := by
    intro first last hr
    simp only [timely, hr, Option.all_some, Bool.and_eq_true, decide_eq_true_eq] at hclock
    exact hclock.1.trans hclock.2
  match e with
  | .sessionHandshake pruneAt issueAt => exact ha.sessionHandshake (hread pruneAt issueAt rfl)
  | .offer q pruneAt readAt => exact ha.offer (hread pruneAt readAt rfl)
  | .iceCandidate q pruneAt readAt =>
    obtain ⟨gate, hgate, hdrops⟩ := drops_iceCandidate h q pruneAt readAt
    have hout : [(h.iceCandidate q pruneAt readAt).2].filterMap HandshakeOutcome.redemption = [] := by
      rw [iceCandidate]
      rcases h.handshakeFromQuery q false pruneAt readAt with ⟨h', _ | value⟩
      · rfl
      · dsimp only
        split_ifs <;> rfl
    refine ha.drop ?_ (hread pruneAt readAt rfl) ?_ hout
    · rw [HandshakeHost.step, act, hgate]
      exact hdrops
    · rw [HandshakeHost.step, act, hgate]
  | .connect value =>
    have hconnect : (h.connect value).1.gate = h.gate ∧ (h.connect value).1.nextUuid = h.nextUuid ∧
        [(h.connect value).2].filterMap HandshakeOutcome.redemption = [] := by
      rw [connect]
      split_ifs
      · exact ⟨rfl, rfl, rfl⟩
      · rcases h.arbiter.promote h.sessionId h.resumeToken value with _ | arbiter <;> exact ⟨rfl, rfl, rfl⟩
    refine ha.drop ?_ (le_refl h.clock) hconnect.2.1 hconnect.2.2
    rw [HandshakeHost.step, act, hconnect.1]
    exact .refl _
  | .deactivate => exact ha.drop (.refl _) (le_refl h.clock) rfl rfl
  | .abortConnection => exact ha.drop (.refl _) (le_refl h.clock) rfl rfl
  | .setClosing closing => exact ha.drop (.refl _) (le_refl h.clock) rfl rfl

theorem Promoted.step (hp : Promoted h.arbiter L) (e : Event) :
    Promoted (h.step e).1.arbiter (L ++ (h.step e).2) := by
  match e with
  | .sessionHandshake pruneAt issueAt => exact hp.note rfl
  | .offer q pruneAt readAt =>
    rw [HandshakeHost.step, act, offer]
    rcases handshakeFromQuery_cases h q true pruneAt readAt with ⟨⟨status, hst⟩, gate, hgate, -⟩ |
      ⟨value, _, _, hval, _, _, _, _, _, _, _, _, hgate⟩
    · rcases hr : h.handshakeFromQuery q true pruneAt readAt with ⟨h', r⟩
      rw [hr] at hst hgate
      obtain ⟨rfl, rfl⟩ : r = .inl status ∧ h' = { h with gate } := ⟨hst, hgate⟩
      exact hp.note rfl
    · rcases hr : h.handshakeFromQuery q true pruneAt readAt with ⟨h', r⟩
      rw [hr] at hval hgate
      obtain ⟨rfl, rfl⟩ : r = .inr value ∧ h' = _ := ⟨hval, hgate⟩
      exact hp.note rfl
  | .iceCandidate q pruneAt readAt =>
    obtain ⟨gate, hgate, -⟩ := drops_iceCandidate h q pruneAt readAt
    have hout : [(h.iceCandidate q pruneAt readAt).2].filterMap HandshakeOutcome.promotion = [] := by
      rw [iceCandidate]
      rcases h.handshakeFromQuery q false pruneAt readAt with ⟨h', _ | value⟩
      · rfl
      · dsimp only
        split_ifs <;> rfl
    rw [HandshakeHost.step, act, hgate]
    exact hp.note hout
  | .connect value => exact hp.connect value
  | .deactivate => exact hp.note rfl
  | .abortConnection => exact hp.note rfl
  | .setClosing closing => exact hp.note rfl

/-- Every reading of the run is in order. -/
def Timely (sessionId : String) (es : List Event) : Prop :=
  Guarded (fun h e => (step h e).1) (fun h e => h.timely e = true) (fresh sessionId) es

instance (sessionId : String) (es : List Event) : Decidable (Timely sessionId es) :=
  inferInstanceAs (Decidable (Guarded _ _ _ _))

theorem accounted_of_timely {sessionId : String} {es : List Event} (hes : Timely sessionId es) :
    Accounted (after sessionId es) (log sessionId es) ∧
      Promoted (after sessionId es).arbiter (log sessionId es) := by
  induction es using List.reverseRecOn with
  | nil =>
    exact ⟨⟨Nat.zero_le _, fun _ _ => nofun, fun _ _ => nofun, fun _ _ => nofun, List.nodup_nil,
      fun _ => nofun, fun _ _ => nofun⟩, ⟨rfl, fun _ => nofun, List.Pairwise.nil, fun _ => nofun⟩⟩
  | append_singleton es e ih =>
    rw [Timely, guarded_append] at hes
    obtain ⟨ha, hp⟩ := ih hes.1
    have hafter : after sessionId (es ++ [e]) = (step (after sessionId es) e).1 := run_append _ es [e]
    have hlog : log sessionId (es ++ [e]) = log sessionId es ++ (step (after sessionId es) e).2 := by
      rw [log, outputs_append, outputs, outputs, List.append_nil]
      rfl
    rw [hafter, hlog]
    exact ⟨ha.step hes.2.1, hp.step e⟩

/-- **Handshake safety**: after any run, whatever the next request. -/
theorem handshake_safe (sessionId : String) (es : List Event) (hes : Timely sessionId es) :
    (after sessionId es).gate.tokens.keys.length ≤ maxHandshakeTokens ∧
      ((log sessionId es).filterMap HandshakeOutcome.redemption).Nodup ∧
      ((log sessionId es).filterMap HandshakeOutcome.promotion).Pairwise (· < ·) ∧
      (∀ epoch, (after sessionId es).arbiter.accepts epoch = true ↔
        epoch.isSome ∧ epoch = ((log sessionId es).filterMap HandshakeOutcome.promotion).getLast?) ∧
      (∀ q pruneAt readAt token epoch, (after sessionId es).timely (.offer q pruneAt readAt) = true →
        ((after sessionId es).offer q pruneAt readAt).2 = .redeemed token epoch →
        q.resumeToken = some token ∧ q.proposedEpoch = some (epoch : ℤ) ∧
          (∃ t, .issued token epoch t ∈ log sessionId es ∧ t ≤ readAt ∧ readAt < t + tokenLifetime) ∧
          token ∉ (log sessionId es).filterMap HandshakeOutcome.redemption) ∧
      ∀ q pruneAt readAt token epoch,
        ((after sessionId es).iceCandidate q pruneAt readAt).2 = .patched token epoch →
        q.resumeToken = some token ∧ q.proposedEpoch = some (epoch : ℤ) ∧
          .redeemed token epoch ∈ log sessionId es ∧
          (∃ t, .issued token epoch t ∈ log sessionId es ∧ readAt < t + tokenLifetime) ∧
          ∀ capabilities, q.capabilities = some capabilities →
            ∃ c, (after sessionId es).connection = some c ∧ c.capabilities = capabilities.toFinset := by
  obtain ⟨ha, hp⟩ := accounted_of_timely hes
  refine ⟨ha.length, ha.once, hp.increasing, fun epoch => ?_, fun q pruneAt readAt token epoch hclock hout => ?_,
    fun q pruneAt readAt token epoch hout => ha.of_iceCandidate hout⟩
  · rw [ConnectionArbiter.accepts, ← hp.active, Bool.and_eq_true, decide_eq_true_eq]
    exact and_congr_left fun heq => by rw [heq]
  · simp only [timely, Event.readings, Option.all_some, Bool.and_eq_true, decide_eq_true_eq] at hclock
    exact ha.of_offer (hclock.1.trans hclock.2) hout

/-- Two clients are offered epoch one; the second's offer loses the promotion. -/
abbrev raced : List Event :=
  [.sessionHandshake 0 0, .sessionHandshake 1 1,
    .offer { sessionId := some "session", resumeToken := some 1, proposedEpoch := some 1 } 2 2,
    .offer { sessionId := some "session", resumeToken := some 2, proposedEpoch := some 1 } 3 3,
    .connect ⟨contractVersion, "session", 0, 1, 0, ["speech"], true⟩,
    .connect ⟨contractVersion, "session", 0, 1, 0, [], false⟩,
    .iceCandidate
      { sessionId := some "session", resumeToken := some 1, proposedEpoch := some 1,
        capabilities := some ["speech"] } 4 5]

theorem handshake_safe_raced :
    log "session" raced = [.issued 1 1 0, .issued 2 1 1, .redeemed 1 1, .redeemed 2 1, .promoted 1, .refused,
        .patched 1 1] ∧
      ((log "session" raced).filterMap HandshakeOutcome.redemption).Nodup :=
  ⟨by decide +kernel, (handshake_safe "session" raced (by decide +kernel)).2.1⟩

end HandshakeHost

end SubagentsLab
