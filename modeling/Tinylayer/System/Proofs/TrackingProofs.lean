import Tinylayer.Enclave.Proofs.ReportProofs
import Tinylayer.Native.Proofs.AdvanceProofs
import Tinylayer.System.Invariant
import Tinylayer.Wallet.Proofs.JournalProofs

/-!
# Proofs: one wallet and the signer

What a wallet does on its own keeps its journal backed by the signer, and every request that it has
sent in the journal or done.
-/

namespace Tinylayer

variable {P : Platform} {LIMIT : Nat}

namespace WalletState

variable {s s' : WalletState P}

theorem Transferred.evolves (h : s.Transferred) (hevolves : Evolves s s') : s'.Transferred := by
  obtain ⟨coin, hcoin, hout⟩ := h
  obtain ⟨coin', hcoin', he⟩ := hevolves coin hcoin
  obtain ⟨outgoing, houtgoing⟩ := Option.isSome_iff_exists.1 hout
  refine ⟨coin', hcoin', ?_⟩
  rw [he.outgoing outgoing houtgoing]
  rfl

theorem Secured.evolves (h : s.Secured) (hinv : WalletInv s) (hevolves : Evolves s s') :
    s'.Secured := by
  obtain ⟨coin, hcoin, hne⟩ := h
  obtain ⟨coin', hcoin', he⟩ := hevolves coin hcoin
  obtain ⟨recovery, secret, howned, _⟩ := (hinv.coin coin hcoin).owned hne
  obtain ⟨index, _, _, hrecovery⟩ := WalletCoin.owned_eq_some.1 (he.owned _ howned)
  refine ⟨coin', hcoin', ?_⟩
  intro hnil
  rw [hnil] at hrecovery
  cases hrecovery

/-- What is journaled is what `pending_sign_request` returns. -/
theorem pendingSignRequest_eq_ok {request : SignRequest P} :
    s.pendingSignRequest = .ok request ↔ s.Journals request := by
  unfold pendingSignRequest Journals signing
  split <;> simp_all [eq_comm, throw, throwThe, MonadExceptOf.throw, pure, Except.pure]

theorem Transferred.held_eq_none (h : s.Transferred) (hinv : WalletInv s) : s.held = none := by
  obtain ⟨coin, hcoin, hout⟩ := h
  rw [Option.eq_none_iff_forall_ne_some]
  intro held hheld
  obtain ⟨coin', hcoin', _, hcapability, _⟩ := held_eq_some.1 hheld
  cases hcoin.symm.trans hcoin'
  rw [(hinv.coin coin hcoin).capability.2 hout] at hcapability
  cases hcapability

theorem Transferred.signing_eq_none (h : s.Transferred) (hinv : WalletInv s) :
    s.signing = none := by
  obtain ⟨coin, hcoin, hout⟩ := h
  exact signing_of_idle (hinv.transferred_idle hcoin hout)

/-- A response is recorded in the journal, or nothing changes. -/
theorem after_recordSignResponse (s : WalletState P) (response : SignResponse P) :
    s.after (.recordSignResponse response) = s ∨
    ∃ purpose attempt, s.pending = some (.recovery ⟨purpose, .prepared attempt⟩) ∧
      s.after (.recordSignResponse response) =
        { s with pending := some (.recovery ⟨purpose, .responded attempt response⟩) } := by
  rcases (recordSignResponse_atomic response s).stateAfter_eq with ⟨u, hok⟩ | hs
  · obtain ⟨purpose, attempt, ⟨hp, hs'⟩ | ⟨_, hs'⟩⟩ := recordSignResponse_ok.1 hok
    · exact Or.inr ⟨purpose, attempt, hp, hs'⟩
    · exact Or.inl hs'
  · exact Or.inl hs

end WalletState

open WalletState

/-! ## Funding through Bitcoin Core -/

namespace CoreFunds

variable {s s' : WalletState P} {given : Option (CoinStatus P)} {drawn : Option Capability}

theorem keeps (h : CoreFunds s given drawn s') (hsecret : P.SecretCodec) (hinv : WalletInv s) :
    WalletInv s' ∧ Evolves s s' := by
  cases h with
  | funding network prepared amountSat delayBlocks feeRateSatVb maxFeeSat hcoin hfunding hpending
      _ _ hmetadata hhistory =>
    exact hinv.coreFunding hcoin hpending hmetadata hfunding hhistory network prepared amountSat
      delayBlocks feeRateSatVb maxFeeSat rfl
  | attempt draws hcoin hmetadata hfunding hstage _ hattempt =>
    exact ⟨hinv.coreAttempt hsecret hcoin hmetadata hfunding hstage rfl hattempt,
      .of_coin_eq rfl⟩

theorem moves (h : CoreFunds s given drawn s') (hinv : WalletInv s) : Moves s given none s' := by
  cases h with
  | funding network prepared amountSat delayBlocks feeRateSatVb maxFeeSat hcoin =>
    refine .quiet ?_ rfl
    simp only [held, hcoin, Option.bind_some]
  | attempt draws hcoin hmetadata hfunding hstage hpending hattempt =>
    obtain ⟨capability, handoff, request, prepared, hstatus, _, hcapability, hhandoff, hauth,
      hprepare, rfl⟩ := coreAttempt_ok hattempt
    obtain ⟨_, _, _, _, _, _, _, _, rfl, rfl⟩ := prepareRecovery_eq_ok.1 hprepare
    obtain ⟨_, hid, hkey⟩ := verifyStatus_eq_ok.1 hstatus
    have hkeys := (hinv.coin _ hcoin).metadata_keys _ hmetadata
    refine .journaled (signing_of_idle hpending) rfl _ _ _ rfl rfl ?_ ?_ ?_ ?_ rfl
    · intro request hpurpose
      cases hpurpose
    · simp only [recoveryRequest, hkeys, hid]
    · intro coin' hcoin'
      cases hcoin.symm.trans hcoin'
      exact hkey
    · simp only [Signer.presented, recoveryRequest, hkeys, hauth]

theorem draws (h : CoreFunds s given drawn s') : Draws s drawn s' := by
  intro c hc
  cases h with
  | funding network prepared amountSat delayBlocks feeRateSatVb maxFeeSat hcoin =>
    simp only [mem_capabilities] at hc ⊢
    simp_all
  | attempt draws hcoin hmetadata hfunding hstage hpending hattempt =>
    obtain ⟨_, _, _, _, _, _, _, _, _, _, rfl⟩ := coreAttempt_ok hattempt
    simp only [mem_capabilities] at hc ⊢
    simp_all
    grind

end CoreFunds

/-! ## Requests that were sent -/

section Moves

variable {replies : List (Signer.Issuance P)} {calls : List (Signer.Call P)}
  {s s' : WalletState P} {given : Option (CoinStatus P)} {requested : Option TransferRequest}

/-- A request that is done stays so. -/
theorem Done.moves {request : SignRequest P} (h : Done replies request s) (hinv : WalletInv s)
    (hevolves : Evolves s s') (hmoves : Moves s given requested s') : Done replies request s' := by
  refine ⟨h.answered, ?_⟩
  rcases h.past with htransferred | ⟨hsecured, hinitial, hheld⟩
  · exact Or.inl (htransferred.evolves hevolves)
  · have hsecured' := hsecured.evolves hinv hevolves
    cases hmoves with
    | quiet held_eq => exact Or.inr ⟨hsecured', hinitial, held_eq ▸ hheld⟩
    | received coin_none =>
      obtain ⟨coin, hcoin, _⟩ := hsecured
      rw [coin_none] at hcoin
      cases hcoin
    | journaled _ held_eq => exact Or.inr ⟨hsecured', hinitial, held_eq ▸ hheld⟩
    | secured nextCapability secret attempt response signing_eq =>
      exact absurd hsecured (hinv.initial_of_fund signing_eq rfl).2
    | transferred request attempt response signing_eq transferred => exact Or.inl transferred

variable (hinv : WalletInv s)
  (hbacked : ∀ pending, s.signing = some pending → Backed LIMIT calls replies s pending)
include hinv hbacked

/-- A request stays in the journal until it is done. -/
theorem Tracks.moves (hfresh : ∀ entry ∈ replies, entry.2.nextHandoff ≠ initialHandoff)
    {request : SignRequest P} (h : Tracks replies request s) (hevolves : Evolves s s')
    (hmoves : Moves s given requested s') : Tracks replies request s' := by
  rcases h with ⟨pending, hsigning, rfl⟩ | hdone
  · cases hmoves with
    | quiet _ signing_eq => exact Or.inl ⟨pending, signing_eq.trans hsigning, rfl⟩
    | received coin_none =>
      obtain ⟨coin, hcoin, _⟩ := hinv.recovery pending (signing_eq_some.1 hsigning)
      rw [coin_none] at hcoin
      cases hcoin
    | journaled idle =>
      rw [idle] at hsigning
      cases hsigning
    | secured nextCapability secret attempt response signing_eq _ secured held_eq =>
      cases signing_eq.symm.trans hsigning
      have hanswered := (hbacked _ hsigning).answered attempt response rfl
      refine Or.inr ⟨⟨response, hanswered⟩, Or.inr ⟨secured,
        (hinv.initial_of_fund hsigning rfl).1, fun held hheld => ?_⟩⟩
      cases held_eq.symm.trans hheld
      exact hfresh _ hanswered
    | transferred request attempt response signing_eq transferred =>
      cases signing_eq.symm.trans hsigning
      exact Or.inr ⟨⟨response, (hbacked _ hsigning).answered attempt response rfl⟩,
        Or.inl transferred⟩
  · exact Or.inr (hdone.moves hinv hevolves hmoves)

/-- The journal stays backed. -/
theorem Backed.moves (hinv' : WalletInv s') (hevolves : Evolves s s')
    (hmoves : Moves s given requested s')
    (hgiven : ∀ status, given = some status → Signer.Reported LIMIT calls status)
    {pending : PendingRecovery P} (hsigning : s'.signing = some pending) :
    Backed LIMIT calls replies s' pending := by
  cases hmoves with
  | quiet _ signing_eq =>
    rw [signing_eq] at hsigning
    obtain ⟨⟨status, hreported, hid, hkey, hauth, hcount⟩, hanswered⟩ := hbacked pending hsigning
    refine ⟨⟨status, hreported, hid, ?_, hauth, hcount⟩, hanswered⟩
    intro coin' hcoin'
    obtain ⟨coin, hcoin, _⟩ := hinv.recovery pending (signing_eq_some.1 hsigning)
    obtain ⟨coin'', hcoin'', he⟩ := hevolves coin hcoin
    cases hcoin''.symm.trans hcoin'
    rw [he.keys]
    exact hkey coin hcoin
  | received _ idle =>
    rw [idle] at hsigning
    cases hsigning
  | journaled _ _ status purpose attempt given_eq signing_eq _ coinId signingPubkey authorization
      count =>
    cases signing_eq.symm.trans hsigning
    exact ⟨⟨status, hgiven status given_eq, coinId, signingPubkey, authorization, count⟩, nofun⟩
  | secured _ _ _ _ _ idle =>
    rw [idle] at hsigning
    cases hsigning
  | transferred _ _ _ _ transferred =>
    rw [transferred.signing_eq_none hinv'] at hsigning
    cases hsigning

end Moves

/-! ## The invariant of one wallet -/

namespace World.StateInv

variable {ι : Type} {w w' : World ι P LIMIT} {i : ι} {s s' : WalletState P}

/-- What the wallet does on its own. -/
theorem moves (h : StateInv w i s) {given : Option (CoinStatus P)}
    {requested : Option TransferRequest}
    (hfresh : ∀ entry ∈ w.replies, entry.2.nextHandoff ≠ initialHandoff) (hinv : WalletInv s')
    (hevolves : Evolves s s') (hmoves : Moves s given requested s')
    (hgiven : ∀ status, given = some status → Signer.Reported LIMIT w.calls status) :
    StateInv w i s' where
  wallet := hinv
  backed := fun _ hsigning =>
    Backed.moves h.wallet h.backed hinv hevolves hmoves hgiven hsigning
  tracks := fun a ha hi => (h.tracks a ha hi).moves h.wallet h.backed hfresh hevolves hmoves

/-- The wallet records an answer of the signer. -/
theorem record (h : StateInv w i s) {request : SignRequest P} {response : SignResponse P}
    (hpending : s.pendingSignRequest = .ok request) (hreplied : (request, response) ∈ w.replies) :
    StateInv w i (s.after (.recordSignResponse response)) := by
  rcases after_recordSignResponse s response with hs | ⟨purpose, attempt, hp, hs⟩
  · rw [hs]
    exact h
  have hsigning : s.signing = some ⟨purpose, .prepared attempt⟩ := signing_eq_some.2 hp
  have hrequest : attempt.request = request := by
    rw [pendingSignRequest, hp] at hpending
    exact Except.ok.inj hpending
  have hinv : WalletInv (s.after (.recordSignResponse response)) :=
    (h.wallet.stateAfter (recordSignResponse_atomic response s)
      fun _ _ => h.wallet.recordSignResponse).1
  obtain ⟨s', hs'⟩ : ∃ s', s' = s.after (.recordSignResponse response) := ⟨_, rfl⟩
  rw [← hs'] at hinv hs ⊢
  have hsigning' : s'.signing = some ⟨purpose, .responded attempt response⟩ := by
    rw [hs]
    rfl
  have hcoin : s'.coin = s.coin := by rw [hs]
  refine ⟨hinv, fun pending hpending' => ?_, fun a ha hi => ?_⟩
  · cases hsigning'.symm.trans hpending'
    refine ⟨?_, ?_⟩
    · rw [hcoin]
      exact (h.backed _ hsigning).reported
    · rintro _ _ ⟨⟩
      rw [hrequest]
      exact hreplied
  · rcases h.tracks a ha hi with ⟨pending, hjournal, hrequest'⟩ | hdone
    · cases hsigning.symm.trans hjournal
      exact Or.inl ⟨_, hsigning', hrequest'⟩
    · refine Or.inr ⟨hdone.answered, ?_⟩
      rw [held_congr hcoin]
      have hsecured : s.Secured → s'.Secured := by
        rw [Secured, Secured, hcoin]
        exact id
      have htransferred : s.Transferred → s'.Transferred := by
        rw [Transferred, Transferred, hcoin]
        exact id
      exact hdone.past.imp htransferred fun hpast => ⟨hsecured hpast.1, hpast.2⟩

/-- The same in a longer history, in which the wallet sent nothing new that it does not track. -/
theorem extend (h : StateInv w i s) (hextends : Extends w w')
    (hsent : ∀ a ∈ w'.sent, a.wallet = i → a ∈ w.sent ∨ s.Journals a.request) :
    StateInv w' i s := by
  refine ⟨h.wallet, fun pending hsigning => ?_, fun a ha hi => ?_⟩
  · obtain ⟨⟨status, hreported, hrest⟩, hanswered⟩ := h.backed pending hsigning
    obtain ⟨later, hlater⟩ := hextends.calls
    refine ⟨⟨status, ?_, hrest⟩, fun attempt response hstage => ?_⟩
    · rw [← hlater]
      exact hreported.append later
    · exact hextends.replies.subset (hanswered attempt response hstage)
  · rcases hsent a ha hi with ha | hjournals
    · rcases h.tracks a ha hi with hjournals | ⟨⟨response, hanswered⟩, hpast⟩
      · exact Or.inl hjournals
      · exact Or.inr ⟨⟨response, hextends.replies.subset hanswered⟩, hpast⟩
    · exact Or.inl hjournals

end World.StateInv

end Tinylayer
