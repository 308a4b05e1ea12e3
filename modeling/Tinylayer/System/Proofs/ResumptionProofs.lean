import Tinylayer.Native.Proofs.ReachesProofs
import Tinylayer.System.Proofs.WorldProofs
import Tinylayer.System.Resume
import Tinylayer.Wallet.Proofs.ResumeProofs

/-!
# Proofs: resuming

A saved request that the signer has carried out is answered again, and the live status confirms the
answer, so that the command which is run again goes through to the end.
-/

namespace Tinylayer

open Durable WalletState

variable {P : Platform} {LIMIT : Nat}

/-- The signer confirms the attempt, with this answer and this status. -/
structure Confirms (σ : Signer P LIMIT) (s : WalletState P) (pending : PendingRecovery P)
    (response : SignResponse P) (live : CoinStatus P) : Prop where
  reported : σ.status pending.stage.attempt.request.coinId = .ok live
  status : ∀ coin, s.coin = some coin → verifyStatus coin.keys live = .ok ()
  confirmed : verifySignResponse pending.stage.attempt.request
    pending.stage.attempt.expectedSignatureCount live response = .ok ()
  repeated : ∀ draws, Signer.sign draws pending.stage.attempt.request σ = .ok response σ
  recorded : ∀ attempt saved, pending.stage = .responded attempt saved → saved = response

namespace World

variable {ι : Type} {w : World ι P LIMIT}

/-- The answer to a request is unique. -/
theorem log_unique (hcf : P.CollisionFree) (hfresh : Fresh w)
    {coinId : CoinId} {a b : Signer.Issuance P} (ha : a ∈ w.log coinId) (hb : b ∈ w.log coinId)
    (hab : Signer.presented a.1 = Signer.presented b.1) : a = b := by
  have hrec := @Signer.recorded_run P LIMIT w.calls coinId
  exact List.inj_on_of_nodup_map (hrec.presented_nodup hcf (hfresh coinId)) ha hb hab

/-- The signer confirms an attempt that it has carried out, as long as nobody else has gone on from
it. -/
theorem Inv.confirms (h : Inv w) (hcf : P.CollisionFree) (hschnorr : P.SchnorrCorrect)
    (hfresh : Fresh w) {i : ι} {pending : PendingRecovery P}
    (hsigning : (w.disk i).signing = some pending) (hcommitted : Committed w i) :
    ∃ response live, Confirms w.signer (w.disk i) pending response live := by
  have hinv := (h.disk i).wallet
  obtain ⟨⟨status, hreported, hid, hkey, hauth, hcount⟩, hanswered⟩ :=
    (h.disk i).backed pending hsigning
  obtain ⟨response, hentry, hothers, hwallets⟩ := hcommitted _ ⟨pending, hsigning, rfl⟩
  have hheld := hinv.held_of_signing hsigning
  have hinitial : response.nextHandoff ≠ initialHandoff := by
    intro heq
    exact (List.nodup_cons.1 (hfresh _)).1 (List.mem_map.2 ⟨_, hentry, heq⟩)
  have hnext : pending.stage.attempt.request.nextCapabilityHash ≠
      capabilityHash pending.stage.attempt.request.currentCapability := by
    obtain ⟨_, _, _, hattempt, _⟩ := hinv.recovery pending (signing_eq_some.1 hsigning)
    exact hattempt.next
  -- nobody has presented the authorization that the answer sets
  have hlast : ∀ e ∈ w.log status.coinId, Signer.presented e.1 ≠
      Signer.committed (pending.stage.attempt.request, response) := by
    intro e he heq
    rcases h.requested _ e he with hsent | hother
    · obtain ⟨a, ha, hrequest⟩ := List.mem_map.1 hsent
      rw [← hrequest] at heq
      by_cases hi : a.wallet = i
      · obtain ⟨_, hhash, hhandoff⟩ := Signer.authorization_inj hcf heq
        rcases (h.disk i).tracks a ha hi with ⟨pending', hsigning', hsame⟩ | hdone
        · cases hsigning.symm.trans hsigning'
          rw [← hsame] at hhash
          exact hnext hhash.symm
        · rcases hdone.past with htransferred | ⟨_, hfirst, _⟩
          · rw [htransferred.signing_eq_none hinv] at hsigning
            cases hsigning
          · exact hinitial (hhandoff.symm.trans hfirst)
      · exact hwallets a ha hi heq
    · exact hothers e.1 hother heq
  rw [← hid] at hentry
  obtain ⟨live, hlive, hliveId, hliveKey, hresponse, hsign⟩ := hreported.answered hcf hschnorr
    (hfresh _) hentry hauth hlast
  rw [hid] at hlive
  refine ⟨response, live, ⟨hlive, fun coin hcoin => ?_, hcount ▸ hresponse, hsign, ?_⟩⟩
  · obtain ⟨coin', hcoin', _, hattempt, _⟩ := hinv.recovery pending (signing_eq_some.1 hsigning)
    cases hcoin.symm.trans hcoin'
    refine verifyStatus_eq_ok.2 ⟨(hinv.coin coin hcoin).keys, ?_, ?_⟩
    · rw [hliveId, hid, hattempt.coinId]
    · rw [hliveKey, hkey coin hcoin]
  · intro attempt saved hstage
    have hmem := h.replied _ (hanswered attempt saved hstage)
    have hrequest : attempt.request = pending.stage.attempt.request := by rw [hstage]; rfl
    rw [hrequest] at hmem
    rw [hid] at hentry
    exact congrArg Prod.snd (log_unique hcf hfresh hmem hentry rfl)

end World

/-! ## The commands -/

section Commands

variable {σ : Signer P LIMIT} {draws : Signer.Draws P} {rest : (query : Query P) → query.Reply}
  {c : Command P} {config : Config} {w : CliWorld P (Signer P LIMIT)}
  {pending : PendingRecovery P} {response : SignResponse P} {live : CoinStatus P}
  {s : WalletState P}

/-- The saved state and the signer are the same. -/
structure Unmoved (w v : CliWorld P (Signer P LIMIT)) : Prop where
  saved : v.saved = w.saved
  env : v.env = w.env

theorem connectVerified_reaches (hconnects : config.Connects) :
    Reaches (answering (liveSigner draws rest)) c (fun _ v => Unmoved w v)
      (connectVerified config) w := by
  refine Reaches.of_bind (a := ()) ?_ ?_
  · simp only [Except.bind_eq_ok, Except.ensure_eq_ok, exists_unit]
    exact ⟨hconnects.supported.1, hconnects.enclave⟩
  · have hanswer : (liveSigner draws rest w.env .connectEnclave).1 = .ok () := rfl
    exact call_reaches hanswer ⟨rfl, rfl⟩

theorem connectIf_reaches (hconnects : config.Connects) (needed : Bool) :
    Reaches (answering (liveSigner draws rest)) c (fun _ v => Unmoved w v)
      (connectIf config needed) w := by
  unfold connectIf
  split
  · exact connectVerified_reaches hconnects
  · exact Reaches.pure ⟨rfl, rfl⟩

theorem status_reaches {coinId : CoinId} (hlive : w.env.status coinId = .ok live) :
    Reaches (answering (liveSigner draws rest)) c (fun answer v => answer = live ∧ Unmoved w v)
      (call (.status coinId)) w := by
  have hanswer : (liveSigner draws rest w.env (.status coinId)).1 = .ok live := by
    simp only [liveSigner, hlive]
    rfl
  exact call_reaches hanswer ⟨rfl, rfl, rfl⟩

theorem sign_reaches {request : SignRequest P}
    (hsign : Signer.sign draws request w.env = .ok response w.env) :
    Reaches (answering (liveSigner draws rest)) c (fun answer v => answer = response ∧ Unmoved w v)
      (call (.sign request)) w := by
  have hanswer : liveSigner draws rest w.env (.sign request) = (.ok response, w.env) := by
    simp only [liveSigner, hsign]
  exact call_reaches (congrArg Prod.fst hanswer) ⟨rfl, rfl, congrArg Prod.snd hanswer⟩

theorem connectChain_unmoved (hanswers : ChainAnswers rest) (hconnects : config.Connects) :
    Reaches (answering (liveSigner draws rest)) c (fun _ v => Unmoved w v) (connectChain config)
      w := by
  have hanswer : (liveSigner draws rest w.env .connectChain).1 = .ok () := hanswers.connectChain
  exact connectChain_reaches hconnects.supported hanswer ⟨rfl, rfl⟩

theorem observeFunding_reaches (hanswers : ChainAnswers rest) (metadata : CoinMetadata P) :
    Reaches (answering (liveSigner draws rest)) c (fun _ v => Unmoved w v)
      (call (.observeFunding metadata)) w := by
  obtain ⟨observation, hobservation⟩ := hanswers.observeFunding metadata
  have hanswer : (liveSigner draws rest w.env (.observeFunding metadata)).1 = .ok observation :=
    hobservation
  exact call_reaches hanswer ⟨rfl, rfl⟩

variable (hconfirms : Confirms w.env s pending response live)
include hconfirms

omit hconfirms in
theorem Unmoved.trans {w v u : CliWorld P (Signer P LIMIT)} (h : Unmoved w v) (h' : Unmoved v u) :
    Unmoved w u := ⟨h'.saved.trans h.saved, h'.env.trans h.env⟩

/-- The live status shows that the attempt is committed. -/
theorem Confirms.committed : attemptCommitted live pending.stage.attempt = .ok true := by
  obtain ⟨hle, ⟨_, hcount, _⟩, _⟩ := verifySignResponse_eq_ok.1 hconfirms.confirmed
  exact attemptCommitted_eq_ok.2 ⟨hle, decide_eq_true hcount⟩

/-- The answer of the signer is saved in the journal. -/
theorem signPendingTransfer_reaches (hinv : WalletInv s) {request : TransferRequest}
    (hpurpose : pending.purpose = .transfer request)
    (hpending : s.pending = some (.recovery pending)) (hconnects : config.Connects)
    (hanswers : ChainAnswers rest) (hexit : w.saved.exit = none)
    (hvalid : w.saved.validate config.network = .ok ()) :
    Reaches (answering (liveSigner draws rest)) c
      (fun result v => v.env = w.env ∧ v.saved.exit = none ∧
        v.saved.validate config.network = .ok () ∧ WalletInv result.1 ∧
        result.1.coin = s.coin ∧ result.1.pending =
          some (.recovery ⟨.transfer request, .responded pending.stage.attempt response⟩))
      (signPendingTransfer config s false) w := by
  obtain ⟨purpose, stage⟩ := pending
  subst hpurpose
  cases stage with
  | responded attempt saved =>
    have hsaved := hconfirms.recorded attempt saved rfl
    subst hsaved
    unfold signPendingTransfer
    simp only [hpending]
    exact Reaches.pure ⟨rfl, hexit, hvalid, hinv, rfl, hpending⟩
  | prepared attempt =>
    obtain ⟨coin, hcoin, metadata, hattempt, hfits, _⟩ := hinv.recovery _ hpending
    have hid : metadata.keys.coinId = attempt.request.coinId := by
      rw [(hinv.coin coin hcoin).metadata_keys metadata hattempt.metadata_eq, ← hattempt.coinId]
      rfl
    unfold signPendingTransfer
    simp only [hpending]
    refine Reaches.bind (connectIf_reaches hconnects (!false)) fun _ v₁ hv₁ => ?_
    refine Reaches.of_bind (a := metadata) ?_ ?_
    · simp [hcoin, hattempt.metadata_eq]
    have hlive : v₁.env.status metadata.keys.coinId = .ok live := by
      rw [hv₁.env, hid]
      exact hconfirms.reported
    refine Reaches.bind (status_reaches hlive) ?_
    rintro status v₂ ⟨hstatus, hv₂⟩
    subst hstatus
    refine Reaches.bind (connectChain_unmoved hanswers hconnects) fun _ v₃ hv₃ => ?_
    refine Reaches.bind (observeFunding_reaches hanswers metadata) fun observation v₄ hv₄ => ?_
    have hv := ((hv₁.trans hv₂).trans hv₃).trans hv₄
    have hvalidate : s.validatePendingTransfer status observation.funding config.minConfirmations
        config.minReactionBlocks = .ok () :=
      (validatePendingTransfer_eq_ok hpending).2 ⟨coin, metadata, hcoin, hinv.validateVersion,
        hfits, hconfirms.status coin hcoin, Or.inl hconfirms.committed⟩
    refine Reaches.of_bind (a := attempt.request) ?_ ?_
    · rw [hvalidate]
      exact pendingSignRequest_eq_ok.2 ⟨_, signing_eq_some.2 hpending, rfl⟩
    have hsign : Signer.sign draws attempt.request v₄.env = .ok response v₄.env := by
      rw [hv.env]
      exact hconfirms.repeated draws
    refine Reaches.bind (sign_reaches hsign) ?_
    rintro answer v₅ ⟨hanswer, hv₅⟩
    subst hanswer
    have hv' := hv.trans hv₅
    obtain ⟨s₂, hs₂⟩ : ∃ s₂ : WalletState P, s₂ = { s with
        pending := some (.recovery ⟨.transfer request, .responded attempt answer⟩) } := ⟨_, rfl⟩
    have hrecord : WalletState.recordSignResponse answer s = .ok () s₂ :=
      recordSignResponse_ok.2 ⟨_, _, Or.inl ⟨hpending, hs₂⟩⟩
    have hinv₂ := (hinv.recordSignResponse hrecord).1
    refine Reaches.of_bind (Update.attempt_eq_ok.2 hrecord) ?_
    have hvalid₅ : v₅.saved.validate config.network = .ok () := by
      rw [hv'.saved]
      exact hvalid
    have hexit₅ : v₅.saved.exit = none := by
      rw [hv'.saved]
      exact hexit
    have hsave : Reaches (answering (liveSigner draws rest)) c
        (fun _ v => v = v₅.wrote c (v₅.saved.withWallet s₂)) (save config s₂) v₅ :=
      save_reaches hvalid₅ hinv₂.validateVersion rfl
    refine Reaches.bind hsave fun _ v₆ hv₆ => ?_
    subst hv₆
    refine Reaches.pure ⟨hv'.env, hexit₅,
      NativeWalletState.validate_withWallet hvalid₅ hexit₅ hinv₂.validateVersion, hinv₂, ?_, ?_⟩
    · rw [hs₂]
    · rw [hs₂]
      rfl

/-- What the wallet has once the answer of the signer is saved. -/
structure AnswerSaved (w v : CliWorld P (Signer P LIMIT)) (s : WalletState P)
    (attempt : RecoveryAttempt P) (response : SignResponse P) (nextCapability : Capability)
    (secret : Bytes32) (s' : WalletState P) : Prop where
  env : v.env = w.env
  exit : v.saved.exit = none
  inv : WalletInv s'
  coin : s'.coin = s.coin
  pending : s'.pending =
    some (.recovery ⟨.fund nextCapability secret, .responded attempt response⟩)

theorem signExplorerFunding_reaches (hinv : WalletInv s) {nextCapability : Capability}
    {secret : Bytes32} (hpurpose : pending.purpose = .fund nextCapability secret)
    (hpending : s.pending = some (.recovery pending)) (hconnects : config.Connects)
    (hwallet : w.saved.wallet = s) (hexit : w.saved.exit = none)
    (hvalid : w.saved.validate config.network = .ok ()) :
    Reaches (answering (liveSigner draws rest)) c
      (fun result v => AnswerSaved w v s pending.stage.attempt response nextCapability secret
          result.1.wallet ∧ result.1 = v.saved ∧ v.saved.validate config.network = .ok ())
      (signExplorerFunding config w.saved) w := by
  obtain ⟨purpose, stage⟩ := pending
  subst hpurpose hwallet
  cases stage with
  | responded attempt saved =>
    have hsaved := hconfirms.recorded attempt saved rfl
    subst hsaved
    unfold signExplorerFunding
    simp only [hpending]
    exact Reaches.pure ⟨⟨rfl, hexit, hinv, rfl, hpending⟩, rfl, hvalid⟩
  | prepared attempt =>
    obtain ⟨coin, hcoin, metadata, hattempt, _⟩ := hinv.recovery _ hpending
    unfold signExplorerFunding
    simp only [hpending]
    refine Reaches.bind (connectVerified_reaches hconnects) fun _ v₁ hv₁ => ?_
    refine Reaches.of_bind (Except.context_eq_ok.2 hcoin) ?_
    have hlive : v₁.env.status coin.keys.coinId = .ok live := by
      rw [hv₁.env, ← hattempt.coinId]
      exact hconfirms.reported
    refine Reaches.bind (status_reaches hlive) ?_
    rintro status v₂ ⟨hstatus, hv₂⟩
    subst hstatus
    have hv := hv₁.trans hv₂
    refine Reaches.of_bind (Client.lift_eq_ok.2 (hconfirms.status coin hcoin)) ?_
    have hcheck : Reaches (answering (liveSigner draws rest)) c (fun _ v => v = v₂)
        (checkExplorerAttempt config w.saved status attempt) v₂ :=
      Reaches.of_bind hconfirms.committed (Reaches.pure rfl)
    refine Reaches.bind hcheck fun _ v₃ hv₃ => ?_
    subst hv₃
    refine Reaches.of_bind
      (pendingSignRequest_eq_ok.2 ⟨_, signing_eq_some.2 hpending, rfl⟩) ?_
    have hsign : Signer.sign draws attempt.request v₃.env = .ok response v₃.env := by
      rw [hv.env]
      exact hconfirms.repeated draws
    refine Reaches.bind (sign_reaches hsign) ?_
    rintro answer v₄ ⟨hanswer, hv₄⟩
    subst hanswer
    obtain ⟨s₂, hs₂⟩ : ∃ s₂ : WalletState P, s₂ = { w.saved.wallet with
        pending := some (.recovery ⟨.fund nextCapability secret, .responded attempt answer⟩) } :=
      ⟨_, rfl⟩
    have hrecord : WalletState.recordSignResponse answer w.saved.wallet = .ok () s₂ :=
      recordSignResponse_ok.2 ⟨_, _, Or.inl ⟨hpending, hs₂⟩⟩
    have hinv₂ := (hinv.recordSignResponse hrecord).1
    refine Reaches.of_bind (Update.attempt_eq_ok.2 hrecord) ?_
    have hvalid₂ := NativeWalletState.validate_withWallet hvalid hexit hinv₂.validateVersion
    have hsave : Reaches (answering (liveSigner draws rest)) c
        (fun _ v => v = v₄.wrote c (w.saved.withWallet s₂))
        (saveNative config (w.saved.withWallet s₂)) v₄ := saveNative_reaches hvalid₂ rfl
    refine Reaches.bind hsave fun _ v₅ hv₅ => ?_
    subst hv₅
    have henv := (hv.trans hv₄).env
    refine Reaches.pure ⟨⟨henv, hexit, hinv₂, ?_, ?_⟩, rfl, hvalid₂⟩
    · simp only [NativeWalletState.withWallet_wallet, hs₂]
    · simp only [NativeWalletState.withWallet_wallet, hs₂, RecoveryStage.attempt]

theorem signCoreFunding_reaches (hinv : WalletInv s) {nextCapability : Capability}
    {secret : Bytes32} (hpurpose : pending.purpose = .fund nextCapability secret)
    (hpending : s.pending = some (.recovery pending)) (hexit : w.saved.exit = none)
    (hvalid : w.saved.validate config.network = .ok ()) :
    Reaches (answering (liveSigner draws rest)) c
      (fun result v => AnswerSaved w v s pending.stage.attempt response nextCapability secret
          result ∧ v.saved.validate config.network = .ok ())
      (signCoreFunding config s) w := by
  obtain ⟨purpose, stage⟩ := pending
  subst hpurpose
  cases stage with
  | responded attempt saved =>
    have hsaved := hconfirms.recorded attempt saved rfl
    subst hsaved
    unfold signCoreFunding
    simp only [hpending]
    exact Reaches.pure ⟨⟨rfl, hexit, hinv, rfl, hpending⟩, hvalid⟩
  | prepared attempt =>
    obtain ⟨coin, hcoin, metadata, hattempt, _⟩ := hinv.recovery _ hpending
    unfold signCoreFunding
    simp only [hpending]
    refine Reaches.of_bind (Except.context_eq_ok.2 hcoin) ?_
    refine Reaches.of_bind (Except.context_eq_ok.2 hattempt.metadata_eq) ?_
    have hlive : w.env.status coin.keys.coinId = .ok live := by
      rw [← hattempt.coinId]
      exact hconfirms.reported
    refine Reaches.bind (status_reaches hlive) ?_
    rintro status v₁ ⟨hstatus, hv⟩
    subst hstatus
    refine Reaches.of_bind (Client.lift_eq_ok.2 (hconfirms.status coin hcoin)) ?_
    have hcheck : Reaches (answering (liveSigner draws rest)) c (fun _ v => v = v₁)
        (checkCoreAttempt config coin metadata status attempt) v₁ :=
      Reaches.of_bind hconfirms.committed (Reaches.pure rfl)
    refine Reaches.bind hcheck fun _ v₂ hv₂ => ?_
    subst hv₂
    refine Reaches.of_bind
      (pendingSignRequest_eq_ok.2 ⟨_, signing_eq_some.2 hpending, rfl⟩) ?_
    have hsign : Signer.sign draws attempt.request v₂.env = .ok response v₂.env := by
      rw [hv.env]
      exact hconfirms.repeated draws
    refine Reaches.bind (sign_reaches hsign) ?_
    rintro answer v₃ ⟨hanswer, hv₃⟩
    subst hanswer
    obtain ⟨s₂, hs₂⟩ : ∃ s₂ : WalletState P, s₂ = { s with
        pending := some (.recovery ⟨.fund nextCapability secret, .responded attempt answer⟩) } :=
      ⟨_, rfl⟩
    have hrecord : WalletState.recordSignResponse answer s = .ok () s₂ :=
      recordSignResponse_ok.2 ⟨_, _, Or.inl ⟨hpending, hs₂⟩⟩
    have hinv₂ := (hinv.recordSignResponse hrecord).1
    refine Reaches.of_bind (Update.attempt_eq_ok.2 hrecord) ?_
    have hv' := hv.trans hv₃
    rw [← hv'.saved] at hvalid hexit
    have hsave : Reaches (answering (liveSigner draws rest)) c
        (fun _ v => v = v₃.wrote c (v₃.saved.withWallet s₂)) (save config s₂) v₃ :=
      save_reaches hvalid hinv₂.validateVersion rfl
    refine Reaches.bind hsave fun _ v₄ hv₄ => ?_
    subst hv₄
    refine Reaches.pure ⟨⟨hv'.env, hexit, hinv₂, ?_, ?_⟩,
      NativeWalletState.validate_withWallet hvalid hexit hinv₂.validateVersion⟩
    · rw [hs₂]
    · rw [hs₂]
      rfl

variable (hschnorr : P.SchnorrCorrect) (hcodec : P.SignatureCodec) (htaproot : P.TaprootLaws)
include hschnorr hcodec htaproot

/-- A transfer whose answer is saved is handed on. -/
theorem completePendingTransfer_reaches (htotal : P.CipherTotal) {s' : WalletState P}
    (hcoin : s'.coin = s.coin) (hinv : WalletInv s') {request : TransferRequest}
    (hpending : s'.pending =
      some (.recovery ⟨.transfer request, .responded pending.stage.attempt response⟩))
    (hconnects : config.Connects) (hanswers : ChainAnswers rest)
    (hvalid : w.saved.validate config.network = .ok ()) (envelopeDraws : EnvelopeDraws P)
    (connected : Bool) :
    Reaches (answering (liveSigner draws rest)) c
      (fun report v => (∃ envelope, report = .transferSent false request envelope) ∧
        v.saved.wallet.Transferred ∧ v.env = w.env)
      (completePendingTransfer config envelopeDraws s' connected request) w := by
  obtain ⟨coin, hcoin', _, hattempt, _⟩ := hinv.recovery _ hpending
  have hstatus := hconfirms.status coin (hcoin ▸ hcoin')
  obtain ⟨envelope, s₃, hcomplete⟩ := hinv.completeTransfer_of_answer hschnorr hcodec htaproot
    htotal hpending hcoin' hstatus hconfirms.confirmed envelopeDraws
  have hinv₃ := (hinv.completeTransfer hcomplete).1
  refine Reaches.bind (connectIf_reaches hconnects (!connected)) fun _ v₁ hv₁ => ?_
  refine Reaches.of_bind (a := coin) (Except.context_eq_ok.2 hcoin') ?_
  have hlive : v₁.env.status coin.keys.coinId = .ok live := by
    rw [hv₁.env, ← hattempt.coinId]
    exact hconfirms.reported
  refine Reaches.bind (status_reaches hlive) ?_
  rintro status v₂ ⟨hlive₂, hv₂⟩
  subst hlive₂
  have hv := hv₁.trans hv₂
  refine Reaches.of_bind (Update.attempt_eq_ok.2 hcomplete) ?_
  have hvalid₂ : v₂.saved.validate config.network = .ok () := by
    rw [hv.saved]
    exact hvalid
  have hsave : Reaches (answering (liveSigner draws rest)) c
      (fun _ v => v = v₂.wrote c (v₂.saved.withWallet s₃)) (save config s₃) v₂ :=
    save_reaches hvalid₂ hinv₃.validateVersion rfl
  refine Reaches.bind hsave fun _ v₃ hv₃ => ?_
  have hanswer : (liveSigner draws rest v₃.env (.writeEnvelope envelope)).1 = .ok () :=
    hanswers.writeEnvelope envelope
  have hwrite : Reaches (answering (liveSigner draws rest)) c (fun _ v => Unmoved v₃ v)
      (call (.writeEnvelope envelope)) v₃ := call_reaches hanswer ⟨rfl, rfl⟩
  refine Reaches.bind hwrite fun _ v₄ hv₄ => ?_
  subst hv₃
  refine Reaches.pure ⟨⟨envelope, rfl⟩, ?_, hv₄.env.trans hv.env⟩
  rw [hv₄.saved]
  exact completeTransfer_transferred hcomplete

/-- A funding whose answer is saved is secured. -/
theorem completeFundingRecovery_secures {s' : WalletState P} (hcoin : s'.coin = s.coin)
    (hinv : WalletInv s') {nextCapability : Capability} {secret : Bytes32}
    (hpending : s'.pending = some (.recovery ⟨.fund nextCapability secret,
      .responded pending.stage.attempt response⟩)) :
    ∃ coin s₃, s'.coin = some coin ∧ coin.keys.coinId = pending.stage.attempt.request.coinId ∧
      WalletState.completeFundingRecovery live s' = .ok () s₃ ∧ WalletInv s₃ ∧ s₃.Secured ∧
      s₃.pending = none := by
  obtain ⟨coin, hcoin', _, hattempt, _⟩ := hinv.recovery _ hpending
  have hstatus := hconfirms.status coin (hcoin ▸ hcoin')
  obtain ⟨funding, recovery, _, hsecure⟩ := hinv.completeFunding_of_answer hschnorr hcodec htaproot
    hpending hcoin' hstatus hconfirms.confirmed
  refine ⟨coin, _, hcoin', hattempt.coinId.symm, hsecure,
    (hinv.completeFundingRecovery hsecure).1, ⟨_, rfl, ?_⟩, rfl⟩
  simp [securedCoin]

end Commands

/-! ## Whole commands -/

section Resume

variable {σ : Signer P LIMIT} {s : WalletState P} {pending : PendingRecovery P}
  {response : SignResponse P} {live : CoinStatus P}
  (hconfirms : Confirms σ s pending response live) (hschnorr : P.SchnorrCorrect)
  (hcodec : P.SignatureCodec) (htaproot : P.TaprootLaws) (hinv : WalletInv s)
  (hpending : s.pending = some (.recovery pending))
include hconfirms hschnorr hcodec htaproot hinv hpending

theorem Confirms.transferResumes (htotal : P.CipherTotal) : TransferResumes σ s := by
  intro config native draws rest envelopeDraws request hconnects hanswers hwallet hexit hvalid
    hrequest hsends
  subst hwallet
  obtain ⟨coin, hcoin, metadata, hattempt, _⟩ := hinv.recovery _ hpending
  have hout : coin.outgoing = none := hattempt.outgoing (hinv.coin coin hcoin)
  have hnone : native.wallet.coin.bind WalletCoin.outgoing = none := by
    rw [hcoin, Option.bind_some, hout]
  rcases hsends with hsends | ⟨outgoing, hsome, _⟩
  · have hpurpose : pending.purpose = .transfer request := by
      obtain ⟨stage, hsends⟩ := pendingTransferRequest_eq_ok.1 hsends
      cases hpending.symm.trans hsends
      rfl
    have hnetwork : config.network ≠ .mainnet := hconnects.supported.1
    have hload : Reaches (answering (liveSigner draws rest)) (Command.sign envelopeDraws request)
        (fun loaded v => loaded = native ∧ v = ⟨native, σ, []⟩) (loadNative config)
        ⟨native, σ, []⟩ := loadNative_reaches hvalid ⟨rfl, rfl⟩
    refine Reaches.of_bind hrequest ?_
    refine Reaches.of_bind (a := ()) (Except.ensure_eq_ok.2 hnetwork) ?_
    refine Reaches.bind hload ?_
    rintro loaded v ⟨hloaded, hv⟩
    subst hloaded hv
    rw [hnone]
    refine Reaches.of_bind (a := ()) (Except.ensure_eq_ok.2 (by rw [hexit]; rfl)) ?_
    have hprepare : Reaches (answering (liveSigner draws rest))
        (Command.sign envelopeDraws request)
        (fun result v => result = (loaded.wallet, false) ∧ v = ⟨loaded, σ, []⟩)
        (prepareTransfer config loaded.wallet request) ⟨loaded, σ, []⟩ := by
      unfold prepareTransfer
      simp only [hpending]
      refine Reaches.of_bind (a := ()) ?_ (Reaches.pure ⟨rfl, rfl⟩)
      simp only [hsends, Except.bind_eq_ok, Except.ensure_eq_ok]
      exact ⟨_, rfl, rfl⟩
    refine Reaches.bind hprepare ?_
    rintro result v ⟨hresult, hv⟩
    subst hresult hv
    refine Reaches.bind (signPendingTransfer_reaches hconfirms hinv hpurpose hpending hconnects
      hanswers hexit hvalid) ?_
    rintro result v ⟨henv, hexit', hvalid', hinv', hcoin', hpending'⟩
    obtain ⟨s', connected⟩ := result
    have hconfirms' : Confirms v.env loaded.wallet pending response live := by
      rw [henv]
      exact hconfirms
    refine (completePendingTransfer_reaches hconfirms' hschnorr hcodec htaproot htotal hcoin' hinv'
      hpending' hconnects hanswers hvalid' envelopeDraws connected).mono ?_
    rintro report u ⟨⟨envelope, hreport⟩, htransferred, henv'⟩
    exact ⟨⟨false, envelope, hreport⟩, htransferred, henv'.trans henv⟩
  · rw [hnone] at hsome
    cases hsome

theorem Confirms.fundingResumes : FundingResumes σ s := by
  intro config native draws rest c nextCapability secret stage hconnects hwallet hexit hvalid
    hsigning
  subst hwallet
  obtain rfl := Option.some.inj ((signing_eq_some.2 hpending).symm.trans hsigning)
  unfold resumeFunding
  split
  · refine Reaches.bind (signExplorerFunding_reaches hconfirms hinv rfl hpending hconnects rfl hexit
      hvalid) ?_
    rintro result v ⟨hsaved, hresult, hvalid'⟩
    obtain ⟨native', connected⟩ := result
    dsimp only at hsaved hresult ⊢
    subst hresult
    have hconfirms' : Confirms v.env native.wallet ⟨.fund nextCapability secret, stage⟩ response
        live := by
      rw [hsaved.env]
      exact hconfirms
    obtain ⟨coin, s₃, hcoin, hid, hsecure, hinv₃, hsecured, hidle⟩ :=
      completeFundingRecovery_secures hconfirms' hschnorr hcodec htaproot hsaved.coin hsaved.inv
        hsaved.pending
    have hfinish : Reaches (answering (liveSigner draws rest)) c
        (fun native' u => native' = u.saved ∧ u.saved.wallet = s₃ ∧ u.env = σ)
        (secureExplorerFunding config v.saved connected) v := by
      unfold secureExplorerFunding
      simp only [hsaved.pending]
      refine Reaches.bind (connectIf_reaches hconnects (!connected)) fun _ v₁ hv₁ => ?_
      refine Reaches.of_bind (Except.context_eq_ok.2 hcoin) ?_
      have hlive : v₁.env.status coin.keys.coinId = .ok live := by
        rw [hv₁.env, hsaved.env, hid]
        exact hconfirms.reported
      refine Reaches.bind (status_reaches hlive) ?_
      rintro status v₂ ⟨hstatus, hv₂⟩
      subst hstatus
      refine Reaches.of_bind (Update.attempt_eq_ok.2 hsecure) ?_
      have hvalid₃ := NativeWalletState.validate_withWallet hvalid' hsaved.exit
        hinv₃.validateVersion
      have hsave : Reaches (answering (liveSigner draws rest)) c
          (fun _ u => u = v₂.wrote c (v.saved.withWallet s₃))
          (saveNative config (v.saved.withWallet s₃)) v₂ := saveNative_reaches hvalid₃ rfl
      refine Reaches.bind hsave fun _ v₃ hv₃ => ?_
      subst hv₃
      exact Reaches.pure ⟨rfl, rfl, (hv₁.trans hv₂).env.trans hsaved.env⟩
    refine Reaches.bind hfinish ?_
    rintro native' u ⟨hnative, hwallet, henv⟩
    refine Reaches.pure ⟨by rw [hnative], ?_, ?_, henv⟩
    · rw [hnative, hwallet]
      exact hsecured
    · rw [hnative, hwallet]
      exact hidle
  · refine Reaches.bind (connectIf_reaches hconnects true) fun _ v hv => ?_
    unfold resumeCoreFunding
    rw [if_pos (by rw [hpending]; rfl)]
    refine Reaches.of_bind (a := ()) (Except.ensure_eq_ok.2 rfl) ?_
    have hconfirms' : Confirms v.env native.wallet ⟨.fund nextCapability secret, stage⟩ response
        live := by
      rw [hv.env]
      exact hconfirms
    have hsaved : v.saved = native := hv.saved
    rw [← hsaved] at hexit hvalid
    refine Reaches.bind (signCoreFunding_reaches hconfirms' hinv rfl hpending hexit hvalid) ?_
    rintro s' v₁ ⟨hsaved, hvalid'⟩
    obtain ⟨coin, s₃, hcoin, hid, hsecure, hinv₃, hsecured, hidle⟩ :=
      completeFundingRecovery_secures hconfirms' hschnorr hcodec htaproot hsaved.coin hsaved.inv
        hsaved.pending
    refine Reaches.of_bind (Except.context_eq_ok.2 hcoin) ?_
    have henv : v₁.env = σ := hsaved.env.trans hv.env
    have hlive : v₁.env.status coin.keys.coinId = .ok live := by
      rw [henv, hid]
      exact hconfirms.reported
    refine Reaches.bind (status_reaches hlive) ?_
    rintro status v₂ ⟨hstatus, hv₂⟩
    subst hstatus
    refine Reaches.of_bind (Update.attempt_eq_ok.2 hsecure) ?_
    rw [← hv₂.saved] at hvalid'
    have hsave : Reaches (answering (liveSigner draws rest)) c
        (fun _ u => u = v₂.wrote c (v₂.saved.withWallet s₃)) (save config s₃) v₂ :=
      save_reaches hvalid' hinv₃.validateVersion rfl
    refine Reaches.bind hsave fun _ v₃ hv₃ => ?_
    subst hv₃
    exact Reaches.pure ⟨rfl, hsecured, hidle, hv₂.env.trans henv⟩

end Resume

/-- A transfer that was completed is shown again. -/
theorem transferResumes_of_transferred {σ : Signer P LIMIT} {s : WalletState P}
    (hinv : WalletInv s) (htransferred : s.Transferred) : TransferResumes σ s := by
  intro config native draws rest envelopeDraws request hconnects hanswers hwallet hexit hvalid
    hrequest hsends
  subst hwallet
  rcases hsends with hsends | ⟨outgoing, hsome, hsame⟩
  · obtain ⟨coin, hcoin, hout⟩ := htransferred
    obtain ⟨_, hsends⟩ := pendingTransferRequest_eq_ok.1 hsends
    rw [hinv.transferred_idle hcoin hout] at hsends
    cases hsends
  · have hload : Reaches (answering (liveSigner draws rest)) (Command.sign envelopeDraws request)
        (fun loaded v => loaded = native ∧ v = ⟨native, σ, []⟩) (loadNative config)
        ⟨native, σ, []⟩ := loadNative_reaches hvalid ⟨rfl, rfl⟩
    refine Reaches.of_bind hrequest ?_
    refine Reaches.of_bind (a := ()) (Except.ensure_eq_ok.2 hconnects.supported.1) ?_
    refine Reaches.bind hload ?_
    rintro loaded v ⟨hloaded, hv⟩
    subst hloaded hv
    rw [hsome]
    refine Reaches.of_bind (a := ()) (Except.ensure_eq_ok.2 hsame) ?_
    have hanswer : (liveSigner draws rest σ (.writeEnvelope outgoing.envelope)).1 = .ok () :=
      hanswers.writeEnvelope outgoing.envelope
    have hwrite : Reaches (answering (liveSigner draws rest)) (Command.sign envelopeDraws request)
        (fun _ v => Unmoved ⟨loaded, σ, []⟩ v) (call (.writeEnvelope outgoing.envelope))
        ⟨loaded, σ, []⟩ := call_reaches hanswer ⟨rfl, rfl⟩
    refine Reaches.bind hwrite fun _ v hv => ?_
    refine Reaches.pure ⟨⟨true, outgoing.envelope, rfl⟩, ?_, hv.env⟩
    rw [hv.saved]
    exact htransferred

end Tinylayer
