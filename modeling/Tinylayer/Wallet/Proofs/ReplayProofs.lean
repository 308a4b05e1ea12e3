import Tinylayer.Wallet.Proofs.AadProofs
import Tinylayer.Wallet.Proofs.TransferProofs

/-!
# Proofs: failed and repeated operations

An operation that fails leaves the wallet as it was, and the operations that a caller repeats after
an interruption answer as they did the first time. A wallet that accepted a transfer recognises it by
its request and the fingerprint of its envelope, whatever else the wallet did since.
-/

namespace Tinylayer

variable {P : Platform}

/-! ## Repeated operations -/

/-- No operation on `s` that fails changes it. -/
structure AllOrNothing (s : WalletState P) : Prop where
  beginRegistration : ∀ draws, (WalletState.beginRegistration draws).Atomic s
  completeRegistration : ∀ status, (WalletState.completeRegistration status).Atomic s
  beginFunding : ∀ draws network sourceSecret source status amountSat delayBlocks feeRateSatVb
    maxFeeSat minimumReactionBlocks, (WalletState.beginFunding draws network sourceSecret source
      status amountSat delayBlocks feeRateSatVb maxFeeSat minimumReactionBlocks).Atomic s
  recordSignResponse : ∀ response, (WalletState.recordSignResponse response).Atomic s
  completeFundingRecovery : ∀ status, (WalletState.completeFundingRecovery status).Atomic s
  markFundingBroadcast : ∀ txid, (WalletState.markFundingBroadcast txid).Atomic s
  beginTransferRequest : ∀ draws network coinId outpoint expectedAmountSat minimumReactionBlocks,
    (WalletState.beginTransferRequest draws network coinId outpoint expectedAmountSat
      minimumReactionBlocks).Atomic s
  beginTransfer : ∀ network request status observed minimumConfirmations minimumReactionBlocks,
    (WalletState.beginTransfer network request status observed minimumConfirmations
      minimumReactionBlocks).Atomic s
  completeTransfer : ∀ draws status, (WalletState.completeTransfer draws status).Atomic s
  acceptTransfer : ∀ reader network request envelope status observed minimumConfirmations
    minimumReactionBlocks, (WalletState.acceptTransfer reader network request envelope status
      observed minimumConfirmations minimumReactionBlocks).Atomic s

/-- What succeeds on `s` succeeds again right after, with the same request and no further change.
What is drawn at random may differ. -/
structure Repeatable (s : WalletState P) : Prop where
  beginRegistration : ∀ draws draws' request s',
    WalletState.beginRegistration draws s = .ok request s' →
    WalletState.beginRegistration draws' s' = .ok request s'
  beginTransferRequest : ∀ draws draws' network coinId outpoint expectedAmountSat
    minimumReactionBlocks request s',
    WalletState.beginTransferRequest draws network coinId outpoint expectedAmountSat
      minimumReactionBlocks s = .ok request s' →
    WalletState.beginTransferRequest draws' network coinId outpoint expectedAmountSat
      minimumReactionBlocks s' = .ok request s'
  recordSignResponse : ∀ response s', WalletState.recordSignResponse response s = .ok () s' →
    WalletState.recordSignResponse response s' = .ok () s'
  acceptTransfer : ∀ reader network request envelope status observed minimumConfirmations
    minimumReactionBlocks accepted s',
    WalletState.acceptTransfer reader network request envelope status observed
      minimumConfirmations minimumReactionBlocks s = .ok accepted s' →
    WalletState.acceptTransfer reader network request envelope status observed
      minimumConfirmations minimumReactionBlocks s' = .ok false s'

namespace WalletState

theorem beginRegistration_repeat {draws draws' : RegistrationDraws P} {s s' : WalletState P}
    {request : RegisterRequest P} (h : beginRegistration draws s = .ok request s') :
    beginRegistration draws' s' = .ok request s' := by
  obtain ⟨hversion, hcoin, hincoming, h⟩ := beginRegistration_eq_ok.1 h
  rcases h with ⟨secret, capability, registration, hpending, rfl, hrequest⟩ | ⟨_, rfl, rfl⟩
  · exact beginRegistration_eq_ok.2 ⟨hversion, hcoin, hincoming,
      Or.inl ⟨secret, capability, registration, hpending, rfl, hrequest⟩⟩
  · exact beginRegistration_eq_ok.2 ⟨hversion, hcoin, hincoming,
      Or.inl ⟨_, _, _, rfl, rfl, rfl⟩⟩

/-- A request that was just created asks for what it was created for. -/
theorem asksFor_new (htext : P.TextCodec) (draws : RequestDraws P) (network : NetworkId)
    (coinId : CoinId) (outpoint : OutPoint P.Txid)
    (expectedAmountSat minimumReactionBlocks : Nat) :
    AsksFor (incomingTransfer draws network coinId outpoint expectedAmountSat
      minimumReactionBlocks).request network coinId outpoint expectedAmountSat
      minimumReactionBlocks := by
  have hparsed := TransferRequest.parsed_new htext draws.requestId coinId network outpoint
    expectedAmountSat (secretXonly draws.withdrawal) (capabilityHash draws.capability)
    (P.publicKeyOf draws.transport) minimumReactionBlocks
  exact ⟨hparsed.coinId, hparsed.outpoint, rfl, rfl, rfl⟩

theorem beginTransferRequest_repeat (htext : P.TextCodec) {draws draws' : RequestDraws P}
    {network : NetworkId} {coinId : CoinId} {outpoint : OutPoint P.Txid}
    {expectedAmountSat minimumReactionBlocks : Nat} {s s' : WalletState P}
    {request : TransferRequest}
    (h : beginTransferRequest draws network coinId outpoint expectedAmountSat
      minimumReactionBlocks s = .ok request s') :
    beginTransferRequest draws' network coinId outpoint expectedAmountSat minimumReactionBlocks
      s' = .ok request s' := by
  obtain ⟨hversion, hcoin, hpending, hnull, hmin, h⟩ := beginTransferRequest_eq_ok.1 h
  rcases h with ⟨incoming, hincoming, hrequest, rfl, hasks⟩ | ⟨_, _, hrequest, rfl⟩
  · exact beginTransferRequest_eq_ok.2 ⟨hversion, hcoin, hpending, hnull, hmin,
      Or.inl ⟨incoming, hincoming, hrequest, rfl, hasks⟩⟩
  · have hasks := asksFor_new htext draws network coinId outpoint expectedAmountSat
      minimumReactionBlocks
    rw [← hrequest] at hasks
    exact beginTransferRequest_eq_ok.2 ⟨hversion, hcoin, hpending, hnull, hmin,
      Or.inl ⟨_, rfl, hrequest.symm, rfl, hasks⟩⟩

theorem recordSignResponse_repeat {response : SignResponse P} {s s' : WalletState P}
    (h : recordSignResponse response s = .ok () s') :
    recordSignResponse response s' = .ok () s' := by
  obtain ⟨purpose, attempt, ⟨_, rfl⟩ | ⟨hpending, rfl⟩⟩ := recordSignResponse_ok.1 h
  · exact recordSignResponse_ok.2 ⟨purpose, attempt, Or.inr ⟨rfl, rfl⟩⟩
  · exact recordSignResponse_ok.2 ⟨purpose, attempt, Or.inr ⟨hpending, rfl⟩⟩

/-! ## Accepted transfers -/

/-- The wallet holds a coin that it accepted with this request and this envelope. -/
structure Accepted (s : WalletState P) (request : TransferRequest) (envelope : TransferEnvelope) :
    Prop where
  version : s.formatVersion = fileFormatVersion
  coin : ∃ coin, s.coin = some coin ∧ coin.acceptedRequest = some request ∧
    coin.acceptedEnvelopeFingerprint = some envelope.fingerprint

theorem Accepted.validateVersion {s : WalletState P} {request : TransferRequest}
    {envelope : TransferEnvelope} (h : s.Accepted request envelope) :
    s.validateVersion = .ok () := by
  obtain ⟨coin, hcoin, hrequest, hfingerprint⟩ := h.coin
  refine validateVersion_eq_ok.2 ⟨h.version, fun coin' hcoin' => ?_⟩
  obtain rfl := Option.some.inj (hcoin.symm.trans hcoin')
  rw [hrequest, hfingerprint]
  rfl

section AcceptTransfer

variable {reader : PayloadReader P} {network : NetworkId} {request : TransferRequest}
  {envelope : TransferEnvelope} {status : CoinStatus P} {observed : ObservedFunding P}
  {minimumConfirmations minimumReactionBlocks : Nat} {s s' : WalletState P}

theorem accepted_of_acceptTransfer {accepted : Bool}
    (h : acceptTransfer reader network request envelope status observed minimumConfirmations
      minimumReactionBlocks s = .ok accepted s') :
    s'.Accepted request envelope ∧ request.validate P = .ok () := by
  obtain ⟨hversion, hvalid, ⟨coin, hcoin, hrequest, hfingerprint, _, rfl⟩ |
    ⟨_, coin, haccept, _, rfl⟩⟩ := acceptTransfer_ok.1 h
  · exact ⟨⟨(validateVersion_eq_ok.1 hversion).1, coin, hcoin, hrequest, hfingerprint⟩, hvalid⟩
  · obtain ⟨_, _, _, _, _, _, _, rfl⟩ := acceptCoin_eq_ok.1 haccept
    exact ⟨⟨(validateVersion_eq_ok.1 hversion).1, _, rfl, rfl, rfl⟩, hvalid⟩

/-- In a wallet with an accepted coin `accept_transfer` only compares. -/
theorem Accepted.acceptTransfer_again {request' : TransferRequest} {envelope' : TransferEnvelope}
    (h : s.Accepted request envelope) {accepted : Bool} :
    acceptTransfer reader network request' envelope' status observed minimumConfirmations
        minimumReactionBlocks s = .ok accepted s' ↔
      request'.validate P = .ok () ∧ request' = request ∧
        envelope'.fingerprint (P := P) = envelope.fingerprint ∧ accepted = false ∧ s' = s := by
  obtain ⟨coin, hcoin, hrequest, hfingerprint⟩ := h.coin
  rw [acceptTransfer_ok]
  constructor
  · rintro ⟨_, hvalid, ⟨coin', hcoin', hrequest', hfingerprint', haccepted, hs⟩ | ⟨hnone, _⟩⟩
    · obtain rfl := Option.some.inj (hcoin.symm.trans hcoin')
      exact ⟨hvalid, Option.some.inj (hrequest'.symm.trans hrequest),
        Option.some.inj (hfingerprint'.symm.trans hfingerprint), haccepted, hs⟩
    · rw [hcoin] at hnone
      cases hnone
  · rintro ⟨hvalid, rfl, hsame, haccepted, hs⟩
    refine ⟨h.validateVersion, hvalid, Or.inl ⟨coin, hcoin, hrequest, ?_, haccepted, hs⟩⟩
    rw [hsame, hfingerprint]

theorem acceptTransfer_repeat {accepted : Bool}
    (h : acceptTransfer reader network request envelope status observed minimumConfirmations
      minimumReactionBlocks s = .ok accepted s') :
    acceptTransfer reader network request envelope status observed minimumConfirmations
      minimumReactionBlocks s' = .ok false s' := by
  obtain ⟨haccepted, hvalid⟩ := accepted_of_acceptTransfer h
  exact haccepted.acceptTransfer_again.2 ⟨hvalid, rfl, rfl, rfl, rfl⟩

end AcceptTransfer

/-- Wallet operations are all-or-nothing and can be repeated, on any state and with any
arguments. -/
theorem operations_replay_safe (htext : P.TextCodec) (s : WalletState P) :
    AllOrNothing s ∧ Repeatable s := by
  refine ⟨?_, ?_⟩
  · exact {
      beginRegistration := fun draws => beginRegistration_atomic draws s
      completeRegistration := fun status => completeRegistration_atomic status s
      beginFunding := fun _ _ _ _ _ _ _ _ _ _ => by apply beginFunding_atomic
      recordSignResponse := fun response => recordSignResponse_atomic response s
      completeFundingRecovery := fun status => completeFundingRecovery_atomic status s
      markFundingBroadcast := fun txid => markFundingBroadcast_atomic txid s
      beginTransferRequest := fun _ _ _ _ _ _ => by apply beginTransferRequest_atomic
      beginTransfer := fun _ _ _ _ _ _ => by apply beginTransfer_atomic
      completeTransfer := fun draws status => completeTransfer_atomic draws status s
      acceptTransfer := fun _ _ _ _ _ _ _ _ => by apply acceptTransfer_atomic }
  · exact {
      beginRegistration := fun _ _ _ _ h => beginRegistration_repeat h
      beginTransferRequest := fun _ _ _ _ _ _ _ _ _ h => beginTransferRequest_repeat htext h
      recordSignResponse := fun _ _ h => recordSignResponse_repeat h
      acceptTransfer := fun _ _ _ _ _ _ _ _ _ _ h => acceptTransfer_repeat h }

section Demo

open Symbolic

/-- A sender has journaled its request: it records the answer, also a second time, and another answer
is refused, with the journal put back. -/
theorem operations_replay_safe_recorded : ∃ s₁ s₂ : WalletState platform,
    recordSignResponse transferResponse s₁ = .ok () s₂ ∧ s₁ ≠ s₂ ∧
    recordSignResponse transferResponse s₂ = .ok () s₂ ∧
    (∃ e, recordSignResponse fundingResponse s₂ = .error e s₂) ∧
    AllOrNothing s₂ ∧ Repeatable s₂ := by
  obtain ⟨_, s₁, s₂, _, _, hbegun, hrecord, -⟩ := completeTransfer_broadcasting
  have hagain := (operations_replay_safe textCodec s₁).2.recordSignResponse _ _ hrecord
  obtain ⟨hatomic, hrepeat⟩ := operations_replay_safe textCodec s₂
  obtain ⟨_, _, ⟨hprepared, hs₂⟩ | ⟨hresponded, _⟩⟩ := recordSignResponse_ok.1 hrecord
  · have hresponded := congrArg WalletState.pending hs₂
    refine ⟨s₁, s₂, hrecord, ?_, hagain, ?_, hatomic, hrepeat⟩
    · rintro rfl
      cases hprepared.symm.trans hresponded
    · cases hother : recordSignResponse fundingResponse s₂ with
      | error e s' => exact ⟨e, by rw [hatomic.recordSignResponse _ _ _ hother]⟩
      | ok u s' =>
        exfalso
        obtain ⟨_, _, ⟨hp, _⟩ | ⟨hp, _⟩⟩ := recordSignResponse_ok.1 hother
        · cases hp.symm.trans hresponded
        · injection hp.symm.trans hresponded with hsame
          injection hsame with hsame
          injection hsame with _ hstage
          injection hstage with _ hresponse
          exact absurd (congrArg SignResponse.nextHandoff hresponse) (by decide)
  · cases hbegun.pending.symm.trans hresponded

end Demo

/-! ## After the transfer -/

theorem Accepted.of_update {s : WalletState P} {request : TransferRequest}
    {envelope : TransferEnvelope} (h : s.Accepted request envelope) {α : Type}
    {x : Update String (WalletState P) α} (hatomic : x.Atomic s)
    (hok : ∀ a s', x s = .ok a s' → s'.Accepted request envelope) :
    (x.stateAfter s).Accepted request envelope :=
  hatomic.stateAfter (p := fun s => s.Accepted request envelope) h hok

/-- No operation replaces an accepted coin or what it was accepted with. -/
theorem Accepted.after {s : WalletState P} {request : TransferRequest}
    {envelope : TransferEnvelope} (h : s.Accepted request envelope) (op : Operation P) :
    (s.after op).Accepted request envelope := by
  have hcoin : s.coin ≠ none := by
    obtain ⟨coin, hcoin, _⟩ := h.coin
    rw [hcoin]
    exact Option.some_ne_none coin
  -- an update of the coin that keeps its binding
  have hupdate : ∀ {coin coin' : WalletCoin P} {s' : WalletState P}, s.coin = some coin →
      s'.coin = some coin' → coin'.acceptedRequest = coin.acceptedRequest →
      coin'.acceptedEnvelopeFingerprint = coin.acceptedEnvelopeFingerprint →
      s'.formatVersion = s.formatVersion → s'.Accepted request envelope := by
    intro coin coin' s' hs hs' hrequest hfingerprint hversion
    obtain ⟨coin₀, hcoin₀, hrequest₀, hfingerprint₀⟩ := h.coin
    obtain rfl := Option.some.inj (hs.symm.trans hcoin₀)
    exact ⟨hversion.trans h.version, coin', hs', hrequest.trans hrequest₀,
      hfingerprint.trans hfingerprint₀⟩
  cases op with
  | beginRegistration draws =>
    refine h.of_update (beginRegistration_atomic draws s) fun _ s' hok => ?_
    exact absurd (beginRegistration_ok hok).1 hcoin
  | completeRegistration status =>
    refine h.of_update (completeRegistration_atomic status s) fun _ s' hok => ?_
    exact absurd (completeRegistration_ok hok).1 hcoin
  | beginFunding =>
    refine h.of_update (by apply beginFunding_atomic) fun _ s' hok => ?_
    obtain ⟨_, coin, _, _, _, hs, _, _, _, _, _, rfl⟩ := beginFunding_ok hok
    exact hupdate hs rfl rfl rfl rfl
  | recordSignResponse response =>
    refine h.of_update (recordSignResponse_atomic response s) fun _ s' hok => ?_
    obtain ⟨_, _, ⟨_, rfl⟩ | ⟨_, rfl⟩⟩ := recordSignResponse_ok.1 hok
    · exact ⟨h.version, h.coin⟩
    · exact h
  | completeFundingRecovery status =>
    refine h.of_update (completeFundingRecovery_atomic status s) fun _ s' hok => ?_
    obtain ⟨_, _, _, _, coin, _, _, _, _, hs, _, _, _, _, _, _, rfl⟩ :=
      completeFundingRecovery_ok.1 hok
    exact hupdate hs rfl rfl rfl rfl
  | markFundingBroadcast txid =>
    refine h.of_update (markFundingBroadcast_atomic txid s) fun _ s' hok => ?_
    obtain ⟨_, _, _, rfl⟩ := markFundingBroadcast_ok.1 hok
    obtain ⟨coin, hs, _⟩ := h.coin
    have hs' : s.coin.map broadcastCoin = some (broadcastCoin coin) := by
      rw [hs, Option.map_some]
    exact hupdate hs hs' rfl rfl rfl
  | beginTransferRequest =>
    refine h.of_update (by apply beginTransferRequest_atomic) fun _ s' hok => ?_
    exact absurd (beginTransferRequest_ok hok).1 hcoin
  | beginTransfer =>
    refine h.of_update (by apply beginTransfer_atomic) fun _ s' hok => ?_
    obtain ⟨_, _, _, _, _, _, _, _, _, _, _, _, _, _, _, _, _, _, _, _, rfl⟩ :=
      beginTransfer_ok.1 hok
    exact ⟨h.version, h.coin⟩
  | completeTransfer draws status =>
    refine h.of_update (completeTransfer_atomic draws status s) fun _ s' hok => ?_
    obtain ⟨_, _, _, coin, _, _, _, _, _, _, hs, _, _, _, _, _, _, _, _, _, _, _, rfl⟩ :=
      completeTransfer_ok.1 hok
    exact hupdate hs rfl rfl rfl rfl
  | acceptTransfer =>
    refine h.of_update (by apply acceptTransfer_atomic) fun _ s' hok => ?_
    obtain ⟨_, _, ⟨_, _, _, _, _, rfl⟩ | ⟨hnone, _⟩⟩ := acceptTransfer_ok.1 hok
    · exact h
    · exact absurd hnone hcoin

theorem Accepted.run {s : WalletState P} {request : TransferRequest}
    {envelope : TransferEnvelope} (h : s.Accepted request envelope) (ops : List (Operation P)) :
    (s.run ops).Accepted request envelope := by
  induction ops using List.reverseRecOn with
  | nil => exact h
  | append_singleton ops op ih =>
    rw [run_concat]
    exact ih.after op

end WalletState

/-! ## Fingerprints -/

/-- The numbers of an envelope fit in their integer types: its version in a `u32`, the lengths of
its texts in a `usize`. -/
structure TransferEnvelope.InRange (envelope : TransferEnvelope) : Prop where
  formatVersion : envelope.formatVersion ≤ u32Max
  requestId : envelope.requestId.utf8ByteSize ≤ u64Max
  ephemeralPublicKey : envelope.ephemeralPublicKey.utf8ByteSize ≤ u64Max
  nonce : envelope.nonce.utf8ByteSize ≤ u64Max
  ciphertext : envelope.ciphertext.utf8ByteSize ≤ u64Max

/-- The texts of a sealed envelope are short. -/
theorem inRange_of_encryptTransfer (haead : P.AeadCorrect) {draws : EnvelopeDraws P}
    {request : TransferRequest} {payload : TransferPayload P} {envelope : TransferEnvelope}
    (hkey : (P.publicKeyToString (P.publicKeyOf draws.ephemeral)).utf8ByteSize ≤ u64Max)
    (h : encryptTransfer draws request payload = .ok envelope) : envelope.InRange := by
  simp only [encryptTransfer, Except.bind_eq_ok, exists_unit, Except.ensure_eq_ok,
    Except.context_eq_ok, Except.pure_eq_ok, validateTransferPlaintextSize] at h
  obtain ⟨hrequest, _, _, _, _, _, _, _, _, hsize, _, _, ciphertext, hsealed, rfl⟩ := h
  obtain ⟨_, _, id, _, _, _, ⟨hid, _⟩, _⟩ := TransferRequest.validate_eq_ok.1 hrequest
  have hlength := haead.length_encrypt _ _ _ _ _ hsealed
  have hformat : fileFormatVersion ≤ u32Max := by decide
  refine ⟨hformat, ?_, hkey, ?_, ?_⟩
  · rw [hid, Hex.utf8ByteSize_encode, id.toList_length]
    decide
  · rw [Hex.utf8ByteSize_encode, draws.nonce.toList_length]
    decide
  · rw [Hex.utf8ByteSize_encode, hlength]
    simp only [maxTransferCiphertextSize] at hsize
    simp only [u64Max]
    omega

/-- A text with its length in front, as the fingerprint writes it. -/
def framedText (value : String) : List UInt8 := beBytes 8 value.utf8ByteSize ++ Json.utf8 value

theorem framedText_append_inj {a b : String} {x y : List UInt8} (ha : a.utf8ByteSize ≤ u64Max)
    (hb : b.utf8ByteSize ≤ u64Max) (h : framedText a ++ x = framedText b ++ y) :
    a = b ∧ x = y := by
  have hu64 : u64Max < 256 ^ 8 := by decide
  have hlength : ∀ s : String, (Json.utf8 s).length = s.utf8ByteSize := by
    intro s
    rw [← String.size_toByteArray, Json.utf8, Array.length_toList]
    rfl
  simp only [framedText, List.append_assoc] at h
  obtain ⟨hsize, hrest⟩ := beBytes_append_inj (Nat.lt_of_le_of_lt ha hu64)
    (Nat.lt_of_le_of_lt hb hu64) h
  have hlengths : (Json.utf8 a).length = (Json.utf8 b).length := by
    rw [hlength, hlength, hsize]
  obtain ⟨htext, hxy⟩ := List.append_inj hrest hlengths
  exact ⟨Json.utf8_injective htext, hxy⟩

/-- Envelopes with the same fingerprint are the same, all texts included. -/
theorem TransferEnvelope.fingerprint_injective (hfree : P.CollisionFree)
    {a b : TransferEnvelope} (ha : a.InRange) (hb : b.InRange)
    (h : a.fingerprint (P := P) = b.fingerprint) : a = b := by
  have hu32 : u32Max < 256 ^ 4 := by decide
  have hbytes := hfree.sha256_inj h
  simp only [List.append_assoc] at hbytes
  obtain ⟨hversion, htexts⟩ := beBytes_append_inj (Nat.lt_of_le_of_lt ha.formatVersion hu32)
    (Nat.lt_of_le_of_lt hb.formatVersion hu32) (List.append_cancel_left hbytes)
  change framedText _ ++ (framedText _ ++ (framedText _ ++ (framedText _ ++ []))) =
    framedText _ ++ (framedText _ ++ (framedText _ ++ (framedText _ ++ []))) at htexts
  obtain ⟨hid, htexts⟩ := framedText_append_inj ha.requestId hb.requestId htexts
  obtain ⟨hkey, htexts⟩ := framedText_append_inj ha.ephemeralPublicKey hb.ephemeralPublicKey htexts
  obtain ⟨hnonce, htexts⟩ := framedText_append_inj ha.nonce hb.nonce htexts
  obtain ⟨hciphertext, _⟩ := framedText_append_inj ha.ciphertext hb.ciphertext htexts
  cases a
  cases b
  cases hversion
  cases hid
  cases hkey
  cases hnonce
  cases hciphertext
  rfl

namespace WalletState

/-- After a transfer was accepted, whatever the wallet does then, the same request and envelope are
recognised, everything else is refused, and the wallet is left as it is. -/
theorem accepted_transfer_recognised (hfree : P.CollisionFree) {reader : PayloadReader P}
    {network : NetworkId} {request : TransferRequest} {envelope : TransferEnvelope}
    {status : CoinStatus P} {observed : ObservedFunding P}
    {minimumConfirmations minimumReactionBlocks : Nat} {s s' : WalletState P}
    (haccept : acceptTransfer reader network request envelope status observed
      minimumConfirmations minimumReactionBlocks s = .ok true s')
    (hrange : envelope.InRange) (ops : List (Operation P)) (reader₂ : PayloadReader P)
    (network₂ : NetworkId) (request₂ : TransferRequest) (envelope₂ : TransferEnvelope)
    (hrange₂ : envelope₂.InRange) (status₂ : CoinStatus P) (observed₂ : ObservedFunding P)
    (minimumConfirmations₂ minimumReactionBlocks₂ : Nat) :
    let again := acceptTransfer reader₂ network₂ request₂ envelope₂ status₂ observed₂
      minimumConfirmations₂ minimumReactionBlocks₂
    ((∃ t, again (s'.run ops) = .ok false t) ↔ request₂ = request ∧ envelope₂ = envelope) ∧
      (¬ (request₂ = request ∧ envelope₂ = envelope) → ∃ e t, again (s'.run ops) = .error e t) ∧
      again.stateAfter (s'.run ops) = s'.run ops := by
  intro again
  obtain ⟨haccepted, hvalid⟩ := accepted_of_acceptTransfer haccept
  have hlater := haccepted.run ops
  have hsame : ∀ {accepted t}, again (s'.run ops) = .ok accepted t →
      request₂ = request ∧ envelope₂ = envelope ∧ t = s'.run ops := by
    intro accepted t hok
    obtain ⟨_, hrequest, hfingerprint, _, ht⟩ := hlater.acceptTransfer_again.1 hok
    exact ⟨hrequest, TransferEnvelope.fingerprint_injective hfree hrange₂ hrange hfingerprint, ht⟩
  refine ⟨⟨?_, ?_⟩, fun hother => ?_, ?_⟩
  · rintro ⟨t, hok⟩
    exact ⟨(hsame hok).1, (hsame hok).2.1⟩
  · rintro ⟨rfl, rfl⟩
    exact ⟨s'.run ops, hlater.acceptTransfer_again.2 ⟨hvalid, rfl, rfl, rfl, rfl⟩⟩
  · cases h : again (s'.run ops) with
    | error e t => exact ⟨e, t, rfl⟩
    | ok accepted t =>
      obtain ⟨hrequest, henvelope, _⟩ := hsame h
      exact absurd ⟨hrequest, henvelope⟩ hother
  · have hatomic : again.Atomic (s'.run ops) := by apply acceptTransfer_atomic
    rcases hatomic.stateAfter_eq with ⟨accepted, hok⟩ | hunchanged
    · exact (hsame hok).2.2
    · exact hunchanged

/-! ## A coin that is accepted once -/

section SecondOwner

open Symbolic

/-- The second owner of the coin asks for it. -/
def secondIncoming : IncomingTransfer :=
  incomingTransfer (P := platform) ⟨bytes 20, bytes 5, bytes 22, bytes 23⟩ .regtest (bytes 1)
    coinOfTwo.outpoint 1000 10

def secondPayload : TransferPayload platform where
  formatVersion := fileFormatVersion
  protocolVersion := Tinylayer.protocolVersion
  requestId := bytes 23
  clientSecret := bytes 2
  currentHandoff := bytes 12
  metadata := coinOfTwo
  history := historyOfTwo

def secondDraws : EnvelopeDraws platform := ⟨bytes 24, List.Vector.replicate 24 0⟩

/-- The status of the coin after its two signatures. -/
def secondStatus : CoinStatus platform :=
  ⟨bytes 1, (bytes 9).toList, authorization (bytes 1) (capabilityHash (bytes 20)) (bytes 12), 2⟩

def secondSeen : ObservedFunding platform :=
  ⟨coinOfTwo.outpoint, ⟨1000, fundingScript coinOfTwo.keys⟩, 5, true, false⟩

def secondWallet : WalletState platform := { empty with incoming := some secondIncoming }

/-- The second owner runs `accept_transfer`. -/
noncomputable def secondAccepts (envelope : TransferEnvelope) :
    Update String (WalletState platform) Bool :=
  acceptTransfer writtenReader .regtest secondIncoming.request envelope secondStatus secondSeen 1 10

theorem secondRequest_valid : secondIncoming.request.validate platform = .ok () :=
  TransferRequest.validate_new textCodec _ _ _ _ _ _ _ _ _ (by decide) (by decide)

theorem secondPayload_acceptable :
    Acceptable secondPayload .regtest secondIncoming.request secondIncoming secondStatus secondSeen
      1 10 := by
  have hparsed := TransferRequest.parsed_new textCodec (bytes 23) (bytes 1) .regtest
    coinOfTwo.outpoint 1000 (secretXonly (P := platform) (bytes 5))
    (capabilityHash (P := platform) (bytes 20)) (platform.publicKeyOf (bytes 22)) 10
  exact {
    network := ⟨rfl, rfl⟩
    coinId := hparsed.coinId
    outpoint := hparsed.outpoint
    amount := rfl
    secret := rfl
    capability := hparsed.nextCapabilityHash
    funding := by decide +kernel
    withdrawal := ⟨recoveryOfTwo 5 90, bytes 5, rfl, hparsed.withdrawalKey, rfl,
      by decide +kernel, by decide +kernel⟩ }

theorem accepted_transfer_recognised_second : ∃ envelope s', envelope.InRange ∧
    secondAccepts envelope secondWallet = .ok true s' ∧
    ∀ ops : List (Operation platform),
      (∃ t, secondAccepts envelope (s'.run ops) = .ok false t) ∧
      ∀ envelope₂, envelope₂.InRange → envelope₂ ≠ envelope →
        ∃ e t, secondAccepts envelope₂ (s'.run ops) = .error e t := by
  have hparsed := TransferRequest.parsed_new textCodec (bytes 23) (bytes 1) .regtest
    coinOfTwo.outpoint 1000 (secretXonly (P := platform) (bytes 5))
    (capabilityHash (P := platform) (bytes 20)) (platform.publicKeyOf (bytes 22)) 10
  obtain ⟨envelope, hseal⟩ := encryptTransfer_isOk cipherTotal secondDraws secondPayload
    secondRequest_valid (by decide) hparsed.id (by decide +kernel)
  have hopen := decryptTransfer_encryptTransfer textCodec secretCodec ecdhSymmetric aeadCorrect
    writtenReader_roundTrip hparsed.transportKey ⟨rfl, by decide⟩ hseal
  have haccept : secondAccepts envelope secondWallet = .ok true _ :=
    acceptTransfer_ok.2 ⟨by decide, secondRequest_valid, Or.inr ⟨rfl, _,
      acceptCoin_eq_ok.2 ⟨rfl, secondIncoming, secondPayload, rfl, rfl, hopen,
        secondPayload_acceptable, rfl⟩, rfl, rfl⟩⟩
  have hrange : envelope.InRange := by
    refine inRange_of_encryptTransfer aeadCorrect ?_ hseal
    have hsize := Hex.utf8ByteSize_encode (secondDraws.ephemeral : Bytes32).toList
    exact hsize.trans_le (by decide)
  refine ⟨envelope, _, hrange, haccept, fun ops => ⟨?_, fun envelope₂ hrange₂ hne => ?_⟩⟩
  · exact (accepted_transfer_recognised collisionFree haccept hrange ops writtenReader .regtest
      secondIncoming.request envelope hrange secondStatus secondSeen 1 10).1.2 ⟨rfl, rfl⟩
  · exact (accepted_transfer_recognised collisionFree haccept hrange ops writtenReader .regtest
      secondIncoming.request envelope₂ hrange₂ secondStatus secondSeen 1 10).2.1
      fun hsame => hne hsame.2

end SecondOwner

end WalletState

end Tinylayer
