import Tinylayer.Native.Proofs.CliProofs

/-!
# Recovery before broadcast

Whenever a funding transaction is handed to the chain, its recovery is saved; and it is always the
same transaction.
-/

namespace Tinylayer

open Durable

variable {P : Platform} {E : Type} {services : Services P E} {reader : PayloadReader P}
  {config : Config} {fundingSecret : P.SecretKey} {w v : CliWorld P E}

/-- The saved coin can be recovered once `transaction` has funded it. -/
def RecoverySaved (s : NativeWalletState P) (transaction : P.Tx) : Prop :=
  ∃ coin metadata funding recovery secret, s.wallet.coin = some coin ∧
    coin.metadata = some metadata ∧ coin.funding = some funding ∧
    (funding.stage = .recoverySecured ∨ funding.stage = .broadcast) ∧
    funding.transaction = transaction ∧
    metadata.outpoint.txid = P.computeTxid transaction ∧
    coin.history[0]? = some recovery ∧ verifyRecovery metadata recovery = .ok () ∧
    recovery.delayBlocks = funding.delayBlocks ∧
    coin.withdrawalSecret = some secret ∧ PaysSecret recovery secret

theorem FundingSecured.recoverySaved {s : NativeWalletState P} (h : NativeInv config s)
    {transaction : P.Tx} (hsecured : FundingSecured s transaction) :
    RecoverySaved s transaction := by
  obtain ⟨funding, hfunding, hstage, htransaction⟩ := hsecured
  obtain ⟨coin, hcoin, hfunding⟩ := Option.bind_eq_some_iff.1 hfunding
  have hinv := h.wallet.coin coin hcoin
  obtain ⟨recovery, hhistory, hdelay⟩ := hinv.secured funding hfunding hstage
  have hmetadata : coin.metadata ≠ none := by
    intro hnone
    rw [(hinv.unfunded.1 hnone).1] at hfunding
    cases hfunding
  obtain ⟨metadata, hmetadata⟩ := Option.ne_none_iff_exists'.1 hmetadata
  obtain ⟨owned, secret, howned, hpays⟩ := hinv.owned (by simp [hhistory])
  obtain ⟨index, _, hsecret, hindex⟩ := WalletCoin.owned_eq_some.1 howned
  have hrecovery : owned = recovery := by
    rw [hhistory, List.getElem?_singleton] at hindex
    split at hindex
    · exact (Option.some.inj hindex).symm
    · cases hindex
  refine ⟨coin, metadata, funding, recovery, secret, hcoin, hmetadata, hfunding, ?_, htransaction,
    ?_, by simp [hhistory], ?_, hdelay, hsecret, hrecovery ▸ hpays⟩
  · cases hs : funding.stage with
    | prepared => exact absurd hs hstage
    | recoverySecured => exact Or.inl rfl
    | broadcast => exact Or.inr rfl
  · rw [← htransaction]
    exact h.funded coin hcoin metadata hmetadata funding hfunding
  · exact verifyRecovery_eq_ok.2 (hinv.recoveries metadata hmetadata recovery (by simp [hhistory]))

/-- A permitted broadcast of a funding transaction. -/
theorem secured_of_broadcast {event : CliEvent P} {transaction : P.Tx} {u : CliWorld P E}
    (h : BroadcastsFunding event transaction) (hallows : (cliContract E config).Allows u event) :
    FundingSecured u.saved transaction := by
  rcases h with ⟨metadata, hasked⟩ | ⟨hasked, hfund⟩
  · have hpermitted : Permitted _ _ _ := hallows.of_asked hasked
    simp only [Permitted] at hpermitted
    split at hpermitted
    · exact hpermitted
    · exact hpermitted.elim
  · have hpermitted : Permitted _ _ _ := hallows.of_asked hasked
    cases hcommand : event.command with
    | fund => simpa only [hcommand, Permitted] using hpermitted
    | _ =>
      rw [hcommand] at hfund
      exact hfund.elim

/-- Once its recovery is secured, the funding transaction never changes. -/
theorem FundingSecured.step {s : NativeWalletState P} {transaction : P.Tx}
    (h : FundingSecured s transaction) {wallet : WalletState P}
    (hstep : FundingStep s.wallet.funding wallet.funding) :
    FundingSecured (s.withWallet wallet) transaction := by
  obtain ⟨funding, hfunding, hstage, htransaction⟩ := h
  obtain ⟨later, hlater⟩ : ∃ later, wallet.funding = later := ⟨_, rfl⟩
  rw [hfunding, hlater] at hstep
  cases hstep with
  | same => exact ⟨funding, hlater, hstage, htransaction⟩
  | secured hprepared => exact absurd hprepared hstage
  | broadcast => exact ⟨_, hlater, by simp, htransaction⟩

/-- Whatever was broadcast so far is the transaction of the saved funding. -/
def BroadcastsSaved (w : CliWorld P E) : Prop :=
  ∀ event ∈ w.log, ∀ transaction, BroadcastsFunding event transaction →
    FundingSecured w.saved transaction

theorem Change.fundingSecured {c : Command P} {u : CliWorld P E} {state : NativeWalletState P}
    (h : Change config c u state) {transaction : P.Tx}
    (hsecured : FundingSecured u.saved transaction) : FundingSecured state transaction := by
  cases h with
  | wallet hchange => exact hsecured.step hchange.funding
  | exit => exact hsecured
  | sweep => exact hsecured

theorem not_broadcasts_of_wrote {event : CliEvent P} {state : NativeWalletState P}
    (h : event.Wrote state) {transaction : P.Tx} : ¬ BroadcastsFunding event transaction := by
  rintro (⟨metadata, reply, hasked⟩ | ⟨⟨reply, hasked⟩, _⟩) <;>
    exact absurd (h.symm.trans hasked) (by simp)

theorem broadcastsSaved_of_guarded (h : Guarded services (cliContract E config) w v)
    (hw : w.log = []) : BroadcastsSaved v := by
  refine h.keeps BroadcastsSaved ?_ ?_ ?_
  · simp [BroadcastsSaved, hw]
  · intro u c state _ hwrite hu event hevent transaction hbroadcast
    rcases List.mem_append.1 hevent with hevent | hevent
    · exact hwrite.2.2.fundingSecured (hu event hevent transaction hbroadcast)
    · obtain rfl := List.mem_singleton.1 hevent
      have hwrote : Event.Wrote (⟨c, u.saved, .wrote state⟩ : CliEvent P) state := rfl
      exact absurd hbroadcast (not_broadcasts_of_wrote hwrote)
  · intro u c query reply e _ hask _ hu event hevent transaction hbroadcast
    rcases List.mem_append.1 hevent with hevent | hevent
    · exact hu event hevent transaction hbroadcast
    · obtain rfl := List.mem_singleton.1 hevent
      have hallows : (cliContract E config).Allows u ⟨c, u.saved, .asked query reply⟩ := hask
      have hsecured := secured_of_broadcast hbroadcast hallows
      exact hsecured

/-- Before a funding transaction is handed to the chain, its recovery is saved; all that are handed
over are the same transaction; and the journal goes through its stages in order. -/
theorem recovery_before_broadcast (hsecret : P.SecretCodec)
    (hw : Initialized config fundingSecret w) (h : CliLife services reader config w v) :
    (∀ event ∈ v.log, ∀ transaction, BroadcastsFunding event transaction →
      RecoverySaved event.saved transaction) ∧
    (∀ event ∈ v.log, ∀ event' ∈ v.log, ∀ transaction transaction',
      BroadcastsFunding event transaction → BroadcastsFunding event' transaction' →
      transaction = transaction') ∧
    ∀ event ∈ v.log, ∀ state, event.Wrote state →
      FundingStep event.saved.wallet.funding state.wallet.funding := by
  have hguarded := hw.guarded hsecret h
  refine ⟨?_, ?_, ?_⟩
  · intro event hevent transaction hbroadcast
    obtain ⟨before, after, hlog⟩ := List.append_of_mem hevent
    obtain ⟨u, _, hinv, _, hsaved, hallows⟩ := hguarded.allows hw.log hlog
    rw [← hsaved]
    exact (secured_of_broadcast hbroadcast hallows).recoverySaved hinv
  · intro event hevent event' hevent' transaction transaction' hbroadcast hbroadcast'
    have hall := broadcastsSaved_of_guarded hguarded hw.log
    obtain ⟨funding, hfunding, _, rfl⟩ := hall event hevent transaction hbroadcast
    obtain ⟨funding', hfunding', _, rfl⟩ := hall event' hevent' transaction' hbroadcast'
    obtain rfl := Option.some.inj (hfunding.symm.trans hfunding')
    rfl
  · intro event hevent state hwrote
    obtain ⟨before, after, hlog⟩ := List.append_of_mem hevent
    obtain ⟨u, _, _, _, hsaved, hallows⟩ := hguarded.allows hw.log hlog
    rw [← hsaved]
    obtain ⟨_, _, hchange⟩ := hallows.of_wrote hwrote
    cases hchange with
    | wallet hchange => exact hchange.funding
    | exit => exact .same _
    | sweep => exact .same _

section Alice

open Symbolic

/-- The event is a broadcast by an explorer's funding command. -/
def isFundingBroadcast (event : CliEvent P) : Bool :=
  match event.command, event.action with
  | .fund .., .asked (.broadcastExact _) _ => true
  | _, _ => false

theorem broadcastsFunding_of_isFundingBroadcast {event : CliEvent P}
    (h : isFundingBroadcast event = true) : ∃ transaction, BroadcastsFunding event transaction := by
  obtain ⟨command, saved, action⟩ := event
  unfold isFundingBroadcast at h
  split at h
  · exact ⟨_, Or.inr ⟨⟨_, by assumption⟩, by simp_all [Command.IsFund]⟩⟩
  · cases h

theorem recovery_before_broadcast_funded :
    ∃ event ∈ (aliceRan [aliceRegisters, aliceFunds]).log, ∃ transaction,
      BroadcastsFunding event transaction ∧ RecoverySaved event.saved transaction := by
  have hmem : ∃ event ∈ (aliceRan [aliceRegisters, aliceFunds]).log,
      isFundingBroadcast event = true := by decide +kernel
  obtain ⟨event, hevent, hbroadcast⟩ := hmem
  obtain ⟨transaction, hbroadcast⟩ := broadcastsFunding_of_isFundingBroadcast hbroadcast
  exact ⟨event, hevent, transaction, hbroadcast, (recovery_before_broadcast secretCodec
    initialized_newWorld (cliLife_aliceRan [aliceRegisters, aliceFunds])).1 event hevent transaction
    hbroadcast⟩

end Alice

end Tinylayer
