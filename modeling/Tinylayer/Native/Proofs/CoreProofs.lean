import Tinylayer.Native.Core

/-!
# Proofs: what a truthful node is told to have seen

The node answers a question about an unspent output together with the best block at that time. So an
observation of it is right as a whole, at the time of this answer.
-/

namespace Tinylayer

open Durable Inquiry

variable {P : Platform} {B : ChainPlatform P} {blocks : Blocks B} {M : Type} [Preorder M]
  {history : M → Ledger.View blocks} {t t' : M}

theorem truthfulCore_movesOn : MovesOn (truthfulCore history) := fun h => h.1

namespace Core

variable {self : Core}

theorem tryCall_ends {query : CoreQuery P} {reply : Except RpcError (query.Answer B)}
    (h : Ends (truthfulCore history) (tryCall query) t (.ok reply) t') :
    t ≤ t' ∧ ∀ answer, reply = .ok answer → query.Truth (history t') answer := by
  obtain ⟨reply', henv, hsame⟩ := ends_question.1 h
  cases hsame
  exact henv

theorem call_ends {query : CoreQuery P} {context : String} {answer : query.Answer B}
    (h : Ends (truthfulCore history) (call query context) t (.ok answer) t') :
    t ≤ t' ∧ query.Truth (history t') answer := by
  obtain ⟨reply, u, hreply, hof⟩ := ends_bind.1 h
  obtain ⟨hanswer, rfl⟩ := ends_of.1 hof
  obtain ⟨hle, htruth⟩ := tryCall_ends hreply
  cases reply with
  | error error => cases hanswer
  | ok found =>
    cases hanswer
    exact ⟨hle, htruth _ rfl⟩

/-- The information is about the chain at some time during the call. -/
def InfoSeen (history : M → Ledger.View blocks) (t t' : M) (info : ChainInfo B) : Prop :=
  ∃ s, t ≤ s ∧ s ≤ t' ∧ info.blocks = (history s).tip ∧
    (history s).chain.getLast? = some info.bestBlockHash

theorem chainInfo_ends {info : ChainInfo B}
    (h : Ends (truthfulCore history) self.chainInfo t (.ok info) t') :
    InfoSeen history t t' info := by
  obtain ⟨found, u, hcall, h⟩ := ends_bind.1 h
  obtain ⟨_, u', hof, hpure⟩ := ends_bind.1 h
  obtain ⟨_, rfl⟩ := ends_of.1 hof
  obtain ⟨hsame, rfl⟩ := ends_pure.1 hpure
  cases hsame
  obtain ⟨hle, htruth⟩ := call_ends hcall
  exact ⟨u, hle, le_refl u, htruth⟩

/-- The best block of an answer is the best block that the chain had at some time. -/
theorem atBestBlock_ends {bestblock : B.BlockHash} {chain info : ChainInfo B} {context : String}
    {t₀ : M} (hchain : InfoSeen history t₀ t chain) (hstart : t₀ ≤ t)
    (h : Ends (truthfulCore history) (self.atBestBlock bestblock chain context) t (.ok info) t') :
    InfoSeen history t₀ t' info ∧ info.bestBlockHash = bestblock := by
  obtain ⟨found, u, hlook, h⟩ := ends_bind.1 h
  obtain ⟨_, u', hof, hpure⟩ := ends_bind.1 h
  obtain ⟨hsame, rfl⟩ := ends_of.1 hof
  obtain ⟨hfound, rfl⟩ := ends_pure.1 hpure
  cases hfound
  refine ⟨?_, (Except.ensure_eq_ok.1 hsame).symm⟩
  split at hlook
  · obtain ⟨s, hs, hs', hinfo⟩ := chainInfo_ends hlook
    exact ⟨s, le_trans hstart hs, hs', hinfo⟩
  · obtain ⟨hfound, rfl⟩ := ends_pure.1 hlook
    cases hfound
    exact hchain

theorem height_eq_ok {info : ChainInfo B} {tipHeight : Nat} :
    height info = .ok tipHeight ↔ info.blocks ≤ u32Max ∧ info.blocks = tipHeight := by
  simp [height]

/-- If an answer about an output came with the best block of the chain that was looked up, the chain
had its height when the answer was given. -/
theorem InfoSeen.tip_eq {info : ChainInfo B} {s : M} {hash : B.BlockHash}
    (h : InfoSeen history t t' info) (hlast : (history s).chain.getLast? = some hash)
    (hhash : info.bestBlockHash = hash) : info.blocks = (history s).tip := by
  obtain ⟨u, -, -, hblocks, hbest⟩ := h
  have hsame : (history u).chain = (history s).chain := by
    refine Ledger.View.chain_eq ?_
    rw [hbest, hlast, hhash]
  rw [hblocks, Ledger.View.tip, hsame, Ledger.View.tip]

/-- A shown output that is the funding output of the coin. -/
theorem fundingSeen_of_getTxOut {metadata : CoinMetadata P} {result : TxOutInfo B}
    {output : TxOut} {context : String} {s : M} {tipHeight : Nat}
    (htruth : (CoreQuery.getTxOut metadata.outpoint).Truth (history s) (some result))
    (houtput : result.output context = .ok output)
    (hexpected : verifyFundingUtxo metadata metadata.outpoint output = .ok ())
    (hmature : result.coinbase = false ∨ 100 ≤ result.confirmations)
    (htip : tipHeight = (history s).tip) (after : t ≤ s) (before : s ≤ t') :
    FundingSeen history t t' metadata {
      funding := {
        outpoint := metadata.outpoint
        output
        confirmations := result.confirmations
        unspent := true
        coinbase := result.coinbase }
      tipHeight
      spendingTxid := none
      spendingConfirmed := false } := by
  obtain ⟨hunspent, -, transaction, made, hmakes, hdeep, hvalue, hscript, hcoinbase⟩ := htruth
  simp only [TxOutInfo.output, Except.bind_eq_ok, Except.context_eq_ok, Except.pure_eq_ok] at houtput
  obtain ⟨script, hscript', rfl⟩ := houtput
  have hmade : made = { value := result.value, scriptPubkey := script } := by
    rw [hvalue, hscript script hscript']
  simp only [verifyFundingUtxo, Except.bind_eq_ok, Except.ensure_eq_ok, exists_unit] at hexpected
  refine ⟨rfl, hexpected.2.2, hmature, transaction, s, hmade ▸ hmakes, hcoinbase.symm, after, before,
    ?_, fun _ => ⟨s, le_refl s, before, hunspent⟩⟩
  rw [htip]
  exact hdeep.seen after (le_refl s)

theorem observeFunding_ends {metadata : CoinMetadata P}
    {observed : DetailedFundingObservation P}
    (h : Ends (truthfulCore history) (self.observeFunding metadata) t (.ok observed) t')
    (hunspent : observed.funding.unspent = true) : FundingSeen history t t' metadata observed := by
  obtain ⟨_, t₀, hof, h⟩ := ends_bind.1 h
  obtain ⟨_, rfl⟩ := ends_of.1 hof
  obtain ⟨found, s, hcall, h⟩ := ends_bind.1 h
  obtain ⟨hs, htruth⟩ := call_ends hcall
  cases found with
  | none =>
    obtain ⟨found, u, _, h⟩ := ends_bind.1 h
    obtain ⟨pair, u₁, _, h⟩ := ends_bind.1 h
    obtain ⟨spent, u₂, _, hpure⟩ := ends_bind.1 h
    obtain ⟨hsame, -⟩ := ends_pure.1 hpure
    cases hsame
    cases hunspent
  | some result =>
    obtain ⟨chain, u, hchain, h⟩ := ends_bind.1 h
    obtain ⟨info, u₁, hbest, hof⟩ := ends_bind.1 h
    obtain ⟨hchecks, rfl⟩ := ends_of.1 hof
    simp only [Except.bind_eq_ok, Except.ensure_eq_ok, exists_unit, Client.lift_eq_ok,
      Except.pure_eq_ok, height_eq_ok] at hchecks
    obtain ⟨output, houtput, hexpected, hmature, tipHeight, ⟨-, rfl⟩, rfl⟩ := hchecks
    have hinfo := chainInfo_ends hchain
    obtain ⟨hinfo, hhash⟩ := atBestBlock_ends hinfo (Ends.le truthfulCore_movesOn hchain) hbest
    refine fundingSeen_of_getTxOut htruth houtput hexpected hmature ?_ hs ?_
    · exact hinfo.tip_eq htruth.2.1 hhash
    · exact le_trans (Ends.le truthfulCore_movesOn hchain) (Ends.le truthfulCore_movesOn hbest)

theorem verifyFunding_ends {metadata : CoinMetadata P} {minimumConfirmations : Nat}
    {observed : FundingObservation}
    (h : Ends (truthfulCore history) (self.verifyFunding metadata minimumConfirmations) t
      (.ok observed) t') :
    minimumConfirmations ≤ observed.confirmations ∧ ∃ detailed, FundingSeen history t t' metadata detailed ∧
      detailed.funding.unspent = true ∧ detailed.tipHeight = observed.tipHeight ∧
      detailed.funding.confirmations = observed.confirmations := by
  obtain ⟨chain, s₀, hchain, h⟩ := ends_bind.1 h
  obtain ⟨found, s, hcall, h⟩ := ends_bind.1 h
  obtain ⟨result, s', hof, hrest⟩ := ends_bind.1 h
  obtain ⟨hfound, rfl⟩ := ends_of.1 hof
  cases Except.context_eq_ok.1 hfound
  obtain ⟨info, u, hbest, hlast⟩ := ends_bind.1 hrest
  obtain ⟨hchecks, rfl⟩ := ends_of.1 hlast
  simp only [Except.bind_eq_ok, Except.ensure_eq_ok, exists_unit, Client.lift_eq_ok,
    Except.pure_eq_ok, height_eq_ok] at hchecks
  obtain ⟨hminimum, hmature, output, houtput, hexpected, tipHeight, ⟨-, rfl⟩, rfl⟩ := hchecks
  have h₀ := Ends.le truthfulCore_movesOn hchain
  obtain ⟨hs, htruth⟩ := call_ends hcall
  obtain ⟨v, hv, hv', hinfo⟩ := chainInfo_ends hchain
  obtain ⟨hinfo, hhash⟩ := atBestBlock_ends ⟨v, hv, le_trans hv' hs, hinfo⟩ (le_trans h₀ hs) hbest
  exact ⟨hminimum, _, fundingSeen_of_getTxOut htruth houtput hexpected hmature
    (hinfo.tip_eq htruth.2.1 hhash) (le_trans h₀ hs) (Ends.le truthfulCore_movesOn hbest),
    rfl, rfl, rfl⟩

end Core

end Tinylayer
