import Tinylayer.System.Proofs.ResumptionProofs

/-!
# Proofs: signing once

A request that a wallet has journaled is signed once, however often it is sent and answered, and
wherever the wallet crashes.
-/

namespace Tinylayer.World

variable {ι : Type} {P : Platform} {LIMIT : Nat} {w : World ι P LIMIT}

/-- A pair of capability and handoff token is used for at most one signature. -/
theorem issuedFor_length_le (hcf : P.CollisionFree) (hfresh : Fresh w) (coinId : CoinId)
    (capability : Capability) (handoff : HandoffToken) :
    (w.issuedFor coinId capability handoff).length ≤ 1 := by
  have hrec := @Signer.recorded_run P LIMIT w.calls coinId
  have hnodup := hrec.presented_nodup hcf (hfresh coinId)
  have hsub : List.Sublist
      ((w.issuedFor coinId capability handoff).map fun entry => Signer.presented entry.1)
      ((w.log coinId).map fun entry => Signer.presented entry.1) := List.filter_sublist.map _
  have hsame : ∀ p ∈ (w.issuedFor coinId capability handoff).map
      fun entry => Signer.presented entry.1,
      p = authorization coinId (capabilityHash capability) handoff := by
    intro p hp
    obtain ⟨entry, hentry, rfl⟩ := List.mem_map.1 hp
    obtain ⟨hlog, hpair⟩ := List.mem_filter.1 hentry
    obtain ⟨hcapability, hhandoff⟩ := of_decide_eq_true hpair
    rw [Signer.presented, hrec.coinId_eq hlog, hcapability, hhandoff]
  have hall := List.eq_replicate_of_mem hsame
  have hone := hnodup.sublist hsub
  rw [hall, List.nodup_replicate, List.length_map] at hone
  exact hone

/-- Where nothing is journaled, there is no funding to go on with. -/
theorem fundingResumes_of_idle {σ : Signer P LIMIT} {s : WalletState P}
    (hidle : s.signing = none) : FundingResumes σ s := by
  intro config native draws rest c nextCapability secret stage _ _ _ _ hsigning
  rw [hidle] at hsigning
  cases hsigning

/-- Where nothing is journaled, a transfer is only shown again. -/
theorem transferResumes_of_idle {σ : Signer P LIMIT} {s : WalletState P} (hinv : WalletInv s)
    (hidle : s.signing = none) : TransferResumes σ s := by
  by_cases htransferred : s.Transferred
  · exact transferResumes_of_transferred hinv htransferred
  · intro config native draws rest envelopeDraws request _ _ _ _ _ _ hsends
    rcases hsends with hpending | ⟨outgoing, hout, _⟩
    · obtain ⟨stage, hpending⟩ := WalletState.pendingTransferRequest_eq_ok.1 hpending
      rw [WalletState.signing_eq_some.2 hpending] at hidle
      cases hidle
    · obtain ⟨coin, hcoin, hout⟩ := Option.bind_eq_some_iff.1 hout
      exact absurd ⟨coin, hcoin, by rw [hout]; rfl⟩ htransferred

variable [DecidableEq ι]

/-- Journaled signing is exactly once, whatever is lost, repeated or delivered late and wherever the
wallets crash. -/
theorem signing_exactly_once (hsecret : P.SecretCodec) (hcf : P.CollisionFree)
    (hschnorr : P.SchnorrCorrect) (hcodec : P.SignatureCodec) (htaproot : P.TaprootLaws)
    (htotal : P.CipherTotal) (h : Reachable w) (hfresh : Fresh w) : SignsOnce w := by
  have hinv := h.inv hsecret hfresh
  refine { held := hinv.pair, same := hinv.same, counted := ?_, once := ?_, answer := ?_,
           resumes := ?_ }
  · intro coinId coin hlookup
    obtain ⟨request, _, hcoin⟩ := (@Signer.recorded_run P LIMIT w.calls coinId).of_lookup hlookup
    rw [hcoin]
    rfl
  · intro a _
    exact issuedFor_length_le hcf hfresh _ _ _
  · intro a ha b hb hwallet hpair response response' hreply hreply'
    have hrequest := hinv.same a ha b hb hwallet hpair
    have hlog := hinv.replied _ hreply
    have hlog' := hinv.replied _ hreply'
    rw [← hrequest] at hlog'
    exact congrArg Prod.snd (log_unique hcf hfresh hlog hlog' rfl)
  · intro i hcommitted
    have hwallet := (hinv.disk i).wallet
    cases hsigning : (w.disk i).signing with
    | none => exact ⟨transferResumes_of_idle hwallet hsigning, fundingResumes_of_idle hsigning⟩
    | some pending =>
      have hpending := WalletState.signing_eq_some.1 hsigning
      obtain ⟨response, live, hconfirms⟩ := hinv.confirms hcf hschnorr hfresh hsigning hcommitted
      exact ⟨hconfirms.transferResumes hschnorr hcodec htaproot hwallet hpending htotal,
        hconfirms.fundingResumes hschnorr hcodec htaproot hwallet hpending⟩

section Demo

open Symbolic WalletState

/-- The first wallet has registered its coin and saved the request for the first recovery. -/
def savedRequest : World Bool platform 1 :=
  let registered := (init.operate false (.beginRegistration registrationDraws)).other
    ⟨.register ⟨bytes 1, capabilityHash (bytes 3)⟩, ⟨bytes 9, bytes 10⟩⟩
  let completed := registered.operate false
    (.completeRegistration (liveStatus (bytes 3) initialHandoff 0))
  let begun := completed.operate false (.beginFunding ⟨bytes 4, bytes 5⟩ .regtest (bytes 7) deposit
    (liveStatus (bytes 3) initialHandoff 0) 1000 100 1 500 10)
  begun.save false

/-- The request is sent. -/
def asked : World Bool platform 1 := savedRequest.send false fundingRequest

/-- The request is signed. -/
def answered : World Bool platform 1 := asked.deliver fundingRequest ⟨bytes 12, bytes 11⟩

/-- The wallet crashes before it has the answer. -/
def answerLost : World Bool platform 1 := answered.crash false

/-- The request is sent again. -/
def sentAgain : World Bool platform 1 :=
  (answerLost.send false fundingRequest).deliver fundingRequest ⟨bytes 13, bytes 14⟩

theorem reported_registered :
    Signer.Reported 1 registeringCalls (liveStatus (bytes 3) initialHandoff 0) :=
  ⟨_, List.prefix_rfl, by decide +kernel⟩

theorem reachable_savedRequest : Reachable savedRequest := by
  have hstatus : ∀ status, some (liveStatus (bytes 3) initialHandoff 0) = some status →
      Signer.Reported 1 registeringCalls status := by
    rintro _ ⟨⟩
    exact reported_registered
  have hbegun : Reachable (init.operate false (.beginRegistration registrationDraws)) :=
    .tail .refl (.operate (w := (init : World Bool platform 1)) false _ rfl nofun)
  have hregistered := hbegun.tail
    (.other ⟨.register ⟨bytes 1, capabilityHash (bytes 3)⟩, ⟨bytes 9, bytes 10⟩⟩)
  have hcompleted := hregistered.tail
    (.operate false (.completeRegistration (liveStatus (bytes 3) initialHandoff 0)) rfl hstatus)
  have hfunding := hcompleted.tail (.operate false (.beginFunding ⟨bytes 4, bytes 5⟩ .regtest
    (bytes 7) deposit (liveStatus (bytes 3) initialHandoff 0) 1000 100 1 500 10) rfl hstatus)
  exact hfunding.tail (.save false)

theorem pending_savedRequest :
    (savedRequest.mem false).pendingSignRequest = .ok fundingRequest := by
  decide +kernel

theorem held_savedRequest :
    (savedRequest.mem false).held = some ⟨bytes 1, bytes 3, initialHandoff⟩ := by
  decide +kernel

/-- What the wallet sends. -/
def firstSent : Sent Bool platform := ⟨false, some (bytes 3, initialHandoff), fundingRequest⟩

theorem sent_asked : asked.sent = [firstSent] := by
  simp only [asked, send, held_savedRequest]
  rfl

theorem sent_sentAgain : sentAgain.sent = [firstSent, firstSent] := by
  have hheld : (answerLost.mem false).held = some ⟨bytes 1, bytes 3, initialHandoff⟩ :=
    held_savedRequest
  have hsent : answerLost.sent = [firstSent] := sent_asked
  have hagain : sentAgain.sent = (answerLost.send false fundingRequest).sent := rfl
  rw [hagain, send, hheld, hsent]
  rfl

theorem reachable_asked : Reachable asked :=
  reachable_savedRequest.tail (.send false fundingRequest rfl pending_savedRequest)

theorem step_answered : Step asked answered := by
  have hmem : firstSent ∈ asked.sent := by
    rw [sent_asked]
    exact List.mem_singleton_self _
  exact .deliver firstSent ⟨bytes 12, bytes 11⟩ hmem

theorem steps_sentAgain : Steps answered sentAgain := by
  have hcrashed : Steps answered answerLost := .tail .refl (.crash false)
  have hagain := hcrashed.tail (.send false fundingRequest rfl pending_savedRequest)
  have hmem : firstSent ∈ (answerLost.send false fundingRequest).sent := by
    have hsent : (answerLost.send false fundingRequest).sent = [firstSent, firstSent] :=
      sent_sentAgain
    rw [hsent]
    exact List.mem_cons_self
  exact hagain.tail (.deliver firstSent ⟨bytes 13, bytes 14⟩ hmem)

theorem reachable_sentAgain : Reachable sentAgain :=
  (reachable_asked.tail step_answered).trans steps_sentAgain

/-- The answer that was lost. -/
def firstIssuance : Signer.Issuance platform :=
  (fundingRequest, ⟨platform.signSchnorr (bytes 9) fundingRequest.sighash, bytes 11⟩)

theorem log_sentAgain : sentAgain.log (bytes 1) = [firstIssuance] := by
  decide +kernel

/-- Only one coin was registered. -/
theorem fresh_of_log {w : World Bool platform 1} (hkeys : w.signer.coins.keys = [bytes 1])
    (hfresh : Signer.FreshHandoffs (w.log (bytes 1))) : Fresh w := by
  intro coinId
  by_cases hid : coinId = bytes 1
  · rw [hid]
    exact hfresh
  · have hlookup : w.signer.coins.lookup coinId = none := by
      rw [AList.lookup_eq_none, AList.mem_keys, hkeys, List.mem_singleton]
      exact hid
    have hlog : w.log coinId = [] := (Signer.recorded_run w.calls coinId).log_eq_nil hlookup
    rw [hlog]
    exact List.nodup_singleton _

theorem fresh_sentAgain : Fresh sentAgain := by
  have hne : initialHandoff ≠ firstIssuance.2.nextHandoff := by decide
  refine fresh_of_log (by decide +kernel) ?_
  rw [log_sentAgain]
  exact List.nodup_cons.2 ⟨by simpa using hne, List.nodup_singleton _⟩

theorem committed_sentAgain : Committed sentAgain false := by
  rintro request ⟨pending, hsigning, rfl⟩
  have hpending : (sentAgain.disk false).pendingSignRequest = .ok fundingRequest :=
    pending_savedRequest
  obtain ⟨pending', hsigning', hrequest⟩ := pendingSignRequest_eq_ok.1 hpending
  cases hsigning.symm.trans hsigning'
  rw [hrequest]
  have hid : fundingRequest.coinId = bytes 1 := rfl
  refine ⟨firstIssuance.2, by rw [hid, log_sentAgain]; exact List.mem_singleton_self _, ?_, ?_⟩
  · exact fun _ h => absurd h List.not_mem_nil
  · intro a ha hne
    rw [sent_sentAgain] at ha
    have hfirst : a = firstSent := by simpa using ha
    rw [hfirst] at hne
    exact absurd rfl hne

theorem signing_exactly_once_sentAgain : sentAgain.sent.length = 2 ∧ Committed sentAgain false ∧
    SignsOnce sentAgain := by
  refine ⟨by rw [sent_sentAgain]; rfl, committed_sentAgain, ?_⟩
  exact signing_exactly_once secretCodec collisionFree schnorrCorrect signatureCodec taprootLaws
    cipherTotal reachable_sentAgain fresh_sentAgain

end Demo

end Tinylayer.World
