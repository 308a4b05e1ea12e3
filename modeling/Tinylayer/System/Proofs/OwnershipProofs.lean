import Tinylayer.System.Ownership
import Tinylayer.System.Proofs.OnceProofs
import Tinylayer.Wallet.Proofs.TransferProofs

/-!
# Proofs: ownership

Capabilities stay with the wallets that drew them. The authorization of a coin that a wallet
registered is therefore always one that a wallet can open, and only the wallet whose saved coin opens
it can have a signature issued.
-/

namespace Tinylayer

open WalletState

variable {ι : Type} {P : Platform} {LIMIT : Nat}

/-! ## What a wallet asks for -/

/-- What is published is the hash of the capability that was drawn for it. -/
theorem Operation.published_hash (htext : P.TextCodec) {op : Operation P}
    {incoming : IncomingTransfer} (h : op.published = some incoming) :
    op.drawn = some incoming.capability ∧ incoming.request.parseNextCapabilityHash P =
      .ok (capabilityHash incoming.capability) := by
  cases op with
  | beginTransferRequest draws network coinId outpoint expectedAmountSat minimumReactionBlocks =>
    obtain rfl := Option.some.inj h
    exact ⟨rfl, (TransferRequest.parsed_new htext draws.requestId coinId network outpoint
      expectedAmountSat _ _ _ minimumReactionBlocks).nextCapabilityHash⟩
  | _ => cases h

/-- A funding through Bitcoin Core leaves no transfer in the journal. -/
theorem CoreFunds.pendingTransferRequest_ne {s s' : WalletState P} {given : Option (CoinStatus P)}
    {drawn : Option Capability} (h : CoreFunds s given drawn s') (request : TransferRequest) :
    s'.pendingTransferRequest ≠ .ok request := by
  intro hrequest
  obtain ⟨stage, hpending⟩ := pendingTransferRequest_eq_ok.1 hrequest
  cases h with
  | funding _ _ _ _ _ _ _ _ hnone =>
    cases hnone.symm.trans hpending
  | attempt draws _ _ _ _ _ hattempt =>
    obtain ⟨_, _, _, _, _, _, _, _, _, _, rfl⟩ := coreAttempt_ok hattempt
    cases hpending

/-- Recording an answer keeps the transfer in the journal. -/
theorem pendingTransferRequest_recordSignResponse {s : WalletState P} {response : SignResponse P}
    {request : TransferRequest}
    (h : (s.after (.recordSignResponse response)).pendingTransferRequest = .ok request) :
    s.pendingTransferRequest = .ok request := by
  rcases after_recordSignResponse s response with hs | ⟨purpose, attempt, hpending, hs⟩
  · rw [hs] at h
    exact h
  · rw [hs] at h
    obtain ⟨stage, hstage⟩ := pendingTransferRequest_eq_ok.1 h
    cases hstage
    exact pendingTransferRequest_eq_ok.2 ⟨_, hpending⟩

theorem WalletState.mem_capabilities_of_held {s : WalletState P} {held : Held}
    (h : s.held = some held) : held.capability ∈ s.capabilities := by
  obtain ⟨coin, hcoin, _, hcapability, _⟩ := held_eq_some.1 h
  exact mem_capabilities.2 (Or.inl ⟨coin, hcoin, hcapability⟩)

namespace World

variable {w w' w'' : World ι P LIMIT} {i j : ι} {s s' : WalletState P} {coinId : CoinId}
  {entry : Signer.Issuance P}

/-! ## Where things come from -/

theorem DrawnHash.extend {hash : P.Digest} (h : w.DrawnHash hash) (hextends : Extends w w') :
    w'.DrawnHash hash := by
  obtain ⟨entry, hentry, hhash⟩ := h
  exact ⟨entry, hextends.drawn.subset hentry, hhash⟩

namespace StateOrigin

theorem extend (h : StateOrigin w i s) (hextends : Extends w w') : StateOrigin w' i s where
  drawn := fun capability hc => hextends.drawn.subset (h.drawn capability hc)
  requested := fun request hrequest => (h.requested request hrequest).imp
    (fun hp => List.map_subset _ hextends.published.subset hp)
    (fun hf => hextends.forged.subset hf)

/-- A wallet presents a capability that it drew. -/
theorem current (h : StateOrigin w i s) (hinv : WalletInv s) {pending : PendingRecovery P}
    (hsigning : s.signing = some pending) :
    (i, pending.stage.attempt.request.currentCapability) ∈ w.drawn :=
  h.drawn _ (mem_capabilities_of_held (hinv.held_of_signing hsigning))

/-- A wallet asks the signer to set a capability that a wallet drew. -/
theorem next (h : StateOrigin w i s) (hinv : WalletInv s)
    (hpublished : ∀ incoming ∈ w.published, ∃ hash,
      incoming.request.parseNextCapabilityHash P = .ok hash ∧ w.DrawnHash hash)
    {pending : PendingRecovery P} (hsigning : s.signing = some pending) :
    w.DrawnHash pending.stage.attempt.request.nextCapabilityHash ∨
      ∃ request ∈ w.forged, request.parseCoinId = .ok pending.stage.attempt.request.coinId := by
  have hpending := signing_eq_some.1 hsigning
  obtain ⟨coin, hcoin, metadata, hattempt, hpurpose⟩ := hinv.recovery pending hpending
  obtain ⟨purpose, stage⟩ := pending
  cases purpose with
  | fund nextCapability secret =>
    obtain ⟨_, hhash, _⟩ := hpurpose
    have hmem : nextCapability ∈ s.capabilities :=
      mem_capabilities.2 (Or.inr (Or.inr (Or.inr ⟨secret, stage, hpending⟩)))
    exact Or.inl ⟨_, h.drawn nextCapability hmem, hhash⟩
  | transfer request =>
    obtain ⟨hfits, hhash, _⟩ := hpurpose
    rcases h.requested request (pendingTransferRequest_eq_ok.2 ⟨stage, hpending⟩) with hp | hf
    · obtain ⟨incoming, hincoming, rfl⟩ := List.mem_map.1 hp
      obtain ⟨hash, hparse, hdrawn⟩ := hpublished incoming hincoming
      cases hparse.symm.trans hhash
      exact Or.inl hdrawn
    · exact Or.inr ⟨request, hf, by rw [hattempt.coinId]; exact hfits.coinId⟩

/-- A wallet records an answer. -/
theorem record (h : StateOrigin w i s) (response : SignResponse P) :
    StateOrigin w i (s.after (.recordSignResponse response)) := by
  refine ⟨fun capability hc => ?_, fun request hrequest => ?_⟩
  · rcases draws_after s (.recordSignResponse response) capability hc with hold | hnew
    · exact h.drawn capability hold
    · cases hnew
  · exact h.requested request (pendingTransferRequest_recordSignResponse hrequest)

end StateOrigin

namespace Origin

theorem init : Origin (init : World ι P LIMIT) where
  mem := fun _ => ⟨nofun, nofun⟩
  disk := fun _ => ⟨nofun, nofun⟩
  published := nofun
  current := nofun
  next := nofun

/-- A step in which no request is sent. -/
theorem extend (h : Origin w) (hextends : Extends w w')
    (hmem : ∀ j, StateOrigin w' j (w'.mem j)) (hdisk : w'.disk = w.disk) (hsent : w'.sent = w.sent)
    (hpublished : ∀ incoming ∈ w'.published, incoming ∈ w.published ∨ ∃ hash,
      incoming.request.parseNextCapabilityHash P = .ok hash ∧ w'.DrawnHash hash) :
    Origin w' := by
  refine { mem := hmem, disk := fun j => ?_, published := fun incoming hincoming => ?_,
           current := fun a ha => ?_, next := fun a ha => ?_ }
  · rw [hdisk]
    exact (h.disk j).extend hextends
  · rcases hpublished incoming hincoming with hold | hnew
    · obtain ⟨hash, hparse, hdrawn⟩ := h.published incoming hold
      exact ⟨hash, hparse, hdrawn.extend hextends⟩
    · exact hnew
  · rw [hsent] at ha
    exact hextends.drawn.subset (h.current a ha)
  · rw [hsent] at ha
    rcases h.next a ha with hdrawn | ⟨request, hforged, hparse⟩
    · exact Or.inl (hdrawn.extend hextends)
    · exact Or.inr ⟨request, hextends.forged.subset hforged, hparse⟩

theorem send (h : Origin w) (hinv : Inv w) (i : ι) {request : SignRequest P}
    (hpending : (w.mem i).pendingSignRequest = .ok request) : Origin (w.send i request) := by
  obtain ⟨pending, hsigning, rfl⟩ := pendingSignRequest_eq_ok.1 hpending
  have hwallet := (hinv.mem i).wallet
  refine { mem := fun j => ⟨(h.mem j).drawn, (h.mem j).requested⟩,
           disk := fun j => ⟨(h.disk j).drawn, (h.disk j).requested⟩,
           published := h.published, current := fun a ha => ?_, next := fun a ha => ?_ }
  · rcases List.mem_append.1 ha with ha | ha
    · exact h.current a ha
    · rw [List.mem_singleton.1 ha]
      exact (h.mem i).current hwallet hsigning
  · rcases List.mem_append.1 ha with ha | ha
    · exact h.next a ha
    · rw [List.mem_singleton.1 ha]
      exact (h.mem i).next hwallet h.published hsigning

end Origin

/-! ## Who can open a coin -/

/-- Only one wallet drew a capability. -/
theorem Secret.wallet_eq (h : Secret w) {capability : Capability} (hi : (i, capability) ∈ w.drawn)
    (hj : (j, capability) ∈ w.drawn) : i = j :=
  congrArg Prod.fst (List.inj_on_of_nodup_map h.distinct hi hj rfl)

/-- The owner drew the capability of the coin's authorization. -/
theorem Owns.drawn (h : w.Owns i coinId) (horigin : Origin w) : ∃ coin capability handoff,
    w.signer.coins.lookup coinId = some coin ∧
      coin.authorization = authorization coinId (capabilityHash capability) handoff ∧
      (i, capability) ∈ w.drawn := by
  obtain ⟨held, coin, hheld, rfl, hlookup, hauth⟩ := h
  exact ⟨coin, held.capability, held.handoff, hlookup, hauth.symm,
    (horigin.disk i).drawn _ (mem_capabilities_of_held hheld)⟩

/-- Who owns a coin whose authorization has a capability of the wallet `j` is this wallet. -/
theorem Owns.eq (h : w.Owns i coinId) (horigin : Origin w) (hcf : P.CollisionFree)
    (hsecret : Secret w) {coin : Signer.Coin P} (hlookup : w.signer.coins.lookup coinId = some coin)
    {capability : Capability} {handoff : HandoffToken}
    (hauth : coin.authorization = authorization coinId (capabilityHash capability) handoff)
    (hdrawn : (j, capability) ∈ w.drawn) : i = j := by
  obtain ⟨coin', capability', handoff', hlookup', hauth', hdrawn'⟩ := h.drawn horigin
  cases hlookup.symm.trans hlookup'
  obtain ⟨_, hhash, _⟩ := Signer.authorization_inj hcf (hauth.symm.trans hauth')
  rw [Signer.capabilityHash_inj hcf hhash] at hdrawn
  exact hsecret.wallet_eq hdrawn' hdrawn

/-- What others present never opens an authorization of the wallets. -/
theorem Secret.not_drawn (h : Secret w) (hcf : P.CollisionFree) {request : SignRequest P}
    (hrequest : request ∈ w.others) : ¬ w.DrawnAuthorization coinId (Signer.presented request) := by
  rintro ⟨_, handoff, hauth, entry, hentry, rfl⟩
  obtain ⟨_, hhash, _⟩ := Signer.authorization_inj hcf hauth
  exact h.unknown request hrequest entry hentry (Signer.capabilityHash_inj hcf hhash)

/-- The wallets can always open the authorization of a coin that one of them registered. -/
theorem Origin.drawnAuthorization (h : Origin w) (hcf : P.CollisionFree) (hinv : Inv w)
    (hsecret : Secret w) (hhonest : w.Honest coinId) {coin : Signer.Coin P}
    (hlookup : w.signer.coins.lookup coinId = some coin) :
    w.DrawnAuthorization coinId coin.authorization := by
  have hrec := @Signer.recorded_run P LIMIT w.calls coinId
  obtain ⟨request, hregistration, hcoin⟩ := hrec.of_lookup hlookup
  obtain ⟨request', first, hregistration', hfirst, hhash⟩ := hhonest.registered
  cases hregistration.symm.trans hregistration'
  have hlogId : ∀ entry ∈ w.log coinId, entry.1.coinId = coinId := fun _ => hrec.coinId_eq
  rw [hregistration] at hrec
  obtain ⟨hid, hchain, _⟩ := hrec
  rw [hcoin]
  have hinitial : w.DrawnAuthorization coinId (Signer.initialAuthorization request) :=
    ⟨_, initialHandoff, by rw [Signer.initialAuthorization, hid], first, hfirst, hhash⟩
  refine hchain.key_of_step hinitial fun entry hentry hdrawn => ?_
  rcases hinv.requested coinId entry hentry with hsent | hother
  · obtain ⟨a, ha, hrequest⟩ := List.mem_map.1 hsent
    rcases h.next a ha with hnext | ⟨request, hforged, hparse⟩
    · rw [hrequest] at hnext
      exact ⟨_, entry.2.nextHandoff, by rw [Signer.committed, hlogId entry hentry], hnext⟩
    · rw [hrequest, hlogId entry hentry] at hparse
      exact absurd hparse (hhonest.genuine request hforged)
  · exact absurd hdrawn (hsecret.not_drawn hcf hother)

/-- The capabilities of a wallet without a coin have not been used. -/
theorem Origin.unused (h : Origin w) (hcf : P.CollisionFree) (hinv : Inv w) (hsecret : Secret w)
    (hcoin : (w.mem j).coin = none) {capability : Capability} (hdrawn : (j, capability) ∈ w.drawn)
    (handoff : HandoffToken) : ∀ entry ∈ w.log coinId,
      Signer.presented entry.1 ≠ authorization coinId (capabilityHash capability) handoff := by
  intro entry hentry hauth
  rcases hinv.requested coinId entry hentry with hsent | hother
  · obtain ⟨a, ha, hrequest⟩ := List.mem_map.1 hsent
    obtain ⟨_, hhash, _⟩ := Signer.authorization_inj hcf hauth
    have hcurrent := h.current a ha
    rw [hrequest, Signer.capabilityHash_inj hcf hhash] at hcurrent
    have hwallet := hsecret.wallet_eq hcurrent hdrawn
    rcases (hinv.mem j).tracks a ha hwallet with ⟨pending, hsigning, _⟩ | hdone
    · obtain ⟨coin, hsome, _⟩ := (hinv.mem j).wallet.recovery pending (signing_eq_some.1 hsigning)
      rw [hcoin] at hsome
      cases hsome
    · rcases hdone.past with ⟨coin, hsome, _⟩ | ⟨⟨coin, hsome, _⟩, _⟩
      all_goals
        rw [hcoin] at hsome
        cases hsome
  · exact hsecret.not_drawn hcf hother ⟨_, handoff, hauth, _, hdrawn, rfl⟩

/-- A coin keeps its authorization as long as nothing is signed for it. -/
theorem Extends.authorization_eq (h : Extends w w') (hlog : w'.log coinId = w.log coinId)
    {coin : Signer.Coin P} (hlookup : w.signer.coins.lookup coinId = some coin) :
    ∃ coin', w'.signer.coins.lookup coinId = some coin' ∧
      coin'.authorization = coin.authorization := by
  obtain ⟨later, hlater⟩ := h.calls
  obtain ⟨coin', hlookup', _⟩ := Signer.signingKey_run hlookup later
  rw [signer, ← Signer.run_append, hlater] at hlookup'
  obtain ⟨request, hrequest, hcoin⟩ :=
    (@Signer.recorded_run P LIMIT w.calls coinId).of_lookup hlookup
  obtain ⟨request', hrequest', hcoin'⟩ :=
    (@Signer.recorded_run P LIMIT w'.calls coinId).of_lookup hlookup'
  rw [← hlater, Signer.registration_append, hrequest, Option.some_or] at hrequest'
  cases hrequest'
  have hsame : Signer.issuances coinId (Signer.new : Signer P LIMIT) w'.calls =
      Signer.issuances coinId (Signer.new : Signer P LIMIT) w.calls := hlog
  refine ⟨coin', hlookup', ?_⟩
  rw [hcoin', hcoin, hsame]
  rfl

variable [DecidableEq ι]

/-! ## Runs -/

/-- A wallet carries out an operation. -/
theorem StateOrigin.operate (h : StateOrigin w i (w.mem i)) (op : Operation P) :
    StateOrigin (w.operate i op) i ((w.mem i).after op) := by
  refine ⟨fun capability hc => ?_, fun request hrequest => ?_⟩
  · rcases draws_after (w.mem i) op capability hc with hold | hnew
    · exact List.mem_append_left _ (h.drawn capability hold)
    · refine List.mem_append_right _ ?_
      rw [hnew]
      exact List.mem_singleton_self _
  · by_cases hp : request ∈ w.published.map (·.request)
    · left
      exact List.map_subset _ (List.subset_append_left _ _) hp
    · right
      refine List.mem_append_right _ (List.mem_filter.2 ⟨?_, decide_eq_true hp⟩)
      rw [hrequest]
      exact List.mem_singleton_self _

/-- A wallet goes on with a funding through Bitcoin Core. -/
theorem StateOrigin.fundCore (h : StateOrigin w i (w.mem i)) {given : Option (CoinStatus P)}
    {drawn : Option Capability} (hfunds : CoreFunds (w.mem i) given drawn s) :
    StateOrigin (w.fundCore i drawn s) i s := by
  refine ⟨fun capability hc => ?_, fun request hrequest => ?_⟩
  · rcases hfunds.draws capability hc with hold | hnew
    · exact List.mem_append_left _ (h.drawn capability hold)
    · refine List.mem_append_right _ ?_
      rw [hnew]
      exact List.mem_singleton_self _
  · exact absurd hrequest (hfunds.pendingTransferRequest_ne request)

namespace Origin

/-- The wallet `i` goes to the state `s` in memory. -/
theorem setMem (h : Origin w) (i : ι) (hextends : Extends w w') (hs : StateOrigin w' i s)
    (hmem : w'.mem = Function.update w.mem i s) (j : ι) : StateOrigin w' j (w'.mem j) := by
  rw [hmem]
  by_cases hj : j = i
  · rw [hj, Function.update_self]
    exact hs
  · rw [Function.update_of_ne hj]
    exact (h.mem j).extend hextends

theorem save (h : Origin w) (i : ι) : Origin (w.save i) := by
  have hextends : Extends w (w.save i) := Step.extends (.save i)
  refine { mem := fun j => (h.mem j).extend hextends, disk := fun j => ?_,
           published := h.published, current := h.current, next := h.next }
  have hdisk : (w.save i).disk = Function.update w.disk i (w.mem i) := rfl
  rw [hdisk]
  by_cases hj : j = i
  · rw [hj, Function.update_self]
    exact (h.mem i).extend hextends
  · rw [Function.update_of_ne hj]
    exact (h.disk j).extend hextends

theorem step (h : Origin w) (htext : P.TextCodec) (hinv : Inv w) (hstep : Step w w') :
    Origin w' := by
  have hextends := hstep.extends
  cases hstep with
  | operate i op =>
    refine h.extend hextends (h.setMem i hextends ((h.mem i).operate op) rfl) rfl rfl
      fun incoming hincoming => ?_
    rcases List.mem_append.1 hincoming with hold | hnew
    · exact Or.inl hold
    · obtain ⟨hdrawn, hparse⟩ := Operation.published_hash htext (Option.mem_toList.1 hnew)
      refine Or.inr ⟨_, hparse, (i, incoming.capability), List.mem_append_right _ ?_, rfl⟩
      rw [hdrawn]
      exact List.mem_singleton_self _
  | fundCore i given drawn s funds =>
    exact h.extend hextends (h.setMem i hextends ((h.mem i).fundCore funds) rfl) rfl rfl
      fun _ => Or.inl
  | save i => exact h.save i
  | crash i =>
    exact h.extend hextends (h.setMem i hextends ((h.disk i).extend hextends) rfl) rfl rfl
      fun _ => Or.inl
  | send i request saved pending => exact h.send hinv i pending
  | deliver a =>
    exact h.extend hextends (fun j => (h.mem j).extend hextends) rfl rfl fun _ => Or.inl
  | reply i request response =>
    have hrecord := ((h.mem i).extend hextends).record response
    exact h.extend hextends (h.setMem i hextends hrecord rfl) rfl rfl fun _ => Or.inl
  | other call =>
    exact h.extend hextends (fun j => (h.mem j).extend hextends) rfl rfl fun _ => Or.inl

end Origin

/-- The wallets drew their capabilities, in every run. -/
theorem Reachable.origin (hsecret : P.SecretCodec) (htext : P.TextCodec) (h : Reachable w)
    (hfresh : Fresh w) : Origin w := by
  induction h with
  | refl => exact .init
  | tail hsteps hstep ih =>
    have hfresh' := hstep.extends.fresh hfresh
    exact (ih hfresh').step htext (Reachable.inv hsecret hsteps hfresh') hstep

/-! ## New signatures -/

namespace Issues

/-- A new signature answers a request that a wallet sent, or one of somebody else. -/
theorem call (h : Issues w w' coinId entry) : ∃ call, w'.calls = w.calls ++ [call] ∧
    Signer.issued w.signer call = some entry ∧ entry.1.coinId = coinId ∧
    ((∃ a ∈ w.sent, a.request = entry.1) ∨ entry.1 ∈ w'.others) := by
  obtain ⟨hstep, hlog⟩ := h
  have hnew : ∀ call, w'.calls = w.calls ++ [call] →
      Signer.issued w.signer call = some entry ∧ entry.1.coinId = coinId := by
    intro call hcalls
    rw [World.log, World.log, hcalls, Signer.issuances_concat] at hlog
    have hissued : entry ∈ Signer.issuedCoin coinId w.signer call := by
      have hsame : Signer.issuedCoin coinId w.signer call = [entry] := List.append_cancel_left hlog
      rw [hsame]
      exact List.mem_singleton_self entry
    obtain ⟨hmem, hid⟩ := List.mem_filter.1 hissued
    exact ⟨Option.mem_toList.1 hmem, of_decide_eq_true hid⟩
  have hold : w'.calls ≠ w.calls := by
    intro hcalls
    rw [World.log, World.log, hcalls] at hlog
    exact absurd (List.self_eq_append_right.1 hlog) (List.cons_ne_nil _ _)
  cases hstep with
  | deliver a draws sent =>
    obtain ⟨hissued, hid⟩ := hnew _ rfl
    obtain ⟨hrequest, _⟩ := Signer.issued_eq_some.1 hissued
    exact ⟨_, rfl, hissued, hid, Or.inl ⟨a, sent, Request.sign.inj hrequest⟩⟩
  | other call =>
    obtain ⟨hissued, hid⟩ := hnew _ rfl
    obtain ⟨hrequest, _⟩ := Signer.issued_eq_some.1 hissued
    refine ⟨_, rfl, hissued, hid, Or.inr (List.mem_append_right _ ?_)⟩
    rw [hrequest]
    exact List.mem_singleton_self _
  | _ => exact absurd rfl hold

/-- A new signature is issued to who presents the authorization of the coin. -/
theorem presented (h : Issues w w' coinId entry) : ∃ coin,
    w.signer.coins.lookup coinId = some coin ∧
      Signer.presented entry.1 = coin.authorization := by
  obtain ⟨call, _, hissued, hid, _⟩ := h.call
  obtain ⟨_, coin, hlookup, _, hauth, _⟩ := Signer.issued_eq_some.1 hissued
  exact ⟨coin, hid ▸ hlookup, hauth⟩

/-- A wallet whose request is newly signed has it in its saved journal and owns the coin. -/
theorem owner (h : Issues w w' coinId entry) (hcf : P.CollisionFree) (hinv : Inv w)
    (hfresh : Fresh w') {a : Sent ι P} (ha : a ∈ w.sent) (hrequest : a.request = entry.1) :
    w.Owns a.wallet coinId ∧ w.Journaled a.wallet entry.1 := by
  obtain ⟨_, _, _, hid, _⟩ := h.call
  rcases (hinv.disk a.wallet).tracks a ha rfl with ⟨pending, hsigning, hsame⟩ | hdone
  · rw [hrequest] at hsame
    obtain ⟨coin, hlookup, hauth⟩ := h.presented
    have hheld := (hinv.disk a.wallet).wallet.held_of_signing hsigning
    rw [hsame] at hheld
    exact ⟨⟨_, coin, hheld, hid, hlookup, hauth⟩, pending, hsigning, hsame⟩
  · -- a request that was answered is not signed anew
    obtain ⟨response, hreplied⟩ := hdone.answered
    have hlog := hinv.replied _ hreplied
    rw [hrequest, hid] at hlog
    have hnodup := (@Signer.recorded_run P LIMIT w'.calls coinId).presented_nodup hcf
      (hfresh coinId)
    have happend : Signer.issuances coinId (Signer.new : Signer P LIMIT) w'.calls =
        w.log coinId ++ [entry] := h.log
    rw [happend, List.map_append] at hnodup
    have hmem : Signer.presented entry.1 ∈
        (w.log coinId).map fun entry => Signer.presented entry.1 := List.mem_map.2 ⟨_, hlog, rfl⟩
    exact absurd rfl ((List.nodup_append.1 hnodup).2.2 _ hmem _ (List.mem_singleton_self _))

end Issues

/-- Only the owner gets a new signature. -/
theorem Issues.owned (h : Issues w w' coinId entry) (hcf : P.CollisionFree) (hinv : Inv w)
    (horigin : Origin w) (hfresh : Fresh w') (hsecret : Secret w') (hhonest : w.Honest coinId) :
    ∃ i, w.Owns i coinId ∧ w.Journaled i entry.1 := by
  have hextends := h.step.extends
  obtain ⟨_, _, _, _, ⟨a, ha, hrequest⟩ | hother⟩ := h.call
  · exact ⟨a.wallet, h.owner hcf hinv hfresh ha hrequest⟩
  · obtain ⟨coin, hlookup, hauth⟩ := h.presented
    obtain ⟨hash, handoff, hsame, hdrawn⟩ :=
      horigin.drawnAuthorization hcf hinv (hextends.secret hsecret) hhonest hlookup
    exact absurd ⟨hash, handoff, hauth.trans hsame, hdrawn.extend hextends⟩
      (hsecret.not_drawn hcf hother)

/-! ## The sender -/

/-- A wallet that saved that it has handed on its coin has done so for ever. -/
theorem Step.transferred (h : Step w w') (hinv : Inv w) (ht : (w.disk i).Transferred) :
    (w'.disk i).Transferred := by
  cases h with
  | save j =>
    have hdisk : (w.save j).disk = Function.update w.disk j (w.mem j) := rfl
    rw [hdisk]
    by_cases hi : i = j
    · rw [hi, Function.update_self]
      rw [hi] at ht
      exact ht.evolves (hinv.follows j)
    · rw [Function.update_of_ne hi]
      exact ht
  | _ => exact ht

theorem Steps.transferred (hcodec : P.SecretCodec) (h : Reachable w) (hsteps : Steps w w')
    (hfresh : Fresh w') (ht : (w.disk i).Transferred) : (w'.disk i).Transferred := by
  induction hsteps with
  | refl => exact ht
  | tail hsteps hstep ih =>
    have hfresh' := hstep.extends.fresh hfresh
    exact hstep.transferred (Reachable.inv hcodec (h.trans hsteps) hfresh') (ih hfresh')

/-- A wallet that has handed on its coin gets no new signature. -/
theorem Issues.not_transferred (h : Issues w w' coinId entry) (hcf : P.CollisionFree)
    (hinv : Inv w) (hfresh : Fresh w') (ht : (w.disk i).Transferred) :
    ¬ w.Owns i coinId ∧ ∀ a ∈ w.sent, a.wallet = i → a.request ≠ entry.1 := by
  have hnot : ¬ w.Owns i coinId := by
    rintro ⟨held, _, hheld, _⟩
    rw [ht.held_eq_none (hinv.disk i).wallet] at hheld
    cases hheld
  refine ⟨hnot, fun a ha hi hrequest => hnot ?_⟩
  rw [← hi]
  exact (h.owner hcf hinv hfresh ha hrequest).1

/-! ## The receiver -/

/-- After an acceptance the coin is the receiver's until a signature is issued for it. -/
theorem Reachable.accepted (h : Reachable w) (hcodec : P.SecretCodec) (htext : P.TextCodec)
    (hcf : P.CollisionFree) (hextends : Extends w w') (hfresh : Fresh w') (hsecret : Secret w')
    (hcoin : (w.mem j).coin = none)
    {capability : Capability} (hcapability : capability ∈ (w.mem j).capabilities)
    {status : CoinStatus P} {handoff : HandoffToken} (hauth : status.authorization =
      authorization status.coinId (capabilityHash capability) handoff)
    (hreported : Signer.Reported LIMIT w.calls status)
    (hlog : w'.log status.coinId = w.log status.coinId) :
    (j, capability) ∈ w'.drawn ∧ ∃ coin, w'.signer.coins.lookup status.coinId = some coin ∧
      coin.authorization = authorization status.coinId (capabilityHash capability) handoff := by
  have hfresh' := hextends.fresh hfresh
  have hinv := h.inv hcodec hfresh'
  have horigin := h.origin hcodec htext hfresh'
  have hdrawn := (horigin.mem j).drawn capability hcapability
  have hunused : ∀ entry ∈ w.log status.coinId,
      Signer.presented entry.1 ≠ status.authorization := by
    rw [hauth]
    exact horigin.unused hcf hinv (hextends.secret hsecret) hcoin hdrawn handoff
  obtain ⟨coin, hlookup, hsame⟩ := hreported.current hunused
  obtain ⟨coin', hlookup', hsame'⟩ := hextends.authorization_eq hlog hlookup
  exact ⟨hextends.drawn.subset hdrawn, coin', hlookup', by rw [hsame', hsame, hauth]⟩

/-! ## The result -/

/-- A coin never has two owners, and every new signature is asked for in the journal of its owner.
The sender of a completed transfer gets none any more, and the receiver gets the next one. -/
theorem unique_ownership (hcodec : P.SecretCodec) (htext : P.TextCodec) (hcf : P.CollisionFree)
    (h : Reachable w) (hfresh : Fresh w) (hsecret : Secret w) (coinId : CoinId) :
    OwnedOnce w coinId := by
  have hinv := h.inv hcodec hfresh
  have horigin := h.origin hcodec htext hfresh
  refine { unique := ?_, issued := ?_, sender := ?_, receiver := ?_ }
  · intro i j hi hj
    obtain ⟨coin, capability, handoff, hlookup, hauth, hdrawn⟩ := hj.drawn horigin
    exact hi.eq horigin hcf hsecret hlookup hauth hdrawn
  · intro w' entry hissues hfresh' hsecret' hhonest
    exact hissues.owned hcf hinv horigin hfresh' hsecret' hhonest
  · intro i draws status s envelope hcomplete w' w'' entry hsteps hissues hfresh''
    have hfresh' := hissues.step.extends.fresh hfresh''
    have htransferred := WalletState.completeTransfer_transferred hcomplete
    exact hissues.not_transferred hcf (Reachable.inv hcodec (h.trans hsteps) hfresh') hfresh''
      (Steps.transferred hcodec h hsteps hfresh' htransferred)
  · intro j reader network request envelope status observed minimumConfirmations
      minimumReactionBlocks s haccept hid hreported w' hsteps hlog hfresh' hsecret'
    subst hid
    obtain ⟨hcoin, capability, handoff, hcapability, hauth⟩ :=
      WalletState.acceptTransfer_authorization haccept
    have hstep : Step w (w.operate j (.acceptTransfer reader network request envelope status
        observed minimumConfirmations minimumReactionBlocks)) := by
      refine .operate j _ rfl ?_
      rintro _ ⟨⟩
      exact hreported
    have hreach : Reachable w' := .trans (.tail h hstep) hsteps
    obtain ⟨hdrawn, coin, hlookup, hsame⟩ := h.accepted hcodec htext hcf
      (hstep.extends.trans hsteps.extends) hfresh' hsecret' hcoin hcapability hauth hreported hlog
    have hinv' := hreach.inv hcodec hfresh'
    have horigin' := hreach.origin hcodec htext hfresh'
    have hunique : ∀ i, w'.Owns i status.coinId → i = j := fun i howns =>
      howns.eq horigin' hcf hsecret' hlookup hsame hdrawn
    refine ⟨hunique, fun w'' entry hissues hfresh'' hsecret'' hhonest => ?_⟩
    obtain ⟨i, howns, hjournaled⟩ := hissues.owned hcf hinv' horigin' hfresh'' hsecret'' hhonest
    obtain rfl := hunique i howns
    exact ⟨howns, hjournaled⟩

section Demo

open Symbolic

/-- The status that the signer reports after the first signature. -/
def securedStatus : CoinStatus platform := liveStatus (bytes 4) (bytes 11) 1

/-- The first wallet has the answer and completes its first recovery. -/
def secured : World Bool platform 1 :=
  ((answered.reply false firstIssuance.2).operate false
    (.completeFundingRecovery securedStatus)).save false

/-- The second wallet has asked for the coin, and the first one has saved its request for the next
recovery. -/
def journaled : World Bool platform 1 :=
  let funded := secured.operate false (.markFundingBroadcast (18 : Nat))
  let published := funded.operate true (.beginTransferRequest requestDraws .regtest (bytes 1)
    fundedMetadata.outpoint 1000 10)
  let begun := published.operate false (.beginTransfer .regtest received.request securedStatus
    (seen 3) 1 10)
  begun.save false

/-- The request is sent. -/
def requested : World Bool platform 1 := journaled.send false transferRequest

/-- The request is signed. -/
def handed : World Bool platform 1 := requested.deliver transferRequest ⟨bytes 13, bytes 12⟩

def secondIssuance : Signer.Issuance platform := (transferRequest, transferResponse)

/-- The status that the signer reports after the second signature. -/
def handedStatus : CoinStatus platform := liveStatus (bytes 20) (bytes 12) 2

/-- The first wallet has completed the transfer. -/
def completed : World Bool platform 1 :=
  ((handed.reply false transferResponse).operate false
    (.completeTransfer ⟨bytes 24, List.Vector.replicate 24 0⟩ handedStatus)).save false

/-- The second wallet has accepted the transfer. -/
noncomputable def taken (envelope : TransferEnvelope) : World Bool platform 1 :=
  (completed.operate true (.acceptTransfer writtenReader .regtest received.request envelope
    handedStatus (seen 5) 1 10)).save true

theorem reported_secured : Signer.Reported 1 answered.calls securedStatus :=
  ⟨_, List.prefix_rfl, by decide +kernel⟩

theorem reachable_secured : Reachable secured := by
  have hreplied : (fundingRequest, firstIssuance.2) ∈ answered.replies := by
    decide +kernel
  have hreply := (reachable_asked.tail step_answered).tail
    (.reply false fundingRequest firstIssuance.2 pending_savedRequest hreplied)
  have hcompleted := hreply.tail
    (.operate false (.completeFundingRecovery securedStatus) rfl (by
      rintro _ ⟨⟩
      exact reported_secured))
  exact hcompleted.tail (.save false)

theorem mem_secured : secured.mem false = empty.run funding ∧ secured.mem true = empty := by
  have hresponse : firstIssuance.2 = fundingResponse := rfl
  constructor
  · simp [secured, answered, asked, savedRequest, securedStatus, funding, preparing, registering,
      hresponse]
  · simp [secured, answered, asked, savedRequest]

theorem mem_journaled {coin : WalletCoin platform} {s₁ : WalletState platform}
    (h : Begun coin s₁) : journaled.mem false = s₁ := by
  have hmem : journaled.mem false = (empty.run broadcasting).after
      (.beginTransfer .regtest received.request securedStatus (seen 3) 1 10) := by
    simp [journaled, broadcasting, mem_secured.1]
  have hbegun : beginTransfer .regtest received.request securedStatus (seen 3) 1 10
    (empty.run broadcasting) = .ok transferRequest s₁ := h.begun
  rw [hmem, WalletState.after, Update.stateAfter, hbegun]

theorem pending_journaled : (journaled.mem false).pendingSignRequest = .ok transferRequest := by
  obtain ⟨coin, s₁, hbegun⟩ := beginTransfer_broadcasting
  rw [mem_journaled hbegun]
  exact pendingSignRequest_eq_ok.2 ⟨_, signing_eq_some.2 hbegun.pending, rfl⟩

theorem reachable_requested : Reachable requested := by
  have hfunded := reachable_secured.tail (.operate false (.markFundingBroadcast (18 : Nat)) rfl nofun)
  have hpublished := hfunded.tail (.operate true (.beginTransferRequest requestDraws .regtest
    (bytes 1) fundedMetadata.outpoint 1000 10) rfl nofun)
  have hbegun := hpublished.tail (.operate false (.beginTransfer .regtest received.request
    securedStatus (seen 3) 1 10) rfl (by
      rintro _ ⟨⟩
      exact reported_secured))
  have hjournaled : Reachable journaled := hbegun.tail (.save false)
  have hsaved : journaled.mem false = journaled.disk false := by simp [journaled]
  exact hjournaled.tail (.send false transferRequest hsaved pending_journaled)

/-- What the signer is called with until the second signature. -/
def transferCalls : List (Signer.Call platform) :=
  [⟨.register ⟨bytes 1, capabilityHash (bytes 3)⟩, ⟨bytes 9, bytes 10⟩⟩,
    ⟨.sign fundingRequest, ⟨bytes 12, bytes 11⟩⟩, ⟨.sign transferRequest, ⟨bytes 13, bytes 12⟩⟩]

theorem calls_handed : handed.calls = transferCalls := rfl

theorem calls_completed : completed.calls = transferCalls := by
  simp [completed, calls_handed]

theorem calls_taken (envelope : TransferEnvelope) : (taken envelope).calls = transferCalls := by
  simp [taken, calls_completed]

theorem reported_handed : Signer.Reported 1 transferCalls handedStatus :=
  ⟨_, List.prefix_rfl, by decide +kernel⟩

theorem step_handed : Step requested handed := by
  obtain ⟨a, ha, hrequest⟩ : ∃ a ∈ requested.sent, a.request = transferRequest :=
    ⟨_, List.mem_append_right _ (List.mem_singleton_self _), rfl⟩
  have hstep := Step.deliver a ⟨bytes 13, bytes 12⟩ ha
  rw [hrequest] at hstep
  exact hstep

theorem steps_completed : Steps handed completed := by
  have hanswer : (transferRequest, transferResponse) ∈
      answer ((Signer.new : Signer platform 1).run (transferCalls.take 2)) ⟨bytes 13, bytes 12⟩
        transferRequest := by decide +kernel
  have hreply : Steps handed (handed.reply false transferResponse) :=
    .tail .refl (.reply false transferRequest transferResponse pending_journaled
      (List.mem_append_right _ hanswer))
  have hcompleted := hreply.tail (.operate false (.completeTransfer
    ⟨bytes 24, List.Vector.replicate 24 0⟩ handedStatus) rfl (by
      rintro _ ⟨⟩
      exact reported_handed))
  exact hcompleted.tail (.save false)

/-- What the two wallets of the transfer save. -/
structure Handover (coin : WalletCoin platform) (envelope : TransferEnvelope) (requestId : Bytes32) :
    Prop where
  begun : ∃ s₁, Begun coin s₁
  sender : ∃ s₂, s₂.coin = some coin ∧ completeTransfer ⟨bytes 24, List.Vector.replicate 24 0⟩
    handedStatus s₂ = .ok envelope (completed.disk false)
  accepted : WalletState.acceptTransfer writtenReader .regtest received.request envelope handedStatus
    (seen 5) 1 10 (completed.mem true) = .ok true ((taken envelope).mem true)
  receiver : (taken envelope).mem true = { empty.run receiving with
    coin := some (receivedCoin coin fundedMetadata requestId secondRecovery transferResponse
      received envelope)
    incoming := none }

theorem exists_handover : ∃ coin envelope requestId, Handover coin envelope requestId := by
  obtain ⟨coin, s₁, s₂, envelope, s₃, hbegun, hrecord, hcomplete⟩ := completeTransfer_broadcasting
  have hmargin : 5 + max 10 10 < 90 := by decide
  obtain ⟨requestId, haccept⟩ := acceptTransfer_broadcasting hbegun hrecord hcomplete hmargin
  have hsender : completed.disk false = s₃ := by
    have hrecorded : s₁.after (.recordSignResponse transferResponse) = s₂ := by
      rw [WalletState.after, Update.stateAfter, hrecord]
    have hdisk : completed.disk false =
        s₂.after (.completeTransfer ⟨bytes 24, List.Vector.replicate 24 0⟩ handedStatus) := by
      simp [completed, handed, requested, mem_journaled hbegun, hrecorded]
    rw [hdisk, WalletState.after, Update.stateAfter, handedStatus, hcomplete]
  have hidle : completed.mem true = empty.run receiving := by
    simp [completed, handed, requested, journaled, receiving, mem_secured.2]
  have hreceiver : (taken envelope).mem true = { empty.run receiving with
      coin := some (receivedCoin coin fundedMetadata requestId secondRecovery transferResponse
        received envelope)
      incoming := none } := by
    have hmem : (taken envelope).mem true = (empty.run receiving).after (.acceptTransfer writtenReader
        .regtest received.request envelope handedStatus (seen 5) 1 10) := by
      simp [taken, hidle]
    rw [hmem, WalletState.after, Update.stateAfter, handedStatus, haccept]
  have hkept : s₂.coin = some coin := by
    obtain ⟨_, _, ⟨_, hs₂⟩ | ⟨_, hs₂⟩⟩ := recordSignResponse_ok.1 hrecord
    all_goals
      rw [hs₂]
      exact hbegun.kept
  refine ⟨coin, envelope, requestId, ⟨s₁, hbegun⟩, ⟨s₂, hkept, hsender ▸ hcomplete⟩, ?_, hreceiver⟩
  rw [hreceiver, hidle]
  exact haccept

variable {envelope : TransferEnvelope}

theorem steps_taken : Steps completed (taken envelope) := by
  have haccepted : Steps completed (completed.operate true (.acceptTransfer writtenReader .regtest
      received.request envelope handedStatus (seen 5) 1 10)) :=
    .tail .refl (.operate true _ rfl (by
      rintro _ ⟨⟩
      rw [calls_completed]
      exact reported_handed))
  exact haccepted.tail (.save true)

theorem reachable_completed : Reachable completed :=
  (reachable_requested.tail step_handed).trans steps_completed

theorem log_handed : handed.log (bytes 1) = [firstIssuance, secondIssuance] := by
  rw [log, calls_handed]
  decide +kernel

theorem log_taken (coinId : CoinId) : (taken envelope).log coinId = handed.log coinId := by
  rw [log, log, calls_taken, calls_handed]

theorem fresh_taken : Fresh (taken envelope) := by
  have hkeys : ((Signer.new : Signer platform 1).run transferCalls).coins.keys = [bytes 1] := by
    decide +kernel
  have hnodup : [initialHandoff, bytes 11, bytes 12].Nodup := by decide
  refine fresh_of_log (by rw [signer, calls_taken]; exact hkeys) ?_
  rw [log_taken, log_handed]
  exact hnodup

theorem secret_taken : Secret (taken envelope) where
  distinct := by
    have hdrawn : (taken envelope).drawn.map (·.2) = [bytes 3, bytes 4, bytes 20] := rfl
    rw [hdrawn]
    decide
  unknown := fun _ h => absurd h List.not_mem_nil

theorem issues_handed : Issues requested handed (bytes 1) secondIssuance where
  step := step_handed
  log := by
    have hlog : requested.log (bytes 1) = [firstIssuance] := by decide +kernel
    rw [log_handed, hlog]
    rfl

theorem unpublished_eq_nil {published : List IncomingTransfer} {s : WalletState platform}
    (h : ∀ request, s.pendingTransferRequest = .ok request → request ∈ published.map (·.request)) :
    unpublished published s = [] := by
  unfold unpublished
  cases hrequest : s.pendingTransferRequest with
  | error => rfl
  | ok request =>
    refine List.filter_eq_nil_iff.2 fun request' hmem => ?_
    obtain rfl : request' = request := List.mem_singleton.1 hmem
    rw [decide_eq_true_eq, not_not]
    exact h request' hrequest

/-- The first wallet hands its coin on to the second one. -/
theorem forged_requested : requested.forged = [] := by
  obtain ⟨coin, s₁, hbegun⟩ := beginTransfer_broadcasting
  have hsecured : secured.forged = [] := by decide +kernel
  have hfunded : unpublished secured.published
      ((secured.mem false).after (.markFundingBroadcast (18 : Nat))) = [] := by
    rw [mem_secured.1, ← run_concat]
    refine unpublished_eq_nil fun request hrequest => ?_
    obtain ⟨stage, hpending⟩ := pendingTransferRequest_eq_ok.1 hrequest
    cases coin_broadcasting.1.symm.trans hpending
  have hpublished : unpublished secured.published (empty.run receiving) = [] := by
    refine unpublished_eq_nil fun request hrequest => ?_
    obtain ⟨stage, hpending⟩ := pendingTransferRequest_eq_ok.1 hrequest
    have hr := (WalletInv.reachable secretCodec receiving).incoming received incoming_receiving
    cases hr.2.1.symm.trans hpending
  have hbegin : unpublished [received] s₁ = [] := by
    refine unpublished_eq_nil fun request hrequest => ?_
    obtain ⟨stage, hpending⟩ := pendingTransferRequest_eq_ok.1 hrequest
    cases hbegun.pending.symm.trans hpending
    exact List.mem_singleton_self _
  have hforged : requested.forged = ((secured.forged ++ unpublished secured.published
      ((secured.mem false).after (.markFundingBroadcast (18 : Nat)))) ++
      unpublished secured.published (journaled.mem true)) ++
      unpublished [received] (journaled.mem false) := rfl
  have hreceiving : journaled.mem true = empty.run receiving := by
    simp [journaled, receiving, mem_secured.2]
  rw [hforged, hsecured, hfunded, hreceiving, hpublished, mem_journaled hbegun, hbegin]
  rfl

theorem registration_transferCalls :
    Signer.registration (bytes 1) (Signer.new : Signer platform 1) transferCalls =
      some ⟨bytes 1, capabilityHash (bytes 3)⟩ := by
  decide +kernel

theorem honest_requested : requested.Honest (bytes 1) where
  registered := by
    have hregistration : Signer.registration (bytes 1) (Signer.new : Signer platform 1)
        (transferCalls.take 2) = some ⟨bytes 1, capabilityHash (bytes 3)⟩ := by decide +kernel
    exact ⟨_, (false, bytes 3), hregistration, List.mem_cons_self, rfl⟩
  genuine := by
    rw [forged_requested]
    exact fun _ h => absurd h List.not_mem_nil

theorem Handover.honest {coin : WalletCoin platform} {requestId : Bytes32}
    (h : Handover coin envelope requestId) : (taken envelope).Honest (bytes 1) where
  registered := by
    rw [calls_taken]
    exact ⟨_, (false, bytes 3), registration_transferCalls, List.mem_cons_self, rfl⟩
  genuine := by
    have hsender : unpublished [received] (completed.mem false) = [] := by
      obtain ⟨s₂, _, hcomplete⟩ := h.sender
      obtain ⟨_, _, _, _, _, _, _, _, _, _, _, _, _, _, _, _, _, _, _, _, _, _, hsame⟩ :=
        completeTransfer_ok.1 hcomplete
      have hmem : completed.mem false = completed.disk false := by simp [completed]
      refine unpublished_eq_nil fun request hrequest => ?_
      obtain ⟨stage, hpending⟩ := pendingTransferRequest_eq_ok.1 hrequest
      rw [hmem, hsame] at hpending
      cases hpending
    have hreceiver : unpublished [received] ((taken envelope).mem true) = [] := by
      refine unpublished_eq_nil fun request hrequest => ?_
      obtain ⟨stage, hpending⟩ := pendingTransferRequest_eq_ok.1 hrequest
      rw [h.receiver] at hpending
      have hr := (WalletInv.reachable secretCodec receiving).incoming received incoming_receiving
      cases hr.2.1.symm.trans hpending
    have hforged : (taken envelope).forged = (requested.forged ++
        unpublished [received] (completed.mem false)) ++
          unpublished [received] ((taken envelope).mem true) := rfl
    rw [hforged, forged_requested, hsender, hreceiver]
    exact fun _ h => absurd h List.not_mem_nil

theorem Handover.owns {coin : WalletCoin platform} {requestId : Bytes32}
    (h : Handover coin envelope requestId) : (taken envelope).Owns true (bytes 1) := by
  have hauth : (((Signer.new : Signer platform 1).run transferCalls).coins.lookup (bytes 1)).map
      (·.authorization) = some (Held.authorization (P := platform) ⟨bytes 1, bytes 20, bytes 12⟩) := by
    decide +kernel
  obtain ⟨record, hlookup, hrecord⟩ := Option.map_eq_some_iff.1 hauth
  have hheld : ((taken envelope).disk true).held = some ⟨bytes 1, bytes 20, bytes 12⟩ := by
    have hdisk : (taken envelope).disk true = (taken envelope).mem true := by simp [taken]
    rw [hdisk, h.receiver]
    rfl
  exact ⟨_, record, hheld, rfl, by rw [signer, calls_taken]; exact hlookup, hrecord.symm⟩

/-- A coin that is handed on. -/
theorem unique_ownership_taken : ∃ envelope, Steps completed (taken envelope) ∧
    (∃ i, requested.Owns i (bytes 1) ∧ requested.Journaled i secondIssuance.1) ∧
    (∀ w' w'' entry, Steps completed w' → Issues w' w'' (bytes 1) entry → Fresh w'' →
      ¬ w'.Owns false (bytes 1) ∧ ∀ a ∈ w'.sent, a.wallet = false → a.request ≠ entry.1) ∧
    (taken envelope).Owns true (bytes 1) ∧ (∀ i, (taken envelope).Owns i (bytes 1) → i = true) ∧
    ∀ w'' entry, Issues (taken envelope) w'' (bytes 1) entry → Fresh w'' → Secret w'' →
      (taken envelope).Journaled true entry.1 := by
  obtain ⟨coin, envelope, requestId, h⟩ := exists_handover
  have htaken : Extends completed (taken envelope) := steps_taken.extends
  have hhanded : Extends handed (taken envelope) := steps_completed.extends.trans htaken
  have hrequested := step_handed.extends.trans hhanded
  have hissued := (unique_ownership secretCodec textCodec collisionFree reachable_requested
    (hrequested.fresh fresh_taken) (hrequested.secret secret_taken) (bytes 1)).issued handed
      secondIssuance issues_handed (hhanded.fresh fresh_taken) (hhanded.secret secret_taken)
      honest_requested
  have hcompleted := unique_ownership secretCodec textCodec collisionFree reachable_completed
    (htaken.fresh fresh_taken) (htaken.secret secret_taken) (bytes 1)
  obtain ⟨s₂, _, hsender⟩ := h.sender
  have hreported : Signer.Reported 1 completed.calls handedStatus := by
    rw [calls_completed]
    exact reported_handed
  have hlog : (taken envelope).log (bytes 1) = completed.log (bytes 1) := by
    rw [log, log, calls_taken, calls_completed]
  obtain ⟨hunique, hnext⟩ := hcompleted.receiver true writtenReader .regtest received.request envelope
    handedStatus (seen 5) 1 10 _ h.accepted rfl hreported (taken envelope)
    (.tail .refl (.save true)) hlog fresh_taken secret_taken
  exact ⟨envelope, steps_taken, hissued, hcompleted.sender false _ _ _ envelope hsender, h.owns,
    hunique, fun w'' entry hissues hfresh'' hsecret'' =>
      (hnext w'' entry hissues hfresh'' hsecret'' h.honest).2⟩

end Demo

end World

end Tinylayer
