import Tinylayer.Native.Proofs.SubmissionProofs
import Tinylayer.Native.Proofs.UsableProofs

/-!
# Proofs: an explorer that goes on answering

An explorer that answers all requests, truthfully, about a chain that only grows, on which the funding
output of a coin stays unspent. Through it the wallet can always exit its secured recovery.
-/

namespace Tinylayer

open Durable Inquiry

variable {P : Platform} {B : ChainPlatform P} {blocks : Blocks B} {S : Type}

/-- The server answers every request for something that is there, and what it answers is right. The
chain only grows as long as nothing is submitted. -/
structure SteadyExplorer (server : S → (query : ExplorerQuery P) → query.Reply B × S)
    (ledger : S → Ledger.View blocks) (view : S → Prop) : Prop where
  keeps : ∀ s request, view s → view (server s (.get request)).2
  grows : ∀ s request, view s →
    (ledger s).chain <+: (ledger (server s (.get request)).2).chain
  answers : ∀ s request, view s → ∃ answer, (server s (.get request)).1 = .ok answer ∧
    (∀ found, answer = some found → request.Truth (ledger (server s (.get request)).2) found) ∧
    (answer = none → request.Unknown (ledger (server s (.get request)).2))
  plain : ∀ s outpoint found, view s →
    (server s (.get (.outspend outpoint))).1 = .ok (some found) → found.spent = false →
    found.txid = none

/-- What the rules of Bitcoin keep true of a ledger: a transaction id is in one place, and if a known
transaction spends an output of another one, this one is known as well. -/
structure ValidLedger (view : Ledger.View blocks) : Prop where
  once : ∀ {transaction transaction' : P.Tx} {status status' : ExplorerTxStatus B},
    status.Describes view transaction → status'.Describes view transaction' →
    P.computeTxid transaction = P.computeTxid transaction' → status = status'
  closed : ∀ {transaction parent : P.Tx} {vout : Nat}, view.Knows transaction →
    ⟨P.computeTxid parent, vout⟩ ∈ spentOutputs transaction →
    ∃ known, view.Knows known ∧ P.computeTxid known = P.computeTxid parent

/-- The chain of the wallet's network, on which the funding output of the coin is unspent and at
least this deep. -/
structure FundingKept (network : NetworkId) (metadata : CoinMetadata P) (depth : Nat)
    (view : Ledger.View blocks) : Prop where
  valid : ValidLedger view
  height : view.tip < u32Max
  genesis : view.chain[0]? = some (B.genesisHash network)
  checkpoint : network = .mutinynet → ∃ hash, view.chain[1]? = some hash ∧
    B.blockHashFromStr Explorer.mutinynetCheckpointHash = some hash
  held : ∃ transaction height hash, view.Holds height hash transaction ∧
    Makes transaction metadata.outpoint
      { value := metadata.amountSat, scriptPubkey := fundingScript metadata.keys } ∧
    height + depth ≤ view.tip + 1 ∧
    (isCoinbase transaction = false ∨ height + 100 ≤ view.tip + 1)
  unspent : Unspent view metadata.outpoint

/-! ## Requests -/

/-- A later state of the server. -/
structure Grown (ledger : S → Ledger.View blocks) (view : S → Prop) (s s' : S) : Prop where
  view : view s'
  grows : (ledger s).chain <+: (ledger s').chain

variable {server : S → (query : ExplorerQuery P) → query.Reply B × S}
  {ledger : S → Ledger.View blocks} {view : S → Prop} {s s' : S}

theorem Grown.refl (h : view s) : Grown ledger view s s := ⟨h, List.prefix_rfl⟩

theorem Grown.trans {s'' : S} (h : Grown ledger view s s') (h' : Grown ledger view s' s'') :
    Grown ledger view s s'' := ⟨h'.view, h.grows.trans h'.grows⟩

theorem Grown.tip_le (h : Grown ledger view s s') : (ledger s).tip ≤ (ledger s').tip :=
  Nat.sub_le_sub_right h.grows.length_le 1

/-- What was in a block stays in it. -/
theorem Grown.holds (h : Grown ledger view s s') {height : Nat} {hash : B.BlockHash}
    {transaction : P.Tx} (hholds : (ledger s).Holds height hash transaction) :
    (ledger s').Holds height hash transaction := by
  refine ⟨?_, hholds.2⟩
  obtain ⟨rest, hrest⟩ := h.grows
  rw [← hrest, List.getElem?_append_left (List.getElem?_eq_some_iff.1 hholds.1).1]
  exact hholds.1

namespace Explorer

variable (hserver : SteadyExplorer server ledger view)
include hserver

theorem getOptional_yields (hs : view s) (request : ExplorerGet P) :
    Yields server (fun answer s' => Grown ledger view s s' ∧
      (∀ found, answer = some found → request.Truth (ledger s') found) ∧
      (answer = none → request.Unknown (ledger s'))) (getOptional request) s := by
  obtain ⟨answer, hreply, htruth⟩ := hserver.answers s request hs
  refine ⟨answer, (server s (.get request)).2, ?_, ⟨hserver.keeps s request hs,
    hserver.grows s request hs⟩, htruth⟩
  change (Inquiry.eval server (Program.of (server s (.get request)).1) _) = _
  rw [hreply]
  rfl

/-- A request for something that will be there is answered. -/
theorem get_yields (hs : view s) {request : ExplorerGet P}
    (hthere : ∀ s', Grown ledger view s s' → ¬ request.Unknown (ledger s')) :
    Yields server (fun found s' => Grown ledger view s s' ∧ request.Truth (ledger s') found)
      (get request) s := by
  refine (getOptional_yields hserver hs request).bind fun answer s' h => ?_
  cases answer with
  | none => exact absurd (h.2.2 rfl) (hthere s' h.1)
  | some found => exact .of rfl ⟨h.1, h.2.1 found rfl⟩

theorem tipHeight_yields (hs : view s) :
    Yields server (fun height s' => Grown ledger view s s' ∧ height = (ledger s').tip) tipHeight s := by
  have hthere : ∀ s', Grown ledger view s s' →
      ¬ (ExplorerGet.tipHeight : ExplorerGet P).Unknown (ledger s') := fun _ _ => id
  exact get_yields hserver hs hthere

/-- The block at a height that the chain has reached. -/
theorem blockHashAtHeight_yields (hs : view s) {height : Nat} {hash : B.BlockHash}
    (hhash : (ledger s).chain[height]? = some hash) :
    Yields server (fun observed s' => Grown ledger view s s' ∧ observed = hash)
      (blockHashAtHeight height) s := by
  have hlater : ∀ s', Grown ledger view s s' → (ledger s').chain[height]? = some hash := by
    intro s' h
    obtain ⟨rest, hrest⟩ := h.grows
    rw [← hrest, List.getElem?_append_left (List.getElem?_eq_some_iff.1 hhash).1]
    exact hhash
  have hthere : ∀ s', Grown ledger view s s' →
      ¬ (ExplorerGet.blockHeight height : ExplorerGet P).Unknown (ledger s') := by
    intro s' h hbelow
    have hlength := (List.getElem?_eq_some_iff.1 (hlater s' h)).1
    rw [(ledger s').chain_length] at hlength
    change (ledger s').tip < height at hbelow
    omega
  refine (get_yields hserver hs hthere).mono fun observed s' h => ⟨h.1, ?_⟩
  have hobserved : (ledger s').chain[height]? = some observed := h.2
  rw [hlater s' h.1] at hobserved
  exact (Option.some.inj hobserved).symm

/-! ## Observations -/

/-- The depth of a transaction that is in a block, below a tip that was seen. -/
theorem statusConfirmations_yields (hs : view s) {transaction : P.Tx} {height tipHeight : Nat}
    {hash : B.BlockHash} (hholds : (ledger s).Holds height hash transaction)
    (hbelow : height ≤ tipHeight) (hmax : tipHeight < u32Max) :
    Yields server (fun confirmations s' => Grown ledger view s s' ∧
      confirmations = tipHeight + 1 - height)
      (statusConfirmations ⟨true, some height, some hash⟩ tipHeight) s := by
  unfold statusConfirmations
  rw [if_pos rfl]
  refine Yields.of_bind (a := (height, hash)) rfl ?_
  refine (blockHashAtHeight_yields hserver hs hholds.1).bind fun observed s' h => ?_
  refine Yields.of (a := tipHeight + 1 - height) ?_ ⟨h.1, rfl⟩
  simp only [Except.bind_eq_ok, Except.ensure_eq_ok, exists_unit, Except.context_eq_ok,
    Option.bind_eq_some_iff, checkedSub_eq_some, checkedAdd_eq_some]
  exact ⟨h.2, tipHeight - height, ⟨hbelow, rfl⟩, by omega, by omega⟩

/-- A transaction that stays in a block is observed, and as deep as it was. -/
theorem transactionObservation_yields (hvalid : ∀ s, view s → ValidLedger (ledger s))
    (hmax : ∀ s, view s → (ledger s).tip < u32Max) (hs : view s) {transaction : P.Tx}
    {txid : P.Txid} (htxid : txid = P.computeTxid transaction) {height : Nat} {hash : B.BlockHash}
    (hholds : (ledger s).Holds height hash transaction) :
    Yields server (fun answer s' => Grown ledger view s s' ∧ ∃ observed, answer = some observed ∧
      P.computeTxid observed.transaction = txid ∧
      (ledger s).tip + 1 - height ≤ observed.confirmations)
      (transactionObservation txid) s := by
  have hknown : ∀ s', Grown ledger view s s' → (ledger s').Knows transaction :=
    fun s' h => (h.holds hholds).knows
  refine (getOptional_yields hserver hs _).bind fun answer s₁ h₁ => ?_
  obtain ⟨hlater₁, htruth, hunknown⟩ := h₁
  cases answer with
  | none => exact absurd htxid.symm (hunknown rfl transaction (hknown s₁ hlater₁))
  | some summary =>
    obtain ⟨hid, same, hsame, hdescribes⟩ := htruth summary rfl
    have hstatus : summary.status = ⟨true, some height, some hash⟩ :=
      (hvalid s₁ hlater₁.view).once hdescribes (.confirmed (hlater₁.holds hholds))
        (hsame.trans htxid)
    refine Yields.of_bind (a := ()) (Except.ensure_eq_ok.2 hid) ?_
    -- the raw transaction is there as well
    have hraw : Yields server (fun raw s' => Grown ledger view s s' ∧ ∃ found, raw = some found ∧
        P.computeTxid found = txid) (rawTransactionOptional txid) s₁ := by
      refine (getOptional_yields hserver hlater₁.view _).bind fun raw s₂ h₂ => ?_
      obtain ⟨hlater₂, htruth₂, hunknown₂⟩ := h₂
      have hlater := hlater₁.trans hlater₂
      cases raw with
      | none => exact absurd htxid.symm (hunknown₂ rfl transaction (hknown s₂ hlater))
      | some found =>
        have hfound := (htruth₂ found rfl).2
        exact Yields.of_bind (a := ()) (Except.ensure_eq_ok.2 hfound)
          (.pure ⟨hlater, found, rfl, hfound⟩)
    refine hraw.bind fun raw s₂ h₂ => ?_
    obtain ⟨hlater₂, found, rfl, hfound⟩ := h₂
    refine Yields.of_bind (a := found) rfl ?_
    refine (tipHeight_yields hserver hlater₂.view).bind fun tip s₃ h₃ => ?_
    obtain ⟨hlater₃, rfl⟩ := h₃
    have hlater := hlater₂.trans hlater₃
    have hstill := hlater.holds hholds
    rw [hstatus]
    refine (statusConfirmations_yields hserver hlater.view hstill hstill.le_tip
      (hmax s₃ hlater.view)).bind fun confirmations s₄ h₄ => ?_
    refine .pure ⟨hlater.trans h₄.1, _, rfl, hfound, ?_⟩
    have htip := hlater.tip_le
    dsimp only
    omega

/-- A transaction that nobody knows is not observed. -/
theorem transactionObservation_yields_none (hs : view s) {txid : P.Txid}
    (hmissing : ∀ s', view s' → ∀ transaction, (ledger s').Knows transaction →
      P.computeTxid transaction ≠ txid) :
    Yields server (fun answer s' => Grown ledger view s s' ∧ answer = none)
      (transactionObservation txid) s := by
  refine (getOptional_yields hserver hs _).bind fun answer s' h => ?_
  obtain ⟨hlater, htruth, -⟩ := h
  cases answer with
  | none => exact .pure ⟨hlater, rfl⟩
  | some summary =>
    obtain ⟨-, same, hsame, hdescribes⟩ := htruth summary rfl
    exact absurd hsame (hmissing s' hlater.view same hdescribes.knows)

/-- An output that stays unspent is reported as such. -/
theorem outspend_yields (hs : view s) {outpoint : OutPoint P.Txid}
    (hunspent : ∀ s', view s' → Unspent (ledger s') outpoint)
    (hmade : ∀ s', Grown ledger view s s' →
      ∃ transaction, (ledger s').Knows transaction ∧ P.computeTxid transaction = outpoint.txid) :
    Yields server (fun observed s' => Grown ledger view s s' ∧
      observed = { spent := false, spendingTxid := none, spendingConfirmed := false })
      (outspend outpoint) s := by
  have hget : Yields server (fun found s' => Grown ledger view s s' ∧ found.spent = false ∧
      found.txid = none) (get (.outspend outpoint)) s := by
    obtain ⟨answer, hreply, htruth, hunknown⟩ := hserver.answers s (.outspend outpoint) hs
    have hlater : Grown ledger view s (server s (.get (.outspend outpoint))).2 :=
      ⟨hserver.keeps s _ hs, hserver.grows s _ hs⟩
    cases answer with
    | none =>
      obtain ⟨transaction, hknows, hid⟩ := hmade _ hlater
      exact absurd hid (hunknown rfl transaction hknows)
    | some found =>
      have hspent : found.spent = false := by
        have hdescribes := htruth found rfl
        change found.Describes _ outpoint at hdescribes
        unfold ExplorerOutspend.Describes at hdescribes
        split at hdescribes
        · obtain ⟨spender, status, hspends, -, -, hstatus⟩ := hdescribes
          exact absurd hspends (hunspent _ hlater.view spender hstatus.knows)
        · rename_i hfalse
          simpa using hfalse
      refine ⟨found, _, ?_, hlater, hspent, hserver.plain s outpoint found hs hreply hspent⟩
      change (Inquiry.eval server (Program.of (server s (.get (.outspend outpoint))).1 >>= _) _) = _
      rw [hreply]
      rfl
  refine hget.bind fun found s' h => ?_
  obtain ⟨hlater, hspent, htxid⟩ := h
  rw [if_neg (by simp [hspent])]
  exact Yields.of_bind (a := ()) (Except.ensure_eq_ok.2 (by rw [htxid]; rfl)) (.pure ⟨hlater, rfl⟩)

/-! ## The funding of a coin -/

variable {self : Explorer} {metadata : CoinMetadata P} {depth : Nat}
  (hkept : ∀ s, view s → FundingKept self.network metadata depth (ledger s))
include hkept

/-- The chain is the one of the network of the wallet. -/
theorem verifyNetwork_yields (hs : view s) :
    Yields server (fun _ s' => view s') self.verifyNetwork s := by
  refine (blockHashAtHeight_yields hserver hs (hkept s hs).genesis).bind fun observed s₁ h₁ => ?_
  refine Yields.of_bind (a := ()) (Except.ensure_eq_ok.2 h₁.2) ?_
  split
  · rename_i hnetwork
    obtain ⟨hash, hhash, hbuiltin⟩ := (hkept s₁ h₁.1.view).checkpoint hnetwork
    refine (blockHashAtHeight_yields hserver h₁.1.view hhash).bind fun observed s₂ h₂ => ?_
    refine Yields.of (a := ()) ?_ h₂.1.view
    simp only [Except.bind_eq_ok, Except.context_eq_ok, Except.ensure_eq_ok]
    exact ⟨hash, hbuiltin, h₂.2⟩
  · exact .pure h₁.1.view

/-- The funding is reported as it is. -/
theorem observeFunding_yields (hids : P.TxidCollisionFree) (hs : view s)
    (hnetwork : metadata.network = self.network) (hmetadata : metadata.validate = .ok ()) :
    Yields server (fun observed s' => view s' ∧
        observed.funding.outpoint = metadata.outpoint ∧
        observed.funding.output =
          { value := metadata.amountSat, scriptPubkey := fundingScript metadata.keys } ∧
        observed.funding.unspent = true ∧ depth ≤ observed.funding.confirmations ∧
        (observed.funding.coinbase = false ∨ 100 ≤ observed.funding.confirmations))
      (self.observeFunding metadata) s := by
  obtain ⟨transaction, height, hash, hholds, hmakes, hdepth, hmature⟩ := (hkept s hs).held
  refine Yields.of_bind (a := ()) (Except.ensure_eq_ok.2 hnetwork) ?_
  refine (transactionObservation_yields hserver (fun s h => (hkept s h).valid)
    (fun s h => (hkept s h).height) hs hmakes.txid.symm hholds).bind fun answer s₁ h₁ => ?_
  obtain ⟨hlater₁, observed, rfl, hid, hdeep⟩ := h₁
  have hstrip := hids observed.transaction transaction (hid.trans hmakes.txid.symm)
  have houtput := (hmakes.of_stripWitness hstrip).output
  have hcoinbase := isCoinbase_of_stripWitness hstrip
  have hmature' : isCoinbase observed.transaction = false ∨ 100 ≤ observed.confirmations := by
    rw [hcoinbase]
    exact hmature.imp_right fun h => by omega
  refine Yields.of_bind (a := (observed,
    { value := metadata.amountSat, scriptPubkey := fundingScript metadata.keys })) ?_ ?_
  · simp only [Except.bind_eq_ok, Except.ensure_eq_ok, exists_unit, Except.context_eq_ok,
      Client.lift_eq_ok, verifyFundingUtxo, Except.pure_eq_ok]
    exact ⟨observed, rfl, _, houtput, ⟨hmetadata, trivial, rfl⟩, hmature', rfl⟩
  · refine (outspend_yields hserver hlater₁.view (fun s h => (hkept s h).unspent) ?_).bind
      fun outspent s₂ h₂ => ?_
    · intro s₂ hlater₂
      exact ⟨transaction, ((hlater₁.trans hlater₂).holds hholds).knows, hmakes.txid⟩
    · obtain ⟨hlater₂, rfl⟩ := h₂
      exact .pure ⟨hlater₂.view, rfl, rfl, rfl, by dsimp only; omega, hmature'⟩

end Explorer

/-! ## The backend of the wallet -/

section Backend

variable {F : Type} {others : F → (query : Query P) → query.Reply × F} {self : Explorer}
  {metadata : CoinMetadata P} {recovery : SignedRecovery P}

/-- Nobody knows a transaction that competes with the recovery, or spends from it. -/
theorem FundingKept.unseen {network : NetworkId} {depth : Nat} {view : Ledger.View blocks}
    (h : FundingKept network metadata depth view) (hids : P.TxidCollisionFree)
    (hverified : VerifiedRecovery metadata recovery) {transaction : P.Tx}
    (hspends : metadata.outpoint ∈ spentOutputs transaction ∨
      ⟨P.computeTxid recovery.transaction, 0⟩ ∈ spentOutputs transaction)
    {known : P.Tx} (hknown : view.Knows known) :
    P.computeTxid known ≠ P.computeTxid transaction := by
  intro hid
  rw [← spentOutputs_of_stripWitness (hids known transaction hid)] at hspends
  rcases hspends with hfunding | hchild
  · exact h.unspent known hknown hfunding
  · obtain ⟨parent, hparent, hparentId⟩ := h.valid.closed hknown hchild
    refine h.unspent parent hparent ?_
    rw [spentOutputs_of_stripWitness (hids parent recovery.transaction hparentId), hverified.spent]
    exact List.mem_singleton_self _

/-- What a steady explorer shows to the wallet. -/
theorem SteadyExplorer.fundingUnspent (hserver : SteadyExplorer server ledger view)
    (hids : P.TxidCollisionFree)
    (hkept : ∀ s, view s → FundingKept self.network metadata recovery.delayBlocks (ledger s))
    (hnetwork : metadata.network = self.network) (hverified : VerifiedRecovery metadata recovery) :
    FundingUnspent (serveBy self.answer server others) (fun e => view e.2) metadata recovery where
  stays := by
    intro e query hview hquery
    cases hanswer : self.answer (B := B) query with
    | none =>
      rw [serveBy_none hanswer]
      exact hview
    | some inquiry =>
      rw [serveBy_some hanswer]
      refine (Explorer.answer_reads hanswer hquery).eval ?_ hview
      intro s query hs hreads
      cases query with
      | get request => exact hserver.keeps s request hs
      | postTx | postPackage => exact absurd trivial hreads
  connects := by
    intro e hview
    obtain ⟨_, s', heval, -⟩ := Explorer.verifyNetwork_yields hserver hkept hview
    have hanswer : self.answer (B := B) .connectChain = some self.verifyNetwork := rfl
    rw [serveBy_some hanswer, heval]
  unspent := by
    intro e hview
    obtain ⟨observed, s', heval, -, hobserved⟩ :=
      Explorer.observeFunding_yields hserver hkept hids hview hnetwork
        (CoinMetadata.validate_eq_ok.2 hverified.keys)
    refine ⟨observed, ?_, hobserved⟩
    have hanswer : self.answer (B := B) (.observeFunding metadata) =
      some (self.observeFunding metadata) := rfl
    rw [serveBy_some hanswer, heval]
  unseen := by
    intro e transaction hview htransaction
    obtain ⟨answer, s', heval, -, rfl⟩ := Explorer.transactionObservation_yields_none hserver hview
      fun s' hs' known hknown => (hkept s' hs').unseen hids hverified htransaction hknown
    have hanswer : self.answer (B := B) (.transaction (P.computeTxid transaction)) =
      some (Explorer.transactionObservation (P.computeTxid transaction)) := rfl
    rw [serveBy_some hanswer, heval]

end Backend

section Exit

variable {E F : Type} {services : Services P E} {reader : PayloadReader P} {config : Config}
  {fundingSecret : P.SecretKey} {w v : CliWorld P E} {coin : WalletCoin P}
  {metadata : CoinMetadata P} {recovery : SignedRecovery P} {key : P.SecretKey}
  {destination : String} {feeRateSatVb maxFeeSat : Nat}

/-- Whatever the enclave does, some commands arm an exit with the recovery of the owner of an idle
wallet, as long as the explorer goes on answering about a chain that keeps the funding of the coin. -/
theorem exits_through_explorer (hsecret : P.SecretCodec) (hschnorr : P.SchnorrCorrect)
    (hsighash : P.SighashDefined) (haddress : P.AddressCodec) (hids : P.TxidCollisionFree)
    (hw : Initialized config fundingSecret w) (h : CliLife services reader config w v)
    (hcoin : v.saved.wallet.coin = some coin)
    (howned : ownedRecovery coin config.network = .ok (metadata, recovery, key))
    (haffordable : ExitAffordable config.network metadata recovery destination feeRateSatVb
      maxFeeSat) (hidle : v.saved.wallet.pending = none)
    (hserver : SteadyExplorer server ledger view)
    (hkept : ∀ s, view s → FundingKept config.network metadata recovery.delayBlocks (ledger s))
    (others : F → (query : Query P) → query.Reply × F) (e : F × S) (he : view e.2) :
    RecoveryArmed v.saved recovery ∨
      ∃ u, CliLife (answering (serveBy (Explorer.answer ⟨config.network⟩) server others)) reader
          config { saved := v.saved, env := e, log := [] } u ∧
        RecoveryArmed u.saved recovery ∧ ExitSavedFor u.saved destination feeRateSatVb maxFeeSat := by
  have hinv := nativeInv_of_guarded (hw.guarded hsecret h) hw.inv
  obtain ⟨-, hnetwork, -, -, -, -, -, -, hverify⟩ := ownedRecovery_eq_ok.1 howned
  have hview : FundingUnspent (serveBy (Explorer.answer ⟨config.network⟩) server others)
      (fun e => view e.2) metadata recovery :=
    hserver.fundingUnspent hids hkept hnetwork (verifyRecovery_eq_ok.1 hverify)
  by_cases harmed : ∃ journal, v.saved.exit = some journal ∧ journal.stage ≠ .prepared
  · obtain ⟨journal, hjournal, hstage⟩ := harmed
    exact Or.inl (hinv.recoveryArmed hcoin howned hjournal hstage)
  · right
    have hexit : ∀ exit ∈ v.saved.exit, exit.stage = .prepared := by
      intro exit hmem
      by_contra hstage
      exact harmed ⟨exit, hmem, hstage⟩
    exact (Life.refl _).passes (c := .exit destination (some feeRateSatVb) maxFeeSat false)
      (exitCoin_passes hschnorr hsighash haddress hview howned haffordable hinv he hidle hcoin hexit)

end Exit

end Tinylayer
