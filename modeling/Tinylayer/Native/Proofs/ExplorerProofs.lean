import Tinylayer.Native.Explorer
import Tinylayer.Wallet.Proofs.SweepOrderProofs

/-!
# Proofs: what a truthful explorer is told to have seen

The client asks several questions for one observation, and the ledger can change between any two of
them. What it reports is nevertheless right: each part of it at some time during the call.
-/

namespace Tinylayer

open Durable Inquiry

variable {P : Platform} {B : ChainPlatform P} {blocks : Blocks B} {M : Type} [Preorder M]
  {history : M → Ledger.View blocks}

theorem ExplorerTxStatus.Describes.knows {view : Ledger.View blocks} {transaction : P.Tx}
    {status : ExplorerTxStatus B} (h : status.Describes view transaction) :
    view.Knows transaction := by
  cases h with
  | waiting h => exact Or.inl h
  | confirmed h => exact h.knows

theorem truthfulExplorer_movesOn : MovesOn (truthfulExplorer history) := by
  intro t query reply t' h
  cases query with
  | get request => exact h.1
  | postTx body => exact h
  | postPackage path parentHex childHex => exact h

namespace Explorer

variable {t t' : M}

/-! ## Single requests -/

theorem getOptional_ends {request : ExplorerGet P} {answer : Option (request.Answer B)}
    (h : Ends (truthfulExplorer history) (getOptional request) t (.ok answer) t') :
    t ≤ t' ∧ (∀ found, answer = some found → request.Truth (history t') found) ∧
      (answer = none → request.Unknown (history t')) := by
  obtain ⟨reply, u, hreply, hof⟩ := ends_bind.1 h
  obtain ⟨reply', henv, hsame⟩ := ends_question.1 hreply
  cases hsame
  obtain ⟨hreply, rfl⟩ := ends_of.1 hof
  obtain ⟨hle, htruth, hunknown⟩ := henv
  refine ⟨hle, ?_, ?_⟩
  · rintro found rfl
    exact htruth found hreply
  · rintro rfl
    exact hunknown hreply

theorem get_ends {request : ExplorerGet P} {answer : request.Answer B}
    (h : Ends (truthfulExplorer history) (get request) t (.ok answer) t') :
    t ≤ t' ∧ request.Truth (history t') answer := by
  obtain ⟨found, u, hget, hof⟩ := ends_bind.1 h
  obtain ⟨hfound, rfl⟩ := ends_of.1 hof
  obtain ⟨hle, htruth, -⟩ := getOptional_ends hget
  exact ⟨hle, htruth answer (Except.context_eq_ok.1 hfound)⟩

/-! ## Observations -/

/-- A status that was right at some time is still right when its block is looked up. -/
theorem statusConfirmations_ends {status : ExplorerTxStatus B} {s u : M} {transaction : P.Tx}
    {tipHeight confirmations : Nat} (hdescribes : status.Describes (history s) transaction)
    (hs : t ≤ s) (hu : s ≤ u) (htip : (history u).tip = tipHeight)
    (h : Ends (truthfulExplorer history) (statusConfirmations status tipHeight) u
      (.ok confirmations) t') :
    SeenDeep history t t' transaction tipHeight confirmations := by
  unfold statusConfirmations at h
  cases hdescribes with
  | waiting hwaiting =>
    rw [if_neg Bool.false_ne_true] at h
    obtain ⟨_, v, hof, hpure⟩ := ends_bind.1 h
    obtain ⟨_, rfl⟩ := ends_of.1 hof
    obtain ⟨hzero, rfl⟩ := ends_pure.1 hpure
    cases hzero
    exact .waiting hs hu hwaiting
  | confirmed hholds =>
    rw [if_pos rfl] at h
    obtain ⟨pair, v, hof, h⟩ := ends_bind.1 h
    obtain ⟨hpair, rfl⟩ := ends_of.1 hof
    cases hpair
    obtain ⟨observed, v, hget, hof⟩ := ends_bind.1 h
    obtain ⟨hchecks, rfl⟩ := ends_of.1 hof
    obtain ⟨hle, hhash⟩ := get_ends hget
    simp only [Except.bind_eq_ok, Except.ensure_eq_ok, exists_unit, Except.context_eq_ok,
      Option.bind_eq_some_iff, checkedSub_eq_some, checkedAdd_eq_some] at hchecks
    obtain ⟨rfl, depth, ⟨hbelow, rfl⟩, -, rfl⟩ := hchecks
    have hstill := (hholds.of_common hhash).2
    have hdepth : ∀ height, height ≤ tipHeight →
        tipHeight - height + 1 = tipHeight + 1 - height := by omega
    rw [hdepth _ hbelow]
    exact .confirmed hs hu hle (le_refl _) hholds htip hstill hbelow

theorem rawTransactionOptional_ends {txid : P.Txid} {transaction : P.Tx}
    (h : Ends (truthfulExplorer history) (rawTransactionOptional txid) t (.ok (some transaction))
      t') :
    t ≤ t' ∧ (history t').Knows transaction ∧ P.computeTxid transaction = txid := by
  obtain ⟨answer, u, hget, h⟩ := ends_bind.1 h
  cases answer with
  | none => cases (ends_pure.1 h).1
  | some found =>
    obtain ⟨hle, htruth, -⟩ := getOptional_ends hget
    obtain ⟨_, v, hof, hpure⟩ := ends_bind.1 h
    obtain ⟨_, rfl⟩ := ends_of.1 hof
    obtain ⟨hsame, rfl⟩ := ends_pure.1 hpure
    cases hsame
    exact ⟨hle, htruth _ rfl⟩

/-- An observed transaction was known, and a transaction with its id was as deep as reported. -/
theorem transactionObservation_ends {txid : P.Txid}
    {observed : TransactionObservation P}
    (h : Ends (truthfulExplorer history) (transactionObservation txid) t (.ok (some observed)) t') :
    P.computeTxid observed.transaction = txid ∧
      (∃ s, t ≤ s ∧ s ≤ t' ∧ (history s).Knows observed.transaction) ∧
      ∃ transaction, P.computeTxid transaction = txid ∧
        SeenDeep history t t' transaction observed.tipHeight observed.confirmations := by
  obtain ⟨answer, s₁, hsummary, h⟩ := ends_bind.1 h
  cases answer with
  | none => cases (ends_pure.1 h).1
  | some summary =>
    obtain ⟨_, s₁', hof, h⟩ := ends_bind.1 h
    obtain ⟨_, rfl⟩ := ends_of.1 hof
    obtain ⟨raw, s₂, hraw, h⟩ := ends_bind.1 h
    obtain ⟨transaction, s₂', hof, h⟩ := ends_bind.1 h
    obtain ⟨hcontext, rfl⟩ := ends_of.1 hof
    obtain ⟨tipHeight, s₃, htip, h⟩ := ends_bind.1 h
    obtain ⟨confirmations, s₄, hstatus, hpure⟩ := ends_bind.1 h
    obtain ⟨hsame, rfl⟩ := ends_pure.1 hpure
    cases hsame
    cases Except.context_eq_ok.1 hcontext
    obtain ⟨h₁, htruth, -⟩ := getOptional_ends hsummary
    obtain ⟨-, same, hid, hdescribes⟩ := htruth summary rfl
    obtain ⟨h₂, hknows, hcomputed⟩ := rawTransactionOptional_ends hraw
    obtain ⟨h₃, htip⟩ := get_ends htip
    have h₄ := Ends.le truthfulExplorer_movesOn hstatus
    exact ⟨hcomputed, ⟨s₂, le_trans h₁ h₂, le_trans h₃ h₄, hknows⟩, same, hid,
      statusConfirmations_ends hdescribes h₁ (le_trans h₂ h₃) htip.symm hstatus⟩

/-- What is not observed was not known. -/
theorem transactionObservation_none {txid : P.Txid}
    (h : Ends (truthfulExplorer history) (transactionObservation txid) t (.ok none) t') :
    t ≤ t' ∧ ∀ transaction, (history t').Knows transaction → P.computeTxid transaction ≠ txid := by
  obtain ⟨answer, s₁, hsummary, h⟩ := ends_bind.1 h
  cases answer with
  | none =>
    obtain ⟨_, rfl⟩ := ends_pure.1 h
    obtain ⟨hle, -, hunknown⟩ := getOptional_ends hsummary
    exact ⟨hle, hunknown rfl⟩
  | some summary =>
    obtain ⟨_, s₁', _, h⟩ := ends_bind.1 h
    obtain ⟨raw, s₂, _, h⟩ := ends_bind.1 h
    obtain ⟨transaction, s₂', _, h⟩ := ends_bind.1 h
    obtain ⟨tipHeight, s₃, _, h⟩ := ends_bind.1 h
    obtain ⟨confirmations, s₄, _, hpure⟩ := ends_bind.1 h
    cases (ends_pure.1 hpure).1

/-- A transaction that is observed with its exact bytes was known; what is not observed was not. -/
theorem exactTransactionIsObserved_ends {transaction : P.Tx} {known : Bool}
    (h : Ends (truthfulExplorer history) (exactTransactionIsObserved transaction) t (.ok known) t') :
    if known = true then ∃ s, t ≤ s ∧ s ≤ t' ∧ (history s).Knows transaction
    else ¬ (history t').Knows transaction := by
  obtain ⟨answer, s₁, hobserved, h⟩ := ends_bind.1 h
  cases answer with
  | none =>
    obtain ⟨hknown, rfl⟩ := ends_pure.1 h
    cases hknown
    exact fun hknows => (transactionObservation_none hobserved).2 transaction hknows rfl
  | some observed =>
    obtain ⟨_, s₂, hof, hpure⟩ := ends_bind.1 h
    obtain ⟨hexact, rfl⟩ := ends_of.1 hof
    obtain ⟨hknown, rfl⟩ := ends_pure.1 hpure
    cases hknown
    have hseen := (transactionObservation_ends hobserved).2.1
    rwa [Except.ensure_eq_ok.1 hexact] at hseen

/-- What is reported of an output was right. -/
theorem outspend_ends {outpoint : OutPoint P.Txid} {observed : OutspendObservation P}
    (h : Ends (truthfulExplorer history) (outspend outpoint) t (.ok observed) t') :
    (observed.spent = false → SeenUnspent history t t' outpoint) ∧
      (observed.spent = true → ∃ spender s tipHeight confirmations, t ≤ s ∧ s ≤ t' ∧
        (history s).Knows spender ∧ outpoint ∈ spentOutputs spender ∧
        observed.spendingTxid = some (P.computeTxid spender) ∧
        SeenDeep history t t' spender tipHeight confirmations ∧
        observed.spendingConfirmed = decide (0 < confirmations)) := by
  obtain ⟨answer, s₁, hget, h⟩ := ends_bind.1 h
  obtain ⟨h₁, htruth⟩ := get_ends hget
  change answer.Describes (history s₁) outpoint at htruth
  unfold ExplorerOutspend.Describes at htruth
  split at h
  · rename_i hspent
    rw [if_pos hspent] at htruth
    obtain ⟨spender, status, hspends, htxid, hstatus, hdescribes⟩ := htruth
    obtain ⟨spendingTxid, s₁', hof, h⟩ := ends_bind.1 h
    obtain ⟨hid, rfl⟩ := ends_of.1 hof
    cases htxid.symm.trans (Except.context_eq_ok.1 hid)
    obtain ⟨status', s₁'', hof, h⟩ := ends_bind.1 h
    obtain ⟨hstatus', rfl⟩ := ends_of.1 hof
    cases hstatus.symm.trans (Except.context_eq_ok.1 hstatus')
    obtain ⟨tipHeight, s₂, htip, h⟩ := ends_bind.1 h
    obtain ⟨confirmations, s₃, hconfirmations, hpure⟩ := ends_bind.1 h
    obtain ⟨hsame, rfl⟩ := ends_pure.1 hpure
    cases hsame
    obtain ⟨h₂, htip⟩ := get_ends htip
    have h₃ := Ends.le truthfulExplorer_movesOn hconfirmations
    refine ⟨fun h => (Bool.noConfusion h), fun _ => ⟨spender, s₁, tipHeight, confirmations, h₁,
      le_trans h₂ h₃, hdescribes.knows, hspends, rfl, ?_, rfl⟩⟩
    exact statusConfirmations_ends hdescribes h₁ h₂ htip.symm hconfirmations
  · rename_i hspent
    rw [if_neg hspent] at htruth
    obtain ⟨_, s₁', hof, hpure⟩ := ends_bind.1 h
    obtain ⟨_, rfl⟩ := ends_of.1 hof
    obtain ⟨hsame, rfl⟩ := ends_pure.1 hpure
    cases hsame
    exact ⟨fun _ => ⟨s₁, h₁, le_refl s₁, htruth⟩, fun h => Bool.noConfusion h⟩

theorem observeFunding_ends (hids : DistinctIds history) {self : Explorer}
    {metadata : CoinMetadata P} {observed : DetailedFundingObservation P}
    (h : Ends (truthfulExplorer history) (self.observeFunding metadata) t (.ok observed) t') :
    FundingSeen history t t' metadata observed := by
  obtain ⟨_, t₀, hof, h⟩ := ends_bind.1 h
  obtain ⟨_, rfl⟩ := ends_of.1 hof
  obtain ⟨found, s₁, htransaction, h⟩ := ends_bind.1 h
  obtain ⟨pair, s₁', hof, h⟩ := ends_bind.1 h
  obtain ⟨hchecks, rfl⟩ := ends_of.1 hof
  obtain ⟨outspent, s₂, houtspend, hpure⟩ := ends_bind.1 h
  obtain ⟨hsame, rfl⟩ := ends_pure.1 hpure
  cases hsame
  simp only [Except.bind_eq_ok, Except.ensure_eq_ok, exists_unit, Except.context_eq_ok,
    Client.lift_eq_ok, verifyFundingUtxo, Except.pure_eq_ok] at hchecks
  obtain ⟨transaction, rfl, output, houtput, ⟨-, -, hexpected⟩, hmature, rfl⟩ := hchecks
  obtain ⟨hid, ⟨_, -, -, hknown⟩, same, hsame, hdeep⟩ := transactionObservation_ends htransaction
  obtain ⟨_, -, -, hknown'⟩ := hdeep.knows
  have hstrip := hids hknown' hknown (hsame.trans hid.symm)
  obtain ⟨hunspent, -⟩ := outspend_ends houtspend
  have hmakes : Makes transaction.transaction metadata.outpoint output := ⟨hid, houtput⟩
  refine ⟨rfl, hexpected, hmature, same, s₁, hmakes.of_stripWitness hstrip,
    isCoinbase_of_stripWitness hstrip, Ends.le truthfulExplorer_movesOn htransaction,
    Ends.le truthfulExplorer_movesOn houtspend, hdeep, fun h => hunspent ?_⟩
  simpa using h

theorem verifyFunding_ends (hids : DistinctIds history) {self : Explorer}
    {metadata : CoinMetadata P} {minimumConfirmations : Nat} {observed : FundingObservation}
    (h : Ends (truthfulExplorer history) (self.verifyFunding metadata minimumConfirmations) t
      (.ok observed) t') :
    minimumConfirmations ≤ observed.confirmations ∧ ∃ detailed, FundingSeen history t t' metadata detailed ∧
      detailed.funding.unspent = true ∧ detailed.tipHeight = observed.tipHeight ∧
      detailed.funding.confirmations = observed.confirmations := by
  obtain ⟨detailed, s, hobserve, h⟩ := ends_bind.1 h
  obtain ⟨_, s', hof, hpure⟩ := ends_bind.1 h
  obtain ⟨hchecks, rfl⟩ := ends_of.1 hof
  obtain ⟨hsame, rfl⟩ := ends_pure.1 hpure
  cases hsame
  simp only [Except.bind_eq_ok, Except.ensure_eq_ok, exists_unit] at hchecks
  exact ⟨hchecks.2, detailed, observeFunding_ends hids hobserve, hchecks.1, rfl, rfl⟩

/-! ## Deposits -/

instance : Std.Total (candidateLe (B := B)) where
  total a b := by
    rcases lt_trichotomy a.value b.value with h | h | h
    · exact Or.inr (Or.inl h)
    · rcases Std.Total.total (r := OutPoint.le) a.outpoint b.outpoint with hle | hle
      · exact Or.inl (Or.inr ⟨h.symm, hle⟩)
      · exact Or.inr (Or.inr ⟨h, hle⟩)
    · exact Or.inl (Or.inl h)

instance : IsTrans (ExplorerAddressUtxo B) candidateLe where
  trans a b c hab hbc := by
    rcases hab with hab | ⟨hab, hab'⟩
    · rcases hbc with hbc | ⟨hbc, _⟩
      · exact Or.inl (hbc.trans hab)
      · exact Or.inl (hbc ▸ hab)
    · rcases hbc with hbc | ⟨hbc, hbc'⟩
      · exact Or.inl (hab ▸ hbc)
      · exact Or.inr ⟨hbc.trans hab, IsTrans.trans _ _ _ hab' hbc'⟩

/-- The candidates are the most valuable ones that are listed. -/
theorem depositCandidates_complete {listed : List (ExplorerAddressUtxo B)}
    {utxo : ExplorerAddressUtxo B} (hlisted : utxo ∈ listed) :
    utxo ∈ depositCandidates listed ∨
      ((depositCandidates listed).length = maxSourceUtxoCandidates ∧
        ∀ candidate ∈ depositCandidates listed, utxo.value ≤ candidate.value) := by
  have hsorted := List.pairwise_insertionSort candidateLe listed
  have hmem := (List.perm_insertionSort candidateLe listed).mem_iff.2 hlisted
  refine (KeySort.mem_take_or hsorted hmem maxSourceUtxoCandidates).imp_right ?_
  rintro ⟨hlength, hall⟩
  refine ⟨hlength, fun candidate hcandidate => ?_⟩
  rcases hall candidate hcandidate with h | ⟨h, -⟩
  · exact h.le
  · exact h.le

theorem depositCandidates_nodup {listed : List (ExplorerAddressUtxo B)}
    (h : (listed.map ExplorerAddressUtxo.outpoint).Nodup) :
    ((depositCandidates listed).map ExplorerAddressUtxo.outpoint).Nodup :=
  (((List.perm_insertionSort candidateLe listed).map _).nodup_iff.2 h).sublist
    ((List.take_sublist _ _).map _)

theorem observeDeposit_ends (hids : DistinctIds history) {address : P.Address}
    {utxo : ExplorerAddressUtxo B} {source : SourceUtxo P}
    (h : Ends (truthfulExplorer history) (observeDeposit address utxo) t (.ok source) t') :
    source.outpoint = utxo.outpoint ∧ source.output.value = utxo.value ∧
      DepositSeen history t t' address source := by
  obtain ⟨found, s₁, htransaction, h⟩ := ends_bind.1 h
  obtain ⟨pair, s₁', hof, h⟩ := ends_bind.1 h
  obtain ⟨hchecks, rfl⟩ := ends_of.1 hof
  obtain ⟨outspent, s₂, houtspend, h⟩ := ends_bind.1 h
  obtain ⟨_, s₂', hof, hpure⟩ := ends_bind.1 h
  obtain ⟨hspent, rfl⟩ := ends_of.1 hof
  obtain ⟨hsame, rfl⟩ := ends_pure.1 hpure
  cases hsame
  simp only [Except.bind_eq_ok, Except.ensure_eq_ok, exists_unit, Except.context_eq_ok,
    Except.pure_eq_ok] at hchecks
  obtain ⟨transaction, rfl, hconfirmed, output, houtput, hvalue, hscript, rfl⟩ := hchecks
  obtain ⟨hid, ⟨_, -, -, hknown⟩, same, hsame, hdeep⟩ := transactionObservation_ends htransaction
  obtain ⟨_, -, -, hknown'⟩ := hdeep.knows
  have hstrip := hids hknown' hknown (hsame.trans hid.symm)
  have hmakes : Makes transaction.transaction utxo.outpoint output := ⟨hid, houtput⟩
  exact ⟨rfl, hvalue, same, transaction.tipHeight, s₁, hmakes.of_stripWitness hstrip, hscript,
    isCoinbase_of_stripWitness hstrip, hconfirmed, Ends.le truthfulExplorer_movesOn htransaction,
    Ends.le truthfulExplorer_movesOn houtspend, hdeep,
    (outspend_ends houtspend).1 (Except.ensure_eq_ok.1 hspent)⟩

/-- If an explorer is truthful, the deposits that it lists are real, and none of more value is
missing. -/
theorem confirmed_deposits_seen (hids : DistinctIds history) {address : P.Address}
    {sources : List (SourceUtxo P)}
    (h : Ends (truthfulExplorer history) (confirmedSourceUtxos address) t (.ok sources) t') :
    DepositsSeen history t t' address sources := by
  obtain ⟨listed, s₁, hget, h⟩ := ends_bind.1 h
  obtain ⟨_, s₁', hof, h⟩ := ends_bind.1 h
  obtain ⟨hnodup, rfl⟩ := ends_of.1 hof
  obtain ⟨observed, s₂, hall, hpure⟩ := ends_bind.1 h
  obtain ⟨hsame, rfl⟩ := ends_pure.1 hpure
  cases hsame
  obtain ⟨h₁, hlisted⟩ := get_ends hget
  have h₂ := Ends.le truthfulExplorer_movesOn hall
  obtain ⟨confirmed, hconfirmed⟩ : ∃ confirmed, confirmed =
      listed.filter fun utxo => utxo.status.confirmed := ⟨_, rfl⟩
  rw [← hconfirmed] at hnodup hall
  -- every candidate was looked up, in the order of the candidates
  have hlookups : List.Forall₂ (fun utxo source => source.outpoint = utxo.outpoint ∧
      source.output.value = utxo.value ∧ DepositSeen history t s₂ address source)
      (depositCandidates confirmed) observed := by
    refine (forEach_ends truthfulExplorer_movesOn hall).imp ?_
    rintro utxo source ⟨t₀, t₁, hstart, hends, hend⟩
    obtain ⟨houtpoint, hvalue, hseen⟩ := observeDeposit_ends hids hends
    exact ⟨houtpoint, hvalue, hseen.mono (le_trans h₁ hstart) hend⟩
  have houtpoints : observed.map SourceUtxo.outpoint =
      (depositCandidates confirmed).map ExplorerAddressUtxo.outpoint := by
    refine Eq.symm (List.forall₂_eq_eq_eq ▸ List.forall₂_map_left_iff.2
      (List.forall₂_map_right_iff.2 (hlookups.imp ?_)))
    exact fun _ _ h => h.1.symm
  have hlength : (sortSources observed).length = (depositCandidates confirmed).length :=
    sortSources_perm.length_eq.trans hlookups.length_eq.symm
  refine ⟨?_, ?_, ?_, s₁, h₁, h₂, ?_⟩
  · refine KeySort.sortByKey_ascends ?_
    rw [houtpoints]
    exact depositCandidates_nodup (Except.ensure_eq_ok.1 hnodup)
  · rw [hlength]
    exact List.length_take_le _ _
  · intro source hsource
    obtain ⟨utxo, -, -, -, hseen⟩ := forall₂_mem_right hlookups (sortSources_perm.mem_iff.1 hsource)
    exact hseen
  · intro height hash transaction outpoint output hholds hmakes hscript hunspent
    obtain ⟨utxo, hutxo⟩ : ∃ utxo : ExplorerAddressUtxo B, utxo =
      ⟨outpoint.txid, outpoint.vout, output.value, true, some height, some hash⟩ := ⟨_, rfl⟩
    have hmem : utxo ∈ confirmed := by
      rw [hconfirmed, hutxo]
      refine List.mem_filter.2 ⟨(hlisted _).2 ⟨⟨transaction, output, ?_, hmakes, rfl, hscript⟩, ?_⟩, rfl⟩
      · exact .confirmed hholds
      · exact hunspent
    refine (depositCandidates_complete hmem).imp ?_ ?_
    · intro hcandidate
      obtain ⟨source, hsource, houtpoint, -⟩ := forall₂_mem_left hlookups hcandidate
      refine ⟨source, sortSources_perm.mem_iff.2 hsource, houtpoint.trans ?_⟩
      rw [hutxo]
      rfl
    · rintro ⟨hfull, hall⟩
      refine ⟨hlength.trans hfull, fun source hsource => ?_⟩
      obtain ⟨candidate, hcandidate, -, hvalue, -⟩ :=
        forall₂_mem_right hlookups (sortSources_perm.mem_iff.1 hsource)
      rw [hvalue]
      have hle := hall candidate hcandidate
      rwa [hutxo] at hle

end Explorer

end Tinylayer
