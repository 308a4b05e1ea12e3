import Tinylayer.Native.Proofs.CoreProofs
import Tinylayer.Native.Proofs.ExplorerProofs
import Tinylayer.Wallet.Proofs.InvariantProofs

/-!
# Proofs: what is submitted

Whatever a server answers, and wherever the client is stopped: it submits nothing but the exact
transaction, at most once, and only after the server did not know it. It reports a success only after
the server has shown the exact transaction.
-/

namespace Tinylayer

open Durable Inquiry

variable {P : Platform} {B : ChainPlatform P}

/-! ## Through an explorer -/

/-- The request submits something to the network. -/
def ExplorerQuery.Submits : ExplorerQuery P → Prop
  | get _ => False
  | _ => True

/-- The client only reads. -/
abbrev ExplorerReads {α : Type} (x : ExplorerM B α) : Prop :=
  Asks (fun query => ¬ query.Submits) x

variable (B) in
/-- A request to an explorer, with its response. -/
abbrev ExplorerExchange := Exchange (ExplorerQuery P) (ExplorerQuery.Reply B)

/-- The explorer has shown the transaction. -/
def ExplorerShows (transaction : P.Tx) (l : List (ExplorerExchange B)) : Prop :=
  ⟨.get (.txHex (P.computeTxid transaction)), .ok (some transaction)⟩ ∈ l

/-- The explorer did not know the transaction. -/
def ExplorerMisses (transaction : P.Tx) (l : List (ExplorerExchange B)) : Prop :=
  ⟨.get (.tx (P.computeTxid transaction)), .ok none⟩ ∈ l

namespace Explorer

variable {l : List (ExplorerExchange B)} {transaction : P.Tx}

theorem getOptional_reads (request : ExplorerGet P) :
    ExplorerReads (getOptional (B := B) request) :=
  (Asks.question id).bind fun _ => .of

theorem get_reads (request : ExplorerGet P) : ExplorerReads (get (B := B) request) :=
  (getOptional_reads request).bind fun _ => .of

theorem statusConfirmations_reads (status : ExplorerTxStatus B) (tipHeight : Nat) :
    ExplorerReads (statusConfirmations status tipHeight) := by
  unfold statusConfirmations
  split
  · exact Asks.of.bind fun _ => (get_reads _).bind fun _ => .of
  · exact Asks.of.bind fun _ => .pure

theorem rawTransactionOptional_reads (txid : P.Txid) :
    ExplorerReads (rawTransactionOptional (B := B) txid) := by
  refine (getOptional_reads _).bind fun answer => ?_
  cases answer with
  | none => exact .pure
  | some found => exact Asks.of.bind fun _ => .pure

theorem transactionObservation_reads (txid : P.Txid) :
    ExplorerReads (transactionObservation (B := B) txid) := by
  refine (getOptional_reads _).bind fun answer => ?_
  cases answer with
  | none => exact .pure
  | some summary =>
    refine Asks.of.bind fun _ => (rawTransactionOptional_reads txid).bind fun _ => ?_
    refine Asks.of.bind fun _ => (get_reads _).bind fun _ => ?_
    exact (statusConfirmations_reads _ _).bind fun _ => .pure

theorem exactTransactionIsObserved_reads (expected : P.Tx) :
    ExplorerReads (exactTransactionIsObserved (B := B) expected) := by
  refine (transactionObservation_reads _).bind fun observed => ?_
  cases observed with
  | none => exact .pure
  | some observed => exact Asks.of.bind fun _ => .pure

theorem unlessObserved_reads (transaction : P.Tx) (error : String) :
    ExplorerReads (unlessObserved (B := B) transaction error) :=
  (exactTransactionIsObserved_reads transaction).bind fun _ => Asks.of.bind fun _ => .pure

theorem verifyNetwork_reads (self : Explorer) : ExplorerReads (self.verifyNetwork (B := B)) := by
  refine (get_reads _).bind fun _ => Asks.of.bind fun _ => ?_
  cases self.network with
  | mutinynet => exact (get_reads _).bind fun _ => .of
  | mainnet | regtest => exact .pure

theorem outspend_reads (outpoint : OutPoint P.Txid) : ExplorerReads (outspend (B := B) outpoint) := by
  refine (get_reads _).bind fun answer => ?_
  split
  · refine Asks.of.bind fun _ => Asks.of.bind fun _ => (get_reads _).bind fun _ => ?_
    exact (statusConfirmations_reads _ _).bind fun _ => .pure
  · exact Asks.of.bind fun _ => .pure

theorem observeFunding_reads (self : Explorer) (metadata : CoinMetadata P) :
    ExplorerReads (self.observeFunding (B := B) metadata) := by
  refine Asks.of.bind fun _ => (transactionObservation_reads _).bind fun _ => ?_
  exact Asks.of.bind fun _ => (outspend_reads _).bind fun _ => .pure

theorem observeDeposit_reads (address : P.Address) (listed : ExplorerAddressUtxo B) :
    ExplorerReads (observeDeposit address listed) := by
  refine (transactionObservation_reads _).bind fun _ => Asks.of.bind fun _ => ?_
  exact (outspend_reads _).bind fun _ => Asks.of.bind fun _ => .pure

theorem confirmedSourceUtxos_reads (address : P.Address) :
    ExplorerReads (confirmedSourceUtxos (B := B) address) := by
  refine (get_reads _).bind fun _ => Asks.of.bind fun _ => ?_
  exact (Asks.forEach (observeDeposit_reads address) _).bind fun _ => .pure

/-- What the backend asks for a question that submits nothing only reads. -/
theorem answer_reads {self : Explorer} {query : Query P} {inquiry : ExplorerM B query.Answer}
    (h : self.answer query = some inquiry) (hquery : ¬ query.Submits) : ExplorerReads inquiry := by
  cases query with
  | connectChain => cases h; exact verifyNetwork_reads self
  | verifyFunding metadata minimumConfirmations =>
    cases h
    exact (observeFunding_reads self metadata).bind fun _ => Asks.of.bind fun _ => .pure
  | observeFunding metadata => cases h; exact observeFunding_reads self metadata
  | transaction txid => cases h; exact transactionObservation_reads txid
  | observeAuthorizedTransaction transaction =>
    cases h
    exact (transactionObservation_reads _).bind fun _ => Asks.of.bind fun _ => .pure
  | outspend outpoint => cases h; exact outspend_reads outpoint
  | confirmedSourceUtxos address => cases h; exact confirmedSourceUtxos_reads address
  | fundTransaction | testPreparedFunding | validatePreparedFunding => cases h; exact .of
  | broadcastFunding | broadcastExact | submitPackage => exact absurd trivial hquery
  | _ => cases h

/-! What the answers to an observation were. -/

theorem getOptional_trace {request : ExplorerGet P} {answer : Option (request.Answer B)}
    (h : Trace (getOptional request) l (pure answer)) : l = [⟨.get request, .ok answer⟩] := by
  obtain ⟨reply, l₁, l₂, rfl, hquestion, hof⟩ := h.of_bind_ok
  obtain ⟨rfl, hreply⟩ := hof.of_of_ok
  rw [hquestion.of_question_ok, List.append_nil, hreply]

theorem transactionObservation_trace {txid : P.Txid}
    {answer : Option (TransactionObservation P)}
    (h : Trace (transactionObservation txid) l (pure answer)) :
    (answer = none → ⟨.get (.tx txid), .ok none⟩ ∈ l) ∧
      ∀ observed, answer = some observed →
        ⟨.get (.txHex txid), .ok (some observed.transaction)⟩ ∈ l := by
  obtain ⟨summary, l₁, l₂, rfl, hsummary, hseen⟩ := h.of_bind_ok
  cases getOptional_trace hsummary
  cases summary with
  | none =>
    obtain ⟨rfl, hanswer⟩ := hseen.of_pure
    cases hanswer
    exact ⟨fun _ => List.mem_cons_self, fun _ h => by cases h⟩
  | some summary =>
    obtain ⟨_, l₃, l₄, rfl, -, hchecked⟩ := hseen.of_bind_ok
    obtain ⟨raw, l₅, l₆, rfl, hraw, hfound⟩ := hchecked.of_bind_ok
    obtain ⟨transaction, l₇, l₈, rfl, hof, htip⟩ := hfound.of_bind_ok
    obtain ⟨rfl, hcontext⟩ := hof.of_of_ok
    cases Except.context_eq_ok.1 hcontext
    obtain ⟨tipHeight, l₉, l₁₀, rfl, -, hdepth⟩ := htip.of_bind_ok
    obtain ⟨confirmations, l₁₁, l₁₂, rfl, -, hend⟩ := hdepth.of_bind_ok
    obtain ⟨rfl, hanswer⟩ := hend.of_pure
    cases hanswer
    obtain ⟨found, l₁₃, l₁₄, rfl, hfound, hrest⟩ := hraw.of_bind_ok
    cases getOptional_trace hfound
    cases found with
    | none => cases hrest.of_pure.2
    | some found =>
      obtain ⟨_, l₁₅, l₁₆, rfl, -, hrest⟩ := hrest.of_bind_ok
      cases hrest.of_pure.2
      refine ⟨fun h => (by cases h), fun observed hsame => ?_⟩
      cases hsame
      simp

theorem exactTransactionIsObserved_trace {known : Bool}
    (h : Trace (exactTransactionIsObserved transaction) l (pure known)) :
    (known = false → ExplorerMisses transaction l) ∧
      (known = true → ExplorerShows transaction l) := by
  obtain ⟨answer, l₁, l₂, rfl, hobserved, h⟩ := h.of_bind_ok
  obtain ⟨hnone, hsome⟩ := transactionObservation_trace hobserved
  cases answer with
  | none =>
    obtain ⟨rfl, hknown⟩ := h.of_pure
    cases hknown
    exact ⟨fun _ => List.mem_append_left _ (hnone rfl), fun h => by cases h⟩
  | some observed =>
    obtain ⟨_, l₃, l₄, rfl, hof, hpure⟩ := h.of_bind_ok
    obtain ⟨rfl, hexact⟩ := hof.of_of_ok
    cases hpure.of_pure.2
    refine ⟨fun h => (by cases h), fun _ => List.mem_append_left _ ?_⟩
    have hshown := hsome observed rfl
    rwa [Except.ensure_eq_ok.1 hexact] at hshown

theorem unlessObserved_trace {error : String} {txid : P.Txid}
    (h : Trace (unlessObserved transaction error) l (pure txid)) :
    txid = P.computeTxid transaction ∧ ExplorerShows transaction l := by
  obtain ⟨known, l₁, l₂, rfl, hknown, h⟩ := h.of_bind_ok
  obtain ⟨_, l₃, l₄, rfl, hof, hpure⟩ := h.of_bind_ok
  obtain ⟨rfl, hobserved⟩ := hof.of_of_ok
  cases hpure.of_pure.2
  exact ⟨rfl, List.mem_append_left _
    ((exactTransactionIsObserved_trace hknown).2 (Except.ensure_eq_ok.1 hobserved))⟩

/-- What is posted, and when. -/
structure PostsExactly (transaction : P.Tx) (past : List (ExplorerExchange B))
    (query : ExplorerQuery P) : Prop where
  query : query = .postTx (P.serializeHex transaction)
  valid : validateFundingInputs transaction = .ok ()
  misses : ExplorerMisses transaction past

theorem broadcastExact_careful :
    Careful ExplorerQuery.Submits (PostsExactly (B := B) transaction) []
      (broadcastExact transaction) := by
  refine (Careful.of_asks .of).bind fun _ l₁ hof => ?_
  obtain ⟨rfl, hvalid⟩ := hof.of_of_ok
  refine (Careful.of_asks (exactTransactionIsObserved_reads _)).bind fun known l₂ hknown => ?_
  split
  · exact .of_asks .pure
  · rename_i hmissing
    have hmisses := (exactTransactionIsObserved_trace hknown).1 (by simpa using hmissing)
    have hquiet : ∀ exchange ∈ l₂, ¬ exchange.query.Submits := fun exchange hmem =>
      (exactTransactionIsObserved_reads _).exchange hknown hmem
    refine Careful.bind (.question fun _ => ⟨⟨rfl, hvalid, hmisses⟩, hquiet⟩) fun reply l₃ _ => ?_
    refine .of_asks ?_
    cases reply with
    | unsent error => exact unlessObserved_reads _ _
    | response status body =>
      refine Asks.of.bind fun body => ?_
      split
      · exact Asks.of.bind fun _ => unlessObserved_reads _ _
      · exact unlessObserved_reads _ _

theorem broadcastExact_trace {txid : P.Txid} (h : Trace (broadcastExact transaction) l (pure txid)) :
    txid = P.computeTxid transaction ∧ ExplorerShows transaction l := by
  obtain ⟨_, l₁, l₂, rfl, -, h⟩ := h.of_bind_ok
  obtain ⟨known, l₃, l₄, rfl, hknown, hrest⟩ := h.of_bind_ok
  split at hrest
  · rename_i htrue
    cases hrest.of_pure.2
    exact ⟨rfl, List.mem_append_right _ (List.mem_append_left _
      ((exactTransactionIsObserved_trace hknown).2 htrue))⟩
  · obtain ⟨reply, l₅, l₆, rfl, -, hreply⟩ := hrest.of_bind_ok
    suffices hlast : txid = P.computeTxid transaction ∧ ExplorerShows transaction l₆ from
      ⟨hlast.1, List.mem_append_right _ (List.mem_append_right _ (List.mem_append_right _ hlast.2))⟩
    cases reply with
    | unsent error => exact unlessObserved_trace hreply
    | response status body =>
      obtain ⟨body, l₇, l₈, rfl, -, hbody⟩ := hreply.of_bind_ok
      split at hbody
      · obtain ⟨_, l₉, l₁₀, rfl, -, hend⟩ := hbody.of_bind_ok
        obtain ⟨hid, hshows⟩ := unlessObserved_trace hend
        exact ⟨hid, List.mem_append_right _ (List.mem_append_right _ hshows)⟩
      · obtain ⟨hid, hshows⟩ := unlessObserved_trace hbody
        exact ⟨hid, List.mem_append_right _ hshows⟩

section Truthful

variable {blocks : Blocks B} {M : Type} [Preorder M] {history : M → Ledger.View blocks} {t t' : M}
  {txid : P.Txid}

/-- The transaction was known while the time went from `t` to `t'`. -/
def SeenKnown (history : M → Ledger.View blocks) (t t' : M) (transaction : P.Tx) : Prop :=
  ∃ s, t ≤ s ∧ s ≤ t' ∧ (history s).Knows transaction

theorem unlessObserved_ends {error : String}
    (h : Ends (truthfulExplorer history) (unlessObserved transaction error) t (.ok txid) t') :
    SeenKnown history t t' transaction := by
  obtain ⟨known, s, hknown, h⟩ := ends_bind.1 h
  obtain ⟨_, s', hof, hpure⟩ := ends_bind.1 h
  obtain ⟨hobserved, rfl⟩ := ends_of.1 hof
  obtain ⟨-, rfl⟩ := ends_pure.1 hpure
  have hseen := exactTransactionIsObserved_ends hknown
  rwa [if_pos (Except.ensure_eq_ok.1 hobserved)] at hseen

/-- If the explorer is truthful, a transaction whose broadcast succeeds was known. -/
theorem broadcastExact_ends
    (h : Ends (truthfulExplorer history) (broadcastExact transaction) t (.ok txid) t') :
    SeenKnown history t t' transaction := by
  obtain ⟨_, s₁, hof, h⟩ := ends_bind.1 h
  obtain ⟨-, rfl⟩ := ends_of.1 hof
  obtain ⟨known, s₂, hknown, hrest⟩ := ends_bind.1 h
  split at hrest
  · rename_i htrue
    obtain ⟨-, rfl⟩ := ends_pure.1 hrest
    have hseen := exactTransactionIsObserved_ends hknown
    rwa [if_pos htrue] at hseen
  · obtain ⟨reply, s₃, hpost, hreply⟩ := ends_bind.1 hrest
    have hstart := le_trans (Ends.le truthfulExplorer_movesOn hknown)
      (Ends.le truthfulExplorer_movesOn hpost)
    suffices hlast : SeenKnown history s₃ t' transaction by
      obtain ⟨s, hs, hs', hknows⟩ := hlast
      exact ⟨s, le_trans hstart hs, hs', hknows⟩
    cases reply with
    | unsent error => exact unlessObserved_ends hreply
    | response status body =>
      obtain ⟨body, s₄, hof, hbody⟩ := ends_bind.1 hreply
      obtain ⟨-, rfl⟩ := ends_of.1 hof
      split at hbody
      · obtain ⟨_, s₅, hof, hend⟩ := ends_bind.1 hbody
        obtain ⟨-, rfl⟩ := ends_of.1 hof
        exact unlessObserved_ends hend
      · exact unlessObserved_ends hbody

end Truthful

/-- Whatever an explorer answers, and wherever the client is stopped, it posts at most the exact
bytes of the transaction, once, after the explorer did not know it; and a broadcast that succeeds was
shown the exact transaction. If the explorer is truthful, the network knew the transaction then. -/
theorem broadcast_posts_exactly_once (transaction : P.Tx) :
    (∀ l (rest : ExplorerM B P.Txid), Trace (broadcastExact transaction) l rest →
      (∀ before exchange after, l = before ++ exchange :: after → exchange.query.Submits →
        PostsExactly transaction before exchange.query ∧
          ∀ earlier ∈ before, ¬ earlier.query.Submits) ∧
      ∀ txid, rest = pure txid →
        txid = P.computeTxid transaction ∧ ExplorerShows transaction l) ∧
    ∀ (blocks : Blocks B) (history : Nat → Ledger.View blocks) (t t' : Nat) (txid : P.Txid),
      Ends (truthfulExplorer history) (broadcastExact transaction) t (.ok txid) t' →
      SeenKnown history t t' transaction := by
  refine ⟨fun l rest htrace => ⟨fun before exchange after hl hsubmits => ?_, ?_⟩,
    fun blocks history t t' txid hends => broadcastExact_ends hends⟩
  · exact broadcastExact_careful.submitted htrace hl hsubmits
  · rintro txid rfl
    exact broadcastExact_trace htrace

section Alice

open Symbolic

/-- The signed transaction that funds the coin. -/
def signedFunding : platform.Tx where
  version := 2
  lockTime := 0
  input := [⟨deposit.outpoint, [], 0xffffffff, [[1]]⟩]
  output := [{ value := 1000, scriptPubkey := fundingScript fundedMetadata.keys }]

abbrev aliceChain : ChainPlatform platform :=
  numberedChain platform fun key network => ⟨network, platform.newP2trTweaked key⟩

/-- An explorer that takes the funding, but does not get to answer. -/
def aliceExplorer (posted : Bool) :
    (query : ExplorerQuery platform) → query.Reply aliceChain × Bool
  | .get (.tx txid) =>
    (.ok (if posted = true then some ⟨txid, ⟨false, none, none⟩⟩ else none), posted)
  | .get (.txHex _) => (.ok (if posted = true then some signedFunding else none), posted)
  | .get .tipHeight => (.ok (some 5), posted)
  | .get _ => (.ok none, posted)
  | .postTx _ => (.unsent "operation timed out", true)
  | .postPackage .. => (.unsent "operation timed out", posted)

theorem broadcast_posts_exactly_once_posted : ∃ before after,
    exchanges aliceExplorer (broadcastExact signedFunding) false = before ++
      ⟨.postTx (platform.serializeHex signedFunding), .unsent "operation timed out"⟩ :: after ∧
    PostsExactly signedFunding before (.postTx (platform.serializeHex signedFunding)) ∧
    ExplorerShows signedFunding (exchanges aliceExplorer (broadcastExact signedFunding) false) := by
  obtain ⟨hposted, hshown⟩ := (broadcast_posts_exactly_once signedFunding).1 _ _
    (@trace_exchanges _ _ _ _ _ aliceExplorer (broadcastExact signedFunding) false)
  have hexchanges : exchanges aliceExplorer (broadcastExact signedFunding) false =
      [_] ++ ⟨.postTx (platform.serializeHex signedFunding), .unsent "operation timed out"⟩ ::
        [_, _, _] := rfl
  exact ⟨_, _, hexchanges, (hposted _ _ _ hexchanges trivial).1, (hshown (18 : Nat) rfl).2⟩

end Alice

end Explorer

/-! ## Through Bitcoin Core -/

/-- The call submits something to the network. -/
def CoreQuery.Submits : CoreQuery P → Prop
  | sendRawTransaction _ | submitPackage .. => True
  | _ => False

variable (B) in
/-- A call of a node, with its result. -/
abbrev CoreExchange := Exchange (CoreQuery P) (CoreQuery.Reply B)

/-- The client submits nothing. -/
abbrev CoreReads {α : Type} (x : CoreM B α) : Prop := Asks (fun query => ¬ query.Submits) x

theorem HexTransaction.decode_eq_ok {transaction : P.Tx} {hex : HexTransaction P} {invalidHex invalidTransaction : String}
    (h : hex.decode invalidHex invalidTransaction = .ok transaction) : hex = .valid transaction := by
  cases hex with
  | invalidHex => cases h
  | invalidTransaction => cases h
  | valid found =>
    cases h
    rfl

namespace Core

variable {l : List (CoreExchange B)} {transaction : P.Tx} {self : Core}

theorem tryCall_reads {query : CoreQuery P} (h : ¬ query.Submits) :
    CoreReads (tryCall (B := B) query) := .question h

theorem call_reads {query : CoreQuery P} {context : String} (h : ¬ query.Submits) :
    CoreReads (call (B := B) query context) := (tryCall_reads h).bind fun _ => .of

theorem isInMempool_reads (txid : P.Txid) (context : String) :
    CoreReads (isInMempool (B := B) txid context) := by
  refine (tryCall_reads id).bind fun reply => ?_
  cases reply with
  | ok => exact .pure
  | error error =>
    cases error with
    | notFound => exact .pure
    | other => exact .of

theorem chainInfo_reads : CoreReads (self.chainInfo (B := B)) :=
  (call_reads id).bind fun _ => Asks.of.bind fun _ => .pure

theorem tipHeight_reads : CoreReads (self.tipHeight (B := B)) :=
  chainInfo_reads.bind fun _ => .of

theorem walletTransactionObservation_reads (txid : P.Txid) :
    CoreReads (self.walletTransactionObservation (B := B) txid) := by
  refine (tryCall_reads id).bind fun reply => ?_
  cases reply with
  | error error =>
    cases error with
    | notFound => exact .pure
    | other => exact .of
  | ok result =>
    refine Asks.of.bind fun _ => Asks.bind ?_ fun known => ?_
    · split
      · exact isInMempool_reads _ _
      · exact .pure
    · split
      · exact Asks.of.bind fun _ => tipHeight_reads.bind fun _ => .pure
      · exact .pure

theorem transactionObservation_reads (txid : P.Txid) :
    CoreReads (self.transactionObservation (B := B) txid) := by
  refine (tryCall_reads id).bind fun reply => ?_
  cases reply with
  | ok info => exact Asks.of.bind fun _ => tipHeight_reads.bind fun _ => .pure
  | error error =>
    cases error with
    | notFound => exact walletTransactionObservation_reads txid
    | other => exact .of

theorem isObserved_reads (transaction : P.Tx) :
    CoreReads (self.isObserved (B := B) transaction) := by
  refine (transactionObservation_reads _).bind fun observed => ?_
  cases observed with
  | none => exact .pure
  | some observed => exact Asks.of.bind fun _ => .pure

theorem verifyWallet_reads : CoreReads (self.verifyWallet (B := B)) :=
  (call_reads id).bind fun _ => .of

theorem ensureInputsLocked_reads (transaction : P.Tx) :
    CoreReads (ensureInputsLocked (B := B) transaction) := (call_reads id).bind fun _ => .of

theorem testPreparedFunding_reads (transaction : P.Tx) (expectedFee : Option Nat) :
    CoreReads (testPreparedFunding (B := B) transaction expectedFee) :=
  (call_reads id).bind fun _ => .of

theorem fundingTransactionState_reads (transaction : P.Tx) :
    CoreReads (fundingTransactionState (B := B) transaction) := by
  refine (tryCall_reads id).bind fun reply => ?_
  cases reply with
  | error error =>
    cases error with
    | notFound => exact .pure
    | other => exact .of
  | ok result =>
    refine Asks.of.bind fun _ => ?_
    split
    · exact .pure
    · exact (isInMempool_reads _ _).bind fun _ => .pure

theorem atBestBlock_reads (bestblock : B.BlockHash) (chain : ChainInfo B) (context : String) :
    CoreReads (self.atBestBlock bestblock chain context) := by
  refine Asks.bind ?_ fun _ => Asks.of.bind fun _ => .pure
  split
  · exact chainInfo_reads
  · exact .pure

theorem observeOutputs_reads (transaction : P.Tx) (chain : ChainInfo B) (outputs : List (TxOut × Nat)) :
    CoreReads (self.observeOutputs transaction chain outputs) := by
  induction outputs with
  | nil => exact .pure
  | cons output outputs ih =>
    refine Asks.of.bind fun _ => (call_reads id).bind fun found => ?_
    cases found with
    | none => exact ih
    | some result =>
      exact Asks.of.bind fun _ => (atBestBlock_reads _ _ _).bind fun _ => .of

theorem observeAuthorizedTransaction_reads (transaction : P.Tx) :
    CoreReads (self.observeAuthorizedTransaction (B := B) transaction) := by
  refine (transactionObservation_reads _).bind fun observed => ?_
  cases observed with
  | none => exact chainInfo_reads.bind fun _ => observeOutputs_reads _ _ _
  | some observed => exact Asks.of.bind fun _ => .pure

theorem outspend_reads (outpoint : OutPoint P.Txid) :
    CoreReads (self.outspend (B := B) outpoint) := by
  refine (call_reads id).bind fun _ => Asks.of.bind fun result => ?_
  split
  · exact (transactionObservation_reads _).bind fun _ => .pure
  · exact (call_reads id).bind fun _ => .pure

theorem observeFunding_reads (metadata : CoinMetadata P) :
    CoreReads (self.observeFunding (B := B) metadata) := by
  refine Asks.of.bind fun _ => (call_reads id).bind fun found => ?_
  cases found with
  | none =>
    refine (transactionObservation_reads _).bind fun _ => Asks.of.bind fun _ => ?_
    exact (outspend_reads _).bind fun _ => .pure
  | some result => exact chainInfo_reads.bind fun _ => (atBestBlock_reads _ _ _).bind fun _ => .of

theorem verifyFunding_reads (metadata : CoinMetadata P) (minimumConfirmations : Nat) :
    CoreReads (self.verifyFunding (B := B) metadata minimumConfirmations) := by
  refine chainInfo_reads.bind fun _ => (call_reads id).bind fun _ => Asks.of.bind fun _ => ?_
  exact (atBestBlock_reads _ _ _).bind fun _ => .of

theorem validatePreparedFunding_reads (metadata : CoinMetadata P) (transaction : P.Tx) :
    CoreReads (self.validatePreparedFunding (B := B) metadata transaction) := by
  refine verifyWallet_reads.bind fun _ => Asks.of.bind fun _ => ?_
  exact (ensureInputsLocked_reads _).bind fun _ => testPreparedFunding_reads _ _

/-- What the backend asks for a question that submits nothing only reads. -/
theorem answer_reads {query : Query P} {inquiry : CoreM B query.Answer}
    (h : self.answer query = some inquiry) (hquery : ¬ query.Submits) : CoreReads inquiry := by
  cases query with
  | connectChain | recommendedFeeRate => cases h; exact .pure
  | verifyFunding metadata minimumConfirmations => cases h; exact verifyFunding_reads _ _
  | observeFunding metadata => cases h; exact observeFunding_reads _
  | transaction txid => cases h; exact transactionObservation_reads txid
  | observeAuthorizedTransaction transaction =>
    cases h
    exact observeAuthorizedTransaction_reads transaction
  | outspend outpoint => cases h; exact outspend_reads outpoint
  | confirmedSourceUtxos address => cases h; exact .of
  | testPreparedFunding transaction expectedFee => cases h; exact testPreparedFunding_reads _ _
  | validatePreparedFunding metadata transaction =>
    cases h
    exact validatePreparedFunding_reads _ _
  | broadcastFunding | broadcastExact | submitPackage => exact absurd trivial hquery
  | _ => cases h

/-! What the answers to a check were. -/

/-- The node has opened the expected wallet, which can sign. -/
def WalletOpened (self : Core) (l : List (CoreExchange B)) : Prop :=
  ∃ info : WalletInfo, ⟨.getWalletInfo, .ok info⟩ ∈ l ∧ info.walletName = self.walletName ∧
    info.privateKeysEnabled = true

/-- The wallet of the node has locked all that the transaction spends. -/
def InputsLocked (transaction : P.Tx) (l : List (CoreExchange B)) : Prop :=
  ⟨.lockUnspent (spentOutputs transaction), .ok true⟩ ∈ l

/-- The wallet of the node has exactly this transaction, which is not in conflict with another. -/
def WalletKeeps (transaction : P.Tx) (l : List (CoreExchange B)) : Prop :=
  ∃ result : WalletTransaction P, ⟨.getTransaction (P.computeTxid transaction), .ok result⟩ ∈ l ∧
    result.hex = .valid transaction ∧ 0 ≤ result.confirmations ∧ result.walletconflicts = []

/-- The node would take the transaction into its mempool. -/
def MempoolAccepts (transaction : P.Tx) (l : List (CoreExchange B)) : Prop :=
  ∃ result : MempoolAccept P, ⟨.testMempoolAccept transaction, .ok [result]⟩ ∈ l ∧
    result.txid = P.computeTxid transaction ∧ result.allowed = true

theorem tryCall_trace {query : CoreQuery P} {reply : Except RpcError (query.Answer B)}
    (h : Trace (tryCall query) l (pure reply)) : l = [⟨query, reply⟩] := h.of_question_ok

theorem call_trace {query : CoreQuery P} {context : String} {answer : query.Answer B}
    (h : Trace (call query context) l (pure answer)) : l = [⟨query, .ok answer⟩] := by
  obtain ⟨reply, l₁, l₂, rfl, hreply, hof⟩ := h.of_bind_ok
  obtain ⟨rfl, hanswer⟩ := hof.of_of_ok
  rw [tryCall_trace hreply, List.append_nil]
  cases reply with
  | error error => cases hanswer
  | ok found =>
    cases hanswer
    rfl

theorem verifyWallet_trace (h : Trace self.verifyWallet l (pure ())) : WalletOpened self l := by
  obtain ⟨info, l₁, l₂, rfl, hcall, hof⟩ := h.of_bind_ok
  obtain ⟨rfl, hchecks⟩ := hof.of_of_ok
  simp only [Except.bind_eq_ok, Except.ensure_eq_ok, exists_unit] at hchecks
  rw [call_trace hcall]
  exact ⟨info, List.mem_cons_self, hchecks⟩

theorem ensureInputsLocked_trace (h : Trace (ensureInputsLocked transaction) l (pure ())) :
    InputsLocked transaction l := by
  obtain ⟨locked, l₁, l₂, rfl, hcall, hof⟩ := h.of_bind_ok
  obtain ⟨rfl, hchecks⟩ := hof.of_of_ok
  rw [call_trace hcall, Except.ensure_eq_ok.1 hchecks]
  exact List.mem_cons_self

theorem testPreparedFunding_trace {expectedFee : Option Nat}
    (h : Trace (testPreparedFunding transaction expectedFee) l (pure ())) :
    MempoolAccepts transaction l := by
  obtain ⟨results, l₁, l₂, rfl, hcall, hof⟩ := h.of_bind_ok
  obtain ⟨rfl, hchecks⟩ := hof.of_of_ok
  simp only [Except.bind_eq_ok, Except.ensure_eq_ok, exists_unit, Except.context_eq_ok] at hchecks
  obtain ⟨result, hhead, ⟨hlength, hid⟩, hallowed, -⟩ := hchecks
  obtain ⟨entry, rfl⟩ := List.length_eq_one_iff.1 hlength
  cases hhead
  rw [call_trace hcall]
  exact ⟨_, List.mem_cons_self, hid, hallowed⟩

theorem fundingTransactionState_trace {state : FundingTransactionState}
    (h : Trace (fundingTransactionState transaction) l (pure state)) (hstate : state ≠ .unknown) :
    WalletKeeps transaction l := by
  obtain ⟨reply, l₁, l₂, rfl, hcall, hrest⟩ := h.of_bind_ok
  cases tryCall_trace hcall
  cases reply with
  | error error =>
    cases error with
    | notFound =>
      cases hrest.of_pure.2
      exact absurd rfl hstate
    | other => cases hrest.of_of_ok.2
  | ok result =>
    obtain ⟨_, l₃, l₄, rfl, hof, -⟩ := hrest.of_bind_ok
    obtain ⟨rfl, hchecks⟩ := hof.of_of_ok
    simp only [Except.bind_eq_ok, Except.ensure_eq_ok, exists_unit] at hchecks
    obtain ⟨-, observed, hdecode, rfl, hconfirmations, hconflicts⟩ := hchecks
    exact ⟨result, List.mem_cons_self, HexTransaction.decode_eq_ok hdecode, hconfirmations,
      hconflicts⟩

/-- What is sent of a funding, and when. -/
structure SendsExactly (self : Core) (metadata : CoinMetadata P) (transaction : P.Tx)
    (past : List (CoreExchange B)) (query : CoreQuery P) : Prop where
  query : query = .sendRawTransaction transaction
  finalized : validateFinalizedFunding metadata transaction = .ok ()
  wallet : WalletOpened self past
  inputs : InputsLocked transaction past ∨ WalletKeeps transaction past
  accepted : MempoolAccepts transaction past

theorem broadcastFunding_careful (metadata : CoinMetadata P) :
    Careful CoreQuery.Submits (SendsExactly (B := B) self metadata transaction) []
      (self.broadcastFunding metadata transaction) := by
  refine (Careful.of_asks verifyWallet_reads).bind fun _ l₁ hwallet => ?_
  refine (Careful.of_asks .of).bind fun _ l₂ hof => ?_
  obtain ⟨rfl, hfinalized⟩ := hof.of_of_ok
  refine (Careful.of_asks (fundingTransactionState_reads _)).bind fun state l₃ hstate => ?_
  split
  · exact .of_asks .pure
  · have hreads : CoreReads (B := B) (if state = .unknown then ensureInputsLocked transaction
        else pure ()) := by
      split
      · exact ensureInputsLocked_reads _
      · exact .pure
    refine (Careful.of_asks hreads).bind fun _ l₄ hlock => ?_
    refine (Careful.of_asks (testPreparedFunding_reads _ _)).bind fun _ l₅ htest => ?_
    refine Careful.bind (.question fun _ => ⟨⟨rfl, hfinalized, ?_, ?_, ?_⟩, ?_⟩) fun reply l₆ _ =>
      .of_asks ?_
    · obtain ⟨info, hmem, hinfo⟩ := verifyWallet_trace hwallet
      exact ⟨info, by simp [hmem], hinfo⟩
    · split at hlock
      · have hmem := ensureInputsLocked_trace hlock
        exact Or.inl (by simp [InputsLocked] at hmem ⊢; simp [hmem])
      · rename_i hknown
        obtain ⟨result, hmem, hresult⟩ := fundingTransactionState_trace hstate hknown
        exact Or.inr ⟨result, by simp [hmem], hresult⟩
    · obtain ⟨result, hmem, hresult⟩ := testPreparedFunding_trace htest
      exact ⟨result, by simp [hmem], hresult⟩
    · intro exchange hmem
      simp only [List.nil_append, List.append_nil, List.mem_append] at hmem
      rcases hmem with ((hmem | hmem) | hmem) | hmem
      · exact verifyWallet_reads.exchange hwallet hmem
      · exact (fundingTransactionState_reads _).exchange hstate hmem
      · exact hreads.exchange hlock hmem
      · exact (testPreparedFunding_reads _ _).exchange htest hmem
    · cases reply with
      | ok txid => exact Asks.of.bind fun _ => .pure
      | error error =>
        exact (fundingTransactionState_reads _).bind fun _ => Asks.of.bind fun _ => .pure

theorem broadcastFunding_trace {metadata : CoinMetadata P} {txid : P.Txid}
    (h : Trace (self.broadcastFunding metadata transaction) l (pure txid)) :
    txid = P.computeTxid transaction ∧
      (WalletKeeps transaction l ∨ ⟨.sendRawTransaction transaction, .ok txid⟩ ∈ l) := by
  obtain ⟨_, l₁, l₂, rfl, -, h⟩ := h.of_bind_ok
  obtain ⟨_, l₃, l₄, rfl, -, h⟩ := h.of_bind_ok
  obtain ⟨state, l₅, l₆, rfl, hstate, hrest⟩ := h.of_bind_ok
  split at hrest
  · rename_i hknown
    cases hrest.of_pure.2
    obtain ⟨result, hmem, hresult⟩ := fundingTransactionState_trace hstate (by simp [hknown])
    exact ⟨rfl, Or.inl ⟨result, by simp [hmem], hresult⟩⟩
  · obtain ⟨_, l₇, l₈, rfl, -, hrest⟩ := hrest.of_bind_ok
    obtain ⟨_, l₉, l₁₀, rfl, -, hrest⟩ := hrest.of_bind_ok
    obtain ⟨reply, l₁₁, l₁₂, rfl, hsend, hreply⟩ := hrest.of_bind_ok
    cases tryCall_trace hsend
    cases reply with
    | ok returned =>
      obtain ⟨_, l₁₃, l₁₄, rfl, hof, hpure⟩ := hreply.of_bind_ok
      obtain ⟨rfl, hsame⟩ := hof.of_of_ok
      cases hpure.of_pure.2
      exact ⟨Except.ensure_eq_ok.1 hsame, Or.inr (by simp)⟩
    | error error =>
      obtain ⟨state, l₁₃, l₁₄, rfl, hagain, hend⟩ := hreply.of_bind_ok
      obtain ⟨_, l₁₅, l₁₆, rfl, hof, hpure⟩ := hend.of_bind_ok
      obtain ⟨rfl, hknown⟩ := hof.of_of_ok
      cases hpure.of_pure.2
      obtain ⟨result, hmem, hresult⟩ := fundingTransactionState_trace hagain
        (by simp [Except.ensure_eq_ok.1 hknown])
      exact ⟨rfl, Or.inl ⟨result, by simp [hmem], hresult⟩⟩

/-- Whatever the node answers, and wherever the client is stopped, a funding is sent at most once, and
only if its wallet is the expected one, has locked its inputs or kept the transaction, and the mempool
would take it. A broadcast that succeeds was accepted, or the wallet has exactly the transaction. -/
theorem broadcast_funding_guarded (self : Core) (metadata : CoinMetadata P) (transaction : P.Tx)
    (l : List (CoreExchange B)) (rest : CoreM B P.Txid)
    (htrace : Trace (self.broadcastFunding metadata transaction) l rest) :
    (∀ before exchange after, l = before ++ exchange :: after → exchange.query.Submits →
      SendsExactly self metadata transaction before exchange.query ∧
        ∀ earlier ∈ before, ¬ earlier.query.Submits) ∧
    ∀ txid, rest = pure txid → txid = P.computeTxid transaction ∧
      (WalletKeeps transaction l ∨ ⟨.sendRawTransaction transaction, .ok txid⟩ ∈ l) := by
  refine ⟨fun before exchange after hl hsubmits => ?_, ?_⟩
  · exact (broadcastFunding_careful metadata).submitted htrace hl hsubmits
  · rintro txid rfl
    exact broadcastFunding_trace htrace

/-! ### An exact transaction -/

/-- The node has shown the transaction, or its wallet has. -/
def NodeShows (txid : P.Txid) (transaction : P.Tx) (l : List (CoreExchange B)) : Prop :=
  (∃ info : RawTransactionInfo P, ⟨.getRawTransactionInfo txid, .ok info⟩ ∈ l ∧
    info.transaction = some transaction ∧ info.inActiveChain ≠ some false) ∨
  ∃ result : WalletTransaction P, ⟨.getTransaction txid, .ok result⟩ ∈ l ∧
    result.hex = .valid transaction ∧ 0 ≤ result.confirmations ∧ result.walletconflicts = []

theorem NodeShows.mono {txid : P.Txid} {l' : List (CoreExchange B)}
    (h : NodeShows txid transaction l) (hl : ∀ exchange ∈ l, exchange ∈ l') :
    NodeShows txid transaction l' := by
  rcases h with ⟨info, hmem, hinfo⟩ | ⟨result, hmem, hresult⟩
  · exact Or.inl ⟨info, hl _ hmem, hinfo⟩
  · exact Or.inr ⟨result, hl _ hmem, hresult⟩

/-- Neither the node nor its wallet knew the transaction, or the wallet kept it outside of the
mempool. -/
def NodeMisses (txid : P.Txid) (l : List (CoreExchange B)) : Prop :=
  ⟨.getRawTransactionInfo txid, .error .notFound⟩ ∈ l ∧
    (⟨.getTransaction txid, .error .notFound⟩ ∈ l ∨ ⟨.getMempoolEntry txid, .error .notFound⟩ ∈ l)

theorem isInMempool_trace {txid : P.Txid} {context : String}
    (h : Trace (isInMempool txid context) l (pure false)) :
    ⟨.getMempoolEntry txid, .error .notFound⟩ ∈ l := by
  obtain ⟨reply, l₁, l₂, rfl, hcall, hrest⟩ := h.of_bind_ok
  cases tryCall_trace hcall
  cases reply with
  | ok => cases hrest.of_pure.2
  | error error =>
    cases error with
    | notFound => exact List.mem_cons_self
    | other => cases hrest.of_of_ok.2

theorem walletTransactionObservation_trace {txid : P.Txid}
    {answer : Option (TransactionObservation P)}
    (h : Trace (self.walletTransactionObservation txid) l (pure answer)) :
    (answer = none → ⟨.getTransaction txid, .error .notFound⟩ ∈ l ∨
      ⟨.getMempoolEntry txid, .error .notFound⟩ ∈ l) ∧
    ∀ observed, answer = some observed → ∃ result : WalletTransaction P,
      ⟨.getTransaction txid, .ok result⟩ ∈ l ∧ result.hex = .valid observed.transaction ∧
      0 ≤ result.confirmations ∧ result.walletconflicts = [] := by
  obtain ⟨reply, l₁, l₂, rfl, hcall, hrest⟩ := h.of_bind_ok
  cases tryCall_trace hcall
  cases reply with
  | error error =>
    cases error with
    | notFound =>
      obtain ⟨-, hanswer⟩ := hrest.of_pure
      cases hanswer
      exact ⟨fun _ => Or.inl List.mem_cons_self, fun _ h => by cases h⟩
    | other => cases hrest.of_of_ok.2
  | ok result =>
    obtain ⟨_, l₃, l₄, rfl, hof, hchecked⟩ := hrest.of_bind_ok
    obtain ⟨rfl, hchecks⟩ := hof.of_of_ok
    simp only [Except.bind_eq_ok, Except.ensure_eq_ok, exists_unit] at hchecks
    obtain ⟨known, l₅, l₆, rfl, hknown, hfound⟩ := hchecked.of_bind_ok
    split at hfound
    · obtain ⟨transaction, l₇, l₈, rfl, hof, htip⟩ := hfound.of_bind_ok
      obtain ⟨rfl, hdecoded⟩ := hof.of_of_ok
      simp only [Except.bind_eq_ok, Except.ensure_eq_ok, exists_unit, Except.pure_eq_ok] at hdecoded
      obtain ⟨_, hdecode, -, rfl⟩ := hdecoded
      obtain ⟨tipHeight, l₉, l₁₀, rfl, -, hend⟩ := htip.of_bind_ok
      cases hend.of_pure.2
      refine ⟨fun h => (by cases h), fun observed hsame => ?_⟩
      cases hsame
      exact ⟨result, List.mem_cons_self, HexTransaction.decode_eq_ok hdecode, hchecks.2⟩
    · rename_i hmissing
      cases hfound.of_pure.2
      refine ⟨fun _ => Or.inr ?_, fun _ h => by cases h⟩
      split at hknown
      · rw [Bool.eq_false_iff.2 hmissing] at hknown
        have hmem := isInMempool_trace hknown
        simp [hmem]
      · cases hknown.of_pure.2
        exact absurd rfl hmissing

theorem transactionObservation_trace {txid : P.Txid} {answer : Option (TransactionObservation P)}
    (h : Trace (self.transactionObservation txid) l (pure answer)) :
    (answer = none → NodeMisses txid l) ∧
    ∀ observed, answer = some observed → NodeShows txid observed.transaction l := by
  obtain ⟨reply, l₁, l₂, rfl, hcall, hrest⟩ := h.of_bind_ok
  cases tryCall_trace hcall
  cases reply with
  | ok info =>
    obtain ⟨transaction, l₃, l₄, rfl, hof, htip⟩ := hrest.of_bind_ok
    obtain ⟨rfl, hchecks⟩ := hof.of_of_ok
    simp only [Except.bind_eq_ok, Except.ensure_eq_ok, exists_unit, Except.context_eq_ok] at hchecks
    obtain ⟨-, hactive, htransaction⟩ := hchecks
    obtain ⟨tipHeight, l₅, l₆, rfl, -, hend⟩ := htip.of_bind_ok
    cases hend.of_pure.2
    refine ⟨fun h => (by cases h), fun observed hsame => ?_⟩
    cases hsame
    exact Or.inl ⟨info, List.mem_cons_self, htransaction, hactive⟩
  | error error =>
    cases error with
    | notFound =>
      obtain ⟨hnone, hsome⟩ := walletTransactionObservation_trace hrest
      refine ⟨fun hanswer => ⟨List.mem_cons_self, ?_⟩, fun observed hanswer => Or.inr ?_⟩
      · exact (hnone hanswer).imp (List.mem_cons_of_mem _) (List.mem_cons_of_mem _)
      · obtain ⟨result, hmem, hresult⟩ := hsome observed hanswer
        exact ⟨result, List.mem_cons_of_mem _ hmem, hresult⟩
    | other => cases hrest.of_of_ok.2

theorem isObserved_trace {known : Bool} (h : Trace (self.isObserved transaction) l (pure known)) :
    (known = false → NodeMisses (P.computeTxid transaction) l) ∧
      (known = true → NodeShows (P.computeTxid transaction) transaction l) := by
  obtain ⟨answer, l₁, l₂, rfl, hobserved, hrest⟩ := h.of_bind_ok
  obtain ⟨hnone, hsome⟩ := transactionObservation_trace hobserved
  cases answer with
  | none =>
    obtain ⟨rfl, hknown⟩ := hrest.of_pure
    cases hknown
    rw [List.append_nil]
    exact ⟨fun _ => hnone rfl, fun h => by cases h⟩
  | some observed =>
    obtain ⟨_, l₃, l₄, rfl, hof, hpure⟩ := hrest.of_bind_ok
    obtain ⟨rfl, hexact⟩ := hof.of_of_ok
    obtain ⟨rfl, hknown⟩ := hpure.of_pure
    cases hknown
    rw [List.append_nil, List.append_nil]
    refine ⟨fun h => (by cases h), fun _ => ?_⟩
    have hshown := hsome observed rfl
    rwa [Except.ensure_eq_ok.1 hexact] at hshown

/-- What is sent, and when. -/
structure SendsUnseen (transaction : P.Tx) (past : List (CoreExchange B)) (query : CoreQuery P) :
    Prop where
  query : query = .sendRawTransaction transaction
  valid : validateFundingInputs transaction = .ok ()
  misses : NodeMisses (P.computeTxid transaction) past

theorem broadcastExact_careful :
    Careful CoreQuery.Submits (SendsUnseen (B := B) transaction) []
      (self.broadcastExact transaction) := by
  refine (Careful.of_asks .of).bind fun _ l₁ hof => ?_
  obtain ⟨rfl, hvalid⟩ := hof.of_of_ok
  refine (Careful.of_asks (isObserved_reads _)).bind fun known l₂ hknown => ?_
  split
  · exact .of_asks .pure
  · rename_i hmissing
    have hmisses := (isObserved_trace hknown).1 (by simpa using hmissing)
    have hquiet : ∀ exchange ∈ l₂, ¬ exchange.query.Submits := fun exchange hmem =>
      (isObserved_reads _).exchange hknown hmem
    refine Careful.bind (.question fun _ => ⟨⟨rfl, hvalid, hmisses⟩, hquiet⟩) fun reply l₃ _ => ?_
    refine .of_asks ?_
    cases reply with
    | ok txid =>
      exact Asks.of.bind fun _ => (isObserved_reads _).bind fun _ => Asks.of.bind fun _ => .pure
    | error error => exact (isObserved_reads _).bind fun _ => Asks.of.bind fun _ => .pure

/-- A success that is reported after another look. -/
theorem observedAgain_trace {error : String} {txid : P.Txid}
    (h : Trace (do
      let observed ← self.isObserved transaction
      Program.of (ensure (observed = true) error)
      return P.computeTxid transaction) l (pure txid)) :
    txid = P.computeTxid transaction ∧ NodeShows (P.computeTxid transaction) transaction l := by
  obtain ⟨known, l₁, l₂, rfl, hknown, hrest⟩ := h.of_bind_ok
  obtain ⟨_, l₃, l₄, rfl, hof, hpure⟩ := hrest.of_bind_ok
  obtain ⟨rfl, hobserved⟩ := hof.of_of_ok
  obtain ⟨rfl, htxid⟩ := hpure.of_pure
  cases htxid
  rw [List.append_nil, List.append_nil]
  exact ⟨rfl, (isObserved_trace hknown).2 (Except.ensure_eq_ok.1 hobserved)⟩

theorem broadcastExact_trace {txid : P.Txid}
    (h : Trace (self.broadcastExact transaction) l (pure txid)) :
    txid = P.computeTxid transaction ∧ NodeShows (P.computeTxid transaction) transaction l := by
  obtain ⟨_, l₁, l₂, rfl, hof, hrest⟩ := h.of_bind_ok
  obtain ⟨rfl, -⟩ := hof.of_of_ok
  obtain ⟨known, l₃, l₄, rfl, hknown, hrest⟩ := hrest.of_bind_ok
  split at hrest
  · rename_i htrue
    obtain ⟨rfl, htxid⟩ := hrest.of_pure
    cases htxid
    rw [List.append_nil]
    exact ⟨rfl, (isObserved_trace hknown).2 htrue⟩
  · obtain ⟨reply, l₅, l₆, rfl, -, hreply⟩ := hrest.of_bind_ok
    cases reply with
    | ok returned =>
      obtain ⟨_, l₇, l₈, rfl, -, hagain⟩ := hreply.of_bind_ok
      obtain ⟨hid, hshows⟩ := observedAgain_trace hagain
      exact ⟨hid, hshows.mono fun exchange hmem => by simp [hmem]⟩
    | error error =>
      obtain ⟨hid, hshows⟩ := observedAgain_trace hreply
      exact ⟨hid, hshows.mono fun exchange hmem => by simp [hmem]⟩

/-- Whatever the node answers, and wherever the client is stopped, it sends at most the exact
transaction, once, after the node did not know it; and a broadcast that succeeds was shown the exact
transaction. -/
theorem broadcast_sends_exactly_once (self : Core) (transaction : P.Tx) (l : List (CoreExchange B))
    (rest : CoreM B P.Txid) (htrace : Trace (self.broadcastExact transaction) l rest) :
    (∀ before exchange after, l = before ++ exchange :: after → exchange.query.Submits →
      SendsUnseen transaction before exchange.query ∧
        ∀ earlier ∈ before, ¬ earlier.query.Submits) ∧
    ∀ txid, rest = pure txid → txid = P.computeTxid transaction ∧
      NodeShows (P.computeTxid transaction) transaction l := by
  refine ⟨fun before exchange after hl hsubmits => ?_, ?_⟩
  · exact broadcastExact_careful.submitted htrace hl hsubmits
  · rintro txid rfl
    exact broadcastExact_trace htrace

/-! ### A node that takes the funding -/

section Alice

open Symbolic Explorer

def aliceCore : Core := ⟨"alice", .regtest⟩

/-- A node with the wallet of Alice, which knows the funding after it was sent. -/
def aliceNode (sent : Bool) : (query : CoreQuery platform) → query.Reply aliceChain × Bool
  | .getWalletInfo => (.ok { walletName := "alice", privateKeysEnabled := true }, sent)
  | .getBlockchainInfo =>
    (.ok { chain := "regtest", blocks := 5, bestBlockHash := (5 : Nat) }, sent)
  | .getRawTransactionInfo txid =>
    (if sent = true then .ok {
        txid, inActiveChain := none, transaction := some signedFunding, confirmations := none }
      else .error .notFound, sent)
  | .lockUnspent _ => (.ok true, sent)
  | .testMempoolAccept transaction =>
    (.ok [{
      txid := platform.computeTxid transaction
      allowed := true
      rejectReason := none
      baseFee := none }], sent)
  | .sendRawTransaction transaction => (.ok (platform.computeTxid transaction), true)
  | _ => (.error .notFound, sent)

theorem broadcast_sends_exactly_once_sent : ∃ before after,
    exchanges aliceNode (aliceCore.broadcastExact signedFunding) false =
      before ++ ⟨.sendRawTransaction signedFunding, .ok (18 : Nat)⟩ :: after ∧
    SendsUnseen signedFunding before (.sendRawTransaction signedFunding) := by
  obtain ⟨hsent, -⟩ := broadcast_sends_exactly_once aliceCore signedFunding _ _
    (@trace_exchanges _ _ _ _ _ aliceNode (aliceCore.broadcastExact signedFunding) false)
  have hexchanges : exchanges aliceNode (aliceCore.broadcastExact signedFunding) false =
      [_, _] ++ ⟨.sendRawTransaction signedFunding, .ok (18 : Nat)⟩ :: [_, _] := rfl
  exact ⟨_, _, hexchanges, (hsent _ _ _ hexchanges trivial).1⟩

theorem broadcast_funding_guarded_sent : ∃ before,
    exchanges aliceNode (aliceCore.broadcastFunding fundedMetadata signedFunding) false =
      before ++ [⟨.sendRawTransaction signedFunding, .ok (18 : Nat)⟩] ∧
    SendsExactly aliceCore fundedMetadata signedFunding before
      (.sendRawTransaction signedFunding) := by
  obtain ⟨hsent, -⟩ := broadcast_funding_guarded aliceCore fundedMetadata signedFunding _ _
    (@trace_exchanges _ _ _ _ _ aliceNode
      (aliceCore.broadcastFunding fundedMetadata signedFunding) false)
  have hexchanges : exchanges aliceNode
      (aliceCore.broadcastFunding fundedMetadata signedFunding) false =
      [_, _, _, _] ++ [⟨.sendRawTransaction signedFunding, .ok (18 : Nat)⟩] := rfl
  exact ⟨_, hexchanges, (hsent _ _ _ hexchanges trivial).1⟩

end Alice

end Core

/-! ## Through either backend -/

/-- Whichever chain backend a wallet has, whatever it is answered, and wherever it is stopped: while it
asks a question that submits nothing, nothing is submitted to the network. -/
theorem observes_without_submitting (query : Query P) (hquery : ¬ query.Submits) :
    (∀ (self : Explorer) inquiry l rest, self.answer (B := B) query = some inquiry →
      Trace inquiry l rest → ∀ exchange ∈ l, ¬ exchange.query.Submits) ∧
    ∀ (self : Core) inquiry l rest, self.answer (B := B) query = some inquiry →
      Trace inquiry l rest → ∀ exchange ∈ l, ¬ exchange.query.Submits :=
  ⟨fun _ _ _ _ hanswer htrace _ hmem => (Explorer.answer_reads hanswer hquery).exchange htrace hmem,
    fun _ _ _ _ hanswer htrace _ hmem => (Core.answer_reads hanswer hquery).exchange htrace hmem⟩

section Alice

open Symbolic

theorem observes_without_submitting_funding :
    (exchanges Core.aliceNode (Core.aliceCore.verifyFunding fundedMetadata 1) false).length = 2 ∧
      ∀ exchange ∈ exchanges Core.aliceNode (Core.aliceCore.verifyFunding fundedMetadata 1) false,
        ¬ exchange.query.Submits :=
  ⟨rfl, (observes_without_submitting (.verifyFunding fundedMetadata 1) id).2 Core.aliceCore _ _ _ rfl
    (@trace_exchanges _ _ _ _ _ Core.aliceNode _ false)⟩

end Alice

end Tinylayer
