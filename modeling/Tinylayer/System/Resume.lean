import Tinylayer.Native.Cli
import Tinylayer.System.World

/-!
# Resuming

What it means that a command resumes a signing request that a wallet has saved: it is run again,
while the live signer answers for the enclave, and goes through.
-/

namespace Tinylayer

open Durable

variable {P : Platform} {LIMIT : Nat}

/-- The live signer answers for the enclave, and `rest` is everybody else's answer. -/
def liveSigner (draws : Signer.Draws P) (rest : (query : Query P) → query.Reply)
    (σ : Signer P LIMIT) : (query : Query P) → query.Reply × Signer P LIMIT
  | .connectEnclave => (.ok (), σ)
  | .status coinId => ((σ.status coinId).mapError Signer.Error.message, σ)
  | .register request =>
    match Signer.register draws request σ with
    | .ok status σ' => (.ok status, σ')
    | .error e σ' => (.error e.message, σ')
  | .sign request =>
    match Signer.sign draws request σ with
    | .ok response σ' => (.ok response, σ')
    | .error e σ' => (.error e.message, σ')
  | query => (rest query, σ)

/-- The chain can be reached, whatever it shows of a funding, and the envelope can be written. -/
structure ChainAnswers (rest : (query : Query P) → query.Reply) : Prop where
  connectChain : rest .connectChain = .ok ()
  observeFunding : ∀ metadata, ∃ observation, rest (.observeFunding metadata) = .ok observation
  writeEnvelope : ∀ envelope, rest (.writeEnvelope envelope) = .ok ()

/-- The wallet connects to the chain and to the enclave of the configuration. -/
structure Config.Connects (config : Config) : Prop where
  supported : config.Supported
  enclave : config.network = .regtest ∨ config.enclave.isProduction = true

/-- The transfer is in the journal, or it was completed. -/
def WalletState.Sends (s : WalletState P) (request : TransferRequest) : Prop :=
  s.pendingTransferRequest = .ok request ∨
    ∃ outgoing, s.coin.bind WalletCoin.outgoing = some outgoing ∧ outgoing.request = request

/-- The part of `fund_coin` that has a journaled recovery signed and completes it. -/
def resumeFunding (config : Config) (native : NativeWalletState P) : Cli P (WalletState P) := do
  if config.chain.isExplorer = true then do
    let (native, connected) ← signExplorerFunding config native
    let native ← secureExplorerFunding config native connected
    return native.wallet
  else do
    connectIf config true
    resumeCoreFunding config true native.wallet

/-- With the signer `σ`, a saved transfer is sent. -/
def TransferResumes (σ : Signer P LIMIT) (s : WalletState P) : Prop :=
  ∀ (config : Config) (native : NativeWalletState P) (draws : Signer.Draws P)
    (rest : (query : Query P) → query.Reply) (envelopeDraws : EnvelopeDraws P)
    (request : TransferRequest),
    config.Connects → ChainAnswers rest → native.wallet = s → native.exit = none →
    native.validate config.network = .ok () → request.validate P = .ok () → s.Sends request →
    Reaches (answering (liveSigner draws rest)) (Command.sign envelopeDraws request)
      (fun report v => (∃ existing envelope, report = .transferSent existing request envelope) ∧
        v.saved.wallet.Transferred ∧ v.env = σ)
      (signTransfer config envelopeDraws request) { saved := native, env := σ, log := [] }

/-- With the signer `σ`, a saved funding gets its recovery. -/
def FundingResumes (σ : Signer P LIMIT) (s : WalletState P) : Prop :=
  ∀ (config : Config) (native : NativeWalletState P) (draws : Signer.Draws P)
    (rest : (query : Query P) → query.Reply) (c : Command P) (nextCapability : Capability)
    (secret : Bytes32) (stage : RecoveryStage P),
    config.Connects → native.wallet = s → native.exit = none →
    native.validate config.network = .ok () →
    s.signing = some ⟨.fund nextCapability secret, stage⟩ →
    Reaches (answering (liveSigner draws rest)) c
      (fun wallet v => v.saved.wallet = wallet ∧ wallet.Secured ∧ wallet.pending = none ∧ v.env = σ)
      (resumeFunding config native) { saved := native, env := σ, log := [] }

namespace World

variable {ι : Type} [DecidableEq ι]

/-- Nobody but the wallet has presented the authorization that the signature sets. -/
structure Unopened (w : World ι P LIMIT) (i : ι) (entry : Signer.Issuance P) : Prop where
  others : ∀ request ∈ w.others, Signer.presented request ≠ Signer.committed entry
  wallets : ∀ a ∈ w.sent, a.wallet ≠ i → Signer.presented a.request ≠ Signer.committed entry

/-- The signer has answered the request in the saved journal of the wallet, if there is one, and the
authorization that the answer sets is still the wallet's secret. -/
def Committed (w : World ι P LIMIT) (i : ι) : Prop :=
  ∀ request, w.Journaled i request →
    ∃ response, (request, response) ∈ w.log request.coinId ∧ w.Unopened i (request, response)

/-- The signatures issued for a coin to requests that present this pair. -/
def issuedFor (w : World ι P LIMIT) (coinId : CoinId) (capability : Capability)
    (handoff : HandoffToken) : List (Signer.Issuance P) :=
  (w.log coinId).filter fun entry =>
    entry.1.currentCapability = capability ∧ entry.1.currentHandoff = handoff

/-- What was sent with one pair of capability and handoff token is one request, which the signer
counts at most once and answers in one way, and whatever was saved when it has been counted goes
through. -/
structure SignsOnce (w : World ι P LIMIT) : Prop where
  held : ∀ a ∈ w.sent, a.pair = some (a.request.currentCapability, a.request.currentHandoff)
  same : ∀ a ∈ w.sent, ∀ b ∈ w.sent, a.wallet = b.wallet → a.pair = b.pair →
    a.request = b.request
  counted : ∀ coinId coin, w.signer.coins.lookup coinId = some coin →
    coin.signatureCount = (w.log coinId).length
  once : ∀ a ∈ w.sent, (w.issuedFor a.request.coinId a.request.currentCapability
    a.request.currentHandoff).length ≤ 1
  answer : ∀ a ∈ w.sent, ∀ b ∈ w.sent, a.wallet = b.wallet → a.pair = b.pair →
    ∀ response response', (a.request, response) ∈ w.replies →
      (b.request, response') ∈ w.replies → response = response'
  resumes : ∀ i, w.Committed i →
    TransferResumes w.signer (w.disk i) ∧ FundingResumes w.signer (w.disk i)

end World

end Tinylayer
