import Tinylayer.Native.FundCommand

/-!
# Registering and transferring

`coin register`, `transfer request`, `coin sign` and `transfer accept` of `wallet/src/cli.rs`. The
files that they read are arguments.
-/

namespace Tinylayer

open Durable

variable {P : Platform}

/-! ## Registering -/

/-- The part of `register_coin` for a wallet that has a coin. -/
def reportRegistration (config : Config) (wallet : WalletState P) (coin : WalletCoin P) :
    Cli P (Report P) := do
  Program.of do
    ensure (wallet.pending.isNone = true) "wallet has a pending operation"
    ensure (coin.metadata.isNone = true ∧ coin.history = [] ∧
        coin.currentCapability.isSome = true ∧ coin.currentHandoff = some initialHandoff ∧
        coin.outgoing.isNone = true) "coin has already left the registration stage"
  connectVerified config
  let status ← call (.status coin.keys.coinId)
  Program.of (coin.verifyLiveStatus status)
  return .registration true coin.keys

/-- The part of `register_coin` that journals the registration. -/
def prepareRegistrationRequest (config : Config) (draws : WalletState.RegistrationDraws P)
    (wallet : WalletState P) : Cli P (WalletState P × RegisterRequest P) := do
  match wallet.pending with
  | none => do
    let (request, wallet) ← Program.of ((WalletState.beginRegistration draws).attempt wallet)
    save config wallet
    return (wallet, request)
  | some (.registration _ _ registration) => return (wallet, registration.request)
  | some (.recovery _) =>
    Program.of (.error "wallet has a pending signing operation; resume that command first")

/-- `register_coin`. -/
def registerCoin (config : Config) (draws : WalletState.RegistrationDraws P) :
    Cli P (Report P) := do
  openWallet config
  let native ← loadNative config
  match native.wallet.coin with
  | some coin => reportRegistration config native.wallet coin
  | none => do
    connectVerified config
    let (wallet, request) ← prepareRegistrationRequest config draws native.wallet
    let status ← call (.register request)
    let (_, wallet) ← Program.of ((WalletState.completeRegistration status).attempt wallet)
    save config wallet
    let coin ← Program.of (wallet.coin.context "coin inserted")
    return .registration false coin.keys

/-! ## Receiving -/

/-- `create_transfer_request`. -/
def createTransferRequest (config : Config) (draws : WalletState.RequestDraws P) (coinId : CoinId)
    (outpoint : OutPoint P.Txid) (amountSat : Nat) (minimumReactionBlocks : Option Nat) :
    Cli P (Report P) := do
  openWallet config
  let native ← loadNative config
  let wallet := native.wallet
  let requestedMargin := max config.minReactionBlocks (minimumReactionBlocks.getD 0)
  match wallet.incoming with
  | some _ => do
    let (request, _) ← Program.of ((WalletState.beginTransferRequest draws config.network coinId
      outpoint amountSat requestedMargin).attempt wallet)
    call (.writeRequest request)
    return .transferRequested request
  | none => do
    call .destinationAvailable
    let (request, wallet) ← Program.of ((WalletState.beginTransferRequest draws config.network
      coinId outpoint amountSat requestedMargin).attempt wallet)
    save config wallet
    call (.writeRequest request)
    return .transferRequested request

/-- `accept_transfer`. -/
def acceptTransfer (reader : PayloadReader P) (config : Config)
    (request : TransferRequest) (envelope : TransferEnvelope) : Cli P (Report P) := do
  Program.of (request.validate P)
  openWallet config
  let native ← loadNative config
  let wallet := native.wallet
  match wallet.coin with
  | some coin => do
    Program.of (ensure (coin.acceptedRequest = some request ∧
        coin.acceptedEnvelopeFingerprint = some envelope.fingerprint)
      "wallet already contains a different coin or transfer")
    return .transferAccepted true request coin.history.length
  | none => do
    let payload ← Program.of do
      let incoming ← wallet.incoming.context "wallet has no matching transfer request"
      decryptTransfer reader request incoming.transportSecret envelope
    connectVerified config
    let status ← call (.status payload.metadata.keys.coinId)
    connectChain config
    let observation ← call (.observeFunding payload.metadata)
    let (accepted, wallet) ← Program.of ((WalletState.acceptTransfer reader config.network request
      envelope status observation.funding config.minConfirmations
      config.minReactionBlocks).attempt wallet)
    Program.of (ensure (accepted = true) "transfer was already accepted")
    save config wallet
    let coin ← Program.of (wallet.coin.context "accepted coin is missing")
    Program.of (ensure (coin.history ≠ []) "accepted transfer has no recovery history")
    return .transferAccepted false request status.signatureCount

/-! ## Sending -/

/-- The part of `sign_transfer` that journals the attempt; it also says whether the enclave was
connected. -/
def prepareTransfer (config : Config) (wallet : WalletState P) (request : TransferRequest) :
    Cli P (WalletState P × Bool) := do
  match wallet.pending with
  | some _ => do
    Program.of do
      let pending ← wallet.pendingTransferRequest
      ensure (pending = request) "pending signing request does not match input"
    return (wallet, false)
  | none => do
    call .destinationAvailable
    let metadata ← Program.of do
      let coin ← wallet.coin.context "wallet has no coin"
      coin.metadata.context "coin has no verified funding"
    connectVerified config
    let status ← call (.status metadata.keys.coinId)
    connectChain config
    let observation ← call (.observeFunding metadata)
    let (_, wallet) ← Program.of ((WalletState.beginTransfer config.network request status
      observation.funding config.minConfirmations config.minReactionBlocks).attempt wallet)
    save config wallet
    return (wallet, true)

/-- The part of `sign_transfer` that has the recovery signed. -/
def signPendingTransfer (config : Config) (wallet : WalletState P) (connected : Bool) :
    Cli P (WalletState P × Bool) := do
  match wallet.pending with
  | some (.recovery ⟨_, .prepared _⟩) => do
    connectIf config (!connected)
    let metadata ← Program.of
      ((wallet.coin.bind WalletCoin.metadata).context "pending transfer metadata is missing")
    let status ← call (.status metadata.keys.coinId)
    connectChain config
    let observation ← call (.observeFunding metadata)
    let request ← Program.of do
      wallet.validatePendingTransfer status observation.funding config.minConfirmations
        config.minReactionBlocks
      wallet.pendingSignRequest
    let response ← call (.sign request)
    let (_, wallet) ← Program.of ((WalletState.recordSignResponse response).attempt wallet)
    save config wallet
    return (wallet, true)
  | _ => return (wallet, connected)

/-- The part of `sign_transfer` that hands the coin on. -/
def completePendingTransfer (config : Config) (draws : EnvelopeDraws P) (wallet : WalletState P)
    (connected : Bool) (request : TransferRequest) : Cli P (Report P) := do
  connectIf config (!connected)
  let coin ← Program.of (wallet.coin.context "pending transfer coin is missing")
  let status ← call (.status coin.keys.coinId)
  let (envelope, wallet) ← Program.of ((WalletState.completeTransfer draws status).attempt wallet)
  save config wallet
  call (.writeEnvelope envelope)
  return .transferSent false request envelope

/-- `sign_transfer`. -/
def signTransfer (config : Config) (draws : EnvelopeDraws P) (request : TransferRequest) :
    Cli P (Report P) := do
  Program.of (request.validate P)
  openWallet config
  let native ← loadNative config
  match native.wallet.coin.bind WalletCoin.outgoing with
  | some outgoing => do
    Program.of (ensure (outgoing.request = request) "coin was transferred using another request")
    call (.writeEnvelope outgoing.envelope)
    return .transferSent true request outgoing.envelope
  | none => do
    Program.of (ensure (native.exit.isNone = true)
      "coin has a saved exit; finish that exact exit before transferring")
    let (wallet, connected) ← prepareTransfer config native.wallet request
    let (wallet, connected) ← signPendingTransfer config wallet connected
    completePendingTransfer config draws wallet connected request

end Tinylayer
