import Tinylayer.Native.Services

/-!
# Funding a coin

`coin fund` of `wallet/src/cli.rs`: `fund_coin` for Bitcoin Core and `fund_coin_explorer` for an
explorer. Both journal the funding transaction, have its recovery signed, and broadcast it.
-/

namespace Tinylayer

open Durable

variable {P : Platform}

variable (P) in
/-- What a command prints. -/
inductive Report
  | registration (existing : Bool) (keys : CoinKeys P)
  | funding (existing : Bool) (coinId : CoinId) (outpoint : OutPoint P.Txid) (amountSat feeSat : Nat)
      (recovery : SignedRecovery P)
  | transferRequested (request : TransferRequest)
  | transferSent (existing : Bool) (request : TransferRequest) (envelope : TransferEnvelope)
  | transferAccepted (existing : Bool) (request : TransferRequest) (signatureCount : Nat)
  | sweep (existing : Bool) (txid : P.Txid) (destination : String) (inputCount feeSat : Nat)
  | exitPrepared (parent child : P.Tx) (destination : String) (feeRateSatVb feeSat : Nat)
  | exit (existing : Bool) (parent child : P.Txid) (destination : String) (feeSat : Nat)

/-- The stage of the funding journal. -/
def WalletState.fundingStage (self : WalletState P) : Option FundingStage :=
  (self.coin.bind WalletCoin.funding).map FundingJournal.stage

/-- `emit_funding`. -/
def emitFunding (wallet : WalletState P) (existing : Bool) : Except String (Report P) := do
  let coin ← wallet.coin.context "funded coin is missing"
  let metadata ← coin.metadata.context "funded coin has no metadata"
  let funding ← coin.funding.context "funded coin has no funding journal"
  let recovery ← coin.history.head?.context "funded coin has no recovery"
  ensure (funding.stage = .broadcast) "funding has not been broadcast"
  return .funding existing coin.keys.coinId metadata.outpoint metadata.amountSat funding.feeSat
    recovery

/-- The check of the arguments against the saved funding, in `fund_coin` and
`fund_coin_explorer`. -/
def validateFundingPolicy (wallet : WalletState P)
    (amountSat delayBlocks feeRateSatVb maxFeeSat : Nat) : Except String Unit := do
  let coin ← wallet.coin.context "prepared funding coin is missing"
  let metadata ← coin.metadata.context "prepared funding metadata is missing"
  let funding ← coin.funding.context "prepared funding journal is missing"
  ensure (metadata.amountSat = amountSat ∧ funding.delayBlocks = delayBlocks ∧
      funding.feeRateSatVb = feeRateSatVb ∧ funding.maxFeeSat = maxFeeSat)
    "saved funding policy does not match this command"
  ensure (funding.feeSat ≤ maxFeeSat) "saved funding fee exceeds this command's maximum"

/-! ## Through Bitcoin Core -/

/-- The journal of a funding that Bitcoin Core has prepared. -/
def coreFunding (prepared : PreparedSourceFunding P)
    (delayBlocks feeRateSatVb maxFeeSat : Nat) : FundingJournal P where
  transaction := prepared.transaction
  delayBlocks := delayBlocks
  feeRateSatVb := feeRateSatVb
  maxFeeSat := maxFeeSat
  feeSat := prepared.feeSat
  stage := .prepared

/-- The part of `fund_coin` that journals the funding transaction. -/
def prepareCoreFunding (config : Config) (enclave : Bool) (wallet : WalletState P)
    (amountSat delayBlocks feeRateSatVb maxFeeSat : Nat) : Cli P (WalletState P) := do
  let coin ← Program.of (wallet.coin.context "register a coin first")
  match coin.funding with
  | some _ => return wallet
  | none => do
    Program.of do
      ensure (wallet.pending.isNone = true) "wallet has a pending operation"
      ensure (coin.currentCapability.isSome = true ∧ coin.currentHandoff = some initialHandoff ∧
          coin.metadata.isNone = true ∧ coin.history = [])
        "coin has already left the registration stage"
      ensure (enclave = true) "funding requires the enclave"
    let status ← call (.status coin.keys.coinId)
    Program.of do
      Client.lift (verifyStatus coin.keys status)
      let capability ← coin.currentCapability.context "capability checked above"
      ensure (status.signatureCount = 0 ∧ status.authorization =
          authorization coin.keys.coinId (capabilityHash capability) initialHandoff)
        "wallet authorization does not match enclave"
      requireReactionMargin 0 delayBlocks config.minReactionBlocks
    let prepared ← prepareFunding config coin.keys amountSat feeRateSatVb maxFeeSat
    let coin := { coin with
      metadata := some (coin.keys.metadata config.network prepared.outpoint amountSat)
      funding := some (coreFunding prepared delayBlocks feeRateSatVb maxFeeSat) }
    let wallet := { wallet with coin := some coin }
    save config wallet
    return wallet

/-- The check of the pending operation in `fund_coin`. -/
def validateCorePending (wallet : WalletState P) (delayBlocks : Nat) : Except String Unit := do
  match wallet.pending with
  | none => return ()
  | some (.recovery ⟨.fund .., stage⟩) =>
    ensure (stage.attempt.delayBlocks = delayBlocks)
      "pending funding recovery uses a different delay"
  | some (.recovery ⟨.transfer _, _⟩) =>
    throw "wallet has a pending transfer; resume coin sign"
  | some (.registration ..) => throw "wallet has a pending registration; resume coin register"

/-- The attempt that `fund_coin` journals. -/
def coreAttempt (draws : WalletState.FundingDraws P) (coin : WalletCoin P)
    (metadata : CoinMetadata P) (status : CoinStatus P) (delayBlocks : Nat) :
    Except String (PendingRecovery P) := do
  Client.lift (verifyStatus coin.keys status)
  ensure (status.signatureCount = 0) "coin already has signed recoveries"
  let capability ← coin.currentCapability.context "coin has already been transferred"
  let handoff ← coin.currentHandoff.context "registered coin has no current handoff token"
  ensure (status.authorization =
      authorization coin.keys.coinId (capabilityHash capability) handoff)
    "wallet authorization does not match enclave"
  let (request, prepared) ← Client.lift (prepareRecovery metadata status coin.clientSecret
    capability handoff (capabilityHash draws.nextCapability) (secretXonly draws.withdrawal)
    delayBlocks 0)
  return {
    purpose := .fund draws.nextCapability (P.secretBytes draws.withdrawal)
    stage := .prepared {
      expectedSignatureCount := status.signatureCount
      delayBlocks
      request
      prepared } }

/-- The part of `fund_coin` that journals the attempt to have the recovery signed. -/
def prepareCoreRecovery (config : Config) (enclave : Bool) (draws : WalletState.FundingDraws P)
    (wallet : WalletState P) (delayBlocks : Nat) : Cli P (WalletState P) := do
  let coin ← Program.of (wallet.coin.context "prepared funding coin is missing")
  let metadata ← Program.of (coin.metadata.context "prepared funding metadata is missing")
  let funding ← Program.of (coin.funding.context "prepared funding journal is missing")
  if funding.stage = .prepared ∧ wallet.pending = none then do
    call (.validatePreparedFunding metadata funding.transaction)
    Program.of (ensure (enclave = true) "funding requires the enclave")
    let status ← call (.status coin.keys.coinId)
    let pending ← Program.of (coreAttempt draws coin metadata status delayBlocks)
    let wallet := { wallet with pending := some (.recovery pending) }
    save config wallet
    return wallet
  else
    return wallet

/-- The checks in `finish_pending_funding_recovery` of an attempt that is not committed. -/
def checkCoreAttempt (config : Config) (coin : WalletCoin P) (metadata : CoinMetadata P)
    (status : CoinStatus P) (attempt : RecoveryAttempt P) : Cli P Unit := do
  let committed ← Program.of (attemptCommitted status attempt)
  if committed = true then
    return ()
  else do
    let funding ← Program.of do
      ensure (attemptUncommitted status attempt = true)
        "pending funding journal does not match live enclave state"
      let funding ← coin.funding.context "pending funding journal is missing"
      ensure (funding.stage = .prepared) "funding recovery was already secured"
      return funding
    connectChain config
    call (.validatePreparedFunding metadata funding.transaction)
    Program.of (requireReactionMargin 0 attempt.delayBlocks config.minReactionBlocks)

/-- The part of `finish_pending_funding_recovery` that has the recovery signed. -/
def signCoreFunding (config : Config) (wallet : WalletState P) : Cli P (WalletState P) := do
  match wallet.pending with
  | some (.recovery ⟨.fund .., .prepared attempt⟩) => do
    let coin ← Program.of (wallet.coin.context "pending funding coin is missing")
    let metadata ← Program.of (coin.metadata.context "pending funding metadata is missing")
    let status ← call (.status coin.keys.coinId)
    Program.of (Client.lift (verifyStatus coin.keys status))
    checkCoreAttempt config coin metadata status attempt
    let request ← Program.of wallet.pendingSignRequest
    let response ← call (.sign request)
    let (_, wallet) ← Program.of ((WalletState.recordSignResponse response).attempt wallet)
    save config wallet
    return wallet
  | _ => return wallet

/-- `finish_pending_funding_recovery`. -/
def finishPendingFundingRecovery (config : Config) (wallet : WalletState P) :
    Cli P (WalletState P) := do
  let wallet ← signCoreFunding config wallet
  let coin ← Program.of (wallet.coin.context "pending funding coin is missing")
  let status ← call (.status coin.keys.coinId)
  let (_, wallet) ← Program.of ((WalletState.completeFundingRecovery status).attempt wallet)
  save config wallet
  return wallet

/-- The part of `fund_coin` that resumes a pending recovery. -/
def resumeCoreFunding (config : Config) (enclave : Bool) (wallet : WalletState P) :
    Cli P (WalletState P) := do
  if wallet.pending.isSome = true then do
    Program.of (ensure (enclave = true) "funding requires the enclave")
    finishPendingFundingRecovery config wallet
  else
    return wallet

/-- The checks of `fund_coin` before the broadcast. -/
def checkSecuredFunding (wallet : WalletState P) :
    Except String (CoinMetadata P × FundingJournal P) := do
  let coin ← wallet.coin.context "secured funding coin is missing"
  let metadata ← coin.metadata.context "secured funding metadata is missing"
  let funding ← coin.funding.context "secured funding journal is missing"
  ensure (funding.stage = .recoverySecured ∨ funding.stage = .broadcast)
    "funding cannot be broadcast before its recovery is durable"
  let recovery ← coin.history.head?.context "secured funding recovery is missing"
  ensure (recovery.delayBlocks = funding.delayBlocks)
    "secured funding recovery has the wrong delay"
  Client.lift (verifyRecovery metadata recovery)
  return (metadata, funding)

/-- The part of `fund_coin` that broadcasts the funding transaction. -/
def broadcastCoreFunding (config : Config) (wallet : WalletState P) : Cli P (Report P) := do
  let (metadata, funding) ← Program.of (checkSecuredFunding wallet)
  let txid ← call (.broadcastFunding metadata funding.transaction)
  Program.of (ensure (txid = metadata.outpoint.txid)
    "broadcast funding txid does not match recovery outpoint")
  if funding.stage = .broadcast then
    Program.of (emitFunding wallet true)
  else do
    let wallet := { wallet with coin := wallet.coin.map WalletState.broadcastCoin }
    save config wallet
    Program.of (emitFunding wallet false)

/-- `fund_coin` with Bitcoin Core. -/
def fundCoinCore (config : Config) (draws : WalletState.FundingDraws P)
    (amountSat delayBlocks feeRateSatVb maxFeeSat : Nat) : Cli P (Report P) := do
  let native ← loadNative config
  let wallet := native.wallet
  let enclave := decide (wallet.pending.isSome = true ∨ wallet.fundingStage = none ∨
    wallet.fundingStage = some .prepared)
  connectIf config enclave
  connectChain config
  let wallet ← prepareCoreFunding config enclave wallet amountSat delayBlocks feeRateSatVb maxFeeSat
  Program.of do
    validateFundingPolicy wallet amountSat delayBlocks feeRateSatVb maxFeeSat
    validateCorePending wallet delayBlocks
  let wallet ← prepareCoreRecovery config enclave draws wallet delayBlocks
  let wallet ← resumeCoreFunding config enclave wallet
  broadcastCoreFunding config wallet

/-! ## Through an explorer -/

/-- The outputs that the saved sweep spends. -/
def NativeWalletState.sweepInputs (self : NativeWalletState P) : List (OutPoint P.Txid) :=
  (self.sourceSweep.elim [] SourceSweepJournal.sources).map SourceUtxo.outpoint

/-- The order in which a funding prefers deposits. -/
def SourceUtxo.le (a b : SourceUtxo P) : Prop :=
  a.output.value < b.output.value ∨
    a.output.value = b.output.value ∧ OutPoint.le a.outpoint b.outpoint

instance SourceUtxo.decidableLe (a b : SourceUtxo P) : Decidable (SourceUtxo.le a b) :=
  inferInstanceAs (Decidable (_ ∨ _))

/-- `max_by_key(|source| (source.output.value, source.outpoint))`. -/
def largestSource : List (SourceUtxo P) → Option (SourceUtxo P)
  | [] => none
  | source :: sources =>
    some (sources.foldl (fun best source => if SourceUtxo.le best source then source else best) source)

/-- The part of `fund_coin_explorer` that journals the funding transaction. -/
def prepareExplorerFunding (config : Config) (draws : WalletState.FundingDraws P)
    (native : NativeWalletState P) (amountSat delayBlocks feeRateSatVb maxFeeSat : Nat) :
    Cli P (NativeWalletState P) := do
  let coin ← Program.of (native.wallet.coin.context "register a coin first")
  match coin.funding with
  | some _ => return native
  | none => do
    Program.of (ensure (native.wallet.pending.isNone = true) "wallet has a pending operation")
    connectVerified config
    let status ← call (.status coin.keys.coinId)
    let address := sourceFundingAddress native.fundingSecret config.network
    let sources ← confirmedSourceUtxos config address
    let (_, wallet) ← Program.of do
      let source ← (largestSource (sources.filter fun source =>
        source.coinbase = false ∧ source.outpoint ∉ native.sweepInputs)).context
        s!"deposit confirmed sats at {P.addressToString address} before funding"
      (WalletState.beginFunding draws config.network native.fundingSecret source status amountSat
        delayBlocks feeRateSatVb maxFeeSat config.minReactionBlocks).attempt native.wallet
    saveNative config (native.withWallet wallet)
    return native.withWallet wallet

/-- The check of the pending operation in `fund_coin_explorer`. -/
def validateExplorerPending (wallet : WalletState P) (delayBlocks : Nat) : Except String Unit := do
  match wallet.pending with
  | none =>
    ensure (wallet.fundingStage ≠ some .prepared) "prepared funding has no recovery journal"
  | some (.recovery ⟨.fund .., stage⟩) =>
    ensure (stage.attempt.delayBlocks = delayBlocks)
      "pending funding recovery uses a different delay"
  | some (.recovery ⟨.transfer _, _⟩) =>
    throw "wallet has a pending transfer; resume coin sign"
  | some (.registration ..) => throw "wallet has a pending registration; resume coin register"

/-- `validate_explorer_prepared_funding`. -/
def validateExplorerPreparedFunding (config : Config) (native : NativeWalletState P) :
    Cli P Unit := do
  let (coin, metadata, funding, input) ← Program.of do
    let coin ← native.wallet.coin.context "prepared funding coin is missing"
    let metadata ← coin.metadata.context "prepared funding metadata is missing"
    let funding ← coin.funding.context "prepared funding journal is missing"
    ensure (funding.stage = .prepared) "funding recovery was already secured"
    let input ← funding.transaction.input.head?.context "prepared funding has no input"
    return (coin, metadata, funding, input)
  let address := sourceFundingAddress native.fundingSecret config.network
  let sources ← confirmedSourceUtxos config address
  Program.of do
    let source ← (sources.find? fun source => source.outpoint = input.previousOutput).context
      "prepared funding deposit is no longer confirmed and unspent"
    let expected ← buildSourceFunding coin.keys config.network native.fundingSecret source
      metadata.amountSat funding.feeRateSatVb funding.maxFeeSat
    ensure (expected.transaction = funding.transaction ∧ expected.outpoint = metadata.outpoint ∧
        expected.feeSat = funding.feeSat) "prepared funding transaction is not canonical"

/-- The checks in `fund_coin_explorer` of an attempt that is not committed. -/
def checkExplorerAttempt (config : Config) (native : NativeWalletState P) (status : CoinStatus P)
    (attempt : RecoveryAttempt P) : Cli P Unit := do
  let committed ← Program.of (attemptCommitted status attempt)
  if committed = true then
    return ()
  else do
    Program.of (ensure (attemptUncommitted status attempt = true)
      "pending funding journal does not match live enclave state")
    validateExplorerPreparedFunding config native

/-- The part of `fund_coin_explorer` that has the recovery signed; it also says whether the enclave
was connected. -/
def signExplorerFunding (config : Config) (native : NativeWalletState P) :
    Cli P (NativeWalletState P × Bool) := do
  match native.wallet.pending with
  | some (.recovery ⟨.fund .., .prepared attempt⟩) => do
    connectVerified config
    let coin ← Program.of (native.wallet.coin.context "pending funding coin is missing")
    let status ← call (.status coin.keys.coinId)
    Program.of (Client.lift (verifyStatus coin.keys status))
    checkExplorerAttempt config native status attempt
    let request ← Program.of native.wallet.pendingSignRequest
    let response ← call (.sign request)
    let (_, wallet) ← Program.of ((WalletState.recordSignResponse response).attempt native.wallet)
    saveNative config (native.withWallet wallet)
    return (native.withWallet wallet, true)
  | _ => return (native, false)

/-- The part of `fund_coin_explorer` that completes the recovery. -/
def secureExplorerFunding (config : Config) (native : NativeWalletState P) (connected : Bool) :
    Cli P (NativeWalletState P) := do
  match native.wallet.pending with
  | some (.recovery ⟨.fund .., .responded ..⟩) => do
    connectIf config (!connected)
    let coin ← Program.of (native.wallet.coin.context "pending funding coin is missing")
    let status ← call (.status coin.keys.coinId)
    let (_, wallet) ← Program.of
      ((WalletState.completeFundingRecovery status).attempt native.wallet)
    saveNative config (native.withWallet wallet)
    return native.withWallet wallet
  | _ => return native

/-- The part of `fund_coin_explorer` that broadcasts the funding transaction. -/
def broadcastExplorerFunding (config : Config) (native : NativeWalletState P) :
    Cli P (Report P) := do
  let transaction ← Program.of native.wallet.fundingTransaction
  let txid ← call (.broadcastExact transaction)
  if native.wallet.fundingStage = some .broadcast then
    Program.of (emitFunding native.wallet true)
  else do
    let (_, wallet) ← Program.of ((WalletState.markFundingBroadcast txid).attempt native.wallet)
    saveNative config (native.withWallet wallet)
    Program.of (emitFunding wallet false)

/-- `fund_coin_explorer`. -/
def fundCoinExplorer (config : Config) (draws : WalletState.FundingDraws P)
    (amountSat delayBlocks feeRateSatVb maxFeeSat : Nat) : Cli P (Report P) := do
  connectChain config
  let native ← loadNative config
  let native ← prepareExplorerFunding config draws native amountSat delayBlocks feeRateSatVb
    maxFeeSat
  Program.of do
    validateFundingPolicy native.wallet amountSat delayBlocks feeRateSatVb maxFeeSat
    validateExplorerPending native.wallet delayBlocks
  let (native, connected) ← signExplorerFunding config native
  let native ← secureExplorerFunding config native connected
  broadcastExplorerFunding config native

/-- `fund_coin`. -/
def fundCoin (config : Config) (draws : WalletState.FundingDraws P)
    (amountSat delayBlocks feeRateSatVb maxFeeSat : Nat) : Cli P (Report P) := do
  Program.of do
    ensure (delayBlocks ≤ 65535) "recovery delay cannot exceed 65535 blocks"
    requireReactionMargin 0 delayBlocks 0
  openWallet config
  if config.chain.isExplorer = true then
    fundCoinExplorer config draws amountSat delayBlocks feeRateSatVb maxFeeSat
  else
    fundCoinCore config draws amountSat delayBlocks feeRateSatVb maxFeeSat

end Tinylayer
