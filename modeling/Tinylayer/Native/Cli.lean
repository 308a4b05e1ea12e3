import Tinylayer.Native.ExitCommand
import Tinylayer.Native.SweepCommand
import Tinylayer.Native.TransferCommands

/-!
# The commands of the native wallet

The commands of `wallet/src/cli.rs` that save the wallet or submit a transaction, with their
arguments and what they draw at random, and the life of a data directory under them.
-/

namespace Tinylayer

open Durable

variable {P : Platform}

variable (P) in
inductive Command
  | register (draws : WalletState.RegistrationDraws P)
  | fund (draws : WalletState.FundingDraws P)
      (amountSat delayBlocks feeRateSatVb maxFeeSat : Nat)
  | requestTransfer (draws : WalletState.RequestDraws P) (coinId : CoinId) (outpoint : OutPoint P.Txid)
      (amountSat : Nat) (minimumReactionBlocks : Option Nat)
  | sign (draws : EnvelopeDraws P) (request : TransferRequest)
  | accept (request : TransferRequest) (envelope : TransferEnvelope)
  | sweep (destination : String) (feeRateSatVb maxFeeSat : Nat)
  | exit (destination : String) (feeRate : Option Nat) (maxFeeSat : Nat) (dryRun : Bool)

/-- The command funds the coin. -/
def Command.IsFund : Command P → Prop
  | .fund .. => True
  | _ => False

/-- The command sweeps the deposits. -/
def Command.IsSweep : Command P → Prop
  | .sweep .. => True
  | _ => False

/-- The command exits the coin. -/
def Command.IsExit : Command P → Prop
  | .exit .. => True
  | _ => False

/-- What a command does. -/
def Command.program (reader : PayloadReader P) (config : Config) : Command P → Cli P (Report P)
  | register draws => registerCoin config draws
  | fund draws amountSat delayBlocks feeRateSatVb maxFeeSat =>
    fundCoin config draws amountSat delayBlocks feeRateSatVb maxFeeSat
  | requestTransfer draws coinId outpoint amountSat minimumReactionBlocks =>
    createTransferRequest config draws coinId outpoint amountSat minimumReactionBlocks
  | sign draws request => signTransfer config draws request
  | accept request envelope => acceptTransfer reader config request envelope
  | sweep destination feeRateSatVb maxFeeSat =>
    sourceSweep config destination feeRateSatVb maxFeeSat
  | exit destination feeRate maxFeeSat dryRun =>
    exitCoin config destination feeRate maxFeeSat dryRun

variable (P) in
/-- The saved wallet, the state of the enclave and the chain, and what the commands did. -/
abbrev CliWorld (E : Type) := World (Command P) (NativeWalletState P) (Query P) Query.Reply E

variable (P) in
/-- How the enclave, the chain and the files answer. -/
abbrev Services (E : Type) := Environment (Query P) Query.Reply E

/-- Commands on one data directory, one after the other; each can fail or crash at any point. -/
abbrev CliLife {E : Type} (services : Services P E) (reader : PayloadReader P) (config : Config) :
    CliWorld P E → CliWorld P E → Prop :=
  Life services (Command.program reader config)

/-- A world in which the wallet was just initialized. -/
structure Initialized {E : Type} (config : Config) (fundingSecret : P.SecretKey)
    (w : CliWorld P E) : Prop where
  config : config.validateInitial = .ok ()
  saved : w.saved = .new fundingSecret .empty
  log : w.log = []

/-! ## What happened -/

variable (P) in
abbrev CliEvent := Event (Command P) (NativeWalletState P) (Query P) Query.Reply

/-- A funding transaction is handed to the chain. -/
def BroadcastsFunding (event : CliEvent P) (transaction : P.Tx) : Prop :=
  (∃ metadata, event.Asked (.broadcastFunding metadata transaction)) ∨
    event.Asked (.broadcastExact transaction) ∧ event.command.IsFund

/-- A sweep is handed to the chain. -/
def BroadcastsSweep (event : CliEvent P) (transaction : P.Tx) : Prop :=
  event.Asked (.broadcastExact transaction) ∧ event.command.IsSweep

/-- A part of an exit package, or all of it, is handed to the chain. -/
def SubmitsExit (event : CliEvent P) : Prop :=
  (∃ parentHex childHex, event.Asked (.submitPackage parentHex childHex)) ∨
    (∃ transaction, event.Asked (.broadcastExact transaction)) ∧ event.command.IsExit

/-- The child of this package is handed to the chain, alone or with its parent. -/
def SendsPackage (event : CliEvent P) (package : ExitPackage P) : Prop :=
  event.Asked (.submitPackage (P.serializeHex package.parent) (P.serializeHex package.child)) ∨
    event.Asked (.broadcastExact package.child)

end Tinylayer
