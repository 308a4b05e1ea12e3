import Tinylayer.Wallet.Proofs.HistoryProofs
import Tinylayer.Wallet.Proofs.BindingProofs
import Tinylayer.Wallet.Exit
import Tinylayer.Wallet.Proofs.FundingProofs
import Tinylayer.Wallet.Proofs.TransferProofs
import Tinylayer.Wallet.Proofs.JournalProofs
import Tinylayer.Enclave.Proofs.IsolationProofs
import Tinylayer.Wallet.Proofs.ResumeProofs
import Tinylayer.Wallet.Proofs.RegistrationProofs
import Tinylayer.Client.Proofs.SigningProofs
import Tinylayer.Wallet.Proofs.RequestProofs
import Tinylayer.Wallet.Proofs.ReplayProofs
import Tinylayer.Wallet.Proofs.ExitProofs
import Tinylayer.Wallet.Proofs.SweepOrderProofs
import Tinylayer.Wallet.Proofs.AccountingProofs
import Tinylayer.Native.Proofs.InterruptionProofs
import Tinylayer.Native.Proofs.BroadcastProofs
import Tinylayer.Native.Proofs.PackageProofs
import Tinylayer.Native.Proofs.DepositProofs
import Tinylayer.Native.Proofs.SweepableProofs
import Tinylayer.Native.Proofs.ArtifactProofs
import Tinylayer.Native.Proofs.DryRunProofs
import Tinylayer.Wallet.Proofs.PanicProofs
import Tinylayer.System.Proofs.OwnershipProofs
import Tinylayer.System.Proofs.PrecedenceProofs
import Tinylayer.Lib.Inquiry
import Tinylayer.Lib.Ledger
import Tinylayer.Native.ChainPlatform
import Tinylayer.Native.Core
import Tinylayer.Native.Explorer
import Tinylayer.Native.HonestExplorer
import Tinylayer.Native.Proofs.AcceptanceProofs
