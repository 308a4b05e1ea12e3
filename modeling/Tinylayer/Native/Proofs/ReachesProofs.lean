import Tinylayer.Native.Cli
import Tinylayer.Native.Proofs.ContractProofs

/-!
# Proofs: questions that are answered

A command goes on if what it asks is answered and what it saves is valid.
-/

namespace Tinylayer

open Durable

variable {P : Platform} {E : Type} {oracle : E → (query : Query P) → query.Reply × E}
  {config : Config} {c : Command P} {w : CliWorld P E}

theorem call_reaches {query : Query P} {answer : query.Answer}
    {post : query.Answer → CliWorld P E → Prop}
    (hanswer : (oracle w.env query).1 = .ok answer)
    (h : post answer (w.asked c query (.ok answer) (oracle w.env query).2)) :
    Reaches (answering oracle) c post (call query) w := by
  refine Reaches.question_bind (Prod.ext hanswer rfl) ?_
  exact Reaches.of rfl h

theorem connectChain_reaches {post : Unit → CliWorld P E → Prop} (hsupported : config.Supported)
    (hanswer : (oracle w.env .connectChain).1 = .ok ())
    (h : post () (w.asked c .connectChain (.ok ()) (oracle w.env .connectChain).2)) :
    Reaches (answering oracle) c post (connectChain config) w := by
  refine Reaches.of_bind (a := ()) ?_ (call_reaches hanswer h)
  simp only [Except.bind_eq_ok, Except.ensure_eq_ok, exists_unit]
  exact hsupported

theorem loadNative_reaches {post : NativeWalletState P → CliWorld P E → Prop}
    (hvalid : w.saved.validate config.network = .ok ()) (h : post w.saved w) :
    Reaches (answering oracle) c post (loadNative config) w := by
  refine Reaches.saved_bind (Reaches.of_bind hvalid (Reaches.pure h))

theorem saveNative_reaches {native : NativeWalletState P} {post : Unit → CliWorld P E → Prop}
    (hvalid : native.validate config.network = .ok ()) (h : post () (w.wrote c native)) :
    Reaches (answering oracle) c post (saveNative config native) w :=
  Reaches.of_bind hvalid (Reaches.replace h)

/-- A wallet without an exit is valid with every valid wallet part. -/
theorem NativeWalletState.validate_withWallet {s : NativeWalletState P} {wallet : WalletState P}
    {network : NetworkId} (hvalid : s.validate network = .ok ()) (hexit : s.exit = none)
    (hversion : wallet.validateVersion = .ok ()) :
    (s.withWallet wallet).validate network = .ok () := by
  obtain ⟨hformat, _, _, hsweep⟩ := validate_eq_ok.1 hvalid
  refine validate_eq_ok.2 ⟨hformat, hversion, ?_, hsweep⟩
  simp [validateExit, hexit]

theorem save_reaches {wallet : WalletState P} {post : Unit → CliWorld P E → Prop}
    (hvalid : w.saved.validate config.network = .ok ()) (hversion : wallet.validateVersion = .ok ())
    (h : post () (w.wrote c (w.saved.withWallet wallet))) :
    Reaches (answering oracle) c post (save config wallet) w := by
  have hload : Reaches (answering oracle) c (fun native v => native = w.saved ∧ v = w)
      (loadNative config) w := loadNative_reaches hvalid ⟨rfl, rfl⟩
  refine Reaches.of_bind hversion ?_
  refine Reaches.bind hload ?_
  rintro native v ⟨hnative, hv⟩
  subst hnative hv
  exact Reaches.replace h

end Tinylayer
