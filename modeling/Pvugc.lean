import Pvugc.Outer.QuotientBases
import Pvugc.Outer.StandardLean
import Pvugc.Groth16.Prover
import Pvugc.Groth16.WitnessMap
import Pvugc.Algebra.Quotient
import Pvugc.OneSided.Standard
import Pvugc.OneSided.HonestPoce
import Pvugc.OneSided.PublicationAudit
import Pvugc.OneSided.Admissible
import Pvugc.OneSided.Totality
import Pvugc.OneSided.ContextBinding
import Pvugc.OneSided.NumsKey
import Pvugc.Outer.Setup
import Pvugc.Outer.LeanKey
import Pvugc.Secp.FixedBase
import Pvugc.Circuit.OuterBinding
import Pvugc.Outer.Cache
import Pvugc.Outer.OuterVerifier
import Pvugc.Outer.SpanSeparation
import Pvugc.Outer.KeyIndependence
import Pvugc.Outer.PairBases
import Pvugc.Outer.FftSafety
import Pvugc.Audit.Verdict
import Pvugc.Secp.FixedBaseCircuit
import Pvugc.Adaptor.AdaptorVe
import Pvugc.Adaptor.BountyRun
import Pvugc.Adaptor.BridgeRun
import Pvugc.Groth16.Soundness
import Pvugc.Adaptor.AdaptorVeProof
import Pvugc.Secp.Secp256k1
import Pvugc.Secp.CompleteAddition
import Pvugc.Adaptor.ExtractT
import Pvugc.Adaptor.KeyCommitment
import Pvugc.Sp1Bridge.GnarkTotality
import Pvugc.Sp1Bridge.HexDecode
import Pvugc.Bitcoin.Taproot
import Pvugc.Groth16.Rerandomize
import Pvugc.OneSided.HonestBundle
import Pvugc.Bitcoin.AdaptorSignature
import Pvugc.Outer.RecursionRun
import Pvugc.Outer.LibsnarkKey
