import HybridPqc.Lib.ByteStrings
import HybridPqc.Lib.Dict
import HybridPqc.Lib.GuardedRuns
import HybridPqc.Lib.FifoTable
import HybridPqc.Lib.PyJson
import HybridPqc.Lib.Proofs.PyJsonProofs
import HybridPqc.Lib.Proofs.EscapeProofs
import HybridPqc.Lib.Proofs.DumpsProofs
import HybridPqc.Lib.Decimals
import HybridPqc.Lib.PyTime
import HybridPqc.Lib.Samples
import HybridPqc.Device.Context
import HybridPqc.Device.Handshake
import HybridPqc.Device.Telemetry
import HybridPqc.Device.Proofs.WipeProofs
import HybridPqc.Device.Proofs.PacketProofs
import HybridPqc.Device.Proofs.PayloadProofs
import HybridPqc.Device.Task
import HybridPqc.Server.Telemetry
import HybridPqc.Server.Run
import HybridPqc.Server.Proofs.StateProofs
import HybridPqc.Server.Proofs.HandshakeProofs
import HybridPqc.Server.Proofs.TelemetryProofs
import HybridPqc.Server.Proofs.TableProofs
import HybridPqc.Server.Proofs.EncapsProofs
import HybridPqc.Server.Proofs.AtomicProofs
import HybridPqc.Server.Http
import HybridPqc.Server.Proofs.HttpProofs
import HybridPqc.Server.Proofs.BenchmarkStoreProofs
import HybridPqc.Server.Proofs.IsolationProofs
import HybridPqc.Server.Proofs.AckProofs
import HybridPqc.Device.Proofs.TaskProofs
import HybridPqc.Device.Proofs.RotationProofs
import HybridPqc.Device.Proofs.KeygenProofs
import HybridPqc.Device.Benchmark
import HybridPqc.Device.Proofs.BenchmarkProofs
import HybridPqc.Device.Proofs.StatisticsProofs
import HybridPqc.Device.Report
import HybridPqc.Device.Proofs.ReportProofs
import HybridPqc.Dashboard.Dashboard
import HybridPqc.Dashboard.Proofs.DashboardProofs
import HybridPqc.Network.World
import HybridPqc.Network.Proofs.WorldProofs
import HybridPqc.Network.Proofs.ClientProofs
import HybridPqc.Network.Proofs.HistoryProofs
import HybridPqc.Network.Proofs.NonceProofs
import HybridPqc.Network.Proofs.AuthenticityProofs
import HybridPqc.Network.Proofs.IntegrityProofs
import HybridPqc.Network.Proofs.ReplyProofs
import HybridPqc.Network.Proofs.SignedProofs
import HybridPqc.Network.Proofs.FormatProofs
import HybridPqc.Network.Link
import HybridPqc.Network.Proofs.AgreementProofs
import HybridPqc.Network.Proofs.EvictionProofs
import HybridPqc.Network.Proofs.ExchangeProofs
import HybridPqc.Lib.PyScan
import HybridPqc.Lib.Conversations
import HybridPqc.Endurance.Packet
import HybridPqc.Endurance.ParseLog
import HybridPqc.Endurance.Streams
import HybridPqc.Endurance.Main
import HybridPqc.Endurance.Proofs.StreamProofs
import HybridPqc.Endurance.Proofs.StreamStateProofs
import HybridPqc.Endurance.Proofs.ReturnedProofs
import HybridPqc.Endurance.Proofs.ClassifyProofs
import HybridPqc.Endurance.Proofs.SittingProofs
import HybridPqc.Endurance.Proofs.LatencyProofs
import HybridPqc.Endurance.Proofs.RoundTripProofs
import HybridPqc.Lib.Loops
import HybridPqc.Network.HttpClient
import HybridPqc.Network.Proofs.HttpClientProofs
import HybridPqc.Lib.LocalUpdates
import HybridPqc.Lib.SplitTransform
import HybridPqc.Mlkem.Reduce
import HybridPqc.Mlkem.Ring
import HybridPqc.Mlkem.Proofs.NttProofs
import HybridPqc.Mlkem.Proofs.PolyProofs
import HybridPqc.Lib.Blocks
import HybridPqc.Mlkem.Proofs.SerializeProofs
import HybridPqc.Mlkem.Proofs.MessageProofs
import HybridPqc.Lib.Negacyclic
import HybridPqc.Mlkem.Proofs.MatrixProofs
import HybridPqc.Mlkem.Transcript
import HybridPqc.Mlkem.Proofs.IndcpaProofs
import HybridPqc.Mlkem.Proofs.KemProofs
import HybridPqc.Lib.Sponge
import HybridPqc.Lib.Keccak
import HybridPqc.Mlkem.Proofs.SpongeProofs
import HybridPqc.Mlkem.Proofs.KeccakProofs
import HybridPqc.Mlkem.Ntt
import HybridPqc.Mlkem.Poly
import HybridPqc.Mlkem.Polyvec
import HybridPqc.Mlkem.Fips202
import HybridPqc.Mlkem.Symmetric
import HybridPqc.Mlkem.Indcpa
import HybridPqc.Mlkem.Kem
import HybridPqc.Mlkem.Proofs.ReduceProofs
import HybridPqc.Mlkem.Proofs.RejectionProofs
import HybridPqc.Mlkem.Proofs.ModulusProofs
import HybridPqc.Network.Proofs.MlkemExchangeProofs
import HybridPqc.Network.Proofs.MlkemAgreementProofs
import HybridPqc.Lib.Deduction
import HybridPqc.Symbolic.Terms
import HybridPqc.Symbolic.Messages
import HybridPqc.Symbolic.Protocol
import HybridPqc.Symbolic.Proofs.ProtocolProofs
import HybridPqc.Symbolic.Proofs.SafeProofs
import HybridPqc.Symbolic.Interpretation
import HybridPqc.Symbolic.Proofs.AgreementProofs
import HybridPqc.Symbolic.Proofs.InterpretationProofs
import HybridPqc.Symbolic.Proofs.SecrecyProofs
import HybridPqc.Symbolic.Proofs.SimulationProofs
import HybridPqc.Symbolic.Proofs.RealisedProofs
