import TftpUpload.Main
import TftpUpload.Simulation.Link
import TftpUpload.Simulation.Script
import TftpUpload.Storage.Memory
import TftpUpload.Proofs.Receiver.Session
import TftpUpload.Proofs.Transfer.History
import TftpUpload.Proofs.Receiver.Reception
import TftpUpload.Proofs.Receiver.AllOrNothing
import TftpUpload.Proofs.Exchange.Agreement
import TftpUpload.Proofs.Exchange.Echoes
import TftpUpload.Proofs.Exchange.Ordered
import TftpUpload.Proofs.Receiver.Mirror
import TftpUpload.Proofs.Receiver.Together
import TftpUpload.Proofs.Exchange.Simulated
import TftpUpload.Proofs.Farewells
import TftpUpload.Proofs.Unanswered
import TftpUpload.Proofs.Server.Requests
import TftpUpload.Proofs.Server.Rivals
import TftpUpload.Proofs.Server.Bookkeeping
import TftpUpload.Proofs.Receiver.Acknowledged
import TftpUpload.Proofs.Sender.Train
import TftpUpload.Proofs.Storage.Confinement
import TftpUpload.Proofs.Wire.Grammar
import TftpUpload.Proofs.Sender.Operations
import TftpUpload.Proofs.Receiver.Ledger
import TftpUpload.Proofs.Client.UploadAll
import TftpUpload.Proofs.Wire.Pieces
import TftpUpload.Proofs.Wire.Cuts
import TftpUpload.Proofs.Receiver.Repetitions
import TftpUpload.Proofs.Receiver.Requests
import TftpUpload.Proofs.Receiver.Finished
import TftpUpload.Proofs.Timeouts
import TftpUpload.Proofs.Reports
import TftpUpload.Proofs.Storage.Removal
import TftpUpload.Proofs.Client.PeerLock
import TftpUpload.Proofs.Encoding
import TftpUpload.Proofs.Transfer.Shutdown
import TftpUpload.Proofs.Shutdown
import TftpUpload.Proofs.Config.Layout
import TftpUpload.Proofs.Config.Markers
import TftpUpload.Proofs.Net.HostPort
import TftpUpload.Proofs.Text.ByteCount
import TftpUpload.Proofs.Sender.Blocks
