import Fieldbus.Binary64.Bits
import Fieldbus.Reassembler.Stream
import Fieldbus.Proofs.Reassembler.Chunking
import Fieldbus.Proofs.Reassembler.Frames
import Fieldbus.Proofs.Reassembler.Stream
import Fieldbus.Proofs.Offload.Refinement
import Fieldbus.Main
import Fieldbus.Proofs.Channel.Resolve
import Fieldbus.Proofs.Channel.Usable
import Fieldbus.Proofs.Dispatch.Run
import Fieldbus.Proofs.Reassembler.Transmission
import Fieldbus.Proofs.Dispatch.Expectations
import Fieldbus.Proofs.Offload.Snapshot
import Fieldbus.Proofs.Dispatch.Snapshots
import Fieldbus.Proofs.Binary64.Whole
import Fieldbus.Proofs.Field.Integer
import Fieldbus.Proofs.Field.TwosComplement
import Fieldbus.Proofs.Dispatch.Effect
import Fieldbus.Proofs.Queue.Pacing
import Fieldbus.Proofs.Dispatch.Queues
import Fieldbus.Proofs.Dispatch.Refusals
import Fieldbus.Proofs.Dispatch.States
import Fieldbus.Proofs.Dispatch.Isolation
import Fieldbus.Proofs.Dispatch.Interference
import Fieldbus.Proofs.Dispatch.Borders
import Fieldbus.Proofs.Dispatch.Verdicts
import Fieldbus.Proofs.Offload.Diligence
import Fieldbus.Proofs.Bus.Replay
import Fieldbus.Proofs.Reassembler.Memory
import Fieldbus.Proofs.Reassembler.Arrival
import Fieldbus.Proofs.Dispatch.Decisions
import Fieldbus.Proofs.Dispatch.Accounts
import Fieldbus.Proofs.Json.Codec
import Fieldbus.Proofs.Json.Fields
import Fieldbus.Proofs.Json.Descriptions
import Fieldbus.Proofs.Checksum.Corruption
import Fieldbus.Proofs.Checksum.Answers
import Fieldbus.Proofs.Field.Text
import Fieldbus.Proofs.Field.Bcd
import Fieldbus.Proofs.Entity.Commands
import Fieldbus.Proofs.Field.Validity
import Fieldbus.Proofs.Entity.Windows
import Fieldbus.Proofs.Reassembler.Bounds
import Fieldbus.Proofs.Checksum.Values
import Fieldbus.Proofs.Offload.Ledger
import Fieldbus.Proofs.Offload.Books
