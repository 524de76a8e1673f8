import OfficeMachine.Binary
import OfficeMachine.Binary.Program
import OfficeMachine.Binary.Room
import OfficeMachine.Binary.Value
import OfficeMachine.BuildError
import OfficeMachine.Fault
import OfficeMachine.Floor
import OfficeMachine.Inbox
import OfficeMachine.Inbox.Channel
import OfficeMachine.Instruction
import OfficeMachine.Json
import OfficeMachine.Json.Fields
import OfficeMachine.Json.Program
import OfficeMachine.Json.Room
import OfficeMachine.Json.Value
import OfficeMachine.Letter
import OfficeMachine.LoadError
import OfficeMachine.Machine
import OfficeMachine.Machine.Waiting
import OfficeMachine.Number
import OfficeMachine.Office
import OfficeMachine.Opcode
import OfficeMachine.Program
import OfficeMachine.Proofs.Accounting
import OfficeMachine.Proofs.Budget
import OfficeMachine.Proofs.Growth
import OfficeMachine.Proofs.Halting
import OfficeMachine.Proofs.Interactive
import OfficeMachine.Proofs.Lockstep
import OfficeMachine.Proofs.MoreInput
import OfficeMachine.Proofs.Outcome
import OfficeMachine.Proofs.Provenance
import OfficeMachine.Proofs.StepEffect
import OfficeMachine.Proofs.Stepping
import OfficeMachine.Proofs.Turn
import OfficeMachine.Puzzle
import OfficeMachine.Room
import OfficeMachine.Text.Decimal
import OfficeMachine.Text.GraphemeExtend
import OfficeMachine.Text.Quoted
import OfficeMachine.Text.Unprintable
import OfficeMachine.Value
import OfficeMachine.Work
import OfficeMachine.Proofs.CellOrder
import OfficeMachine.Proofs.ChannelOrder
import OfficeMachine.Proofs.Reading
import OfficeMachine.Proofs.BinaryForm
import OfficeMachine.Proofs.JsonForm
import OfficeMachine.Proofs.Assembly
import OfficeMachine.Proofs.Loading
import OfficeMachine.Proofs.FaultReport
import OfficeMachine.Proofs.MoreTiles
import OfficeMachine.Proofs.MoreLines
import OfficeMachine.Proofs.InstructionTable
import OfficeMachine.Proofs.Journal
import OfficeMachine.Proofs.Addressing
import OfficeMachine.Proofs.FloorPlan
import OfficeMachine.Proofs.RoomLoading
import OfficeMachine.Proofs.Listing
import OfficeMachine.Proofs.Scene
import OfficeMachine.Proofs.Countdown
import OfficeMachine.Proofs.PairSums
import OfficeMachine.Proofs.Zeros
import OfficeMachine.Proofs.BatchOrder
import OfficeMachine.Proofs.Echo
import OfficeMachine.Proofs.Lookup
