import SpiNand.Adaptor.Contracts
import SpiNand.Adaptor.DharaRuns
import SpiNand.Adaptor.FreePages
import SpiNand.Adaptor.NullError
import SpiNand.Adaptor.Outcomes
import SpiNand.Bus.Answers
import SpiNand.Bus.Commands
import SpiNand.Bus.Environment
import SpiNand.Bus.Format
import SpiNand.Bus.Lockstep
import SpiNand.Bus.Logs
import SpiNand.Bus.Operations
import SpiNand.Bus.QueueRuns
import SpiNand.Bus.Rules
import SpiNand.Bus.Runs
import SpiNand.Bus.Wire
import SpiNand.Chip.AnyWeather
import SpiNand.Chip.Atomicity
import SpiNand.Chip.BadBlockList
import SpiNand.Chip.BadBlocks
import SpiNand.Chip.Containment
import SpiNand.Chip.Device
import SpiNand.Chip.Durability
import SpiNand.Chip.FaultFree
import SpiNand.Chip.Independence
import SpiNand.Chip.Marking
import SpiNand.Chip.PageStore
import SpiNand.Chip.Planes
import SpiNand.Chip.Worn
import SpiNand.Driver.Command
import SpiNand.Driver.DharaAdaptor
import SpiNand.Driver.Flash
import SpiNand.Driver.Mspi
import SpiNand.Driver.QuadRead
import SpiNand.Driver.Regs
import SpiNand.Driver.WaitBusy
import SpiNand.Interaction.BigEndian
import SpiNand.Interaction.Interleaving
import SpiNand.Interaction.Logic
import SpiNand.Interaction.Past
import SpiNand.Interaction.Prog
import SpiNand.Interaction.Relational
import SpiNand.Interaction.Runs
import SpiNand.Onfi.Capacity
import SpiNand.Onfi.OnfiPrint
import SpiNand.Protocol.CopyLoss
import SpiNand.Protocol.FaithfulStatus
import SpiNand.Protocol.Handshake
import SpiNand.Protocol.Initialisation
import SpiNand.Protocol.LaneMode
import SpiNand.Protocol.ParameterMode
import SpiNand.Protocol.ProgramErase
import SpiNand.Protocol.Readiness
import SpiNand.Protocol.Termination
import SpiNand.Protocol.Timeouts
import SpiNand.Protocol.Waiting
import SpiNand.Ring.Queue
import SpiNand.Rtt.Calls
import SpiNand.Rtt.Console
import SpiNand.Rtt.Delivery
import SpiNand.Rtt.DownChannel
import SpiNand.Rtt.Lines
import SpiNand.Rtt.Memory
import SpiNand.Rtt.Messages
import SpiNand.Rtt.Overwrite
import SpiNand.Rtt.Reading
import SpiNand.Rtt.Stream
import SpiNand.Rtt.Target
import SpiNand.Rtt.Terminals
import SpiNand.Rtt.UpChannel
import SpiNand.Rtt.Writing
import SpiNand.Store.WriteOnce
