import Ria.Backend.BankedPrf
import Ria.Backend.OperandDelivery
import Ria.Backend.ControlTransfer
import Ria.Backend.IntegerExecution
import Ria.Backend.MemoryOrder
import Ria.Backend.MemPipeline
import Ria.Backend.MulDivPipeline
import Ria.Backend.Multiplication
import Ria.Backend.QueueAccounting
import Ria.Backend.ScoreboardExact
import Ria.Backend.Selectors
import Ria.Backend.UnsignedDivision
import Ria.Core.Components
import Ria.Core.Executability
import Ria.Core.Redirects
import Ria.External.Fifo
import Ria.Frontend.BtbSets
import Ria.Frontend.CommitWidth
import Ria.Frontend.FetchBuffer
import Ria.Frontend.FetchStream
import Ria.Frontend.FollowedPredictions
import Ria.Frontend.GroupAcceptance
import Ria.Frontend.LearnedTargets
import Ria.Frontend.MispredictDetectors
import Ria.Frontend.PredictorTraining
import Ria.Frontend.RenameDataflow
import Ria.Frontend.RobFifo
import Ria.Frontend.SerialRename
import Ria.Frontend.StallBuffers
import Ria.Sim.FlatMemory
import Ria.Sim.MemoryInstructions
import Ria.Sim.RetiredStores
import Ria.Sim.ExecLib
import Ria.Sim.Descriptors
import Ria.Sim.MainVars
import Ria.Sim.ElfLoader
import Ria.Sim.ElfImage
import Ria.Core.History
import Ria.Core.InOrder
import Ria.Core.Program
import Ria.Core.IsaExecution
