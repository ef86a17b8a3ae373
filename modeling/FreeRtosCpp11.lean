import FreeRtosCpp11.Transition.Run
import FreeRtosCpp11.CondVar.Machine
import FreeRtosCpp11.CondVar.Step
import FreeRtosCpp11.CondVar.Tokens
import FreeRtosCpp11.CondVar.Waiters
import FreeRtosCpp11.CondVar.History
import FreeRtosCpp11.CondVar.Untimed
import FreeRtosCpp11.CondVar.Timed
import FreeRtosCpp11.Clock.Runs
import FreeRtosCpp11.Clock.Normalised
import FreeRtosCpp11.Clock.Ticks
import FreeRtosCpp11.Clock.BlockTime
import FreeRtosCpp11.Clock.Subtraction
import FreeRtosCpp11.Thread.Machine
import FreeRtosCpp11.Thread.Step
import FreeRtosCpp11.Thread.JoinEvent
import FreeRtosCpp11.AttributesLock.Innermost
import FreeRtosCpp11.Once.CallOnce
import FreeRtosCpp11.KeyStore.Leftovers
import FreeRtosCpp11.Memory.Words
import FreeRtosCpp11.Alloc.Requests
import FreeRtosCpp11.Alloc.Runs
import FreeRtosCpp11.GlobalTimer.Counter
import FreeRtosCpp11.Heap4.Stats
import FreeRtosCpp11.Lists.Service
import FreeRtosCpp11.Tasks.Sleep
import FreeRtosCpp11.Tasks.Preempt
import FreeRtosCpp11.Tasks.Memory
import FreeRtosCpp11.Tasks.Selection
import FreeRtosCpp11.Tasks.Deadline
