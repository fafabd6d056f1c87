import Maais.CanonicalJson
import Maais.Compliance.LedgerTotals
import Maais.Decision.Mirror
import Maais.Market.DepthBook
import Maais.Market.FundingPoll
import Maais.Market.Pacing
import Maais.Market.RecoveryRuns
import Maais.Orchestration.Decided
import Maais.Paper.ExitRuns
import Maais.Paper.LimitQueue
import Maais.Paper.Matching
import Maais.Paper.OrderRuns
import Maais.Paper.Quantizing
import Maais.Paper.ScaleIns
import Maais.Paper.Scenarios
import Maais.Research.Allocations
import Maais.Research.Replays
import Maais.Security.Logins
import Maais.Store.Calls
import Maais.Worker.Deadlines
import Maais.Worker.Dispatch
import Maais.Worker.Flattening
import Maais.Worker.Funding
import Maais.Worker.Histories
import Maais.Worker.Leases
