import Busc.Lib.Cdp
import Busc.Lib.Diamond
import Busc.Lib.Emit
import Busc.Lib.Floor
import Busc.Lib.Interleave
import Busc.Lib.Lender
import Busc.Lib.Machine
import Busc.Lib.Solidity
import Busc.Lib.Total
import Busc.ERC20
import Busc.World
import Busc.Stablecoin
import Busc.Motor
import Busc.Valuation
import Busc.Legs
import Busc.Entry
import Busc.System
import Busc.Conserve
import Busc.Deployment
import Busc.Invariant
import Busc.Configuration
import Busc.Custody
import Busc.Supply
import Busc.Health
import Busc.Solvency
import Busc.Isolation
import Busc.Liquidation
import Busc.Conversion
import Busc.Partial
import Busc.Limits
import Busc.Oracle
import Busc.Reentrancy
import Busc.Words
import Busc.Commute
import Busc.Repayment
import Busc.Interleaving
import Busc.Noninterference
import Busc.Margin
import Busc.BadDebt
import Busc.Passive
import Busc.Exit
import Busc.Callbacks
import Busc.Events
import Busc.Replay
import Busc.Views
import Busc.Worth
import Busc.Paper
import Busc.Refinement
