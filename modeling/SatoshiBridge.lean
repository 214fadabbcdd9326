import SatoshiBridge.Library.FiniteMap
import SatoshiBridge.Library.Index
import SatoshiBridge.Library.Checked
import SatoshiBridge.Library.Transition
import SatoshiBridge.Library.Numbering
import SatoshiBridge.Library.Hex
import SatoshiBridge.Library.JsonText
import SatoshiBridge.Library.PrefixCodec
import SatoshiBridge.Model.Basic
import SatoshiBridge.Model.Config
import SatoshiBridge.Model.BlockAmountRing
import SatoshiBridge.Model.Psbt
import SatoshiBridge.Model.CompactTxid
import SatoshiBridge.Model.Zip244
import SatoshiBridge.Model.PendingInfo
import SatoshiBridge.Model.PsbtFormat
import SatoshiBridge.Model.ZcashTransaction
import SatoshiBridge.Model.Json
import SatoshiBridge.Model.JsonText
import SatoshiBridge.Model.Contract
import SatoshiBridge.Model.Deposit
import SatoshiBridge.Model.DepositMsgJson
import SatoshiBridge.Model.Withdraw
import SatoshiBridge.Model.Rbf
import SatoshiBridge.Model.Burn
import SatoshiBridge.Model.Sign
import SatoshiBridge.Model.Refund
import SatoshiBridge.Model.Management
import SatoshiBridge.Model.Legacy
import SatoshiBridge.Model.System
import SatoshiBridge.Library.Balances
import SatoshiBridge.Model.Nbtc
import SatoshiBridge.Model.World
import SatoshiBridge.Model.Laws
import SatoshiBridge.Model.Network
import SatoshiBridge.Model.SampleHost
import SatoshiBridge.Model.SampleRun
import SatoshiBridge.Model.SampleNetwork
import SatoshiBridge.Ledger.Basic
import SatoshiBridge.Ledger.Effect
import SatoshiBridge.Ledger.Frame
import SatoshiBridge.Ledger.DepositEffects
import SatoshiBridge.Ledger.SpendEffects
import SatoshiBridge.Ledger.ReplaceEffects
import SatoshiBridge.Ledger.SettleEffects
import SatoshiBridge.Ledger.RefundEffects
import SatoshiBridge.Ledger.Windows
import SatoshiBridge.Ledger.ManagementEffects
import SatoshiBridge.Ledger.Simulation
import SatoshiBridge.Model.JsonTrees
import SatoshiBridge.Invariants.Grounds
import SatoshiBridge.Invariants.Payments
import SatoshiBridge.Invariants.Deposits
import SatoshiBridge.Invariants.BlockAmounts
import SatoshiBridge.Invariants.ResidentBlocks
import SatoshiBridge.Invariants.Tiers
import SatoshiBridge.Invariants.DepositRuns
import SatoshiBridge.Invariants.ErasedDeposits
import SatoshiBridge.Invariants.RefundGuards
import SatoshiBridge.Invariants.Spending
import SatoshiBridge.Invariants.Stages
import SatoshiBridge.Invariants.FamilyFees
import SatoshiBridge.Invariants.Coins
import SatoshiBridge.Invariants.FamilyKinds
import SatoshiBridge.Invariants.Reserves
import SatoshiBridge.Invariants.Burns
import SatoshiBridge.Desk.Basic
import SatoshiBridge.Desk.Invariant
import SatoshiBridge.Desk.Quiet
import SatoshiBridge.Origins.Requests
import SatoshiBridge.Origins.Receipts
import SatoshiBridge.Desk.Simulation
import SatoshiBridge.Properties.RequiredConfirmations
import SatoshiBridge.Properties.CompactProofs
import SatoshiBridge.Properties.BlockLimit
import SatoshiBridge.Properties.RingAccounts
import SatoshiBridge.Properties.DepositUses
import SatoshiBridge.Properties.Completions
import SatoshiBridge.Properties.RefundRequests
import SatoshiBridge.Properties.FailedMints
import SatoshiBridge.Properties.SignedTransactions
import SatoshiBridge.Properties.ZcashPsbts
import SatoshiBridge.Properties.PostActions
import SatoshiBridge.Properties.ConfirmationTiers
import SatoshiBridge.Properties.RingCapacity
import SatoshiBridge.Properties.RingResizes
import SatoshiBridge.Properties.Recipients
import SatoshiBridge.Properties.RefundAddresses
import SatoshiBridge.Desk.Runs
import SatoshiBridge.Properties.AccountLists
import SatoshiBridge.Properties.Families
import SatoshiBridge.Properties.Commits
import SatoshiBridge.Properties.Inputs
import SatoshiBridge.Properties.GasFees
import SatoshiBridge.Properties.ProtocolFees
import SatoshiBridge.Properties.BurnCallbacks
import SatoshiBridge.Treasury.Basic
import SatoshiBridge.Treasury.Coins
import SatoshiBridge.Treasury.Tokens
import SatoshiBridge.Treasury.Burns
import SatoshiBridge.Treasury.Nbtc
import SatoshiBridge.Treasury.Links
import SatoshiBridge.Treasury.Accounts
import SatoshiBridge.Treasury.Executions
import SatoshiBridge.Treasury.Runs
import SatoshiBridge.Properties.Solvency
import SatoshiBridge.Properties.Sighashes
import SatoshiBridge.Properties.Amounts
import SatoshiBridge.Properties.Refunds
import SatoshiBridge.Properties.DepositMessages
import SatoshiBridge.Properties.JsonShapes
import SatoshiBridge.Properties.UtxoIds
import SatoshiBridge.Properties.Migrations
import SatoshiBridge.Invariants.Whereabouts
import SatoshiBridge.Properties.Whereabouts
import SatoshiBridge.Library.History
import SatoshiBridge.Origins.Runs
import SatoshiBridge.Origins.Rules
import SatoshiBridge.Origins.Creations
import SatoshiBridge.Origins.Transfers
import SatoshiBridge.Origins.Mints
import SatoshiBridge.Origins.Confirmations
import SatoshiBridge.Treasury.Supply
import SatoshiBridge.Origins.Executions
import SatoshiBridge.Properties.Commissions
import SatoshiBridge.Properties.PaidWithdrawals
import SatoshiBridge.Properties.BackedMints
import SatoshiBridge.Treasury.Custody
import SatoshiBridge.Properties.Custody
import SatoshiBridge.Properties.Signatures
import SatoshiBridge.Properties.Redemptions
import SatoshiBridge.Properties.SingleBurns
import SatoshiBridge.Properties.FullCounters
