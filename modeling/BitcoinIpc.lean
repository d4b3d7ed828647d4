import BitcoinIpc.Provider
import BitcoinIpc.StakeHistory
import BitcoinIpc.CheckpointRoundTrip
import BitcoinIpc.CheckpointAgreement
import BitcoinIpc.TokenLedger
import BitcoinIpc.Backing
import BitcoinIpc.Reveals
import BitcoinIpc.Authorisations
import BitcoinIpc.CheckpointReveal
import BitcoinIpc.LogOrder
import BitcoinIpc.KillLifecycle
import BitcoinIpc.UnstakePayments
import BitcoinIpc.StakeConservation
import BitcoinIpc.Rebuilds
import BitcoinIpc.Authenticity
import BitcoinIpc.Crashes
import BitcoinIpc.CheckpointTable
import BitcoinIpc.CommitteeForm
import BitcoinIpc.MultisigSpend
import BitcoinIpc.TokenRegistry
import BitcoinIpc.TokenNotices
import BitcoinIpc.NextCommittee
import BitcoinIpc.Confirmations
import BitcoinIpc.RequestAcceptance
import BitcoinIpc.RewardSnapshots
import BitcoinIpc.Panics
import BitcoinIpc.CoinSelection
import BitcoinIpc.WitnessSize
import BitcoinIpc.KillQuorum
import BitcoinIpc.OutputMessages
import BitcoinIpc.BatchRoundTrip
import BitcoinIpc.TokenApplication
import BitcoinIpc.KillPayout
import BitcoinIpc.CheckpointPanics
import BitcoinIpc.Quorums
import BitcoinIpc.SubnetNames
import BitcoinIpc.RewardAgreement
import BitcoinIpc.Synchronisation
import BitcoinIpc.TransferDelivery
import BitcoinIpc.Relay
import BitcoinIpc.WatchOnly
import BitcoinIpc.Isolation
import BitcoinIpc.CheckpointSigning
import BitcoinIpc.CommitteeSpend
import BitcoinIpc.RevealSpending
import BitcoinIpc.Custody
import BitcoinIpc.PrefundLock
import BitcoinIpc.GenesisLedger
