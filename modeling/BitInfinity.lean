import BitInfinity.Bitcoin.FailedTransactions
import BitInfinity.Bitcoin.KeyOwnership
import BitInfinity.Bitcoin.Spendability
import BitInfinity.Bitcoin.StorageAccounting
import BitInfinity.Neard.MergeGenesis
import BitInfinity.Node.ProxyAgreement
import BitInfinity.Patoshi.MalformedRecords
import BitInfinity.Patoshi.Sweep
import BitInfinity.Patoshi.UnlockRuns
import BitInfinity.Proxy.CanonicalScripts
import BitInfinity.Proxy.Descriptors
import BitInfinity.Proxy.FirstNonces
import BitInfinity.Proxy.IncomingIndexer
import BitInfinity.Proxy.LegacyWallet
import BitInfinity.Proxy.LockedSigning
import BitInfinity.Proxy.MessageSignatures
import BitInfinity.Proxy.NearTxBuilder
import BitInfinity.Proxy.Nonces
import BitInfinity.Proxy.OpReturn
import BitInfinity.Proxy.PatoshiState
import BitInfinity.Proxy.SignPsbt
import BitInfinity.Runtime.AddedGroup
import BitInfinity.Tools.PatoshiGenesis
import BitInfinity.Tools.Reassignment
import BitInfinity.Tools.SnapshotSupply
