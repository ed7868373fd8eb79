import GaslessRelay.Chain.Transactions
import GaslessRelay.Client.ModuleUpgrade
import GaslessRelay.Client.Relay
import GaslessRelay.Client.Script
import GaslessRelay.KeyStore.Basic
import GaslessRelay.Request.MachineRelayCall
import GaslessRelay.Rpc.Connection
import GaslessRelay.Schema
import GaslessRelay.Schema.Reports
import GaslessRelay.Settings.Load
import GaslessRelay.Proofs.AbiPlacement
import GaslessRelay.Proofs.Outcome
import GaslessRelay.Proofs.AbiLengths
import GaslessRelay.Proofs.AbiTyping
import GaslessRelay.Proofs.AbiRoundTrip
import GaslessRelay.Proofs.RelayCalldata
import GaslessRelay.Proofs.CatalogEntries
import GaslessRelay.Proofs.ChainExecution
import GaslessRelay.Proofs.ExecutionHistory
import GaslessRelay.Proofs.ClientContract
import GaslessRelay.Proofs.RelayTransactions
import GaslessRelay.Proofs.RelayContract
import GaslessRelay.Proofs.RelayInterleaving
import GaslessRelay.Proofs.DigestBinding
import GaslessRelay.Proofs.RequestBinding
import GaslessRelay.Proofs.ChainRecords
import GaslessRelay.Proofs.LedgerRuns
import GaslessRelay.Proofs.SettledTransactions
import GaslessRelay.Proofs.FailedTransactions
import GaslessRelay.Proofs.BuiltinOperations
import GaslessRelay.Proofs.LedgerReads
import GaslessRelay.Proofs.SignatureSets
import GaslessRelay.Proofs.ValidRelays
import GaslessRelay.Proofs.BatchBlobs
import GaslessRelay.Proofs.NestedCalls
import GaslessRelay.Proofs.CustodyCalls
import GaslessRelay.Proofs.CustodyBatches
import GaslessRelay.Proofs.OwnedCalls
import GaslessRelay.Proofs.Registrations
import GaslessRelay.Proofs.SurvivingRequests
import GaslessRelay.Proofs.DispatchEdits
import GaslessRelay.Proofs.DispatchUpgrades
import GaslessRelay.Proofs.BatchFormat
import GaslessRelay.Proofs.PolicyGate
import GaslessRelay.Proofs.DecodedValues
import GaslessRelay.Proofs.ReadingSafety
import GaslessRelay.Proofs.ReaderAgreement
import GaslessRelay.Proofs.TextParts
import GaslessRelay.Proofs.RevertReasons
import GaslessRelay.Proofs.ClientTraces
import GaslessRelay.Proofs.ClientReplies
import GaslessRelay.Proofs.PathVerdicts
import GaslessRelay.Proofs.LocalFailures
import GaslessRelay.Proofs.SettingsRefusals
import GaslessRelay.Proofs.Numerals
import GaslessRelay.Proofs.TypeNames
import GaslessRelay.Proofs.IntegerReading
import GaslessRelay.Proofs.IntegerPayloads
import GaslessRelay.Proofs.FieldLists
import GaslessRelay.Proofs.TypeStrings
import GaslessRelay.Proofs.PayloadResolution
import GaslessRelay.Proofs.SignerOrder
import GaslessRelay.Proofs.NodePosts
import GaslessRelay.Proofs.ReadRetries
import GaslessRelay.Proofs.BreakerRuns
import GaslessRelay.Proofs.ConfirmationWait
import GaslessRelay.Proofs.RelayCounts
import GaslessRelay.Proofs.SealedBytes
import GaslessRelay.Proofs.WrittenParts
import GaslessRelay.Proofs.FileOperations
import GaslessRelay.Proofs.KeyStoreContents
import GaslessRelay.Proofs.ConcurrentSaves
import GaslessRelay.Proofs.InterfaceReading
import GaslessRelay.Proofs.InterfacePlans
import GaslessRelay.Proofs.AbiOffsets
import GaslessRelay.Proofs.ExecutionEnds
