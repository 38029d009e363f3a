import TransactionSimulator.Api.Bookkeeping
import TransactionSimulator.Api.Isolation
import TransactionSimulator.Api.Retries
import TransactionSimulator.Balances.Snapshot
import TransactionSimulator.Indexer.Completeness
import TransactionSimulator.Indexer.Cursor
import TransactionSimulator.Indexer.Overflow
import TransactionSimulator.Indexer.Scan
import TransactionSimulator.Ledger.Acceptance
import TransactionSimulator.Ledger.Counters
import TransactionSimulator.Ledger.Expiry
import TransactionSimulator.Ledger.Lifecycle
import TransactionSimulator.Ledger.Order
import TransactionSimulator.Ledger.Resolution
import TransactionSimulator.Ledger.Submission
import TransactionSimulator.Lib.Sweep
import TransactionSimulator.Outbox.Once
import TransactionSimulator.Recovery.Adoption
import TransactionSimulator.Recovery.Evidence
import TransactionSimulator.Recovery.Progress
import TransactionSimulator.Recovery.Requeue
import TransactionSimulator.Scheduling.Lease
import TransactionSimulator.Tokens.Registration
import TransactionSimulator.Wallets.Addresses
import TransactionSimulator.Auth.ApiKeys
import TransactionSimulator.Auth.Tokens
import TransactionSimulator.Lib.Parallel
import TransactionSimulator.Wallets.Signers
import TransactionSimulator.Blockchain.TokenBalance
import TransactionSimulator.Lib.Paging
import TransactionSimulator.Blockchain.Retry
import TransactionSimulator.Blockchain.RpcAttempts
import TransactionSimulator.Blockchain.RpcClassifier
import TransactionSimulator.Blockchain.RpcCounters
import TransactionSimulator.Indexer.Narrowing
import TransactionSimulator.Lib.Offsets
import TransactionSimulator.Api.Pages
import TransactionSimulator.Workers.DriftSettings
import TransactionSimulator.Blockchain.Redaction
import TransactionSimulator.Wallets.Registration
import TransactionSimulator.Scheduling.Takeover
