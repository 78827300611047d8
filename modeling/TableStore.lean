import TableStore.Main
import TableStore.Net.ServerAddress
import TableStore.Store.Backend
import TableStore.Store.Script
import TableStore.Proofs.Forest
import TableStore.Proofs.Moves
import TableStore.Proofs.StoredValues
import TableStore.Proofs.Transactions
import TableStore.Proofs.TrueErrors
import TableStore.Proofs.Compilation
import TableStore.Proofs.Deletion
import TableStore.Proofs.Literals
import TableStore.Proofs.QueryDocuments
import TableStore.Proofs.Selection
import TableStore.Proofs.Browsing
import TableStore.Proofs.Tenants
import TableStore.Proofs.Documents
import TableStore.Proofs.Paths
import TableStore.Proofs.Limits
import TableStore.Proofs.PropertyUpdates
import TableStore.Proofs.Refusals
import TableStore.Proofs.Placeholders
import TableStore.Proofs.SelectedValues
import TableStore.Proofs.FaultAddresses
import TableStore.Proofs.Directives
import TableStore.Proofs.SortClauses
import TableStore.Proofs.Dialects
import TableStore.Proofs.Walks
import TableStore.Proofs.Rearrangement
import TableStore.Proofs.RowWrites
import TableStore.Proofs.Conflicts
import TableStore.Proofs.ColumnFrames
