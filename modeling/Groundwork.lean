import Groundwork.Main
import Groundwork.Proofs.Graph.Positions
import Groundwork.Proofs.Index.Entries
import Groundwork.Proofs.Index.PartialWrites
import Groundwork.Proofs.Planning.Fallback
import Groundwork.Proofs.Retrieval.Context
import Groundwork.Proofs.Service.Handover
import Groundwork.Proofs.Service.SharedTables
import Groundwork.Proofs.Summary.Runs
import Groundwork.Proofs.Summary.Results
import Groundwork.Proofs.Index.Interleaving
import Groundwork.Proofs.Service.CachedIndex
import Groundwork.Proofs.Summary.Descriptions
import Groundwork.Proofs.Service.Descriptions
import Groundwork.Proofs.Graph.Imports
import Groundwork.Proofs.Store.Cuts
import Groundwork.Proofs.Graph.Reordering
import Groundwork.Proofs.Configuration.Sources
import Groundwork.Proofs.Service.Checkouts
import Groundwork.Proofs.Service.Balance
import Groundwork.Proofs.Graph.Exports
import Groundwork.Proofs.Planning.NormalForm
import Groundwork.Proofs.Planning.Limits
import Groundwork.Proofs.Retrieval.Unscored
import Groundwork.Proofs.Retrieval.Reordering
import Groundwork.Proofs.Embedding.Answers
import Groundwork.Proofs.Embedding.Batches
import Groundwork.Proofs.Batch
import Groundwork.Proofs.Completion.Providers
import Groundwork.Proofs.Embedding.Alignment
import Groundwork.Proofs.Json.Tokens
import Groundwork.Proofs.Json.Extent
import Groundwork.Proofs.Completion.Fences
import Groundwork.Proofs.Planning.DetailedPlans
import Groundwork.Proofs.Issue.Lines
import Groundwork.Proofs.Summary.Pace
import Groundwork.Proofs.Index.Batches
import Groundwork.Proofs.Assessment
import Groundwork.Proofs.Graph.Quotations
import Groundwork.Proofs.Repository.Surveys
import Groundwork.Proofs.Source.Records
import Groundwork.Proofs.Store.Conditions
import Groundwork.Proofs.Embedding.Sums
import Groundwork.Proofs.Request.Plans
import Groundwork.Proofs.Command.Plans
import Groundwork.Proofs.Statistics
import Groundwork.Proofs.Text.Ascii
import Groundwork.Proofs.Store.IndexTable
import Groundwork.Proofs.Store.Engine
import Groundwork.Proofs.Embedding.Words
import Groundwork.Proofs.Text.Case
import Groundwork.Proofs.Completion.Names
