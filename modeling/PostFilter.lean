import PostFilter.Main
import PostFilter.Proofs.ErrorLocation
import PostFilter.Proofs.Evaluation
import PostFilter.Saved.Filter
import PostFilter.Proofs.Algebra
import PostFilter.Proofs.SavedFilters
import PostFilter.Proofs.SnapshotLookups
import PostFilter.Proofs.Updates
import PostFilter.Proofs.Documents
import PostFilter.Proofs.Timestamps
import PostFilter.Proofs.SnapshotCodec
import PostFilter.Proofs.Growth
import PostFilter.Proofs.Disjunction
import PostFilter.Proofs.Feed
import PostFilter.Proofs.Numbers
import PostFilter.Proofs.CommandLines
import PostFilter.Proofs.Runs
import PostFilter.Proofs.Queries
import PostFilter.Proofs.PostIds
import PostFilter.Proofs.MalformedKeys
import PostFilter.Proofs.Tokenization
import PostFilter.Proofs.FileTrees
import PostFilter.Proofs.FileSafety
import PostFilter.Proofs.Expectations
import PostFilter.Proofs.Pages
import PostFilter.Proofs.Authorship
import PostFilter.Proofs.UnknownNames
import PostFilter.Proofs.PostIdTexts
import PostFilter.Proofs.KeyForms
import PostFilter.Proofs.PrintedFilters
import PostFilter.Proofs.TableCells
import PostFilter.Proofs.TableLines
import PostFilter.Proofs.TableColors
import PostFilter.Proofs.ConfigTexts
import PostFilter.Proofs.FrontSwitches
import PostFilter.Proofs.Presentation
import PostFilter.Proofs.SavedDocuments
import PostFilter.Proofs.TokenIndices
import PostFilter.Proofs.SingleLines
