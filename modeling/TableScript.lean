import TableScript.Proofs.Configurations
import TableScript.Main
import TableScript.Proofs.QueryRoundTrip
import TableScript.Proofs.Immutability
import TableScript.Proofs.TableQueries
import TableScript.Proofs.TypeSignatures
import TableScript.Proofs.TableRuns
import TableScript.Proofs.SameValues
import TableScript.Proofs.TableFiles
import TableScript.Proofs.ConformanceLaws
import TableScript.Proofs.ExactQuotients
import TableScript.Proofs.Pipelines
import TableScript.Proofs.FileCreation
import TableScript.Proofs.FileIsolation
import TableScript.Proofs.SessionRuns
import TableScript.Proofs.SessionRaces
import TableScript.Proofs.TypedPrograms
import TableScript.Proofs.DirectAnswers
import TableScript.Proofs.ParserEnds
import TableScript.Proofs.Folds
import TableScript.Proofs.Ranges
import TableScript.Proofs.AppendOutcome
import TableScript.Proofs.ColumnReadBack
import TableScript.Proofs.DeclaredResults
import TableScript.Proofs.MemberCounts
import TableScript.Proofs.Mismatches
import TableScript.Proofs.CommentedWords
import TableScript.Proofs.MarkRuns
import TableScript.Proofs.TokenPlaces
import TableScript.Proofs.QuotedWords
import TableScript.Proofs.PrintedText
import TableScript.Proofs.HistoryWalks
import TableScript.Proofs.ClosedAppend
