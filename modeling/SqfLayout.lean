import SqfLayout.Main
import SqfLayout.Proofs.CommentBodies
import SqfLayout.Proofs.Content
import SqfLayout.Proofs.DedentedBodies
import SqfLayout.Proofs.EntriesInTurn
import SqfLayout.Proofs.KeptDirectives
import SqfLayout.Proofs.Lexemes
import SqfLayout.Proofs.LineScans
import SqfLayout.Proofs.Marks
import SqfLayout.Proofs.Nesting
import SqfLayout.Proofs.OutputShape
import SqfLayout.Proofs.PassesTwice
import SqfLayout.Proofs.Reindentation
import SqfLayout.Proofs.Resumption
import SqfLayout.Proofs.Schedules
import SqfLayout.Proofs.SecondRuns
import SqfLayout.Proofs.TouchedLines
import SqfLayout.Proofs.WholeDocuments
import SqfLayout.Proofs.Words
import SqfLayout.Proofs.WorkingFolder
