import SqlBatch.Script.Item
import SqlBatch.Script.Render
import SqlBatch.Session.Rehearsal
import SqlBatch.Session.Postgresql.ConnectionString
import SqlBatch.Cli.Files
import SqlBatch.Main
import SqlBatch.Proofs.Script.Items
import SqlBatch.Proofs.Script.Reread
import SqlBatch.Proofs.Script.RoundTrip
import SqlBatch.Proofs.Script.Division
import SqlBatch.Proofs.Script.Concatenation
import SqlBatch.Proofs.Script.Keyword
import SqlBatch.Proofs.Script.Splitting
import SqlBatch.Proofs.Script.LineEnding
import SqlBatch.Proofs.Script.Escaped
import SqlBatch.Proofs.Script.Coherence
import SqlBatch.Proofs.Backend
import SqlBatch.Proofs.Config.RoundTrip
import SqlBatch.Proofs.Session.InTurn
import SqlBatch.Proofs.Session.Sqlite.Notes
import SqlBatch.Proofs.Run.Modes
import SqlBatch.Proofs.Run.Transparency
import SqlBatch.Proofs.Run.FirstFailure
import SqlBatch.Proofs.Run.Issued
import SqlBatch.Proofs.Run.Verbosity
import SqlBatch.Proofs.Run.Switch
import SqlBatch.Proofs.Run.Serial
import SqlBatch.Proofs.Run.TurnByTurn
import SqlBatch.Proofs.Cli.Layers
