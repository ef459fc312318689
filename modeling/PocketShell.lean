import PocketShell.Cli.Surroundings
import PocketShell.Config.Settings
import PocketShell.Lab.Verification
import PocketShell.Log.Buffer
import PocketShell.Main
import PocketShell.Proofs.Fs.Access
import PocketShell.Proofs.Fs.AuditTrail
import PocketShell.Proofs.Fs.ClosedDirectories
import PocketShell.Proofs.Fs.Confinement
import PocketShell.Proofs.Fs.Decoding
import PocketShell.Proofs.Fs.Privileges
import PocketShell.Proofs.Fs.Restoring
import PocketShell.Proofs.Fs.Shape
import PocketShell.Proofs.Fs.Validation
import PocketShell.Proofs.Shell.Rendering
import PocketShell.Proofs.Shell.Protection
import PocketShell.Proofs.Alongside
import PocketShell.Proofs.Fs.Unseen
import PocketShell.Proofs.Fs.UnseenCopies
import PocketShell.Proofs.Fs.SystemFiles
import PocketShell.Proofs.Shell.Beside
import PocketShell.Proofs.Shell.BlindCommands
import PocketShell.Proofs.Shell.BlindStandard
import PocketShell.Proofs.Shell.Confidentiality
import PocketShell.Proofs.Shell.Embedding
import PocketShell.Proofs.Shell.Recognition
import PocketShell.Proofs.Shell.Expansion
import PocketShell.Proofs.Shell.Filling
import PocketShell.Proofs.Shell.Joining
import PocketShell.Proofs.Shell.Sequencing
import PocketShell.Proofs.Fs.Heedless
import PocketShell.Proofs.Fs.Standing
import PocketShell.Proofs.Shell.Effects
import PocketShell.Proofs.Shell.CommandEffects
import PocketShell.Proofs.Shell.LineEffects
import PocketShell.Proofs.Shell.Moving
import PocketShell.Proofs.Session.Agreement
import PocketShell.Proofs.Session.Renewal
import PocketShell.Proofs.Shell.Completion
import PocketShell.Proofs.Shell.Looking
import PocketShell.Proofs.Shell.BreakingOff
import PocketShell.Proofs.Shell.BreakingFiles
import PocketShell.Proofs.Shell.Answering
import PocketShell.Proofs.Fs.Views
import PocketShell.Proofs.Config.Reading
import PocketShell.Proofs.Shell.Piping
import PocketShell.Proofs.Fs.Contents
import PocketShell.Proofs.Fs.Furnishing
import PocketShell.Proofs.Fs.Duplication
import PocketShell.Proofs.Fs.Relocation
import PocketShell.Proofs.Shell.WorkingDirectory
import PocketShell.Proofs.Fs.Following
import PocketShell.Proofs.Fs.Chains
import PocketShell.Proofs.Fs.ClosingSlash
import PocketShell.Proofs.Shell.Nesting
import PocketShell.Proofs.Shell.Stopping
import PocketShell.Proofs.Shell.Feeding
import PocketShell.Proofs.Shell.Parents
import PocketShell.Proofs.Fs.Sidestepping
import PocketShell.Proofs.Fs.Deliveries
import PocketShell.Proofs.Shell.ManySources
import PocketShell.Proofs.Pattern.Reading
import PocketShell.Proofs.Pattern.Sets
import PocketShell.Proofs.Pattern.Snippets
import PocketShell.Proofs.Pattern.Globs
import PocketShell.Proofs.Shell.Finding
import PocketShell.Proofs.Fs.Folding
import PocketShell.Proofs.Text.Occurrences
import PocketShell.Proofs.Shell.Echoing
import PocketShell.Proofs.Shell.Collapsing
import PocketShell.Proofs.Pattern.Verbatim
import PocketShell.Proofs.Shell.Substituting
import PocketShell.Proofs.Log.Recalling
import PocketShell.Proofs.Lab.Permissions
import PocketShell.Proofs.Shell.Rejoining
import PocketShell.Proofs.Shell.Allotting
import PocketShell.Proofs.Shell.Naming
