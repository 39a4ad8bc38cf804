import NetProfile.Main
import NetProfile.Files.Tree
import NetProfile.Proofs.MappingTree
import NetProfile.Proofs.WriterAcceptance
import NetProfile.Proofs.DocumentTree
import NetProfile.Proofs.Clearing
import NetProfile.Proofs.ImportAccounting
import NetProfile.Proofs.ImportRetention
import NetProfile.Proofs.PlainReading
import NetProfile.Proofs.LineScanning
import NetProfile.Proofs.EntryScanning
import NetProfile.Proofs.TreeScanning
import NetProfile.Proofs.TreeNodes
import NetProfile.Proofs.TreeValues
import NetProfile.Proofs.DraftReading
import NetProfile.Proofs.LegibleTrees
import NetProfile.Proofs.RoundTrip
import NetProfile.Proofs.LimitedSinks
import NetProfile.Proofs.MapMerging
import NetProfile.Proofs.RegistryRuns
import NetProfile.Proofs.PrintedTrees
import NetProfile.Proofs.RenderedDefinitions
import NetProfile.Proofs.ProfileGrammar
import NetProfile.Proofs.CanonicalProfiles
import NetProfile.Proofs.RefusedEvents
import NetProfile.Proofs.ImportedDefinitions
import NetProfile.Proofs.RemovalOrder
import NetProfile.Proofs.ImportedFields
import NetProfile.Proofs.FileWalks
import NetProfile.Proofs.PrintedAndWritten
import NetProfile.Proofs.PlainTexts
import NetProfile.Proofs.PercentEscapes
import NetProfile.Proofs.ProfilePaths
import NetProfile.Proofs.SilentFields
import NetProfile.Proofs.SilentEntries
import NetProfile.Proofs.LastEntries
import NetProfile.Proofs.QuotedDecoding
import NetProfile.Proofs.PrintedLines
import NetProfile.Proofs.DocumentLines
import NetProfile.Proofs.OutputPaths
import NetProfile.Proofs.FailedCommands
import NetProfile.Proofs.EscapedValues
