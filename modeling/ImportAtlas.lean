import ImportAtlas.Main
import ImportAtlas.Proofs.PathOrder
import ImportAtlas.Proofs.FileIdentity
import ImportAtlas.Proofs.KeyedList
import ImportAtlas.Proofs.LoadedCorpus
import ImportAtlas.Proofs.LoadHistory
import ImportAtlas.Proofs.ImporterMerge
import ImportAtlas.Proofs.BarrelWalk
import ImportAtlas.Proofs.BarrelChain
import ImportAtlas.Proofs.BarrelRounds
import ImportAtlas.Proofs.SearchReach
import ImportAtlas.Proofs.ReportedImports
import ImportAtlas.Proofs.ReportMerge
import ImportAtlas.Proofs.SiblingFallback
import ImportAtlas.Proofs.StyleHiding
import ImportAtlas.Proofs.IndexChain
import ImportAtlas.Proofs.UnusedFiles
import ImportAtlas.Proofs.GraphLinks
import ImportAtlas.Proofs.GraphLog
import ImportAtlas.Proofs.ImportMapConsistency
import ImportAtlas.Proofs.NotImported
import ImportAtlas.Proofs.BlamedBarrels
import ImportAtlas.Proofs.UnusedAcrossRoots
import ImportAtlas.Proofs.GraphAnswers
import ImportAtlas.Proofs.GraphReach
import ImportAtlas.Proofs.ImportCycles
import ImportAtlas.Proofs.CorpusLog
import ImportAtlas.Proofs.MapStatistics
import ImportAtlas.Proofs.FileCycles
import ImportAtlas.Proofs.CycleLines
import ImportAtlas.Proofs.NormalPath
import ImportAtlas.Proofs.ResolvedIdentity
import ImportAtlas.Proofs.ScriptKey
import ImportAtlas.Proofs.RelativeSpecifier
import ImportAtlas.Proofs.ForwardedItems
import ImportAtlas.Proofs.RecordCoherence
import ImportAtlas.Proofs.ExportKinds
import ImportAtlas.Proofs.LiteralText
import ImportAtlas.Proofs.WrittenRecords
import ImportAtlas.Proofs.SideEffectImports
import ImportAtlas.Proofs.WalkTermination
import ImportAtlas.Proofs.DocumentText
import ImportAtlas.Proofs.JsonGrammar
import ImportAtlas.Proofs.ExportedAnswers
import ImportAtlas.Proofs.NameRestriction
import ImportAtlas.Proofs.ResultEntries
import ImportAtlas.Proofs.EntryImports
import ImportAtlas.Proofs.PathTrail
import ImportAtlas.Proofs.PlainPath
import ImportAtlas.Proofs.TargetIdentity
import ImportAtlas.Proofs.BatchedLoading
import ImportAtlas.Proofs.BaseName
import ImportAtlas.Proofs.DefaultSelection
import ImportAtlas.Proofs.SupportedFiles
import ImportAtlas.Proofs.ScriptElements
import ImportAtlas.Proofs.MarkupColumns
import ImportAtlas.Proofs.PrintedScript
import ImportAtlas.Proofs.PlainStatements
import ImportAtlas.Proofs.NearestManifest
