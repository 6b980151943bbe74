import ImportAtlas.Inquiry.ImportMap
import ImportAtlas.Inquiry.Search
import ImportAtlas.Inquiry.Unused

/-!
# Project reports

A search, the unused files and the statistics of the import map, all from one
scan.
-/

namespace ImportAtlas

structure ProjectReport where
  root : Path
  filesScanned : Nat
  search : SearchReport
  unused : List UnusedFile
  stats : MapStats
  failed : List FailedFile
  deriving Repr

def reportScan (tree : FileTree) (scan : Scan) (name : Option String)
    (options : ScanOptions) : ProjectReport where
  root := scan.corpus.root
  filesScanned := scan.fileCount
  search :=
    { searchCorpus tree scan.corpus name options with
      filesScanned := scan.fileCount }
  unused := unusedFiles tree scan.corpus none
  stats := (importMap scan.corpus options.styles options.statsLimit).stats
  failed := scan.corpus.failed

end ImportAtlas
