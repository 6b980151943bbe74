import ImportAtlas.FileTree.Change

/-!
# Listings of file trees

A file tree as one text. The first line is the working directory, and every
entry after it starts with a line that says what it is and where it stands, as
seen from the working directory. The target of a link is on the next line. The
heading of a file counts the characters of its text, which stands below it and
ends with a line break that is not part of it.
-/

namespace ImportAtlas

structure Listing where
  workingDirectory : Path
  tree : FileTree

namespace Listing

def splitAt (mark : Char) (text : List Char) : String × List Char :=
  (String.ofList (text.takeWhile (· != mark)),
    (text.dropWhile (· != mark)).drop 1)

def takeLine (text : List Char) : String × List Char :=
  splitAt '\n' text

def place (listing : Listing) (path : List Char) : Path :=
  listing.workingDirectory.join ⟨String.ofList path⟩

def readEntry (listing : Listing) (text : List Char) :
    Option (Listing × List Char) :=
  let (heading, below) := takeLine text
  let (kind, path) := splitAt ' ' heading.toList
  if kind == "directory" then
    some ({ listing with
      tree := listing.tree.makeDirectory (listing.place path) }, below)
  else if kind == "binary" then
    some ({ listing with
      tree := listing.tree.writeDeep (listing.place path) none }, below)
  else if kind == "link" then
    let (target, rest) := takeLine below
    some ({ listing with
      tree := listing.tree.writeLink (listing.place path) ⟨target⟩ }, rest)
  else if kind == "file" then
    let (count, name) := splitAt ' ' path
    count.toNat?.map fun size =>
      let content := String.ofList (below.take size)
      ({ listing with
        tree := listing.tree.writeDeep (listing.place name) (some content) },
          below.drop (size + 1))
  else none

/-- Reads entries up to the end of the text; every entry takes at least one
character. -/
def readEntries : Nat → Listing → List Char → Option Listing
  | _, listing, [] => some listing
  | 0, _, _ :: _ => none
  | bound + 1, listing, text =>
    match readEntry listing text with
    | none => none
    | some (next, rest) => readEntries bound next rest

def read? (text : String) : Option Listing :=
  let (directory, entries) := takeLine text.toList
  let start : Path := ⟨directory⟩
  readEntries entries.length ⟨start, FileTree.empty.makeDirectory start⟩ entries

def fileEntry (path : Path) (text : String) : String :=
  "file " ++ toString text.length ++ " " ++ path.text ++ "\n" ++ text ++ "\n"

end Listing

end ImportAtlas
