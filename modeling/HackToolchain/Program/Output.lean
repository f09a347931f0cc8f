import HackToolchain.Failure
import HackToolchain.Program.Listing

/-!
# Output files of a program

Each of the three texts of a program goes to a file of its own. A number that cannot be written keeps
the listing and the symbol file from being finished: the listing is put together before any of it is
written, while the symbol file ends before the symbol whose address it is.
-/

namespace HackToolchain

/-- The kinds of output file. -/
inductive OutputKind where
  | code
  | listing
  | symbols
  deriving DecidableEq

/-- What keeps the line of a statement from being listed: the address, which is shown beside a word,
or the number of the source line. -/
def ListingLine.obstacle? (l : ListingLine) : Option Text.Obstacle :=
  (l.word.bind fun _ => Text.numberObstacle? l.address).or (Text.numberObstacle? l.location.line)

namespace Program

/-- The text of an output file. Each of its lines is ended by a line feed. -/
def outputText (p : Program) : OutputKind → String
  | .code => p.codeText
  | .listing => p.listingText ++ "\n"
  | .symbols => p.symbolText

/-- What keeps the symbols from being listed: the address of one of them. -/
def symbolObstacle? (p : Program) : Option Text.Obstacle :=
  p.listedSymbols.findSome? fun s => Text.numberObstacle? s.address

/-- What keeps the text of an output file from being written. -/
def obstacle? (p : Program) : OutputKind → Option Text.Obstacle
  | .code => none
  | .listing => (p.listing.findSome? ListingLine.obstacle?).or p.symbolObstacle?
  | .symbols => p.symbolObstacle?

/-- The text of the listing, without a final line feed, if it can be written. -/
def writtenListing (p : Program) : Except Failure String :=
  match p.obstacle? .listing with
  | some obstacle => .error (.unwritable obstacle)
  | none => .ok p.listingText

/-- The part of an output file that is written before its first obstacle. -/
def textBeforeObstacle (p : Program) : OutputKind → String
  | .code => p.codeText
  | .listing => ""
  | .symbols =>
    let named := p.listedSymbols.takeWhile fun s => Text.Numeral.isWritable s.address
    Text.closeLines (symbolFileHead ++ named.map Symbol.fileLine)

/-- Writes an output file; one that meets an obstacle is left unfinished. -/
def write (p : Program) (d : Directory) (kind : OutputKind) (path : String) :
    Directory × Except Failure Unit :=
  let (text, result) :=
    match p.obstacle? kind with
    | some obstacle => (p.textBeforeObstacle kind, .error (.unwritable obstacle))
    | none => (p.outputText kind, .ok ())
  match d.write path text with
  | .error fault => (d, .error (.directory fault))
  | .ok written => (written, result)

end Program

end HackToolchain
