import AccessorScan.Report.Encoding
import AccessorScan.Report.Listing
import AccessorScan.Report.Sink

/-!
# `AccessorScan.Report.Writing` — writing reports in either format

## Contents
- `OutputFormat`.
- `ScanReport.pieces`: the texts that a report is made of; `ScanReport.text`: all of them.
- `Listing.printFile`, `Listing.print`: a listing, written as it is made.
- `ScanReport.print`: a report, written in its format; `ScanReport.writeTo` writes into a sink.
-/

namespace AccessorScan

inductive OutputFormat where
  | json
  | terminal
  deriving DecidableEq, Repr

def OutputFormat.word : OutputFormat → String
  | .json => "json"
  | .terminal => "terminal"

def OutputFormat.ofWord? : String → Option OutputFormat
  | "json" => some .json
  | "terminal" => some .terminal
  | _ => none

/-- How a report is written. -/
structure OutputStyle where
  format : OutputFormat
  showAll : Bool
  color : Bool

/-! ## As text -/

namespace ScanReport

/-- The texts that a report is made of. -/
def pieces (r : ScanReport) (s : OutputStyle) : List String :=
  match s.format with
  | .json => [r.jsonText, "\n"]
  | .terminal => Listing.lines ⟨s.showAll, s.color⟩ r

/-- All that is written. -/
def text (r : ScanReport) (s : OutputStyle) : String := String.join (r.pieces s)

end ScanReport

/-! ## Into a sink -/

namespace Listing

/-- Nothing is written about a file of which nothing is shown. -/
def printFile (l : Listing) (r : FileReport) : Writing Unit :=
  match r.error with
  | some e =>
      Writing.text
        (line [alarmStyle.paint l.color "!", " ", r.path, ": ", failureStyle.paint l.color e])
  | none =>
      if (l.shown r).isEmpty then pure ()
      else do
        Writing.text (line [headingStyle.paint l.color r.path])
        (l.shown r).forM fun v => Writing.text (l.row v)

def print (l : Listing) (r : ScanReport) : Writing Unit := do
  (l.header r).forM Writing.text
  r.files.forM l.printFile
  (l.summary r.summary).forM Writing.text
  Writing.flush

end Listing

namespace ScanReport

def print (r : ScanReport) (s : OutputStyle) : Writing Unit :=
  match s.format with
  | .json => do
      Writing.text r.jsonText
      Writing.text "\n"
      Writing.flush
  | .terminal => Listing.print ⟨s.showAll, s.color⟩ r

/-- How writing ends, and the sink afterwards. -/
def writeTo (r : ScanReport) (s : OutputStyle) (sink : Sink) : Except IoError Unit × Sink :=
  (r.print s).into sink

end ScanReport

end AccessorScan
