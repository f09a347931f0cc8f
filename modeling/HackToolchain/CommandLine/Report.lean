import HackToolchain.Failure

/-!
# Reports of a tool

A tool ends with an exit status, has printed lines on its two streams, and leaves a directory
behind. A failure is reported on the second stream: a diagnostic as it is, any other failure with a
heading that tells whose fault it is. What is printed of a line is up to the library that prints it;
lines of the log are written as they are.
-/

namespace HackToolchain

/-- A failure as the user sees it. -/
inductive Complaint where
  /-- A diagnostic, which names its place itself. -/
  | diagnostic (text : String)
  /-- A text that the toolchain cannot process. -/
  | toolchain (text : String)
  /-- An argument or a file that cannot be used. -/
  | misuse (text : String)
  /-- Anything else. -/
  | internal (text : String)

namespace Complaint

/-- The line that reports a complaint; the activity of the tool may be part of the heading. -/
def line (activity : Option String) : Complaint → String
  | diagnostic text => text
  | toolchain text =>
    match activity with
    | some name => if name.isEmpty then "Error: " ++ text else name ++ " error: " ++ text
    | none => "Error: " ++ text
  | misuse text => "Error: " ++ text
  | internal text => "Internal error: " ++ text

/-- The exit status of a complaint. -/
def status : Complaint → Nat
  | diagnostic _ | toolchain _ => 1
  | misuse _ => 2
  | internal _ => 3

end Complaint

/-- The complaint about a failure. -/
def Failure.complaint (f : Failure) : Complaint :=
  match f with
  | diagnosed _ => .diagnostic f.message
  | undecodableWord _ => .toolchain f.message
  | directory (.notFound _) | directory (.isDirectory _) => .misuse f.message
  | _ => .internal f.message

/-- What a run of a tool leaves behind: its exit status, the lines of its two streams, and the
directory. -/
structure Report where
  status : Nat
  output : List String
  errors : List String
  directory : Directory

namespace Report

/-- A successful run that leaves the directory as it is. -/
def success (d : Directory) (output errors : List String) : Report :=
  ⟨0, output, errors, d⟩

/-- A run that ends with a complaint, which is printed. -/
def failed (printed : String → String) (activity : Option String) (c : Complaint) (d : Directory)
    (output errors : List String) : Report :=
  ⟨c.status, output, errors ++ [printed (c.line activity)], d⟩

/-- The text of the first stream. -/
def outputText (r : Report) : String :=
  Text.closeLines r.output

/-- The text of the second stream. -/
def errorText (r : Report) : String :=
  Text.closeLines r.errors

end Report

/-- How a run of a tool ends. -/
inductive Outcome where
  /-- The arguments are refused before anything is done. -/
  | refused (status : Nat) (errors : List String)
  /-- The run is broken off by a failure that the tool does not report itself; it has printed and
  written nothing. -/
  | broken (failure : Failure)
  /-- The run leaves a report. -/
  | finished (report : Report)

end HackToolchain
