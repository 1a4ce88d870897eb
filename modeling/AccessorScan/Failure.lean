import AccessorScan.Files.Discovery
import AccessorScan.Text.Indent

/-!
# `AccessorScan.Failure` — what can go wrong

## Contents
- `ScanError`: the causes, with `message` and the error they wrap.
- `Failure`: a cause with what was being done, outermost first; `chain` and `report`.
-/

namespace AccessorScan

inductive ScanError where
  | fileSystem (doing : String) (path : FilePath) (cause : IoError)
  | parse (path : FilePath) (reason : String)
  | configuration (reason : String)
  | notFound (name : String)
  | pattern (error : GlobError)
  | walk (error : WalkError)
  deriving DecidableEq, Repr

namespace ScanError

def message : ScanError → String
  | fileSystem doing _ _ => "File system error: " ++ doing
  | parse path reason => "Parse error in " ++ path.text ++ ": " ++ reason
  | configuration reason => "Configuration error: " ++ reason
  | notFound name => "Not found: " ++ name
  | pattern error => error.message
  | walk error => error.message

/-- The message of the error that this one wraps. -/
def source? : ScanError → Option String
  | fileSystem _ _ cause => some cause.message
  | _ => none

end ScanError

inductive Cause where
  | io (error : IoError)
  | scan (error : ScanError)
  | plain (message : String)
  deriving DecidableEq, Repr

/-- Why a command failed. -/
structure Failure where
  /-- What was being done, outermost first. -/
  context : List String
  cause : Cause
  deriving DecidableEq, Repr

namespace Failure

def ofScan (e : ScanError) : Failure := ⟨[], .scan e⟩

/-- The failure with what was being done around it. -/
def within (f : Failure) (doing : String) : Failure := { f with context := doing :: f.context }

/-- All messages, outermost first. -/
def chain (f : Failure) : List String :=
  f.context ++
    match f.cause with
    | .io e => [e.message]
    | .scan e => e.message :: e.source?.toList
    | .plain m => [m]

/-- The messages on one line. -/
def message (f : Failure) : String := ": ".intercalate f.chain

/-- The messages below each other; several causes are numbered. -/
def report (f : Failure) : String :=
  match f.chain with
  | [] => ""
  | [m] => m
  | [m, cause] => m ++ "\n\nCaused by:\n    " ++ indentRest "    " cause
  | m :: causes =>
      m ++ "\n\nCaused by:" ++ String.join (causes.mapIdx fun n cause =>
        "\n    " ++ Nat.repr n ++ ": " ++ indentRest "       " cause)

end Failure

end AccessorScan
