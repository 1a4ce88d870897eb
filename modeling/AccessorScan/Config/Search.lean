import AccessorScan.Config.OfToml
import AccessorScan.Log

/-!
# `AccessorScan.Config.Search` — finding the configuration that applies

A file that is named has to hold a configuration. Otherwise the nearest directory with a usable file
decides, and a file that cannot be used is told about and passed over.

## Contents
- `loadFrom`: the configuration of a named file, or why there is none.
- `tryLoad`: that of a file that may be passed over; `tellUnread`: what is told if it cannot be read.
- `searchFrom`: that of a directory and those above it; `searchHere`: from the current directory.
-/

namespace AccessorScan.Config

def logTarget : String := "accessormap::config::loader"

/-- How many directories are searched. -/
def searchDepth : Nat := 10

def tellLoaded (p : FilePath) : Logged Unit :=
  .tell .debug logTarget ("Loaded config from " ++ p.text)

/-- The configuration in a named file. Whatever goes wrong is an error. -/
def loadFrom (fs : FileSystem) (p : FilePath) : Logged (Except ScanError Config) :=
  match fs.readText p with
  | .error e => .quiet (.error (.fileSystem "Failed to read config file" p e))
  | .ok text =>
      match ofText text with
      | .error e => .quiet (.error e)
      | .ok c => do
          tellLoaded p
          return .ok c

/-- What is told about a file that cannot be read; nothing about one that does not exist. -/
def tellUnread (p : FilePath) (e : IoError) : Logged Unit :=
  if e = .notFound then .quiet ()
  else .tell .warn logTarget ("Failed to read config file " ++ p.text ++ ": " ++ e.message)

/-- The configuration in a file, if it can be used. Whatever goes wrong is told. -/
def tryLoad (fs : FileSystem) (p : FilePath) : Logged (Option Config) :=
  match fs.readText p with
  | .error e => do
      tellUnread p e
      return none
  | .ok text =>
      match ofText text with
      | .ok c => do
          tellLoaded p
          return some c
      | .error e => do
          .tell .warn logTarget ("Ignoring " ++ p.text ++ ": " ++ e.message)
          return none

/-- The first configuration in these files that can be used; the default one if there is none. -/
def firstUsable (fs : FileSystem) : List FilePath → Logged Config
  | [] => do
      .tell .debug logTarget ("No config found after checking " ++ Nat.repr searchDepth ++
        " directories. Using default config.")
      return default
  | p :: rest => do
      match ← tryLoad fs p with
      | some c => return c
      | none => firstUsable fs rest

/-- The configuration for a directory, which the directories above it may hold. -/
def searchFrom (fs : FileSystem) (start : FilePath) : Logged Config :=
  firstUsable fs ((start.ancestors searchDepth).map fun d => d.join ⟨fileName⟩)

/-- The configuration for the current directory. -/
def searchHere (fs : FileSystem) : Logged Config :=
  match fs.currentDirectory with
  | .ok d => searchFrom fs d
  | .error e => do
      .tell .warn logTarget
        ("Failed to get current directory: " ++ e.message ++ ". Using default config.")
      return default

end AccessorScan.Config
