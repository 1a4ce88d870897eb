/-!
# `AccessorScan.Log` — messages beside results

## Contents
- `LogLevel`, `LogEntry`.
- `Logged`: a result with the messages told on the way to it, in order; `value_bind`: the result alone.
-/

namespace AccessorScan

inductive LogLevel where
  | error
  | warn
  | info
  | debug
  | trace
  deriving DecidableEq, Repr

namespace LogLevel

/-- The level's place from the gravest on, counted from 1. -/
def rank : LogLevel → Nat
  | error => 1
  | warn => 2
  | info => 3
  | debug => 4
  | trace => 5

/-- The name of the level as messages carry it. -/
def name : LogLevel → String
  | error => "ERROR"
  | warn => "WARN"
  | info => "INFO"
  | debug => "DEBUG"
  | trace => "TRACE"

end LogLevel

structure LogEntry where
  level : LogLevel
  /-- The part of the program that tells it. -/
  target : String
  message : String
  deriving DecidableEq, Repr

structure Logged (α : Type) where
  value : α
  entries : List LogEntry

namespace Logged

/-- A result about which nothing is told. -/
def quiet {α : Type} (a : α) : Logged α := ⟨a, []⟩

/-- A message without a result. -/
def tell (level : LogLevel) (target message : String) : Logged Unit :=
  ⟨(), [⟨level, target, message⟩]⟩

def andThen {α β : Type} (x : Logged α) (f : α → Logged β) : Logged β :=
  let y := f x.value
  ⟨y.value, x.entries ++ y.entries⟩

instance : Monad Logged where
  pure := quiet
  bind := andThen

@[simp] theorem value_quiet {α : Type} (a : α) : (quiet a).value = a := rfl

@[simp] theorem value_pure {α : Type} (a : α) : (pure a : Logged α).value = a := rfl

@[simp] theorem value_bind {α β : Type} (x : Logged α) (f : α → Logged β) :
    (x >>= f).value = (f x.value).value := rfl

/-- The results of all of these, with their messages one after the other. -/
def sequence {α : Type} (xs : List (Logged α)) : Logged (List α) :=
  ⟨xs.map Logged.value, xs.flatMap Logged.entries⟩

/-- The warnings among the messages. -/
def warnings {α : Type} (x : Logged α) : List String :=
  (x.entries.filter fun e => e.level == .warn).map LogEntry.message

end Logged

end AccessorScan
