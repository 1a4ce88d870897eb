import AccessorScan.Files.System

/-!
# `AccessorScan.Report.Sink` — sinks of limited room

## Contents
- `Sink`: the bytes taken so far and the room left.
- `Sink.offer`: one call, which may take a part of the bytes.
- `Room`: how much a place takes, as a sink.
- `Writing`: work that writes into a sink and ends at the first error.
- `Writing.bytes`, `Writing.text`: calls until everything is taken; `Writing.into`: the work done.
-/

namespace AccessorScan

structure Sink where
  taken : List UInt8
  /-- How many more bytes fit; `none` where there is no limit. -/
  room : Option Nat
  /-- What is answered where bytes are offered and there is no room. It is never an interruption, after
  which the same bytes would be offered again. -/
  refusal : IoError
  /-- The room that there is after a refusal. -/
  relief : Option Nat

namespace Sink

def unlimited : Sink := ⟨[], none, .noSpace, none⟩

/-- A sink that stays full once it is full. -/
def limited (room : Nat) (refusal : IoError) : Sink := ⟨[], some room, refusal, some 0⟩

/-- How many of these bytes there is room for. -/
def share (s : Sink) (bytes : List UInt8) : Nat :=
  match s.room with
  | none => bytes.length
  | some n => min n bytes.length

/-- The sink with these bytes in it. -/
def add (s : Sink) (bytes : List UInt8) : Sink :=
  { s with taken := s.taken ++ bytes, room := s.room.map (· - bytes.length) }

/-- The sink after a refusal. -/
def refused (s : Sink) : Sink := { s with room := s.relief }

/-- One call. As many bytes are taken as there is room for, and the answer is their number. -/
def offer (s : Sink) (bytes : List UInt8) : Except IoError Nat × Sink :=
  if s.share bytes = 0 ∧ bytes ≠ [] then (.error s.refusal, s.refused)
  else (.ok (s.share bytes), s.add (bytes.take (s.share bytes)))

end Sink

/-- How much a place takes that is written to. Once it is full it stays full. -/
inductive Room where
  | ample
  | limited (bytes : Nat) (refusal : IoError)

/-- The place before anything is written. -/
def Room.sink : Room → Sink
  | ample => .unlimited
  | limited n e => .limited n e

/-- Work that writes into a sink. It ends at the first error, and what was taken up to then stays taken. -/
abbrev Writing := ExceptT IoError (StateM Sink)

namespace Writing

def offer (bytes : List UInt8) : Writing Nat := ExceptT.mk fun s => s.offer bytes

/-- What is said of a sink that takes nothing and gives no error. -/
def nothingTaken : IoError := .other "failed to write whole buffer"

/-- Offers these bytes, and what is left of them, until all are taken. -/
def bytes (bs : List UInt8) : Writing Unit :=
  if bs = [] then pure ()
  else do
    let n ← offer bs
    if n = 0 then throw nothingTaken else bytes (bs.drop n)
termination_by bs.length
decreasing_by
  have hpos : 0 < bs.length := List.length_pos_iff.mpr (by assumption)
  rw [List.length_drop]
  omega

def text (t : String) : Writing Unit := bytes t.toUTF8.data.toList

/-- A sink holds nothing back. -/
def flush : Writing Unit := pure ()

/-- How the work ends, and the sink afterwards. -/
def into {α : Type} (w : Writing α) (s : Sink) : Except IoError α × Sink := w.run.run s

end Writing

end AccessorScan
