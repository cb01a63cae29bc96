import BenchScript.Wire.Frame

set_option autoImplicit false

namespace BenchScript

def splitAfter (b : UInt8) : Bytes → Option (Bytes × Bytes)
  | [] => none
  | c :: rest =>
    if c = b then some ([c], rest)
    else (splitAfter b rest).map fun cut => (c :: cut.1, cut.2)

theorem splitAfter_eq {b : UInt8} {bytes line rest : Bytes}
    (h : splitAfter b bytes = some (line, rest)) : bytes = line ++ rest := by
  induction bytes generalizing line rest with
  | nil => simp [splitAfter] at h
  | cons c tail ih =>
    simp only [splitAfter] at h
    split at h
    · simp only [Option.some.injEq, Prod.mk.injEq] at h
      obtain ⟨rfl, rfl⟩ := h
      rfl
    · obtain ⟨cut, hcut, hpair⟩ := Option.map_eq_some_iff.1 h
      obtain ⟨l, r⟩ := cut
      simp only [Prod.mk.injEq] at hpair
      obtain ⟨rfl, rfl⟩ := hpair
      simp [ih hcut]

theorem splitAfter_eq_none_iff {b : UInt8} {bytes : Bytes} :
    splitAfter b bytes = none ↔ b ∉ bytes := by
  induction bytes with
  | nil => simp [splitAfter]
  | cons c rest ih =>
    by_cases h : c = b
    · simp [splitAfter, h]
    · simp [splitAfter, h, ih, Ne.symm h]

structure LineBuffer where
  bytes : Bytes := []
deriving DecidableEq, Repr

namespace LineBuffer

def empty : LineBuffer := {}

def push (buffer : LineBuffer) (bytes : Bytes) : LineBuffer := ⟨buffer.bytes ++ bytes⟩

def takeThrough (buffer : LineBuffer) (b : UInt8) : Option Bytes × LineBuffer :=
  match splitAfter b buffer.bytes with
  | some (line, rest) => (some line, ⟨rest⟩)
  | none => (none, buffer)

def takeAll (buffer : LineBuffer) : Option Bytes × LineBuffer :=
  if buffer.bytes.isEmpty then (none, buffer) else (some buffer.bytes, empty)

end LineBuffer
end BenchScript
