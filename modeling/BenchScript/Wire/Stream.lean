import BenchScript.Wire.Device
import BenchScript.Wire.LineBuffer

set_option autoImplicit false

/-!
# A device behind a byte stream

The stream is given by what it will do: the outcomes of its reads, writes and flushes in order.
Reads bring bytes in pieces of any size, fail, or bring nothing, which ends the stream for that
read. The link collects pieces in a line buffer until the line is complete. A read that fails for
good gives up the line begun, so that its bytes never stand in front of a later answer; an
interrupted read is simply taken again.
-/
namespace BenchScript

inductive IoKind where
  | interrupted
  | timedOut
  | wouldBlock
  | other
deriving DecidableEq, Repr

structure IoFault where
  kind : IoKind
  text : Text
deriving DecidableEq, Repr

def IoFault.toLinkError (fault : IoFault) : LinkError :=
  match fault.kind with
  | .timedOut | .wouldBlock => .timeout
  | .interrupted | .other => .io fault.text

inductive Arrival where
  /-- Bytes arrived; none at all means the end of the stream for this read. -/
  | bytes (data : Bytes)
  | fault (failure : IoFault)
deriving DecidableEq, Repr

inductive Acceptance where
  | all
  | upTo (count : Nat)
  | fault (failure : IoFault)
deriving DecidableEq, Repr

def piecesOf (size : Nat) (bytes : Bytes) : List Bytes :=
  if bytes.length ≤ size + 1 then [bytes]
  else bytes.take (size + 1) :: piecesOf size (bytes.drop (size + 1))
termination_by bytes.length
decreasing_by simp only [List.length_drop]; omega

def readLimit : Nat := 64

/-- The reads that it takes to receive what is given as one arrival. -/
def Arrival.reads : Arrival → List Arrival
  | .bytes data => (piecesOf (readLimit - 1) data).map .bytes
  | .fault failure => [.fault failure]

structure StreamLink where
  /-- Outcomes of the reads to come; afterwards every read finds the end of the stream. -/
  arrivals : List Arrival := []
  /-- Outcomes of the writes to come; afterwards every write takes everything. -/
  acceptances : List Acceptance := []
  /-- Outcomes of the flushes to come; afterwards every flush succeeds. -/
  flushes : List (Option IoFault) := []
  written : List Bytes := []
  buffer : LineBuffer := .empty
  isOpen : Bool := true
deriving DecidableEq, Repr

namespace StreamLink

def connect (arrivals : List Arrival) (acceptances : List Acceptance)
    (flushes : List (Option IoFault)) : StreamLink :=
  { arrivals := arrivals.flatMap Arrival.reads, acceptances, flushes }

def receive (b : UInt8) : List Arrival → LineBuffer →
    Except LinkError Bytes × List Arrival × LineBuffer
  | [], buffer =>
    match buffer.takeThrough b with
    | (some line, buffer) => (.ok line, [], buffer)
    | (none, buffer) => ((buffer.takeAll.1).elim (.error .closed) .ok, [], buffer.takeAll.2)
  | arrival :: later, buffer =>
    match buffer.takeThrough b with
    | (some line, buffer) => (.ok line, arrival :: later, buffer)
    | (none, buffer) =>
      match arrival with
      -- A read that brings nothing is the end of the stream.
      | .bytes [] => ((buffer.takeAll.1).elim (.error .closed) .ok, later, buffer.takeAll.2)
      | .bytes (c :: data) => receive b later (buffer.push (c :: data))
      | .fault failure =>
        if failure.kind = .interrupted then receive b later buffer
        -- A fault makes void what had arrived of the line.
        else (.error failure.toLinkError, later, .empty)

/-- Offers bytes to the stream until all are taken; the second component collects the pieces that
the stream took. A write that takes nothing is a failure, an interrupted one is tried again. -/
def offer : List Acceptance → Bytes → Except LinkError Unit × List Bytes × List Acceptance
  | acceptances, [] => (.ok (), [], acceptances)
  | [], bytes => (.ok (), [bytes], [])
  | .all :: later, bytes => (.ok (), [bytes], later)
  | .upTo count :: later, bytes =>
    if count = 0 then (.error (.io "failed to write whole buffer".toList), [], later)
    else
      let (result, taken, later) := offer later (bytes.drop count)
      (result, bytes.take count :: taken, later)
  | .fault failure :: later, bytes =>
    if failure.kind = .interrupted then offer later bytes
    else (.error failure.toLinkError, [], later)

def write (bytes : Bytes) (link : StreamLink) : Except LinkError Unit × StreamLink :=
  if !link.isOpen then (.error .closed, link)
  else
    match offer link.acceptances bytes with
    | (.error e, taken, later) =>
      (.error e, { link with acceptances := later, written := link.written ++ taken })
    | (.ok (), taken, later) =>
      let link := { link with acceptances := later, written := link.written ++ taken }
      match link.flushes with
      | [] => (.ok (), link)
      | none :: flushes => (.ok (), { link with flushes })
      | some failure :: flushes => (.error failure.toLinkError, { link with flushes })

/-- Reads through the next byte `b`. What is buffered is delivered first, so a closed link, whose
buffer is empty, has nothing to give. -/
def readThrough (b : UInt8) (link : StreamLink) : Except LinkError Bytes × StreamLink :=
  if !link.isOpen then
    match link.buffer.takeThrough b with
    | (some line, buffer) => (.ok line, { link with buffer })
    | (none, _) => (.error .closed, link)
  else
    let (result, arrivals, buffer) := receive b link.arrivals link.buffer
    (result, { link with arrivals, buffer })

def close (link : StreamLink) : StreamLink :=
  { link with isOpen := false, buffer := .empty }

instance : Device StreamLink where
  write := write
  readThrough := readThrough
  close := close

end StreamLink
end BenchScript
