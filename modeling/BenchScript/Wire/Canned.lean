import BenchScript.Wire.Device

set_option autoImplicit false

namespace BenchScript

/-- A byte string with a terminator at its end, added if it lacks one. -/
def terminated (bytes : Bytes) : Bytes :=
  if bytes.getLast? = some terminator then bytes else bytes ++ [terminator]

structure CannedDevice where
  replies : List Bytes := []
  written : List Bytes := []
  isOpen : Bool := true
deriving DecidableEq, Repr

namespace CannedDevice

def ofReplies (replies : List Bytes) : CannedDevice := { replies := replies.map terminated }

def push (reply : Bytes) (device : CannedDevice) : CannedDevice :=
  { device with replies := device.replies ++ [terminated reply] }

def write (bytes : Bytes) (device : CannedDevice) : Except LinkError Unit × CannedDevice :=
  if device.isOpen then (.ok (), { device with written := device.written ++ [bytes] })
  else (.error .closed, device)

def readThrough (_ : UInt8) (device : CannedDevice) : Except LinkError Bytes × CannedDevice :=
  if !device.isOpen then (.error .closed, device)
  else
    match device.replies with
    | [] => (.ok [terminator], device)
    | reply :: replies => (.ok reply, { device with replies })

def close (device : CannedDevice) : CannedDevice := { device with isOpen := false }

instance : Device CannedDevice where
  write := write
  readThrough := readThrough
  close := close

end CannedDevice
end BenchScript
