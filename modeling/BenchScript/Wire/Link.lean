import BenchScript.Wire.Canned
import BenchScript.Wire.Stream

set_option autoImplicit false

namespace BenchScript

inductive Link where
  | canned (device : CannedDevice)
  | stream (link : StreamLink)
deriving DecidableEq, Repr

namespace Link

def written : Link → List Bytes
  | .canned device => device.written
  | .stream link => link.written

instance : Device Link where
  write bytes
    | .canned device => (device.write bytes).map id .canned
    | .stream link => (link.write bytes).map id .stream
  readThrough b
    | .canned device => (device.readThrough b).map id .canned
    | .stream link => (link.readThrough b).map id .stream
  close
    | .canned device => .canned device.close
    | .stream link => .stream link.close

end Link
end BenchScript
