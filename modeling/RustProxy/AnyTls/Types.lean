import RustProxy.Base.Table
import RustProxy.Text

/-!
# AnyTLS frames and settings

The data of `anytls/types.rs`. The receive loop hands the session one decoded
frame after another, and the session hands the writer one frame after another;
their encoding is not the session's business.
-/

namespace RustProxy.AnyTls

inductive Command where
  | waste
  | syn
  | psh
  | fin
  | settings
  | alert
  | updatePaddingScheme
  | synAck
  | heartRequest
  | heartResponse
  | serverSettings
  deriving DecidableEq, Repr

structure Frame where
  cmd : Command
  streamId : UInt32
  data : Bytes
  deriving DecidableEq, Repr

namespace Frame

def withData (cmd : Command) (streamId : UInt32) (data : Bytes) : Frame := ⟨cmd, streamId, data⟩

def control (cmd : Command) (streamId : UInt32) : Frame := withData cmd streamId []

/-- `Frame::data`: what a stream pushes. -/
def psh (streamId : UInt32) (data : Bytes) : Frame := withData .psh streamId data

end Frame

/-- Settings, one `key=value` a line. -/
abbrev StringMap := Table Text Text

namespace StringMap

def fromBytes (data : Bytes) : StringMap :=
  (lines (fromUtf8Lossy data)).foldl (fun map line =>
    match splitOnce '=' line with
    | some (key, value) => map.insert key value
    | none => map) ∅

def get (map : StringMap) (key : String) : Option Text := map.lookup key.toList

end StringMap

/-- The padding scheme that the server announces, by its text and digest. -/
structure Padding where
  rawScheme : Bytes
  md5 : Text

end RustProxy.AnyTls
