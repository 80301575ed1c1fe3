import NfsMount.XdrCodec.Variable

/-!
# `NfsMount.OncRpc.Auth`: credentials and verifiers

The model of `onc-rpc/src/auth.rs`. An auth is a flavor word, the length of its body, and
the body. The decoder reads the length word in every arm and uses it in two of them.
-/

set_option autoImplicit false

namespace NfsMount.OncRpc

open NfsMount.Lib NfsMount.XdrCodec

/-- No credentials. -/
def AUTH_NONE : UInt32 := 0

/-- The ids of a Unix user. -/
def AUTH_SYS : UInt32 := 1

/-- Who calls, as a Unix user of a machine. -/
structure AuthSys where
  stamp : UInt32
  machineName : String
  uid : UInt32
  gid : UInt32
  gids : List UInt32
deriving DecidableEq

/-- The credentials or the verifier of a message. Other flavors are read as none. -/
inductive AuthFlavor where
  | none
  | sys (sys : AuthSys)
deriving DecidableEq

/-- The body of an AUTH_SYS auth. -/
def encodeAuthSys (sys : AuthSys) : Encoded UInt8 XdrError :=
  Encoded.seq
    [encode sys.stamp, encode sys.machineName, encode sys.uid, encode sys.gid, encode sys.gids]

instance : XdrEncode AuthFlavor where
  encode
    | .none => Encoded.seq [encode AUTH_NONE, encode (0 : UInt32)]
    | .sys sys =>
        match encodeAuthSys sys with
        | .error e => .error e
        | .ok body =>
            -- `body.len() as u32` keeps the low 32 bits of the length.
            Encoded.seq [encode AUTH_SYS, encode (UInt32.ofNat body.length), .ok body]

/-- The AUTH_SYS arm of the decoder. It does not look at the body length. -/
def decodeAuthSys : Decoder UInt8 XdrError AuthSys := do
  let stamp ← decode
  let machineName ← decode
  let uid ← decode
  let gid ← decode
  let gids ← decode
  pure { stamp, machineName, uid, gid, gids }

/-- The arm of the flavor. -/
def decodeAuthBody (flavor : UInt32) (bodyLen : Nat) : Decoder UInt8 XdrError AuthFlavor :=
  if flavor = AUTH_NONE then do
    if 0 < bodyLen then
      -- No check that the buffer holds the body.
      Decoder.advance bodyLen
    pure .none
  else if flavor = AUTH_SYS then
    .sys <$> decodeAuthSys
  else do
    let available ← Decoder.remaining
    if available < bodyLen then
      Decoder.fail (.bufferTooShort bodyLen available)
    else
      Decoder.advance bodyLen
      pure .none

instance : XdrDecode AuthFlavor where
  decode := do
    let flavor : UInt32 ← decode
    let bodyLen : UInt32 ← decode
    decodeAuthBody flavor bodyLen.toNat

end NfsMount.OncRpc
