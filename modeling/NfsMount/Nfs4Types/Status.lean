import NfsMount.XdrCodec.Variable

/-!
# `NfsMount.Nfs4Types.Status`: the status codes

The model of `nfs4-types/src/status.rs`. `NfsStat4` derives its codec. For an enum of unit
variants the derive macro writes the discriminant as a word, and reads a word by matching it
against the variants' discriminants in the order of the declaration (`xdr-derive/src/lib.rs`,
`encode_enum_variants` and `decode_enum_variants`). `encodeUnitEnum` and `decodeUnitEnum` are
these two functions over any list of variants.
-/

set_option autoImplicit false

namespace NfsMount.XdrCodec

open NfsMount.Lib

/-- The derived encoder of an enum of unit variants. -/
def encodeUnitEnum {α : Type} (discriminant : α → UInt32) (v : α) : Encoded UInt8 XdrError :=
  encode (discriminant v)

/-- The derived decoder of an enum of unit variants: the first variant with the discriminant
that was read. -/
def decodeUnitEnum {α : Type} (typeName : String) (variants : List α)
    (discriminant : α → UInt32) : Decoder UInt8 XdrError α := do
  let word : UInt32 ← decode
  match variants.find? (fun v => discriminant v == word) with
  | some v => pure v
  | none => Decoder.fail (.invalidEnum word typeName)

end NfsMount.XdrCodec

namespace NfsMount.Nfs4Types

open NfsMount.Lib NfsMount.XdrCodec

/-- The status of an operation, or of a reply, as far as the client knows it. -/
inductive NfsStat4 where
  | ok | perm | noent | io | nxio | access | exist | xdev | notdir | isdir | inval | fbig
  | nospc | rofs | mlink | nametoolong | notempty | dquot | stale | badHandle | badCookie
  | notsupp | toosmall | serverfault | badtype | delay | same | denied | expired | locked
  | grace | fhExpired | shareDenied | wrongSec | moved | nofilehandle | minorVersMismatch
  | staleClientId | staleStateid | oldStateid | badStateid | badSeqid | symlink
  | attrNotsupp | badOwner | badName | opIllegal | locksHeld | openmode | badSession
  | badSlot | completeAlready | connNotBoundToSession | seqMisordered | sequencePos
  | reqTooBig | repTooBig | repTooBigToCache | retryUncachedRep | unsafeCompound
  | tooManyOps | opNotInSession | seqFalseRetry | badHighSlot | deadSession
deriving DecidableEq

namespace NfsStat4

/-- The variants in the order of the declaration. -/
def variants : List NfsStat4 :=
  [.ok, .perm, .noent, .io, .nxio, .access, .exist, .xdev, .notdir, .isdir, .inval, .fbig,
  .nospc, .rofs, .mlink, .nametoolong, .notempty, .dquot, .stale, .badHandle, .badCookie,
  .notsupp, .toosmall, .serverfault, .badtype, .delay, .same, .denied, .expired, .locked,
  .grace, .fhExpired, .shareDenied, .wrongSec, .moved, .nofilehandle, .minorVersMismatch,
  .staleClientId, .staleStateid, .oldStateid, .badStateid, .badSeqid, .symlink,
  .attrNotsupp, .badOwner, .badName, .opIllegal, .locksHeld, .openmode, .badSession,
  .badSlot, .completeAlready, .connNotBoundToSession, .seqMisordered, .sequencePos,
  .reqTooBig, .repTooBig, .repTooBigToCache, .retryUncachedRep, .unsafeCompound,
  .tooManyOps, .opNotInSession, .seqFalseRetry, .badHighSlot, .deadSession]

/-- `#[xdr(discriminant = N)]`. -/
def discriminant : NfsStat4 → UInt32
  | .ok => 0
  | .perm => 1
  | .noent => 2
  | .io => 5
  | .nxio => 6
  | .access => 13
  | .exist => 17
  | .xdev => 18
  | .notdir => 20
  | .isdir => 21
  | .inval => 22
  | .fbig => 27
  | .nospc => 28
  | .rofs => 30
  | .mlink => 31
  | .nametoolong => 63
  | .notempty => 66
  | .dquot => 69
  | .stale => 70
  | .badHandle => 10001
  | .badCookie => 10003
  | .notsupp => 10004
  | .toosmall => 10005
  | .serverfault => 10006
  | .badtype => 10007
  | .delay => 10008
  | .same => 10009
  | .denied => 10010
  | .expired => 10011
  | .locked => 10012
  | .grace => 10013
  | .fhExpired => 10014
  | .shareDenied => 10015
  | .wrongSec => 10016
  | .moved => 10019
  | .nofilehandle => 10020
  | .minorVersMismatch => 10021
  | .staleClientId => 10022
  | .staleStateid => 10023
  | .oldStateid => 10024
  | .badStateid => 10025
  | .badSeqid => 10026
  | .symlink => 10029
  | .attrNotsupp => 10032
  | .badOwner => 10036
  | .badName => 10038
  | .opIllegal => 10044
  | .locksHeld => 10047
  | .openmode => 10048
  | .badSession => 10052
  | .badSlot => 10053
  | .completeAlready => 10054
  | .connNotBoundToSession => 10055
  | .seqMisordered => 10063
  | .sequencePos => 10064
  | .reqTooBig => 10065
  | .repTooBig => 10066
  | .repTooBigToCache => 10067
  | .retryUncachedRep => 10068
  | .unsafeCompound => 10069
  | .tooManyOps => 10070
  | .opNotInSession => 10071
  | .seqFalseRetry => 10076
  | .badHighSlot => 10077
  | .deadSession => 10078

/-- Whether the operation succeeded. -/
def isOk (s : NfsStat4) : Bool := s = .ok

end NfsStat4

instance : XdrEncode NfsStat4 where
  encode := encodeUnitEnum NfsStat4.discriminant

instance : XdrDecode NfsStat4 where
  decode := decodeUnitEnum "NfsStat4" NfsStat4.variants NfsStat4.discriminant

end NfsMount.Nfs4Types
