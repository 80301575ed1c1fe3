import NfsMount.Lib.Parser

/-!
# `NfsMount.Rfc8881.CreateSession`: the grammar of the CREATE_SESSION arguments

The arguments of CREATE_SESSION as RFC 8881, section 18.36, has them, written from there and
not from the client. All numbers are in big-endian order, and a counted array is a word and
the elements.

The security parameters of the callback are a union over the flavor. The arm of AUTH_NONE is
void. The arms of the other flavors make no difference here and are a parameter.
-/

set_option autoImplicit false

namespace NfsMount.Rfc8881

open NfsMount.Lib

/-- `uint32_t`. -/
def word : Parser UInt8 Nat := ofBE <$> Parser.take 4

/-- `uint64_t`. -/
def hyper : Parser UInt8 Nat := ofBE <$> Parser.take 8

/-- `elem<max>`: a counted array of at most `max` elements. -/
def array {α : Type} (max : Nat) (elem : Parser UInt8 α) : Parser UInt8 (List α) := do
  let count ← word
  if count ≤ max then Parser.times count elem else Parser.refuse

/-- `channel_attrs4`. -/
structure ChannelAttrs where
  headerpadsize : Nat
  maxrequestsize : Nat
  maxresponsesize : Nat
  maxresponsesizeCached : Nat
  maxoperations : Nat
  maxrequests : Nat
  rdmaIrd : List Nat
deriving DecidableEq

/-- The attributes of a channel, with at most one RDMA limit. -/
def channelAttrs : Parser UInt8 ChannelAttrs := do
  let headerpadsize ← word
  let maxrequestsize ← word
  let maxresponsesize ← word
  let maxresponsesizeCached ← word
  let maxoperations ← word
  let maxrequests ← word
  let rdmaIrd ← array 1 word
  pure { headerpadsize, maxrequestsize, maxresponsesize, maxresponsesizeCached, maxoperations
         maxrequests, rdmaIrd }

/-- The flavor without a body. -/
def AUTH_NONE : Nat := 0

/-- `callback_sec_parms4`: the flavor, and what its arm reads. -/
def callbackSecParms (arms : Nat → Parser UInt8 Unit) : Parser UInt8 Nat := do
  let flavor ← word
  if flavor = AUTH_NONE then pure flavor
  else
    arms flavor
    pure flavor

/-- `CREATE_SESSION4args`. -/
structure CreateSession where
  clientid : Nat
  sequence : Nat
  flags : Nat
  foreChanAttrs : ChannelAttrs
  backChanAttrs : ChannelAttrs
  cbProgram : Nat
  /-- The flavor of each of the security parameters. -/
  secParms : List Nat
deriving DecidableEq

/-- The arguments of CREATE_SESSION, with the given arms for the other flavors. -/
def createSession (arms : Nat → Parser UInt8 Unit) : Parser UInt8 CreateSession := do
  let clientid ← hyper
  let sequence ← word
  let flags ← word
  let foreChanAttrs ← channelAttrs
  let backChanAttrs ← channelAttrs
  let cbProgram ← word
  let secParms ← array (2 ^ 32 - 1) (callbackSecParms arms)
  pure { clientid, sequence, flags, foreChanAttrs, backChanAttrs, cbProgram, secParms }

end NfsMount.Rfc8881
