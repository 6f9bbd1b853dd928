/-
Probe authorizations (`ntrs_auth.cpp`).

A node that asks another one to send a probe on its behalf signs what it
asks for: the arguments are joined by '|' behind the word `probe` and the
hex form of the HMAC of that text is the authorization. The answering node
mints the authorization again from the arguments it was given and compares.

HMAC-SHA256 is a parameter: it maps a key and a message to the bytes of
the digest.
-/
import Eular.Lib.Text

namespace Eular.Ntrs

open Lib

/-- What an authorization is minted for. -/
structure ProbeArgs where
  ownerPeerId : List UInt8
  targetIp : List UInt8
  targetPort : UInt16
  probeToken : List UInt8
  expireAtSec : UInt64
deriving DecidableEq, Repr

def kHex (nibble : UInt8) : UInt8 :=
  if nibble < 10 then 0x30 + nibble else 0x61 + (nibble - 10)

def hexBytes (bytes : List UInt8) : List UInt8 :=
  bytes.flatMap fun (b : UInt8) => [kHex (b >>> 4 &&& 0x0f), kHex (b &&& 0x0f)]

/-- '|'. -/
def bar : UInt8 := 0x7c

/-- The text that is signed: the stream of `MintProbeAuthorization`. -/
def signedText (a : ProbeArgs) : List UInt8 :=
  ascii "probe" ++ bar :: (a.ownerPeerId ++ bar :: (a.targetIp ++ bar ::
    (decimal a.targetPort.toNat ++ bar :: (a.probeToken ++ bar :: decimal a.expireAtSec.toNat))))

section Keyed

variable (hmacSha256 : List UInt8 → List UInt8 → List UInt8)

def hmacSha256Hex (key message : List UInt8) : List UInt8 :=
  hexBytes (hmacSha256 key message)

def mintProbeAuthorization (sharedSecret : List UInt8) (a : ProbeArgs) : List UInt8 :=
  if sharedSecret.isEmpty then [] else hmacSha256Hex hmacSha256 sharedSecret (signedText a)

def validateProbeAuthorization (sharedSecret : List UInt8) (a : ProbeArgs)
    (authorization : List UInt8) : Bool :=
  if a.ownerPeerId.isEmpty || a.targetIp.isEmpty || a.targetPort == 0 || a.probeToken.isEmpty
      || authorization.isEmpty then
    false
  else
    authorization == mintProbeAuthorization hmacSha256 sharedSecret a

end Keyed

end Eular.Ntrs
