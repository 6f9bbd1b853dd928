/-
Error codes and statuses (`include/utp/errno.h`, `util/status.h`).

A `Status` is a code and a text; `UTP_ERR_OK` is success. Only the codes
the modelled functions answer with are listed, each with the number the
header gives it.
-/
import Mathlib

namespace Eular.Utp

/-- `utp_error_t`. -/
inductive UtpError where
  | ok
  | invalidParam
  | internalError
  | wouldBlock
  | invalidState
  | connectionClosing
  | overflow
  | streamLimited
  | pathValidationBlocked
  | socketNotBound
  | socketWrite
  | streamClosed
  | streamStateError
  | streamLimitError
  | streamFlowControl
  | streamIdExhausted
  | frameFormatError
  | frameUnexpected
  | cryptoEncryption
  | cryptoDecryption
deriving DecidableEq, Repr

/-- The numeric value of a code. -/
def UtpError.value : UtpError → Nat
  | .ok => 0x0000
  | .invalidParam => 0x0001
  | .internalError => 0x0002
  | .wouldBlock => 0x000a
  | .invalidState => 0x000b
  | .connectionClosing => 0x000c
  | .overflow => 0x000e
  | .streamLimited => 0x000f
  | .pathValidationBlocked => 0x0010
  | .socketNotBound => 0x0022
  | .socketWrite => 0x0026
  | .streamClosed => 0x0040
  | .streamStateError => 0x0042
  | .streamLimitError => 0x0043
  | .streamFlowControl => 0x0044
  | .streamIdExhausted => 0x0047
  | .frameFormatError => 0x0060
  | .frameUnexpected => 0x0061
  | .cryptoEncryption => 0x0082
  | .cryptoDecryption => 0x0083

/-- `Status`: a code and the text that goes with it. -/
structure Status where
  code : UtpError
  message : String
deriving DecidableEq, Repr

namespace Status

/-- `Status::OK()`. -/
def success : Status := ⟨.ok, ""⟩

/-- `Status::ok()`. -/
def ok (st : Status) : Bool := st.code = .ok

/-- `Status::ErrorLiteral`. -/
def error (code : UtpError) (message : String) : Status := ⟨code, message⟩

@[simp] theorem ok_success : success.ok = true := rfl

@[simp] theorem code_success : success.code = .ok := rfl

@[simp] theorem code_error (code : UtpError) (message : String) :
    (error code message).code = code := rfl

@[simp] theorem ok_error (code : UtpError) (message : String) :
    (error code message).ok = decide (code = .ok) := rfl

end Status

/-- `StreamErr`: what a failed call of the stream interface leaves as the
last error. The call itself returns −1. -/
def streamErr (code : UtpError) : Status :=
  .error code ("stream operation failed: " ++ toString code.value)

@[simp] theorem code_streamErr (code : UtpError) : (streamErr code).code = code := rfl

end Eular.Utp
