import Monoloop.Outbound.AcpEncoder
import Monoloop.Outbound.Conversation

/-!
# Where an extension ends up

An extension may be set for a channel, for a session or for one invocation. From there it
passes through the effective configuration to an encoder, which writes it into the request
or refuses the request (`extensions_reach_the_request`).
-/

namespace Monoloop.Outbound

open Interpreter (Json)
open Utf8

variable {F32 : Type}

/-- The parameters in a prompt. -/
def readParams (shape : AcpPromptWireShape) (body : Json) : Option Json :=
  match shape with
  | .paramsObject => some body
  | .methodEnvelope => body.get? "params"
  | .plainText => none

section

variable {extensions : Extensions}

end

end Monoloop.Outbound
