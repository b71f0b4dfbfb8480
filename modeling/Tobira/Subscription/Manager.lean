import Tobira.Subscription.Process
import Tobira.Vmess.Validator

namespace Tobira.Subscription

open Tobira.Framework Tobira.Framework.Net Tobira.Vmess

inductive ManagerError where
  | addrParse
  | requestUri (cause : Text)
  | vmess (e : VmessError)
  deriving DecidableEq,Repr

def ManagerError.message : ManagerError → Text
  | .addrParse => "invalid socket address syntax".toList
  | .requestUri cause => "build gRPC request URI: ".toList++cause
  | .vmess e => e.message

/-- `uriParse` is `str::parse::<http::Uri>`, with the text of its error. -/
def nodeTransport (uriParse : Text → Except Text Uri) (node : VMessNode) (port : Nat) :
    Except ManagerError Transport :=
  if node.network="grpc".toList then
    let serviceName := node.grpcServiceName.getD []
    let tlsSni := node.sni
    let text := "https://".toList++tlsSni++":".toList++decimal port++"/".toList++serviceName++
      "/Tun".toList
    match uriParse text with
    | .error cause => .error (.requestUri cause)
    | .ok requestUri => .ok (.grpc serviceName tlsSni requestUri)
  else .ok .tcp

/-- The body of the loop in `build_validator`. -/
def nodePair (uriParse : Text → Except Text Uri) (node : VMessNode) :
    Except (Fault ManagerError) (Text×Upstream) :=
  let addr := node.server++":".toList++decimal node.port.toNat
  match parseSocketAddr addr with
  | none => .error (.error .addrParse)
  | some parsedAddr =>
    match nodeTransport uriParse node parsedAddr.port with
    | .error e => .error (.error e)
    | .ok transport => .ok (node.uuid,⟨addr,parsedAddr,transport,false⟩)

def liftVmess : Fault VmessError → Fault ManagerError
  | .error e => .error (.vmess e)
  | .panic p => .panic p

def buildValidator (c : Crypto) (uriParse : Text → Except Text Uri) (nodes : List VMessNode) :
    Except (Fault ManagerError) Validator := do
  let pairs ← nodes.mapM (nodePair uriParse)
  (Validator.new c pairs).mapError liftVmess

end Tobira.Subscription
