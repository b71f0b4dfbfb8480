import Tobira.Framework.Str

namespace Tobira

open Tobira.Framework

inductive RelayNetwork where
  | tcp
  | grpc
  deriving DecidableEq,Repr

inductive PacketEncoding where
  | default
  | packetAddr
  | xudp
  deriving DecidableEq,Repr

namespace PacketEncoding

def asStr : PacketEncoding → Text
  | default => []
  | packetAddr => "packetaddr".toList
  | xudp => "xudp".toList

def parse (value : Text) : Option PacketEncoding :=
  let value := value.map Char.toLower
  if value=[] ∨ value="default".toList ∨ value="none".toList then some default
  else if value="packetaddr".toList ∨ value="packet_addr".toList ∨ value="packet-addr".toList then
    some packetAddr
  else if value="xudp".toList then some xudp
  else none

theorem parse_asStr (encoding : PacketEncoding) : parse encoding.asStr=some encoding := by
  cases encoding <;> decide

end PacketEncoding

/-- One step of a processing pipeline, as it is configured. -/
structure ProcessStep where
  filter : List Text
  filterSource : List Text
  invert : Bool
  remove : Bool
  rename : List (Text×Text)
  removeEmoji : Bool
  overrideSecurity : Option Text
  packetEncoding : Option PacketEncoding
  deriving DecidableEq,Repr

/-- `outputs = none` gives access to all outputs. -/
structure HttpUser where
  username : Text
  password : Text
  outputs : Option (List Text)
  deriving DecidableEq,Repr

structure OutputConfig where
  name : Text
  host : Text
  port : UInt16
  sni : Option Text
  skipCertVerify : Bool
  process : List ProcessStep
  deriving DecidableEq,Repr

structure SubscriptionSource where
  name : Text
  url : Option Text
  path : Option Text
  userAgent : Text
  process : List ProcessStep
  deriving DecidableEq,Repr

inductive SourceError where
  | bothSet
  | neitherSet
  | read (cause : Text)
  deriving DecidableEq,Repr

def SourceError.message : SourceError → Text
  | .bothSet => "subscription source must set only one of `url` or `path`".toList
  | .neitherSet => "subscription source must set either `url` or `path`".toList
  | .read cause => cause

/-- `SubscriptionSource::deserialize`, from the fields as they are written; a blank one does not
count. -/
def SubscriptionSource.deserialize (raw : SubscriptionSource) :
    Except SourceError SubscriptionSource :=
  let url := raw.url.filter (fun s => trim s≠[])
  let path := raw.path.filter (fun s => trim s≠[])
  match url.isSome,path.isSome with
  | true,true => .error .bothSet
  | false,false => .error .neitherSet
  | _,_ => .ok { raw with url := url, path := path }

structure SubscriptionConfig where
  cacheFile : Option Text
  updateInterval : UInt64
  sources : List SubscriptionSource
  deduplication : Text
  deriving DecidableEq,Repr

structure RelayConfig where
  listen : Text
  port : UInt16
  network : RelayNetwork
  serviceName : Text
  idleTimeout : UInt64
  grpcPoolIdleTimeout : UInt64
  deriving DecidableEq,Repr

structure HttpConfig where
  listen : Text
  port : UInt16
  users : List HttpUser
  outputs : List OutputConfig
  deriving DecidableEq,Repr

structure Config where
  logLevel : Text
  relay : RelayConfig
  http : HttpConfig
  subscription : SubscriptionConfig
  deriving DecidableEq,Repr

end Tobira
