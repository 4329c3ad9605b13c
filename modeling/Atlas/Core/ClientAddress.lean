import Atlas.Core.Environment

/-!
# The address a login is counted for

How the address of a client is found: that of the peer, or where the peer is a trusted proxy the one
its headers tell. The parsers of addresses and their text are parameters.
-/

namespace Atlas.Core.Admin

/-- `netip.Addr`, of one that is valid. -/
inductive Addr where
  | v4 (ip : BitVec 32)
  | v6 (ip : BitVec 128) (zone : String)
  deriving DecidableEq, Repr

namespace Addr

/-- The IPv4 address inside an IPv4-mapped one, without its zone. -/
def unmap : Addr → Addr
  | v4 ip => v4 ip
  | v6 ip zone => if ip >>> 32 = 0xffff#128 then v4 (ip.setWidth 32) else v6 ip zone

def zone : Addr → String
  | v4 _ => ""
  | v6 _ zone => zone

/-- `WithZone("")`. -/
def withoutZone : Addr → Addr
  | v4 ip => v4 ip
  | v6 ip _ => v6 ip ""

end Addr

/-- `netip.Prefix`; the zero value is not valid. -/
inductive Prefix where
  | invalid
  | v4 (ip : BitVec 32) (bits : Fin 33)
  | v6 (ip : BitVec 128) (bits : Fin 129)
  deriving DecidableEq, Repr

/-- An address with a zone is in no prefix, and a prefix has only addresses of its own family. -/
def Prefix.contains : Prefix → Addr → Bool
  | .v4 network bits, .v4 ip => (ip ^^^ network) >>> (32 - bits.val) = 0#32
  | .v6 network bits, .v6 ip zone => zone = "" && (ip ^^^ network) >>> (128 - bits.val) = 0#128
  | _, _ => false

/-- The parsers of package netip, and the text of an address. -/
structure Netip where
  parseAddr : String → Option Addr
  parseAddrPort : String → Option (Addr × UInt16)
  string : Addr → String

/-- The values of a header are by its canonical name. -/
structure Request where
  remoteAddr : String
  header : String → List String

variable (netip : Netip)

def parseRemoteIP (remoteAddr : String) : Option Addr :=
  let remoteAddr := trimSpace remoteAddr
  match netip.parseAddrPort remoteAddr with
  | some peer => some peer.1.unmap.withoutZone
  | none => (netip.parseAddr remoteAddr).map fun peer => peer.unmap.withoutZone

def parseForwardedIP (value : String) : Option Addr :=
  match netip.parseAddr (trimSpace value) with
  | some ip => if ip.zone ≠ "" then none else some ip.unmap
  | none => none

def ipInPrefixes (ip : Addr) (prefixes : List Prefix) : Bool :=
  prefixes.any fun trusted => trusted.contains ip

/-- `strings.Split(value, ",")`. -/
def splitCommas (value : String) : List String :=
  (value.toList.splitOn ',').map String.ofList

/-- The loop over the entries of one value, the right-most first: what it returns, if it does. -/
def clientOfEntries (trustedProxyCIDRs : List Prefix) : List String → Option String
  | [] => none
  | entry :: rest =>
    match parseForwardedIP netip entry with
    | none => some ""
    | some ip =>
      if ipInPrefixes ip trustedProxyCIDRs then clientOfEntries trustedProxyCIDRs rest
      else some (netip.string ip)

/-- The loop over the values, the last first. -/
def clientOfValues (trustedProxyCIDRs : List Prefix) : List String → String
  | [] => ""
  | value :: rest =>
    match clientOfEntries netip trustedProxyCIDRs (splitCommas value).reverse with
    | some client => client
    | none => clientOfValues trustedProxyCIDRs rest

def clientIPFromXForwardedFor (values : List String) (trustedProxyCIDRs : List Prefix) : String :=
  clientOfValues netip trustedProxyCIDRs values.reverse

def clientIP (r : Request) (trustedProxyCIDRs : List Prefix) : String :=
  match parseRemoteIP netip r.remoteAddr with
  | none => ""
  | some peer =>
    if ipInPrefixes peer trustedProxyCIDRs then
      match r.header "CF-Connecting-IP" with
      | [] => clientIPFromXForwardedFor netip (r.header "X-Forwarded-For") trustedProxyCIDRs
      | [value] =>
        match parseForwardedIP netip value with
        | some ip => netip.string ip
        | none => ""
      | _ => ""
    else netip.string peer

end Atlas.Core.Admin
