import QuicProxy.Proxy.TargetAddr

namespace QuicProxy

/-! The targets of HTTP proxy requests (`src/proxy/inbound/http.rs`). -/

namespace Http

def stripStart : List Char → List Char → Option (List Char)
  | [], text => some text
  | _ :: _, [] => none
  | char :: start, first :: text => if char = first then stripStart start text else none

def domainPort (text : List Char) : Option TargetAddr :=
  match rsplitOnce ':' text with
  | none => none
  | some (host, port) =>
      (parseUnsigned 65536 port).map fun port =>
        .domain (String.ofList host) (castU16 port)

def parseTarget (path : List Char) : Except String TargetAddr :=
  match SocketAddr.parse path with
  | some addr => .ok (.ip addr)
  | none =>
      match domainPort path with
      | some target => .ok target
      | none => .error ("Invalid target in CONNECT: " ++ String.ofList path)

/-- A socket address, a domain with a port, or a domain with the default port. -/
def hostPort (defaultPort : UInt16) (text : List Char) : TargetAddr :=
  match SocketAddr.parse text with
  | some addr => .ip addr
  | none => (domainPort text).getD (.domain (String.ofList text) defaultPort)

def parseHostHeader (host : List Char) : Except String TargetAddr :=
  .ok (hostPort 80 host)

def urlAuthority (url : List Char) : List Char :=
  let withoutScheme :=
    (stripStart "http://".toList url <|> stripStart "https://".toList url).getD url
  withoutScheme.takeWhile (· != '/')

def parseUrlTarget (url : List Char) : Except String TargetAddr :=
  let defaultPort := if (stripStart "https://".toList url).isSome then 443 else 80
  .ok (hostPort defaultPort (urlAuthority url))

end Http

end QuicProxy
