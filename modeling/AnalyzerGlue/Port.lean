/-!
# Network ports

A port is a number together with the transport protocol it belongs to, written
as `80/tcp`.
-/

namespace AnalyzerGlue

/-- The transport protocols. -/
inductive Transport where
  | tcp
  | udp
  | icmp
deriving DecidableEq, Repr, Inhabited

namespace Transport

/-- The keyword of a transport protocol in sources and port literals. -/
def keyword : Transport → String
  | .tcp => "tcp"
  | .udp => "udp"
  | .icmp => "icmp"

/-- The name of a transport protocol in registrations. -/
def name : Transport → String
  | .tcp => "TCP"
  | .udp => "UDP"
  | .icmp => "ICMP"

/-- The transport protocols in the order in which keywords are tried. -/
def all : List Transport :=
  [.tcp, .udp, .icmp]

/-- The transport protocol with a keyword. -/
def ofKeyword? (keyword : String) : Option Transport :=
  all.find? fun transport => transport.keyword == keyword

/-- A keyword names one transport protocol. -/
@[simp]
theorem ofKeyword?_keyword (transport : Transport) :
    ofKeyword? transport.keyword = some transport := by
  cases transport <;> decide

end Transport

/-- A port of a transport protocol. -/
structure Port where
  number : Nat
  transport : Transport
deriving DecidableEq, Repr

/-- The largest port number. -/
def Port.maxNumber : Nat := 65535

/-- A port as it is written. -/
def Port.text (port : Port) : String :=
  toString port.number ++ "/" ++ port.transport.keyword

end AnalyzerGlue
