import SiteAnalysis.Reports.Rows

/-
  This file defines the reading of a TLS scan: what sslyze
  answers, the grade, and the columns of a report.

  Key definitions include:
    * `ScanResult`
    * `ServerScanResult`
    * `synthesiseGrade`
    * `parseScan`
    * `readScan`
-/

------------------------------------------------------------
-- Scan Results
------------------------------------------------------------

namespace SiteAnalysis.Ssl

open Python
open Reports

/- The protocols of `PROTOCOL_SCANS`. -/
inductive Protocol
  | ssl20
  | ssl30
  | tls10
  | tls11
  | tls12
  | tls13
deriving DecidableEq

def Protocol.label : Protocol → String
| .ssl20 => "SSL 2.0"
| .ssl30 => "SSL 3.0"
| .tls10 => "TLS 1.0"
| .tls11 => "TLS 1.1"
| .tls12 => "TLS 1.2"
| .tls13 => "TLS 1.3"

def protocolScans : List Protocol :=
  [.ssl20, .ssl30, .tls10, .tls11, .tls12, .tls13]

structure Certificate where
  subject : String
  issuer : String
  notValidBefore : Time
  notValidAfter : Time

structure CertificateDeployment where
  receivedCertificateChain : List Certificate
  pathValidations : List Bool

/-
  The results of the scan commands; a command that did not
  complete has none.
-/
structure ScanResult where
  acceptedCipherSuites : Protocol → Option Nat
  certificateInfo : Option (List CertificateDeployment)
  heartbleed : Option Bool
  opensslCcsInjection : Option Bool
  robot : Option String
  supportsCompression : Option Bool
  supportsSecureRenegotiation : Option Bool

/-
  The first result of the scanner: whether the scan completed
  and the name of its status.
-/
structure ServerScanResult where
  completed : Bool
  scanStatus : String
  ipAddress : Option String
  result : ScanResult

------------------------------------------------------------
-- Grades
------------------------------------------------------------

/- The entries of the `vulnerabilities` dictionary. -/
abbrev Vulnerabilities := List (String × Bool)

/- `bool(vulnerabilities.get(name))` -/
def Vulnerabilities.found
    (vulnerabilities : Vulnerabilities)
    (name : String) : Bool :=
  (vulnerabilities.lookup name).getD false

def synthesiseGrade
    (protocols : List Protocol)
    (vulnerabilities : Vulnerabilities)
    (expiresInDays : Option Int)
    (isTrusted : Option Bool) : String :=
  let insecureSsl :=
    decide (.ssl20 ∈ protocols ∨ .ssl30 ∈ protocols)
  let seriousVuln :=
    ["heartbleed", "openssl_ccs_injection", "robot"].any
      vulnerabilities.found
  if insecureSsl || seriousVuln then
    "F"
  else if isTrusted = some false then
    "T"
  else if expiresInDays.any (fun days => days < 0) then
    "F"
  else if .tls10 ∈ protocols ∨ .tls11 ∈ protocols then
    "B"
  else
    let minorIssue :=
      vulnerabilities.found "tls_compression_crime" ||
        vulnerabilities.found "insecure_renegotiation"
    if .tls13 ∈ protocols ∧ minorIssue = false then
      "A+"
    else
      "A"

/- The dictionary of the commands that completed. -/
def vulnerabilitiesOf
    (scan : ScanResult) : Vulnerabilities :=
  let entry :=
    fun (name : String) (found : Option Bool) =>
      (found.map (fun b => (name, b))).toList
  entry "heartbleed" scan.heartbleed ++
    entry "openssl_ccs_injection"
      scan.opensslCcsInjection ++
    entry "robot"
      (scan.robot.map (fun s => "VULNERABLE".isPrefixOf s)) ++
    entry "tls_compression_crime" scan.supportsCompression ++
    entry "insecure_renegotiation"
      (scan.supportsSecureRenegotiation.map not)

/- The protocols with an accepted cipher suite. -/
def acceptedProtocols
    (scan : ScanResult) : List Protocol :=
  protocolScans.filter fun p =>
    (scan.acceptedCipherSuites p).any (fun n => 0 < n)

/- `cipher_counts` -/
def cipherCounts
    (scan : ScanResult) : List (String × Json) :=
  protocolScans.filterMap fun p =>
    (scan.acceptedCipherSuites p).map
      (fun n => (p.label, .int n))

/- What `_parse` reads from the certificate command. -/
structure Leaf where
  subject : String
  issuer : String
  validFrom : Option Time
  validTo : Option Time
  expiresInDays : Option Int
  isTrusted : Option Bool

def Leaf.unknown : Leaf where
  subject := ""
  issuer := ""
  validFrom := none
  validTo := none
  expiresInDays := none
  isTrusted := none

/- The whole days of a difference, `timedelta.days`. -/
def wholeDays (difference : Time) : Int :=
  difference / (86400 * 1000000)

/- The leaf certificate of the first deployment. -/
def readLeaf
    (now : Time) :
    Option (List CertificateDeployment) → Except PyError Leaf
| none => .ok .unknown
| some [] => .error (.indexError "list index out of range")
| some (deployment :: _) =>
    match deployment.receivedCertificateChain with
    | [] => .error (.indexError "list index out of range")
    | leaf :: _ =>
        .ok
          { subject := leaf.subject
            issuer := leaf.issuer
            validFrom := some leaf.notValidBefore
            validTo := some leaf.notValidAfter
            expiresInDays :=
              some (wholeDays (leaf.notValidAfter - now))
            isTrusted :=
              some (deployment.pathValidations.any id) }

------------------------------------------------------------
-- Columns
------------------------------------------------------------

/- `value or None` rendered as JSON. -/
def optionalJson
    {α : Type}
    (wrap : α → Json) : Option α → Json
| none => .null
| some a => wrap a

/- A point in time in an answer, `isoformat`. -/
def timeJson
    (isoformat : Time → String)
    (t : Option Time) : Json :=
  optionalJson (fun t => .str (isoformat t)) t

def vulnerabilitiesJson
    (vulnerabilities : Vulnerabilities) : Json :=
  .obj (vulnerabilities.map (fun v => (v.1, .bool v.2)))

def protocolsJson (protocols : List Protocol) : Json :=
  .arr (protocols.map (fun p => .str p.label))

/- The result dictionary: own columns and raw response. -/
structure ParsedScan where
  columns : SSLColumns
  rawResponse : Json

/- `_parse`; `isoformat` prints a `datetime`. -/
def parseScan
    (isoformat : Time → String)
    (now : Time)
    (host : String)
    (server : ServerScanResult) :
    Except PyError ParsedScan := do
  let scan := server.result
  let protocols := acceptedProtocols scan
  let leaf ← readLeaf now scan.certificateInfo
  let vulnerabilities := vulnerabilitiesOf scan
  let grade :=
    synthesiseGrade protocols vulnerabilities
      leaf.expiresInDays leaf.isTrusted
  let weak :=
    decide (.tls10 ∈ protocols ∨ .tls11 ∈ protocols)
  let hasWarnings :=
    weak || vulnerabilities.any (fun v => v.2) ||
      leaf.isTrusted == some false ||
        leaf.expiresInDays.any (fun days => days < 30)
  pure
    { columns :=
        { host := host
          grade := grade
          hasWarnings := hasWarnings
          ipAddress := server.ipAddress.getD ""
          serverName := host
          certSubject := leaf.subject
          certIssuer := leaf.issuer
          certValidFrom := leaf.validFrom
          certValidTo := leaf.validTo
          certExpiresInDays := leaf.expiresInDays
          certIsTrusted := leaf.isTrusted
          protocols := protocolsJson protocols
          vulnerabilities :=
            vulnerabilitiesJson vulnerabilities }
      rawResponse :=
        .obj
          [("protocols", protocolsJson protocols),
            ("cipher_counts", .obj (cipherCounts scan)),
            ("certificate",
              .obj
                [("subject", .str leaf.subject),
                  ("issuer", .str leaf.issuer),
                  ("valid_from",
                    timeJson isoformat leaf.validFrom),
                  ("valid_to",
                    timeJson isoformat leaf.validTo),
                  ("expires_in_days",
                    optionalJson .int leaf.expiresInDays),
                  ("is_trusted",
                    optionalJson .bool leaf.isTrusted)]),
            ("vulnerabilities",
              vulnerabilitiesJson vulnerabilities)] }

/- What `run_ssl_scan` makes of the scanner's first result. -/
def readScan
    (isoformat : Time → String)
    (now : Time)
    (host : String)
    (port : Nat) :
    Option ServerScanResult → Except Exc ParsedScan
| none =>
    .error
      (ErrorKind.sslScan.error "No scan result returned."
        [("host", .str host)])
| some server =>
    if server.completed then
      fromPython (parseScan isoformat now host server)
    else
      .error
        (ErrorKind.sslScan.error
          ("Could not connect to " ++ host ++ ":" ++
            toString port ++ ".")
          [("host", .str host),
            ("scan_status", .str server.scanStatus)])

end SiteAnalysis.Ssl
