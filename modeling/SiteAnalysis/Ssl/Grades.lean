import SiteAnalysis.Ssl.Scanner

/-
  This file proves which findings of a scan the grade and the
  warning flag of a report speak of.  The two are computed
  apart, over the same findings.

  Key definitions include:
    * `Accepts`
    * `Serious`
    * `Warned`
    * `Unproblematic`

  Key theorems include:
    * `synthesiseGrade_best_iff`
    * `parseScan_eq_ok_iff`
    * `unflagged_best_iff`
    * `best_iff_unproblematic`
-/

------------------------------------------------------------
-- Findings
------------------------------------------------------------

namespace SiteAnalysis.Ssl

open Python
open Reports

/- The server has accepted a cipher suite of the protocol. -/
def Accepts
    (scan : ScanResult)
    (p : Protocol) : Prop :=
  ∃ n, scan.acceptedCipherSuites p = some n ∧ 0 < n

/- A check has found Heartbleed, CCS injection or ROBOT. -/
def Serious (scan : ScanResult) : Prop :=
  scan.heartbleed = some true ∨
    scan.opensslCcsInjection = some true ∨
    ∃ name, scan.robot = some name ∧
      "VULNERABLE".isPrefixOf name = true

/- A check has found compression or insecure renegotiation. -/
def Minor (scan : ScanResult) : Prop :=
  scan.supportsCompression = some true ∨
    scan.supportsSecureRenegotiation = some false

/- The first deployment of the scan and its first certificate. -/
def HasLeaf
    (scan : ScanResult)
    (deployment : CertificateDeployment)
    (leaf : Certificate) : Prop :=
  ∃ deployments chain,
    scan.certificateInfo = some (deployment :: deployments) ∧
      deployment.receivedCertificateChain = leaf :: chain

/- The certificate check completed without a certificate. -/
def Leafless (scan : ScanResult) : Prop :=
  (∃ deployments, scan.certificateInfo = some deployments) ∧
    ∀ deployment leaf, ¬ HasLeaf scan deployment leaf

/- No path validation was successful. -/
def Untrusted (deployment : CertificateDeployment) : Prop :=
  ∀ successful ∈ deployment.pathValidations,
    successful = false

/- The leaf expires in less than so many days. -/
def ExpiresWithin
    (days : Int)
    (now : Time)
    (leaf : Certificate) : Prop :=
  wholeDays (leaf.notValidAfter - now) < days

/- What raises the flag of a report. -/
def Warned
    (now : Time)
    (scan : ScanResult) : Prop :=
  Accepts scan .tls10 ∨ Accepts scan .tls11 ∨
    Serious scan ∨ Minor scan ∨
    ∃ deployment leaf, HasLeaf scan deployment leaf ∧
      (Untrusted deployment ∨ ExpiresWithin 30 now leaf)

/-
  No completed check has established a problem: no protocol
  before TLS 1.2 was accepted, none of the serious
  vulnerabilities was found, and a certificate that was
  checked is trusted and not expired.
-/
structure Unproblematic
    (now : Time)
    (scan : ScanResult) : Prop where
  ssl20 : ¬ Accepts scan .ssl20
  ssl30 : ¬ Accepts scan .ssl30
  tls10 : ¬ Accepts scan .tls10
  tls11 : ¬ Accepts scan .tls11
  serious : ¬ Serious scan
  certificate :
    ∀ deployment leaf, HasLeaf scan deployment leaf →
      ¬ Untrusted deployment ∧ now ≤ leaf.notValidAfter

------------------------------------------------------------
-- What the Scan Says
------------------------------------------------------------

theorem mem_protocolScans
    (p : Protocol) : p ∈ protocolScans := by
  cases p <;> decide

theorem mem_acceptedProtocols_iff
    (scan : ScanResult)
    (p : Protocol) :
    p ∈ acceptedProtocols scan ↔ Accepts scan p := by
  simp [acceptedProtocols, mem_protocolScans, Accepts,
    Option.any_eq_true]

/- The entry of a check that completed. -/
theorem lookup_entry
    (key name : String)
    (found : Option Bool) :
    (found.map (fun b => (name, b))).toList.lookup key =
      if key = name then found else none := by
  cases found with
  | none => simp
  | some b =>
      rw [Option.map_some, Option.toList_some]
      by_cases hSame : key = name
      · subst hSame
        simp
      · have hOther : (key == name) = false :=
          beq_false_of_ne hSame
        rw [List.lookup_cons, hOther, if_neg hSame,
          List.lookup_nil]

theorem any_entry
    (name : String)
    (found : Option Bool) :
    (found.map (fun b => (name, b))).toList.any
        (fun v => v.2) =
      (found == some true) := by
  cases found with
  | none => rfl
  | some b => cases b <;> rfl

/- One of the serious vulnerabilities is found. -/
theorem serious_iff
    (scan : ScanResult) :
    ["heartbleed", "openssl_ccs_injection", "robot"].any
        (vulnerabilitiesOf scan).found = true ↔
      Serious scan := by
  have hFound :
      ∀ found : Option Bool,
        found.getD false = true ↔ found = some true := by
    intro found
    cases found <;> simp
  simp [-Option.map_map, Vulnerabilities.found,
    vulnerabilitiesOf, List.lookup_append, lookup_entry,
    hFound, Serious]

/- One of the minor vulnerabilities is found. -/
theorem minor_iff
    (scan : ScanResult) :
    ((vulnerabilitiesOf scan).found
          "tls_compression_crime" ||
        (vulnerabilitiesOf scan).found
          "insecure_renegotiation") = true ↔
      Minor scan := by
  have hFound :
      ∀ found : Option Bool,
        found.getD false = true ↔ found = some true := by
    intro found
    cases found <;> simp
  simp [-Option.map_map, Vulnerabilities.found,
    vulnerabilitiesOf, List.lookup_append, lookup_entry,
    hFound, Minor]

/- Some vulnerability is found. -/
theorem any_vulnerabilitiesOf_iff
    (scan : ScanResult) :
    (vulnerabilitiesOf scan).any (fun v => v.2) = true ↔
      Serious scan ∨ Minor scan := by
  simp only [vulnerabilitiesOf, List.any_append, any_entry,
    Bool.or_eq_true, beq_iff_eq, Option.map_eq_some_iff,
    Bool.not_eq_true', exists_eq_right, Serious, Minor,
    or_assoc]

------------------------------------------------------------
-- What the Certificate Says
------------------------------------------------------------

/- What is read of a certificate that was checked. -/
def leafOf
    (now : Time)
    (deployment : CertificateDeployment)
    (leaf : Certificate) : Leaf where
  subject := leaf.subject
  issuer := leaf.issuer
  validFrom := some leaf.notValidBefore
  validTo := some leaf.notValidAfter
  expiresInDays :=
    some (wholeDays (leaf.notValidAfter - now))
  isTrusted := some (deployment.pathValidations.any id)

/-
  Either the certificate check did not complete, or it has a
  first certificate, or the reading raises.
-/
theorem readLeaf_cases
    (now : Time)
    (scan : ScanResult) :
    (scan.certificateInfo = none ∧
        readLeaf now scan.certificateInfo = .ok .unknown) ∨
      (∃ deployment leaf, HasLeaf scan deployment leaf ∧
        readLeaf now scan.certificateInfo =
          .ok (leafOf now deployment leaf)) ∨
      (Leafless scan ∧
        ∃ e, readLeaf now scan.certificateInfo = .error e) := by
  cases hInfo : scan.certificateInfo with
  | none => exact Or.inl ⟨rfl, rfl⟩
  | some deployments =>
      right
      cases deployments with
      | nil =>
          refine Or.inr ⟨⟨⟨[], hInfo⟩, ?_⟩, _, rfl⟩
          rintro deployment leaf ⟨rest, chain, hSome, _⟩
          rw [hInfo] at hSome
          cases hSome
      | cons deployment rest =>
          cases hChain :
              deployment.receivedCertificateChain with
          | nil =>
              refine
                Or.inr ⟨⟨⟨_, hInfo⟩, ?_⟩,
                  .indexError "list index out of range", ?_⟩
              · rintro other leaf ⟨rest', chain, hSome, hLeaf⟩
                rw [hInfo] at hSome
                cases hSome
                rw [hChain] at hLeaf
                cases hLeaf
              · simp only [readLeaf, hChain]
          | cons leaf chain =>
              refine
                Or.inl
                  ⟨deployment, leaf,
                    ⟨rest, chain, hInfo, hChain⟩, ?_⟩
              simp only [readLeaf, hChain]
              rfl

/- There is one first certificate. -/
theorem hasLeaf_unique
    {scan : ScanResult}
    {deployment other : CertificateDeployment}
    {leaf leaf' : Certificate}
    (hFirst : HasLeaf scan deployment leaf)
    (hSecond : HasLeaf scan other leaf') :
    other = deployment ∧ leaf' = leaf := by
  rcases hFirst with ⟨rest, chain, hInfo, hChain⟩
  rcases hSecond with ⟨rest', chain', hInfo', hChain'⟩
  rw [hInfo] at hInfo'
  cases hInfo'
  rw [hChain] at hChain'
  cases hChain'
  exact ⟨rfl, rfl⟩

theorem untrusted_iff
    (deployment : CertificateDeployment) :
    some (deployment.pathValidations.any id) =
        some false ↔
      Untrusted deployment := by
  simp [Untrusted]

/- Less than no whole days is less than no time. -/
theorem wholeDays_neg_iff
    (difference : Int) :
    wholeDays difference < 0 ↔ difference < 0 := by
  unfold wholeDays
  omega

theorem expired_iff
    (now : Time)
    (leaf : Certificate) :
    wholeDays (leaf.notValidAfter - now) < 0 ↔
      ¬ now ≤ leaf.notValidAfter := by
  rw [wholeDays_neg_iff]
  constructor
  · intro hNegative hLe
    exact absurd (Int.sub_nonneg_of_le hLe) (by omega)
  · intro hNot
    exact Int.sub_neg_of_lt (Int.not_le.mp hNot)

------------------------------------------------------------
-- Grades and Flags
------------------------------------------------------------

/- When the cascade reaches its two best grades. -/
theorem synthesiseGrade_best_iff
    (protocols : List Protocol)
    (vulnerabilities : Vulnerabilities)
    (expiresInDays : Option Int)
    (isTrusted : Option Bool) :
    synthesiseGrade protocols vulnerabilities expiresInDays
        isTrusted ∈ ["A+", "A"] ↔
      .ssl20 ∉ protocols ∧ .ssl30 ∉ protocols ∧
        ["heartbleed", "openssl_ccs_injection", "robot"].any
          vulnerabilities.found = false ∧
        isTrusted ≠ some false ∧
        expiresInDays.any (fun days => days < 0) = false ∧
        .tls10 ∉ protocols ∧ .tls11 ∉ protocols := by
  unfold synthesiseGrade
  dsimp only
  split
  · rename_i hFailed
    rw [Bool.or_eq_true, decide_eq_true_eq] at hFailed
    constructor
    · intro hGrade
      exact absurd hGrade (by decide)
    · rintro ⟨hSsl20, hSsl30, hSerious, _⟩
      rcases hFailed with (hSsl | hSsl) | hFound
      · exact absurd hSsl hSsl20
      · exact absurd hSsl hSsl30
      · rw [hSerious] at hFound
        contradiction
  · rename_i hPassed
    rw [Bool.or_eq_true, decide_eq_true_eq, not_or, not_or,
      Bool.not_eq_true] at hPassed
    rcases hPassed with ⟨⟨hSsl20, hSsl30⟩, hSerious⟩
    simp only [hSsl20, hSsl30, hSerious, not_false_eq_true,
      true_and]
    split
    · rename_i hUntrusted
      simp [hUntrusted]
    · rename_i hTrusted
      simp only [hTrusted, ne_eq, not_false_eq_true, true_and]
      split
      · rename_i hExpired
        simp [hExpired]
      · rename_i hValid
        rw [Bool.not_eq_true] at hValid
        simp only [hValid, true_and]
        split
        · rename_i hOld
          have hNot :
              ¬ (.tls10 ∉ protocols ∧ .tls11 ∉ protocols) :=
            fun hNone =>
              hOld.elim hNone.1 hNone.2
          simp [hNot]
        · rename_i hNew
          rw [not_or] at hNew
          split
          · simp [hNew]
          · simp [hNew]

/- When the cascade reaches its best grade. -/
theorem synthesiseGrade_aPlus_iff
    (protocols : List Protocol)
    (vulnerabilities : Vulnerabilities)
    (expiresInDays : Option Int)
    (isTrusted : Option Bool) :
    synthesiseGrade protocols vulnerabilities expiresInDays
        isTrusted = "A+" ↔
      synthesiseGrade protocols vulnerabilities expiresInDays
          isTrusted ∈ ["A+", "A"] ∧
        .tls13 ∈ protocols ∧
        ¬ (vulnerabilities.found "tls_compression_crime" ||
            vulnerabilities.found
              "insecure_renegotiation") = true := by
  unfold synthesiseGrade
  dsimp only
  split
  · simp
  · split
    · simp
    · split
      · simp
      · split
        · simp
        · split
          · rename_i hBest
            simp [hBest]
          · rename_i hNot
            rw [Bool.not_eq_true]
            constructor
            · intro hGrade
              exact absurd hGrade (by decide)
            · intro hBest
              exact absurd hBest.2 hNot

/- What a parsed scan has read. -/
theorem parseScan_eq_ok
    {isoformat : Time → String}
    {now : Time}
    {host : String}
    {server : ServerScanResult}
    {parsed : ParsedScan}
    (hParse :
      parseScan isoformat now host server = .ok parsed) :
    ∃ leaf,
      readLeaf now server.result.certificateInfo =
          .ok leaf ∧
        parsed.columns.grade =
          synthesiseGrade (acceptedProtocols server.result)
            (vulnerabilitiesOf server.result)
            leaf.expiresInDays leaf.isTrusted ∧
        parsed.columns.hasWarnings =
          (decide
              (.tls10 ∈ acceptedProtocols server.result ∨
                .tls11 ∈ acceptedProtocols server.result) ||
            (vulnerabilitiesOf server.result).any
              (fun v => v.2) ||
            leaf.isTrusted == some false ||
            leaf.expiresInDays.any
              (fun days => days < 30)) := by
  dsimp only [parseScan] at hParse
  cases hLeaf :
      readLeaf now server.result.certificateInfo with
  | error e =>
      rw [hLeaf] at hParse
      cases hParse
  | ok leaf =>
      rw [hLeaf] at hParse
      cases hParse
      exact ⟨leaf, rfl, rfl, rfl⟩

/- A scan is parsed unless it has a check without a leaf. -/
theorem parseScan_isOk_iff
    (isoformat : Time → String)
    (now : Time)
    (host : String)
    (server : ServerScanResult) :
    (∃ parsed,
        parseScan isoformat now host server = .ok parsed) ↔
      ¬ Leafless server.result := by
  constructor
  · rintro ⟨parsed, hParse⟩ hLeafless
    rcases parseScan_eq_ok hParse with ⟨leaf, hLeaf, _⟩
    rcases readLeaf_cases now server.result with
      ⟨hNone, _⟩ | ⟨deployment, cert, hHas, _⟩ |
        ⟨_, e, hError⟩
    · rcases hLeafless.1 with ⟨deployments, hSome⟩
      rw [hNone] at hSome
      cases hSome
    · exact hLeafless.2 deployment cert hHas
    · rw [hError] at hLeaf
      cases hLeaf
  · intro hNot
    have hParsed :
        ∀ leaf,
          readLeaf now server.result.certificateInfo =
              .ok leaf →
            ∃ parsed,
              parseScan isoformat now host server =
                .ok parsed := by
      intro leaf hLeaf
      dsimp only [parseScan]
      rw [hLeaf]
      exact ⟨_, rfl⟩
    rcases readLeaf_cases now server.result with
      ⟨_, hLeaf⟩ | ⟨_, _, _, hLeaf⟩ | ⟨hLeafless, _⟩
    · exact hParsed _ hLeaf
    · exact hParsed _ hLeaf
    · exact absurd hLeafless hNot

/- What is read of the certificate, as the scan has it. -/
theorem readLeaf_facts
    {now : Time}
    {scan : ScanResult}
    {leaf : Leaf}
    (hLeaf : readLeaf now scan.certificateInfo = .ok leaf) :
    (leaf.isTrusted = some false ↔
        ∃ deployment cert, HasLeaf scan deployment cert ∧
          Untrusted deployment) ∧
      ∀ bound,
        leaf.expiresInDays.any (fun days => days < bound) =
            true ↔
          ∃ deployment cert, HasLeaf scan deployment cert ∧
            ExpiresWithin bound now cert := by
  rcases readLeaf_cases now scan with
    ⟨hNone, hRead⟩ | ⟨deployment, cert, hHas, hRead⟩ |
      ⟨_, e, hRead⟩
  · rw [hRead] at hLeaf
    cases hLeaf
    have hNever :
        ∀ deployment cert,
          ¬ HasLeaf scan deployment cert := by
      rintro deployment cert ⟨rest, chain, hSome, _⟩
      rw [hNone] at hSome
      cases hSome
    simp [Leaf.unknown, hNever]
  · rw [hRead] at hLeaf
    cases hLeaf
    constructor
    · rw [leafOf, untrusted_iff]
      constructor
      · intro hUntrusted
        exact ⟨deployment, cert, hHas, hUntrusted⟩
      · rintro ⟨other, cert', hOther, hUntrusted⟩
        rw [← (hasLeaf_unique hHas hOther).1]
        exact hUntrusted
    · intro bound
      rw [leafOf, Option.any_some, decide_eq_true_eq]
      constructor
      · intro hWithin
        exact ⟨deployment, cert, hHas, hWithin⟩
      · rintro ⟨other, cert', hOther, hWithin⟩
        rw [← (hasLeaf_unique hHas hOther).2]
        exact hWithin
  · rw [hRead] at hLeaf
    cases hLeaf

------------------------------------------------------------
-- Reports of Scans
------------------------------------------------------------

section Parsed

variable {isoformat : Time → String}
variable {now : Time}
variable {host : String}
variable {server : ServerScanResult}
variable {parsed : ParsedScan}

/- The flag is raised by the warnings of the scan. -/
theorem hasWarnings_iff
    (hParse :
      parseScan isoformat now host server = .ok parsed) :
    parsed.columns.hasWarnings = true ↔
      Warned now server.result := by
  rcases parseScan_eq_ok hParse with ⟨leaf, hLeaf, _, hFlag⟩
  rcases readLeaf_facts hLeaf with ⟨hTrusted, hExpires⟩
  have hExpires30 := hExpires 30
  simp only [hFlag, Bool.or_eq_true, decide_eq_true_eq,
    mem_acceptedProtocols_iff, any_vulnerabilitiesOf_iff,
    beq_iff_eq, hTrusted, hExpires30, or_assoc, Warned]
  have hEither :
      (∃ deployment cert,
          HasLeaf server.result deployment cert ∧
            (Untrusted deployment ∨
              ExpiresWithin 30 now cert)) ↔
        (∃ deployment cert,
            HasLeaf server.result deployment cert ∧
              Untrusted deployment) ∨
          ∃ deployment cert,
            HasLeaf server.result deployment cert ∧
              ExpiresWithin 30 now cert := by
    simp only [and_or_left, exists_or]
  rw [hEither]

/- The two best grades mean that no problem was found. -/
theorem grade_best_iff
    (hParse :
      parseScan isoformat now host server = .ok parsed) :
    parsed.columns.grade ∈ ["A+", "A"] ↔
      Unproblematic now server.result := by
  rcases parseScan_eq_ok hParse with ⟨leaf, hLeaf, hGrade, _⟩
  rcases readLeaf_facts hLeaf with ⟨hTrusted, hExpires⟩
  rw [hGrade, synthesiseGrade_best_iff]
  simp only [mem_acceptedProtocols_iff,
    ← Bool.not_eq_true, serious_iff, ne_eq, hTrusted,
    hExpires 0]
  constructor
  · rintro ⟨hSsl20, hSsl30, hSerious, hNotUntrusted,
      hNotExpired, hTls10, hTls11⟩
    refine
      ⟨hSsl20, hSsl30, hTls10, hTls11, hSerious, ?_⟩
    intro deployment cert hHas
    constructor
    · intro hUntrusted
      exact
        hNotUntrusted ⟨deployment, cert, hHas, hUntrusted⟩
    · by_contra hPast
      exact
        hNotExpired
          ⟨deployment, cert, hHas,
            (expired_iff now cert).mpr hPast⟩
  · intro hGood
    refine
      ⟨hGood.ssl20, hGood.ssl30, hGood.serious, ?_, ?_,
        hGood.tls10, hGood.tls11⟩
    · rintro ⟨deployment, cert, hHas, hUntrusted⟩
      exact
        (hGood.certificate deployment cert hHas).1 hUntrusted
    · rintro ⟨deployment, cert, hHas, hExpired⟩
      exact
        (expired_iff now cert).mp hExpired
          (hGood.certificate deployment cert hHas).2

/- The best grade means a modern protocol, too. -/
theorem grade_aPlus_iff
    (hParse :
      parseScan isoformat now host server = .ok parsed) :
    parsed.columns.grade = "A+" ↔
      Unproblematic now server.result ∧
        Accepts server.result .tls13 ∧
        ¬ Minor server.result := by
  rw [← grade_best_iff hParse]
  rcases parseScan_eq_ok hParse with ⟨leaf, _, hGrade, _⟩
  rw [hGrade, synthesiseGrade_aPlus_iff,
    mem_acceptedProtocols_iff, minor_iff]

end Parsed

/- What is not warned of is at most an insecure SSL. -/
theorem unproblematic_of_not_warned
    {now : Time}
    {scan : ScanResult}
    (hSsl20 : ¬ Accepts scan .ssl20)
    (hSsl30 : ¬ Accepts scan .ssl30)
    (hNot : ¬ Warned now scan) :
    Unproblematic now scan := by
  simp only [Warned, not_or] at hNot
  rcases hNot with ⟨hTls10, hTls11, hSerious, _, hNone⟩
  refine ⟨hSsl20, hSsl30, hTls10, hTls11, hSerious, ?_⟩
  intro deployment cert hHas
  constructor
  · intro hUntrusted
    exact hNone ⟨deployment, cert, hHas, Or.inl hUntrusted⟩
  · by_contra hPast
    have hExpired := (expired_iff now cert).mpr hPast
    have hSoon : ExpiresWithin 30 now cert := by
      unfold ExpiresWithin
      omega
    exact hNone ⟨deployment, cert, hHas, Or.inr hSoon⟩

/-
  A report without the flag has one of the two best grades,
  exactly when the server accepts neither SSL 2.0 nor SSL
  3.0, or something else raises the flag, or the certificate
  check has no certificate and nothing is parsed.
-/
theorem unflagged_best_iff
    (isoformat : Time → String)
    (now : Time)
    (host : String)
    (server : ServerScanResult) :
    (∀ parsed,
      parseScan isoformat now host server = .ok parsed →
        parsed.columns.hasWarnings = false →
        parsed.columns.grade ∈ ["A+", "A"]) ↔
      (¬ Accepts server.result .ssl20 ∧
          ¬ Accepts server.result .ssl30) ∨
        Warned now server.result ∨
        Leafless server.result := by
  constructor
  · intro hAll
    by_contra hNot
    rw [not_or, not_or] at hNot
    rcases hNot with ⟨hInsecure, hSilent, hLeaf⟩
    rcases
        (parseScan_isOk_iff isoformat now host server).mpr
          hLeaf with
      ⟨parsed, hParse⟩
    have hFlag : parsed.columns.hasWarnings = false := by
      rw [← Bool.not_eq_true, hasWarnings_iff hParse]
      exact hSilent
    have hGood :=
      (grade_best_iff hParse).mp (hAll parsed hParse hFlag)
    exact hInsecure ⟨hGood.ssl20, hGood.ssl30⟩
  · intro hCondition parsed hParse hFlag
    have hSilent : ¬ Warned now server.result := by
      rw [← hasWarnings_iff hParse, hFlag]
      exact Bool.false_ne_true
    have hLeaf : ¬ Leafless server.result :=
      (parseScan_isOk_iff isoformat now host server).mp
        ⟨parsed, hParse⟩
    rcases hCondition with hSecure | hWarned | hLeafless
    · exact
        (grade_best_iff hParse).mpr
          (unproblematic_of_not_warned hSecure.1 hSecure.2
            hSilent)
    · exact absurd hWarned hSilent
    · exact absurd hLeafless hLeaf

/- A certificate that is valid for a hundred days. -/
def longLivedLeaf : Certificate where
  subject := "CN=example.com"
  issuer := "CN=Example CA"
  notValidBefore := 0
  notValidAfter := 100 * 86400 * 1000000

/- A scan that finds a trusted certificate, and nothing else. -/
def trustedScan
    (accepted : Protocol → Option Nat) : ScanResult where
  acceptedCipherSuites := accepted
  certificateInfo := some [⟨[longLivedLeaf], [true]⟩]
  heartbleed := some false
  opensslCcsInjection := some false
  robot := some "NOT_VULNERABLE_NO_ORACLE"
  supportsCompression := some false
  supportsSecureRenegotiation := some true

def scanned (scan : ScanResult) : ServerScanResult where
  completed := true
  scanStatus := "COMPLETED"
  ipAddress := none
  result := scan

/- A server that accepts nothing but a suite of SSL 3.0. -/
def ssl30Scan : ServerScanResult :=
  scanned
    (trustedScan
      (fun p => some (if p = .ssl30 then 1 else 0)))

/- It is graded F without the flag. -/
theorem ssl30_graded_F_unflagged :
    ¬ ∀ isoformat now host server parsed,
      parseScan isoformat now host server = .ok parsed →
        parsed.columns.hasWarnings = false →
        parsed.columns.grade ∈ ["A+", "A"] := by
  intro hAll
  have hGrade :=
    hAll (fun _ => "") 0 "example.com" ssl30Scan _ rfl
      (by decide +kernel)
  exact absurd hGrade (by decide +kernel)

------------------------------------------------------------
-- Evidence
------------------------------------------------------------

/-
  Every scan that is parsed is graded A or A+ exactly when no
  completed check has established a problem, and A+ exactly
  when the server has also accepted TLS 1.3 and neither
  compression nor insecure renegotiation was found.
-/
theorem best_iff_unproblematic
    {isoformat : Time → String}
    {now : Time}
    {host : String}
    {server : ServerScanResult}
    {parsed : ParsedScan}
    (hParse :
      parseScan isoformat now host server = .ok parsed) :
    (parsed.columns.grade ∈ ["A+", "A"] ↔
        Unproblematic now server.result) ∧
      (parsed.columns.grade = "A+" ↔
        Unproblematic now server.result ∧
          Accepts server.result .tls13 ∧
          ¬ Minor server.result) :=
  ⟨grade_best_iff hParse, grade_aPlus_iff hParse⟩

/- A server that accepts suites of TLS 1.2 and TLS 1.3. -/
def modernScan : ServerScanResult :=
  scanned
    (trustedScan
      (fun p =>
        some (if p = .tls12 ∨ p = .tls13 then 5 else 0)))

/- The modern server is graded A+. -/
theorem best_iff_unproblematic_modern :
    ∃ parsed,
      parseScan (fun _ => "") 0 "example.com" modernScan =
          .ok parsed ∧
        parsed.columns.grade = "A+" ∧
        Unproblematic 0 modernScan.result := by
  have hParse :
      parseScan (fun _ => "") 0 "example.com" modernScan =
        .ok _ := rfl
  have hGrade :=
    (best_iff_unproblematic hParse).1.mp (by decide +kernel)
  exact ⟨_, hParse, by decide +kernel, hGrade⟩

/- The evidence that a grade of A or A+ would stand for. -/
structure Established
    (now : Time)
    (scan : ScanResult) : Prop where
  modern : Accepts scan .tls12 ∨ Accepts scan .tls13
  unproblematic : Unproblematic now scan
  certificate :
    ∃ deployment leaf, HasLeaf scan deployment leaf

/- A scan whose commands did not complete. -/
def emptyScan : ServerScanResult :=
  scanned
    { acceptedCipherSuites := fun _ => none
      certificateInfo := none
      heartbleed := none
      opensslCcsInjection := none
      robot := none
      supportsCompression := none
      supportsSecureRenegotiation := none }

/- It has established nothing, and is graded A. -/
theorem nothing_established_graded_A :
    ¬ ∀ isoformat now host server parsed,
      parseScan isoformat now host server = .ok parsed →
        parsed.columns.grade ∈ ["A+", "A"] →
        Established now server.result := by
  intro hAll
  have hEstablished :=
    hAll (fun _ => "") 0 "example.com" emptyScan _ rfl
      (by decide)
  rcases hEstablished.certificate with
    ⟨deployment, leaf, rest, chain, hSome, _⟩
  cases hSome

end SiteAnalysis.Ssl
