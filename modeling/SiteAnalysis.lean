import SiteAnalysis.Credits.Sync
import SiteAnalysis.Audits.Outcome
import SiteAnalysis.Gtmetrix.Completion
import SiteAnalysis.Gtmetrix.Retries
import SiteAnalysis.Reports.Permanence
import SiteAnalysis.Analysis.Cache
import SiteAnalysis.Analysis.Completion
import SiteAnalysis.Ssl.Service
import SiteAnalysis.Validator.RoundTrip
import SiteAnalysis.Validator.Coverage
import SiteAnalysis.Validator.Edits
import SiteAnalysis.Validator.Flatten
import SiteAnalysis.Validator.QuickCheck
import SiteAnalysis.Validator.Syntax
import SiteAnalysis.Validator.Rerun
import SiteAnalysis.Linkchecker.Summary
import SiteAnalysis.Linkchecker.Counts
import SiteAnalysis.Linkchecker.Guard
import SiteAnalysis.FullReport.Expiry
import SiteAnalysis.SpeedTests.Submission
import SiteAnalysis.Analysis.Rollups
import SiteAnalysis.Analysis.Upserts
import SiteAnalysis.Linkchecker.Extraction
import SiteAnalysis.Common.Hosts
import SiteAnalysis.FullReport.Improvement
import SiteAnalysis.Ssl.Grades
import SiteAnalysis.FullReport.Clients
import SiteAnalysis.Gtmetrix.Resumption
import SiteAnalysis.Audits.History
import SiteAnalysis.Audits.Purchases
import SiteAnalysis.Validator.Types
import SiteAnalysis.Validator.Ordering
import SiteAnalysis.FullReport.Tables
import SiteAnalysis.Users.Tokens
import SiteAnalysis.Users.Revocation
import SiteAnalysis.Users.Registered
import SiteAnalysis.Users.Updates
import SiteAnalysis.Reports.Ownership
import SiteAnalysis.Users.Access
import SiteAnalysis.Users.Credentials
import SiteAnalysis.FullReport.Completion
import SiteAnalysis.Relational.Separate
import SiteAnalysis.Validator.Parallel
