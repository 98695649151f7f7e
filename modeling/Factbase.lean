import Factbase.Proofs.Data.Rereading
import Factbase.Proofs.Data.RoundTrips
import Factbase.Proofs.Data.Shapes
import Factbase.Proofs.Grouping.Copies
import Factbase.Proofs.Grouping.Outcomes
import Factbase.Proofs.Query.Distinct
import Factbase.Proofs.Query.EqualValues
import Factbase.Proofs.Query.Existence
import Factbase.Proofs.Query.Groups
import Factbase.Proofs.Query.Integers
import Factbase.Proofs.Query.Moments
import Factbase.Proofs.Query.Refinements
import Factbase.Proofs.Query.Scans
import Factbase.Proofs.Query.Separation
import Factbase.Proofs.Query.Starts
import Factbase.Proofs.Query.Texts
import Factbase.Proofs.Query.Thresholds
import Factbase.Proofs.Query.Timeline
import Factbase.Proofs.Settings.Layers
import Factbase.Proofs.Store.Batches
import Factbase.Proofs.Store.FailedOpenings
import Factbase.Proofs.Store.Floats
import Factbase.Proofs.Store.Openings
import Factbase.Proofs.Store.Representatives
import Factbase.Proofs.Store.Sharing
import Factbase.Proofs.Store.Statements
import Factbase.Settings.Load
import Factbase.Settings.LogFilter
import Factbase.Store.Session
import Factbase.Store.Sql
