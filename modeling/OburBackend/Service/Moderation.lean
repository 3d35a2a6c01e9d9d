import OburBackend.Service.Account
import OburBackend.Service.Venue
import OburBackend.Service.Reaction
import OburBackend.Sql.Writes

/-!
# Administrators and the resolution of reports

`require_admin` of `app/core/authz.py`, and the functions of `app/services/content_report.py` and
`venue_report.py` that resolve a report. Both kinds of report have the same three columns for it,
their `Resolution`. A flush sends the columns whose new value differs from the loaded one, so what
two resolutions of one report leave can be a mixture of both (`Resolution.merge`).
-/

namespace OburBackend

open Sql

/-- What a handler can raise. -/
inductive ApiError where
  /-- An error of a service. -/
  | service (e : PyError)
  /-- `VenueReportNotFoundError`, with its message. -/
  | venueReportNotFound (message : String)
  /-- `RecursionError` -/
  | recursionError
  deriving DecidableEq, Repr

instance : OfDbError ApiError := ⟨fun e => .service (.database e)⟩

/-- A route handler, or a part of one. -/
abbrev Handler := Prog Db Lock Identity Stmt ApiError

/-- A service as a part of a handler. -/
def Handler.call {α : Type} (p : Service α) : Handler α := p.mapError .service

/-- `require_admin` -/
def requireAdmin (c : Ctx) (request : Request) : Service User := do
  let currentUser ← getCurrentUser c request
  if currentUser.role ≠ UserRole.admin then
    .raise (.problem "admin-required")
  else
    return currentUser

/-! ## Resolving a report -/

/-- The columns of a report that say how it has been resolved. -/
structure Resolution where
  status : ReportStatus
  resolvedBy : Option Uuid
  resolvedAt : Option Timestamp
  deriving DecidableEq, Repr

namespace Resolution

/-- A report that nobody has resolved. -/
def pending : Resolution := ⟨.pending, none, none⟩

/-- The columns of a stored row after an `UPDATE` of those columns that `new` changes of the loaded
ones. -/
def merge (loaded new stored : Resolution) : Resolution where
  status := if new.status = loaded.status then stored.status else new.status
  resolvedBy := if new.resolvedBy = loaded.resolvedBy then stored.resolvedBy else new.resolvedBy
  resolvedAt := if new.resolvedAt = loaded.resolvedAt then stored.resolvedAt else new.resolvedAt

/-- On the row as it was loaded, the new columns. -/
@[simp] theorem merge_self (loaded new : Resolution) : merge loaded new loaded = new := by
  cases loaded
  cases new
  simp only [merge, mk.injEq]
  refine ⟨?_, ?_, ?_⟩ <;> split <;> simp_all

end Resolution

def ContentReport.resolution (r : ContentReport) : Resolution :=
  ⟨r.status, r.resolvedBy, r.resolvedAt⟩

def ContentReport.withResolution (r : ContentReport) (x : Resolution) : ContentReport :=
  { r with status := x.status, resolvedBy := x.resolvedBy, resolvedAt := x.resolvedAt }

def VenueReport.resolution (r : VenueReport) : Resolution :=
  ⟨r.status, r.resolvedBy, r.resolvedAt⟩

def VenueReport.withResolution (r : VenueReport) (x : Resolution) : VenueReport :=
  { r with status := x.status, resolvedBy := x.resolvedBy, resolvedAt := x.resolvedAt }

/-- The common part of `_resolve_content_report` and `_resolve_venue_report`: the columns of the
loaded report are set to `new`. -/
def saveResolution {ρ : Type} {key : ρ → Uuid} (T : DbTable key) (reportId : Uuid)
    (loaded new : Resolution) (resolution : ρ → Resolution) (withResolution : ρ → Resolution → ρ)
    (hkey : ∀ r x, key (withResolution r x) = key r) : Service ρ := do
  if new ≠ loaded then
    T.update reportId (fun r => some (withResolution r (loaded.merge new (resolution r)))) (by
      rintro r _ ⟨⟩
      exact hkey r _)
  commit
  refresh T reportId

/-- `_resolve_content_report` -/
def resolveContentReport (c : Ctx) (reportId adminId : Uuid) (status : ReportStatus) :
    Service ContentReport := do
  match ← contentReports.get reportId with
  | none => raiseDomain .contentReportNotFound ("content report not found: " ++ reportId.str)
  | some report =>
    saveResolution contentReports reportId report.resolution ⟨status, some adminId, some c.now⟩
      ContentReport.resolution ContentReport.withResolution fun _ _ => rfl

/-- `dismiss_content_report` -/
def dismissContentReport (c : Ctx) (reportId adminId : Uuid) : Service ContentReport :=
  resolveContentReport c reportId adminId .dismissed

/-- `action_content_report` -/
def actionContentReport (c : Ctx) (reportId adminId : Uuid) : Service ContentReport :=
  resolveContentReport c reportId adminId .actioned

/-- `_resolve_venue_report` -/
def resolveVenueReport (c : Ctx) (reportId adminId : Uuid) (status : ReportStatus) :
    Handler VenueReport := do
  match ← venueReports.get reportId with
  | none => .raise (.venueReportNotFound ("venue report not found: " ++ reportId.str))
  | some report =>
    .call (saveResolution venueReports reportId report.resolution
      ⟨status, some adminId, some c.now⟩ VenueReport.resolution VenueReport.withResolution
      fun _ _ => rfl)

/-- `dismiss_venue_report` -/
def dismissVenueReport (c : Ctx) (reportId adminId : Uuid) : Handler VenueReport :=
  resolveVenueReport c reportId adminId .dismissed

/-- `action_venue_report` -/
def actionVenueReport (c : Ctx) (reportId adminId : Uuid) : Handler VenueReport :=
  resolveVenueReport c reportId adminId .actioned

end OburBackend
