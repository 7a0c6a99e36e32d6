import UrlScan.Occurrence
import UrlScan.Url.Domain
import UrlScan.Url.Host

/-!
# Filtering

A filter drops the occurrences whose host lies under an ignored domain, those without a host, and,
unless they are wanted, those whose host is not fully qualified. It never drops a file.
-/

namespace UrlScan

structure Filter where
  /-- The ignored domains, normalized and not empty. -/
  ignored : List Text
  /-- Whether hosts of one label are kept. -/
  singleLabel : Bool
deriving DecidableEq, Repr

namespace Filter

/-- The filter for a list of ignored domains as they are written. -/
def ofDomains (domains : List Text) (singleLabel : Bool) : Filter :=
  ⟨(domains.map Domain.normalize).filter (!·.isEmpty), singleLabel⟩

def keeps (f : Filter) (url : Text) : Bool :=
  match Host.hostOf url with
  | none => false
  | some host =>
    !f.ignored.any (Domain.covers · host) && (f.singleLabel || Domain.isQualified host)

def applyTo (f : Filter) (result : FileResult) : FileResult :=
  { result with urls := result.urls.filter fun occurrence => f.keeps occurrence.url }

def applyToAll (f : Filter) (results : List FileResult) : List FileResult :=
  results.map f.applyTo

end Filter

end UrlScan
