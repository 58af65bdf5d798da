import Templating.Bundle.Rendering
import Templating.Check.Findings

/-!
# The kinds of records

All kinds of records that are exchanged with the outside. Data accepted as a record of a kind and
written back as a value has all fields of the record, in the order of their declaration and with
their defaults, and every field in one form.

## Main definitions

* `RecordKind`: the kinds.
* `RecordKind.normalise`: data accepted as a record and written back.
-/

namespace Templating

/-- The kinds of records. -/
inductive RecordKind where
  | timedRendering
  | optionDecl
  | fileDecl
  | bundle
  | findings
  | fileFindings
  | report
  | summary
  | renderedFile
  | skippedFile
  | bundleRendering
  deriving DecidableEq

/-- Data accepted as a record of a kind and written back as a value, by the `decode` and the
`encode` of the kind. -/
def RecordKind.normalise : RecordKind → Value → Checked Value
  | timedRendering, v => (TimedRendering.decode v).map TimedRendering.encode
  | optionDecl, v => (OptionDecl.decode v).map OptionDecl.encode
  | fileDecl, v => (FileDecl.decode v).map FileDecl.encode
  | bundle, v => (Bundle.decode v).map Bundle.encode
  | findings, v => (Findings.decode v).map Findings.encode
  | fileFindings, v => (FileFindings.decode v).map FileFindings.encode
  | report, v => (Report.decode v).map Report.encode
  | summary, v => (Summary.decode v).map Summary.encode
  | renderedFile, v => (RenderedFile.decode v).map RenderedFile.encode
  | skippedFile, v => (SkippedFile.decode v).map SkippedFile.encode
  | bundleRendering, v => (BundleRendering.decode v).map BundleRendering.encode

/-- Data accepted as a record of a kind and written back, or a fault. -/
def RecordKind.normalised (kind : RecordKind) (v : Value) : Except Fault Value :=
  (kind.normalise v).toExcept

end Templating
