import Conform.Document.Dump
import Conform.Log
import Conform.Report

/-!
Diagnoses: what is logged about a report. A failed report is logged with dumps of the shape and of the
subject for debugging, and with every message as an error.
-/
namespace Conform.Diagnosis

structure Line where
  level : Int
  message : String
deriving DecidableEq, Repr

/-- The lines about a report, up to a document that cannot be dumped. -/
def lines (r : Report) (shape subject : Except DumpError String) :
    List Line × Except DumpError Unit :=
  if r.isOk then ([⟨Log.debugLevel, "Subject matches the shape"⟩], .ok ())
  else
    match shape with
    | .error e => ([], .error e)
    | .ok shape =>
      let first := ⟨Log.debugLevel, "Shape:\n" ++ shape⟩
      match subject with
      | .error e => ([first], .error e)
      | .ok subject =>
        (first :: ⟨Log.debugLevel, "Subject:\n" ++ subject⟩
          :: r.messages.map fun m => ⟨Log.errorLevel, m⟩, .ok ())

end Conform.Diagnosis
