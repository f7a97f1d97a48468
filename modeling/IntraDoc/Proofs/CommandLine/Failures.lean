import IntraDoc.Proofs.Crate.Failures
import IntraDoc.Proofs.Ignore.Failures

/-!
# Failures that no run deals with

Loading the links to keep and discovering crates can fail in ways that a run does not report. Which
inputs these are is said here for both.
-/

namespace IntraDoc

namespace CommandLine

end CommandLine

end IntraDoc
