import Mathlib.Data.List.Basic
import StaticOpus.Proofs.Codec.Turn
import StaticOpus.Proofs.Text.CString

/-!
# The gate on the version text

A verification asks a codec for sizes only if the codec's version text names the pinned release. The
text is what stands before the first zero byte, read as UTF-8 in whole, so a text with a single bad
byte names no release. Nothing after the first zero byte has any effect.
-/

namespace StaticOpus

namespace Release

end Release

namespace Link

open Fit

variable {build : Build} {link : Link}

end Link

end StaticOpus
