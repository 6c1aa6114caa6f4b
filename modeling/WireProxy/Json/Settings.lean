import WireProxy.Json.Value
import WireProxy.Settings

/-!
# JSON of settings

All fields are required; the set of hand-maintained interfaces is an array.
-/

namespace WireProxy

open Json

def OutputStyle.toJson (style : OutputStyle) : Json :=
  .object [("header_guard", .string style.headerGuard),
    ("system_includes", strings style.systemIncludes),
    ("runtime_include", .string style.runtimeInclude),
    ("definitions_include", .string style.definitionsInclude)]

def OutputStyle.ofJson? : Json → Option OutputStyle :=
  record? ["header_guard", "system_includes", "runtime_include", "definitions_include"] []
    fun j => do
    let headerGuard ← required? string? "header_guard" j
    let systemIncludes ← required? (list? string?) "system_includes" j
    let runtimeInclude ← required? string? "runtime_include" j
    let definitionsInclude ← required? string? "definitions_include" j
    return { headerGuard, systemIncludes, runtimeInclude, definitionsInclude }

def Settings.toJson (settings : Settings) : Json :=
  .object [("namespace_prefix", .string settings.stem),
    ("hand_maintained", strings settings.handMaintained.toList),
    ("output", settings.output.toJson)]

def Settings.ofJson? : Json → Option Settings :=
  record? ["namespace_prefix", "hand_maintained", "output"] [] fun j => do
    let stem ← required? string? "namespace_prefix" j
    let handMaintained ← required? (list? string?) "hand_maintained" j
    let output ← required? OutputStyle.ofJson? "output" j
    return { stem, handMaintained := .ofList handMaintained, output }

end WireProxy
