import WireProxy.Text.NameSet

/-!
# Settings

What a run can be told: the namespace stem of interface names, the interfaces that are written by
hand, and the fixed parts of the output.
-/

namespace WireProxy

structure OutputStyle where
  headerGuard : String := "WAYLAND_HPP"
  systemIncludes : List String := ["array", "functional", "memory", "string", "vector"]
  runtimeInclude : String := "wayland-client.hpp"
  definitionsInclude : String := "wayland-client-protocol.hpp"
  deriving DecidableEq, Repr

instance : Inhabited OutputStyle := ⟨{}⟩

structure Settings where
  /-- What interface names begin with in documents and in descriptor symbols. -/
  stem : String := "wl_"
  /-- Interfaces that get no generated proxy. -/
  handMaintained : NameSet := .ofList ["display"]
  output : OutputStyle := {}
  deriving DecidableEq

instance : Inhabited Settings := ⟨{}⟩

def Settings.isHandMaintained (settings : Settings) (interface : String) : Bool :=
  settings.handMaintained.contains interface

/-- A name without the stem, if it begins with it; the stem is taken off once. -/
def stripStem (stem name : String) : String :=
  if stem.toList.isPrefixOf name.toList then String.ofList (name.toList.drop stem.toList.length)
  else name

end WireProxy
