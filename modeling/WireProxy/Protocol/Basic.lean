import WireProxy.Protocol.Interface

/-!
# Protocols

A protocol is a named collection of interfaces, each under a key of its own, in the order in which
they were put there.
-/

namespace WireProxy

structure Protocol where
  name : Option String
  entries : List (String × Interface)
  keys_nodup : (entries.map Prod.fst).Nodup
  deriving DecidableEq

namespace Protocol

def empty (name : Option String) : Protocol :=
  ⟨name, [], .nil⟩

instance : Inhabited Protocol := ⟨empty none⟩

def keys (p : Protocol) : List String :=
  p.entries.map Prod.fst

def interfaces (p : Protocol) : List Interface :=
  p.entries.map Prod.snd

def size (p : Protocol) : Nat :=
  p.entries.length

def get? (p : Protocol) (key : String) : Option Interface :=
  p.entries.lookup key

/-- Adds an interface at the end under a key, unless the key is taken. -/
def add? (p : Protocol) (key : String) (interface : Interface) : Option Protocol :=
  if fresh : key ∈ p.entries.map Prod.fst then none
  else some {
    name := p.name
    entries := p.entries ++ [(key, interface)]
    keys_nodup := by
      rw [List.map_append]
      refine List.nodup_append.mpr ⟨p.keys_nodup, by simp, fun a ha b hb => ?_⟩
      simp only [List.map_cons, List.map_nil, List.mem_singleton] at hb
      rintro rfl
      exact fresh (hb ▸ ha) }

def insert? (p : Protocol) (interface : Interface) : Option Protocol :=
  p.add? interface.name interface

end Protocol

end WireProxy
